import RefPages.Command.Grammar
import RefPages.Text.DecimalDigit
import RefPages.Text.Quoted

/-!
# Reading the command line

Arguments are first sorted: options, operands, and the mark `--` after which everything is an
operand. Long options may be shortened as long as only one is meant, a value may follow an equals
sign, and short options may be written together. Then they are taken from the left: options do what
they say, operands go to the command, and what nobody takes is left over.

* `Argument.ofText` sorts one argument; `cases_of_ofText` says how it becomes an option.
* `Stop` ends the command at once, with help or with an error.
* `Given` is what the options have set.
* `parse` reads the whole command line.
-/

set_option autoImplicit false
namespace RefPages
namespace Command

open Text

/-- The command ends at once: with its help, or with a report and exit code 2. -/
inductive Stop where
  | help (text : String)
  | usage (text : String)
  deriving DecidableEq, Repr

/-- An error in the use of a command. -/
def Grammar.error {α : Type} (g : Grammar) (message : String) : Except Stop α :=
  .error (.usage (g.usage ++ g.program ++ ": error: " ++ message ++ "\n"))

/-- An error in the use of an option. -/
def Grammar.optionError {α : Type} (g : Grammar) (spec : OptionSpec) (message : String) :
    Except Stop α :=
  g.error ("argument " ++ spec.name ++ ": " ++ message)

/-! ## Sorting -/

/-- An option as it is given: which one, its spelling in full, and a value that came with it. -/
structure OptionUse where
  spec : OptionSpec
  spelling : String
  value? : Option String
  deriving DecidableEq, Repr

/-- What an argument is. -/
inductive Argument where
  | operand (text : String)
  | dashes
  | option (text : String) (use? : Option OptionUse)
  deriving DecidableEq, Repr

/-- The argument as it was given. -/
def Argument.text : Argument → String
  | .operand text => text
  | .dashes => "--"
  | .option text _ => text

/-- Is it an option, known or not? -/
def Argument.isOption : Argument → Bool
  | .option .. => true
  | _ => false

/-- The spellings of a command's options, each with its option. -/
def Grammar.spellings (g : Grammar) : List (String × OptionSpec) :=
  g.options.flatMap fun spec => spec.spellings.map (·, spec)

/-- The text before the first equals sign and the text after it. -/
def splitAtEquals? (cs : List Char) : Option (String × String) :=
  match cs.dropWhile (· != '=') with
  | [] => none
  | _ :: value => some (String.ofList (cs.takeWhile (· != '=')), String.ofList value)

theorem splitAtEquals?_append {front : List Char} (h : '=' ∉ front) (rest : List Char) :
    splitAtEquals? (front ++ '=' :: rest) = some (String.ofList front, String.ofList rest) := by
  have hfront : ∀ c ∈ front, (c != '=') = true := fun c hc => bne_iff_ne.2 fun heq => h (heq ▸ hc)
  rw [splitAtEquals?, List.dropWhile_append_of_pos hfront, List.takeWhile_append_of_pos hfront]
  simp

theorem splitAtEquals?_eq_none {cs : List Char} (h : '=' ∉ cs) : splitAtEquals? cs = none := by
  have hcs : ∀ c ∈ cs, (c != '=') = true := fun c hc => bne_iff_ne.2 fun heq => h (heq ▸ hc)
  have hdrop : (cs ++ []).dropWhile (· != '=') = [] := List.dropWhile_append_of_pos hcs
  rw [List.append_nil] at hdrop
  rw [splitAtEquals?, hdrop]

theorem eq_append_of_splitAtEquals? {cs : List Char} {start value : String}
    (h : splitAtEquals? cs = some (start, value)) : cs = start.toList ++ '=' :: value.toList := by
  rw [splitAtEquals?] at h
  split at h
  · exact absurd h (by simp)
  · rename_i c rest hdrop
    cases h
    have hc := List.head?_dropWhile_not (· != '=') cs
    rw [hdrop] at hc
    have hc : c = '=' := by simpa using hc
    subst hc
    rw [String.toList_ofList, String.toList_ofList, ← hdrop, List.takeWhile_append_dropWhile]

/-- The options that a text may mean that is not one of the spellings: a long option by its
beginning, a short one with something written right behind it. -/
def Grammar.candidates (g : Grammar) (text : String) : List OptionUse :=
  match text.toList with
  | '-' :: '-' :: _ =>
    let (start, value?) :=
      match splitAtEquals? text.toList with
      | some (start, value) => (start, some value)
      | none => (text, none)
    (g.spellings.filter fun (spelling, _) => start.toList.isPrefixOf spelling.toList).map
      fun (spelling, spec) => ⟨spec, spelling, value?⟩
  | cs =>
    g.spellings.filterMap fun (spelling, spec) =>
      if spelling.toList = cs.take 2 then some ⟨spec, spelling, some (String.ofList (cs.drop 2))⟩
      else if cs.isPrefixOf spelling.toList then some ⟨spec, spelling, none⟩
      else none

/-- Does the text look like a negative number? -/
def isNegativeNumber (cs : List Char) : Bool :=
  let isDigit := fun c => (digitValue? c).isSome
  match if cs.getLast? = some '\n' then cs.dropLast else cs with
  | '-' :: number =>
    match number.dropWhile isDigit with
    | [] => !number.isEmpty
    | '.' :: fraction => !fraction.isEmpty && fraction.all isDigit
    | _ => false
  | _ => false

/-- The option that a text names by one of its spellings, possibly with a value behind an equals
sign. -/
def Grammar.named? (g : Grammar) (text : String) : Option OptionUse :=
  match g.spellings.lookup text with
  | some spec => some ⟨spec, text, none⟩
  | none =>
    (splitAtEquals? text.toList).bind fun (start, value) =>
      (g.spellings.lookup start).map fun spec => ⟨spec, start, some value⟩

/-- Sorts an argument in front of any `--`. -/
def Argument.ofText (g : Grammar) (text : String) : Except Stop Argument :=
  match text.toList, g.named? text with
  | '-' :: _ :: _, some use => .ok (.option text (some use))
  | '-' :: _ :: _, none =>
    match g.candidates text with
    | [use] => .ok (.option text (some use))
    | [] =>
      if isNegativeNumber text.toList || ' ' ∈ text.toList then .ok (.operand text)
      else .ok (.option text none)
    | uses =>
      g.error ("ambiguous option: " ++ text ++ " could match "
        ++ joinWith ", " (uses.map (·.spelling)))
  | _, _ => .ok (.operand text)

/-- Sorts the arguments. -/
def sortArguments (g : Grammar) : List String → Except Stop (List Argument)
  | [] => .ok []
  | text :: rest =>
    if text = "--" then .ok (.dashes :: rest.map .operand)
    else do
      let argument ← Argument.ofText g text
      let arguments ← sortArguments g rest
      .ok (argument :: arguments)

theorem ofText_of_named {g : Grammar} {text : String} {c : Char} {cs : List Char}
    (htext : text.toList = '-' :: c :: cs) {use : OptionUse} (h : g.named? text = some use) :
    Argument.ofText g text = .ok (.option text (some use)) := by
  simp only [Argument.ofText, htext, h]

theorem ofText_of_candidate {g : Grammar} {text : String} {c : Char} {cs : List Char}
    (htext : text.toList = '-' :: c :: cs) (hnamed : g.named? text = none) {use : OptionUse}
    (h : g.candidates text = [use]) :
    Argument.ofText g text = .ok (.option text (some use)) := by
  simp only [Argument.ofText, htext, hnamed, h]

/-- An option is sorted out by its spelling, or as the only candidate. -/
theorem cases_of_ofText {g : Grammar} {text s : String} {use : OptionUse}
    (h : Argument.ofText g text = .ok (.option s (some use))) :
    s = text ∧ (∃ c cs, text.toList = '-' :: c :: cs)
      ∧ (g.named? text = some use ∨ g.candidates text = [use]) := by
  rw [Argument.ofText] at h
  split at h
  · rename_i c cs use' htext hnamed
    cases h
    exact ⟨rfl, ⟨c, cs, htext⟩, Or.inl hnamed⟩
  · rename_i c cs htext hnamed
    split at h
    · rename_i hcandidates
      cases h
      exact ⟨rfl, ⟨c, cs, htext⟩, Or.inr hcandidates⟩
    · split at h <;> cases h
    · cases h
  · cases h

theorem ofText_operand (g : Grammar) {text : String} (h : text.toList.head? ≠ some '-') :
    Argument.ofText g text = .ok (.operand text) := by
  rw [Argument.ofText]
  split
  · rename_i htext _
    rw [htext] at h
    exact absurd rfl h
  · rename_i htext _
    rw [htext] at h
    exact absurd rfl h
  · rfl

theorem sortArguments_operand (g : Grammar) {text : String} (h : text.toList.head? ≠ some '-') :
    sortArguments g [text] = .ok [.operand text] := by
  have hdashes : text ≠ "--" := by
    rintro rfl
    exact absurd rfl h
  rw [sortArguments, if_neg hdashes, ofText_operand g h]
  rfl

/-! ## Taking options -/

/-- What the options have set. -/
structure Given where
  verbose : Bool := false
  quiet : Bool := false
  config? : Option String := some "."
  source? : Option String := none
  output? : Option String := none
  dryRun : Bool := false
  deriving DecidableEq, Repr

/-- Does what an option says. A value that is nothing but `--` counts as no value. -/
def Given.take (g : Grammar) (given : Given) (spec : OptionSpec) (value : String) :
    Except Stop Given :=
  let value? := if value = "--" then none else some value
  match spec.switch with
  | .help => .error (.help g.help)
  | .verbose => .ok { given with verbose := true }
  | .quiet => .ok { given with quiet := true }
  | .config => .ok { given with config? := value? }
  | .source => .ok { given with source? := value? }
  | .output => .ok { given with output? := value? }
  | .dryRun => .ok { given with dryRun := true }

/-- Does what several options without values say. -/
def Given.takeAll (g : Grammar) (given : Given) (specs : List OptionSpec) : Except Stop Given :=
  specs.foldlM (fun given spec => given.take g spec "") given

/-- The short options written together: `spec` and the ones whose letters follow. -/
def cluster (g : Grammar) (spec : OptionSpec) : List Char → Except Stop (List OptionSpec)
  | [] => .ok [spec]
  | c :: rest =>
    match g.spellings.lookup (String.ofList ['-', c]) with
    | some next => do
      let specs ← cluster g next rest
      .ok (spec :: specs)
    | none =>
      g.optionError spec ("ignored explicit argument " ++ quoted (String.ofList (c :: rest)))

/-- Takes an option, with its value from itself or from the arguments after it; gives how many of
those it took. -/
def takeOption (g : Grammar) (given : Given) (use : OptionUse) (after : List Argument) :
    Except Stop (Given × Nat) :=
  match use.value? with
  | some value =>
    if use.spec.takesValue then do
      let given ← given.take g use.spec value
      .ok (given, 0)
    else if "--".toList.isPrefixOf use.spelling.toList || value = "" then
      g.optionError use.spec ("ignored explicit argument " ++ quoted value)
    else do
      let specs ← cluster g use.spec value.toList
      let given ← given.takeAll g specs
      .ok (given, 0)
  | none =>
    if use.spec.takesValue then
      match after with
      | .operand value :: _ => do
        let given ← given.take g use.spec value
        .ok (given, 1)
      | _ => g.optionError use.spec "expected one argument"
    else do
      let given ← given.take g use.spec ""
      .ok (given, 0)

/-! ## Taking all arguments -/

/-- The state while arguments are taken: what is set, the operand's texts once taken, and what is
left over. -/
structure Taken where
  given : Given := {}
  operand? : Option (List String) := none
  extras : List String := []
  deriving DecidableEq, Repr

/-- How many of the arguments in front make up the operand. -/
def operandCount (operand : Operand) (arguments : List Argument) : Nat :=
  let lead := (arguments.takeWhile (· = .dashes)).length
  match operand, arguments.drop lead with
  | .path, .operand _ :: rest => lead + 1 + (rest.takeWhile (· = .dashes)).length
  | .command, .operand _ :: _ => arguments.length
  | _, _ => 0

/-- Takes the operand from the arguments in front, if it has not been taken yet; gives how many they
were. -/
def Taken.takeOperand (t : Taken) (g : Grammar) (arguments : List Argument) : Taken × Nat :=
  match t.operand?, operandCount g.operand arguments with
  | none, n + 1 => ({ t with operand? := some ((arguments.take (n + 1)).map (·.text)) }, n + 1)
  | _, _ => (t, 0)

/-- Takes the arguments from the left. Each round takes one at least, so their count is enough
fuel. -/
def takeArguments (g : Grammar) : (fuel : Nat) → Taken → List Argument → Except Stop Taken
  | 0, t, _ => .ok t
  | fuel + 1, t, arguments =>
    if arguments.any Argument.isOption then
      match arguments with
      | .option text none :: rest =>
        takeArguments g fuel { t with extras := t.extras ++ [text] } rest
      | .option _ (some use) :: rest => do
        let (given, count) ← takeOption g t.given use rest
        takeArguments g fuel { t with given } (rest.drop count)
      | _ =>
        let (t, count) := t.takeOperand g arguments
        if count = 0 then
          let passed := arguments.takeWhile (!·.isOption)
          takeArguments g fuel { t with extras := t.extras ++ passed.map (·.text) }
            (arguments.drop passed.length)
        else takeArguments g fuel t (arguments.drop count)
    else
      let (t, count) := t.takeOperand g arguments
      .ok { t with extras := t.extras ++ (arguments.drop count).map (·.text) }

/-- Takes the arguments of one command; its operand must be among them. -/
def takeCommand (g : Grammar) (given : Given) (texts : List String) : Except Stop Taken := do
  let arguments ← sortArguments g texts
  let t ← takeArguments g (arguments.length + 1) { given } arguments
  if g.operand ≠ .none ∧ t.operand? = none then
    g.error ("the following arguments are required: " ++ g.operand.name)
  else .ok t

/-! ## The whole command line -/

/-- A command with its settings from the command line. -/
inductive Request where
  | extract (given : Given)
  | showPage (given : Given) (path : String)
  deriving DecidableEq, Repr

/-- What the options of a request have set. -/
def Request.given : Request → Given
  | .extract given => given
  | .showPage given _ => given

/-- An operand's own text: the first that is not the mark `--`. -/
def operandText (texts : List String) : String :=
  (texts.erase "--").head?.getD ""

/-- The request that arguments left over do not spoil. -/
def checkExtras (extras : List String) (request : Request) : Except Stop Request :=
  if extras.isEmpty then .ok request
  else mainGrammar.error ("unrecognized arguments: " ++ joinWith " " extras)

/-- Reads the command line. -/
def parse (texts : List String) : Except Stop Request := do
  let outer ← takeCommand mainGrammar {} texts
  match outer.operand?.getD [] with
  | [] => mainGrammar.error "the following arguments are required: command"
  | name :: rest =>
    if name = "extract" then do
      let inner ← takeCommand extractGrammar outer.given rest
      checkExtras (outer.extras ++ inner.extras) (.extract inner.given)
    else if name = "show" then do
      let inner ← takeCommand showGrammar outer.given rest
      checkExtras (outer.extras ++ inner.extras)
        (.showPage inner.given (operandText (inner.operand?.getD [])))
    else
      mainGrammar.error ("argument command: invalid choice: " ++ quoted name ++ " (choose from "
        ++ joinWith ", " (commandNames.map quoted) ++ ")")

end Command
end RefPages
