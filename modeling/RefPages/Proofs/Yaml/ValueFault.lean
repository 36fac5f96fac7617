import RefPages.Proofs.Outcome
import RefPages.Yaml.Node

/-!
# Value faults of tokens and nodes

Loading a text fails in two ways: the text is malformed, or a value in it is at fault. The steps
before values are made give a fault of the second kind in one place only.

* `Blames P result` says that a value fault of the result satisfies `P`.
* `Scan.blamed_ofChars`: a value fault that keeps a text from being cut into tokens is one of a
  token, that is of an escape or of a number in a directive.
* `Graph.blames_ofScan?`: tokens are taken as a graph with no value fault but the one behind them.
-/

set_option autoImplicit false
namespace RefPages
namespace Yaml

open Text

variable {α : Type} {P : ValueFault → Prop}

/-- The fault is that of a malformed text, or satisfies `P`. -/
def LoadFault.Blamed (P : ValueFault → Prop) : LoadFault → Prop
  | .malformed _ => True
  | .value v => P v

theorem LoadFault.Blamed.mono {P' : ValueFault → Prop} (himp : ∀ v, P v → P' v) :
    ∀ fault, Blamed P fault → Blamed P' fault
  | .malformed _, _ => trivial
  | .value v, h => himp v h

/-- A value fault of the result satisfies `P`. -/
abbrev Blames (P : ValueFault → Prop) (result : Except LoadFault α) : Prop :=
  Ends (LoadFault.Blamed P) (fun _ => True) result

/-! ## Tokens -/

/-- The fault of an escape that names no character, or of a number in a directive. -/
inductive ValueFault.IsOfToken : ValueFault → Prop where
  | codePoint : IsOfToken .codePoint
  | codePointSize : IsOfToken .codePointSize
  | tooManyDigits (count : Nat) : IsOfToken (.tooManyDigits count)

section Scalars

theorem blames_quotedBreaks (fuel : Nat) (c : Cursor) : Blames P (quotedBreaks fuel c) := by
  induction fuel generalizing c with
  | zero => exact trivial
  | succ fuel ih =>
    rw [quotedBreaks]
    split
    · exact trivial
    · dsimp only
      split
      · exact (ih _).andThen fun _ => trivial
      · exact trivial

theorem blames_pointOfCode (n : Nat) : Blames ValueFault.IsOfToken (pointOfCode n) := by
  rw [pointOfCode]
  split
  · exact trivial
  · show ValueFault.IsOfToken (if n < 0x80000000 then .codePoint else .codePointSize)
    split
    · exact .codePoint
    · exact .codePointSize

theorem blames_readEscape (fuel : Nat) (c : Cursor) :
    Blames ValueFault.IsOfToken (readEscape fuel c) := by
  rw [readEscape]
  split
  · exact trivial
  · split
    · exact trivial
    · split
      · exact .ite ((blames_pointOfCode _).andThen fun _ => trivial) trivial
      · exact trivial
    · exact (blames_quotedBreaks _ _).andThen fun _ => trivial
    · exact trivial

theorem blames_quotedRest (quote : Char) (fuel : Nat) (c : Cursor) :
    Blames ValueFault.IsOfToken (quotedRest quote fuel c) := by
  induction fuel generalizing c with
  | zero => exact trivial
  | succ fuel ih =>
    have hmore : ∀ (c : Cursor) (piece : List Point), Blames ValueFault.IsOfToken
        (quotedRest quote fuel c >>= fun read => .ok (piece ++ read.1, read.2)) :=
      fun _ _ => (ih _).andThen fun _ => trivial
    rw [quotedRest]
    split
    · exact trivial
    · dsimp only
      split
      · split
        · exact hmore _ _
        · exact trivial
      · split
        · exact (blames_readEscape _ _).andThen fun _ => hmore _ _
        · split
          · split
            · exact (blames_quotedBreaks _ _).andThen fun _ => hmore _ _
            · exact hmore _ _
          · exact hmore _ _

theorem blames_skipEmptyLine (c : Cursor) : Blames P (skipEmptyLine c) := by
  unfold skipEmptyLine
  dsimp only
  split <;> exact trivial

theorem blames_blockMarks (c : Cursor) : Blames P (blockMarks c) := by
  have hend : ∀ (chomping : Chomping) (indent : Option Nat) (c : Cursor), Blames P
      (if c.endsAt fun ch => ch = ' ' || isBreak ch then .ok (chomping, indent, c)
      else .error (.malformed "an unknown mark of a block")) := by
    intro chomping indent c
    split <;> exact trivial
  rw [blockMarks]
  split
  · refine Ends.andThen ?_ fun _ => hend _ _ _
    dsimp only
    split
    · exact .ite trivial (.ite trivial trivial)
    · exact trivial
  · refine Ends.andThen ?_ fun _ => ?_
    · dsimp only
      split
      · exact .ite trivial (.ite trivial trivial)
      · exact trivial
    · dsimp only
      split <;> exact hend _ _ _

theorem blames_readBlock (folded : Bool) (parent : Int) (c : Cursor) :
    Blames P (readBlock folded parent c) := by
  rw [readBlock]
  exact (blames_blockMarks _).andThen fun _ => (blames_skipEmptyLine _).andThen fun _ => trivial

end Scalars

section Names

theorem blames_uriBytes (fuel : Nat) (cs : List Char) : Blames P (uriBytes fuel cs) := by
  fun_induction uriBytes fuel cs with
  | case1 _ _ _ _ _ ih => exact ih.andThen fun _ => trivial
  | _ => exact trivial

theorem blames_uriText (fuel : Nat) (cs : List Char) : Blames P (uriText fuel cs) := by
  fun_induction uriText fuel cs with
  | case3 fuel rest ih =>
    refine (blames_uriBytes _ _).andThen fun bytes => ?_
    split
    · exact (ih bytes).andThen fun _ => trivial
    · exact trivial
  | case4 _ _ _ _ ih => exact ih.andThen fun _ => trivial
  | _ => exact trivial

theorem blames_readUri (c : Cursor) : Blames P (readUri c) := by
  unfold readUri
  dsimp only
  split
  · exact trivial
  · exact (blames_uriText _ _).andThen fun _ => trivial

theorem blames_readHandle (c : Cursor) : Blames P (readHandle c) := by
  unfold readHandle
  split
  · exact trivial
  · dsimp only
    split <;> exact trivial
  · exact trivial

theorem blames_readTag (c : Cursor) : Blames P (readTag c) := by
  have hend : ∀ (token : Token) (c : Cursor), Blames P
      (if c.endsAt isTagEnd then .ok (token, c)
      else .error (.malformed "a tag that does not end")) := by
    intro token c
    split <;> exact trivial
  unfold readTag
  dsimp only
  split
  · refine (blames_readUri _).andThen fun _ => ?_
    split
    · exact hend _ _
    · exact trivial
  · split
    · exact hend _ _
    · split
      · exact (blames_readHandle _).andThen fun _ => (blames_readUri _).andThen fun _ => hend _ _
      · exact (blames_readUri _).andThen fun _ => hend _ _

theorem blames_readName (c : Cursor) : Blames P (readName c) := by
  unfold readName
  dsimp only
  split
  · exact trivial
  · split <;> exact trivial

theorem blames_readNumber (c : Cursor) : Blames ValueFault.IsOfToken (readNumber c) := by
  unfold readNumber
  dsimp only
  exact .ite trivial (.ite (.tooManyDigits _) trivial)

theorem blames_readDirective (c : Cursor) : Blames ValueFault.IsOfToken (readDirective c) := by
  have hend : ∀ (directive : Directive) (c : Cursor), Blames ValueFault.IsOfToken (do
      let c ← skipEmptyLine c
      .ok (Token.directive directive, c)) :=
    fun directive c => (blames_skipEmptyLine c).andThen fun _ => trivial
  unfold readDirective
  dsimp only
  split
  · exact trivial
  · split
    · refine (blames_readNumber _).andThen fun _ => ?_
      split
      · exact trivial
      · refine (blames_readNumber _).andThen fun _ => ?_
        split
        · exact hend _ _
        · exact trivial
    · split
      · refine (blames_readHandle _).andThen fun _ => ?_
        split
        · exact trivial
        · refine (blames_readUri _).andThen fun _ => ?_
          split
          · exact hend _ _
          · exact trivial
      · exact hend _ _

end Names

namespace TokenState

theorem blames_dropStale (s : TokenState) : Blames P s.dropStale := by
  unfold dropStale
  split <;> exact trivial

theorem blames_dropKey (s : TokenState) : Blames P s.dropKey := by
  unfold dropKey
  split
  · split <;> exact trivial
  · exact trivial

theorem blames_saveKey (s : TokenState) : Blames P s.saveKey := by
  unfold saveKey
  split
  · exact (blames_dropKey _).andThen fun _ => trivial
  · exact trivial

theorem blames_leaveBlocks (s : TokenState) : Blames P s.leaveBlocks :=
  (blames_dropKey _).andThen fun _ => trivial

theorem blames_openFlow (s : TokenState) (start : Token) : Blames P (s.openFlow start) :=
  (blames_saveKey _).andThen fun _ => trivial

theorem blames_closeFlow (s : TokenState) (stop : Token) : Blames P (s.closeFlow stop) := by
  refine (blames_dropKey _).andThen fun _ => ?_
  split <;> exact trivial

theorem blames_flowEntry (s : TokenState) : Blames P s.flowEntry :=
  (blames_dropKey _).andThen fun _ => trivial

theorem blames_blockEntry (s : TokenState) : Blames P s.blockEntry := by
  unfold blockEntry
  split
  · exact trivial
  · exact (blames_dropKey _).andThen fun _ => trivial

theorem blames_explicitKey (s : TokenState) : Blames P s.explicitKey := by
  unfold explicitKey
  split
  · exact trivial
  · exact (blames_dropKey _).andThen fun _ => trivial

theorem blames_valueMark (s : TokenState) : Blames P s.valueMark := by
  unfold valueMark
  split
  · exact trivial
  · split
    · exact trivial
    · exact (blames_dropKey _).andThen fun _ => trivial

theorem blames_content (s : TokenState) {read : Cursor → Except LoadFault (Token × Cursor)}
    (h : ∀ c, Blames P (read c)) : Blames P (s.content read) :=
  (blames_saveKey _).andThen fun _ => (h _).andThen fun _ => trivial

theorem blames_plain (s : TokenState) : Blames P s.plain :=
  (blames_saveKey _).andThen fun _ => trivial

theorem blames_block (s : TokenState) (folded : Bool) : Blames P (s.block folded) :=
  (blames_dropKey _).andThen fun _ => (blames_readBlock _ _ _).andThen fun _ => trivial

theorem blames_toNextToken (s : TokenState) : Blames P s.toNextToken :=
  (blames_dropStale _).andThen fun _ => trivial

theorem blames_token (s : TokenState) (ch : Char) (rest : List Char) :
    Blames ValueFault.IsOfToken (s.token ch rest) := by
  rw [token]
  refine .ite ((blames_leaveBlocks s).andThen fun _ => ?_) ?_
  · exact (blames_readDirective _).andThen fun _ => trivial
  refine .ite ((blames_leaveBlocks s).andThen fun _ => trivial) ?_
  refine .ite (blames_openFlow _ _) (.ite (blames_openFlow _ _) ?_)
  refine .ite (blames_closeFlow _ _) (.ite (blames_closeFlow _ _) ?_)
  refine .ite (blames_flowEntry _) (.ite (blames_blockEntry _) ?_)
  refine .ite (blames_explicitKey _) (.ite (blames_valueMark _) ?_)
  refine .ite (blames_content _ fun c => (blames_readName c).andThen fun _ => trivial) ?_
  refine .ite (blames_content _ fun c => (blames_readName c).andThen fun _ => trivial) ?_
  refine .ite (blames_content _ blames_readTag) ?_
  refine .ite (blames_block _ _) (.ite (blames_block _ _) ?_)
  refine .ite (blames_content _ fun c => ?_) (.ite (blames_plain _) trivial)
  exact (blames_quotedRest _ _ _).andThen fun _ => trivial

theorem blames_round (s : TokenState) : Blames ValueFault.IsOfToken s.round := by
  refine (blames_toNextToken s).andThen fun s => ?_
  split
  · exact (blames_leaveBlocks s).andThen fun _ => trivial
  · exact (blames_token s _ _).andThen fun _ => trivial

theorem blamed_run (fuel : Nat) (s : TokenState) :
    ∀ fault ∈ (run fuel s).fault?, LoadFault.Blamed ValueFault.IsOfToken fault := by
  induction fuel generalizing s with
  | zero =>
    rintro fault ⟨⟩
    exact trivial
  | succ fuel ih =>
    rw [run]
    split
    · exact ih _
    · rintro fault ⟨⟩
    · rename_i hround
      rintro fault ⟨⟩
      exact (blames_round s).of_eq_error hround

end TokenState

/-- A value fault that keeps a text from being cut into tokens is one of a token. -/
theorem Scan.blamed_ofChars (cs : List Char) :
    ∀ fault ∈ (ofChars cs).fault?, LoadFault.Blamed ValueFault.IsOfToken fault := by
  rw [ofChars]
  split
  · exact TokenState.blamed_run _ _
  · rintro fault ⟨⟩
    exact trivial

/-! ## Nodes -/

namespace NodeState

theorem blames_tagUri (s : NodeState) (tag : Option String × String) : Blames P (s.tagUri tag) := by
  unfold tagUri
  split
  · exact trivial
  · split <;> exact trivial

theorem blames_tagUri? (s : NodeState) (tag? : Option (Option String × String)) :
    Blames P (tag?.mapM s.tagUri) := by
  cases tag? with
  | none => exact trivial
  | some tag => exact (blames_tagUri s tag).andThen fun _ => trivial

section Behind

variable {behind? : Option LoadFault} (hbehind : ∀ fault ∈ behind?, LoadFault.Blamed P fault)
include hbehind

theorem blames_peek (s : NodeState) : Blames P (s.peek behind?) := by
  unfold peek
  split
  · exact trivial
  · exact hbehind _ rfl
  · exact trivial

theorem blames_sees (s : NodeState) (tokens : List Token) : Blames P (s.sees behind? tokens) :=
  (blames_peek hbehind s).andThen fun _ => trivial

theorem blames_properties (s : NodeState) : Blames P (s.properties behind?) := by
  refine (blames_peek hbehind s).andThen fun _ => ?_
  split
  · refine (blames_peek hbehind _).andThen fun _ => ?_
    split <;> exact trivial
  · refine (blames_peek hbehind _).andThen fun _ => ?_
    split <;> exact trivial
  · exact trivial

theorem blames_passComma (s : NodeState) (first : Bool) : Blames P (s.passComma behind? first) :=
  .ite trivial ((blames_sees hbehind _ _).andThen fun _ => .ite trivial trivial)

/-- Reading nodes gives no value fault but the one behind the tokens. The readers call each other
with less fuel, so they are taken together. -/
structure Blameless (P : ValueFault → Prop) (behind? : Option LoadFault) (fuel : Nat) : Prop where
  node : ∀ block indentless s, Blames P (node behind? fuel block indentless s)
  nodeUnless : ∀ ends block indentless s, Blames P (nodeUnless behind? fuel ends block indentless s)
  valueUnless : ∀ ends block indentless s,
    Blames P (valueUnless behind? fuel ends block indentless s)
  blockItems : ∀ s, Blames P (blockItems behind? fuel s)
  indentlessItems : ∀ s, Blames P (indentlessItems behind? fuel s)
  blockPairs : ∀ s, Blames P (blockPairs behind? fuel s)
  flowItems : ∀ first s, Blames P (flowItems behind? fuel first s)
  flowPairs : ∀ first s, Blames P (flowPairs behind? fuel first s)

namespace Blameless

variable {fuel : Nat}

theorem node_succ (h : Blameless P behind? fuel) (block indentless : Bool) (s : NodeState) :
    Blames P (NodeState.node behind? (fuel + 1) block indentless s) := by
  rw [NodeState.node]
  refine (blames_peek hbehind s).andThen fun _ => ?_
  split
  · split <;> exact trivial
  · refine (blames_properties hbehind s).andThen fun _ => ?_
    refine (blames_tagUri? _ _).andThen fun uri? => ?_
    refine (blames_peek hbehind _).andThen fun _ => .ite trivial ?_
    dsimp only
    split
    · exact trivial
    · exact (h.flowItems _ _).andThen fun _ => trivial
    · exact (h.flowPairs _ _).andThen fun _ => trivial
    · refine .ite ((h.indentlessItems _).andThen fun _ => trivial) ?_
      refine .ite ((h.blockItems _).andThen fun _ => trivial) ?_
      refine .ite ((h.blockPairs _).andThen fun _ => trivial) ?_
      exact .ite trivial trivial

theorem flowItems_succ (h : Blameless P behind? fuel) (first : Bool) (s : NodeState) :
    Blames P (NodeState.flowItems behind? (fuel + 1) first s) := by
  rw [NodeState.flowItems]
  refine (blames_sees hbehind s _).andThen fun _ => .ite trivial ?_
  refine (blames_passComma hbehind s first).andThen fun s => ?_
  refine (blames_peek hbehind s).andThen fun _ => ?_
  split
  · exact trivial
  · exact (h.nodeUnless _ _ _ _).andThen fun _ => (h.valueUnless _ _ _ _).andThen fun _ =>
      (h.flowItems _ _).andThen fun _ => trivial
  · exact (h.node _ _ _).andThen fun _ => (h.flowItems _ _).andThen fun _ => trivial

theorem flowPairs_succ (h : Blameless P behind? fuel) (first : Bool) (s : NodeState) :
    Blames P (NodeState.flowPairs behind? (fuel + 1) first s) := by
  rw [NodeState.flowPairs]
  refine (blames_sees hbehind s _).andThen fun _ => .ite trivial ?_
  refine (blames_passComma hbehind s first).andThen fun s => ?_
  refine (blames_peek hbehind s).andThen fun _ => ?_
  split
  · exact trivial
  · exact (h.nodeUnless _ _ _ _).andThen fun _ => (h.valueUnless _ _ _ _).andThen fun _ =>
      (h.flowPairs _ _).andThen fun _ => trivial
  · exact (h.node _ _ _).andThen fun _ => (h.flowPairs _ _).andThen fun _ => trivial

end Blameless

theorem blameless (fuel : Nat) : Blameless P behind? fuel := by
  induction fuel with
  | zero =>
    constructor <;> intros <;> exact trivial
  | succ fuel ih =>
    refine ⟨ih.node_succ hbehind, fun ends block indentless s => ?_,
      fun ends block indentless s => ?_, fun s => ?_, fun s => ?_, fun s => ?_,
      ih.flowItems_succ hbehind, ih.flowPairs_succ hbehind⟩
    · rw [nodeUnless]
      exact (blames_sees hbehind s _).andThen fun _ => .ite trivial (ih.node _ _ _)
    · rw [valueUnless]
      exact (blames_sees hbehind s _).andThen fun _ => .ite (ih.nodeUnless _ _ _ _) trivial
    · rw [blockItems]
      refine (blames_peek hbehind s).andThen fun _ => ?_
      split
      · exact (ih.nodeUnless _ _ _ _).andThen fun _ => (ih.blockItems _).andThen fun _ => trivial
      · exact trivial
      · exact trivial
    · rw [indentlessItems]
      refine (blames_peek hbehind s).andThen fun _ => ?_
      split
      · exact (ih.nodeUnless _ _ _ _).andThen fun _ =>
          (ih.indentlessItems _).andThen fun _ => trivial
      · exact trivial
    · rw [blockPairs]
      refine (blames_peek hbehind s).andThen fun _ => ?_
      split
      · exact (ih.nodeUnless _ _ _ _).andThen fun _ => (ih.valueUnless _ _ _ _).andThen fun _ =>
          (ih.blockPairs _).andThen fun _ => trivial
      · exact trivial
      · exact trivial

omit hbehind in
theorem blames_directives (versioned : Bool) (declared : List (String × String))
    (tokens : List Token) : Blames P (directives versioned declared tokens) := by
  fun_induction directives versioned declared tokens with
  | case3 _ _ _ _ _ _ ih => exact ih
  | case5 _ _ _ _ _ _ ih => exact ih
  | case6 _ _ _ ih => exact ih
  | _ => exact trivial

theorem blames_document (s : NodeState) : Blames P (s.document behind?) := by
  have hroot : ∀ (fuel : Nat) (s : NodeState), Blames P (do
      let result ← node behind? fuel true false s
      .ok (some result)) :=
    fun fuel s => ((blameless hbehind fuel).node _ _ _).andThen fun _ => trivial
  refine (blames_peek hbehind s).andThen fun _ => ?_
  split
  · exact trivial
  · refine .ite ((blames_directives _ _ _).andThen fun _ => ?_) (hroot _ _)
    refine (blames_peek hbehind _).andThen fun _ => ?_
    split
    · refine (blames_peek hbehind _).andThen fun _ => ?_
      split
      · exact trivial
      · exact .ite trivial (hroot _ _)
    · exact trivial

theorem blames_streamEnd (s : NodeState) : Blames P (s.streamEnd behind?) := by
  refine (blames_peek hbehind _).andThen fun _ => ?_
  split
  · exact trivial
  · exact (blames_directives _ _ _).andThen fun _ =>
      (blames_peek hbehind _).andThen fun _ => trivial

end Behind

end NodeState

/-- Tokens are taken as a graph with no value fault but the one behind them. -/
theorem Graph.blames_ofScan? (scan : Scan) :
    Blames (fun v => scan.fault? = some (.value v)) (Graph.ofScan? scan) := by
  have hbehind : ∀ fault ∈ scan.fault?,
      LoadFault.Blamed (fun v => scan.fault? = some (.value v)) fault := by
    intro fault hfault
    cases fault with
    | malformed => exact trivial
    | value v => exact hfault
  refine (NodeState.blames_document hbehind _).andThen fun _ => ?_
  split
  · exact trivial
  · exact (NodeState.blames_streamEnd hbehind _).andThen fun _ => trivial

end Yaml
end RefPages
