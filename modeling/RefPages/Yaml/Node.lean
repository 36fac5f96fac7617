import RefPages.Yaml.Tag
import RefPages.Yaml.Token

/-!
# Nodes

The document that tokens describe is a graph: a reference stands for the node that carries the
anchor, so a node can have several parents and can even be its own.

* `Node` is a scalar, a sequence or a mapping with its tag; children are given by number.
* `Graph` holds the nodes of a document, numbered in the order in which they start.
* `NodeState.peek` looks at the next token. Only there the fault is met that keeps a text from being
  cut on, so a fault of the tokens in front of it comes first.
* `Graph.ofScan?` is the graph of the one document of a text; an empty text has none.

The functions that read tokens take fuel. Every round of a loop and every step down passes a token
or is followed by one that does, so a multiple of the count of tokens is enough.
-/

set_option autoImplicit false
namespace RefPages
namespace Yaml

open Text (Point)

/-- What a node holds. -/
inductive Content where
  | scalar (text : List Point)
  | sequence (items : List Nat)
  | mapping (entries : List (Nat × Nat))
  deriving DecidableEq, Repr

/-- A node of a document. -/
structure Node where
  tag : Tag
  content : Content
  deriving DecidableEq, Repr

/-- The nodes of a document; the number of a node is its place in the list. -/
structure Graph where
  nodes : Array Node := #[]
  deriving DecidableEq, Repr

namespace Graph

/-- The graph with one more node, and its number. -/
def add (g : Graph) (node : Node) : Nat × Graph :=
  (g.nodes.size, ⟨g.nodes.push node⟩)

/-- The graph in which the node of a number is another. -/
def set (g : Graph) (id : Nat) (node : Node) : Graph :=
  ⟨g.nodes.setIfInBounds id node⟩

/-- The node of a number. -/
def get? (g : Graph) (id : Nat) : Option Node :=
  g.nodes[id]?

end Graph

/-- What has been read of a document, and the tokens left. -/
structure NodeState where
  tokens : List Token
  graph : Graph := {}
  anchors : List (String × Nat) := []
  handles : List (String × String) := [("!", "!"), ("!!", standardTags)]
  deriving Repr

namespace NodeState

/-- The state without its first token. -/
def next (s : NodeState) : NodeState :=
  { s with tokens := s.tokens.drop 1 }

/-- The state with one more node, and its number. -/
def add (s : NodeState) (node : Node) : Nat × NodeState :=
  let (id, graph) := s.graph.add node
  (id, { s with graph })

/-- The state with an empty plain scalar. -/
def addEmpty (s : NodeState) : Nat × NodeState :=
  s.add ⟨.null, .scalar []⟩

/-- The next token, or nothing at the end of the text. -/
def peek (behind? : Option LoadFault) (s : NodeState) : Except LoadFault (Option Token) :=
  match s.tokens, behind? with
  | token :: _, _ => .ok (some token)
  | [], some fault => .error fault
  | [], none => .ok none

section Looking

variable (behind? : Option LoadFault)

/-- Is the next token, if there is one, among these? -/
def sees (s : NodeState) (tokens : List Token) : Except LoadFault Bool := do
  let token? ← s.peek behind?
  .ok (token?.any (· ∈ tokens))

/-- The anchor and the tag in front of a node, in any order. -/
def properties (s : NodeState) :
    Except LoadFault (Option String × Option (Option String × String) × NodeState) := do
  match ← s.peek behind? with
  | some (.anchor name) =>
    match ← s.next.peek behind? with
    | some (.tag handle? suffix) => .ok (some name, some (handle?, suffix), s.next.next)
    | _ => .ok (some name, none, s.next)
  | some (.tag handle? suffix) =>
    match ← s.next.peek behind? with
    | some (.anchor name) => .ok (some name, some (handle?, suffix), s.next.next)
    | _ => .ok (none, some (handle?, suffix), s.next)
  | _ => .ok (none, none, s)

/-- The state behind the comma in front of an entry; the first entry has none. -/
def passComma (s : NodeState) (first : Bool) : Except LoadFault NodeState := do
  if first then .ok s
  else
    let comma ← s.sees behind? [.flowEntry]
    if comma then .ok s.next
    else .error (.malformed "a comma or the end of a collection is missing")

end Looking

/-- A tag in full. -/
def tagUri (s : NodeState) : Option String × String → Except LoadFault String
  | (none, suffix) => .ok suffix
  | (some handle, suffix) =>
    match s.handles.lookup handle with
    | some uri => .ok (uri ++ suffix)
    | none => .error (.malformed "an unknown tag handle")

/-- The kind of a node whose tag is `uri?`; `implied` is its kind without a tag, and also with the
tag that is a mere exclamation mark. -/
def kind (uri? : Option String) (implied : Tag) : Tag :=
  match uri? with
  | none => implied
  | some uri => if uri = "!" then implied else Tag.ofUri uri

/-- The state in which an anchor names a node. -/
def name (s : NodeState) (anchor? : Option String) (id : Nat) : NodeState :=
  match anchor? with
  | some anchor => { s with anchors := (anchor, id) :: s.anchors }
  | none => s

/-- A node with its children still to come, under its anchor, and its number. -/
def start (s : NodeState) (anchor? : Option String) (tag : Tag) (content : Content) :
    Nat × NodeState :=
  let (id, s) := s.add ⟨tag, content⟩
  (id, s.name anchor? id)

/-- The state in which a node has its children. -/
def finish (s : NodeState) (id : Nat) (node : Node) : Nat × NodeState :=
  (id, { s with graph := s.graph.set id node })

section Reading

variable (behind? : Option LoadFault)

mutual

/-- The node in front. `block` admits block collections, and `indentless` a sequence whose entries
stand at the column of the mapping around it. -/
def node : (fuel : Nat) → (block indentless : Bool) → NodeState → Except LoadFault (Nat × NodeState)
  | 0, _, _, _ => .error (.malformed "a document that is too deep")
  | fuel + 1, block, indentless, s => do
    match ← s.peek behind? with
    | some (.reference name) =>
      match s.anchors.lookup name with
      | some id => .ok (id, s.next)
      | none => .error (.malformed "a reference without its anchor")
    | _ => do
      let (anchor?, tag?, s) ← s.properties behind?
      let uri? ← tag?.mapM s.tagUri
      let token? ← s.peek behind?
      if anchor?.any fun a => (s.anchors.lookup a).isSome then
        .error (.malformed "an anchor that is used twice")
      else
        let itemsTag := kind uri? .sequence
        let pairsTag := kind uri? .mapping
        match token? with
        | some (.scalar text plain) =>
          let tag :=
            match uri? with
            | none => if plain then Tag.ofPoints text else .text
            | some _ => kind uri? (Tag.ofPoints text)
          .ok (s.next.start anchor? tag (.scalar text))
        | some .flowSequenceStart => do
          let (id, s) := s.next.start anchor? itemsTag (.sequence [])
          let (items, s) ← flowItems fuel true s
          .ok (s.finish id ⟨itemsTag, .sequence items⟩)
        | some .flowMappingStart => do
          let (id, s) := s.next.start anchor? pairsTag (.mapping [])
          let (entries, s) ← flowPairs fuel true s
          .ok (s.finish id ⟨pairsTag, .mapping entries⟩)
        | _ =>
          if indentless && token? = some .blockEntry then do
            let (id, s) := s.start anchor? itemsTag (.sequence [])
            let (items, s) ← indentlessItems fuel s
            .ok (s.finish id ⟨itemsTag, .sequence items⟩)
          else if block && token? = some .blockSequenceStart then do
            let (id, s) := s.next.start anchor? itemsTag (.sequence [])
            let (items, s) ← blockItems fuel s
            .ok (s.finish id ⟨itemsTag, .sequence items⟩)
          else if block && token? = some .blockMappingStart then do
            let (id, s) := s.next.start anchor? pairsTag (.mapping [])
            let (entries, s) ← blockPairs fuel s
            .ok (s.finish id ⟨pairsTag, .mapping entries⟩)
          else if anchor?.isSome || tag?.isSome then
            .ok (s.start anchor? (kind uri? .null) (.scalar []))
          else .error (.malformed "no node where one is needed")

/-- The node in front, or an empty one where one of the tokens `ends` comes instead. -/
def nodeUnless : (fuel : Nat) → (ends : List Token) → (block indentless : Bool) → NodeState →
    Except LoadFault (Nat × NodeState)
  | 0, _, _, _, _ => .error (.malformed "a document that is too deep")
  | fuel + 1, ends, block, indentless, s => do
    let ended ← s.sees behind? ends
    if ended then .ok s.addEmpty else node fuel block indentless s

/-- The value of a key: what follows a value token, or an empty node. -/
def valueUnless : (fuel : Nat) → (ends : List Token) → (block indentless : Bool) → NodeState →
    Except LoadFault (Nat × NodeState)
  | 0, _, _, _, _ => .error (.malformed "a document that is too deep")
  | fuel + 1, ends, block, indentless, s => do
    let marked ← s.sees behind? [.value]
    if marked then nodeUnless fuel ends block indentless s.next else .ok s.addEmpty

/-- The entries of a block sequence up to its end. -/
def blockItems : (fuel : Nat) → NodeState → Except LoadFault (List Nat × NodeState)
  | 0, _ => .error (.malformed "a document that is too deep")
  | fuel + 1, s => do
    match ← s.peek behind? with
    | some .blockEntry => do
      let (item, s) ← nodeUnless fuel [.blockEntry, .blockEnd] true false s.next
      let (items, s) ← blockItems fuel s
      .ok (item :: items, s)
    | some .blockEnd => .ok ([], s.next)
    | _ => .error (.malformed "an entry or the end of a sequence is missing")

/-- The entries of a sequence without an indentation of its own. -/
def indentlessItems : (fuel : Nat) → NodeState → Except LoadFault (List Nat × NodeState)
  | 0, _ => .error (.malformed "a document that is too deep")
  | fuel + 1, s => do
    match ← s.peek behind? with
    | some .blockEntry => do
      let (item, s) ← nodeUnless fuel [.blockEntry, .key, .value, .blockEnd] true false s.next
      let (items, s) ← indentlessItems fuel s
      .ok (item :: items, s)
    | _ => .ok ([], s)

/-- The entries of a block mapping up to its end. -/
def blockPairs : (fuel : Nat) → NodeState → Except LoadFault (List (Nat × Nat) × NodeState)
  | 0, _ => .error (.malformed "a document that is too deep")
  | fuel + 1, s => do
    match ← s.peek behind? with
    | some .key => do
      let ends := [Token.key, .value, .blockEnd]
      let (key, s) ← nodeUnless fuel ends true true s.next
      let (value, s) ← valueUnless fuel ends true true s
      let (entries, s) ← blockPairs fuel s
      .ok ((key, value) :: entries, s)
    | some .blockEnd => .ok ([], s.next)
    | _ => .error (.malformed "a key or the end of a mapping is missing")

/-- The entries of a sequence in brackets up to its end. An entry with a key is a mapping of its
own. -/
def flowItems : (fuel : Nat) → (first : Bool) → NodeState → Except LoadFault (List Nat × NodeState)
  | 0, _, _ => .error (.malformed "a document that is too deep")
  | fuel + 1, first, s => do
    let ended ← s.sees behind? [.flowSequenceEnd]
    if ended then .ok ([], s.next)
    else
      let s ← s.passComma behind? first
      match ← s.peek behind? with
      | some .flowSequenceEnd => .ok ([], s.next)
      | some .key => do
        let (id, s) := s.next.start none .mapping (.mapping [])
        let (key, s) ← nodeUnless fuel [.value, .flowEntry, .flowSequenceEnd] false false s
        let (value, s) ← valueUnless fuel [.flowEntry, .flowSequenceEnd] false false s
        let (item, s) := s.finish id ⟨.mapping, .mapping [(key, value)]⟩
        let (items, s) ← flowItems fuel false s
        .ok (item :: items, s)
      | _ => do
        let (item, s) ← node fuel false false s
        let (items, s) ← flowItems fuel false s
        .ok (item :: items, s)

/-- The entries of a mapping in braces up to its end. A node without a key token is a key with an
empty value. -/
def flowPairs : (fuel : Nat) → (first : Bool) → NodeState →
    Except LoadFault (List (Nat × Nat) × NodeState)
  | 0, _, _ => .error (.malformed "a document that is too deep")
  | fuel + 1, first, s => do
    let ended ← s.sees behind? [.flowMappingEnd]
    if ended then .ok ([], s.next)
    else
      let s ← s.passComma behind? first
      match ← s.peek behind? with
      | some .flowMappingEnd => .ok ([], s.next)
      | some .key => do
        let (key, s) ← nodeUnless fuel [.value, .flowEntry, .flowMappingEnd] false false s.next
        let (value, s) ← valueUnless fuel [.flowEntry, .flowMappingEnd] false false s
        let (entries, s) ← flowPairs fuel false s
        .ok ((key, value) :: entries, s)
      | _ => do
        let (key, s) ← node fuel false false s
        let (value, s) := s.addEmpty
        let (entries, s) ← flowPairs fuel false s
        .ok ((key, value) :: entries, s)

end

/-- The tag handles that directives declare, before the ones given, and the tokens after them. -/
def directives (versioned : Bool) (declared : List (String × String)) :
    List Token → Except LoadFault (List (String × String) × List Token)
  | .directive (.version major) :: rest =>
    if versioned then .error (.malformed "two versions")
    else if major ≠ 1 then .error (.malformed "a version that is not supported")
    else directives true declared rest
  | .directive (.tagHandle handle uri) :: rest =>
    if (declared.lookup handle).isSome then
      .error (.malformed "a tag handle that is declared twice")
    else directives versioned ((handle, uri) :: declared) rest
  | .directive .reserved :: rest => directives versioned declared rest
  | tokens => .ok (declared, tokens)

/-- Is the token the start of a directive or of a document? -/
def startsDocument : Token → Bool
  | .directive _ => true
  | .documentStart => true
  | _ => false

/-- The node of the document in front; nothing if there are no tokens. -/
def document (s : NodeState) : Except LoadFault (Option (Nat × NodeState)) := do
  let root := fun (s : NodeState) => do
    let result ← node behind? (4 * s.tokens.length + 4) true false s
    .ok (some result)
  match ← s.peek behind? with
  | none => .ok none
  | some token =>
    if startsDocument token then do
      let (declared, tokens) ← directives false [] s.tokens
      let s := { s with tokens, handles := declared ++ s.handles }
      match ← s.peek behind? with
      | some .documentStart =>
        let s := s.next
        match ← s.peek behind? with
        | none => .ok (some s.addEmpty)
        | some token =>
          if startsDocument token || token = .documentEnd then .ok (some s.addEmpty) else root s
      | _ => .error (.malformed "the start of a document is missing")
    else root s

/-- Nothing may follow a document but marks of its end. What does follow is read as the start of
another one, and its directives may be at fault before it is one too many. -/
def streamEnd (s : NodeState) : Except LoadFault Unit := do
  let s := { s with tokens := s.tokens.dropWhile (· = Token.documentEnd) }
  match ← s.peek behind? with
  | none => .ok ()
  | some _ => do
    let (_, tokens) ← directives false [] s.tokens
    let _ ← { s with tokens }.peek behind?
    .error (.malformed "more than one document")

end Reading

end NodeState

/-- The graph of the one document of a text and the number of its root, or nothing for no
document. -/
def Graph.ofScan? (scan : Scan) : Except LoadFault (Option (Nat × Graph)) := do
  match ← NodeState.document scan.fault? { tokens := scan.tokens } with
  | none => .ok none
  | some (root, s) => do
    s.streamEnd scan.fault?
    .ok (some (root, s.graph))

end Yaml
end RefPages
