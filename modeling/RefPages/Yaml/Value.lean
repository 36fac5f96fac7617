import RefPages.Yaml.Datum
import RefPages.Yaml.Node

/-!
# Values

A document's nodes become values: data for scalars, and lists, pairs, mappings and sets whose
members are again given by the numbers of their nodes. Collections are filled after the scalars
around them have been read, level by level, which decides which of two faults is reported.

* `Value` is the value of a node.
* `ValueState` holds the nodes, the values so far and the collections still to be filled.
* `Data` are the values of a document; `Data.load` reads a text.
* `Data.text` writes a value; a collection inside itself is shown by dots. An integer that is too
  long cannot be written.
-/

set_option autoImplicit false
namespace RefPages
namespace Yaml

open Text

/-- The value of a node. Keys of mappings and members of sets are data. -/
inductive Value where
  | datum (d : Datum)
  | list (items : List Nat)
  | pairs (items : List (Nat × Nat))
  | mapping (entries : List (Datum × Nat))
  | set (members : List Datum)
  deriving DecidableEq, Repr

/-! ## Merging mappings -/

/-- The kind of a node. -/
def Graph.tag? (g : Graph) (id : Nat) : Option Tag :=
  (g.get? id).map (·.tag)

/-- The entries of a mapping. -/
def Graph.entries? (g : Graph) (id : Nat) : Option (List (Nat × Nat)) :=
  match g.get? id with
  | some ⟨_, .mapping entries⟩ => some entries
  | _ => none

/-- The graph in which a mapping has other entries. -/
def Graph.setEntries (g : Graph) (id : Nat) (entries : List (Nat × Nat)) : Graph :=
  match g.get? id with
  | some node => g.set id { node with content := .mapping entries }
  | none => g

mutual

/-- Replaces the merge keys of a mapping by the entries of the mappings they name, which go in front
of its own. A default key becomes a text. `index` is the entry looked at, `merged` are the entries
to go in front. -/
def mergeInto : (fuel : Nat) → (id index : Nat) → (merged : List (Nat × Nat)) → Graph →
    Except LoadFault Graph
  | 0, _, _, _, g => .ok g
  | fuel + 1, id, index, merged, g =>
    let entries := (g.entries? id).getD []
    match entries[index]? with
    | none => .ok (if merged.isEmpty then g else g.setEntries id (merged ++ entries))
    | some (key, value) =>
      match g.get? key with
      | some ⟨.merge, _⟩ =>
        let g := g.setEntries id (entries.eraseIdx index)
        match g.get? value with
        | some ⟨_, .mapping _⟩ => do
          let g ← mergeInto fuel value 0 [] g
          mergeInto fuel id index (merged ++ (g.entries? value).getD []) g
        | some ⟨_, .sequence items⟩ => do
          let (lists, g) ← mergeAll fuel items g
          mergeInto fuel id index (merged ++ lists.reverse.flatten) g
        | _ => .error (.malformed "a merge of something that is no mapping")
      | some ⟨.defaultKey, content⟩ =>
        mergeInto fuel id (index + 1) merged (g.set key ⟨.text, content⟩)
      | _ => mergeInto fuel id (index + 1) merged g

/-- Merges inside several mappings, and gives their entries. -/
def mergeAll : (fuel : Nat) → (ids : List Nat) → Graph →
    Except LoadFault (List (List (Nat × Nat)) × Graph)
  | 0, _, g => .ok ([], g)
  | _, [], g => .ok ([], g)
  | fuel + 1, id :: ids, g =>
    match g.entries? id with
    | none => .error (.malformed "a merge of something that is no mapping")
    | some _ => do
      let g ← mergeInto fuel id 0 [] g
      let entries := (g.entries? id).getD []
      let (lists, g) ← mergeAll fuel ids g
      .ok (entries :: lists, g)

end

/-- How many entries the mappings of a graph have together, and how many of them are merges. -/
def Graph.mergeCount (g : Graph) : Nat × Nat :=
  g.nodes.foldl
    (fun (entries, merges) node =>
      match node.content with
      | .mapping es =>
        (entries + es.length, merges + es.countP fun e => g.tag? e.1 = some .merge)
      | .sequence items => (entries + items.length, merges)
      | .scalar _ => (entries, merges))
    (0, 0)

/-- Fuel for merging: a merge at most multiplies the entries by their count. -/
def Graph.mergeFuel (g : Graph) : Nat :=
  let (entries, merges) := g.mergeCount
  Nat.pow (entries + 2) (merges + 2)

/-! ## Building values -/

/-- The nodes, the values so far, and the collections still to be filled. -/
structure ValueState where
  graph : Graph
  values : Array (Option Value)
  waiting : List Nat := []

namespace ValueState

/-- The value of the first default key among the entries of a mapping. -/
def defaultEntry? (g : Graph) (entries : List (Nat × Nat)) : Option Nat :=
  (entries.find? fun e => g.tag? e.1 = some .defaultKey).map (·.2)

/-- The text of a scalar, or of the default entry of a mapping. Of more default entries than there
are nodes one leads back to itself, and the text is sought without end. -/
def scalarText (g : Graph) : (fuel : Nat) → (id : Nat) → Except LoadFault (List Point)
  | 0, _ => .error (.value .endlessDefault)
  | fuel + 1, id =>
    match g.get? id with
    | some ⟨_, .scalar text⟩ => .ok text
    | some ⟨_, .mapping entries⟩ =>
      match defaultEntry? g entries with
      | some value => scalarText g fuel value
      | none => .error (.malformed "no scalar where one is needed")
    | _ => .error (.malformed "no scalar where one is needed")

/-- The datum of a node whose tag is that of a scalar. -/
def datum (g : Graph) (id : Nat) (tag : Tag) : Except LoadFault Datum := do
  let text ← scalarText g (g.nodes.size + 1) id
  let check : Except ValueFault Datum → Except LoadFault Datum := fun result =>
    result.mapError LoadFault.value
  match tag with
  | .null => .ok .null
  | .bool => check ((Datum.boolOfScalar text).map .bool)
  | .int => check ((intOfScalar text).map .int)
  | .float => check ((floatOfScalar text).map .float)
  | .binary =>
    match (chars? text).bind base64Decode? with
    | some bytes => .ok (.bytes bytes)
    | none => .error (.malformed "bytes that are not in base 64")
  | .timestamp =>
    if (g.entries? id).isSome then .error (.value .timestampOfMapping)
    else check (Datum.timeOfScalar text)
  | _ => .ok (Datum.ofPoints text)

/-- The state in which a node has a value. -/
def give (s : ValueState) (id : Nat) (v : Value) : ValueState :=
  { s with values := s.values.setIfInBounds id (some v) }

/-- The value of a node, made now: a scalar's datum, or an empty collection to be filled later. -/
def make (s : ValueState) (id : Nat) : Except LoadFault (Value × ValueState) :=
  match s.values[id]?.join with
  | some v => .ok (v, s)
  | none =>
    let later := fun (v : Value) =>
      .ok (v, { s with waiting := s.waiting ++ [id] }.give id v)
    match (s.graph.tag? id).getD .null with
    | .merge | .defaultKey | .other _ => .error (.malformed "a tag without a meaning")
    | .sequence => later (.list [])
    | .omap | .pairs => later (.pairs [])
    | .mapping => later (.mapping [])
    | .set => later (.set [])
    | tag => do
      let d ← datum s.graph id tag
      .ok (.datum d, s.give id (.datum d))

/-- Makes the values of several nodes. -/
def makeAll (s : ValueState) : List Nat → Except LoadFault ValueState
  | [] => .ok s
  | id :: ids => do
    let (_, s) ← s.make id
    s.makeAll ids

/-- Enters a value under a key; a key that is there keeps its place and its first spelling. -/
def enter (entries : List (Datum × Nat)) (key : Datum) (value : Nat) : List (Datum × Nat) :=
  if entries.any (·.1.sameKey key) then
    entries.map fun e => if e.1.sameKey key then (e.1, value) else e
  else entries ++ [(key, value)]

/-- The entries of a mapping by their keys, which have to be data. -/
def makeEntries (s : ValueState) (made : List (Datum × Nat)) :
    List (Nat × Nat) → Except LoadFault (List (Datum × Nat) × ValueState)
  | [] => .ok (made, s)
  | (key, value) :: rest => do
    let (k, s) ← s.make key
    match k with
    | .datum d => do
      let (_, s) ← s.make value
      s.makeEntries (enter made d value) rest
    | _ => .error (.malformed "a key that is a collection")

/-- The pairs of a list of mappings with one entry each. -/
def makePairs (s : ValueState) : List Nat → Except LoadFault (List (Nat × Nat) × ValueState)
  | [] => .ok ([], s)
  | id :: ids =>
    match s.graph.entries? id with
    | some [(key, value)] => do
      let (_, s) ← s.make key
      let (_, s) ← s.make value
      let (pairs, s) ← s.makePairs ids
      .ok ((key, value) :: pairs, s)
    | _ => .error (.malformed "a pair that is no mapping with one entry")

/-- Fills a collection. -/
def fill (s : ValueState) (id : Nat) : Except LoadFault ValueState :=
  let entries := do
    let graph ← mergeInto s.graph.mergeFuel id 0 [] s.graph
    { s with graph }.makeEntries [] ((graph.entries? id).getD [])
  match s.graph.get? id with
  | some ⟨.sequence, .sequence items⟩ => do
    let s ← s.makeAll items
    .ok (s.give id (.list items))
  | some ⟨.omap, .sequence items⟩ | some ⟨.pairs, .sequence items⟩ => do
    let (pairs, s) ← s.makePairs items
    .ok (s.give id (.pairs pairs))
  | some ⟨.mapping, .mapping _⟩ => do
    let (made, s) ← entries
    .ok (s.give id (.mapping made))
  | some ⟨.set, .mapping _⟩ => do
    let (made, s) ← entries
    .ok (s.give id (.set (made.map (·.1))))
  | _ => .error (.malformed "a tag that does not suit its node")

/-- Fills the waiting collections in turn. A node waits at most once, which bounds the rounds. -/
def fillAll : (fuel : Nat) → ValueState → Except LoadFault ValueState
  | 0, s => .ok s
  | fuel + 1, s =>
    match s.waiting with
    | [] => .ok s
    | id :: waiting => do
      let s ← { s with waiting }.fill id
      fillAll fuel s

end ValueState

/-! ## Documents -/

/-- The values of a document by the numbers of their nodes. -/
structure Data where
  values : Array (Option Value) := #[]
  root : Nat := 0
  deriving DecidableEq

namespace Data

/-- The value of a node. -/
def get (data : Data) (id : Nat) : Value :=
  data.values[id]?.join.getD (.datum .null)

/-- The values of a graph. -/
def ofGraph (root : Nat) (graph : Graph) : Except LoadFault Data := do
  let start : ValueState := { graph, values := Array.replicate graph.nodes.size none }
  let (_, s) ← start.make root
  let s ← s.fillAll (graph.nodes.size + 1)
  .ok ⟨s.values, root⟩

/-- Loads a text; one without a document has no data. -/
def load (text : String) : Except LoadFault (Option Data) := do
  match ← Graph.ofScan? (Scan.ofChars text.toList) with
  | none => .ok none
  | some (root, graph) => do
    let data ← ofGraph root graph
    .ok (some data)

/-- A value inside a collection. `open_` are the collections around it, and one of them inside
itself is shown by dots. -/
def shown (data : Data) :
    (fuel : Nat) → (open_ : List Nat) → (id : Nat) → Except ValueFault String
  | 0, _, _ => .ok ""
  | fuel + 1, open_, id =>
    let inner := data.shown fuel (id :: open_)
    let nested := id ∈ open_
    match data.get id with
    | .datum d => d.checked d.shown
    | .list items =>
      if nested then .ok "[...]"
      else do
        let texts ← items.mapM inner
        .ok ("[" ++ joinWith ", " texts ++ "]")
    | .pairs items =>
      if nested then .ok "[...]"
      else do
        let texts ← items.mapM fun (a, b) => do
          .ok ("(" ++ (← inner a) ++ ", " ++ (← inner b) ++ ")")
        .ok ("[" ++ joinWith ", " texts ++ "]")
    | .mapping entries =>
      if nested then .ok "\x7b...\x7d"
      else do
        let texts ← entries.mapM fun (k, v) => do
          .ok ((← k.checked k.shown) ++ ": " ++ (← inner v))
        .ok ("\x7b" ++ joinWith ", " texts ++ "\x7d")
    | .set members =>
      if members.isEmpty then .ok "set()"
      else do
        let texts ← members.mapM fun d => d.checked d.shown
        .ok ("\x7b" ++ joinWith ", " texts ++ "\x7d")

/-- A value by itself. -/
def text (data : Data) (id : Nat) : Except ValueFault String :=
  match data.get id with
  | .datum d => d.checked d.toText
  | _ => data.shown (data.values.size + 2) [] id

end Data
end Yaml
end RefPages
