import RefPages.Proofs.Yaml.MappingRun
import RefPages.Settings

/-!
# Loading a mapping of texts

The tokens of two entries become a graph of five nodes, and its values a mapping with two texts.

* `Data.textEntries?` are the entries of a document that maps texts to texts.
* `textGraph` is the graph and `textValues` are its values; `ofScan?_entries` and
  `ofGraph_textGraph` say so.
* `exists_load_entries`: **two entries are loaded**, and each value comes back exactly if it was
  written without a line break other than the line feed.
-/

set_option autoImplicit false
namespace RefPages
namespace Yaml

open Text

/-- The entries of a document that is a mapping of texts to texts. -/
def Data.textEntries? (data : Data) : Option (List (String × String)) := do
  let entries ← data.entries? data.root
  entries.mapM fun (key, value) =>
    match key, data.get value with
    | .text k, .datum (.text v) => some (k, v)
    | _, _ => none

/-! ## The graph -/

/-- The graph of a mapping of two texts. -/
def textGraph (word text word' text' : List Char) : Graph where
  nodes :=
    let node := fun (text : List Char) => ⟨.text, .scalar (text.map .char)⟩
    #[⟨.mapping, .mapping [(1, 2), (3, 4)]⟩, node word, node text, node word', node text']

theorem ofPoints_eq_ofPlain (cs : List Char) : Tag.ofPoints (cs.map .char) = Tag.ofPlain cs := by
  rw [Tag.ofPoints, chars?_map_char]

/-- The tokens of two entries whose scalars all stand for texts. -/
theorem ofScan?_entries {word text word' text' : List Char} {plain plain' : Bool}
    (hword : Tag.ofPlain word = .text) (hword' : Tag.ofPlain word' = .text)
    (htext : plain = true → Tag.ofPlain text = .text)
    (htext' : plain' = true → Tag.ofPlain text' = .text) :
    Graph.ofScan? { tokens := .blockMappingStart :: TokenState.entryTokens word text plain
        ++ TokenState.entryTokens word' text' plain' ++ [.blockEnd] } =
      .ok (some (0, textGraph word text word' text')) := by
  have hgraph : Graph.ofScan? { tokens := .blockMappingStart
        :: TokenState.entryTokens word text plain ++ TokenState.entryTokens word' text' plain'
        ++ [.blockEnd] } =
      .ok (some (0, ⟨#[⟨.mapping, .mapping [(1, 2), (3, 4)]⟩,
        ⟨Tag.ofPoints (word.map .char), .scalar (word.map .char)⟩,
        ⟨if plain then Tag.ofPoints (text.map .char) else .text, .scalar (text.map .char)⟩,
        ⟨Tag.ofPoints (word'.map .char), .scalar (word'.map .char)⟩,
        ⟨if plain' then Tag.ofPoints (text'.map .char) else .text,
          .scalar (text'.map .char)⟩]⟩)) := rfl
  have htag : (if plain then Tag.ofPlain text else .text) = Tag.text := by
    split
    · exact htext ‹_›
    · rfl
  have htag' : (if plain' then Tag.ofPlain text' else .text) = Tag.text := by
    split
    · exact htext' ‹_›
    · rfl
  simp only [ofPoints_eq_ofPlain] at hgraph
  rw [hgraph, hword, hword', htag, htag']
  rfl

/-! ## The values -/

/-- The values of the graph. -/
def textValues (word text word' text' : List Char) : Array (Option Value) :=
  let value := fun text => some (Value.datum (.text (String.ofList text)))
  #[some (.mapping [(.text (String.ofList word), 2), (.text (String.ofList word'), 4)]),
    value word, value text, value word', value text']

theorem ofPoints_eq_text (cs : List Char) :
    Datum.ofPoints (cs.map .char) = .text (String.ofList cs) := by
  rw [Datum.ofPoints, chars?_map_char]

theorem enter_enter {word word' : List Char} (hne : word ≠ word') (m n : Nat) :
    ValueState.enter (ValueState.enter [] (.text (String.ofList word)) m)
        (.text (String.ofList word')) n =
      [(.text (String.ofList word), m), (.text (String.ofList word'), n)] := by
  have hne : String.ofList word ≠ String.ofList word' := fun h => hne (String.ofList_injective h)
  have hsame :
      Datum.sameKey (.text (String.ofList word)) (.text (String.ofList word')) = false := by
    simp [Datum.sameKey, Datum.scaled?, hne]
  simp [ValueState.enter, hsame]

/-- A mapping whose keys are texts has nothing to merge. -/
theorem mergeInto_eq_self {g : Graph} {id : Nat}
    (h : ∀ entry ∈ (g.entries? id).getD [], g.tag? entry.1 = some .text) (fuel index : Nat) :
    mergeInto fuel id index [] g = .ok g := by
  induction fuel generalizing index with
  | zero => rfl
  | succ fuel ih =>
    rw [mergeInto]
    simp only
    split
    · rfl
    · rename_i key value hentry
      have hkey : g.tag? key = some .text := h (key, value) (List.mem_of_getElem? hentry)
      rw [Graph.tag?, Option.map_eq_some_iff] at hkey
      obtain ⟨⟨tag, content⟩, hnode, rfl⟩ := hkey
      rw [hnode]
      exact ih (index + 1)

/-- The mapping has no merge keys, so it is left as it is, and the nodes of its entries are made one
after the other. -/
theorem fill_textGraph {word word' : List Char} (hne : word ≠ word') (text text' : List Char) :
    ValueState.fill ⟨textGraph word text word' text',
        #[some (.mapping []), none, none, none, none], []⟩ 0 =
      .ok ⟨textGraph word text word' text', textValues word text word' text', []⟩ := by
  have hmerge : ∀ fuel, mergeInto fuel 0 0 [] (textGraph word text word' text')
      = .ok (textGraph word text word' text') := by
    refine fun fuel => mergeInto_eq_self (fun entry hentry => ?_) fuel 0
    have hentry : entry ∈ [(1, 2), (3, 4)] := hentry
    simp only [List.mem_cons, List.not_mem_nil, or_false] at hentry
    rcases hentry with rfl | rfl <;> rfl
  rw [ValueState.fill, hmerge, textValues, ← enter_enter hne]
  simp only [← ofPoints_eq_text]
  rfl

theorem ofGraph_textGraph {word word' : List Char} (hne : word ≠ word') (text text' : List Char) :
    Data.ofGraph 0 (textGraph word text word' text') =
      .ok ⟨textValues word text word' text', 0⟩ := by
  have hmake : ValueState.make ⟨textGraph word text word' text', Array.replicate 5 none, []⟩ 0 =
      .ok (.mapping [], ⟨textGraph word text word' text',
        #[some (.mapping []), none, none, none, none], [0]⟩) := rfl
  have hfill : ValueState.fillAll 6 ⟨textGraph word text word' text',
        #[some (.mapping []), none, none, none, none], [0]⟩ =
      .ok ⟨textGraph word text word' text', textValues word text word' text', []⟩ := by
    rw [ValueState.fillAll]
    simp only [fill_textGraph hne]
    rfl
  rw [Data.ofGraph, show (textGraph word text word' text').nodes.size = 5 from rfl]
  simp only [bind, Except.bind, hmake, hfill]

theorem textEntries?_textValues (word text word' text' : List Char) :
    Data.textEntries? ⟨textValues word text word' text', 0⟩ =
      some [(String.ofList word, String.ofList text),
        (String.ofList word', String.ofList text')] := by
  simp [Data.textEntries?, Data.entries?, Data.get, textValues]

/-! ## Loading -/

/-- **Two entries are loaded**, and each value comes back exactly if it was written without a line
break other than the line feed. -/
theorem exists_load_entries {word word' : List Char} (hword : IsKey word) (hword' : IsKey word')
    (htag : Tag.ofPlain word = .text) (htag' : Tag.ofPlain word' = .text) (hne : word ≠ word')
    (v v' : List Char) :
    ∃ data text text', Data.load (String.ofList (entryText word v ++ '\n' :: entryText word' v'))
        = .ok (some data)
      ∧ data.textEntries? = some [(String.ofList word, String.ofList text),
        (String.ofList word', String.ofList text')]
      ∧ (text = v ↔ OnlyFeeds (writeScalar v)) ∧ (text' = v' ↔ OnlyFeeds (writeScalar v')) := by
  obtain ⟨text, plain, text', plain', hread, hread', hscan⟩ :=
    exists_scan_entries hword hword' v v'
  refine ⟨⟨textValues word text word' text', 0⟩, text, text', ?_,
    textEntries?_textValues word text word' text', hread.text_eq_iff, hread'.text_eq_iff⟩
  rw [Data.load, String.toList_ofList, hscan]
  simp only [bind, Except.bind, ofScan?_entries htag htag' hread.tag hread'.tag,
    ofGraph_textGraph hne]

end Yaml
end RefPages
