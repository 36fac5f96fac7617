import RefPages.Proofs.Yaml.DefaultEntry

/-!
# Value faults of data

Making the values of a graph fails with a value fault only at a node that does not denote a value of
its kind. Values are made while mappings are merged, so the node is traced back to the graph before
the merges.

* `Graph.Follows`: merging keeps scalars and their tags.
* `Graph.Misread`: a node of the graph denotes no value of its kind.
* `Data.blames_load` says what a value fault of a text can be.
-/

set_option autoImplicit false
namespace RefPages
namespace Yaml

open Text

variable {P : ValueFault → Prop}

/-! ## Merging -/

/-- A node as merging leaves it: a mapping with other entries, or a default key that has become a
text. -/
structure Node.Follows (node node' : Node) : Prop where
  tag : node'.tag = node.tag ∨ node'.tag = .text
  content : node'.content = node.content
    ∨ ∃ entries entries', node.content = .mapping entries ∧ node'.content = .mapping entries'

theorem Node.Follows.refl (node : Node) : node.Follows node := ⟨Or.inl rfl, Or.inl rfl⟩

theorem Node.Follows.trans {node node' node'' : Node} (h : node.Follows node')
    (h' : node'.Follows node'') : node.Follows node'' where
  tag := by
    rcases h'.tag with htag | htag
    · rw [htag]
      exact h.tag
    · exact Or.inr htag
  content := by
    rcases h'.content with hcontent' | ⟨entries, entries', hentries, hentries'⟩
    · rw [hcontent']
      exact h.content
    · rcases h.content with hcontent | ⟨first, -, hfirst, -⟩
      · exact Or.inr ⟨entries, entries', hcontent ▸ hentries, hentries'⟩
      · exact Or.inr ⟨first, entries', hfirst, hentries'⟩

namespace Graph

/-- The nodes of the second graph are those of the first as merging leaves them. -/
def Follows (g g' : Graph) : Prop :=
  ∀ id : Nat, (g.get? id = none ∧ g'.get? id = none)
    ∨ ∃ node node', g.get? id = some node ∧ g'.get? id = some node' ∧ node.Follows node'

theorem Follows.refl (g : Graph) : g.Follows g := by
  intro id
  cases h : g.get? id with
  | none => exact Or.inl ⟨rfl, rfl⟩
  | some node => exact Or.inr ⟨node, node, rfl, rfl, .refl node⟩

theorem Follows.trans {g g' g'' : Graph} (h : g.Follows g') (h' : g'.Follows g'') :
    g.Follows g'' := by
  intro id
  rcases h id with ⟨hnone, hnone'⟩ | ⟨node, node', hnode, hnode', hfollows⟩
  · rcases h' id with ⟨-, hnone''⟩ | ⟨node', -, hnode', -⟩
    · exact Or.inl ⟨hnone, hnone''⟩
    · rw [hnone'] at hnode'
      cases hnode'
  · rcases h' id with ⟨hnone', -⟩ | ⟨again, node'', hagain, hnode'', hfollows'⟩
    · rw [hnone'] at hnode'
      cases hnode'
    · rw [hnode'] at hagain
      cases hagain
      exact Or.inr ⟨node, node'', hnode, hnode'', hfollows.trans hfollows'⟩

theorem Follows.node {g g' : Graph} (h : g.Follows g') {id : Nat} {node' : Node}
    (hnode' : g'.get? id = some node') : ∃ node, g.get? id = some node ∧ node.Follows node' := by
  rcases h id with ⟨-, hnone⟩ | ⟨node, again, hnode, hagain, hfollows⟩
  · rw [hnone] at hnode'
    cases hnode'
  · rw [hagain] at hnode'
    cases hnode'
    exact ⟨node, hnode, hfollows⟩

/-- A mapping stays one. -/
theorem Follows.isSome_entries? {g g' : Graph} (h : g.Follows g') {id : Nat}
    (hmapping : (g.entries? id).isSome = true) : (g'.entries? id).isSome = true := by
  obtain ⟨tag, entries, hnode⟩ : ∃ tag entries, g.get? id = some ⟨tag, .mapping entries⟩ := by
    rw [entries?] at hmapping
    split at hmapping
    · exact ⟨_, _, ‹_›⟩
    · cases hmapping
  rcases h id with ⟨hnone, -⟩ | ⟨node, ⟨tag', content'⟩, hagain, hnode', hfollows⟩
  · rw [hnone] at hnode
    cases hnode
  · rw [hnode] at hagain
    cases hagain
    rw [entries?, hnode']
    rcases hfollows.content with rfl | ⟨-, entries', -, rfl⟩ <;> rfl

theorem follows_set {g : Graph} {id : Nat} {node node' : Node} (hnode : g.get? id = some node)
    (h : node.Follows node') : g.Follows (g.set id node') := by
  have hlt : id < g.nodes.size := by
    rw [get?] at hnode
    exact (Array.getElem?_eq_some_iff.1 hnode).1
  have hget : ∀ id', (g.set id node').get? id' = if id = id' then some node' else g.get? id' := by
    intro id'
    rw [get?, set, Array.getElem?_setIfInBounds, if_pos hlt]
    rfl
  intro id'
  rw [hget]
  split
  · rename_i hid
    subst hid
    exact Or.inr ⟨node, node', hnode, rfl, h⟩
  · exact Follows.refl g id'

theorem follows_setEntries {g : Graph} {id : Nat} (hmapping : (g.entries? id).isSome = true)
    (entries : List (Nat × Nat)) : g.Follows (g.setEntries id entries) := by
  rw [entries?] at hmapping
  split at hmapping
  · rename_i tag entries' hnode
    rw [setEntries, hnode]
    exact follows_set hnode ⟨Or.inl rfl, Or.inr ⟨entries', entries, rfl, rfl⟩⟩
  · cases hmapping

end Graph

/-- Merging gives no value fault, and leaves a graph that follows. -/
theorem ends_merge (fuel : Nat) :
    (∀ id index merged (g : Graph), (g.entries? id).isSome = true →
      Ends (LoadFault.Blamed P) g.Follows (mergeInto fuel id index merged g))
    ∧ ∀ ids (g : Graph),
      Ends (LoadFault.Blamed P) (fun result => g.Follows result.2) (mergeAll fuel ids g) := by
  induction fuel with
  | zero => exact ⟨fun _ _ _ g _ => .refl g, fun _ g => .refl g⟩
  | succ fuel ih =>
    obtain ⟨ihInto, ihAll⟩ := ih
    refine ⟨fun id index merged g hmapping => ?_, fun ids g => ?_⟩
    · have hfollows : ∀ g' : Graph, g.Follows g' → ∀ index merged,
          Ends (LoadFault.Blamed P) g.Follows (mergeInto fuel id index merged g') := by
        intro g' hg' index merged
        refine (ihInto id index merged g' (hg'.isSome_entries? hmapping)).mono fun g'' hg'' => ?_
        exact hg'.trans hg''
      rw [mergeInto]
      dsimp only
      split
      · rw [Ends.ok]
        split
        · exact .refl g
        · exact Graph.follows_setEntries hmapping _
      · split
        · have hset := Graph.follows_setEntries hmapping
            (((g.entries? id).getD []).eraseIdx index)
          split
          · rename_i hvalue
            refine (ihInto _ 0 [] _ ?_).bind fun g' hg' => hfollows g' (hset.trans hg') _ _
            rw [Graph.entries?, hvalue]
            rfl
          · refine (ihAll _ _).bind fun result hresult => ?_
            exact hfollows result.2 (hset.trans hresult) _ _
          · exact trivial
        · rename_i hkey
          refine hfollows _ ?_ _ _
          exact Graph.follows_set hkey ⟨Or.inr rfl, Or.inl rfl⟩
        · exact hfollows g (.refl g) _ _
    · cases ids with
      | nil =>
        rw [mergeAll]
        · exact .refl g
        · simp
      | cons id ids =>
        rw [mergeAll]
        split
        · exact trivial
        · rename_i hentries
          refine (ihInto id 0 [] g (by rw [hentries]; rfl)).bind fun g' hg' => ?_
          exact (ihAll ids g').bind fun result hresult => hg'.trans hresult

/-! ## Values -/

/-- A scalar of this kind and text denotes no value. -/
inductive Misreads : Tag → List Point → ValueFault → Prop where
  | bool {text v} (h : Datum.boolOfScalar text = .error v) : Misreads .bool text v
  | int {text v} (h : intOfScalar text = .error v) : Misreads .int text v
  | float {text v} (h : floatOfScalar text = .error v) : Misreads .float text v
  | timestamp {text v} (h : Datum.timeOfScalar text = .error v) : Misreads .timestamp text v

/-- A node of the graph denotes no value of its kind: a scalar by its own text, a mapping by the
text of a scalar elsewhere, a mapping never denotes a timestamp, and a node that is endless when
mappings have been merged denotes nothing at all. -/
inductive Graph.Misread (g : Graph) (v : ValueFault) : Prop where
  | scalar {id tag text} (hnode : g.get? id = some ⟨tag, .scalar text⟩) (h : Misreads tag text v)
  | mapping {id tag entries id' tag' text} (hnode : g.get? id = some ⟨tag, .mapping entries⟩)
    (hscalar : g.get? id' = some ⟨tag', .scalar text⟩) (h : Misreads tag text v)
  | timestamp {id entries} (hnode : g.get? id = some ⟨.timestamp, .mapping entries⟩)
    (h : v = .timestampOfMapping)
  | endless {g' id} (hfollows : g.Follows g') (hid : g'.Endless id) (h : v = .endlessDefault)

theorem Node.Follows.misreads {node node' : Node} (h : node.Follows node') {text : List Point}
    {v : ValueFault} (hmisreads : Misreads node'.tag text v) : Misreads node.tag text v := by
  rcases h.tag with htag | htag
  · rwa [← htag]
  · rw [htag] at hmisreads
    cases hmisreads

theorem Graph.Follows.scalar {g g' : Graph} (h : g.Follows g') {id : Nat} {tag : Tag}
    {text : List Point} (hnode' : g'.get? id = some ⟨tag, .scalar text⟩) :
    ∃ tag', g.get? id = some ⟨tag', .scalar text⟩
      ∧ Node.Follows ⟨tag', .scalar text⟩ ⟨tag, .scalar text⟩ := by
  obtain ⟨⟨tag', content⟩, hnode, hfollows⟩ := h.node hnode'
  rcases hfollows.content with rfl | ⟨_, _, _, hcontent⟩
  · exact ⟨tag', hnode, hfollows⟩
  · cases hcontent

theorem Graph.Follows.mapping {g g' : Graph} (h : g.Follows g') {id : Nat} {tag : Tag}
    {entries : List (Nat × Nat)} (hnode' : g'.get? id = some ⟨tag, .mapping entries⟩) :
    ∃ tag' entries', g.get? id = some ⟨tag', .mapping entries'⟩
      ∧ Node.Follows ⟨tag', .mapping entries'⟩ ⟨tag, .mapping entries⟩ := by
  obtain ⟨⟨tag', content⟩, hnode, hfollows⟩ := h.node hnode'
  rcases hfollows.content with rfl | ⟨entries', -, rfl, -⟩
  · exact ⟨tag', entries, hnode, hfollows⟩
  · exact ⟨tag', entries', hnode, hfollows⟩

/-- Merging adds nothing that is misread. -/
theorem Graph.Follows.misread {g g' : Graph} (h : g.Follows g') {v : ValueFault}
    (hmisread : g'.Misread v) : g.Misread v := by
  cases hmisread with
  | scalar hnode' hmisreads =>
    obtain ⟨tag', hnode, hfollows⟩ := h.scalar hnode'
    exact .scalar hnode (hfollows.misreads hmisreads)
  | mapping hnode' hscalar' hmisreads =>
    obtain ⟨tag', entries', hnode, hfollows⟩ := h.mapping hnode'
    obtain ⟨_, helsewhere, -⟩ := h.scalar hscalar'
    exact .mapping hnode helsewhere (hfollows.misreads hmisreads)
  | timestamp hnode' hv =>
    obtain ⟨tag', entries', hnode, hfollows⟩ := h.mapping hnode'
    rcases hfollows.tag with rfl | htext
    · exact .timestamp hnode hv
    · cases htext
  | endless hfollows hid hv => exact .endless (h.trans hfollows) hid hv

namespace ValueState

/-- The text that is read is that of the node itself, or of a scalar elsewhere if the node is a
mapping. -/
theorem ends_scalarText (g : Graph) (fuel id : Nat) :
    Ends (fun _ => True) (fun text => (∃ tag, g.get? id = some ⟨tag, .scalar text⟩)
        ∨ (∃ tag entries, g.get? id = some ⟨tag, .mapping entries⟩)
          ∧ ∃ id' tag', g.get? id' = some ⟨tag', .scalar text⟩)
      (scalarText g fuel id) := by
  induction fuel generalizing id with
  | zero => exact trivial
  | succ fuel ih =>
    rw [scalarText]
    split
    · rename_i hnode
      exact Or.inl ⟨_, hnode⟩
    · rename_i tag entries hnode
      split
      · refine (ih _).mono fun text htext => Or.inr ⟨⟨tag, entries, hnode⟩, ?_⟩
        rcases htext with ⟨tag, hscalar⟩ | ⟨-, hscalar⟩
        · exact ⟨_, tag, hscalar⟩
        · exact hscalar
      · exact trivial
    · exact trivial

theorem blames_datum {g : Graph} {id : Nat} {tag : Tag} (htag : (g.tag? id).getD .null = tag) :
    Blames g.Misread (datum g id tag) := by
  refine Ends.bind (Q := fun text => scalarText g (g.nodes.size + 1) id = .ok text)
    ((Ends.self _).weaken fun fault hfault => ?_) fun text hread => ?_
  · cases fault with
    | malformed => exact trivial
    | value v =>
      obtain ⟨hv, hendless⟩ := scalarText_eq_value_iff.1 hfault
      exact .endless (.refl g) hendless hv
  have htext := (ends_scalarText g _ id).of_eq_ok hread
  have hmisread : ∀ v, Misreads tag text v → g.Misread v := by
    intro v hmisreads
    rcases htext with ⟨own, hnode⟩ | ⟨⟨own, entries, hnode⟩, id', tag', hscalar⟩
    · rw [Graph.tag?, hnode] at htag
      cases htag
      exact .scalar hnode hmisreads
    · rw [Graph.tag?, hnode] at htag
      cases htag
      exact .mapping hnode hscalar hmisreads
  split
  · exact trivial
  · exact .mapError (.map (.of_error fun v hv => hmisread v (.bool hv)))
  · exact .mapError (.map (.of_error fun v hv => hmisread v (.int hv)))
  · exact .mapError (.map (.of_error fun v hv => hmisread v (.float hv)))
  · split <;> exact trivial
  · split
    · rename_i hmapping
      rcases htext with ⟨own, hnode⟩ | ⟨⟨own, entries, hnode⟩, -⟩
      · rw [Graph.entries?, hnode] at hmapping
        cases hmapping
      · rw [Graph.tag?, hnode] at htag
        cases htag
        exact .timestamp hnode rfl
    · exact .mapError (.of_error fun v hv => hmisread v (.timestamp hv))
  · exact trivial

variable {g : Graph} {s : ValueState}

/-! A value fault comes from a node of the first graph, and the graph of the state that is left
follows it. -/

theorem ends_make (h : g.Follows s.graph) (id : Nat) :
    Ends (LoadFault.Blamed g.Misread) (fun result => g.Follows result.2.graph) (s.make id) := by
  rw [make]
  split
  · exact h
  · dsimp only
    split
    iterate 3 exact trivial
    iterate 5 exact h
    · refine Ends.andThen ?_ fun _ => h
      exact (blames_datum rfl).weaken (LoadFault.Blamed.mono fun _ => h.misread)

theorem ends_makeAll (h : g.Follows s.graph) (ids : List Nat) :
    Ends (LoadFault.Blamed g.Misread) (fun s' => g.Follows s'.graph) (s.makeAll ids) := by
  induction ids generalizing s with
  | nil => exact h
  | cons id ids ih => exact (ends_make h id).bind fun _ hmade => ih hmade

theorem ends_makeEntries (h : g.Follows s.graph) (made : List (Datum × Nat))
    (entries : List (Nat × Nat)) :
    Ends (LoadFault.Blamed g.Misread) (fun result => g.Follows result.2.graph)
      (s.makeEntries made entries) := by
  induction entries generalizing s made with
  | nil => exact h
  | cons entry rest ih =>
    refine (ends_make h entry.1).bind fun key hkey => ?_
    dsimp only
    split
    · exact (ends_make hkey entry.2).bind fun _ hvalue => ih hvalue _
    · exact trivial

theorem ends_makePairs (h : g.Follows s.graph) (ids : List Nat) :
    Ends (LoadFault.Blamed g.Misread) (fun result => g.Follows result.2.graph)
      (s.makePairs ids) := by
  induction ids generalizing s with
  | nil => exact h
  | cons id ids ih =>
    rw [makePairs]
    split
    · exact (ends_make h _).bind fun _ hkey => (ends_make hkey _).bind fun _ hvalue =>
        (ih hvalue).bind fun _ hpairs => hpairs
    · exact trivial

theorem ends_fill (h : g.Follows s.graph) (id : Nat) :
    Ends (LoadFault.Blamed g.Misread) (fun s' => g.Follows s'.graph) (s.fill id) := by
  have hentries : (s.graph.entries? id).isSome = true → Ends (LoadFault.Blamed g.Misread)
      (fun result => g.Follows result.2.graph) (do
        let graph ← mergeInto s.graph.mergeFuel id 0 [] s.graph
        { s with graph }.makeEntries [] ((graph.entries? id).getD [])) := by
    intro hmapping
    refine ((ends_merge _).1 id 0 [] s.graph hmapping).bind fun graph hgraph => ?_
    exact ends_makeEntries (h.trans hgraph) _ _
  have hmapping : ∀ {tag entries}, s.graph.get? id = some ⟨tag, .mapping entries⟩ →
      (s.graph.entries? id).isSome = true := by
    intro tag entries hnode
    rw [Graph.entries?, hnode]
    rfl
  rw [fill]
  split
  · exact (ends_makeAll h _).bind fun _ hs => hs
  · exact (ends_makePairs h _).bind fun _ hs => hs
  · exact (ends_makePairs h _).bind fun _ hs => hs
  · exact (hentries (hmapping ‹_›)).bind fun _ hs => hs
  · exact (hentries (hmapping ‹_›)).bind fun _ hs => hs
  · exact trivial

theorem ends_fillAll (h : g.Follows s.graph) (fuel : Nat) :
    Ends (LoadFault.Blamed g.Misread) (fun s' => g.Follows s'.graph) (s.fillAll fuel) := by
  induction fuel generalizing s with
  | zero => exact h
  | succ fuel ih =>
    rw [fillAll]
    split
    · exact h
    · rename_i id waiting _
      have hwaiting : g.Follows { s with waiting }.graph := h
      exact (ends_fill hwaiting id).bind fun _ hs => ih hs

end ValueState

/-- The values of a graph can be taken without a value fault unless a node is misread. -/
theorem Data.blames_ofGraph (root : Nat) (g : Graph) : Blames g.Misread (ofGraph root g) :=
  (ValueState.ends_make (Graph.Follows.refl g) root).bind fun _ hmade =>
    (ValueState.ends_fillAll hmade _).bind fun _ _ => trivial

/-- **A text is loaded without a value fault**, unless one keeps it from being cut into tokens or a
node of its graph denotes no value of its kind. -/
theorem Data.blames_load (text : String) :
    Blames (fun v => ((Scan.ofChars text.toList).fault? = some (.value v) ∧ v.IsOfToken)
        ∨ ∃ root g, Graph.ofScan? (Scan.ofChars text.toList) = .ok (some (root, g)) ∧ g.Misread v)
      (load text) := by
  refine ((Ends.self _).weaken fun fault hfault => ?_).bind fun graph? hgraph => ?_
  · cases fault with
    | malformed _ => exact trivial
    | value v =>
      have hbehind := (Graph.blames_ofScan? _).of_eq_error hfault
      exact Or.inl ⟨hbehind, Scan.blamed_ofChars _ _ hbehind⟩
  split
  · exact trivial
  · rename_i root g
    refine Ends.andThen ((blames_ofGraph root g).weaken ?_) fun _ => trivial
    exact LoadFault.Blamed.mono fun v hv => Or.inr ⟨root, g, hgraph, hv⟩

end Yaml
end RefPages
