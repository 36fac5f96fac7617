import RefPages.Category
import RefPages.Proofs.Text.Reline
import RefPages.Settings

/-!
# What decides a category

Of all the segments of a path one decides the category, and the others only say which one that is.

* `CategoryMap.folder?_of_not_mem`, `folder?_of_short` and `folder?_of_ne_nil` find the segment that
  decides, and `categoryOf_anchored` says that nothing in front of the first anchor does.
* `Path.Padded` puts redundant segments into a list of segments, and `Path.ofString_padded` says
  that a path written with them is the same path, once a name stands in front of them.
* `Routers` are routers with tables in memory that are written to. `Routers.build` starts a router
  with a copy of the built-in table and writes its overrides into that;
  `Routers.ofMaps_eq` says what is in memory after any number of them.
* `CategoryMap.categoryOf_firstAnchor`: **the category depends on the segment after the first anchor
  alone, and on the router's own table.**
-/

set_option autoImplicit false
namespace RefPages

open Text

/-! ## The segment that decides -/

namespace CategoryMap

variable {m : CategoryMap}

/-- What stands in front of the first anchor is passed over. -/
theorem folder?_append {front : List String} (h : m.anchor ∉ front) (rest : List String) :
    m.folder? (front ++ rest) = m.folder? rest := by
  have hfront : ∀ part ∈ front, (part != m.anchor) = true := fun part hpart =>
    bne_iff_ne.2 fun heq => h (heq ▸ hpart)
  rw [folder?, List.dropWhile_append_of_pos hfront, ← folder?]

theorem folder?_of_not_mem {parts : List String} (h : m.anchor ∉ parts) :
    m.folder? parts = none := by
  rw [← List.append_nil parts, folder?_append h]
  rfl

/-- A segment after the anchor is no folder if it is the last one. -/
theorem folder?_of_short {rest : List String} (h : rest.length < 2) :
    m.folder? (m.anchor :: rest) = none := by
  rw [folder?, List.dropWhile_cons_of_neg (by simp)]
  match rest, h with
  | [], _ => rfl
  | [_], _ => rfl

theorem folder?_of_ne_nil (folder : String) {after : List String} (h : after ≠ []) :
    m.folder? (m.anchor :: folder :: after) = some folder := by
  obtain ⟨next, after, rfl⟩ := List.exists_cons_of_ne_nil h
  rw [folder?, List.dropWhile_cons_of_neg (by simp)]

/-- The category of a path that goes through the anchor. -/
theorem categoryOf_anchored {path : Path} {front rest : List String}
    (hparts : path.parts = front ++ m.anchor :: rest) (hfront : m.anchor ∉ front) :
    m.categoryOf path = ((m.folder? (m.anchor :: rest)).map m.ofFolder).getD m.default := by
  rw [categoryOf, hparts, folder?_append hfront]
  cases m.folder? (m.anchor :: rest) <;> rfl

end CategoryMap

/-! ## Redundant segments -/

namespace Path

/-- Segments with redundant ones put in, which are empty or a dot. -/
inductive Padded : List (List Char) → List (List Char) → Prop where
  | nil : Padded [] []
  | keep {segment : List Char} {segments padded : List (List Char)} :
      Padded segments padded → Padded (segment :: segments) (segment :: padded)
  | put {segment : List Char} {segments padded : List (List Char)} :
      segment = [] ∨ segment = ['.'] → Padded segments padded → Padded segments (segment :: padded)

/-- Segments as they are written behind something else, each with a slash in front. -/
def behind (segments : List (List Char)) : List Char :=
  segments.flatMap ('/' :: ·)

theorem namesOf_append_cons (front rest : List Char) :
    namesOf (front ++ '/' :: rest) = namesOf front ++ namesOf rest := by
  rw [namesOf, splitOn_append_cons, List.filter_append, List.map_append]
  rfl

theorem namesOf_behind (front : List Char) (segments : List (List Char)) :
    namesOf (front ++ behind segments) = namesOf front ++ segments.flatMap namesOf := by
  induction segments generalizing front with
  | nil => rw [behind, List.flatMap_nil, List.append_nil, List.flatMap_nil, List.append_nil]
  | cons segment rest ih =>
    have hbehind : front ++ behind (segment :: rest)
        = (front ++ '/' :: segment) ++ behind rest := by
      rw [behind, List.flatMap_cons, ← behind, List.append_assoc, List.cons_append]
    rw [hbehind, ih, namesOf_append_cons, List.append_assoc, List.flatMap_cons]

theorem Padded.flatMap_namesOf {segments padded : List (List Char)} (h : Padded segments padded) :
    padded.flatMap namesOf = segments.flatMap namesOf := by
  induction h with
  | nil => rfl
  | keep _ ih => rw [List.flatMap_cons, List.flatMap_cons, ih]
  | put hsegment _ ih =>
    rw [List.flatMap_cons, ih]
    rcases hsegment with rfl | rfl <;> rfl

/-- A text with a name in it is more than slashes. -/
theorem exists_ne_slash_of_namesOf {cs : List Char} (h : namesOf cs ≠ []) :
    ∃ c ∈ cs, c ≠ '/' := by
  obtain ⟨name, hname⟩ := List.exists_mem_of_ne_nil _ h
  obtain ⟨segment, hsegment, -⟩ := List.mem_map.1 hname
  obtain ⟨hpiece, hkept⟩ := List.mem_filter.1 hsegment
  obtain ⟨c, hc⟩ := List.exists_mem_of_ne_nil segment (by rintro rfl; simp at hkept)
  have hslash : c ≠ '/' := by
    rintro rfl
    exact not_mem_of_mem_splitOn hpiece hc
  have hmem : c ∈ '/' :: cs :=
    (isInfix_of_mem_splitOn hpiece).subset (List.mem_cons_of_mem _ hc)
  exact ⟨c, (List.mem_cons.1 hmem).resolve_left hslash, hslash⟩

/-- The slashes in front of something else decide where a path starts. -/
theorem startOf_slashes (n : Nat) {c : Char} (hc : c ≠ '/') (rest : List Char) :
    startOf (List.replicate n '/' ++ c :: rest) =
      match n with
      | 0 => .here
      | 2 => .doubleRoot
      | _ => .root := by
  match n with
  | 0 => simp [startOf, hc]
  | 1 => simp [startOf, List.replicate_succ, hc]
  | 2 => simp [startOf, List.replicate_succ, hc]
  | n + 3 => rfl

theorem startOf_append {front : List Char} (h : ∃ c ∈ front, c ≠ '/') (rest : List Char) :
    startOf (front ++ rest) = startOf front := by
  obtain ⟨n, c, tail, rfl, hc⟩ :
      ∃ n c tail, front = List.replicate n '/' ++ c :: tail ∧ c ≠ '/' := by
    induction front with
    | nil => exact absurd h (by simp)
    | cons d front ih =>
      by_cases hd : d = '/'
      · obtain ⟨c, hmem, hc⟩ := h
        have hmem : c ∈ front := (List.mem_cons.1 hmem).resolve_left fun heq => hc (heq.trans hd)
        obtain ⟨n, c, tail, rfl, hc⟩ := ih ⟨c, hmem, hc⟩
        exact ⟨n + 1, c, tail, by rw [hd]; rfl, hc⟩
      · exact ⟨0, d, front, rfl, hd⟩
  rw [List.append_assoc, List.cons_append, startOf_slashes n hc, startOf_slashes n hc]

/-- **Redundant segments do not change a path** behind a name. -/
theorem ofString_padded {front : List Char} (hfront : namesOf front ≠ [])
    {segments padded : List (List Char)} (h : Padded segments padded) :
    ofString (String.ofList (front ++ behind padded))
      = ofString (String.ofList (front ++ behind segments)) := by
  have hslash := exists_ne_slash_of_namesOf hfront
  rw [ofString, ofString, String.toList_ofList, String.toList_ofList, startOf_append hslash,
    startOf_append hslash, namesOf_behind, namesOf_behind, h.flatMap_namesOf]

end Path

/-! ## Tables in memory -/

/-- The table of a router by its place in memory, and what else the router knows. -/
structure Router where
  table : Nat
  anchor : String
  default : String

/-- Tables in memory, the built-in one in front, and the routers that use them. -/
structure Routers where
  tables : List (List (String × String)) := [builtInCategories]
  routers : List Router := []

namespace Routers

/-- Writes an entry into the table at a place. -/
def put (s : Routers) (place : Nat) (key value : String) : Routers :=
  { s with tables := s.tables.set place (Settings.enter (s.tables.getD place []) key value) }

/-- One more router: its table starts as a copy of the built-in one, and the overrides are written
into it. -/
def build (s : Routers) (m : CategoryMap) : Routers :=
  let place := s.tables.length
  m.overrides.foldl (fun s entry => s.put place entry.1 entry.2)
    { tables := s.tables ++ [s.tables.headD []]
      routers := s.routers ++ [⟨place, m.anchor, m.default⟩] }

/-- The category that a router gives a path, by the tables that are in memory. -/
def route? (s : Routers) (i : Nat) (path : Path) : Option String :=
  s.routers[i]?.map fun router =>
    match CategoryMap.folder? { anchor := router.anchor } path.parts with
    | some folder => ((s.tables.getD router.table []).lookup folder).getD router.default
    | none => router.default

/-- What is in memory after routers have been built one after the other. -/
def ofMaps (maps : List CategoryMap) : Routers :=
  maps.foldl build {}

/-- The built-in table with overrides written into it. -/
def tableOf (m : CategoryMap) : List (String × String) :=
  m.overrides.foldl (fun table entry => Settings.enter table entry.1 entry.2) builtInCategories

/-- Entries that are written into the last table leave the others as they are. -/
theorem foldl_put (entries : List (String × String)) (tables : List (List (String × String)))
    (table : List (String × String)) (routers : List Router) :
    entries.foldl (fun s entry => s.put tables.length entry.1 entry.2)
        (⟨tables ++ [table], routers⟩ : Routers)
      = ⟨tables ++ [entries.foldl (fun table entry => Settings.enter table entry.1 entry.2) table],
        routers⟩ := by
  induction entries generalizing table with
  | nil => rfl
  | cons entry rest ih =>
    have hput : Routers.put ⟨tables ++ [table], routers⟩ tables.length entry.1 entry.2
        = ⟨tables ++ [Settings.enter table entry.1 entry.2], routers⟩ := by
      simp [put]
    rw [List.foldl_cons, hput, ih, List.foldl_cons]

theorem build_eq (s : Routers) (m : CategoryMap) :
    s.build m =
      ⟨s.tables ++ [m.overrides.foldl (fun table entry => Settings.enter table entry.1 entry.2)
        (s.tables.headD [])], s.routers ++ [⟨s.tables.length, m.anchor, m.default⟩]⟩ :=
  foldl_put _ _ _ _

/-- Every router with a table of its own, behind the built-in one. -/
def apart (maps : List CategoryMap) : Routers where
  tables := builtInCategories :: maps.map tableOf
  routers := maps.mapIdx fun i m => ⟨i + 1, m.anchor, m.default⟩

theorem build_apart (maps : List CategoryMap) (m : CategoryMap) :
    (apart maps).build m = apart (maps ++ [m]) := by
  rw [build_eq]
  simp [apart, tableOf]

/-- **Routers built one after the other have tables of their own**, and the built-in one stays as it
was. -/
theorem ofMaps_eq (maps : List CategoryMap) : ofMaps maps = apart maps := by
  -- The routers built before are kept apart from those still to be built.
  have hrest : ∀ done, maps.foldl build (apart done) = apart (done ++ maps) := by
    induction maps with
    | nil => exact fun done => by rw [List.append_nil]; rfl
    | cons m rest ih =>
      intro done
      rw [List.foldl_cons, build_apart, ih, ← List.append_cons]
  exact hrest []

theorem route?_ofMaps (maps : List CategoryMap) (i : Nat) (path : Path) :
    (ofMaps maps).route? i path = maps[i]?.map fun m =>
      match m.folder? path.parts with
      | some folder => ((tableOf m).lookup folder).getD m.default
      | none => m.default := by
  rw [route?, ofMaps_eq, apart, List.getElem?_mapIdx, Option.map_map]
  cases hm : maps[i]? with
  | none => rfl
  | some m =>
    have htable : (builtInCategories :: maps.map tableOf).getD (i + 1) [] = tableOf m := by
      simp [hm]
    rw [Option.map_some, Option.map_some, Function.comp_apply]
    simp only [htable]
    rfl

/-- The value of a key is replaced wherever it is. -/
theorem lookup_replaced (table : List (String × String)) (key value x : String) :
    (table.map fun entry => if entry.1 = key then (key, value) else entry).lookup x
      = if x = key then (table.lookup x).map fun _ => value else table.lookup x := by
  induction table with
  | nil => simp
  | cons entry rest ih =>
    obtain ⟨k, v⟩ := entry
    have hkey : (if k = key then (key, value) else (k, v)).1 = k := by
      split
      · rename_i hk
        exact hk.symm
      · rfl
    rw [List.map_cons, List.lookup_cons, hkey, List.lookup_cons]
    by_cases hx : x = k
    · by_cases hk : k = key <;> simp [hx, hk]
    · have hne : (x == k) = false := by simpa using hx
      simp only [hne, ih]

theorem lookup_enter (table : List (String × String)) (key value x : String) :
    (Settings.enter table key value).lookup x
      = if x = key then some value else table.lookup x := by
  rw [Settings.enter]
  split
  · rename_i hthere
    obtain ⟨old, hold⟩ := Option.isSome_iff_exists.1 hthere
    rw [lookup_replaced]
    by_cases hx : x = key
    · rw [if_pos hx, if_pos hx, hx, hold, Option.map_some]
    · rw [if_neg hx, if_neg hx]
  · rename_i hnew
    have hnone : table.lookup key = none := Option.not_isSome_iff_eq_none.1 hnew
    rw [List.lookup_append]
    by_cases hx : x = key
    · rw [hx, hnone]
      simp
    · have hne : (x == key) = false := by simpa using hx
      simp [List.lookup_cons, hne, hx]

/-- Overrides go before the entries of the table that they are written into. -/
theorem lookup_foldl_enter {entries : List (String × String)} (h : (entries.map (·.1)).Nodup)
    (table : List (String × String)) (x : String) :
    (entries.foldl (fun table entry => Settings.enter table entry.1 entry.2) table).lookup x
      = (entries.lookup x).or (table.lookup x) := by
  induction entries generalizing table with
  | nil => rfl
  | cons entry rest ih =>
    obtain ⟨key, value⟩ := entry
    obtain ⟨hkey, hrest⟩ := List.nodup_cons.1 h
    rw [List.foldl_cons, ih hrest, lookup_enter, List.lookup_cons]
    by_cases hx : x = key
    · have hnone : rest.lookup x = none := by
        rw [List.lookup_eq_none_iff]
        intro p hp
        simpa using fun heq : x = p.1 => hkey (List.mem_map.2 ⟨p, hp, heq ▸ hx⟩)
      rw [hnone, if_pos hx]
      simp [hx]
    · have hne : (x == key) = false := by simpa using hx
      rw [if_neg hx]
      simp only [hne]

/-- The category that a router gives is that of its own map. -/
theorem route?_eq_categoryOf {maps : List CategoryMap} {i : Nat} {m : CategoryMap}
    (hm : maps[i]? = some m) (h : (m.overrides.map (·.1)).Nodup) (path : Path) :
    (ofMaps maps).route? i path = some (m.categoryOf path) := by
  rw [route?_ofMaps, hm, Option.map_some, CategoryMap.categoryOf]
  cases m.folder? path.parts with
  | none => rfl
  | some folder => simp only [CategoryMap.ofFolder, tableOf, lookup_foldl_enter h]

/-- Building further routers changes nothing for those that are there. -/
theorem route?_append {maps : List CategoryMap} {i : Nat} (h : i < maps.length)
    (more : List CategoryMap) (path : Path) :
    (ofMaps (maps ++ more)).route? i path = (ofMaps maps).route? i path := by
  rw [route?_ofMaps, route?_ofMaps, List.getElem?_append_left h]

end Routers

/-! ## The category of a path -/

namespace CategoryMap

/-- **What decides the category of a path.**

* Without the anchor among its segments, or with fewer than two segments behind the first one, the
  category is the default; else it is that of the segment right behind the first anchor, by the
  overrides, the built-in table or else the default.
* The segments in front of the first anchor do not matter, nor do those behind the folder, nor do
  redundant segments behind the first name.
* A router that is built with the map goes by it, if no folder stands in the overrides twice, and
  building further routers changes nothing about that. -/
theorem categoryOf_firstAnchor (m : CategoryMap) :
    (∀ path : Path, m.anchor ∉ path.parts → m.categoryOf path = m.default)
      ∧ (∀ (path : Path) front rest, path.parts = front ++ m.anchor :: rest → m.anchor ∉ front →
        (rest.length < 2 → m.categoryOf path = m.default)
          ∧ ∀ folder after, rest = folder :: after → after ≠ [] → m.categoryOf path
            = ((m.overrides.lookup folder).or (builtInCategories.lookup folder)).getD m.default)
      ∧ (∀ (path path' : Path) front front' rest, path.parts = front ++ m.anchor :: rest →
        path'.parts = front' ++ m.anchor :: rest → m.anchor ∉ front → m.anchor ∉ front' →
        m.categoryOf path' = m.categoryOf path)
      ∧ (∀ (path path' : Path) front folder after after',
        path.parts = front ++ m.anchor :: folder :: after →
        path'.parts = front ++ m.anchor :: folder :: after' → m.anchor ∉ front → after ≠ [] →
        after' ≠ [] → m.categoryOf path' = m.categoryOf path)
      ∧ (∀ front segments padded, Path.namesOf front ≠ [] → Path.Padded segments padded →
        m.categoryOf (.ofString (String.ofList (front ++ Path.behind padded)))
          = m.categoryOf (.ofString (String.ofList (front ++ Path.behind segments))))
      ∧ (∀ (maps : List CategoryMap) i, maps[i]? = some m → ∀ path,
        ((m.overrides.map (·.1)).Nodup →
            (Routers.ofMaps maps).route? i path = some (m.categoryOf path))
          ∧ ∀ more, (Routers.ofMaps (maps ++ more)).route? i path
            = (Routers.ofMaps maps).route? i path) := by
  refine ⟨fun path hnone => categoryOf_eq_default (folder?_of_not_mem hnone), ?_, ?_, ?_, ?_, ?_⟩
  · intro path front rest hparts hfront
    rw [categoryOf_anchored hparts hfront]
    refine ⟨fun hshort => by rw [folder?_of_short hshort]; rfl, ?_⟩
    rintro folder after rfl hafter
    rw [folder?_of_ne_nil folder hafter]
    rfl
  · intro path path' front front' rest hparts hparts' hfront hfront'
    rw [categoryOf_anchored hparts hfront, categoryOf_anchored hparts' hfront']
  · intro path path' front folder after after' hparts hparts' hfront hafter hafter'
    rw [categoryOf_anchored hparts hfront, categoryOf_anchored hparts' hfront,
      folder?_of_ne_nil folder hafter, folder?_of_ne_nil folder hafter']
  · intro front segments padded hfront hpadded
    rw [Path.ofString_padded hfront hpadded]
  · intro maps i hm path
    refine ⟨fun hkeys => Routers.route?_eq_categoryOf hm hkeys path, fun more => ?_⟩
    exact Routers.route?_append (List.getElem?_eq_some_iff.1 hm).1 more path

/-- Categories with one of the built-in ones overridden. -/
def overridden : CategoryMap where
  overrides := [("string", "text")]

/-- A second anchor, what stands in front of the first one, redundant segments and another router
make no difference. -/
theorem categoryOf_firstAnchor_overridden :
    overridden.categoryOf (.ofString "a/operations/string/x.d") = "text"
      ∧ overridden.categoryOf (.ofString "//b/../operations/string/operations/type/x.d") = "text"
      ∧ overridden.categoryOf (.ofString "a/operations//./string/x.d/") = "text"
      ∧ overridden.categoryOf (.ofString "a/operations/string") = "other"
      ∧ overridden.categoryOf (.ofString "a/Operations/string/x.d") = "other"
      ∧ (Routers.ofMaps ([overridden] ++ [{ overrides := [("string", "s")] }])).route? 0
        (.ofString "a/operations/string/x.d") = some "text" := by
  obtain ⟨hnone, hsome, hfront, hafter, hpadded, hrouters⟩ := categoryOf_firstAnchor overridden
  have hplain : overridden.categoryOf (.ofString "a/operations/string/x.d") = "text" :=
    (hsome _ ["a"] ["string", "x.d"] (by decide) (by decide)).2 "string" ["x.d"] rfl (by decide)
  have hdeep : overridden.categoryOf (.ofString "a/operations/string/operations/type/x.d")
      = overridden.categoryOf (.ofString "a/operations/string/x.d") :=
    hafter _ _ ["a"] "string" ["x.d"] ["operations", "type", "x.d"] (by decide) (by decide)
      (by decide) (by decide) (by decide)
  have helsewhere : overridden.categoryOf (.ofString "//b/../operations/string/operations/type/x.d")
      = overridden.categoryOf (.ofString "a/operations/string/operations/type/x.d") :=
    hfront _ _ ["a"] ["//", "b", ".."] ["string", "operations", "type", "x.d"] (by decide)
      (by decide) (by decide) (by decide)
  have hwritten : overridden.categoryOf (.ofString "a/operations//./string/x.d/")
      = overridden.categoryOf (.ofString "a/operations/string/x.d") :=
    hpadded ['a'] ["operations".toList, "string".toList, "x.d".toList]
      ["operations".toList, [], ['.'], "string".toList, "x.d".toList, []] (by decide)
      (.keep (.put (.inl rfl) (.put (.inr rfl) (.keep (.keep (.put (.inl rfl) .nil))))))
  obtain ⟨hown, hmore⟩ :=
    hrouters [overridden] 0 rfl (.ofString "a/operations/string/x.d")
  refine ⟨hplain, helsewhere.trans (hdeep.trans hplain), hwritten.trans hplain,
    (hsome _ ["a"] ["string"] (by decide) (by decide)).1 (by decide), hnone _ (by decide), ?_⟩
  rw [hmore, hown (by decide), hplain]

end CategoryMap

end RefPages
