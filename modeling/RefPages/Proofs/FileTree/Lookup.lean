import RefPages.FileTree

/-!
# Well-formed trees and the paths in them

* `WellFormed`: no place has two entries, and every entry is in a directory under a name that a path
  can use. `WellFormed.set` keeps it.
* `followNames_append` and `exists_found_of_followNames` take a path apart at its last name;
  `follow_of_followNames` says that it leads to the place it names, and
  `directory_of_followNames` that there are only directories on the way.
* `Grows` says that no place is lost between two trees, and `Grows.followNames` that every path
  which led to an entry still does.
-/

set_option autoImplicit false
namespace RefPages
namespace FileTree

/-! ## Well-formed trees -/

/-- Does a path take this name for a step down? It takes `..` for a step back, and no name of more
than 255 bytes. -/
def isStep (name : String) : Bool :=
  name != ".." && name.utf8ByteSize ≤ 255

theorem ne_of_isStep {name : String} (h : isStep name = true) : name ≠ ".." := by
  simp only [isStep, bne_iff_ne, Bool.and_eq_true] at h
  exact h.1

/-- May an entry have this name? -/
def isEntryName (name : String) : Bool :=
  isStep name && !Path.hasNul name

theorem isEntryName_iff {name : String} :
    isEntryName name = true ↔ isStep name = true ∧ Path.hasNul name = false := by
  rw [isEntryName, Bool.and_eq_true, Bool.not_eq_true']

theorem isStep_of_isEntryName {name : String} (h : isEntryName name = true) :
    isStep name = true :=
  (isEntryName_iff.1 h).1

theorem ne_of_isEntryName {name : String} (h : isEntryName name = true) : name ≠ ".." :=
  ne_of_isStep (isStep_of_isEntryName h)

/-- A tree as a system keeps it. -/
structure WellFormed (tree : FileTree) : Prop where
  /-- No place has two entries. -/
  nodup : (tree.entries.map (·.1)).Nodup
  /-- Every entry is in a directory and has a name. -/
  placed : ∀ e ∈ tree.entries,
    tree.get? e.1.dropLast = some .directory ∧ e.1.getLast?.any isEntryName = true

instance (tree : FileTree) : Decidable tree.WellFormed :=
  decidable_of_iff ((tree.entries.map (·.1)).Nodup ∧ ∀ e ∈ tree.entries,
      tree.get? e.1.dropLast = some .directory ∧ e.1.getLast?.any isEntryName = true)
    ⟨fun h => ⟨h.1, h.2⟩, fun h => ⟨h.1, h.2⟩⟩

@[simp] theorem get?_nil (tree : FileTree) : tree.get? [] = some .directory := rfl

theorem get?_of_ne_nil {tree : FileTree} {loc : Location} (h : loc ≠ []) :
    tree.get? loc = tree.entries.lookup loc :=
  if_neg h

theorem mem_of_get? {tree : FileTree} {loc : Location} {entry : Entry} (hne : loc ≠ [])
    (h : tree.get? loc = some entry) : (loc, entry) ∈ tree.entries := by
  rw [get?_of_ne_nil hne, List.lookup_eq_some_iff] at h
  obtain ⟨front, back, hentries, -⟩ := h
  rw [hentries]
  simp

/-- Where no place has two entries, an entry is what is found at its place. -/
theorem lookup_of_mem {entries : List (Location × Entry)} (hnodup : (entries.map (·.1)).Nodup)
    {loc : Location} {entry : Entry} (h : (loc, entry) ∈ entries) :
    entries.lookup loc = some entry := by
  obtain ⟨front, back, rfl⟩ := List.append_of_mem h
  rw [List.map_append, List.map_cons, List.nodup_append] at hnodup
  rw [List.lookup_eq_some_iff]
  refine ⟨front, back, rfl, fun e he => ?_⟩
  have hplace : e.1 ≠ loc := hnodup.2.2 e.1 (List.mem_map_of_mem he) loc (by simp)
  simpa using Ne.symm hplace

theorem WellFormed.get?_of_mem {tree : FileTree} (hwf : tree.WellFormed) {loc : Location}
    {entry : Entry} (hne : loc ≠ []) (h : (loc, entry) ∈ tree.entries) :
    tree.get? loc = some entry := by
  rw [get?_of_ne_nil hne, lookup_of_mem hwf.nodup h]

/-- Every place below the root that holds something is in a directory. -/
theorem WellFormed.parent {tree : FileTree} (hwf : tree.WellFormed) {front : Location}
    {name : String} {entry : Entry} (h : tree.get? (front ++ [name]) = some entry) :
    tree.get? front = some .directory ∧ isEntryName name = true := by
  simpa using hwf.placed _ (mem_of_get? (by simp) h)

theorem WellFormed.dropLast {tree : FileTree} (hwf : tree.WellFormed) {loc : Location}
    (h : tree.get? loc = some .directory) : tree.get? loc.dropLast = some .directory := by
  by_cases hne : loc = []
  · rw [hne]
    rfl
  · rw [← List.dropLast_concat_getLast hne] at h
    exact (hwf.parent h).1

/-- Every name on the way to an entry may be one. -/
theorem WellFormed.isEntryName_of_mem {tree : FileTree} (hwf : tree.WellFormed) {loc : Location}
    {entry : Entry} (h : tree.get? loc = some entry) {name : String} (hname : name ∈ loc) :
    isEntryName name = true := by
  rcases List.eq_nil_or_concat loc with rfl | ⟨front, last, hloc⟩
  · exact absurd hname (by simp)
  · rw [List.concat_eq_append] at hloc
    rw [hloc] at h hname
    obtain ⟨hfront, hlast⟩ := hwf.parent h
    rcases List.mem_append.1 hname with hmem | hmem
    · exact hwf.isEntryName_of_mem hfront hmem
    · rw [List.mem_singleton.1 hmem]
      exact hlast
termination_by loc.length
decreasing_by
  rw [hloc]
  simp

/-! ## Setting a place -/

theorem keys_setEntry (loc : Location) (entry : Entry) (entries : List (Location × Entry)) :
    (setEntry loc entry entries).map (·.1) =
      if loc ∈ entries.map (·.1) then entries.map (·.1) else entries.map (·.1) ++ [loc] := by
  induction entries with
  | nil => simp [setEntry]
  | cons e rest ih =>
    obtain ⟨place, old⟩ := e
    by_cases hp : place = loc
    · simp [setEntry, hp]
    · rw [setEntry, if_neg hp, List.map_cons, ih]
      simp only [List.map_cons, List.mem_cons, Ne.symm hp, false_or]
      split <;> rfl

theorem mem_setEntry {loc : Location} {entry : Entry} {entries : List (Location × Entry)}
    {e : Location × Entry} (h : e ∈ setEntry loc entry entries) :
    e = (loc, entry) ∨ e ∈ entries := by
  induction entries with
  | nil => simpa [setEntry] using h
  | cons e' rest ih =>
    rw [setEntry] at h
    split at h
    · rcases List.mem_cons.1 h with h | h
      · exact Or.inl h
      · exact Or.inr (List.mem_cons_of_mem _ h)
    · rcases List.mem_cons.1 h with h | h
      · exact Or.inr (by rw [h]; exact List.mem_cons_self)
      · exact (ih h).imp id (List.mem_cons_of_mem _)

/-- A new entry in a directory keeps a tree well-formed, as long as it does not take the place of a
directory. -/
theorem WellFormed.set {tree : FileTree} (hwf : tree.WellFormed) {front : Location} {name : String}
    {entry : Entry} (hfront : tree.get? front = some .directory) (hname : isEntryName name = true)
    (hkeep : tree.get? (front ++ [name]) = some .directory → entry = .directory) :
    (tree.set (front ++ [name]) entry).WellFormed := by
  have hdirectory : ∀ loc, tree.get? loc = some .directory →
      (tree.set (front ++ [name]) entry).get? loc = some .directory := by
    intro loc hloc
    rw [get?_set (by simp)]
    split
    · rename_i h
      rw [hkeep (h ▸ hloc)]
    · exact hloc
  constructor
  · rw [FileTree.set, keys_setEntry]
    split
    · exact hwf.nodup
    · rename_i hnot
      refine List.nodup_append.2 ⟨hwf.nodup, by simp, fun a ha b hb => ?_⟩
      rw [List.mem_singleton.1 hb]
      rintro rfl
      exact hnot ha
  · intro e he
    rcases mem_setEntry he with rfl | he
    · simpa [hname] using hdirectory front hfront
    · exact ⟨hdirectory _ (hwf.placed e he).1, (hwf.placed e he).2⟩

/-! ## Following names -/

/-- A path without names leads to where it starts. -/
theorem followNames_nil {tree : FileTree} {loc : Location} {entry : Entry}
    (h : tree.get? loc = some entry) : tree.followNames loc [] = .ok (.found loc entry) := by
  rw [followNames, h]

/-- A step back. -/
theorem followNames_back {tree : FileTree} {at_ : Location} (hat : tree.get? at_ = some .directory)
    (rest : List String) :
    tree.followNames at_ (".." :: rest) = tree.followNames at_.dropLast rest := by
  rw [followNames, if_neg (by simpa using hat), if_neg (by decide), if_pos rfl]

/-- A step down to something that is there. -/
theorem followNames_down {tree : FileTree} {at_ : Location} {name : String}
    (hat : tree.get? at_ = some .directory) (hname : isStep name = true)
    (hsome : (tree.get? (at_ ++ [name])).isSome = true) (rest : List String) :
    tree.followNames at_ (name :: rest) = tree.followNames (at_ ++ [name]) rest := by
  simp only [isStep, bne_iff_ne, Bool.and_eq_true, decide_eq_true_eq] at hname
  rw [followNames, if_neg (by simpa using hat), if_neg (by omega), if_neg hname.1]
  simp only
  rw [if_pos hsome]

/-- The ways in which a path can go on. -/
theorem followNames_cons_cases {tree : FileTree} {at_ : Location} {name : String}
    {rest : List String} {target : Target} (h : tree.followNames at_ (name :: rest) = .ok target) :
    tree.get? at_ = some .directory ∧
      ((name = ".." ∧ tree.followNames at_.dropLast rest = .ok target)
        ∨ (isStep name = true ∧ (tree.get? (at_ ++ [name])).isSome = true
          ∧ tree.followNames (at_ ++ [name]) rest = .ok target)
        ∨ (isStep name = true ∧ tree.get? (at_ ++ [name]) = none ∧ rest = []
          ∧ target = .free (at_ ++ [name]))) := by
  rw [followNames] at h
  split at h
  · exact absurd h (by simp)
  · rename_i hat
    refine ⟨by simpa using hat, ?_⟩
    split at h
    · exact absurd h (by simp)
    · rename_i hsize
      split at h
      · rename_i hback
        exact Or.inl ⟨hback, h⟩
      · rename_i hback
        have hname : isStep name = true := by
          simp only [isStep, bne_iff_ne, Bool.and_eq_true, decide_eq_true_eq]
          exact ⟨hback, by omega⟩
        simp only at h
        split at h
        · rename_i hsome
          exact Or.inr (Or.inl ⟨hname, hsome, h⟩)
        · rename_i hnone
          split at h
          · rename_i hempty
            exact Or.inr (Or.inr ⟨hname, by simpa using hnone, List.isEmpty_iff.1 hempty,
              (Except.ok.inj h).symm⟩)
          · exact absurd h (by simp)

theorem followNames_nil_cases {tree : FileTree} {at_ : Location} {target : Target}
    (h : tree.followNames at_ [] = .ok target) :
    ∃ entry, tree.get? at_ = some entry ∧ target = .found at_ entry := by
  rw [followNames] at h
  split at h
  · rename_i entry hentry
    exact ⟨entry, hentry, (Except.ok.inj h).symm⟩
  · exact absurd h (by simp)

/-- The last name of a path is followed from where the rest leads. -/
theorem followNames_append {tree : FileTree} {at_ mid : Location} {entry : Entry}
    {names : List String} (h : tree.followNames at_ names = .ok (.found mid entry))
    (name : String) :
    tree.followNames at_ (names ++ [name]) = tree.followNames mid [name] := by
  induction names generalizing at_ with
  | nil =>
    obtain ⟨entry', -, htarget⟩ := followNames_nil_cases h
    cases htarget
    rfl
  | cons first rest ih =>
    obtain ⟨hat, ⟨rfl, hrest⟩ | ⟨hname, hsome, hrest⟩ | ⟨-, -, -, htarget⟩⟩ :=
      followNames_cons_cases h
    · rw [List.cons_append, followNames_back hat, ih hrest]
    · rw [List.cons_append, followNames_down hat hname hsome, ih hrest]
    · exact absurd htarget (by simp)

/-- Before its last name a path leads to a directory. -/
theorem exists_found_of_followNames {tree : FileTree} {at_ : Location} {names : List String}
    {name : String} {target : Target} (h : tree.followNames at_ (names ++ [name]) = .ok target) :
    ∃ mid, tree.followNames at_ names = .ok (.found mid .directory) := by
  induction names generalizing at_ with
  | nil => exact ⟨at_, followNames_nil (followNames_cons_cases h).1⟩
  | cons first rest ih =>
    obtain ⟨hat, ⟨rfl, hrest⟩ | ⟨hname, hsome, hrest⟩ | ⟨-, -, hrest, -⟩⟩ :=
      followNames_cons_cases h
    · rw [followNames_back hat]
      exact ih hrest
    · rw [followNames_down hat hname hsome]
      exact ih hrest
    · exact absurd hrest (by simp)

/-- One name, followed from a directory. -/
theorem followNames_singleton {tree : FileTree} {mid : Location} {name : String} {entry : Entry}
    (hmid : tree.get? mid = some .directory) (hname : isStep name = true)
    (hentry : tree.get? (mid ++ [name]) = some entry) :
    tree.followNames mid [name] = .ok (.found (mid ++ [name]) entry) := by
  rw [followNames_down hmid hname (by rw [hentry]; rfl)]
  exact followNames_nil hentry

/-- What a path that ends with a name has led to. -/
theorem followNames_append_cases {tree : FileTree} {at_ : Location} {names : List String}
    {name : String} {target : Target} (h : tree.followNames at_ (names ++ [name]) = .ok target) :
    ∃ mid, tree.followNames at_ names = .ok (.found mid .directory)
      ∧ ((name = ".." ∧ ∃ entry, tree.get? mid.dropLast = some entry
          ∧ target = .found mid.dropLast entry)
        ∨ (isStep name = true ∧ ∃ entry, tree.get? (mid ++ [name]) = some entry
          ∧ target = .found (mid ++ [name]) entry)
        ∨ (isStep name = true ∧ tree.get? (mid ++ [name]) = none
          ∧ target = .free (mid ++ [name]))) := by
  obtain ⟨mid, hmid⟩ := exists_found_of_followNames h
  rw [followNames_append hmid] at h
  refine ⟨mid, hmid, ?_⟩
  obtain ⟨-, ⟨hname, h⟩ | ⟨hname, -, h⟩ | ⟨hname, hnone, -, htarget⟩⟩ := followNames_cons_cases h
  · exact Or.inl ⟨hname, followNames_nil_cases h⟩
  · exact Or.inr (Or.inl ⟨hname, followNames_nil_cases h⟩)
  · exact Or.inr (Or.inr ⟨hname, hnone, htarget⟩)

/-- The place that a path has led to. -/
def Target.place : Target → Location
  | .found loc _ => loc
  | .free loc => loc

/-- What is at the place that a path has led to. -/
def Target.entry? : Target → Option Entry
  | .found _ entry => some entry
  | .free _ => none

/-- A path leads to the place that it names, and finds what is there. -/
theorem follow_of_followNames {tree : FileTree} {at_ : Location} {names : List String}
    {target : Target} (h : tree.followNames at_ names = .ok target) :
    target.place = Path.follow at_ names ∧ tree.get? target.place = target.entry? := by
  induction names generalizing at_ with
  | nil =>
    obtain ⟨entry, hentry, rfl⟩ := followNames_nil_cases h
    exact ⟨rfl, hentry⟩
  | cons name rest ih =>
    rw [Path.follow]
    obtain ⟨-, ⟨rfl, hrest⟩ | ⟨hname, -, hrest⟩ | ⟨hname, hnone, rfl, rfl⟩⟩ :=
      followNames_cons_cases h
    · exact ih hrest
    · rw [if_neg (ne_of_isStep hname)]
      exact ih hrest
    · rw [if_neg (ne_of_isStep hname)]
      exact ⟨rfl, hnone⟩

/-- There are only directories on the way of a path. -/
theorem directory_of_followNames {tree : FileTree} {at_ : Location} {names : List String}
    {target : Target} (h : tree.followNames at_ names = .ok target) {n : Nat}
    (hn : n < names.length) :
    tree.get? (Path.follow at_ (names.take n)) = some .directory := by
  induction names generalizing at_ n with
  | nil => exact absurd hn (by simp)
  | cons name rest ih =>
    obtain ⟨hat, hcases⟩ := followNames_cons_cases h
    cases n with
    | zero => exact hat
    | succ n =>
      rw [List.take_succ_cons, Path.follow]
      rw [List.length_cons] at hn
      rcases hcases with ⟨rfl, hrest⟩ | ⟨hname, -, hrest⟩ | ⟨-, -, rfl, -⟩
      · exact ih hrest (by omega)
      · rw [if_neg (ne_of_isStep hname)]
        exact ih hrest (by omega)
      · exact absurd hn (by simp)

/-! ## Trees that grow -/

/-- Between two trees no place is lost: directories stay, and files stay files. -/
structure Grows (tree tree' : FileTree) : Prop where
  /-- Directories stay. -/
  directory : ∀ {loc}, tree.get? loc = some .directory → tree'.get? loc = some .directory
  /-- Files stay files, whatever is in them. -/
  file : ∀ {loc bytes}, tree.get? loc = some (.file bytes) →
    ∃ bytes', tree'.get? loc = some (.file bytes')

theorem Grows.refl (tree : FileTree) : Grows tree tree :=
  ⟨fun h => h, fun h => ⟨_, h⟩⟩

theorem Grows.trans {tree tree' tree'' : FileTree} (h : Grows tree tree')
    (h' : Grows tree' tree'') : Grows tree tree'' := by
  refine ⟨fun hloc => h'.directory (h.directory hloc), fun hloc => ?_⟩
  obtain ⟨bytes, hbytes⟩ := h.file hloc
  exact h'.file hbytes

theorem Grows.isSome {tree tree' : FileTree} (h : Grows tree tree') {loc : Location}
    (hloc : (tree.get? loc).isSome = true) : (tree'.get? loc).isSome = true := by
  obtain ⟨entry, hentry⟩ := Option.isSome_iff_exists.1 hloc
  cases entry with
  | directory => rw [h.directory hentry]; rfl
  | file bytes =>
    obtain ⟨bytes', hbytes'⟩ := h.file hentry
    rw [hbytes']
    rfl

/-- A path that led to an entry leads to the same place in a tree that has grown. -/
theorem Grows.followNames {tree tree' : FileTree} (h : Grows tree tree') {at_ loc : Location}
    {entry entry' : Entry} {names : List String}
    (hfound : tree.followNames at_ names = .ok (.found loc entry))
    (hentry : tree'.get? loc = some entry') :
    tree'.followNames at_ names = .ok (.found loc entry') := by
  induction names generalizing at_ with
  | nil =>
    obtain ⟨old, -, htarget⟩ := followNames_nil_cases hfound
    cases htarget
    exact followNames_nil hentry
  | cons name rest ih =>
    obtain ⟨hat, ⟨rfl, hrest⟩ | ⟨hname, hsome, hrest⟩ | ⟨-, -, -, htarget⟩⟩ :=
      followNames_cons_cases hfound
    · rw [followNames_back (h.directory hat)]
      exact ih hrest
    · rw [followNames_down (h.directory hat) hname (h.isSome hsome)]
      exact ih hrest
    · exact absurd htarget (by simp)

end FileTree
end RefPages
