import Mathlib.Data.Finset.Max
import ObjectKernel.Proofs.CleanPaths

/-!
# The nearest manifest

A search looks for a manifest in a directory and goes up as long as there is none, until the directory above
is the directory itself. On a clean path that happens at the root only, and each step makes the path shorter,
so every search comes to an end. It stops at the first manifest that is there at all: whether it can be
loaded is seen afterwards, and if it cannot, no directory above is tried.

## Contents

* `Manifest.Search`: a search, directory by directory. `Manifest.Search.unique`: it has one outcome.
* `Manifest.search_findIn`: a search ends, with the outcome of `Manifest.findIn`.
* `Manifest.Governs`: the longest path at or above another one where a manifest is.
* `Manifest.find_loads_nearest`.
-/

namespace ObjectKernel.Manifest

open ObjectKernel.Path

variable {fs : Files} {dir : Bytes} {names : List Bytes}

/-! ## Going up -/

/-- A search goes up from a directory until there is a manifest or the directory above is the same. -/
inductive Search (fs : Files) : Bytes → Except ManifestError (Option Manifest) → Prop where
  | found {dir : Bytes} (present : fs.exists? (pathIn dir)) : Search fs dir ((load fs dir).map some)
  | top {dir : Bytes} (absent : ¬fs.exists? (pathIn dir)) (root : Path.parent dir = dir) :
      Search fs dir (.ok none)
  | up {dir : Bytes} {outcome : Except ManifestError (Option Manifest)} (absent : ¬fs.exists? (pathIn dir))
      (below : Path.parent dir ≠ dir) (above : Search fs (Path.parent dir) outcome) : Search fs dir outcome

/-- A search has one outcome. -/
theorem Search.unique {r r'} (h : Search fs dir r) (h' : Search fs dir r') : r = r' := by
  induction h with
  | found present =>
    cases h' with
    | found => rfl
    | top absent => exact absurd present absent
    | up absent => exact absurd present absent
  | top absent root =>
    cases h' with
    | found present => exact absurd present absent
    | top => rfl
    | up _ below => exact absurd root below
  | up absent below _ ih =>
    cases h' with
    | found present => exact absurd present absent
    | top _ root => exact absurd root below
    | up _ _ above => exact ih above

/-- **A search ends.** From a clean path it looks at the directories on the way up, in this order. -/
theorem search_findIn (fs : Files) {kept} (h : ∀ name ∈ kept, Path.IsName name) :
    Search fs (ofParts true kept) (findIn fs (ancestorsOf kept)) := by
  induction kept with
  | nil =>
    by_cases hpresent : fs.exists? (pathIn [slash]) = true
    · have hfind : findIn fs (ancestorsOf []) = (load fs [slash]).map some := if_pos hpresent
      rw [hfind]
      exact .found hpresent
    · have hfind : findIn fs (ancestorsOf []) = .ok none := if_neg hpresent
      rw [hfind]
      exact .top hpresent parent_root
  | cons name before ih =>
    obtain ⟨hname, hbefore⟩ := List.forall_mem_cons.mp h
    rw [ancestorsOf, findIn]
    by_cases hpresent : fs.exists? (pathIn (ofParts true (name :: before))) = true
    · rw [if_pos hpresent]
      exact .found hpresent
    · rw [if_neg hpresent]
      have hparent := parent_ofParts_cons h
      have hshorter := length_ofParts_lt before hname.ne_nil
      refine .up hpresent ?_ (hparent ▸ ih hbefore)
      intro hsame
      rw [← hparent, hsame] at hshorter
      exact Nat.lt_irrefl _ hshorter

/-! ## Where it stops -/

theorem findIn_of_first {nearer above : List Bytes} (passed : ∀ d ∈ nearer, ¬fs.exists? (pathIn d))
    (present : fs.exists? (pathIn dir)) : findIn fs (nearer ++ dir :: above) = (load fs dir).map some := by
  induction nearer with
  | nil => exact if_pos present
  | cons first rest ih =>
    obtain ⟨hfirst, hrest⟩ := List.forall_mem_cons.mp passed
    rw [List.cons_append, findIn, if_neg hfirst]
    exact ih hrest

theorem findIn_of_none {dirs} (passed : ∀ d ∈ dirs, ¬fs.exists? (pathIn d)) : findIn fs dirs = .ok none := by
  induction dirs with
  | nil => rfl
  | cons first rest ih =>
    obtain ⟨hfirst, hrest⟩ := List.forall_mem_cons.mp passed
    rw [findIn, if_neg hfirst]
    exact ih hrest

theorem load_map_some_ne (fs : Files) (dir : Bytes) : (load fs dir).map some ≠ .ok none := by
  cases load fs dir <;> nofun

/-- The manifest of a directory is the one for another one: no longer path at or above it has one. -/
structure Governs (fs : Files) (start dir : Bytes) : Prop where
  above : Path.AtOrAbove dir start
  present : fs.exists? (pathIn dir)
  longest : ∀ d, Path.AtOrAbove d start → fs.exists? (pathIn d) → d.length ≤ dir.length

/-- If there is a manifest at or above a directory, one of them is the one for it. -/
theorem exists_governs {start} (habove : Path.AtOrAbove dir start) (hpresent : fs.exists? (pathIn dir)) :
    ∃ d, Governs fs start d := by
  let candidates := ((ancestors start).filter fun d => fs.exists? (pathIn d)).toFinset
  have hmem (d : Bytes) : d ∈ candidates ↔ Path.AtOrAbove d start ∧ fs.exists? (pathIn d) := by
    rw [List.mem_toFinset, List.mem_filter, mem_ancestors]
  have hsome : candidates.Nonempty := ⟨dir, (hmem dir).mpr ⟨habove, hpresent⟩⟩
  obtain ⟨d, hd, hmax⟩ := candidates.exists_max_image List.length hsome
  obtain ⟨hdabove, hdpresent⟩ := (hmem d).mp hd
  exact ⟨d, hdabove, hdpresent, fun other ho hp => hmax other ((hmem other).mpr ⟨ho, hp⟩)⟩

/-- On the way up from a clean path, the manifest for it is the first one. -/
theorem findIn_of_governs (hnames : ∀ name ∈ names, Path.IsName name) (h : Governs fs (ofParts true names) dir) :
    findIn fs (ancestorsOf names) = (load fs dir).map some := by
  have hway (d : Bytes) : d ∈ ancestorsOf names ↔ Path.AtOrAbove d (ofParts true names) := by
    rw [← mem_ancestors, ancestors, cleanParts_ofParts hnames]
  obtain ⟨nearer, further, hsplit⟩ := List.append_of_mem ((hway dir).mpr h.above)
  have hshorter := pairwise_ancestorsOf hnames
  rw [hsplit, List.pairwise_append] at hshorter
  rw [hsplit]
  refine findIn_of_first (fun d hd hpresent => ?_) h.present
  have hlonger : dir.length < d.length := hshorter.2.2 d hd dir List.mem_cons_self
  have hd' : d ∈ ancestorsOf names := hsplit ▸ List.mem_append_left _ hd
  exact Nat.not_le_of_lt hlonger (h.longest d ((hway d).mp hd') hpresent)

/-- A directory at or above a clean path is its own absolute form, so a manifest from there says so. -/
theorem dir_of_load (hnames : ∀ name ∈ names, Path.IsName name)
    (habove : Path.AtOrAbove dir (ofParts true names)) {m} (h : load fs dir = .ok m) : m.dir = dir := by
  obtain ⟨kept, hkept, rfl⟩ := habove
  rw [cleanParts_ofParts hnames] at hkept
  obtain ⟨content, doc, m', known, -, -, -, rfl⟩ := load_ok h
  exact absolute_ofParts (fun name hname => hnames name (hkept.subset hname)) fs.workingPath

/-- **A search loads the nearest manifest.** Whatever directory it is asked for, it ends, and its outcome is
that of loading the manifest in the longest path at or above the absolute form of that directory that has
one, whether that can be loaded or not. It finds nothing only if there is no such path. -/
theorem find_loads_nearest (fs : Files) (dir : Bytes) :
    let start := Path.absolute fs.workingPath dir
    (Path.isAbsolute start ∧ Path.clean start = start) ∧
    (∀ outcome, Search fs start outcome ↔ outcome = find fs dir) ∧
    (∀ d, Governs fs start d → find fs dir = (load fs d).map some ∧ ∀ m, load fs d = .ok m → m.dir = d) ∧
    ((∃ d, Governs fs start d) ↔ ∃ d, Path.AtOrAbove d start ∧ fs.exists? (pathIn d)) ∧
    (find fs dir = .ok none ↔ ¬∃ d, Governs fs start d) := by
  obtain ⟨names, hnames, hstart⟩ := Path.absolute_eq_ofParts fs.isAbsolute_workingPath dir
  have hfind : find fs dir = findIn fs (Path.ancestorsOf names) := by
    rw [find, hstart, Path.ancestors, Path.cleanParts_ofParts hnames]
  have hsearch := search_findIn fs hnames
  intro start
  rw [hfind, show start = Path.ofParts true names from hstart]
  refine ⟨⟨Path.isAbsolute_ofParts names, Path.clean_ofParts hnames⟩, ?_, ?_, ?_, ?_⟩
  · intro outcome
    constructor
    · intro h
      exact h.unique hsearch
    · rintro rfl
      exact hsearch
  · intro d hd
    exact ⟨findIn_of_governs hnames hd, fun m hload => dir_of_load hnames hd.above hload⟩
  · constructor
    · rintro ⟨d, hd⟩
      exact ⟨d, hd.above, hd.present⟩
    · rintro ⟨d, habove, hpresent⟩
      exact exists_governs habove hpresent
  · constructor
    · rintro hnone ⟨d, hd⟩
      exact load_map_some_ne fs d ((findIn_of_governs hnames hd).symm.trans hnone)
    · intro hno
      refine findIn_of_none fun d hd hpresent => hno ?_
      have habove : Path.AtOrAbove d (Path.ofParts true names) := by
        rwa [← Path.mem_ancestors, Path.ancestors, Path.cleanParts_ofParts hnames]
      exact exists_governs habove hpresent

/-! ### A manifest that cannot be read -/

/-- A directory has a manifest that may not be read, and the one above has a good one. -/
def sealedFiles : Files where
  nodes := [(["work"], .directory), (["work", "inner"], .directory),
    (["work", "inner", fileName], .sealed), (["work", fileName], .file ("[log]\nverbosity = 1\n" : String))]
  workingDir := ["work"]

/-- The search starts below the manifest that may not be read, in a directory that does not exist, and says
what is wrong with the manifest; the one further up is good and is not looked at. -/
theorem find_loads_nearest_sealed :
    Governs sealedFiles "/work/inner/missing" "/work/inner" ∧
      find sealedFiles "inner/../inner/./missing" = .error
        (.unreadable "/work/inner/rjava.toml" ⟨.opening, "/work/inner/rjava.toml", .denied⟩) ∧
      (load sealedFiles "/work").isOk := by
  have hgoverns : Governs sealedFiles "/work/inner/missing" "/work/inner" := by
    refine ⟨Path.mem_ancestors.mp (by decide +kernel), by decide +kernel, ?_⟩
    intro d habove
    have hway : ∀ d ∈ Path.ancestors "/work/inner/missing",
        sealedFiles.exists? (pathIn d) → d.length ≤ (Bytes.ofString "/work/inner").length := by decide +kernel
    exact hway d (Path.mem_ancestors.mpr habove)
  obtain ⟨-, -, hload, -, -⟩ := find_loads_nearest sealedFiles "inner/../inner/./missing"
  exact ⟨hgoverns, (hload _ hgoverns).1, by decide +kernel⟩

end ObjectKernel.Manifest
