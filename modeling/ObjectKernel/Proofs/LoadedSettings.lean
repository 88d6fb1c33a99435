import ObjectKernel.Demo
import ObjectKernel.Proofs.ManifestSettings

/-!
# The settings that the demonstration runs with

The settings come from the nearest manifest, or from the environment if there is none, and the options are
laid over them after they were checked. They are good all the same: neither option touches a setting that is
checked. What a manifest says about files is meant from its own directory, which is absolute however the
search for it was asked for, so no path among the settings depends on the working directory of whoever uses
it later, unless an option gives such a path.

## Contents

* `Path.isAbsolute_clean`, `Path.isAbsolute_absolute`: which paths start at the root.
* `Manifest.Nearest`, `Manifest.find_nearest`: what a search finds.
* `Config.Located`: paths that are none or start at the root. `Manifest.located_config`: a manifest gives no
  others.
* `Config.validate_default`, `Manifest.validate_config`, `Demo.validate_overlay`: settings that are good.
* `Demo.loaded_config_usable`.
-/

namespace ObjectKernel

variable {c : Config} {m : Manifest} {env : Environment}

/-! ## Paths -/

namespace Path

variable {p : Bytes}

theorem isAbsolute_ofParts (kept : List Bytes) : isAbsolute (ofParts true kept) := rfl

theorem isAbsolute_clean (h : isAbsolute p) : isAbsolute (clean p) := by
  unfold clean
  rw [h]
  exact isAbsolute_ofParts _

theorem isAbsolute_append (h : isAbsolute p) (q : Bytes) : isAbsolute (p ++ q) := by
  cases p with
  | nil => cases h
  | cons b p => exact h

/-- A path below an absolute one is absolute. -/
theorem isAbsolute_join (h : isAbsolute p) (q : Bytes) : isAbsolute (join p q) := by
  unfold join
  have hne : p ≠ [] := by
    rintro rfl
    cases h
  rw [if_neg hne, List.append_assoc]
  apply isAbsolute_clean
  exact isAbsolute_append h _

/-- The absolute form of a path is absolute, as the working directory is. -/
theorem isAbsolute_absolute {workingDir} (h : isAbsolute workingDir) (p : Bytes) :
    isAbsolute (absolute workingDir p) := by
  unfold absolute
  by_cases hp : isAbsolute p = true
  · rw [if_pos hp]
    exact isAbsolute_clean hp
  · rw [if_neg hp]
    exact isAbsolute_join h p

end Path

theorem Files.isAbsolute_workingPath (fs : Files) : Path.isAbsolute fs.workingPath :=
  Path.isAbsolute_ofParts _

/-! ## Searches -/

namespace Manifest

variable {fs : Files} {dir : Bytes} {found : Option Manifest} {dirs : List Bytes}

/-- What a search through directories finds: the manifest of the first one that has a file of that name, or
nothing if none has. -/
inductive Nearest (fs : Files) (dirs : List Bytes) : Option Manifest → Prop where
  | found {nearer above : List Bytes} {dir : Bytes} {m : Manifest} (order : dirs = nearer ++ dir :: above)
      (passed : ∀ d ∈ nearer, ¬fs.exists? (pathIn d)) (present : fs.exists? (pathIn dir))
      (loaded : load fs dir = .ok m) : Nearest fs dirs (some m)
  | nowhere (passed : ∀ d ∈ dirs, ¬fs.exists? (pathIn d)) : Nearest fs dirs none

theorem Nearest.cons (hdir : ¬fs.exists? (pathIn dir)) (h : Nearest fs dirs found) :
    Nearest fs (dir :: dirs) found := by
  cases h with
  | @found nearer above d m order passed present loaded =>
    have horder : dir :: dirs = (dir :: nearer) ++ d :: above := by rw [order, List.cons_append]
    exact .found horder (List.forall_mem_cons.mpr ⟨hdir, passed⟩) present loaded
  | nowhere passed => exact .nowhere (List.forall_mem_cons.mpr ⟨hdir, passed⟩)

theorem findIn_nearest (h : findIn fs dirs = .ok found) : Nearest fs dirs found := by
  induction dirs with
  | nil =>
    cases h
    exact .nowhere nofun
  | cons dir above ih =>
    unfold findIn at h
    by_cases hdir : fs.exists? (pathIn dir) = true
    · rw [if_pos hdir] at h
      cases hload : load fs dir with
      | error e =>
        rw [hload] at h
        cases h
      | ok m =>
        rw [hload] at h
        cases h
        exact .found (List.nil_append _).symm nofun hdir hload
    · rw [if_neg hdir] at h
      exact (ih h).cons hdir

/-- **A search finds the nearest manifest**, from a directory upwards. -/
theorem find_nearest (h : find fs dir = .ok found) :
    Nearest fs (Path.ancestors (Path.absolute fs.workingPath dir)) found :=
  findIn_nearest h

/-- The directory of a manifest is absolute, however its directory was given. -/
theorem isAbsolute_dir (h : load fs dir = .ok m) : Path.isAbsolute m.dir := by
  obtain ⟨content, doc, m', known, -, -, -, rfl⟩ := load_ok h
  exact Path.isAbsolute_absolute fs.isAbsolute_workingPath dir

theorem isAbsolute_located (h : Path.isAbsolute dir) (path : Bytes) :
    located dir path = [] ∨ Path.isAbsolute (located dir path) := by
  unfold located
  by_cases hpath : path = [] ∨ Path.isAbsolute path = true
  · rw [if_pos hpath]
    exact hpath
  · rw [if_neg hpath]
    exact .inr (Path.isAbsolute_join h path)

end Manifest

/-! ## Settings -/

/-- The paths among some settings are none or start at the root. -/
structure Config.Located (c : Config) : Prop where
  report : c.reportPath = [] ∨ Path.isAbsolute c.reportPath
  log : c.logFile = [] ∨ Path.isAbsolute c.logFile

/-- The default settings have no paths. -/
theorem Config.located_default (env : Environment) : (Config.default env).Located := ⟨.inl rfl, .inl rfl⟩

/-- A manifest in an absolute directory gives paths that start at the root. -/
theorem Manifest.located_config (hdir : Path.isAbsolute m.dir) (h : m.config env = .ok c) : c.Located := by
  have hitem := overlay_item (config_ok h)
  constructor
  · obtain ⟨htakes, hkeeps⟩ := hitem .report
    by_cases hset : Item.report.Stands m.root
    · have hpath : c.reportPath = located m.dir m.report := htakes hset
      rw [hpath]
      exact isAbsolute_located hdir _
    · exact .inl (hkeeps hset)
  · obtain ⟨htakes, hkeeps⟩ := hitem .logFile
    by_cases hset : Item.logFile.Stands m.root
    · have hpath : c.logFile = located m.dir m.file := htakes hset
      rw [hpath]
      exact isAbsolute_located hdir _
    · exact .inl (hkeeps hset)

theorem Config.maxStringLength_default_nonneg (env : Environment) : 0 ≤ (Config.default env).maxStringLength := by
  show 0 ≤ Config.defaultMaxStringLength env
  unfold Config.defaultMaxStringLength
  split
  · split
    · assumption
    · decide
  · decide

/-- **The default settings are good**, whatever the environment says. -/
theorem Config.validate_default (env : Environment) : (Config.default env).validate = .ok () := by
  unfold Config.validate
  rw [if_neg (Int.not_lt.mpr (maxStringLength_default_nonneg env))]
  rfl

/-- What a manifest gives has been checked. -/
theorem Manifest.validate_config (h : m.config env = .ok c) : c.validate = .ok () := by
  have hoverlay := config_ok h
  unfold config at h
  rw [hoverlay] at h
  cases hvalid : c.validate with
  | error e =>
    simp only [bind, Except.bind, hvalid, Except.mapError] at h
    cases h
  | ok _ => rfl

/-- A runtime can be made with good settings, and has them. -/
theorem World.newRuntime_of_valid (w : World) (h : c.validate = .ok ()) :
    ∃ home v, w.newRuntime (some c) = .ok (home, v) ∧ v.config home = c := by
  unfold newRuntime
  simp only [Option.getD_some, h]
  refine ⟨_, _, rfl, ?_⟩
  unfold config runtime?
  dsimp only
  rw [show w.runtimes.size = w.now.2.runtimes.size from rfl, Array.getElem?_push_size]

namespace Demo

variable {dir : Bytes} {base : Config}

/-- No option changes a setting that is checked. -/
theorem validate_overlay (o : Options) (c : Config) : (overlay o c).validate = c.validate := rfl

/-- The settings that the options are laid over: those of the nearest manifest, or the default ones if
there is no manifest from a directory upwards. -/
inductive Base (env : Environment) (fs : Files) (dir : Bytes) (base : Config) : Prop where
  | manifest {m : Manifest}
      (nearest : Manifest.Nearest fs (Path.ancestors (Path.absolute fs.workingPath dir)) (some m))
      (settings : m.config env = .ok base) : Base env fs dir base
  | defaults
      (nowhere : ∀ d ∈ Path.ancestors (Path.absolute fs.workingPath dir), ¬fs.exists? (Manifest.pathIn d))
      (settings : base = .default env) : Base env fs dir base

variable {env : Environment} {fs : Files}

theorem Base.validate (h : Base env fs dir base) : base.validate = .ok () := by
  cases h with
  | manifest nearest settings => exact Manifest.validate_config settings
  | defaults nowhere settings =>
    rw [settings]
    exact Config.validate_default env

theorem Base.located (h : Base env fs dir base) : base.Located := by
  cases h with
  | manifest nearest settings =>
    cases nearest with
    | found order passed present loaded =>
      exact Manifest.located_config (Manifest.isAbsolute_dir loaded) settings
  | defaults nowhere settings =>
    rw [settings]
    exact Config.located_default env

/-- The program runs with such settings and the options over them. -/
theorem config_ok {o} (h : config env fs o = .ok c) : ∃ base, Base env fs o.configDir base ∧ c = overlay o base := by
  unfold config at h
  cases hfind : Manifest.find fs o.configDir with
  | error e =>
    rw [hfind] at h
    cases h
  | ok found =>
    have hnearest := Manifest.find_nearest hfind
    rw [hfind] at h
    cases found with
    | none =>
      cases h
      cases hnearest with
      | nowhere passed => exact ⟨_, .defaults passed rfl, rfl⟩
    | some m =>
      cases hsettings : m.config env with
      | error e =>
        simp only [bind, Except.bind, hsettings] at h
        cases h
      | ok base =>
        simp only [bind, Except.bind, hsettings] at h
        cases h
        exact ⟨base, .manifest hnearest hsettings, rfl⟩

/-- **Whatever settings the program loads, it can use them.** They are accepted, and every runtime that is
made with them has them. The path of the report is the one of the options, or else none or absolute; the
path of the log is none or absolute; and with the option for it the verbosity is 2 at least. In everything
else they are the settings of the nearest manifest, or the default ones if there is none. -/
theorem loaded_config_usable {o : Options} {c : Config} (h : config env fs o = .ok c) :
    c.validate = .ok () ∧
    (∀ w : World, ∃ home v, w.newRuntime (some c) = .ok (home, v) ∧ v.config home = c) ∧
    (if o.report = [] then c.reportPath = [] ∨ Path.isAbsolute c.reportPath else c.reportPath = o.report) ∧
    (c.logFile = [] ∨ Path.isAbsolute c.logFile) ∧
    (o.verbose → 2 ≤ c.verbosity) ∧
    ∃ base, Base env fs o.configDir base ∧
      { c with reportPath := base.reportPath, verbosity := base.verbosity } = base := by
  obtain ⟨base, hbase, rfl⟩ := config_ok h
  have hvalid : (overlay o base).validate = .ok () := (validate_overlay o base).trans hbase.validate
  refine ⟨hvalid, fun w => w.newRuntime_of_valid hvalid, ?_, hbase.located.log, ?_, base, hbase, rfl⟩
  · simp only [overlay]
    by_cases hreport : o.report = []
    · rw [if_pos hreport, if_pos hreport]
      exact hbase.located.report
    · rw [if_neg hreport, if_neg hreport]
  · intro hverbose
    show 2 ≤ if o.verbose ∧ base.verbosity < 2 then 2 else base.verbosity
    by_cases hlow : base.verbosity < 2
    · exact Int.le_of_eq (if_pos ⟨hverbose, hlow⟩).symm
    · rw [if_neg fun both => hlow both.2]
      exact Int.not_lt.mp hlow

/-! ### A search from below -/

/-- A manifest stands one directory above the one that the search starts in, which is given relative to the
working directory. -/
def nestedFiles : Files where
  nodes := [(["work"], .directory), (["work", "inner"], .directory),
    (["work", Manifest.fileName], .file ("[log]\nfile = \"run.log\"\n" : String))]
  workingDir := ["work"]

theorem loaded_config_usable_nested :
    let c : Config := { logFile := "/work/run.log", verbosity := 2 }
    config [] nestedFiles { configDir := "inner", verbose := true } = .ok c ∧
      c.validate = .ok () ∧ (∀ w : World, ∃ home v, w.newRuntime (some c) = .ok (home, v) ∧ v.config home = c) ∧
      Path.isAbsolute c.logFile := by
  have hload : config [] nestedFiles { configDir := "inner", verbose := true } =
      .ok { logFile := "/work/run.log", verbosity := 2 } := rfl
  obtain ⟨hvalid, hnew, -, hlog, -, -⟩ := loaded_config_usable hload
  refine ⟨hload, hvalid, hnew, ?_⟩
  rcases hlog with hnone | habsolute
  · cases hnone
  · exact habsolute

end Demo

end ObjectKernel
