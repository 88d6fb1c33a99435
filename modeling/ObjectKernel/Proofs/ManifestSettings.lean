import Mathlib.Data.List.Basic
import ObjectKernel.Manifest

/-!
# Which settings of a manifest take effect

A manifest has eight settings. Each is read from every key of the file that is spelled like its name but
for case, in a section that is spelled like its section but for case, and of several such values the last
one counts. It reaches the configuration only if the section and the key stand in the file in their very
spelling: whether a setting is present is asked without the leniency with which it is read. So a setting
that the file gives under another spelling alone is accepted and then ignored.

## Contents

* `Manifest.Part`, `Manifest.Item`: the sections and the settings, with their names and fields.
* `Manifest.matching?_items`: which setting a key names.
* `Manifest.Item.assigned`, `Manifest.field_decodeTables`: what a file gives a setting, and what is read.
* `Manifest.Item.Stands`, `Manifest.Item.Gives`, `Manifest.overlay_item`: what the configuration takes.
* `Manifest.takes_effect_iff`.
-/

namespace ObjectKernel

namespace Manifest

variable {m m' : Manifest} {known : List Toml.Key} {c : Config} {env : Environment} {α : Type}
  {entries root : Toml.Table}

/-! ## Settings -/

/-- A section. -/
inductive Part where
  | runtime
  | text
  | log
  deriving DecidableEq, Repr

/-- A setting. -/
inductive Item where
  | shutdownTimeout
  | report
  | lockChecking
  | maxLength
  | bufferInitialCapacity
  | bufferMaxCapacity
  | verbosity
  | logFile
  deriving DecidableEq, Repr

variable {p : Part} {item : Item}

namespace Part

def name : Part → Bytes
  | runtime => "runtime"
  | text => "text"
  | log => "log"

/-- The settings of a section. -/
def items : Part → List Item
  | runtime => [.shutdownTimeout, .report, .lockChecking]
  | text => [.maxLength, .bufferInitialCapacity, .bufferMaxCapacity]
  | log => [.verbosity, .logFile]

end Part

namespace Item

/-- The section of a setting. -/
def part : Item → Part
  | shutdownTimeout | report | lockChecking => .runtime
  | maxLength | bufferInitialCapacity | bufferMaxCapacity => .text
  | verbosity | logFile => .log

/-- The name of a setting in its section. -/
def key : Item → Bytes
  | shutdownTimeout => "shutdown-timeout"
  | report => "report"
  | lockChecking => "lock-checking"
  | maxLength => "max-length"
  | bufferInitialCapacity => "buffer-initial-capacity"
  | bufferMaxCapacity => "buffer-max-capacity"
  | verbosity => "verbosity"
  | logFile => "file"

/-- What a manifest holds for a setting. -/
def field (m : Manifest) : Item → Toml.Value
  | shutdownTimeout => .text m.shutdownTimeout
  | report => .text m.report
  | lockChecking => .boolean m.lockChecking
  | maxLength => .integer m.maxLength
  | bufferInitialCapacity => .integer m.bufferInitialCapacity
  | bufferMaxCapacity => .integer m.bufferMaxCapacity
  | verbosity => .integer m.verbosity
  | logFile => .text m.file

/-- How a value is put into a manifest. -/
def setting : Item → Setting
  | shutdownTimeout => textSetting fun b m => { m with shutdownTimeout := b }
  | report => textSetting fun b m => { m with report := b }
  | lockChecking => flagSetting fun b m => { m with lockChecking := b }
  | maxLength => integerSetting fun n m => { m with maxLength := n }
  | bufferInitialCapacity => integerSetting fun n m => { m with bufferInitialCapacity := n }
  | bufferMaxCapacity => integerSetting fun n m => { m with bufferMaxCapacity := n }
  | verbosity => integerSetting fun n m => { m with verbosity := n }
  | logFile => textSetting fun b m => { m with file := b }

/-- A setting that takes a value holds it, and the others hold what they held. -/
theorem field_setting {v} (h : item.setting v m = some m') (other : Item) :
    other.field m' = if other = item then v else other.field m := by
  cases item <;> cases v <;> cases h <;> cases other <;> rfl

end Item

/-- The settings of a section, by name. -/
def Part.settings (p : Part) : List (Bytes × Setting) := p.items.map fun i => (i.key, i.setting)

theorem sections_eq : sections = [Part.runtime, .text, .log].map fun p => (p.name, p.settings) := rfl

theorem mem_items : item ∈ p.items ↔ item.part = p := by
  cases p <;> cases item <;> decide

/-! ## Names -/

/-- A name without its case. -/
def folded (name : Bytes) : List Rune := (Utf8.decode name).map foldRune

theorem sameButCase_iff {a b : Bytes} : sameButCase a b ↔ folded a = folded b := beq_iff_eq

theorem sameButCase_refl (a : Bytes) : sameButCase a a := sameButCase_iff.mpr rfl

theorem Part.eq_of_folded {q : Part} (h : folded p.name = folded q.name) : p = q := by
  revert h
  cases p <;> cases q <;> decide +kernel

theorem Item.eq_of_folded {i j : Item} (hpart : i.part = j.part) (h : folded i.key = folded j.key) : i = j := by
  revert hpart h
  cases i <;> cases j <;> decide +kernel

/-- A key names a thing that is spelled like it but for case, or nothing is. -/
theorem matching?_cases {β : Type} (xs : List α) (name : α → Bytes) (f : α → β) (key : Bytes) :
    (∃ x ∈ xs, sameButCase (name x) key ∧ matching? (xs.map fun x => (name x, f x)) key = some (f x)) ∨
    ((∀ x ∈ xs, ¬sameButCase (name x) key) ∧ matching? (xs.map fun x => (name x, f x)) key = none) := by
  unfold matching?
  cases hexact : (xs.map fun x => (name x, f x)).find? fun s => s.1 = key with
  | some s =>
    obtain ⟨x, hx, rfl⟩ := List.mem_map.mp (List.mem_of_find?_eq_some hexact)
    have hname : name x = key := by simpa using List.find?_some hexact
    exact .inl ⟨x, hx, hname ▸ sameButCase_refl _, rfl⟩
  | none =>
    dsimp only
    cases hcase : (xs.map fun x => (name x, f x)).find? fun s => sameButCase s.1 key with
    | some s =>
      obtain ⟨x, hx, rfl⟩ := List.mem_map.mp (List.mem_of_find?_eq_some hcase)
      have hname : sameButCase (name x) key := by simpa using List.find?_some hcase
      exact .inl ⟨x, hx, hname, rfl⟩
    | none =>
      refine .inr ⟨fun x hx hsame => ?_, rfl⟩
      have hno := List.find?_eq_none.mp hcase (name x, f x) (List.mem_map_of_mem hx)
      exact hno hsame

/-- The setting of a section that a key names. -/
theorem matching?_settings (p : Part) (key : Bytes) :
    (∃ item : Item, item.part = p ∧ matching? p.settings key = some item.setting ∧
      ∀ other : Item, other.part = p → (sameButCase other.key key ↔ other = item)) ∨
    (matching? p.settings key = none ∧ ∀ other : Item, other.part = p → ¬sameButCase other.key key) := by
  rcases matching?_cases p.items Item.key Item.setting key with ⟨item, hitem, hsame, heq⟩ | ⟨hno, heq⟩
  · refine .inl ⟨item, mem_items.mp hitem, heq, fun other hother => ⟨fun h => ?_, fun h => h ▸ hsame⟩⟩
    rw [sameButCase_iff] at h hsame
    exact Item.eq_of_folded (hother.trans (mem_items.mp hitem).symm) (h.trans hsame.symm)
  · exact .inr ⟨heq, fun other hother => hno other (mem_items.mpr hother)⟩

/-- The section that a name names. -/
theorem matching?_sections (name : Bytes) : (∃ p : Part, matching? sections name = some p.settings ∧
      ∀ q : Part, sameButCase q.name name ↔ q = p) ∨
    (matching? sections name = none ∧ ∀ q : Part, ¬sameButCase q.name name) := by
  have hall (q : Part) : q ∈ [Part.runtime, .text, .log] := by cases q <;> decide
  rw [sections_eq]
  rcases matching?_cases [Part.runtime, .text, .log] Part.name Part.settings name with
    ⟨p, -, hsame, heq⟩ | ⟨hno, heq⟩
  · refine .inl ⟨p, heq, fun q => ⟨fun h => ?_, fun h => h ▸ hsame⟩⟩
    rw [sameButCase_iff] at h hsame
    exact Part.eq_of_folded (h.trans hsame.symm)
  · exact .inr ⟨heq, fun q => hno q (hall q)⟩

/-! ## What a file gives a setting -/

/-- The entries of a table, none of any other value. -/
def tableEntries : Toml.Value → Toml.Table
  | .table entries => entries
  | _ => []

/-- The values of a setting among the entries of a section, under any spelling. -/
def Item.among (item : Item) (entries : Toml.Table) : List Toml.Value :=
  (entries.filter fun e => sameButCase item.key e.1).map Prod.snd

/-- The values that a file gives a setting, under any spelling of its section and its name. -/
def Item.assigned (item : Item) (root : Toml.Table) : List Toml.Value :=
  root.flatMap fun e => if sameButCase item.part.name e.1 then item.among (tableEntries e.2) else []

theorem Item.among_cons (item : Item) (key : Bytes) (v : Toml.Value) (entries : Toml.Table) :
    item.among ((key, v) :: entries) =
      if sameButCase item.key key then v :: item.among entries else item.among entries := by
  unfold Item.among
  rw [List.filter_cons]
  split <;> rfl

theorem getLastD_append (xs ys : List α) (a : α) : (xs ++ ys).getLastD a = ys.getLastD (xs.getLastD a) := by
  induction xs generalizing a with
  | nil => rfl
  | cons x xs ih => rw [List.cons_append, List.getLastD_cons, List.getLastD_cons, ih]

/-- **What is read from a section**: of the values of a setting the last one. -/
theorem field_decodeSection {name} (h : decodeSection? p.settings name entries m = some (m', known)) (item : Item) :
    item.field m' = (if item.part = p then item.among entries else []).getLastD (item.field m) := by
  induction entries generalizing m known with
  | nil =>
    cases h
    split <;> rfl
  | cons e entries ih =>
    obtain ⟨key, v⟩ := e
    simp only [decodeSection?] at h
    rcases matching?_settings p key with ⟨target, htarget, hmatch, hsame⟩ | ⟨hmatch, hsame⟩
    · rw [hmatch] at h
      obtain ⟨m₁, hput, h⟩ := Option.bind_eq_some_iff.mp h
      obtain ⟨⟨m₂, rest⟩, hrest, h⟩ := Option.bind_eq_some_iff.mp h
      cases h
      rw [ih hrest, Item.field_setting hput, Item.among_cons]
      by_cases hpart : item.part = p
      · rw [if_pos hpart, if_pos hpart]
        by_cases hitem : item = target
        · rw [if_pos hitem, if_pos ((hsame item hpart).mpr hitem), List.getLastD_cons]
        · rw [if_neg hitem, if_neg fun h => hitem ((hsame item hpart).mp h)]
      · have hitem : item ≠ target := fun h => hpart (h ▸ htarget)
        rw [if_neg hpart, if_neg hpart, if_neg hitem]
    · rw [hmatch] at h
      rw [ih h, Item.among_cons]
      by_cases hpart : item.part = p
      · rw [if_pos hpart, if_pos hpart, if_neg (hsame item hpart)]
      · rw [if_neg hpart, if_neg hpart]

/-- **What is read from a file**: of the values that it gives a setting the last one. -/
theorem field_decodeTables (h : decodeTables? root m = some (m', known)) (item : Item) :
    item.field m' = (item.assigned root).getLastD (item.field m) := by
  induction root generalizing m known with
  | nil =>
    cases h
    rfl
  | cons e root ih =>
    obtain ⟨name, v⟩ := e
    simp only [decodeTables?] at h
    unfold Item.assigned
    rw [List.flatMap_cons, getLastD_append]
    rcases matching?_sections name with ⟨p, hmatch, hsame⟩ | ⟨hmatch, hsame⟩
    · rw [hmatch] at h
      cases v with
      | table entries =>
        obtain ⟨⟨m₁, inner⟩, hinner, h⟩ := Option.bind_eq_some_iff.mp h
        obtain ⟨⟨m₂, outer⟩, houter, h⟩ := Option.bind_eq_some_iff.mp h
        cases h
        rw [ih houter, field_decodeSection hinner]
        by_cases hpart : item.part = p
        · rw [if_pos hpart, if_pos ((hsame item.part).mpr hpart)]
          rfl
        · rw [if_neg hpart, if_neg fun h => hpart ((hsame item.part).mp h)]
          rfl
      | text | integer | float | boolean | datetime | array | tables => cases h
    · rw [hmatch] at h
      rw [ih h, if_neg (hsame item.part)]
      rfl

/-! ## What the configuration takes -/

/-- A setting stands in a file in the very spelling of its section and its name. -/
def Item.Stands (item : Item) (root : Toml.Table) : Prop := root.defines [item.part.name, item.key]

instance (item : Item) (root : Toml.Table) : Decidable (item.Stands root) :=
  inferInstanceAs (Decidable (_ = _))

/-- A path that a manifest in a directory gives: a relative one is meant from there, and an empty one is
none. -/
def located (dir path : Bytes) : Bytes :=
  if path = [] ∨ Path.isAbsolute path then path else Path.join dir path

/-- A configuration has the value that a manifest in a directory gives a setting. -/
def Item.Gives (dir : Bytes) (c : Config) : Item → Toml.Value → Prop
  | shutdownTimeout, .text b => Duration.parse b = .ok c.shutdownTimeout
  | report, .text b => c.reportPath = located dir b
  | lockChecking, .boolean b => c.lockChecking = b
  | maxLength, .integer n => c.maxStringLength = n
  | bufferInitialCapacity, .integer n => c.bufferInitialCapacity = n
  | bufferMaxCapacity, .integer n => c.maxBufferCapacity = n
  | verbosity, .integer n => c.verbosity = n
  | logFile, .text b => c.logFile = located dir b
  | _, _ => False

/-- Two configurations agree on a setting. -/
def Item.Agree (c d : Config) : Item → Prop
  | shutdownTimeout => c.shutdownTimeout = d.shutdownTimeout
  | report => c.reportPath = d.reportPath
  | lockChecking => c.lockChecking = d.lockChecking
  | maxLength => c.maxStringLength = d.maxStringLength
  | bufferInitialCapacity => c.bufferInitialCapacity = d.bufferInitialCapacity
  | bufferMaxCapacity => c.maxBufferCapacity = d.maxBufferCapacity
  | verbosity => c.verbosity = d.verbosity
  | logFile => c.logFile = d.logFile

theorem Item.Agree.gives_iff {d} (h : item.Agree c d) (dir : Bytes) (v : Toml.Value) :
    item.Gives dir c v ↔ item.Gives dir d v := by
  cases item <;> simp only [Item.Agree] at h <;> cases v <;> simp only [Item.Gives, h]

/-- The dotted key of a setting. -/
def Item.dotted : Item → Bytes
  | shutdownTimeout => "runtime.shutdown-timeout"
  | report => "runtime.report"
  | lockChecking => "runtime.lock-checking"
  | maxLength => "text.max-length"
  | bufferInitialCapacity => "text.buffer-initial-capacity"
  | bufferMaxCapacity => "text.buffer-max-capacity"
  | verbosity => "log.verbosity"
  | logFile => "log.file"

theorem isSet_dotted (m : Manifest) (item : Item) : m.isSet item.dotted ↔ item.Stands m.root := by
  have hsplit : Bytes.splitOn 0x2E item.dotted = [item.part.name, item.key] := by
    cases item <;> decide +kernel
  unfold isSet Item.Stands
  rw [hsplit]

theorem resolve_eq (m : Manifest) {path} (h : path ≠ []) : m.resolve path = located m.dir path := by
  unfold resolve located
  by_cases habsolute : Path.isAbsolute path = true
  · rw [if_pos habsolute, if_pos (.inr habsolute)]
  · rw [if_neg habsolute, if_neg (not_or.mpr ⟨h, habsolute⟩)]

/-- A path replaces its default, which is none, if it is set and there is one. -/
theorem path_overlay (m : Manifest) {isSet : Prop} [Decidable isSet] (h : isSet) (path : Bytes) :
    (if isSet ∧ path ≠ [] then m.resolve path else []) = located m.dir path := by
  by_cases hpath : path = []
  · rw [if_neg fun h => h.2 hpath, hpath]
    rfl
  · rw [if_pos ⟨h, hpath⟩, resolve_eq m hpath]

theorem overlay_ok (h : m.overlay env = .ok c) :
    (if m.isSet Item.shutdownTimeout.dotted then Duration.parse m.shutdownTimeout = .ok c.shutdownTimeout
      else c.shutdownTimeout = 0) ∧
    c = { Config.default env with
      shutdownTimeout := c.shutdownTimeout
      reportPath := if m.isSet Item.report.dotted ∧ m.report ≠ [] then m.resolve m.report else []
      lockChecking := if m.isSet Item.lockChecking.dotted then m.lockChecking
        else (Config.default env).lockChecking
      maxStringLength := if m.isSet Item.maxLength.dotted then m.maxLength
        else (Config.default env).maxStringLength
      bufferInitialCapacity := if m.isSet Item.bufferInitialCapacity.dotted then m.bufferInitialCapacity
        else (Config.default env).bufferInitialCapacity
      maxBufferCapacity := if m.isSet Item.bufferMaxCapacity.dotted then m.bufferMaxCapacity
        else (Config.default env).maxBufferCapacity
      verbosity := if m.isSet Item.verbosity.dotted then m.verbosity else (Config.default env).verbosity
      logFile := if m.isSet Item.logFile.dotted ∧ m.file ≠ [] then m.resolve m.file else [] } := by
  unfold overlay at h
  by_cases hset : m.isSet Item.shutdownTimeout.dotted = true
  · rw [show m.isSet "runtime.shutdown-timeout" = true from hset, if_pos rfl] at h
    cases hparse : Duration.parse m.shutdownTimeout with
    | error e =>
      rw [hparse] at h
      cases h
    | ok d =>
      rw [hparse] at h
      cases h
      rw [if_pos hset]
      exact ⟨rfl, rfl⟩
  · rw [if_neg (show ¬m.isSet "runtime.shutdown-timeout" = true from hset)] at h
    cases h
    rw [if_neg hset]
    exact ⟨rfl, rfl⟩

/-- **What the configuration takes**: a setting that stands in the file replaces its default, and no other
does. -/
theorem overlay_item (h : m.overlay env = .ok c) (item : Item) :
    (item.Stands m.root → item.Gives m.dir c (item.field m)) ∧
      (¬item.Stands m.root → item.Agree c (Config.default env)) := by
  rw [← isSet_dotted]
  obtain ⟨htimeout, hc⟩ := overlay_ok h
  constructor
  · intro hset
    cases item with
    | shutdownTimeout => rwa [if_pos hset] at htimeout
    | report | logFile =>
      rw [hc]
      exact path_overlay m hset _
    | lockChecking | maxLength | bufferInitialCapacity | bufferMaxCapacity | verbosity =>
      rw [hc]
      exact if_pos hset
  · intro hset
    cases item with
    | shutdownTimeout => rwa [if_neg hset] at htimeout
    | report | logFile =>
      rw [hc]
      exact if_neg fun h => hset h.1
    | lockChecking | maxLength | bufferInitialCapacity | bufferMaxCapacity | verbosity =>
      rw [hc]
      exact if_neg hset

/-! ## Presence -/

theorem Item.mem_among {v} (h : (item.key, v) ∈ entries) : v ∈ item.among entries := by
  refine List.mem_map.mpr ⟨(item.key, v), List.mem_filter.mpr ⟨h, ?_⟩, rfl⟩
  exact sameButCase_refl item.key

/-- A setting that stands in a file is given a value by it. -/
theorem Item.Stands.assigned_ne_nil (h : item.Stands root) : item.assigned root ≠ [] := by
  unfold Item.Stands at h
  simp only [Toml.Table.defines] at h
  split at h
  · rename_i entries hpart
    obtain ⟨v, hv⟩ := Option.isSome_iff_exists.mp h
    refine List.ne_nil_of_mem (a := v) (List.mem_flatMap.mpr ⟨_, Dictionary.mem_of_get? hpart, ?_⟩)
    rw [if_pos (sameButCase_refl _)]
    exact mem_among (Dictionary.mem_of_get? hv)
  · cases h

/-! ## Manifests -/

theorem decode_ok {doc unknown} (h : decode? doc = some (m, unknown)) :
    ∃ m' known, decodeTables? doc.root {} = some (m', known) ∧ m = { m' with root := doc.root } := by
  obtain ⟨⟨m', known⟩, hdecode, h⟩ := Option.bind_eq_some_iff.mp h
  cases h
  exact ⟨m', known, hdecode, rfl⟩

theorem load_ok {fs dir} (h : load fs dir = .ok m) :
    ∃ content doc m' known, fs.read (pathIn dir) = .ok content ∧ Toml.parse? content = some doc ∧
      decodeTables? doc.root {} = some (m', known) ∧
      m = { m' with root := doc.root, dir := Path.absolute fs.workingPath dir } := by
  unfold load at h
  cases hread : fs.read (pathIn dir) with
  | error e =>
    simp only [hread] at h
    cases h
  | ok content =>
    simp only [hread, Except.mapError, bind, Except.bind] at h
    split at h
    · rename_i doc hparse
      split at h
      · rename_i decoded unknown hdecode
        obtain ⟨m', known, htables, rfl⟩ := decode_ok hdecode
        refine ⟨content, doc, m', known, rfl, hparse, htables, ?_⟩
        split at h
        · cases h
        · cases h
          rfl
      · cases h
    · cases h

theorem config_ok (h : m.config env = .ok c) : m.overlay env = .ok c := by
  unfold config at h
  cases hoverlay : m.overlay env with
  | error e =>
    rw [hoverlay] at h
    cases h
  | ok d =>
    rw [hoverlay] at h
    cases hvalid : d.validate with
    | error e =>
      simp only [bind, Except.bind, hvalid, Except.mapError] at h
      cases h
    | ok _ =>
      simp only [bind, Except.bind, hvalid, Except.mapError] at h
      cases h
      rfl

/-- A working directory with a manifest of given content. -/
def written (content : String) : Files where
  nodes := [([fileName], .file (content : Bytes))]

/-- The manifest of a file that gives strings a length of five, and a verbosity of one under another
spelling of the section. -/
def shortStrings : Manifest where
  maxLength := 5
  verbosity := 1
  root := [("text", .table [("max-length", .integer 5)]), ("Log", .table [("verbosity", .integer 1)])]
  dir := "/"

/-- The manifest of a file that gives strings a length of five under another spelling of the key. -/
def misspelled : Manifest where
  maxLength := 5
  root := [("text", .table [("Max-Length", .integer 5)])]
  dir := "/"

end Manifest

end ObjectKernel
