import ObjectKernel.Proofs.BarrierAccounts
import ObjectKernel.Proofs.ReportRoundTrip

/-!
# Reports on file

A file that was written can be read under the same path: following the path to the file passes the same
directories as before. Whether what is read there is a report again depends on the texts in it. The names of
threads and the texts of failures may be any bytes, and nobody looks at them when the report is written, but
the reader refuses bytes that are not UTF-8.

## Contents

* `Files.Within`, `Files.read_write`: what was written is read.
* `Report.sized_of_encode`: a report is no larger than its bytes.
* `World.Legible`, `World.storable_takeReport`: the runtimes whose reports can be read.
* `Machine.written_report_reads_back`, and `Machine.unreadable_report` for a report that cannot be read.
-/

namespace ObjectKernel

open List

variable {r : Report}

/-! ## Reading what was written -/

namespace Path

variable {p : Bytes}

/-- A path that does not end in a separator ends in a part that is not empty. -/
theorem getLast?_parts (hp : p ≠ []) (h : p.getLast? ≠ some slash) : (parts p).getLast? ≠ some [] := by
  unfold parts
  induction p with
  | nil => exact absurd rfl hp
  | cons b rest ih =>
    rw [Bytes.splitOn]
    by_cases hrest : rest = []
    · subst hrest
      have hb : b ≠ slash := by
        rintro rfl
        exact h rfl
      simp [Bytes.splitOn, hb]
    · have hlast : rest.getLast? ≠ some slash := by
        rwa [getLast?_cons_of_ne_nil hrest] at h
      have hparts := ih hrest hlast
      split
      · rintro ⟨⟩
      · rename_i part others hsplit
        rw [hsplit] at hparts
        cases others with
        | nil =>
          split
          · exact hparts
          · rintro ⟨⟩
        | cons =>
          split
          · exact hparts
          · exact hparts

/-- The last part of a path that does not end in a separator is its name. -/
theorem parts_eq_concat {name before} (hp : p ≠ []) (h : p.getLast? ≠ some slash)
    (hnamed : (parts p).reverse.dropWhile (· = []) = name :: before) :
    parts p = before.reverse ++ [name] ∧ name ≠ [] := by
  have hlast := getLast?_parts hp h
  rw [← head?_reverse] at hlast
  cases hparts : (parts p).reverse with
  | nil =>
    rw [hparts] at hnamed
    cases hnamed
  | cons last others =>
    have hne : last ≠ [] := by
      rintro rfl
      exact hlast (by rw [hparts]; rfl)
    rw [hparts, dropWhile_cons_of_neg (by simpa using hne)] at hnamed
    cases hnamed
    refine ⟨?_, hne⟩
    rw [← reverse_reverse (parts p), hparts, reverse_cons]

end Path

namespace Files

variable {fs fs' : Files} {p content name part : Bytes} {place root parts : List Bytes}

theorem walk_cons_eq_ok {rest : List Bytes} :
    fs.walk root (part :: rest) = .ok place ↔ fs.node? root = some .directory ∧
      ∃ here, fs.enter root part = .ok here ∧ fs.walk here rest = .ok place := by
  rw [walk]
  split
  · rename_i hdir
    cases hhere : fs.enter root part with
    | error c => exact ⟨nofun, nofun⟩
    | ok here =>
      refine ⟨fun h => ⟨hdir, here, rfl, h⟩, ?_⟩
      rintro ⟨-, _, heq, h⟩
      cases heq
      exact h
  · rename_i hfile
    exact ⟨nofun, fun h => by cases hfile.symm.trans h.1⟩
  · rename_i hsealed
    exact ⟨nofun, fun h => by cases hsealed.symm.trans h.1⟩
  · rename_i hnone
    exact ⟨nofun, fun h => by cases hnone.symm.trans h.1⟩

/-- A tree has all that another one has, and its directories are directories. -/
structure Within (fs fs' : Files) : Prop where
  workingDir : fs'.workingDir = fs.workingDir
  directory : ∀ {place}, fs.node? place = some .directory → fs'.node? place = some .directory
  isSome : ∀ {place}, (fs.node? place).isSome → (fs'.node? place).isSome

theorem Within.enter (hw : Within fs fs') (h : fs.enter root part = .ok place) : fs'.enter root part = .ok place := by
  unfold Files.enter at h ⊢
  by_cases hstay : part = [] ∨ part = Path.dot
  · rwa [if_pos hstay] at h ⊢
  by_cases hup : part = Path.dotDot
  · rwa [if_neg hstay, if_pos hup] at h ⊢
  by_cases hlong : part.length > 255
  · rw [if_neg hstay, if_neg hup, if_pos hlong] at h
    cases h
  rw [if_neg hstay, if_neg hup, if_neg hlong] at h ⊢
  cases hnode : fs.node? (root ++ [part]) with
  | none =>
    rw [hnode] at h
    cases h
  | some node =>
    rw [hnode] at h
    obtain ⟨node', hnode'⟩ := Option.isSome_iff_exists.mp (hw.isSome (by rw [hnode]; rfl))
    rw [hnode']
    exact h

/-- A path leads to the same place in a tree that has more. -/
theorem Within.walk (hw : Within fs fs') (h : fs.walk root parts = .ok place) : fs'.walk root parts = .ok place := by
  induction parts generalizing root with
  | nil => exact h
  | cons part rest ih =>
    obtain ⟨hdir, here, henter, hrest⟩ := walk_cons_eq_ok.mp h
    exact walk_cons_eq_ok.mpr ⟨hw.directory hdir, here, hw.enter henter, ih hrest⟩

/-- Following one part more. -/
theorem walk_concat {here} (h : fs.walk root parts = .ok here) (hdir : fs.node? here = some .directory)
    (henter : fs.enter here part = .ok place) : fs.walk root (parts ++ [part]) = .ok place := by
  induction parts generalizing root with
  | nil =>
    cases h
    exact walk_cons_eq_ok.mpr ⟨hdir, place, henter, rfl⟩
  | cons first rest ih =>
    obtain ⟨hroot, next, hfirst, hrest⟩ := walk_cons_eq_ok.mp h
    exact walk_cons_eq_ok.mpr ⟨hroot, next, hfirst, ih hrest⟩

theorem ne_nil_of_admissible {u} (h : admissible p = .ok u) : p ≠ [] := by
  rintro rfl
  cases h

/-- The target of a path is a proper name in a directory that the rest of the path leads to. -/
theorem target_eq_ok (h : fs.target p = .ok (place, name)) :
    admissible p = .ok () ∧ (∃ before, Path.parts p = before ++ [name] ∧ fs.walk (fs.start p) before = .ok place) ∧
      fs.node? place = some .directory ∧ name ≠ [] ∧ (name ≠ Path.dot ∧ name ≠ Path.dotDot) ∧ name.length ≤ 255 := by
  unfold target at h
  cases hadmissible : admissible p with
  | error c =>
    rw [hadmissible] at h
    cases h
  | ok =>
    rw [hadmissible] at h
    dsimp only [bind, Except.bind] at h
    split at h
    · cases h
    · rename_i last before hnamed
      cases hwalk : fs.walk (fs.start p) before.reverse with
      | error c =>
        rw [hwalk] at h
        cases h
      | ok here =>
        rw [hwalk] at h
        dsimp only at h
        split at h
        · rename_i hdir
          by_cases hdots : last = Path.dot ∨ last = Path.dotDot
          · rw [if_pos hdots] at h
            cases h
          by_cases hslash : p.getLast? = some Path.slash
          · rw [if_neg hdots, if_pos hslash] at h
            cases h
          by_cases hlong : last.length > 255
          · rw [if_neg hdots, if_neg hslash, if_pos hlong] at h
            cases h
          rw [if_neg hdots, if_neg hslash, if_neg hlong] at h
          cases h
          obtain ⟨hparts, hne⟩ := Path.parts_eq_concat (ne_nil_of_admissible hadmissible) hslash hnamed
          exact ⟨rfl, ⟨_, hparts, hwalk⟩, hdir, hne, not_or.mp hdots, Nat.le_of_not_lt hlong⟩
        · cases h

theorem node?_insert_self (fs : Files) (h : place ≠ []) (node : Node) :
    ({ fs with nodes := fs.nodes.insert place node } : Files).node? place = some node := by
  rw [node?, if_neg h, Dictionary.get?_insert_self]

theorem node?_insert_of_ne (fs : Files) {other} (h : other ≠ place) (node : Node) :
    ({ fs with nodes := fs.nodes.insert place node } : Files).node? other = fs.node? other := by
  unfold node?
  rw [Dictionary.get?_insert_of_ne _ _ h]

/-- **What was written is read.** The path leads through the same directories, none of which is the file. -/
theorem read_write (h : fs.write p content = .ok fs') : fs'.read p = .ok content := by
  unfold write at h
  split at h
  · cases h
  · rename_i place name htarget
    obtain ⟨hadmissible, ⟨before, hparts, hwalk⟩, hdir, hne, hdots, hlength⟩ := target_eq_ok htarget
    split at h
    · cases h
    · cases h
    · rename_i hfile _
      cases h
      have hplace : place ++ [name] ≠ [] := by simp
      have hself := fs.node?_insert_self hplace (.file content)
      have hwithin : Within fs { fs with nodes := fs.nodes.insert (place ++ [name]) (.file content) } := by
        refine ⟨rfl, fun {other} hother => ?_, fun {other} hother => ?_⟩
        · rw [fs.node?_insert_of_ne]
          · exact hother
          · rintro rfl
            exact hfile hother
        · by_cases heq : other = place ++ [name]
          · rw [heq, hself]
            rfl
          · rwa [fs.node?_insert_of_ne heq]
      have henter : Files.enter { fs with nodes := fs.nodes.insert (place ++ [name]) (.file content) }
          place name = .ok (place ++ [name]) := by
        unfold Files.enter
        rw [if_neg (not_or.mpr ⟨hne, hdots.1⟩), if_neg hdots.2, if_neg (by omega), hself]
      have hlocate : Files.locate { fs with nodes := fs.nodes.insert (place ++ [name]) (.file content) } p =
          .ok (place ++ [name]) := by
        unfold locate
        rw [hadmissible, hparts]
        exact walk_concat (hwithin.walk hwalk) (hwithin.directory hdir) henter
      rw [read, hlocate]
      dsimp only
      rw [hself]

end Files

/-! ## Sizes -/

namespace Cbor

variable {value : Item} {entries : List (Item × Item)}

theorem length_le_writeAll {item items} (h : item ∈ items) : item.write.length ≤ (Item.writeAll items).length := by
  induction items with
  | nil => cases h
  | cons first rest ih =>
    rw [Item.writeAll, length_append]
    rcases mem_cons.mp h with rfl | hrest
    · omega
    · have := ih hrest
      omega

theorem length_le_length_writeAll (items : List Item) : items.length ≤ (Item.writeAll items).length := by
  induction items with
  | nil => exact Nat.le_refl 0
  | cons first rest ih =>
    rw [Item.writeAll, length_append, length_cons]
    have := length_write_pos first
    omega

theorem length_le_writeEntries {key} (h : (key, value) ∈ entries) :
    value.write.length ≤ (Item.writeEntries entries).length := by
  induction entries with
  | nil => cases h
  | cons first rest ih =>
    rw [Item.writeEntries, length_append, length_append]
    rcases mem_cons.mp h with rfl | hrest
    · dsimp only
      omega
    · have := ih hrest
      omega

/-- A field is no longer than the map that it is in. -/
theorem length_le_map (number : Nat) (h : Report.field number value ∈ entries) :
    value.write.length ≤ (Item.map entries).write.length := by
  rw [Item.write, length_append]
  exact Nat.le_add_left_of_le (length_le_writeEntries h)

theorem length_le_ofText (b : Bytes) : b.length ≤ (Item.ofText b).write.length := by
  unfold Item.ofText
  rw [Item.write, length_append, flatten_singleton]
  exact Nat.le_add_left ..

end Cbor

/-- The texts of an entry are no longer than its bytes. -/
theorem ThreadRecord.length_le_toItem {t : ThreadRecord} {b} (h : b ∈ t.texts) :
    b.length ≤ t.toItem.write.length := by
  by_cases hb : b = []
  · rw [hb]
    exact Nat.zero_le _
  · suffices hfield : ∃ number, Report.field number (.ofText b) ∈
        [Report.field 1 (.ofInt t.id.toInt), Report.field 2 (.ofText t.name),
          Report.field 3 (.ofText t.state)] ++
        if t.uncaught = [] then [] else [Report.field 4 (.ofText t.uncaught)] by
      obtain ⟨number, hnumber⟩ := hfield
      exact (Cbor.length_le_ofText b).trans (Cbor.length_le_map number hnumber)
    simp only [texts, mem_cons, not_mem_nil, or_false] at h
    rcases h with rfl | rfl | rfl
    · exact ⟨2, by simp⟩
    · exact ⟨3, by simp⟩
    · exact ⟨4, by simp [hb]⟩

theorem Report.length_le_threadsItem (r : Report) : r.records.length ≤ (threadsItem r.threads).write.length ∧
      ∀ t ∈ r.records, t.toItem.write.length ≤ (threadsItem r.threads).write.length := by
  unfold records
  cases r.threads with
  | none => exact ⟨Nat.zero_le _, nofun⟩
  | some ts =>
    rw [threadsItem, Cbor.Item.write, length_append, Option.getD_some]
    refine ⟨?_, fun t ht => Nat.le_add_left_of_le (Cbor.length_le_writeAll (mem_map_of_mem ht))⟩
    have hlength := Cbor.length_le_length_writeAll (ts.map ThreadRecord.toItem)
    rw [length_map] at hlength
    exact Nat.le_add_left_of_le hlength

/-- **A report is no larger than its bytes.** -/
theorem Report.sized_of_encode (h : r.encode.length < Number.signedLimit) : r.Sized := by
  have hsession : r.session.length ≤ r.encode.length :=
    (Cbor.length_le_ofText r.session).trans (Cbor.length_le_map 1 (by simp))
  have hthreads : (threadsItem r.threads).write.length ≤ r.encode.length :=
    Cbor.length_le_map 4 (by simp)
  obtain ⟨hlength, hrecords⟩ := r.length_le_threadsItem
  refine ⟨forall_texts.mpr ⟨hsession.trans_lt h, fun t ht b hb => ?_⟩, by omega⟩
  have hb := ThreadRecord.length_le_toItem hb
  have ht := hrecords t ht
  omega

/-! ## Reports that can be read -/

/-- The report on a runtime can be read: its session, the names of its started threads and the texts of
their failures are UTF-8, and there are not too many of them. -/
structure World.Legible (w : World) (home : RuntimeId) : Prop where
  session : ∀ {rt}, w.runtime? home = some rt → Utf8.WellFormed rt.session
  name : ∀ {o t}, o ∈ w.startedThreads home → w.thread? o = some t → Utf8.WellFormed t.name
  uncaught : ∀ {o t e}, o ∈ w.startedThreads home → w.thread? o = some t → t.uncaught = some e →
    Utf8.WellFormed e.message
  count : (w.startedThreads home).length ≤ Cbor.maxElements

theorem ThreadState.wellFormed_name (s : ThreadState) : Utf8.WellFormed s.name := by
  cases s <;> decide +kernel

/-- The entry of a thread has texts in UTF-8 if the thread has. -/
theorem Thread.wellFormed_record (t : Thread) : (∀ b ∈ t.record.texts, Utf8.WellFormed b) ↔
      Utf8.WellFormed t.name ∧ ∀ {e}, t.uncaught = some e → Utf8.WellFormed e.message := by
  have hstate : Utf8.WellFormed t.record.state := t.state.wellFormed_name
  simp only [ThreadRecord.texts, forall_mem_cons, hstate, true_and]
  refine and_congr Iff.rfl ?_
  unfold record
  cases t.uncaught with
  | none => simp [Utf8.WellFormed.nil]
  | some e => simp

/-- **A report can be stored if its runtime is legible.** -/
theorem World.storable_takeReport {w : World} {home} (hhas : w.Has home)
    (hthreads : ∀ o ∈ w.startedThreads home, ∃ t, w.thread? o = some t) :
    (w.takeReport home).1.Storable ↔ w.Legible home := by
  obtain ⟨rt, hrt⟩ := hhas
  have hlength : (w.threadRecords home).length = (w.startedThreads home).length :=
    (World.threadRecords_shows hthreads).length_eq.symm
  have hmem {r : ThreadRecord} : r ∈ w.threadRecords home ↔
      ∃ o ∈ w.startedThreads home, ∃ t, w.thread? o = some t ∧ t.record = r := by
    simp only [threadRecords, mem_filterMap, Option.map_eq_some_iff]
  rw [takeReport_eq hrt]
  constructor
  · intro h
    obtain ⟨hsession, htexts⟩ := Report.forall_texts.mp h.texts
    have hrecord {o : ObjId} {t : Thread} (ho : o ∈ w.startedThreads home) (ht : w.thread? o = some t) :=
      t.wellFormed_record.mp (htexts t.record (hmem.mpr ⟨o, ho, t, ht, rfl⟩))
    refine ⟨fun {rt'} hrt' => ?_, fun ho ht => (hrecord ho ht).1, fun ho ht he => (hrecord ho ht).2 he, ?_⟩
    · cases hrt.symm.trans hrt'
      exact hsession
    · exact hlength ▸ h.records
  · intro h
    refine ⟨Report.forall_texts.mpr ⟨h.session hrt, fun r hr => ?_⟩, hlength.trans_le h.count⟩
    obtain ⟨o, ho, t, ht, rfl⟩ := hmem.mp hr
    exact t.wellFormed_record.mpr ⟨h.name ho ht, h.uncaught ho ht⟩

theorem Report.load_of_read {fs : Files} {path} (hr : r.encode.length < Number.signedLimit)
    (h : fs.read path = .ok r.encode) :
    Report.load fs path = if r.Storable then .ok r else .error .reportMalformed := by
  rw [load, h]
  dsimp only
  rw [decode?_encode (sized_of_encode hr)]
  by_cases hs : r.Storable
  · rw [if_pos hs, if_pos hs]
  · rw [if_neg hs, if_neg hs]

namespace Machine

variable {m n : Machine} {home : RuntimeId} {bound : Option Expiry} {id : TaskId}
  {next : Except Err Unit → Prog} {i : Nat} {fs : List Frame} {τs : List Turn}
  {P : Machine → Turn → Prop}

/-- **Which written reports read back.** In a machine that can be reached, a task calls the barrier of a
runtime with a place for reports, and the barrier succeeds, whatever else happens meanwhile. Then the report
that it has taken is the content of the file at that place. Right afterwards the file reads as that report
just if the runtime was legible when the report was taken, and else reading it fails. -/
theorem written_report_reads_back (hm : m.Reachable) (hhas : m.world.Has home)
    (hcall : m.tasks[i]? = some ⟨id, Op.barrierBounded home bound next, fs⟩)
    (hpath : (m.world.config home).reportPath ≠ [])
    (h : Passes (Barrier.course home bound id) i P .entering m τs (.returned (.ok ())) n)
    (hsize : ∀ {content}, n.world.files.read (m.world.config home).reportPath = .ok content →
      content.length < Number.signedLimit) :
    ∃ taken written,
      Reports home (m.world.config home).reportPath i fs m τs n taken written ∧
      n.world.files.read (m.world.config home).reportPath = .ok (taken.takeReport home).1.encode ∧
      (Report.load n.world.files (m.world.config home).reportPath = .ok (taken.takeReport home).1 ↔
        taken.Legible home) ∧
      (¬ taken.Legible home →
        Report.load n.world.files (m.world.config home).reportPath = .error .reportMalformed) := by
  obtain ⟨-, -, joined, -, hconcludes⟩ := barrier_run hm hhas hcall h
  obtain ⟨taken, written, hreports, htaken, -, hafter, hresult⟩ := hconcludes.reports hpath
  obtain ⟨-, files, hwritten⟩ := hresult.mp rfl
  have hfiles : n.world.files = files := by
    rw [hafter, World.writeFile, hwritten]
    rfl
  have hread : n.world.files.read (m.world.config home).reportPath =
      .ok (taken.takeReport home).1.encode := hfiles ▸ Files.read_write hwritten
  refine ⟨taken, written, hreports, hread, ?_⟩
  obtain ⟨τs₁, τs₂, p, p', q, k₁, k₂, -, hbefore, rfl, -⟩ := hreports
  have hstorable : (p.world.takeReport home).1.Storable ↔ p.world.Legible home := by
    refine World.storable_takeReport htaken fun o ho => ?_
    obtain ⟨t, ht, -⟩ := (hm.run hbefore.run).joinable ho
    exact ⟨t, ht⟩
  rw [Report.load_of_read (hsize hread) hread, ← hstorable]
  refine ⟨⟨fun hload => ?_, fun hs => if_pos hs⟩, fun hnot => if_neg hnot⟩
  by_contra hnot
  rw [if_neg hnot] at hload
  cases hload

/-! ### A name that is UTF-8, and one that is not -/

/-- One task of the host starts a thread with a given name, and another one calls the barrier. -/
def naming (name : Bytes) : Machine := pair { reportPath := "/report" }
  (do
    let t ← Op.newThread (some 0) none
    Op.perform (.rename t name)
    Op.start t)
  (Op.barrierBounded 0 none)

theorem initial_naming (name : Bytes) : (naming name).Initial :=
  initial_pair _ inferInstance inferInstance

/-- The turns until the thread has ended. -/
def untilEnded : List Turn := List.replicate 8 (.step 0) ++ List.replicate 13 (.step 2)

/-- The machine once the thread has ended. -/
def named (name : Bytes) : Machine := (naming name).after (fun _ _ => true) untilEnded

theorem reachable_named {name} (h : ((naming name).follow (fun _ _ => true) untilEnded).isSome) :
    (named name).Reachable := by
  have hrun : Trace (fun _ _ => True) (naming name) _ (named name) :=
    follow_trace (fun _ => trivial) (follow_eq_after h)
  exact (initial_naming name).reachable.run hrun.run

/-- The call of the barrier after that. -/
def namedCall (name : Bytes) : BarrierCall :=
  (named name).callAlong none Op.finishUnit (List.replicate 9 (.step 1)) (.ok ())

/-- The report on such a thread. -/
def namedReport (name : Bytes) : Report where
  threads := some [{ id := 1, name := name, state := "TERMINATED" }]
  barriers := 1

theorem read_named (name : Bytes)
    (h : ((namedCall name).after.world.files.read "/report").toOption = some (namedReport name).encode) :
    (namedCall name).after.world.files.read "/report" = .ok (namedReport name).encode := by
  cases hread : (namedCall name).after.world.files.read "/report" with
  | error e =>
    rw [hread] at h
    cases h
  | ok content =>
    rw [hread] at h
    exact congrArg Except.ok (Option.some.inj h)

/-- The report on a thread with an accented name reads back. -/
theorem written_report_reads_back_accented : (named "größer").Reachable ∧
    (namedCall "größer").Made 0 ∧ (namedReport "größer").encode.length < Number.signedLimit ∧
    (namedCall "größer").after.world.files.read "/report" = .ok (namedReport "größer").encode ∧
    Report.load (namedCall "größer").after.world.files "/report" = .ok (namedReport "größer") ∧
    ∃ taken written, Reports 0 "/report" 1 [] (named "größer") (List.replicate 9 (.step 1))
        (namedCall "größer").after taken written ∧ taken.Legible 0 := by
  have hreach : (named "größer").Reachable := reachable_named (by decide +kernel)
  have hmade : (namedCall "größer").Made 0 := made_callAlong rfl (by decide +kernel)
  have hsize : (namedReport "größer").encode.length < Number.signedLimit := by decide +kernel
  have hread := read_named "größer" (by decide +kernel)
  have hload := Report.load_of_read hsize hread
  rw [if_pos (by decide +kernel)] at hload
  refine ⟨hreach, hmade, hsize, hread, hload, ?_⟩
  have hpath : ((named "größer").world.config 0).reportPath = "/report" := by decide +kernel
  obtain ⟨taken, written, hreports, -, -, hnot⟩ :=
    written_report_reads_back hreach ⟨_, rfl⟩ hmade.calls (by rw [hpath]; decide) hmade.passes
      fun {content} hcontent => by
        rw [hpath] at hcontent
        cases hread.symm.trans hcontent
        exact hsize
  rw [hpath] at hreports hnot
  refine ⟨taken, written, hreports, ?_⟩
  by_contra hillegible
  cases hload.symm.trans (hnot hillegible)

/-- **A barrier can succeed and leave a report that cannot be read**: on a thread whose name is not UTF-8. -/
theorem unreadable_report : (named [0xFF]).Reachable ∧ (namedCall [0xFF]).Made 0 ∧
    (namedCall [0xFF]).result = .ok () ∧
    (namedCall [0xFF]).after.world.files.read "/report" = .ok (namedReport [0xFF]).encode ∧
    Report.load (namedCall [0xFF]).after.world.files "/report" = .error .reportMalformed := by
  have hread := read_named [0xFF] (by decide +kernel)
  have hload := Report.load_of_read (by decide +kernel) hread
  rw [if_neg (by decide +kernel)] at hload
  exact ⟨reachable_named (by decide +kernel), made_callAlong rfl (by decide +kernel), rfl, hread, hload⟩

end Machine

end ObjectKernel
