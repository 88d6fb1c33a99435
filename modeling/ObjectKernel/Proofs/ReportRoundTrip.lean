import ObjectKernel.Proofs.CborReading
import ObjectKernel.Proofs.WellFormedText
import ObjectKernel.Report

/-!
# Reports read back

Writing a report checks nothing, and reading one does: texts have to be UTF-8, and a thread list must not
be too long. This module says for which reports the two agree. Reading fails for all others.

The two checks happen at different times. A list that is too long is refused while the bytes are made into
an item, before anything is known of the texts; texts are looked at when the item is made into a report.

## Contents

* `Report.Sized`: reports whose lengths a machine can hold. `Report.Storable`: those that can be stored.
* `Report.read?_encode`: when the bytes of a report are an item. `Report.ofItem?_toItem`: when the item of
  a report is a report.
* `Report.reads_back_iff_storable`.
-/

namespace ObjectKernel

open Cbor Item Option List

/-! ## Fields -/

namespace Cbor

variable {values : Dictionary Nat Item} {α : Type} {number : Nat}

theorem reads_ofInt (n : Int64) (depth : Nat) : Reads depth (.ofInt n.toInt) := by
  have hupper : n.toInt < 2 ^ 63 := n.toInt_lt
  have hlower : -2 ^ 63 ≤ n.toInt := n.le_toInt
  cases hn : n.toInt with
  | ofNat k =>
    rw [hn, Int.ofNat_eq_natCast] at hupper
    exact reads_unsigned (by unfold Number.unsignedLimit; omega) depth
  | negSucc k =>
    rw [hn] at hlower
    exact reads_negative (by unfold Number.unsignedLimit; omega) depth

theorem int?_unsigned (k : Nat) : (unsigned k).int? = int64? k := by
  have huntagged : (unsigned k).untagged? = some (.unsigned k) := by simp only [untagged?]
  rw [int?, huntagged, bind_eq_bind, bind_some]

theorem int?_negative (k : Nat) : (negative k).int? = int64? (-1 - k) := by
  have huntagged : (negative k).untagged? = some (.negative k) := by simp only [untagged?]
  rw [int?, huntagged, bind_eq_bind, bind_some]

/-- A signed 64-bit number is read for what it is. -/
theorem int?_ofInt (n : Int64) : (ofInt n.toInt).int? = some n := by
  have hfits : Number.fits n.toInt := by
    have hupper : n.toInt < 2 ^ 63 := n.toInt_lt
    have hlower : -2 ^ 63 ≤ n.toInt := n.le_toInt
    unfold Number.fits Number.signedLimit
    rw [Bool.and_eq_true, decide_eq_true_eq, decide_eq_true_eq]
    omega
  have hint : (ofInt n.toInt).int? = int64? n.toInt := by
    cases n.toInt with
    | ofNat k => exact int?_unsigned k
    | negSucc k =>
      rw [ofInt, int?_negative, Int.negSucc_eq]
      congr 1
      omega
  rw [hint, int64?, if_pos hfits, Int64.ofInt_toInt]

/-- A text if it is UTF-8. -/
def validText? (b : Bytes) : Option Bytes := if Utf8.isValid b then some b else none

theorem text?_ofText (b : Bytes) : (ofText b).text? = validText? b := by
  show chunksText? [b] = _
  unfold chunksText? validText?
  rw [all_cons, all_nil, Bool.and_true, flatten_singleton]

theorem decodeField_some {item} (h : values.get? number = some item) (default : α) (decode : Item → Option α) :
    decodeField values number default decode = decode item := by
  rw [decodeField, h]

theorem decodeField_none (h : values.get? number = none) (default : α) (decode : Item → Option α) :
    decodeField values number default decode = some default := by
  rw [decodeField, h]

/-- One more field of a map reads back with the others. -/
theorem reads_field {depth value rest} (hn : number < 24) (hvalue : Reads depth value)
    (hrest : ∀ i ∈ flatEntries rest, Reads depth i) :
    ∀ i ∈ flatEntries (Report.field number value :: rest), Reads depth i := by
  intro i hi
  rcases mem_cons.mp hi with rfl | hi
  · exact reads_unsigned (Nat.lt_trans hn (by decide)) depth
  · rcases mem_cons.mp hi with rfl | hi
    · exact hvalue
    · exact hrest i hi

end Cbor

/-! ## Entries -/

namespace ThreadRecord

/-- The texts of a thread's entry. -/
def texts (t : ThreadRecord) : List Bytes := [t.name, t.state, t.uncaught]

theorem reads_toItem {t : ThreadRecord} (h : ∀ b ∈ t.texts, b.length < Number.signedLimit) {depth}
    (hdepth : depth + 1 ≤ maxDepth) : Reads depth t.toItem := by
  simp only [texts, forall_mem_cons] at h
  obtain ⟨hname, hstate, huncaught, -⟩ := h
  unfold toItem
  by_cases hu : t.uncaught = []
  · rw [if_pos hu]
    refine reads_map (Nat.le_of_ble_eq_true rfl) hdepth ?_
    exact reads_field (by decide) (reads_ofInt t.id _) (reads_field (by decide) (reads_text hname _)
      (reads_field (by decide) (reads_text hstate _) nofun))
  · rw [if_neg hu]
    refine reads_map (Nat.le_of_ble_eq_true rfl) hdepth ?_
    exact reads_field (by decide) (reads_ofInt t.id _) (reads_field (by decide) (reads_text hname _)
      (reads_field (by decide) (reads_text hstate _) (reads_field (by decide) (reads_text huncaught _)
        nofun)))

/-- What the reader finds in the item of an entry. A missing fourth field stands for no text. -/
theorem fields_toItem (t : ThreadRecord) : ∃ entries values, t.toItem = .map entries ∧
    fieldValues? [1, 2, 3, 4] entries = some values ∧ decodeField values 1 0 int? = some t.id ∧
    decodeField values 2 [] text? = validText? t.name ∧ decodeField values 3 [] text? = validText? t.state ∧
    decodeField values 4 [] text? = validText? t.uncaught := by
  unfold toItem
  by_cases hu : t.uncaught = []
  · rw [if_pos hu, hu]
    refine ⟨_, [(3, .ofText t.state), (2, .ofText t.name), (1, .ofInt t.id.toInt)], rfl, rfl, ?_, ?_, ?_, ?_⟩
    · exact (decodeField_some rfl ..).trans (int?_ofInt t.id)
    · exact (decodeField_some rfl ..).trans (text?_ofText t.name)
    · exact (decodeField_some rfl ..).trans (text?_ofText t.state)
    · exact decodeField_none rfl ..
  · rw [if_neg hu]
    refine ⟨_, [(4, .ofText t.uncaught), (3, .ofText t.state), (2, .ofText t.name),
      (1, .ofInt t.id.toInt)], rfl, rfl, ?_, ?_, ?_, ?_⟩
    · exact (decodeField_some rfl ..).trans (int?_ofInt t.id)
    · exact (decodeField_some rfl ..).trans (text?_ofText t.name)
    · exact (decodeField_some rfl ..).trans (text?_ofText t.state)
    · exact (decodeField_some rfl ..).trans (text?_ofText t.uncaught)

/-- The item of an entry is an entry if its texts are UTF-8. -/
theorem ofItem?_toItem (t : ThreadRecord) :
    ofItem? t.toItem = if ∀ b ∈ t.texts, Utf8.isValid b then some t else none := by
  obtain ⟨entries, values, hitem, hvalues, hid, hname, hstate, huncaught⟩ := fields_toItem t
  have huntagged : (map entries).untagged? = some (.map entries) := by simp only [untagged?]
  rw [hitem, ofItem?, huntagged]
  simp only [bind_eq_bind, bind_some, hvalues, hid, hname, hstate, huncaught]
  by_cases hn : Utf8.isValid t.name <;> by_cases hs : Utf8.isValid t.state <;>
    by_cases hu : Utf8.isValid t.uncaught <;> simp [validText?, texts, hn, hs, hu]

/-- Items of entries are entries if all of their texts are UTF-8. -/
theorem mapM_ofItem?_toItem (ts : List ThreadRecord) : (ts.map toItem).mapM ofItem? =
      if ∀ t ∈ ts, ∀ b ∈ t.texts, Utf8.isValid b then some ts else none := by
  induction ts with
  | nil => rfl
  | cons t ts ih =>
    rw [map_cons, mapM_cons, ofItem?_toItem, ih]
    by_cases ht : ∀ b ∈ t.texts, Utf8.isValid b
    · rw [if_pos ht]
      by_cases hts : ∀ u ∈ ts, ∀ b ∈ u.texts, Utf8.isValid b
      · rw [if_pos hts, if_pos (forall_mem_cons.mpr ⟨ht, hts⟩)]
        rfl
      · rw [if_neg hts, if_neg fun h => hts (forall_mem_cons.mp h).2]
        rfl
    · rw [if_neg ht, if_neg fun h => ht (forall_mem_cons.mp h).1]
      rfl

end ThreadRecord

/-! ## Reports -/

namespace Report

variable {r : Report}

/-- The thread entries of a report. -/
def records (r : Report) : List ThreadRecord := r.threads.getD []

/-- The texts of a report. -/
def texts (r : Report) : List Bytes := r.session :: r.records.flatMap ThreadRecord.texts

/-- A report as a machine can hold it: lengths are signed 64-bit numbers. -/
structure Sized (r : Report) : Prop where
  texts : ∀ b ∈ r.texts, b.length < Number.signedLimit
  records : r.records.length < Number.signedLimit

/-- A report that can be stored: its texts are UTF-8, and there are not too many threads. -/
structure Storable (r : Report) : Prop where
  texts : ∀ b ∈ r.texts, Utf8.WellFormed b
  records : r.records.length ≤ maxElements

instance (r : Report) : Decidable r.Storable :=
  decidable_of_iff ((∀ b ∈ r.texts, Utf8.WellFormed b) ∧ r.records.length ≤ maxElements)
    ⟨fun h => ⟨h.1, h.2⟩, fun h => ⟨h.texts, h.records⟩⟩

theorem forall_texts {P : Bytes → Prop} :
    (∀ b ∈ r.texts, P b) ↔ P r.session ∧ ∀ t ∈ r.records, ∀ b ∈ t.texts, P b := by
  unfold texts
  rw [forall_mem_cons]
  simp only [mem_flatMap]
  constructor
  · rintro ⟨hsession, hrecords⟩
    exact ⟨hsession, fun t ht b hb => hrecords b ⟨t, ht, hb⟩⟩
  · rintro ⟨hsession, hrecords⟩
    refine ⟨hsession, ?_⟩
    rintro b ⟨t, ht, hb⟩
    exact hrecords t ht b hb

/-- The items in a report before its thread list. -/
def leading (r : Report) : List Item :=
  flatEntries [field 1 (.ofText r.session), field 2 (.ofInt r.startedAt.toInt),
    field 3 (.ofInt r.finishedAt.toInt)] ++ [.unsigned 4]

/-- The items in a report after its thread list. -/
def trailing (r : Report) : List Item := flatEntries [field 5 (.ofInt r.barriers.toInt)]

theorem entries_toItem (r : Report) : ∃ entries, r.toItem = .map entries ∧ entries.length ≤ maxElements ∧
    flatEntries entries = r.leading ++ threadsItem r.threads :: r.trailing :=
  ⟨_, rfl, Nat.le_of_ble_eq_true rfl, rfl⟩

theorem reads_leading (h : r.session.length < Number.signedLimit) : ∀ i ∈ r.leading, Reads 1 i := by
  refine forall_mem_append.mpr ⟨?_, forall_mem_singleton.mpr (reads_unsigned (by decide) 1)⟩
  exact reads_field (by decide) (reads_text h _) (reads_field (by decide) (reads_ofInt r.startedAt _)
    (reads_field (by decide) (reads_ofInt r.finishedAt _) nofun))

theorem reads_threadsItem (htexts : ∀ t ∈ r.records, ∀ b ∈ t.texts, b.length < Number.signedLimit)
    (hlength : r.records.length ≤ maxElements) : Reads 1 (threadsItem r.threads) := by
  unfold records at htexts hlength
  cases hthreads : r.threads with
  | none => exact reads_null 1
  | some ts =>
    rw [hthreads, getD_some] at htexts hlength
    refine reads_array (by rwa [length_map]) (by decide) fun i hi => ?_
    obtain ⟨t, ht, rfl⟩ := mem_map.mp hi
    exact ThreadRecord.reads_toItem (htexts t ht) (by decide)

/-- A thread list that is too long is refused. -/
theorem refused_threadsItem (hrecords : r.records.length < Number.signedLimit)
    (hlength : maxElements < r.records.length) : Refused 1 (threadsItem r.threads) := by
  unfold records at hrecords hlength
  cases hthreads : r.threads with
  | none =>
    rw [hthreads] at hlength
    cases hlength
  | some ts =>
    rw [hthreads, getD_some] at hrecords hlength
    refine refused_array ?_ ?_ 1
    · rwa [length_map]
    · rw [length_map]
      exact Nat.lt_trans hrecords (by decide)

/-- The bytes of a report are read as its item, unless there are too many threads. -/
theorem read?_encode (h : r.Sized) :
    read? r.encode = if r.records.length ≤ maxElements then some r.toItem else none := by
  obtain ⟨hsession, htexts⟩ := forall_texts.mp h.texts
  obtain ⟨entries, hitem, hcount, hflat⟩ := r.entries_toItem
  by_cases hlength : r.records.length ≤ maxElements
  · rw [if_pos hlength]
    have htrailing : ∀ i ∈ r.trailing, Reads 1 i :=
      reads_field (by decide) (reads_ofInt r.barriers _) nofun
    refine read?_write ?_
    rw [hitem]
    refine reads_map hcount (by decide) ?_
    rw [hflat]
    exact forall_mem_append.mpr ⟨reads_leading hsession,
      forall_mem_cons.mpr ⟨reads_threadsItem htexts hlength, htrailing⟩⟩
  · rw [if_neg hlength, encode, hitem]
    exact read?_refused hcount hflat (reads_leading hsession)
      (refused_threadsItem h.records (Nat.lt_of_not_le hlength))

/-- The item of a thread list is that list if its texts are UTF-8; that of none is none. -/
theorem threadsOfItem?_threadsItem (r : Report) : threadsOfItem? (threadsItem r.threads) =
      if ∀ t ∈ r.records, ∀ b ∈ t.texts, Utf8.isValid b then some r.threads else none := by
  unfold records
  cases r.threads with
  | none => rfl
  | some ts =>
    have huntagged : (threadsItem (some ts)).untagged? = some (threadsItem (some ts)) := by
      simp only [threadsItem, untagged?]
    rw [threadsOfItem?, huntagged]
    simp only [bind_eq_bind, bind_some, threadsItem, ThreadRecord.mapM_ofItem?_toItem]
    rw [getD_some]
    split <;> rfl

/-- What the reader finds in the item of a report. -/
theorem fields_toItem (r : Report) : ∃ entries values, r.toItem = .map entries ∧
    fieldValues? [1, 2, 3, 4, 5] entries = some values ∧ decodeField values 1 [] text? = validText? r.session ∧
    decodeField values 2 0 int? = some r.startedAt ∧ decodeField values 3 0 int? = some r.finishedAt ∧
    decodeField values 4 none threadsOfItem? = threadsOfItem? (threadsItem r.threads) ∧
    decodeField values 5 0 int? = some r.barriers := by
  refine ⟨_, [(5, .ofInt r.barriers.toInt), (4, threadsItem r.threads), (3, .ofInt r.finishedAt.toInt),
    (2, .ofInt r.startedAt.toInt), (1, .ofText r.session)], rfl, rfl, ?_, ?_, ?_, ?_, ?_⟩
  · exact (decodeField_some rfl ..).trans (text?_ofText r.session)
  · exact (decodeField_some rfl ..).trans (int?_ofInt r.startedAt)
  · exact (decodeField_some rfl ..).trans (int?_ofInt r.finishedAt)
  · exact decodeField_some rfl ..
  · exact (decodeField_some rfl ..).trans (int?_ofInt r.barriers)

/-- The item of a report is a report if its texts are UTF-8. -/
theorem ofItem?_toItem (r : Report) : ofItem? r.toItem = if ∀ b ∈ r.texts, Utf8.isValid b then some r else none := by
  obtain ⟨entries, values, hitem, hvalues, hsession, hstarted, hfinished, hthreads, hbarriers⟩ :=
    r.fields_toItem
  have huntagged : (map entries).untagged? = some (.map entries) := by simp only [untagged?]
  rw [hitem, ofItem?, huntagged]
  simp only [bind_eq_bind, bind_some, hvalues, hsession, hstarted, hfinished, hthreads,
    hbarriers, threadsOfItem?_threadsItem]
  by_cases hs : Utf8.isValid r.session
  · rw [validText?, if_pos hs]
    by_cases ht : ∀ t ∈ r.records, ∀ b ∈ t.texts, Utf8.isValid b
    · rw [if_pos ht, if_pos (forall_texts.mpr ⟨hs, ht⟩)]
      rfl
    · rw [if_neg ht, if_neg fun h => ht (forall_texts.mp h).2]
      rfl
  · rw [validText?, if_neg hs, if_neg fun h => hs (forall_texts.mp h).1]
    rfl

theorem decode?_encode (h : r.Sized) : decode? r.encode = if r.Storable then some r else none := by
  unfold decode?
  rw [read?_encode h]
  by_cases hlength : r.records.length ≤ maxElements
  · rw [if_pos hlength, bind_eq_bind, bind_some, ofItem?_toItem]
    have hvalid : (∀ b ∈ r.texts, Utf8.isValid b) ↔ ∀ b ∈ r.texts, Utf8.WellFormed b :=
      forall₂_congr fun b _ => Utf8.isValid_iff b
    by_cases htexts : ∀ b ∈ r.texts, Utf8.isValid b
    · rw [if_pos htexts, if_pos ⟨hvalid.mp htexts, hlength⟩]
    · rw [if_neg htexts, if_neg fun hstorable => htexts (hvalid.mpr hstorable.texts)]
  · rw [if_neg hlength, if_neg fun hstorable => hlength hstorable.records]
    rfl

/-- **A report reads back just if it can be stored**, and otherwise reading it fails. -/
theorem reads_back_iff_storable {r : Report} (h : r.Sized) :
    (decode? r.encode = some r ↔ r.Storable) ∧ (¬ r.Storable → decode? r.encode = none) := by
  rw [decode?_encode h]
  refine ⟨⟨fun hback => ?_, fun hstorable => if_pos hstorable⟩, fun hnot => if_neg hnot⟩
  by_contra hnot
  rw [if_neg hnot] at hback
  cases hback

/-- A report of two threads, one of which failed. -/
def sample : Report where
  session := "a session with more than 23 bytes"
  startedAt := -1
  finishedAt := 1700000000000000000
  threads := some [{ id := 1, name := "main", state := "TERMINATED" },
    { id := -300, name := "größer", state := "TERMINATED", uncaught := "failed" }]
  barriers := 70000

/-- The report with a text that is not UTF-8. -/
def broken : Report := { sample with session := [0xFF] }

theorem reads_back_iff_storable_sample : sample.Sized ∧ sample.Storable ∧
    decode? sample.encode = some sample ∧ broken.Sized ∧ ¬ broken.Storable ∧
    decode? broken.encode = none := by
  have hsample : sample.Sized := ⟨by decide +kernel, by decide +kernel⟩
  have hbroken : broken.Sized := ⟨by decide +kernel, by decide +kernel⟩
  have hstorable : sample.Storable := by decide +kernel
  have hnot : ¬ broken.Storable := by decide +kernel
  exact ⟨hsample, hstorable, (reads_back_iff_storable hsample).1.mpr hstorable, hbroken, hnot,
    (reads_back_iff_storable hbroken).2 hnot⟩

end Report

end ObjectKernel
