import Mathlib.Algebra.BigOperators.Group.Finset.Piecewise
import Mathlib.Algebra.Order.BigOperators.Group.Finset
import ObjectKernel.Demo
import ObjectKernel.Proofs.AsciiText
import ObjectKernel.Proofs.BoundedList

/-!
# Shuffles

Workers add pieces to one text, each in the order of its rounds. The text is a shuffle of the sequences of
pieces: which piece comes after which is open, except for those of one worker. How long it is does not depend
on it.

## Contents

* `Demo.piece`: what a worker adds in a round. `Demo.entry`: the same for any number of rounds, since rounds are
  counted with 32 bits. `Demo.Shuffle`: the orders of pieces. `Demo.Shuffle.append`: one more piece.
* `Demo.characters`, `Demo.volume`: how many characters all pieces have. `Demo.Shuffle.length_le`,
  `Demo.Shuffle.length_eq`: how many a shuffle has.
* `Demo.Printable`, `Demo.HasRoom`: whether a runtime has room for all of it.
-/

namespace ObjectKernel

open List

/-! ## Buffers that are fed -/

namespace Buffer

variable {c : Config} {xs : List (List Rune)} {b : Buffer}

/-- A buffer has not failed if all pieces fit. -/
theorem Fed.failure_eq_none_iff (h : b.Fed c xs) : b.failure = none ↔ xs.flatten.length ≤ bound c := by
  obtain ⟨k, hlongest, hrefines⟩ := h.refines
  have htotal : total xs xs.length = xs.flatten.length := by
    unfold total
    rw [take_length]
  rw [hrefines.failure]
  constructor
  · intro hk
    split at hk
    · rename_i hall
      subst hall
      exact htotal ▸ hlongest.fits
    · cases hk
  · intro hle
    exact if_pos (Nat.le_antisymm hlongest.le (hlongest.longest _ (Nat.le_refl _) (htotal ▸ hle)))

/-- A buffer that has not failed has all characters. -/
theorem Fed.chars_eq (h : b.Fed c xs) (hfailure : b.failure = none) : b.chars = xs.flatten := by
  obtain ⟨k, -, hrefines⟩ := h.refines
  rw [hrefines.failure] at hfailure
  split at hfailure
  · rename_i hall
    rw [hrefines.chars, hall, take_length]
  · cases hfailure

end Buffer

theorem Config.exceeded?_mono {c : Config} {m n} (hmn : m ≤ n) (h : c.exceeded? n = none) : c.exceeded? m = none := by
  unfold exceeded? at h ⊢
  rw [if_neg]
  split at h
  · cases h
  · omega

/-! ## Pieces and their orders -/

namespace Demo

variable {workers rounds r : Nat} {count : Nat → Nat}

/-- What a worker adds to the text in a round. -/
def piece (i r : Nat) : Bytes := "[Thread[worker-" ++ Bytes.ofNat i ++ "] " ++ Bytes.ofNat r ++ "]"

/-- What a worker adds to the text in a round of any number: the number is written as one of 32 bits. -/
def entry (i r : Nat) : Bytes :=
  "[Thread[worker-" ++ Bytes.ofNat i ++ "] " ++ Bytes.ofInt (Int32.ofNat r).toInt ++ "]"

theorem entry_eq_piece (i : Nat) (hr : r < 2 ^ 31) : entry i r = piece i r := by
  unfold entry
  rw [Int32.toInt_ofNat_of_lt hr]
  rfl

theorem isAscii_bracketed (i : Nat) {b : Bytes} (hb : b.IsAscii) :
    Bytes.IsAscii ("[Thread[worker-" ++ Bytes.ofNat i ++ "] " ++ b ++ "]") :=
  ((((by decide : Bytes.IsAscii _).append (Bytes.isAscii_ofNat i)).append (by decide)).append hb).append (by decide)

theorem isAscii_entry (i r : Nat) : (entry i r).IsAscii :=
  isAscii_bracketed i (Bytes.isAscii_ofInt _)

/-- An order of pieces, each with its worker and its round, of which each worker has added a number in the
order of its rounds. -/
def Shuffle (count : Nat → Nat) (h : List (Nat × Nat)) : Prop :=
  ∀ i, (h.filter (·.1 = i)).map Prod.snd = List.range (count i)

/-- The text of pieces in an order. -/
def text (h : List (Nat × Nat)) : Bytes := h.flatMap fun p => piece p.1 p.2

/-- The characters of pieces in an order, piece by piece. -/
def runes (h : List (Nat × Nat)) : List (List Rune) := h.map fun p => Utf8.decode (piece p.1 p.2)

theorem encode_runes (h : List (Nat × Nat)) : Utf8.encode (runes h).flatten = text h := by
  unfold runes text Utf8.encode
  rw [← flatMap_def, flatMap_assoc]
  refine flatMap_congr fun p _ => ?_
  exact Utf8.encode_decode (isAscii_bracketed p.1 (Bytes.isAscii_ofNat p.2))

/-- The characters that workers have added in an order, round by round. -/
def entries (h : List (Nat × Nat)) : List (List Rune) := h.map fun p => Utf8.decode (entry p.1 p.2)

theorem shuffle_nil : Shuffle (fun _ => 0) [] := fun _ => rfl

/-- The next piece of a worker. -/
theorem Shuffle.append {h} (hs : Shuffle count h) (i : Nat) :
    Shuffle (Function.update count i (count i + 1)) (h ++ [(i, count i)]) := by
  intro j
  rw [filter_append, map_append, hs j]
  by_cases hj : i = j
  · subst hj
    simp [range_succ]
  · simp [hj, Function.update_of_ne (Ne.symm hj)]

/-- How many characters all pieces have. -/
def characters (workers rounds : Nat) : Nat :=
  ∑ i ∈ Finset.range workers, ∑ r ∈ Finset.range rounds, (piece i r).length

/-- How many characters workers add in all rounds. -/
def volume (workers rounds : Nat) : Nat :=
  ∑ i ∈ Finset.range workers, ∑ r ∈ Finset.range rounds, (entry i r).length

/-- The pieces of a shuffle are those of the rounds that the workers have had. -/
theorem Shuffle.lt {h} (hs : Shuffle count h) {p} (hp : p ∈ h) : p.2 < count p.1 := by
  rw [← mem_range, ← hs p.1]
  exact mem_map_of_mem (mem_filter.mpr ⟨hp, decide_eq_true rfl⟩)

/-- The length of a shuffle is added up worker by worker. -/
theorem Shuffle.length_flatten {h} (hs : Shuffle count h) {n} (hn : ∀ i, n ≤ i → count i = 0) :
    (entries h).flatten.length = ∑ i ∈ Finset.range n, ∑ r ∈ Finset.range (count i), (entry i r).length := by
  -- The pieces of a worker are those of its rounds.
  have hworker (i : Nat) : ((h.filter (·.1 = i)).map fun p => (entry p.1 p.2).length).sum =
      ∑ r ∈ Finset.range (count i), (entry i r).length := by
    have hown : (h.filter (·.1 = i)).map (fun p => (entry p.1 p.2).length) =
        ((h.filter (·.1 = i)).map Prod.snd).map fun r => (entry i r).length := by
      rw [map_map]
      refine map_congr_left fun p hp => ?_
      rw [← of_decide_eq_true (mem_filter.mp hp).2]
      rfl
    rw [hown, hs i]
    rfl
  have hlt (p : Nat × Nat) (hp : p ∈ h) : p.1 < n := by
    by_contra hge
    have hround := hs.lt hp
    rw [hn p.1 (Nat.le_of_not_lt hge)] at hround
    cases hround
  rw [← Finset.sum_congr rfl fun i _ => hworker i]
  clear hworker hs hn
  unfold entries
  induction h with
  | nil => simp
  | cons p h ih =>
    have hp := hlt p mem_cons_self
    have hfirst (i : Nat) : (((p :: h).filter (·.1 = i)).map fun p => (entry p.1 p.2).length).sum =
        (if i = p.1 then (entry p.1 p.2).length else 0) +
          ((h.filter (·.1 = i)).map fun p => (entry p.1 p.2).length).sum := by
      by_cases hi : p.1 = i
      · rw [filter_cons_of_pos (by simpa using hi), map_cons, sum_cons, if_pos hi.symm]
      · rw [filter_cons_of_neg (by simpa using hi), if_neg (Ne.symm hi), Nat.zero_add]
    rw [Finset.sum_congr rfl fun i _ => hfirst i, Finset.sum_add_distrib, Finset.sum_ite_eq',
      if_pos (Finset.mem_range.mpr hp), ← ih fun q hq => hlt q (mem_cons_of_mem p hq), map_cons,
      flatten_cons, length_append, Utf8.length_decode (isAscii_entry p.1 p.2)]

/-- A shuffle is no longer than all pieces. -/
theorem Shuffle.length_le {h} (hs : Shuffle count h) (hrounds : ∀ i, count i ≤ rounds)
    (hworkers : ∀ i, workers ≤ i → count i = 0) : (entries h).flatten.length ≤ volume workers rounds := by
  rw [hs.length_flatten hworkers]
  refine Finset.sum_le_sum fun i _ => Finset.sum_le_sum_of_subset ?_
  exact Finset.range_mono (hrounds i)

/-- The numbers of rounds of workers that are done. -/
def everyRound (workers rounds : Nat) (i : Nat) : Nat := if i < workers then rounds else 0

/-- A shuffle of all pieces is as long as they are. -/
theorem Shuffle.length_eq {h} (hs : Shuffle (everyRound workers rounds) h) :
    (entries h).flatten.length = volume workers rounds := by
  rw [hs.length_flatten (n := workers) fun i hi => if_neg (Nat.not_lt_of_le hi)]
  refine Finset.sum_congr rfl fun i hi => ?_
  rw [everyRound, if_pos (Finset.mem_range.mp hi)]

theorem length_entry_le {i} (hi : i < workers) (hr : r < rounds) : (entry i r).length ≤ volume workers rounds :=
  calc (entry i r).length
      ≤ ∑ r ∈ Finset.range rounds, (entry i r).length :=
        Finset.single_le_sum_of_canonicallyOrdered (f := fun r => (entry i r).length)
          (Finset.mem_range.mpr hr)
    _ ≤ volume workers rounds :=
        Finset.single_le_sum_of_canonicallyOrdered
          (f := fun i => ∑ r ∈ Finset.range rounds, (entry i r).length) (Finset.mem_range.mpr hi)

/-! ## Room for all of it -/

/-- A runtime with these settings has room for the workers and for all that they write. -/
structure Printable (c : Config) (workers rounds : Nat) : Prop where
  valid : c.validate = .ok ()
  buffers : Memory.hasRoom c.initialCapacity Memory.characterSize
  references : Memory.hasRoom workers Memory.referenceSize
  fits : characters workers rounds ≤ Buffer.bound c
  allowed : c.exceeded? (characters workers rounds) = none

/-- The same for any number of rounds. -/
structure HasRoom (c : Config) (workers rounds : Nat) : Prop where
  valid : c.validate = .ok ()
  buffers : Memory.hasRoom c.initialCapacity Memory.characterSize
  references : Memory.hasRoom workers Memory.referenceSize
  fits : volume workers rounds ≤ Buffer.bound c
  allowed : c.exceeded? (volume workers rounds) = none

section

variable {workers rounds : Nat} (hrange : rounds < 2 ^ 31)
include hrange

theorem volume_eq_characters : volume workers rounds = characters workers rounds := by
  refine Finset.sum_congr rfl fun i _ => Finset.sum_congr rfl fun r hr => ?_
  rw [entry_eq_piece i ((Finset.mem_range.mp hr).trans hrange)]

theorem hasRoom_iff_printable {c : Config} : HasRoom c workers rounds ↔ Printable c workers rounds := by
  have hvolume : volume workers rounds = characters workers rounds := volume_eq_characters hrange
  refine ⟨fun h => ?_, fun h => ?_⟩
  · exact ⟨h.valid, h.buffers, h.references, hvolume ▸ h.fits, hvolume ▸ h.allowed⟩
  · exact ⟨h.valid, h.buffers, h.references, hvolume ▸ h.fits, hvolume ▸ h.allowed⟩

theorem Shuffle.entries_eq {h} (hs : Shuffle (everyRound workers rounds) h) : entries h = runes h := by
  refine map_congr_left fun p hp => ?_
  have hround : p.2 < rounds := by
    have hlt := hs.lt hp
    unfold everyRound at hlt
    split at hlt <;> omega
  rw [entry_eq_piece p.1 (hround.trans hrange)]

end

end Demo

end ObjectKernel
