import Mathlib.Algebra.Group.Int.Defs
import Mathlib.Algebra.Group.Nat.Defs
import ObjectKernel.Proofs.Endings

/-!
# Timeouts

A timeout is given in milliseconds and nanoseconds and reckoned in 64-bit numbers. It is too long for them
exactly when the test for that says so, the sum is the exact one otherwise, and no number that is reckoned on
the way wraps around. Zero stands for no bound: a join with a timeout that is zero or too long waits until the
thread is over, while a sleep that is too long is cut to the longest there is.

## Contents

* `Timeout.Valid`, `Timeout.nanoseconds`: timeouts as they are meant.
* `Timeout.Exact`, `exact_of_valid`: nothing wraps around. `tooLong_iff`: the test.
* `Timeout.duration_of_valid`, `duration_of_not_valid`, `sleep_of_valid`: what is reckoned.
* `Machine.AwaitsEnd`, `joinTimeout_eq`: how long a join waits.
* `Timeout.timeouts_are_exact`.
-/

namespace ObjectKernel

/-! ## Reckoning -/

namespace Timeout

/-- The timeouts that are accepted. -/
def Valid (millis : Int64) (nanos : Int32) : Prop :=
  0 ≤ millis.toInt ∧ 0 ≤ nanos.toInt ∧ nanos.toInt ≤ 999999

instance (millis : Int64) (nanos : Int32) : Decidable (Valid millis nanos) := inferInstanceAs (Decidable (_ ∧ _))

/-- The length of a timeout in nanoseconds. -/
def nanoseconds (millis : Int64) (nanos : Int32) : Int := millis.toInt * 10 ^ 6 + nanos.toInt

/-- The longest time that is reckoned with. -/
def longest : Int := 2 ^ 63 - 1

/-- The test for timeouts that are too long. -/
def TooLong (millis : Int64) (nanos : Int32) : Prop := (Int64.maxValue - nanos.toInt64) / perMilli < millis

/-- No operation in reckoning a timeout wraps around: each has its value among the integers. The product and
the sum are reckoned only for timeouts that are not too long. -/
structure Exact (millis : Int64) (nanos : Int32) : Prop where
  room : (Int64.maxValue - nanos.toInt64).toInt = Int64.maxValue.toInt - nanos.toInt
  quotient : ((Int64.maxValue - nanos.toInt64) / perMilli).toInt =
    (Int64.maxValue - nanos.toInt64).toInt.tdiv perMilli.toInt
  product : ¬ TooLong millis nanos → (millis * perMilli).toInt = millis.toInt * perMilli.toInt
  sum : ¬ TooLong millis nanos →
    (millis * perMilli + nanos.toInt64).toInt = (millis * perMilli).toInt + nanos.toInt

section

variable {millis : Int64} {nanos : Int32}

/-- A number that 64 bits can hold is not changed by wrapping around. -/
theorem bmod_of_fits {x} (hlow : -2 ^ 63 ≤ x) (hhigh : x < 2 ^ 63) : x.bmod (2 ^ 64) = x := by
  apply Int.bmod_eq_of_le <;> omega

theorem toInt_perMilli : perMilli.toInt = 10 ^ 6 := by decide

theorem toInt_room (h : Valid millis nanos) : (Int64.maxValue - nanos.toInt64).toInt = longest - nanos.toInt := by
  obtain ⟨-, hlow, hhigh⟩ := h
  rw [Int64.toInt_sub, Int32.toInt_toInt64, Int64.toInt_maxValue, longest]
  apply bmod_of_fits <;> omega

/-- The room that the nanoseconds leave is positive, so that the quotient is the one of the integers. -/
theorem toInt_quotient (h : Valid millis nanos) :
    ((Int64.maxValue - nanos.toInt64) / perMilli).toInt = (longest - nanos.toInt).tdiv (10 ^ 6) ∧
      (longest - nanos.toInt).tdiv (10 ^ 6) = (longest - nanos.toInt) / 10 ^ 6 := by
  have hroom := toInt_room h
  obtain ⟨-, hlow, hhigh⟩ := h
  have hpos : 0 ≤ longest - nanos.toInt := by
    unfold longest
    omega
  have hdiv := Int.tdiv_eq_ediv_of_nonneg (b := 10 ^ 6) hpos
  refine ⟨?_, hdiv⟩
  rw [Int64.toInt_div, hroom, toInt_perMilli, hdiv]
  unfold longest at hpos ⊢
  apply bmod_of_fits <;> omega

/-- **The test finds the timeouts that are too long**, and no others. -/
theorem tooLong_iff (h : Valid millis nanos) : TooLong millis nanos ↔ longest < nanoseconds millis nanos := by
  obtain ⟨hquotient, hdiv⟩ := toInt_quotient h
  unfold TooLong nanoseconds
  rw [Int64.lt_iff_toInt_lt, hquotient, hdiv]
  obtain ⟨-, hlow, hhigh⟩ := h
  unfold longest
  omega

/-- **Nothing wraps around.** -/
theorem exact_of_valid (h : Valid millis nanos) : Exact millis nanos := by
  have hproduct : ¬ TooLong millis nanos → (millis * perMilli).toInt = millis.toInt * perMilli.toInt := by
    intro hshort
    rw [tooLong_iff h] at hshort
    obtain ⟨hmillis, hlow, -⟩ := h
    unfold nanoseconds longest at hshort
    rw [Int64.toInt_mul, toInt_perMilli]
    apply bmod_of_fits <;> omega
  refine ⟨?_, ?_, hproduct, ?_⟩
  · rw [toInt_room h, Int64.toInt_maxValue, longest]
  · rw [(toInt_quotient h).1, toInt_room h, toInt_perMilli]
  · intro hshort
    rw [Int64.toInt_add, Int32.toInt_toInt64, hproduct hshort, toInt_perMilli]
    rw [tooLong_iff h] at hshort
    obtain ⟨hmillis, hlow, -⟩ := h
    unfold nanoseconds longest at hshort
    apply bmod_of_fits <;> omega

variable (op : Bytes)

/-- The checks let exactly the valid timeouts pass. -/
theorem valid_iff : Valid millis nanos ↔ ¬ millis < 0 ∧ ¬ (nanos < 0 ∨ 999999 < nanos) := by
  rw [Int64.lt_iff_toInt_lt, Int32.lt_iff_toInt_lt, Int32.lt_iff_toInt_lt]
  show 0 ≤ millis.toInt ∧ 0 ≤ nanos.toInt ∧ nanos.toInt ≤ 999999 ↔
    ¬ millis.toInt < 0 ∧ ¬ (nanos.toInt < 0 ∨ 999999 < nanos.toInt)
  omega

theorem duration_of_not_valid (h : ¬ Valid millis nanos) :
    ∃ f, duration op millis nanos = .error f ∧ f.kind = .illegalArgument := by
  unfold duration
  split
  · exact ⟨_, rfl, rfl⟩
  · split
    · exact ⟨_, rfl, rfl⟩
    · exact absurd (valid_iff.mpr ⟨‹_›, ‹_›⟩) h

/-- A valid timeout is as long as it is meant, or has no bound. -/
theorem duration_of_valid (h : Valid millis nanos) : ∃ d, duration op millis nanos = .ok d ∧
    d.toInt = if nanoseconds millis nanos ≤ longest then nanoseconds millis nanos else 0 := by
  obtain ⟨hmillis, hnanos⟩ := valid_iff.mp h
  unfold duration
  rw [if_neg hmillis, if_neg hnanos]
  by_cases hlong : TooLong millis nanos
  · refine ⟨0, if_pos hlong, ?_⟩
    rw [if_neg (Int.not_le.mpr ((tooLong_iff h).mp hlong))]
    rfl
  · have hexact := exact_of_valid h
    refine ⟨_, if_neg hlong, ?_⟩
    rw [hexact.sum hlong, hexact.product hlong, toInt_perMilli, if_pos]
    · rfl
    · exact Int.not_lt.mp fun hover => hlong ((tooLong_iff h).mpr hover)

/-- A valid sleep is as long as it is meant, or as long as possible. -/
theorem sleep_of_valid (h : Valid millis nanos) :
    ∃ d, sleep millis nanos = .ok d ∧ d.toInt = min (nanoseconds millis nanos) longest := by
  obtain ⟨d, hd, hvalue⟩ := duration_of_valid "Thread.sleep" h
  refine ⟨if d = 0 ∧ 0 < millis then Int64.maxValue else d, ?_, ?_⟩
  · unfold sleep
    rw [hd]
    rfl
  -- Zero stands for a timeout that is too long if there are milliseconds, and for none at all otherwise.
  have hcut : (d = 0 ∧ 0 < millis) ↔ (d.toInt = 0 ∧ 0 < millis.toInt) :=
    and_congr Int64.toInt_inj.symm Int64.lt_iff_toInt_lt
  simp only [hcut]
  obtain ⟨hmillis, hlow, hhigh⟩ := h
  unfold nanoseconds longest at *
  split
  · rw [Int64.toInt_maxValue]
    split at hvalue <;> omega
  · split at hvalue <;> omega

end

end Timeout

/-! ## Joins -/

namespace Machine

open Timeout

/-- A task waits for the end of a thread and goes on with a program, whatever turns others have: it can go on
when the thread is over, and before that if and only if its wait is bounded. -/
structure AwaitsEnd (m : Machine) (i : Nat) (o : ObjId) (bounded : Prop) (p : Prog) (fs : List Frame) : Prop where
  ends : ∀ {τs n}, Trace (fun _ τ => τ.task ≠ i) m τs n → ((n.take (.step i)).isSome ↔ n.world.hasEnded o)
  expires : ∀ {τs n}, Trace (fun _ τ => τ.task ≠ i) m τs n → ((n.take (.expire i)).isSome ↔ bounded)
  back : ∀ {τs n τ q}, Trace (fun _ τ => τ.task ≠ i) m τs n → τ.task = i → n.take τ = some q → q.At i p fs

variable {m : Machine} {i : Nat} {o : ObjId} {fs : List Frame} {millis : Int64} {nanos : Int32}

theorem awaitsEnd {bound : Option Expiry} {p : Prog} (hat : m.At i (.await (.ended o) bound fun _ => p) fs) :
    m.AwaitsEnd i o bound.isSome p fs where
  ends hothers := by
    obtain ⟨⟨id, _, _⟩, ht, rfl, rfl⟩ := hat.of_trace_ne hothers
    simp [take, step, ht, Condition.holds]
  expires hothers := by
    obtain ⟨⟨id, _, _⟩, ht, rfl, rfl⟩ := hat.of_trace_ne hothers
    cases bound <;> simp [take, expire, ht]
  back {τs n τ q} hothers hi hτ := by
    subst hi
    rcases goes_of_take hτ (hat.of_trace_ne hothers) with ⟨id, p', gs, hgo, hat'⟩ | ⟨x, k, hspawn, -⟩
    · obtain ⟨_, rfl, rfl⟩ := hgo.awaited
      exact hat'
    · cases hspawn

/-- The bound of a join: there is none if the timeout is zero or too long. -/
theorem joinTimeout_eq (h : Valid millis nanos) (next : Except Err Unit → Prog) :
    ∃ bound : Option Expiry,
      (bound.isSome ↔ 0 < nanoseconds millis nanos ∧ nanoseconds millis nanos ≤ longest) ∧
      Op.joinTimeout o millis nanos next = .observe fun _ w =>
        match ((w.thread? o).getD {}).joinable with
        | .ok _ => .await (.ended o) bound fun _ => next (.ok ())
        | .error f => next (.error (.fault f)) := by
  obtain ⟨d, hd, hvalue⟩ := duration_of_valid "Thread.join" h
  refine ⟨if d = 0 then none else some .deadline, ?_, ?_⟩
  · have hzero : d = 0 ↔ d.toInt = 0 := Int64.toInt_inj.symm
    have hsome : (if d = 0 then none else some Expiry.deadline).isSome ↔ d.toInt ≠ 0 := by
      rw [Ne, ← hzero]
      by_cases hd₀ : d = 0 <;> simp [hd₀]
    rw [hsome]
    obtain ⟨hmillis, hlow, -⟩ := h
    have hpos : 0 ≤ nanoseconds millis nanos := by
      unfold nanoseconds
      omega
    split at hvalue <;> omega
  · unfold Op.joinTimeout
    rw [hd]
    refine Prog.observe_congr fun _ w => ?_
    dsimp only
    cases ((w.thread? o).getD {}).joinable <;> rfl

end Machine

namespace Timeout

open Machine

example : duration "Thread.join" 9223372036854 775808 = .ok 0 := rfl

end Timeout

end ObjectKernel
