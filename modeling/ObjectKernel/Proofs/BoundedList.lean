import Mathlib.Order.Nat
import ObjectKernel.Buffer

/-!
# Buffers as bounded lists

A buffer is fed with pieces of text. It keeps the longest run of them from the first on that fits under
one bound, the greater of its initial capacity and its growth limit, and from the first piece that does
not fit on it keeps nothing but the failure. How often it grew in between does not show.

## Contents

* `LongestPrefix`: how many pieces fit.
* `Buffer.Refines`: what a buffer that was fed with pieces shows.
* `Buffer.Fed`: the invariant behind it, with the capacity. `Buffer.Fed.append`: its step.
* `Buffer.Fed.foldl`, `Buffer.foldl_append_of_failed`: any number of appends.
-/

namespace ObjectKernel

open List

variable {k : Nat} {xs : List (List Rune)}

/-! ## Prefixes of bounded length -/

/-- The length of the first pieces together. -/
def total (xs : List (List Rune)) (k : Nat) : Nat := (xs.take k).flatten.length

/-- The longest prefix whose total length is within a bound has `k` pieces. -/
structure LongestPrefix (bound : Nat) (xs : List (List Rune)) (k : Nat) : Prop where
  le : k ≤ xs.length
  fits : total xs k ≤ bound
  longest : ∀ j ≤ xs.length, total xs j ≤ bound → j ≤ k

theorem total_mono (xs : List (List Rune)) {j} (h : j ≤ k) : total xs j ≤ total xs k := by
  unfold total
  obtain ⟨ys, hys⟩ := take_prefix_take_left (l := xs) h
  rw [← hys, flatten_append, length_append]
  exact Nat.le_add_right ..

theorem total_append_of_le (xs : List (List Rune)) (x : List Rune) (h : k ≤ xs.length) :
    total (xs ++ [x]) k = total xs k := by
  unfold total
  rw [take_append_of_le_length h]

theorem total_append (xs : List (List Rune)) (x : List Rune) :
    total (xs ++ [x]) (xs.length + 1) = total xs xs.length + x.length := by
  unfold total
  rw [take_of_length_le (by simp), take_length]
  simp

/-- A prefix is the longest one if the next piece does not fit. -/
theorem LongestPrefix.of_next {bound} (hk : k < xs.length) (fits : total xs k ≤ bound)
    (next : bound < total xs (k + 1)) : LongestPrefix bound xs k := by
  refine ⟨hk.le, fits, fun j hj htotal => ?_⟩
  by_contra hlt
  have hle : total xs (k + 1) ≤ total xs j := total_mono xs (Nat.lt_of_not_le hlt)
  omega

theorem LongestPrefix.of_all {bound} (fits : total xs xs.length ≤ bound) :
    LongestPrefix bound xs xs.length := ⟨le_refl _, fits, fun _ hj _ => hj⟩

theorem LongestPrefix.lt_next {bound} (h : LongestPrefix bound xs k) (hk : k < xs.length) :
    bound < total xs (k + 1) := by
  by_contra hle
  have := h.longest (k + 1) hk (Nat.le_of_not_lt hle)
  omega

/-! ## Growth -/

namespace Buffer

variable {c : Config} {xs : List (List Rune)} {b : Buffer} {capacity : Nat}

/-- Doubling leads from a capacity to one that is no smaller and within the limit. -/
theorem double_bounds {limit needed : Nat} (fuel : Nat) (h : capacity ≤ limit) :
    capacity ≤ double limit needed fuel capacity ∧ double limit needed fuel capacity ≤ limit := by
  induction fuel generalizing capacity with
  | zero => exact ⟨le_refl _, h⟩
  | succ fuel ih =>
    unfold double
    split
    · exact ⟨le_refl _, h⟩
    · split
      · exact ⟨h, le_refl _⟩
      · have hdouble : capacity * 2 ≤ limit := by omega
        obtain ⟨hge, hle⟩ := ih hdouble
        exact ⟨by omega, hle⟩

theorem grown_bounds {limit} (needed : Nat) (hpos : 0 < capacity) (h : capacity ≤ limit) :
    capacity ≤ grown limit needed capacity ∧ grown limit needed capacity ≤ limit := by
  unfold grown
  rw [if_neg hpos.ne']
  exact double_bounds _ h

/-! ## Refinement -/

/-- The bound on the characters of a buffer. -/
def bound (c : Config) : Nat := max c.initialCapacity c.growthLimit

/-- The failure that the first piece that does not fit causes, `k` pieces having fitted. -/
def full (c : Config) (xs : List (List Rune)) (k : Nat) : Err :=
  .fault (.bufferFull (total xs (k + 1)) c.growthLimit)

/-- What a buffer shows that was fed with pieces of which the first `k` fit. -/
structure Refines (c : Config) (xs : List (List Rune)) (k : Nat) (b : Buffer) : Prop where
  chars : b.chars = (xs.take k).flatten
  length : b.length = b.chars.length
  failure : b.failure = if k = xs.length then none else some (full c xs k)

/-- A buffer that was fed with pieces, from its creation on. -/
structure Fed (c : Config) (xs : List (List Rune)) (b : Buffer) : Prop where
  refines : ∃ k, LongestPrefix (bound c) xs k ∧ b.Refines c xs k
  initial : c.initialCapacity ≤ b.capacity
  bounded : b.capacity ≤ bound c

theorem initialCapacity_pos (c : Config) : 0 < c.initialCapacity := by
  unfold Config.initialCapacity
  split
  · omega
  · exact Nat.succ_pos _

theorem fed_empty (c : Config) : (empty c.initialCapacity).Fed c [] :=
  ⟨⟨0, .of_all (Nat.zero_le _), rfl, rfl, rfl⟩, le_refl _, Nat.le_max_left ..⟩

theorem reverse_foldl_cons (cs rs : List Rune) : (cs.foldl (fun r c => c :: r) rs).reverse = rs.reverse ++ cs := by
  rw [foldl_flip_cons_eq_append', reverse_append, reverse_reverse]

/-- Pieces that fit are kept. -/
theorem Refines.push {d : Buffer} (h : b.Refines c xs xs.length) {x} (hchars : d.chars = b.chars ++ x)
    (hlength : d.length = b.length + x.length) (hfailure : d.failure = b.failure) :
    d.Refines c (xs ++ [x]) (xs.length + 1) := by
  refine ⟨?_, ?_, ?_⟩
  · rw [hchars, h.chars, take_length, take_of_length_le (by simp), flatten_append,
      flatten_singleton]
  · rw [hlength, hchars, length_append, h.length]
  · have hlen : xs.length + 1 = (xs ++ [x]).length := by simp
    rw [hfailure, h.failure, if_pos rfl, if_pos hlen]

/-- **An append is a step of the bounded list.** -/
theorem Fed.append (h : b.Fed c xs) (x : List Rune) : (b.append c.growthLimit x).Fed c (xs ++ [x]) := by
  obtain ⟨⟨k, hlongest, hrefines⟩, hinitial, hbounded⟩ := h
  have hxs : (xs ++ [x]).length = xs.length + 1 := by simp
  unfold Buffer.append
  by_cases hk : k = xs.length
  · -- Everything has fitted so far.
    subst hk
    have hfailure : b.failure = none := by rw [hrefines.failure, if_pos rfl]
    have hlength : b.length = total xs xs.length := by rw [hrefines.length, hrefines.chars, total]
    have hneeded : total (xs ++ [x]) (xs.length + 1) = b.length + x.length := by
      rw [total_append, hlength]
    rw [if_neg (by rw [hfailure]; nofun)]
    have hfits (hle : b.length + x.length ≤ bound c) :
        LongestPrefix (bound c) (xs ++ [x]) (xs.length + 1) := by
      rw [← hxs]
      exact .of_all (by rw [hxs, hneeded]; exact hle)
    dsimp only
    split
    · rename_i hle
      exact ⟨⟨_, hfits (hle.trans hbounded),
        hrefines.push (reverse_foldl_cons ..) rfl rfl⟩, hinitial, hbounded⟩
    · split
      · -- Neither the capacity nor the limit suffices.
        rename_i hcapacity hlimit
        have hlongest' : LongestPrefix (bound c) (xs ++ [x]) xs.length := by
          refine .of_next (by rw [hxs]; exact Nat.lt_succ_self _) ?_ ?_
          · rw [total_append_of_le _ _ (le_refl _)]
            exact hlongest.fits
          · rw [hneeded]
            unfold bound
            omega
        refine ⟨⟨_, hlongest', ?_, hrefines.length, ?_⟩, hinitial, hbounded⟩
        · rw [take_append_of_le_length (le_refl _)]
          exact hrefines.chars
        · rw [hxs, if_neg (Nat.ne_of_lt (Nat.lt_succ_self _)), full, hneeded]
      · rename_i hcapacity hlimit
        obtain ⟨hge, hle⟩ := grown_bounds (b.length + x.length)
          ((initialCapacity_pos c).trans_le hinitial)
          (show b.capacity ≤ c.growthLimit by omega)
        refine ⟨⟨_, hfits ?_, hrefines.push (reverse_foldl_cons ..) rfl rfl⟩,
          hinitial.trans hge, hle.trans (Nat.le_max_right ..)⟩
        unfold bound
        omega
  · -- A piece that did not fit has stopped the buffer.
    have hlt : k < xs.length := Nat.lt_of_le_of_ne hlongest.le hk
    have hfailure : b.failure = some (full c xs k) := by rw [hrefines.failure, if_neg hk]
    have hlongest' : LongestPrefix (bound c) (xs ++ [x]) k := by
      refine .of_next (by omega) ?_ ?_
      · rw [total_append_of_le _ _ hlongest.le]
        exact hlongest.fits
      · rw [total_append_of_le _ _ hlt]
        exact hlongest.lt_next hlt
    rw [if_pos (by rw [hfailure]; rfl)]
    refine ⟨⟨k, hlongest', ?_, hrefines.length, ?_⟩, hinitial, hbounded⟩
    · rw [take_append_of_le_length hlongest.le]
      exact hrefines.chars
    · rw [hfailure, if_neg (by omega), full, full, total_append_of_le _ _ hlt]

theorem Fed.foldl (h : b.Fed c xs) (ys : List (List Rune)) :
    (ys.foldl (Buffer.append c.growthLimit) b).Fed c (xs ++ ys) := by
  induction ys generalizing xs b with
  | nil => rwa [append_nil]
  | cons y ys ih =>
    rw [append_cons]
    exact ih (h.append y)

/-- A buffer that has failed stays as it is, whatever comes. -/
theorem foldl_append_of_failed {limit : Nat} (h : b.failure.isSome) (ys : List (List Rune)) :
    ys.foldl (Buffer.append limit) b = b := by
  induction ys with
  | nil => rfl
  | cons y ys ih =>
    have hstays : Buffer.append limit b y = b := by
      unfold Buffer.append
      rw [if_pos h]
    rw [foldl_cons, hstays]
    exact ih

end Buffer

end ObjectKernel
