import Mathlib.Algebra.BigOperators.Fin
import Mathlib.Tactic.Ring
import ObjectKernel.Proofs.InheritedEquality

/-!
# Concatenation

The hash code of a string is a polynomial in 31 whose coefficients are the characters, and it is reckoned in
32 bits, where every step may wrap around. Concatenation appends the characters, within the limit of the
runtime, but takes a short cut when there is nothing to append. The hash code of the result follows from those
of the parts, and it does not matter which of two concatenations comes first.

## Contents

* `CharSeq.polynomial`, `hashCode_eq`, `hashCode_append`: the hash code.
* `CharSeq.concat?`, `concat?_assoc`: what concatenation comes to under a limit.
* `Op.Gives.concat`, `concat_assoc`: what the operation gives.
* `Machine.concatenation_is_homomorphic`.
-/

namespace ObjectKernel

/-! ## Hash codes -/

namespace CharSeq

/-- The characters as the coefficients of a polynomial, at 31. -/
def polynomial (cs : List Rune) : Int := ∑ i : Fin cs.length, (cs.get i).toInt * 31 ^ (cs.length - 1 - i)

theorem polynomial_cons (c : Rune) (cs : List Rune) :
    polynomial (c :: cs) = c.toInt * 31 ^ cs.length + polynomial cs := by
  refine (Fin.sum_univ_succ (n := cs.length) _).trans (congrArg₂ (· + ·) rfl (Fintype.sum_congr _ _ fun i => ?_))
  show (cs.get i).toInt * 31 ^ (cs.length - (i + 1)) = _
  rw [Nat.sub_sub, Nat.add_comm 1]

/-- The loop from any number that it has come to. -/
theorem foldl_hash (cs : List Rune) (h : Int32) :
    cs.foldl (fun h c => 31 * h + c) h = Int32.ofInt (h.toInt * 31 ^ cs.length + polynomial cs) := by
  induction cs generalizing h with
  | nil => simp [polynomial]
  | cons c cs ih =>
    have hstep : 31 * h + c = Int32.ofInt (31 * h.toInt + c.toInt) := by
      rw [Int32.ofInt_add, Int32.ofInt_mul, Int32.ofInt_toInt, Int32.ofInt_toInt]
      rfl
    rw [List.foldl_cons, ih, polynomial_cons, List.length_cons]
    rw [Int32.ofInt_add, Int32.ofInt_mul, Int32.ofInt_toInt, hstep, ← Int32.ofInt_mul, ← Int32.ofInt_add]
    exact congrArg Int32.ofInt (by ring)

/-- **The hash code is the polynomial, reduced to 32 bits.** -/
theorem hashCode_eq (s : CharSeq) : s.hashCode = Int32.ofInt (polynomial s.chars) := by
  refine (foldl_hash s.chars 0).trans (congrArg Int32.ofInt ?_)
  simp

/-- **The hash code of what is appended.** -/
theorem hashCode_append (s t : CharSeq) : (ofRunes (s.chars ++ t.chars)).hashCode =
    Int32.ofInt (s.hashCode.toInt * 31 ^ t.length + t.hashCode.toInt) := by
  have hloop : (ofRunes (s.chars ++ t.chars)).hashCode =
      Int32.ofInt (s.hashCode.toInt * 31 ^ t.length + polynomial t.chars) :=
    List.foldl_append.trans (foldl_hash t.chars s.hashCode)
  rw [hloop, Int32.ofInt_add, ← hashCode_eq, Int32.ofInt_add _ t.hashCode.toInt, Int32.ofInt_toInt]

/-! ## Contents under a limit -/

/-- A limit has room for a number of characters. There is no limit if it is not positive. -/
def Room (limit : Int) (n : Nat) : Prop := limit ≤ 0 ∨ (n : Int) ≤ limit

instance (limit : Int) (n : Nat) : Decidable (Room limit n) := inferInstanceAs (Decidable (_ ∨ _))

/-- What concatenation comes to under a limit: nothing is made if there is nothing to append. -/
def concat? (limit : Int) (s t : CharSeq) : Option CharSeq :=
  if t.chars = [] then some s
  else if Room limit (s.length + t.length) then some (ofRunes (s.chars ++ t.chars)) else none

variable {limit : Int} {s t u : CharSeq}

theorem Room.mono {n k} (h : Room limit n) (hle : k ≤ n) : Room limit k := by
  unfold Room at *
  omega

/-- The limit of valid settings is not negative, so that zero is the one that stands for none. -/
theorem room_iff_of_validate {config : Config} (h : config.validate = .ok ()) (n : Nat) :
    Room config.maxStringLength n ↔ config.maxStringLength = 0 ∨ (n : Int) ≤ config.maxStringLength := by
  unfold Config.validate at h
  split at h
  · cases h
  · unfold Room
    omega

theorem concat?_of_empty (ht : t.chars = []) : concat? limit s t = some s := if_pos ht

theorem concat?_of_room (ht : t.chars ≠ []) (hroom : Room limit (s.length + t.length)) :
    concat? limit s t = some (ofRunes (s.chars ++ t.chars)) := by
  rw [concat?, if_neg ht, if_pos hroom]

theorem concat?_of_not_room (ht : t.chars ≠ []) (hroom : ¬ Room limit (s.length + t.length)) :
    concat? limit s t = none := by
  rw [concat?, if_neg ht, if_neg hroom]

theorem chars_of_concat? (h : concat? limit s t = some u) : u.chars = s.chars ++ t.chars := by
  unfold concat? at h
  split at h
  · rename_i ht
    cases h
    rw [ht, List.append_nil]
  · split at h <;> cases h
    rfl

theorem exists_concat? (hroom : Room limit (s.length + t.length)) :
    ∃ u, concat? limit s t = some u ∧ u.chars = s.chars ++ t.chars := by
  by_cases ht : t.chars = []
  · exact ⟨s, concat?_of_empty ht, by rw [ht, List.append_nil]⟩
  · exact ⟨_, concat?_of_room ht hroom, rfl⟩

/-- **It does not matter which concatenation comes first.** What is made last holds everything that is made
before, so that there is room for all if there is room for that. -/
theorem concat?_assoc (limit : Int) (s t u : CharSeq) :
    (concat? limit s t).bind (concat? limit · u) = (concat? limit t u).bind (concat? limit s) := by
  by_cases hu : u.chars = []
  · simp [concat?_of_empty hu]
  have hlength {x y z : CharSeq} (h : x.chars = y.chars ++ z.chars) : x.length = y.length + z.length := by
    simp [length, h]
  have hother {x y : CharSeq} (h : x.chars = y.chars ++ u.chars) : x.chars ≠ [] := by
    simp [h, hu]
  by_cases hroom : Room limit (s.length + t.length + u.length)
  · obtain ⟨x, hx, hxs⟩ := exists_concat? (hroom.mono (k := s.length + t.length) (by omega))
    obtain ⟨y, hy, hys⟩ := exists_concat? (hroom.mono (k := t.length + u.length) (by omega))
    have hleft : Room limit (x.length + u.length) := by
      rwa [hlength hxs]
    have hright : Room limit (s.length + y.length) := by
      rwa [hlength hys, ← Nat.add_assoc]
    rw [hx, hy, Option.bind_some, Option.bind_some, concat?_of_room hu hleft, concat?_of_room (hother hys) hright,
      hxs, hys, List.append_assoc]
  · -- Neither way has room in the end, whether the first of its strings can be made or not.
    trans none
    · refine Option.bind_eq_none_iff.mpr fun x hx => concat?_of_not_room hu ?_
      rwa [hlength (chars_of_concat? hx)]
    · refine (Option.bind_eq_none_iff.mpr fun y hy => ?_).symm
      have hys := chars_of_concat? hy
      refine concat?_of_not_room (hother hys) ?_
      rwa [hlength hys, ← Nat.add_assoc]

end CharSeq

/-! ## The operation -/

open World CharSeq

/-- A string with a content, or the failure that it is too long if there is none. -/
inductive Holds (w : World) (home : RuntimeId) : Option CharSeq → Except Err ObjId → Prop where
  | text {o : ObjId} {s : CharSeq} (content : w.text? o = some (home, s)) : Holds w home (some s) (.ok o)
  | overflow {e : Err} (fails : e.IsOverflow) : Holds w home none (.error e)

theorem World.fits_iff_room {w : World} {home : RuntimeId} {s : CharSeq} :
    w.Fits home s ↔ Room (w.config home).maxStringLength s.length := by
  unfold Fits Room
  omega

namespace Op.Gives

variable {P : Machine → Turn → Prop} {H : Machine → Prop} {m : Machine} {home : RuntimeId} {a b c : ObjId}
  {s t u : CharSeq}

theorem concat_none (hm : m.Reachable) (ha : m.world.text? a = some (home, s)) :
    Gives P H m (Op.concat a none) fun _ r => r = .ok a := by
  refine (needText hm ha).bind (fun _ hs => ?_) fun _ he => nomatch he
  cases hs
  exact .pure fun _ => rfl

/-- **What concatenation gives**: a string as it should be, and the receiver if there is nothing to append. -/
theorem concat (hm : m.Reachable) (ha : m.world.text? a = some (home, s)) (hb : m.world.text? b = some (home, t)) :
    Gives P H m (Op.concat a (some b)) fun w r =>
      (t.chars = [] → r = .ok a) ∧ Holds w home (concat? (m.world.config home).maxStringLength s t) r := by
  have hhome : m.world.Has home := text?_home hm.sound ha
  refine (needText hm ha).bind (fun {τs n p} hrun hs => ?_) fun _ he => nomatch he
  cases hs
  have hn : n.Reachable := hm.run hrun.run
  refine (needText hn (text?_later (hm.le hrun.run) hb)).bind (fun {τs₁ n₁ p₁} hrun₁ hs => ?_) fun _ he => nomatch he
  cases hs
  have hn₁ : n₁.Reachable := hn.run hrun₁.run
  have hle : m.world ≤ n₁.world := hm.le (hrun.append hrun₁).run
  dsimp only
  by_cases ht : t.chars = []
  · rw [if_pos ht, concat?_of_empty ht]
    exact .pure fun hrun' => ⟨fun _ => rfl, .text (text?_later (hle.trans (hn₁.le hrun'.run)) ha)⟩
  · rw [if_neg ht]
    refine (makeText hn₁ (hhome.later hle) "String.concat" _).imp fun _ hr => ⟨fun hempty => absurd hempty ht, ?_⟩
    have hlength : (ofRunes (s.chars ++ t.chars)).length = s.length + t.length := List.length_append
    rw [fits_later hle hhome, fits_iff_room, hlength] at hr
    rcases hr with ⟨hroom, o, rfl, htext⟩ | ⟨hfull, f, hkind, rfl⟩
    · rw [concat?_of_room ht hroom]
      exact .text htext
    · rw [concat?_of_not_room ht hfull]
      exact .overflow (congrArg some hkind)

/-- A string is made first, and another one from it. -/
theorem bind_holds {x f made g} (hx : Gives P H m x fun w => Holds w home made)
    (hf : ∀ {τs n o s}, Machine.Trace P m τs n → n.world.text? o = some (home, s) →
      Gives P H n (f o) fun w => Holds w home (g s)) : Gives P H m (x >>= f) fun w => Holds w home (made.bind g) := by
  refine hx.bind (fun hrun hr => ?_) fun _ he => ?_
  · cases hr with
    | text content => exact hf hrun content
  · cases he with
    | overflow fails => exact .overflow fails

/-- **Two concatenations, in either order.** -/
theorem concat_assoc (hm : m.Reachable) (ha : m.world.text? a = some (home, s)) (hb : m.world.text? b = some (home, t))
    (hc : m.world.text? c = some (home, u)) : ∃ made,
      Gives P H m (do let x ← Op.concat a (some b); Op.concat x (some c)) (fun w => Holds w home made) ∧
      Gives P H m (do let x ← Op.concat b (some c); Op.concat a (some x)) fun w => Holds w home made := by
  have hhome : m.world.Has home := text?_home hm.sound ha
  -- The limit is the same whenever the second of the two begins.
  obtain ⟨limit, hlimit⟩ : ∃ limit, (m.world.config home).maxStringLength = limit := ⟨_, rfl⟩
  have hlater {τs n x y v z} (hrun : Machine.Trace P m τs n) (hx : n.world.text? x = some (home, v))
      (hy : n.world.text? y = some (home, z)) : Gives P H n (Op.concat x (some y)) fun w =>
        Holds w home (concat? limit v z) := by
    rw [← hlimit, ← config_later (hm.le hrun.run) hhome]
    exact (concat (hm.run hrun.run) hx hy).imp fun _ hr => hr.2
  refine ⟨(concat? limit s t).bind (concat? limit · u), ?_, ?_⟩
  · refine .bind_holds (hlater (.refl m) ha hb) fun hrun hx => ?_
    exact hlater hrun hx (text?_later (hm.le hrun.run) hc)
  · rw [concat?_assoc]
    refine .bind_holds (hlater (.refl m) hb hc) fun hrun hx => ?_
    exact hlater hrun (text?_later (hm.le hrun.run) ha) hx

end Op.Gives

namespace Machine

variable {m : Machine} {home : RuntimeId} {a : ObjId} {s : CharSeq}

/-- **Concatenation and hash codes are homomorphic.** Take any string. Its hash code is the polynomial in 31 of
its characters, reduced to 32 bits, and that is what `hashCode()` answers. A concatenation with nothing, or with
an empty string of the same runtime, gives the string itself. With any other it gives a string if there is room
for both, whose characters are those of the one followed by those of the other and whose hash code follows from
theirs, and fails with an overflow otherwise. Of two concatenations it does not matter which comes first: both
ways come to the same characters and the same text, or fail. -/
theorem concatenation_is_homomorphic (hm : m.Reachable) (ha : m.world.text? a = some (home, s))
    (P : Machine → Turn → Prop) (H : Machine → Prop) :
    s.hashCode = Int32.ofInt (∑ i : Fin s.length, (s.chars.get i).toInt * 31 ^ (s.length - 1 - i)) ∧
    (∀ r, Op.Gives P H m (Op.dispatch r (some a) Selector.hashCode []) fun _ v => v = .ok (.ofInt32 s.hashCode)) ∧
    ((m.world.config home).validate = .ok () → ∀ n, Room (m.world.config home).maxStringLength n ↔
      (m.world.config home).maxStringLength = 0 ∨ (n : Int) ≤ (m.world.config home).maxStringLength) ∧
    (Op.Gives P H m (Op.concat a none) fun _ r => r = .ok a) ∧
    ∀ {b t}, m.world.text? b = some (home, t) →
      (t.chars = [] → Op.Gives P H m (Op.concat a (some b)) fun _ r => r = .ok a) ∧
      (t.chars ≠ [] → Op.Gives P H m (Op.concat a (some b)) fun w r =>
        (Room (m.world.config home).maxStringLength (s.length + t.length) ∧ ∃ o u,
          r = .ok o ∧ w.text? o = some (home, u) ∧ u.chars = s.chars ++ t.chars ∧
          u.hashCode = Int32.ofInt (s.hashCode.toInt * 31 ^ t.length + t.hashCode.toInt)) ∨
        (¬ Room (m.world.config home).maxStringLength (s.length + t.length) ∧ ∃ e, r = .error e ∧ e.IsOverflow)) ∧
      ∀ {c u}, m.world.text? c = some (home, u) → ∃ made,
        Op.Gives P H m (do let x ← Op.concat a (some b); Op.concat x (some c)) (fun w => Holds w home made) ∧
        Op.Gives P H m (do let x ← Op.concat b (some c); Op.concat a (some x)) fun w => Holds w home made := by
  refine ⟨hashCode_eq s, fun r => gives_hashCode hm ha r, room_iff_of_validate, .concat_none hm ha,
    fun {b t} hb => ⟨fun ht => ?_, fun ht => ?_, fun hc => Op.Gives.concat_assoc hm ha hb hc⟩⟩
  · exact (Op.Gives.concat hm ha hb).imp fun _ hr => hr.1 ht
  · refine (Op.Gives.concat hm ha hb).imp fun _ hr => ?_
    by_cases hroom : Room (m.world.config home).maxStringLength (s.length + t.length)
    · rw [concat?_of_room ht hroom] at hr
      cases hr.2 with
      | text content => exact .inl ⟨hroom, _, _, rfl, content, rfl, hashCode_append s t⟩
    · rw [concat?_of_not_room ht hroom] at hr
      cases hr.2 with
      | overflow fails => exact .inr ⟨hroom, _, rfl, fails⟩

/-- One task makes two strings that just fit together, and another one is about to concatenate them. -/
def writing : Machine where
  world := World.single { maxStringLength := 3 } 2
  tasks := #[{ id := 0, prog := (do let _ ← Op.newText (some 0) "ab"; let _ ← Op.newText (some 0) "c").toProgUnit },
    { id := 1, prog := (do return .ofObject (← Op.concat 0 (some 1)) : Op Value).toProg }]

theorem initial_writing : writing.Initial := initial_launch

/-- The machine with the two strings. -/
def written : Machine := writing.after (fun _ _ => true) (List.replicate 2 (.step 0))

theorem concatenation_is_homomorphic_written : written.Reachable ∧
    written.world.text? 0 = some (0, .ofBytes "ab") ∧ written.world.text? 1 = some (0, .ofBytes "c") ∧
    written.At 1 (do return .ofObject (← Op.concat 0 (some 1)) : Op Value).toProg [] ∧
    Op.Gives (fun _ _ => True) (fun _ => False) written (Op.concat 0 (some 1)) fun w r =>
      ∃ o u, r = .ok o ∧ w.text? o = some (0, u) ∧ u.chars = Utf8.decode "abc" ∧ u.hashCode = 96354 := by
  have hrun : Trace (fun _ _ => True) writing _ written :=
    follow_trace (fun _ => trivial) (follow_eq_after (by decide +kernel))
  have hreach := initial_writing.reachable.run hrun.run
  have hab : written.world.text? 0 = some (0, .ofBytes "ab") := by decide +kernel
  have hc : written.world.text? 1 = some (0, .ofBytes "c") := by decide +kernel
  refine ⟨hreach, hab, hc, ⟨_, rfl, rfl, rfl⟩, ?_⟩
  obtain ⟨-, -, -, -, hconcat⟩ := concatenation_is_homomorphic hreach hab (fun _ _ => True) fun _ => False
  refine ((hconcat hc).2.1 (by decide +kernel)).imp fun _ hr => ?_
  rcases hr with ⟨-, o, u, rfl, htext, hchars, hhash⟩ | ⟨hfull, -⟩
  · refine ⟨o, u, rfl, htext, ?_, ?_⟩
    · rw [hchars]
      decide +kernel
    · rw [hhash]
      decide +kernel
  · exact absurd (show Room 3 3 from .inr (by decide)) hfull

end Machine

end ObjectKernel
