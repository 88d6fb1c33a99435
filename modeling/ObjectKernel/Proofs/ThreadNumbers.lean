import ObjectKernel.Proofs.Bindings
import ObjectKernel.Proofs.NewTexts

/-!
# Numbers of threads

A thread gets its home, its id and its standing once, when it is initialised or made for a task of the host, and
keeps them from then on. Its home counts the ids that it hands out, and it counts the tasks of the host that it has
adopted. So a thread has the number of the id that it was given, no two threads of a runtime have the same number,
and the count of adopted tasks tells whether there are any.

## Contents

* `World.badge?`: what a thread keeps. `World.SameBadges`: changes that leave it alone.
* `World.KeepsRoll`, `World.Enlisted`, `Instr.exec_enlists`: what an instruction does to badges. `Instr.Enlists`: those
  that give one.
* `World.Roll`, `Machine.Reachable.roll`: the numbers of threads in every run. `World.Roll.eq_of_id`: ids tell threads
  apart as long as there are enough of them.
-/

namespace ObjectKernel

open Function

namespace World

variable {w v u : World} {o : ObjId} {home : RuntimeId}

/-! ## What a thread keeps -/

/-- What a thread keeps that was initialised: its home, its id, and whether it stands for a task of the host. -/
def badge? (w : World) (o : ObjId) : Option (RuntimeId × Int64 × Bool) :=
  (w.thread? o).bind fun t => t.home.map fun home => (home, t.id, t.adopted)

theorem badge?_eq_some {id : Int64} {adopted : Bool} : w.badge? o = some (home, id, adopted) ↔
      ∃ t, w.thread? o = some t ∧ t.home = some home ∧ t.id = id ∧ t.adopted = adopted := by
  unfold badge?
  constructor
  · intro h
    obtain ⟨t, ht, h⟩ := Option.bind_eq_some_iff.mp h
    obtain ⟨home', hhome, h⟩ := Option.map_eq_some_iff.mp h
    cases h
    exact ⟨t, ht, hhome, rfl, rfl⟩
  · rintro ⟨t, ht, hhome, rfl, rfl⟩
    rw [ht, Option.bind_some, hhome, Option.map_some]

theorem badge?_of_none (h : w.thread? o = none) : w.badge? o = none := by
  unfold badge?
  rw [h, Option.bind_none]

/-- Threads wear the badges that they wore. -/
def SameBadges (w v : World) : Prop := ∀ o, v.badge? o = w.badge? o

theorem SameThreads.badges (h : w.SameThreads v) : w.SameBadges v := by
  intro o
  unfold badge?
  rw [h o]

/-! ## What gives badges -/

/-- One more thread has a badge, with the next id of its home, which has counted it. -/
structure Enlisted (w v : World) (home : RuntimeId) (o : ObjId) (adopted : Bool) : Prop where
  new : w.badge? o = none
  badge : v.badge? o = some (home, (w.registry home).nextId.1, adopted)
  others : ∀ p, p ≠ o → v.badge? p = w.badge? p
  ids : ∀ r, (v.registry r).ids = (w.registry r).ids + if home = r then 1 else 0
  wards : ∀ r, (v.registry r).adopted = (w.registry r).adopted + if home = r ∧ adopted then 1 else 0

/-- Nobody has got a badge, and no runtime has taken a number back. -/
structure KeepsRoll (w v : World) : Prop where
  badges : w.SameBadges v
  ids : ∀ r, (w.registry r).ids ≤ (v.registry r).ids
  wards : ∀ r, (v.registry r).adopted = (w.registry r).adopted

theorem SameBadges.keepsRoll (h : w.SameBadges v) (h' : w.SameRegistries v) : w.KeepsRoll v := by
  refine ⟨h, fun r => ?_, fun r => ?_⟩
  · rw [h' r]
  · rw [h' r]

/-- An initialisation gives the thread that is initialised a badge, if there is one. -/
theorem enlists_initThread (hs : w.Sound) (hh : w.Has home) {p c target} (hv : w.initThread home p c target = .ok v) :
    w.KeepsRoll v ∨ ∃ q, p = some q ∧ (w.thread? (w.header q)).isSome ∧ w.Enlisted v home (w.header q) false := by
  have hids (r : RuntimeId) : (v.registry r).ids = (w.registry r).ids + if home = r then 1 else 0 := by
    rw [registry_initThread hh hv]
    by_cases hhome : home = r
    · rw [if_pos hhome, if_pos hhome]
      rfl
    · rw [if_neg hhome, if_neg hhome, Nat.add_zero]
  have hwards (r : RuntimeId) : (v.registry r).adopted = (w.registry r).adopted := by
    rw [registry_initThread hh hv]
    split <;> rfl
  obtain ⟨q, d, rfl, rfl, hunbound, rfl⟩ := initThread_eq hv
  have hthread (o : ObjId) := thread?_modifyThread ((w.bindClass q d).modifyRegistry home fun _ =>
    (w.registry home).nextId.2.nextName.2) (w.header q) o fun t =>
      { t with
        home := some home, self := some q, target, id := (w.registry home).nextId.1
        name := (w.registry home).nextId.2.nextName.1, ended := false }
  have hbound (o : ObjId) : ((w.bindClass q d).modifyRegistry home fun _ =>
      (w.registry home).nextId.2.nextName.2).thread? o = w.thread? o := thread?_bindClass w q d o
  cases ht : w.thread? (w.header q) with
  | none =>
    -- The object is no thread, so that the id is spent in vain.
    refine .inl ⟨?_, fun r => ?_, hwards⟩
    · intro o
      unfold badge?
      rw [hthread, hbound]
      by_cases ho : w.header q = o
      · subst ho
        rw [if_pos rfl, ht]
        rfl
      · rw [if_neg ho]
    · rw [hids]
      exact Nat.le_add_right ..
  | some t =>
    obtain ⟨hnone, hlife⟩ := unstarted_of_unbound hs hunbound ht
    have hadopted : t.adopted = false := congrArg Prod.fst hlife
    refine .inr ⟨q, rfl, by rw [ht]; rfl, ?_, ?_, ?_, hids, ?_⟩
    · unfold badge?
      rw [ht, Option.bind_some, hnone]
      rfl
    · have hnew := hthread (w.header q)
      rw [if_pos rfl, hbound, ht] at hnew
      exact badge?_eq_some.mpr ⟨_, hnew, rfl, rfl, hadopted⟩
    · intro o ho
      unfold badge?
      rw [hthread, if_neg (Ne.symm ho), hbound]
    · intro r
      rw [hwards]
      simp

/-- The adoption of a task that has no thread gives a new one a badge. -/
theorem enlisted_adopt (hh : w.Has home) {task} (hb : (w.registry home).bound? task = none) :
    w.Enlisted (w.adopt home task).2 home w.objects.size true := by
  constructor
  · exact badge?_of_none (thread?_size w)
  · refine badge?_eq_some.mpr ⟨{ w.adoptee home task with self := some w.objects.size }, ?_, rfl, rfl, rfl⟩
    rw [thread?_adopt hb, if_pos rfl]
  · intro o ho
    unfold badge?
    rw [thread?_adopt hb, if_neg (Ne.symm ho)]
  · intro r
    rw [registry_adopt hh hb]
    by_cases hr : home = r
    · rw [if_pos hr, if_pos hr]
      rfl
    · rw [if_neg hr, if_neg hr, Nat.add_zero]
  · intro r
    rw [registry_adopt hh hb]
    by_cases hr : home = r
    · simp [hr]
    · simp [hr]

end World

open World

variable {w : World} {i : Instr} {hand : ObjId → Option Phase}

/-- The instructions that give a thread a badge: they initialise it, or make it for a task. -/
inductive Instr.Enlists (w : World) (home : RuntimeId) : ObjId → Bool → Instr → Prop where
  | initialise {self : ObjId} {c : Option Class} {target : Option ObjId} {v : World}
      (ok : w.initThread home (some self) c target = .ok v)
      (thread : (w.thread? (w.header self)).isSome) :
      Enlists w home (w.header self) false (.initThread home (some self) c target)
  | adopt {task : TaskId} (unbound : (w.registry home).bound? task = none) :
      Enlists w home w.objects.size true (.adopt home task)

/-- An instruction that neither initialises nor adopts gives no badge. -/
theorem Instr.exec_keepsRoll (hi : i.Works hand w) (hinit : ∀ home p c target, i ≠ .initThread home p c target)
    (hadopt : ∀ home id, i ≠ .adopt home id) (task : TaskId) : w.KeepsRoll (i.exec task w).2 := by
  have heffect := i.effect task w
  have hregistry (r : RuntimeId) : ((i.exec task w).2.registry r).ids = (w.registry r).ids ∧
      ((i.exec task w).2.registry r).adopted = (w.registry r).adopted := by
    rcases heffect.registryOf r with hsame | ⟨f, hf, hregistry⟩
    · rw [hsame]
      exact ⟨rfl, rfl⟩
    · rw [hregistry]
      cases hf with
      | initThread => exact absurd rfl (hinit _ _ _ _)
      | adopt => exact absurd rfl (hadopt _ _)
      | rebinds rebinds => cases rebinds <;> exact ⟨rfl, rfl⟩
  refine ⟨fun o => ?_, fun r => (hregistry r).1.ge, fun r => (hregistry r).2⟩
  unfold badge?
  cases hold : w.thread? o with
  | none =>
    cases hnew : (i.exec task w).2.thread? o with
    | none => rfl
    | some t =>
      obtain ⟨-, hnew⟩ := heffect.thread_of_none hold hnew
      cases hnew with
      | adopt => exact absurd rfl (hadopt _ _)
      | allocate =>
        cases hi with
        | allowed allowed =>
          cases allowed
          rfl
      | create =>
        cases hi with
        | allowed allowed =>
          obtain ⟨⟨code, hcode, -⟩, -⟩ := allowed
          cases hcode
  | some t =>
    rcases heffect.thread_of_some hold with hsame | ⟨f, hf, hrevised⟩
    · rw [hsame]
    · rw [hrevised]
      cases hf with
      | initThread => exact absurd rfl (hinit _ _ _ _)
      | reshapes reshapes => cases reshapes <;> rfl

/-- **What an instruction does to badges**: it gives one at most. -/
theorem Instr.exec_enlists (hs : w.Sound) (hi : i.Works hand w) (task : TaskId) : w.KeepsRoll (i.exec task w).2 ∨
      ∃ home o adopted, i.Enlists w home o adopted ∧ w.Enlisted (i.exec task w).2 home o adopted := by
  have hsame : w.KeepsRoll w := SameBadges.keepsRoll (fun _ => rfl) fun _ => rfl
  by_cases hinit : ∃ home p c target, i = .initThread home p c target
  · obtain ⟨home, p, c, target, rfl⟩ := hinit
    cases hi with
    | allowed allowed =>
      show w.KeepsRoll (w.attempt (w.initThread home p c target)).2 ∨
        ∃ r o a, _ ∧ w.Enlisted (w.attempt (w.initThread home p c target)).2 r o a
      cases hv : w.initThread home p c target with
      | error e => exact .inl hsame
      | ok v =>
        rcases enlists_initThread hs allowed.1 hv with hkeeps | ⟨q, rfl, hthread, henlisted⟩
        · exact .inl hkeeps
        · exact .inr ⟨home, _, false, .initialise hv hthread, henlisted⟩
  · by_cases hadopt : ∃ home t, i = .adopt home t
    · obtain ⟨home, t, rfl⟩ := hadopt
      cases hi with
      | allowed allowed =>
        cases hb : (w.registry home).bound? t with
        | some p =>
          left
          show w.KeepsRoll (w.adopt home t).2
          rw [adopt_of_bound hb]
          exact hsame
        | none => exact .inr ⟨home, _, true, .adopt hb, enlisted_adopt allowed hb⟩
    · refine .inl (exec_keepsRoll hi (fun _ _ _ _ h => hinit ⟨_, _, _, _, h⟩) ?_ task)
      exact fun _ _ h => hadopt ⟨_, _, h⟩

/-! ## The roll of a runtime -/

namespace World

/-- The ids of threads are those with the numbers that `serial` tells, out of those that their homes have handed out,
and no two threads of a runtime have the same number. A runtime has counted adopted tasks if it has any. -/
structure Roll (w : World) (serial : ObjId → Nat) : Prop where
  id : ∀ {o home id adopted}, w.badge? o = some (home, id, adopted) → id = Int64.ofNat (serial o)
  pos : ∀ {o home id adopted}, w.badge? o = some (home, id, adopted) → 0 < serial o
  le : ∀ {o home id adopted}, w.badge? o = some (home, id, adopted) → serial o ≤ (w.registry home).ids
  unique : ∀ {o p home id id' adopted adopted'}, w.badge? o = some (home, id, adopted) →
    w.badge? p = some (home, id', adopted') → serial o = serial p → o = p
  wards : ∀ r, 0 < (w.registry r).adopted ↔ ∃ o id, w.badge? o = some (r, id, true)

variable {w v : World} {serial : ObjId → Nat} {o : ObjId} {home : RuntimeId}

/-- A badge more is a number more. -/
theorem Roll.enlisted (h : w.Roll serial) {adopted} (hv : w.Enlisted v home o adopted) :
    v.Roll (update serial o ((w.registry home).ids + 1)) := by
  have hself {r id a} (hb : v.badge? o = some (r, id, a)) :
      r = home ∧ id = Int64.ofNat ((w.registry home).ids + 1) ∧ a = adopted := by
    cases hv.badge.symm.trans hb
    exact ⟨rfl, rfl, rfl⟩
  constructor
  · intro p r id a hb
    by_cases hp : p = o
    · subst hp
      rw [update_self]
      exact (hself hb).2.1
    · rw [update_of_ne hp]
      rw [hv.others p hp] at hb
      exact h.id hb
  · intro p r id a hb
    by_cases hp : p = o
    · subst hp
      rw [update_self]
      exact Nat.succ_pos _
    · rw [update_of_ne hp]
      rw [hv.others p hp] at hb
      exact h.pos hb
  · intro p r id a hb
    rw [hv.ids]
    by_cases hp : p = o
    · subst hp
      rw [update_self, (hself hb).1, if_pos rfl]
    · rw [update_of_ne hp]
      rw [hv.others p hp] at hb
      exact (h.le hb).trans (Nat.le_add_right ..)
  · -- The new number is greater than those that were handed out before.
    have hfresh {p r id a} (hp : p ≠ o) (hb : v.badge? p = some (r, id, a)) (hr : r = home) :
        serial p ≠ (w.registry home).ids + 1 := by
      rw [hv.others p hp] at hb
      have hle := h.le hb
      rw [hr] at hle
      exact Nat.ne_of_lt (Nat.lt_succ_of_le hle)
    intro p q r id id' a a' hb hb' hserial
    by_cases hp : p = o
    · by_cases hq : q = o
      · rw [hp, hq]
      · subst hp
        rw [update_self, update_of_ne hq] at hserial
        exact absurd hserial.symm (hfresh hq hb' (hself hb).1)
    · by_cases hq : q = o
      · subst hq
        rw [update_self, update_of_ne hp] at hserial
        exact absurd hserial (hfresh hp hb (hself hb').1)
      · rw [update_of_ne hp, update_of_ne hq] at hserial
        rw [hv.others p hp] at hb
        rw [hv.others q hq] at hb'
        exact h.unique hb hb' hserial
  · intro r
    rw [hv.wards]
    constructor
    · intro hpos
      by_cases hnew : home = r ∧ adopted = true
      · obtain ⟨rfl, rfl⟩ := hnew
        exact ⟨o, _, hv.badge⟩
      · rw [if_neg hnew, Nat.add_zero] at hpos
        obtain ⟨p, id, hb⟩ := (h.wards r).mp hpos
        have hp : p ≠ o := by
          rintro rfl
          cases hv.new.symm.trans hb
        exact ⟨p, id, (hv.others p hp).trans hb⟩
    · rintro ⟨p, id, hb⟩
      by_cases hp : p = o
      · subst hp
        obtain ⟨rfl, -, rfl⟩ := hself hb
        rw [if_pos ⟨rfl, rfl⟩]
        exact Nat.succ_pos _
      · rw [hv.others p hp] at hb
        exact Nat.add_pos_left ((h.wards r).mpr ⟨p, id, hb⟩) _

theorem Roll.keeps (h : w.Roll serial) (hv : w.KeepsRoll v) : v.Roll serial := by
  constructor
  · intro o r id a hb
    exact h.id ((hv.badges o).symm.trans hb)
  · intro o r id a hb
    exact h.pos ((hv.badges o).symm.trans hb)
  · intro o r id a hb
    exact (h.le ((hv.badges o).symm.trans hb)).trans (hv.ids r)
  · intro o p r id id' a a' hb hb' hserial
    exact h.unique ((hv.badges o).symm.trans hb) ((hv.badges p).symm.trans hb') hserial
  · intro r
    rw [hv.wards, h.wards]
    simp only [hv.badges _]

theorem Fresh.registry (h : w.Fresh) (r : RuntimeId) : w.registry r = {} := by
  unfold World.registry
  split
  · rename_i rt hrt
    exact (h.runtime hrt).2.2
  · rfl

theorem roll_of_fresh (h : w.Fresh) : w.Roll fun _ => 0 := by
  have hnone (o : ObjId) : w.badge? o = none := badge?_of_none (h.thread? o)
  constructor
  · intro o r id a hb
    cases (hnone o).symm.trans hb
  · intro o r id a hb
    cases (hnone o).symm.trans hb
  · intro o r id a hb
    cases (hnone o).symm.trans hb
  · intro o p r id id' a a' hb
    cases (hnone o).symm.trans hb
  · intro r
    rw [h.registry r]
    constructor
    · intro hpos
      cases hpos
    · rintro ⟨o, id, hb⟩
      cases (hnone o).symm.trans hb

/-- Numbers within the range of ids are told apart by their ids. -/
theorem eq_of_int64 {j k} (hj : 0 < j) (hj' : j ≤ UInt64.size) (hk : 0 < k) (hk' : k ≤ UInt64.size)
    (h : Int64.ofNat j = Int64.ofNat k) : j = k := by
  have hsize : UInt64.size = 18446744073709551616 := rfl
  have hmod : j % 18446744073709551616 = k % 18446744073709551616 := by
    have := congrArg (fun x => x.toBitVec.toNat) h
    simpa using this
  omega

/-- **Ids tell the threads of a runtime apart**, unless more have been handed out than there are. -/
theorem Roll.eq_of_id (h : w.Roll serial) {p id a b} (ho : w.badge? o = some (home, id, a))
    (hp : w.badge? p = some (home, id, b)) : o = p ∨ UInt64.size < (w.registry home).ids := by
  by_cases hmany : UInt64.size < (w.registry home).ids
  · exact .inr hmany
  · have hle : (w.registry home).ids ≤ UInt64.size := Nat.le_of_not_lt hmany
    refine .inl (h.unique ho hp ?_)
    apply eq_of_int64 (h.pos ho) ((h.le ho).trans hle) (h.pos hp) ((h.le hp).trans hle)
    exact (h.id ho).symm.trans (h.id hp)

end World

/-- **The threads of every run are numbered.** -/
theorem Machine.Reachable.roll {m : Machine} (h : m.Reachable) : ∃ serial, m.world.Roll serial := by
  refine h.invariant (I := fun w => ∃ serial, w.Roll serial) (fun w hw => ⟨_, roll_of_fresh hw⟩) ?_ ?_
  · rintro w ⟨serial, hroll⟩
    exact ⟨serial, hroll.id, hroll.pos, hroll.le, hroll.unique, hroll.wards⟩
  · rintro m j i k fs task hm hat - ⟨serial, hroll⟩
    obtain ⟨hand, hworks⟩ := hm.works hat
    rcases Instr.exec_enlists hm.sound hworks task with hkeeps | ⟨home, o, adopted, -, henlisted⟩
    · exact ⟨serial, hroll.keeps hkeeps⟩
    · exact ⟨_, hroll.enlisted henlisted⟩

end ObjectKernel
