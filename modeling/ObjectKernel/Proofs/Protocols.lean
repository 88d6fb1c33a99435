import Mathlib.Data.Nat.Find
import ObjectKernel.Proofs.Calls

/-!
# Tasks that work together

A task whose program depends on what other tasks do is shown to be right under an agreement. Each task has a
part in it: what it holds, and what it therefore knows of the world whatever the others do. This module says
what it takes for a program to follow the agreement, and what comes of machines all of whose tasks do: they
have no endless runs, they come to a standstill only when they are done, and what is agreed on for the end of
the first task holds then.

Only the first task starts others and waits for them.

## Contents

* `Protocol`: agreements. `Protocol.Knows`, `Protocol.Acts`, `Protocol.Splits`, `Protocol.Waits`: what they
  leave to a task.
* `Protocol.Allows`, `Protocol.Keeps`: what a task may do next, and programs that keep to that till their end.
  `Machine.turn_of_allows`: a turn of such a task.
* `Machine.Abides`: all tasks do. `Machine.Abides.take`, `Machine.Abides.trace`: they go on doing so.
  `Machine.Abides.finite`, `Machine.Abides.finished`, `Machine.Abides.ends`: what comes of it.
-/

namespace ObjectKernel

open Function

/-- What an instruction prints. -/
def Instr.prints : Instr → List Bytes
  | .edit (.print b) => [b]
  | _ => []

/-- What a program prints with its next step. -/
def Prog.prints : Prog → List Bytes
  | .perform i _ => i.prints
  | _ => []

/-- An agreement between tasks. -/
structure Protocol where
  /-- What a task has to do with it at a time. -/
  Part : Type
  /-- The parts of all tasks fit together in a world. -/
  Joint : (Nat → Option Part) → World → Prop
  /-- How a task may end. -/
  Ends : Part → World → Outcome → Prop
  /-- What a task with a part has printed. -/
  shown : Part → List Bytes

namespace Protocol

/-- What a task with a part knows of the world, whatever parts the others have. -/
def Knows (A : Protocol) (a : A.Part) (w : World) : Prop := ∃ P j, A.Joint P w ∧ P j = some a

/-- A task may take on another part. -/
structure Shifts (A : Protocol) (a : A.Part) (w : World) (b : A.Part) : Prop where
  shown : A.shown b = A.shown a
  joint : ∀ {P : Nat → Option A.Part} {j : Nat}, A.Joint P w → P j = some a →
    A.Joint (update P j (some b)) w

/-- A task may perform an instruction, and has another part then. -/
structure Acts (A : Protocol) (id : TaskId) (a : A.Part) (w : World) (i : Instr) (b : A.Part) : Prop where
  shown : A.shown b = A.shown a ++ i.prints
  joint : ∀ {P : Nat → Option A.Part} {j : Nat}, A.Joint P w → P j = some a →
    A.Joint (update P j (some b)) (i.exec id w).2

/-- A task may start another one, and the two have these parts then. Tasks are numbered in the order of
their start. -/
structure Splits (A : Protocol) (a : A.Part) (w : World) (b c : A.Part) : Prop where
  shown : A.shown b = A.shown a
  joint : ∀ {P : Nat → Option A.Part} {j n : Nat}, A.Joint P w → P j = some a →
    (∀ k, P k = none ↔ n ≤ k) →
    A.Joint (update (update P j (some b)) n (some c)) { w with tasks := w.tasks + 1 }

/-- A task may wait for a condition: it is the first one, and the condition holds when the others are done. -/
def Waits (A : Protocol) (a : A.Part) (c : Condition) : Prop :=
  ∀ {P : Nat → Option A.Part} {w : World} {j : Nat}, A.Joint P w → P j = some a →
    j = 0 ∧ ((∀ k b, k ≠ 0 → P k = some b → ∃ out, A.Ends b w out) → c.holds w)

variable {A : Protocol} {S : A.Part → World → ObjId → Prop} {id : TaskId}
  {Y : A.Part → World → Prog → List Frame → Prop} {a : A.Part} {w : World} {p : Prog} {fs : List Frame}

theorem Shifts.refl (a : A.Part) (w : World) : A.Shifts a w a := by
  refine ⟨rfl, fun hP ha => ?_⟩
  rwa [← ha, update_eq_self]

/-- What a task may do next, if what it comes to is as `X` says. It has last seen the world `w`, and what it
starts is as `S` says. -/
inductive Allows (A : Protocol) (S : A.Part → World → ObjId → Prop) (id : TaskId)
    (X : A.Part → World → Prog → List Frame → Prop) : A.Part → World → Prog → List Frame → Prop where
  | finished {a : A.Part} {w : World} {out : Outcome} (ends : ∀ v, w.Next v → A.Knows a v → A.Ends a v out) :
      Allows A S id X a w (.finish out) []
  | resume {a : A.Part} {w : World} {out : Outcome} {f : Frame} {fs : List Frame}
      (next : X a w (f.resume out) fs) : Allows A S id X a w (.finish out) (f :: fs)
  | observe {a : A.Part} {w : World} {f : TaskId → World → Prog} {fs : List Frame}
      (next : ∀ v, w.Next v → A.Knows a v → ∃ b, A.Shifts a v b ∧ X b v (f id v) fs) :
      Allows A S id X a w (.observe f) fs
  | perform {a : A.Part} {w : World} {i : Instr} {k : i.Answer → Prog} {fs : List Frame}
      (next : ∀ v, w.Next v → A.Knows a v → v.Next (i.exec id v).2 →
        ∃ b, A.Acts id a v i b ∧ X b (i.exec id v).2 (k (i.exec id v).1) fs) :
      Allows A S id X a w (.perform i k) fs
  | await {a : A.Part} {w : World} {c : Condition} {bound : Option Expiry} {k : Bool → Prog}
      {fs : List Frame} (waits : A.Waits a c)
      (next : ∀ v, w.Next v → A.Knows a v → c.holds v → ∃ b, A.Shifts a v b ∧ X b v (k true) fs)
      (expired : ∀ v, w.Next v → A.Knows a v → bound.isSome → X a v (k false) fs) :
      Allows A S id X a w (.await c bound k) fs
  | call {a : A.Part} {w : World} {act : Activation} {k : Except Err Value → Prog} {fs : List Frame}
      (next : X a w act.program (.caller k :: fs)) : Allows A S id X a w (.call act k) fs
  | guard {a : A.Part} {w : World} {body : Prog} {k : Outcome → Prog} {fs : List Frame}
      (next : X a w body (.guard k :: fs)) : Allows A S id X a w (.guard body k) fs
  | pause {a : A.Part} {w : World} {k : Prog} {fs : List Frame} (next : X a w k fs) :
      Allows A S id X a w (.pause k) fs
  | spawn {a : A.Part} {w : World} {o : ObjId} {k : Prog} {fs : List Frame}
      (next : ∀ v, w.Next v → A.Knows a v → ∃ b c, A.Splits a v b c ∧ S c v o ∧
        X b { v with tasks := v.tasks + 1 } k fs) : Allows A S id X a w (.spawn o k) fs

theorem Allows.imp {X : A.Part → World → Prog → List Frame → Prop} (hXY : ∀ {a w p fs}, X a w p fs → Y a w p fs)
    (h : Allows A S id X a w p fs) : Allows A S id Y a w p fs := by
  cases h with
  | finished ends => exact .finished ends
  | resume next => exact .resume (hXY next)
  | observe next =>
    refine .observe fun v hv hk => ?_
    obtain ⟨b, hshifts, hX⟩ := next v hv hk
    exact ⟨b, hshifts, hXY hX⟩
  | perform next =>
    refine .perform fun v hv hk hn => ?_
    obtain ⟨b, hacts, hX⟩ := next v hv hk hn
    exact ⟨b, hacts, hXY hX⟩
  | await waits next expired =>
    refine .await waits (fun v hv hk hc => ?_) fun v hv hk hb => hXY (expired v hv hk hb)
    obtain ⟨b, hshifts, hX⟩ := next v hv hk hc
    exact ⟨b, hshifts, hXY hX⟩
  | call next => exact .call (hXY next)
  | guard next => exact .guard (hXY next)
  | pause next => exact .pause (hXY next)
  | spawn next =>
    refine .spawn fun v hv hk => ?_
    obtain ⟨b, c, hsplits, hS, hX⟩ := next v hv hk
    exact ⟨b, c, hsplits, hS, hXY hX⟩

/-- A program that keeps to an agreement till its end, and comes to its end. -/
inductive Keeps (A : Protocol) (S : A.Part → World → ObjId → Prop) (id : TaskId) :
    A.Part → World → Prog → List Frame → Prop where
  | intro {a : A.Part} {w : World} {p : Prog} {fs : List Frame}
      (X : A.Part → World → Prog → List Frame → Prop)
      (later : ∀ a w p fs, X a w p fs → Keeps A S id a w p fs) (allows : Allows A S id X a w p fs) :
      Keeps A S id a w p fs

theorem Keeps.of_allows (h : Allows A S id (Keeps A S id) a w p fs) : Keeps A S id a w p fs :=
  .intro (Keeps A S id) (fun _ _ _ _ h => h) h

theorem Keeps.allows (h : Keeps A S id a w p fs) : Allows A S id (Keeps A S id) a w p fs := by
  cases h with
  | intro X later allows => exact allows.imp (later _ _ _ _)

/-- What holds before a step if it holds after it holds of programs that follow an agreement. -/
theorem Keeps.induct
    (hY : ∀ {a w p fs}, Allows A S id (fun a w p fs => Keeps A S id a w p fs ∧ Y a w p fs) a w p fs → Y a w p fs)
    (h : Keeps A S id a w p fs) : Y a w p fs := by
  induction h with
  | intro X later allows ih => exact hY (allows.imp fun hX => ⟨later _ _ _ _ hX, ih _ _ _ _ hX⟩)

/-- Nothing is started. -/
def Childless (A : Protocol) : A.Part → World → ObjId → Prop := fun _ _ _ => False

/-- What is started for a thread keeps to the agreement, and starts nothing. -/
def Parental (A : Protocol) (c : A.Part) (v : World) (o : ObjId) : Prop :=
  Keeps A A.Childless v.tasks c { v with tasks := v.tasks + 1 } (Activation.thread o).program []

/-- What tasks may start: the first one tasks that start nothing. -/
def starts (A : Protocol) (j : Nat) : A.Part → World → ObjId → Prop :=
  if j = 0 then A.Parental else A.Childless

end Protocol

namespace Machine

open Protocol

variable {t : Task} {m : Machine} {τ : Turn} {j : Nat}

/-- What a turn of a task prints. -/
def prints (j : Nat) (m : Machine) (τ : Turn) : List Bytes :=
  match m.tasks[j]? with
  | some t => if τ.task = j then t.prog.prints else []
  | none => []

theorem prints_self (ht : m.tasks[τ.task]? = some t) : m.prints τ.task τ = t.prog.prints := by
  unfold prints
  rw [ht]
  exact if_pos rfl

theorem prints_of_ne (h : τ.task ≠ j) : m.prints j τ = [] := by
  unfold prints
  split
  · exact if_neg h
  · rfl

variable {A : Protocol} {S : A.Part → World → ObjId → Prop} {P : Nat → Option A.Part}
  {m n : Machine} {τ : Turn}

theorem Reachable.next_take (hm : m.Reachable) (hτ : m.take τ = some n) : m.world.Next n.world :=
  ⟨hm.le_take hτ, (hm.take hτ).sound⟩

/-- How the parts of tasks change with a turn of one of them. -/
structure Turned (A : Protocol) (S : A.Part → World → ObjId → Prop) (j : Nat) (m : Machine)
    (P : Nat → Option A.Part) (n : Machine) (Q : Nat → Option A.Part) : Prop where
  joint : A.Joint Q n.world
  others : ∀ k, k ≠ j → k < m.tasks.size → Q k = P k
  beyond : ∀ k, Q k = none ↔ n.tasks.size ≤ k
  child : ∀ {k : Nat} {t : Task}, m.tasks.size ≤ k → n.tasks[k]? = some t → ∃ o c, S c m.world o ∧ Q k = some c ∧
    t = { id := m.world.tasks, prog := (Activation.thread o).program } ∧
    n.world = { m.world with tasks := m.world.tasks + 1 }

/-- A task has a part, and stands at a program as `X` says. -/
def Plays (X : A.Part → World → Prog → List Frame → Prop) (m : Machine) (P : Nat → Option A.Part)
    (j : Nat) (id : TaskId) (a : A.Part) : Prop :=
  P j = some a ∧ ∃ w p fs, m.tasks[j]? = some ⟨id, p, fs⟩ ∧ w.Next m.world ∧ X a w p fs

/-- A turn in which no task is started. -/
theorem turned_put {v} (q : Prog) (gs : List Frame) {b} (hbeyond : ∀ k, P k = none ↔ m.tasks.size ≤ k)
    (hj : j < m.tasks.size) (hQ : A.Joint (update P j (some b)) v) :
    Turned A S j m P (m.put j t v q gs) (update P j (some b)) := by
  have hsize : (m.put j t v q gs).tasks.size = m.tasks.size := Array.size_setIfInBounds
  refine ⟨hQ, fun k hk _ => update_of_ne hk .., fun k => ?_, fun {k u} hk hu => ?_⟩
  · rw [hsize]
    by_cases hk : k = j
    · subst hk
      rw [update_self]
      exact ⟨nofun, fun hle => absurd hj (Nat.not_lt_of_le hle)⟩
    · rw [update_of_ne hk]
      exact hbeyond k
  · have hlt := lt_of_task hu
    omega

/-- **A turn of a task that keeps to an agreement.** -/
theorem turn_of_allows (hm : m.Reachable) (hP : A.Joint P m.world) (hbeyond : ∀ k, P k = none ↔ m.tasks.size ≤ k)
    (hτ : m.take τ = some n) (ht : m.tasks[τ.task]? = some t) {a} {w : World} (ha : P τ.task = some a)
    (hw : w.Next m.world) {X : A.Part → World → Prog → List Frame → Prop}
    (h : Allows A S t.id X a w t.prog t.frames) :
    ∃ Q b, Turned A S τ.task m P n Q ∧ n.Plays X Q τ.task t.id b ∧ A.shown b = A.shown a ++ m.prints τ.task τ := by
  have hj := lt_of_task ht
  have hnext := hm.next_take hτ
  have hknows : A.Knows a m.world := ⟨P, τ.task, hP, ha⟩
  obtain ⟨t', ht', hcases⟩ := take_cases hτ
  cases ht.symm.trans ht'
  obtain ⟨id, p, fs⟩ := t
  rw [prints_self ht]
  dsimp only at h ⊢
  rcases hcases with ⟨v, q, gs, hgo, rfl⟩ | ⟨o, k, -, hspawn, rfl⟩
  · have hat : (m.put τ.task ⟨id, p, fs⟩ v q gs).tasks[τ.task]? = some ⟨id, q, gs⟩ := task_put_self ht ..
    have hshift (w' : World) (b : A.Part) (hv : v = m.world) (hw' : w'.Next m.world)
        (hb : A.Shifts a m.world b) (hX : X b w' q gs) (hnone : p.prints = []) :
        ∃ Q b, Turned A S τ.task m P (m.put τ.task ⟨id, p, fs⟩ v q gs) Q ∧
          (m.put τ.task ⟨id, p, fs⟩ v q gs).Plays X Q τ.task id b ∧
          A.shown b = A.shown a ++ p.prints := by
      subst hv
      rw [hnone, List.append_nil]
      exact ⟨update P τ.task (some b), b, turned_put q gs hbeyond hj (hb.joint hP ha),
        ⟨update_self .., w', q, gs, hat, hw', hX⟩, hb.shown⟩
    have hsame := fun w' hv hw' hX hnone => hshift w' a hv hw' (.refl a m.world) hX hnone
    dsimp only at hgo
    generalize τ.isExpiry = expired at hgo
    cases h with
    | finished => cases hgo
    | resume next =>
      cases hgo
      exact hsame w rfl hw next rfl
    | observe next =>
      cases hgo
      obtain ⟨b, hshifts, hX⟩ := next _ hw hknows
      exact hshift m.world b rfl (.refl hm.sound) hshifts hX rfl
    | perform next =>
      cases hgo
      obtain ⟨b, hacts, hX⟩ := next _ hw hknows hnext
      exact ⟨update P τ.task (some b), b, turned_put _ _ hbeyond hj (hacts.joint hP ha),
        ⟨update_self .., _, _, _, hat, .refl hnext.sound, hX⟩, hacts.shown⟩
    | await waits next expired =>
      cases hgo with
      | await holds =>
        obtain ⟨b, hshifts, hX⟩ := next _ hw hknows holds
        exact hshift m.world b rfl (.refl hm.sound) hshifts hX rfl
      | expire => exact hsame m.world rfl (.refl hm.sound) (expired _ hw hknows rfl) rfl
    | call next =>
      cases hgo
      exact hsame w rfl hw next rfl
    | guard next =>
      cases hgo
      exact hsame w rfl hw next rfl
    | pause next =>
      cases hgo
      exact hsame w rfl hw next rfl
    | spawn => cases hgo
  · dsimp only at hspawn
    subst hspawn
    cases h with
    | spawn next =>
      obtain ⟨b, c, hsplits, hS, hX⟩ := next _ hw hknows
      have hsize : (m.fork τ.task ⟨id, .spawn o k, fs⟩ o k).tasks.size = m.tasks.size + 1 := by
        unfold fork
        rw [Array.size_push, Array.size_setIfInBounds]
      refine ⟨update (update P τ.task (some b)) m.tasks.size (some c), b,
        ⟨hsplits.joint hP ha hbeyond, fun k hk hlt => ?_, fun k => ?_, fun {k u} hk hu => ?_⟩,
        ⟨?_, _, k, fs, task_fork_self ht .., .refl hnext.sound, hX⟩, ?_⟩
      · rw [update_of_ne (Nat.ne_of_lt hlt), update_of_ne hk]
      · rw [hsize]
        by_cases hlast : k = m.tasks.size
        · subst hlast
          rw [update_self]
          exact ⟨nofun, fun hle => absurd hle (Nat.not_succ_le_self _)⟩
        · rw [update_of_ne hlast]
          by_cases hk : k = τ.task
          · subst hk
            rw [update_self]
            exact ⟨nofun, fun hle => absurd hj (by omega)⟩
          · rw [update_of_ne hk, hbeyond k]
            omega
      · have hlt := lt_of_task hu
        have hlast : k = m.tasks.size := by omega
        subst hlast
        refine ⟨o, c, hS, update_self .., ?_, rfl⟩
        cases (task_fork_last m τ.task ⟨id, .spawn o k, fs⟩ o k).symm.trans hu
        rfl
      · rw [update_of_ne (Nat.ne_of_lt hj), update_self]
      · rw [hsplits.shown]
        exact (List.append_nil _).symm

/-! ## Machines that keep to an agreement -/

/-- All tasks of a machine keep to an agreement, with parts that fit together. -/
structure Abides (A : Protocol) (m : Machine) (P : Nat → Option A.Part) : Prop where
  joint : A.Joint P m.world
  beyond : ∀ k, P k = none ↔ m.tasks.size ≤ k
  task : ∀ {j : Nat} {t : Task}, m.tasks[j]? = some t →
    ∃ a, m.Plays (Keeps A (A.starts j) t.id) P j t.id a

namespace Abides

variable {Q : Nat → Option A.Part} {id : TaskId} {j : Nat} {a : A.Part}

/-- After a turn of one task, the others keep to the agreement as before. -/
theorem of_turned (h : m.Abides A P) (hm : m.Reachable) (hτ : m.take τ = some n)
    (hturned : Turned A (A.starts τ.task) τ.task m P n Q) {b}
    (hown : n.Plays (Keeps A (A.starts τ.task) id) Q τ.task id b) : n.Abides A Q := by
  have hnext := hm.next_take hτ
  refine ⟨hturned.joint, hturned.beyond, fun {j t} ht => ?_⟩
  by_cases hj : j = τ.task
  · subst hj
    obtain ⟨hb, w, p, fs, ht', hw, hp⟩ := hown
    cases ht.symm.trans ht'
    exact ⟨b, hb, w, p, fs, ht', hw, hp⟩
  · by_cases hlt : j < m.tasks.size
    · have hold : m.tasks[j]? = some m.tasks[j] := Array.getElem?_eq_getElem hlt
      have hstays := task_of_ne hτ (Ne.symm hj) hold
      obtain ⟨a, ha, w, p, fs, ht', hw, hp⟩ := h.task hold
      cases ht.symm.trans hstays
      rw [hold] at ht'
      obtain ⟨-, rfl, rfl⟩ := Task.mk.inj (Option.some.inj ht')
      exact ⟨a, (hturned.others j hj hlt).trans ha, w, _, _, ht, hw.trans hnext, hp⟩
    · obtain ⟨o, c, hstart, hc, rfl, hworld⟩ := hturned.child (Nat.le_of_not_lt hlt) ht
      obtain ⟨t', ht', -⟩ := take_cases hτ
      have hpos : 0 < j := Nat.lt_of_le_of_lt (Nat.zero_le _) (Nat.lt_of_lt_of_le (lt_of_task ht') (Nat.le_of_not_lt hlt))
      unfold starts at hstart
      split at hstart
      · have hleaf : A.starts j = A.Childless := if_neg (Nat.ne_of_gt hpos)
        rw [hleaf]
        refine ⟨c, hc, n.world, _, _, ht, .refl hnext.sound, ?_⟩
        rw [hworld]
        exact hstart
      · exact hstart.elim

/-- **A turn keeps to the agreement.** -/
theorem take (h : m.Abides A P) (hm : m.Reachable) (hτ : m.take τ = some n) :
    ∃ Q, n.Abides A Q ∧ (∀ k, k ≠ τ.task → k < m.tasks.size → Q k = P k) ∧
      ∀ j a, P j = some a → ∃ b, Q j = some b ∧ A.shown b = A.shown a ++ m.prints j τ := by
  obtain ⟨t, ht, -⟩ := take_cases hτ
  obtain ⟨a, ha, w, p, fs, ht', hw, hp⟩ := h.task ht
  rw [ht] at ht'
  obtain ⟨-, rfl, rfl⟩ := Task.mk.inj (Option.some.inj ht')
  obtain ⟨Q, b, hturned, hown, hshown⟩ := turn_of_allows hm h.joint h.beyond hτ ht ha hw hp.allows
  refine ⟨Q, h.of_turned hm hτ hturned hown, hturned.others, fun j c hc => ?_⟩
  by_cases hj : j = τ.task
  · subst hj
    cases ha.symm.trans hc
    exact ⟨b, hown.1, hshown⟩
  · have hlt : j < m.tasks.size := by
      by_contra hge
      cases ((h.beyond j).mpr (Nat.le_of_not_lt hge)).symm.trans hc
    refine ⟨c, (hturned.others j hj hlt).trans hc, ?_⟩
    rw [prints_of_ne (Ne.symm hj), List.append_nil]

/-- A run keeps to the agreement. -/
theorem trace (h : m.Abides A P) (hm : m.Reachable) {R : Machine → Turn → Prop} {τs} (hrun : Trace R m τs n) :
    ∃ Q, n.Abides A Q ∧
      ∀ j a, P j = some a → ∃ b, Q j = some b ∧ A.shown b = A.shown a ++ m.record (prints j) τs := by
  induction hrun generalizing P with
  | refl m => exact ⟨P, h, fun j a ha => ⟨a, ha, (List.append_nil _).symm⟩⟩
  | @cons m q n τ τs _ move _ ih =>
    obtain ⟨P', hq, -, hfirst⟩ := h.take hm move
    obtain ⟨Q, hn, hrest⟩ := ih hq (hm.take move)
    refine ⟨Q, hn, fun j a ha => ?_⟩
    obtain ⟨b, hb, hshown⟩ := hfirst j a ha
    obtain ⟨c, hc, hshown'⟩ := hrest j b hb
    refine ⟨c, hc, ?_⟩
    rw [record_cons _ move, hshown', hshown, List.append_assoc]

/-! ### No run is endless -/

/-- Only the first task starts others. -/
theorem size_eq (h : m.Abides A P) (hτ : m.take τ = some n) (h0 : τ.task ≠ 0) : n.tasks.size = m.tasks.size := by
  obtain ⟨t, ht, ⟨v, q, gs, -, rfl⟩ | ⟨o, k, -, hspawn, -⟩⟩ := take_cases hτ
  · exact Array.size_setIfInBounds
  · obtain ⟨a, ha, w, p, fs, ht', hw, hp⟩ := h.task ht
    rw [ht] at ht'
    obtain ⟨-, rfl, rfl⟩ := Task.mk.inj (Option.some.inj ht')
    have hallows := hp.allows
    rw [hspawn] at hallows
    cases hallows with
    | spawn next =>
      obtain ⟨b, c, -, hstart, -⟩ := next _ hw ⟨P, τ.task, h.joint, ha⟩
      unfold starts at hstart
      rw [if_neg h0] at hstart
      exact hstart.elim

/-- A run without an end. -/
def Endless (σ : Nat → Machine) (τ : Nat → Turn) : Prop := ∀ t, (σ t).take (τ t) = some (σ (t + 1))

variable {σ : Nat → Machine} {turn : Nat → Turn}

theorem reachable_endless (hrun : Endless σ turn) (h0 : (σ 0).Reachable) (t : Nat) : (σ t).Reachable := by
  induction t with
  | zero => exact h0
  | succ t ih => exact ih.take (hrun t)

/-- A task keeps its part while only others have turns. -/
theorem idle (hrun : Endless σ turn) (h0 : (σ 0).Reachable) {t} (h : (σ t).Abides A P)
    {X : A.Part → World → Prog → List Frame → Prop} (hown : (σ t).Plays X P j id a) (d : Nat)
    (hidle : ∀ s, t ≤ s → s < t + d → (turn s).task ≠ j) :
    ∃ Q, (σ (t + d)).Abides A Q ∧ (σ (t + d)).Plays X Q j id a := by
  induction d with
  | zero => exact ⟨P, h, hown⟩
  | succ d ih =>
    obtain ⟨Q, hQ, hb, w, p, fs, ht, hw, hX⟩ := ih fun s hs hlt => hidle s hs (by omega)
    have hne : (turn (t + d)).task ≠ j := hidle (t + d) (by omega) (by omega)
    have hreach := reachable_endless hrun h0 (t + d)
    obtain ⟨Q', hQ', hothers, -⟩ := hQ.take hreach (hrun (t + d))
    refine ⟨Q', hQ', (hothers j (Ne.symm hne) (lt_of_task ht)).trans hb, w, p, fs, ?_, ?_, hX⟩
    · exact task_of_ne (hrun (t + d)) hne ht
    · exact hw.trans (hreach.next_take (hrun (t + d)))

/-- **A task that keeps to an agreement has its last turn some time.** The proof is by induction on the way
that it has to go. -/
theorem settles (hrun : Endless σ turn) (h0 : (σ 0).Reachable) {w p fs} (hp : Keeps A (A.starts j) id a w p fs) :
    ∀ (t : Nat) (P : Nat → Option A.Part), (σ t).Abides A P → P j = some a → w.Next (σ t).world →
      (σ t).tasks[j]? = some ⟨id, p, fs⟩ → ∃ T, t ≤ T ∧ (∃ Q, (σ T).Abides A Q) ∧ ∀ s, T ≤ s → (turn s).task ≠ j := by
  refine hp.induct (Y := fun a w p fs => ∀ (t : Nat) (P : Nat → Option A.Part), (σ t).Abides A P →
    P j = some a → w.Next (σ t).world → (σ t).tasks[j]? = some ⟨id, p, fs⟩ →
      ∃ T, t ≤ T ∧ (∃ Q, (σ T).Abides A Q) ∧ ∀ s, T ≤ s → (turn s).task ≠ j) ?_
  intro a w p fs hallows t P h ha hw ht
  by_cases hever : ∃ d, (turn (t + d)).task = j
  · -- Nothing happens to the task before its next turn.
    obtain ⟨Q, hQ, hb, w', p', fs', ht', hw', rfl, rfl, rfl⟩ := idle hrun h0 h
      (X := fun _ w' p' fs' => w' = w ∧ p' = p ∧ fs' = fs) ⟨ha, w, p, fs, ht, hw, rfl, rfl, rfl⟩
      (Nat.find hever) fun s hs hlt hj => by
        have hmin := Nat.find_min hever (m := s - t) (by omega)
        rw [Nat.add_sub_cancel' hs] at hmin
        exact hmin hj
    have hj := Nat.find_spec hever
    have hreach := reachable_endless hrun h0 (t + Nat.find hever)
    have hstep := hrun (t + Nat.find hever)
    generalize hs : t + Nat.find hever = s at *
    subst hj
    obtain ⟨Q', b', hturned, ⟨hb', w'', p'', fs'', ht'', hw'', hp'', hY⟩, -⟩ :=
      turn_of_allows hreach hQ.joint hQ.beyond hstep ht' hb hw' hallows
    obtain ⟨T, hT, hrest⟩ := hY (s + 1) Q'
      (hQ.of_turned hreach hstep hturned ⟨hb', w'', p'', fs'', ht'', hw'', hp''⟩) hb' hw'' ht''
    exact ⟨T, by omega, hrest⟩
  · refine ⟨t, Nat.le_refl t, ⟨P, h⟩, fun s hs hj => hever ⟨s - t, ?_⟩⟩
    rw [Nat.add_sub_cancel' hs]
    exact hj

/-- **A machine whose tasks keep to an agreement has no endless run.** -/
theorem finite (h : m.Abides A P) (hm : m.Reachable) : ¬ ∃ σ turn, σ 0 = m ∧ Endless σ turn := by
  rintro ⟨σ, turn, rfl, hrun⟩
  -- The first task has its last turn some time, and from then on there are as many tasks as then.
  have hfirst : ∃ T, (∃ Q, (σ T).Abides A Q) ∧ ∀ s, T ≤ s → (turn s).task ≠ 0 := by
    by_cases hzero : ∃ t, (σ 0).tasks[0]? = some t
    · obtain ⟨t, ht⟩ := hzero
      obtain ⟨a, ha, w, p, fs, ht', hw, hp⟩ := h.task ht
      obtain ⟨T, -, hT⟩ := settles hrun hm hp 0 P h ha hw ht'
      exact ⟨T, hT⟩
    · obtain ⟨t, ht, -⟩ := take_cases (hrun 0)
      have hpos := lt_of_task ht
      exact absurd ⟨_, Array.getElem?_eq_getElem (Nat.lt_of_le_of_lt (Nat.zero_le _) hpos)⟩ hzero
  obtain ⟨T₀, ⟨Q₀, hQ₀⟩, hsilent⟩ := hfirst
  have hlater (d : Nat) : (∃ Q, (σ (T₀ + d)).Abides A Q) ∧
      (σ (T₀ + d)).tasks.size = (σ T₀).tasks.size := by
    induction d with
    | zero => exact ⟨⟨Q₀, hQ₀⟩, rfl⟩
    | succ d ih =>
      obtain ⟨⟨Q, hQ⟩, hsize⟩ := ih
      obtain ⟨Q', hQ', -⟩ := hQ.take (reachable_endless hrun hm (T₀ + d)) (hrun (T₀ + d))
      exact ⟨⟨Q', hQ'⟩, (hQ.size_eq (hrun (T₀ + d)) (hsilent _ (by omega))).trans hsize⟩
  -- So one task after the other has its last turn.
  have hall (k : Nat) (hk : k ≤ (σ T₀).tasks.size) :
      ∃ T, T₀ ≤ T ∧ ∀ s, T ≤ s → ∀ j, j < k → (turn s).task ≠ j := by
    induction k with
    | zero => exact ⟨T₀, Nat.le_refl T₀, fun _ _ _ hj => absurd hj (Nat.not_lt_zero _)⟩
    | succ k ih =>
      obtain ⟨T, hT, hbefore⟩ := ih (by omega)
      obtain ⟨⟨Q, hQ⟩, hsize⟩ := hlater (T - T₀)
      rw [Nat.add_sub_cancel' hT] at hQ hsize
      have hlt : k < (σ T).tasks.size := by omega
      obtain ⟨a, ha, w, p, fs, ht, hw, hp⟩ := hQ.task (Array.getElem?_eq_getElem hlt)
      obtain ⟨T', hT', -, hlast⟩ := settles hrun hm hp T Q hQ ha hw ht
      refine ⟨T', by omega, fun s hs j hj => ?_⟩
      rcases Nat.lt_succ_iff_lt_or_eq.mp hj with hj | rfl
      · exact hbefore s (by omega) j hj
      · exact hlast s hs
  obtain ⟨T, hT, hnone⟩ := hall _ (Nat.le_refl _)
  obtain ⟨t, ht, -⟩ := take_cases (hrun T)
  have hlt := lt_of_task ht
  have hsize := (hlater (T - T₀)).2
  rw [Nat.add_sub_cancel' hT] at hsize
  exact hnone T (Nat.le_refl T) _ (by omega) rfl

/-! ### Standstill, and the end -/

/-- A task that keeps to an agreement is over, can have a turn, or waits for what does not hold. -/
theorem over_or_waits (h : m.Abides A P) (ht : m.tasks[j]? = some t) (hstuck : ∀ j, m.step j = none) :
    ∃ a, P j = some a ∧ ((∃ out, m.outcome? j = some out ∧ A.Ends a m.world out) ∨
      ∃ c, A.Waits a c ∧ ¬ c.holds m.world) := by
  obtain ⟨a, ha, w, p, fs, ht', hw, hp⟩ := h.task ht
  rw [ht] at ht'
  obtain ⟨id, p', fs'⟩ := t
  obtain ⟨-, rfl, rfl⟩ := Task.mk.inj (Option.some.inj ht')
  refine ⟨a, ha, ?_⟩
  have hstep := hstuck j
  simp only [Machine.step, ht, Option.bind_eq_bind, Option.bind_some] at hstep
  cases hp.allows with
  | finished ends =>
    exact .inl ⟨_, outcome?_eq_some.mpr ⟨_, ht, rfl, rfl⟩, ends _ hw ⟨P, j, h.joint, ha⟩⟩
  | await waits next expired =>
    refine .inr ⟨_, waits, fun hc => ?_⟩
    dsimp only at hstep
    rw [if_pos hc] at hstep
    cases hstep
  | resume | observe | perform | call | guard | pause | spawn => cases hstep

/-- **Such a machine comes to a standstill only when its first task is over**, even if no bounded wait ends before its
time. -/
theorem finished (h : m.Abides A P) (hpos : 0 < m.tasks.size)
    (hstuck : ∀ j, m.step j = none) : ∃ out, m.outcome? 0 = some out := by
  have hothers (k : Nat) (b : A.Part) (hk : k ≠ 0) (hb : P k = some b) : ∃ out, A.Ends b m.world out := by
    have hlt : k < m.tasks.size := by
      by_contra hge
      cases ((h.beyond k).mpr (Nat.le_of_not_lt hge)).symm.trans hb
    obtain ⟨a, ha, ⟨out, -, hends⟩ | ⟨c, hwaits, -⟩⟩ :=
      h.over_or_waits (Array.getElem?_eq_getElem hlt) hstuck
    · cases ha.symm.trans hb
      exact ⟨out, hends⟩
    · exact absurd (hwaits h.joint ha).1 hk
  obtain ⟨a, ha, ⟨out, hout, -⟩ | ⟨c, hwaits, hc⟩⟩ :=
    h.over_or_waits (Array.getElem?_eq_getElem hpos) hstuck
  · exact ⟨out, hout⟩
  · exact absurd ((hwaits h.joint ha).2 hothers) hc

/-- **What is agreed on for the end of a task holds then.** -/
theorem ends (h : m.Abides A P) {out} (hout : m.outcome? j = some out) :
    ∃ a, P j = some a ∧ A.Ends a m.world out := by
  obtain ⟨t, ht, hprog, hframes⟩ := outcome?_eq_some.mp hout
  obtain ⟨a, ha, w, p, fs, ht', hw, hp⟩ := h.task ht
  rw [ht] at ht'
  obtain ⟨id, p', fs'⟩ := t
  obtain ⟨-, rfl, rfl⟩ := Task.mk.inj (Option.some.inj ht')
  dsimp only at hprog hframes
  subst hprog hframes
  cases hp.allows with
  | finished ends => exact ⟨a, ha, ends _ hw ⟨P, j, h.joint, ha⟩⟩

end Abides

end Machine

end ObjectKernel
