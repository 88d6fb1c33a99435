import ObjectKernel.Proofs.Lives
import ObjectKernel.Proofs.Turns
import ObjectKernel.Scenario

/-!
# The life of threads in a machine

Every thread of a machine that started with lawful programs passes its stages in order, and at each of
them the task that has it in hand stands at the point of its program where it must be. The stages are
not part of the state: `Machine.Governed` says that some assignment of stages fits a machine, and each
turn is shown to lead to a machine that is governed by the same stages, or by stages that differ in one
step of one thread.

## Contents

* `Frames`, `Starts`, `Hosts`, `Sits`: where a task can stand, and which threads it then has in hand.
* `Deed`, `Prog.deed?`: what a turn does to a thread. `Prog.deed?_cases`: where its task stands then.
* `Machine.Governed`, `Governed.advances`, `Governed.take`: the invariant and its step.
* `World.Fresh`, `Machine.Initial`, `Machine.Reachable`, `Reachable.governed`: the invariant of runs.
* What follows for registered threads: `Reachable.joinable`, `Reachable.started_mono`,
  `Reachable.terminated_take`, `Reachable.started_take`, `Reachable.not_terminated_of_register`.
-/

namespace ObjectKernel

open Op Function

variable {j i : Nat} {a b : Stage} {w : World}

/-! ## Where a task stands -/

/-- What a frame goes on with is lawful. -/
def Frame.Lawful (own : Option ObjId) (w : World) (f : Frame) : Prop :=
  ∀ o v, w.Next v → (f.resume o).Lawful own v

/-- The outermost frame of a task that is in the `run()` of a thread. -/
def bottom : Option ObjId → List Frame
  | none => []
  | some x => [.guard (Run.leaving x)]

/-- Frames of a lawful program, above the outermost one if its task runs a thread. -/
inductive Frames (own : Option ObjId) (w : World) : List Frame → Prop where
  | base : Frames own w (bottom own)
  | push {f : Frame} {fs : List Frame} (lawful : f.Lawful own w) (rest : Frames own w fs) :
      Frames own w (f :: fs)

/-- The points of a start after the reservation. -/
inductive Starts (o : ObjId) (p : Prog) : Phase → Prog → Prop where
  | marking : Starts o p .marking (startSection o p)
  | enrolling : Starts o p .enrolling (.perform (.register o) fun _ => .spawn o p)
  | launching : Starts o p .launching (.spawn o p)

/-- The points of the task of a thread outside `run()`. -/
inductive Hosts (o : ObjId) : Phase → Prog → List Frame → Prop where
  | entering : Hosts o .entering (Activation.thread o).program []
  | binding (t : Thread) : Hosts o .entering (Run.binding o t) []
  | hosting (t : Thread) : Hosts o .entering (Run.hosting o t) []
  | beginning (t : Thread) : Hosts o .entering (Run.beginning o t) [.guard (Run.leaving o)]
  | recording (e : Err) : Hosts o .leaving (Run.recording o e) []
  | reporting (e : Err) (name : Bytes) : Hosts o .leaving (Run.reporting o e name) []
  | writing (home : RuntimeId) (text : Bytes) : Hosts o .leaving (Run.writing o home text) []
  | unbinding : Hosts o .leaving (Run.unbinding o) []
  | terminating : Hosts o .leaving (Run.terminating o) []
  | closing : Hosts o .closing (Run.closing o) []

/-- What a task that is in the `run()` of a thread has in hand. -/
def inHand (own : Option ObjId) (o : ObjId) : Option Phase := if own = some o then some .inside else none

/-- Where a task stands, and which threads it has in hand there. -/
inductive Sits (w : World) : (ObjId → Option Phase) → Prog → List Frame → Prop where
  | free {own : Option ObjId} {p : Prog} {fs : List Frame} (lawful : p.Lawful own w)
      (frames : Frames own w fs) : Sits w (inHand own) p fs
  | starting {own : Option ObjId} {o : ObjId} {p q : Prog} {fs : List Frame} {ph : Phase}
      (other : own ≠ some o) (point : Starts o p ph q) (lawful : ∀ v, w.Next v → p.Lawful own v)
      (frames : Frames own w fs) : Sits w (update (inHand own) o (some ph)) q fs
  | hosting {o : ObjId} {p : Prog} {fs : List Frame} {ph : Phase} (point : Hosts o ph p fs) :
      Sits w (update (inHand none) o (some ph)) p fs

section

variable {own : Option ObjId} {w v : World} {fs : List Frame} {p : Prog} {o : ObjId} {f : Frame}
  {hand : ObjId → Option Phase}

theorem Frame.Lawful.later (h : w ≤ v) (hf : f.Lawful own w) : f.Lawful own v :=
  fun o u hu => hf o u (.of_le h hu)

theorem Frames.later (h : w ≤ v) (hf : Frames own w fs) : Frames own v fs := by
  induction hf with
  | base => exact .base
  | push lawful _ ih => exact .push (lawful.later h) ih

theorem Sits.later (h : w ≤ v) (hs : Sits w hand p fs) : Sits v hand p fs := by
  cases hs with
  | free lawful frames => exact .free (lawful.later h) (frames.later h)
  | starting other point lawful frames =>
    exact .starting other point (fun u hu => lawful u (.of_le h hu)) (frames.later h)
  | hosting point => exact .hosting point

theorem Frame.Lawful.caller {k} (hk : ∀ r v, w.Next v → (k r).Lawful own v) : (Frame.caller k).Lawful own w := by
  intro o v hv
  cases o with
  | value x => exact hk _ v hv
  | error e => exact hk _ v hv
  | panic p => exact .finish _

/-- The thread in whose `run()` a task with given frames is: the one that the outermost frame winds up. -/
def runningIn (fs : List Frame) : Option ObjId :=
  match (fs.getLast?).map (Frame.resume (.value .null)) with
  | some (.perform (.unbindTask x) _) => some x
  | _ => none

theorem runningIn_cons_cons (f g : Frame) (fs : List Frame) : runningIn (f :: g :: fs) = runningIn (g :: fs) := by
  unfold runningIn
  rw [List.getLast?_cons_cons]

/-- A lawful frame winds up no thread. -/
theorem Frame.Lawful.runningIn_eq (hs : w.Sound) (hf : f.Lawful own w) : runningIn [f] = none := by
  have hlaw := hf (.value .null) w (.refl hs)
  show (match some (f.resume (.value .null)) with
    | some (.perform (.unbindTask x) _) => some x
    | _ => none) = none
  split
  · rename_i x k heq
    rw [Option.some.inj heq] at hlaw
    cases hlaw with
    | perform allowed next => exact allowed.elim
  · rfl

/-- The frames of a task show in whose `run()` it is. -/
theorem Frames.runningIn_eq (hs : w.Sound) (hf : Frames own w fs) : runningIn fs = own := by
  induction hf with
  | base => cases own <;> rfl
  | @push f fs lawful rest ih =>
    cases fs with
    | cons g gs => exact (runningIn_cons_cons f g gs).trans ih
    | nil =>
      rw [lawful.runningIn_eq hs]
      exact ih

/-! ## What is done to a thread -/

/-- What a turn may do to a thread, from the reservation of its start to its end. -/
inductive Deed where
  | reserve
  | mark
  | enrol
  | launch
  /-- Its task begins `run()`. -/
  | enter
  /-- Its task is done with `run()`. -/
  | leave
  | terminate
  | close
  deriving DecidableEq

/-- The stage of a thread after a task has done something to it in a machine with some number of
tasks. -/
def Deed.stage (j size : Nat) : Deed → Stage
  | reserve => .held .marking j
  | mark => .held .enrolling j
  | enrol => .held .launching j
  | launch => .held .entering size
  | enter => .held .inside j
  | leave => .held .leaving j
  | terminate => .held .closing j
  | close => .past

/-- The thread to which the next turn of a program does something, and what. -/
def Prog.deed? (w : World) (fs : List Frame) : Prog → Option (ObjId × Deed)
  | .perform (.reserveStart o) _ => if (w.reserveStart o).1 then some (o, .reserve) else none
  | .perform (.setState o .started) _ => some (o, .mark)
  | .perform (.register o) _ => some (o, .enrol)
  | .spawn o _ => some (o, .launch)
  | .perform (.setState o .runnable) _ => some (o, .enter)
  | .finish _ => if fs.length = 1 then (runningIn fs).map fun o => (o, .leave) else none
  | .perform (.setState o .terminated) _ => some (o, .terminate)
  | .perform (.endThread o) _ => some (o, .close)
  | _ => none

theorem Prog.deed?_reserveStart (w : World) (fs : List Frame) (o : ObjId) (k : Bool → Prog) :
    (Prog.perform (.reserveStart o) k).deed? w fs = if (w.reserveStart o).1 then some (o, .reserve) else none := rfl

/-- Where a program stands that does something to a thread. -/
theorem Prog.deed?_cases {d} (h : p.deed? w fs = some (o, d)) : match d with
    | .reserve => ∃ k, p = .perform (.reserveStart o) k ∧ (w.reserveStart o).1
    | .mark => ∃ k, p = .perform (.setState o .started) k
    | .enrol => ∃ k, p = .perform (.register o) k
    | .launch => ∃ k, p = .spawn o k
    | .enter => ∃ k, p = .perform (.setState o .runnable) k
    | .leave => ∃ out, p = .finish out ∧ fs.length = 1 ∧ runningIn fs = some o
    | .terminate => ∃ k, p = .perform (.setState o .terminated) k
    | .close => ∃ k, p = .perform (.endThread o) k := by
  unfold Prog.deed? at h
  split at h
  · obtain ⟨hr, h⟩ := Option.ite_none_right_eq_some.mp h
    cases h
    exact ⟨_, rfl, hr⟩
  · cases h
    exact ⟨_, rfl⟩
  · cases h
    exact ⟨_, rfl⟩
  · cases h
    exact ⟨_, rfl⟩
  · cases h
    exact ⟨_, rfl⟩
  · obtain ⟨hlen, h⟩ := Option.ite_none_right_eq_some.mp h
    obtain ⟨x, hx, heq⟩ := Option.map_eq_some_iff.mp h
    cases heq
    exact ⟨_, rfl, hlen, hx⟩
  · cases h
    exact ⟨_, rfl⟩
  · cases h
    exact ⟨_, rfl⟩
  · cases h

/-- An instruction that a lawful program may perform by itself does nothing of the kind. -/
theorem Instr.Allowed.deed? {i : Instr} (h : i.Allowed own w) (fs : List Frame) (k : i.Answer → Prog) :
    (Prog.perform i k).deed? w fs = none := by
  cases i with
  | reserveStart | setState | register | endThread => exact h.elim
  | _ => rfl

/-- The stages after a deed of a task in a machine with some number of tasks. -/
def Stage.after (stage : ObjId → Stage) (j size : Nat) : Option (ObjId × Deed) → ObjId → Stage
  | none => stage
  | some (o, d) => update stage o (d.stage j size)

/-! ## A turn of a lawful program -/

/-- What the call of `run()` does is lawful for the task of its thread. -/
theorem lawful_body (hs : w.Sound) (o : ObjId) (t : Thread) : (Run.body o t).toProgUnit.Lawful (some o) w := by
  have hd : Lawful [] (dispatch t.home t.self Selector.run []) := inferInstance
  rw [toProgUnit_eq]
  refine hd.run hs (fun p hp => (nomatch hp)) fun r v _ => ?_
  cases r with
  | ok a => exact .finish _
  | error e =>
    refine .perform rfl fun _ u _ => .observe fun _ u _ => ?_
    show (need _ _).Lawful (some o) u
    cases ((u.thread? o).getD {}).home with
    | none => exact .finish _
    | some home => exact .perform trivial fun _ _ _ => .finish _

/-- What a lawful program does in one turn: it goes on lawfully and leaves every life alone, or it
reserves a start, or it was the `run()` of a thread and is over. -/
theorem Prog.Lawful.goes {id expired q gs} (hs : w.Sound) (hp : p.Lawful own w) (hf : Frames own w fs)
    (h : Goes id w expired p fs v q gs) : (p.deed? w fs = none ∧ w.Calm v ∧ q.Lawful own v ∧ Frames own v gs) ∨
      (∃ o p', p.deed? w fs = some (o, .reserve) ∧ w.Startable o ∧ (w.reserveStart o).1 = true ∧
        v = (w.reserveStart o).2 ∧ q = startSection o p' ∧ (∀ u, w.Next u → p'.Lawful own u) ∧ gs = fs) ∨
      ∃ x out, p.deed? w fs = some (x, .leave) ∧ own = some x ∧ v = w ∧ q = Run.leaving x out ∧ gs = [] := by
  cases h with
  | resume o f fs =>
    cases own with
    | none =>
      have hdeed : (Prog.finish o).deed? w (f :: gs) = none := by
        unfold Prog.deed?
        rw [hf.runningIn_eq hs]
        exact ite_self none
      cases hf with
      | push lawful rest => exact .inl ⟨hdeed, .refl hs, lawful o _ (.refl hs), rest⟩
    | some x =>
      cases hf with
      | base => exact .inr (.inr ⟨x, o, rfl, rfl, rfl, rfl, rfl⟩)
      | push lawful rest =>
        have hlen : (f :: gs).length ≠ 1 := by
          cases rest <;> simp [bottom]
        exact .inl ⟨if_neg hlen, .refl hs, lawful o _ (.refl hs), rest⟩
  | observe f fs =>
    cases hp with
    | observe next => exact .inl ⟨rfl, .refl hs, next id _ (.refl hs), hf⟩
  | perform i k fs =>
    cases hp with
    | perform allowed next =>
      have hcalm := Instr.exec_calm hs id allowed
      exact .inl ⟨allowed.deed? .., hcalm, next id w (.refl hs), hf.later hcalm.later⟩
    | @start _ o k p' startable section_eq next refused =>
      show (_ ∧ w.Calm (w.reserveStart o).2 ∧
        (k (w.reserveStart o).1).Lawful own (w.reserveStart o).2 ∧
        Frames own (w.reserveStart o).2 fs) ∨ _
      rcases w.reserveStart_cases o with hr | ⟨t, ht, hn, hr⟩
      · rw [Prog.deed?_reserveStart, hr]
        exact .inl ⟨rfl, .refl hs, refused w (.refl hs), hf⟩
      · refine .inr (.inl ⟨o, p', ?_, startable, by rw [hr], rfl, ?_, next, rfl⟩)
        · rw [Prog.deed?_reserveStart, hr]
          rfl
        · show k (w.reserveStart o).1 = _
          rw [hr]
          exact section_eq
  | await holds bound k fs =>
    cases hp with
    | await next => exact .inl ⟨rfl, .refl hs, next true _ (.refl hs), hf⟩
  | expire c e k fs =>
    cases hp with
    | await next => exact .inl ⟨rfl, .refl hs, next false _ (.refl hs), hf⟩
  | call a k fs =>
    cases hp with
    | call allowed next =>
      exact .inl ⟨rfl, .refl hs, lawful_activation hs allowed, .push (.caller next) hf⟩
  | guard body k fs =>
    cases hp with
    | guard inner next => exact .inl ⟨rfl, .refl hs, inner, .push next hf⟩
  | pause k fs =>
    cases hp with
    | pause next => exact .inl ⟨rfl, .refl hs, next _ (.refl hs), hf⟩

/-- A task that has a thread in hand to enrol it is about to register it. -/
theorem Sits.eq_register (hs : Sits w hand p fs) (ho : hand o = some .enrolling) :
    ∃ k, p = .perform (.register o) k := by
  have hin {own : Option ObjId} : inHand own o ≠ some .enrolling := fun h => by
    unfold inHand at h
    split at h <;> cases h
  cases hs with
  | free => exact absurd ho hin
  | @starting own o' p q fs ph other point =>
    by_cases hoo : o = o'
    · subst hoo
      rw [update_self] at ho
      cases ho
      cases point
      exact ⟨_, rfl⟩
    · rw [update_of_ne hoo] at ho
      exact absurd ho hin
  | @hosting o' p fs ph point =>
    by_cases hoo : o = o'
    · subst hoo
      rw [update_self] at ho
      cases ho
      cases point
    · rw [update_of_ne hoo] at ho
      exact absurd ho hin

/-- A task that registers a thread and is in the `run()` of another one has that one in hand. -/
theorem Sits.runs_of_register {x k} (hw : w.Sound) (hs : Sits w hand (.perform (.register o) k) fs)
    (hx : runningIn fs = some x) : hand x = some .inside := by
  cases hs with
  | free lawful frames =>
    cases lawful with
    | perform allowed next => exact allowed.elim
  | starting other point lawful frames =>
    cases (frames.runningIn_eq hw).symm.trans hx
    rw [update_of_ne fun h => other (congrArg some h), inHand]
    exact if_pos rfl
  | hosting point => cases point

end

/-! ## Machines that stages fit -/

/-- What a task has in hand with a thread at a stage. -/
def Stage.phaseIn (j : Nat) : Stage → Option Phase
  | .held phase i => if i = j then some phase else none
  | .idle | .past => none

theorem Stage.phaseIn_held (phase : Phase) (j : Nat) : (Stage.held phase j).phaseIn j = some phase :=
  if_pos rfl

theorem Stage.phaseIn_held_of_ne (phase : Phase) (h : i ≠ j) : (Stage.held phase i).phaseIn j = none := if_neg h

theorem Stage.eq_held {s : Stage} {phase} (h : s.phaseIn j = some phase) : s = .held phase j := by
  cases s with
  | idle => cases h
  | past => cases h
  | held ph i =>
    obtain ⟨hi, hp⟩ := Option.ite_none_right_eq_some.mp h
    rw [hi, Option.some.inj hp]

/-- A task moves only threads that it has in hand, or that nobody has. -/
theorem Stage.Next.phaseIn_of_ne (hi : i ≠ j) (h : Stage.Next j a b) : a.phaseIn i = none := by
  cases h with
  | reserve => rfl
  | mark | enrol | launch | enter | leave | terminate | close => exact phaseIn_held_of_ne _ hi.symm

/-- What tasks have in hand after one thread was moved. -/
theorem phaseIn_update (stage : ObjId → Stage) (o : ObjId) (s : Stage) (i : Nat) :
    (fun p => (update stage o s p).phaseIn i) = update (fun p => (stage p).phaseIn i) o (s.phaseIn i) := by
  funext p
  by_cases hp : p = o
  · rw [hp, update_self, update_self]
  · rw [update_of_ne hp, update_of_ne hp]

/-- A machine that stages fit: its world shows them, and every task stands where it has in hand what they
say. -/
structure Machine.Governed (m : Machine) (stage : ObjId → Stage) : Prop where
  sound : m.world.Sound
  kept : m.world.Kept stage
  task : ∀ {j t}, m.tasks[j]? = some t → Sits m.world (fun o => (stage o).phaseIn j) t.prog t.frames
  holder : ∀ {o phase j}, stage o = .held phase j → j < m.tasks.size

namespace Machine

variable {m n : Machine} {stage : ObjId → Stage} {j : Nat} {t : Task} {v : World} {p : Prog} {fs : List Frame}
  {o : ObjId} {deed : Option (ObjId × Deed)} {own : Option ObjId} {expired : Bool} {τ : Turn} {ph : Phase}

theorem size_put (m : Machine) (j : Nat) (t : Task) (v : World) (p : Prog) (fs : List Frame) :
    (m.put j t v p fs).tasks.size = m.tasks.size := Array.size_setIfInBounds

/-- A turn that moves no thread. -/
theorem Governed.put (h : m.Governed stage) (hj : m.tasks[j]? = some t) (hv : m.world.Next v)
    (hk : v.Kept stage) (hp : Sits v (fun o => (stage o).phaseIn j) p fs) : (m.put j t v p fs).Governed stage := by
  refine ⟨hv.sound, hk, fun {i u} hu => ?_, fun ho => ?_⟩
  · by_cases hi : i = j
    · subst hi
      rw [task_put_self hj] at hu
      cases hu
      exact hp
    · rw [task_put_of_ne hi] at hu
      exact (h.task hu).later hv.later
  · rw [size_put]
    exact h.holder ho

/-- A turn that moves one thread, which stays in the hands of the task or is over. -/
theorem Governed.put_next (h : m.Governed stage) (hj : m.tasks[j]? = some t) {s} (hn : Stage.Next j (stage o) s)
    (hstay : ∀ i, i ≠ j → s.phaseIn i = none) (hv : m.world.Next v) (hk : v.Kept (update stage o s))
    (hp : Sits v (update (fun o => (stage o).phaseIn j) o (s.phaseIn j)) p fs) :
    (m.put j t v p fs).Governed (update stage o s) := by
  refine ⟨hv.sound, hk, fun {i u} hu => ?_, fun {x phase i} hx => ?_⟩
  · rw [phaseIn_update]
    by_cases hi : i = j
    · subst hi
      rw [task_put_self hj] at hu
      cases hu
      exact hp
    · rw [task_put_of_ne hi] at hu
      rw [hstay i hi, update_eq_self_iff.mpr (hn.phaseIn_of_ne hi).symm]
      exact (h.task hu).later hv.later
  · rw [size_put]
    by_cases hxo : x = o
    · rw [hxo, update_self] at hx
      subst hx
      by_cases hi : i = j
      · exact hi ▸ lt_of_task hj
      · have := hstay i hi
        rw [Stage.phaseIn_held] at this
        cases this
    · rw [update_of_ne hxo] at hx
      exact h.holder hx

/-- A turn that hands a thread over to its own task. -/
theorem Governed.fork (h : m.Governed stage) (hj : m.tasks[j]? = some t) {k} (ho : stage o = .held .launching j)
    (hk : Sits m.world (update (fun o => (stage o).phaseIn j) o none) k t.frames) :
    (m.fork j t o k).Governed (update stage o (.held .entering m.tasks.size)) := by
  have hcalm : m.world.Calm { m.world with tasks := m.world.tasks + 1 } :=
    World.calm_surroundings h.sound rfl rfl rfl h.sound.named h.sound.shared
  have hsize : (m.fork j t o k).tasks.size = m.tasks.size + 1 := by
    refine (Array.size_push _).trans ?_
    rw [Array.size_setIfInBounds]
  have hne : stage o ≠ .idle := by rw [ho]; nofun
  refine ⟨hcalm.sound, ?_, fun {i u} hu => ?_, fun {x phase i} hx => ?_⟩
  · refine (h.kept.pass h.sound hne ?_ ?_).calm hcalm <;> rw [ho] <;> rfl
  · rw [phaseIn_update]
    by_cases hi : i = j
    · subst hi
      rw [task_fork_self hj] at hu
      cases hu
      rw [Stage.phaseIn_held_of_ne _ (Nat.ne_of_gt (lt_of_task hj))]
      exact hk.later hcalm.later
    · by_cases hl : i = m.tasks.size
      · -- The new task has nothing else in hand.
        subst hl
        rw [task_fork_last] at hu
        cases hu
        have hempty : (fun p => (stage p).phaseIn m.tasks.size) = inHand none := by
          funext p
          cases hp : (stage p).phaseIn m.tasks.size with
          | none => rfl
          | some phase => exact absurd (h.holder (Stage.eq_held hp)) (Nat.lt_irrefl _)
        rw [Stage.phaseIn_held, hempty]
        exact .hosting .entering
      · rw [task_fork_of_ne hi hl] at hu
        rw [Stage.phaseIn_held_of_ne _ (Ne.symm hl), update_eq_self_iff.mpr]
        · exact (h.task hu).later hcalm.later
        · rw [ho, Stage.phaseIn_held_of_ne _ (Ne.symm hi)]
  · rw [hsize]
    by_cases hxo : x = o
    · rw [hxo, update_self] at hx
      cases hx
      exact Nat.lt_succ_self _
    · rw [update_of_ne hxo] at hx
      exact Nat.lt_succ_of_lt (h.holder hx)

/-! ### The turns -/

/-- What a turn of a task does to the stages: nothing, or it moves one thread by one stage. -/
def Progress (j : Nat) (stage stage' : ObjId → Stage) : Prop :=
  stage' = stage ∨ ∃ o s, Stage.Next j (stage o) s ∧ stage' = update stage o s

/-- A turn leads to a machine that is governed by the stages after what the turn has done. -/
structure Advances (m : Machine) (j : Nat) (stage : ObjId → Stage) (deed : Option (ObjId × Deed))
    (n : Machine) : Prop where
  governed : n.Governed (Stage.after stage j m.tasks.size deed)
  later : m.world ≤ n.world
  next : ∀ {o d}, deed = some (o, d) → Stage.Next j (stage o) (d.stage j m.tasks.size)

theorem Advances.of_none (hdeed : deed = none) (hn : n.Governed stage) (hle : m.world ≤ n.world) :
    m.Advances j stage deed n := by
  subst hdeed
  exact ⟨hn, hle, nofun⟩

theorem Advances.of_some {d} (hdeed : deed = some (o, d)) (hnext : Stage.Next j (stage o) (d.stage j m.tasks.size))
    (hn : n.Governed (update stage o (d.stage j m.tasks.size))) (hle : m.world ≤ n.world) :
    m.Advances j stage deed n := by
  subst hdeed
  refine ⟨hn, hle, fun h => ?_⟩
  cases h
  exact hnext

theorem Advances.progress (h : m.Advances j stage deed n) :
    Progress j stage (Stage.after stage j m.tasks.size deed) := by
  cases deed with
  | none => exact .inl rfl
  | some d => exact .inr ⟨d.1, _, h.next rfl, rfl⟩

theorem inHand_self (x : ObjId) : inHand (some x) x = some .inside := if_pos rfl

theorem inHand_of_ne (h : own ≠ some o) : inHand own o = none :=
  if_neg h

/-- What a task has in hand besides the thread whose `run()` it is in. -/
theorem update_inHand (x : ObjId) (phase : Option Phase) :
    update (inHand (some x)) x phase = update (inHand none) x phase := by
  funext p
  by_cases hp : p = x
  · rw [hp, update_self, update_self]
  · rw [update_of_ne hp, update_of_ne hp]
    exact inHand_of_ne fun h => hp (Option.some.inj h).symm

theorem update_inHand_inside (x : ObjId) : update (inHand none) x (some .inside) = inHand (some x) := by
  rw [← update_inHand, ← inHand_self x, update_eq_self]

theorem hosting_leaving (x : ObjId) (out : Outcome) :
    Sits w (update (inHand none) x (some .leaving)) (Run.leaving x out) [] := by
  cases out with
  | value v => exact .hosting .unbinding
  | error e => exact .hosting .unbinding
  | panic e => exact .hosting (.recording _)

/-- A turn of a task at a lawful program. -/
theorem Governed.take_free (h : m.Governed stage) (hj : m.tasks[j]? = some t)
    (hhand : (fun o => (stage o).phaseIn j) = inHand own) (hp : t.prog.Lawful own m.world)
    (hf : Frames own m.world t.frames) (hgo : Goes t.id m.world expired t.prog t.frames v p fs) :
    m.Advances j stage (t.prog.deed? m.world t.frames) (m.put j t v p fs) := by
  rcases hp.goes h.sound hf hgo with ⟨hdeed, hcalm, hlaw, hframes⟩ |
    ⟨o, p', hdeed, ho, hr, rfl, rfl, hlaw, rfl⟩ | ⟨x, out, hdeed, rfl, rfl, rfl, rfl⟩
  · refine .of_none hdeed (h.put hj hcalm.next (h.kept.calm hcalm) ?_) hcalm.later
    rw [hhand]
    exact .free hlaw hframes
  · obtain ⟨hidle, hnext, hkept⟩ := h.kept.reserve h.sound ho hr j
    have hstep : Stage.Next j (stage o) (.held .marking j) := hidle ▸ .reserve
    refine .of_some hdeed hstep (h.put_next hj hstep (fun i hi => Stage.phaseIn_held_of_ne _ hi.symm)
      hnext hkept ?_) hnext.later
    show Sits _ (update _ o ((Stage.held .marking j).phaseIn j)) _ _
    rw [hhand, Stage.phaseIn_held]
    refine .starting (fun hown => ?_) .marking (fun u hu => hlaw u (.of_le hnext.later hu))
      (hf.later hnext.later)
    -- A thread in whose `run()` the task is has been started.
    have hin := congrFun hhand o
    rw [hown, inHand_self, hidle] at hin
    cases hin
  · have hx : stage x = .held .inside j := Stage.eq_held ((congrFun hhand x).trans (inHand_self x))
    have hstep : Stage.Next j (stage x) (.held .leaving j) := hx ▸ .leave
    have hkept : m.world.Kept (update stage x (.held .leaving j)) :=
      h.kept.pass h.sound (by rw [hx]; nofun) (by rw [hx]; rfl) (by rw [hx]; rfl)
    refine .of_some hdeed hstep (h.put_next hj hstep (fun i hi => Stage.phaseIn_held_of_ne _ hi.symm)
      (.refl h.sound) hkept ?_) (le_refl _)
    show Sits _ (update _ x ((Stage.held .leaving j).phaseIn j)) _ _
    rw [hhand, Stage.phaseIn_held, update_inHand]
    exact hosting_leaving x out

/-- A turn of a task that starts a thread, up to the registration. -/
theorem Governed.take_starting (h : m.Governed stage) (hj : m.tasks[j]? = some t) {q} (hother : own ≠ some o)
    (hhand : (fun o => (stage o).phaseIn j) = update (inHand own) o (some ph)) (hpoint : Starts o q ph t.prog)
    (hlaw : ∀ v, m.world.Next v → q.Lawful own v) (hf : Frames own m.world t.frames)
    (hgo : Goes t.id m.world expired t.prog t.frames v p fs) :
    m.Advances j stage (t.prog.deed? m.world t.frames) (m.put j t v p fs) := by
  have ho : stage o = .held ph j :=
    Stage.eq_held ((congrFun hhand o).trans (update_self ..))
  have hsits {ph' : Phase} {q' : Prog} (hv : m.world.Next v) (hq : Starts o q ph' q') :
      Sits v (update (fun o => (stage o).phaseIn j) o ((Stage.held ph' j).phaseIn j)) q'
        t.frames := by
    rw [hhand, Stage.phaseIn_held, update_idem]
    exact .starting hother hq (fun u hu => hlaw u (.of_le hv.later hu)) (hf.later hv.later)
  generalize hprog : t.prog = prog at hpoint hgo
  cases hpoint with
  | marking =>
    have hstep : Stage.Next j (stage o) (.held .enrolling j) := ho ▸ .mark
    obtain ⟨hnext, hkept⟩ := h.kept.setState h.sound ho .enrolling rfl
    cases hgo
    exact .of_some rfl hstep (h.put_next hj hstep (fun i hi => Stage.phaseIn_held_of_ne _ hi.symm)
      hnext hkept (hsits hnext .enrolling)) hnext.later
  | enrolling =>
    have hstep : Stage.Next j (stage o) (.held .launching j) := ho ▸ .enrol
    obtain ⟨hnext, hkept⟩ := h.kept.enrol h.sound (s := .held .launching j) (by rw [ho]; nofun)
      (by rw [ho]; rfl) (by rw [ho]; rfl) rfl
    cases hgo
    exact .of_some rfl hstep (h.put_next hj hstep (fun i hi => Stage.phaseIn_held_of_ne _ hi.symm)
      hnext hkept (hsits hnext .launching)) hnext.later
  | launching => cases hgo

/-- A turn of the task of a thread outside `run()`. -/
theorem Governed.take_hosting (h : m.Governed stage) (hj : m.tasks[j]? = some t)
    (hhand : (fun o => (stage o).phaseIn j) = update (inHand none) o (some ph))
    (hpoint : Hosts o ph t.prog t.frames) (hgo : Goes t.id m.world expired t.prog t.frames v p fs) :
    m.Advances j stage (t.prog.deed? m.world t.frames) (m.put j t v p fs) := by
  have ho : stage o = .held ph j :=
    Stage.eq_held ((congrFun hhand o).trans (update_self ..))
  have hcalm {q : Prog} {gs : List Frame} {deed : Option (ObjId × Deed)} (hdeed : deed = none)
      (hc : m.world.Calm v) (hq : Hosts o ph q gs) : m.Advances j stage deed (m.put j t v q gs) :=
    .of_none hdeed (h.put hj hc.next (h.kept.calm hc) (hhand ▸ .hosting hq)) hc.later
  have hmove {ph' : Phase} {q : Prog} {gs : List Frame} {d : Deed}
      (hd : d.stage j m.tasks.size = .held ph' j) (hn : Stage.Next j (stage o) (.held ph' j))
      (hv : m.world.Next v) (hk : v.Kept (update stage o (.held ph' j)))
      (hq : Sits v (update (inHand none) o (some ph')) q gs) :
      m.Advances j stage (some (o, d)) (m.put j t v q gs) := by
    refine .of_some rfl (hd ▸ hn) ?_ hv.later
    rw [hd]
    refine h.put_next hj hn (fun i hi => Stage.phaseIn_held_of_ne _ hi.symm) hv hk ?_
    rw [hhand, Stage.phaseIn_held, update_idem]
    exact hq
  generalize t.prog = prog, t.frames = frames at hpoint hgo
  cases hpoint with
  | entering =>
    rw [Run.program_eq] at hgo ⊢
    cases hgo
    exact hcalm rfl (.refl h.sound) (.binding _)
  | binding u =>
    cases hgo
    exact hcalm rfl (World.calm_modifyHomeRegistry h.sound o fun _ => rfl) (.hosting u)
  | hosting u =>
    cases hgo
    exact hcalm rfl (.refl h.sound) (.beginning u)
  | beginning u =>
    obtain ⟨hnext, hkept⟩ := h.kept.setState h.sound ho .inside rfl
    cases hgo
    refine hmove (d := .enter) rfl (ho ▸ .enter) hnext hkept ?_
    rw [update_inHand_inside]
    exact .free (lawful_body hnext.sound o u) .base
  | recording e =>
    cases hgo
    exact hcalm rfl (World.calm_modifyThread_aside h.sound o fun _ => ⟨rfl, rfl⟩) (.reporting e _)
  | reporting e name =>
    obtain ⟨u, hu, hh, -⟩ := h.kept.held ho
    obtain ⟨home, hhome⟩ := Option.isSome_iff_exists.mp hh
    cases hgo
    dsimp only
    rw [hu, Option.getD_some, hhome]
    exact hcalm rfl (.refl h.sound) (.writing home _)
  | writing home text =>
    cases hgo
    exact hcalm rfl (World.calm_surroundings h.sound rfl rfl rfl h.sound.named h.sound.shared) .unbinding
  | unbinding =>
    cases hgo
    exact hcalm rfl (World.calm_modifyHomeRegistry h.sound o fun _ => rfl) .terminating
  | terminating =>
    obtain ⟨hnext, hkept⟩ := h.kept.setState h.sound ho .closing rfl
    cases hgo
    exact hmove (d := .terminate) rfl (ho ▸ .terminate) hnext hkept (.hosting .closing)
  | closing =>
    obtain ⟨v', hv', hnext, hkept⟩ := h.kept.endThread h.sound ho
    have hexec : (Instr.endThread o).exec t.id m.world = (.ok (), v') := by
      simp only [Instr.exec, hv', World.attempt]
    have hn : Stage.Next j (stage o) .past := ho ▸ .close
    cases hgo
    rw [hexec]
    refine .of_some rfl hn (h.put_next hj hn (fun _ _ => rfl) hnext hkept ?_) hnext.later
    show Sits _ (update _ o (Stage.past.phaseIn j)) _ _
    rw [hhand, update_idem, show Stage.past.phaseIn j = inHand none o from rfl,
      update_eq_self]
    exact .free (.finish _) .base

/-- The thread to which a turn does something, and what. -/
def deed? (m : Machine) (τ : Turn) : Option (ObjId × Deed) :=
  m.tasks[τ.task]?.bind fun t => t.prog.deed? m.world t.frames

theorem deed?_eq (ht : m.tasks[τ.task]? = some t) : m.deed? τ = t.prog.deed? m.world t.frames := by
  unfold deed?
  rw [ht]
  rfl

/-- **A turn keeps a machine governed**, by stages that what it does determines. -/
theorem Governed.advances (h : m.Governed stage) (hτ : m.take τ = some n) :
    m.Advances τ.task stage (m.deed? τ) n := by
  obtain ⟨t, ht, ⟨v, p, fs, hgo, rfl⟩ | ⟨o, k, -, hprog, rfl⟩⟩ := take_cases hτ
  · rw [deed?_eq ht]
    have hsits := h.task ht
    generalize hhand : (fun o => (stage o).phaseIn τ.task) = hand at hsits
    generalize hp : t.prog = prog, hf : t.frames = frames at hsits
    subst hp hf
    cases hsits with
    | free lawful frames => exact h.take_free ht hhand lawful frames hgo
    | starting other point lawful frames =>
      exact h.take_starting ht other hhand point lawful frames hgo
    | hosting point => exact h.take_hosting ht hhand point hgo
  · rw [deed?_eq ht]
    have hsits := h.task ht
    generalize hhand : (fun o => (stage o).phaseIn τ.task) = hand at hsits
    rw [hprog] at hsits ⊢
    cases hsits with
    | free lawful frames => cases lawful
    | hosting point => cases point
    | starting other point lawful frames =>
      cases point with
      | launching =>
        have ho : stage o = .held .launching τ.task :=
          Stage.eq_held ((congrFun hhand o).trans (update_self ..))
        refine .of_some rfl (ho ▸ .launch _) (h.fork ht ho ?_) (World.le_of_same rfl rfl rfl)
        rw [hhand, update_idem, ← inHand_of_ne other, update_eq_self]
        exact .free (lawful _ (.refl h.sound)) frames

/-- A turn moves at most one thread by one stage. -/
theorem Governed.take (h : m.Governed stage) (hτ : m.take τ = some n) :
    ∃ stage', n.Governed stage' ∧ m.world ≤ n.world ∧ Progress τ.task stage stage' :=
  have hadvances := h.advances hτ
  ⟨_, hadvances.governed, hadvances.later, hadvances.progress⟩

end Machine

/-! ## Runs from the beginning -/

/-- A world in which nothing has happened yet but that there may be runtimes. -/
structure World.Fresh (w : World) : Prop where
  objects : w.objects = #[]
  tables : w.tables = #[]
  runtime : ∀ {r rt}, w.runtime? r = some rt →
    rt.classes = World.builtinClasses r ∧ rt.constants = [] ∧ rt.registry = {}
  named : ∀ {name r}, w.scene.runtimes.get? name = some r → w.Has r
  shared : ∀ r ∈ w.globalRuntime, w.Has r

namespace World.Fresh

variable {w : World}

theorem object? (h : w.Fresh) (o : ObjId) : w.object? o = none := by
  unfold World.object?
  rw [h.objects]
  rfl

theorem thread? (h : w.Fresh) (o : ObjId) : w.thread? o = none := by
  unfold World.thread?
  rw [h.object? o]

theorem startedThreads (h : w.Fresh) (r : RuntimeId) : w.startedThreads r = [] := by
  unfold World.startedThreads World.registry
  cases hr : w.runtime? r with
  | none => rfl
  | some rt =>
    obtain ⟨-, -, hreg⟩ := h.runtime hr
    show rt.registry.started = []
    rw [hreg]

theorem sound (h : w.Fresh) : w.Sound := by
  refine ⟨fun {o obj} ho => ?_, fun {r rt} hr => ?_, fun {t mt} ht => ?_, h.named, h.shared⟩
  · rw [h.object? o] at ho
    cases ho
  · obtain ⟨hc, hk, -⟩ := h.runtime hr
    exact World.sound_newRuntime hr hc hk
  · rw [h.tables] at ht
    cases ht

/-- At the beginning no life has begun. -/
theorem kept (h : w.Fresh) : w.Kept fun _ => .idle := by
  refine ⟨fun {o t} ht => ?_, fun ho => absurd rfl ho, fun r o => ?_, fun r => ?_⟩
  · rw [h.thread? o] at ht
    cases ht
  · rw [h.startedThreads r]
    exact ⟨fun hm => (nomatch hm), fun ⟨he, _⟩ => (nomatch he)⟩
  · rw [h.startedThreads r]
    exact List.Pairwise.nil

end World.Fresh

/-- A world with one runtime and nothing else. -/
def World.single (c : Config) (tasks : Nat) : World where
  runtimes := #[{ config := c, session := [], startedAt := 0, classes := World.builtinClasses 0 }]
  tasks := tasks

theorem World.fresh_single (c : Config) (tasks : Nat) : (World.single c tasks).Fresh := by
  refine ⟨rfl, rfl, fun {r rt} hr => ?_, fun h => (nomatch h), fun r h => (nomatch h)⟩
  obtain ⟨hlt, rfl⟩ := Array.getElem?_eq_some_iff.mp hr
  cases Nat.lt_one_iff.mp hlt
  exact ⟨rfl, rfl, rfl⟩

theorem World.assumes_single (c : Config) (tasks : Nat) : (World.single c tasks).Assumes [.home (some 0)] := by
  intro p hp
  cases List.mem_singleton.mp hp
  rintro r ⟨⟩
  exact ⟨_, rfl⟩

namespace Machine

variable {n m : Machine} {c : Config} {ts : List Task} {τ : Turn}

/-- A machine at the beginning: its tasks belong to the host and have lawful programs. -/
structure Initial (m : Machine) : Prop where
  fresh : m.world.Fresh
  task : ∀ {j : Nat} {t : Task}, m.tasks[j]? = some t → t.frames = [] ∧ t.prog.Lawful none m.world

/-- Tasks of the host that begin in a world with one runtime. -/
theorem initial_single {n} (h : ∀ t ∈ ts, t.frames = [] ∧ t.prog.Lawful none (World.single c n)) :
    Initial { world := World.single c n, tasks := ts.toArray } := by
  refine ⟨World.fresh_single c n, fun {j t} ht => h t ?_⟩
  rw [List.getElem?_toArray] at ht
  exact List.mem_of_getElem? ht

/-- A program that the host may begin in a world with one runtime. -/
class Launchable (p : Prog) : Prop where
  lawful : ∀ c n, p.Lawful none (World.single c n)

/-- An operation of the host, and what follows it. -/
theorem launchable_run {α : Type} {x : Op α} (hx : Op.Lawful [.home (some 0)] x) {k : Except Err α → Prog}
    (hk : ∀ r, ∃ out, k r = .finish out) : Launchable (x k) := by
  refine ⟨fun c n => hx.run (World.fresh_single c n).sound (World.assumes_single c n) fun r v _ => ?_⟩
  obtain ⟨out, hout⟩ := hk r
  rw [hout]
  exact .finish _

instance {x : Op Unit} [hx : Op.Lawful [.home (some 0)] x] : Launchable x.toProgUnit :=
  launchable_run hx fun r => by cases r <;> exact ⟨_, rfl⟩

instance {x : Op Value} [hx : Op.Lawful [.home (some 0)] x] : Launchable x.toProg :=
  launchable_run hx fun r => by cases r <;> exact ⟨_, rfl⟩

/-- Tasks that the host may begin in a world with one runtime. -/
class Launch (ts : List Task) : Prop where
  task : ∀ t ∈ ts, t.frames = [] ∧ Launchable t.prog

instance : Launch [] := ⟨nofun⟩

instance {id : TaskId} {p : Prog} {ts : List Task} [hp : Launchable p] [hts : Launch ts] :
    Launch ({ id, prog := p } :: ts) :=
  ⟨List.forall_mem_cons.mpr ⟨⟨rfl, hp⟩, hts.task⟩⟩

theorem initial_launch {n : Nat} [h : Launch ts] : Initial { world := World.single c n, tasks := ts.toArray } :=
  initial_single fun t ht => ⟨(h.task t ht).1, (h.task t ht).2.lawful c n⟩

/-- A machine that some run from a beginning leads to. -/
def Reachable (m : Machine) : Prop := ∃ m₀, Initial m₀ ∧ Run m₀ m

theorem Initial.governed (h : m.Initial) : m.Governed fun _ => .idle := by
  refine ⟨h.fresh.sound, h.fresh.kept, fun {j t} ht => ?_, nofun⟩
  obtain ⟨hf, hp⟩ := h.task ht
  rw [hf]
  exact .free hp .base

theorem Initial.reachable (h : m.Initial) : m.Reachable := ⟨m, h, .refl m⟩

/-- **Stages fit every machine that can be reached.** -/
theorem Reachable.governed (h : m.Reachable) : ∃ stage, m.Governed stage := by
  obtain ⟨m₀, h₀, hrun⟩ := h
  induction hrun with
  | refl => exact ⟨_, h₀.governed⟩
  | tail _ move ih =>
    obtain ⟨stage, hg⟩ := ih
    obtain ⟨τ, hτ⟩ := move_iff.mp move
    obtain ⟨stage', hg', -⟩ := hg.take hτ
    exact ⟨stage', hg'⟩

theorem Reachable.run (h : m.Reachable) (hrun : Run m n) : n.Reachable := by
  obtain ⟨m₀, h₀, hrun₀⟩ := h
  exact ⟨m₀, h₀, hrun₀.trans hrun⟩

theorem Reachable.take (h : m.Reachable) (hτ : m.take τ = some n) : n.Reachable := h.run (.take hτ)

theorem Reachable.sound (h : m.Reachable) : m.world.Sound := by
  obtain ⟨stage, hg⟩ := h.governed
  exact hg.sound

theorem Reachable.le_take (h : m.Reachable) (hτ : m.take τ = some n) : m.world ≤ n.world := by
  obtain ⟨stage, hg⟩ := h.governed
  obtain ⟨-, -, hle, -⟩ := hg.take hτ
  exact hle

theorem Reachable.le (h : m.Reachable) (hrun : Run m n) : m.world ≤ n.world := by
  induction hrun with
  | refl => exact le_refl _
  | tail run move ih =>
    obtain ⟨τ, hτ⟩ := move_iff.mp move
    exact ih.trans ((h.run run).le_take hτ)

end Machine

/-! ## Registered threads -/

/-- The thread in whose `run()` a task is, if it is the task of a thread. -/
def Task.running? (t : Task) : Option ObjId := runningIn t.frames

/-- Whether a thread has terminated at a stage. -/
def Stage.isTerminated (s : Stage) : Prop := s.life.2.2.1 = .terminated

theorem Stage.Next.isTerminated (h : Stage.Next j a b) (ha : a.isTerminated) : b.isTerminated := by
  cases h with
  | close => rfl
  | reserve | mark | enrol | launch | enter | leave | terminate => cases ha

/-- A step that enrols a thread is the registration. -/
theorem Stage.Next.eq_enrolling (h : Stage.Next j a b) (ha : a.enrolled = false) (hb : b.enrolled) :
    a = .held .enrolling j := by
  cases h with
  | enrol => rfl
  | reserve | mark => cases hb
  | launch | enter | leave | terminate | close => cases ha

theorem Stage.Next.enrolled (h : Stage.Next j a b) (ha : a.enrolled) : b.enrolled := by
  cases h with
  | reserve | mark | enrol => cases ha
  | launch | enter | leave | terminate | close => rfl

theorem World.Kept.isTerminated_iff {stage} (hk : w.Kept stage) (o : ObjId) :
    w.isTerminated o ↔ (stage o).isTerminated := by
  unfold World.isTerminated Stage.isTerminated
  constructor
  · intro h
    cases ht : w.thread? o with
    | none =>
      rw [ht] at h
      cases h
    | some t =>
      rw [ht] at h
      have hstate : t.state = .terminated := eq_of_beq h
      rcases hk.fits ht with hl | ⟨hl, -⟩
      · exact (congrArg (·.2.2.1) hl).symm.trans hstate
      · cases hstate.symm.trans (congrArg (·.2.2.1) hl)
  · intro h
    have hne : stage o ≠ .idle := by
      intro hidle
      rw [hidle] at h
      cases h
    obtain ⟨t, ht, -⟩ := hk.startable hne
    rw [ht]
    have hstate : t.state = .terminated := (congrArg (·.2.2.1) ((hk.fits ht).life_eq hne)).trans h
    exact beq_iff_eq.mpr hstate

namespace Machine

variable {m n : Machine} {o : ObjId} {r : RuntimeId} {τ : Turn}

theorem Progress.of_next {stage stage'} (h : Progress j stage stage') {P : Stage → Prop}
    (hP : ∀ {a b}, Stage.Next j a b → P a → P b) (ho : P (stage o)) : P (stage' o) := by
  rcases h with rfl | ⟨p, s, hn, rfl⟩
  · exact ho
  · by_cases hp : o = p
    · subst hp
      rw [update_self]
      exact hP hn ho
    · rw [update_of_ne hp]
      exact ho

/-- A registered thread can be joined. -/
theorem Reachable.joinable (h : m.Reachable) (ho : o ∈ m.world.startedThreads r) :
    ∃ t, m.world.thread? o = some t ∧ t.joinable = .ok () := by
  obtain ⟨stage, hg⟩ := h.governed
  obtain ⟨he, t, ht, hr⟩ := (hg.kept.started r o).mp ho
  have hne := World.ne_idle_of_enrolled he
  have hlife := (hg.kept.fits ht).life_eq hne
  have hadopted : t.adopted = false ∧ t.started = true := by
    cases hs : stage o with
    | idle => exact absurd hs hne
    | past =>
      rw [hs] at hlife
      exact ⟨congrArg Prod.fst hlife, congrArg (·.2.1) hlife⟩
    | held ph j =>
      rw [hs] at hlife
      have hl := hlife.trans (World.life_phase ph)
      exact ⟨congrArg Prod.fst hl, congrArg (·.2.1) hl⟩
  refine ⟨t, ht, ?_⟩
  unfold Thread.joinable
  simp [hadopted.1, hadopted.2, hr]

/-- A registered thread stays registered. -/
theorem Reachable.started_mono (h : m.Reachable) (hτ : m.take τ = some n) (ho : o ∈ m.world.startedThreads r) :
    o ∈ n.world.startedThreads r := by
  obtain ⟨stage, hg⟩ := h.governed
  obtain ⟨stage', hg', hle, hprog⟩ := hg.take hτ
  obtain ⟨he, t, ht, hr⟩ := (hg.kept.started r o).mp ho
  obtain ⟨u, hu, hl⟩ := World.thread?_later hle ht
  refine (hg'.kept.started r o).mpr ⟨hprog.of_next (P := fun s => s.enrolled) (·.enrolled) he, u, hu, ?_⟩
  rw [hl.home (by rw [hr]; rfl), hr]

/-- A thread that has terminated stays so. -/
theorem Reachable.terminated_take (h : m.Reachable) (hτ : m.take τ = some n) (ho : m.world.isTerminated o) :
    n.world.isTerminated o := by
  obtain ⟨stage, hg⟩ := h.governed
  obtain ⟨stage', hg', -, hprog⟩ := hg.take hτ
  rw [hg.kept.isTerminated_iff] at ho
  rw [hg'.kept.isTerminated_iff]
  exact hprog.of_next (·.isTerminated) ho

/-- A turn registers a thread only by the instruction that does so. -/
theorem Reachable.started_take (h : m.Reachable) (hτ : m.take τ = some n) (ho : o ∈ n.world.startedThreads r) :
    o ∈ m.world.startedThreads r ∨ ∃ t k, m.tasks[τ.task]? = some t ∧
      t.prog = .perform (.register o) k ∧ ∃ u, m.world.thread? o = some u ∧ u.home = some r := by
  obtain ⟨stage, hg⟩ := h.governed
  obtain ⟨stage', hg', hle, hprog⟩ := hg.take hτ
  obtain ⟨he, u, hu, hr⟩ := (hg'.kept.started r o).mp ho
  have hhome : stage o ≠ .idle → ∃ t, m.world.thread? o = some t ∧ t.home = some r := fun hne =>
    ((hg.kept.startable hne).home_iff hle r).mp ⟨u, hu, hr⟩
  by_cases hold : (stage o).enrolled
  · exact .inl ((hg.kept.started r o).mpr ⟨hold, hhome (World.ne_idle_of_enrolled hold)⟩)
  · right
    rw [Bool.not_eq_true] at hold
    have hstage : stage o = .held .enrolling τ.task := by
      rcases hprog with rfl | ⟨p, s, hn, rfl⟩
      · rw [hold] at he
        cases he
      · by_cases hp : o = p
        · subst hp
          rw [update_self] at he
          exact hn.eq_enrolling hold he
        · rw [update_of_ne hp, hold] at he
          cases he
    obtain ⟨t, ht, -⟩ := take_cases hτ
    have hsits := hg.task ht
    have hhand : (fun o => (stage o).phaseIn τ.task) o = some .enrolling := by
      dsimp only
      rw [hstage, Stage.phaseIn_held]
    obtain ⟨k, hk⟩ := hsits.eq_register hhand
    exact ⟨t, k, ht, hk, hhome (by rw [hstage]; nofun)⟩

/-- A task that registers a thread in the `run()` of another one does so while that one lives. -/
theorem Reachable.not_terminated_of_register (h : m.Reachable) {t} (ht : m.tasks[j]? = some t) {x k}
    (hp : t.prog = .perform (.register o) k) (hx : t.running? = some x) : ¬ m.world.isTerminated x := by
  obtain ⟨stage, hg⟩ := h.governed
  rw [hg.kept.isTerminated_iff]
  have hsits := hg.task ht
  generalize hhand : (fun o => (stage o).phaseIn j) = hand at hsits
  rw [hp] at hsits
  have hstage : stage x = .held .inside j := by
    refine Stage.eq_held ((congrFun hhand x).trans ?_)
    exact hsits.runs_of_register hg.sound hx
  rw [hstage]
  nofun

end Machine

/-- A scenario begins with a machine at the beginning. -/
theorem Scenario.initial (s : Scenario) {home} (h : s.world.newRuntime s.config = .ok (home, w)) :
    (Machine.start (w.edit (.nameRuntime mainName home))
      (Script.main { home := some home } s.script).toProgUnit).Initial := by
  obtain ⟨rt, lockChecking, -, hnew, heq⟩ := World.newRuntime_ok h
  obtain ⟨rfl, rfl⟩ := Prod.mk.inj heq
  have hruntime {r : RuntimeId} {rt' : Runtime} (hr : #[rt][r]? = some rt') : r = 0 ∧ rt' = rt := by
    obtain ⟨hlt, rfl⟩ := Array.getElem?_eq_some_iff.mp hr
    have h0 : r = 0 := Nat.lt_one_iff.mp hlt
    subst h0
    exact ⟨rfl, rfl⟩
  have hfresh : World.Fresh (World.edit
      { s.world with
        clock := s.world.clock + 1, runtimes := s.world.runtimes.push rt, lockChecking }
      (.nameRuntime mainName s.world.runtimes.size)) := by
    refine ⟨rfl, rfl, fun {r rt'} hr => ?_, fun {name r} hr => ?_, nofun⟩
    · obtain ⟨rfl, rfl⟩ := hruntime hr
      exact ⟨hnew.classes, hnew.constants, hnew.registry⟩
    · by_cases hname : name = mainName
      · rw [hname] at hr
        cases (Dictionary.get?_insert_self ..).symm.trans hr
        exact ⟨rt, rfl⟩
      · cases (Dictionary.get?_insert_of_ne _ _ hname).symm.trans hr
  refine ⟨hfresh, fun {j t} ht => ?_⟩
  obtain ⟨hlt, rfl⟩ := Array.getElem?_eq_some_iff.mp ht
  have h0 : j = 0 := Nat.lt_one_iff.mp hlt
  subst h0
  have hmain : Lawful [.home (some s.world.runtimes.size)]
      (Script.main { home := some s.world.runtimes.size } s.script) := lawful_main _ _
  refine ⟨rfl, lawful_toProgUnit hmain hfresh.sound fun p hp => ?_⟩
  cases List.mem_singleton.mp hp
  intro r hr
  cases hr
  exact ⟨rt, rfl⟩

end ObjectKernel
