import ObjectKernel.Proofs.CourseRuns
import ObjectKernel.Proofs.Quiescence

/-!
# The course of a barrier

A call of the shutdown barrier looks for the thread of its task, waits for the others in passes, is
counted, and takes and writes a report if a place for it is configured. Its passes call one another, so
that the task stands above the frames that it had when the barrier began.

## Contents

* `Barrier.Point`, `Barrier.course`: how far a barrier has come. `Barrier.guides`: the programs on the way.
* `Barrier.combine`: what a barrier returns, from what came of the waiting and of the report.
* `Barrier.Point.Proper`, `Barrier.Point.Interrupted`: a barrier waits for threads that can be joined, and
  gives up only when a wait of its ends before its time.
-/

namespace ObjectKernel

namespace Barrier

/-- How far a barrier has come. While it waits it knows the thread that it does not wait for, and in how many
passes it is besides the first one. -/
inductive Point where
  | entering
  | asking
  | calling (self : Option ObjId)
  | looking (self : Option ObjId) (depth : Nat)
  | passing (self : Option ObjId) (depth : Nat) (os : List ObjId)
  | awaiting (self : Option ObjId) (depth : Nat) (o : ObjId) (os : List ObjId)
  | failing (self : Option ObjId) (depth : Nat) (o : ObjId) (e : Err)
  | joined (self : Option ObjId) (depth : Nat) (r : Except Err Unit)
  | counting (joined : Except Err Unit)
  | choosing (joined : Except Err Unit)
  | reporting (joined : Except Err Unit) (path : Bytes)
  | writing (joined : Except Err Unit) (path : Bytes) (report : Report)
  | returned (r : Except Err Unit)
  deriving DecidableEq

/-- What a barrier returns. -/
def combine : Except Err Unit → Except Err Unit → Except Err Unit
  | .ok _, written => written
  | .error e, .ok _ => .error e
  | .error e, .error f => .error (.followedBy e f.message)

/-- What comes of writing a report. -/
def writing (path : Bytes) : Except FileError Unit → Except Err Unit
  | .ok _ => .ok ()
  | .error e => .error (.reportNotWritten path e)

section

variable (home : RuntimeId) (bound : Option Expiry) (id : TaskId)

/-- The turns of a barrier. -/
def course : Course Point where
  next w expired
    | .entering => .asking
    | .asking => .calling (w.ownThread? home id)
    | .calling self => .looking self 0
    | .looking self depth =>
      if (w.pendingThreads home self).isEmpty then .joined self depth (.ok ())
      else .passing self depth (w.pendingThreads home self)
    | .passing self depth [] => .looking self (depth + 1)
    | .passing self depth (o :: os) =>
      match ((w.thread? o).getD {}).joinable with
      | .ok _ => .awaiting self depth o os
      | .error f => .failing self depth o (.fault f)
    | .awaiting self depth o os =>
      match expired, bound with
      | true, some e => .failing self depth o (.expired e)
      | _, _ => .passing self depth os
    | .failing self depth o e =>
      .joined self depth (.error (.barrierInterrupted ((w.thread? o).getD {}).name e))
    | .joined self (depth + 1) r => .joined self depth r
    | .joined _ 0 r => .counting r
    | .counting r => .choosing r
    | .choosing r =>
      if (w.config home).reportPath = [] then .returned r else .reporting r (w.config home).reportPath
    | .reporting r path => .writing r path (w.takeReport home).1
    | .writing r path report =>
      .returned (combine r (writing path (w.attempt (w.writeFile path report.encode)).1))
    | .returned r => .returned r
  isOver
    | .returned _ => true
    | _ => false

/-! ## The programs on the way -/

variable (next : Except Err Unit → Prog)

/-- Writes the report. -/
def writer (joined : Except Err Unit) (path : Bytes) (report : Report) : Prog :=
  .perform (.writeFile path report.encode) fun a => next (combine joined (writing path a))

/-- Takes the report. -/
def reporter (joined : Except Err Unit) (path : Bytes) : Prog :=
  .perform (.takeReport home) (writer next joined path)

/-- Looks whether there is to be a report. -/
def chooser (joined : Except Err Unit) : Prog := .observe fun _ w =>
  if (w.config home).reportPath = [] then next joined
  else reporter home next joined (w.config home).reportPath

/-- Counts the barrier. -/
def counter (joined : Except Err Unit) : Prog :=
  .perform (.countBarrier home) fun _ => chooser home next joined

/-- What follows the waiting. -/
def resumed : Except Err Value → Prog
  | .ok _ => counter home next (.ok ())
  | .error e => counter home next (.error e)

/-- Looks for the thread of the task, and waits for the others. -/
def asker (t : TaskId) : Prog := .observe fun _ w =>
  .call (.joinAll home (w.ownThread? home t) bound) (resumed home next)

/-- How the waiting ends. -/
def ended : Except Err Unit → Prog
  | .ok _ => .finish (.value .null)
  | .error e => .finish (.error e)

/-- Where the task of a barrier stands. -/
def prog : Point → Prog
  | .entering => .observe fun t _ => asker home bound next t
  | .asking => asker home bound next id
  | .calling self => .call (.joinAll home self bound) (resumed home next)
  | .looking self _ => Joining.looking home self bound
  | .passing self _ os => Joining.passing home self bound os
  | .awaiting self _ o os =>
    .await (.ended o) bound (Joining.awaited bound o (Joining.passing home self bound os))
  | .failing _ _ o e => Joining.interrupted o e
  | .joined _ _ r => ended r
  | .counting r => counter home next r
  | .choosing r => chooser home next r
  | .reporting r path => reporter home next r path
  | .writing r path report => writer next r path report
  | .returned r => next r

/-- The frames of the passes, and the one of the barrier that waits for them. -/
def passes (depth : Nat) : List Frame :=
  List.replicate depth (.caller Joining.again) ++ [.caller (resumed home next)]

/-- The frames that the task of a barrier has above its own. -/
def above : Point → List Frame
  | .looking _ depth | .passing _ depth _ | .awaiting _ depth _ _ | .failing _ depth _ _
  | .joined _ depth _ => passes home next depth
  | _ => []

/-- What follows the look at the settings, whatever is made of what came of the report. -/
theorem report_eq {joined f} (hf : ∀ written, f written next = next (combine joined written)) (path : Bytes) :
    (Op.result (if path ≠ [] then
        Op.perform (.takeReport home) >>= fun r => Op.writeReport path r else pure ()) >>= f) next =
      if path = [] then next joined else reporter home next joined path := by
  by_cases hpath : path = []
  · rw [if_pos hpath, if_neg (not_not.mpr hpath)]
    refine (hf (.ok ())).trans (congrArg next ?_)
    cases joined <;> rfl
  · rw [if_neg hpath, if_pos hpath]
    refine congrArg (Prog.perform (.takeReport home)) (funext fun report => ?_)
    refine congrArg (Prog.perform (.writeFile path report.encode)) (funext fun a => ?_)
    cases a with
    | ok => exact hf (.ok ())
    | error e => exact hf (.error (.reportNotWritten path e))

/-- **A barrier takes this course.** -/
theorem barrierBounded_eq : Op.barrierBounded home bound next = prog home bound id next .entering := by
  refine Prog.observe_congr fun t _ => ?_
  refine Prog.observe_congr fun _ w => ?_
  refine congrArg (Prog.call _) (funext fun r => ?_)
  cases r with
  | ok v =>
    refine congrArg (Prog.perform (.countBarrier home)) (funext fun _ => ?_)
    refine Prog.observe_congr fun _ w => ?_
    refine report_eq home next (fun written => ?_) _
    cases written <;> rfl
  | error e =>
    refine congrArg (Prog.perform (.countBarrier home)) (funext fun _ => ?_)
    refine Prog.observe_congr fun _ w => ?_
    refine report_eq home next (fun written => ?_) _
    cases written <;> rfl

theorem guides : (course home bound id).Guides id (prog home bound id next) (above home next) where
  goes {s w v expired fs gs q} hs hgo := by
    cases s with
    | returned => cases hs
    | entering =>
      cases hgo
      exact ⟨rfl, rfl⟩
    | asking =>
      cases hgo
      exact ⟨rfl, rfl⟩
    | calling self =>
      cases hgo
      exact ⟨Joining.program_eq home self bound, rfl⟩
    | looking self depth =>
      cases hgo
      dsimp only [course]
      split
      · exact ⟨rfl, rfl⟩
      · exact ⟨rfl, rfl⟩
    | passing self depth os =>
      cases os with
      | nil =>
        cases hgo
        exact ⟨Joining.program_eq home self bound, rfl⟩
      | cons o os =>
        cases hgo
        dsimp only [course]
        cases ((w.thread? o).getD {}).joinable with
        | ok => exact ⟨rfl, rfl⟩
        | error => exact ⟨rfl, rfl⟩
    | awaiting self depth o os =>
      cases hgo with
      | await => cases bound <;> exact ⟨rfl, rfl⟩
      | expire => exact ⟨rfl, rfl⟩
    | failing self depth o e =>
      cases hgo
      exact ⟨rfl, rfl⟩
    | joined self depth r =>
      cases depth with
      | zero =>
        cases r with
        | ok => cases hgo; exact ⟨rfl, rfl⟩
        | error => cases hgo; exact ⟨rfl, rfl⟩
      | succ depth =>
        cases r with
        | ok => cases hgo; exact ⟨rfl, rfl⟩
        | error => cases hgo; exact ⟨rfl, rfl⟩
    | counting r =>
      cases hgo
      exact ⟨rfl, rfl⟩
    | choosing r =>
      cases hgo
      dsimp only [course]
      split
      · exact ⟨rfl, rfl⟩
      · exact ⟨rfl, rfl⟩
    | reporting r path =>
      cases hgo
      exact ⟨rfl, rfl⟩
    | writing r path report =>
      cases hgo
      exact ⟨rfl, rfl⟩
  spawnless {s} hs o k := by
    cases s with
    | returned => cases hs
    | passing self depth os => cases os <;> nofun
    | joined self depth r => cases r <;> nofun
    | entering | asking | calling | looking | awaiting | failing | counting | choosing | reporting
    | writing => nofun

end

/-! ## Waiting and giving up -/

section

variable {home : RuntimeId} {bound : Option Expiry} {id : TaskId} {w v : World} {s : Point}
  {joined : Except Err Unit}

/-- What can come of the waiting: every thread has ended, or a wait has ended before its time. -/
inductive Waited (bound : Option Expiry) : Except Err Unit → Prop where
  | done : Waited bound (.ok ())
  | interrupted (name : Bytes) {e : Expiry} (bounded : bound = some e) :
      Waited bound (.error (.barrierInterrupted name (.expired e)))

/-- An outcome is an error that wraps the end of a wait before its time. -/
def Wraps (e : Expiry) : Except Err Unit → Prop
  | .ok _ => False
  | .error err => Err.expired e ∈ err.causes

theorem Waited.wraps_iff (h : Waited bound joined) (e : Expiry) :
    Wraps e joined ↔ joined ≠ .ok () ∧ bound = some e := by
  cases h with
  | done => simp [Wraps]
  | interrupted name bounded => simp [Wraps, Err.causes, bounded, eq_comm]

theorem Waited.wraps_any (h : Waited bound joined) : (∃ e, Wraps e joined) ↔ joined ≠ .ok () := by
  simp only [h.wraps_iff]
  cases h with
  | done => simp
  | interrupted name bounded => simp [bounded]

/-- What a barrier returns wraps the end of a wait whether or not the report could be written. -/
theorem Waited.wraps_combine (h : Waited bound joined) (path : Bytes) (a : Except FileError Unit) (e : Expiry) :
    Wraps e (combine joined (writing path a)) ↔ Wraps e joined := by
  cases h with
  | done => cases a <;> simp [combine, writing, Wraps, Err.causes]
  | interrupted name bounded => cases a <;> simp [combine, writing, Wraps, Err.causes]

theorem combine_eq_ok {written : Except Err Unit} :
    combine joined written = .ok () ↔ joined = .ok () ∧ written = .ok () := by
  cases joined <;> cases written <;> simp [combine]

theorem writing_eq_ok {path : Bytes} {a : Except FileError Unit} : writing path a = .ok () ↔ a = .ok () := by
  cases a <;> simp [writing]

/-- A barrier waits for registered threads, and gives up only because of its bound. -/
def Point.Proper (bound : Option Expiry) (registered : List ObjId) : Point → Prop
  | .passing _ _ os | .awaiting _ _ _ os => ∀ o ∈ os, o ∈ registered
  | .failing _ _ _ e => ∃ x, bound = some x ∧ e = .expired x
  | .joined _ _ r | .counting r | .choosing r | .reporting r _ | .writing r _ _ => Waited bound r
  | .entering | .asking | .calling _ | .looking _ _ | .returned _ => True

theorem Point.Proper.mono {os os'} (hsub : ∀ o ∈ os, o ∈ os') (h : s.Proper bound os) : s.Proper bound os' := by
  cases s with
  | passing | awaiting => exact fun o ho => hsub o (h o ho)
  | failing | joined | counting | choosing | reporting | writing | entering | asking | calling | looking
  | returned => exact h

/-- A wait of the barrier has ended before its time. -/
def Point.Interrupted : Point → Prop
  | .failing .. => True
  | .joined _ _ r | .counting r | .choosing r | .reporting r _ | .writing r _ _ | .returned r =>
    ∃ e, Wraps e r
  | .entering | .asking | .calling _ | .looking _ _ | .passing .. | .awaiting .. => False

/-- **A turn of a barrier keeps it proper, and interrupts it just if it ends a wait before its time.** -/
theorem Point.Proper.next (hs : s.Proper bound (w.startedThreads home))
    (hjoin : ∀ o ∈ w.startedThreads home, ∃ t, w.thread? o = some t ∧ t.joinable = .ok ()) {next expired fs gs q}
    (going : (course home bound id).isOver s = false)
    (hgo : Goes id w expired (prog home bound id next s) (above home next s ++ fs) v q gs) :
    ((course home bound id).next w expired s).Proper bound (w.startedThreads home) ∧
      (((course home bound id).next w expired s).Interrupted ↔ s.Interrupted ∨ expired = true) := by
  cases s with
  | returned => cases going
  | entering | asking | calling =>
    cases hgo
    simp [course, Point.Proper, Point.Interrupted]
  | looking self depth =>
    cases hgo
    by_cases hnone : (w.pendingThreads home self).isEmpty
    · simp only [course, hnone, if_true]
      exact ⟨.done, by simp [Point.Interrupted, Wraps]⟩
    · simp only [course, hnone]
      exact ⟨fun o => Joining.mem_started_of_pending, by simp [Point.Interrupted]⟩
  | passing self depth os =>
    cases os with
    | nil =>
      cases hgo
      simp [course, Point.Proper, Point.Interrupted]
    | cons o os =>
      cases hgo
      obtain ⟨t, ht, hok⟩ := hjoin o (hs o List.mem_cons_self)
      simp only [course, ht, Option.getD_some, hok]
      exact ⟨fun x hx => hs x (List.mem_cons_of_mem o hx), by simp [Point.Interrupted]⟩
  | awaiting self depth o os =>
    cases hgo with
    | await =>
      have hnext : (course home bound id).next w false (.awaiting self depth o os) =
          .passing self depth os := by cases bound <;> rfl
      rw [hnext]
      exact ⟨hs, by simp [Point.Interrupted]⟩
    | expire c e k =>
      exact ⟨⟨e, rfl, rfl⟩, by simp [course, Point.Interrupted]⟩
  | failing self depth o e =>
    cases hgo
    obtain ⟨x, hx, rfl⟩ := hs
    have hwaited : Waited bound (.error (.barrierInterrupted ((w.thread? o).getD {}).name (.expired x))) :=
      .interrupted _ hx
    exact ⟨hwaited, by simp [course, Point.Interrupted, hwaited.wraps_any]⟩
  | joined self depth r =>
    cases depth <;> cases r <;> cases hgo <;> exact ⟨hs, by simp [course, Point.Interrupted]⟩
  | counting r =>
    cases hgo
    exact ⟨hs, by simp [course, Point.Interrupted]⟩
  | choosing r =>
    cases hgo
    by_cases hpath : (w.config home).reportPath = []
    · simp [course, hpath, Point.Proper, Point.Interrupted]
    · simp only [course, hpath, if_false]
      exact ⟨hs, by simp [Point.Interrupted]⟩
  | reporting r path =>
    cases hgo
    exact ⟨hs, by simp [course, Point.Interrupted]⟩
  | writing r path report =>
    cases hgo
    refine ⟨trivial, ?_⟩
    simp only [course, Point.Interrupted, Bool.false_eq_true, or_false]
    exact exists_congr fun e => Waited.wraps_combine hs path _ e

end

end Barrier

end ObjectKernel
