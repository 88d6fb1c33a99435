import ObjectKernel.Proofs.Accounts
import ObjectKernel.Proofs.Courses

/-!
# Starts of a thread

Any number of tasks may start a thread. A start asks for the reservation; if it gets it then it carries it
through, and otherwise it looks for the name of the thread and is refused. In every run the first start
that asks for the reservation gets it and no other one.

## Contents

* `Starting`: the points of a start that has asked for the reservation. `Starting.start_eq`.
* `Machine.starts`: the starts of a thread in a run, each with how far it has come.
* `Governed.reservation_cases`, `Governed.first_start`: who gets the reservation.
* `Governed.shows_of_granted`: how far the life of the thread is with a start that got it.
* `At.reserving`, `At.comes_of_start`: calls of `start()` are among the starts of the run.
-/

namespace ObjectKernel

open Op List

/-! ## The points of a start -/

namespace Starting

/-- How far a start has come that has asked for the reservation: it has it up to `started`, and has been
refused it from `naming` on. -/
inductive Point where
  | marking
  | enrolling
  | launching
  | started
  | naming
  | refused (name : Bytes)
  deriving DecidableEq

namespace Point

variable {s : Point}

/-- Where a reservation leads. -/
def reserved (granted : Bool) : Point := if granted then marking else naming

/-- Whether a start has the reservation. -/
def isGranted : Point → Bool
  | marking | enrolling | launching | started => true
  | naming | refused _ => false

/-- What a start has returned. -/
def answer? : Point → Option (Except Err Unit)
  | started => some (.ok ())
  | refused name => some (.error (.fault (.alreadyStarted name)))
  | marking | enrolling | launching | naming => none

/-- A start that returns something else than success was refused. -/
theorem illegalState_of_answer (hs : s ≠ started) {r} (hr : s.answer? = some r) :
    ∃ e : Err, r = .error e ∧ e.kind? = some .illegalState := by
  cases s with
  | started => exact absurd rfl hs
  | refused name =>
    cases hr
    exact ⟨_, rfl, rfl⟩
  | marking | enrolling | launching | naming => cases hr

/-- A start that has the reservation and has returned has succeeded. -/
theorem eq_started (hgranted : s.isGranted) (hanswered : s.answer?.isSome) : s = started := by
  cases s with
  | started => rfl
  | marking | enrolling | launching | naming => cases hanswered
  | refused name => cases hgranted

end Point

/-- The turns of a start. -/
def course (o : ObjId) : Course Point where
  next w _
    | .marking => .enrolling
    | .enrolling => .launching
    | .launching => .started
    | .naming => .refused ((w.thread? o).getD {}).name
    | .started => .started
    | .refused name => .refused name
  isOver s := s.answer?.isSome

section

variable (o : ObjId) (next : Except Err Unit → Prog)

/-- Where the task of a start stands. -/
def prog : Point → Prog
  | .marking => startSection o (next (.ok ()))
  | .enrolling => .perform (.register o) fun _ => .spawn o (next (.ok ()))
  | .launching => .spawn o (next (.ok ()))
  | .started => next (.ok ())
  | .naming => .observe fun _ w =>
      next (.error (.fault (.alreadyStarted ((w.thread? o).getD {}).name)))
  | .refused name => next (.error (.fault (.alreadyStarted name)))

/-- Asks for the reservation. -/
def reserving : Prog := .perform (.reserveStart o) fun granted => prog o next (.reserved granted)

/-- **A start asks for the reservation** if the thread was initialised and is not adopted. -/
theorem start_eq : Op.start o next = .observe fun _ w =>
    if ((w.thread? o).getD {}).home.isNone then
      next (.error (.fault (.notInitialized "Thread.start")))
    else if ((w.thread? o).getD {}).adopted then
      next (.error (.fault (.alreadyStarted ((w.thread? o).getD {}).name)))
    else reserving o next := by
  refine Prog.observe_congr fun _ w => ?_
  dsimp only
  split
  · rfl
  · split
    · rfl
    · refine congrArg (Prog.perform (.reserveStart o)) (funext fun granted => ?_)
      cases granted <;> rfl

theorem describes : (course o).Describes (prog o next) where
  goes {s id w v expired fs gs q} hs hgo := by
    cases s with
    | started | refused => cases hs
    | launching => cases hgo
    | marking | enrolling | naming =>
      cases hgo
      exact ⟨rfl, rfl⟩
  spawns {s x k} w hs hspawn := by
    cases s with
    | started | refused => cases hs
    | marking | enrolling | naming => cases hspawn
    | launching =>
      cases hspawn
      rfl

end

/-- A start keeps its reservation, and one that was refused stays so. -/
theorem isGranted_course (o : ObjId) (j : Nat) (m : Machine) (τs : List Turn) (s : Point) :
    (m.course (course o) j τs s).isGranted = s.isGranted := by
  refine Machine.course_induction (I := fun s' : Point => s'.isGranted = s.isGranted) ?_ m τs rfl
  intro w expired s' h
  rw [← h]
  cases s' <;> rfl

end Starting

/-! ## The starts of a run -/

/-- The reservation of a thread that an instruction asks for, and whether it gets it. -/
def Instr.reservations (o : ObjId) (w : World) : Instr → List Bool
  | .reserveStart x => if x = o then [(w.reserveStart o).1] else []
  | _ => []

namespace Machine

variable {m n : Machine} {τ : Turn} {o : ObjId} {P : Machine → Turn → Prop} {τs : List Turn}

/-- The starts of a thread that ask for the reservation in a run, in their order, each with how far it
has come by the end. -/
def starts (o : ObjId) : Machine → List Turn → List Starting.Point
  | _, [] => []
  | m, τ :: τs =>
    match m.take τ with
    | some n => (m.performed (Instr.reservations o) τ).map
        (fun granted => n.course (Starting.course o) τ.task τs (.reserved granted)) ++ n.starts o τs
    | none => []

theorem starts_cons (h : m.take τ = some n) (τs : List Turn) :
    m.starts o (τ :: τs) = (m.performed (Instr.reservations o) τ).map
      (fun granted => n.course (Starting.course o) τ.task τs (.reserved granted)) ++ n.starts o τs := by
  rw [starts, h]

/-- A start has come to a point with the reservation or without, as it got it. -/
theorem map_isGranted_starts (h : Trace P m τs n) :
    (m.starts o τs).map (·.isGranted) = m.record (performed (Instr.reservations o)) τs := by
  induction h with
  | refl m => rfl
  | @cons m n p τ τs _ move _ ih =>
    rw [starts_cons move, record_cons _ move, map_append, ih, map_map]
    have hmap : ∀ granted ∈ m.performed (Instr.reservations o) τ,
        ((fun s : Starting.Point => s.isGranted) ∘ fun granted =>
          n.course (Starting.course o) τ.task τs (.reserved granted)) granted = id granted := by
      intro granted _
      refine (Starting.isGranted_course ..).trans ?_
      cases granted <;> rfl
    rw [map_congr_left hmap, map_id]

/-- The starts of what follows a run come after those of the run. -/
theorem drop_starts (h : Trace P m τs n) (τs' : List Turn) :
    (m.starts o (τs ++ τs')).drop (m.starts o τs).length = n.starts o τs' := by
  induction h with
  | refl m => rfl
  | cons _ move _ ih =>
    rw [cons_append, starts_cons move, starts_cons move, length_append, length_map,
      ← drop_drop, drop_left' (length_map _)]
    exact ih

end Machine

/-! ## Who gets the reservation -/

theorem Deed.stage_ne_idle (j size : Nat) (d : Deed) : d.stage j size ≠ .idle := by
  cases d <;> nofun

namespace Machine

variable {m n : Machine} {stage : ObjId → Stage} {τ : Turn} {o : ObjId} {P : Machine → Turn → Prop} {t : Task}
  {k : Bool → Prog} {τs : List Turn}

theorem performed_reservations (ht : m.tasks[τ.task]? = some t) (hprog : t.prog = .perform (.reserveStart o) k) :
    m.performed (Instr.reservations o) τ = [(m.world.reserveStart o).1] := by
  obtain ⟨id, prog, frames⟩ := t
  cases hprog
  unfold performed
  rw [ht]
  exact if_pos rfl

theorem performed_reservations_eq_nil (ht : m.tasks[τ.task]? = some t)
    (hprog : ∀ k, t.prog ≠ .perform (.reserveStart o) k) : m.performed (Instr.reservations o) τ = [] := by
  obtain ⟨id, prog, frames⟩ := t
  unfold performed
  rw [ht]
  cases prog with
  | perform i k =>
    cases i with
    | reserveStart x => exact if_neg fun hx => hprog k (by rw [hx])
    | _ => rfl
  | _ => rfl

/-- A reservation is free as long as the life of the thread has not begun. -/
theorem Governed.reserveStart_eq (hg : m.Governed stage) {j fs} (hat : m.At j (.perform (.reserveStart o) k) fs) :
    (m.world.reserveStart o).1 = decide (stage o = .idle) := by
  obtain ⟨t, ht, hprog, -⟩ := hat
  have hsits := hg.task ht
  rw [hprog] at hsits
  have hstartable : m.world.Startable o := by
    cases hsits.works with
    | allowed allowed => exact allowed.elim
    | reserve startable => exact startable
  obtain ⟨u, hu, -, hadopted⟩ := hstartable
  have hfits := hg.kept.fits hu
  unfold World.reserveStart
  rw [hu]
  cases hstarted : u.started with
  | false =>
    rw [decide_eq_true (hfits.eq_idle hstarted)]
    simp [hstarted]
  | true =>
    have hne : stage o ≠ .idle := by
      intro hidle
      rw [hidle] at hfits
      rcases hfits with hlife | ⟨had, -⟩
      · have : u.started = false := congrArg (·.2.1) hlife
        rw [hstarted] at this
        cases this
      · have : u.adopted = true := congrArg Prod.fst had
        rw [hadopted] at this
        cases this
    rw [decide_eq_false hne]
    simp [hstarted]

/-- What a turn has to do with the reservation of a thread: nothing, or it asks for it, and gets it if the
life of the thread has not begun. -/
theorem Governed.reservation_cases (hg : m.Governed stage) (hτ : m.take τ = some n) (o : ObjId) :
    m.performed (Instr.reservations o) τ = [] ∧
        (Stage.after stage τ.task m.tasks.size (m.deed? τ) o = .idle ↔ stage o = .idle) ∨
      m.performed (Instr.reservations o) τ = [decide (stage o = .idle)] ∧
        Stage.after stage τ.task m.tasks.size (m.deed? τ) o =
          if stage o = .idle then .held .marking τ.task else stage o := by
  obtain ⟨t, ht, -⟩ := take_cases hτ
  by_cases hres : ∃ k, t.prog = .perform (.reserveStart o) k
  · obtain ⟨k, hprog⟩ := hres
    have hgranted := hg.reserveStart_eq ⟨t, ht, hprog, rfl⟩
    refine .inr ⟨by rw [performed_reservations ht hprog, hgranted], ?_⟩
    rw [deed?_eq ht, hprog, Prog.deed?_reserveStart, hgranted]
    by_cases hidle : stage o = .idle
    · rw [if_pos hidle, if_pos (decide_eq_true hidle)]
      exact after_self ..
    · rw [if_neg hidle, if_neg (ne_true_of_eq_false (decide_eq_false hidle))]
      rfl
  · refine .inl ⟨performed_reservations_eq_nil ht fun k hprog => hres ⟨k, hprog⟩, ?_⟩
    rcases (hg.advances hτ).stage_cases o with hsame | ⟨d, hdeed, hafter, hnext⟩
    · rw [hsame]
    · rw [hafter]
      constructor
      · intro h
        exact absurd h (d.stage_ne_idle _ _)
      intro hidle
      rw [hidle] at hnext
      cases d with
      | reserve =>
        rw [deed?_eq ht] at hdeed
        obtain ⟨k, hprog, -⟩ := Prog.deed?_cases hdeed
        exact absurd ⟨k, hprog⟩ hres
      | mark | enrol | launch | enter | leave | terminate | close => cases hnext

/-- Once the life of a thread has begun, nobody gets the reservation. -/
theorem Governed.refused_of_begun (hg : m.Governed stage) (ho : stage o ≠ .idle) (hrun : Trace P m τs n) :
    ∀ granted ∈ m.record (performed (Instr.reservations o)) τs, granted = false := by
  induction hrun generalizing stage with
  | refl m => nofun
  | cons _ move _ ih =>
    have hgoverned := (hg.advances move).governed
    rw [record_cons _ move]
    intro granted hmem
    rcases hg.reservation_cases move o with ⟨hnone, hafter⟩ | ⟨hsome, hafter⟩
    · rw [hnone] at hmem
      exact ih hgoverned (fun h => ho (hafter.mp h)) granted hmem
    · rw [if_neg ho] at hafter
      rw [hsome, decide_eq_false ho] at hmem
      rcases mem_cons.mp hmem with rfl | hmem
      · rfl
      · exact ih hgoverned (by rwa [hafter]) granted hmem

/-- **The first start that asks for the reservation gets it**, and no other one. -/
theorem Governed.first_granted (hg : m.Governed stage) (ho : stage o = .idle) (hrun : Trace P m τs n)
    {granted others} (heq : m.record (performed (Instr.reservations o)) τs = granted :: others) :
    granted = true ∧ ∀ b ∈ others, b = false := by
  induction hrun generalizing stage with
  | refl m => cases heq
  | cons _ move rest ih =>
    have hgoverned := (hg.advances move).governed
    rw [record_cons _ move] at heq
    rcases hg.reservation_cases move o with ⟨hnone, hafter⟩ | ⟨hsome, hafter⟩
    · rw [hnone] at heq
      exact ih hgoverned (hafter.mpr ho) heq
    · rw [if_pos ho] at hafter
      rw [hsome, decide_eq_true ho] at heq
      cases heq
      refine ⟨rfl, hgoverned.refused_of_begun ?_ rest⟩
      rw [hafter]
      nofun

end Machine

/-! ## What a start that got the reservation has done -/

/-- How far the life of a thread is when a start by a task has come to a point. -/
def Starting.Point.Shows (j : Nat) : Point → Stage → Prop
  | marking, s => s = .held .marking j
  | enrolling, s => s = .held .enrolling j
  | launching, s => s = .held .launching j
  | started, s => s.enrolled
  | naming, _ | refused _, _ => False

/-- A task that has a thread in hand to start it stands where its phase says. -/
theorem Sits.starts {w hand p fs} (h : Sits w hand p fs) {o phase} (ho : hand o = some phase)
    (hphase : phase.hosts = false) : ∃ q, Starts o q phase p := by
  have hinside {own : Option ObjId} (hown : inHand own o = some phase) : False := by
    unfold inHand at hown
    split at hown
    · cases hown
      cases hphase
    · cases hown
  cases h with
  | free => exact (hinside ho).elim
  | @starting own x q _ _ _ _ point =>
    by_cases hx : o = x
    · subst hx
      rw [Function.update_self] at ho
      cases ho
      exact ⟨q, point⟩
    · rw [Function.update_of_ne hx] at ho
      exact (hinside ho).elim
  | @hosting x _ _ _ point =>
    by_cases hx : o = x
    · subst hx
      rw [Function.update_self] at ho
      cases ho
      cases point <;> cases hphase
    · rw [Function.update_of_ne hx] at ho
      exact (hinside ho).elim

namespace Machine

variable {m n p : Machine} {stage : ObjId → Stage} {τ : Turn} {o : ObjId} {j : Nat} {s first : Starting.Point}
  {P : Machine → Turn → Prop} {τs : List Turn} {others : List Starting.Point} {fs : List Frame}
  {next : Except Err Unit → Prog}

/-- The task that has a thread in hand to start it moves it on with its next turn. -/
theorem Governed.starts (hg : m.Governed stage) (hτ : m.take τ = some n) {phase} (ho : stage o = .held phase τ.task)
    (hphase : phase.hosts = false) :
    Stage.Next τ.task (.held phase τ.task) (Stage.after stage τ.task m.tasks.size (m.deed? τ) o) := by
  obtain ⟨t, ht, -⟩ := take_cases hτ
  have hhand : (stage o).phaseIn τ.task = some phase := by rw [ho, Stage.phaseIn_held]
  obtain ⟨q, hstarts⟩ := (hg.task ht).starts hhand hphase
  have hdeed : ∃ d, t.prog.deed? m.world t.frames = some (o, d) := by
    generalize t.prog = prog at hstarts
    cases hstarts with
    | marking => exact ⟨.mark, rfl⟩
    | enrolling => exact ⟨.enrol, rfl⟩
    | launching => exact ⟨.launch, rfl⟩
  obtain ⟨d, hd⟩ := hdeed
  rw [← deed?_eq ht] at hd
  have hnext := (hg.advances hτ).next hd
  rw [ho] at hnext
  rw [hd, after_self]
  exact hnext

/-- A turn carries on a start that got the reservation, and with it the life of the thread. -/
theorem Governed.shows_take (hg : m.Governed stage) (hτ : m.take τ = some n) (h : s.Shows j (stage o)) :
    (m.courseStep (Starting.course o) j τ s).Shows j (Stage.after stage τ.task m.tasks.size (m.deed? τ) o) := by
  have hadvances := hg.advances hτ
  cases s with
  | naming | refused => exact h.elim
  | started =>
    rw [courseStep_of_over rfl]
    show (Stage.after stage τ.task m.tasks.size (m.deed? τ) o).enrolled
    rcases hadvances.stage_cases o with hsame | ⟨d, -, hafter, hnext⟩
    · rw [hsame]
      exact h
    · rw [hafter]
      exact hnext.enrolled h
  | marking | enrolling | launching =>
    by_cases hj : τ.task = j
    · subst hj
      have hnext := hg.starts hτ h rfl
      rw [courseStep_self rfl]
      generalize Stage.after stage τ.task m.tasks.size (m.deed? τ) o = s at hnext
      cases hnext
      rfl
    · rw [courseStep_of_ne hj]
      exact hadvances.held_of_ne hj h

theorem Governed.shows_trace (hg : m.Governed stage) (hrun : Trace P m τs n) (h : s.Shows j (stage o)) :
    (m.course (Starting.course o) j τs s).Shows j (m.stages τs stage o) := by
  induction hrun generalizing stage s with
  | refl m => exact h
  | cons _ move _ ih =>
    rw [course_cons move, stages_cons move]
    exact ih (hg.advances move).governed (hg.shows_take move h)

/-- **A start that got the reservation has come as far as the life of the thread shows.** -/
theorem Governed.shows_of_granted (hg : m.Governed stage) (hrun : Trace P m τs n) (hs : s ∈ m.starts o τs)
    (hgranted : s.isGranted) : ∃ j, s.Shows j (m.stages τs stage o) := by
  induction hrun generalizing stage with
  | refl m => cases hs
  | @cons m n p τ τs _ move rest ih =>
    have hgoverned := (hg.advances move).governed
    rw [starts_cons move] at hs
    rw [stages_cons move]
    rcases mem_append.mp hs with hs | hs
    · obtain ⟨granted, hmem, rfl⟩ := mem_map.mp hs
      rw [Starting.isGranted_course] at hgranted
      refine ⟨τ.task, hgoverned.shows_trace rest ?_⟩
      rcases hg.reservation_cases move o with ⟨hnone, -⟩ | ⟨hsome, hafter⟩
      · rw [hnone] at hmem
        cases hmem
      · rw [hsome] at hmem
        cases mem_singleton.mp hmem
        by_cases hidle : stage o = .idle
        · rw [hafter, if_pos hidle, decide_eq_true hidle]
          rfl
        · rw [decide_eq_false hidle] at hgranted
          cases hgranted
    · exact ih hgoverned hs

/-- **Of the starts of a thread whose life has not begun, the first one gets the reservation**, and the
others are refused it. -/
theorem Governed.first_start (hg : m.Governed stage) (ho : stage o = .idle) (hrun : Trace P m τs n)
    (heq : m.starts o τs = first :: others) : first.isGranted = true ∧ ∀ s ∈ others, s.isGranted = false := by
  have hrecord := map_isGranted_starts (o := o) hrun
  rw [heq] at hrecord
  obtain ⟨hfirst, hothers⟩ := hg.first_granted ho hrun hrecord.symm
  exact ⟨hfirst, fun s hs => hothers _ (mem_map_of_mem hs)⟩

/-- Only the first start can have succeeded. -/
theorem Governed.count_started (hg : m.Governed stage) (ho : stage o = .idle) (hrun : Trace P m τs n)
    (heq : m.starts o τs = first :: others) : (m.starts o τs).count .started = if first = .started then 1 else 0 := by
  obtain ⟨-, hothers⟩ := hg.first_start ho hrun heq
  have hnone : others.count .started = 0 := by
    apply count_eq_zero.mpr
    intro hmem
    cases hothers _ hmem
  rw [heq, count_cons, hnone]
  simp

/-- **One start at most has succeeded.** -/
theorem Governed.count_started_le (hg : m.Governed stage) (ho : stage o = .idle) (hrun : Trace P m τs n) :
    (m.starts o τs).count .started ≤ 1 := by
  cases heq : m.starts o τs with
  | nil => exact Nat.zero_le 1
  | cons first others =>
    rw [← heq, hg.count_started ho hrun heq]
    split <;> omega

/-- **One start has succeeded if there is any and all of them have returned**: the first one, which has the
reservation. -/
theorem Governed.count_started_eq (hg : m.Governed stage) (ho : stage o = .idle) (hrun : Trace P m τs n)
    (hne : m.starts o τs ≠ []) (hall : ∀ s ∈ m.starts o τs, s.answer?.isSome) :
    (m.starts o τs).count .started = 1 := by
  obtain ⟨first, others, heq⟩ := exists_cons_of_ne_nil hne
  obtain ⟨hgranted, -⟩ := hg.first_start ho hrun heq
  have hanswered : first.answer?.isSome := by
    apply hall
    rw [heq]
    exact mem_cons_self
  have hstarted : first = .started := Starting.Point.eq_started hgranted hanswered
  rw [hg.count_started ho hrun heq, if_pos hstarted]

/-! ## Calls of `start()` -/

/-- A call of `start()` on a thread that was initialised asks for the reservation. -/
theorem At.reserving (hat : m.At j (Op.start o next) fs) (hs : m.world.Startable o) (hτ : m.take (.step j) = some n) :
    n.At j (Starting.reserving o next) fs := by
  rw [Starting.start_eq] at hat
  obtain ⟨id, n', hτ', -, hat'⟩ := take_observe hat
  cases hτ.symm.trans hτ'
  obtain ⟨t, ht, hhome, hadopted⟩ := hs
  have hnot : ((some t).getD {}).home.isNone = false := by
    rw [Option.getD_some, ← Option.not_isSome, hhome]
    rfl
  have hown : ((some t).getD {}).adopted = false := hadopted
  rw [ht, hnot, hown] at hat'
  exact hat'

/-- A call of `start()` by selector comes to such a call. -/
theorem At.start_of_builtin {r x args}
    (hat : m.At j (Activation.code (.builtin r .threadStart) (some x) args).program fs) (hx : m.world.header x = o)
    (hs : m.world.Startable o) (hτ : m.take (.step j) = some n) : n.At j (Op.start o finishUnit) fs := by
  have heq := onThread_eq Op.start x
  replace hat : m.At j (do Op.start (← needThread (some x)); return Value.null : Op Value).toProg fs := hat
  rw [heq] at hat
  obtain ⟨id, n', hτ', -, hat'⟩ := take_observe hat
  cases hτ.symm.trans hτ'
  obtain ⟨t, ht, -⟩ := hs
  rw [hx, ht] at hat'
  exact hat'

/-- A start that asks for the reservation is the first one of what follows, and its task comes to where it
says. -/
theorem At.comes_of_start (hat : m.At j (Starting.reserving o next) fs) (hτ : m.take (.step j) = some n)
    (hrun : Trace P n τs p) :
    ∃ s, (m.starts o (.step j :: τs)).head? = some s ∧ n.Comes j (Starting.prog o next s) fs τs := by
  obtain ⟨t, ht, hprog, hframes⟩ := hat
  have hreserved : n.At j (Starting.prog o next (.reserved (m.world.reserveStart o).1)) fs := by
    obtain ⟨t', ht', ⟨v, q, gs, hgo, rfl⟩ | ⟨x, k, -, hspawn, -⟩⟩ := take_cases hτ
    · cases ht.symm.trans ht'
      rw [hprog, hframes] at hgo
      cases hgo
      exact ⟨_, task_put_self ht .., rfl, rfl⟩
    · cases ht.symm.trans ht'
      cases hprog.symm.trans hspawn
  refine ⟨_, ?_, comes_of_course (Starting.describes o next) hrun hreserved⟩
  rw [starts_cons hτ, performed_reservations ht hprog]
  rfl

/-- **A start that asks for the reservation is among the starts of a run**, after those that did before. -/
theorem At.listed {m₁} {Q : Machine → Turn → Prop} {τs'} (hrun : Trace P m₁ τs m)
    (hat : m.At j (Starting.reserving o next) fs) (hτ : m.take (.step j) = some n) (hrest : Trace Q n τs' p) : ∃ s,
      (m₁.starts o (τs ++ .step j :: τs'))[(m₁.starts o τs).length]? = some s ∧
        n.Comes j (Starting.prog o next s) fs τs' := by
  obtain ⟨s, hhead, hcomes⟩ := hat.comes_of_start hτ hrest
  refine ⟨s, ?_, hcomes⟩
  rw [← hhead, head?_eq_getElem?, ← drop_starts hrun, getElem?_drop]
  rfl

end Machine

end ObjectKernel
