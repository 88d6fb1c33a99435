import ObjectKernel.Proofs.Hosting

/-!
# Accounts of threads

A run has an account of every thread that was initialised in it. It consists of the stage that the thread
has come to, and of what its task has done, from which follow the failure that is on record and whether
some registry binds the thread. Every turn keeps the account right: a turn of the task itself carries its
story on, and no other turn has anything to do with it.

## Contents

* `Machine.stages`: the stages of threads after a run. `Governed.stages`: they fit the machine.
* `failureIn`: the failure that is on record after what was done. `failureIn_of_concluded`.
* `Machine.Accounts`, `Accounts.take`, `Accounts.trace`: the account of a thread, and what keeps it right.
* `Machine.Initialises`, `accounts_of_initialises`: a thread has an account from its initialisation on.
-/

namespace ObjectKernel

open Op

variable {o self : ObjId} {es : List Event} {out : Outcome} {c : Class} {home : RuntimeId}

/-! ## Stages after a run -/

namespace Machine

variable {m n : Machine} {stage : ObjId → Stage} {P : Machine → Turn → Prop} {deed : Option (ObjId × Deed)}
  {o : ObjId} {τs : List Turn} {j : Nat}

/-- The stages of threads after a run that began with given ones. -/
def stages (m : Machine) : List Turn → (ObjId → Stage) → ObjId → Stage
  | [], stage => stage
  | τ :: τs, stage =>
    match m.take τ with
    | some n => n.stages τs (Stage.after stage τ.task m.tasks.size (m.deed? τ))
    | none => stage

theorem stages_cons {τ} (h : m.take τ = some n) (τs : List Turn) (stage : ObjId → Stage) :
    m.stages (τ :: τs) stage = n.stages τs (Stage.after stage τ.task m.tasks.size (m.deed? τ)) := by
  rw [stages, h]

/-- **The stages after a run fit the machine that it leads to.** -/
theorem Governed.stages (h : m.Governed stage) (hrun : Trace P m τs n) : n.Governed (m.stages τs stage) := by
  induction hrun generalizing stage with
  | refl m => exact h
  | cons _ move _ ih =>
    rw [stages_cons move]
    exact ih (h.advances move).governed

/-- The stage of a thread after something was done to it. -/
theorem after_self (stage : ObjId → Stage) (j size : Nat) (o : ObjId) (d : Deed) :
    Stage.after stage j size (some (o, d)) o = d.stage j size := Function.update_self ..

/-- What a turn does to the stage of a thread. -/
theorem Advances.stage_cases (h : m.Advances j stage deed n) (o : ObjId) :
    Stage.after stage j m.tasks.size deed o = stage o ∨
      ∃ d, deed = some (o, d) ∧ Stage.after stage j m.tasks.size deed o = d.stage j m.tasks.size ∧
        Stage.Next j (stage o) (d.stage j m.tasks.size) := by
  cases deed with
  | none => exact .inl rfl
  | some x =>
    obtain ⟨p, d⟩ := x
    by_cases hp : o = p
    · subst hp
      exact .inr ⟨d, rfl, after_self .., h.next rfl⟩
    · exact .inl (Function.update_of_ne hp ..)

/-- A thread that is in the hands of a task stays there while other tasks take turns. -/
theorem Advances.held_of_ne {i} (h : m.Advances j stage deed n) (hj : j ≠ i) {phase} (ho : stage o = .held phase i) :
    Stage.after stage j m.tasks.size deed o = .held phase i := by
  rcases h.stage_cases o with hsame | ⟨d, -, -, hnext⟩
  · exact hsame.trans ho
  · have hin := hnext.phaseIn_of_ne (Ne.symm hj)
    rw [ho, Stage.phaseIn_held] at hin
    cases hin

/-- A thread that has ended stays so. -/
theorem Advances.past (h : m.Advances j stage deed n) (ho : stage o = .past) :
    Stage.after stage j m.tasks.size deed o = .past := by
  rcases h.stage_cases o with hsame | ⟨d, -, -, hnext⟩
  · exact hsame.trans ho
  · rw [ho] at hnext
    generalize d.stage j m.tasks.size = s at hnext
    cases hnext

theorem Governed.stages_past (h : m.Governed stage) (hrun : Trace P m τs n) (ho : stage o = .past) :
    m.stages τs stage o = .past := by
  induction hrun generalizing stage with
  | refl m => exact ho
  | cons _ move _ ih =>
    have hadvances := h.advances move
    rw [stages_cons move]
    exact ih hadvances.governed (hadvances.past ho)

end Machine

/-! ## Failures on record -/

/-- The failure that an event files under a thread. -/
def Event.files (o : ObjId) : Event → Option Err
  | .performed i => i.files o
  | .called _ | .returned _ => none

/-- The failure that is on record about a thread after what was done. -/
def failureIn (o : ObjId) (es : List Event) : Option Err := (es.filterMap (Event.files o)).head?

theorem failureIn_append (o : ObjId) (es es' : List Event) :
    failureIn o (es ++ es') = (failureIn o es).or (failureIn o es') := by
  unfold failureIn
  rw [List.filterMap_append, List.head?_append]

theorem failureIn_performed (o : ObjId) (i : Instr) : failureIn o [.performed i] = i.files o := by
  cases h : i.files o <;> simp [failureIn, Event.files, h]

theorem Instr.files_of_hosts? {i : Instr} (h : i.hosts? ≠ some o) : i.files o = none := by
  cases i with
  | recordUncaught p e => exact if_neg fun hp => h (congrArg some hp)
  | _ => rfl

theorem Ran.failureIn_eq (h : Ran self c es out) (o : ObjId) : failureIn o es = none := by
  cases h <;> rfl

theorem Filed.failureIn_eq (h : Filed o home out es) : failureIn o es = out.failure := by
  cases h with
  | nothing none => exact none.symm
  | @failure e some name =>
    have hfirst : (Instr.recordUncaught o e).files o = .some e := if_pos rfl
    rw [some, ← List.singleton_append, failureIn_append, failureIn_performed, hfirst]
    rfl

/-- **The failure on record in the end is the outcome of `run()`.** -/
theorem failureIn_of_concluded (h : Concluded o home self c es out) : failureIn o es = out.failure := by
  obtain ⟨ran, filed, hran, hfiled, rfl⟩ := h
  have hbegin : failureIn o (beginnings o) = none := rfl
  have hend : failureIn o (endings o) = none := rfl
  rw [failureIn_append, failureIn_append, failureIn_append, hbegin, hend, hran.failureIn_eq,
    hfiled.failureIn_eq, Option.or_none, Option.or_none, Option.none_or]

/-! ## Turns of the task of a thread -/

namespace Hosted

variable {o : ObjId} {home : RuntimeId} {self : ObjId} {c : Class} {w : World} {es : List Event}
  {fs : List Frame}

theorem spawn (hs : w.Sound) {x k} (h : Hosted o home self c w es (.spawn x k) fs) :
    Hosted o home self c w es k fs := by
  generalize hp : Prog.spawn x k = p at h
  cases h with
  | running found apart =>
    subst hp
    exact .running found (apart.spawn hs)
  | entering =>
    rw [Run.program_eq] at hp
    cases hp
  | looking =>
    rw [dispatch_eq] at hp
    cases hp
  | binding | hosting | beginning | calling | lacking | filing | reporting | writing | settled
  | panicking | unbinding | terminating | closing => cases hp

/-- What the task of a thread performs at its outermost two levels goes into its story, and what it
performs above them has nothing to do with the thread. -/
theorem conduct_perform {i : Instr} {k} (h : Hosted o home self c w es (.perform i k) fs) :
    (Prog.perform i k).conduct fs = [.performed i] ∨ (Prog.perform i k).conduct fs = [] ∧ i.hosts? = none := by
  have hlow (hlen : fs.length ≤ 1) : (Prog.perform i k).conduct fs = [.performed i] := if_pos hlen
  generalize hp : Prog.perform i k = p at h
  cases h with
  | running found apart =>
    subst hp
    exact .inr ⟨Prog.conduct_above _ (.inr fun _ h => by cases h) _ _, apart.hosts?_eq⟩
  | entering =>
    rw [Run.program_eq] at hp
    cases hp
  | looking =>
    rw [dispatch_eq] at hp
    cases hp
  | filing | reporting | writing => exact .inl (hp ▸ hlow (Outcome.length_level ..))
  | binding | hosting | beginning | calling | lacking | settled | panicking | unbinding | terminating
  | closing => exact .inl (hp ▸ hlow (by simp))

/-- The task of a thread binds itself first of all. -/
theorem eq_nil_of_bindTask {k} (h : Hosted o home self c w es (.perform (.bindTask o) k) fs) : es = [] := by
  generalize hp : Prog.perform (.bindTask o) k = p at h
  cases h with
  | running found apart =>
    subst hp
    cases apart.hosts?_eq
  | entering | binding => rfl
  | looking =>
    rw [dispatch_eq] at hp
    cases hp
  | hosting | beginning | calling | lacking | filing | reporting | writing | settled
  | panicking | unbinding | terminating | closing => cases hp

/-- The task of a thread ends it last of all. -/
theorem concluded_of_endThread {k} (h : Hosted o home self c w es (.perform (.endThread o) k) fs) :
    fs = [] ∧ k (.ok ()) = .finish (.value .null) ∧
      ∃ out, Concluded o home self c (es ++ [.performed (.endThread o)]) out := by
  generalize hp : Prog.perform (.endThread o) k = p at h
  cases h with
  | running found apart =>
    subst hp
    cases apart.hosts?_eq
  | entering =>
    rw [Run.program_eq] at hp
    cases hp
  | looking =>
    rw [dispatch_eq] at hp
    cases hp
  | closing hran hfiled =>
    cases hp
    refine ⟨rfl, rfl, _, _, _, hran, hfiled, ?_⟩
    rw [List.append_assoc]
    rfl
  | binding | hosting | beginning | calling | lacking | filing | reporting | writing | settled
  | panicking | unbinding | terminating => cases hp

end Hosted

/-! ## Accounts -/

/-- Whether a thread at a stage has not been given a task. -/
def Stage.isEarly : Stage → Bool
  | .idle => true
  | .held phase _ => !phase.hosts
  | .past => false

/-- A task that stands before a call may make it. -/
theorem Sits.allowed_of_call {w hand a k fs} (h : Sits w hand (.call a k) fs) : a.Allowed w := by
  cases h with
  | free lawful _ =>
    cases lawful with
    | call allowed _ => exact allowed
  | starting _ point => cases point
  | hosting point => cases point

/-- What a world shows of a thread whose task has a given id and has done `es`: the failure that is on
record, and a binding at most as long as the task has not unbound itself. -/
structure World.Shows (w : World) (o : ObjId) (home : RuntimeId) (object : ObjId) (id : TaskId)
    (es : List Event) : Prop where
  record : w.Records o home object (failureIn o es)
  bound : ∀ r id', (w.registry r).bound? id' = some o →
    r = home ∧ id' = id ∧ .performed (.unbindTask o) ∉ es

namespace World.Shows

variable {w : World} {o : ObjId} {home : RuntimeId} {self : ObjId} {c : Class} {id : TaskId}
  {es : List Event} {fs : List Frame}

/-- A turn that performs nothing changes nothing that is shown. -/
theorem quiet {p : Prog} (h : w.Shows o home self id es) (hp : ∀ i k, p ≠ .perform i k) :
    w.Shows o home self id (es ++ p.conduct fs) := by
  have hconduct : ∀ e ∈ p.conduct fs, ∀ i, e ≠ .performed i := by
    intro e he i
    cases p with
    | perform i k => exact absurd rfl (hp i k)
    | call a k =>
      obtain ⟨-, he⟩ := List.mem_ite_nil_right.mp he
      rw [List.mem_singleton.mp he]
      nofun
    | finish out =>
      obtain ⟨-, he⟩ := List.mem_ite_nil_right.mp he
      rw [List.mem_singleton.mp he]
      nofun
    | observe | await | guard | spawn | pause => cases he
  constructor
  · have hnone : failureIn o (p.conduct fs) = none := by
      unfold failureIn
      rw [List.head?_eq_none_iff, List.filterMap_eq_nil_iff]
      intro e he
      cases e with
      | performed i => exact absurd rfl (hconduct _ he i)
      | called | returned => rfl
    rw [failureIn_append, hnone, Option.or_none]
    exact h.record
  · intro r id' hb
    obtain ⟨hr, hid, hnot⟩ := h.bound r id' hb
    refine ⟨hr, hid, ?_⟩
    intro hmem
    rcases List.mem_append.mp hmem with hmem | hmem
    · exact hnot hmem
    · exact hconduct _ hmem _ rfl

/-- **What the task of a thread performs shows as its story says.** -/
theorem exec (hs : w.Sound) {i : Instr} {k} (hpoint : Hosted o home self c w es (.perform i k) fs)
    (h : w.Shows o home self id es) : (i.exec id w).2.Shows o home self id (es ++ (Prog.perform i k).conduct fs) := by
  have hconduct := hpoint.conduct_perform
  have hrecords := Instr.exec_records hs h.record id i
  constructor
  · -- At the outermost two levels an instruction is part of the story; above them it files nothing.
    rcases hconduct with hlow | ⟨habove, hi⟩
    · rw [hlow, failureIn_append, failureIn_performed]
      exact hrecords
    · rw [Instr.files_of_hosts? (by rw [hi]; nofun), Option.or_none] at hrecords
      rw [habove, List.append_nil]
      exact hrecords
  · intro r id' hb
    rcases Instr.exec_bound hb with hold | ⟨rfl, rfl, hhome⟩ | ⟨rfl, -, rfl⟩
    · obtain ⟨rfl, rfl, hnot⟩ := h.bound r id' hold
      refine ⟨rfl, rfl, ?_⟩
      intro hmem
      rcases List.mem_append.mp hmem with hmem | hmem
      · exact hnot hmem
      · -- Once the task has unbound itself there is no binding left.
        rcases hconduct with hlow | ⟨habove, -⟩
        · rw [hlow] at hmem
          cases List.mem_singleton.mp hmem
          obtain ⟨t, ht, hhome, -⟩ := h.record
          cases (World.bound?_unbindTask hs ht hhome id').symm.trans hb
        · rw [habove] at hmem
          cases hmem
    · obtain ⟨t, ht, hrecord, -⟩ := h.record
      rw [ht] at hhome
      cases hrecord.symm.trans hhome
      refine ⟨rfl, rfl, ?_⟩
      rw [hpoint.eq_nil_of_bindTask]
      rcases hconduct with hlow | ⟨habove, -⟩
      · rw [hlow]
        simp
      · rw [habove]
        simp
    · obtain ⟨u, hu, -⟩ := h.record
      cases (World.thread?_size w).symm.trans hu

end World.Shows

section

variable (o : ObjId) (home : RuntimeId) (self : ObjId) (c : Class)

/-- The account of a thread at a stage, where it is told what each task has done: nothing is on record
about it before it is given a task, then there is what its task has done, and in the end the whole story.
No registry binds it but from when its task binds itself to when it unbinds itself. -/
inductive Machine.Accounts (story : Nat → List Event) (m : Machine) : Stage → Prop where
  | early {s : Stage} (early : s.isEarly) (record : m.world.Records o home self none)
      (unbound : ∀ r id, (m.world.registry r).bound? id ≠ some o) : Accounts story m s
  | hosted {phase : Phase} {j : Nat} {t : Task} (hosts : phase.hosts) (task : m.tasks[j]? = some t)
      (point : Hosted o home self c m.world (story j) t.prog t.frames)
      (shows : m.world.Shows o home self t.id (story j)) : Accounts story m (.held phase j)
  | past (j : Nat) (out : Outcome) (finished : m.At j (.finish (.value .null)) [])
      (concluded : Concluded o home self c (story j) out)
      (record : m.world.Records o home self (failureIn o (story j)))
      (unbound : ∀ r id, (m.world.registry r).bound? id ≠ some o) : Accounts story m .past

end

namespace Machine

variable {m n : Machine} {stage : ObjId → Stage} {o : ObjId} {home : RuntimeId} {self : ObjId} {c : Class}
  {story : Nat → List Event} {τ : Turn}

/-- A turn of another task than a thread's own neither files anything under it nor binds it. -/
theorem Governed.aside (hg : m.Governed stage) (hτ : m.take τ = some n)
    (hhost : ∀ phase, phase.hosts → stage o ≠ .held phase τ.task) {failure}
    (hr : m.world.Records o home self failure) : n.world.Records o home self failure ∧
      ∀ r id, (n.world.registry r).bound? id = some o → (m.world.registry r).bound? id = some o := by
  obtain ⟨t, ht, ⟨v, p, fs, hgo, rfl⟩ | ⟨x, k, -, -, rfl⟩⟩ := take_cases hτ
  · generalize τ.isExpiry = expired, hprog : t.prog = prog, hframes : t.frames = frames at hgo
    cases hgo with
    | perform i k =>
      have hi : i.hosts? ≠ some o := fun hi => by
        obtain ⟨phase, hphase, heq⟩ := hg.hosts ⟨t, ht, hprog, hframes⟩ hi
        exact hhost phase hphase heq
      have hrecords := Instr.exec_records hg.sound hr t.id i
      rw [Instr.files_of_hosts? hi, Option.or_none] at hrecords
      refine ⟨hrecords, ?_⟩
      intro r id hb
      rcases Instr.exec_bound hb with hold | ⟨rfl, -, -⟩ | ⟨rfl, -, rfl⟩
      · exact hold
      · exact absurd rfl hi
      · -- A thread that is made for a task is new.
        obtain ⟨u, hu, -⟩ := hr
        cases (World.thread?_size m.world).symm.trans hu
    | resume | observe | await | expire | call | guard | pause => exact ⟨hr, fun _ _ hb => hb⟩
  · exact ⟨hr.congr (World.sameThreads_of_objects rfl o), fun _ _ hb => hb⟩

namespace Accounts

variable {phase : Phase} {t : Task} {j : Nat}

/-- A turn before a thread has been given its task. -/
theorem take_early (hg : m.Governed stage) (hstory : ∀ j, m.tasks.size ≤ j → story j = [])
    (hτ : m.take τ = some n) (hearly : (stage o).isEarly) (hr : m.world.Records o home self none)
    (hu : ∀ r id, (m.world.registry r).bound? id ≠ some o) :
    n.Accounts o home self c (fun j => story j ++ m.conduct j τ)
      (Stage.after stage τ.task m.tasks.size (m.deed? τ) o) := by
  have hhost : ∀ phase, phase.hosts → stage o ≠ .held phase τ.task := by
    intro phase hphase heq
    rw [heq, Stage.isEarly, hphase] at hearly
    cases hearly
  obtain ⟨hrecord, hbound⟩ := hg.aside hτ hhost hr
  have hunbound : ∀ r id, (n.world.registry r).bound? id ≠ some o :=
    fun r id hb => hu r id (hbound r id hb)
  rcases (hg.advances hτ).stage_cases o with hsame | ⟨d, hdeed, hafter, hnext⟩
  · rw [hsame]
    exact .early hearly hrecord hunbound
  · rw [hafter]
    cases d with
    | reserve | mark | enrol => exact .early rfl hrecord hunbound
    | launch =>
      obtain ⟨t, ht, hcases⟩ := take_cases hτ
      rw [deed?_eq ht] at hdeed
      obtain ⟨k, hprog⟩ := Prog.deed?_cases hdeed
      rcases hcases with ⟨v, p, fs, hgo, rfl⟩ | ⟨x, k', -, hspawn, rfl⟩
      · rw [hprog] at hgo
        generalize τ.isExpiry = expired at hgo
        cases hgo
      · cases hprog.symm.trans hspawn
        have hempty : story m.tasks.size ++ m.conduct m.tasks.size τ = [] := by
          rw [hstory _ (Nat.le_refl _), conduct_of_size_le (Nat.le_refl _)]
          rfl
        refine .hosted rfl (task_fork_last ..) ?_ ⟨?_, fun r id hb => absurd hb (hunbound r id)⟩
        · rw [hempty]
          exact .entering
        · rw [hempty]
          exact hrecord
    | enter | leave | terminate | close =>
      generalize hs : stage o = s at hnext
      cases hnext
      exact absurd hs (hhost _ rfl)

/-- A turn of other tasks while a thread is in the hands of its own one. -/
theorem take_other (hg : m.Governed stage) (hτ : m.take τ = some n) (ho : stage o = .held phase j) (hj : τ.task ≠ j)
    (hhosts : phase.hosts) (ht : m.tasks[j]? = some t)
    (hpoint : Hosted o home self c m.world (story j) t.prog t.frames)
    (hshows : m.world.Shows o home self t.id (story j)) : n.Accounts o home self c (fun j => story j ++ m.conduct j τ)
      (Stage.after stage τ.task m.tasks.size (m.deed? τ) o) := by
  have hadvances := hg.advances hτ
  have hhost : ∀ phase, phase.hosts → stage o ≠ .held phase τ.task := by
    intro phase' _ heq
    cases ho.symm.trans heq
    exact hj rfl
  obtain ⟨hrecord, hbound⟩ := hg.aside hτ hhost hshows.record
  have hstory : story j ++ m.conduct j τ = story j := by rw [conduct_of_ne hj, List.append_nil]
  rw [hadvances.held_of_ne hj ho]
  refine .hosted hhosts (task_of_ne hτ hj ht) ?_ ⟨?_, ?_⟩
  · rw [hstory]
    exact hpoint.later hadvances.later
  · rw [hstory]
    exact hrecord
  · intro r id hb
    rw [hstory]
    exact hshows.bound r id (hbound r id hb)

/-- A turn of the task of a thread that leaves the thread in its hands. -/
theorem stage_of_hosted (hg : m.Governed stage) (hτ : m.take τ = some n) (ho : stage o = .held phase τ.task)
    (hhosts : phase.hosts) (hlast : m.deed? τ ≠ some (o, .close)) :
    ∃ phase', phase'.hosts ∧ Stage.after stage τ.task m.tasks.size (m.deed? τ) o = .held phase' τ.task := by
  rcases (hg.advances hτ).stage_cases o with hsame | ⟨d, hdeed, hafter, hnext⟩
  · exact ⟨phase, hhosts, hsame.trans ho⟩
  · rw [ho] at hnext
    cases d with
    | reserve => cases hnext
    | mark | enrol | launch =>
      cases hnext
      cases hhosts
    | enter => exact ⟨.inside, rfl, hafter⟩
    | leave => exact ⟨.leaving, rfl, hafter⟩
    | terminate => exact ⟨.closing, rfl, hafter⟩
    | close => exact absurd hdeed hlast

/-- The turn with which the task of a thread ends it. -/
theorem take_last (hg : m.Governed stage) (hτ : m.take τ = some n) (ht : m.tasks[τ.task]? = some t) {k}
    (hprog : t.prog = .perform (.endThread o) k)
    (hpoint : Hosted o home self c m.world (story τ.task) t.prog t.frames)
    (hshows : m.world.Shows o home self t.id (story τ.task)) :
    n.Accounts o home self c (fun j => story j ++ m.conduct j τ)
      (Stage.after stage τ.task m.tasks.size (m.deed? τ) o) := by
  have hdeed : m.deed? τ = some (o, .close) := by
    rw [deed?_eq ht, hprog]
    rfl
  have hclosing : stage o = .held .closing τ.task := by
    have hnext := (hg.advances hτ).next hdeed
    generalize stage o = s at hnext
    cases hnext
    rfl
  have hafter : Stage.after stage τ.task m.tasks.size (m.deed? τ) o = .past := by
    rw [hdeed]
    exact after_self ..
  obtain ⟨v, hv, -, -⟩ := hg.kept.endThread hg.sound hclosing
  rw [hprog] at hpoint
  obtain ⟨hframes, hk, out, hconcluded⟩ := hpoint.concluded_of_endThread
  have hconduct : m.conduct τ.task τ = [.performed (.endThread o)] := by
    rw [conduct_self ht, hprog, hframes]
    rfl
  have hexec : (Instr.endThread o).exec t.id m.world = (.ok (), v) := by
    show m.world.attempt (m.world.endThread o) = _
    rw [hv]
    rfl
  have hshows' := hshows.exec hg.sound hpoint
  rw [← hprog, ← conduct_self ht, hexec, hconduct] at hshows'
  obtain ⟨t', ht', ⟨v', p, fs, hgo, rfl⟩ | ⟨x, k', -, hspawn, rfl⟩⟩ := take_cases hτ
  · cases ht.symm.trans ht'
    rw [hprog, hframes] at hgo
    generalize τ.isExpiry = expired at hgo
    cases hgo
    rw [hexec, hk, hafter]
    refine .past τ.task out ⟨_, task_put_self ht .., rfl, rfl⟩ ?_ ?_ ?_
    · rw [hconduct]
      exact hconcluded
    · rw [hconduct]
      exact hshows'.record
    · intro r id hb
      -- A story that is concluded has the task unbind itself.
      refine (hshows'.bound r id hb).2.2 ?_
      obtain ⟨ran, filed, -, -, heq⟩ := hconcluded
      rw [heq]
      simp [endings]
  · cases ht.symm.trans ht'
    cases hprog.symm.trans hspawn

/-- Any other turn of the task of a thread. -/
theorem take_own (hg : m.Governed stage) (hc : m.world.classOf? self = some c) (hτ : m.take τ = some n)
    (ho : stage o = .held phase τ.task) (hhosts : phase.hosts) (ht : m.tasks[τ.task]? = some t)
    (hlast : ∀ k, t.prog ≠ .perform (.endThread o) k)
    (hpoint : Hosted o home self c m.world (story τ.task) t.prog t.frames)
    (hshows : m.world.Shows o home self t.id (story τ.task)) :
    n.Accounts o home self c (fun j => story j ++ m.conduct j τ)
      (Stage.after stage τ.task m.tasks.size (m.deed? τ) o) := by
  have hclose : m.deed? τ ≠ some (o, .close) := by
    intro hdeed
    rw [deed?_eq ht] at hdeed
    obtain ⟨k, hprog⟩ := Prog.deed?_cases hdeed
    exact hlast k hprog
  have hle := (hg.advances hτ).later
  obtain ⟨phase', hphase', hafter⟩ := stage_of_hosted hg hτ ho hhosts hclose
  have hconduct := conduct_self ht
  have hsits := hg.task ht
  rw [hafter]
  obtain ⟨t', ht', ⟨v, p, fs, hgo, rfl⟩ | ⟨x, k, -, hspawn, rfl⟩⟩ := take_cases hτ
  · cases ht.symm.trans ht'
    refine .hosted hphase' (task_put_self ht ..) ?_ ?_
    · rw [hconduct]
      refine hpoint.goes hg.sound hshows.record hc (fun hcall => ?_) hle hlast hgo
      rw [hcall] at hsits
      exact hsits.allowed_of_call
    · generalize τ.isExpiry = expired, hprog : t.prog = prog, hframes : t.frames = frames at hgo
      rw [hprog, hframes] at hpoint hconduct
      rw [hconduct]
      cases hgo with
      | perform i k => exact hshows.exec hg.sound hpoint
      | resume | observe | await | expire | call | guard | pause =>
        apply hshows.quiet
        intro i k h
        cases h
  · cases ht.symm.trans ht'
    refine .hosted hphase' (task_fork_self ht ..) ?_ ?_
    · rw [hconduct]
      rw [hspawn] at hpoint ⊢
      exact .of_quiet rfl ((hpoint.spawn hg.sound).later hle)
    · have hquiet : m.world.Shows o home self t.id (story τ.task ++ t.prog.conduct t.frames) :=
        hshows.quiet fun i k h => by cases hspawn.symm.trans h
      rw [hconduct]
      exact ⟨hquiet.record.congr rfl, hquiet.bound⟩

/-- A turn after a thread has ended. -/
theorem take_past (hg : m.Governed stage) (hτ : m.take τ = some n) (ho : stage o = .past)
    (hover : m.At j (.finish (.value .null)) []) (hconcluded : Concluded o home self c (story j) out)
    (hr : m.world.Records o home self (failureIn o (story j)))
    (hu : ∀ r id, (m.world.registry r).bound? id ≠ some o) :
    n.Accounts o home self c (fun j => story j ++ m.conduct j τ)
      (Stage.after stage τ.task m.tasks.size (m.deed? τ) o) := by
  have hhost : ∀ phase, phase.hosts → stage o ≠ .held phase τ.task := by
    intro phase _ heq
    cases ho.symm.trans heq
  obtain ⟨hrecord, hbound⟩ := hg.aside hτ hhost hr
  obtain ⟨t, ht, hprog, hframes⟩ := hover
  have hj : τ.task ≠ j := by
    -- The task is over, so it takes no turn.
    rintro rfl
    obtain ⟨t', ht', ⟨v, p, fs, hgo, -⟩ | ⟨x, k, -, hspawn, -⟩⟩ := take_cases hτ
    · cases ht.symm.trans ht'
      rw [hprog, hframes] at hgo
      generalize τ.isExpiry = expired at hgo
      cases hgo
    · cases ht.symm.trans ht'
      cases hprog.symm.trans hspawn
  have hstory : story j ++ m.conduct j τ = story j := by rw [conduct_of_ne hj, List.append_nil]
  rw [(hg.advances hτ).past ho]
  refine .past j out ⟨t, task_of_ne hτ hj ht, hprog, hframes⟩ ?_ ?_
    fun r id hb => hu r id (hbound r id hb)
  · rw [hstory]
    exact hconcluded
  · rw [hstory]
    exact hrecord

end Accounts

/-- The record of a thread names its home. -/
theorem Accounts.inHome {s} (h : m.Accounts o home self c story s) :
    ∃ t, m.world.thread? o = some t ∧ t.home = some home := by
  cases h with
  | early _ record => exact record.inHome
  | hosted _ _ _ shows => exact shows.record.inHome
  | past _ _ _ _ record => exact record.inHome

/-- Tasks are added only. -/
theorem size_le_take (hτ : m.take τ = some n) : m.tasks.size ≤ n.tasks.size := by
  obtain ⟨t, -, ⟨v, p, fs, -, rfl⟩ | ⟨x, k, -, -, rfl⟩⟩ := take_cases hτ
  · exact (size_put ..).ge
  · unfold fork
    rw [Array.size_push, Array.size_setIfInBounds]
    exact Nat.le_succ _

/-- **Every turn keeps the account of a thread right.** -/
theorem Accounts.take (hg : m.Governed stage) (hstory : ∀ j, m.tasks.size ≤ j → story j = [])
    (hc : m.world.classOf? self = some c) (h : m.Accounts o home self c story (stage o))
    (hτ : m.take τ = some n) : n.Accounts o home self c (fun j => story j ++ m.conduct j τ)
      (Stage.after stage τ.task m.tasks.size (m.deed? τ) o) := by
  generalize ho : stage o = s at h
  cases h with
  | early early record unbound => exact take_early hg hstory hτ (ho ▸ early) record unbound
  | @hosted phase j t hosts task point shows =>
    by_cases hj : τ.task = j
    · subst hj
      by_cases hlast : ∃ k, t.prog = .perform (.endThread o) k
      · obtain ⟨k, hprog⟩ := hlast
        exact take_last hg hτ task hprog point shows
      · exact take_own hg hc hτ ho hosts task (fun k hprog => hlast ⟨k, hprog⟩) point shows
    · exact take_other hg hτ ho hj hosts task point shows
  | past j out finished concluded record unbound => exact take_past hg hτ ho finished concluded record unbound

/-- **Every run keeps the account of a thread right**, with what every task did in it. -/
theorem Accounts.trace (hg : m.Governed stage) (hstory : ∀ j, m.tasks.size ≤ j → story j = [])
    (hc : m.world.classOf? self = some c) (h : m.Accounts o home self c story (stage o)) {P : Machine → Turn → Prop}
    {τs} (hrun : Trace P m τs n) :
    n.Accounts o home self c (fun j => story j ++ m.record (conduct j) τs) (m.stages τs stage o) := by
  induction hrun generalizing story stage with
  | refl m =>
    simp only [record, List.append_nil]
    exact h
  | @cons m n _ τ τs _ move _ ih =>
    have hadvances := hg.advances move
    -- A task that is yet to come has done nothing, before the turn and in it.
    have hstory' : ∀ j, n.tasks.size ≤ j → story j ++ m.conduct j τ = [] := by
      intro j hj
      have hj := (size_le_take move).trans hj
      rw [hstory j hj, conduct_of_size_le hj]
      rfl
    have hrest := ih hadvances.governed hstory' (World.classOf?_later hadvances.later hc)
      (h.take hg hstory hc move)
    simp only [record_cons _ move, ← List.append_assoc, stages_cons move]
    exact hrest

end Machine

/-! ## Initialised threads -/

namespace World

variable {w v : World} {self : ObjId}

/-- An object that is a thread, or has one as its part, keeps it. -/
theorem header_of_thread (hle : w ≤ v) (hthread : (w.thread? (w.header self)).isSome) :
    v.header self = w.header self := by
  cases hobj : w.object? self with
  | some obj => exact header_later hle hobj
  | none =>
    rw [header_of_none hobj] at hthread
    unfold thread? at hthread
    rw [hobj] at hthread
    cases hthread

/-- An object whose thread has a home has a class. -/
theorem exists_classOf? (hs : v.Sound) {home failure} (h : v.Records (v.header self) home self failure) :
    ∃ c, v.classOf? self = some c := by
  obtain ⟨t, ht, hhome, -⟩ := h
  obtain ⟨obj, hobj, hpayload⟩ := thread?_eq_some.mp ht
  have hsome : obj.cls.isSome := by
    apply (hs.object hobj).bound t hpayload
    rw [hhome]
    rfl
  obtain ⟨c, hc⟩ := Option.isSome_iff_exists.mp hsome
  refine ⟨c, ?_⟩
  unfold classOf?
  rw [hobj]
  exact hc

end World

namespace Machine

variable {m n : Machine} {i : Nat} {home : RuntimeId} {self o : ObjId}

/-- A task is about to initialise a thread for a runtime, as the part of an object or as that object, and
this will succeed. -/
def Initialises (m : Machine) (i : Nat) (home : RuntimeId) (self o : ObjId) : Prop :=
  ∃ c target k fs v, m.At i (.perform (.initThread home (some self) c target) k) fs ∧
    m.world.initThread home (some self) c target = .ok v ∧ m.world.header self = o ∧
    (m.world.thread? o).isSome

/-- The turn that initialises a thread moves no thread in its life. -/
theorem Initialises.take (h : m.Initialises i home self o) (hstep : m.take (.step i) = some n) :
    m.deed? (.step i) = none ∧ ∃ c target, m.world.initThread home (some self) c target = .ok n.world := by
  obtain ⟨c, target, k, fs, v, hat, hv, -, -⟩ := h
  obtain ⟨id, n', hn, hworld, -⟩ := take_perform hat
  cases hn.symm.trans hstep
  obtain ⟨t, ht, hprog, -⟩ := hat
  refine ⟨by rw [deed?_eq ht, hprog]; rfl, c, target, ?_⟩
  rw [hworld]
  show _ = Except.ok (m.world.attempt (m.world.initThread home (some self) c target)).2
  rw [hv]
  rfl

/-- **A thread that is initialised has an account from then on.** Its life has not begun, nothing is on
record about it, and nothing is bound to it. -/
theorem Governed.accounts_of_initialises {stage} (hm : m.Reachable) (hg : m.Governed stage)
    (h : m.Initialises i home self o) (hstep : m.take (.step i) = some n) :
    ∃ c, n.Governed stage ∧ stage o = .idle ∧ n.world.Startable o ∧ n.world.classOf? self = some c ∧
      n.Accounts o home self c (fun _ => []) (stage o) := by
  obtain ⟨hdeed, c, target, hv⟩ := h.take hstep
  obtain ⟨-, -, -, -, -, -, -, rfl, hthread⟩ := h
  have hadvances := hg.advances hstep
  obtain ⟨u, hu⟩ := Option.isSome_iff_exists.mp hthread
  have hnone : u.home = none := by
    obtain ⟨q, id, name, hq, -, hbefore⟩ := World.initThread_thread hg.sound hv
    cases hq
    exact (hbefore u hu).1
  -- It had no home, and so neither a life nor a binding.
  have hidle : stage (m.world.header self) = .idle := by
    by_contra hne
    obtain ⟨u', hu', hsome, -⟩ := hg.kept.startable hne
    cases hu.symm.trans hu'
    rw [hnone] at hsome
    cases hsome
  have hunbound : ∀ r id, (n.world.registry r).bound? id ≠ some (m.world.header self) := by
    intro r id hb
    have hexec : ((Instr.initThread home (some self) c target).exec id m.world).2 = n.world := by
      show (m.world.attempt (m.world.initThread home (some self) c target)).2 = n.world
      rw [hv]
      rfl
    rw [← hexec] at hb
    rcases Instr.exec_bound hb with hold | ⟨hi, -⟩ | ⟨hi, -⟩
    · obtain ⟨u', hu', hsome⟩ := hm.bound_home hold
      cases hu.symm.trans hu'
      rw [hnone] at hsome
      cases hsome
    · cases hi
    · cases hi
  have hgoverned := hadvances.governed
  rw [hdeed] at hgoverned
  obtain ⟨hrecord, hstartable⟩ := World.records_initThread hg.sound hm.unfiled hv hthread
  have hheader := World.header_of_thread hadvances.later hthread
  obtain ⟨c, hc⟩ := World.exists_classOf? hgoverned.sound (hheader.symm ▸ hrecord)
  refine ⟨c, hgoverned, hidle, hstartable, hc, ?_⟩
  rw [hidle]
  exact .early rfl hrecord hunbound

theorem accounts_of_initialises (hm : m.Reachable) (h : m.Initialises i home self o)
    (hstep : m.take (.step i) = some n) : ∃ stage c, n.Governed stage ∧ stage o = .idle ∧
      n.world.Startable o ∧ n.world.classOf? self = some c ∧ n.Accounts o home self c (fun _ => []) (stage o) := by
  obtain ⟨stage, hg⟩ := hm.governed
  obtain ⟨c, haccounts⟩ := hg.accounts_of_initialises hm h hstep
  exact ⟨stage, c, haccounts⟩

/-- The account of a thread after a run that follows its initialisation, with what every task did in it. -/
theorem accounts_trace {m₁} (hm : m.Reachable) (h : m.Initialises i home self o)
    (hstep : m.take (.step i) = some m₁) {P : Machine → Turn → Prop} {τs} (hrun : Trace P m₁ τs n) :
    ∃ stage c, m₁.Governed stage ∧ stage o = .idle ∧
      n.Governed (m₁.stages τs stage) ∧ n.world.Startable o ∧ n.world.classOf? self = some c ∧
      n.Accounts o home self c (fun j => m₁.record (conduct j) τs) (m₁.stages τs stage o) := by
  obtain ⟨stage, c, hg, hidle, hstartable, hc, haccounts⟩ := accounts_of_initialises hm h hstep
  have hle := (hm.take hstep).le hrun.run
  exact ⟨stage, c, hg, hidle, hg.stages hrun, hstartable.later hle, World.classOf?_later hle hc,
    haccounts.trace hg (fun _ _ => rfl) hc hrun⟩

end Machine

end ObjectKernel
