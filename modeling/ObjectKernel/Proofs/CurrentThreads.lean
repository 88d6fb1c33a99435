import ObjectKernel.Proofs.TaskThreads

/-!
# The thread of the calling task

A task may ask a runtime for its thread. In the `run()` of a thread of that runtime the answer is this thread. Any
other task is given a thread of its own, which stands for it from then on: it runs as long as the process does, so
that it can be neither started nor joined. No two tasks are ever given the same thread.

## Contents

* `Machine.stages_hosting`, `Attended.eq_of_bound`: no thread is that of two tasks, not even at different times.
* `Machine.Aloof`, `Attended.stays`: a task that runs no thread of a runtime keeps the thread that stands for it.
* `Machine.Identifies`, `Attended.identifies`: what a task is told.
* `Demands`, `gives_of_demands`: threads that stand for tasks are neither started nor joined.
* `Machine.current_thread_identifies`: all of this together.
-/

namespace ObjectKernel

open Op World

variable {w : World} {home : RuntimeId}

namespace Machine

variable {m n : Machine} {τ : Turn} {stage : ObjId → Stage} {P : Machine → Turn → Prop} {τs : List Turn}
  {x : ObjId} {r : RuntimeId} {id : TaskId} {t : Task}

/-! ## No thread for two tasks -/

/-- A thread stays in the hands of its task until it is over. -/
theorem Governed.stages_hosting (h : m.Governed stage) (hrun : Trace P m τs n) {o phase j}
    (ho : stage o = .held phase j) (hhosts : phase.hosts) :
    (∃ phase', phase'.hosts ∧ m.stages τs stage o = .held phase' j) ∨ m.stages τs stage o = .past := by
  induction hrun generalizing stage phase with
  | refl m => exact .inl ⟨phase, hhosts, ho⟩
  | @cons m n p τ τs _ move rest ih =>
    have hadvances := h.advances move
    rw [stages_cons move]
    by_cases hj : τ.task = j
    · subst hj
      by_cases hclose : m.deed? τ = some (o, .close)
      · right
        apply hadvances.governed.stages_past rest
        rw [hclose]
        exact after_self ..
      · obtain ⟨phase', hhosts', hafter⟩ := Accounts.stage_of_hosted h move ho hhosts hclose
        exact ih hadvances.governed hafter hhosts'
    · exact ih hadvances.governed (hadvances.held_of_ne hj ho) hhosts

/-- A thread that stands for a task is never bound to another one. -/
theorem Attended.bound_before (h : m.Attended stage) (hrun : Trace P m τs n) {i}
    (hbadge : m.world.badge? x = some (r, i, true)) (hb : (n.world.registry r).bound? id = some x) :
    (m.world.registry r).bound? id = some x := by
  induction hrun generalizing stage with
  | refl m => exact hb
  | @cons m n p τ τs _ move rest ih =>
    have hb := ih (h.take move) (h.reachable.badge_take move hbadge) hb
    rcases take_performs move with ⟨hregistries, -⟩ | ⟨t, instr, k, -, ht, hprog, hworld⟩
    · rw [hregistries r] at hb
      exact hb
    · rw [hworld] at hb
      rcases Instr.exec_bound hb with hold | ⟨hi, -, -⟩ | ⟨-, -, rfl⟩
      · exact hold
      · -- Only a thread that its task has in hand is bound, and no such thread stands for a task.
        obtain ⟨phase, -, hheld⟩ := h.governed.hosts ⟨t, ht, hprog, rfl⟩ (show instr.hosts? = some x by rw [hi]; rfl)
        obtain ⟨home, i', hbadge'⟩ := h.governed.badge hheld
        cases hbadge.symm.trans hbadge'
      · cases (badge?_of_none (thread?_size m.world)).symm.trans hbadge

/-- **No thread is that of two tasks**, not even at different times. -/
theorem Attended.eq_of_bound (h : m.Attended stage) (hrun : Trace P m τs n) {id'}
    (hb : (m.world.registry r).bound? id = some x) (hb' : (n.world.registry r).bound? id' = some x) : id = id' := by
  obtain ⟨i, adopted, hbadge⟩ := h.home hb
  cases adopted with
  | true => exact h.single hb (h.bound_before hrun hbadge hb')
  | false =>
    obtain ⟨j, t, phase, ht, hid, hhosts, hheld⟩ := h.hosted hb hbadge
    obtain ⟨j', t', phase', ht', hid', -, hheld'⟩ :=
      (h.trace hrun).hosted hb' (h.reachable.badge_run hrun.run hbadge)
    obtain ⟨u, hu, hid''⟩ := task_trace hrun ht
    rcases h.governed.stages_hosting hrun hheld hhosts with ⟨phase'', -, hsame⟩ | hpast
    · cases hsame.symm.trans hheld'
      cases hu.symm.trans ht'
      rw [← hid, ← hid', hid'']
    · cases hpast.symm.trans hheld'

/-! ## Tasks that run no thread of a runtime -/

/-- A task that is there has no thread of a runtime in hand to run it. -/
def Aloof (m : Machine) (stage : ObjId → Stage) (j : Nat) (home : RuntimeId) : Prop :=
  j < m.tasks.size ∧ ∀ {o phase i}, stage o = .held phase j → phase.hosts →
    m.world.badge? o ≠ some (home, i, false)

variable {j : Nat} {home : RuntimeId}

/-- Such a task will never run a thread of that runtime, since threads are run by tasks that are launched for them. -/
theorem Aloof.take (h : m.Aloof stage j home) (hg : m.Attended stage) (hτ : m.take τ = some n) :
    n.Aloof (Stage.after stage τ.task m.tasks.size (m.deed? τ)) j home := by
  refine ⟨h.1.trans_le (size_le_take hτ), ?_⟩
  have hheld {o phase i} (ho : stage o = .held phase j) (hhosts : phase.hosts) :
      n.world.badge? o ≠ some (home, i, false) := by
    intro hbadge
    obtain ⟨home', i', hbadge'⟩ := hg.governed.badge ho
    cases (hg.reachable.badge_take hτ hbadge').symm.trans hbadge
    exact h.2 ho hhosts hbadge'
  intro o phase i ho hhosts
  rcases (hg.governed.advances hτ).stage_cases o with hsame | ⟨d, -, hafter, hnext⟩
  · exact hheld (hsame.symm.trans ho) hhosts
  · rw [hafter] at ho
    generalize hs : stage o = s at hnext
    cases d with
    | reserve | mark | enrol =>
      cases ho
      cases hhosts
    | launch =>
      cases ho
      exact absurd h.1 (Nat.lt_irrefl _)
    | enter | leave | terminate =>
      cases ho
      cases hnext
      exact hheld hs rfl
    | close => cases ho

theorem Aloof.trace (h : m.Aloof stage j home) (hg : m.Attended stage) (hrun : Trace P m τs n) :
    n.Aloof (m.stages τs stage) j home := by
  induction hrun generalizing stage with
  | refl m => exact h
  | cons _ move _ ih =>
    rw [stages_cons move]
    exact ih (h.take hg move) (hg.take move)

/-- The thread that a registry has for such a task stands for it. -/
theorem Aloof.adopted (h : m.Aloof stage j home) (hg : m.Attended stage) (ht : m.tasks[j]? = some t)
    (hb : (m.world.registry home).bound? t.id = some x) : ∃ i, m.world.badge? x = some (home, i, true) := by
  obtain ⟨i, adopted, hbadge⟩ := hg.home hb
  cases adopted with
  | true => exact ⟨i, hbadge⟩
  | false =>
    obtain ⟨j', t', phase, ht', hid, hhosts, hheld⟩ := hg.hosted hb hbadge
    cases hg.ownIds.unique ht' ht hid
    exact absurd hbadge (h.2 hheld hhosts)

/-- **A task that runs no thread of a runtime keeps the thread that it was given.** -/
theorem Attended.stays (hg : m.Attended stage) (h : m.Aloof stage j home) (ht : m.tasks[j]? = some t)
    (hb : (m.world.registry home).bound? t.id = some x) (hrun : Trace P m τs n) :
    (n.world.registry home).bound? t.id = some x := by
  induction hrun generalizing stage t with
  | refl m => exact hb
  | cons _ move _ ih =>
    obtain ⟨u, hu, hid⟩ := task_take move ht
    rw [← hid]
    refine ih (hg.take move) (h.take hg move) hu ?_
    rw [hid]
    refine hg.stays_bound move ht hb fun _ instr k y hprog hy hhome => ?_
    have hsits := hg.governed.task ht
    rw [hprog] at hsits
    obtain ⟨-, phase, hhosts, hphase, -⟩ := hsits.of_binds hy
    have hheld := Stage.eq_held hphase
    obtain ⟨home', i, hbadge⟩ := hg.governed.badge hheld
    obtain ⟨v, hv, hhome', -⟩ := badge?_eq_some.mp hbadge
    rw [hv] at hhome
    cases hhome'.symm.trans hhome
    exact h.2 hheld hhosts hbadge

end Machine

/-! ## What a task is told -/

/-- What a task does that asks for its thread. -/
theorem Op.currentThread_eq (home : RuntimeId) (k : Except Err ObjId → Prog) : currentThread (some home) k =
    .observe fun id _ => .observe fun _ w =>
      match (w.registry home).bound? id with
      | some o => k (.ok o)
      | none => .perform (.adopt home id) fun o => k (.ok o) := by
  refine Prog.observe_congr fun id _ => ?_
  refine Prog.observe_congr fun _ w => ?_
  dsimp only
  cases (w.registry home).bound? id <;> rfl

/-- A task that asks for its thread has nothing in hand but the thread in whose `run()` it is. -/
theorem Sits.of_currentThread {hand k fs} (hs : w.Sound) (h : Sits w hand (currentThread (some home) k) fs) :
    hand = inHand (runningIn fs) := by
  rw [currentThread_eq] at h
  generalize hp : Prog.observe _ = p at h
  cases h with
  | free lawful frames => rw [frames.runningIn_eq hs]
  | starting other point lawful frames => cases point <;> cases hp
  | hosting point =>
    cases point with
    | entering =>
      rw [Run.program_eq] at hp
      cases congrFun (congrFun (Prog.observe.inj hp) 0) w
    | reporting e name =>
      have hnext := congrFun (congrFun (Prog.observe.inj hp) 0) w
      split at hnext <;> cases hnext
    | binding | hosting | beginning | recording | writing | unbinding | terminating | closing => cases hp

/-- A task that was adopted, or had a thread before, has the thread that the adoption returned. -/
theorem World.bound?_adopt_self (hh : w.Has home) (task : TaskId) :
    ((w.adopt home task).2.registry home).bound? task = some (w.adopt home task).1 := by
  cases hb : (w.registry home).bound? task with
  | some o =>
    unfold World.adopt
    rw [hb]
    exact hb
  | none =>
    rw [registry_adopt hh hb, if_pos rfl, adopt_of_unbound hb]
    exact Dictionary.get?_insert_self ..

namespace Machine

variable {m n : Machine} {stage : ObjId → Stage} {P : Machine → Turn → Prop} {H E : Machine → Prop} {j : Nat}
  {t : Task}

/-- A task that looks at the world sees its own id. -/
theorem arrives_observe_id {f fs} (ht : m.tasks[j]? = some t) (hat : m.At j (.observe f) fs)
    (next : ∀ {τs q}, Trace P m τs q → q.At j (f t.id q.world) fs → q.Arrives P H j E) : m.Arrives P H j E := by
  refine arrives_of_turn hat nofun (fun ht => by simp [step, ht]) fun hrun hu hrun' hgo hq => ?_
  obtain ⟨u, hu', hid⟩ := task_trace hrun ht
  cases hu.symm.trans hu'
  obtain rfl := hid
  obtain ⟨hworld, rfl, rfl⟩ := hgo.observed
  rw [← hworld] at hq
  exact next hrun' hq

/-- Whatever other tasks do, a task that asks a runtime for its thread is told one, as `G` says of the machine then. -/
def Identifies (m : Machine) (j : Nat) (home : RuntimeId) (G : Machine → ObjId → Prop) : Prop :=
  ∀ k fs, m.At j (currentThread (some home) k) fs →
    m.Arrives (fun _ _ => True) (fun _ => False) j fun q => ∃ x, q.At j (k (.ok x)) fs ∧ G q x

/-- A task that asks is told the thread that the registry has for it then. -/
theorem Attended.identifies_bound (hg : m.Attended stage) (ht : m.tasks[j]? = some t) (home : RuntimeId) :
    m.Identifies j home fun q x => (q.world.registry home).bound? t.id = some x := by
  intro k fs hat
  rw [currentThread_eq] at hat
  refine arrives_observe_id ht hat fun {τs q} hrun hat => ?_
  obtain ⟨u, hu, hid⟩ := task_trace hrun ht
  refine arrives_observe_id hu hat fun {τs' q'} hrun' hat => ?_
  cases hb : (q'.world.registry home).bound? t.id with
  | some x =>
    rw [hb] at hat
    exact .there ⟨x, hat, hb⟩
  | none =>
    rw [hb] at hat
    -- In the meantime the task may have got one.
    refine arrives_perform hat fun {τs₁ n τs₂ q₂} id hrun₁ hat₁ _ hworld hat₂ => ?_
    have hreach : n.Reachable := hg.reachable.run ((hrun.append hrun').append hrun₁).run
    obtain ⟨hand, hworks⟩ := hreach.works hat₁
    refine .there ⟨_, hat₂, ?_⟩
    show (q₂.world.registry home).bound? t.id = some _
    rw [hworld]
    cases hworks with
    | allowed allowed => exact bound?_adopt_self allowed t.id

end Machine

/-- The thread of a runtime in whose `run()` a task with given frames is. -/
def World.runs? (w : World) (home : RuntimeId) (fs : List Frame) : Option ObjId :=
  (runningIn fs).filter fun o => (w.thread? o).bind (·.home) = some home

/-- A thread of a runtime that stands for a task of the host. -/
def World.Ward (w : World) (home : RuntimeId) (x : ObjId) : Prop :=
  ∃ t, w.thread? x = some t ∧ t.home = some home ∧ t.adopted = true

theorem World.ward_iff {x : ObjId} : w.Ward home x ↔ ∃ id, w.badge? x = some (home, id, true) := by
  constructor
  · rintro ⟨t, ht, hhome, hadopted⟩
    exact ⟨t.id, badge?_eq_some.mpr ⟨t, ht, hhome, rfl, hadopted⟩⟩
  · rintro ⟨id, hb⟩
    obtain ⟨t, ht, hhome, -, hadopted⟩ := badge?_eq_some.mp hb
    exact ⟨t, ht, hhome, hadopted⟩

namespace Machine

variable {m n : Machine} {stage : ObjId → Stage} {j : Nat} {t : Task} {home : RuntimeId}

/-- A task that asks for its thread and is in no `run()` of the runtime has nothing to do with its threads. -/
theorem Attended.aloof (hg : m.Attended stage) (ht : m.tasks[j]? = some t) {k}
    (hprog : t.prog = currentThread (some home) k) (hnone : m.world.runs? home t.frames = none) :
    m.Aloof stage j home := by
  refine ⟨lt_of_task ht, ?_⟩
  intro o phase i ho _ hbadge
  have hsits := hg.governed.task ht
  rw [hprog] at hsits
  have hhand := congrFun (hsits.of_currentThread hg.governed.sound) o
  rw [ho, Stage.phaseIn_held, inHand] at hhand
  have hrunning : runningIn t.frames = some o := by
    by_contra hne
    rw [if_neg hne] at hhand
    cases hhand
  obtain ⟨u, hu, hhome, -⟩ := badge?_eq_some.mp hbadge
  unfold World.runs? at hnone
  rw [hrunning] at hnone
  simp [Option.filter, hu, hhome] at hnone

/-- **What a task is told**: the thread of the runtime in whose `run()` it is, and otherwise a thread that stands for
it, now and whenever it asks again. -/
theorem Attended.identifies (hg : m.Attended stage) (ht : m.tasks[j]? = some t) (home : RuntimeId) :
    m.Identifies j home fun q x => (q.world.registry home).bound? t.id = some x ∧
      match m.world.runs? home t.frames with
      | some o => x = o
      | none => q.world.Ward home x ∧ ∀ n, Run q n → n.Identifies j home fun _ y => y = x := by
  intro k fs hat
  refine (hg.identifies_bound ht home k fs hat).bind fun {τs q} hrun hq => ?_
  obtain ⟨x, hat', hb⟩ := hq
  refine .there ⟨x, hat', hb, ?_⟩
  have hg' := hg.trace hrun
  obtain ⟨t', ht', hprog, rfl⟩ := hat
  cases ht.symm.trans ht'
  obtain ⟨u, hu, -, hframes⟩ := hat'
  obtain ⟨u', hu', hid⟩ := task_trace hrun ht
  cases hu.symm.trans hu'
  cases hruns : m.world.runs? home t.frames with
  | some o =>
    obtain ⟨hrunning, hhome⟩ := Option.filter_eq_some_iff.mp hruns
    obtain ⟨v, hv, hvhome⟩ := Option.bind_eq_some_iff.mp (of_decide_eq_true hhome)
    have hbadge : m.world.badge? o = some (home, v.id, v.adopted) :=
      badge?_eq_some.mpr ⟨v, hv, hvhome, rfl, rfl⟩
    have hserves : Serves o u.prog u.frames := by
      rw [hframes]
      exact .inl hrunning
    have hbound := hg'.serves hu hserves (hg.reachable.badge_run hrun.run hbadge)
    rw [hid, hb] at hbound
    exact Option.some.inj hbound
  | none =>
    have haloof := (hg.aloof ht hprog hruns).trace hg hrun
    rw [← hid] at hb
    refine ⟨ward_iff.mpr (haloof.adopted hg' hu hb), fun n hrun' k' fs' hat => ?_⟩
    obtain ⟨τs', htrace⟩ := hrun'.trace
    obtain ⟨v, hv, hid'⟩ := task_trace htrace hu
    have hgn := hg'.trace htrace
    have haloof' := haloof.trace hg' htrace
    have hbn := hg'.stays haloof hu hb htrace
    rw [← hid'] at hbn
    refine (hgn.identifies_bound hv home k' fs' hat).bind fun hrun'' hq => ?_
    obtain ⟨y, hat'', hy⟩ := hq
    have hlast := hgn.stays haloof' hv hbn hrun''
    exact .there ⟨y, hat'', Option.some.inj (hy.symm.trans hlast)⟩

end Machine

/-! ## Threads that stand for tasks -/

/-- The ways to start a thread or to wait for it, with times that are in range: directly, and as built-in methods. -/
inductive Demands (x : ObjId) : {α : Type} → Op α → Prop where
  | start : Demands x (start x)
  | join : Demands x (join x)
  | joinTimeout {millis : Int64} {nanos : Int32} {d : Int64}
      (valid : Timeout.duration "Thread.join" millis nanos = .ok d) : Demands x (joinTimeout x millis nanos)
  | joinBounded (bound : Option Expiry) : Demands x (joinBounded x bound)
  | startMethod (r : RuntimeId) (args : List Value) : Demands x (Builtin.run r (some x) args .threadStart)
  | joinMethod (r : RuntimeId) (args : List Value) : Demands x (Builtin.run r (some x) args .threadJoin)
  | joinMillisMethod (r : RuntimeId) {args : List Value} {d : Int64}
      (valid : Timeout.duration "Thread.join" (Builtin.argument args 0).asInt64 0 = .ok d) :
      Demands x (Builtin.run r (some x) args .threadJoinMillis)
  | joinNanosMethod (r : RuntimeId) {args : List Value} {d : Int64}
      (valid : Timeout.duration "Thread.join" (Builtin.argument args 0).asInt64
        (Builtin.argument args 1).asInt32 = .ok d) :
      Demands x (Builtin.run r (some x) args .threadJoinNanos)

/-- A refusal because of the state of a thread. -/
def Refusal {α : Type} (r : Except Err α) : Prop := ∃ f : Fault, r = .error (.fault f) ∧ f.kind = .illegalState

section

variable {P : Machine → Turn → Prop} {H : Machine → Prop} {m : Machine} {home : RuntimeId} {x : ObjId}

theorem World.Ward.later {v} (h : w ≤ v) (hx : w.Ward home x) : v.Ward home x := by
  obtain ⟨t, ht, hhome, hadopted⟩ := hx
  obtain ⟨u, hu, hlasts⟩ := thread?_later h ht
  refine ⟨u, hu, ?_, hlasts.adopted.trans hadopted⟩
  rw [hlasts.home (by rw [hhome]; rfl), hhome]

theorem gives_start (hm : m.Reachable) (hx : m.world.Ward home x) : Gives P H m (start x) fun _ r => Refusal r := by
  refine Gives.observe_bind fun {τs n} hrun => ?_
  obtain ⟨t, ht, hhome, hadopted⟩ := hx.later (hm.le hrun.run)
  simp only [ht, Option.getD_some, hhome, hadopted, Option.isNone_some, Bool.false_eq_true, if_false, if_true]
  exact Gives.ofExcept (r := .error (.fault (.alreadyStarted t.name))) fun _ => ⟨_, rfl, rfl⟩

/-- Whatever would follow, a thread that stands for a task cannot be joined. -/
theorem gives_joinable (hm : m.Reachable) (hx : m.world.Ward home x) {f : Unit → Op Unit} :
    Gives P H m (do ofFault (← threadOf x).joinable >>= f) fun _ r => Refusal r := by
  refine Gives.observe_bind fun {τs n} hrun => ?_
  obtain ⟨t, ht, -, hadopted⟩ := hx.later (hm.le hrun.run)
  have hjoinable : t.joinable = .error (.notJoinable t.name) := by
    unfold Thread.joinable
    rw [if_pos hadopted]
  simp only [ht, Option.getD_some, hjoinable]
  exact Gives.ofExcept (r := .error (.fault (.notJoinable t.name))) fun _ => ⟨_, rfl, rfl⟩

theorem gives_joinTimeout (hm : m.Reachable) (hx : m.world.Ward home x) {millis nanos d}
    (valid : Timeout.duration "Thread.join" millis nanos = .ok d) :
    Gives P H m (joinTimeout x millis nanos) fun _ r => Refusal r := by
  unfold Op.joinTimeout
  rw [valid]
  exact gives_joinable hm hx

theorem gives_needThread (hm : m.Reachable) {t} (ht : m.world.thread? x = some t) :
    Gives P H m (needThread (some x)) fun _ r => r = .ok x := by
  refine Gives.observe_bind fun {τs n} hrun => ?_
  obtain ⟨u, hu, -⟩ := thread?_later (hm.le hrun.run) ht
  obtain ⟨⟨cls, hash, payload⟩, hobj, rfl⟩ := thread?_eq_some.mp hu
  have hheader : n.world.header x = x := by
    unfold World.header
    rw [hobj]
  simp only [hheader, hu]
  exact Gives.pure fun _ => rfl

/-- A method of the thread does what it does directly. -/
theorem gives_method (hm : m.Reachable) (hx : m.world.Ward home x) {f : ObjId → Op Unit}
    (hf : ∀ {τs n}, Machine.Trace P m τs n → Gives P H n (f x) fun _ r => Refusal r) :
    Gives P H m (do f (← needThread (some x)); return Value.null) fun _ r => Refusal r := by
  obtain ⟨t, ht, -⟩ := hx
  refine Gives.bind (gives_needThread hm ht) (fun hrun hr => ?_) nofun
  cases hr
  refine Gives.bind (hf hrun) (fun _ hr => ?_) fun _ hr => ?_
  · obtain ⟨f, hf, -⟩ := hr
    cases hf
  · obtain ⟨f, hf, hkind⟩ := hr
    cases hf
    exact ⟨f, rfl, hkind⟩

/-- **A thread that stands for a task is neither started nor joined.** -/
theorem gives_of_demands (hm : m.Reachable) (hx : m.world.Ward home x) {α : Type} {y : Op α} (hy : Demands x y) :
    Gives P H m y fun _ r => Refusal r := by
  have hlater {τs : List Turn} {n : Machine} (hrun : Machine.Trace P m τs n) : n.Reachable ∧ n.world.Ward home x :=
    ⟨hm.run hrun.run, hx.later (hm.le hrun.run)⟩
  cases hy with
  | start => exact gives_start hm hx
  | join => exact gives_joinable hm hx
  | joinTimeout valid => exact gives_joinTimeout hm hx valid
  | joinBounded bound => exact gives_joinable hm hx
  | startMethod r args =>
    exact gives_method hm hx (f := start) fun hrun => gives_start (hlater hrun).1 (hlater hrun).2
  | joinMethod r args =>
    exact gives_method hm hx (f := join) fun hrun => gives_joinable (hlater hrun).1 (hlater hrun).2
  | joinMillisMethod r valid =>
    exact gives_method hm hx (f := fun o => joinTimeout o _ 0) fun hrun =>
      gives_joinTimeout (hlater hrun).1 (hlater hrun).2 valid
  | joinNanosMethod r valid =>
    exact gives_method hm hx (f := fun o => joinTimeout o _ _) fun hrun =>
      gives_joinTimeout (hlater hrun).1 (hlater hrun).2 valid

end

theorem adoptedName_eq_main {r : Registry} {task : TaskId} : r.adoptedName task = "main" ↔ r.adopted = 0 := by
  unfold Registry.adoptedName
  by_cases h : r.adopted = 0
  · rw [if_pos h]
    exact iff_of_true rfl h
  · rw [if_neg h]
    refine iff_of_false (fun hname => ?_) h
    have hfirst := congrArg List.head? hname
    cases hfirst

namespace Machine

variable {m n : Machine} {τ : Turn} {home : RuntimeId} {x : ObjId}

/-- What a thread shows that stands for a task. -/
theorem Reachable.ward (hm : m.Reachable) {u} (hu : m.world.thread? x = some u) (hadopted : u.adopted = true) :
    u.state = .runnable ∧ ∀ r, x ∉ m.world.startedThreads r := by
  obtain ⟨stage, hg⟩ := hm.governed
  -- Of the stages of a life only the first is that of such a thread.
  have hfits : u.Adopted ∧ stage x = .idle := by
    refine (hg.kept.fits hu).resolve_left fun hlife => ?_
    have hfirst : u.adopted = (stage x).life.1 := congrArg Prod.fst hlife
    rw [hadopted] at hfirst
    cases hs : stage x with
    | idle | past =>
      rw [hs] at hfirst
      cases hfirst
    | held phase j =>
      rw [hs] at hfirst
      cases phase <;> cases hfirst
  obtain ⟨hlife, hidle⟩ := hfits
  refine ⟨congrArg (·.2.2.1) hlife, fun r hr => ?_⟩
  have henrolled := ((hg.kept.started r x).mp hr).1
  rw [hidle] at henrolled
  cases henrolled

/-- **The first thread of a runtime that is made for a task gets the name `main`**, and no other one does. -/
theorem Reachable.name_of_ward (hm : m.Reachable) (hτ : m.take τ = some n) (hx : n.world.Ward home x)
    (hnew : ¬ m.world.Ward home x) :
    ∃ u, n.world.thread? x = some u ∧ (u.name = "main" ↔ ∀ y, ¬ m.world.Ward home y) := by
  obtain ⟨id, hbadge⟩ := ward_iff.mp hx
  obtain ⟨serial, hroll⟩ := hm.roll
  rcases hm.enlists_take hτ with hkeeps | ⟨task, i, k, fs, r, o, a, -, -, hworld, hi, henlisted⟩
  · exact absurd (ward_iff.mpr ⟨id, (hkeeps.badges x).symm.trans hbadge⟩) hnew
  · by_cases ho : x = o
    · subst ho
      cases henlisted.badge.symm.trans hbadge
      cases hi with
      | @adopt t unbound =>
        refine ⟨{ m.world.adoptee home t with self := some m.world.objects.size }, ?_, ?_⟩
        · rw [hworld]
          exact (thread?_adopt unbound _).trans (if_pos rfl)
        · show (m.world.registry home).adoptedName t = "main" ↔ _
          rw [adoptedName_eq_main, ← Nat.le_zero, ← Nat.not_lt, hroll.wards]
          simp only [not_exists, ward_iff]
    · rw [henlisted.others x ho] at hbadge
      exact absurd (ward_iff.mpr ⟨id, hbadge⟩) hnew

/-- **The thread of the calling task.** In every run of tasks with ids of their own, from any beginning, a task that asks
a runtime for its thread is told one, which is the one that the registry has for it then. In the `run()` of a thread of
that runtime it is this thread; any other task is told a thread that stands for it, and the same whenever it asks again.
No thread is ever that of two tasks. Threads that stand for tasks are running, they are not among the started ones, and
starting or joining them is refused as illegal in their state. The first of them is made with the name `main`, and no
other. The threads of a runtime have different ids, unless more were handed out than there are. -/
theorem current_thread_identifies {m₀ m : Machine} (h₀ : m₀.Initial) (hids : m₀.OwnIds) (hrun : Run m₀ m)
    (home : RuntimeId) :
    (∀ j t, m.tasks[j]? = some t → m.Identifies j home fun q x =>
      (q.world.registry home).bound? t.id = some x ∧
        match m.world.runs? home t.frames with
        | some o => x = o
        | none => q.world.Ward home x ∧ ∀ n, Run q n → n.Identifies j home fun _ y => y = x) ∧
    (∀ n id id' x, Run m n → (m.world.registry home).bound? id = some x →
      (n.world.registry home).bound? id' = some x → id = id') ∧
    (∀ x u, m.world.thread? x = some u → u.home = some home → u.adopted = true →
      u.state = .runnable ∧ (∀ r, x ∉ m.world.startedThreads r) ∧
        ∀ {α : Type} {y : Op α}, Demands x y →
          y.Gives (fun _ _ => True) (fun _ => False) m fun _ r => Refusal r) ∧
    (∀ τ n x, m.take τ = some n → n.world.Ward home x → ¬ m.world.Ward home x →
      ∃ u, n.world.thread? x = some u ∧ (u.name = "main" ↔ ∀ y, ¬ m.world.Ward home y)) ∧
    ∀ o p t u, m.world.thread? o = some t → m.world.thread? p = some u → t.home = some home →
      u.home = some home → t.id = u.id → o = p ∨ UInt64.size < (m.world.registry home).ids := by
  obtain ⟨τs, htrace⟩ := hrun.trace
  have hg := (h₀.attended hids).trace htrace
  have hm := hg.reachable
  refine ⟨fun j t ht => hg.identifies ht home, ?_, ?_, ?_, ?_⟩
  · intro n id id' x hrun' hb hb'
    obtain ⟨τs', htrace'⟩ := hrun'.trace
    exact hg.eq_of_bound htrace' hb hb'
  · intro x u hu hhome hadopted
    obtain ⟨hstate, hstarted⟩ := hm.ward hu hadopted
    exact ⟨hstate, hstarted, fun hy => gives_of_demands hm ⟨u, hu, hhome, hadopted⟩ hy⟩
  · intro τ n x hτ hx hnew
    exact hm.name_of_ward hτ hx hnew
  · intro o p t u ht hu hhome hhome' hid
    obtain ⟨serial, hroll⟩ := hm.roll
    exact hroll.eq_of_id (badge?_eq_some.mpr ⟨t, ht, hhome, rfl, rfl⟩)
      (badge?_eq_some.mpr ⟨u, hu, hhome', hid.symm, rfl⟩)

/-! ### A thread that asks for itself, and a task of the host -/

/-- Starts a thread whose work is to ask for the current thread. -/
def startAsker : Op Unit := do
  let work ← newRunnable (some 0) (some (.script 0 [.action (.thread none .current) {}]))
  Op.start (← newThread (some 0) (some work))

/-- Asks for the current thread. -/
def ask : Op Unit := do
  let _ ← currentThread (some 0)

/-- Two tasks of the host: one starts a thread that asks for the current thread, and the other asks itself. -/
def visited : Machine where
  world := World.single (.default []) 2
  tasks := #[{ id := 0, prog := startAsker.toProgUnit }, { id := 1, prog := ask.toProgUnit }]

instance : Op.Lawful [.home (some 0)] startAsker := by
  unfold startAsker
  infer_instance

instance : Op.Lawful [.home (some 0)] ask := by
  unfold ask
  infer_instance

theorem initial_visited : visited.Initial := initial_launch

theorem ownIds_visited : visited.OwnIds := by
  have hid {j : Nat} {t : Task} (ht : visited.tasks[j]? = some t) : j < 2 ∧ t.id = j := by
    match j, ht with
    | 0, ht | 1, ht =>
      cases ht
      exact ⟨by decide, rfl⟩
  constructor
  · intro j t ht
    rw [(hid ht).2]
    exact (hid ht).1
  · intro i j t u ht hu heq
    rw [← (hid ht).2, ← (hid hu).2, heq]

/-- The machine once the task of the host has been told its thread and the thread is about to ask. -/
def asked : Machine := visited.after (fun _ _ => true)
  (List.replicate 8 (.step 0) ++ List.replicate 3 (.step 1) ++ List.replicate 14 (.step 2))

theorem current_thread_identifies_asked : visited.Initial ∧ visited.OwnIds ∧ Run visited asked ∧
    (asked.tasks[2]?.bind fun t => asked.world.runs? 0 t.frames) = some 1 ∧
    asked.Identifies 2 0 (fun _ x => x = 1) ∧
    (asked.world.thread? 2).map (fun u => (u.name, u.adopted)) = some (("main" : Bytes), true) ∧
    (∀ n id, Run asked n → (n.world.registry 0).bound? id = some 2 → id = 1) ∧
    (Op.join 2).Gives (fun _ _ => True) (fun _ => False) asked fun _ r => Refusal r := by
  have hrun : Run visited asked :=
    (follow_trace (P := fun _ _ => True) (fun _ => trivial) (follow_eq_after (by decide +kernel))).run
  have hruns : (asked.tasks[2]?.bind fun t => asked.world.runs? 0 t.frames) = some 1 := by decide +kernel
  have hward : (asked.world.thread? 2).map (fun u => (u.name, u.adopted, u.home)) =
      some (("main" : Bytes), true, some 0) := by decide +kernel
  have hbound : (asked.world.registry 0).bound? 1 = some 2 := by decide +kernel
  obtain ⟨t, ht, hframes⟩ := Option.bind_eq_some_iff.mp hruns
  obtain ⟨u, hu, hfields⟩ := Option.map_eq_some_iff.mp hward
  have hname : u.name = "main" := congrArg (·.1) hfields
  have hadopted : u.adopted = true := congrArg (·.2.1) hfields
  have hhome : u.home = some 0 := congrArg (·.2.2) hfields
  obtain ⟨htold, hdifferent, hwards, -⟩ := current_thread_identifies initial_visited ownIds_visited hrun 0
  refine ⟨initial_visited, ownIds_visited, hrun, hruns, ?_, ?_, ?_, (hwards 2 u hu hhome hadopted).2.2 .join⟩
  · intro k fs hat
    refine (htold 2 t ht k fs hat).bind fun _ hq => ?_
    obtain ⟨x, hat', -, hx⟩ := hq
    rw [hframes] at hx
    exact .there ⟨x, hat', hx⟩
  · rw [hu, Option.map_some, hname, hadopted]
  · intro n id hlater hid
    exact (hdifferent n 1 id 2 hlater hbound hid).symm

end Machine

end ObjectKernel
