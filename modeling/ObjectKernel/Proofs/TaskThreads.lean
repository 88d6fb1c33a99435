import ObjectKernel.Proofs.Accounts
import ObjectKernel.Proofs.Results
import ObjectKernel.Proofs.ThreadNumbers

/-!
# The threads of tasks

A registry has at most one thread for a task. While a task runs a thread, that thread is the one that the registry
of its home has for the task; a thread that was made for a task stays the one of that task, unless the task begins to
run a thread of the same runtime. No thread is ever that of two tasks, provided that ids of tasks are not reused.

## Contents

* `Machine.OwnIds`: tasks with ids of their own. `OwnIds.run`: they keep them.
* `Serves`: a task has a thread that it runs. `Sits.serves`, `Sits.serves_of_goes`: when it begins and ends.
* `Instr.exec_stays_bound`, `Machine.Attended.stays_bound`: what ends a binding.
* `Machine.Attended`, `Attended.take`, `Attended.trace`: the invariant of bindings.
-/

namespace ObjectKernel

open Op World

/-! ## Ids of tasks -/

namespace Machine

variable {m n : Machine} {τ : Turn} {j : Nat} {t u : Task}

/-- Tasks have ids of their own, out of those that have been handed out. -/
structure OwnIds (m : Machine) : Prop where
  lt : ∀ {j : Nat} {t : Task}, m.tasks[j]? = some t → t.id < m.world.tasks
  unique : ∀ {i j : Nat} {t u : Task}, m.tasks[i]? = some t → m.tasks[j]? = some u → t.id = u.id → i = j

/-- A task keeps its id. -/
theorem task_take (hτ : m.take τ = some n) (ht : m.tasks[j]? = some t) : ∃ u, n.tasks[j]? = some u ∧ u.id = t.id := by
  by_cases hj : τ.task = j
  · subst hj
    obtain ⟨t', ht', ⟨v, p, fs, -, rfl⟩ | ⟨o, k, -, -, rfl⟩⟩ := take_cases hτ
    · cases ht.symm.trans ht'
      exact ⟨_, task_put_self ht .., rfl⟩
    · cases ht.symm.trans ht'
      exact ⟨_, task_fork_self ht .., rfl⟩
  · exact ⟨t, task_of_ne hτ hj ht, rfl⟩

theorem task_trace {P : Machine → Turn → Prop} {τs} (hrun : Trace P m τs n) (ht : m.tasks[j]? = some t) :
    ∃ u, n.tasks[j]? = some u ∧ u.id = t.id := by
  induction hrun generalizing t with
  | refl m => exact ⟨t, ht, rfl⟩
  | cons _ move _ ih =>
    obtain ⟨u, hu, hid⟩ := task_take move ht
    obtain ⟨v, hv, hid'⟩ := ih hu
    exact ⟨v, hv, hid'.trans hid⟩

/-- A task was there before a turn, or it is new and has the next id. -/
theorem task_before (hτ : m.take τ = some n) (hu : n.tasks[j]? = some u) :
    (∃ t, m.tasks[j]? = some t ∧ t.id = u.id ∧ (τ.task ≠ j → u = t)) ∨
      j = m.tasks.size ∧ u.id = m.world.tasks ∧ m.world.tasks < n.world.tasks ∧
        ∃ o, u.prog = (Activation.thread o).program ∧ u.frames = [] := by
  obtain ⟨t, ht, ⟨v, p, fs, -, rfl⟩ | ⟨o, k, -, -, rfl⟩⟩ := take_cases hτ
  · left
    by_cases hj : j = τ.task
    · subst hj
      cases (task_put_self ht ..).symm.trans hu
      exact ⟨t, ht, rfl, fun hne => absurd rfl hne⟩
    · rw [task_put_of_ne hj] at hu
      exact ⟨u, hu, rfl, fun _ => rfl⟩
  · by_cases hj : j = τ.task
    · subst hj
      cases (task_fork_self ht ..).symm.trans hu
      exact .inl ⟨t, ht, rfl, fun hne => absurd rfl hne⟩
    · by_cases hlast : j = m.tasks.size
      · subst hlast
        cases (task_fork_last ..).symm.trans hu
        exact .inr ⟨rfl, rfl, Nat.lt_succ_self _, o, rfl, rfl⟩
      · rw [task_fork_of_ne hj hlast] at hu
        exact .inl ⟨u, hu, rfl, fun _ => rfl⟩

theorem tasks_le_take (hτ : m.take τ = some n) : m.world.tasks ≤ n.world.tasks := by
  obtain ⟨t, -, ⟨v, p, fs, hgo, rfl⟩ | ⟨o, k, -, -, rfl⟩⟩ := take_cases hτ
  · generalize τ.isExpiry = expired, t.prog = prog, t.frames = frames at hgo
    cases hgo with
    | perform i k => exact Instr.exec_tasks t.id m.world i
    | resume | observe | await | expire | call | guard | pause => exact Nat.le_refl _
  · exact Nat.le_succ _

theorem OwnIds.take (h : m.OwnIds) (hτ : m.take τ = some n) : n.OwnIds := by
  constructor
  · intro j u hu
    rcases task_before hτ hu with ⟨t, ht, hid, -⟩ | ⟨-, hid, hlt, -⟩
    · rw [← hid]
      exact (h.lt ht).trans_le (tasks_le_take hτ)
    · rw [hid]
      exact hlt
  · intro i j t u ht hu hid
    rcases task_before hτ ht with ⟨t', ht', hid', -⟩ | ⟨hi, hid', -⟩
    · rcases task_before hτ hu with ⟨u', hu', hid'', -⟩ | ⟨-, hid'', -⟩
      · exact h.unique ht' hu' (hid'.trans (hid.trans hid''.symm))
      · -- The id of a new task is greater than all others.
        have hlt := h.lt ht'
        rw [hid', hid, hid''] at hlt
        exact absurd hlt (Nat.lt_irrefl _)
    · rcases task_before hτ hu with ⟨u', hu', hid'', -⟩ | ⟨hj, -⟩
      · have hlt := h.lt hu'
        rw [hid'', ← hid, hid'] at hlt
        exact absurd hlt (Nat.lt_irrefl _)
      · rw [hi, hj]

end Machine

/-! ## Tasks that run threads -/

/-- A task has bound itself to a thread and is not done with its `run()`. -/
def Serves (o : ObjId) (p : Prog) (fs : List Frame) : Prop :=
  runningIn fs = some o ∨ fs = [] ∧ ∃ t, p = Run.hosting o t

section

variable {w v : World} {hand : ObjId → Option Phase} {p q : Prog} {fs gs : List Frame} {o x : ObjId} {t : Thread}

theorem Run.hosting_inj {u} (h : Run.hosting x t = Run.hosting o u) : x = o := by
  have hbody := (Prog.guard.inj h).1
  have hinstr := (Prog.perform.inj hbody).1
  exact (Instr.setState.inj hinstr).1

theorem not_lawful_hosting {own : Option ObjId} : ¬ (Run.hosting o t).Lawful own w := by
  intro h
  cases h with
  | guard inner next =>
    cases inner with
    | perform allowed next => exact allowed

theorem Hosts.runningIn_eq {ph} (h : Hosts x ph p fs) (hr : runningIn fs = some o) : x = o := by
  cases h with
  | beginning t => exact Option.some.inj hr
  | entering | binding | hosting | recording | reporting | writing | unbinding | terminating | closing => cases hr

/-- A task that serves a thread has it in hand. -/
theorem Sits.serves (hs : w.Sound) (h : Sits w hand p fs) (ho : Serves o p fs) :
    ∃ ph, ph.hosts ∧ hand o = some ph := by
  cases h with
  | @free own p fs lawful frames =>
    rcases ho with hr | ⟨-, t, rfl⟩
    · rw [frames.runningIn_eq hs] at hr
      exact ⟨.inside, rfl, by rw [hr, Machine.inHand_self]⟩
    · exact absurd lawful not_lawful_hosting
  | @starting own x p q fs ph other point lawful frames =>
    rcases ho with hr | ⟨-, t, hq⟩
    · rw [frames.runningIn_eq hs] at hr
      refine ⟨.inside, rfl, ?_⟩
      rw [Function.update_of_ne, hr, Machine.inHand_self]
      rintro rfl
      exact other hr
    · cases point <;> cases hq
  | @hosting x p fs ph point =>
    rcases ho with hr | ⟨-, t, hq⟩
    · cases point.runningIn_eq hr
      cases point with
      | beginning => exact ⟨.entering, rfl, Function.update_self ..⟩
      | entering | binding | hosting | recording | reporting | writing | unbinding | terminating | closing =>
        cases hr
    · cases point with
      | hosting =>
        cases Run.hosting_inj hq
        exact ⟨.entering, rfl, Function.update_self ..⟩
      | entering =>
        rw [Run.program_eq] at hq
        cases hq
      | binding | beginning | recording | reporting | writing | unbinding | terminating | closing => cases hq

/-- The instructions that bind and unbind a task are performed outside all calls, at points of their own. -/
theorem Sits.of_binds {i : Instr} {k} (h : Sits w hand (.perform i k) fs) (hi : i = .bindTask x ∨ i = .unbindTask x) :
    fs = [] ∧ ∃ ph, ph.hosts ∧ hand x = some ph ∧ (i = .bindTask x → ∃ t, Prog.perform i k = Run.binding x t) := by
  generalize hp : Prog.perform i k = p at h
  cases h with
  | free lawful frames =>
    subst hp
    cases lawful with
    | perform allowed next =>
      rcases hi with rfl | rfl
      · exact allowed.elim
      · exact allowed.elim
    | start => rcases hi with hi | hi <;> cases hi
  | starting other point lawful frames =>
    cases point with
    | marking | enrolling =>
      cases hp
      rcases hi with hi | hi <;> cases hi
    | launching => cases hp
  | hosting point =>
    cases point with
    | entering =>
      rw [Run.program_eq] at hp
      cases hp
    | binding t =>
      cases hp
      rcases hi with hi | hi
      · cases hi
        exact ⟨rfl, .entering, rfl, Function.update_self .., fun _ => ⟨t, rfl⟩⟩
      · cases hi
    | unbinding =>
      cases hp
      rcases hi with hi | hi
      · cases hi
      · cases hi
        exact ⟨rfl, .leaving, rfl, Function.update_self .., nofun⟩
    | hosting | reporting => cases hp
    | beginning | recording | writing | terminating | closing =>
      cases hp
      rcases hi with hi | hi <;> cases hi

/-- What follows the launch of a task is lawful, and so it is not the run of a thread. -/
theorem Sits.not_spawn_hosting (hs : w.Sound) : ¬ Sits w hand (.spawn x (Run.hosting o t)) fs := by
  intro h
  cases h with
  | free lawful frames => cases lawful
  | starting other point lawful frames =>
    cases point
    exact not_lawful_hosting (lawful w (.refl hs))
  | hosting point => cases point

/-- **A task comes to serve a thread only by binding itself to it.** -/
theorem Sits.serves_of_goes (hs : w.Sound) (h : Sits w hand p fs) {id expired} (hgo : Goes id w expired p fs v q gs)
    (ho : Serves o q gs) : Serves o p fs ∨ ∃ k, p = .perform (.bindTask o) k := by
  cases h with
  | @free own p fs lawful frames =>
    rcases lawful.goes hs frames hgo with ⟨-, hcalm, hlawful, hframes⟩ |
      ⟨x, p', -, -, -, -, rfl, -, rfl⟩ | ⟨x, out, -, -, -, rfl, rfl⟩
    · rcases ho with hr | ⟨-, t, rfl⟩
      · rw [hframes.runningIn_eq hcalm.sound, ← frames.runningIn_eq hs] at hr
        exact .inl (.inl hr)
      · exact absurd hlawful not_lawful_hosting
    · rcases ho with hr | ⟨-, t, hq⟩
      · exact .inl (.inl hr)
      · cases hq
    · -- The `run()` of a thread is over.
      rcases ho with hr | ⟨-, t, hq⟩
      · cases hr
      · cases out <;> cases hq
  | starting other point lawful frames =>
    cases point with
    | marking | enrolling =>
      obtain ⟨-, rfl, rfl⟩ := hgo.performed
      rcases ho with hr | ⟨-, t, hq⟩
      · exact .inl (.inl hr)
      · cases hq
    | launching => cases hgo
  | hosting point =>
    cases point with
    | entering =>
      rw [Run.program_eq] at hgo
      cases hgo
      rcases ho with hr | ⟨-, t, hq⟩
      · cases hr
      · cases hq
    | binding t =>
      cases hgo
      rcases ho with hr | ⟨-, u, hq⟩
      · cases hr
      · cases Run.hosting_inj hq
        exact .inr ⟨_, rfl⟩
    | hosting t =>
      cases hgo
      rcases ho with hr | ⟨hnil, -⟩
      · cases hr
        exact .inl (.inr ⟨rfl, t, rfl⟩)
      · cases hnil
    | beginning t =>
      cases hgo
      rcases ho with hr | ⟨hnil, -⟩
      · exact .inl (.inl hr)
      · cases hnil
    | reporting e name =>
      cases hgo
      rcases ho with hr | ⟨-, t, hq⟩
      · cases hr
      · dsimp only at hq
        split at hq <;> cases hq
    | closing =>
      obtain ⟨-, rfl, rfl⟩ := hgo.performed
      rcases ho with hr | ⟨-, t, hq⟩
      · cases hr
      · generalize ((Instr.endThread _).exec id w).1 = r at hq
        cases r <;> cases hq
    | recording | writing | unbinding | terminating =>
      cases hgo
      rcases ho with hr | ⟨-, t, hq⟩
      · cases hr
      · cases hq

end

/-! ## Bindings that last -/

/-- **A binding lasts** unless its task begins or ends a thread of the same runtime. -/
theorem Instr.exec_stays_bound {w : World} {r : RuntimeId} {id task : TaskId} {o : ObjId} {i : Instr}
    (hb : (w.registry r).bound? id = some o)
    (hi : ∀ x, i = .bindTask x ∨ i = .unbindTask x → id = task → (w.thread? x).bind (·.home) ≠ some r) :
    ((i.exec task w).2.registry r).bound? id = some o := by
  rcases (i.effect task w).registryOf r with hsame | ⟨f, hf, hregistry⟩
  · rw [hsame]
    exact hb
  · rw [hregistry]
    cases hf with
    | initThread => exact hb
    | @adopt _ t unbound =>
      have hid : id ≠ t := by
        rintro rfl
        cases unbound.symm.trans hb
      exact (Dictionary.get?_insert_of_ne _ _ hid).trans hb
    | rebinds rebinds initialised =>
      cases rebinds with
      | register => exact hb
      | bindTask =>
        have hid : id ≠ task := fun hid => hi _ (.inl rfl) hid initialised
        exact (Dictionary.get?_insert_of_ne _ _ hid).trans hb
      | unbindTask =>
        have hid : id ≠ task := fun hid => hi _ (.inr rfl) hid initialised
        exact (Dictionary.get?_erase_of_ne _ hid).trans hb

namespace Machine

variable {m n : Machine} {τ : Turn} {o : ObjId} {b : RuntimeId × Int64 × Bool}

/-- What a turn does to the world: nothing that concerns threads, or what an instruction does. -/
theorem take_performs (hτ : m.take τ = some n) : (m.world.SameRegistries n.world ∧ m.world.SameThreads n.world) ∨
      ∃ t i k, τ = .step τ.task ∧ m.tasks[τ.task]? = some t ∧ t.prog = .perform i k ∧
        n.world = (i.exec t.id m.world).2 := by
  obtain ⟨t, ht, ⟨v, p, fs, hgo, rfl⟩ | ⟨o, k, -, -, rfl⟩⟩ := take_cases hτ
  · generalize hprog : t.prog = prog, t.frames = frames, hexpired : τ.isExpiry = expired at hgo
    cases hgo with
    | perform i k =>
      refine .inr ⟨t, i, k, ?_, ht, hprog, rfl⟩
      cases τ with
      | step j => rfl
      | expire j => cases hexpired
    | resume | observe | await | expire | call | guard | pause => exact .inl ⟨fun _ => rfl, fun _ => rfl⟩
  · exact .inl ⟨sameRegistries_of_runtimes rfl, sameThreads_of_objects rfl⟩

/-- What a turn does to badges. -/
theorem Reachable.enlists_take (hm : m.Reachable) (hτ : m.take τ = some n) :
    m.world.KeepsRoll n.world ∨ ∃ id i k fs home o a, τ = .step τ.task ∧ m.At τ.task (.perform i k) fs ∧
      n.world = (i.exec id m.world).2 ∧ i.Enlists m.world home o a ∧ m.world.Enlisted n.world home o a := by
  rcases take_performs hτ with ⟨hregistries, hthreads⟩ | ⟨t, i, k, hstep, ht, hprog, hworld⟩
  · exact .inl (hthreads.badges.keepsRoll hregistries)
  · have hat : m.At τ.task (.perform i k) t.frames := ⟨t, ht, hprog, rfl⟩
    obtain ⟨hand, hworks⟩ := hm.works hat
    rcases Instr.exec_enlists hm.sound hworks t.id with hkeeps | ⟨home, o, a, hi, henlisted⟩
    · rw [← hworld] at hkeeps
      exact .inl hkeeps
    · rw [← hworld] at henlisted
      exact .inr ⟨t.id, i, k, t.frames, home, o, a, hstep, hat, hworld, hi, henlisted⟩

/-- A thread keeps its badge. -/
theorem Reachable.badge_take (hm : m.Reachable) (hτ : m.take τ = some n) (hb : m.world.badge? o = some b) :
    n.world.badge? o = some b := by
  rcases hm.enlists_take hτ with hkeeps | ⟨id, i, k, fs, home, p, a, -, -, -, -, henlisted⟩
  · exact (hkeeps.badges o).trans hb
  · have hne : o ≠ p := by
      rintro rfl
      cases henlisted.new.symm.trans hb
    exact (henlisted.others o hne).trans hb

theorem Reachable.badge_run (hm : m.Reachable) (hrun : Run m n) (hb : m.world.badge? o = some b) :
    n.world.badge? o = some b := by
  induction hrun with
  | refl => exact hb
  | tail run move ih =>
    obtain ⟨τ, hτ⟩ := move_iff.mp move
    exact (hm.run run).badge_take hτ ih

/-! ## The invariant of bindings -/

/-- A machine whose tasks have ids of their own, with an account of every thread that was initialised. A registry binds
only threads of its runtime, each of them to one task, and a task is bound to a thread as long as it serves it. -/
structure Attended (m : Machine) (stage : ObjId → Stage) : Prop where
  reachable : m.Reachable
  governed : m.Governed stage
  ownIds : m.OwnIds
  account : ∀ {o home id}, m.world.badge? o = some (home, id, false) → ∃ self c story,
    (∀ j, m.tasks.size ≤ j → story j = []) ∧ m.world.classOf? self = some c ∧
      m.Accounts o home self c story (stage o)
  home : ∀ {r id o}, (m.world.registry r).bound? id = some o → ∃ i a, m.world.badge? o = some (r, i, a)
  single : ∀ {r id id' o}, (m.world.registry r).bound? id = some o →
    (m.world.registry r).bound? id' = some o → id = id'
  serves : ∀ {j : Nat} {t : Task} {o home i a}, m.tasks[j]? = some t → Serves o t.prog t.frames →
    m.world.badge? o = some (home, i, a) → (m.world.registry home).bound? t.id = some o

variable {stage : ObjId → Stage}

/-- A thread that a task has in hand has a badge. -/
theorem Governed.badge (hg : m.Governed stage) {phase j} (ho : stage o = .held phase j) :
    ∃ home id, m.world.badge? o = some (home, id, false) := by
  obtain ⟨t, ht, hsome, hadopted⟩ := hg.kept.startable (show stage o ≠ .idle by rw [ho]; nofun)
  obtain ⟨home, hhome⟩ := Option.isSome_iff_exists.mp hsome
  exact ⟨home, t.id, badge?_eq_some.mpr ⟨t, ht, hhome, rfl, hadopted⟩⟩

namespace Attended

variable {r home : RuntimeId} {id : TaskId} {o : ObjId} {i : Int64} {j : Nat} {t : Task} {a : Bool}

/-- **A thread that was initialised is bound to its own task**, if to any. -/
theorem hosted (h : m.Attended stage) (hb : (m.world.registry r).bound? id = some o)
    (hbadge : m.world.badge? o = some (r, i, false)) :
    ∃ j t phase, m.tasks[j]? = some t ∧ t.id = id ∧ phase.hosts ∧ stage o = .held phase j := by
  obtain ⟨self, c, story, -, -, haccount⟩ := h.account hbadge
  generalize hs : stage o = s at haccount
  cases haccount with
  | early _ _ unbound => exact absurd hb (unbound r id)
  | @hosted phase j t hosts task point shows =>
    exact ⟨j, t, phase, task, (shows.bound r id hb).2.1.symm, hosts, rfl⟩
  | past j out finished concluded record unbound => exact absurd hb (unbound r id)

/-- What a task serves it has in hand, and it has a badge. -/
theorem held_of_serves (h : m.Attended stage) (ht : m.tasks[j]? = some t) (ho : Serves o t.prog t.frames) :
    (∃ phase, phase.hosts ∧ stage o = .held phase j) ∧ ∃ home id, m.world.badge? o = some (home, id, false) := by
  obtain ⟨phase, hhosts, hphase⟩ := (h.governed.task ht).serves h.governed.sound ho
  have hheld := Stage.eq_held hphase
  exact ⟨⟨phase, hhosts, hheld⟩, h.governed.badge hheld⟩

/-- **A turn leaves a binding alone** unless its task begins or ends a thread of the same runtime in it. -/
theorem stays_bound (h : m.Attended stage) (hτ : m.take τ = some n) (ht : m.tasks[j]? = some t)
    (hb : (m.world.registry r).bound? t.id = some o)
    (hown : τ.task = j → ∀ (i : Instr) (k : i.Answer → Prog) (x : ObjId), t.prog = .perform i k →
      i = .bindTask x ∨ i = .unbindTask x → (m.world.thread? x).bind (·.home) ≠ some r) :
    (n.world.registry r).bound? t.id = some o := by
  rcases take_performs hτ with ⟨hregistries, -⟩ | ⟨t', i, k, -, ht', hprog, hworld⟩
  · rw [hregistries r]
    exact hb
  · rw [hworld]
    apply Instr.exec_stays_bound hb
    intro x hx hid
    have hj : τ.task = j := h.ownIds.unique ht' ht hid.symm
    subst hj
    cases ht.symm.trans ht'
    exact hown rfl i k x hprog hx

theorem account_take (h : m.Attended stage) (hτ : m.take τ = some n) {id}
    (hb : n.world.badge? o = some (home, id, false)) : ∃ self c story,
      (∀ j, n.tasks.size ≤ j → story j = []) ∧ n.world.classOf? self = some c ∧
        n.Accounts o home self c story (Stage.after stage τ.task m.tasks.size (m.deed? τ) o) := by
  have hold (hbadge : m.world.badge? o = some (home, id, false)) : ∃ self c story,
      (∀ j, n.tasks.size ≤ j → story j = []) ∧ n.world.classOf? self = some c ∧
        n.Accounts o home self c story (Stage.after stage τ.task m.tasks.size (m.deed? τ) o) := by
    obtain ⟨self, c, story, hstory, hc, haccount⟩ := h.account hbadge
    refine ⟨self, c, fun j => story j ++ m.conduct j τ, fun j hj => ?_,
      classOf?_later (h.reachable.le_take hτ) hc, haccount.take h.governed hstory hc hτ⟩
    have hj := (size_le_take hτ).trans hj
    show story j ++ m.conduct j τ = []
    rw [hstory j hj, conduct_of_size_le hj]
    rfl
  rcases h.reachable.enlists_take hτ with hkeeps | ⟨-, i, k, fs, r, p, a, hstep, hat, -, hi, henlisted⟩
  · exact hold ((hkeeps.badges o).symm.trans hb)
  · by_cases ho : o = p
    · -- The thread has just been initialised.
      subst ho
      cases henlisted.badge.symm.trans hb
      cases hi with
      | @initialise self c target v ok thread =>
        rw [hstep] at hτ
        have hinit : m.Initialises τ.task home self (m.world.header self) :=
          ⟨c, target, k, fs, v, hat, ok, rfl, thread⟩
        obtain ⟨hdeed, -⟩ := hinit.take hτ
        rw [← hstep] at hdeed
        obtain ⟨c, -, -, -, hc, haccount⟩ := h.governed.accounts_of_initialises h.reachable hinit hτ
        rw [hdeed]
        exact ⟨self, c, fun _ => [], fun _ _ => rfl, hc, haccount⟩
    · exact hold ((henlisted.others o ho).symm.trans hb)

theorem home_take (h : m.Attended stage) (hτ : m.take τ = some n) (hb : (n.world.registry r).bound? id = some o) :
    ∃ i a, n.world.badge? o = some (r, i, a) := by
  have hold (hb : (m.world.registry r).bound? id = some o) : ∃ i a, n.world.badge? o = some (r, i, a) := by
    obtain ⟨i, a, hbadge⟩ := h.home hb
    exact ⟨i, a, h.reachable.badge_take hτ hbadge⟩
  rcases take_performs hτ with ⟨hregistries, -⟩ | ⟨t, i, k, -, -, -, hworld⟩
  · rw [hregistries r] at hb
    exact hold hb
  · rw [hworld] at hb
    rcases Instr.exec_bound hb with hb | ⟨rfl, -, hhome⟩ | ⟨rfl, hunbound, rfl⟩
    · exact hold hb
    · obtain ⟨u, hu, hr⟩ := Option.bind_eq_some_iff.mp hhome
      exact ⟨u.id, u.adopted, h.reachable.badge_take hτ (badge?_eq_some.mpr ⟨u, hu, hr, rfl, rfl⟩)⟩
    · rw [hworld]
      refine ⟨_, true, badge?_eq_some.mpr
        ⟨{ m.world.adoptee r id with self := some m.world.objects.size }, ?_, rfl, rfl, rfl⟩⟩
      exact (thread?_adopt hunbound _).trans (if_pos rfl)

theorem single_take (h : m.Attended stage) (hτ : m.take τ = some n) {id'}
    (hb : (n.world.registry r).bound? id = some o) (hb' : (n.world.registry r).bound? id' = some o) : id = id' := by
  rcases take_performs hτ with ⟨hregistries, -⟩ | ⟨t, i, k, -, ht, hprog, hworld⟩
  · rw [hregistries r] at hb hb'
    exact h.single hb hb'
  · -- A task that binds itself to its thread is the only one that the thread was bound to before.
    have hown (hi : i = .bindTask o) {id : TaskId} (hb : (m.world.registry r).bound? id = some o) :
        id = t.id := by
      obtain ⟨phase, -, hheld⟩ := h.governed.hosts ⟨t, ht, hprog, rfl⟩ (show i.hosts? = some o by rw [hi]; rfl)
      obtain ⟨home, j, hbadge⟩ := h.governed.badge hheld
      obtain ⟨i', a, hhome⟩ := h.home hb
      cases hbadge.symm.trans hhome
      obtain ⟨j', t', phase', ht', hid, -, hheld'⟩ := h.hosted hb hbadge
      cases hheld.symm.trans hheld'
      cases ht.symm.trans ht'
      exact hid.symm
    have hnew {id : TaskId} : (m.world.registry r).bound? id ≠ some m.world.objects.size := by
      intro hb
      obtain ⟨i', a, hhome⟩ := h.home hb
      cases (badge?_of_none (thread?_size m.world)).symm.trans hhome
    rw [hworld] at hb hb'
    rcases Instr.exec_bound hb with hold | ⟨hi, hid, -⟩ | ⟨hi, -, ho⟩
    · rcases Instr.exec_bound hb' with hold' | ⟨hi', hid', -⟩ | ⟨-, -, ho'⟩
      · exact h.single hold hold'
      · rw [hown hi' hold, hid']
      · rw [ho'] at hold
        exact absurd hold hnew
    · rcases Instr.exec_bound hb' with hold' | ⟨-, hid', -⟩ | ⟨hi', -⟩
      · rw [hown hi hold', hid]
      · rw [hid, hid']
      · cases hi.symm.trans hi'
    · rcases Instr.exec_bound hb' with hold' | ⟨hi', -⟩ | ⟨hi', -⟩
      · rw [ho] at hold'
        exact absurd hold' hnew
      · cases hi.symm.trans hi'
      · cases hi.symm.trans hi'
        rfl

/-- A task that was bound to a thread that it serves is so after a turn. -/
theorem serves_stays (h : m.Attended stage) (hτ : m.take τ = some n) (ht : m.tasks[j]? = some t)
    (ho : Serves o t.prog t.frames) (hbadge : n.world.badge? o = some (home, i, a)) :
    (n.world.registry home).bound? t.id = some o := by
  obtain ⟨-, home', i', hbadge'⟩ := h.held_of_serves ht ho
  cases (h.reachable.badge_take hτ hbadge').symm.trans hbadge
  refine h.stays_bound hτ ht (h.serves ht ho hbadge') ?_
  -- A task that serves a thread neither binds nor unbinds itself in its next turn.
  intro hj instr k x hprog hx
  have hsits := h.governed.task ht
  rw [hprog] at hsits
  obtain ⟨hnil, -⟩ := hsits.of_binds hx
  rcases ho with hr | ⟨-, u, hhosting⟩
  · rw [hnil] at hr
    cases hr
  · cases hprog.symm.trans hhosting

theorem serves_take (h : m.Attended stage) (hτ : m.take τ = some n) {u} (hu : n.tasks[j]? = some u)
    (ho : Serves o u.prog u.frames) (hbadge : n.world.badge? o = some (home, i, a)) :
    (n.world.registry home).bound? u.id = some o := by
  rcases task_before hτ hu with ⟨t, ht, hid, hother⟩ | ⟨-, -, -, x, hprog, hframes⟩
  · rw [← hid]
    by_cases hj : τ.task = j
    · subst hj
      have hsits := h.governed.task ht
      obtain ⟨t', ht', ⟨v, p, fs, hgo, hn⟩ | ⟨x, k, -, hspawn, hn⟩⟩ := take_cases hτ
      · cases ht.symm.trans ht'
        have hworld : n.world = v := by rw [hn]; rfl
        rw [hn] at hu
        cases (task_put_self ht ..).symm.trans hu
        rcases hsits.serves_of_goes h.governed.sound hgo ho with ho | ⟨k, hprog⟩
        · exact h.serves_stays hτ ht ho hbadge
        · -- The task has just bound itself to the thread.
          rw [hprog] at hgo hsits
          obtain ⟨hv, -⟩ := hgo.performed
          obtain ⟨-, phase, -, hphase, -⟩ := hsits.of_binds (.inl rfl)
          obtain ⟨home', i', hbadge'⟩ := h.governed.badge (Stage.eq_held hphase)
          cases (h.reachable.badge_take hτ hbadge').symm.trans hbadge
          obtain ⟨x, hx, hhome, -⟩ := badge?_eq_some.mp hbadge'
          rw [hworld, hv]
          show ((m.world.modifyHomeRegistry o _).registry home).bound? t.id = some o
          rw [registry_modifyHomeRegistry_of_thread h.governed.sound hx hhome, if_pos rfl]
          exact Dictionary.get?_insert_self ..
      · cases ht.symm.trans ht'
        rw [hn] at hu
        cases (task_fork_self ht ..).symm.trans hu
        refine h.serves_stays hτ ht ?_ hbadge
        rcases ho with hr | ⟨-, y, hk⟩
        · exact .inl hr
        · dsimp only at hk
          rw [hspawn, hk] at hsits
          exact absurd hsits (Sits.not_spawn_hosting h.governed.sound)
    · cases hother hj
      exact h.serves_stays hτ ht ho hbadge
  · -- A task that has just been launched serves nothing yet.
    rw [hprog, hframes] at ho
    rcases ho with hr | ⟨-, y, hhosting⟩
    · cases hr
    · rw [Run.program_eq] at hhosting
      cases hhosting

/-- **Every turn keeps the invariant of bindings.** -/
theorem take (h : m.Attended stage) (hτ : m.take τ = some n) :
    n.Attended (Stage.after stage τ.task m.tasks.size (m.deed? τ)) where
  reachable := h.reachable.take hτ
  governed := (h.governed.advances hτ).governed
  ownIds := h.ownIds.take hτ
  account := h.account_take hτ
  home := h.home_take hτ
  single := h.single_take hτ
  serves := h.serves_take hτ

theorem trace (h : m.Attended stage) {P : Machine → Turn → Prop} {τs} (hrun : Trace P m τs n) :
    n.Attended (m.stages τs stage) := by
  induction hrun generalizing stage with
  | refl m => exact h
  | cons _ move _ ih =>
    rw [stages_cons move]
    exact ih (h.take move)

end Attended

/-- At the beginning nothing is bound. -/
theorem Initial.attended (h : m.Initial) (hn : m.OwnIds) : m.Attended fun _ => .idle where
  reachable := h.reachable
  governed := h.governed
  ownIds := hn
  account {o home id} hb := by cases (badge?_of_none (h.fresh.thread? o)).symm.trans hb
  home {r id o} hb := by
    rw [h.fresh.registry r] at hb
    cases hb
  single {r id id' o} hb := by
    rw [h.fresh.registry r] at hb
    cases hb
  serves {j t o home i a} _ _ hb := by cases (badge?_of_none (h.fresh.thread? o)).symm.trans hb

end Machine

end ObjectKernel
