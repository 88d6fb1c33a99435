import Mathlib.Logic.Function.Basic
import ObjectKernel.Proofs.Changes
import ObjectKernel.Proofs.LawfulScripts

/-!
# The life of a thread

Between its reservation and its end a thread is in somebody's hands: the task that starts it marks it,
registers it and spawns its task, and that task then runs it and ends it. This module names the points
of these programs, gives every thread a stage that says in whose hands it is and how far it is, and
shows what each change of stage does to the fields of the thread and to the registry of its home.

## Contents

* `Run`: the points that the task of a thread passes, from `Run.binding` to `Run.closing`.
* `Phase`, `Stage`, `Stage.Next`: how far threads are.
* `World.Kept`: a world that shows what the stages say. `Kept.calm`, `Kept.shift`, `Kept.enrol`: the
  changes that keep it so.
-/

namespace ObjectKernel

open Op Function

/-! ## The points of a run -/

/-- How the program of an operation without a result ends. -/
def Op.finishUnit : Except Err Unit → Prog
  | .ok _ => .finish (.value .null)
  | .error e => .finish (.error e)

theorem Op.toProgUnit_eq (x : Op Unit) : x.toProgUnit = x finishUnit := by
  refine congrArg x (funext fun r => ?_)
  cases r <;> rfl

namespace Run

def closing (o : ObjId) : Prog := .perform (.endThread o) fun r => ofPanic r finishUnit

def terminating (o : ObjId) : Prog := .perform (.setState o .terminated) fun _ => closing o

def unbinding (o : ObjId) : Prog := .perform (.unbindTask o) fun _ => terminating o

def writing (o : ObjId) (home : RuntimeId) (text : Bytes) : Prog :=
  .perform (.writeError home text true) fun _ => unbinding o

def reporting (o : ObjId) (e : Err) (name : Bytes) : Prog :=
  .observe fun _ w =>
    match ((w.thread? o).getD {}).home with
    | some home => writing o home ("Exception in thread " ++ Quoted.text name ++ " " ++ e.message)
    | none => .finish (.panic (.defect .nullDereference))

def recording (o : ObjId) (e : Err) : Prog :=
  .perform (.recordUncaught o e) fun name => reporting o e name

/-- What follows `run()`: a panic is kept and reported, and then the thread is wound up. -/
def leaving (o : ObjId) : Outcome → Prog
  | .panic p => recording o (panicError p)
  | .value _ => unbinding o
  | .error _ => unbinding o

/-- The call of `run()`; an error that escapes it is kept and reported. -/
def body (o : ObjId) (t : Thread) : Op Unit := do
  match ← result (dispatch t.home t.self Selector.run []) with
  | .ok _ => pure ()
  | .error e => uncaught o e false

def beginning (o : ObjId) (t : Thread) : Prog :=
  .perform (.setState o .runnable) fun _ => (body o t).toProgUnit

def hosting (o : ObjId) (t : Thread) : Prog := .guard (beginning o t) (leaving o)

def binding (o : ObjId) (t : Thread) : Prog := .perform (.bindTask o) fun _ => hosting o t

/-- What is done after a panic passes the points from `recording` on. -/
theorem recording_eq (o : ObjId) (p : Panic) : (do
    uncaught o (panicError p) true
    perform (.unbindTask o)
    perform (.setState o .terminated)
    ofPanic (← perform (.endThread o)) : Op Unit) finishUnit = recording o (panicError p) := by
  refine congrArg (Prog.perform (.recordUncaught o _)) (funext fun name => ?_)
  refine Prog.observe_congr fun t w => ?_
  dsimp only
  cases ((w.thread? o).getD {}).home <;> rfl

/-- **The program of a thread's task passes these points.** -/
theorem program_eq (o : ObjId) : (Activation.thread o).program =
    .observe fun _ w => binding o ((w.thread? o).getD {}) := by
  refine (toProgUnit_eq _).trans ?_
  refine Prog.observe_congr fun t w => ?_
  refine congrArg (Prog.perform (.bindTask o)) (funext fun _ => ?_)
  refine congrArg (Prog.guard (beginning o _)) (funext fun out => ?_)
  cases out with
  | panic p => exact recording_eq o p
  | value v => rfl
  | error e => rfl

end Run

/-! ## Stages -/

/-- What a task has in hand with a thread: the first three while it starts the thread, the others while
it runs the thread. -/
inductive Phase where
  /-- The start is reserved. -/
  | marking
  /-- The thread is marked as started. -/
  | enrolling
  /-- The thread is registered. -/
  | launching
  /-- The task of the thread has not begun `run()`. -/
  | entering
  /-- The task of the thread is in `run()`. -/
  | inside
  /-- `run()` is over. -/
  | leaving
  /-- The thread is marked as terminated. -/
  | closing
  deriving DecidableEq

/-- How far a thread is in its life: not begun, in the hands of a task, or over. -/
inductive Stage where
  | idle
  | held (phase : Phase) (task : Nat)
  | past
  deriving DecidableEq

variable {s : Stage} {t : Thread}

/-- What the life of a thread shows while a task has it in hand. -/
def Phase.life : Phase → Bool × Bool × ThreadState × Bool
  | marking => (false, true, .new, false)
  | enrolling | launching | entering => (false, true, .started, false)
  | inside | leaving => (false, true, .runnable, false)
  | closing => (false, true, .terminated, false)

/-- What the life of a thread shows at a stage. -/
def Stage.life : Stage → Bool × Bool × ThreadState × Bool
  | idle => (false, false, .new, false)
  | held phase _ => phase.life
  | past => (false, true, .terminated, true)

/-- Whether a thread is registered at a stage. -/
def Stage.enrolled : Stage → Bool
  | idle | held .marking _ | held .enrolling _ => false
  | held .launching _ | held .entering _ | held .inside _ | held .leaving _ | held .closing _
  | past => true

/-- One step of a task moves one thread by one stage. -/
inductive Stage.Next (j : Nat) : Stage → Stage → Prop where
  | reserve : Next j .idle (.held .marking j)
  | mark : Next j (.held .marking j) (.held .enrolling j)
  | enrol : Next j (.held .enrolling j) (.held .launching j)
  | launch (i : Nat) : Next j (.held .launching j) (.held .entering i)
  | enter : Next j (.held .entering j) (.held .inside j)
  | leave : Next j (.held .inside j) (.held .leaving j)
  | terminate : Next j (.held .leaving j) (.held .closing j)
  | close : Next j (.held .closing j) .past

/-- A thread shows its stage. One that stands for a task of the host shows that it does, and nothing
ever happens to it. -/
def Stage.Fits (s : Stage) (t : Thread) : Prop := t.life = s.life ∨ (t.Adopted ∧ s = .idle)

theorem Stage.Fits.of_life {u : Thread} (h : s.Fits t) (hl : u.life = t.life) :
    s.Fits u := h.imp hl.trans (And.imp_left hl.trans)

/-- A thread that was not reserved is at the first stage. -/
theorem Stage.Fits.eq_idle (h : s.Fits t) (ht : t.started = false) : s = .idle := by
  rcases h with h | ⟨-, h⟩
  · have hs : t.started = s.life.2.1 := congrArg (·.2.1) h
    rw [ht] at hs
    cases s with
    | idle => rfl
    | held phase j => cases phase <;> cases hs
    | past => cases hs
  · exact h

theorem Stage.Fits.life_eq (h : s.Fits t) (hs : s ≠ .idle) : t.life = s.life := h.resolve_right fun h' => hs h'.2

/-! ## Changes of a life -/

namespace World

variable {w v : World} {o : ObjId} {ph : Phase} {j : Nat} {home : RuntimeId}

/-- A change of the life of one thread. -/
structure Shift (w v : World) (o : ObjId) (life : Bool × Bool × ThreadState × Bool) : Prop where
  next : w.Next v
  self : ∀ {u}, v.thread? o = some u → u.life = life
  other : ∀ {p}, p ≠ o → v.thread? p = w.thread? p
  started : ∀ r, v.startedThreads r = w.startedThreads r

/-- A thread that was initialised may change in its life as long as its reservation lasts. -/
theorem shift_modifyThread (hs : w.Sound) (ht : w.thread? o = some t) (hh : t.home.isSome) {f}
    (hhome : (f t).home = t.home) (hadopted : (f t).adopted = t.adopted) (hstarted : t.started → (f t).started) :
    w.Shift (w.modifyThread o f) o (f t).life := by
  obtain ⟨obj, hobj, hp⟩ := thread?_eq_some.mp ht
  have hf : ∀ a, w.object? o = some a → a = obj := fun a ha => Option.some.inj (ha.symm.trans hobj)
  have hlast : obj.Lasts { obj with payload := .thread (f t) } := by
    refine ⟨fun h => ⟨h, rfl⟩, ?_⟩
    rw [hp]
    exact ⟨f t, rfl, hadopted, fun _ => hhome, hstarted⟩
  have hle : w ≤ w.modifyThread o f := le_modifyObject fun a ha => by
    cases hf a ha
    rw [hp]
    exact hlast
  refine ⟨⟨hle, hs.of_later hle (fun {p a} ha => ?_) .inl .inl (fun h => (hs.named h).later hle)
    fun r h => (hs.shared r h).later hle⟩, fun {u} hu => ?_, fun hpo => ?_, fun r => rfl⟩
  · have ha' := (object?_modifyObject ..).symm.trans ha
    by_cases hpo : o = p
    · subst hpo
      rw [if_pos rfl, hobj, Option.map_some, hp] at ha'
      cases ha'
      have hso := hs.object hobj
      refine .inr ⟨fun c hc => (hso.cls c hc).later hle, ?_, fun u hu _ => ?_, fun u hu hn => ?_⟩
      · have hpay := hso.payload
        rw [hp] at hpay
        exact fun r hr => (hpay r (hhome ▸ hr)).later hle
      · exact hso.bound t hp hh
      · cases hu
        rw [hhome] at hn
        rw [hn] at hh
        cases hh
    · rw [if_neg hpo] at ha'
      exact .inl ha'
  · rw [thread?_modifyThread, if_pos rfl, ht] at hu
    cases hu
    rfl
  · rw [thread?_modifyThread, if_neg (Ne.symm hpo)]

theorem startedThreads_modifyRegistry (hh : w.Has home) (f : Registry → Registry) (r : RuntimeId) :
    (w.modifyRegistry home f).startedThreads r =
      if home = r then (f (w.registry r)).started else w.startedThreads r := by
  obtain ⟨rt, hrt⟩ := hh
  unfold startedThreads registry modifyRegistry
  rw [runtime?_modifyRuntime]
  by_cases hr : home = r
  · subst hr
    rw [if_pos rfl, if_pos rfl, hrt]
    rfl
  · rw [if_neg hr, if_neg hr]

/-- The home of a thread exists. -/
theorem has_home (hs : w.Sound) (ht : w.thread? o = some t) (hh : t.home = some home) : w.Has home := by
  obtain ⟨obj, hobj, hp⟩ := thread?_eq_some.mp ht
  have hpay := (hs.object hobj).payload
  rw [hp] at hpay
  exact hpay home hh

/-- What the registration of a thread does. -/
theorem register_spec (hs : w.Sound) (ht : w.thread? o = some t) (hh : t.home = some home) :
    w.Next (w.register o) ∧ (∀ p, (w.register o).thread? p = w.thread? p) ∧ ∀ r, (w.register o).startedThreads r =
        if home = r then w.startedThreads r ++ [o] else w.startedThreads r := by
  have heq : w.register o = w.modifyRegistry home (·.register o) := by
    unfold register modifyHomeRegistry
    rw [ht]
    show (match t.home with | some home => _ | none => _) = _
    rw [hh]
  rw [heq]
  have hle : w ≤ w.modifyRegistry home (·.register o) :=
    le_modifyRuntime fun rt _ => ⟨rfl, rfl, fun h _ => h, fun h => h⟩
  refine ⟨⟨hle, hs.of_later hle .inl (fun {r rt} hrt => ?_) .inl
    (fun h => (hs.named h).later hle) fun r h => (hs.shared r h).later hle⟩, fun p => rfl,
    startedThreads_modifyRegistry (has_home hs ht hh) _⟩
  replace hrt := (runtime?_modifyRuntime ..).symm.trans hrt
  by_cases hr : home = r
  · rw [if_pos hr] at hrt
    obtain ⟨a, ha, rfl⟩ := Option.map_eq_some_iff.mp hrt
    have hsa := (hs.runtime ha).later hle
    exact .inr ⟨hsa.root, hsa.builtin, hsa.cls, hsa.constant⟩
  · rw [if_neg hr] at hrt
    exact .inl hrt

/-! ## Worlds that show the stages -/

/-- A world in which every thread shows its stage, and in which the registered threads are those whose
stage says so, each of them once. -/
structure Kept (w : World) (stage : ObjId → Stage) : Prop where
  fits : ∀ {o t}, w.thread? o = some t → (stage o).Fits t
  startable : ∀ {o}, stage o ≠ .idle → w.Startable o
  started : ∀ r o, o ∈ w.startedThreads r ↔
    (stage o).enrolled ∧ ∃ t, w.thread? o = some t ∧ t.home = some r
  nodup : ∀ r, (w.startedThreads r).Nodup

variable {stage : ObjId → Stage}

theorem ne_idle_of_enrolled (h : s.enrolled) : s ≠ .idle := by
  rintro rfl
  cases h

/-- The home of a startable thread is the one it has later. -/
theorem Startable.home_iff (h : w ≤ v) (ho : w.Startable o) (r : RuntimeId) :
    (∃ u, v.thread? o = some u ∧ u.home = some r) ↔ ∃ t, w.thread? o = some t ∧ t.home = some r := by
  obtain ⟨t, ht, hh, -⟩ := ho
  obtain ⟨u, hu, hl⟩ := thread?_later h ht
  constructor
  · rintro ⟨u', hu', hr⟩
    cases hu.symm.trans hu'
    exact ⟨t, ht, (hl.home hh).symm.trans hr⟩
  · rintro ⟨t', ht', hr⟩
    cases ht.symm.trans ht'
    exact ⟨u, hu, (hl.home hh).trans hr⟩

/-- Changes that leave every life alone move no thread to another stage. -/
theorem Kept.calm (hk : w.Kept stage) (h : w.Calm v) : v.Kept stage := by
  refine ⟨fun {o u} hu => ?_, fun ho => (hk.startable ho).later h.later, fun r o => ?_, fun r => ?_⟩
  · rcases h.thread hu with ⟨t, ht, hl⟩ | ⟨hn, hb⟩
    · exact (hk.fits ht).of_life hl
    · have hidle : stage o = .idle := by
        by_contra hne
        obtain ⟨t, ht, -⟩ := hk.startable hne
        obtain ⟨obj, hobj, -⟩ := thread?_eq_some.mp ht
        rw [hn] at hobj
        cases hobj
      rw [hidle]
      exact hb.imp_right fun hb => ⟨hb, rfl⟩
  · rw [h.started, hk.started]
    refine and_congr_right fun he => ?_
    exact ((hk.startable (ne_idle_of_enrolled he)).home_iff h.later r).symm
  · rw [h.started]
    exact hk.nodup r

/-- A change of the life of one thread moves that thread to a stage that it shows then. -/
theorem Kept.shift (hk : w.Kept stage) (ho : w.Startable o) (h : w.Shift v o s.life)
    (he : s.enrolled = (stage o).enrolled) : v.Kept (update stage o s) := by
  have hstage : ∀ p, (update stage o s p).enrolled = (stage p).enrolled := fun p => by
    by_cases hp : p = o
    · rw [hp, update_self, he]
    · rw [update_of_ne hp]
  refine ⟨fun {p u} hu => ?_, fun {p} hp => ?_, fun r p => ?_, fun r => ?_⟩
  · by_cases hp : p = o
    · subst hp
      rw [update_self]
      exact .inl (h.self hu)
    · rw [h.other hp] at hu
      rw [update_of_ne hp]
      exact hk.fits hu
  · by_cases hpo : p = o
    · rw [hpo]
      exact ho.later h.next.later
    · rw [update_of_ne hpo] at hp
      exact (hk.startable hp).later h.next.later
  · rw [h.started, hk.started, hstage]
    refine and_congr_right fun he => ?_
    exact ((hk.startable (ne_idle_of_enrolled he)).home_iff h.next.later r).symm
  · rw [h.started]
    exact hk.nodup r

/-- A thread may pass to a stage that shows no difference. -/
theorem Kept.pass (hk : w.Kept stage) (hs : w.Sound) (ho : stage o ≠ .idle) (hl : s.life = (stage o).life)
    (he : s.enrolled = (stage o).enrolled) : w.Kept (update stage o s) :=
  hk.shift (hk.startable ho) ⟨.refl hs, fun hu => ((hk.fits hu).life_eq ho).trans hl.symm,
    fun _ => rfl, fun _ => rfl⟩ he

/-- The registration of a thread moves it to a stage at which it is registered. -/
theorem Kept.enrol (hk : w.Kept stage) (hs : w.Sound) (ho : stage o ≠ .idle) (hn : (stage o).enrolled = false)
    (hl : s.life = (stage o).life) (he : s.enrolled) :
    w.Next (w.register o) ∧ (w.register o).Kept (update stage o s) := by
  obtain ⟨t, ht, hh, ha⟩ := hk.startable ho
  obtain ⟨home, hhome⟩ := Option.isSome_iff_exists.mp hh
  obtain ⟨hnext, hthread, hstarted⟩ := register_spec hs ht hhome
  have hnot : ∀ r, o ∉ w.startedThreads r := fun r hr => by
    have h := ((hk.started r o).mp hr).1
    rw [hn] at h
    cases h
  refine ⟨hnext, fun {p u} hu => ?_, fun {p} hp => ?_, fun r p => ?_, fun r => ?_⟩
  · rw [hthread] at hu
    by_cases hp : p = o
    · subst hp
      rw [update_self]
      exact .inl (((hk.fits hu).life_eq ho).trans hl.symm)
    · rw [update_of_ne hp]
      exact hk.fits hu
  · by_cases hpo : p = o
    · rw [hpo]
      exact Startable.later hnext.later ⟨t, ht, hh, ha⟩
    · rw [update_of_ne hpo] at hp
      exact (hk.startable hp).later hnext.later
  · rw [hstarted, hthread]
    by_cases hp : p = o
    · subst hp
      rw [update_self, ht]
      constructor
      · intro hmem
        by_cases hr : home = r
        · exact ⟨he, t, rfl, hr ▸ hhome⟩
        · rw [if_neg hr] at hmem
          exact absurd hmem (hnot r)
      · rintro ⟨-, u, hu, hr⟩
        cases hu
        rw [hhome] at hr
        cases hr
        rw [if_pos rfl]
        exact List.mem_append_right _ (List.mem_singleton_self p)
    · rw [update_of_ne hp, ← hk.started]
      by_cases hr : home = r
      · rw [if_pos hr, List.mem_append, List.mem_singleton]
        exact or_iff_left hp
      · rw [if_neg hr]
  · rw [hstarted]
    by_cases hr : home = r
    · rw [if_pos hr]
      refine List.nodup_append.mpr ⟨hk.nodup r, List.pairwise_singleton _ o, fun a ha b hb => ?_⟩
      cases List.mem_singleton.mp hb
      rintro rfl
      exact hnot r ha
    · rw [if_neg hr]
      exact hk.nodup r

theorem life_phase (ph : Phase) : ph.life = (false, true, ph.life.2.2.1, false) := by
  cases ph <;> rfl

/-- A thread that a task has in hand, and what it shows. -/
theorem Kept.held (hk : w.Kept stage) (ho : stage o = .held ph j) :
    ∃ t, w.thread? o = some t ∧ t.home.isSome ∧ t.life = ph.life := by
  have hne : stage o ≠ .idle := by rw [ho]; nofun
  obtain ⟨t, ht, hh, -⟩ := hk.startable hne
  have hl := (hk.fits ht).life_eq hne
  rw [ho] at hl
  exact ⟨t, ht, hh, hl⟩

/-- The reservation of a start moves a thread whose life has not begun. -/
theorem Kept.reserve (hk : w.Kept stage) (hs : w.Sound) (ho : w.Startable o) (h : (w.reserveStart o).1 = true)
    (j : Nat) : stage o = .idle ∧ w.Next (w.reserveStart o).2 ∧
      (w.reserveStart o).2.Kept (update stage o (.held .marking j)) := by
  rcases w.reserveStart_cases o with hr | ⟨t, ht, hn, hr⟩
  · rw [hr] at h
    cases h
  · have hidle := (hk.fits ht).eq_idle hn
    obtain ⟨t', ht', hh, ha⟩ := ho
    cases ht.symm.trans ht'
    have hlife : t.life = (false, false, .new, false) := by
      rcases hk.fits ht with hl | ⟨hl, -⟩
      · rw [hl, hidle]
        rfl
      · cases ha.symm.trans (congrArg Prod.fst hl)
    have hshift := shift_modifyThread hs ht hh (f := fun t => { t with started := true }) rfl rfl
      fun _ => rfl
    have hlife' : Thread.life { t with started := true } = Phase.marking.life := by
      simp only [Thread.life, Prod.mk.injEq] at hlife ⊢
      obtain ⟨h1, -, h3, h4⟩ := hlife
      rw [h1, h3, h4]
      rfl
    rw [hlife'] at hshift
    rw [hr]
    exact ⟨hidle, hshift.next, hk.shift ⟨t, ht, hh, ha⟩ hshift (by rw [hidle]; rfl)⟩

/-- A change of state moves a thread to the phase that shows it. -/
theorem Kept.setState (hk : w.Kept stage) (hs : w.Sound) (ho : stage o = .held ph j) (ph' : Phase)
    (he : (Stage.held ph' j).enrolled = (Stage.held ph j).enrolled) : w.Next (w.setState o ph'.life.2.2.1) ∧
      (w.setState o ph'.life.2.2.1).Kept (update stage o (.held ph' j)) := by
  obtain ⟨t, ht, hh, hlife⟩ := hk.held ho
  have hshift := shift_modifyThread hs ht hh (f := fun t => { t with state := ph'.life.2.2.1 }) rfl rfl
    fun h => h
  have hlife' : Thread.life { t with state := ph'.life.2.2.1 } = ph'.life := by
    rw [life_phase ph] at hlife
    rw [life_phase ph']
    simp only [Thread.life, Prod.mk.injEq] at hlife ⊢
    obtain ⟨h1, h2, -, h4⟩ := hlife
    exact ⟨h1, h2, trivial, h4⟩
  rw [hlife'] at hshift
  have hne : stage o ≠ .idle := by rw [ho]; nofun
  exact ⟨hshift.next, hk.shift (hk.startable hne) hshift (by rw [ho, he])⟩

/-- The end of a thread that is marked as terminated takes effect. -/
theorem Kept.endThread (hk : w.Kept stage) (hs : w.Sound) (ho : stage o = .held .closing j) :
    ∃ v, w.endThread o = .ok v ∧ w.Next v ∧ v.Kept (update stage o .past) := by
  obtain ⟨t, ht, hh, hlife⟩ := hk.held ho
  have hshift := shift_modifyThread hs ht hh (f := fun t => { t with ended := true }) rfl rfl
    fun h => h
  simp only [Thread.life, Phase.life, Prod.mk.injEq] at hlife
  obtain ⟨h1, h2, h3, h4⟩ := hlife
  have hlife' : Thread.life { t with ended := true } = Stage.past.life := by
    simp only [Thread.life, h1, h2, h3]
    rfl
  rw [hlife'] at hshift
  have hne : stage o ≠ .idle := by rw [ho]; nofun
  refine ⟨_, ?_, hshift.next, hk.shift (hk.startable hne) hshift (by rw [ho]; rfl)⟩
  unfold World.endThread
  simp only [ht, h4, Bool.false_eq_true, if_false]

end World

end ObjectKernel
