import ObjectKernel.Proofs.Lifecycle

/-!
# What a call does by itself

A call runs at one level of its task's frames. What happens above that level, and what other tasks do, is
interference to it; what it does by itself are the instructions it performs at its level and the calls it
makes from there. This module gives each part of a program tree its meaning under interference, and shows
that every run of a machine keeps to it.

## Contents

* `Event`, `Machine.record`: what can be told of the turns of a run. `Machine.history_trace`: what
  instructions keep of a world and its history.
* `Machine.events`: what a task does at one level.
* `Prog.Ensures`: whatever interference does, a program comes to a point that meets a condition, together
  with its events and the world then. `Machine.ensures_trace`: then it does so in every run.
-/

namespace ObjectKernel

open List

/-- Something that a task does at one level of its frames. -/
inductive Event where
  | performed (i : Instr)
  | called (a : Activation)
  | returned (o : Outcome)

/-- What a turn of a task does at the level with a number of frames. -/
def Task.events (t : Task) (depth : Nat) : List Event :=
  match t.prog with
  | .perform i _ => if t.frames.length = depth then [.performed i] else []
  | .call a _ => if t.frames.length = depth then [.called a] else []
  | .finish o => if t.frames.length = depth + 1 then [.returned o] else []
  | _ => []

namespace Machine

variable {α : Type} {m n : Machine}

/-- What a turn does at a level of a task. -/
def events (i depth : Nat) (m : Machine) (τ : Turn) : List Event :=
  match m.tasks[i]? with
  | some t => if τ.task = i then t.events depth else []
  | none => []

/-- What the turns of a run do, put together. -/
def record {α : Type} (f : Machine → Turn → List α) : Machine → List Turn → List α
  | _, [] => []
  | m, τ :: τs => f m τ ++ match m.take τ with
    | some n => record f n τs
    | none => []

theorem record_cons (f : Machine → Turn → List α) {τ} (h : m.take τ = some n) (τs : List Turn) :
    m.record f (τ :: τs) = f m τ ++ n.record f τs := by
  rw [record, h]

/-! ## Histories -/

/-- What a turn amounts to that performs an instruction. -/
def performed {α : Type} (f : World → Instr → List α) (m : Machine) (τ : Turn) : List α :=
  match m.tasks[τ.task]? with
  | some ⟨_, .perform i _, _⟩ => f m.world i
  | _ => []

/-- **What every instruction keeps of a world and its history, every run keeps.** -/
theorem history_trace {f} {I : World → List α → Prop}
    (hexec : ∀ {m : Machine} {j : Nat} {i : Instr} {k fs} {xs : List α} (task : TaskId), m.Reachable →
      m.At j (.perform i k) fs → m.world ≤ (i.exec task m.world).2 → I m.world xs →
      I (i.exec task m.world).2 (xs ++ f m.world i))
    (hspawn : ∀ {w : World} {xs : List α}, I w xs → I { w with tasks := w.tasks + 1 } xs)
    {P : Machine → Turn → Prop} (hm : m.Reachable) {τs} (hrun : Trace P m τs n) (xs : List α) (h : I m.world xs) :
    I n.world (xs ++ m.record (performed f) τs) := by
  induction hrun generalizing xs with
  | refl m => rwa [record, append_nil]
  | @cons m n p τ τs _ move _ ih =>
    rw [record_cons _ move, ← append_assoc]
    refine ih (hm.take move) _ ?_
    have hle := hm.le_take move
    -- Only a turn that performs an instruction changes what the invariant is about.
    obtain ⟨⟨id, prog, frames⟩, ht, hcases⟩ := take_cases move
    unfold performed
    rw [ht]
    rcases hcases with ⟨v, q, fs, hgo, rfl⟩ | ⟨o, k, -, hspawns, rfl⟩
    · generalize τ.isExpiry = expired at hgo
      cases hgo with
      | perform i k => exact hexec id hm ⟨_, ht, rfl, rfl⟩ hle h
      | resume | observe | await | expire | call | guard | pause => rwa [append_nil]
    · dsimp only at hspawns
      subst hspawns
      rw [append_nil]
      exact hspawn h

end Machine

/-! ## Programs under interference -/

/-- A program that comes to a point as `E` says, whatever happens meanwhile that `R` allows. It has done
`es` so far and has last seen the world `w`. -/
inductive Prog.Ensures (R : World → World → Prop) (E : List Event → World → Prog → Prop) :
    List Event → World → Prog → Prop where
  | exit {es : List Event} {w : World} {p : Prog} (post : ∀ v, R w v → E es v p) : Ensures R E es w p
  | observe {es : List Event} {w : World} {f : TaskId → World → Prog}
      (next : ∀ t v, R w v → Ensures R E es v (f t v)) : Ensures R E es w (.observe f)
  | perform {es : List Event} {w : World} {i : Instr} {k : i.Answer → Prog}
      (next : ∀ t v, R w v →
        Ensures R E (es ++ [.performed i]) (i.exec t v).2 (k (i.exec t v).1)) :
      Ensures R E es w (.perform i k)
  | await {es : List Event} {w : World} {c : Condition} {bound : Option Expiry} {k : Bool → Prog}
      (next : ∀ b v, R w v → Ensures R E es v (k b)) : Ensures R E es w (.await c bound k)
  | call {es : List Event} {w : World} {a : Activation} {k : Except Err Value → Prog}
      (next : ∀ o v, R w v →
        Ensures R E (es ++ [.called a] ++ [.returned o]) v ((Frame.caller k).resume o)) :
      Ensures R E es w (.call a k)
  | guard {es : List Event} {w : World} {body : Prog} {k : Outcome → Prog}
      (next : ∀ o v, R w v → Ensures R E (es ++ [.returned o]) v (k o)) :
      Ensures R E es w (.guard body k)
  | pause {es : List Event} {w : World} {k : Prog} (next : ∀ v, R w v → Ensures R E es v k) :
      Ensures R E es w (.pause k)
  | spawn {es : List Event} {w : World} {o : ObjId} {k : Prog}
      (next : ∀ v, R w v → Ensures R E es { v with tasks := v.tasks + 1 } k) :
      Ensures R E es w (.spawn o k)

/-- Interference that may happen at any time: doing nothing, and one thing after another. -/
structure Interference (R : World → World → Prop) : Prop where
  refl : ∀ w, R w w
  trans : ∀ {w v u}, R w v → R v u → R w u

section

variable {R : World → World → Prop} {E : List Event → World → Prog → Prop} {es : List Event}
  {w v : World}

/-- Interference before the next step is interference. -/
theorem Prog.Ensures.later (hR : Interference R) (h : R w v) {p : Prog}
    (hp : p.Ensures R E es w) : p.Ensures R E es v := by
  cases hp with
  | exit post => exact .exit fun u hu => post u (hR.trans h hu)
  | observe next => exact .observe fun t u hu => next t u (hR.trans h hu)
  | perform next => exact .perform fun t u hu => next t u (hR.trans h hu)
  | await next => exact .await fun b u hu => next b u (hR.trans h hu)
  | call next => exact .call fun o u hu => next o u (hR.trans h hu)
  | guard next => exact .guard fun o u hu => next o u (hR.trans h hu)
  | pause next => exact .pause fun u hu => next u (hR.trans h hu)
  | spawn next => exact .spawn fun u hu => next u (hR.trans h hu)

end

namespace Machine

/-- A task is at a level of its frames, where it will come to a point as `E` says, or above it and will
then go on there so. -/
inductive Tracked (R : World → World → Prop) (E : List Event → World → Prog → Prop) (i : Nat)
    (fs : List Frame) (m : Machine) : List Event → Prop where
  | level {es : List Event} {p : Prog} (stands : m.At i p fs) (ensures : p.Ensures R E es m.world) :
      Tracked R E i fs m es
  | above {es : List Event} {p : Prog} (gs : List Frame) {f : Frame}
      (stands : m.At i p (gs ++ f :: fs))
      (resumes : ∀ o v, R m.world v → (f.resume o).Ensures R E (es ++ [.returned o]) v) :
      Tracked R E i fs m es

variable {R : World → World → Prop} {E : List Event → World → Prog → Prop} {i : Nat} {fs gs : List Frame}
  {m n : Machine} {es : List Event} {τ : Turn} {p : Prog} {out : Outcome} {P : Machine → Turn → Prop} {t : Task}
  {f : Frame} {τs : List Turn}

theorem events_of_ne (h : τ.task ≠ i) (m : Machine) (d : Nat) : m.events i d τ = [] := by
  unfold events
  split
  · exact if_neg h
  · rfl

theorem events_self (ht : m.tasks[τ.task]? = some t) (d : Nat) : m.events τ.task d τ = t.events d := by
  unfold events
  rw [ht]
  exact if_pos rfl

/-- A turn that is not one of a task at a given level. -/
def Outside (i : Nat) (fs : List Frame) (m : Machine) (τ : Turn) : Prop :=
  τ.task = i → ∀ p, ¬ m.At i p fs

/-- A turn of a task at its level, unless it is at the point already. -/
theorem Tracked.take_level (hR : Interference R) (hτ : m.take τ = some n) (hu : m.Unreturned τ.task fs τ)
    (stands : m.At τ.task p fs) (ensures : p.Ensures R E es m.world) (before : ¬ E es m.world p) :
    n.Tracked R E τ.task fs (es ++ m.events τ.task fs.length τ) := by
  obtain ⟨t, ht, hcases⟩ := take_cases hτ
  obtain ⟨t', ht', hp, hf⟩ := stands
  cases ht.symm.trans ht'
  rw [events_self ht, Task.events, hp, hf]
  have hat (v : World) (q : Prog) (fs' : List Frame) : (m.put τ.task t v q fs').At τ.task q fs' :=
    ⟨_, task_put_self ht .., rfl, rfl⟩
  have hrefl := hR.refl m.world
  have hexit (post : ∀ v, R m.world v → E es v p) : False := before (post _ hrefl)
  rcases hcases with ⟨v, q, fs', hgo, rfl⟩ | ⟨o, k, -, hspawn, rfl⟩
  · rw [hp, hf] at hgo
    generalize τ.isExpiry = expired at hgo
    -- The program makes the step that its condition was stated for.
    cases hgo with
    | resume o f rest => exact absurd ⟨t, ht, hp, hf⟩ (hu rfl o)
    | observe f =>
      cases ensures with
      | exit post => exact (hexit post).elim
      | observe next =>
        rw [append_nil]
        exact .level (hat ..) (next _ _ hrefl)
    | perform instr k =>
      cases ensures with
      | exit post => exact (hexit post).elim
      | perform next =>
        dsimp only
        rw [if_pos rfl]
        exact .level (hat ..) (next _ _ hrefl)
    | await holds bound k =>
      cases ensures with
      | exit post => exact (hexit post).elim
      | await next =>
        rw [append_nil]
        exact .level (hat ..) (next _ _ hrefl)
    | expire c e k =>
      cases ensures with
      | exit post => exact (hexit post).elim
      | await next =>
        rw [append_nil]
        exact .level (hat ..) (next _ _ hrefl)
    | call a k =>
      cases ensures with
      | exit post => exact (hexit post).elim
      | call next =>
        dsimp only
        rw [if_pos rfl]
        exact .above [] (hat ..) next
    | guard body k =>
      cases ensures with
      | exit post => exact (hexit post).elim
      | guard next =>
        rw [append_nil]
        exact .above [] (hat ..) next
    | pause k =>
      cases ensures with
      | exit post => exact (hexit post).elim
      | pause next =>
        rw [append_nil]
        exact .level (hat ..) (next _ hrefl)
  · cases hp.symm.trans hspawn
    cases ensures with
    | exit post => exact (hexit post).elim
    | spawn next =>
      rw [append_nil]
      exact .level ⟨_, task_fork_self ht .., rfl, hf⟩ (next _ hrefl)

theorem events_above (hp : ∀ o, t.prog ≠ .finish o) (hf : t.frames = gs ++ f :: fs) : t.events fs.length = [] := by
  have hlen : t.frames.length ≠ fs.length := by
    rw [hf, length_append, length_cons]
    omega
  unfold Task.events
  split
  · exact if_neg hlen
  · exact if_neg hlen
  · exact absurd ‹_› (hp _)
  · rfl

/-- A turn of a task above its level. -/
theorem Tracked.take_above (hR : Interference R) (hτ : m.take τ = some n) (hworld : R m.world n.world)
    (stands : m.At τ.task p (gs ++ f :: fs))
    (resumes : ∀ o v, R m.world v → (f.resume o).Ensures R E (es ++ [.returned o]) v) :
    n.Tracked R E τ.task fs (es ++ m.events τ.task fs.length τ) := by
  obtain ⟨t, ht, hcases⟩ := take_cases hτ
  obtain ⟨t', ht', hp, hf⟩ := stands
  cases ht.symm.trans ht'
  rw [events_self ht]
  have hlater : ∀ o v, R n.world v → (f.resume o).Ensures R E (es ++ [.returned o]) v :=
    fun o v hv => resumes o v (hR.trans hworld hv)
  by_cases hfin : ∃ o, p = .finish o
  · obtain ⟨o, rfl⟩ := hfin
    rcases hcases with ⟨v, q, fs', hgo, rfl⟩ | ⟨o', k, -, hspawn, -⟩
    · rw [Task.events, hp, hf]
      rw [hp, hf] at hgo
      generalize τ.isExpiry = expired at hgo
      dsimp only
      cases gs with
      | nil =>
        cases hgo
        rw [nil_append, length_cons, if_pos rfl]
        exact .level ⟨_, task_put_self ht .., rfl, rfl⟩ (resumes o _ hworld)
      | cons g gs =>
        cases hgo
        have hlen : (g :: gs ++ f :: fs).length ≠ fs.length + 1 := by
          rw [length_append, length_cons, length_cons]
          omega
        rw [if_neg hlen, append_nil]
        exact .above gs ⟨_, task_put_self ht .., rfl, rfl⟩ hlater
    · cases hp.symm.trans hspawn
  · have hnot : ∀ o, t.prog ≠ .finish o := fun o ho => hfin ⟨o, hp.symm.trans ho⟩
    rw [events_above hnot hf, append_nil]
    rcases hcases with ⟨v, q, fs', hgo, rfl⟩ | ⟨o, k, -, hspawn, rfl⟩
    · obtain ⟨gs', hgs⟩ := hgo.frames hnot
      rw [hf, ← append_assoc] at hgs
      exact .above _ ⟨_, task_put_self ht .., rfl, hgs⟩ hlater
    · exact .above _ ⟨_, task_fork_self ht .., rfl, hf⟩ hlater

/-- The task is at its level, at a point as `E` says. -/
def Arrived (E : List Event → World → Prog → Prop) (i : Nat) (fs : List Frame) (m : Machine)
    (es : List Event) : Prop :=
  ∃ p, m.At i p fs ∧ E es m.world p

/-- A turn keeps a task tracked until it has come to its point. -/
theorem Tracked.take (hR : Interference R) (hτ : m.take τ = some n) (hu : m.Unreturned i fs τ)
    (henv : m.Outside i fs τ → R m.world n.world) (h : m.Tracked R E i fs es) :
    m.Arrived E i fs es ∨ n.Tracked R E i fs (es ++ m.events i fs.length τ) := by
  by_cases hi : τ.task = i
  · subst hi
    cases h with
    | @level p stands ensures =>
      by_cases harrived : E es m.world p
      · exact .inl ⟨p, stands, harrived⟩
      · exact .inr (.take_level hR hτ hu stands ensures harrived)
    | above gs stands resumes =>
      refine .inr (.take_above hR hτ (henv fun _ q hq => ?_) stands resumes)
      have hlen := congrArg length (at_unique stands hq).2
      rw [length_append, length_cons] at hlen
      omega
  · rw [events_of_ne hi, append_nil]
    have hworld := henv fun h => absurd h hi
    right
    cases h with
    | level stands ensures =>
      obtain ⟨t, ht, hp, hf⟩ := stands
      exact .level ⟨t, task_of_ne hτ hi ht, hp, hf⟩ (ensures.later hR hworld)
    | above gs stands resumes =>
      obtain ⟨t, ht, hp, hf⟩ := stands
      exact .above _ ⟨t, task_of_ne hτ hi ht, hp, hf⟩ fun o v hv => resumes o v (hR.trans hworld hv)

/-- A tracked task that is about to return from its level has come to its point. -/
theorem Tracked.arrived (hR : Interference R) (h : m.Tracked R E i fs es) (hreturn : m.At i (.finish out) fs) :
    m.Arrived E i fs es := by
  cases h with
  | level stands ensures =>
    obtain ⟨rfl, -⟩ := at_unique stands hreturn
    cases ensures with
    | exit post => exact ⟨_, stands, post _ (hR.refl _)⟩
  | above gs stands resumes =>
    have hlen := congrArg length (at_unique stands hreturn).2
    rw [length_append, length_cons] at hlen
    omega

/-- **What a program ensures under interference it does in every run**: by the time that it returns from
its level it has come to a point as its condition says. -/
theorem Tracked.trace (hR : Interference R) (hP : ∀ {m n τ}, m.Reachable → P m τ → m.take τ = some n →
      m.Unreturned i fs τ ∧ (m.Outside i fs τ → R m.world n.world)) (hm : m.Reachable) (hrun : Trace P m τs n)
    (hreturn : n.At i (.finish out) fs) (h : m.Tracked R E i fs es) :
    ∃ τs₁ τs₂ p, τs = τs₁ ++ τs₂ ∧ Trace P m τs₁ p ∧ Trace P p τs₂ n ∧
      p.Arrived E i fs (es ++ m.record (events i fs.length) τs₁) := by
  induction hrun generalizing es with
  | refl m =>
    refine ⟨[], [], m, rfl, .refl m, .refl m, ?_⟩
    rw [record, append_nil]
    exact h.arrived hR hreturn
  | @cons m q n τ τs meets move rest ih =>
    obtain ⟨hu, henv⟩ := hP hm meets move
    rcases h.take hR move hu henv with harrived | hnext
    · refine ⟨[], τ :: τs, m, rfl, .refl m, .cons meets move rest, ?_⟩
      rw [record, append_nil]
      exact harrived
    · obtain ⟨τs₁, τs₂, p, rfl, hfirst, hrest, harrived⟩ := ih (hm.take move) hreturn hnext
      refine ⟨τ :: τs₁, τs₂, p, rfl, .cons meets move hfirst, hrest, ?_⟩
      rw [record_cons _ move, ← append_assoc]
      exact harrived

theorem ensures_trace (hR : Interference R) (hP : ∀ {m n τ}, m.Reachable → P m τ → m.take τ = some n →
      m.Unreturned i fs τ ∧ (m.Outside i fs τ → R m.world n.world)) (hm : m.Reachable) (hcall : m.At i p fs)
    (hp : p.Ensures R E [] m.world) (hrun : Trace P m τs n) (hreturn : n.At i (.finish out) fs) :
    ∃ τs₁ τs₂ p, τs = τs₁ ++ τs₂ ∧ Trace P m τs₁ p ∧ Trace P p τs₂ n ∧
      p.Arrived E i fs (m.record (events i fs.length) τs₁) :=
  Tracked.trace hR hP hm hrun hreturn (.level hcall hp)

end Machine

end ObjectKernel
