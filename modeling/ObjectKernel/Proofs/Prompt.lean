import ObjectKernel.Proofs.Calls

/-!
# Operations that take a few turns

An operation that makes no calls comes to its end within a number of turns of its own, whatever other
tasks do between them, and no turn of it is ever held up, except by a wait. This module states that of
program trees, and shows that it holds in every run.

## Contents

* `Prog.Prompt`: a program that comes to a point within a number of turns under interference.
* `Machine.Attains`: a task that does so in every run. `Machine.attains_of_prompt`: a task at such a program
  does.
-/

namespace ObjectKernel

/-- A program that comes to a point as `E` says within a number of turns, whatever happens meanwhile that
`R` allows. It has last seen the world `w`. All that it may wait for are conditions as `C` says. -/
inductive Prog.Prompt (R : World → World → Prop) (C : Condition → Prop) (E : World → Prog → Prop) :
    Nat → World → Prog → Prop where
  | there {n : Nat} {w : World} {p : Prog} (point : ∀ v, R w v → E v p) : Prompt R C E n w p
  | observe {n : Nat} {w : World} {f : TaskId → World → Prog}
      (next : ∀ t v, R w v → Prompt R C E n v (f t v)) : Prompt R C E (n + 1) w (.observe f)
  | perform {n : Nat} {w : World} {i : Instr} {k : i.Answer → Prog}
      (next : ∀ t v, R w v → Prompt R C E n (i.exec t v).2 (k (i.exec t v).1)) :
      Prompt R C E (n + 1) w (.perform i k)
  | await {n : Nat} {w : World} {c : Condition} {k : Bool → Prog} (waits : C c)
      (next : ∀ v, R w v → c.holds v → Prompt R C E n v (k true)) :
      Prompt R C E (n + 1) w (.await c none k)

/-- How many of some turns a task has. -/
def Turn.count (i : Nat) (τs : List Turn) : Nat := τs.countP fun τ => decide (τ.task = i)

theorem Turn.count_self (τ : Turn) (τs : List Turn) : Turn.count τ.task (τ :: τs) = Turn.count τ.task τs + 1 :=
  List.countP_cons_of_pos (decide_eq_true rfl)

theorem Turn.count_of_ne {i} {τ : Turn} (h : τ.task ≠ i) (τs : List Turn) :
    Turn.count i (τ :: τs) = Turn.count i τs :=
  List.countP_cons_of_neg (by simpa using h)

section

variable {R : World → World → Prop} {C : Condition → Prop} {E : World → Prog → Prop} {N : Nat}
  {w v : World} {p : Prog}

/-- Interference before the next turn is interference. -/
theorem Prog.Prompt.later (hR : Interference R) (h : R w v) (hp : p.Prompt R C E N w) : p.Prompt R C E N v := by
  cases hp with
  | there point => exact .there fun u hu => point u (hR.trans h hu)
  | observe next => exact .observe fun t u hu => next t u (hR.trans h hu)
  | perform next => exact .perform fun t u hu => next t u (hR.trans h hu)
  | await waits next => exact .await waits fun u hu => next u (hR.trans h hu)

end

namespace Machine

variable {R : World → World → Prop} {C : Condition → Prop} {E : World → Prog → Prop} {N i : Nat}
  {m n : Machine} {p : Prog} {fs : List Frame}

/-- A task comes to a point as `E` says within a number of turns of its own. After any run it has been
there, or it has had fewer turns than that and can have the next one, unless it waits for a condition as
`C` says that does not hold. -/
def Attains (m : Machine) (i : Nat) (fs : List Frame) (N : Nat) (C : Condition → Prop)
    (E : Machine → Prog → Prop) : Prop :=
  ∀ τs n, Trace (fun _ _ => True) m τs n →
    (∃ τs₁ τs₂ q p, τs = τs₁ ++ τs₂ ∧ Trace (fun _ _ => True) m τs₁ q ∧
      Trace (fun _ _ => True) q τs₂ n ∧ Turn.count i τs₁ ≤ N ∧ q.At i p fs ∧ E q p) ∨
    (Turn.count i τs < N ∧ ((n.take (.step i)).isSome ∨ ∃ c, C c ∧ ¬ c.holds n.world))

/-- A turn of a task that is on its way. -/
theorem prompt_take (hR : Interference R) {τ} (hτ : m.take τ = some n) (hat : m.At τ.task p fs)
    (hp : p.Prompt R C E N m.world) :
    (∀ v, R m.world v → E v p) ∨ ∃ q N', N = N' + 1 ∧ n.At τ.task q fs ∧ q.Prompt R C E N' n.world := by
  obtain ⟨t, ht, hcases⟩ := take_cases hτ
  obtain ⟨t', ht', hprog, hframes⟩ := hat
  cases ht.symm.trans ht'
  have hrefl := hR.refl m.world
  rcases hcases with ⟨v, q, fs', hgo, rfl⟩ | ⟨o, k, -, hspawn, -⟩
  · have hnext : (m.put τ.task t v q fs').At τ.task q fs' := ⟨_, task_put_self ht .., rfl, rfl⟩
    rw [hprog, hframes] at hgo
    generalize τ.isExpiry = expired at hgo
    cases hp with
    | there point => exact .inl point
    | observe next =>
      cases hgo
      exact .inr ⟨_, _, rfl, hnext, next _ _ hrefl⟩
    | perform next =>
      cases hgo
      exact .inr ⟨_, _, rfl, hnext, next _ _ hrefl⟩
    | await waits next =>
      cases hgo with
      | await holds => exact .inr ⟨_, _, rfl, hnext, next _ hrefl holds⟩
  · cases hprog.symm.trans hspawn
    cases hp with
    | there point => exact .inl point

/-- A task that is on its way can have its next turn, unless it has to wait. -/
theorem prompt_enabled (hR : Interference R) (hat : m.At i p fs) (hp : p.Prompt R C E N m.world) :
    E m.world p ∨ 0 < N ∧ ((m.take (.step i)).isSome ∨ ∃ c, C c ∧ ¬ c.holds m.world) := by
  cases hp with
  | there point => exact .inl (point _ (hR.refl _))
  | observe next =>
    obtain ⟨id, n, hn, -⟩ := take_observe hat
    exact .inr ⟨Nat.succ_pos _, .inl (Option.isSome_iff_exists.mpr ⟨n, hn⟩)⟩
  | perform next =>
    obtain ⟨id, n, hn, -⟩ := take_perform hat
    exact .inr ⟨Nat.succ_pos _, .inl (Option.isSome_iff_exists.mpr ⟨n, hn⟩)⟩
  | @await _ _ c k waits next =>
    refine .inr ⟨Nat.succ_pos _, ?_⟩
    by_cases hc : c.holds m.world
    · obtain ⟨⟨id, prog, frames⟩, ht, rfl, rfl⟩ := hat
      left
      show (m.step i).isSome
      unfold step
      rw [ht]
      simp [hc]
    · exact .inr ⟨c, waits, hc⟩

/-- **A task at a prompt program comes to its point in every run.** -/
theorem attains_of_prompt (hR : Interference R)
    (hturn : ∀ {m n : Machine} {τ : Turn}, m.Reachable → m.take τ = some n → R m.world n.world)
    (hm : m.Reachable) (hat : m.At i p fs) (hp : p.Prompt R C E N m.world) :
    m.Attains i fs N C fun q p => E q.world p := by
  intro τs n hrun
  induction hrun generalizing p N with
  | refl m =>
    rcases prompt_enabled hR hat hp with hpoint | ⟨hpos, hnext⟩
    · exact .inl ⟨[], [], m, p, rfl, .refl m, .refl m, Nat.zero_le _, hat, hpoint⟩
    · exact .inr ⟨hpos, hnext⟩
  | @cons m q n τ τs meets move rest ih =>
    -- Either the task is at its point already, or the turn leaves it on its way.
    have hturned : (∀ v, R m.world v → E v p) ∨ ∃ p' N', q.At i p' fs ∧ p'.Prompt R C E N' q.world ∧
        ∀ τs, N' + Turn.count i (τ :: τs) = N + Turn.count i τs := by
      by_cases hi : τ.task = i
      · subst hi
        rcases prompt_take hR move hat hp with hpoint | ⟨p', N', rfl, hat', hp'⟩
        · exact .inl hpoint
        · refine .inr ⟨p', N', hat', hp', fun τs => ?_⟩
          rw [Turn.count_self]
          omega
      · obtain ⟨t, ht, hprog, hframes⟩ := hat
        refine .inr ⟨p, N, ⟨t, task_of_ne move hi ht, hprog, hframes⟩,
          hp.later hR (hturn hm move), fun τs => ?_⟩
        rw [Turn.count_of_ne hi]
    rcases hturned with hpoint | ⟨p', N', hat', hp', hcount⟩
    · exact .inl ⟨[], τ :: τs, m, p, rfl, .refl m, .cons trivial move rest, Nat.zero_le _, hat,
        hpoint _ (hR.refl _)⟩
    · rcases ih (hm.take move) hat' hp' with
        ⟨τs₁, τs₂, r, p'', rfl, hfirst, hrest, hle, hat'', hE⟩ | ⟨hlt, hnext⟩
      · refine .inl ⟨τ :: τs₁, τs₂, r, p'', rfl, .cons trivial move hfirst, hrest, ?_, hat'', hE⟩
        have := hcount τs₁
        omega
      · have := hcount τs
        exact .inr ⟨by omega, hnext⟩

/-- What is known of the machine at the point may be added. -/
theorem Attains.imp {E E' : Machine → Prog → Prop} (h : m.Attains i fs N C E)
    (hE : ∀ {q p}, Run m q → E q p → E' q p) : m.Attains i fs N C E' := by
  intro τs n hrun
  rcases h τs n hrun with ⟨τs₁, τs₂, q, p, heq, hfirst, hrest, hle, hat, hp⟩ | hnext
  · exact .inl ⟨τs₁, τs₂, q, p, heq, hfirst, hrest, hle, hat, hE hfirst.run hp⟩
  · exact .inr hnext

end Machine

end ObjectKernel
