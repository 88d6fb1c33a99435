import ObjectKernel.Proofs.CallRuns

/-!
# Results of operations

A task that has begun an operation goes on with its result in the end, if nothing holds it up for good: other
tasks may have turns whenever they like, and what it calls may take any number of turns of its own. This
module says so of machines, and takes it apart along the way in which operations are put together, calls
included.

## Contents

* `Machine.Arrives`: a task comes to a point, in the runs that are reckoned with. `Machine.arrives_observe`,
  `arrives_perform`, `arrives_call`, `arrives_resume`: its next turn.
* `Op.Gives`: an operation gives a result. `Op.Gives.bind`, `observe_bind`, `perform`, `call`, `dispatch`: how it
  comes by it.
-/

namespace ObjectKernel

/-! ## Turns of programs that stand at certain points -/

section

variable {id : TaskId} {w v : World} {expired : Bool} {q : Prog} {fs gs : List Frame}

theorem Goes.performed {i : Instr} {k} (h : Goes id w expired (.perform i k) fs v q gs) :
    v = (i.exec id w).2 ∧ q = k (i.exec id w).1 ∧ gs = fs := by
  cases h
  exact ⟨rfl, rfl, rfl⟩

theorem Goes.resumed {out f} (h : Goes id w expired (.finish out) (f :: fs) v q gs) : q = f.resume out ∧ gs = fs := by
  cases h
  exact ⟨rfl, rfl⟩

end

namespace Machine

/-- A task can have a turn. -/
def CanGo (m : Machine) (i : Nat) : Prop := ∃ τ : Turn, τ.task = i ∧ (m.take τ).isSome

/-- A task comes to a point as `E` says, in the runs in which every turn meets `P`. Until it is there it can
have its next turn after any turns of other tasks, unless these lead to a machine as `H` says, and the turns
that it has itself are finitely many. -/
inductive Arrives (P : Machine → Turn → Prop) (H : Machine → Prop) (i : Nat) (E : Machine → Prop) :
    Machine → Prop where
  | there {m : Machine} (point : E m) : Arrives P H i E m
  | turn {m : Machine}
      (can : ∀ τs n, Trace (fun m τ => P m τ ∧ τ.task ≠ i) m τs n → n.CanGo i ∨ H n)
      (next : ∀ τs n τ q, Trace (fun m τ => P m τ ∧ τ.task ≠ i) m τs n → τ.task = i → P n τ →
        n.take τ = some q → Arrives P H i E q) : Arrives P H i E m

variable {P : Machine → Turn → Prop} {H : Machine → Prop} {i : Nat} {E E' : Machine → Prop} {m : Machine}
  {fs : List Frame}

/-- **From one point to the next.** -/
theorem Arrives.bind (h : m.Arrives P H i E)
    (hE : ∀ {τs q}, Trace P m τs q → E q → q.Arrives P H i E') : m.Arrives P H i E' := by
  induction h with
  | there point => exact hE (.refl _) point
  | turn can next ih =>
    refine .turn can fun τs n τ q hothers hi hP hτ => ih τs n τ q hothers hi hP hτ fun hrest hq => ?_
    exact hE ((hothers.imp And.left).append (.cons hP hτ hrest)) hq

/-- A task that can have a turn wherever it stands so, and starts no thread in it. Others may have theirs first. -/
theorem arrives_of_turn {p} (hat : m.At i p fs) (hspawn : ∀ o k, p ≠ .spawn o k)
    (can : ∀ {n : Machine} {id}, n.tasks[i]? = some ⟨id, p, fs⟩ → (n.step i).isSome)
    (next : ∀ {τs n τs' q id expired p' gs}, Trace P m τs n → n.tasks[i]? = some ⟨id, p, fs⟩ → Trace P m τs' q →
      Goes id n.world expired p fs q.world p' gs → q.At i p' gs → q.Arrives P H i E) : m.Arrives P H i E := by
  have hstays {τs : List Turn} {n : Machine}
      (hothers : Trace (fun m τ => P m τ ∧ τ.task ≠ i) m τs n) : ∃ id, n.tasks[i]? = some ⟨id, p, fs⟩ := by
    obtain ⟨⟨id, _, _⟩, ht, rfl, rfl⟩ := hat.of_trace_ne (hothers.imp And.right)
    exact ⟨id, ht⟩
  refine .turn (fun τs n hothers => ?_) fun τs n τ q hothers hi hP hτ => ?_
  · obtain ⟨id, ht⟩ := hstays hothers
    exact .inl ⟨.step i, rfl, can ht⟩
  · subst hi
    obtain ⟨id, ht⟩ := hstays hothers
    have hrun : Trace P m τs n := hothers.imp And.left
    obtain ⟨t', ht', ⟨v, p', gs, hgo, rfl⟩ | ⟨o, k, -, hprog, -⟩⟩ := take_cases hτ
    · cases ht.symm.trans ht'
      exact next hrun ht (hrun.append (.cons hP hτ (.refl _))) hgo ⟨_, task_put_self ht .., rfl, rfl⟩
    · cases ht.symm.trans ht'
      exact absurd hprog (hspawn o k)

/-- A task that looks at the world goes on as the world says. -/
theorem arrives_observe {f} (hat : m.At i (.observe f) fs)
    (next : ∀ {τs q} (id : TaskId), Trace P m τs q → q.At i (f id q.world) fs → q.Arrives P H i E) :
    m.Arrives P H i E := by
  refine arrives_of_turn hat nofun (fun ht => by simp [step, ht]) fun _ _ hrun hgo hq => ?_
  obtain ⟨hworld, rfl, rfl⟩ := hgo.observed
  rw [← hworld] at hq
  exact next _ hrun hq

/-- A task that performs an instruction goes on with the answer. -/
theorem arrives_perform {instr : Instr} {k} (hat : m.At i (.perform instr k) fs)
    (next : ∀ {τs n τs' q} (id : TaskId), Trace P m τs n → n.At i (.perform instr k) fs →
      Trace P m τs' q → q.world = (instr.exec id n.world).2 →
      q.At i (k (instr.exec id n.world).1) fs → q.Arrives P H i E) : m.Arrives P H i E := by
  refine arrives_of_turn hat nofun (fun ht => by simp [step, ht]) fun hrun ht hrun' hgo hq => ?_
  obtain ⟨hworld, rfl, rfl⟩ := hgo.performed
  exact next _ hrun ⟨_, ht, rfl, rfl⟩ hrun' hworld hq

/-- A task that calls goes on with what it calls. -/
theorem arrives_call {a k} (hat : m.At i (.call a k) fs)
    (next : ∀ {τs q}, Trace P m τs q → q.At i a.program (.caller k :: fs) → q.Arrives P H i E) :
    m.Arrives P H i E := by
  refine arrives_of_turn hat nofun (fun ht => by simp [step, ht]) fun _ _ hrun hgo hq => ?_
  obtain ⟨rfl, rfl⟩ := hgo.calls
  exact next hrun hq

/-- A task at the end of a program goes back to the frame on top. -/
theorem arrives_resume {out f} (hat : m.At i (.finish out) (f :: fs))
    (next : ∀ {τs q}, Trace P m τs q → q.At i (f.resume out) fs → q.Arrives P H i E) : m.Arrives P H i E := by
  refine arrives_of_turn hat nofun (fun ht => by simp [step, ht]) fun _ _ hrun hgo hq => ?_
  obtain ⟨rfl, rfl⟩ := hgo.resumed
  exact next hrun hq

end Machine

/-! ## Operations -/

open Machine

/-- In the runs from a machine an operation gives a result, whoever begins it and whenever: its task comes to
go on with a result that is as `G` says in the world by then. -/
def Op.Gives (P : Machine → Turn → Prop) (H : Machine → Prop) (m : Machine) {α : Type} (x : Op α)
    (G : World → Except Err α → Prop) : Prop :=
  ∀ ⦃τs n i k fs⦄, Trace P m τs n → n.At i (x k) fs →
    n.Arrives P H i fun q => ∃ r, G q.world r ∧ q.At i (k r) fs

namespace Op.Gives

variable {P : Machine → Turn → Prop} {H : Machine → Prop} {m n : Machine} {α β : Type} {x : Op α}
  {G G' : World → Except Err α → Prop} {args : List Value}

/-- What is given in the runs from a machine is given in those from a later one. -/
theorem after (h : Gives P H m x G) {τs} (hrun : Trace P m τs n) : Gives P H n x G :=
  fun _ _ _ _ _ hrun' hat => h (hrun.append hrun') hat

theorem imp (h : Gives P H m x G)
    (hG : ∀ {τs n r}, Trace P m τs n → G n.world r → G' n.world r) : Gives P H m x G' := by
  intro τs n i k fs hrun hat
  refine (h hrun hat).bind fun hrun' hq => ?_
  obtain ⟨r, hr, hat'⟩ := hq
  exact .there ⟨r, hG (hrun.append hrun') hr, hat'⟩

/-- A result that is there. -/
theorem ofExcept {r} (h : ∀ {τs n}, Trace P m τs n → G n.world r) : Gives P H m (Op.ofExcept r) G :=
  fun _ _ _ _ _ hrun hat => .there ⟨r, h hrun, hat⟩

theorem pure {a} (h : ∀ {τs n}, Trace P m τs n → G n.world (.ok a)) : Gives P H m (Pure.pure a) G :=
  ofExcept h

/-- **One operation after another.** -/
theorem bind {f} {G' : World → Except Err β → Prop} (hx : Gives P H m x G)
    (hok : ∀ {τs n a}, Trace P m τs n → G n.world (.ok a) → Gives P H n (f a) G')
    (herror : ∀ {τs n e}, Trace P m τs n → G n.world (.error e) → G' n.world (.error e)) :
    Gives P H m (x >>= f) G' := by
  intro τs n i k fs hrun hat
  refine (hx hrun (show n.At i (x _) fs from hat)).bind fun {τs' q} hrun' hq => ?_
  obtain ⟨r, hr, hat'⟩ := hq
  cases r with
  | ok a => exact hok (hrun.append hrun') hr (.refl q) hat'
  | error e => exact .there ⟨_, herror (hrun.append hrun') hr, hat'⟩

/-- An operation that looks at the world and goes on as the world says. -/
theorem observe_bind {view : World → α} {f : α → Op β} {G' : World → Except Err β → Prop}
    (h : ∀ {τs n}, Trace P m τs n → Gives P H n (f (view n.world)) G') : Gives P H m (Op.observe view >>= f) G' := by
  intro τs n i k fs hrun hat
  have hlooks : n.At i (.observe fun _ w => f (view w) k) fs := hat
  refine arrives_observe hlooks fun {τs' q} id hrun' hq => ?_
  exact h (hrun.append hrun') (.refl q) hq

theorem perform {i : Instr} {G : World → Except Err i.Answer → Prop} (h : ∀ {τs n} (id : TaskId), Trace P m τs n →
      G (i.exec id n.world).2 (.ok (i.exec id n.world).1)) : Gives P H m (Op.perform i) G := by
  intro τs n j k fs hrun hat
  refine arrives_perform hat fun id hrun' _ _ hworld hq => .there ⟨_, ?_, hq⟩
  rw [hworld]
  exact h id (hrun.append hrun')

/-- **A call gives what is called gives**, if that does not depend on when it is looked at. -/
theorem call {a : Activation} {y : Op Value} {G : World → Except Err Value → Prop} (hm : m.Reachable)
    (hprogram : a.program = y.toProg) (hG : ∀ {w v r}, w ≤ v → G w r → G v r) (hy : Gives P H m y G) :
    Gives P H m (Op.call a) G := by
  intro τs n i k fs hrun hat
  refine arrives_call hat fun {τs₁ q} hrun₁ hq => ?_
  rw [hprogram] at hq
  refine (hy (hrun.append hrun₁) hq).bind fun {τs₂ q₂} hrun₂ hr => ?_
  obtain ⟨r, hr, hat₂⟩ := hr
  have hreach : q₂.Reachable := hm.run ((hrun.append hrun₁).append hrun₂).run
  -- The task stands at the end of what was called and has to go back to its caller.
  cases r with
  | ok v => exact arrives_resume hat₂ fun hback hq => .there ⟨.ok v, hG (hreach.le hback.run) hr, hq⟩
  | error e => exact arrives_resume hat₂ fun hback hq => .there ⟨.error e, hG (hreach.le hback.run) hr, hq⟩

theorem builtin {home} {b : Builtin} {self} {G : World → Except Err Value → Prop} (hm : m.Reachable)
    (hG : ∀ {w v r}, w ≤ v → G w r → G v r) (hb : Gives P H m (b.run home self args) G) :
    Gives P H m (Op.call (.code (.builtin home b) self args)) G := call hm rfl hG hb

/-- **A call by selector gives what the method gives** that the class of the receiver has for it. -/
theorem dispatch {o c owner s meth} {G : World → Except Err Value → Prop} (hm : m.Reachable)
    (hcls : m.world.classOf? o = some c) (found : c.find? s = some (owner, meth))
    (arity : (args.length : Int) = meth.arity) (hcall : Gives P H m (Op.call (.code meth.code (some o) args)) G)
    (home : Option RuntimeId) : Gives P H m (Op.dispatch home (some o) s args) G := by
  intro τs n i k fs hrun hat
  rw [dispatch_eq] at hat
  refine arrives_observe hat fun {τs' q} id hrun' hq => ?_
  have hle : m.world ≤ q.world := hm.le (hrun.append hrun').run
  rw [World.classOf?_later hle hcls] at hq
  dsimp only at hq
  rw [invokeFrom_call _ _ _ found arity] at hq
  exact hcall (hrun.append hrun') hq

end Op.Gives

end ObjectKernel
