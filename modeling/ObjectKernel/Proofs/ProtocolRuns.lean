import ObjectKernel.Proofs.Protocols

/-!
# Operations under an agreement

What it takes for an operation to keep to an agreement is put together from what it takes for its parts: one
rule for each form of an operation. An operation comes to a result or stops, with an error that its caller may
handle or with a panic; both are told with the part that the task has then, and the world that it has last
seen.

## Contents

* `Protocol.Runs`: an operation keeps to an agreement and comes to what is told.
* `Protocol.Runs.bind`, `Runs.observe`, `Runs.perform`, `Runs.await`, `Runs.call`, `Runs.guard` and others: the
  rules. `Runs.dispatch`: calls by selector.
* `Protocol.Runs.act`, `Runs.keep`, `Runs.append`, `Runs.flatMap_range`, `Runs.repeated`: scripts.
-/

namespace ObjectKernel

/-- How a program ends that stops. -/
def Stop.outcome : Stop → Outcome
  | .error e => .error e
  | .panic p => .panic p

namespace Protocol

variable {A : Protocol} {S : A.Part → World → ObjId → Prop} {id : TaskId} {a : A.Part} {w : World}

/-- An operation, done by a task with a part that has last seen a world, keeps to an agreement and comes to a
result as `Q` says, or stops as `X` says. -/
def Runs (A : Protocol) (S : A.Part → World → ObjId → Prop) (id : TaskId) (a : A.Part) (w : World) {α : Type}
    (x : Op α) (Q : α → A.Part → World → Prop) (X : Stop → A.Part → World → Prop) : Prop :=
  ∀ (k : Except Err α → Prog) (fs : List Frame),
    (∀ y b v, Q y b v → Keeps A S id b v (k (.ok y)) fs) →
    (∀ e b v, X (.error e) b v → Keeps A S id b v (k (.error e)) fs) →
    (∀ p b v, X (.panic p) b v → Keeps A S id b v (.finish (.panic p)) fs) → Keeps A S id a w (x k) fs

namespace Runs

variable {α β : Type} {x : Op α} {Q : α → A.Part → World → Prop} {X : Stop → A.Part → World → Prop} {o : ObjId}
  {y : Op Unit}

theorem imp {Q' : α → A.Part → World → Prop} {X' : Stop → A.Part → World → Prop}
    (h : A.Runs S id a w x Q X) (hQ : ∀ y b v, Q y b v → Q' y b v) (hX : ∀ s b v, X s b v → X' s b v) :
    A.Runs S id a w x Q' X' := by
  intro k fs hok herror hpanic
  exact h k fs (fun y b v hy => hok y b v (hQ y b v hy)) (fun e b v he => herror e b v (hX _ b v he))
    fun p b v hp => hpanic p b v (hX _ b v hp)

/-! ## Results and stops -/

theorem pure {y} (h : Q y a w) : A.Runs S id a w (Pure.pure y) Q X := fun _ _ hok _ _ => hok y a w h

theorem throw {e} (h : X (.error e) a w) : A.Runs S id a w (MonadExcept.throw e) Q X :=
  fun _ _ _ herror _ => herror e a w h

theorem panic {p} (h : X (.panic p) a w) : A.Runs S id a w (Op.panic p) Q X :=
  fun _ _ _ _ hpanic => hpanic p a w h

theorem bind {f} {Q : β → A.Part → World → Prop} (h : A.Runs S id a w x (fun y b v => A.Runs S id b v (f y) Q X) X) :
    A.Runs S id a w (x >>= f) Q X := by
  intro k fs hok herror hpanic
  exact h _ fs (fun y b v hy => hy k fs hok herror hpanic) herror hpanic

theorem result {Q : Except Err α → A.Part → World → Prop}
    (h : A.Runs S id a w x (fun y b v => Q (.ok y) b v) fun
      | .error e, b, v => Q (.error e) b v
      | .panic p, b, v => X (.panic p) b v) :
    A.Runs S id a w (Op.result x) Q X := by
  intro k fs hok _ hpanic
  exact h _ fs (fun y b v hy => hok _ b v hy) (fun e b v he => hok _ b v he) hpanic

/-! ## What a task does -/

/-- A task looks at the world, and may take on another part for what it sees. -/
theorem note {f} (h : ∀ v, w.Next v → A.Knows a v → ∃ b, A.Shifts a v b ∧ Q (f v) b v) :
    A.Runs S id a w (Op.observe f) Q X := by
  intro k fs hok _ _
  refine .of_allows (.observe fun v hv hknows => ?_)
  obtain ⟨b, hshifts, hQ⟩ := h v hv hknows
  exact ⟨b, hshifts, hok _ b v hQ⟩

theorem observe {f} (h : ∀ v, w.Next v → A.Knows a v → Q (f v) a v) : A.Runs S id a w (Op.observe f) Q X :=
  note fun v hv hknows => ⟨a, .refl a v, h v hv hknows⟩

theorem task {Q : TaskId → A.Part → World → Prop} (h : ∀ v, w.Next v → A.Knows a v → Q id a v) :
    A.Runs S id a w Op.task Q X := by
  intro k fs hok _ _
  exact .of_allows (.observe fun v hv hknows => ⟨a, .refl a v, hok _ a v (h v hv hknows)⟩)

theorem perform {i : Instr} {Q : i.Answer → A.Part → World → Prop}
    (h : ∀ v, w.Next v → A.Knows a v → v.Next (i.exec id v).2 →
      ∃ b, A.Acts id a v i b ∧ Q (i.exec id v).1 b (i.exec id v).2) : A.Runs S id a w (Op.perform i) Q X := by
  intro k fs hok _ _
  refine .of_allows (.perform fun v hv hknows hnext => ?_)
  obtain ⟨b, hacts, hQ⟩ := h v hv hknows hnext
  exact ⟨b, hacts, hok _ b _ hQ⟩

theorem await {c} {bound : Option Expiry} {Q : Bool → A.Part → World → Prop} (hwaits : A.Waits a c)
    (holds : ∀ v, w.Next v → A.Knows a v → c.holds v → ∃ b, A.Shifts a v b ∧ Q true b v)
    (expired : ∀ v, w.Next v → A.Knows a v → bound.isSome → Q false a v) :
    A.Runs S id a w (Op.await c bound) Q X := by
  intro k fs hok _ _
  refine .of_allows (.await hwaits (fun v hv hknows hc => ?_) fun v hv hknows hb => ?_)
  · obtain ⟨b, hshifts, hQ⟩ := holds v hv hknows hc
    exact ⟨b, hshifts, hok _ b v hQ⟩
  · exact hok _ a v (expired v hv hknows hb)

theorem pause {Q : Unit → A.Part → World → Prop} (h : Q () a w) : A.Runs S id a w Op.pause Q X :=
  fun _ _ hok _ _ => .of_allows (.pause (hok () a w h))

theorem spawn {Q : Unit → A.Part → World → Prop}
    (h : ∀ v, w.Next v → A.Knows a v → ∃ b c, A.Splits a v b c ∧ S c v o ∧ Q () b { v with tasks := v.tasks + 1 }) :
    A.Runs S id a w (Op.spawn o) Q X := by
  intro k fs hok _ _
  refine .of_allows (.spawn fun v hv hknows => ?_)
  obtain ⟨b, c, hsplits, hS, hQ⟩ := h v hv hknows
  exact ⟨b, c, hsplits, hS, hok _ b _ hQ⟩

/-- A call runs what is called, and passes on how it stops. -/
theorem call {act : Activation} {y : Op Value} {Q : Value → A.Part → World → Prop}
    (hprogram : act.program = y.toProg) (h : A.Runs S id a w y Q X) : A.Runs S id a w (Op.call act) Q X := by
  intro k fs hok herror hpanic
  refine .of_allows (.call ?_)
  rw [hprogram]
  exact h _ _ (fun z b v hz => .of_allows (.resume (hok z b v hz)))
    (fun e b v he => .of_allows (.resume (herror e b v he)))
    fun p b v hp => .of_allows (.resume (hpanic p b v hp))

theorem callUnit {act : Activation} {Q : Value → A.Part → World → Prop} (hprogram : act.program = y.toProgUnit)
    (h : A.Runs S id a w y (fun _ b v => Q .null b v) X) : A.Runs S id a w (Op.call act) Q X :=
  call hprogram (bind (h.imp (fun _ _ _ hy => pure hy) fun _ _ _ hs => hs))

/-- A guard handles a stop. -/
theorem guard {Q : Outcome → A.Part → World → Prop}
    (h : A.Runs S id a w y (fun _ b v => Q (.value .null) b v) fun s b v => Q s.outcome b v) :
    A.Runs S id a w (Op.guard y) Q X := by
  intro k fs hok _ _
  refine .of_allows (.guard ?_)
  exact h _ _ (fun _ b v hz => .of_allows (.resume (hok _ b v hz)))
    (fun e b v he => .of_allows (.resume (hok _ b v he)))
    fun p b v hp => .of_allows (.resume (hok _ b v hp))

/-- **The program of an operation keeps to an agreement** if the operation does, and comes to an end that is
agreed on. -/
theorem keeps {Q : Unit → A.Part → World → Prop} (h : A.Runs S id a w y Q X)
    (hvalue : ∀ b v, Q () b v → ∀ u, v.Next u → A.Knows b u → A.Ends b u (.value .null))
    (hstop : ∀ s b v, X s b v → ∀ u, v.Next u → A.Knows b u → A.Ends b u s.outcome) :
    Keeps A S id a w y.toProgUnit [] := by
  exact h _ _ (fun _ b v hz => .of_allows (.finished (hvalue b v hz)))
    (fun e b v he => .of_allows (.finished (hstop _ b v he)))
    fun p b v hp => .of_allows (.finished (hstop _ b v hp))

/-! ## Operations of the kernel -/

theorem needText {Q : RuntimeId × CharSeq → A.Part → World → Prop}
    (h : ∀ v, w.Next v → A.Knows a v → ∃ t, v.text? o = some t ∧ Q t a v) :
    A.Runs S id a w (Op.needText (some o)) Q X := by
  refine bind (observe fun v hv hknows => ?_)
  obtain ⟨t, ht, hQ⟩ := h v hv hknows
  rw [ht]
  exact pure hQ

theorem needBuffer {Q : ObjId → A.Part → World → Prop}
    (h : ∀ v, w.Next v → A.Knows a v → (∃ b, v.buffer? o = some b) ∧ Q o a v) :
    A.Runs S id a w (Op.needBuffer (some o)) Q X := by
  refine bind (observe fun v hv hknows => ?_)
  obtain ⟨⟨b, hb⟩, hQ⟩ := h v hv hknows
  rw [hb]
  exact pure hQ

theorem needThread {Q : ObjId → A.Part → World → Prop}
    (h : ∀ v, w.Next v → A.Knows a v → ∃ t, v.thread? (v.header o) = some t ∧ Q (v.header o) a v) :
    A.Runs S id a w (Op.needThread (some o)) Q X := by
  refine bind (observe fun v hv hknows => ?_)
  obtain ⟨t, ht, hQ⟩ := h v hv hknows
  rw [ht]
  exact pure hQ

/-- A call by selector runs the method that the class of the receiver has for it. -/
theorem dispatch {home : Option RuntimeId} {c owner s m} {args : List Value} {Q : Value → A.Part → World → Prop}
    (hcls : ∀ v, w.Next v → A.Knows a v → v.classOf? o = some c) (found : c.find? s = some (owner, m))
    (arity : (args.length : Int) = m.arity)
    (h : ∀ v, w.Next v → A.Knows a v → A.Runs S id a v (Op.call (.code m.code (some o) args)) Q X) :
    A.Runs S id a w (Op.dispatch home (some o) s args) Q X := by
  refine bind (bind (observe fun v hv hknows => ?_))
  rw [hcls v hv hknows]
  refine pure ?_
  unfold Op.invokeFrom Op.invoke
  rw [found]
  dsimp only
  rw [if_pos arity]
  exact h v hv hknows

/-! ## Scripts -/

section Scripts

variable {ctx : Context} {action : Action} {rest : List Step} {Q : Flow → A.Part → World → Prop} {s : Step}
  {n : Nat}

/-- A step before others, unless it is only an attempt. -/
theorem step {dp x} (hstep : s.toOp ctx true = Op.dispose ctx true dp (Op.proceeding x))
    (hattempt : dp.attempt = false)
    (h : A.Runs S id a w x (fun r b v => A.Runs S id b v (Op.bindTarget ctx dp.target r.2)
      (fun _ b v => A.Runs S id b v (stepsToOp ctx rest) Q X) X) X) :
    A.Runs S id a w (stepsToOp ctx (s :: rest)) Q X := by
  unfold stepsToOp
  rw [hstep]
  unfold Op.dispose
  rw [hattempt]
  refine bind (bind (bind (h.imp ?_ fun _ _ _ hs => hs)))
  rintro ⟨reply, z⟩ b v htarget
  refine pure (bind ?_)
  exact htarget.imp (fun _ b v hrest => bind (pause (pure hrest))) fun _ _ _ hs => hs

/-- An action without a result to keep. -/
theorem act (h : A.Runs S id a w (action.toOp ctx) (fun _ b v => A.Runs S id b v (stepsToOp ctx rest) Q X) X) :
    A.Runs S id a w (stepsToOp ctx (.action action {} :: rest)) Q X :=
  step (by rw [Step.toOp]) rfl (h.imp (fun _ _ _ hrest => pure hrest) fun _ _ _ hs => hs)

/-- A step whose result is kept in a variable. -/
theorem kept {y x} (hstep : s.toOp ctx true = Op.dispose ctx true { target := some y } (Op.proceeding x))
    (h : A.Runs S id a w x (fun r b v => ∃ z, r.2 = some z ∧
      A.Runs S id b v (Op.edit (.assign ctx.scope y z))
        (fun _ b v => A.Runs S id b v (stepsToOp ctx rest) Q X) X) X) :
    A.Runs S id a w (stepsToOp ctx (s :: rest)) Q X := by
  refine step hstep rfl (h.imp ?_ fun _ _ _ hs => hs)
  rintro ⟨reply, r⟩ b v ⟨z, hr, hedit⟩
  cases hr
  exact hedit

/-- An action whose result is kept in a variable. -/
theorem keep {y} (h : A.Runs S id a w (action.toOp ctx) (fun r b v => ∃ z, r.2 = some z ∧
      A.Runs S id b v (Op.edit (.assign ctx.scope y z))
        (fun _ b v => A.Runs S id b v (stepsToOp ctx rest) Q X) X) X) :
    A.Runs S id a w (stepsToOp ctx (.action action { target := some y } :: rest)) Q X :=
  kept (by rw [Step.toOp]) h

theorem steps_nil (h : Q .proceed a w) : A.Runs S id a w (stepsToOp ctx []) Q X := by
  unfold stepsToOp
  exact pure h

/-- A script after another one. -/
theorem append {ss} (h : A.Runs S id a w (stepsToOp ctx ss)
      (fun flow b v => flow = .proceed ∧ A.Runs S id b v (stepsToOp ctx rest) Q X) X) :
    A.Runs S id a w (stepsToOp ctx (ss ++ rest)) Q X := by
  have hsteps : stepsToOp ctx (ss ++ rest) = stepsToOp ctx ss >>= fun flow =>
      flow.casesOn (stepsToOp ctx rest) fun v => Pure.pure (.returned v) := by
    clear h
    induction ss with
    | nil =>
      rw [List.nil_append, stepsToOp]
      rfl
    | cons s ss ih =>
      funext k
      rw [List.cons_append, stepsToOp, ih, stepsToOp]
      show s.toOp ctx true _ = s.toOp ctx true _
      congr 1
      funext r
      rcases r with e | ⟨_ | v, _⟩
      · rfl
      · rfl
      · rfl
  rw [hsteps]
  refine bind (h.imp ?_ fun _ _ _ hs => hs)
  rintro flow b v ⟨rfl, hrest⟩
  exact hrest

/-- A script made of parts of the same kind. The induction is on their number, and `I` is what holds before
each of them. -/
theorem flatMap_range {f} (I : Nat → A.Part → World → Prop) (h0 : I 0 a w)
    (hstep : ∀ i b v, i < n → I i b v → A.Runs S id b v (stepsToOp ctx (f i))
      (fun flow b v => flow = .proceed ∧ I (i + 1) b v) X) :
    A.Runs S id a w (stepsToOp ctx ((List.range n).flatMap f)) (fun flow b v => flow = .proceed ∧ I n b v) X := by
  induction n with
  | zero => exact steps_nil ⟨rfl, h0⟩
  | succ n ih =>
    rw [List.range_succ, List.flatMap_append, List.flatMap_singleton]
    refine append ((ih fun i b v hi => hstep i b v (by omega)).imp ?_ fun _ _ _ hs => hs)
    rintro flow b v ⟨rfl, hI⟩
    exact ⟨rfl, hstep n b v (Nat.lt_succ_self n) hI⟩

/-- A body that is repeated. The induction is on how often. -/
theorem repeated {body} (I : Nat → A.Part → World → Prop)
    (hstep : ∀ i b v, i < n → I i b v → A.Runs S id b v (body i) (fun flow b v => flow = .proceed ∧ I (i + 1) b v) X) :
    ∀ (count start : Nat) (b : A.Part) (v : World), start + count = n → I start b v →
      A.Runs S id b v (Op.repeated body start count) (fun flow b v => flow = .proceed ∧ I n b v) X := by
  intro count
  induction count with
  | zero =>
    intro start b v hn hI
    obtain rfl : start = n := hn
    exact pure ⟨rfl, hI⟩
  | succ count ih =>
    intro start b v hn hI
    refine bind ((hstep start b v (by omega) hI).imp ?_ fun _ _ _ hs => hs)
    rintro flow b v ⟨rfl, hI⟩
    exact ih (start + 1) b v (by omega) hI

end Scripts

end Runs

end Protocol

end ObjectKernel
