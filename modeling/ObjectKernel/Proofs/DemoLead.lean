import ObjectKernel.Proofs.DemoSetup

/-!
# What the main program does with the threads

The main program starts the threads one after the other, and each gets the share that was held for it. Then it
waits for them, and keeps in mind with which record each of them ended. Nobody changes that record any more.

## Contents

* `Demo.Plan.runs_direct`: what the main program does while there are others.
* `Demo.Plan.runs_start`: it starts the next thread.
* `Demo.Plan.Joining`: the first workers are over and have not failed. `Demo.Plan.runs_joinWorker`: it waits for
  the next one.
-/

namespace ObjectKernel.Demo.Plan

open World Protocol Function

variable {d : Plan} {acc : Ledger} {E : Part → Outcome → Prop} {S : Part → World → ObjId → Prop} {id : TaskId}
  {w v : World} {m : Lead} {X : Stop → Part → World → Prop} {q k : Nat} {x : Name} {Q : Unit → Part → World → Prop}
  {σ : Nat → Share} {α : Type} {hist : List (Nat × Nat)} {rest : List Step}

/-! ## Variables, output and records -/

/-- An instruction of the main program, which leaves the shares of the threads alone. -/
theorem runs_direct (i : Instr) (m' : Lead) (hsubject : ∀ q, q < m.begun → q ≤ d.workers → i.subject? ≠ some (d.thr q))
    (hassign : ∀ n x y, i ≠ .edit (.assign (some n) x y)) (happend : ∀ o cs, i ≠ .append o cs)
    (hbegun : m'.begun = m.begun) (hjoined : m'.joined = m.joined) (hsettled : m'.settled = m.settled)
    (hown : m'.ledger.own = m.ledger.own) (hshown : m'.shown = m.shown ++ i.prints)
    {Q : i.Answer → Part → World → Prop}
    (h : ∀ v, w.Next v → v.Has d.home → d.Leads m v → d.Leads m' (i.exec id v).2 ∧
      (v.Next (i.exec id v).2 → Q (i.exec id v).1 (.lead m') (i.exec id v).2)) :
    (d.pact E).Runs S id (.lead m) w (Op.perform i) Q X := by
  refine .perform fun v hv hk hnext => ?_
  obtain ⟨σ, hist, hc⟩ := knows_lead hk
  refine ⟨.lead m', acts_lead hbegun hshown fun σ hist hc => ?_, (h v hv hc.set.has hc.leads).2 hnext⟩
  refine hc.direct hv.sound hnext (fun q hq => hsubject q hq ?_) (fun n x y hi => absurd hi (hassign n x y)) happend
    hbegun hjoined hsettled hown (h v hv hc.set.has hc.leads).1
  have hle := hc.leads.begun
  omega

/-- The main program binds a variable. -/
theorem runs_bind (hx : shared ≠ x) {y}
    (hQ : ∀ v, w.Next v → Q () (.lead { m with globals := m.globals.insert x y }) v) :
    (d.pact E).Runs S id (.lead m) w (Op.edit (.assign none x y)) Q X := by
  refine runs_direct (m := m) (.edit (.assign none x y)) { m with globals := m.globals.insert x y } nofun nofun nofun rfl rfl
    rfl rfl (List.append_nil _).symm fun v hv _ hl => ⟨?_, fun hnext => ?_⟩
  · exact { hl with
      globals := congrArg (·.insert x y) hl.globals
      shared := (Dictionary.get?_insert_of_ne m.globals y hx).trans hl.shared }
  · exact hQ _ (hv.trans hnext)

/-- It prints something. -/
theorem runs_show {b} (hQ : ∀ v, w.Next v → Q () (.lead { m with shown := m.shown ++ [b] }) v) :
    (d.pact E).Runs S id (.lead m) w (Op.edit (.print b)) Q X := by
  refine runs_direct (m := m) (.edit (.print b)) { m with shown := m.shown ++ [b] } nofun nofun nofun rfl rfl rfl
    rfl rfl fun v hv _ hl => ⟨{ hl with }, fun hnext => ?_⟩
  exact hQ _ (hv.trans hnext)

/-- It discards the shared runtime. -/
theorem runs_closeGlobal (hQ : ∀ v, Q () (.lead { m with sharing := none }) v) :
    (d.pact E).Runs S id (.lead m) w (Op.perform .closeGlobal) Q X := by
  refine runs_direct (m := m) .closeGlobal { m with sharing := none } nofun nofun nofun rfl rfl rfl rfl
    (List.append_nil _).symm fun v hv _ hl => ⟨?_, fun hnext => hQ _⟩
  exact { hl with sharing := rfl }

/-- It changes the record of the thread that comes next. -/
theorem runs_held {i : Instr} {f : Thread → Thread} (hsubject : i.subject? = some (d.thr m.begun))
    (hle : m.begun ≤ d.workers) (hprints : i.prints = []) (hcast : d.Cast m.begun (f (m.held m.begun)))
    {Q : i.Answer → Part → World → Prop}
    (h : ∀ v, w.Next v → v.thread? (d.thr m.begun) = some (m.held m.begun) →
      (i.exec id v).2.thread? (d.thr m.begun) = some (f (m.held m.begun)) ∧ (v.Next (i.exec id v).2 →
        Q (i.exec id v).1 (.lead { m with held := update m.held m.begun (f (m.held m.begun)) })
          (i.exec id v).2)) :
    (d.pact E).Runs S id (.lead m) w (Op.perform i) Q X := by
  have hne (j : Instr) (hj : j.subject? = none) : i ≠ j := Instr.ne_of_subject? hsubject hj
  let m' : Lead := { m with held := update m.held m.begun (f (m.held m.begun)) }
  refine runs_direct (m := m) i m' (fun q hq hqw => ?_) (fun _ _ _ => hne _ rfl) (fun _ _ => hne _ rfl) rfl rfl rfl rfl ?_
    fun v hv hhas hl => ⟨?_, (h v hv (hl.held _ (Nat.le_refl _) hle).1).2⟩
  · rw [hsubject]
    intro heq
    have hqb := thr_inj hle hqw (Option.some.inj heq)
    omega
  · rw [hprints, List.append_nil]
  · refine { hl with
      globals := (Instr.exec_globals id v fun _ _ _ hi => absurd hi (hne _ rfl)).trans hl.globals
      sharing := (Instr.exec_globalRuntime id v (fun _ => hne _ rfl) (hne _ rfl)).trans hl.sharing
      started := (Instr.exec_started id v (fun _ => hne _ rfl) d.home hhas).2.trans hl.started
      books := hl.books.exec (Instr.isReserved_of_subject? hsubject) (by simp [Instr.binds_of_subject? hsubject])
      held := fun q hq hqw => ?_ }
    by_cases hqb : q = m.begun
    · subst hqb
      have hheld : m'.held m.begun = f (m.held m.begun) := update_self ..
      rw [hheld]
      exact ⟨(h v hv (hl.held _ (Nat.le_refl _) hle).1).1, hcast⟩
    · have hheld : m'.held q = m.held q := update_of_ne hqb ..
      rw [hheld]
      obtain ⟨ht, hq⟩ := hl.held q hq hqw
      refine ⟨Instr.exec_thread hv.sound ht hq.home_isSome ?_ id, hq⟩
      rw [hsubject]
      intro heq
      exact hqb (thr_inj hle hqw (Option.some.inj heq)).symm

/-! ## Starting -/

/-- The next thread is added to the started ones. -/
theorem runs_register (hle : m.begun ≤ d.workers)
    (hQ : ∀ v, Q () (.lead { m with enrolled := m.enrolled ++ [d.thr m.begun] }) v) :
    (d.pact E).Runs S id (.lead m) w (Op.perform (.register (d.thr m.begun))) Q X := by
  let m' : Lead := { m with enrolled := m.enrolled ++ [d.thr m.begun] }
  refine runs_direct (m := m) (.register (d.thr m.begun)) m' nofun nofun nofun rfl rfl rfl rfl (List.append_nil _).symm
    fun v hv hhas hl => ⟨?_, fun _ => hQ _⟩
  obtain ⟨ht, hcast⟩ := hl.held _ (Nat.le_refl _) hle
  have hexec : ((Instr.register (d.thr m.begun)).exec id v).2 =
      v.modifyRegistry d.home (·.register (d.thr m.begun)) := by
    show v.modifyHomeRegistry (d.thr m.begun) _ = _
    unfold modifyHomeRegistry
    rw [ht, Option.bind_some, hcast.home]
  have hbooks : ((Instr.register (d.thr m.begun)).exec id v).2.Books d.home m.ledger := by
    obtain ⟨hcounted, hfiles, hown⟩ := hl.books
    refine ⟨Instr.exec_counted id nofun hcounted, ?_, fun h => (hown h).exec nofun⟩
    rw [hexec]
    exact hfiles
  rw [hexec] at hbooks ⊢
  obtain ⟨rt, hrt⟩ := hhas
  refine { hl with started := ?_, books := hbooks }
  have hrt' : (v.modifyRegistry d.home (·.register (d.thr m.begun))).runtime? d.home =
      some { rt with registry := rt.registry.register (d.thr m.begun) } := by
    refine (runtime?_modifyRuntime ..).trans ?_
    rw [if_pos rfl, hrt]
    rfl
  have hstarted := hl.started
  unfold startedThreads at hstarted ⊢
  rw [registry_eq hrt] at hstarted
  rw [registry_eq hrt']
  exact congrArg (· ++ [d.thr m.begun]) hstarted

/-- **The next thread is started**, and gets the share that was held for it. -/
theorem runs_start (h : d.Starting acc k m) (hk : k ≤ d.workers)
    (hQ : ∀ m' v, d.Starting acc (k + 1) m' → Q () (.lead m') v) :
    (d.pact E).Runs (d.pact E).Parental id (.lead m) w (Op.start (d.thr k)) Q X := by
  obtain rfl := h.begun
  have hunborn := h.unborn _ (Nat.le_refl _) hk
  refine .bind (.observe fun v hv hknows => ?_)
  obtain ⟨σ, hist, hc⟩ := knows_lead hknows
  rw [(hc.leads.held _ (Nat.le_refl _) hk).1, Option.getD_some, hunborn.cast.home, hunborn.cast.adopted]
  refine .bind (runs_held (f := fun t => { t with started := true }) rfl hk rfl { hunborn.cast with }
    fun v₁ hv₁ ht₁ => ?_)
  have hexec : (Instr.reserveStart (d.thr m.begun)).exec id v₁ =
      (true, v₁.modifyThread (d.thr m.begun) fun t => { t with started := true }) := by
    show v₁.reserveStart (d.thr m.begun) = _
    unfold reserveStart
    rw [ht₁]
    dsimp only
    rw [hunborn.started]
    rfl
  rw [hexec]
  refine ⟨thread?_modify ht₁ _, fun _ => ?_⟩
  let t₁ : Thread := { m.held m.begun with started := true }
  let t₂ : Thread := { t₁ with state := .started }
  let m₁ : Lead := { m with held := update m.held m.begun t₁ }
  have hheld₁ : m₁.held m₁.begun = t₁ := update_self ..
  refine .bind (runs_held (m := m₁) (f := fun t => { t with state := .started }) rfl hk rfl ?_ fun v₂ hv₂ ht₂ =>
    ⟨thread?_modify ht₂ _, fun _ => ?_⟩)
  · rw [hheld₁]
    exact { hunborn.cast with }
  rw [hheld₁]
  let m₂ : Lead := { m₁ with held := update m₁.held m.begun t₂ }
  have hheld₂ : m₂.held m.begun = t₂ := update_self ..
  let m₃ : Lead := { m₂ with enrolled := m.enrolled ++ [d.thr m.begun] }
  refine .bind (runs_register (m := m₂) hk fun v₃ => .spawn fun v₄ hv₄ _ => ?_)
  have hproper : d.Proper m.begun { thread := m₃.held m.begun, task := v₄.tasks } := by
    rw [show m₃.held m.begun = t₂ from hheld₂]
    exact
      { cast := { hunborn.cast with }
        started := rfl
        count_le := Nat.zero_le _
        idle := fun _ => rfl
        well := fun _ _ => hunborn.uncaught
        settled := fun hover => absurd hover (by simp [t₂, t₁, hunborn.ended])
        done := fun hover => absurd hover (by simp [t₂, t₁, hunborn.ended]) }
  refine ⟨_, _, splits_lead (m := m₃) hk h.settled hproper, parental ?_ ?_ v₄, hQ _ _ ?_⟩
  · rw [show m₃.held m₃.begun = t₂ from hheld₂]
    exact hunborn.ended
  · rw [show m₃.held m₃.begun = t₂ from hheld₂]
    nofun
  · exact
      { begun := rfl
        named := h.named
        unborn := fun q hq hqw => by
          have hheld : m₃.held q = m.held q := by
            have hne : q ≠ m.begun := by omega
            exact (update_of_ne hne ..).trans (update_of_ne hne ..)
          rw [show ({ m₃ with begun := m₃.begun + 1 } : Lead).held q = m.held q from hheld]
          exact h.unborn q (by omega) hqw
        joined := h.joined
        enrolled := by
          rw [List.range_succ, List.map_append, ← h.enrolled]
          rfl
        sharing := h.sharing
        ledger := h.ledger
        shown := h.shown
        settled := h.settled }

/-- A variable of the main program that holds an object. -/
theorem objectOperand_lead (hc : d.Concord m σ hist v) {o} (hx : m.globals.get? x = some (.ofObject o)) :
    v.objectOperand d.stage (some x) = some o := by
  refine congrArg Value.asObject (lookup_global (y := .ofObject o) ?_)
  rw [hc.leads.globals]
  exact hx

/-- Every thread of the program is there. -/
theorem Concord.thread (hc : d.Concord m σ hist v) (hq : q ≤ d.workers) : ∃ t, v.thread? (d.thr q) = some t := by
  by_cases hlt : q < m.begun
  · exact ⟨_, (hc.holds q hlt).thread⟩
  · exact ⟨_, (hc.leads.held q (Nat.le_of_not_lt hlt) hq).1⟩

/-- The main program finds a thread. -/
theorem runs_needSelf (hq : q ≤ d.workers) {Q : ObjId → Part → World → Prop}
    (hQ : ∀ v, w.Next v → Q (d.thr q) (.lead m) v) :
    (d.pact E).Runs S id (.lead m) w (Op.needThread (some (d.self q))) Q X := by
  refine .needThread fun v hv hk => ?_
  obtain ⟨σ, hist, hc⟩ := knows_lead hk
  obtain ⟨t, ht⟩ := hc.thread hq
  rw [hc.set.header_self ht]
  exact ⟨t, ht, hQ v hv⟩

/-- It finds the thread of an object in a variable. -/
theorem runs_named (hq : q ≤ d.workers) (hx : m.globals.get? x = some (.ofObject (d.self q))) {f}
    {Q : α → Part → World → Prop} (h : ∀ v, w.Next v → (d.pact E).Runs S id (.lead m) v (f (d.thr q)) Q X) :
    (d.pact E).Runs S id (.lead m) w
      (Op.observe (·.objectOperand d.stage (some x)) >>= fun o => Op.needThread o >>= f) Q X := by
  refine .bind (.observe fun v hv hk => ?_)
  obtain ⟨σ, hist, hc⟩ := knows_lead hk
  rw [objectOperand_lead hc hx]
  exact .bind (runs_needSelf hq fun v₁ hv₁ => h v₁ (hv.trans hv₁))

theorem find?_start (d : Plan) : d.cls.find? Selector.start =
    some (Builtin.threadClass d.home, (Builtin.method d.home .start 0 .threadStart).2) := rfl

/-- A worker is started. -/
theorem runs_startWorker (h : d.Starting acc k m) (hk : k < d.workers) :
    (d.pact E).Runs (d.pact E).Parental id (.lead m) w (stepsToOp d.stage [startWorker k])
      (fun flow b _ => flow = .proceed ∧ ∃ m', b = .lead m' ∧ d.Starting acc (k + 1) m') X := by
  refine .act (.bind (.observe fun v hv hknows => ?_))
  obtain ⟨σ, hist, hc⟩ := knows_lead hknows
  rw [objectOperand_lead hc (h.named.worker k hk)]
  refine .bind (.observe fun v₁ hv₁ _ => .bind ?_)
  refine .dispatch (fun u _ hknows => ?_) d.find?_start rfl fun v₂ hv₂ _ => ?_
  · obtain ⟨σ, hist, hc⟩ := knows_lead hknows
    exact hc.set.worker k hk
  refine .call rfl (.bind (runs_needSelf (Nat.le_of_lt hk) fun v₃ hv₃ => ?_))
  refine .bind (runs_start h (Nat.le_of_lt hk) fun m' v₄ hstarting => .pure (.bind (.observe fun v₅ _ _ => ?_)))
  exact .pure (.steps_nil ⟨rfl, m', rfl, hstarting⟩)

/-- The greeter is started. -/
theorem runs_startGreeter (h : d.Starting acc d.workers m) {Q : Flow → Part → World → Prop}
    (hQ : ∀ m' v, d.Starting acc (d.workers + 1) m' →
      (d.pact E).Runs (d.pact E).Parental id (.lead m') v (stepsToOp d.stage rest) Q X) :
    (d.pact E).Runs (d.pact E).Parental id (.lead m) w
      (stepsToOp d.stage (act (.thread none (.start (some "greeter"))) :: rest)) Q X := by
  refine .act (runs_named (Nat.le_refl _) h.named.greeter fun v _ => ?_)
  exact .bind (runs_start h (Nat.le_refl _) fun m' v₁ hstarting => .pure (hQ m' v₁ hstarting))

/-! ## Waiting -/

/-- The main program as it is when the first workers are over and have not failed. -/
structure Joining (d : Plan) (acc : Ledger) (k : Nat) (m : Lead) : Prop where
  begun : m.begun = d.workers + 1
  named : d.Named m.globals
  joined : ∀ q, q < k → ∃ t, (q, t) ∈ m.joined ∧ t.uncaught = none
  enrolled : m.enrolled = (List.range (d.workers + 1)).map d.thr
  sharing : m.sharing = some d.home
  ledger : m.ledger = acc

theorem Starting.joining (h : d.Starting acc (d.workers + 1) m) : d.Joining acc 0 m :=
  ⟨h.begun, h.named, fun q hq => absurd hq (Nat.not_lt_zero q), h.enrolled, h.sharing, h.ledger⟩

/-- One more thread is over. -/
theorem Joining.note (h : d.Joining acc k m) (p : Nat × Thread) : d.Joining acc k { m with joined := p :: m.joined } :=
  { h with
    joined := fun q hq => by
      obtain ⟨t, ht, hnone⟩ := h.joined q hq
      exact ⟨t, List.mem_cons_of_mem p ht, hnone⟩ }

/-- A thread that was started can be waited for. -/
theorem runs_joinable (hq : q < m.begun) {f} {Q : α → Part → World → Prop}
    (h : ∀ v, w.Next v → (d.pact E).Runs S id (.lead m) v (f ()) Q X) :
    (d.pact E).Runs S id (.lead m) w (Op.threadOf (d.thr q) >>= fun t => Op.ofFault t.joinable >>= f) Q X := by
  refine .bind (.observe fun v hv hk => ?_)
  obtain ⟨σ, hist, hc⟩ := knows_lead hk
  have hproper := hc.proper q hq
  have hok : (σ q).thread.joinable = .ok () := by
    unfold Thread.joinable
    rw [hproper.cast.adopted, hproper.cast.home, hproper.started]
    rfl
  rw [(hc.holds q hq).thread, Option.getD_some, hok]
  exact .bind (.pure (h v hv))

/-- The main program waits for a thread. When that is over its record is known for good. -/
theorem runs_ended (hq : q < m.begun) {bound : Option Expiry} {Q : Bool → Part → World → Prop}
    (hQ : ∀ t v, w.Next v → Q true (.lead { m with joined := (q, t) :: m.joined }) v)
    (hexpired : ∀ v, w.Next v → bound.isSome → Q false (.lead m) v) :
    (d.pact E).Runs S id (.lead m) w (Op.await (.ended (d.thr q)) bound) Q X := by
  refine .await (waits_lead hq) (fun v hv hk hover => ?_) fun v hv _ => hexpired v hv
  obtain ⟨σ, hist, hc⟩ := knows_lead hk
  have hthread := (hc.holds q hq).thread
  refine ⟨_, shifts_lead hq hthread ?_, hQ _ v hv⟩
  have hended : v.hasEnded (d.thr q) := hover
  unfold hasEnded at hended
  rwa [hthread] at hended

theorem runs_join (hq : q < m.begun) (hQ : ∀ t v, w.Next v → Q () (.lead { m with joined := (q, t) :: m.joined }) v) :
    (d.pact E).Runs S id (.lead m) w (Op.join (d.thr q)) Q X := by
  refine runs_joinable hq fun v hv => .bind (runs_ended hq (fun t v₁ hv₁ => .pure ?_) fun v₁ _ hbound => ?_)
  · exact hQ t v₁ (hv.trans hv₁)
  · cases hbound

/-- The main program waits for the greeter, for some time. -/
theorem runs_joinGreeter (h : d.Joining acc 0 m) {Q : Flow → Part → World → Prop}
    (hQ : ∀ m' v, d.Joining acc 0 m' → m'.shown = m.shown →
      (d.pact E).Runs S id (.lead m') v (stepsToOp d.stage rest) Q X) : (d.pact E).Runs S id (.lead m) w
      (stepsToOp d.stage (act (.thread none (.joinMillis (some "greeter") greeterPatience)) :: rest)) Q X := by
  have hq : d.workers < m.begun := by
    rw [h.begun]
    exact Nat.lt_succ_self _
  refine .act (.bind (.observe fun v hv hk => ?_))
  obtain ⟨σ, hist, hc⟩ := knows_lead hk
  rw [objectOperand_lead hc h.named.greeter]
  have hduration : Timeout.duration "Thread.join" greeterPatience 0 = .ok 1000000000 := by decide
  refine .bind (.bind (runs_needSelf (Nat.le_refl _) fun v₁ hv₁ => ?_))
  unfold Op.joinTimeout
  rw [hduration]
  refine .bind (.pure (runs_joinable hq fun v₂ hv₂ => .bind (runs_ended hq (fun t v₃ hv₃ => ?_) fun v₃ hv₃ _ => ?_)))
  · exact .pure (.pure (hQ _ v₃ (h.note (d.workers, t)) rfl))
  · exact .pure (.pure (hQ m v₃ h rfl))

/-- **The main program waits for the next worker**, which has not failed, unless there is no room for
everything. -/
theorem runs_joinWorker (h : d.Joining acc k m) (hk : k < d.workers)
    (hX : ∀ e m' v, d.Joining acc k m' → m'.shown = m.shown → ¬ d.Roomy → X (.error e) (.lead m') v) :
    (d.pact E).Runs S id (.lead m) w (stepsToOp d.stage (joinWorker k))
      (fun flow b _ => flow = .proceed ∧ ∃ m', b = .lead m' ∧ d.Joining acc (k + 1) m' ∧ m'.shown = m.shown) X := by
  have hbegun : k < m.begun := by
    rw [h.begun]
    omega
  have hname := h.named.worker k hk
  refine .act (runs_named (Nat.le_of_lt hk) hname fun v _ => .bind (runs_join hbegun fun t v₁ _ => .pure ?_))
  let m' : Lead := { m with joined := (k, t) :: m.joined }
  refine .act (runs_named (m := m') (Nat.le_of_lt hk) hname fun v₂ _ => .bind (.observe fun v₃ hv₃ hknows => ?_))
  -- The record is the one with which it ended.
  obtain ⟨σ, hist, hc⟩ := knows_lead hknows
  have hrecord : v₃.thread? (d.thr k) = some t := by
    rw [(hc.holds k hbegun).thread, (hc.joined _ List.mem_cons_self).2.1]
  rw [hrecord, Option.getD_some]
  cases hfails : t.uncaught with
  | none =>
    refine .pure (.steps_nil ⟨rfl, m', rfl, { h.note (k, t) with joined := fun q hq => ?_ }, rfl⟩)
    rcases Nat.lt_succ_iff_lt_or_eq.mp hq with hlt | rfl
    · exact (h.note (k, t)).joined q hlt
    · exact ⟨t, List.mem_cons_self, hfails⟩
  | some e =>
    refine .throw (hX _ m' v₃ (h.note (k, t)) rfl fun hroom => ?_)
    have hwell := (hc.proper k hbegun).well hroom hk
    rw [(hc.joined _ List.mem_cons_self).2.1, hfails] at hwell
    cases hwell

end ObjectKernel.Demo.Plan
