import ObjectKernel.Proofs.LawfulOperations
import ObjectKernel.Script.Interpreter

/-!
# Scripts are lawful

Whatever a script says, its steps are made of the operations of the kernel, and it names runtimes and
classes only as it finds them. So every program that a task can be given by a call is lawful, and so is
every main script whose runtime exists.

## Contents

* The actions by subject, and `lawful_action` for all of them.
* `lawful_steps`: the steps of a body, by induction over the script.
* `lawful_activation`: what is run for a call that a lawful program may make.
* `lawful_main`: main scripts.
-/

namespace ObjectKernel.Op

variable {Γ : List Premise} {α β : Type} {w : World} {ctx : Context} {rt : Option Name}
variable (o : Option ObjId)

/-! ## Operands -/

theorem runtimeOperand_premise (hs : w.Sound) (h : Premise.Holds w (.home ctx.home)) :
    Premise.Holds w (.home (w.runtimeOperand ctx rt)) := by
  cases rt with
  | none => exact h
  | some name => exact fun r hr => hs.named hr

/-- A runtime that a step names exists. -/
theorem Lawful.runtimeOperand_bind {f : Option RuntimeId → Op α} [h : Follows Γ (.home ctx.home)]
    (hf : ∀ r, Lawful (.home r :: Γ) (f r)) : Lawful Γ (observe (fun w => w.runtimeOperand ctx rt) >>= f) :=
  lawful_observe_bind .home (fun hs hΓ => runtimeOperand_premise hs (h.holds hs hΓ)) hf

instance (priority := high) lawful_runtimeOperand_bind {ctx : Context} {rt : Option Name}
    {f : Option RuntimeId → Op α} [Follows Γ (.home ctx.home)]
    [hf : ∀ r, Lawful (.home r :: Γ) (f r)] :
    Lawful Γ (observe (fun w => w.runtimeOperand ctx rt) >>= f) := .runtimeOperand_bind hf

theorem lawful_runtimeOperand_pair {g : World → β} {f : Option RuntimeId × β → Op α} [h : Follows Γ (.home ctx.home)]
    (hf : ∀ r a, Lawful (.home r :: Γ) (f (r, a))) :
    Lawful Γ (observe (fun w => (w.runtimeOperand ctx rt, g w)) >>= f) :=
  lawful_observe_bind (fun p => .home p.1)
    (fun hs hΓ => runtimeOperand_premise hs (h.holds hs hΓ)) fun p => hf p.1 p.2

instance lawful_classOperand (ctx : Context) (c : ClassOperand) : Lawful Γ (classOperand ctx c) := by
  unfold classOperand
  split <;> infer_instance

theorem bind_assoc {γ : Type} (x : Op α) (f : α → Op β) (g : β → Op γ) :
    x >>= f >>= g = x >>= fun a => f a >>= g := by
  funext k
  refine congrArg x (funext fun r => ?_)
  cases r <;> rfl

/-- A class that a runtime has is vouched for. -/
theorem vouches_of_getClass (hs : w.Sound) {r name c} (h : (w.classes r).get? name = some c) : w.Vouches c := by
  obtain ⟨rt, hrt⟩ := World.exists_of_getClass h
  have hplaced := (hs.runtime hrt).cls (World.classes_eq hrt ▸ h)
  unfold World.Vouches
  rw [hplaced.home, hplaced.name]
  exact h

/-- A class that a step names is the one that its runtime has. -/
theorem Lawful.classOperand_bind {c : ClassOperand} {f : Option Class → Op α} (hf : ∀ d, Lawful (.cls d :: Γ) (f d)) :
    Lawful Γ (classOperand ctx c >>= f) := by
  obtain ⟨name, runtime⟩ := c
  cases name with
  | none =>
    refine ⟨fun hs hΓ hk => (hf none).run hs (.cons (fun d hd => ?_) hΓ) hk⟩
    cases hd
  | some name =>
    simp only [classOperand, bind_assoc]
    refine .bind inferInstance fun r => .bind inferInstance fun home => ?_
    exact lawful_observe_bind .cls (fun hs _ d hd => vouches_of_getClass hs hd) hf

instance (priority := high) lawful_classOperand_bind {ctx : Context} {c : ClassOperand}
    {f : Option Class → Op α} [hf : ∀ d, Lawful (.cls d :: Γ) (f d)] :
    Lawful Γ (classOperand ctx c >>= f) := .classOperand_bind hf

instance lawful_nothing : Lawful Γ nothing := lawful_pure _

instance lawful_reply (r : Reply) : Lawful Γ (reply r) := lawful_pure _

instance lawful_answer (v : Value) : Lawful Γ (answer v) := by
  unfold answer
  infer_instance

instance lawful_answerObject (o : ObjId) : Lawful Γ (answerObject o) := lawful_answer _

instance lawful_edit (e : SceneEdit) [Instr.Permitted Γ (.edit e)] : Lawful Γ (edit e) :=
  lawful_perform

instance lawful_needFields : Lawful Γ (needFields o) := by
  cases o with
  | none => exact lawful_defect _
  | some o =>
    refine .bind inferInstance fun p => ?_
    split <;> infer_instance

instance lawful_needObject : Lawful Γ (needObject o) := by
  cases o <;> (unfold needObject; infer_instance)

instance lawful_needClass (c : Option Class) : Lawful Γ (needClass c) := by
  cases c <;> (unfold needClass; infer_instance)

/-! ## Actions -/

instance lawful_reportReply (home : RuntimeId) (r : Report) : Lawful Γ (reportReply home r) := by
  unfold reportReply
  infer_instance

/-- A runtime that was made exists. -/
theorem lawful_newRuntime_bind {config : Option Config} {f : Except ConfigError RuntimeId → Op α}
    (hok : ∀ r, Lawful (.home (some r) :: Γ) (f (.ok r))) (herror : ∀ e, Lawful Γ (f (.error e))) :
    Lawful Γ (perform (.newRuntime config) >>= f) := by
  refine ⟨fun hs hΓ hk => .perform trivial fun t v hv => ?_⟩
  have hΓ' := hΓ.later hv.later
  simp only [Instr.exec]
  cases hn : v.newRuntime config with
  | error e => exact (herror e).run hv.sound hΓ' fun r u hu => hk r u (hv.trans hu)
  | ok p =>
    obtain ⟨hcalm, hhas⟩ := World.calm_newRuntime hv.sound hn
    refine (hok p.1).run hcalm.sound (.cons (fun r hr => ?_) (hΓ'.later hcalm.later))
      fun r u hu => hk r u ((hv.trans hcalm.next).trans hu)
    cases hr
    exact hhas

instance lawful_runtimeAction (rt : Option RuntimeId) (a : RuntimeAction) [Follows Γ (.home rt)] :
    Lawful Γ (a.toOp rt) := by
  cases a with
  | create name patch =>
    exact .bind inferInstance fun config =>
      lawful_newRuntime_bind (fun r => inferInstance) fun e => inferInstance
  | initGlobal patch =>
    refine .bind inferInstance fun before => .bind inferInstance fun config =>
      .bind inferInstance fun made => ?_
    cases made with
    | error e => infer_instance
    | ok u =>
      refine lawful_globalRuntime_bind fun after => ?_
      cases after <;> infer_instance
  | globalThread =>
    refine .bind inferInstance fun found => ?_
    cases found <;> infer_instance
  | _ =>
    unfold RuntimeAction.toOp
    infer_instance

instance lawful_selectorAction (rt : Option RuntimeId) (a : SelectorAction) : Lawful Γ (a.toOp rt) := by
  cases a <;> (unfold SelectorAction.toOp; infer_instance)

instance lawful_localMethod (c : Option Class) (s : Selector) : Lawful Γ (localMethod c s) := by
  unfold localMethod
  infer_instance

instance lawful_classIn (ctx : Context) (rt : Option Name) (c : ClassOperand) :
    Lawful Γ (classIn ctx rt c) := lawful_classOperand ..

instance lawful_classAction (ctx : Context) (rt : Option Name) (a : ClassAction) : Lawful Γ (a.toOp ctx rt) := by
  cases a with
  | isSubclass c other =>
    refine .bind inferInstance fun d => .bind inferInstance fun e => ?_
    split <;> infer_instance
  | _ =>
    unfold ClassAction.toOp
    infer_instance

/-- An object that has just been allocated as a thread is one. -/
theorem lawful_allocateThread_bind {f : ObjId → Op α} (hf : ∀ o, Lawful (.thread o :: Γ) (f o)) :
    Lawful Γ (perform (.allocate (.thread {})) >>= f) :=
  lawful_perform_bind .thread
    (fun _ _ => ⟨{}, World.thread?_eq_some.mpr ⟨_, Array.getElem?_push_size, rfl⟩⟩) hf

instance lawful_allocate (shape : Shape) : Lawful Γ shape.allocate := by
  cases shape with
  | worker => exact lawful_allocateThread_bind fun o => inferInstance
  | _ =>
    unfold Shape.allocate
    infer_instance

instance lawful_objectAction (ctx : Context) (a : ObjectAction) : Lawful Γ (a.toOp ctx) := by
  cases a with
  | setField obj field v =>
    refine .bind inferInstance fun o => .bind inferInstance fun p => ?_
    cases p
    infer_instance
  | getField obj field =>
    refine .bind inferInstance fun o => .bind inferInstance fun p => ?_
    cases p
    infer_instance
  | instanceOf obj c =>
    refine .bind inferInstance fun own => .bind inferInstance fun d => ?_
    split <;> infer_instance
  | _ =>
    unfold ObjectAction.toOp
    infer_instance

instance lawful_callAction (ctx : Context) (rt : Option Name) (a : CallAction)
    [Follows Γ (.home ctx.home)] : Lawful Γ (a.toOp ctx rt) := by
  cases a with
  | dispatch obj s args =>
    refine .bind inferInstance fun p => ?_
    cases p
    infer_instance
  | send obj signature args =>
    refine .bind inferInstance fun p => ?_
    cases p
    infer_instance
  | super obj origin s args =>
    refine .bind inferInstance fun p => ?_
    cases p
    infer_instance
  | renderObject obj => exact lawful_runtimeOperand_pair fun r o => inferInstance
  | render v => exact lawful_runtimeOperand_pair fun r o => inferInstance
  | describe v =>
    unfold CallAction.toOp
    infer_instance

instance lawful_textAction (ctx : Context) (rt : Option RuntimeId) (a : TextAction)
    [Follows Γ (.home rt)] : Lawful Γ (a.toOp ctx rt) := by
  cases a with
  | length obj => exact .bind inferInstance fun o => .needText_bind fun r s => inferInstance
  | charAt obj index => exact .bind inferInstance fun o => .needText_bind fun r s => inferInstance
  | chars obj => exact .bind inferInstance fun o => .needText_bind fun r s => inferInstance
  | hashCode obj => exact .bind inferInstance fun o => .needText_bind fun r s => inferInstance
  | contentEquals obj other =>
    refine .bind inferInstance fun p => ?_
    split
    · infer_instance
    · exact .needText_bind fun r s => inferInstance
  | concat obj other =>
    refine .bind inferInstance fun p => ?_
    cases p
    infer_instance
  | _ =>
    unfold TextAction.toOp
    infer_instance

instance lawful_bufferReply (o : ObjId) : Lawful Γ (bufferReply o) := by
  refine .bind inferInstance fun b => ?_
  split <;> infer_instance

instance lawful_bufferAction (ctx : Context) (rt : Option RuntimeId) (a : BufferAction)
    [Follows Γ (.home rt)] : Lawful Γ (a.toOp ctx rt) := by
  cases a <;> (unfold BufferAction.toOp; infer_instance)

instance lawful_joinWithin (millis : Int64) (nanos : Int32) : Lawful Γ (joinWithin o millis nanos) := by
  unfold joinWithin
  infer_instance

instance lawful_threadAction (ctx : Context) (rt : Option Name) (a : ThreadAction)
    [Follows Γ (.home ctx.home)] : Lawful Γ (a.toOp ctx rt) := by
  cases a with
  | create target => exact lawful_runtimeOperand_pair fun r o => inferInstance
  | init obj c target =>
    have hinit (o : Option ObjId) : Lawful Γ (do
        let (home, target) ← observe fun w => (w.runtimeOperand ctx rt, w.objectOperand ctx target)
        initThread home o (← classOperand ctx c) target
        nothing) := lawful_runtimeOperand_pair fun r t => inferInstance
    exact .bind inferInstance fun o => .ite (.bind inferInstance fun _ => hinit o) (hinit o)
  | check obj =>
    refine .bind inferInstance fun o => .bind inferInstance fun t => .bind inferInstance fun u => ?_
    split <;> infer_instance
  | _ =>
    unfold ThreadAction.toOp
    infer_instance

instance lawful_outputPiece (ctx : Context) (p : OutputPiece) : Lawful Γ (p.bytes ctx) := by
  cases p with
  | literal b => exact lawful_pure b
  | threadName x =>
    unfold OutputPiece.bytes
    infer_instance
  | textLength x => exact .bind inferInstance fun o => .needText_bind fun r s => inferInstance
  | textHash x => exact .bind inferInstance fun o => .needText_bind fun r s => inferInstance
  | textContent x => exact .bind inferInstance fun o => .needText_bind fun r s => inferInstance

instance lawful_output (ctx : Context) (ps : List OutputPiece) : Lawful Γ (OutputPiece.allBytes ctx ps) := by
  induction ps with
  | nil => exact lawful_pure []
  | cons p rest ih =>
    unfold OutputPiece.allBytes
    infer_instance

instance lawful_hostAction (ctx : Context) (a : HostAction) : Lawful Γ (a.toOp ctx) := by
  cases a <;> (unfold HostAction.toOp; infer_instance)

/-- **Every action is lawful where the runtime of its body exists.** -/
instance lawful_action (ctx : Context) (a : Action) [Follows Γ (.home ctx.home)] : Lawful Γ (a.toOp ctx) := by
  cases a <;> (unfold Action.toOp; infer_instance)

/-! ## Steps -/

instance lawful_bindTarget (ctx : Context) (target : Option Name) (v : Option Value) :
    Lawful Γ (bindTarget ctx target v) := by
  unfold bindTarget
  split <;> infer_instance

instance lawful_dispose (ctx : Context) (attempts : Bool) (d : Disposition)
    (x : Op (Flow × StepResult)) [Lawful Γ x] : Lawful Γ (dispose ctx attempts d x) := by
  have hcompleted : Lawful Γ (do
      let (flow, r, v) ← x
      bindTarget ctx d.target v
      pause
      return (flow, r, v)) := by
    refine .bind inferInstance fun p => ?_
    obtain ⟨flow, r, v⟩ := p
    infer_instance
  refine .ite (.bind inferInstance fun done => ?_) hcompleted
  cases done with
  | error e => infer_instance
  | ok p =>
    obtain ⟨flow, r, v⟩ := p
    infer_instance

instance lawful_proceeding (x : Op StepResult) [Lawful Γ x] : Lawful Γ (proceeding x) := by
  unfold proceeding
  infer_instance

theorem Lawful.dispose_proceeding {attempts : Bool} {d : Disposition} {x} (_ : Lawful Γ x) :
    Lawful Γ (dispose ctx attempts d (proceeding x)) :=
  inferInstance

instance lawful_repeated (body : Nat → Op Flow) [∀ i, Lawful Γ (body i)] (start count : Nat) :
    Lawful Γ (repeated body start count) := by
  induction count generalizing start with
  | zero => exact lawful_pure _
  | succ count ih =>
    refine .bind inferInstance fun flow => ?_
    cases flow with
    | proceed => exact ih (start + 1)
    | returned v => infer_instance

instance lawful_addMethods (home : RuntimeId) (table : TableId)
    (methods : List (MethodHeading × List Step)) [Follows Γ (.home (some home))] :
    Lawful Γ (addMethods home table methods) := by
  induction methods with
  | nil => exact lawful_pure ()
  | cons m rest ih =>
    unfold addMethods
    infer_instance

instance lawful_insist (x : Op Unit) [Lawful Γ x] : Lawful Γ (insist x) := by
  refine .bind inferInstance fun r => ?_
  cases r <;> infer_instance

/-- A method table that a script has kept belongs to a runtime that exists. -/
theorem lawful_keptTable_bind {table : Name} {f : Option (TableId × RuntimeId) → Op α}
    (hf : ∀ found, Lawful (.home (found.map Prod.snd) :: Γ) (f found)) :
    Lawful Γ (observe (fun w => (w.scene.tables.get? table).bind fun t =>
      (w.tables[t]?).map fun m => (t, m.home)) >>= f) := by
  refine lawful_observe_bind (fun found => .home (found.map Prod.snd)) (fun {w} hs _ => ?_) hf
  intro r hr
  obtain ⟨p, hp, rfl⟩ := Option.map_eq_some_iff.mp hr
  obtain ⟨t, -, ht⟩ := Option.bind_eq_some_iff.mp hp
  obtain ⟨mt, hmt, rfl⟩ := Option.map_eq_some_iff.mp ht
  exact (hs.table hmt).home

/-- The initialiser of a class definition is lawful if its last part is. -/
theorem lawful_initialiser {home : Option RuntimeId} {leak : Option Name}
    {methods : List (MethodHeading × List Step)} {init} [Follows Γ (.home home)] (hinit : ∀ p, Lawful (p :: Γ) init)
    (table : TableId) : Lawful Γ (do
      match leak with
      | some x => edit (.keepTable x table)
      | none => pure ()
      addMethods (← need home) table methods
      insist init) := by
  have hadd : Lawful Γ (need home >>= fun r => addMethods r table methods >>= fun _ => insist init) := by
    refine .need_bind fun r => ?_
    have := hinit (.home (some r))
    infer_instance
  cases leak with
  | some x => exact .bind inferInstance fun _ => hadd
  | none => exact hadd

mutual

/-- **Every step is lawful where the runtime of its body exists.** -/
theorem lawful_step (ctx : Context) (attempts : Bool) :
    (s : Step) → (Γ : List Premise) → Follows Γ (.home ctx.home) → Lawful Γ (s.toOp ctx attempts)
  | .action a d, Γ, h => by
    unfold Step.toOp
    infer_instance
  | .return v d, Γ, h => by
    unfold Step.toOp
    infer_instance
  | .branch v yes no d, Γ, h => by
    have hyes := lawful_steps ctx yes Γ h
    have hno := lawful_steps ctx no Γ h
    unfold Step.toOp
    infer_instance
  | .times count counter body, Γ, h => by
    have hbody := lawful_steps ctx body Γ h
    unfold Step.toOp
    infer_instance
  | .defineClass heading methods init d, Γ, h => by
    unfold Step.toOp
    refine .dispose_proceeding (.runtimeOperand_bind fun home => .classOperand_bind fun superclass =>
      .bind (lawful_defineClass (lawful_initialiser fun p => ?_)) fun _ => inferInstance)
    have hinit := lawful_steps ctx init (p :: .cls superclass :: .home home :: Γ) inferInstance
    infer_instance
  | .addMethod table heading body d, Γ, h => by
    unfold Step.toOp
    refine .dispose_proceeding (lawful_keptTable_bind fun found => ?_)
    cases found with
    | none => infer_instance
    | some p =>
      obtain ⟨t, home⟩ := p
      show Lawful (.home (some home) :: Γ) _
      infer_instance
  | .newRunnable rt body d, Γ, h => by
    unfold Step.toOp
    infer_instance

/-- Every body is lawful where its runtime exists. -/
theorem lawful_steps (ctx : Context) :
    (ss : List Step) → (Γ : List Premise) → Follows Γ (.home ctx.home) → Lawful Γ (stepsToOp ctx ss)
  | [], Γ, h => by
    unfold stepsToOp
    infer_instance
  | s :: rest, Γ, h => by
    have hs := lawful_step ctx true s Γ h
    have hrest := lawful_steps ctx rest Γ h
    unfold stepsToOp
    refine .bind hs fun p => ?_
    obtain ⟨flow, r⟩ := p
    cases flow <;> infer_instance

end

/-! ## Programs -/

theorem lawful_scriptCall (home : RuntimeId) (body : Script) (self : Option ObjId)
    (args : List Value) : Lawful [.home (some home)] (Script.call home body self args) := by
  refine .bind inferInstance fun scope => ?_
  have hsteps := lawful_steps { home := some home, scope := some scope } body
    [.home (some home)] inferInstance
  refine .bind hsteps fun flow => ?_
  cases flow <;> infer_instance

/-- **What a lawful program calls is lawful.** -/
theorem lawful_activation {own : Option ObjId} (hs : w.Sound) {a : Activation} (ha : a.Allowed w) :
    a.program.Lawful own w := by
  have hassume {home : RuntimeId} (hh : w.Has home) : w.Assumes [.home (some home)] := by
    intro p hp
    cases List.mem_singleton.mp hp
    intro r hr
    cases hr
    exact hh
  cases a with
  | code c self args =>
    cases c with
    | builtin home b =>
      have hb : Lawful [.home (some home)] (b.run home self args) := inferInstance
      exact lawful_toProg hb hs (hassume ha)
    | script home body =>
      exact lawful_toProg (lawful_scriptCall home body self args) hs (hassume ha)
  | thread o => exact ha.elim
  | joinAll home self bound =>
    have hj : Lawful [] (joinAll home self bound) := inferInstance
    exact lawful_toProgUnit hj hs fun p hp => (nomatch hp)

/-- **A main script is lawful where its runtime exists.** -/
theorem lawful_main (ctx : Context) [Follows Γ (.home ctx.home)] (s : Script) : Lawful Γ (Script.main ctx s) := by
  induction s with
  | nil => exact lawful_pure ()
  | cons step rest ih =>
    have hstep := lawful_step ctx false step Γ inferInstance
    have hanswered : Lawful Γ (do
        let (_, r, _) ← step.toOp ctx false
        edit (.answer (.done r))) := by
      refine .bind hstep fun p => ?_
      obtain ⟨flow, r, v⟩ := p
      infer_instance
    refine .bind inferInstance fun outcome => ?_
    cases outcome <;> infer_instance

end ObjectKernel.Op
