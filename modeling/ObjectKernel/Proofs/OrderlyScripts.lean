import ObjectKernel.Proofs.OrderlyOperations

/-!
# Scripts are orderly

The steps of a script are made of the operations of the kernel. An initialiser in a script adds methods
and runs steps whose errors are defects, so it never errs. Hence every program that a task can be given by
a call is orderly, and so is every main script.

## Contents

* The actions by subject, and `orderly_action` for all of them.
* `steady_initialiser`, `orderly_steps`: the steps of a body, by induction over the script.
* `orderly_activation`, `orderly_main`.
-/

namespace ObjectKernel.Op

variable {b : Nat} {ctx : Context}
variable (o : Option ObjId) (rt : Option RuntimeId)

/-! ## Operands -/

instance orderly_classOperand (ctx : Context) (c : ClassOperand) : Orderly b (classOperand ctx c) := by
  unfold classOperand
  split <;> infer_instance

instance orderly_nothing : Orderly b nothing := (steady_pure _).orderly

instance orderly_reply (r : Reply) : Orderly b (reply r) := (steady_pure _).orderly

instance orderly_answer (v : Value) : Orderly b (answer v) := by
  unfold answer
  infer_instance

instance orderly_answerObject (o : ObjId) : Orderly b (answerObject o) := orderly_answer _

instance steady_edit (e : SceneEdit) : Steady b (edit e) := steady_perform

instance orderly_needFields : Orderly b (needFields o) := by
  cases o with
  | none => exact (steady_defect _).orderly
  | some o =>
    refine .bind inferInstance fun p => ?_
    split <;> infer_instance

instance orderly_needObject : Orderly b (needObject o) := by
  cases o <;> (unfold needObject; infer_instance)

instance orderly_needClass (c : Option Class) : Orderly b (needClass c) := by
  cases c <;> (unfold needClass; infer_instance)

/-! ## Actions -/

instance orderly_reportReply (home : RuntimeId) (r : Report) : Orderly b (reportReply home r) := by
  unfold reportReply
  infer_instance

instance orderly_runtimeAction (a : RuntimeAction) : Orderly b (a.toOp rt) := by
  cases a with
  | create name patch =>
    refine .bind inferInstance fun config => .bind inferInstance fun made => ?_
    split <;> infer_instance
  | initGlobal patch =>
    refine .bind inferInstance fun before => .bind inferInstance fun config =>
      .bind inferInstance fun made => ?_
    split
    · infer_instance
    · refine .bind inferInstance fun after => ?_
      cases after <;> infer_instance
  | globalThread =>
    refine .bind inferInstance fun found => ?_
    cases found <;> infer_instance
  | globalRun =>
    refine .bind inferInstance fun home => .bind inferInstance fun _ => .bind inferInstance fun target => ?_
    infer_instance
  | _ =>
    unfold RuntimeAction.toOp
    infer_instance

instance orderly_selectorAction (a : SelectorAction) : Orderly b (a.toOp rt) := by
  cases a <;> (unfold SelectorAction.toOp; infer_instance)

instance orderly_localMethod (c : Option Class) (s : Selector) : Orderly b (localMethod c s) := by
  unfold localMethod
  infer_instance

instance orderly_classIn (ctx : Context) (rt : Option Name) (c : ClassOperand) :
    Orderly b (classIn ctx rt c) := orderly_classOperand ..

instance orderly_classAction (ctx : Context) (rt : Option Name) (a : ClassAction) : Orderly b (a.toOp ctx rt) := by
  cases a with
  | isSubclass c other =>
    refine .bind inferInstance fun d => .bind inferInstance fun e => ?_
    split <;> infer_instance
  | _ =>
    unfold ClassAction.toOp
    infer_instance

instance orderly_allocate (shape : Shape) : Orderly b shape.allocate := by
  cases shape <;> (unfold Shape.allocate; infer_instance)

instance orderly_objectAction (ctx : Context) (a : ObjectAction) : Orderly b (a.toOp ctx) := by
  cases a with
  | instanceOf obj c =>
    refine .bind inferInstance fun own => .bind inferInstance fun d => ?_
    split <;> infer_instance
  | _ =>
    unfold ObjectAction.toOp
    infer_instance

instance orderly_callAction (ctx : Context) (rt : Option Name) (a : CallAction) : Orderly b (a.toOp ctx rt) := by
  cases a <;> (unfold CallAction.toOp; infer_instance)

instance orderly_textAction (ctx : Context) (a : TextAction) : Orderly b (a.toOp ctx rt) := by
  cases a with
  | contentEquals obj other =>
    refine .bind inferInstance fun p => ?_
    split <;> infer_instance
  | _ =>
    unfold TextAction.toOp
    infer_instance

instance orderly_bufferReply (o : ObjId) : Orderly b (bufferReply o) := by
  refine .bind inferInstance fun b => ?_
  split <;> infer_instance

instance orderly_bufferAction (ctx : Context) (a : BufferAction) : Orderly b (a.toOp ctx rt) := by
  cases a <;> (unfold BufferAction.toOp; infer_instance)

instance orderly_joinWithin (millis : Int64) (nanos : Int32) : Orderly b (joinWithin o millis nanos) := by
  unfold joinWithin
  infer_instance

instance orderly_threadAction (ctx : Context) (rt : Option Name) (a : ThreadAction) : Orderly b (a.toOp ctx rt) := by
  cases a with
  | check obj =>
    refine .bind inferInstance fun o => .bind inferInstance fun t => .bind inferInstance fun u => ?_
    split <;> infer_instance
  | _ =>
    unfold ThreadAction.toOp
    infer_instance

instance orderly_outputPiece (ctx : Context) (p : OutputPiece) : Orderly b (p.bytes ctx) := by
  cases p <;> (unfold OutputPiece.bytes; infer_instance)

instance orderly_output (ctx : Context) (ps : List OutputPiece) : Orderly b (OutputPiece.allBytes ctx ps) := by
  induction ps with
  | nil => exact (steady_pure []).orderly
  | cons p rest ih =>
    unfold OutputPiece.allBytes
    infer_instance

instance orderly_hostAction (ctx : Context) (a : HostAction) : Orderly b (a.toOp ctx) := by
  cases a <;> (unfold HostAction.toOp; infer_instance)

/-- **Every action is orderly.** -/
instance orderly_action (ctx : Context) (a : Action) : Orderly b (a.toOp ctx) := by
  cases a <;> (unfold Action.toOp; infer_instance)

/-! ## Steps -/

instance orderly_bindTarget (ctx : Context) (target : Option Name) (v : Option Value) :
    Orderly b (bindTarget ctx target v) := by
  unfold bindTarget
  split <;> infer_instance

instance orderly_dispose (ctx : Context) (attempts : Bool) (d : Disposition)
    (x : Op (Flow × StepResult)) [Orderly b x] : Orderly b (dispose ctx attempts d x) := by
  have hcompleted : Orderly b (do
      let (flow, r, v) ← x
      bindTarget ctx d.target v
      pause
      return (flow, r, v)) := inferInstance
  refine .ite (.bind inferInstance fun done => ?_) hcompleted
  cases done <;> infer_instance

instance orderly_proceeding (x : Op StepResult) [Orderly b x] : Orderly b (proceeding x) := by
  unfold proceeding
  infer_instance

theorem Orderly.dispose_proceeding {attempts : Bool} {d : Disposition} {x} (_ : Orderly b x) :
    Orderly b (dispose ctx attempts d (proceeding x)) := inferInstance

instance orderly_repeated (body : Nat → Op Flow) [∀ i, Orderly b (body i)] (start count : Nat) :
    Orderly b (repeated body start count) := by
  induction count generalizing start with
  | zero => exact (steady_pure _).orderly
  | succ count ih =>
    refine .bind inferInstance fun flow => ?_
    cases flow with
    | proceed => exact ih (start + 1)
    | returned v => infer_instance

instance steady_addMethods (home : RuntimeId) (table : TableId)
    (methods : List (MethodHeading × List Step)) : Steady b (addMethods home table methods) := by
  induction methods with
  | nil => exact steady_pure ()
  | cons m rest ih =>
    unfold addMethods
    infer_instance

instance steady_insist (x : Op Unit) [Orderly b x] : Steady b (insist x) := by
  refine .bind inferInstance fun r => ?_
  cases r <;> infer_instance

/-- The initialiser of a class definition in a script never errs. -/
theorem steady_initialiser {home : Option RuntimeId} {leak : Option Name}
    {methods : List (MethodHeading × List Step)} {init} (hinit : Orderly b init) (table : TableId) : Steady b (do
      match leak with
      | some x => edit (.keepTable x table)
      | none => pure ()
      addMethods (← need home) table methods
      insist init) := by
  have hadd : Steady b (need home >>= fun r => addMethods r table methods >>= fun _ => insist init) :=
    inferInstance
  cases leak with
  | some x => exact .bind inferInstance fun _ => hadd
  | none => exact hadd

/-- A runtime that a step names exists. -/
theorem runtimeOperand_seen {w : World} (hs : w.Sound) (hctx : ∀ r ∈ ctx.home, r < w.runtimes.size)
    {rt : Option Name} : ∀ r ∈ w.runtimeOperand ctx rt, r < w.runtimes.size := by
  intro r hr
  cases rt with
  | none => exact hctx r hr
  | some name =>
    obtain ⟨_, hrt⟩ := hs.named hr
    exact (Array.getElem?_eq_some_iff.mp hrt).1

mutual

/-- **Every step is orderly where the runtime of its body exists.** -/
theorem orderly_step (ctx : Context) (attempts : Bool) :
    (s : Step) → (b : Nat) → (∀ r ∈ ctx.home, r < b) → Orderly b (s.toOp ctx attempts)
  | .action a d, b, _ => by
    unfold Step.toOp
    infer_instance
  | .return v d, b, _ => by
    unfold Step.toOp
    infer_instance
  | .branch v yes no d, b, h => by
    have hyes := orderly_steps ctx yes b h
    have hno := orderly_steps ctx no b h
    unfold Step.toOp
    infer_instance
  | .times count counter body, b, h => by
    have hbody := orderly_steps ctx body b h
    unfold Step.toOp
    infer_instance
  | .defineClass heading methods init d, b, h => by
    unfold Step.toOp
    refine .dispose_proceeding (.observe_bind fun w hs hle => .bind inferInstance fun superclass => ?_)
    have hctx (r : RuntimeId) (hr : r ∈ ctx.home) : r < w.runtimes.size := Nat.lt_of_lt_of_le (h r hr) hle
    have hinit := orderly_steps ctx init w.runtimes.size hctx
    refine .bind (orderly_defineClass (runtimeOperand_seen hs hctx) (steady_initialiser ?_)) fun _ =>
      inferInstance
    infer_instance
  | .addMethod table heading body d, b, _ => by
    unfold Step.toOp
    refine .dispose_proceeding (.bind inferInstance fun found => ?_)
    cases found <;> infer_instance
  | .newRunnable rt body d, b, _ => by
    unfold Step.toOp
    infer_instance

/-- Every body is orderly where its runtime exists. -/
theorem orderly_steps (ctx : Context) :
    (ss : List Step) → (b : Nat) → (∀ r ∈ ctx.home, r < b) → Orderly b (stepsToOp ctx ss)
  | [], b, _ => by
    unfold stepsToOp
    infer_instance
  | s :: rest, b, h => by
    have hs := orderly_step ctx true s b h
    have hrest := orderly_steps ctx rest b h
    unfold stepsToOp
    refine .bind hs fun p => ?_
    obtain ⟨flow, r⟩ := p
    cases flow <;> infer_instance

end

/-! ## Programs -/

theorem orderly_scriptCall {home} (hhome : home < b) (body : Script) (self : Option ObjId) (args : List Value) :
    Orderly b (Script.call home body self args) := by
  refine .bind inferInstance fun scope => ?_
  have hsteps := orderly_steps { home := some home, scope := some scope } body b fun r hr => by
    cases hr
    exact hhome
  refine .bind hsteps fun flow => ?_
  cases flow <;> infer_instance

/-- **What is run for a call is orderly**, if the runtime of a script that is run exists. -/
theorem orderly_activation {a : Activation} {n : Nat}
    (h : ∀ home body self args, a = .code (.script home body) self args → home < n) : a.program.Orderly none n := by
  have hn := Nat.le_refl n
  cases a with
  | code c self args =>
    cases c with
    | builtin home f => exact orderly_toProg (orderly_builtin ..) hn
    | script home body => exact orderly_toProg (orderly_scriptCall (h _ _ _ _ rfl) body self args) hn
  | thread o => exact orderly_toProgUnit (orderly_execute ..) hn
  | joinAll home self bound => exact orderly_toProgUnit (orderly_joinAll ..) hn

/-- **A main script is orderly where its runtime exists.** -/
theorem orderly_main (ctx : Context) (h : ∀ r ∈ ctx.home, r < b) (s : Script) : Orderly b (Script.main ctx s) := by
  induction s with
  | nil => exact (steady_pure ()).orderly
  | cons step rest ih =>
    have hstep := orderly_step ctx false step b h
    have hanswered : Orderly b (do
        let (_, r, _) ← step.toOp ctx false
        edit (.answer (.done r))) := inferInstance
    refine .bind inferInstance fun outcome => ?_
    cases outcome <;> infer_instance

end ObjectKernel.Op
