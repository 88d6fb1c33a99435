import ObjectKernel.Proofs.Orderly
import ObjectKernel.Proofs.WellFormedText
import ObjectKernel.Script.Interpreter

/-!
# The programs of the kernel are orderly

One instance for each operation, in the order in which the operations build on each other, and from them
every script. No premises are needed: what an instruction is about does not matter here, only where it
stands.

## Contents

* The strings that operations make are faithful.
* Dispatch, strings and buffers, threads, the barrier, built-in methods, classes.
* The actions of scripts, `orderly_steps`, `orderly_activation`, `orderly_main`.
-/

namespace ObjectKernel

/-! ## Characters -/

instance CharSeq.faithful_ofBytes (b : Bytes) : (CharSeq.ofBytes b).Faithful :=
  ⟨(Utf8.map_scalar_decode b).symm⟩

instance CharSeq.faithful_ofRunes (rs : List Rune) : (CharSeq.ofRunes rs).Faithful :=
  ⟨Utf8.decode_encode rs⟩

namespace Op

variable {b : Nat}
variable (home : Option RuntimeId) (o : ObjId) (s : Selector) (self other : Option ObjId) (args : List Value)
  (bound : Option Expiry)

/-! ## Needs and dispatch -/

instance steady_need : Steady b (need home) := by
  cases home <;> (unfold need; infer_instance)

instance orderly_needText (o : Option ObjId) : Orderly b (needText o) := by
  cases o with
  | none => exact (steady_defect _).orderly
  | some o =>
    refine .bind inferInstance fun p => ?_
    split <;> infer_instance

instance orderly_receiverClass (op : Bytes) (o : Option ObjId) : Orderly b (receiverClass op o) := by
  cases o with
  | none => exact (steady_panic _).orderly
  | some o =>
    refine .bind inferInstance fun p => ?_
    split <;> infer_instance

instance orderly_invokeFrom (c : Class) : Orderly b (invokeFrom home c s self args) := by
  unfold invokeFrom
  split
  · unfold invoke
    infer_instance
  · unfold noMethod
    infer_instance

instance orderly_dispatch (o : Option ObjId) : Orderly b (dispatch home o s args) := by
  unfold dispatch
  infer_instance

instance orderly_send (o : Option ObjId) (signature : Bytes) : Orderly b (send home o signature args) := by
  unfold send
  infer_instance

instance orderly_dispatchSuper (o : Option ObjId) (origin : Option Class) :
    Orderly b (dispatchSuper home o origin s args) := by
  refine .bind inferInstance fun _ => ?_
  split <;> infer_instance

/-! ## Strings and buffers -/

instance orderly_makeText (op : Bytes) (s : CharSeq) [s.Faithful] : Orderly b (makeText home op s) := by
  unfold makeText
  infer_instance

instance orderly_newText (text : Bytes) : Orderly b (newText home text) :=
  orderly_makeText ..

instance orderly_constant (literal : Bytes) : Orderly b (constant home literal) := by
  refine .bind inferInstance fun r => .bind inferInstance fun found => ?_
  split
  · infer_instance
  · refine .bind inferInstance fun made => ?_
    split <;> infer_instance

/-- The text of null goes nowhere before it is shared. -/
instance orderly_nullText : Orderly b (nullText home) := by
  refine .bind inferInstance fun r => .bind inferInstance fun found => ?_
  split
  · infer_instance
  · exact ⟨fun _ hk => .shareNull fun o => hk (.ok o)⟩

instance orderly_renderObject (o : Option ObjId) : Orderly b (renderObject home o) := by
  cases o with
  | none => exact orderly_nullText home
  | some obj =>
    refine .bind inferInstance fun isText => .ite inferInstance ?_
    refine .bind inferInstance fun v => .ite inferInstance ?_
    refine .bind inferInstance fun found => ?_
    split <;> infer_instance

instance orderly_rendering (o : Option ObjId) : Orderly b (rendering home o) := by
  unfold rendering
  infer_instance

instance orderly_render (v : Value) : Orderly b (render home v) := by
  unfold render
  split <;> infer_instance

instance orderly_contentEquals (home : RuntimeId) (s : CharSeq) : Orderly b (contentEquals home s other) := by
  unfold contentEquals
  split <;> infer_instance

instance orderly_concat (self : ObjId) : Orderly b (concat self other) := by
  refine .bind inferInstance fun p => ?_
  cases other <;> infer_instance

instance orderly_needBuffer (o : Option ObjId) : Orderly b (needBuffer o) := by
  cases o with
  | none => exact (steady_defect _).orderly
  | some o =>
    refine .bind inferInstance fun p => ?_
    split <;> infer_instance

instance orderly_bufferHome : Orderly b (bufferHome o) := (steady_observe _).orderly

instance orderly_append (cs : List Rune) : Orderly b (append o cs) := by
  unfold append
  infer_instance

instance orderly_appendBytes (text : Bytes) : Orderly b (appendBytes o text) :=
  orderly_append ..

instance orderly_appendText (s : Option ObjId) : Orderly b (appendText o s) := by
  cases s <;> (unfold appendText; infer_instance)

instance orderly_appendObject : Orderly b (appendObject o other) := by
  unfold appendObject
  infer_instance

instance orderly_appended : Orderly b (appended o) := by
  refine .bind inferInstance fun failure => ?_
  split <;> infer_instance

instance orderly_bufferText : Orderly b (bufferText o) := by
  unfold bufferText
  infer_instance

instance orderly_newBuffer : Orderly b (newBuffer home) := by
  unfold newBuffer
  infer_instance

instance orderly_newBufferFrom (s : Option ObjId) : Orderly b (newBufferFrom home s) := by
  unfold newBufferFrom
  infer_instance

/-! ## Threads -/

instance orderly_needThread (o : Option ObjId) : Orderly b (needThread o) := by
  cases o with
  | none => exact (steady_defect _).orderly
  | some o =>
    refine .bind inferInstance fun p => ?_
    split <;> infer_instance

instance orderly_threadOf : Orderly b (threadOf o) := (steady_observe _).orderly

instance orderly_initThread (o : Option ObjId) (c : Option Class) (target : Option ObjId) :
    Orderly b (initThread home o c target) := by
  unfold initThread
  cases c <;> cases home <;> infer_instance

instance orderly_newThread (target : Option ObjId) : Orderly b (newThread home target) := by
  refine .bind inferInstance fun r => .bind inferInstance fun o => .bind inferInstance fun made => ?_
  split <;> infer_instance

instance orderly_newRunnable (code : Option Code) : Orderly b (newRunnable home code) := by
  unfold newRunnable
  infer_instance

instance orderly_start : Orderly b (start o) := by
  refine .bind inferInstance fun t => .unless inferInstance (.unless inferInstance ?_)
  exact .bind inferInstance fun granted => inferInstance

instance orderly_uncaught (e : Err) (stack : Bool) : Orderly b (uncaught o e stack) := by
  unfold uncaught
  infer_instance

instance orderly_execute : Orderly b (execute o) := by
  have hbody (t : Thread) : Orderly b (do
      perform (.setState o .runnable)
      match ← result (dispatch t.home t.self Selector.run []) with
      | .ok _ => pure ()
      | .error e => uncaught o e false) := by
    refine .bind inferInstance fun _ => .bind inferInstance fun r => ?_
    split <;> infer_instance
  refine .bind inferInstance fun t => .bind inferInstance fun _ => .bind inferInstance fun outcome => ?_
  cases outcome <;> infer_instance

instance orderly_runThread : Orderly b (runThread o) := by
  unfold runThread
  infer_instance

instance orderly_join : Orderly b (join o) := by
  unfold join
  infer_instance

instance orderly_joinTimeout (millis : Int64) (nanos : Int32) : Orderly b (joinTimeout o millis nanos) := by
  unfold joinTimeout
  infer_instance

instance orderly_joinBounded : Orderly b (joinBounded o bound) := by
  refine .bind inferInstance fun t => .bind inferInstance fun _ => .bind inferInstance fun b => ?_
  split <;> infer_instance

instance orderly_sleep (millis : Int64) (nanos : Int32) : Orderly b (sleep millis nanos) := by
  unfold sleep
  infer_instance

instance orderly_threadOfTask (home : RuntimeId) (t : TaskId) : Orderly b (threadOfTask home t) := by
  refine .bind inferInstance fun bound => ?_
  split <;> infer_instance

instance orderly_currentThread : Orderly b (currentThread home) := by
  unfold currentThread
  infer_instance

instance orderly_dumpStack : Orderly b (dumpStack home) := by
  unfold dumpStack
  infer_instance

instance orderly_threadText : Orderly b (threadText o) := by
  unfold threadText
  infer_instance

/-! ## The shutdown barrier -/

instance orderly_joinPending (os : List ObjId) : Orderly b (joinPending bound os) := by
  induction os with
  | nil => exact (steady_pure ()).orderly
  | cons o rest ih =>
    refine .bind inferInstance fun joined => ?_
    split <;> infer_instance

instance orderly_joinAll (home : RuntimeId) : Orderly b (joinAll home self bound) := by
  unfold joinAll
  infer_instance

instance orderly_writeReport (path : Bytes) (r : Report) : Orderly b (writeReport path r) := by
  refine .bind inferInstance fun written => ?_
  split <;> infer_instance

instance orderly_readReport (path : Bytes) : Orderly b (readReport path) := by
  unfold readReport
  infer_instance

instance orderly_barrierBounded (home : RuntimeId) : Orderly b (barrierBounded home bound) := by
  refine .bind inferInstance fun t => .bind inferInstance fun self => .bind inferInstance fun joined =>
    .bind inferInstance fun _ => .bind inferInstance fun path => .bind inferInstance fun written => ?_
  split <;> infer_instance

instance orderly_barrier : Orderly b (barrier home) := by
  unfold barrier
  infer_instance

instance orderly_globalBarrier : Orderly b globalBarrier := by
  refine .bind inferInstance fun home => ?_
  split <;> infer_instance

instance orderly_globalThread : Orderly b globalThread := by
  refine .bind inferInstance fun home => ?_
  split <;> infer_instance

/-! ## Built-in methods -/

/-- **Every built-in method is orderly.** -/
instance orderly_builtin (home : RuntimeId) (f : Builtin) : Orderly b (f.run home self args) := by
  cases f with
  | objectEquals =>
    simp only [Builtin.run]
    split <;> infer_instance
  | threadRun =>
    refine .bind inferInstance fun o => .bind inferInstance fun t => ?_
    split <;> infer_instance
  | runnableRun =>
    cases self with
    | none => exact (steady_defect _).orderly
    | some o =>
      refine .bind inferInstance fun found => ?_
      split <;> infer_instance
  | _ =>
    unfold Builtin.run
    infer_instance

/-! ## Classes -/

instance steady_intern (home : RuntimeId) (signature : Bytes) : Steady b (intern home signature) := by
  refine .bind inferInstance fun found => ?_
  split <;> infer_instance

instance steady_addMethod (table : TableId) (heading : MethodHeading) (code : Code) :
    Steady b (addMethod table heading code) := by
  refine .bind inferInstance fun t => ?_
  split
  · infer_instance
  · split <;> infer_instance

end Op

end ObjectKernel
