import ObjectKernel.Script.Operand

/-!
# Actions

What each action of a script does, in terms of the operations of the kernel.

## Contents

* One function for each subject: `RuntimeAction.toOp`, `SelectorAction.toOp`, `ClassAction.toOp`,
  `ObjectAction.toOp`, `CallAction.toOp`, `TextAction.toOp`, `BufferAction.toOp`, `ThreadAction.toOp`,
  `HostAction.toOp`.
* `Action.toOp`: all of them.
-/

namespace ObjectKernel

open Op

/-- The task of the main script. -/
def mainTask : TaskId := 0

/-! ## Runtimes -/

/-- The name under which scripts find the runtime that the process shares. -/
def globalName : Name := "global"

/-- The name of the runtime that a script starts with. -/
def mainName : Name := "main"

/-- The reply that describes a report. -/
def reportReply (home : RuntimeId) (r : Report) : Op StepResult := do
  let session ← observe fun w => (w.runtime? home).map (·.session)
  reply (.report (session = some r.session) (r.startedAt ≤ r.finishedAt) r)

/-- Performs an operation on runtimes. -/
def RuntimeAction.toOp (rt : Option RuntimeId) : RuntimeAction → Op StepResult
  | .create name patch => do
    let config ← observe fun w => patch.apply (.default w.environment)
    match ← perform (.newRuntime (some config)) with
    | .error e => throw (.invalidConfig e)
    | .ok home =>
      edit (.nameRuntime name home)
      reply (.flag true)
  | .lockChecking => do reply (.flag (← observe (·.lockChecking)))
  | .config => do
    let home ← need rt
    reply (.config (← observe (·.config home)))
  | .initGlobal patch => do
    let before ← observe (·.scene.runtimes.get? globalName)
    let config ← observe fun w => patch.map (·.apply (.default w.environment))
    match ← perform (.initGlobal config) with
    | .error e => throw (.invalidConfig e)
    | .ok _ =>
      let after ← observe (·.globalRuntime)
      match after with
      | some home => edit (.nameRuntime globalName home)
      | none => pure ()
      reply (.flag (before ≠ after))
  | .closeGlobal => do
    perform .closeGlobal
    nothing
  | .globalThread => do
    match ← Op.globalThread with
    | some o => answerObject o
    | none => nothing
  | .globalJoinAll => do
    globalBarrier
    nothing
  | .globalRun => do
    let home ← need rt
    edit (.note [])
    let target ← newRunnable rt (some (.script home [.action (.runtime none .noteThread) {}]))
    let o ← newThread rt (some target)
    start o
    join o
    reply (.text (← observe (·.scene.noted)))
  | .noteThread => do
    let o ← needObject (← Op.globalThread)
    edit (.note (← threadOf o).name)
    nothing
  | .joinAll => do
    let home ← need rt
    let t ← task
    if t ≠ mainTask then
      let watched ← observe fun w => (w.scene.runtimes.get? mainName).getD home
      let self ← observe fun w => w.ownThread? watched t
      let _ ← await (.quiet watched self) none
    barrier rt
    nothing
  | .close => do
    barrier rt
    nothing
  | .report => do
    let home ← need rt
    reportReply home (← perform (.takeReport home))
  | .readReport path => do
    let r ← Op.readReport path
    reportReply (← need rt) r
  | .writeReport path => do
    let home ← need rt
    Op.writeReport path (← perform (.takeReport home))
    nothing

/-! ## Selectors and classes -/

/-- Performs an operation on a selector table. -/
def SelectorAction.toOp (rt : Option RuntimeId) : SelectorAction → Op StepResult
  | .intern signature => do reply (.number (← Op.intern (← need rt) signature))
  | .lookup signature => do
    let home ← need rt
    reply (.number (← observe fun w => (w.selectors home).lookup signature))
  | .name s => do
    let home ← need rt
    reply (.text (← observe fun w => (w.selectors home).name s))
  | .count => do
    let home ← need rt
    reply (.number (← observe fun w => (w.selectors home).size))

/-- What a record keeps of a class. -/
def Class.view (c : Class) : ClassView :=
  { name := c.name, superclass := c.parent?.map Class.name, selectors := c.localSelectors }

/-- What a record keeps of a method that was found. -/
def Method.view (s : Selector) (owner : Class) (m : Method) : MethodView :=
  { selector := s, name := m.name, arity := m.arity, owner := owner.name }

/-- The method that a class itself adds for a selector; no class has one for a negative selector. -/
def localMethod (c : Option Class) (s : Selector) : Op (Option (Class × Method)) :=
  if s < 0 then pure none
  else do
    let c ← needClass c
    return (c.findLocal? s).map (c, ·)

/-- The class that a question about a runtime names, from that runtime. -/
def classIn (ctx : Context) (rt : Option Name) (c : ClassOperand) : Op (Option Class) :=
  classOperand ctx { c with runtime := c.runtime.or rt }

/-- Answers a question about classes. -/
def ClassAction.toOp (ctx : Context) (rt : Option Name) : ClassAction → Op StepResult
  | .inspect c => do reply (.cls ((← classIn ctx rt c).map Class.view))
  | .names => do
    let home ← need (← observe (·.runtimeOperand ctx rt))
    reply (.texts (← observe fun w => (w.classes home).names))
  | .count => do
    let home ← need (← observe (·.runtimeOperand ctx rt))
    reply (.number (← observe fun w => (w.classes home).count))
  | .root => do
    let home ← need (← observe (·.runtimeOperand ctx rt))
    reply (.cls ((← observe fun w => (w.classes home).root).map Class.view))
  | .lookup c s => do
    let found := (← classIn ctx rt c).bind (·.find? s)
    reply (.method (found.map fun p => p.2.view s p.1))
  | .lookupLocal c s => do
    let found ← localMethod (← classIn ctx rt c) s
    reply (.method (found.map fun p => p.2.view s p.1))
  | .hasMethod c s => do
    let found ← localMethod (← classIn ctx rt c) s
    reply (.flag found.isSome)
  | .isSubclass c other => do
    match ← classOperand ctx c, ← classOperand ctx other with
    | some c, some d => reply (.flag (c.isSubclassOf d))
    | _, _ => reply (.flag false)

/-! ## Objects and calls -/

/-- A freshly allocated object. -/
def Shape.allocate : Shape → Op ObjId
  | .plain => perform (.allocate (.plain []))
  | .worker => do perform (.allocate (.extended (← perform (.allocate (.thread {})))))
  | .thread => perform (.allocate (.thread {}))
  | .buffer => perform (.allocate (.buffer none {}))

/-- Performs an operation on objects. -/
def ObjectAction.toOp (ctx : Context) : ObjectAction → Op StepResult
  | .allocate shape => do answerObject (← shape.allocate)
  | .construct obj c => do
    let o ← observe (·.objectOperand ctx obj)
    ofFault (← perform (.construct o (← classOperand ctx c)))
    nothing
  | .create c => do
    let c ← classOperand ctx c
    let o ← perform (.allocate (.plain []))
    ofFault (← perform (.construct (some o) c))
    answerObject o
  | .setField obj field v => do
    let (o, _) ← needFields (← observe (·.objectOperand ctx obj))
    perform (.setField o field (← observe (·.operand ctx v)))
    nothing
  | .getField obj field => do
    let (_, fields) ← needFields (← observe (·.objectOperand ctx obj))
    answer ((fields.get? field).getD .null)
  | .classOf obj => do
    let c ← receiverClass "classOf" (← observe (·.objectOperand ctx obj))
    reply (.text c.name)
  | .instanceOf obj c => do
    let own ← observe fun w => (w.objectOperand ctx obj).bind w.classOf?
    match own, ← classOperand ctx c with
    | some c, some d => reply (.flag (c.isSubclassOf d))
    | _, _ => reply (.flag false)
  | .identityHash obj => do
    let o ← needObject (← observe (·.objectOperand ctx obj))
    reply (.number (← observe fun w => (w.hashOf o).toNat))
  | .same obj other => do
    reply (.flag (← observe fun w => w.objectOperand ctx obj == w.objectOperand ctx other))

/-- What there is to know about a value. -/
def World.facts (w : World) (v : Value) : ValueFacts :=
  { type := v.type.name
    shown := w.shown v
    isNull := v.isNull
    truth := v.asBool
    char := v.asRune
    int := v.asInt32
    long := v.asInt64
    hasObject := v.asObject.isSome }

/-- Performs a call or a rendering. -/
def CallAction.toOp (ctx : Context) (rt : Option Name) : CallAction → Op StepResult
  | .dispatch obj s args => do
    let (o, args) ← observe fun w => (w.objectOperand ctx obj, args.map (w.operand ctx))
    answer (← Op.dispatch (← observe (·.runtimeOperand ctx rt)) o s args)
  | .send obj signature args => do
    let (o, args) ← observe fun w => (w.objectOperand ctx obj, args.map (w.operand ctx))
    answer (← Op.send (← observe (·.runtimeOperand ctx rt)) o signature args)
  | .super obj origin s args => do
    let (o, args) ← observe fun w => (w.objectOperand ctx obj, args.map (w.operand ctx))
    let home ← observe (·.runtimeOperand ctx rt)
    answer (← dispatchSuper home o (← classOperand ctx origin) s args)
  | .renderObject obj => do
    let (home, o) ← observe fun w => (w.runtimeOperand ctx rt, w.objectOperand ctx obj)
    answerObject (← Op.renderObject home o)
  | .render v => do
    let (home, v) ← observe fun w => (w.runtimeOperand ctx rt, w.operand ctx v)
    reply (.text (← Op.render home v))
  | .describe v => do reply (.facts (← observe fun w => w.facts (w.operand ctx v)))

/-! ## Strings and buffers -/

/-- Performs an operation on strings. -/
def TextAction.toOp (ctx : Context) (rt : Option RuntimeId) : TextAction → Op StepResult
  | .create text => do answerObject (← newText rt text)
  | .constant text => do answerObject (← Op.constant rt text)
  | .length obj => do
    let (_, s) ← needText (← observe (·.objectOperand ctx obj))
    reply (.number s.length)
  | .charAt obj index => do
    let (_, s) ← needText (← observe (·.objectOperand ctx obj))
    reply (.number (← ofFault (s.charAt index)).toInt)
  | .chars obj => do
    let (_, s) ← needText (← observe (·.objectOperand ctx obj))
    reply (.chars s.chars)
  | .contentEquals obj other => do
    match ← observe fun w => (w.objectOperand ctx obj, w.objectOperand ctx other) with
    | (none, none) => reply (.flag false)
    | (o, other) =>
      let (home, s) ← needText o
      reply (.flag (← Op.contentEquals home s other))
  | .hashCode obj => do
    let (_, s) ← needText (← observe (·.objectOperand ctx obj))
    reply (.number s.hashCode.toInt)
  | .concat obj other => do
    let (o, other) ← observe fun w => (w.objectOperand ctx obj, w.objectOperand ctx other)
    answerObject (← Op.concat (← needObject o) other)
  | .toText obj => do
    let o ← observe (·.objectOperand ctx obj)
    let _ ← needText o
    answer (.ofRef o)

/-- The reply that describes a buffer. -/
def bufferReply (o : ObjId) : Op StepResult := do
  match ← observe (·.buffer? o) with
  | some (_, b) => reply (.buffer b.length b.capacity b.failure)
  | none => nothing

/-- Performs an operation on buffers. -/
def BufferAction.toOp (ctx : Context) (rt : Option RuntimeId) : BufferAction → Op StepResult
  | .create => do answerObject (← newBuffer rt)
  | .createFrom other => do
    answerObject (← newBufferFrom rt (← observe (·.objectOperand ctx other)))
  | .appendObject obj other => do
    let o ← needBuffer (← observe (·.objectOperand ctx obj))
    Op.appendObject o (← observe (·.objectOperand ctx other))
    bufferReply o
  | .appendText obj other => do
    let o ← needBuffer (← observe (·.objectOperand ctx obj))
    Op.appendText o (← observe (·.objectOperand ctx other))
    bufferReply o
  | .appendInt obj n => do
    let o ← needBuffer (← observe (·.objectOperand ctx obj))
    appendBytes o (Bytes.ofInt (← observe (·.operand ctx n)).asInt32.toInt)
    bufferReply o
  | .appendLong obj n => do
    let o ← needBuffer (← observe (·.objectOperand ctx obj))
    appendBytes o (Bytes.ofInt n.toInt)
    bufferReply o
  | .appendChar obj r => do
    let o ← needBuffer (← observe (·.objectOperand ctx obj))
    append o [r]
    bufferReply o
  | .appendBool obj b => do
    let o ← needBuffer (← observe (·.objectOperand ctx obj))
    appendBytes o (if b then ("true" : Bytes) else "false")
    bufferReply o
  | .inspect obj => do bufferReply (← needBuffer (← observe (·.objectOperand ctx obj)))
  | .toText obj => do
    answerObject (← bufferText (← needBuffer (← observe (·.objectOperand ctx obj))))
  | .check obj => do
    let _ ← appended (← needBuffer (← observe (·.objectOperand ctx obj)))
    nothing

/-! ## Threads -/

/-- What a record keeps of a thread. -/
def Thread.view (t : Thread) : ThreadView :=
  { id := t.id, name := t.name, state := t.state, uncaught := t.uncaught }

/-- What ends a join of a given kind early. -/
def JoinBound.expiry? : JoinBound → Option Expiry
  | .unbounded => none
  | .cancelled => some .cancelled
  | .deadline _ => some .deadline

/-- A bounded join; the bound is checked before it shows that there is no thread. -/
def joinWithin (o : Option ObjId) (millis : Int64) (nanos : Int32) : Op Unit := do
  if o.isNone then
    let _ ← ofFault (Timeout.duration "Thread.join" millis nanos)
  Op.joinTimeout (← needThread o) millis nanos

/-- Performs an operation on threads. -/
def ThreadAction.toOp (ctx : Context) (rt : Option Name) : ThreadAction → Op StepResult
  | .create target => do
    let (home, target) ← observe fun w => (w.runtimeOperand ctx rt, w.objectOperand ctx target)
    answerObject (← newThread home target)
  | .init obj c target => do
    let o ← observe (·.objectOperand ctx obj)
    if o.isSome then
      let _ ← needThread o
    let (home, target) ← observe fun w => (w.runtimeOperand ctx rt, w.objectOperand ctx target)
    initThread home o (← classOperand ctx c) target
    nothing
  | .start obj => do
    Op.start (← needThread (← observe (·.objectOperand ctx obj)))
    nothing
  | .run obj => do
    runThread (← needThread (← observe (·.objectOperand ctx obj)))
    nothing
  | .join obj => do
    Op.join (← needThread (← observe (·.objectOperand ctx obj)))
    nothing
  | .joinMillis obj millis => do
    joinWithin (← observe (·.objectOperand ctx obj)) millis 0
    nothing
  | .joinTimeout obj millis nanos => do
    joinWithin (← observe (·.objectOperand ctx obj)) millis nanos
    nothing
  | .joinContext obj bound => do
    joinBounded (← needThread (← observe (·.objectOperand ctx obj))) bound.expiry?
    nothing
  | .interrupt obj => do
    let o ← observe (·.objectOperand ctx obj)
    if o.isSome then
      let _ ← needThread o
    fault (.interruptionUnsupported "Thread.interrupt")
  | .setName obj name => do
    perform (.rename (← needThread (← observe (·.objectOperand ctx obj))) name)
    nothing
  | .toText obj => do
    answerObject (← threadText (← needThread (← observe (·.objectOperand ctx obj))))
  | .inspect obj => do
    let o ← needThread (← observe (·.objectOperand ctx obj))
    reply (.thread (← threadOf o).view)
  | .check obj => do
    let t ← threadOf (← needThread (← observe (·.objectOperand ctx obj)))
    match t.uncaught with
    | some e => throw (.workerFailed t.name e)
    | none => nothing
  | .interrupted => fault (.interruptionUnsupported "Thread.interrupted")
  | .holdsLock _ => fault .monitorsUntracked
  | .sleep millis nanos => do
    Op.sleep millis nanos
    nothing
  | .yield => nothing
  | .current => do answerObject (← currentThread (← observe (·.runtimeOperand ctx rt)))
  | .currentOfHost => do
    let home ← need (← observe (·.runtimeOperand ctx rt))
    let o ← threadOfTask home (← perform .freshTask)
    let t ← threadOf o
    return (.hostThread t.id t.name, some (.ofObject o))
  | .dumpStack => do
    Op.dumpStack (← observe (·.runtimeOperand ctx rt))
    nothing
  | .all => do
    let home ← need (← observe (·.runtimeOperand ctx rt))
    let views (w : World) (os : List ObjId) := os.filterMap fun o => (w.thread? o).map Thread.view
    reply (← observe fun w =>
      .threads (views w (w.startedThreads home)) (views w (w.liveThreads home)))

/-! ## Surroundings -/

/-- The bytes of a piece of output. -/
def OutputPiece.bytes (ctx : Context) : OutputPiece → Op Bytes
  | .literal b => pure b
  | .threadName x => do
    let o ← needThread (← observe (·.objectOperand ctx (some x)))
    return (← threadOf o).name
  | .textLength x => do
    let (_, s) ← needText (← observe (·.objectOperand ctx (some x)))
    return Bytes.ofNat s.length
  | .textHash x => do
    let (_, s) ← needText (← observe (·.objectOperand ctx (some x)))
    return Bytes.ofInt s.hashCode.toInt
  | .textContent x => do
    let (_, s) ← needText (← observe (·.objectOperand ctx (some x)))
    return s.text

/-- The bytes of pieces of output in order. -/
def OutputPiece.allBytes (ctx : Context) : List OutputPiece → Op Bytes
  | [] => pure []
  | p :: rest => do
    let b ← p.bytes ctx
    return b ++ (← allBytes ctx rest)

/-- Performs an operation of the surroundings. -/
def HostAction.toOp (ctx : Context) : HostAction → Op StepResult
  | .bind v => do answer (← observe (·.operand ctx v))
  | .log v => do
    edit (.log (.seen (← observe fun w => w.view (w.operand ctx v))))
    nothing
  | .raise e => throw e
  | .panic p => Op.panic p
  | .print pieces => do
    edit (.print (← OutputPiece.allBytes ctx pieces))
    nothing
  | .errorReports => do
    let reports ← perform .takeErrorReports
    reply (.errorReports (reports.map fun r => (r.line, r.showsStack)))
  | .waitGate gate => do
    if (← task) ≠ mainTask then
      let _ ← await (.gate gate) none
    nothing
  | .openGate gate => do
    edit (.openGate gate)
    nothing

/-- Performs an action. -/
def Action.toOp (ctx : Context) : Action → Op StepResult
  | .runtime rt a => do a.toOp (← observe (·.runtimeOperand ctx rt))
  | .selector rt a => do a.toOp (← observe (·.runtimeOperand ctx rt))
  | .cls rt a => a.toOp ctx rt
  | .object a => a.toOp ctx
  | .call rt a => a.toOp ctx rt
  | .text rt a => do a.toOp ctx (← observe (·.runtimeOperand ctx rt))
  | .buffer rt a => do a.toOp ctx (← observe (·.runtimeOperand ctx rt))
  | .thread rt a => a.toOp ctx rt
  | .host a => a.toOp ctx

end ObjectKernel
