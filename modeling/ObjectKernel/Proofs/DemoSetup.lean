import ObjectKernel.Proofs.ClassEntries
import ObjectKernel.Proofs.DemoWorkers

/-!
# What the main program makes

Before it starts anything the main program is alone, and makes the shared runtime, the class of the workers, the
shared buffer, the workers and the greeter. Since nobody else is there it knows the world after each of its steps.
With the last variable that it binds it becomes one of several tasks: the others have not begun.

## Contents

* `Demo.Plan.alone_observe`, `alone_perform`: what a program does that has the world to itself.
* `Demo.Plan.Opened`: the shared runtime is there. `Demo.Plan.runs_defineWorker`: the class of the workers.
* `Demo.Plan.Ready`: the shared buffer and the first workers are there. `Demo.Plan.runs_preparation`,
  `runs_makeWorker`: they are made.
* `Demo.Plan.Starting`: the first threads are started. `Demo.Plan.runs_makeGreeter`: none is yet.
-/

namespace ObjectKernel

open Builtin

namespace World

variable {w v : World} {home : RuntimeId} {p : ObjId} {c : Class} {target : Option ObjId}

/-- An object without a class can be initialised as an instance of a thread class. -/
theorem initThread_unbound (hc : c.isSubclassOf (threadClass home)) (hnone : w.classOf? p = none)
    (target : Option ObjId) : ∃ v, w.initThread home (some p) (some c) target = .ok v := by
  unfold initThread
  simp only [hc, Bool.not_true, Bool.false_eq_true, if_false, construct, hnone]
  exact ⟨_, rfl⟩

end World

namespace Demo.Plan

open World Protocol

variable {d : Plan} {acc : Ledger} {E : Part → Outcome → Prop} {S : Part → World → ObjId → Prop} {id : TaskId}
  {w u v : World} {X : Stop → Part → World → Prop} {i : Instr} {x : Name} {Q : Unit → Part → World → Prop}
  {rt : Runtime} {y : Value} {o : ObjId} {t : Thread}

/-! ## Alone -/

/-- The main program reads the world that it has to itself. -/
theorem alone_observe {α : Type} {f} {Q : α → Part → World → Prop} (h : Q (f u) (.alone u) u) :
    (d.pact E).Runs S id (.alone u) w (Op.observe f) Q X := by
  refine .observe fun v _ hk => ?_
  cases knows_alone hk
  exact h

/-- It changes that world. -/
theorem alone_perform (hprints : i.prints = []) {y} (hexec : i.exec id u = (y, v))
    {Q : i.Answer → Part → World → Prop} (h : u.Next v → Q y (.alone v) v) :
    (d.pact E).Runs S id (.alone u) w (Op.perform i) Q X := by
  refine .perform fun u' _ hk hnext => ?_
  cases knows_alone hk
  rw [hexec] at hnext ⊢
  have hacts : (d.pact E).Acts id (.alone u) u i (.alone (i.exec id u).2) := acts_alone hprints
  rw [hexec] at hacts
  exact ⟨_, hacts, h hnext⟩

theorem alone_assign
    (h : u.Next (u.edit (.assign none x y)) → Q () (.alone (u.edit (.assign none x y))) (u.edit (.assign none x y))) :
    (d.pact E).Runs S id (.alone u) w (Op.edit (.assign none x y)) Q X := alone_perform rfl rfl h

theorem alone_needThread (ht : u.thread? (u.header o) = some t) {Q : ObjId → Part → World → Prop}
    (h : Q (u.header o) (.alone u) u) : (d.pact E).Runs S id (.alone u) w (Op.needThread (some o)) Q X := by
  refine .needThread fun v _ hk => ?_
  cases knows_alone hk
  exact ⟨t, ht, h⟩

/-- It initialises a thread. -/
theorem alone_initThread {c : Class} {target home} (hc : c.isSubclassOf (threadClass home))
    (hnone : u.classOf? o = none) (hs : u.Sound) (ht : u.thread? (u.header o) = some t)
    (h : ∀ v number name, (Instr.initThread home (some o) (some c) target).exec id u = (.ok (), v) → u.Next v →
      v.objects.size = u.objects.size → v.classOf? o = some c →
      v.thread? (u.header o) = some { t with home, self := some o, target, id := number, name, ended := false } →
      Q () (.alone v) v) :
    (d.pact E).Runs S id (.alone u) w (Op.initThread (some home) (some o) (some c) target) Q X := by
  obtain ⟨v, hv⟩ := initThread_unbound hc hnone target
  have hexec : (Instr.initThread home (some o) (some c) target).exec id u = (.ok (), v) := by
    show u.attempt (u.initThread home (some o) (some c) target) = _
    rw [hv]
    rfl
  refine .bind (alone_perform rfl hexec fun hnext => .pure ?_)
  obtain ⟨p, number, name, hp, hthread, -⟩ := initThread_thread hs hv
  cases hp
  refine h v number name hexec hnext ?_ (classOf?_initThread hnext.later ht hv) ?_
  · obtain ⟨_, _, -, -, -, rfl⟩ := initThread_eq hv
    exact Array.size_modify.trans Array.size_modify
  · rw [hthread, if_pos rfl, ht]
    rfl

/-- Where the steps of the main program stand. -/
def stage (d : Plan) : Context := { home := some d.home }

/-! ## The shared runtime -/

/-- The shared runtime is there, has started no threads, and an account is right. -/
structure Opened (d : Plan) (acc : Ledger) (u : World) : Prop where
  sound : u.Sound
  has : u.Has d.home
  config : u.config d.home = d.config
  sharing : u.globalRuntime = some d.home
  started : u.startedThreads d.home = []
  books : u.Books d.home acc

theorem Opened.exec (h : d.Opened acc u) {y} (hexec : i.exec id u = (y, v)) (hnext : u.Next v)
    (hi : i.isReserved = false) (hbinds : i.binds id = none) : d.Opened acc v := by
  obtain rfl : (i.exec id u).2 = v := congrArg Prod.snd hexec
  exact
    { sound := hnext.sound
      has := h.has.later hnext.later
      config := (config_later hnext.later h.has).trans h.config
      sharing := (Instr.exec_globalRuntime id u (fun _ => Instr.ne_of_isReserved hi rfl)
        (Instr.ne_of_isReserved hi rfl)).trans h.sharing
      started := (Instr.exec_started id u (fun _ => Instr.ne_of_isReserved hi rfl) d.home h.has).2.trans h.started
      books := h.books.exec hi (by simp [hbinds]) }

/-- The shared runtime is made, if the settings are valid. -/
theorem initGlobal_cases (h : w.globalRuntime = none) (c : Config) :
    (∃ e v, c.validate ≠ .ok () ∧ w.initGlobal (some c) = (.error e, v) ∧ v.globalRuntime = none ∧
      v.runtimes = w.runtimes) ∨
    ∃ v rt, c.validate = .ok () ∧ w.initGlobal (some c) = (.ok (), v) ∧ v.globalRuntime = some w.runtimes.size ∧
      v.objects = w.objects ∧ v.runtime? w.runtimes.size = some rt ∧ rt.config = c ∧ rt.selectors = .initial ∧
      rt.classes = builtinClasses w.runtimes.size ∧ rt.registry = {} ∧ rt.barriers = 0 ∧ v.files = w.files ∧
      v.tasks = w.tasks := by
  unfold initGlobal
  rw [h]
  dsimp only [Option.getD_some]
  unfold newRuntime
  cases hvalid : c.validate with
  | error e =>
    simp only [Option.getD_some, hvalid]
    exact .inl ⟨e, _, nofun, rfl, rfl, rfl⟩
  | ok _ =>
    simp only [Option.getD_some, hvalid]
    exact .inr ⟨_, _, trivial, rfl, rfl, rfl, Array.getElem?_push_size, rfl, rfl, rfl, rfl, rfl, rfl,
      rfl⟩

/-- What `run()` of the workers is. -/
def runMethod (d : Plan) : Method where
  name := Builtin.signature Selector.run
  arity := 0
  code := .script d.home (workerBody d.rounds)

/-- The class of the workers is built, from a reserved name on. -/
theorem runs_buildWorker (hu : d.Opened acc u) (hrt : u.runtime? d.home = some rt)
    (hselectors : rt.selectors = .initial) (hentry : u.entryOf? (d.home, "demo.Worker") = some .building) {init}
    (hinit : init = fun table => do
      Op.addMethods d.home table [({ key := .number Selector.run, arity := 0 }, workerBody d.rounds)]
      Op.insist do
        let _ ← stepsToOp d.stage [])
    (h : ∀ v, d.Opened acc v → v.objects = u.objects → v.entryOf? (d.home, "demo.Worker") = some (.defined d.cls) →
      Q () (.alone v) v) : (d.pact E).Runs S id (.alone u) u
      (Op.buildClass d.home "demo.Worker" (some (threadClass d.home)) init) Q X := by
  subst hinit
  let n := u.tables.size
  let u₁ : World := { u with tables := u.tables.push { home := d.home } }
  have hexec₁ : (Instr.newTable d.home).exec id u = (n, u₁) := rfl
  refine .bind (alone_perform rfl hexec₁ fun hnext₁ => .bind (.guard (.bind (.bind (.bind (.bind (alone_observe ?_)))))))
  have hopened₁ := hu.exec hexec₁ hnext₁ rfl rfl
  have htable : u₁.tables[n]? = some { home := d.home } := Array.getElem?_push_size
  rw [htable]
  -- Its one method is named as the selector is.
  let u₂ : World := { u₁ with tables := u₁.tables.modify n (·.add Selector.run d.runMethod) }
  have hexec₂ : (Instr.addMethod n Selector.run 0 (.script d.home (workerBody d.rounds))).exec id u₁ =
      (.ok (), u₂) := by
    show u₁.attempt (u₁.addMethod ..) = _
    have hname : (u₁.selectors d.home).name Selector.run = signature Selector.run := by
      have hrt₁ : u₁.runtime? d.home = some rt := hrt
      unfold selectors
      rw [hrt₁]
      dsimp only
      rw [hselectors]
      rfl
    unfold World.addMethod
    rw [htable]
    dsimp only
    rw [hname]
    rfl
  refine .bind (.pure (.bind (alone_perform rfl hexec₂ fun hnext₂ => .bind (.pure (.pure (.pure ?_))))))
  have hopened₂ := hopened₁.exec hexec₂ hnext₂ rfl rfl
  refine .bind (.result (.bind (.steps_nil (.pure (.pure ?_)))))
  -- The table makes a class.
  let u₃ : World := (u₂.completeTable n).settleClass d.home "demo.Worker" (.defined d.cls)
  have hexec₃ : (Instr.completeClass d.home "demo.Worker" (some (threadClass d.home)) n).exec id u₂ =
      (.ok d.cls, u₃) := by
    show u₂.completeClass .. = _
    have htable₃ : (u₂.completeTable n).tables[n]? =
        some { home := d.home, methods := [(Selector.run, d.runMethod)], complete := true } := by
      have htables : (u₂.completeTable n).tables =
          (u₁.tables.modify n (·.add Selector.run d.runMethod)).modify n fun t => { t with complete := true } := rfl
      rw [htables, Array.getElem?_modify, if_pos rfl, Array.getElem?_modify, if_pos rfl, htable]
      rfl
    unfold World.completeClass
    dsimp only
    rw [htable₃]
    rfl
  refine .bind (alone_perform rfl hexec₃ fun hnext₃ => .bind (.pure (.pure (.pure ?_))))
  refine h u₃ (hopened₂.exec hexec₃ hnext₃ rfl rfl) rfl (entryOf?_settleClass_self ?_ _)
  rw [entryOf?_completeTable]
  exact hentry

/-- The class of the workers is defined. -/
theorem runs_defineWorker (hu : d.Opened acc u) (hrt : u.runtime? d.home = some rt)
    (hselectors : rt.selectors = .initial) (hclasses : rt.classes = builtinClasses d.home) {rest}
    {Q : Flow → Part → World → Prop}
    (h : ∀ v, d.Opened acc v → v.objects = u.objects → (v.classes d.home).get? "demo.Worker" = some d.cls →
      (d.pact E).Runs S id (.alone v) v (stepsToOp d.stage rest) Q X) :
    (d.pact E).Runs S id (.alone u) u (stepsToOp d.stage (defineWorker d.rounds :: rest)) Q X := by
  refine .step (by rw [defineWorker, Step.toOp]) rfl ?_
  refine .bind (alone_observe (.bind ?_))
  -- The superclass is the class of threads.
  have hthread : (u.classes d.home).get? "java.lang.Thread" = some (threadClass d.home) := by
    rw [classes_eq hrt, hclasses]
    rfl
  refine .bind (alone_observe (.bind (.pure (alone_observe ?_))))
  rw [hthread]
  -- The name is free.
  have hfree : u.entryOf? (d.home, "demo.Worker") = none := by
    rw [entryOf?_eq hrt, hclasses]
    rfl
  let u₁ := u.modifyRuntime d.home fun r => { r with classes := r.classes.reserve "demo.Worker" }
  have hexec₁ : (Instr.reserveClass d.home "demo.Worker").exec id u = (true, u₁) := reserveClass_free hfree
  have hentry : u₁.entryOf? (d.home, "demo.Worker") = some .building := by
    have hself := entryOf?_reserveClass_self hu.has hfree
    rwa [reserveClass_free hfree] at hself
  have hrt₁ : u₁.runtime? d.home = some { rt with classes := rt.classes.reserve "demo.Worker" } := by
    show (u.modifyRuntime ..).runtime? d.home = _
    rw [runtime?_modifyRuntime, if_pos rfl, hrt]
    rfl
  refine .bind (.bind (.pure (.bind (alone_perform rfl hexec₁ fun hnext₁ => .bind (alone_observe ?_)))))
  have haccept : (u₁.classes d.home).accept "demo.Worker" (some (threadClass d.home)) =
      .ok (some (threadClass d.home)) := by
    unfold ClassTable.accept
    dsimp only
    have hsame : Class.isSame? ((u₁.classes d.home).get? "java.lang.Thread") (some (threadClass d.home)) := by
      rw [getClass_later hnext₁.later hthread]
      exact beq_self_eq_true _
    exact if_pos hsame
  rw [haccept]
  refine .bind (runs_buildWorker (hu.exec hexec₁ hnext₁ rfl rfl) hrt₁ hselectors hentry rfl
    fun v hv hobjects hdefined => .bind (alone_observe ?_))
  rw [show (v.classes d.home).entries.get? "demo.Worker" = some (.defined d.cls) from hdefined]
  have hanswer : ClassTable.answer "demo.Worker" (some (threadClass d.home)) (.defined d.cls) = .ok d.cls :=
    if_pos (.inr (beq_self_eq_true _))
  dsimp only
  rw [hanswer]
  exact .pure (.pure (.pure (h v hv hobjects (entryOf?_eq_defined.mp hdefined))))

/-! ## The workers -/

/-- A thread with a number as it is before it is started. -/
structure Unborn (d : Plan) (q : Nat) (t : Thread) : Prop where
  cast : d.Cast q t
  started : t.started = false
  ended : t.ended = false
  uncaught : t.uncaught = none

/-- The class of the workers, the shared buffer and the first workers are there, with these variables. -/
structure Ready (d : Plan) (acc : Ledger) (k : Nat) (g : Dictionary Name Value) (u : World) : Prop
    extends d.Opened acc u where
  room : Memory.hasRoom d.config.initialCapacity Memory.characterSize
  cls : (u.classes d.home).get? "demo.Worker" = some d.cls
  text : u.buffer? 0 = some (some d.home, .empty d.config.initialCapacity)
  globals : u.scene.globals = g
  shared : g.get? shared = some (.ofObject 0)
  named : ∀ q, q < k → g.get? (workerName q) = some (.ofObject (d.self q))
  wrapper : ∀ q, q < k → ∃ obj, u.object? (d.self q) = some obj ∧ obj.payload = .extended (d.thr q)
  worker : ∀ q, q < k → u.classOf? (d.self q) = some d.cls
  thread : ∀ q, q < k → ∃ t, u.thread? (d.thr q) = some t ∧ d.Unborn q t

variable {k : Nat} {g : Dictionary Name Value}

/-- What is there stays. -/
theorem Ready.exec (h : d.Ready acc k g u) {y} (hexec : i.exec id u = (y, v)) (hnext : u.Next v)
    (hsubject : ∀ q, q < k → i.subject? ≠ some (d.thr q)) (hassign : ∀ scope x z, i ≠ .edit (.assign scope x z))
    (happend : ∀ cs, i ≠ .append 0 cs) (hi : i.isReserved = false) (hbinds : i.binds id = none) :
    d.Ready acc k g v := by
  have hopened := h.toOpened.exec hexec hnext hi hbinds
  obtain rfl : (i.exec id u).2 = v := congrArg Prod.snd hexec
  refine { hopened with
    room := h.room
    cls := getClass_later hnext.later h.cls
    text := Instr.exec_buffer_of_ne id h.text happend
    globals := (Instr.exec_globals id u fun scope x z hi => absurd hi (hassign scope x z)).trans h.globals
    shared := h.shared
    named := h.named
    wrapper := fun q hq => wrapper_later hnext.later (h.wrapper q hq)
    worker := fun q hq => classOf?_later hnext.later (h.worker q hq)
    thread := fun q hq => ?_ }
  obtain ⟨t, ht, hunborn⟩ := h.thread q hq
  exact ⟨t, Instr.exec_thread h.sound ht hunborn.cast.home_isSome (hsubject q hq) id, hunborn⟩

theorem Ready.quiet (h : d.Ready acc k g u) {y} (hexec : i.exec id u = (y, v)) (hnext : u.Next v) (hi : i.isQuiet)
    (hbinds : i.binds id = none) : d.Ready acc k g v := by
  have hne {j : Instr} (hj : j.isQuiet = false) : i ≠ j := Instr.ne_of_isQuiet hi hj
  refine h.exec hexec hnext (fun q _ => ?_) (fun _ _ _ => hne rfl) (fun _ => hne rfl)
    (Instr.isReserved_of_isQuiet hi) hbinds
  rw [Instr.subject?_of_isQuiet hi]
  nofun

/-- Another variable is bound. -/
theorem Ready.assign (h : d.Ready acc k g u) (hshared : Demo.shared ≠ x) (hworker : ∀ q, workerName q ≠ x ∨ k ≤ q)
    (y : Value) (hnext : u.Next (u.edit (.assign none x y))) :
    d.Ready acc k (g.insert x y) (u.edit (.assign none x y)) := by
  have hexec : (Instr.edit (.assign none x y)).exec 0 u = ((), u.edit (.assign none x y)) := rfl
  exact { h.toOpened.exec hexec hnext rfl rfl with
    room := h.room
    cls := h.cls
    text := h.text
    globals := congrArg (·.insert x y) h.globals
    shared := (Dictionary.get?_insert_of_ne g y hshared).trans h.shared
    named := fun q hq => (Dictionary.get?_insert_of_ne g y
      ((hworker q).resolve_right (Nat.not_le_of_lt hq))).trans (h.named q hq)
    wrapper := h.wrapper
    worker := h.worker
    thread := h.thread }

/-- The next worker is there. -/
theorem Ready.next (h : d.Ready acc k g u) (hname : g.get? (workerName k) = some (.ofObject (d.self k)))
    (hwrapper : ∃ obj, u.object? (d.self k) = some obj ∧ obj.payload = .extended (d.thr k))
    (hworker : u.classOf? (d.self k) = some d.cls) (hthread : ∃ t, u.thread? (d.thr k) = some t ∧ d.Unborn k t) :
    d.Ready acc (k + 1) g u := by
  have hall {M : Nat → Prop} (hold : ∀ q, q < k → M q) (hnew : M k) (q : Nat) (hq : q < k + 1) : M q := by
    rcases Nat.lt_succ_iff_lt_or_eq.mp hq with hlt | rfl
    · exact hold q hlt
    · exact hnew
  exact { h with
    named := hall h.named hname
    wrapper := hall h.wrapper hwrapper
    worker := hall h.worker hworker
    thread := hall h.thread hthread }

theorem workerName_inj {p q} (h : workerName p = workerName q) : p = q :=
  Bytes.ofNat_inj (List.append_cancel_left h)

theorem isSubclassOf_cls (d : Plan) : d.cls.isSubclassOf (threadClass d.home) :=
  List.any_eq_true.mpr ⟨threadClass d.home, .tail _ (.head _), beq_self_eq_true _⟩

/-- The value of a global variable, from the main program. -/
theorem lookup_global (h : u.scene.globals.get? x = some y) : u.scene.lookup none x = y := by
  show (u.scene.globals.get? x).getD .null = y
  rw [h]
  rfl

theorem shared_ne_workerName (k : Nat) : shared ≠ workerName k := by
  intro h
  have hsecond : shared[1]? = (workerName k)[1]? := congrArg (fun b : Bytes => b[1]?) h
  cases hsecond

/-- A worker is made. -/
theorem runs_makeWorker (hk : k < d.workers) (hr : d.Ready acc k g u) (hsize : u.objects.size = 2 * k + 1) :
    (d.pact E).Runs S id (.alone u) u (stepsToOp d.stage (makeWorker k))
      (fun flow b v => flow = .proceed ∧ ∃ g', b = .alone v ∧ d.Ready acc (k + 1) g' v ∧
        v.objects.size = 2 * (k + 1) + 1) X := by
  have hthr : d.thr k = 2 * k + 1 := if_pos hk
  -- It is allocated, with its thread, and kept in a variable.
  let u₁ : World := { u with objects := u.objects.push { payload := .thread {} } }
  let u₂ : World := { u₁ with objects := u₁.objects.push { payload := .extended u.objects.size } }
  let u₃ : World := u₂.edit (.assign none (workerName k) (.ofObject u₁.objects.size))
  have hself : u₁.objects.size = d.self k := (Array.size_push _).trans (by rw [hsize]; rfl)
  have hexec₁ : (Instr.allocate (.thread {})).exec id u = (u.objects.size, u₁) := rfl
  have hexec₂ : (Instr.allocate (.extended u.objects.size)).exec id u₁ = (u₁.objects.size, u₂) := rfl
  refine .keep (.bind (.bind (alone_perform rfl hexec₁ fun hnext₁ => alone_perform rfl hexec₂ fun hnext₂ => ?_)))
  refine .bind (alone_observe (.pure ⟨_, rfl, alone_assign fun hnext₃ => ?_⟩))
  let g' := g.insert (workerName k) (.ofObject u₁.objects.size)
  have hr₃ : d.Ready acc k g' u₃ :=
    ((hr.quiet hexec₁ hnext₁ rfl rfl).quiet hexec₂ hnext₂ rfl rfl).assign (shared_ne_workerName k)
      (fun q => or_iff_not_imp_left.mpr fun h => (workerName_inj (not_not.mp h)).ge) _ hnext₃
  have hname {v : World} (hv : d.Ready acc k g' v) :
      v.objectOperand d.stage (some (workerName k)) = some (d.self k) := by
    rw [← hself]
    refine congrArg Value.asObject (lookup_global (y := .ofObject u₁.objects.size) ?_)
    rw [hv.globals]
    exact Dictionary.get?_insert_self ..
  have hobject : u₃.object? u₁.objects.size = some { payload := .extended u.objects.size } := Array.getElem?_push_size
  have hpart : u₃.object? u.objects.size = some { payload := .thread {} } :=
    getElem?_push_of_some Array.getElem?_push_size
  have hheader : u₃.header (d.self k) = d.thr k := by
    unfold header
    rw [← hself, hobject, hthr, ← hsize]
  have hthread : u₃.thread? (d.thr k) = some {} := by
    unfold thread?
    rw [hthr, ← hsize, hpart]
  have hnone : u₃.classOf? (d.self k) = none := by
    unfold classOf?
    rw [hheader, hthr, ← hsize, hpart]
    rfl
  -- It becomes a worker.
  refine .act (.bind (alone_observe ?_))
  rw [hname hr₃]
  refine .bind (alone_needThread (hheader ▸ hthread) (.bind (alone_observe (.bind (.bind (alone_observe ?_))))))
  refine .bind (.pure (alone_observe ?_))
  rw [hr₃.cls]
  refine .bind (alone_initThread d.isSubclassOf_cls hnone hr₃.sound (hheader ▸ hthread) ?_)
  intro u₄ number name hexec₄ hnext₄ hsize₄ hclass₄ hthread₄
  rw [hheader] at hthread₄
  have hr₄ := hr₃.quiet hexec₄ hnext₄ rfl rfl
  -- It gets its name.
  refine .pure (.act (.bind (alone_observe ?_)))
  rw [hname hr₄]
  have hheader₄ : u₄.header (d.self k) = d.thr k := by
    rw [← hself] at hheader ⊢
    exact (header_later hnext₄.later hobject).trans hheader
  refine .bind (alone_needThread (hheader₄ ▸ hthread₄) ?_)
  rw [hheader₄]
  let u₅ : World := u₄.rename (d.thr k) ("worker-" ++ Bytes.ofNat k)
  have hexec₅ : (Instr.rename (d.thr k) ("worker-" ++ Bytes.ofNat k)).exec id u₄ = ((), u₅) := rfl
  refine .bind (alone_perform rfl hexec₅ fun hnext₅ => .pure (.steps_nil ⟨rfl, g', rfl, ?_, ?_⟩))
  · have hr₅ : d.Ready acc k g' u₅ := by
      refine hr₄.exec hexec₅ hnext₅ (fun q hq h => ?_) nofun nofun rfl rfl
      have hqk := thr_inj (Nat.le_of_lt hk) (by omega) (Option.some.inj h)
      omega
    have hwrapper : ∃ obj, u₃.object? (d.self k) = some obj ∧ obj.payload = .extended (d.thr k) := by
      rw [← hself, hthr, ← hsize]
      exact ⟨_, hobject, rfl⟩
    refine hr₅.next ?_ (wrapper_later (hnext₄.trans hnext₅).later hwrapper) (classOf?_later hnext₅.later hclass₄)
      ⟨_, thread?_modify hthread₄ _, ?_⟩
    · rw [← hself]
      exact Dictionary.get?_insert_self ..
    · exact ⟨⟨rfl, rfl, fun h => absurd h (Nat.ne_of_lt hk), fun _ => rfl, rfl⟩, rfl, rfl, rfl⟩
  · have hsize₅ : u₅.objects.size = u₄.objects.size := Array.size_modify
    have hsize₃ : u₃.objects.size = u₁.objects.size + 1 := Array.size_push _
    rw [hsize₅, hsize₄, hsize₃, hself]
    rfl

/-- Before it makes the workers the main program makes their class and the shared buffer, if there is room for
that. -/
theorem runs_preparation (hu : d.Opened acc u) (hrt : u.runtime? d.home = some rt)
    (hselectors : rt.selectors = .initial) (hclasses : rt.classes = builtinClasses d.home)
    (hobjects : u.objects = #[]) {Q : Flow → Part → World → Prop}
    (hQ : ∀ g v, d.Ready acc 0 g v → v.objects.size = 1 → Q .proceed (.alone v) v)
    (hX : ∀ p v, ¬ d.Roomy → d.Opened acc v → X (.panic p) (.alone v) v) :
    (d.pact E).Runs S id (.alone u) u (stepsToOp d.stage (preparation d.rounds)) Q X := by
  refine runs_defineWorker hu hrt hselectors hclasses fun u₁ hu₁ hobjects₁ hcls => ?_
  refine .keep (.bind (alone_observe (.bind (.bind (.pure (.bind ?_))))))
  have hempty : u₁.objects.size = 0 := by rw [hobjects₁, hobjects]; rfl
  by_cases hroom : Memory.hasRoom d.config.initialCapacity Memory.characterSize
  · obtain ⟨u₂, hexec₂, hbuffer, hsize⟩ := exec_newBuffer id hu₁.config hroom
    rw [hempty] at hexec₂ hbuffer hsize
    refine alone_perform rfl hexec₂ fun hnext₂ => .pure (.bind (alone_observe (.pure ⟨_, rfl, ?_⟩)))
    have hopened := hu₁.exec hexec₂ hnext₂ rfl rfl
    refine alone_assign fun hnext₃ => .steps_nil (hQ (u₂.scene.globals.insert shared (.ofObject 0)) _ ?_ hsize)
    have hexec₃ : (Instr.edit (.assign none shared (.ofObject 0))).exec id u₂ = ((), _) := rfl
    exact { hopened.exec hexec₃ hnext₃ rfl rfl with
      room := hroom
      cls := getClass_later (hnext₂.trans hnext₃).later hcls
      text := hbuffer
      globals := rfl
      shared := Dictionary.get?_insert_self ..
      named := fun q hq => absurd hq (Nat.not_lt_zero q)
      wrapper := fun q hq => absurd hq (Nat.not_lt_zero q)
      worker := fun q hq => absurd hq (Nat.not_lt_zero q)
      thread := fun q hq => absurd hq (Nat.not_lt_zero q) }
  · have hexec₂ : (Instr.newBuffer d.home).exec id u₁ = (.error (.defect .tooManyPlaces), u₁) := by
      have hnew : u₁.newBuffer d.home = .error (.defect .tooManyPlaces) := by
        unfold World.newBuffer
        rw [hu₁.config]
        exact if_neg hroom
      show u₁.attemptResult (u₁.newBuffer d.home) = _
      rw [hnew]
      rfl
    exact alone_perform rfl hexec₂ fun _ => .panic (hX _ _ (fun h => hroom h.buffers) hu₁)

/-! ## The greeter -/

/-- The variables of the main program once everything is made. -/
structure Named (d : Plan) (g : Dictionary Name Value) : Prop where
  worker : ∀ q, q < d.workers → g.get? (workerName q) = some (.ofObject (d.self q))
  greeter : g.get? "greeter" = some (.ofObject (d.self d.workers))

/-- The main program as it is when it has started the first threads. -/
structure Starting (d : Plan) (acc : Ledger) (k : Nat) (m : Lead) : Prop where
  begun : m.begun = k
  named : d.Named m.globals
  unborn : ∀ q, k ≤ q → q ≤ d.workers → d.Unborn q (m.held q)
  joined : m.joined = []
  enrolled : m.enrolled = (List.range k).map d.thr
  sharing : m.sharing = some d.home
  ledger : m.ledger = acc
  shown : m.shown = []
  settled : m.settled = false

theorem workerName_ne (hx : isGlobalName x = false) (q : Nat) : workerName q ≠ x := by
  rintro rfl
  cases hx

theorem shared_ne (hx : isGlobalName x = false) : shared ≠ x := by
  rintro rfl
  cases hx

/-- With the greeter everything is made, and from then on the main program is one of several tasks. -/
theorem Ready.concord (h : d.Ready acc d.workers g u)
    (hgreeter : u.classOf? (d.self d.workers) = some (threadClass d.home))
    (hitem : u.runnable? d.greeting = some (some (.script d.home greeterBody)))
    (hitemClass : u.classOf? d.greeting = some (runnableClass d.home))
    (hname : g.get? "greeter" = some (.ofObject (d.self d.workers)))
    (hthread : ∃ t, u.thread? (d.thr d.workers) = some t ∧ d.Unborn d.workers t) :
    ∃ m σ, d.Starting acc 0 m ∧ d.Concord m σ [] u := by
  have hall (q : Nat) (hq : q ≤ d.workers) : ∃ t, u.thread? (d.thr q) = some t ∧ d.Unborn q t := by
    rcases Nat.lt_or_eq_of_le hq with hlt | rfl
    · exact h.thread q hlt
    · exact hthread
  have hheld (q : Nat) (hq : q ≤ d.workers) :
      u.thread? (d.thr q) = some ((u.thread? (d.thr q)).getD {}) ∧ d.Unborn q ((u.thread? (d.thr q)).getD {}) := by
    obtain ⟨t, ht, hunborn⟩ := hall q hq
    rw [ht]
    exact ⟨rfl, hunborn⟩
  let m : Lead := { globals := g, held := fun q => (u.thread? (d.thr q)).getD {}, sharing := some d.home, ledger := acc }
  refine ⟨m, fun _ => { thread := {}, task := 0 },
    ⟨rfl, ⟨h.named, hname⟩, fun q _ hq => (hheld q hq).2, rfl, rfl, rfl, rfl, rfl, rfl⟩, ?_⟩
  have hnobody {M : Nat → Prop} (q : Nat) (hq : q < m.begun) : M q := absurd hq (Nat.not_lt_zero q)
  exact
    { set := ⟨h.has, h.config, h.room, h.wrapper, h.worker, hgreeter, hitem, hitemClass⟩
      leads := ⟨h.globals, h.shared, h.sharing, h.started, h.books, Nat.zero_le _,
        fun q _ hq => ⟨(hheld q hq).1, (hheld q hq).2.cast⟩⟩
      joined := nofun
      settled := nofun
      tasks := fun _ => hnobody
      holds := hnobody
      proper := hnobody
      scopes := fun hp => absurd hp (Nat.not_lt_zero _)
      lines := fun hp => absurd hp (Nat.not_lt_zero _)
      aside := hnobody
      shuffle := shuffle_nil
      text := ⟨_, h.text, Buffer.fed_empty d.config⟩ }

theorem isSubclassOf_self (c : Class) : c.isSubclassOf c := by
  refine List.any_eq_true.mpr ⟨c, ?_, beq_self_eq_true _⟩
  cases c <;> exact .head _

/-- The greeter is made. -/
theorem runs_makeGreeter (hr : d.Ready acc d.workers g u) (hsize : u.objects.size = d.greeting) :
    (d.pact E).Runs S id (.alone u) u (stepsToOp d.stage
        [.newRunnable none (some greeterBody) { target := some "greeting" },
         keep "greeter" (.thread none (.create (some "greeting")))])
      (fun flow b _ => flow = .proceed ∧ ∃ m, b = .lead m ∧ d.Starting acc 0 m) X := by
  -- Its work item.
  let u₁ : World := (u.create (.runnable (some (.script d.home greeterBody))) (runnableClass d.home)).2
  have hcreate := create_eq u (p := .runnable (some (.script d.home greeterBody))) nofun (runnableClass d.home)
  have hexec₁ : (Instr.create (.runnable (some (.script d.home greeterBody))) (runnableClass d.home)).exec id u =
      (d.greeting, u₁) := Prod.ext ((congrArg Prod.fst hcreate).trans hsize) rfl
  refine .kept (by rw [Step.toOp]) ?_
  refine .bind (alone_observe (.bind (.pure (.bind (.bind (.pure (alone_perform rfl hexec₁ fun hnext₁ => ?_)))))))
  refine .bind (alone_observe (.pure ⟨_, rfl, alone_assign fun hnext₂ => ?_⟩))
  let u₂ : World := u₁.edit (.assign none "greeting" (.ofObject d.greeting))
  have hr₂ : d.Ready acc d.workers (g.insert "greeting" (.ofObject d.greeting)) u₂ :=
    (hr.quiet hexec₁ hnext₁ rfl rfl).assign (shared_ne rfl) (fun q => .inl (workerName_ne rfl q)) _ hnext₂
  let item : Obj :=
    { cls := some (runnableClass d.home)
      hash := u.constructed + 1
      payload := .runnable (some (.script d.home greeterBody)) }
  have hobjects₂ : u₂.objects = u.objects.push item := congrArg (fun r : ObjId × World => r.2.objects) hcreate
  have hobject₂ : u₂.object? d.greeting = some item := by
    unfold object?
    rw [hobjects₂, ← hsize]
    exact Array.getElem?_push_size
  have hitem : u₂.runnable? d.greeting = some (some (.script d.home greeterBody)) :=
    runnable?_eq_some.mpr ⟨_, hobject₂, rfl⟩
  have hitemClass : u₂.classOf? d.greeting = some (runnableClass d.home) :=
    classOf?_of_object? hobject₂ fun _ h => by cases h
  -- Its thread.
  have htarget : u₂.objectOperand d.stage (some "greeting") = some d.greeting := by
    refine congrArg Value.asObject (lookup_global (y := .ofObject d.greeting) ?_)
    rw [hr₂.globals]
    exact Dictionary.get?_insert_self ..
  have hself : u₂.objects.size = d.self d.workers := by
    rw [hobjects₂, Array.size_push, hsize]
    rfl
  let u₃ : World := { u₂ with objects := u₂.objects.push { payload := .thread {} } }
  have hexec₃ : (Instr.allocate (.thread {})).exec id u₂ = (u₂.objects.size, u₃) := rfl
  refine .keep (.bind (alone_observe ?_))
  rw [htarget]
  refine .bind (.bind (.pure (.bind (alone_perform rfl hexec₃ fun hnext₃ => .bind (.result ?_)))))
  have hobject₃ : u₃.object? u₂.objects.size = some { payload := .thread {} } := Array.getElem?_push_size
  have hplain₃ : u₃.thread? u₂.objects.size = some {} := thread?_eq_some.mpr ⟨_, hobject₃, rfl⟩
  have hheader₃ := header_of_thread? hplain₃
  have hthread₃ : u₃.thread? (u₃.header u₂.objects.size) = some {} := by
    rw [hheader₃]
    exact hplain₃
  have hnone₃ : u₃.classOf? u₂.objects.size = none := classOf?_of_object? hobject₃ fun _ h => by cases h
  have hr₃ := hr₂.quiet hexec₃ hnext₃ rfl rfl
  refine alone_initThread (isSubclassOf_self _) hnone₃ hr₃.sound hthread₃ ?_
  intro u₄ number name hexec₄ hnext₄ _ hclass₄ hthread₄
  rw [hheader₃] at hthread₄
  have hr₄ := hr₃.quiet hexec₄ hnext₄ rfl rfl
  have hlater₄ := (hnext₃.trans hnext₄).later
  -- With the last variable it is one of several tasks.
  refine .pure (.bind (alone_observe (.pure ⟨_, rfl, .perform fun v _ hk hnext₅ => ?_⟩)))
  cases knows_alone hk
  have hr₅ := hr₄.assign (x := "greeter") (shared_ne rfl) (fun q => .inl (workerName_ne rfl q))
    (.ofObject u₂.objects.size) hnext₅
  rw [hself] at hr₅ hclass₄ hthread₄
  have hthr : d.thr d.workers = d.self d.workers := if_neg (Nat.lt_irrefl _)
  have hunborn : d.Unborn d.workers
      { home := some d.home
        self := some (d.self d.workers)
        target := some d.greeting
        id := number
        name } :=
    ⟨⟨rfl, rfl, fun _ => rfl, fun h => absurd h (Nat.lt_irrefl _), rfl⟩, rfl, rfl, rfl⟩
  have hlater₅ := hlater₄.trans hnext₅.later
  have hclass₅ := classOf?_later hnext₅.later hclass₄
  have hitem₅ := runnable?_later hlater₅ hitem
  have hitemClass₅ := classOf?_later hlater₅ hitemClass
  obtain ⟨m, σ, hstarting, hc⟩ := hr₅.concord hclass₅ hitem₅ hitemClass₅ (Dictionary.get?_insert_self ..)
    ⟨_, hthr ▸ hthread₄, hunborn⟩
  rw [← hself] at hc
  exact ⟨.lead m, acts_found rfl hstarting.begun hstarting.shown hc, .steps_nil ⟨rfl, m, rfl, hstarting⟩⟩

end Demo.Plan

end ObjectKernel
