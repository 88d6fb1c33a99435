import ObjectKernel.Proofs.Lawful
import ObjectKernel.Operation.Builtins
import ObjectKernel.Operation.Classes

/-!
# The operations of the kernel are lawful

One instance for each operation, in the order in which the operations build on each other. The premises
of an operation are those of its text: a runtime that it is given has to exist, and a class that it is
given has to be the one that its runtime has. What an operation looks up in the state, such as the class
of a receiver or the runtime of a string, comes with its premise.

## Contents

* Needs, dispatch, strings and buffers, threads, the barrier, built-in methods, classes.
* `admits_find?`: dispatch finds only bodies that the world admits.
* `lawful_start`: a start carries its reservation through.
* `lawful_defineClass`: a definition is lawful if its initialiser is.
-/

namespace ObjectKernel.Op

variable {Γ : List Premise} {α : Type} {r : RuntimeId} {w : World} {superclass : Option Class} {c : Class}
  {name : Bytes}
variable (home : Option RuntimeId) (o : ObjId) (s : Selector) (self other : Option ObjId) (args : List Value)
  (bound : Option Expiry)

/-! ## Needs -/

theorem lawful_need_some {f : RuntimeId → Op α} (hf : Lawful Γ (f r)) : Lawful Γ (need (some r) >>= f) := ⟨hf.run⟩

/-- A runtime that had to be there is there. -/
theorem Lawful.need_bind {home : Option RuntimeId} {f : RuntimeId → Op α}
    [h : Follows Γ (.home home)] (hf : ∀ r, Lawful (.home (some r) :: Γ) (f r)) : Lawful Γ (need home >>= f) := by
  cases home with
  | none => exact lawful_defect _
  | some r => exact lawful_need_some ⟨fun hs hΓ => (hf r).run hs (.cons (h.holds hs hΓ) hΓ)⟩

instance (priority := high) lawful_need_bind {home : Option RuntimeId} {f : RuntimeId → Op α}
    [Follows Γ (.home home)] [hf : ∀ r, Lawful (.home (some r) :: Γ) (f r)] :
    Lawful Γ (need home >>= f) := .need_bind hf

instance lawful_need : Lawful Γ (need home) := by
  cases home with
  | none => exact lawful_defect _
  | some r => exact lawful_pure r

/-- A string that had to be one belongs to a runtime that exists. -/
theorem Lawful.needText_bind {o : Option ObjId} {f : RuntimeId × CharSeq → Op α}
    (hf : ∀ r s, Lawful (.home (some r) :: Γ) (f (r, s))) : Lawful Γ (needText o >>= f) := by
  cases o with
  | none => exact lawful_defect _
  | some o =>
    refine ⟨fun hs hΓ hk => .observe fun _ v hv => ?_⟩
    cases ht : v.text? o with
    | none =>
      simp only [ht]
      exact .finish _
    | some s =>
      simp only [ht]
      obtain ⟨obj, hobj, hp⟩ := World.text?_eq_some.mp ht
      have hsound := (hv.sound.object hobj).payload
      rw [hp] at hsound
      refine (hf s.1 s.2).run hv.sound (.cons (fun r hr => ?_) (hΓ.later hv.later)) fun r u hu =>
        hk r u (hv.trans hu)
      cases hr
      exact hsound

instance (priority := high) lawful_needText_bind {o : Option ObjId} {f : RuntimeId × CharSeq → Op α}
    [hf : ∀ s, Lawful (.home (some s.1) :: Γ) (f s)] : Lawful Γ (needText o >>= f) :=
  .needText_bind fun r s => hf (r, s)

/-! ## Dispatch -/

/-- The superclass of a class that is vouched for is vouched for. -/
theorem vouches_parent (hs : w.Sound) {p} (hc : w.Vouches c) (hp : c.parent? = some p) : w.Vouches p := by
  rcases (hs.placed hc).parent with hroot | ⟨q, hq, -, hv⟩
  · rw [hroot] at hp
    cases hp
  · rw [hp] at hq
    cases hq
    exact hv

/-- The body that a class has for a selector is admitted. -/
theorem admits_find? (hs : w.Sound) {owner s m} (hc : w.Vouches c) (h : c.find? s = some (owner, m)) :
    w.Admits m.code := by
  have hlocal {d : Class} (hd : w.Vouches d) {m : Method} (hm : d.findLocal? s = some m) :
      w.Admits m.code := (hs.placed hd).methods (s, m) (Dictionary.mem_of_get? hm)
  induction c with
  | root b =>
    obtain ⟨m', hm, heq⟩ := Option.map_eq_some_iff.mp h
    cases heq
    exact hlocal hc hm
  | extend b p ih =>
    simp only [Class.find?] at h
    split at h
    · cases h
      exact hlocal hc ‹_›
    · exact ih (vouches_parent hs hc rfl) h

instance lawful_receiverClass (op : Bytes) (o : Option ObjId) : Lawful Γ (receiverClass op o) := by
  cases o with
  | none => exact lawful_panic _
  | some o =>
    refine .bind inferInstance fun p => ?_
    split <;> infer_instance

/-- The class of a receiver is vouched for. -/
instance (priority := high) lawful_receiverClass_bind {op : Bytes} {o : Option ObjId}
    {f : Class → Op α} [hf : ∀ c, Lawful (.cls (some c) :: Γ) (f c)] :
    Lawful Γ (receiverClass op o >>= f) := by
  cases o with
  | none => exact lawful_panic _
  | some o =>
    refine ⟨fun hs hΓ hk => .observe fun _ v hv => ?_⟩
    cases hc : v.classOf? o with
    | none =>
      simp only [hc]
      exact .finish _
    | some c =>
      simp only [hc]
      refine (hf c).run hv.sound (.cons (fun d hd => ?_) (hΓ.later hv.later)) fun r u hu =>
        hk r u (hv.trans hu)
      cases hd
      obtain ⟨obj, hobj, hcls⟩ := Option.bind_eq_some_iff.mp hc
      exact (hv.sound.object hobj).cls c hcls

instance lawful_invokeFrom (c : Class) [h : Follows Γ (.cls (some c))] :
    Lawful Γ (invokeFrom home c s self args) := by
  unfold invokeFrom
  split
  · rename_i owner m hfind
    have hcall : Lawful Γ (call (.code m.code self args)) :=
      ⟨fun hs hΓ hk => .call (admits_find? hs (h.holds hs hΓ c rfl) hfind) hk⟩
    unfold invoke
    infer_instance
  · unfold noMethod
    infer_instance

instance lawful_dispatch (o : Option ObjId) : Lawful Γ (dispatch home o s args) := by
  unfold dispatch
  infer_instance

instance lawful_send (o : Option ObjId) (signature : Bytes) : Lawful Γ (send home o signature args) := by
  unfold send
  infer_instance

instance lawful_dispatchSuper (o : Option ObjId) (origin : Option Class) [h : Follows Γ (.cls origin)] :
    Lawful Γ (dispatchSuper home o origin s args) := by
  have hparent {c : Class} (hc : origin.bind Class.parent? = some c) : Follows Γ (.cls (some c)) := by
    refine ⟨fun hs hΓ d hd => ?_⟩
    cases hd
    obtain ⟨e, he, hp⟩ := Option.bind_eq_some_iff.mp hc
    exact vouches_parent hs (h.holds hs hΓ e he) hp
  unfold dispatchSuper
  refine .bind inferInstance fun _ => ?_
  split
  · infer_instance
  · rename_i c hc
    have := hparent hc
    infer_instance

/-! ## Strings and buffers -/

instance lawful_makeText (op : Bytes) (s : CharSeq) [Follows Γ (.home home)] : Lawful Γ (makeText home op s) := by
  unfold makeText
  infer_instance

instance lawful_newText (b : Bytes) [Follows Γ (.home home)] : Lawful Γ (newText home b) := lawful_makeText ..

/-- A new string spells its text. -/
theorem lawful_newText_bind {literal : Bytes} {g : Except Err ObjId → Op α} [h : Follows Γ (.home (some r))]
    (hok : ∀ o, Lawful (.text o r literal :: Γ) (g (.ok o))) (herror : ∀ e, Lawful Γ (g (.error e))) :
    Lawful Γ (result (newText (some r) literal) >>= g) := by
  have hi : Instr.Permitted Γ (.makeText r "String.<init>" (.ofBytes literal)) := inferInstance
  refine ⟨fun hs hΓ hk => .perform (hi.allowed hs hΓ) fun t v hv => ?_⟩
  have hΓ' := hΓ.later hv.later
  have hnext := (hi.calm hv.sound hΓ' t).next
  simp only [Instr.exec] at hnext ⊢
  cases hm : v.makeText r "String.<init>" (.ofBytes literal) with
  | error f =>
    exact (herror _).run hv.sound hΓ' fun r u hu => hk r u (hv.trans hu)
  | ok p =>
    rw [hm] at hnext
    refine (hok p.1).run hnext.sound (.cons ?_ (hΓ'.later hnext.later)) fun r u hu =>
      hk r u ((hv.trans hnext).trans hu)
    rw [World.makeText_ok hm]
    exact text_createText ..

instance lawful_constant (literal : Bytes) [h : Follows Γ (.home home)] : Lawful Γ (constant home literal) := by
  cases home with
  | none => exact lawful_defect _
  | some r =>
    refine lawful_need_some (.bind inferInstance fun found => ?_)
    split
    · infer_instance
    · exact lawful_newText_bind (fun o => inferInstance) fun e => inferInstance

instance lawful_nullText [Follows Γ (.home home)] : Lawful Γ (nullText home) := by
  unfold nullText
  have hshare (Δ : List Premise) (r : RuntimeId) [Follows Δ (.home (some r))] :
      Lawful Δ (perform (.makeNullText r) >>= fun o =>
        perform (.shareConstant r World.nullLiteral o)) :=
    lawful_perform_bind (fun o => .text o r World.nullLiteral) (fun _ _ => text_createText ..)
      fun o => inferInstance
  refine .need_bind fun r => .bind inferInstance fun found => ?_
  split
  · infer_instance
  · exact hshare _ r

instance lawful_renderObject (o : Option ObjId) [Follows Γ (.home home)] : Lawful Γ (renderObject home o) := by
  cases o with
  | none => exact lawful_nullText home
  | some obj =>
    refine .bind inferInstance fun isText => .ite inferInstance ?_
    refine .bind inferInstance fun v => .ite inferInstance ?_
    refine .bind inferInstance fun found => ?_
    split <;> infer_instance

instance lawful_rendering (o : Option ObjId) [Follows Γ (.home home)] : Lawful Γ (rendering home o) := by
  unfold rendering
  infer_instance

instance lawful_render (v : Value) [Follows Γ (.home home)] : Lawful Γ (render home v) := by
  unfold render
  split <;> infer_instance

instance lawful_contentEquals (home : RuntimeId) (s : CharSeq) [Follows Γ (.home (some home))] :
    Lawful Γ (contentEquals home s other) := by
  unfold contentEquals
  split <;> infer_instance

instance lawful_concat (self : ObjId) : Lawful Γ (concat self other) := by
  refine .needText_bind fun home s => ?_
  cases other with
  | none => infer_instance
  | some o => infer_instance

instance lawful_needBuffer (o : Option ObjId) : Lawful Γ (needBuffer o) := by
  cases o with
  | none => exact lawful_defect _
  | some o =>
    refine .bind inferInstance fun p => ?_
    split <;> infer_instance

/-- The runtime of a buffer exists. -/
instance (priority := high) lawful_bufferHome_bind {o : ObjId} {f : Option RuntimeId → Op α}
    [hf : ∀ r, Lawful (.home r :: Γ) (f r)] : Lawful Γ (bufferHome o >>= f) := by
  refine lawful_observe_bind .home (fun {w} hs _ => ?_) hf
  intro r hr
  obtain ⟨⟨home, b⟩, hb, rfl⟩ := Option.bind_eq_some_iff.mp hr
  exact World.buffer?_home hs hb

instance lawful_append (cs : List Rune) : Lawful Γ (append o cs) := by
  unfold append
  infer_instance

instance lawful_appendBytes (b : Bytes) : Lawful Γ (appendBytes o b) := lawful_append ..

instance lawful_appendText (s : Option ObjId) : Lawful Γ (appendText o s) := by
  cases s <;> (unfold appendText; infer_instance)

instance lawful_appendObject : Lawful Γ (appendObject o other) := by
  unfold appendObject
  infer_instance

instance lawful_appended : Lawful Γ (appended o) := by
  refine .bind inferInstance fun failure => ?_
  split <;> infer_instance

instance lawful_bufferText : Lawful Γ (bufferText o) := by
  unfold bufferText
  infer_instance

instance lawful_newBuffer [Follows Γ (.home home)] : Lawful Γ (newBuffer home) := by
  unfold newBuffer
  infer_instance

instance lawful_newBufferFrom (s : Option ObjId) [Follows Γ (.home home)] : Lawful Γ (newBufferFrom home s) := by
  unfold newBufferFrom
  infer_instance

/-! ## Threads -/

instance lawful_needThread (o : Option ObjId) : Lawful Γ (needThread o) := by
  cases o with
  | none => exact lawful_defect _
  | some o =>
    refine .bind inferInstance fun p => ?_
    split <;> infer_instance

instance lawful_threadOf : Lawful Γ (threadOf o) := lawful_observe _

/-- The runtime of a thread exists. -/
instance (priority := high) lawful_threadOf_bind {o : ObjId} {f : Thread → Op α}
    [hf : ∀ t, Lawful (.home t.home :: Γ) (f t)] : Lawful Γ (threadOf o >>= f) := by
  refine lawful_observe_bind (fun t => .home t.home) (fun {w} hs _ => ?_) hf
  intro r hr
  cases ht : w.thread? o with
  | none =>
    rw [ht] at hr
    cases hr
  | some t =>
    rw [ht] at hr
    obtain ⟨obj, hobj, hp⟩ := World.thread?_eq_some.mp ht
    have hsound := (hs.object hobj).payload
    rw [hp] at hsound
    exact hsound r hr

instance lawful_initThread (o : Option ObjId) (c : Option Class)
    (target : Option ObjId) [h : Follows Γ (.home home)] [hc : Follows Γ (.cls c)] :
    Lawful Γ (initThread home o c target) := by
  unfold initThread
  cases c <;> cases home <;> infer_instance

instance lawful_newThread (target : Option ObjId) [h : Follows Γ (.home home)] :
    Lawful Γ (newThread home target) := by
  refine .need_bind fun r => .bind inferInstance fun o => .bind inferInstance fun made => ?_
  split <;> infer_instance

instance lawful_newRunnable (code : Option Code) [Follows Γ (.home home)] [Follows Γ (.code code)] :
    Lawful Γ (newRunnable home code) := by
  unfold newRunnable
  infer_instance

/-- **A start is lawful.** It reserves only a thread that was initialised and is not adopted, and
carries the reservation through. -/
instance lawful_start : Lawful Γ (start o) := by
  refine ⟨fun {own w k} hs hΓ hk => .observe fun _ v hv => ?_⟩
  have hk' : ∀ r u, v.Next u → (k r).Lawful own u := fun r u hu => hk r u (hv.trans hu)
  cases ht : v.thread? o with
  | none =>
    simp only [ht, Option.getD_none]
    exact hk' _ v (.refl hv.sound)
  | some t =>
    simp only [ht, Option.getD_some]
    by_cases hh : t.home.isNone
    · simp only [hh, if_true]
      exact hk' _ v (.refl hv.sound)
    · by_cases ha : t.adopted
      · simp only [hh, ha]
        exact hk' _ v (.refl hv.sound)
      · simp only [hh, ha]
        have hhome : t.home.isSome := Option.isSome_iff_ne_none.mpr (by simpa using hh)
        have hstartable : v.Startable o := ⟨t, ht, hhome, by simpa using ha⟩
        exact .start hstartable rfl (hk' _) fun u hu => .observe fun _ u' hu' =>
          hk' _ u' (hu.trans hu')

instance lawful_runThread : Lawful Γ (runThread o) := by
  unfold runThread
  infer_instance

instance lawful_join : Lawful Γ (join o) := by
  unfold join
  infer_instance

instance lawful_joinTimeout (millis : Int64) (nanos : Int32) : Lawful Γ (joinTimeout o millis nanos) := by
  unfold joinTimeout
  infer_instance

instance lawful_joinBounded : Lawful Γ (joinBounded o bound) := by
  refine .bind inferInstance fun t => .bind inferInstance fun _ => .bind inferInstance fun b => ?_
  split <;> infer_instance

instance lawful_sleep (millis : Int64) (nanos : Int32) : Lawful Γ (sleep millis nanos) := by
  unfold sleep
  infer_instance

instance lawful_threadOfTask (home : RuntimeId) (t : TaskId) [Follows Γ (.home (some home))] :
    Lawful Γ (threadOfTask home t) := by
  refine .bind inferInstance fun bound => ?_
  split <;> infer_instance

instance lawful_currentThread [Follows Γ (.home home)] : Lawful Γ (currentThread home) := by
  unfold currentThread
  infer_instance

instance lawful_dumpStack [Follows Γ (.home home)] : Lawful Γ (dumpStack home) := by
  unfold dumpStack
  infer_instance

instance lawful_threadText : Lawful Γ (threadText o) := by
  unfold threadText
  infer_instance

/-! ## The shutdown barrier -/

instance lawful_joinPending (os : List ObjId) : Lawful Γ (joinPending bound os) := by
  induction os with
  | nil => exact lawful_pure ()
  | cons o rest ih =>
    refine .bind inferInstance fun joined => ?_
    split <;> infer_instance

instance lawful_joinAll (home : RuntimeId) : Lawful Γ (joinAll home self bound) := by
  unfold joinAll
  infer_instance

instance lawful_writeReport (path : Bytes) (r : Report) : Lawful Γ (writeReport path r) := by
  refine .bind inferInstance fun written => ?_
  split <;> infer_instance

instance lawful_readReport (path : Bytes) : Lawful Γ (readReport path) := by
  unfold readReport
  infer_instance

instance lawful_barrierBounded (home : RuntimeId) : Lawful Γ (barrierBounded home bound) := by
  refine .bind inferInstance fun t => .bind inferInstance fun self => .bind inferInstance fun joined =>
    .bind inferInstance fun _ => .bind inferInstance fun path => .bind inferInstance fun written => ?_
  split <;> infer_instance

instance lawful_barrier : Lawful Γ (barrier home) := by
  unfold barrier
  infer_instance

instance lawful_globalBarrier : Lawful Γ globalBarrier := by
  refine .bind inferInstance fun home => ?_
  split <;> infer_instance

/-- The runtime that the process shares exists. -/
theorem lawful_globalRuntime_bind {f : Option RuntimeId → Op α}
    (hf : ∀ r, Lawful (.home r :: Γ) (f r)) : Lawful Γ (observe (·.globalRuntime) >>= f) :=
  lawful_observe_bind .home (fun hs _ => hs.shared) hf

instance lawful_globalThread : Lawful Γ globalThread := by
  refine lawful_globalRuntime_bind fun home => ?_
  split <;> infer_instance

/-! ## Built-in methods -/

/-- The body of a work item belongs to a runtime that exists. -/
theorem lawful_runnable_bind {o : ObjId} {f : Option (Option Code) × Bytes → Op α}
    (hf : ∀ code shape, Lawful (.code (code.bind fun c => c) :: Γ) (f (code, shape))) :
    Lawful Γ (observe (fun w => (w.runnable? o, w.shapeOf o)) >>= f) := by
  refine lawful_observe_bind (fun p => .code (p.1.bind fun c => c)) (fun {w} hs _ => ?_)
    fun p => hf p.1 p.2
  intro x hx
  obtain ⟨code, hcode, hc⟩ := Option.bind_eq_some_iff.mp hx
  obtain ⟨obj, hobj, hp⟩ := World.runnable?_eq_some.mp hcode
  have hsound := (hs.object hobj).payload
  rw [hp] at hsound
  exact hsound x hc

/-- **Every built-in method is lawful.** -/
instance lawful_builtin (home : RuntimeId) (b : Builtin) [Follows Γ (.home (some home))] :
    Lawful Γ (b.run home self args) := by
  cases b with
  | objectEquals =>
    simp only [Builtin.run]
    split
    · infer_instance
    · exact .bind inferInstance fun mine => .needText_bind fun r s => inferInstance
  | textEquals => exact .needText_bind fun r s => inferInstance
  | textCharAt => exact .needText_bind fun r s => inferInstance
  | textLength => exact .needText_bind fun r s => inferInstance
  | textHashCode => exact .needText_bind fun r s => inferInstance
  | threadRun =>
    refine .bind inferInstance fun o => .bind inferInstance fun t => ?_
    split <;> infer_instance
  | runnableRun =>
    cases self with
    | none => exact lawful_defect _
    | some o =>
      refine lawful_runnable_bind fun code shape => ?_
      split
      · infer_instance
      · infer_instance
      · rename_i c _ heq
        cases heq
        refine .bind (lawful_call fun hΓ => ?_) fun _ => inferInstance
        exact hΓ _ List.mem_cons_self c rfl
  | _ =>
    unfold Builtin.run
    infer_instance

/-! ## Classes -/

instance lawful_intern (home : RuntimeId) (signature : Bytes) : Lawful Γ (intern home signature) := by
  refine .bind inferInstance fun found => ?_
  split <;> infer_instance

instance lawful_addMethod (table : TableId) (heading : MethodHeading) (code : Code)
    [h : Follows Γ (.code (some code))] : Lawful Γ (addMethod table heading code) := by
  have hadd (s : Selector) : Instr.Permitted Γ (.addMethod table s heading.arity code) :=
    ⟨fun hs hΓ => h.holds hs hΓ code rfl⟩
  refine .bind inferInstance fun t => ?_
  split
  · infer_instance
  · split <;> infer_instance

/-- A superclass that was accepted belongs to the runtime. -/
theorem accept_placed (hs : w.Sound) (hr : w.Has r) {parent} (hc : ∀ c ∈ superclass, w.Vouches c)
    (h : (w.classes r).accept name superclass = .ok parent) : ∃ p, parent = some p ∧ p.home = r ∧ w.Vouches p := by
  obtain ⟨rt, hrt⟩ := hr
  rw [World.classes_eq hrt] at h
  cases superclass with
  | none =>
    cases h
    refine ⟨_, (hs.runtime hrt).root, rfl, ?_⟩
    exact World.vouches_builtin hs ⟨rt, hrt⟩ (by simp [Builtin.classes])
  | some c =>
    simp only [ClassTable.accept] at h
    split at h
    · rename_i hsame
      cases h
      refine ⟨c, rfl, ?_, hc c rfl⟩
      cases hget : rt.classes.get? c.name with
      | none =>
        rw [hget] at hsame
        cases hsame
      | some d =>
        rw [hget] at hsame
        have hid : d.identity = c.identity := by simpa [Class.isSame?, Class.isSame] using hsame
        exact (congrArg Prod.fst hid).symm.trans ((hs.runtime hrt).cls hget).home
    · cases h

instance lawful_buildClass (home : RuntimeId) (name : Bytes) (parent : Option Class)
    (init : TableId → Op Unit) [Follows Γ (.home (some home))] [Follows Γ (.parent home parent)]
    [∀ t, Lawful Γ (init t)] : Lawful Γ (buildClass home name parent init) := by
  unfold buildClass
  infer_instance

/-- How a definition ends: with the class that its name has by then. -/
def concludeDefinition (r : RuntimeId) (name : Bytes) (superclass : Option Class) (reserved : Bool) :
    Op (Class × Bool) := do
  match ← observe fun w => (w.classes r).entries.get? name with
  | none => fault (.definitionIncomplete name)
  | some e =>
    let c ← ofExcept (ClassTable.answer name superclass e)
    return (c, reserved)

instance lawful_concludeDefinition (r : RuntimeId) (name : Bytes) (superclass : Option Class)
    (reserved : Bool) : Lawful Γ (concludeDefinition r name superclass reserved) := by
  refine .bind inferInstance fun entry => ?_
  split <;> infer_instance

/-- How a definition goes on once the table has accepted its superclass or not. -/
def pursueDefinition (r : RuntimeId) (name : Bytes) (superclass : Option Class)
    (init : TableId → Op Unit) (reserved : Bool) : Except Fault (Option Class) → Op (Class × Bool)
  | .error f => do
    perform (.settleClass r name (.failed (.fault f)))
    concludeDefinition r name superclass reserved
  | .ok parent => do
    buildClass r name parent init
    concludeDefinition r name superclass reserved

/-- What a definition may rely on when the table has accepted its superclass. -/
def acceptedPremise (r : RuntimeId) : Except Fault (Option Class) → Premise
  | .ok parent => .parent r parent
  | .error _ => .home none

theorem accept_premise (hs : w.Sound) [hc : Follows Γ (.cls superclass)] (name : Bytes)
    (hΓ : w.Assumes (.home (some r) :: Γ)) : (acceptedPremise r ((w.classes r).accept name superclass)).Holds w := by
  cases ha : (w.classes r).accept name superclass with
  | error f =>
    intro s hs
    cases hs
  | ok parent =>
    exact accept_placed hs (hΓ _ List.mem_cons_self r rfl)
      (hc.holds hs fun p hp => hΓ p (List.mem_cons_of_mem _ hp)) ha

/-- **A definition is lawful if its initialiser is.** -/
theorem lawful_defineClass {home : Option RuntimeId} {init : TableId → Op Unit} [h : Follows Γ (.home home)]
    [hc : Follows Γ (.cls superclass)] (hinit : ∀ t, Lawful Γ (init t)) :
    Lawful Γ (defineClass home name superclass init) := by
  refine .need_bind fun r => ?_
  have hrest : Lawful (.home (some r) :: Γ) (perform (.reserveClass r name) >>= fun reserved =>
      if reserved then
        observe (fun w => (w.classes r).accept name superclass) >>=
          pursueDefinition r name superclass init reserved
      else do
        let _ ← await (.settled r name) none
        concludeDefinition r name superclass reserved) := by
    refine .bind inferInstance fun reserved => .ite ?_ inferInstance
    refine lawful_observe_bind (acceptedPremise r) (fun hs => accept_premise hs name) fun accepted => ?_
    cases accepted with
    | error f =>
      unfold pursueDefinition
      infer_instance
    | ok parent =>
      have hinit' (t : TableId) : Lawful (.parent r parent :: .home (some r) :: Γ) (init t) :=
        ((hinit t).weaken _).weaken _
      have hbuild : Lawful (.parent r parent :: .home (some r) :: Γ)
          (buildClass r name parent init) := inferInstance
      exact .bind hbuild fun _ => inferInstance
  exact .ite (.bind inferInstance fun _ => hrest) hrest

end ObjectKernel.Op
