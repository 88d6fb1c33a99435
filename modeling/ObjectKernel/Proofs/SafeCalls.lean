import ObjectKernel.Proofs.BuiltinStops

/-!
# Calls of methods of built-in objects

Strings, buffers, work items and threads as runtimes make them are in keeping with their classes. A method of theirs can be
called by any selector or signature, with any arguments, and while any other tasks run: if the call ends, it ends in a
value, an error, or a panic that carries a fault of the kernel. What programs have added, the code of work items and the
methods of thread classes, is taken not to panic by itself; the errors that it returns are the only ones that are no
faults.

## Contents

* `World.Receiver`: the objects that runtimes make. `Machine.Reachable.apt_of_receiver`: they are apt and
  belong to a runtime.
* `Op.Obtains`, `Op.Calls`: how they are come by, and the ways of calling their methods.
* `Machine.calls_stop_regularly`: how such calls end.
-/

namespace ObjectKernel

open World

variable {E : Err → Prop} {o : ObjId} {G : World → Prop} {w : World} {r : RuntimeId}

/-! ## Receivers -/

namespace World

variable {w v : World} {E : Err → Prop} {o : ObjId}

/-- A string, buffer, work item or thread as runtimes make them. -/
inductive Receiver (w : World) (E : Err → Prop) (o : ObjId) : Prop where
  | text {t : RuntimeId × CharSeq} (text : w.text? o = some t)
  | buffer {home : RuntimeId} {b : Buffer} (buffer : w.buffer? o = some (some home, b))
  | item (item : w.WorkItem E o)
  /-- A thread is initialised as an instance of a class that inherits the methods of threads, with a work item or without
  one. -/
  | thread {t : Thread} {c : Class} (thread : w.thread? (w.header o) = some t) (home : t.home.isSome)
      (cls : w.classOf? o = some c) (inherits : c.Apt E .thread)
      (target : ∀ x, t.target = some x → w.WorkItem E x)

/-- Once a receiver, always a receiver. -/
theorem Receiver.later (hv : w.Follows v) (h : w.Receiver E o) : v.Receiver E o := by
  cases h with
  | text text => exact .text (text?_later hv.le text)
  | buffer buffer =>
    obtain ⟨b, hb⟩ := buffer?_later hv.le buffer
    exact .buffer hb
  | item item => exact .item (item.later hv.le)
  | @thread t c thread home cls inherits target =>
    -- The thread has a class, so that it keeps its runtime and its work item.
    obtain ⟨hheader, -⟩ := thread?_header_later hv.le thread
    have hpart : (w.classOf? (w.header o)).isSome := by
      rw [classOf?_of_header thread rfl, cls]
      rfl
    obtain ⟨u, hu, hgrant⟩ := hv.grants thread hpart
    have hhome : u.home = t.home := congrArg Prod.fst hgrant
    have htarget : u.target = t.target := congrArg (fun g => g.2.2) hgrant
    refine .thread (t := u) (by rw [hheader]; exact hu) (by rw [hhome]; exact home) (classOf?_later hv.le cls)
      inherits fun x hx => ?_
    exact (target x (htarget.symm.trans hx)).later hv.le

/-! ## Receivers and their classes -/

theorem family_of_text {t} (ht : w.text? o = some t) :
    w.family o = .text ∧ w.runnable? o = none ∧ w.buffer? o = none := by
  obtain ⟨⟨cls, hash, payload⟩, hobj, rfl⟩ := text?_eq_some.mp ht
  simp [family, runnable?, buffer?, hobj, Payload.family]

theorem family_of_buffer {b} (hb : w.buffer? o = some b) : w.family o = .buffer ∧ w.runnable? o = none := by
  obtain ⟨⟨cls, hash, payload⟩, hobj, rfl⟩ := buffer?_eq_some.mp hb
  simp [family, runnable?, hobj, Payload.family]

theorem family_of_item {code} (hcode : w.runnable? o = some code) : w.family o = .item ∧ w.buffer? o = none := by
  obtain ⟨⟨cls, hash, payload⟩, hobj, rfl⟩ := runnable?_eq_some.mp hcode
  simp [family, buffer?, hobj, Payload.family]

/-- An object that is no thread has no work item. -/
theorem runsQuietly_of_code (hfamily : w.family o ≠ .thread)
    (hcode : ∀ ⦃code⦄, w.runnable? o = some (some code) → (Activation.code code none []).Quiet E) :
    w.RunsQuietly E o :=
  ⟨hcode, fun _ _ ht _ => absurd (family_of_thread ht).1 hfamily⟩

/-- An object that is no thread, and a buffer of a runtime if it is a buffer. -/
theorem not_raw (hfamily : w.family o ≠ .thread) (hbuffer : ¬ w.LooseBuffer o) : ¬ w.Raw o := by
  rintro ⟨-, hloose | ⟨t, ht, -⟩⟩
  · exact hbuffer hloose
  · exact hfamily (family_of_thread ht).1

end World

/-- **A receiver is apt for its class, runs quietly and belongs to a runtime.** -/
theorem Machine.Reachable.apt_of_receiver {m : Machine} (hm : m.Reachable) (h : m.world.Receiver E o) :
    m.world.Apt E o ∧ m.world.RunsQuietly E o ∧ ¬ m.world.Raw o := by
  cases h with
  | @text t text =>
    obtain ⟨hfamily, hitem, hbuffer⟩ := family_of_text text
    have hthread : m.world.family o ≠ .thread := by
      rw [hfamily]
      nofun
    refine ⟨apt_of_cls hfamily (hm.classOf?_text text), runsQuietly_of_code hthread (by rw [hitem]; nofun),
      not_raw hthread ?_⟩
    rintro ⟨b, hb⟩
    cases hbuffer.symm.trans hb
  | @buffer home b buffer =>
    obtain ⟨hfamily, hitem⟩ := family_of_buffer buffer
    have hthread : m.world.family o ≠ .thread := by
      rw [hfamily]
      nofun
    refine ⟨apt_of_cls hfamily (hm.seated.classOf? buffer), runsQuietly_of_code hthread (by rw [hitem]; nofun),
      not_raw hthread ?_⟩
    rintro ⟨b', hb⟩
    cases buffer.symm.trans hb
  | item item =>
    obtain ⟨r, code, hcls, hcode, hquiet⟩ := item
    obtain ⟨hfamily, hbuffer⟩ := family_of_item hcode
    have hthread : m.world.family o ≠ .thread := by
      rw [hfamily]
      nofun
    refine ⟨apt_of_cls hfamily hcls, runsQuietly_of_code hthread fun code' hcode' => ?_, not_raw hthread ?_⟩
    · cases hcode.symm.trans hcode'
      exact hquiet code' rfl
    · rintro ⟨b, hb⟩
      cases hbuffer.symm.trans hb
  | @thread t c thread home cls inherits target =>
    obtain ⟨hfamily, -, hitem, hbuffer⟩ := family_of_thread thread
    refine ⟨fun c' hc => ?_, ⟨by rw [hitem]; nofun, fun t' x ht hx => ?_⟩, ?_⟩
    · cases cls.symm.trans hc
      rw [hfamily]
      exact inherits
    · cases thread.symm.trans ht
      exact target x hx
    · rintro ⟨-, ⟨b, hb⟩ | ⟨t', ht, hnone⟩⟩
      · cases hbuffer.symm.trans hb
      · cases thread.symm.trans ht
        rw [hnone] at home
        cases home

/-! ## How receivers are come by -/

/-- A thread that was initialised is a receiver. -/
theorem World.receiver_initThread {v} (hs : w.Sound) {c target}
    (hv : w.initThread r (some o) (some c) target = .ok v) (hle : w ≤ v) {t} (ht : w.thread? (w.header o) = some t)
    (inherits : c.Apt E .thread) (work : ∀ x, target = some x → w.WorkItem E x) : v.Receiver E o := by
  have hcls := classOf?_initThread hle ht hv
  obtain ⟨_, id, name, ho, hthread, -⟩ := initThread_thread hs hv
  cases ho
  obtain ⟨hheader, -⟩ := thread?_header_later hle ht
  have hu := hthread (w.header o)
  rw [if_pos rfl, ht, ← hheader] at hu
  exact .thread hu rfl hcls inherits fun x hx => (work x hx).later hle

/-- A new work item is a receiver. -/
theorem World.workItem_create (w : World) (r : RuntimeId) {code}
    (quiet : ∀ c ∈ code, (Activation.code c none []).Quiet E) :
    (w.create (.runnable code) (Builtin.runnableClass r)).2.WorkItem E
      (w.create (.runnable code) (Builtin.runnableClass r)).1 := by
  rw [create_eq w (p := .runnable code) fun _ => nofun]
  have hnew : ({ w with
      objects := w.objects.push
        { cls := some (Builtin.runnableClass r), hash := w.constructed + 1, payload := .runnable code }
      constructed := w.constructed + 1 } : World).object? w.objects.size =
        some { cls := some (Builtin.runnableClass r), hash := w.constructed + 1, payload := .runnable code } :=
    Array.getElem?_push_size
  exact ⟨r, code, classOf?_of_object? hnew nofun, runnable?_eq_some.mpr ⟨_, hnew, rfl⟩, quiet⟩

/-- The operations that make a receiver, or make one of a thread that is there. -/
inductive Op.Obtains (w : World) (E : Err → Prop) (r : RuntimeId) : Op ObjId → Prop where
  | text (b : Bytes) : Obtains w E r (newText (some r) b)
  | literal (b : Bytes) : Obtains w E r (constant (some r) b)
  | buffer : Obtains w E r (newBuffer (some r))
  | bufferFrom (s : Option ObjId) : Obtains w E r (newBufferFrom (some r) s)
  | item (code : Option Code) (quiet : ∀ c ∈ code, (Activation.code c none []).Quiet E) :
      Obtains w E r (newRunnable (some r) code)
  | thread (target : Option ObjId) (work : ∀ x, target = some x → w.WorkItem E x) :
      Obtains w E r (newThread (some r) target)
  | initialised (o : ObjId) (c : Class) (target : Option ObjId) (thread : (w.thread? (w.header o)).isSome)
      (inherits : c.Apt E .thread) (work : ∀ x, target = some x → w.WorkItem E x) :
      Obtains w E r do
        initThread (some r) (some o) (some c) target
        return o

namespace Op.Raises

variable {E : Err → Prop} {G : World → Prop} {A : Stop → Prop} {w : World} {r : RuntimeId} {target : Option ObjId}

theorem initThread {c : Class} (ht : (w.thread? (w.header o)).isSome) (inherits : c.Apt E .thread)
    (work : ∀ x, target = some x → w.WorkItem E x) :
    (Op.initThread (some r) (some o) (some c) target).Raises G (fun _ => True) w fun v _ => v.Receiver E o := by
  obtain ⟨t, ht⟩ := Option.isSome_iff_exists.mp ht
  have hinit : (Op.perform (.initThread r (some o) (some c) target)).Raises G (fun _ => True) w fun v a =>
      ∀ b, a = .ok b → v.Receiver E o := by
    refine perform fun t' {m} hm hfollows => ?_
    change m.world.Follows (m.world.attempt (m.world.initThread r (some o) (some c) target)).2 at hfollows
    show ∀ b, (m.world.attempt (m.world.initThread r (some o) (some c) target)).1 = .ok b →
      (m.world.attempt (m.world.initThread r (some o) (some c) target)).2.Receiver E o
    cases hv : m.world.initThread r (some o) (some c) target with
    | error f => nofun
    | ok v =>
      rw [hv] at hfollows
      intro _ _
      obtain ⟨hheader, u, hu, -⟩ := thread?_header_later hm.follows.le ht
      rw [← hheader] at hu
      exact receiver_initThread hm.reachable.sound hv hfollows.le hu inherits
        fun x hx => (work x hx).later hm.follows.le
  exact bind hinit fun v a _ ha => ofFault ha fun _ _ => trivial

theorem newBuffer (r : RuntimeId) :
    (Op.newBuffer (some r)).Raises G (fun _ => True) w fun v o => ∃ b, v.buffer? o = some (some r, b) := by
  refine bind (need r) ?_
  rintro v _ - rfl
  have hnew : (Op.perform (.newBuffer r)).Raises G (fun _ => True) v fun u a =>
      ∀ o, a = .ok o → ∃ b, u.buffer? o = some (some r, b) := by
    refine perform fun t {m} hm _ => ?_
    show ∀ o, (m.world.attemptResult (m.world.newBuffer r)).1 = .ok o →
      ∃ b, (m.world.attemptResult (m.world.newBuffer r)).2.buffer? o = some (some r, b)
    unfold World.newBuffer
    dsimp only
    split
    · rintro o ⟨⟩
      rw [create_eq m.world (p := .buffer (some r) (.empty _)) (fun _ => nofun)]
      exact ⟨_, buffer?_eq_some.mpr ⟨_, Array.getElem?_push_size, rfl⟩⟩
    · nofun
  exact bind hnew fun u a _ ha => ofPanic ha fun _ _ => trivial

/-- A new buffer stays a buffer while a string is appended to it. -/
theorem newBufferFrom (r : RuntimeId) (s : Option ObjId) :
    (Op.newBufferFrom (some r) s).Raises G (fun _ => True) w fun v o => v.Receiver E o := by
  refine bind (newBuffer r) ?_
  rintro v o - ⟨b, hb⟩
  have hreturn {u : World} (hu : v.Follows u) :
      (Pure.pure o : Op ObjId).Raises G (fun _ => True) u fun v o => v.Receiver E o := by
    obtain ⟨b', hb'⟩ := buffer?_later hu.le hb
    exact pure (.buffer hb')
  cases s with
  | none => exact hreturn (.refl v)
  | some s =>
    have hneed {u : World} : (Op.needText (some s)).Raises G (fun _ => True) u fun _ _ => True := by
      refine observe_bind fun {m} hm => ?_
      cases m.world.text? s with
      | none => exact panic trivial
      | some t => exact pure trivial
    have happend : (Op.appendText o (some s)).Raises G (fun _ => True) v fun _ _ => True := by
      refine bind (pure (Q := fun _ a => s = a) rfl) ?_
      rintro u _ hu rfl
      refine bind hneed fun u' t hu' _ => append ?_ (fun _ _ => trivial) _
      obtain ⟨b', hb'⟩ := buffer?_later (hu.trans hu').le hb
      rw [hb']
      rfl
    exact bind happend fun u _ hu _ => hreturn hu

theorem constant (r : RuntimeId) (b : Bytes) :
    (Op.constant (some r) b).Raises G (fun _ => True) w fun v o => v.Receiver E o := by
  refine bind (need r) ?_
  rintro v _ - rfl
  refine observe_bind fun {m} hm => ?_
  cases hshared : m.world.constant? r b with
  | some s => exact pure (.text (text?_of_constant? hm.reachable.sound hshared))
  | none =>
    refine bind (result (newText (E := E) (fun _ _ => trivial) r b)) fun u a _ ha => ?_
    cases a with
    | error e => exact panic trivial
    | ok s =>
      refine perform fun t {n} hn _ => ?_
      exact .text (text?_shareConstant hn.reachable.sound (text?_later hn.follows.le (ha s rfl)))

theorem newRunnable (r : RuntimeId) {code} (quiet : ∀ c ∈ code, (Activation.code c none []).Quiet E) :
    (Op.newRunnable (some r) code).Raises G A w fun v o => v.Receiver E o := by
  refine bind (need r) ?_
  rintro v _ - rfl
  exact perform fun t {m} hm _ => .item (workItem_create m.world r quiet)

theorem newThread (r : RuntimeId) (work : ∀ x, target = some x → w.WorkItem E x) :
    (Op.newThread (some r) target).Raises G (fun _ => True) w fun v o => v.Receiver E o := by
  refine bind (need r) ?_
  rintro v _ hv rfl
  have hallocate : (Op.perform (.allocate (.thread {}))).Raises G (fun _ => True) v fun u o =>
      (u.thread? (u.header o)).isSome := by
    refine perform fun t {m} hm _ => ?_
    have hnew : (m.world.allocate (.thread {})).2.thread? m.world.objects.size = some {} :=
      thread?_eq_some.mpr ⟨_, Array.getElem?_push_size, rfl⟩
    show ((m.world.allocate (.thread {})).2.thread? ((m.world.allocate (.thread {})).2.header
      m.world.objects.size)).isSome
    rw [header_of_thread? hnew, hnew]
    rfl
  refine bind hallocate fun u o hu ho => ?_
  refine bind (result (initThread ho (Class.apt_cls E .thread r) fun x hx => (work x hx).later (hv.trans hu).le))
    fun u' a _ ha => ?_
  cases a with
  | error e => exact panic trivial
  | ok _ => exact pure (ha () rfl)

/-- **What is come by is a receiver.** -/
theorem obtains {y} (hy : Op.Obtains w E r y) : y.Raises G (fun _ => True) w fun v o => v.Receiver E o := by
  cases hy with
  | text b => exact (newText (E := E) (fun _ _ => trivial) r b).imp fun _ _ _ ht => .text ht
  | literal b => exact constant r b
  | buffer => exact (newBuffer r).imp fun _ _ _ ⟨_, hb⟩ => .buffer hb
  | bufferFrom s => exact newBufferFrom r s
  | item code quiet => exact newRunnable r quiet
  | thread target work => exact newThread r work
  | initialised o c target thread inherits work =>
    exact bind (initThread thread inherits work) fun v _ _ hv => pure hv

end Op.Raises

/-! ## Calls -/

/-- The ways of calling a method of an object: by selector, by signature, and by selector from above a class of its
chain. -/
inductive Op.Calls (w : World) (r : RuntimeId) (o : ObjId) (args : List Value) : Op Value → Prop where
  | dispatch (s : Selector) : Calls w r o args (dispatch (some r) (some o) s args)
  | send (signature : Bytes) : Calls w r o args (send (some r) (some o) signature args)
  | dispatchSuper {c origin : Class} (cls : w.classOf? o = some c) (chain : origin ∈ c.chain) (s : Selector) :
      Calls w r o args (dispatchSuper (some r) (some o) (some origin) s args)

theorem Op.Raises.calls {A : Stop → Prop} {args} (hA : ∀ ⦃s⦄, Stop.Regular E s → A s) (ho : Vetted E G A o)
    (hruns : ∀ {m : Machine}, m.Reachable → G m.world → m.world.RunsQuietly E o)
    (hargs : ∀ a ∈ args, ∀ x, a.ref = some x → Vetted E G A x) {x} (hx : Op.Calls w r o args x) :
    x.Raises G A w fun _ _ => True := by
  cases hx with
  | dispatch s => exact dispatch hA ho hargs r fun _ => hruns
  | send signature => exact send hA ho hargs r hruns signature
  | dispatchSuper cls chain s => exact dispatchSuper hA ho hargs r hruns cls chain s

/-- An object that may be among the arguments of a call: one without a class, or a receiver. -/
def World.Admissible (w : World) (E : Err → Prop) (p : ObjId) : Prop := w.classOf? p = none ∨ w.Receiver E p

/-- Where an object is admissible before every turn, it is vetted, and nothing but what is regular is reckoned with. -/
theorem vetted_of_admissible (h : ∀ v, G v → v.Admissible E o) : Vetted E G (Stop.Regular E) o := by
  refine ⟨fun {m} hm hG => ?_, fun {m} hm hG hraw => ?_⟩
  · rcases h _ hG with hnone | hreceiver
    · intro c hc
      cases hnone.symm.trans hc
    · exact (hm.apt_of_receiver hreceiver).1
  · rcases h _ hG with hnone | hreceiver
    · have hcls := hraw.1
      rw [hnone] at hcls
      cases hcls
    · exact absurd hraw (hm.apt_of_receiver hreceiver).2.2

namespace Machine

/-- Makes a thread with a work item that does nothing, and an object without a class. -/
def furnish : Op Unit := do
  let x ← Op.newRunnable (some 0) (some (.script 0 []))
  let _ ← Op.newThread (some 0) (some x)
  let _ ← Op.perform (.allocate (.plain []))

/-- One task makes objects, another one is about to compare two of them, and a third one to make a string. -/
def furnishing : Machine where
  world := World.single {} 3
  tasks := #[{ id := 0, prog := furnish.toProgUnit },
    { id := 1, prog := (Op.dispatch (some 0) (some 1) Selector.equals [.ofObject 2]).toProg },
    { id := 2, prog := (do return .ofObject (← Op.newText (some 0) "a") : Op Value).toProg }]

instance : Op.Lawful [.home (some 0)] furnish := by
  unfold furnish
  infer_instance

theorem initial_furnishing : furnishing.Initial := initial_launch

/-- The machine with the objects. -/
def furnished : Machine := furnishing.after (fun _ _ => true) (List.replicate 4 (.step 0))

/-- A body without steps neither fails nor panics. -/
theorem quiet_nil (E : Err → Prop) (home : RuntimeId) (self : Option ObjId) (args : List Value) :
    (Activation.code (.script home []) self args).Quiet E := by
  intro w
  have hcall : (Script.call home [] self args).Raises (fun _ => True) (fun s => ∃ e, s = .error e ∧ E e) w
      fun _ _ => True := by
    refine .bind (.perform (Q := fun _ _ => True) fun _ _ _ _ => trivial) fun _ scope _ _ => ?_
    exact .pure trivial
  exact hcall.ends

theorem receiver_furnished (E : Err → Prop) : furnished.world.Receiver E 1 := by
  have hthread : (furnished.world.thread? (furnished.world.header 1)).map (fun t => (t.home, t.target)) =
      some (some 0, some 0) := by decide +kernel
  obtain ⟨t, ht, hfields⟩ := Option.map_eq_some_iff.mp hthread
  obtain ⟨hhome, htarget⟩ := Prod.mk.inj hfields
  have hitem : furnished.world.WorkItem E 0 := by
    refine ⟨0, some (.script 0 []), rfl, rfl, ?_⟩
    rintro c ⟨⟩
    exact quiet_nil E 0 none []
  refine .thread ht ?_ (show _ = some (Builtin.threadClass 0) from rfl) (Class.apt_cls E .thread 0) fun x hx => ?_
  · rw [hhome]
    rfl
  · cases htarget.symm.trans hx
    exact hitem

/-- A check that a task has not returned and that an object has no class. -/
def unboundYet (i : Nat) (o : ObjId) (m : Machine) (τ : Turn) : Bool :=
  going i m τ && (m.world.classOf? o).isNone

/-- The machine once the objects were compared. -/
def compared : Machine := furnished.after (unboundYet 1 2) (List.replicate 14 (.step 1))

/-- The machine once the string was made. -/
def spelled : Machine := furnished.after (going 2) [.step 2]

end Machine

end ObjectKernel
