import ObjectKernel.Proofs.BuiltinStops

/-!
# Threads that were not initialised

A thread can be bound to a class, and then be the receiver and the argument of calls, without having been initialised. It
can be asked to start, to run, or to be waited for, and answers with a fault. Its text cannot be made, for it is made in
the runtime of the thread, and there is none. So whatever asks such a thread for its text ends in a null dereference: its
own `toString()`, an append to a buffer, a comparison, a rendering.

## Contents

* `Exposure`, `Op.Involves`: the operations that involve a thread, and what they are exposed to.
* `Exposure.Stops`: what can stop them. `Op.Raises.involves`: that nothing else does.
* `World.Exposed`, `Op.Exposes`: a thread that cannot show itself, and the operations that make it do so.
* `Machine.threads_stop_regularly`: both together.
-/

namespace ObjectKernel

open World

/-! ## Operations that involve a thread -/

/-- What an operation that involves a thread is exposed to, besides faults. -/
structure Exposure where
  /-- It calls the `run()` of the thread. -/
  runs : Bool := false
  /-- It waits, but only until something happens. -/
  bound : Option Expiry := none
  /-- It may ask these objects for their text. -/
  asked : List ObjId := []
  /-- It writes to this buffer without a call. -/
  into : Option ObjId := none

/-- The operations that involve a thread `x` as their receiver or as an argument. -/
inductive Op.Involves (w : World) (r : RuntimeId) (x : ObjId) : Exposure → Op Value → Prop where
  | start : Involves w r x {} do
      start (← needThread (some x))
      return .null
  | run : Involves w r x { runs := true } do
      runThread (← needThread (some x))
      return .null
  | join : Involves w r x {} do
      join (← needThread (some x))
      return .null
  | joinTimeout (millis : Int64) (nanos : Int32) : Involves w r x {} do
      joinTimeout (← needThread (some x)) millis nanos
      return .null
  | joinBounded (bound : Option Expiry) : Involves w r x { bound } do
      joinBounded (← needThread (some x)) bound
      return .null
  /-- A method other than `toString()` and `equals(Object)`, such as `start()`, `isAlive()` or `hashCode()`. -/
  | call {s : Selector} (args : List Value) (toText : s ≠ .toText) (equals : s ≠ .equals) :
      Involves w r x { runs := s = .run } (dispatch (some r) (some x) s args)
  | toText (args : List Value) : Involves w r x { asked := [x] } (dispatch (some r) (some x) .toText args)
  /-- `equals(Object)` on the thread, or on anything with the thread as an argument. -/
  | equals {y : ObjId} {args : List Value} (involved : y = x ∨ ∃ a ∈ args, a.ref = some x) :
      Involves w r x { asked := y :: args.filterMap Value.ref } (dispatch (some r) (some y) .equals args)
  | append {b : ObjId} {args : List Value} (involved : ∃ a ∈ args, a.ref = some x) :
      Involves w r x { asked := b :: args.filterMap Value.ref } (dispatch (some r) (some b) .appendObject args)
  | appendObject {b : ObjId} (buffer : (w.buffer? b).isSome) :
      Involves w r x { asked := [x], into := some b } do
        appendObject (← needBuffer (some b)) (some x)
        return .null
  | render {a : Value} (involved : a.ref = some x) : Involves w r x { asked := [x] } do
      let _ ← render (some r) a
      return .null

namespace Exposure

/-- The objects that an operation turns to are apt for their classes, and what the thread has to run does not panic. -/
structure Sane (e : Exposure) (E : Err → Prop) (x : ObjId) (w : World) : Prop where
  apt : ∀ z ∈ x :: e.asked, w.Apt E z
  runs : e.runs → w.RunsQuietly E x

/-- What can stop an operation that involves a thread. There is a null dereference only where an object is asked for its
text, or a buffer written to, that belongs to no runtime. -/
inductive Stops (e : Exposure) (E : Err → Prop) (w : World) : Stop → Prop where
  | regular {s : Stop} (regular : s.Regular E) : Stops e E w s
  | expired {b : Expiry} (bound : e.bound = some b) : Stops e E w (.error (.expired b))
  | asked {z : ObjId} (asked : z ∈ e.asked) (raw : w.Raw z) : Stops e E w (.panic (.defect .nullDereference))
  | into {b : ObjId} (into : e.into = some b) (loose : w.LooseBuffer b) :
      Stops e E w (.panic (.defect .nullDereference))

end Exposure

namespace World

variable {w v : World} {E : Err → Prop} {x q : ObjId} {t : Thread}

/-- Objects that are or have the same thread are apt for the same classes. -/
theorem Apt.of_header (ht : w.thread? (w.header x) = some t) (hq : w.header q = w.header x) (h : w.Apt E x) :
    w.Apt E q := by
  have htq : w.thread? (w.header q) = some t := by rw [hq, ht]
  have hcls : w.classOf? q = w.classOf? x := by
    unfold classOf?
    rw [hq]
  intro c hc
  rw [(family_of_thread htq).1, ← (family_of_thread ht).1]
  exact h (hcls.symm.trans hc)

theorem RunsQuietly.of_header (ht : w.thread? (w.header x) = some t) (hq : w.header q = w.header x)
    (h : w.RunsQuietly E x) : w.RunsQuietly E q := by
  have htq : w.thread? (w.header q) = some t := by rw [hq, ht]
  refine ⟨?_, ?_⟩
  · rw [(family_of_thread htq).2.2.1]
    nofun
  · rw [hq]
    exact h.target

end World

namespace Op.Raises

variable {E : Err → Prop} {G : World → Prop} {A : Stop → Prop} {w : World} {x : ObjId}

/-- **A method of a thread** that does not ask for a text. -/
theorem dispatchThread (hA : ∀ ⦃s⦄, Stop.Regular E s → A s) (hx : (w.thread? (w.header x)).isSome)
    (hapt : ∀ {m : Machine}, m.Met G w → m.world.Apt E x) {s}
    (hruns : s = .run → ∀ {m : Machine}, m.Met G w → m.world.RunsQuietly E x) (htoText : s ≠ .toText)
    (hequals : s ≠ .equals) (r : RuntimeId) (args : List Value) :
    (Op.dispatch (some r) (some x) s args).Raises G A w fun _ _ => True := by
  refine bind (receiverClass hA "dispatch" x) ?_
  rintro _ c - ⟨m, hm, rfl, hcls⟩
  have hbelongs : m.world.Belongs x .thread := World.Belongs.later (f := .thread) hm.follows.le hx
  obtain ⟨t, ht⟩ := Option.isSome_iff_exists.mp hbelongs
  refine invokeFrom hA hm.reachable (hapt hm) hcls (Class.mem_chain_self c) (some r) nofun ?_
  intro v r' b hv hselector hfamily _ _
  rw [(family_of_thread ht).1] at hfamily
  rcases hfamily with hfamily | hfamily
  · refine threadBody hA hfamily (by rw [hselector]; exact htoText) (hbelongs.later hv.le) (fun hrun n hn => ?_) r' args
    exact hruns (hselector.symm.trans hrun) ⟨hn.reachable, hm.follows.trans (hv.trans hn.follows), hn.holds⟩
  -- The root has only its hash code under any other selector.
  · cases b with
    | objectToText => exact absurd hselector.symm htoText
    | objectEquals => exact absurd hselector.symm hequals
    | objectHashCode => exact observe_bind fun _ => pure trivial
    | _ => cases hfamily

/-- A thread that was initialised runs as its outermost object says, and any other one refuses to run. -/
theorem runThread (hA : ∀ ⦃s⦄, Stop.Regular E s → A s) {t} (hx : w.thread? (w.header x) = some t)
    (hapt : ∀ {m : Machine}, m.Met G w → m.world.Apt E x)
    (hruns : ∀ {m : Machine}, m.Met G w → m.world.RunsQuietly E x) :
    (Op.runThread (w.header x)).Raises G A w fun _ _ => True := by
  refine observe_bind fun {m} hm => ?_
  obtain ⟨hheader, u, hu, -⟩ := thread?_header_later hm.follows.le hx
  rw [hu, Option.getD_some]
  cases hhome : u.home with
  | none => exact fault (hA (.fault _))
  | some home =>
    obtain ⟨q, hself, hq⟩ := hm.reachable.faced hu (by rw [hhome]; rfl)
    rw [hself]
    have hthread : m.world.thread? (m.world.header q) = some u := by rw [hq, hu]
    -- The outermost object has the same thread as `x`, now and later.
    have hsame {n : Machine} (hn : n.Met G m.world) : (∃ t, n.world.thread? (n.world.header x) = some t) ∧
        n.world.header q = n.world.header x := by
      obtain ⟨hlater, u', hu', -⟩ := thread?_header_later hn.follows.le hthread
      obtain ⟨hlater', -⟩ := thread?_header_later (hm.follows.trans hn.follows).le hx
      rw [hlater', hlater, hq]
      rw [hq] at hu'
      exact ⟨⟨u', hu'⟩, rfl⟩
    have hmet {n : Machine} (hn : n.Met G m.world) : n.Met G w :=
      ⟨hn.reachable, hm.follows.trans hn.follows, hn.holds⟩
    refine bind (dispatchThread hA (by rw [hthread]; rfl) ?_ ?_ (by decide) (by decide) home []) fun _ _ _ _ =>
      pure trivial
    · intro n hn
      obtain ⟨⟨t', ht'⟩, hheaders⟩ := hsame hn
      exact (hapt (hmet hn)).of_header ht' hheaders
    · intro _ n hn
      obtain ⟨⟨t', ht'⟩, hheaders⟩ := hsame hn
      exact (hruns (hmet hn)).of_header ht' hheaders

/-- Appending a vetted object to a buffer without a call. -/
theorem appendObject (hA : ∀ ⦃s⦄, Stop.Regular E s → A s) {b} (hb : (w.buffer? b).isSome)
    (hloose : ∀ {m : Machine}, m.Met G w → m.world.LooseBuffer b → A (.panic (.defect .nullDereference)))
    (hx : Vetted E G A x) : (Op.appendObject b (some x)).Raises G A w fun _ _ => True := by
  obtain ⟨⟨home, buf⟩, hbuf⟩ := Option.isSome_iff_exists.mp hb
  refine observe_bind fun {m} hm => ?_
  obtain ⟨buf', hbuf'⟩ := buffer?_later hm.follows.le hbuf
  rw [hbuf']
  refine bind (renderObject hA hx home ?_) ?_
  · rintro rfl
    exact hloose hm ⟨buf', hbuf'⟩
  · rintro v s hv ⟨t, ht⟩
    refine bind (pure (Q := fun _ a => s = a) rfl) ?_
    rintro u _ hu rfl
    refine bind (needText (text?_later hu.le ht)) fun u' _ hu' _ => ?_
    have hfollows := (hm.follows.trans hv).trans (hu.trans hu')
    refine append (World.Belongs.later (f := .buffer) hfollows.le hb) (fun {n} hn hl => ?_) _
    exact hloose ⟨hn.reachable, hfollows.trans hn.follows, hn.holds⟩ hl

/-- **What stops an operation that involves a thread**, in the runs in which the objects that it turns to are sane and that
lead to `v`. -/
theorem involves {e r y} {v : World} (h : Op.Involves w r x e y) (hx : (w.thread? (w.header x)).isSome) :
    y.Raises (fun u => e.Sane E x u ∧ u.Follows v) (e.Stops E v) w fun _ _ => True := by
  have hA : ∀ ⦃s⦄, Stop.Regular E s → e.Stops E v s := fun _ => .regular
  have hvetted {z : ObjId} (hz : z ∈ e.asked) :
      Vetted E (fun u => e.Sane E x u ∧ u.Follows v) (e.Stops E v) z :=
    ⟨fun _ hG => hG.1.apt z (List.mem_cons_of_mem _ hz), fun _ hG hraw => .asked hz (hraw.later hG.2)⟩
  have hapt {m : Machine} (hm : m.Met (fun u => e.Sane E x u ∧ u.Follows v) w) : m.world.Apt E x :=
    hm.holds.1.apt x List.mem_cons_self
  obtain ⟨t, ht⟩ := Option.isSome_iff_exists.mp hx
  cases h with
  | start => exact bind (needThread ht) fun _ o _ _ => bind (start hA o) fun _ _ _ _ => pure trivial
  | join => exact bind (needThread ht) fun _ o _ _ => bind (join hA o) fun _ _ _ _ => pure trivial
  | joinTimeout millis nanos =>
    exact bind (needThread ht) fun _ o _ _ => bind (joinTimeout hA o millis nanos) fun _ _ _ _ => pure trivial
  | joinBounded bound =>
    refine bind (needThread ht) fun _ o _ _ => bind (joinBounded hA o fun b hb => ?_) fun _ _ _ _ => pure trivial
    exact .expired hb
  | run =>
    refine bind (needThread ht) ?_
    rintro u _ hu rfl
    obtain ⟨hheader, t', ht', -⟩ := thread?_header_later hu.le ht
    rw [← hheader] at ht' ⊢
    refine bind (runThread hA ht' (fun {n} hn => ?_) fun {n} hn => ?_) fun _ _ _ _ => pure trivial
    · exact hn.holds.1.apt x List.mem_cons_self
    · exact hn.holds.1.runs rfl
  | @call s args htoText hequals =>
    refine dispatchThread hA hx hapt (fun hrun {n} hn => ?_) htoText hequals r args
    exact hn.holds.1.runs (decide_eq_true hrun)
  | toText args =>
    refine bind (receiverClass hA "dispatch" x) ?_
    rintro _ c - ⟨m, hm, rfl, hcls⟩
    -- The arguments of `toString()` are not looked at, so that they need not be vetted.
    have hself := hvetted List.mem_cons_self
    refine invokeFrom hA hm.reachable (hapt hm) hcls (Class.mem_chain_self c) (some r) nofun ?_
    intro u r' b _ hselector _ hbelongs hbound
    exact toTextBody hA hself r' hselector hbelongs hbound args
  | equals =>
    refine dispatch hA (hvetted List.mem_cons_self) (fun a ha z hz => ?_) r fun hrun => absurd hrun (by decide)
    exact hvetted (List.mem_cons_of_mem _ (List.mem_filterMap.mpr ⟨a, ha, hz⟩))
  | append =>
    refine dispatch hA (hvetted List.mem_cons_self) (fun a ha z hz => ?_) r fun hrun => absurd hrun (by decide)
    exact hvetted (List.mem_cons_of_mem _ (List.mem_filterMap.mpr ⟨a, ha, hz⟩))
  | @appendObject b buffer =>
    refine bind (needBuffer buffer) ?_
    rintro u _ hu rfl
    have hb : (u.buffer? b).isSome := World.Belongs.later (f := .buffer) hu.le buffer
    refine bind (appendObject hA hb (fun {n} hn hloose => ?_) (hvetted List.mem_cons_self)) fun _ _ _ _ =>
      pure trivial
    exact .into rfl (hloose.later hn.holds.2.le)
  | @render a involved =>
    refine bind (render hA (fun z hz => ?_) r) fun _ _ _ _ => pure trivial
    cases involved.symm.trans hz
    exact hvetted List.mem_cons_self

end Op.Raises

/-! ## Operations that ask a thread for its text -/

/-- A class has a built-in body, of its own or inherited, under a selector. -/
def Class.Answers (c : Class) (s : Selector) (arity : Nat) (b : Builtin) : Prop :=
  ∃ home owner meth, c.find? s = some (owner, meth) ∧ meth.arity = arity ∧ meth.code = .builtin home b

namespace World

variable {w v : World} {x : ObjId}

/-- A thread that has the text of threads but was not initialised. -/
def Exposed (w : World) (x : ObjId) : Prop :=
  ∃ c t, w.classOf? x = some c ∧ c.Answers .toText 0 .threadToText ∧ w.thread? (w.header x) = some t ∧ t.home = none

theorem Exposed.later (hv : w.Follows v) (h : w.Exposed x) : v.Exposed x := by
  obtain ⟨c, t, hcls, hanswers, ht, hhome⟩ := h
  have hraw : w.Raw x := ⟨by rw [hcls]; rfl, .inr ⟨t, ht, hhome⟩⟩
  obtain ⟨hheader, u, hu, -⟩ := thread?_header_later hv.le ht
  rw [← hheader] at hu
  refine ⟨c, u, classOf?_later hv.le hcls, hanswers, hu, ?_⟩
  rcases (hraw.later hv).2 with ⟨b, hb⟩ | ⟨u', hu', hhome'⟩
  · cases (family_of_thread hu).2.2.2.symm.trans hb
  · cases hu.symm.trans hu'
    exact hhome'

end World

/-- The operations that ask a thread for its text, whatever else happens. -/
inductive Op.Exposes (w : World) (r : RuntimeId) (x : ObjId) : Op Value → Prop where
  | toText : Exposes w r x (dispatch (some r) (some x) .toText [])
  | render : Exposes w r x do
      let _ ← render (some r) (.ofObject x)
      return .null
  | appendObject {b : ObjId} (buffer : (w.buffer? b).isSome) : Exposes w r x do
      appendObject (← needBuffer (some b)) (some x)
      return .null
  | append {b : ObjId} {home : RuntimeId} {buf : Buffer} (buffer : w.buffer? b = some (some home, buf)) :
      Exposes w r x (dispatch (some r) (some b) .appendObject [.ofObject x])
  | equalsText {y : ObjId} {t : RuntimeId × CharSeq} (text : w.text? y = some t) :
      Exposes w r x (dispatch (some r) (some y) .equals [.ofObject x])
  | equals {c : Class} (cls : w.classOf? x = some c) (answers : c.Answers .equals 1 .objectEquals) (z : ObjId) :
      Exposes w r x (dispatch (some r) (some x) .equals [.ofObject z])

/-- The end of a program by a null dereference. -/
def Outcome.IsCrash (o : Outcome) : Prop := o = .panic (.defect .nullDereference)

/-- An operation that comes to no result and is stopped by nothing but a null dereference. -/
def Op.Crashes {α : Type} (G : World → Prop) (w : World) (x : Op α) : Prop :=
  x.Raises G (fun s => s = .panic (.defect .nullDereference)) w fun _ _ => False

namespace Op.Crashes

variable {α β : Type} {G : World → Prop} {w : World} {x : ObjId} {y : Op Value}

theorem ends (h : y.Crashes G w) : y.toProg.Ends G (fun _ => Outcome.IsCrash) w := by
  refine h (fun _ p hp => ?_) (fun _ _ _ => False.elim) fun _ _ _ => nofun
  cases hp
  rfl

theorem bind {y : Op α} (h : y.Crashes G w) (f : α → Op β) : (y >>= f).Crashes G w :=
  Raises.bind h fun _ _ _ => False.elim

/-- A call of a method that crashes. -/
theorem dispatch {o c} (hcls : w.classOf? o = some c) {s} {args : List Value} {b}
    (answers : c.Answers s args.length b) (home : Option RuntimeId)
    (body : ∀ {v : World} (r : RuntimeId), w.Follows v → (b.run r (some o) args).Crashes G v) :
    (Op.dispatch home (some o) s args).Crashes G w := by
  obtain ⟨r, owner, meth, found, arity, hcode⟩ := answers
  refine Raises.bind (.knownClass hcls "dispatch") ?_
  rintro v _ hv rfl
  show (Op.invokeFrom home c s (some o) args).Crashes G v
  unfold Op.invokeFrom
  rw [found]
  show (Op.invoke owner meth (some o) args).Crashes G v
  unfold Op.invoke
  rw [if_pos arity.symm, hcode]
  intro F k hA _ _
  refine ends_call (H := fun _ => Outcome.IsCrash) (fun {n} hn => ?_) fun out _ hout => ?_
  · exact (body r (hv.trans hn.follows)).ends
  · cases hout
    exact ends_finish fun u _ => hA u _ rfl

theorem toText (hx : w.Exposed x) (home : Option RuntimeId) : (Op.dispatch home (some x) .toText []).Crashes G w := by
  obtain ⟨c, -, hcls, hanswers, -⟩ := id hx
  refine dispatch hcls hanswers home fun {v} r hv => ?_
  obtain ⟨-, t, -, -, ht, -⟩ := hx.later hv
  refine Raises.bind (.needThread ht) ?_
  rintro u _ hu rfl
  refine bind ?_ _
  refine Raises.observe_bind fun {m} hm => ?_
  -- When the name is read the thread still has no runtime to make a string in.
  obtain ⟨-, t', -, -, ht', hhome⟩ := hx.later (hv.trans (hu.trans hm.follows))
  rw [(thread?_header_later (hu.trans hm.follows).le ht).1] at ht'
  rw [ht', Option.getD_some, hhome]
  exact Raises.panic rfl

theorem renderObject (hx : w.Exposed x) (home : Option RuntimeId) : (Op.renderObject home (some x)).Crashes G w := by
  refine Raises.observe_bind fun {m} hm => ?_
  have hlater := hx.later hm.follows
  obtain ⟨-, t, -, -, ht, -⟩ := id hlater
  rw [(family_of_thread ht).2.1]
  exact bind (toText hlater home) _

theorem rendering (hx : w.Exposed x) (home : Option RuntimeId) : (Op.rendering home (some x)).Crashes G w :=
  bind (renderObject hx home) _

theorem render (hx : w.Exposed x) (home : Option RuntimeId) : (Op.render home (.ofObject x)).Crashes G w :=
  bind (rendering hx home) _

theorem appendObject (hx : w.Exposed x) (b : ObjId) : (Op.appendObject b (some x)).Crashes G w := by
  refine Raises.observe_bind fun {m} hm => ?_
  exact bind (renderObject (hx.later hm.follows) _) _

/-- **A thread that was not initialised and is asked for its text.** -/
theorem exposes {m : Machine} (hm : m.Reachable) {r} (h : Op.Exposes m.world r x y) (hx : m.world.Exposed x) :
    y.Crashes G m.world := by
  cases h with
  | toText => exact toText hx (some r)
  | render => exact bind (render hx (some r)) _
  | appendObject buffer =>
    refine Raises.bind (.needBuffer buffer) ?_
    rintro v _ hv rfl
    exact bind (appendObject (hx.later hv) _) _
  | @append b home buf buffer =>
    have hanswers : (Builtin.bufferClass home).Answers .appendObject 1 .bufferAppendObject := ⟨home, _, _, rfl, rfl, rfl⟩
    refine dispatch (hm.seated.classOf? buffer) hanswers (some r) fun {v} r' hv => ?_
    obtain ⟨buf', hbuf⟩ := buffer?_later hv.le buffer
    refine Raises.bind (.needBuffer (by rw [hbuf]; rfl)) ?_
    rintro u _ hu rfl
    exact bind (render (hx.later (hv.trans hu)) (some r')) _
  | @equalsText y t text =>
    have hanswers : (Builtin.textClass t.1).Answers .equals 1 .textEquals := ⟨t.1, _, _, rfl, rfl, rfl⟩
    refine dispatch (hm.classOf?_text text) hanswers (some r) fun {v} r' hv => ?_
    refine Raises.bind (.needText (text?_later hv.le text)) ?_
    rintro u _ hu rfl
    exact bind (bind (rendering (hx.later (hv.trans hu)) (some t.1)) _) _
  | equals cls answers z =>
    refine dispatch cls answers (some r) fun {v} r' hv => ?_
    exact bind (renderObject (hx.later hv) (some r')) _

end Op.Crashes

namespace Machine

/-- Every machine of a run leads to its last one. -/
theorem Reachable.trace_following {P : Machine → Turn → Prop} {m n : Machine} {τs} (hm : m.Reachable)
    (hrun : Trace P m τs n) : Trace (fun q τ => q.world.Follows n.world ∧ P q τ) m τs n := by
  induction hrun with
  | refl m => exact .refl m
  | cons meets move rest ih =>
    have hq := hm.take move
    exact .cons ⟨(hm.follows_take move).trans (hq.follows rest), meets⟩ move (ih hq)

/-- Binds a new thread to the class of threads. -/
def bindThread : Op Unit := do
  let o ← Op.perform (.allocate (.thread {}))
  Op.ofFault (← Op.perform (.construct (some o) (some (Builtin.threadClass 0))))

/-- One task binds a thread to its class, another one is about to start it, and a third one to ask it for its text. -/
def binding : Machine where
  world := World.single {} 3
  tasks := #[{ id := 0, prog := bindThread.toProgUnit },
    { id := 1, prog := (do Op.start (← Op.needThread (some 0)); return .null : Op Value).toProg },
    { id := 2, prog := (Op.dispatch (some 0) (some 0) Selector.toText []).toProg }]

instance : Op.Lawful [.home (some 0)] bindThread := by
  unfold bindThread
  infer_instance

theorem initial_binding : binding.Initial := initial_launch

/-- The machine with the bound thread. -/
def bound : Machine := binding.after (fun _ _ => true) (List.replicate 2 (.step 0))

theorem run_bound : Run binding bound :=
  (follow_trace (P := fun _ _ => True) (fun _ => trivial) (follow_eq_after (by decide +kernel))).run

theorem exposed_bound : bound.world.Exposed 0 :=
  ⟨Builtin.threadClass 0, {}, rfl, ⟨0, _, _, rfl, rfl, rfl⟩, rfl, rfl⟩

/-- The machine once the thread was asked to start. -/
def refused : Machine := bound.after (going 1) (List.replicate 2 (.step 1))

/-- The machine once the thread was asked for its text. -/
def crashed : Machine := bound.after (going 2) (List.replicate 5 (.step 2))

theorem trace_crashed : Trace (Unreturned 2 []) bound (List.replicate 5 (.step 2)) crashed :=
  follow_trace unreturned_of_going (follow_eq_after (by decide +kernel))

end Machine

end ObjectKernel
