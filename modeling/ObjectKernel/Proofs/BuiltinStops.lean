import ObjectKernel.Proofs.Families

/-!
# What stops the built-in methods

Which errors and panics the operations on objects raise, and from there which ones the built-in method bodies do. Every
object that may be asked for its text is taken to be vetted: it is apt for its class whenever a task has a turn, and if it
has a class and belongs to no runtime, then the null dereference that this leads to is reckoned with.

## Contents

* `Op.Raises.newText`, `nullText`, `append`, `start` and their like: the operations on objects.
* `Vetted`: objects that may be asked. `Op.Raises.invokeFrom`: a method of an object is called.
* `Op.Raises.renderObject`, `rendering`, `contentEquals`: renderings.
* `Op.Raises.threadBody`, `body`: the built-in bodies. `Op.Raises.dispatch`, `send`, `dispatchSuper`: the ways of calling.
-/

namespace ObjectKernel

open World Option

variable {x : ObjId}

namespace Op.Raises

variable {E : Err → Prop} {G : World → Prop} {A : Stop → Prop} {w : World} {o : ObjId}

/-! ## Operations on objects -/

/-- An object with a class is a receiver of any call. -/
theorem knownClass {c} (hc : w.classOf? o = some c) (op : Bytes) :
    (Op.receiverClass op (some o)).Raises G A w fun _ a => c = a := by
  refine observe_bind fun {m} hm => ?_
  rw [classOf?_later hm.follows.le hc]
  exact pure rfl

theorem needText {t} (ht : w.text? o = some t) : (Op.needText (some o)).Raises G A w fun _ a => t = a := by
  refine observe_bind fun {m} hm => ?_
  rw [text?_later hm.follows.le ht]
  exact pure rfl

theorem needBuffer (hb : (w.buffer? o).isSome) : (Op.needBuffer (some o)).Raises G A w fun _ a => o = a := by
  obtain ⟨⟨home, buf⟩, hb⟩ := isSome_iff_exists.mp hb
  refine observe_bind fun {m} hm => ?_
  obtain ⟨buf', hb'⟩ := buffer?_later hm.follows.le hb
  rw [hb']
  exact pure rfl

theorem needThread {t} (ht : w.thread? (w.header o) = some t) :
    (Op.needThread (some o)).Raises G A w fun _ a => w.header o = a := by
  refine observe_bind fun {m} hm => ?_
  obtain ⟨hheader, u, hu, -⟩ := thread?_header_later hm.follows.le ht
  rw [hheader, hu]
  exact pure rfl

theorem need (r : RuntimeId) : (Op.need (some r)).Raises G A w fun _ a => r = a := pure rfl

theorem nullText (r : RuntimeId) : (Op.nullText (some r)).Raises G A w fun v a => ∃ t, v.text? a = some t := by
  refine bind (need r) ?_
  rintro v _ - rfl
  refine observe_bind fun {m} hm => ?_
  cases hshared : m.world.constant? r nullLiteral with
  | some s => exact pure ⟨_, text?_of_constant? hm.reachable.sound hshared⟩
  | none =>
    have hmake : (Op.perform (.makeNullText r)).Raises G A m.world fun v a =>
        v.text? a = some (r, .ofBytes nullLiteral) :=
      perform fun _ _ _ _ => text_createText ..
    refine bind hmake fun v s _ hs => perform fun t {n} hn _ => ?_
    exact ⟨_, text?_shareConstant hn.reachable.sound (text?_later hn.follows.le hs)⟩

/-- A buffer that belongs to a runtime takes everything. -/
theorem append (hb : (w.buffer? o).isSome)
    (hloose : ∀ {m : Machine}, m.Met G w → m.world.LooseBuffer o → A (.panic (.defect .nullDereference)))
    (cs : List Rune) : (Op.append o cs).Raises G A w fun _ _ => True := by
  obtain ⟨⟨home, buf⟩, hb⟩ := isSome_iff_exists.mp hb
  have happend : (Op.perform (.append o cs)).Raises G A w fun _ a => ∀ p, a = .error p → A (.panic p) := by
    refine perform fun t {m} hm _ => ?_
    obtain ⟨buf', hb'⟩ := buffer?_later hm.follows.le hb
    show ∀ p, (m.world.attempt (m.world.append o cs)).1 = .error p → A (.panic p)
    unfold World.append
    rw [hb']
    cases home with
    | some r => nofun
    | none =>
      dsimp only
      split
      · nofun
      · rintro p ⟨⟩
        exact hloose hm ⟨buf', hb'⟩
  exact bind happend fun v a _ ha => ofPanic (fun _ _ => trivial) ha

section

variable (hA : ∀ ⦃s⦄, Stop.Regular E s → A s)

include hA

theorem receiverClass (op : Bytes) (o : ObjId) :
    (Op.receiverClass op (some o)).Raises G A w fun v c =>
      ∃ m : Machine, m.Met G w ∧ m.world = v ∧ v.classOf? o = some c := by
  refine observe_bind fun {m} hm => ?_
  cases hc : m.world.classOf? o with
  | some c => exact pure ⟨m, hm, rfl, hc⟩
  | none => exact panic (hA (.panic _))

theorem makeText (r : RuntimeId) (op : Bytes) (s : CharSeq) :
    (Op.makeText (some r) op s).Raises G A w fun v a => v.text? a = some (r, s) := by
  refine bind (need r) ?_
  rintro v _ - rfl
  have hmake : (Op.perform (.makeText r op s)).Raises G A v fun u a => ∀ b, a = .ok b → u.text? b = some (r, s) := by
    refine perform fun t {m} hm _ => ?_
    show ∀ b, (m.world.attemptResult (m.world.makeText r op s)).1 = .ok b →
      (m.world.attemptResult (m.world.makeText r op s)).2.text? b = some (r, s)
    cases hmade : m.world.makeText r op s with
    | error f => nofun
    | ok p =>
      cases makeText_ok hmade
      rintro b ⟨⟩
      exact text_createText ..
  exact bind hmake fun u a _ ha => ofFault ha fun f _ => hA (.fault f)

theorem newText (r : RuntimeId) (b : Bytes) :
    (Op.newText (some r) b).Raises G A w fun v a => v.text? a = some (r, .ofBytes b) := makeText hA r _ _

theorem bufferText (hb : (w.buffer? o).isSome)
    (hloose : ∀ {m : Machine}, m.Met G w → m.world.LooseBuffer o → A (.panic (.defect .nullDereference))) :
    (Op.bufferText o).Raises G A w fun _ _ => True := by
  obtain ⟨⟨home, buf⟩, hb⟩ := isSome_iff_exists.mp hb
  have hmake : (Op.perform (.bufferText o)).Raises G A w fun _ a => ∀ s, a = .error s → A s := by
    refine perform fun t {m} hm _ => ?_
    obtain ⟨buf', hb'⟩ := buffer?_later hm.follows.le hb
    show ∀ s, (m.world.attemptResult (m.world.bufferText o)).1 = .error s → A s
    unfold World.bufferText
    rw [hb']
    dsimp only
    cases hfailure : buf'.failure with
    | some e =>
      obtain ⟨f, rfl⟩ := hm.reachable.seated.failsByFault hb' hfailure
      rintro s ⟨⟩
      exact hA (.fault f)
    | none =>
      cases home with
      | none =>
        rintro s ⟨⟩
        exact hloose hm ⟨buf', hb'⟩
      | some r =>
        dsimp only
        cases m.world.makeText r "StringBuffer.toString" (.ofRunes buf'.chars) with
        | ok => nofun
        | error f =>
          rintro s ⟨⟩
          exact hA (.fault f)
  refine bind hmake fun v a _ ha => ?_
  rcases a with (e | p) | s
  · exact throw (ha _ rfl)
  · exact panic (ha _ rfl)
  · exact pure trivial

/-- The answer of an appending call. -/
theorem appended (o : ObjId) : (Op.appended o).Raises G A w fun _ _ => True := by
  refine observe_bind fun {m} hm => ?_
  cases hfailure : (m.world.buffer? o).bind (·.2.failure) with
  | some e =>
    obtain ⟨⟨home, b⟩, hb, hfailed⟩ := bind_eq_some_iff.mp hfailure
    obtain ⟨f, rfl⟩ := hm.reachable.seated.failsByFault hb hfailed
    exact throw (hA (.fault f))
  | none => exact pure trivial

/-! ## Operations on threads -/

/-- Whatever state a thread is in, it can be asked to start. -/
theorem start (o : ObjId) : (Op.start o).Raises G A w fun _ _ => True := by
  refine observe_bind fun {m} hm => ?_
  -- What the thread knows about itself decides at once whether it refuses; after that only a second start does.
  generalize (m.world.thread? o).getD {} = t
  dsimp only
  have hreserved : (do
      if ← Op.perform (.reserveStart o) then
        Op.perform (.setState o .started)
        Op.perform (.register o)
        Op.spawn o
      else Op.fault (.alreadyStarted (← Op.threadOf o).name) : Op Unit).Raises G A m.world fun _ _ => True := by
    refine bind (perform (Q := fun _ _ => True) fun _ _ _ _ => trivial) fun v reserved _ _ => ?_
    cases reserved with
    | true =>
      refine bind (perform (Q := fun _ _ => True) fun _ _ _ _ => trivial) fun _ _ _ _ => ?_
      exact bind (perform (Q := fun _ _ => True) fun _ _ _ _ => trivial) fun _ _ _ _ => spawn o
    | false => exact observe_bind fun _ => fault (hA (.fault _))
  cases t.home with
  | none => exact fault (hA (.fault _))
  | some home =>
    cases t.adopted with
    | true => exact fault (hA (.fault _))
    | false => exact hreserved

theorem joinable (t : Thread) : (Op.ofFault t.joinable).Raises G A w fun _ _ => True :=
  ofFault (fun _ _ => trivial) fun f _ => hA (.fault f)

theorem join (o : ObjId) : (Op.join o).Raises G A w fun _ _ => True := by
  refine observe_bind fun {m} hm => bind (joinable hA _) fun v _ _ _ => ?_
  exact bind (await ..) fun _ _ _ _ => pure trivial

theorem joinTimeout (o : ObjId) (millis : Int64) (nanos : Int32) :
    (Op.joinTimeout o millis nanos).Raises G A w fun _ _ => True := by
  refine bind (ofFault (Q := fun _ _ => True) (fun _ _ => trivial) fun f _ => hA (.fault f)) fun _ d _ _ => ?_
  refine observe_bind fun _ => bind (joinable hA _) fun _ _ _ _ => ?_
  exact bind (await ..) fun _ _ _ _ => pure trivial

/-- A join that is given a bound may reach it, and that is an error. -/
theorem joinBounded (o : ObjId) {bound} (hbound : ∀ e, bound = some e → A (.error (.expired e))) :
    (Op.joinBounded o bound).Raises G A w fun _ _ => True := by
  refine observe_bind fun _ => bind (joinable hA _) fun _ _ _ _ => ?_
  refine bind (await ..) fun _ ended _ _ => ?_
  cases ended with
  | true => cases bound <;> exact pure trivial
  | false =>
    cases bound with
    | none => exact pure trivial
    | some e => exact throw (hbound e rfl)

/-- A thread is shown by its name in its runtime, if it has one. -/
theorem threadText {t} (ht : w.thread? o = some t)
    (hraw : ∀ {m : Machine} {u : Thread}, m.Met G w → m.world.thread? o = some u → u.home = none →
      A (.panic (.defect .nullDereference))) : (Op.threadText o).Raises G A w fun _ _ => True := by
  refine observe_bind fun {m} hm => ?_
  obtain ⟨u, hu, -⟩ := thread?_later hm.follows.le ht
  rw [hu, getD_some]
  cases hhome : u.home with
  | none => exact panic (hraw hm hu hhome)
  | some home => exact (newText hA home _).imp fun _ _ _ _ => trivial

end

end Op.Raises

/-! ## Calls of methods -/

/-- An object that is apt for its class whenever a task has a turn. If it is raw, a null dereference is reckoned with. -/
structure Vetted (E : Err → Prop) (G : World → Prop) (A : Stop → Prop) (o : ObjId) : Prop where
  apt : ∀ {m : Machine}, m.Reachable → G m.world → m.world.Apt E o
  raw : ∀ {m : Machine}, m.Reachable → G m.world → m.world.Raw o → A (.panic (.defect .nullDereference))

/-- The objects that the arguments of a call refer to. -/
theorem Builtin.argument_ref {args i} (h : (Builtin.argument args i).ref = some x) : ∃ a ∈ args, a.ref = some x := by
  unfold Builtin.argument at h
  rw [List.getD_eq_getElem?_getD] at h
  cases ha : args[i]? with
  | none =>
    rw [ha] at h
    cases h
  | some a =>
    rw [ha] at h
    exact ⟨a, List.mem_of_getElem? ha, h⟩

theorem Value.ref_of_asObject {a : Value} (h : a.asObject = some x) : a.ref = some x := by
  unfold Value.asObject at h
  split at h
  · exact h
  · cases h

namespace Op.Raises

variable {E : Err → Prop} {G : World → Prop} {A : Stop → Prop} {w : World} {o : ObjId} {m : Machine}
  (hA : ∀ ⦃s⦄, Stop.Regular E s → A s) {b : Builtin} {args : List Value} {z : Option ObjId}

include hA

/-- **A method of an apt object**: its class has none, or one that does not panic, or a body that is written for it. -/
theorem invokeFrom (hm : m.Reachable) (hapt : m.world.Apt E o) {c d} (hcls : m.world.classOf? o = some c)
    (hd : d ∈ c.chain) (home : Option RuntimeId) (hhome : home = none → A (.panic (.defect .nullDereference))) {s}
    (hbody : ∀ {v : World} {r : RuntimeId} {b : Builtin}, m.world.Follows v → b.selector = s →
      b.family = m.world.family o ∨ b.family = .any → v.Belongs o b.family → (v.classOf? o).isSome →
      (b.run r (some o) args).Raises G A v fun _ _ => True) :
    (Op.invokeFrom home d s (some o) args).Raises G A m.world fun _ _ => True := by
  unfold Op.invokeFrom
  cases found : d.find? s with
  | none =>
    cases home with
    | none => exact panic (hhome rfl)
    | some r => exact bind (need r) fun _ _ _ _ => observe_bind fun _ => fault (hA (.fault _))
  | some p =>
    obtain ⟨owner, meth⟩ := p
    show (Op.invoke owner meth (some o) args).Raises G A m.world _
    unfold Op.invoke
    split
    · refine call fun {n} hn => ?_
      -- The method is one that a program has added, or a body of the family of the object or of the root.
      rcases (hapt hcls).find? hd found with hquiet | ⟨r, b, hcode, hfamily, hselector⟩
      · exact (hquiet (some o) args).ends (fun {_} hs => hA hs) G n.world
      · have hbelongs : m.world.Belongs o b.family := by
          rcases hfamily with hfamily | hfamily
          · rw [hfamily]
            exact belongs_family hm.sound o
          · rw [hfamily]
            trivial
        rw [hcode]
        refine (hbody hn.follows hselector hfamily (hbelongs.later hn.follows.le) ?_).ends
        rw [classOf?_later hn.follows.le hcls]
        rfl
    · exact fault (hA (.fault _))

/-- The bodies that answer with a text. -/
theorem toTextBody (ho : Vetted E G A o) (r : RuntimeId) (hselector : b.selector = .toText)
    (hbelongs : w.Belongs o b.family) (hcls : (w.classOf? o).isSome) (args : List Value) :
    (b.run r (some o) args).Raises G A w fun _ _ => True := by
  cases b with
  | objectToText =>
    refine bind (receiverClass hA "classOf" o) fun v c _ _ => observe_bind fun _ => ?_
    exact bind (newText hA r _) fun _ _ _ _ => pure trivial
  | textToText => exact pure trivial
  | bufferToText =>
    refine bind (needBuffer hbelongs) ?_
    rintro v _ hv rfl
    have hb : (v.buffer? o).isSome := World.Belongs.later (f := .buffer) hv.le hbelongs
    refine bind (bufferText hA hb fun {m} hm hloose => ?_) fun _ _ _ _ => pure trivial
    exact ho.raw hm.reachable hm.holds ⟨isSome_classOf?_later (hv.trans hm.follows).le hcls, .inl hloose⟩
  | threadToText =>
    obtain ⟨t, ht⟩ := isSome_iff_exists.mp hbelongs
    refine bind (needThread ht) ?_
    rintro v _ hv rfl
    obtain ⟨hheader, u, hu, -⟩ := thread?_header_later hv.le ht
    refine bind (threadText hA hu fun {m u'} hm hu' hhome => ?_) fun _ _ _ _ => pure trivial
    have hfollows := hv.trans hm.follows
    obtain ⟨hheader', -⟩ := thread?_header_later hfollows.le ht
    refine ho.raw hm.reachable hm.holds ⟨isSome_classOf?_later hfollows.le hcls, .inr ⟨u', ?_, hhome⟩⟩
    rw [hheader']
    exact hu'
  | _ => exact absurd hselector (by decide)

/-! ## Renderings -/

theorem renderObject (ho : Vetted E G A o) (home : Option RuntimeId)
    (hhome : home = none → A (.panic (.defect .nullDereference))) :
    (Op.renderObject home (some o)).Raises G A w fun v s => ∃ t, v.text? s = some t := by
  refine observe_bind fun {m} hm => ?_
  -- A string is its own text. Anything else is asked for it, and the answer may be null or no string at all.
  cases htext : m.world.text? o with
  | some t => exact pure ⟨t, htext⟩
  | none =>
    have hasked : (Op.dispatch home (some o) Selector.toText []).Raises G A m.world fun _ _ => True := by
      refine bind (receiverClass hA "dispatch" o) ?_
      rintro _ c - ⟨n, hn, rfl, hcls⟩
      refine invokeFrom hA hn.reachable (ho.apt hn.reachable hn.holds) hcls (Class.mem_chain_self c) home hhome ?_
      intro v r b _ hselector _ hbelongs hbound
      exact toTextBody hA ho r hselector hbelongs hbound []
    have hnull {v : World} : (Op.nullText home).Raises G A v fun v s => ∃ t, v.text? s = some t := by
      cases home with
      | none => exact panic (hhome rfl)
      | some r => exact nullText r
    refine bind hasked fun v a _ _ => ?_
    split
    · exact hnull
    · refine observe_bind fun {n} hn => ?_
      cases hs : a.asObject.filter fun s => (n.world.text? s).isSome with
      | some s => exact pure (isSome_iff_exists.mp (filter_eq_some_iff.mp hs).2)
      | none =>
        refine bind (receiverClass hA "classOf" o) fun _ _ _ _ => observe_bind fun _ => ?_
        exact fault (hA (.fault _))

theorem rendering (hz : ∀ x, z = some x → Vetted E G A x) (r : RuntimeId) :
    (Op.rendering (some r) z).Raises G A w fun _ _ => True := by
  have hrender : (Op.renderObject (some r) z).Raises G A w fun v s => ∃ t, v.text? s = some t := by
    cases z with
    | none => exact nullText r
    | some x => exact renderObject hA (hz x rfl) (some r) nofun
  refine bind hrender ?_
  rintro v s - ⟨t, ht⟩
  exact bind (needText ht) fun _ _ _ _ => pure trivial

theorem render {a : Value} (ha : ∀ x, a.ref = some x → Vetted E G A x)
    (r : RuntimeId) : (Op.render (some r) a).Raises G A w fun _ _ => True := by
  unfold Op.render
  split
  · exact pure trivial
  · exact bind (rendering hA ha r) fun _ _ _ _ => pure trivial

theorem contentEquals (hz : ∀ x, z = some x → Vetted E G A x) (r : RuntimeId) (s : CharSeq) :
    (Op.contentEquals r s z).Raises G A w fun _ _ => True := by
  cases z with
  | none => exact pure trivial
  | some x => exact bind (rendering hA hz r) fun _ _ _ _ => pure trivial

/-! ## The built-in bodies -/

/-- A work item runs its code, if it has any. -/
theorem runnableRun {code} (hcode : w.runnable? o = some code)
    (hquiet : ∀ {m : Machine}, m.Met G w → ∀ c ∈ code, (Activation.code c none []).Quiet E) (r : RuntimeId)
    (args : List Value) : (Builtin.runnableRun.run r (some o) args).Raises G A w fun _ _ => True := by
  refine observe_bind fun {m} hm => ?_
  rw [runnable?_later hm.follows.le hcode]
  cases code with
  | none => exact pure trivial
  | some c =>
    refine bind (call fun {n} _ => ?_) fun _ _ _ _ => pure trivial
    exact (hquiet hm c rfl).ends (fun {_} hs => hA hs) G n.world

/-- A thread runs its work item, if it has one. -/
theorem threadRun
    (hruns : ∀ {m : Machine}, m.Met G w → m.world.RunsQuietly E o) (hbelongs : w.Belongs o .thread) (r : RuntimeId)
    (args : List Value) : (Builtin.threadRun.run r (some o) args).Raises G A w fun _ _ => True := by
  obtain ⟨t, ht⟩ := isSome_iff_exists.mp hbelongs
  refine bind (needThread ht) ?_
  rintro v _ hv rfl
  refine observe_bind fun {m} hm => ?_
  have hfollows := hv.trans hm.follows
  obtain ⟨hheader, u, hu, -⟩ := thread?_header_later hfollows.le ht
  rw [hu, getD_some]
  cases htarget : u.target with
  | none => exact pure trivial
  | some x =>
    rw [← hheader] at hu
    obtain ⟨home, code, hcls, hcode, hquiet⟩ := (hruns ⟨hm.reachable, hfollows, hm.holds⟩).target hu htarget
    refine bind (receiverClass hA "dispatch" x) ?_
    rintro _ c - ⟨n, hn, rfl, hc⟩
    cases (classOf?_later hn.follows.le hcls).symm.trans hc
    -- The class of work items has nothing but `runnableRun` under this selector.
    refine call fun {p} hp => ?_
    have hcode' := runnable?_later (hn.follows.trans hp.follows).le hcode
    exact (runnableRun hA hcode' (fun _ => hquiet) _ []).ends

/-- **The bodies of threads** other than `toString()` do not depend on whether the thread was initialised. -/
theorem threadBody (hfamily : b.family = .thread) (hselector : b.selector ≠ .toText) (hbelongs : w.Belongs o .thread)
    (hruns : b.selector = .run → ∀ {m : Machine}, m.Met G w → m.world.RunsQuietly E o) (r : RuntimeId)
    (args : List Value) : (b.run r (some o) args).Raises G A w fun _ _ => True := by
  obtain ⟨t, ht⟩ := isSome_iff_exists.mp hbelongs
  cases b with
  | threadRun => exact threadRun hA (hruns rfl) hbelongs r args
  | threadStart => exact bind (needThread ht) fun _ x _ _ => bind (start hA x) fun _ _ _ _ => pure trivial
  | threadJoin => exact bind (needThread ht) fun _ x _ _ => bind (join hA x) fun _ _ _ _ => pure trivial
  | threadJoinMillis =>
    exact bind (needThread ht) fun _ x _ _ => bind (joinTimeout hA x _ _) fun _ _ _ _ => pure trivial
  | threadJoinNanos =>
    exact bind (needThread ht) fun _ x _ _ => bind (joinTimeout hA x _ _) fun _ _ _ _ => pure trivial
  | threadIsAlive => exact bind (needThread ht) fun _ x _ _ => observe_bind fun _ => pure trivial
  | threadToText => exact absurd rfl hselector
  | _ => cases hfamily

/-- **The built-in bodies** raise nothing but what is regular, on vetted objects. -/
theorem body (ho : Vetted E G A o) (hargs : ∀ a ∈ args, ∀ x, a.ref = some x → Vetted E G A x) (r : RuntimeId)
    (hruns : b.selector = .run → ∀ {m : Machine}, m.Met G w → m.world.RunsQuietly E o)
    (hbelongs : w.Belongs o b.family) (hcls : (w.classOf? o).isSome) :
    (b.run r (some o) args).Raises G A w fun _ _ => True := by
  have hargument {i : Nat} {x : ObjId} (hx : (Builtin.argument args i).ref = some x) : Vetted E G A x := by
    obtain ⟨a, ha, href⟩ := Builtin.argument_ref hx
    exact hargs a ha x href
  -- An append through a call puts the text into the buffer and then looks whether the buffer has failed.
  have happend {v : World} (hv : w.Follows v) (hb : (w.buffer? o).isSome) (bytes : Bytes) :
      (do Op.appendBytes o bytes; Op.appended o : Op Value).Raises G A v fun _ _ => True := by
    refine bind (append (World.Belongs.later (f := .buffer) hv.le hb) (fun {m} hm hloose => ?_) _)
      fun _ _ _ _ => appended hA o
    exact ho.raw hm.reachable hm.holds ⟨isSome_classOf?_later (hv.trans hm.follows).le hcls, .inl hloose⟩
  cases b with
  | objectToText => exact toTextBody hA ho r rfl hbelongs hcls args
  | textToText => exact toTextBody hA ho r rfl hbelongs hcls args
  | bufferToText => exact toTextBody hA ho r rfl hbelongs hcls args
  | threadToText => exact toTextBody hA ho r rfl hbelongs hcls args
  | objectEquals =>
    dsimp only [Builtin.run]
    split
    · exact pure trivial
    · rename_i other hother
      -- The receiver is rendered first, and then the argument in the runtime of that text.
      refine bind (renderObject hA ho (some r) (absurd · (some_ne_none r))) ?_
      rintro v s - ⟨t, ht⟩
      refine bind (needText ht) ?_
      rintro u _ - rfl
      refine bind (contentEquals hA ?_ _ _) fun _ _ _ _ => pure trivial
      rintro x ⟨⟩
      exact hargument (Value.ref_of_asObject hother)
  | objectHashCode => exact observe_bind fun _ => pure trivial
  | textEquals =>
    obtain ⟨t, ht⟩ := isSome_iff_exists.mp hbelongs
    refine bind (needText ht) ?_
    rintro v _ - rfl
    refine bind (contentEquals hA (fun x hx => hargument (Value.ref_of_asObject hx)) _ _) fun _ _ _ _ => pure trivial
  | textCharAt =>
    obtain ⟨t, ht⟩ := isSome_iff_exists.mp hbelongs
    refine bind (needText ht) ?_
    rintro v _ - rfl
    refine bind (ofFault (Q := fun _ _ => True) (fun _ _ => trivial) fun f _ => ?_) fun _ _ _ _ => pure trivial
    exact hA (.fault f)
  | textLength =>
    obtain ⟨t, ht⟩ := isSome_iff_exists.mp hbelongs
    exact bind (needText ht) fun _ _ _ _ => pure trivial
  | textHashCode =>
    obtain ⟨t, ht⟩ := isSome_iff_exists.mp hbelongs
    exact bind (needText ht) fun _ _ _ _ => pure trivial
  | bufferAppendObject =>
    refine bind (needBuffer hbelongs) ?_
    rintro v _ hv rfl
    exact bind (render hA (fun x hx => hargument hx) r) fun u bytes hu _ => happend (hv.trans hu) hbelongs bytes
  | bufferAppendInt =>
    refine bind (needBuffer hbelongs) ?_
    rintro v _ hv rfl
    exact happend hv hbelongs _
  | bufferAppendLong =>
    refine bind (needBuffer hbelongs) ?_
    rintro v _ hv rfl
    exact happend hv hbelongs _
  | bufferLength =>
    refine bind (needBuffer hbelongs) ?_
    rintro v _ hv rfl
    exact observe_bind fun _ => pure trivial
  | threadRun | threadStart | threadJoin | threadJoinMillis | threadJoinNanos | threadIsAlive =>
    exact threadBody hA rfl (by decide) hbelongs hruns r args
  | runnableRun =>
    obtain ⟨code, hcode⟩ := isSome_iff_exists.mp hbelongs
    refine runnableRun hA hcode (fun {m} hm c hc => (hruns rfl hm).code ?_) r args
    rw [runnable?_later hm.follows.le hcode]
    exact congrArg some hc

/-! ## The ways of calling -/

section

variable (ho : Vetted E G A o) {args : List Value}
  (hargs : ∀ a ∈ args, ∀ x, a.ref = some x → Vetted E G A x) (r : RuntimeId)

include ho hargs

/-- A call by selector. What the object has to run matters for `run()` only. -/
theorem dispatch {s} (hruns : s = .run → ∀ {m : Machine}, m.Reachable → G m.world → m.world.RunsQuietly E o) :
    (Op.dispatch (some r) (some o) s args).Raises G A w fun _ _ => True := by
  refine bind (receiverClass hA "dispatch" o) ?_
  rintro _ c - ⟨m, hm, rfl, hcls⟩
  refine invokeFrom hA hm.reachable (ho.apt hm.reachable hm.holds) hcls (Class.mem_chain_self c) (some r) nofun ?_
  intro v r' b _ hselector _ hbelongs hbound
  refine body hA ho hargs r' (fun hrun _ hn => ?_) hbelongs hbound
  exact hruns (hselector.symm.trans hrun) hn.reachable hn.holds

variable (hruns : ∀ {m : Machine}, m.Reachable → G m.world → m.world.RunsQuietly E o)

include hruns

theorem send (signature : Bytes) : (Op.send (some r) (some o) signature args).Raises G A w fun _ _ => True := by
  refine bind (receiverClass hA "send" o) fun _ c _ _ => bind (need r) ?_
  rintro v _ - rfl
  refine observe_bind fun {m} _ => ?_
  split
  · exact fault (hA (.fault _))
  · exact dispatch hA ho hargs r fun _ => hruns

/-- A call from above a class of the receiver's chain. -/
theorem dispatchSuper {c} (hcls : w.classOf? o = some c) {origin} (horigin : origin ∈ c.chain) (s : Selector) :
    (Op.dispatchSuper (some r) (some o) (some origin) s args).Raises G A w fun _ _ => True := by
  refine bind (receiverClass hA "dispatchSuper" o) ?_
  rintro _ c' hfollows ⟨m, hm, rfl, hc⟩
  cases (classOf?_later hfollows.le hcls).symm.trans hc
  cases hparent : (some origin).bind Class.parent? with
  | none => exact fault (hA (.fault _))
  | some p =>
    have hp : p ∈ c.chain := Class.chain_subset horigin (Class.mem_chain_parent hparent)
    refine invokeFrom hA hm.reachable (ho.apt hm.reachable hm.holds) hc hp (some r) nofun ?_
    intro v r' b _ _ _ hbelongs hbound
    exact body hA ho hargs r' (fun _ _ hn => hruns hn.reachable hn.holds) hbelongs hbound

end

end Op.Raises

end ObjectKernel
