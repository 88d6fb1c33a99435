import ObjectKernel.Proofs.BufferOrigins
import ObjectKernel.Proofs.Inheritance
import ObjectKernel.Proofs.Literals
import ObjectKernel.Proofs.Results

/-!
# Renderings that can be repeated

An object may be rendered as something else each time, for `toString()` may do anything. Where it does not, the
object is rendered as the same characters whoever asks, or fails each time. Strings are such objects, and so
are those that are rendered by the name of their class and their hash, and buffers while nothing is appended to
them.

## Contents

* `Machine.Reachable.classOf?_text`: strings have the class of strings.
* `Rendering`, `Machine.Renders`: what an object is rendered as in the runs from a machine.
* `Machine.renders_text`, `renders_default`, `renders_buffer`: objects whose renderings can be repeated.
-/

namespace ObjectKernel

/-! ## The class of strings -/

namespace World

variable {w v : World} {i : Instr}

/-- Strings have the class of strings. -/
def Worded (w : World) : Prop :=
  ∀ ⦃o : ObjId⦄ ⦃t : RuntimeId × CharSeq⦄, w.text? o = some t →
    w.classOf? o = some (Builtin.textClass t.1)

theorem classOf?_create {p c} (hp : ∀ part, p ≠ .extended part) {o obj} (ho : w.object? o = none)
    (h : (w.create p c).2.object? o = some obj) : (w.create p c).2.classOf? o = some c := by
  obtain ⟨hcls, hpayload⟩ := object?_create hp ho h
  exact (classOf?_of_object? h fun part => hpayload ▸ hp part).trans hcls

theorem makeText_of_fits {home} {op : Bytes} {s} (fits : w.Fits home s) :
    w.makeText home op s = .ok (w.create (.text home s) (Builtin.textClass home)) := by
  rw [makeText_eq]
  refine if_neg ?_
  rintro ⟨hpos, hlong⟩
  exact Int.not_lt.mpr (fits hpos) hlong

/-- Where a string is made it is given its class. -/
theorem exec_of_makes {t} (h : i.Makes w t) (task : TaskId) :
    (i.exec task w).2 = w ∨ (i.exec task w).2 = (w.create (.text t.1 t.2) (Builtin.textClass t.1)).2 := by
  cases h with
  | @text home op s fits =>
    right
    show (w.attemptResult (w.makeText home op s)).2 = _
    rw [makeText_of_fits fits]
    rfl
  | null home => exact .inr rfl
  | @buffer o home b content fits =>
    show (w.attemptResult (w.bufferText o)).2 = w ∨ (w.attemptResult (w.bufferText o)).2 = _
    unfold bufferText
    rw [content]
    dsimp only
    cases b.failure with
    | some e => exact .inl rfl
    | none =>
      right
      dsimp only
      rw [makeText_of_fits fits]
      rfl

/-- What a task does leaves strings with their class. -/
theorem Worded.exec (h : w.Worded) {hand} (hi : i.Works hand w) {task} (hle : w ≤ (i.exec task w).2) :
    (i.exec task w).2.Worded := by
  intro o t ht
  cases hold : w.object? o with
  | some old => exact classOf?_later hle (h (text?_of_later hle (by rw [hold]; rfl) ht))
  | none =>
    have hnone : w.text? o = none := by
      unfold text?
      rw [hold]
    obtain ⟨obj, hobj, hp⟩ := text?_eq_some.mp ht
    rcases i.text?_exec hi ht with htext | hmade
    · cases hnone.symm.trans htext
    · rcases exec_of_makes hmade task with hsame | hcreated
      · rw [hsame] at hobj
        cases hold.symm.trans hobj
      · rw [hcreated] at hobj ⊢
        exact classOf?_create (p := .text t.1 t.2) nofun hold hobj

end World

/-- **In every machine that can be reached strings have the class of strings.** -/
theorem Machine.Reachable.classOf?_text {m : Machine} (hm : m.Reachable) {o t} (ht : m.world.text? o = some t) :
    m.world.classOf? o = some (Builtin.textClass t.1) := by
  obtain ⟨m₀, h₀, hrun⟩ := hm
  obtain ⟨τs, htrace⟩ := hrun.trace
  refine history_trace (f := fun _ _ => ([] : List Unit)) (I := fun w _ => w.Worded) ?_
    (fun h => h) h₀.reachable htrace [] ?_ ht
  · intro m j i k fs xs task hm hat hle h
    obtain ⟨hand, hworks⟩ := hm.works hat
    exact h.exec hworks hle
  · intro o t ht
    obtain ⟨obj, hobj, -⟩ := World.text?_eq_some.mp ht
    cases (h₀.fresh.object? o).symm.trans hobj

/-! ## What an object is rendered as -/

open World Op

/-- What a rendering comes to: a string with given characters, or, if there are none, an error as `F`
says. -/
inductive Rendering (F : Err → Prop) (w : World) : Option (List Rune) → Except Err ObjId → Prop where
  | chars {s : ObjId} {t : RuntimeId × CharSeq} (text : w.text? s = some t) :
      Rendering F w (some t.2.chars) (.ok s)
  | error {e : Err} (fails : F e) : Rendering F w none (.error e)

theorem Rendering.later {F : Err → Prop} {w v x r} (hle : w ≤ v) (h : Rendering F w x r) : Rendering F v x r := by
  cases h with
  | chars text => exact .chars (text?_later hle text)
  | error fails => exact .error fails

/-! ## Operations that strings take part in -/

namespace World

variable {w v : World} {r : RuntimeId} {literal : Bytes}

instance (w : World) (r : RuntimeId) (literal : Bytes) : Decidable (w.TooLong r literal) :=
  inferInstanceAs (Decidable (_ ∧ _))

/-- The characters of a literal; none if a runtime has no room for them. -/
def chars? (w : World) (r : RuntimeId) (literal : Bytes) : Option (List Rune) :=
  if w.TooLong r literal then none else some (Utf8.decode literal)

theorem chars?_of_fits (h : ¬w.TooLong r literal) : w.chars? r literal = some (Utf8.decode literal) := if_neg h

theorem chars?_eq_none : w.chars? r literal = none ↔ w.TooLong r literal := by
  unfold chars?
  split <;> simp [*]

theorem tooLong_later (h : w ≤ v) (hr : w.Has r) (literal : Bytes) : v.TooLong r literal ↔ w.TooLong r literal := by
  unfold TooLong
  rw [config_later h hr]

theorem chars?_later (h : w ≤ v) (hr : w.Has r) (literal : Bytes) :
    v.chars? r literal = w.chars? r literal := if_congr (tooLong_later h hr literal) rfl rfl

/-- An object that has a class keeps its hash. -/
theorem hashOf_later (h : w ≤ v) {o c} (hc : w.classOf? o = some c) : v.hashOf o = w.hashOf o := by
  obtain ⟨obj, ho⟩ := exists_of_classOf? hc
  obtain ⟨header, hheader, hcls⟩ := Option.bind_eq_some_iff.mp hc
  obtain ⟨header', hheader', hl⟩ := h.objects hheader
  unfold hashOf
  rw [header_later h ho, hheader, hheader']
  exact (hl.cls hcls).2

end World

/-- What an object of a class is rendered as by default. -/
def Class.label (c : Class) (hash : UInt32) : Bytes := c.name ++ "@" ++ Bytes.hexOfNat hash.toNat

/-- An error is one of something that is too long. -/
def Err.IsOverflow (e : Err) : Prop := e.kind? = some .overflow

namespace Op.Gives

variable {P : Machine → Turn → Prop} {H : Machine → Prop} {m : Machine} {o : ObjId} {r : RuntimeId}

theorem receiverClass (hm : m.Reachable) {c} (hcls : m.world.classOf? o = some c) (op : Bytes) :
    Gives P H m (Op.receiverClass op (some o)) fun _ r => r = .ok c := by
  refine .observe_bind fun hrun => ?_
  rw [classOf?_later (hm.le hrun.run) hcls]
  exact .pure fun _ => rfl

theorem needText (hm : m.Reachable) {t} (ht : m.world.text? o = some t) :
    Gives P H m (Op.needText (some o)) fun _ r => r = .ok t := by
  refine .observe_bind fun hrun => ?_
  rw [text?_later (hm.le hrun.run) ht]
  exact .pure fun _ => rfl

theorem needBuffer {home buf} (hb : ∀ {τs n}, Machine.Trace P m τs n → n.world.buffer? o = some (home, buf)) :
    Gives P H m (Op.needBuffer (some o)) fun _ r => r = .ok o := by
  refine .observe_bind fun hrun => ?_
  rw [hb hrun]
  exact .pure fun _ => rfl

/-- A new string has the content that it is given, unless that is too long. -/
theorem makeText (hm : m.Reachable) (hr : m.world.Has r) (op : Bytes) (s : CharSeq) :
    Gives P H m (Op.makeText (some r) op s) fun w a =>
      (m.world.Fits r s ∧ ∃ o, a = .ok o ∧ w.text? o = some (r, s)) ∨
      (¬ m.world.Fits r s ∧ ∃ f : Fault, f.kind = .overflow ∧ a = .error (.fault f)) := by
  have hmake : Gives P H m (Op.perform (.makeText r op s)) fun w a =>
      (m.world.Fits r s ∧ ∃ o, a = .ok (.ok o) ∧ w.text? o = some (r, s)) ∨
      (¬ m.world.Fits r s ∧ ∃ f : Fault, f.kind = .overflow ∧ a = .ok (.error f)) := by
    refine .perform fun {τs n} id hrun => ?_
    show (_ ∧ ∃ o, Except.ok (n.world.attemptResult (n.world.makeText r op s)).1 = _ ∧
      (n.world.attemptResult (n.world.makeText r op s)).2.text? o = _) ∨
      (_ ∧ ∃ f : Fault, _ ∧ Except.ok (n.world.attemptResult (n.world.makeText r op s)).1 = _)
    unfold Fits
    rw [makeText_eq, config_later (hm.le hrun.run) hr]
    split
    · rename_i hlong
      exact .inr ⟨fun hfits => Int.not_lt.mpr (hfits hlong.1) hlong.2, _, rfl, rfl⟩
    · rename_i hfits
      exact .inl ⟨fun hpos => Int.not_lt.mp fun hlong => hfits ⟨hpos, hlong⟩, _, rfl, text_createText ..⟩
  refine hmake.bind (fun {τs n a} hrun ha => ?_) fun _ he => ?_
  · rcases ha with ⟨hfits, o, ha, htext⟩ | ⟨hlong, f, hkind, ha⟩ <;> cases ha
    · exact .pure fun hrun' => .inl ⟨hfits, o, rfl, text?_later ((hm.run hrun.run).le hrun'.run) htext⟩
    · exact .ofExcept fun _ => .inr ⟨hlong, f, hkind, rfl⟩
  · rcases he with ⟨-, o, he, -⟩ | ⟨-, f, -, he⟩ <;> cases he

/-- A new string has the characters of the literal, unless they are too many. -/
theorem newText (hm : m.Reachable) (hr : m.world.Has r) (literal : Bytes) :
    Gives P H m (Op.newText (some r) literal) fun w => Rendering Err.IsOverflow w (m.world.chars? r literal) := by
  refine (makeText hm hr "String.<init>" (.ofBytes literal)).imp fun _ ha => ?_
  rw [fits_iff_not_tooLong, not_not] at ha
  rcases ha with ⟨hfits, o, rfl, htext⟩ | ⟨hlong, f, hkind, rfl⟩
  · rw [chars?_of_fits hfits]
    exact .chars htext
  · rw [chars?_eq_none.mpr hlong]
    exact .error (congrArg some hkind)

/-- The answer of a `toString()` that makes a string. -/
theorem ofObject (hm : m.Reachable) {F : Err → Prop} {x y} (hy : Gives P H m y fun w => Rendering F w x) :
    Gives P H m (do return Value.ofObject (← y)) fun w r => ∃ s, Rendering F w x s ∧ r = s.map Value.ofObject := by
  refine hy.bind (fun {τs n s} hrun hs => ?_) fun {τs n e} _ he => ⟨.error e, he, rfl⟩
  exact .pure fun hrun' => ⟨.ok s, hs.later ((hm.run hrun.run).le hrun'.run), rfl⟩

end Op.Gives

namespace Machine

variable {P : Machine → Turn → Prop} {H : Machine → Prop} {F : Err → Prop} {m n : Machine} {o : ObjId}
  {x : Option (List Rune)} {c : Class}

/-- In the runs from a machine every rendering of an object returns and comes to the same: a string with given
characters or, if there are none, an error as `F` says. -/
def Renders (P : Machine → Turn → Prop) (H : Machine → Prop) (F : Err → Prop) (m : Machine) (o : ObjId)
    (x : Option (List Rune)) : Prop :=
  ∀ ⦃τs n r⦄, Trace P m τs n → n.world.Has r →
    Op.Gives P H n (Op.renderObject (some r) (some o)) fun w => Rendering F w x

theorem Renders.after (h : m.Renders P H F o x) {τs} (hrun : Trace P m τs n) :
    n.Renders P H F o x := fun _ _ _ hrun' => h (hrun.append hrun')

/-- An object of another class is no string. -/
theorem Reachable.text?_of_classOf? (hm : m.Reachable) (hcls : m.world.classOf? o = some c)
    (hother : ∀ r, c ≠ Builtin.textClass r) : m.world.text? o = none := by
  cases ht : m.world.text? o with
  | none => rfl
  | some t => exact absurd (Option.some.inj (hcls.symm.trans (hm.classOf?_text ht))) (hother t.1)

/-- An object that was there and is no string does not become one. -/
theorem Reachable.text?_eq_none (hm : m.Reachable) {obj} (hobj : m.world.object? o = some obj)
    (hother : m.world.text? o = none) (hrun : Run m n) : n.world.text? o = none := by
  cases ht : n.world.text? o with
  | none => rfl
  | some t => cases hother.symm.trans (text?_of_later (hm.le hrun) (by rw [hobj]; rfl) ht)

/-- An object whose `toString()` can be repeated can be rendered repeatedly. -/
theorem renders_of_call (hm : m.Reachable) {owner meth} (hcls : m.world.classOf? o = some c)
    (hother : m.world.text? o = none) (found : c.find? Selector.toText = some (owner, meth))
    (arity : meth.arity = 0) (hcall : Op.Gives P H m (Op.call (.code meth.code (some o) [])) fun w r =>
      ∃ s, Rendering F w x s ∧ r = s.map Value.ofObject) : m.Renders P H F o x := by
  intro τs n r hrun hr
  have hn : n.Reachable := hm.run hrun.run
  obtain ⟨obj, hobj⟩ := exists_of_classOf? hcls
  -- The object is no string, whenever it is looked at.
  refine .observe_bind fun {τs₁ n₁} hrun₁ => ?_
  rw [hm.text?_eq_none hobj hother (hrun.append hrun₁).run]
  have hn₁ : n₁.Reachable := hn.run hrun₁.run
  have hargs : (([] : List Value).length : Int) = meth.arity := arity.symm
  have hask : Op.Gives P H n₁ (Op.dispatch (some r) (some o) Selector.toText []) fun w r =>
      ∃ s, Rendering F w x s ∧ r = s.map Value.ofObject := by
    have hle : m.world ≤ n₁.world := hm.le (hrun.append hrun₁).run
    exact .dispatch hn₁ (classOf?_later hle hcls) found hargs (hcall.after (hrun.append hrun₁)) _
  refine hask.bind (fun {τs₂ n₂ v} hrun₂ hv => ?_) fun {τs₂ n₂ e} _ he => ?_
  · obtain ⟨s, hs, hv⟩ := hv
    cases hs with
    | error => cases hv
    | @chars s t text =>
      cases hv
      -- The answer is a string, and it is still one when it is looked at.
      refine .observe_bind fun {τs₃ n₃} hrun₃ => ?_
      have hn₂ : n₂.Reachable := hn₁.run hrun₂.run
      have htext := text?_later (hn₂.le hrun₃.run) text
      have hanswer : (Value.ofObject s).asObject.filter (fun s => (n₃.world.text? s).isSome) = some s := by
        show (some s).filter _ = _
        rw [Option.filter_some, htext]
        rfl
      rw [hanswer]
      exact .pure fun hrun₄ => .chars (text?_later ((hn₂.run hrun₃.run).le hrun₄.run) htext)
  · obtain ⟨s, hs, hv⟩ := he
    cases hs with
    | chars => cases hv
    | error fails =>
      cases hv
      exact .error fails

/-- A string is rendered as its characters. -/
theorem renders_text (hm : m.Reachable) {t} (ht : m.world.text? o = some t) : m.Renders P H F o (some t.2.chars) := by
  intro τs n r hrun hr
  have htext {τs' : List Turn} {n' : Machine} (hrun' : Trace P n τs' n') : n'.world.text? o = some t :=
    text?_later (hm.le (hrun.append hrun').run) ht
  refine .observe_bind fun hrun₁ => ?_
  rw [htext hrun₁]
  exact .pure fun hrun₂ => .chars (htext (hrun₁.append hrun₂))

/-! ### Objects that are rendered by class and hash -/

/-- An object whose class inherits `toString()` from the root is rendered by class and hash, unless the runtime
of its class has no room for that. -/
theorem renders_default (hm : m.Reachable) (hcls : m.world.classOf? o = some c)
    (inherits : c.find? Selector.toText = (Builtin.rootClass c.home).find? Selector.toText) :
    m.Renders P H Err.IsOverflow o (m.world.chars? c.home (c.label (m.world.hashOf o))) := by
  have hother : m.world.text? o = none := by
    apply hm.text?_of_classOf? hcls
    rintro r rfl
    cases inherits
  have hhome : m.world.Has c.home := exists_of_getClass (vouches_of_classOf? hm.sound hcls)
  refine renders_of_call hm hcls hother inherits rfl (.builtin hm ?_ ?_)
  · rintro w v r hle ⟨s, hs, rfl⟩
    exact ⟨s, hs.later hle, rfl⟩
  · refine (Op.Gives.receiverClass hm hcls "classOf").bind (fun {τs n d} hrun hd => ?_) fun _ he => nomatch he
    cases hd
    have hn : n.Reachable := hm.run hrun.run
    refine .observe_bind fun {τs₁ n₁} hrun₁ => ?_
    have hn₁ : n₁.Reachable := hn.run hrun₁.run
    have hle : m.world ≤ n₁.world := hm.le (hrun.append hrun₁).run
    have hhash : ((some o).map n₁.world.hashOf).getD 0 = m.world.hashOf o := hashOf_later hle hcls
    rw [hhash]
    have hmake := Op.Gives.newText (P := P) (H := H) hn₁ (hhome.later hle) (c.label (m.world.hashOf o))
    rw [chars?_later hle hhome] at hmake
    exact .ofObject hn₁ hmake

/-! ### Buffers -/

/-- A buffer that has not failed is rendered as its characters, if its runtime has room for them, in the runs in
which nothing is appended to it. -/
theorem renders_buffer (hm : m.Reachable) {home buf} (hb : m.world.buffer? o = some (some home, buf))
    (hwhole : buf.failure = none) (hfits : m.world.Fits home (.ofRunes buf.chars))
    (hP : ∀ {m τ}, P m τ → m.pieces o τ = []) : m.Renders P H F o (some buf.chars) := by
  have hkept {τs : List Turn} {n : Machine} (hrun : Trace P m τs n) :
      n.world.buffer? o = some (some home, buf) := by
    rw [buffer_trace hm hb hrun, hrun.record_eq_nil hP]
    rfl
  have hhome : m.world.Has home := buffer?_home hm.sound hb
  have hcls := hm.seated.classOf? hb
  have hother : m.world.text? o = none := by
    apply hm.text?_of_classOf? hcls
    rintro r ⟨⟩
  refine renders_of_call hm hcls hother rfl rfl (.builtin hm ?_ ?_)
  · rintro w v r hle ⟨s, hs, rfl⟩
    exact ⟨s, hs.later hle, rfl⟩
  · refine (Op.Gives.needBuffer hkept).bind (fun {τs n b} hrun hr => ?_) fun _ he => nomatch he
    cases hr
    have hmake : Op.Gives P H n (Op.perform (.bufferText o)) fun w a =>
        ∃ s, a = .ok (.ok s) ∧ w.text? s = some (home, .ofRunes buf.chars) := by
      refine .perform fun {τs' n'} id hrun' => ?_
      have hfits' : n'.world.Fits home (.ofRunes buf.chars) :=
        (fits_later (hm.le (hrun.append hrun').run) hhome).mpr hfits
      show ∃ s, Except.ok (n'.world.attemptResult (n'.world.bufferText o)).1 = _ ∧
        (n'.world.attemptResult (n'.world.bufferText o)).2.text? s = _
      rw [bufferText_eq (hkept (hrun.append hrun')) hwhole, makeText_of_fits hfits']
      exact ⟨_, rfl, text_createText ..⟩
    have hn : n.Reachable := hm.run hrun.run
    refine .ofObject hn (hmake.bind (fun {τs₁ n₁ a} hrun₁ ha => ?_) fun _ he => nomatch he)
    obtain ⟨s, ha, htext⟩ := ha
    cases ha
    exact .pure fun hrun₂ => .chars (text?_later ((hn.run hrun₁.run).le hrun₂.run) htext)

end Machine

end ObjectKernel
