import ObjectKernel.Proofs.BufferHistory

/-!
# Renderings

An object is rendered as itself if it is a string, and otherwise as what its `toString()` returns; null
stands for the text of null. While this goes on other tasks run, and `toString()` itself may do anything:
what is said here of a rendering holds whatever they do, as long as the world stays sound.

## Contents

* `World.Proceeds`: the interference that is reckoned with.
* `World.answer?`, `Rendered`: what an object is rendered as, in terms of what the rendering did.
  `PassesOn`: what becomes of a failure.
* `Op.ensures_nullText`, `Op.ensures_renderObject`: the operations render so.
-/

namespace ObjectKernel

open World

variable {es : List Event} {out : Outcome} {w v : World} {o : ObjId} {a : Activation}

/-- What may happen to a world while an operation is under way. -/
def World.Proceeds (w v : World) : Prop := w.Sound → w.Next v

theorem interference_proceeds : Interference World.Proceeds :=
  ⟨fun _ hs => .refl hs, fun h h' hs => (h hs).trans (h' (h hs).sound)⟩

/-- What a turn leads to may come next. -/
theorem Machine.Reachable.proceeds {m n : Machine} {τ} (hm : m.Reachable) (hτ : m.take τ = some n) :
    m.world.Proceeds n.world := fun _ => ⟨hm.le_take hτ, (hm.take hτ).sound⟩

/-- The characters of null. -/
def nullChars : List Rune := (CharSeq.ofBytes World.nullLiteral).chars

/-- The characters that the outcome of a `toString()` stands for: those of a string or of null. -/
def World.answer? (w : World) : Outcome → Option (List Rune)
  | .value x => if x.isNull then some nullChars else (x.asObject.bind w.text?).map (·.2.chars)
  | _ => none

/-- What an object is rendered as by an operation with events `es`, from a world `w` to a world `v`; none
when the rendering fails. -/
inductive Rendered (w v : World) (es : List Event) (o : ObjId) : Option (List Rune) → Prop where
  /-- A string is its own rendering. -/
  | same {t : RuntimeId × CharSeq} (text : w.text? o = some t) : Rendered w v es o (some t.2.chars)
  /-- Any other object is asked; its answer is read at some time before the end. -/
  | asked {u : World} {c owner : Class} {m : Method} {out : Outcome} {x : Option (List Rune)}
      (other : w.text? o = none) (before : u ≤ v) (cls : u.classOf? o = some c)
      (found : c.find? Selector.toText = some (owner, m)) (arity : m.arity = 0)
      (call : [.called (.code m.code (some o) []), .returned out] <+: es)
      (answer : u.answer? out = x) : Rendered w v es o x
  /-- An object without a class, or without such a method, cannot be asked. -/
  | mute (other : w.text? o = none) (nothing : es = [])
      (lacks : ∀ c owner m, w.classOf? o = some c → c.find? Selector.toText = some (owner, m) →
        m.arity ≠ 0) : Rendered w v es o none

theorem Rendered.later {u x} (h : Rendered w v es o x) (hle : v ≤ u) : Rendered w u es o x := by
  cases h with
  | same text => exact .same text
  | asked other before cls found arity call answer =>
    exact .asked other (before.trans hle) cls found arity call answer
  | mute other nothing lacks => exact .mute other nothing lacks

theorem Rendered.extend {x} (h : Rendered w v es o (some x)) (es' : List Event) :
    Rendered w v (es ++ es') o (some x) := by
  cases h with
  | same text => exact .same text
  | asked other before cls found arity call answer =>
    exact .asked other before cls found arity (call.trans (List.prefix_append ..)) answer

/-- What an operation comes to that has done nothing but make a call that failed: it fails in the same way. -/
def PassesOn (es : List Event) (out : Outcome) : Prop :=
  ∀ a failed, es = [.called a, .returned failed] → (∀ x, failed ≠ .value x) → out = failed

theorem passesOn_nil : PassesOn [] out := fun _ _ h => nomatch h

theorem passesOn_value {x : Value} : PassesOn [.called a, .returned (.value x)] out := by
  rintro _ _ ⟨rfl, rfl⟩ h
  exact absurd rfl (h x)

theorem passesOn_self : PassesOn [.called a, .returned out] out := by
  rintro _ _ ⟨rfl, rfl⟩ _
  rfl

/-- Events that append nothing to any buffer. -/
def Silent (es : List Event) : Prop := ∀ b, es.flatMap (Event.pieces b) = []

theorem Silent.append {es'} (h : Silent es) (h' : Silent es') : Silent (es ++ es') := by
  intro b
  rw [List.flatMap_append, h b, h' b, List.append_nil]

namespace World

variable {w v : World} {o : ObjId} {r : RuntimeId} {literal : Bytes}

/-- What was there is a string only if it was one. -/
theorem text?_of_later (h : w ≤ v) (ho : (w.object? o).isSome) {t} (ht : v.text? o = some t) :
    w.text? o = some t := by
  obtain ⟨⟨cls, hash, payload⟩, hobj⟩ := Option.isSome_iff_exists.mp ho
  obtain ⟨obj', hobj', hl⟩ := h.objects hobj
  obtain ⟨obj'', hobj'', hp⟩ := text?_eq_some.mp ht
  cases hobj'.symm.trans hobj''
  have hlast := hl.payload
  rw [hp] at hlast
  cases payload with
  | text home content =>
    cases hlast
    exact text?_eq_some.mpr ⟨_, hobj, rfl⟩
  | buffer | plain =>
    obtain ⟨_, hne⟩ := hlast
    cases hne
  | thread =>
    obtain ⟨_, hne, -⟩ := hlast
    cases hne
  | extended | runnable => cases hlast

theorem text?_of_constant? (hs : w.Sound) (h : w.constant? r literal = some o) :
    w.text? o = some (r, .ofBytes literal) := by
  obtain ⟨rt, hrt, hc⟩ := Option.bind_eq_some_iff.mp h
  exact (hs.runtime hrt).constant hc

/-- The string that is shared under a literal has its text. -/
theorem text?_shareConstant (hs : w.Sound) (ho : w.text? o = some (r, .ofBytes literal)) :
    (w.shareConstant r literal o).2.text? (w.shareConstant r literal o).1 = some (r, .ofBytes literal) := by
  unfold shareConstant
  split
  · rename_i shared hshared
    exact text?_of_constant? hs hshared
  · exact ho

end World

namespace Op

/-! ## The operations as programs -/

/-- A look-up of the null text, which is made and shared the first time. -/
theorem nullText_eq (r : RuntimeId) (k : Except Err ObjId → Prog) :
    nullText (some r) k = .observe fun _ v =>
      match v.constant? r nullLiteral with
      | some o => k (.ok o)
      | none => .perform (.makeNullText r) fun o =>
        .perform (.shareConstant r nullLiteral o) fun o' => k (.ok o') := by
  refine Prog.observe_congr fun _ v => ?_
  dsimp only
  cases v.constant? r nullLiteral <;> rfl

/-- A call by selector. -/
theorem dispatch_eq (home : Option RuntimeId) (o : ObjId) (s : Selector) (args : List Value)
    (k : Except Err Value → Prog) :
    dispatch home (some o) s args k = .observe fun _ v =>
      match v.classOf? o with
      | some c => invokeFrom home c s (some o) args k
      | none => .finish (.panic (.error (.fault (.unboundReceiver "dispatch" (v.shapeOf o))))) := by
  refine Prog.observe_congr fun _ v => ?_
  dsimp only
  cases v.classOf? o <;> rfl

section

variable {c owner : Class} {s : Selector} {m : Method} (self : Option ObjId) {args : List Value}
  (k : Except Err Value → Prog)

theorem invokeFrom_call (home : Option RuntimeId) (found : c.find? s = some (owner, m))
    (arity : (args.length : Int) = m.arity) : invokeFrom home c s self args k = .call (.code m.code self args) k := by
  unfold invokeFrom
  rw [found]
  exact congrFun (if_pos arity) k

theorem invokeFrom_wrongArity (home : Option RuntimeId) (found : c.find? s = some (owner, m))
    (arity : (args.length : Int) ≠ m.arity) : invokeFrom home c s self args k =
      k (.error (.fault (.wrongArity (owner.name ++ "." ++ m.name) m.arity args.length))) := by
  unfold invokeFrom
  rw [found]
  exact congrFun (if_neg arity) k

theorem invokeFrom_noMethod (r : RuntimeId) (found : c.find? s = none) :
    invokeFrom (some r) c s self args k = .observe fun _ v =>
      k (.error (.fault (.noMethod c.name ((v.selectors r).name s) s))) := by
  unfold invokeFrom
  rw [found]
  rfl

end

/-- What a rendering makes of the answer of `toString()`. -/
def answered (home : Option RuntimeId) (o : ObjId) (k : Except Err ObjId → Prog) :
    Except Err Value → Prog
  | .ok x =>
    if x.isNull then nullText home k
    else .observe fun _ v =>
      match x.asObject.filter fun s => (v.text? s).isSome with
      | some s => k (.ok s)
      | none => .observe fun _ v =>
        match v.classOf? o with
        | some c => .observe fun _ v => k (.error (.fault (.notText c.name (v.shown x))))
        | none => .finish (.panic (.error (.fault (.unboundReceiver "classOf" (v.shapeOf o)))))
  | .error e => k (.error e)

theorem renderObject_eq (home : Option RuntimeId) (o : ObjId) (k : Except Err ObjId → Prog) :
    renderObject home (some o) k = .observe fun _ v =>
      if (v.text? o).isSome then k (.ok o)
      else dispatch home (some o) Selector.toText [] (answered home o k) := by
  refine Prog.observe_congr fun _ v => ?_
  dsimp only
  cases (v.text? o).isSome with
  | true => rfl
  | false =>
    refine congrArg (dispatch home (some o) Selector.toText []) (funext fun r => ?_)
    cases r with
    | error e => rfl
    | ok x =>
      dsimp only [answered]
      cases x.isNull with
      | true => rfl
      | false =>
        refine Prog.observe_congr fun _ v => ?_
        dsimp only
        cases x.asObject.filter fun s => (v.text? s).isSome with
        | some s => rfl
        | none =>
          refine Prog.observe_congr fun _ v => ?_
          dsimp only
          cases v.classOf? o <;> rfl

/-! ## What they ensure -/

section

variable {E : List Event → World → Prog → Prop} {es : List Event} {w v : World} {r : RuntimeId} {c : Class}

theorem ensures_nullText (hs : w.Sound) (hr : w.Has r) {k}
    (hk : ∀ o es' v, w.Next v → v.text? o = some (r, .ofBytes nullLiteral) → Silent es' →
      (k (.ok o)).Ensures Proceeds E (es ++ es') v) : (nullText (some r) k).Ensures Proceeds E es w := by
  rw [nullText_eq]
  refine .observe fun _ v hv => ?_
  replace hv := hv hs
  cases hc : v.constant? r nullLiteral with
  | some o =>
    have hgo := hk o [] v hv (text?_of_constant? hv.sound hc) fun _ => rfl
    rwa [List.append_nil] at hgo
  | none =>
    refine .perform fun t u hu => .perform fun t' u' hu' => ?_
    replace hu := hv.trans (hu hv.sound)
    have hmade : u.Calm (u.makeNullText r).2 := calm_createText hu.sound (hr.later hu.later) _
    replace hu' := hu' hmade.sound
    have htext : u'.text? (u.makeNullText r).1 = some (r, .ofBytes nullLiteral) :=
      text?_later hu'.later (text_createText ..)
    have hshared := calm_shareConstant hu'.sound htext
    rw [List.append_assoc]
    exact hk _ _ _ (((hu.trans hmade.next).trans hu').trans hshared.next)
      (text?_shareConstant hu'.sound htext) fun _ => rfl

/-- What follows a rendering, by its result. -/
structure Continues (E : List Event → World → Prog → Prop) (es : List Event) (w : World) (o : ObjId)
    (k : Except Err ObjId → Prog) : Prop where
  ok : ∀ s t es' v, w.Next v → v.text? s = some t → Silent es' → Rendered w v es' o (some t.2.chars) →
    (k (.ok s)).Ensures Proceeds E (es ++ es') v
  error : ∀ e es' v, w.Next v → Silent es' → Rendered w v es' o none → PassesOn es' (.error e) →
    (k (.error e)).Ensures Proceeds E (es ++ es') v
  panic : ∀ p es' v, w.Next v → Silent es' → Rendered w v es' o none → PassesOn es' (.panic p) →
    E (es ++ es') v (.finish (.panic p))

variable {o : ObjId} {k : Except Err ObjId → Prog}

/-- What is made of the answer of `toString()`. -/
theorem ensures_answered {owner m} {x : Value} (hk : Continues E es w o k) (hr : w.Has r) (hv : w.Next v)
    (other : w.text? o = none) (cls : v.classOf? o = some c) (found : c.find? Selector.toText = some (owner, m))
    (arity : m.arity = 0) : (answered (some r) o k (.ok x)).Ensures Proceeds E
      (es ++ [.called (.code m.code (some o) []), .returned (.value x)]) v := by
  have hcall : Silent [.called (.code m.code (some o) []), .returned (.value x)] := fun _ => rfl
  have hrendered {u : World} {y : Option (List Rune)} (hu : v ≤ u) (es' : List Event)
      (hy : u.answer? (.value x) = y) :
      Rendered w u ([.called (.code m.code (some o) []), .returned (.value x)] ++ es') o y :=
    .asked other (le_refl u) (classOf?_later hu cls) found arity (List.prefix_append ..) hy
  cases hnull : x.isNull with
  | true =>
    rw [show answered (some r) o k (.ok x) = nullText (some r) k from if_pos hnull]
    refine ensures_nullText hv.sound (hr.later hv.later) fun s es' u hu ht hes => ?_
    rw [List.append_assoc]
    refine hk.ok s _ _ u (hv.trans hu) ht (hcall.append hes) (hrendered hu.later es' ?_)
    simp only [World.answer?, hnull, if_true]
    rfl
  | false =>
    have hanswer (u : World) :
        u.answer? (.value x) = (x.asObject.bind u.text?).map (·.2.chars) := by
      simp only [World.answer?, hnull, Bool.false_eq_true, if_false]
    rw [show answered (some r) o k (.ok x) = _ from if_neg (by rw [hnull]; nofun)]
    refine .observe fun _ u hu => ?_
    replace hu := hu hv.sound
    have hread := hrendered hu.later [] rfl
    rw [List.append_nil, hanswer u] at hread
    cases htext : x.asObject.bind u.text? with
    | some t =>
      obtain ⟨s, hs, ht⟩ := Option.bind_eq_some_iff.mp htext
      have hfilter : (x.asObject.filter fun s => (u.text? s).isSome) = some s := by
        rw [hs, Option.filter_some, ht]
        rfl
      rw [hfilter]
      rw [htext] at hread
      exact hk.ok s t _ u (hv.trans hu) ht hcall hread
    | none =>
      have hfilter : (x.asObject.filter fun s => (u.text? s).isSome) = none := by
        refine Option.filter_eq_none_iff.mpr fun s hs => ?_
        rw [Option.bind_eq_none_iff.mp htext s hs]
        nofun
      rw [hfilter]
      rw [htext] at hread
      refine .observe fun _ u₁ hu₁ => ?_
      replace hu₁ := hu₁ hu.sound
      rw [classOf?_later (hu.trans hu₁).later cls]
      refine .observe fun _ u₂ hu₂ => ?_
      replace hu₂ := hu₁.trans (hu₂ hu₁.sound)
      exact hk.error _ _ u₂ ((hv.trans hu).trans hu₂) hcall (hread.later hu₂.later) passesOn_value

/-- The call of `toString()` in a rendering. -/
theorem ensures_ask (hk : Continues E es w o k) (hr : w.Has r) (hv : w.Next v) (other : w.text? o = none)
    (cls : v.classOf? o = some c) :
    (invokeFrom (some r) c Selector.toText (some o) [] (answered (some r) o k)).Ensures Proceeds E es v := by
  -- A class that the object has from the start is the one that it has now.
  have hmute (hlacks : ∀ owner m, c.find? Selector.toText = some (owner, m) → m.arity ≠ 0) {u : World} :
      Rendered w u [] o none := by
    refine .mute other rfl fun d owner m hd hfound => ?_
    cases (classOf?_later hv.later hd).symm.trans cls
    exact hlacks owner m hfound
  have herror {u : World} (hu : w.Next u) (e : Err)
      (hlacks : ∀ owner m, c.find? Selector.toText = some (owner, m) → m.arity ≠ 0) :
      (k (.error e)).Ensures Proceeds E es u := by
    have h := hk.error e [] u hu (fun _ => rfl) (hmute hlacks) passesOn_nil
    rwa [List.append_nil] at h
  cases hfound : c.find? Selector.toText with
  | none =>
    rw [invokeFrom_noMethod _ _ r hfound]
    refine .observe fun _ u hu => herror (hv.trans (hu hv.sound)) _ fun owner m h => ?_
    rw [hfound] at h
    cases h
  | some p =>
    obtain ⟨owner, m⟩ := p
    by_cases harity : (([] : List Value).length : Int) = m.arity
    · rw [invokeFrom_call _ _ _ hfound harity]
      refine .call fun out u hu => ?_
      replace hu := hu hv.sound
      have hsilent : Silent [.called (.code m.code (some o) []), .returned out] := fun _ => rfl
      have hfailed {u' : World} (hu' : u ≤ u') (hout : u.answer? out = none) :
          Rendered w u' [.called (.code m.code (some o) []), .returned out] o none :=
        .asked other hu' (classOf?_later hu.later cls) hfound harity.symm (List.prefix_refl _) hout
      rw [List.append_assoc]
      cases out with
      | value x =>
        exact ensures_answered hk hr (hv.trans hu) other (classOf?_later hu.later cls) hfound
          harity.symm
      | error e => exact hk.error e _ u (hv.trans hu) hsilent (hfailed (le_refl u) rfl) passesOn_self
      | panic p =>
        refine .exit fun u' hu' => ?_
        replace hu' := hu' hu.sound
        exact hk.panic p _ u' ((hv.trans hu).trans hu') hsilent (hfailed hu'.later rfl) passesOn_self
    · rw [invokeFrom_wrongArity _ _ _ hfound harity]
      refine herror hv _ fun owner' m' h => ?_
      cases hfound.symm.trans h
      exact fun h0 => harity h0.symm

/-- **A rendering renders**, whatever happens meanwhile. -/
theorem ensures_renderObject (hs : w.Sound) (hr : w.Has r) (ho : (w.object? o).isSome)
    (hk : Continues E es w o k) : (renderObject (some r) (some o) k).Ensures Proceeds E es w := by
  rw [renderObject_eq]
  refine .observe fun _ v hv => ?_
  replace hv := hv hs
  by_cases htext : (v.text? o).isSome
  · obtain ⟨t, ht⟩ := Option.isSome_iff_exists.mp htext
    rw [if_pos htext]
    have hgo := hk.ok o t [] v hv ht (fun _ => rfl) (.same (text?_of_later hv.later ho ht))
    rwa [List.append_nil] at hgo
  · have hother : w.text? o = none := by
      cases h : w.text? o with
      | none => rfl
      | some t => exact absurd (by rw [text?_later hv.later h]; rfl) htext
    rw [if_neg htext, dispatch_eq]
    refine .observe fun _ u hu => ?_
    replace hu := hv.trans (hu hv.sound)
    cases hc : u.classOf? o with
    | some c => exact ensures_ask hk hr hu hother hc
    | none =>
      refine .exit fun u' hu' => ?_
      rw [← List.append_nil es]
      refine hk.panic _ [] u' (hu.trans (hu' hu.sound)) (fun _ => rfl)
        (.mute hother rfl fun c owner m hcls _ => ?_) passesOn_nil
      cases (classOf?_later hu.later hcls).symm.trans hc

end

end Op

end ObjectKernel
