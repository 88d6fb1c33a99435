import Mathlib.Data.Setoid.Basic
import ObjectKernel.Proofs.RepeatableRenderings

/-!
# Equality that is inherited

The root class compares by rendering: it renders the receiver, and the string that it gets is compared with the
rendering of the argument. Strings compare themselves without being rendered. So a comparison of two objects
takes one of several ways, by the classes of both, and yet they all come to the same: whether both are rendered
as the same characters.

## Contents

* `Machine.Compares`: objects that are compared by what they are rendered as.
* `Compared`: what a comparison comes to. `Machine.gives_equals`, `Machine.gives_equals_of_none`: every call of
  `equals(Object)` comes to that.
* `Machine.gives_hashCode`: the hash code of a string.
* `Machine.inherited_equality`: the comparison is an equivalence relation.
-/

namespace ObjectKernel

open World

/-- What a comparison of two renderings comes to: an error as `F` says if one of them fails, and otherwise
whether they have the same characters. -/
inductive Compared (F : Err → Prop) : Option (List Rune) → Option (List Rune) → Except Err Value → Prop where
  | answer (cs ds : List Rune) : Compared F (some cs) (some ds) (.ok (.ofBool (decide (cs = ds))))
  | left {y : Option (List Rune)} {e : Err} (fails : F e) : Compared F none y (.error e)
  | right {x : Option (List Rune)} {e : Err} (fails : F e) : Compared F x none (.error e)

theorem Compared.error_of_none {F : Err → Prop} {x y r} (h : Compared F x y r) (hnone : x = none ∨ y = none) :
    ∃ e, F e ∧ r = .error e := by
  cases h with
  | answer => rcases hnone with hnone | hnone <;> cases hnone
  | left fails => exact ⟨_, fails, rfl⟩
  | right fails => exact ⟨_, fails, rfl⟩

namespace Machine

variable {P : Machine → Turn → Prop} {H : Machine → Prop} {F : Err → Prop} {m : Machine} {a b o : ObjId}
  {x y : Option (List Rune)} {t : RuntimeId × CharSeq} {r : RuntimeId} {v : Value}

/-- An object that is compared by what it is rendered as in the runs from a machine: a string, which is rendered
as its characters, or an object whose class has `equals(Object)` from the root and whose rendering can be
repeated. -/
inductive Compares (P : Machine → Turn → Prop) (H : Machine → Prop) (F : Err → Prop) (m : Machine) (o : ObjId) :
    Option (List Rune) → Prop where
  | text {t : RuntimeId × CharSeq} (content : m.world.text? o = some t) : Compares P H F m o (some t.2.chars)
  | object {c : Class} {x : Option (List Rune)} (cls : m.world.classOf? o = some c)
      (inherits : c.find? Selector.equals = (Builtin.rootClass c.home).find? Selector.equals)
      (renders : m.Renders P H F o x) : Compares P H F m o x

theorem Compares.renders (hm : m.Reachable) (h : m.Compares P H F o x) : m.Renders P H F o x := by
  cases h with
  | text content => exact renders_text hm content
  | object _ _ renders => exact renders

/-- A string is rendered as its characters, and as nothing else. -/
theorem Compares.eq_chars (hm : m.Reachable) (h : m.Compares P H F o x) (ht : m.world.text? o = some t) :
    x = some t.2.chars := by
  cases h with
  | text content =>
    cases content.symm.trans ht
    rfl
  | object cls inherits _ =>
    cases cls.symm.trans (hm.classOf?_text ht)
    cases inherits

/-! ## Comparing a string with a rendering -/

theorem Renders.rendering (hm : m.Reachable) (h : m.Renders P H F o x) (hr : m.world.Has r) :
    Op.Gives P H m (Op.rendering (some r) (some o)) fun _ a =>
      (∃ s : CharSeq, x = some s.chars ∧ a = .ok s) ∨ (x = none ∧ ∃ e, F e ∧ a = .error e) := by
  refine (h (.refl m) hr).bind (fun {τs n s} hrun hs => ?_) fun {τs n e} _ he => ?_
  · cases hs with
    | @chars s t text =>
      refine (Op.Gives.needText (hm.run hrun.run) text).bind (fun _ ht => ?_) fun _ he => nomatch he
      cases ht
      exact .pure fun _ => .inl ⟨t.2, rfl, rfl⟩
  · cases he with
    | error fails => exact .inr ⟨rfl, e, fails, rfl⟩

/-- A string is compared with the rendering of an object. -/
theorem Renders.contentEquals (hm : m.Reachable) (h : m.Renders P H F o y) (hr : m.world.Has r) (s : CharSeq) :
    Op.Gives P H m (do return Value.ofBool (← Op.contentEquals r s (some o))) fun _ =>
      Compared F (some s.chars) y := by
  have hequals : Op.Gives P H m (Op.contentEquals r s (some o)) fun _ a =>
      (∃ ds, y = some ds ∧ a = .ok (decide (ds = s.chars))) ∨ (y = none ∧ ∃ e, F e ∧ a = .error e) := by
    refine (h.rendering hm hr).bind (fun {τs n t} _ ht => ?_) fun {τs n e} _ he => ?_
    · rcases ht with ⟨t, hy, ht⟩ | ⟨-, e, -, ht⟩ <;> cases ht
      exact .pure fun _ => .inl ⟨t.chars, hy, rfl⟩
    · rcases he with ⟨t, -, he⟩ | ⟨hy, e, hF, he⟩ <;> cases he
      exact .inr ⟨hy, e, hF, rfl⟩
  refine hequals.bind (fun _ ha => ?_) fun _ he => ?_
  · rcases ha with ⟨ds, rfl, ha⟩ | ⟨-, e, -, ha⟩ <;> cases ha
    have hswap : decide (ds = s.chars) = decide (s.chars = ds) := decide_eq_decide.mpr eq_comm
    refine .pure fun _ => ?_
    rw [hswap]
    exact .answer s.chars ds
  · rcases he with ⟨ds, -, he⟩ | ⟨rfl, e, hF, he⟩ <;> cases he
    exact .right hF

/-! ## Calls -/

/-- **What a call of `equals(Object)` comes to.** -/
theorem gives_equals (hm : m.Reachable) (ha : m.Compares P H F a x) (hb : m.Compares P H F b y)
    (hv : v.asObject = some b) (home : Option RuntimeId) :
    Op.Gives P H m (Op.dispatch home (some a) Selector.equals [v]) fun _ => Compared F x y := by
  have hother := hb.renders hm
  have harg : (Builtin.argument [v] 0).asObject = some b := hv
  cases ha with
  | @text t content =>
    refine .dispatch hm (hm.classOf?_text content) rfl rfl (.builtin hm (fun _ h => h) ?_) home
    refine (Op.Gives.needText hm content).bind (fun {τs n s} hrun hs => ?_) fun _ he => nomatch he
    cases hs
    have hn : n.Reachable := hm.run hrun.run
    rw [harg]
    exact (hother.after hrun).contentEquals hn (text?_home hn.sound (text?_later (hm.le hrun.run) content)) t.2
  | @object c x cls inherits renders =>
    refine .dispatch hm cls inherits rfl (.builtin hm (fun _ h => h) ?_) home
    have hhome : m.world.Has c.home := exists_of_getClass (vouches_of_classOf? hm.sound cls)
    unfold Builtin.run
    rw [harg]
    -- The receiver is rendered first, and what it is rendered as is compared with the argument.
    refine (renders (.refl m) hhome).bind (fun {τs n s} hrun hs => ?_) fun {τs n e} _ he => ?_
    · have hn : n.Reachable := hm.run hrun.run
      cases hs with
      | @chars s t text =>
        refine (Op.Gives.needText hn text).bind (fun {τs₁ n₁ s₁} hrun₁ hs₁ => ?_) fun _ he => nomatch he
        cases hs₁
        have hn₁ : n₁.Reachable := hn.run hrun₁.run
        exact (hother.after (hrun.append hrun₁)).contentEquals hn₁
          (text?_home hn₁.sound (text?_later (hn.le hrun₁.run) text)) t.2
    · cases he with
      | error fails => exact .left fails

/-- No object is equal to null or to a primitive value. -/
theorem gives_equals_of_none (hm : m.Reachable) (ha : m.Compares P H F a x) (hv : v.asObject = none)
    (home : Option RuntimeId) :
    Op.Gives P H m (Op.dispatch home (some a) Selector.equals [v]) fun _ r => r = .ok (.ofBool false) := by
  have harg : (Builtin.argument [v] 0).asObject = none := hv
  cases ha with
  | @text t content =>
    refine .dispatch hm (hm.classOf?_text content) rfl rfl (.builtin hm (fun _ h => h) ?_) home
    refine (Op.Gives.needText hm content).bind (fun _ hs => ?_) fun _ he => nomatch he
    cases hs
    rw [harg]
    exact .pure fun _ => rfl
  | @object c x cls inherits renders =>
    refine .dispatch hm cls inherits rfl (.builtin hm (fun _ h => h) ?_) home
    unfold Builtin.run
    rw [harg]
    exact .pure fun _ => rfl

/-- The hash code of a string is that of its characters. -/
theorem gives_hashCode (hm : m.Reachable) (ht : m.world.text? a = some t) (home : Option RuntimeId) :
    Op.Gives P H m (Op.dispatch home (some a) Selector.hashCode []) fun _ r => r = .ok (.ofInt32 t.2.hashCode) := by
  refine .dispatch hm (hm.classOf?_text ht) rfl rfl (.builtin hm (fun _ h => h) ?_) home
  refine (Op.Gives.needText hm ht).bind (fun _ hs => ?_) fun _ he => nomatch he
  cases hs
  exact .pure fun _ => rfl

/-! ## The relation -/

/-- **Inherited equality is an equivalence relation.** Take any objects that are compared by what they are
rendered as in the runs from a machine. Every call of `equals(Object)` among them comes back: with an error if
one of the two renderings fails, and otherwise with whether they have the same characters. So the calls among
those that can be rendered decide an equivalence relation. A call with null or a primitive value comes back
with false. Strings that are rendered as the same characters have the same hash code. -/
theorem inherited_equality (hm : m.Reachable) {objects : Set ObjId} {chars : ObjId → Option (List Rune)}
    (hobjects : ∀ o ∈ objects, m.Compares P H F o (chars o)) :
    (∀ a ∈ objects, ∀ b ∈ objects, ∀ v home, Value.asObject v = some b →
      Op.Gives P H m (Op.dispatch home (some a) Selector.equals [v]) fun _ => Compared F (chars a) (chars b)) ∧
    (∃ same : Setoid { o // o ∈ objects ∧ (chars o).isSome }, ∀ a b v home, Value.asObject v = some b.1 →
      Op.Gives P H m (Op.dispatch home (some a.1) Selector.equals [v]) fun _ r =>
        ∃ t : Bool, r = .ok (.ofBool t) ∧ (t = true ↔ same.r a b)) ∧
    (∀ a ∈ objects, ∀ v home, Value.asObject v = none →
      Op.Gives P H m (Op.dispatch home (some a) Selector.equals [v]) fun _ r => r = .ok (.ofBool false)) ∧
    ∀ a ∈ objects, ∀ b ∈ objects, (m.world.text? a).isSome → (m.world.text? b).isSome → chars a = chars b →
      ∃ h, ∀ home,
        Op.Gives P H m (Op.dispatch home (some a) Selector.hashCode []) (fun _ r => r = .ok (.ofInt32 h)) ∧
        Op.Gives P H m (Op.dispatch home (some b) Selector.hashCode []) fun _ r => r = .ok (.ofInt32 h) := by
  refine ⟨fun a ha b hb v home hv => gives_equals hm (hobjects a ha) (hobjects b hb) hv home,
    ⟨Setoid.ker fun o => chars o.1, ?_⟩,
    fun a ha v home hv => gives_equals_of_none hm (hobjects a ha) hv home, ?_⟩
  · rintro ⟨a, ha, hcs⟩ ⟨b, hb, hds⟩ v home hv
    obtain ⟨cs, hcs⟩ := Option.isSome_iff_exists.mp hcs
    obtain ⟨ds, hds⟩ := Option.isSome_iff_exists.mp hds
    refine (gives_equals hm (hobjects a ha) (hobjects b hb) hv home).imp fun _ hr => ?_
    rw [hcs, hds] at hr
    cases hr
    refine ⟨_, rfl, ?_⟩
    show _ ↔ chars a = chars b
    rw [decide_eq_true_eq, hcs, hds, Option.some.injEq]
  · intro a ha b hb hta htb heq
    obtain ⟨s, hs⟩ := Option.isSome_iff_exists.mp hta
    obtain ⟨t, ht⟩ := Option.isSome_iff_exists.mp htb
    have hchars : s.2.chars = t.2.chars := by
      apply Option.some.inj
      rw [← (hobjects a ha).eq_chars hm hs, ← (hobjects b hb).eq_chars hm ht, heq]
    have hhash : t.2.hashCode = s.2.hashCode := by
      unfold CharSeq.hashCode
      rw [hchars]
    exact ⟨s.2.hashCode, fun home => ⟨gives_hashCode hm hs home, hhash ▸ gives_hashCode hm ht home⟩⟩

/-! ### An object, a string and a buffer that look alike -/

/-- Defines a class that adds no method and makes an object of it, and a string and a buffer with the text that
the object is rendered as. -/
def imitate : Op Unit := do
  let _ ← Op.defineClass (some 0) "C" none fun _ => pure ()
  let c ← Op.observe fun w => (w.classes 0).get? "C"
  let o ← Op.perform (.allocate (.plain []))
  let _ ← Op.perform (.construct (some o) c)
  let _ ← Op.newText (some 0) "C@1"
  let b ← Op.newBuffer (some 0)
  Op.appendBytes b "C@1"

/-- One task makes the three, and another one is about to compare two of them. -/
def imitating : Machine where
  world := World.single {} 2
  tasks := #[{ id := 0, prog := imitate.toProgUnit },
    { id := 1, prog := (Op.dispatch (some 0) (some 2) Selector.equals [.ofObject 0]).toProg }]

instance : Op.Lawful [.home (some 0)] imitate := by
  refine .bind (Op.lawful_defineClass fun _ => inferInstance) fun _ => ?_
  refine Op.lawful_observe_bind .cls (fun hs _ d hd => Op.vouches_of_getClass hs hd) fun c => ?_
  infer_instance

theorem initial_imitating : imitating.Initial := initial_launch

/-- The machine with the three. -/
def imitated : Machine := imitating.after (fun _ _ => true) (List.replicate 13 (.step 0))

theorem inherited_equality_imitated : imitated.Reachable ∧
    imitated.At 1 (Op.dispatch (some 0) (some 2) Selector.equals [.ofObject 0]).toProg [] ∧
    (∀ o ∈ ({0, 1, 2} : Set ObjId), imitated.Compares (fun m τ => m.pieces 2 τ = []) (fun _ => False)
      Err.IsOverflow o (some (Utf8.decode "C@1"))) ∧
    ∀ a ∈ ({0, 1, 2} : Set ObjId), ∀ b ∈ ({0, 1, 2} : Set ObjId),
      Op.Gives (fun m τ => m.pieces 2 τ = []) (fun _ => False) imitated
        (Op.dispatch (some 0) (some a) Selector.equals [.ofObject b]) fun _ r => r = .ok (.ofBool true) := by
  have hrun : Trace (fun _ _ => True) imitating _ imitated :=
    follow_trace (fun _ => trivial) (follow_eq_after (by decide +kernel))
  have hreach := initial_imitating.reachable.run hrun.run
  have hcompares : ∀ o ∈ ({0, 1, 2} : Set ObjId), imitated.Compares (fun m τ => m.pieces 2 τ = [])
      (fun _ => False) Err.IsOverflow o (some (Utf8.decode "C@1")) := by
    rintro o (rfl | rfl | rfl)
    · -- The object has the first hash, and its class is found by its name.
      have hcls : imitated.world.classOf? 0 = some (Builtin.extension 0 "C" []) := by rfl
      exact .object hcls rfl (renders_default hreach hcls rfl)
    · exact .text (t := (0, .ofBytes "C@1")) (by decide +kernel)
    · have hbuffer : imitated.world.buffer? 2 =
          some (some 0, ⟨(Utf8.decode "C@1").reverse, 3, 1024, none⟩) := by decide +kernel
      refine .object (hreach.seated.classOf? hbuffer) rfl ?_
      exact renders_buffer hreach hbuffer rfl (by intro; decide +kernel) fun h => h
  refine ⟨hreach, ⟨_, rfl, rfl, rfl⟩, hcompares, fun a ha b hb => ?_⟩
  obtain ⟨hequals, -⟩ := inherited_equality hreach hcompares
  refine (hequals a ha b hb (.ofObject b) (some 0) rfl).imp fun _ hr => ?_
  cases hr
  rw [decide_eq_true rfl]

end Machine

end ObjectKernel
