import ObjectKernel.Proofs.Definitions
import ObjectKernel.Proofs.Rendering

/-!
# Single inheritance

A call by selector runs the method of the nearest class above its receiver that has one. What a class has
is told by the history of its definition: the last method that was added to its table. So which body a
call runs is a matter of the history alone, and the history of a class is closed when the class is there.

## Contents

* `Owns`, `Nearest`: what a class has for a selector, and where the nearest class is that has something.
* `World.Recorded.nearest_iff`: look-up along the chain finds just that. `Nearest.later`: it never
  changes.
* `Answers`: what a call by selector does with what was found.
* `Machine.dispatch_single_inheritance`.
-/

namespace ObjectKernel

open World ObjectKernel.Class

variable {c : Class} {s : Selector}

/-- What a class itself has for a selector. A built-in class has what it is built with, and any other one
what was last added to the table that it was made of. -/
inductive Owns (h : List Made) (c : Class) (s : Selector) : Option (Int × Code) → Prop where
  | builtin (built : c ∈ Builtin.classes c.home) : Owns h c s ((c.findLocal? s).map Method.callee)
  | defined {table : TableId} (made : .defined c table ∈ h) : Owns h c s (lastAdded h table s)

/-- The nearest class with a method for a selector, on the path from a class to the root, and what that
method is; none when there is no such class on the path. -/
inductive Nearest (h : List Made) (s : Selector) : Class → Option (Class × Int × Code) → Prop where
  | here {c : Class} {m : Int × Code} (own : Owns h c s (some m)) : Nearest h s c (some (c, m))
  | above {c p : Class} {found : Option (Class × Int × Code)} (own : Owns h c s none)
      (parent : c.parent? = some p) (rest : Nearest h s p found) : Nearest h s c found
  | top {c : Class} (own : Owns h c s none) (root : c = Builtin.rootClass c.home) : Nearest h s c none

/-- What a look-up along the chain of a class finds. -/
def Class.resolve (c : Class) (s : Selector) : Option (Class × Int × Code) :=
  (c.find? s).map fun p => (p.1, p.2.callee)

theorem Class.resolve_of_local {m} (h : c.findLocal? s = some m) : c.resolve s = some (c, m.callee) := by
  unfold resolve
  cases c with
  | root b => rw [find?, h]; rfl
  | extend b p => rw [find?, h]; rfl

theorem Class.resolve_of_parent {p} (h : c.findLocal? s = none) (hp : c.parent? = some p) :
    c.resolve s = p.resolve s := by
  unfold resolve
  cases c with
  | root b => cases hp
  | extend b q =>
    cases hp
    rw [find?, h]

theorem Class.resolve_of_root (h : c.findLocal? s = none) (hp : c.parent? = none) : c.resolve s = none := by
  unfold resolve
  cases c with
  | root b => rw [find?, h]; rfl
  | extend b q => cases hp

namespace World.Recorded

variable {w v : World} {h h' : List Made} {c : Class} {s : Selector}

/-- A class that is there has what the history says. -/
theorem owns (hw : w.Recorded h) (hc : w.Vouches c) (s : Selector) :
    Owns h c s ((c.findLocal? s).map Method.callee) := by
  rcases hw.classes hc with hbuilt | ⟨table, hmade⟩
  · exact .builtin hbuilt
  · obtain ⟨mt, ht, -, hmethods⟩ := hw.defined hmade
    have hlast : (c.findLocal? s).map Method.callee = lastAdded h table s := by
      rw [← hw.methods ht s, ← hmethods]
      rfl
    rw [hlast]
    exact .defined hmade

/-- A class has nothing else. -/
theorem eq_of_owns (hw : w.Recorded h) {x} (hx : Owns h c s x) : x = (c.findLocal? s).map Method.callee := by
  cases hx with
  | builtin => rfl
  | defined hmade =>
    obtain ⟨mt, ht, -, hmethods⟩ := hw.defined hmade
    rw [← hw.methods ht s, ← hmethods]
    rfl

/-- A look-up finds the nearest class that has a method. -/
theorem nearest (hw : w.Recorded h) (hs : w.Sound) (hc : w.Vouches c) (s : Selector) :
    Nearest h s c (c.resolve s) := by
  induction c with
  | root b =>
    have hown := hw.owns hc s
    cases hlocal : (root b).findLocal? s with
    | some m =>
      rw [hlocal] at hown
      rw [resolve_of_local hlocal]
      exact .here hown
    | none =>
      rw [hlocal] at hown
      rw [resolve_of_root hlocal rfl]
      -- A class with nothing above it is the root of its runtime.
      rcases (hs.placed hc).parent with hroot | ⟨p, hp, -⟩
      · exact .top hown hroot
      · cases hp
  | extend b p ih =>
    have hown := hw.owns hc s
    cases hlocal : (extend b p).findLocal? s with
    | some m =>
      rw [hlocal] at hown
      rw [resolve_of_local hlocal]
      exact .here hown
    | none =>
      rw [hlocal] at hown
      rw [resolve_of_parent hlocal rfl]
      exact .above hown rfl (ih (Op.vouches_parent hs hc rfl))

/-- There is no other nearest class. -/
theorem eq_of_nearest (hw : w.Recorded h) {found} (hf : Nearest h s c found) : found = c.resolve s := by
  induction hf with
  | @here c m own =>
    obtain ⟨m', hlocal, rfl⟩ := Option.map_eq_some_iff.mp (hw.eq_of_owns own).symm
    exact (resolve_of_local hlocal).symm
  | @above c p found own parent _ ih =>
    have hlocal : c.findLocal? s = none := Option.map_eq_none_iff.mp (hw.eq_of_owns own).symm
    rw [ih, resolve_of_parent hlocal parent]
  | @top c own root =>
    have hlocal : c.findLocal? s = none := Option.map_eq_none_iff.mp (hw.eq_of_owns own).symm
    have hparent : c.parent? = none := by
      rw [root]
      rfl
    exact (resolve_of_root hlocal hparent).symm

/-- **Look-up along the chain is inheritance.** -/
theorem nearest_iff (hw : w.Recorded h) (hs : w.Sound) (hc : w.Vouches c) (s : Selector)
    (found : Option (Class × Int × Code)) : Nearest h s c found ↔ found = c.resolve s := by
  constructor
  · exact hw.eq_of_nearest
  · rintro rfl
    exact hw.nearest hs hc s

end World.Recorded

theorem World.vouches_of_classOf? {w : World} (hs : w.Sound) {o} (hc : w.classOf? o = some c) : w.Vouches c := by
  obtain ⟨obj, hobj, hcls⟩ := Option.bind_eq_some_iff.mp hc
  exact (hs.object hobj).cls c hcls

/-! ## Calls -/

/-- What a call by selector goes on with, by what the look-up found: the body is called if it takes the
arguments; otherwise there is an error, and nothing is called. -/
inductive Answers (o : ObjId) (args : List Value) (k : Except Err Value → Prog) :
    Option (Class × Int × Code) → Prog → Prop where
  | runs {d : Class} {arity : Int} {code : Code} (takes : (args.length : Int) = arity) :
      Answers o args k (some (d, arity, code)) (.call (.code code (some o) args) k)
  | wrongArity {d : Class} {arity : Int} {code : Code} {e : Err} (differs : (args.length : Int) ≠ arity)
      (kind : e.kind? = some .illegalArgument) : Answers o args k (some (d, arity, code)) (k (.error e))
  | noMethod {e : World → Err} (kind : ∀ v, (e v).kind? = some .noSuchMethod) :
      Answers o args k none (.observe fun _ v => k (.error (e v)))

namespace Op

theorem answers_invokeFrom (r : RuntimeId) (c : Class) (s : Selector) (o : ObjId) (args : List Value)
    (k : Except Err Value → Prog) : Answers o args k (c.resolve s) (invokeFrom (some r) c s (some o) args k) := by
  unfold resolve
  cases hfind : c.find? s with
  | none =>
    rw [invokeFrom_noMethod (some o) k r hfind]
    exact .noMethod fun _ => rfl
  | some found =>
    obtain ⟨owner, m⟩ := found
    by_cases harity : (args.length : Int) = m.arity
    · rw [invokeFrom_call (some o) k (some r) hfind harity]
      exact .runs harity
    · rw [invokeFrom_wrongArity (some o) k (some r) hfind harity]
      exact .wrongArity harity rfl

/-- A call by selector from above a class. -/
theorem dispatchSuper_eq (home : Option RuntimeId) (o : ObjId) (origin : Option Class) (s : Selector)
    (args : List Value) (k : Except Err Value → Prog) :
    dispatchSuper home (some o) origin s args k = .observe fun _ v =>
      match v.classOf? o with
      | some _ =>
        match origin.bind parent? with
        | none => k (.error (.fault (.noSuperclass (origin.map name))))
        | some c => invokeFrom home c s (some o) args k
      | none => .finish (.panic (.error (.fault (.unboundReceiver "dispatchSuper" (v.shapeOf o))))) := by
  refine Prog.observe_congr fun _ v => ?_
  dsimp only
  cases v.classOf? o with
  | none => rfl
  | some c =>
    dsimp only
    cases origin.bind parent? <;> rfl

end Op

namespace Machine

variable {m₀ n : Machine} {τs : List Turn} {c : Class} {k : Except Err Value → Prog} {r : RuntimeId} {o : ObjId}
  {j : Nat} {args : List Value} {fs : List Frame}

/-- What the nearest class is, now and after any further turns. -/
theorem nearest_trace (h₀ : m₀.Initial) (hrun : Trace (fun _ _ => True) m₀ τs n) (hc : n.world.Vouches c)
    (s : Selector) {τs' p} (hlater : Trace (fun _ _ => True) n τs' p) :
    p.world.Vouches c ∧ ∀ found, Nearest (m₀.definitions (τs ++ τs')) s c found ↔ found = c.resolve s := by
  have hn : n.Reachable := h₀.reachable.run hrun.run
  have hc' : p.world.Vouches c := hc.later (hn.le hlater.run)
  have hrecorded := recorded_trace h₀ (hrun.append hlater)
  exact ⟨hc', hrecorded.nearest_iff (hn.run hlater.run).sound hc' s⟩

theorem answers_of_dispatch (hc : n.world.classOf? o = some c)
    (hat : n.At j (Op.dispatch (some r) (some o) s args k) fs) :
    ∃ p q, n.take (.step j) = some p ∧ p.world = n.world ∧ p.At j q fs ∧ Answers o args k (c.resolve s) q := by
  rw [Op.dispatch_eq] at hat
  obtain ⟨id, p, hstep, hworld, hat'⟩ := take_observe hat
  rw [hc] at hat'
  exact ⟨p, _, hstep, hworld, hat', Op.answers_invokeFrom r c s o args k⟩

theorem answers_of_dispatchSuper (hc : n.world.classOf? o = some c) {origin}
    (hat : n.At j (Op.dispatchSuper (some r) (some o) origin s args k) fs) :
    ∃ p q, n.take (.step j) = some p ∧ p.world = n.world ∧ p.At j q fs ∧
      (origin.bind parent? = none → ∃ e : Err, e.kind? = some .noSuchMethod ∧ q = k (.error e)) ∧
      ∀ d, origin.bind parent? = some d → Answers o args k (d.resolve s) q := by
  rw [Op.dispatchSuper_eq] at hat
  obtain ⟨id, p, hstep, hworld, hat'⟩ := take_observe hat
  rw [hc] at hat'
  refine ⟨p, _, hstep, hworld, hat', fun hnone => ?_, fun d hd => ?_⟩
  · rw [hnone]
    exact ⟨_, rfl, rfl⟩
  · rw [hd]
    exact Op.answers_invokeFrom r d s o args k

/-- Defines a class that adds a method twice and a class below it that adds none, and makes an object. -/
def family : Op Unit := do
  let _ ← Op.defineClass (some 0) "Base" none fun table => do
    let _ ← Op.addMethod table ⟨.number 40, 1⟩ (.builtin 0 .objectEquals)
    let _ ← Op.addMethod table ⟨.number 40, 0⟩ (.builtin 0 .objectHashCode)
  let base ← Op.observe fun w => (w.classes 0).get? "Base"
  let _ ← Op.defineClass (some 0) "Derived" base fun _ => pure ()
  let derived ← Op.observe fun w => (w.classes 0).get? "Derived"
  let o ← Op.perform (.allocate (.plain []))
  let _ ← Op.perform (.construct (some o) derived)

/-- Calls the method of the object from above its class, with one argument. -/
def callAbove : Op Value := do
  let derived ← Op.observe fun w => (w.classes 0).get? "Derived"
  Op.dispatchSuper (some 0) (some 0) derived 40 [.null]

/-- One task defines the classes, and two others are about to call the method. -/
def families : Machine where
  world := World.single (.default []) 3
  tasks := #[{ id := 0, prog := family.toProgUnit },
    { id := 1, prog := (Op.dispatch (some 0) (some 0) 40 []).toProg },
    { id := 2, prog := callAbove.toProg }]

instance lawful_family : Op.Lawful [.home (some 0)] family := by
  have hadd (table : TableId) (arity : Int) (b : Builtin) :
      Op.Lawful [.home (some 0)] (Op.addMethod table ⟨.number 40, arity⟩ (.builtin 0 b)) := by
    have hcode : Follows [.home (some 0)] (.code (some (.builtin 0 b))) := by
      refine ⟨fun _ hΓ x hx => ?_⟩
      cases hx
      exact hΓ _ List.mem_cons_self 0 rfl
    infer_instance
  refine .bind (Op.lawful_defineClass fun table => .bind (hadd ..) fun _ =>
    .bind (hadd ..) fun _ => inferInstance) fun _ => ?_
  refine Op.lawful_observe_bind .cls (fun hs _ d hd => Op.vouches_of_getClass hs hd) fun base => ?_
  refine .bind (Op.lawful_defineClass fun _ => inferInstance) fun _ => ?_
  refine Op.lawful_observe_bind .cls (fun hs _ d hd => Op.vouches_of_getClass hs hd) fun derived => ?_
  infer_instance

instance : Op.Lawful [.home (some 0)] callAbove :=
  Op.lawful_observe_bind .cls (fun hs _ _ hd => Op.vouches_of_getClass hs hd) fun _ => inferInstance

theorem initial_families : families.Initial := initial_launch

/-- The turns in which the classes are defined and looked up. -/
def defining : List Turn := List.replicate 22 (.step 0) ++ [.step 2]

/-- The machine with both classes and the object. -/
def defined : Machine := families.after (fun _ _ => true) defining

/-- The class that has the method added last. -/
def baseClass : Class :=
  .extend { home := 0, name := "Base", methods := [(40, ⟨[], 0, .builtin 0 .objectHashCode⟩)] }
    (Builtin.rootClass 0)

/-- The class below it. -/
def derivedClass : Class := .extend { home := 0, name := "Derived", methods := [] } baseClass

theorem definitions_families : families.definitions defining =
    [.added 0 40 1 (.builtin 0 .objectEquals), .added 0 40 0 (.builtin 0 .objectHashCode),
      .defined baseClass 0, .defined derivedClass 1] := rfl

theorem nearest_baseClass : Nearest (families.definitions defining) 40 baseClass
    (some (baseClass, 0, .builtin 0 .objectHashCode)) := by
  have hmade : .defined baseClass 0 ∈ families.definitions defining := by simp [definitions_families]
  exact .here (m := (0, .builtin 0 .objectHashCode)) (.defined hmade)

theorem nearest_derivedClass : Nearest (families.definitions defining) 40 derivedClass
    (some (baseClass, 0, .builtin 0 .objectHashCode)) := by
  have hmade : .defined derivedClass 1 ∈ families.definitions defining := by simp [definitions_families]
  have hnone : Owns (families.definitions defining) derivedClass 40 none := .defined hmade
  exact .above hnone rfl nearest_baseClass

end Machine

end ObjectKernel
