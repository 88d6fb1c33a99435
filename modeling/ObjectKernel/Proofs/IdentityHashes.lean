import ObjectKernel.Proofs.BufferOrigins

/-!
# Identity hashes

The objects of all runtimes take their hashes from one counter, which every construction advances. So a hash
tells when its object was constructed, as long as the counter has not come round, and two objects that were
constructed at different times have different ones.

## Contents

* `World.Constructs`: objects have been constructed one after another. The changes one by one.
* `Instr.constructs`, `Instr.exec_constructs`: what an instruction constructs.
* `Machine.constructions`, `Machine.constructs_trace`: what a run constructs.
* `World.Constructs.header_eq`: objects with the same hash are the same object.
-/

namespace ObjectKernel

namespace World

variable {w v u : World}

/-- From one world to another objects have been constructed in a given order, each of them given as what keeps
its class and its hash. Every object that has a class has taken the next hash among these, or had its class
before. -/
structure Constructs (w v : World) (hs : List ObjId) : Prop where
  counted : v.constructed = w.constructed + UInt32.ofNat hs.length
  hash : ∀ {o obj}, v.object? o = some obj → obj.cls.isSome →
    (∃ k, hs[k]? = some o ∧ obj.hash = w.constructed + UInt32.ofNat (k + 1)) ∨
      ∃ old, w.object? o = some old ∧ old.cls.isSome ∧ obj.hash = old.hash

/-! ## Changes -/

theorem Constructs.trans {hs hs'} (h : w.Constructs v hs) (h' : v.Constructs u hs') : w.Constructs u (hs ++ hs') := by
  have hshift (n : Nat) : v.constructed + UInt32.ofNat n = w.constructed + UInt32.ofNat (hs.length + n) := by
    rw [h.counted, UInt32.ofNat_add, UInt32.add_assoc]
  constructor
  · rw [h'.counted, hshift, List.length_append]
  · intro o obj hobj hcls
    rcases h'.hash hobj hcls with ⟨k, hk, hhash⟩ | ⟨mid, hmid, hmidcls, hhash⟩
    · refine .inl ⟨hs.length + k, ?_, hhash.trans (hshift _)⟩
      rw [List.getElem?_append_right (Nat.le_add_right ..), Nat.add_sub_cancel_left]
      exact hk
    · rcases h.hash hmid hmidcls with ⟨k, hk, hold⟩ | ⟨old, hold, holdcls, heq⟩
      · refine .inl ⟨k, ?_, hhash.trans hold⟩
        rw [List.getElem?_append_left (List.getElem?_eq_some_iff.mp hk).1]
        exact hk
      · exact .inr ⟨old, hold, holdcls, hhash.trans heq⟩

/-- Nothing has been constructed if every object that has a class had it before, with the same hash. -/
theorem constructs_nil (hcounted : v.constructed = w.constructed)
    (hsame : ∀ {o obj}, v.object? o = some obj → obj.cls.isSome →
      ∃ old, w.object? o = some old ∧ old.cls.isSome ∧ obj.hash = old.hash) : w.Constructs v [] := by
  constructor
  · rw [hcounted]
    exact (UInt32.add_zero _).symm
  · intro o obj hobj hcls
    exact .inr (hsame hobj hcls)

theorem constructs_of_objects (hobjects : v.objects = w.objects) (hcounted : v.constructed = w.constructed) :
    w.Constructs v [] := by
  refine constructs_nil hcounted fun {o obj} hobj hcls => ⟨obj, ?_, hcls, rfl⟩
  exact (object?_congr hobjects o).symm.trans hobj

theorem Constructs.refl (w : World) : w.Constructs w [] := constructs_of_objects rfl rfl

theorem constructs_modifyObject {o : ObjId} {f} (hf : ∀ obj, (f obj).cls = obj.cls ∧ (f obj).hash = obj.hash) :
    w.Constructs (w.modifyObject o f) [] := by
  refine constructs_nil rfl fun {p obj} hobj hcls => ?_
  rw [object?_modifyObject] at hobj
  split at hobj
  · obtain ⟨old, hold, rfl⟩ := Option.map_eq_some_iff.mp hobj
    exact ⟨old, hold, (hf old).1 ▸ hcls, (hf old).2⟩
  · exact ⟨obj, hobj, hcls, rfl⟩

theorem constructs_modifyThread (w : World) (o : ObjId) (f : Thread → Thread) :
    w.Constructs (w.modifyThread o f) [] := by
  refine constructs_modifyObject fun obj => ?_
  obtain ⟨cls, hash, payload⟩ := obj
  cases payload <;> exact ⟨rfl, rfl⟩

theorem constructs_setBuffer (w : World) (o : ObjId) (b : Buffer) : w.Constructs (w.setBuffer o b) [] := by
  refine constructs_modifyObject fun obj => ?_
  obtain ⟨cls, hash, payload⟩ := obj
  cases payload <;> exact ⟨rfl, rfl⟩

theorem constructs_setField (w : World) (o : ObjId) (name : Name) (x : Value) :
    w.Constructs (w.setField o name x) [] := by
  refine constructs_modifyObject fun obj => ?_
  obtain ⟨cls, hash, payload⟩ := obj
  cases payload <;> exact ⟨rfl, rfl⟩

/-- What is allocated has no class yet. -/
theorem constructs_allocate (w : World) (p : Payload) : w.Constructs (w.allocate p).2 [] := by
  refine constructs_nil rfl fun {o obj} hobj hcls => ?_
  have hpush : (w.objects.push { payload := p })[o]? = some obj := hobj
  rw [Array.getElem?_push] at hpush
  split at hpush
  · cases hpush
    cases hcls
  · exact ⟨obj, hpush, hcls, rfl⟩

theorem constructs_bindClass (w : World) (o : ObjId) (c : Class) : w.Constructs (w.bindClass o c) [w.header o] := by
  refine ⟨rfl, fun {p obj} hobj hcls => ?_⟩
  have hmodified : (w.modifyObject (w.header o) fun obj =>
      { obj with cls := some c, hash := w.constructed + 1 }).object? p = some obj := hobj
  rw [object?_modifyObject] at hmodified
  split at hmodified
  · rename_i hp
    obtain ⟨old, -, rfl⟩ := Option.map_eq_some_iff.mp hmodified
    exact .inl ⟨0, congrArg some hp, rfl⟩
  · exact .inr ⟨obj, hmodified, hcls, rfl⟩

theorem constructs_create (w : World) {p} (hp : ∀ part, p ≠ .extended part) (c : Class) :
    w.Constructs (w.create p c).2 [w.objects.size] := by
  have hheader : (w.allocate p).2.header w.objects.size = w.objects.size :=
    header_of_object? Array.getElem?_push_size hp
  have hbound := constructs_bindClass (w.allocate p).2 w.objects.size c
  rw [hheader] at hbound
  exact (constructs_allocate w p).trans hbound

end World

/-! ## Instructions -/

open World

variable {w : World} {i : Instr}

/-- What an instruction constructs in a world: what keeps the class and the hash of the object that it binds to
a class, if it is not refused. -/
def Instr.constructs (w : World) : Instr → List ObjId
  | construct o c => if (w.construct o c).isOk then (o.map w.header).toList else []
  | initThread home o c target => if (w.initThread home o c target).isOk then (o.map w.header).toList else []
  | create .. | makeNullText _ => [w.objects.size]
  | makeText home op s => if (w.makeText home op s).isOk then [w.objects.size] else []
  | newBuffer home => if (w.newBuffer home).isOk then [w.objects.size] else []
  | bufferText b => if (w.bufferText b).isOk then [w.objects.size] else []
  | adopt home task => if ((w.registry home).bound? task).isNone then [w.objects.size] else []
  | _ => []

namespace World

variable {w v : World} {r : ObjId × World} {ε : Type} {o : Option ObjId} {c : Option Class} {hs : List ObjId}
  {home : RuntimeId}

/-- A change that may be refused constructs what it constructs if it is not. -/
theorem constructs_attempt {r : Except ε World} (h : ∀ v, r = .ok v → w.Constructs v hs) :
    w.Constructs (w.attempt r).2 (if r.isOk then hs else []) := by
  cases r with
  | error e => exact .refl w
  | ok v => exact h v rfl

theorem constructs_attemptResult {α : Type} {r : Except ε (α × World)} (h : ∀ p, r = .ok p → w.Constructs p.2 hs) :
    w.Constructs (w.attemptResult r).2 (if r.isOk then hs else []) := by
  cases r with
  | error e => exact .refl w
  | ok p => exact h p rfl

theorem constructs_makeText {op s} (h : w.makeText home op s = .ok r) : w.Constructs r.2 [w.objects.size] := by
  rw [makeText_ok h]
  exact constructs_create w (p := .text home s) nofun _

theorem constructs_bufferText {b} (h : w.bufferText b = .ok r) : w.Constructs r.2 [w.objects.size] := by
  unfold bufferText at h
  split at h
  · cases h
  · split at h
    · cases h
    · cases h
    · split at h
      · rename_i hmake
        cases h
        exact constructs_makeText hmake
      · cases h

theorem constructs_construct (h : w.construct o c = .ok v) : w.Constructs v (o.map w.header).toList := by
  unfold construct at h
  split at h
  · cases h
  · cases h
  · split at h
    · cases h
    · cases h
      exact constructs_bindClass ..

theorem constructs_initThread {target} (h : w.initThread home o c target = .ok v) :
    w.Constructs v (o.map w.header).toList := by
  obtain ⟨p, d, rfl, rfl, -, rfl⟩ := initThread_eq h
  have hregistered : (w.bindClass p d).Constructs ((w.bindClass p d).modifyRegistry home fun _ =>
    (w.registry home).nextId.2.nextName.2) [] := constructs_of_objects rfl rfl
  exact ((constructs_bindClass w p d).trans hregistered).trans (constructs_modifyThread ..)

theorem constructs_adopt (w : World) (home : RuntimeId) (task : TaskId) : w.Constructs (w.adopt home task).2
      (if ((w.registry home).bound? task).isNone then [w.objects.size] else []) := by
  cases hb : (w.registry home).bound? task with
  | some o =>
    rw [adopt_of_bound hb]
    exact .refl w
  | none =>
    rw [adopt_of_unbound hb]
    have hcreated := constructs_create w (p := .thread { w.adoptee home task with self := some w.objects.size })
      nofun (Builtin.threadClass home)
    exact hcreated.trans (constructs_of_objects rfl rfl)

end World

/-- Whether an instruction never constructs anything. -/
def Instr.isStatic : Instr → Bool
  | construct .. | initThread .. | create .. | makeNullText _ | makeText .. | newBuffer _ | bufferText _
  | adopt .. => false
  | _ => true

/-- Every other instruction writes at most what is in an object. -/
theorem Instr.Effect.constructs_nil {task v} (h : i.Effect task w v) (hi : i.isStatic) : w.Constructs v [] := by
  cases h with
  | construct | create | newBuffer | initThread | adopt => cases hi
  | text makes => cases makes <;> cases hi
  | allocate => exact constructs_allocate w _
  | setField => exact constructs_setField ..
  | append => exact constructs_setBuffer ..
  | thread => exact constructs_modifyThread ..
  | _ => exact constructs_of_objects rfl rfl

/-- **An instruction constructs what it says.** -/
theorem Instr.exec_constructs {hand : ObjId → Option Phase} (hi : i.Works hand w) (task : TaskId) :
    w.Constructs (i.exec task w).2 (i.constructs w) := by
  cases i with
  | construct o c => exact constructs_attempt fun v => constructs_construct
  | initThread home o c target => exact constructs_attempt fun v => constructs_initThread
  | create p c =>
    cases hi with
    | allowed allowed =>
      obtain ⟨⟨code, rfl, -⟩, -⟩ := allowed
      exact constructs_create w (p := .runnable code) nofun c
  | makeNullText home => exact constructs_create w (p := .text home _) nofun _
  | makeText home op s => exact constructs_attemptResult fun r => constructs_makeText
  | newBuffer home =>
    refine constructs_attemptResult fun r hr => ?_
    rw [newBuffer_ok hr]
    exact constructs_create w (p := .buffer (some home) _) nofun _
  | bufferText b => exact constructs_attemptResult fun r => constructs_bufferText
  | adopt home t => exact constructs_adopt w home t
  | _ => exact (Instr.effect task w _).constructs_nil rfl

/-! ## Runs -/

namespace Machine

variable {P : Machine → Turn → Prop} {m n : Machine} {τs : List Turn}

/-- What is constructed along some turns, in order. -/
def constructions (m : Machine) (τs : List Turn) : List ObjId := m.record (performed Instr.constructs) τs

/-- **A run constructs what its instructions construct.** -/
theorem constructs_trace (hm : m.Reachable) (hrun : Trace P m τs n) :
    m.world.Constructs n.world (m.constructions τs) := by
  refine history_trace (I := fun w hs => m.world.Constructs w hs) ?_ ?_ hm hrun [] (.refl _)
  · intro m' j i k fs hs task hm' hat _ h
    obtain ⟨hand, hworks⟩ := hm'.works hat
    exact h.trans (i.exec_constructs hworks task)
  · intro w hs h
    have hspawned : w.Constructs { w with tasks := w.tasks + 1 } [] := constructs_of_objects rfl rfl
    rw [← List.append_nil hs]
    exact h.trans hspawned

end Machine

/-! ## Objects with the same hash -/

namespace World

variable {w v : World} {c : Class}

/-- The hash of an object that has a class. -/
theorem hashOf_eq_of_classOf? {o} (hc : v.classOf? o = some c) :
    ∃ obj, v.object? (v.header o) = some obj ∧ obj.cls.isSome ∧ v.hashOf o = obj.hash := by
  obtain ⟨obj, hobj, hcls⟩ := Option.bind_eq_some_iff.mp hc
  refine ⟨obj, hobj, by rw [hcls]; rfl, ?_⟩
  unfold hashOf
  rw [hobj]

/-- The places of fewer than 2^32 hashes can be told from the hashes. -/
theorem eq_of_hash {start j k n} (hn : n < UInt32.size) (hj : j < n) (hk : k < n)
    (h : start + UInt32.ofNat (j + 1) = start + UInt32.ofNat (k + 1)) : j = k := by
  have hcount := congrArg UInt32.toNat ((UInt32.add_right_inj start).mp h)
  rw [UInt32.toNat_ofNat_of_lt' (by omega), UInt32.toNat_ofNat_of_lt' (by omega)] at hcount
  exact Nat.succ.inj hcount

/-- **Two objects with the same hash are the same object**, as long as fewer than 2^32 objects have been
constructed. -/
theorem Constructs.header_eq {hs} (h : w.Constructs v hs) (hempty : ∀ o, w.object? o = none)
    (hfew : hs.length < UInt32.size) {a b d} (ha : v.classOf? a = some c) (hb : v.classOf? b = some d)
    (heq : v.hashOf a = v.hashOf b) : v.header a = v.header b := by
  -- Every object with a class was constructed at some time.
  have htime {o : ObjId} {e : Class} (ho : v.classOf? o = some e) :
      ∃ k, hs[k]? = some (v.header o) ∧ v.hashOf o = w.constructed + UInt32.ofNat (k + 1) := by
    obtain ⟨obj, hobj, hcls, hhash⟩ := hashOf_eq_of_classOf? ho
    rcases h.hash hobj hcls with ⟨k, hk, hold⟩ | ⟨old, hold, -⟩
    · exact ⟨k, hk, hhash.trans hold⟩
    · cases (hempty _).symm.trans hold
  obtain ⟨j, hj, hhash⟩ := htime ha
  obtain ⟨k, hk, hhash'⟩ := htime hb
  have hplace : j = k := by
    have hsame := hhash.symm.trans (heq.trans hhash')
    exact eq_of_hash hfew (List.getElem?_eq_some_iff.mp hj).1 (List.getElem?_eq_some_iff.mp hk).1 hsame
  subst hplace
  exact Option.some.inj (hj.symm.trans hk)

end World

end ObjectKernel
