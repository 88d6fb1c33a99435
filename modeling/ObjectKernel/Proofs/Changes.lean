import ObjectKernel.Proofs.Effects

/-!
# What instructions do to objects and to runtimes

The content of an object tells whether it is a string, a buffer or a thread, and which. An instruction makes
one object at most, and changes the content of one at most; what it does besides does not show in contents.
It goes the same way with runtimes. So whatever is told by contents, or by runtimes, is looked at in three
cases.

## Contents

* `World.content?`: the content of an object. `World.text?_eq`, `World.buffer?_eq`, `World.thread?_eq`: what it
  tells.
* `Instr.Allocates`, `Instr.Alters`, `Instr.Revises`: the instructions that make an object or change a content.
  `Instr.Effect.contentOf`, `Instr.Effect.threadOf`: what an instruction does to contents.
* `Instr.Enrols`, `Instr.Modifies`: the instructions that change a registry, or anything in a runtime.
  `Instr.Effect.runtimeOf`, `Instr.Effect.registryOf`: what an instruction does to runtimes.
-/

namespace ObjectKernel

namespace Payload

/-- The string that a content is. -/
def text? : Payload → Option (RuntimeId × CharSeq)
  | .text home content => some (home, content)
  | _ => none

/-- The buffer that a content is. -/
def buffer? : Payload → Option (Option RuntimeId × Buffer)
  | .buffer home content => some (home, content)
  | _ => none

/-- The thread that a content is. -/
def thread? : Payload → Option Thread
  | .thread content => some content
  | _ => none

/-- The content of a program's object with a field set. -/
def withField (name : Name) (x : Value) : Payload → Payload
  | .plain fields => .plain (fields.insert name x)
  | p => p

/-- The content of a buffer with other characters. -/
def withBuffer (b : Buffer) : Payload → Payload
  | .buffer home _ => .buffer home b
  | p => p

/-- The content of a thread that is changed. -/
def withThread (f : Thread → Thread) : Payload → Payload
  | .thread t => .thread (f t)
  | p => p

theorem thread?_withThread (f : Thread → Thread) (p : Payload) : (p.withThread f).thread? = p.thread?.map f := by
  cases p <;> rfl

end Payload

namespace World

variable {w v : World}

/-- The content of an object. -/
def content? (w : World) (o : ObjId) : Option Payload := (w.object? o).map Obj.payload

theorem text?_eq (w : World) (o : ObjId) : w.text? o = (w.content? o).bind Payload.text? := by
  unfold text? content?
  cases w.object? o with
  | none => rfl
  | some obj =>
    obtain ⟨cls, hash, payload⟩ := obj
    cases payload <;> rfl

theorem buffer?_eq (w : World) (o : ObjId) : w.buffer? o = (w.content? o).bind Payload.buffer? := by
  unfold buffer? content?
  cases w.object? o with
  | none => rfl
  | some obj =>
    obtain ⟨cls, hash, payload⟩ := obj
    cases payload <;> rfl

theorem thread?_eq (w : World) (o : ObjId) : w.thread? o = (w.content? o).bind Payload.thread? := by
  unfold thread? content?
  cases w.object? o with
  | none => rfl
  | some obj =>
    obtain ⟨cls, hash, payload⟩ := obj
    cases payload <;> rfl

theorem content?_of_objects (h : v.objects = w.objects) (o : ObjId) : v.content? o = w.content? o := by
  unfold content? object?
  rw [h]

/-- What is not there yet has no content. -/
theorem content?_size (w : World) : w.content? w.objects.size = none := by
  unfold content? object?
  rw [Array.getElem?_eq_none (Nat.le_refl _)]
  rfl

theorem thread?_size (w : World) : w.thread? w.objects.size = none := by
  rw [thread?_eq, content?_size]
  rfl

theorem content?_modifyObject (w : World) (o q : ObjId) {f g} (hf : ∀ obj, (f obj).payload = g obj.payload) :
    (w.modifyObject o f).content? q = if o = q then (w.content? q).map g else w.content? q := by
  unfold content?
  rw [object?_modifyObject]
  by_cases hq : o = q
  · rw [if_pos hq, if_pos hq, Option.map_map, Option.map_map]
    exact congrArg (Option.map · _) (funext hf)
  · rw [if_neg hq, if_neg hq]

theorem content?_setField (w : World) (o : ObjId) (name : Name) (x : Value) (q : ObjId) :
    (w.setField o name x).content? q =
      if o = q then (w.content? q).map (Payload.withField name x) else w.content? q := by
  apply content?_modifyObject
  rintro ⟨cls, hash, payload⟩
  cases payload <;> rfl

theorem content?_setBuffer (w : World) (o : ObjId) (b : Buffer) (q : ObjId) : (w.setBuffer o b).content? q =
      if o = q then (w.content? q).map (Payload.withBuffer b) else w.content? q := by
  apply content?_modifyObject
  rintro ⟨cls, hash, payload⟩
  cases payload <;> rfl

theorem content?_modifyThread (w : World) (o : ObjId) (f : Thread → Thread) (q : ObjId) :
    (w.modifyThread o f).content? q = if o = q then (w.content? q).map (Payload.withThread f) else w.content? q := by
  apply content?_modifyObject
  rintro ⟨cls, hash, payload⟩
  cases payload <;> rfl

/-- A class does not show in the content. -/
theorem content?_bindClass (w : World) (o : ObjId) (c : Class) (q : ObjId) :
    (w.bindClass o c).content? q = w.content? q := by
  have hbound : (w.bindClass o c).content? q = if w.header o = q then (w.content? q).map id else w.content? q :=
    content?_modifyObject w (w.header o) q
      (f := fun obj => { obj with cls := some c, hash := w.constructed + 1 }) fun _ => rfl
  rw [hbound, Option.map_id_fun, id, ite_self]

theorem thread?_bindClass (w : World) (o : ObjId) (c : Class) (q : ObjId) :
    (w.bindClass o c).thread? q = w.thread? q := by
  rw [thread?_eq, thread?_eq, content?_bindClass]

theorem content?_modifyRegistry (w : World) (home : RuntimeId) (f : Registry → Registry) (q : ObjId) :
    (w.modifyRegistry home f).content? q = w.content? q := rfl

theorem content?_allocate (w : World) (p : Payload) (q : ObjId) :
    (w.allocate p).2.content? q = if w.objects.size = q then some p else w.content? q := by
  unfold content?
  have hobj : (w.allocate p).2.object? q = (w.objects.push { payload := p })[q]? := rfl
  rw [hobj, Array.getElem?_push]
  by_cases hq : w.objects.size = q
  · rw [if_pos hq.symm, if_pos hq]
    rfl
  · rw [if_neg (Ne.symm hq), if_neg hq]
    rfl

theorem content?_create (w : World) (p : Payload) (c : Class) (q : ObjId) :
    (w.create p c).2.content? q = if w.objects.size = q then some p else w.content? q :=
  (content?_bindClass ..).trans (content?_allocate w p q)

theorem thread?_modifyThread (w : World) (o p : ObjId) (f : Thread → Thread) :
    (w.modifyThread o f).thread? p = if o = p then (w.thread? p).map f else w.thread? p := by
  rw [thread?_eq, thread?_eq, content?_modifyThread]
  by_cases ho : o = p
  · rw [if_pos ho, if_pos ho]
    cases w.content? p with
    | none => rfl
    | some x => exact x.thread?_withThread f
  · rw [if_neg ho, if_neg ho]

end World

namespace Instr

/-! ## Contents -/

/-- The content that an instruction makes an object with. -/
inductive Allocates (w : World) : Instr → Payload → Prop where
  | allocate (p : Payload) : Allocates w (.allocate p) p
  | create (p : Payload) (c : Class) : Allocates w (.create p c) p
  | text {i : Instr} {home : RuntimeId} {s : CharSeq} (makes : i.Makes w (home, s)) :
      Allocates w i (.text home s)
  | newBuffer (home : RuntimeId) : Allocates w (.newBuffer home)
      (.buffer (some home) (.empty (w.config home).initialCapacity))
  | adopt {home : RuntimeId} {id : TaskId} (unbound : (w.registry home).bound? id = none) :
      Allocates w (.adopt home id) (.thread { w.adoptee home id with self := some w.objects.size })

/-- What an instruction changes in a thread. -/
inductive Revises (w : World) : Instr → ObjId → (Thread → Thread) → Prop where
  | reshapes {i : Instr} {o : ObjId} {f : Thread → Thread} (reshapes : i.Reshapes o f) : Revises w i o f
  | initThread {home : RuntimeId} {o : ObjId} {c : Class} {target : Option ObjId}
      (unbound : w.classOf? o = none) : Revises w (.initThread home (some o) (some c) target) (w.header o)
        fun t =>
          { t with
            home := some home, self := some o, target, id := (w.registry home).nextId.1
            name := (w.registry home).nextId.2.nextName.1, ended := false }

/-- What an instruction changes in the content of an object. -/
inductive Alters (w : World) : Instr → ObjId → (Payload → Payload) → Prop where
  | setField (o : ObjId) (name : Name) (x : Value) : Alters w (.setField o name x) o (.withField name x)
  | append (o : ObjId) (cs : List Rune) (b : Buffer) : Alters w (.append o cs) o (.withBuffer b)
  | thread {i : Instr} {o : ObjId} {f : Thread → Thread} (revises : i.Revises w o f) :
      Alters w i o (.withThread f)

open World

variable {task : TaskId} {w v : World} {i : Instr} {r : RuntimeId} {rt : Runtime} {o : ObjId} {t : Thread}

/-- **An instruction makes one object or changes the content of one, at most.** -/
theorem Effect.contentOf (h : i.Effect task w v) (q : ObjId) : v.content? q = w.content? q ∨
    (∃ g, i.Alters w q g ∧ v.content? q = (w.content? q).map g) ∨
      ∃ p, q = w.objects.size ∧ i.Allocates w p ∧ v.content? q = some p := by
  have haltered {o : ObjId} {g : Payload → Payload} (hg : i.Alters w o g)
      (hv : v.content? q = if o = q then (w.content? q).map g else w.content? q) :
      v.content? q = w.content? q ∨ (∃ g, i.Alters w q g ∧ v.content? q = (w.content? q).map g) ∨
        ∃ p, q = w.objects.size ∧ i.Allocates w p ∧ v.content? q = some p := by
    by_cases ho : o = q
    · subst ho
      exact .inr (.inl ⟨g, hg, hv.trans (if_pos rfl)⟩)
    · exact .inl (hv.trans (if_neg ho))
  have hnew {p : Payload} (hp : i.Allocates w p)
      (hv : v.content? q = if w.objects.size = q then some p else w.content? q) :
      v.content? q = w.content? q ∨ (∃ g, i.Alters w q g ∧ v.content? q = (w.content? q).map g) ∨
        ∃ p, q = w.objects.size ∧ i.Allocates w p ∧ v.content? q = some p := by
    by_cases hq : w.objects.size = q
    · exact .inr (.inr ⟨p, hq.symm, hp, hv.trans (if_pos hq)⟩)
    · exact .inl (hv.trans (if_neg hq))
  cases h with
  | allocate => exact hnew (.allocate _) (content?_allocate w _ q)
  | create => exact hnew (.create _ _) (content?_create w _ _ q)
  | construct => exact .inl (content?_bindClass w _ _ q)
  | setField => exact haltered (.setField _ _ _) (content?_setField w _ _ _ q)
  | text makes => exact hnew (.text makes) (content?_create w _ _ q)
  | newBuffer => exact hnew (.newBuffer _) (content?_create w _ _ q)
  | append b => exact haltered (.append _ _ b) (content?_setBuffer w _ b q)
  | initThread unbound =>
    refine haltered (.thread (.initThread unbound)) ?_
    rw [content?_modifyThread, content?_modifyRegistry, content?_bindClass]
  | adopt unbound => exact hnew (.adopt unbound) (content?_create w _ _ q)
  | thread reshapes => exact haltered (.thread (.reshapes reshapes)) (content?_modifyThread w _ _ q)
  | _ => exact .inl (content?_of_objects rfl q)

/-- **An instruction makes one thread or changes one, at most.** -/
theorem Effect.threadOf (h : i.Effect task w v) (o : ObjId) : v.thread? o = w.thread? o ∨
    (∃ f, i.Revises w o f ∧ v.thread? o = (w.thread? o).map f) ∨
      ∃ t, o = w.objects.size ∧ i.Allocates w (.thread t) ∧ v.thread? o = some t := by
  rw [thread?_eq, thread?_eq]
  rcases h.contentOf o with hsame | ⟨g, hg, hv⟩ | ⟨p, rfl, hp, hv⟩
  · exact .inl (by rw [hsame])
  · rw [hv]
    cases hg with
    | setField | append =>
      left
      cases w.content? o with
      | none => rfl
      | some p => cases p <;> rfl
    | thread revises =>
      refine .inr (.inl ⟨_, revises, ?_⟩)
      cases w.content? o with
      | none => rfl
      | some p => exact p.thread?_withThread _
  · rw [hv, content?_size]
    cases p with
    | thread t => exact .inr (.inr ⟨t, rfl, hp, rfl⟩)
    | _ => exact .inl rfl

/-- What becomes of a thread. -/
theorem Effect.thread_of_some (h : i.Effect task w v) (ht : w.thread? o = some t) : v.thread? o = some t ∨
    ∃ f, i.Revises w o f ∧ v.thread? o = some (f t) := by
  rcases h.threadOf o with hsame | ⟨f, hf, hrevised⟩ | ⟨_, rfl, -⟩
  · exact .inl (hsame.trans ht)
  · refine .inr ⟨f, hf, hrevised.trans ?_⟩
    rw [ht]
    rfl
  · cases (thread?_size w).symm.trans ht

/-- A thread that was not there is new. -/
theorem Effect.thread_of_none (h : i.Effect task w v) (hnone : w.thread? o = none) (ht : v.thread? o = some t) :
    o = w.objects.size ∧ i.Allocates w (.thread t) := by
  rcases h.threadOf o with hsame | ⟨f, -, hrevised⟩ | ⟨t', ho, hnew, ht'⟩
  · cases (hsame.trans hnone).symm.trans ht
  · rw [hnone] at hrevised
    cases hrevised.symm.trans ht
  · cases ht'.symm.trans ht
    exact ⟨ho, hnew⟩

/-! ## Runtimes -/

/-- What an instruction of a task changes in the registry of a runtime. -/
inductive Enrols (task : TaskId) (w : World) : Instr → RuntimeId → (Registry → Registry) → Prop where
  | rebinds {i : Instr} {o : ObjId} {f : Registry → Registry} {home : RuntimeId}
      (rebinds : i.Rebinds task o f) (initialised : (w.thread? o).bind (·.home) = some home) :
      Enrols task w i home f
  | initThread {home : RuntimeId} {o : ObjId} {c : Class} {target : Option ObjId} :
      Enrols task w (.initThread home (some o) (some c) target) home (·.nextId.2.nextName.2)
  | adopt {home : RuntimeId} {id : TaskId} (unbound : (w.registry home).bound? id = none) :
      Enrols task w (.adopt home id) home fun r =>
        { r.nextId.2.bind id w.objects.size with adopted := r.adopted + 1 }

/-- What an instruction of a task changes in a runtime. -/
inductive Modifies (task : TaskId) (w : World) : Instr → RuntimeId → (Runtime → Runtime) → Prop where
  | registry {i : Instr} {home : RuntimeId} {f : Registry → Registry} (enrols : i.Enrols task w home f) :
      Modifies task w i home fun rt => { rt with registry := f rt.registry }
  | shareConstant {home : RuntimeId} {literal : Bytes} {o : ObjId} :
      Modifies task w (.shareConstant home literal o) home fun rt =>
        { rt with constants := rt.constants.insert literal o }
  | insertSelector {home : RuntimeId} {name : Bytes} : Modifies task w (.insertSelector home name) home
      fun rt => { rt with selectors := (rt.selectors.insert name).2 }
  | countBarrier {home : RuntimeId} : Modifies task w (.countBarrier home) home
      fun rt => { rt with barriers := rt.barriers + 1 }
  | reserveClass {home : RuntimeId} {name : Bytes} (free : (w.classes home).entries.get? name = none) :
      Modifies task w (.reserveClass home name) home fun rt => { rt with classes := rt.classes.reserve name }
  | settleClass {home : RuntimeId} {name : Bytes} {e : ClassEntry} :
      Modifies task w (.settleClass home name e) home fun rt => { rt with classes := rt.classes.settle name e }
  | completeClass {home : RuntimeId} {name : Bytes} {parent : Option Class} {table : TableId}
      (methods : Dictionary Selector Method) : Modifies task w (.completeClass home name parent table) home
        fun rt => { rt with
          classes := rt.classes.settle name (.defined (.make { home, name, methods } parent)) }

/-- **An instruction makes one runtime or changes one, at most.** -/
theorem Effect.runtimeOf (h : i.Effect task w v) (r : RuntimeId) : v.runtime? r = w.runtime? r ∨
    (∃ f, i.Modifies task w r f ∧ v.runtime? r = (w.runtime? r).map f) ∨
      ∃ rt, w.runtime? r = none ∧ rt.New r ∧ v.runtime? r = some rt := by
  -- A change may depend on the runtime as it was.
  have hmodified {home : RuntimeId} {f g : Runtime → Runtime} (hg : i.Modifies task w home g)
      (hf : ∀ rt, w.runtime? home = some rt → f rt = g rt) (hv : v.runtimes = w.runtimes.modify home f) :
      v.runtime? r = w.runtime? r ∨ (∃ f, i.Modifies task w r f ∧ v.runtime? r = (w.runtime? r).map f) ∨
        ∃ rt, w.runtime? r = none ∧ rt.New r ∧ v.runtime? r = some rt := by
    have hr : v.runtime? r = if home = r then (w.runtime? r).map f else w.runtime? r := by
      unfold World.runtime?
      rw [hv, Array.getElem?_modify]
    by_cases hhome : home = r
    · subst hhome
      refine .inr (.inl ⟨g, hg, ?_⟩)
      rw [hr, if_pos rfl]
      exact Option.map_congr fun rt hrt => hf rt hrt
    · exact .inl (hr.trans (if_neg hhome))
  have hpushed {rt : Runtime} (hnew : rt.New w.runtimes.size) (hv : v.runtimes = w.runtimes.push rt) :
      v.runtime? r = w.runtime? r ∨ (∃ f, i.Modifies task w r f ∧ v.runtime? r = (w.runtime? r).map f) ∨
        ∃ rt, w.runtime? r = none ∧ rt.New r ∧ v.runtime? r = some rt := by
    unfold World.runtime?
    rw [hv]
    by_cases hr : r = w.runtimes.size
    · subst hr
      exact .inr (.inr ⟨rt, Array.getElem?_eq_none (Nat.le_refl _), hnew, Array.getElem?_push_size⟩)
    · exact .inl (Array.getElem?_push.trans (if_neg hr))
  cases h with
  | @initThread home =>
    refine hmodified (f := fun rt => { rt with registry := (w.registry home).nextId.2.nextName.2 })
      (.registry .initThread) (fun rt hrt => ?_) rfl
    rw [registry_eq hrt]
  | @adopt home id unbound =>
    refine hmodified (f := fun rt => { rt with
      registry := { (w.registry home).nextId.2.bind id w.objects.size with
        adopted := (w.registry home).adopted + 1 } }) (.registry (.adopt unbound)) (fun rt hrt => ?_) rfl
    rw [registry_eq hrt]
  | registry rebinds initialised => exact hmodified (.registry (.rebinds rebinds initialised)) (fun _ _ => rfl) rfl
  | shareConstant => exact hmodified .shareConstant (fun _ _ => rfl) rfl
  | @insertSelector home name =>
    refine hmodified (f := fun rt => { rt with selectors := ((w.selectors home).insert name).2 })
      .insertSelector (fun rt hrt => ?_) rfl
    unfold World.selectors
    rw [hrt]
  | countBarrier => exact hmodified .countBarrier (fun _ _ => rfl) rfl
  | reserveClass free => exact hmodified (.reserveClass free) (fun _ _ => rfl) rfl
  | settleClass => exact hmodified .settleClass (fun _ _ => rfl) rfl
  | completeClass => exact hmodified (.completeClass _) (fun _ _ => rfl) rfl
  | newRuntime new => exact hpushed new rfl
  | initGlobal new => exact hpushed new rfl
  | _ => exact .inl rfl

/-- What becomes of a runtime. -/
theorem Effect.runtime_of_some (h : i.Effect task w v) (hrt : w.runtime? r = some rt) : v.runtime? r = some rt ∨
    ∃ f, i.Modifies task w r f ∧ v.runtime? r = some (f rt) := by
  rcases h.runtimeOf r with hsame | ⟨f, hf, hmodified⟩ | ⟨_, hnone, -⟩
  · exact .inl (hsame.trans hrt)
  · refine .inr ⟨f, hf, hmodified.trans ?_⟩
    rw [hrt]
    rfl
  · cases hnone.symm.trans hrt

/-- A runtime that was not there is new. -/
theorem Effect.runtime_of_none (h : i.Effect task w v) (hnone : w.runtime? r = none) (hrt : v.runtime? r = some rt) :
    rt.New r := by
  rcases h.runtimeOf r with hsame | ⟨f, -, hmodified⟩ | ⟨rt', -, hnew, hrt'⟩
  · cases (hsame.trans hnone).symm.trans hrt
  · rw [hnone] at hmodified
    cases hmodified.symm.trans hrt
  · cases hrt'.symm.trans hrt
    exact hnew

/-- **What an instruction does to the registry of a runtime.** -/
theorem Effect.registryOf (h : i.Effect task w v) (r : RuntimeId) : v.registry r = w.registry r ∨
    ∃ f, i.Enrols task w r f ∧ v.registry r = f (w.registry r) := by
  unfold World.registry
  cases hrt : w.runtime? r with
  | some rt =>
    rcases h.runtime_of_some hrt with hsame | ⟨f, hf, hmodified⟩
    · exact .inl (by rw [hsame])
    · rw [hmodified]
      cases hf with
      | registry enrols => exact .inr ⟨_, enrols, rfl⟩
      | _ => exact .inl rfl
  | none =>
    -- A runtime that is not there counts as one with an empty registry.
    left
    cases hrt' : v.runtime? r with
    | none => rfl
    | some rt => exact (h.runtime_of_none hrt hrt').registry

end Instr

end ObjectKernel
