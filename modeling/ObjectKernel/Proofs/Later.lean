import Mathlib.Order.Basic
import ObjectKernel.Instruction

/-!
# What lasts in a world

Tasks change a world all the time, and a task that has looked at it goes on with what it saw. What it
may rely on is what no change undoes. This module collects that in one order: `w ≤ v` says that `v` may
come after `w`. Objects, runtimes and method tables stay, an object keeps its class, a string its
characters, a class entry that is final its class, and a literal its string.

## Contents

* `Thread.Lasts`, `Payload.Lasts`, `Obj.Lasts`, `Runtime.Lasts`, `MethodTable.Lasts`: what lasts of each
  part.
* `World.Later` and the order of worlds.
* Look-ups that once succeeded: `thread?_later`, `text?_later`, `classOf?_later`, `getClass_later` and
  their like.
* Changes that respect the order: `le_modifyObject`, `le_modifyRuntime`, `le_pushObject` and their like.
-/

namespace ObjectKernel

/-! ## The parts -/

/-- What lasts of a thread: whether it is adopted, the home it was initialised in, and the reservation
of its start. -/
structure Thread.Lasts (t u : Thread) : Prop where
  adopted : u.adopted = t.adopted
  home : t.home.isSome → u.home = t.home
  started : t.started → u.started

theorem Thread.Lasts.refl (t : Thread) : t.Lasts t := ⟨rfl, fun _ => rfl, fun h => h⟩

theorem Thread.Lasts.trans {t u v : Thread} (h : t.Lasts u) (h' : u.Lasts v) : t.Lasts v := by
  refine ⟨h'.adopted.trans h.adopted, fun ht => ?_, fun ht => h'.started (h.started ht)⟩
  have hu := h.home ht
  exact (h'.home (hu ▸ ht)).trans hu

/-- What lasts of the content of an object: strings, wrappers and work items are constant, and
everything else keeps its kind. -/
def Payload.Lasts : Payload → Payload → Prop
  | .text home content, q => q = .text home content
  | .buffer home _, q => ∃ content, q = .buffer home content
  | .thread t, q => ∃ u, q = .thread u ∧ t.Lasts u
  | .extended part, q => q = .extended part
  | .runnable code, q => q = .runnable code
  | .plain _, q => ∃ fields, q = .plain fields

theorem Payload.Lasts.refl (p : Payload) : p.Lasts p := by
  cases p with
  | text home content => rfl
  | buffer home content => exact ⟨content, rfl⟩
  | thread t => exact ⟨t, rfl, .refl t⟩
  | extended part => rfl
  | runnable code => rfl
  | plain fields => exact ⟨fields, rfl⟩

theorem Payload.Lasts.trans {p q r : Payload} (h : p.Lasts q) (h' : q.Lasts r) : p.Lasts r := by
  cases p with
  | text home content => subst h; exact h'
  | buffer home content => obtain ⟨b, rfl⟩ := h; exact h'
  | thread t =>
    obtain ⟨u, rfl, hu⟩ := h
    obtain ⟨v, rfl, hv⟩ := h'
    exact ⟨v, rfl, hu.trans hv⟩
  | extended part => subst h; exact h'
  | runnable code => subst h; exact h'
  | plain fields => obtain ⟨f, rfl⟩ := h; exact h'

/-- What lasts of an object: its class and hash once it has them, and what lasts of its content. -/
structure Obj.Lasts (a b : Obj) : Prop where
  cls : ∀ {c}, a.cls = some c → b.cls = some c ∧ b.hash = a.hash
  payload : a.payload.Lasts b.payload

theorem Obj.Lasts.refl (a : Obj) : a.Lasts a := ⟨fun h => ⟨h, rfl⟩, .refl _⟩

theorem Obj.Lasts.trans {a b c : Obj} (h : a.Lasts b) (h' : b.Lasts c) : a.Lasts c := by
  refine ⟨fun hc => ?_, h.payload.trans h'.payload⟩
  obtain ⟨hb, hh⟩ := h.cls hc
  obtain ⟨hc', hh'⟩ := h'.cls hb
  exact ⟨hc', hh'.trans hh⟩

/-- What lasts of a runtime: its settings, its root class, every class entry that is final, and the
string of every literal. -/
structure Runtime.Lasts (a b : Runtime) : Prop where
  config : b.config = a.config
  root : b.classes.root = a.classes.root
  entry : ∀ {name e}, a.classes.entries.get? name = some e → e.isFinal →
    b.classes.entries.get? name = some e
  constant : ∀ {literal o}, a.constants.get? literal = some o → b.constants.get? literal = some o

theorem Runtime.Lasts.refl (a : Runtime) : a.Lasts a := ⟨rfl, rfl, fun h _ => h, fun h => h⟩

theorem Runtime.Lasts.trans {a b c : Runtime} (h : a.Lasts b) (h' : b.Lasts c) : a.Lasts c :=
  ⟨h'.config.trans h.config, h'.root.trans h.root, fun he hf => h'.entry (h.entry he hf) hf,
    fun ho => h'.constant (h.constant ho)⟩

/-- What lasts of a method table: its home, and everything once it is complete. -/
structure MethodTable.Lasts (a b : MethodTable) : Prop where
  home : b.home = a.home
  complete : a.complete → b = a

theorem MethodTable.Lasts.refl (a : MethodTable) : a.Lasts a := ⟨rfl, fun _ => rfl⟩

theorem MethodTable.Lasts.trans {a b c : MethodTable} (h : a.Lasts b) (h' : b.Lasts c) : a.Lasts c := by
  refine ⟨h'.home.trans h.home, fun ha => ?_⟩
  have hb := h.complete ha
  subst hb
  exact h'.complete ha

/-! ## The order of worlds -/

/-- A world that may come after another one: everything that is there stays, and keeps what lasts. -/
structure World.Later (w v : World) : Prop where
  objects : ∀ {o obj}, w.object? o = some obj → ∃ obj', v.object? o = some obj' ∧ obj.Lasts obj'
  runtimes : ∀ {r rt}, w.runtime? r = some rt → ∃ rt', v.runtime? r = some rt' ∧ rt.Lasts rt'
  tables : ∀ {t : TableId} {mt : MethodTable}, w.tables[t]? = some mt →
    ∃ mt', v.tables[t]? = some mt' ∧ mt.Lasts mt'

/-- Worlds are ordered by what may come after what. -/
instance : Preorder World where
  le := World.Later
  le_refl w := ⟨fun h => ⟨_, h, .refl _⟩, fun h => ⟨_, h, .refl _⟩, fun h => ⟨_, h, .refl _⟩⟩
  le_trans w v u h h' := by
    refine ⟨fun ho => ?_, fun hr => ?_, fun ht => ?_⟩
    · obtain ⟨a, ha, la⟩ := h.objects ho
      obtain ⟨b, hb, lb⟩ := h'.objects ha
      exact ⟨b, hb, la.trans lb⟩
    · obtain ⟨a, ha, la⟩ := h.runtimes hr
      obtain ⟨b, hb, lb⟩ := h'.runtimes ha
      exact ⟨b, hb, la.trans lb⟩
    · obtain ⟨a, ha, la⟩ := h.tables ht
      obtain ⟨b, hb, lb⟩ := h'.tables ha
      exact ⟨b, hb, la.trans lb⟩

namespace World

variable {w v : World} {o : ObjId} {p : RuntimeId × CharSeq} {c : Class} {r : RuntimeId} {rt : Runtime}
  {t : Thread} {code : Option Code} {name : Bytes}

/-! ## Look-ups that once succeeded -/

theorem thread?_eq_some : w.thread? o = some t ↔ ∃ obj, w.object? o = some obj ∧ obj.payload = .thread t := by
  unfold thread?
  constructor
  · intro h
    split at h
    · rename_i cls hash content hobj
      cases h
      exact ⟨_, hobj, rfl⟩
    · cases h
  · rintro ⟨⟨cls, hash, payload⟩, hobj, rfl⟩
    rw [hobj]

theorem text?_eq_some : w.text? o = some p ↔ ∃ obj, w.object? o = some obj ∧ obj.payload = .text p.1 p.2 := by
  unfold text?
  constructor
  · intro h
    split at h
    · rename_i cls hash home content hobj
      cases h
      exact ⟨_, hobj, rfl⟩
    · cases h
  · rintro ⟨⟨cls, hash, payload⟩, hobj, rfl⟩
    rw [hobj]

theorem runnable?_eq_some :
    w.runnable? o = some code ↔ ∃ obj, w.object? o = some obj ∧ obj.payload = .runnable code := by
  unfold runnable?
  constructor
  · intro h
    split at h
    · rename_i cls hash content hobj
      cases h
      exact ⟨_, hobj, rfl⟩
    · cases h
  · rintro ⟨⟨cls, hash, payload⟩, hobj, rfl⟩
    rw [hobj]

theorem buffer?_eq_some {p : Option RuntimeId × Buffer} :
    w.buffer? o = some p ↔ ∃ obj, w.object? o = some obj ∧ obj.payload = .buffer p.1 p.2 := by
  unfold buffer?
  constructor
  · intro h
    split at h
    · rename_i cls hash home content hobj
      cases h
      exact ⟨_, hobj, rfl⟩
    · cases h
  · rintro ⟨⟨cls, hash, payload⟩, hobj, rfl⟩
    rw [hobj]

/-- A thread stays a thread. -/
theorem thread?_later (h : w ≤ v) (ht : w.thread? o = some t) : ∃ u, v.thread? o = some u ∧ t.Lasts u := by
  obtain ⟨obj, hobj, hp⟩ := thread?_eq_some.mp ht
  obtain ⟨obj', hobj', hl⟩ := h.objects hobj
  have hlast := hl.payload
  rw [hp] at hlast
  obtain ⟨u, hu, htu⟩ := hlast
  exact ⟨u, thread?_eq_some.mpr ⟨obj', hobj', hu⟩, htu⟩

/-- A string is constant. -/
theorem text?_later (h : w ≤ v) (ht : w.text? o = some p) : v.text? o = some p := by
  obtain ⟨obj, hobj, hp⟩ := text?_eq_some.mp ht
  obtain ⟨obj', hobj', hl⟩ := h.objects hobj
  have hlast := hl.payload
  rw [hp] at hlast
  exact text?_eq_some.mpr ⟨obj', hobj', hlast⟩

/-- A work item keeps its code. -/
theorem runnable?_later (h : w ≤ v) (hc : w.runnable? o = some code) : v.runnable? o = some code := by
  obtain ⟨obj, hobj, hp⟩ := runnable?_eq_some.mp hc
  obtain ⟨obj', hobj', hl⟩ := h.objects hobj
  have hlast := hl.payload
  rw [hp] at hlast
  exact runnable?_eq_some.mpr ⟨obj', hobj', hlast⟩

/-- An object keeps its header: what wraps a thread wraps it for good. -/
theorem header_later (h : w ≤ v) {obj} (ho : w.object? o = some obj) : v.header o = w.header o := by
  obtain ⟨obj', ho', hl⟩ := h.objects ho
  have hlast := hl.payload
  unfold header
  rw [ho, ho']
  obtain ⟨cls, hash, p⟩ := obj
  obtain ⟨cls', hash', q⟩ := obj'
  cases p with
  | text home content => cases hlast; rfl
  | buffer home content => obtain ⟨b, rfl⟩ := hlast; rfl
  | thread t => obtain ⟨u, rfl, _⟩ := hlast; rfl
  | extended part => cases hlast; rfl
  | runnable code => cases hlast; rfl
  | plain fields => obtain ⟨f, rfl⟩ := hlast; rfl

theorem header_of_none (ho : w.object? o = none) : w.header o = o := by
  unfold header
  rw [ho]

/-- An object that has no thread as its part keeps its class itself. -/
theorem header_of_object? {obj} (ho : w.object? o = some obj) (hp : ∀ part, obj.payload ≠ .extended part) :
    w.header o = o := by
  unfold header
  rw [ho]
  obtain ⟨cls, hash, payload⟩ := obj
  cases payload with
  | extended part => exact absurd rfl (hp part)
  | _ => rfl

theorem classOf?_of_object? {obj} (ho : w.object? o = some obj) (hp : ∀ part, obj.payload ≠ .extended part) :
    w.classOf? o = obj.cls := by
  unfold classOf?
  rw [header_of_object? ho hp, ho]
  rfl

theorem header_of_thread? (ht : w.thread? o = some t) : w.header o = o := by
  obtain ⟨obj, hobj, hp⟩ := thread?_eq_some.mp ht
  refine header_of_object? hobj fun part => ?_
  rw [hp]
  exact nofun

theorem exists_of_classOf? (hc : w.classOf? o = some c) : ∃ obj, w.object? o = some obj := by
  cases ho : w.object? o with
  | some obj => exact ⟨obj, rfl⟩
  | none =>
    unfold classOf? at hc
    rw [header_of_none ho, ho] at hc
    cases hc

/-- An object keeps its class. -/
theorem classOf?_later (h : w ≤ v) (hc : w.classOf? o = some c) : v.classOf? o = some c := by
  obtain ⟨obj, ho⟩ := exists_of_classOf? hc
  unfold classOf? at hc ⊢
  rw [header_later h ho]
  obtain ⟨obj', ho', hcls⟩ := Option.bind_eq_some_iff.mp hc
  obtain ⟨obj'', ho'', hl⟩ := h.objects ho'
  rw [ho'']
  exact (hl.cls hcls).1

/-- A runtime that exists. -/
def Has (w : World) (r : RuntimeId) : Prop := ∃ rt, w.runtime? r = some rt

theorem Has.later (h : w ≤ v) (hr : w.Has r) : v.Has r := by
  obtain ⟨rt, hrt⟩ := hr
  obtain ⟨rt', hrt', _⟩ := h.runtimes hrt
  exact ⟨rt', hrt'⟩

theorem has_of_lt (h : r < w.runtimes.size) : w.Has r := ⟨_, Array.getElem?_eq_getElem h⟩

theorem Has.lt (h : w.Has r) : r < w.runtimes.size := by
  obtain ⟨rt, hrt⟩ := h
  exact (Array.getElem?_eq_some_iff.mp hrt).1

/-- No runtime goes away. -/
theorem size_runtimes_le (h : w ≤ v) : w.runtimes.size ≤ v.runtimes.size := by
  by_contra hlt
  have hlast : w.Has v.runtimes.size := has_of_lt (Nat.lt_of_not_le hlt)
  exact Nat.lt_irrefl _ (hlast.later h).lt

theorem classes_eq (h : w.runtime? r = some rt) : w.classes r = rt.classes := by
  unfold classes
  rw [h]

theorem config_eq (h : w.runtime? r = some rt) : w.config r = rt.config := by
  unfold config
  rw [h]

theorem registry_eq (h : w.runtime? r = some rt) : w.registry r = rt.registry := by
  unfold registry
  rw [h]

/-- A runtime that has a class exists. -/
theorem exists_of_getClass (h : (w.classes r).get? name = some c) : ∃ rt, w.runtime? r = some rt := by
  cases hr : w.runtime? r with
  | some rt => exact ⟨rt, rfl⟩
  | none => simp [classes, hr, ClassTable.get?] at h

/-- A class that is defined stays defined. -/
theorem getClass_later (h : w ≤ v) (hc : (w.classes r).get? name = some c) : (v.classes r).get? name = some c := by
  obtain ⟨rt, hrt⟩ := exists_of_getClass hc
  obtain ⟨rt', hrt', hl⟩ := h.runtimes hrt
  rw [classes_eq hrt] at hc
  rw [classes_eq hrt']
  obtain ⟨e, he, hec⟩ := Option.bind_eq_some_iff.mp hc
  have hfinal : e.isFinal := by
    cases e with
    | defined d => rfl
    | building => cases hec
    | abandoned => cases hec
    | failed x => cases hec
  exact Option.bind_eq_some_iff.mpr ⟨e, hl.entry he hfinal, hec⟩

/-- The settings of a runtime are constant. -/
theorem config_later (h : w ≤ v) (hr : w.Has r) : v.config r = w.config r := by
  obtain ⟨rt, hrt⟩ := hr
  obtain ⟨rt', hrt', hl⟩ := h.runtimes hrt
  rw [config_eq hrt, config_eq hrt', hl.config]

/-! ## Changes that respect the order -/

theorem object?_modifyObject (w : World) (o p : ObjId) (f : Obj → Obj) :
    (w.modifyObject o f).object? p = if o = p then (w.object? p).map f else w.object? p :=
  Array.getElem?_modify

theorem runtime?_modifyRuntime (w : World) (r s : RuntimeId) (f : Runtime → Runtime) :
    (w.modifyRuntime r f).runtime? s = if r = s then (w.runtime? s).map f else w.runtime? s :=
  Array.getElem?_modify

/-- Nothing but objects, runtimes and method tables counts. -/
theorem le_of_same (ho : v.objects = w.objects) (hr : v.runtimes = w.runtimes)
    (ht : v.tables = w.tables) : w ≤ v := by
  refine ⟨fun {o obj} h => ⟨obj, ?_, .refl _⟩, fun {r rt} h => ⟨rt, ?_, .refl _⟩,
    fun {t mt} h => ⟨mt, ?_, .refl _⟩⟩
  · rw [object?, ho]; exact h
  · rw [runtime?, hr]; exact h
  · rw [ht]; exact h

theorem le_modifyObject {f} (hf : ∀ obj, w.object? o = some obj → obj.Lasts (f obj)) : w ≤ w.modifyObject o f := by
  refine ⟨fun {p obj} h => ?_, fun h => ⟨_, h, .refl _⟩, fun h => ⟨_, h, .refl _⟩⟩
  rw [object?_modifyObject]
  by_cases hp : o = p
  · subst hp
    rw [if_pos rfl, h]
    exact ⟨f obj, rfl, hf obj h⟩
  · rw [if_neg hp]
    exact ⟨obj, h, .refl _⟩

theorem le_modifyRuntime {f} (hf : ∀ rt, w.runtime? r = some rt → rt.Lasts (f rt)) : w ≤ w.modifyRuntime r f := by
  refine ⟨fun h => ⟨_, h, .refl _⟩, fun {s rt} h => ?_, fun h => ⟨_, h, .refl _⟩⟩
  rw [runtime?_modifyRuntime]
  by_cases hs : r = s
  · subst hs
    rw [if_pos rfl, h]
    exact ⟨f rt, rfl, hf rt h⟩
  · rw [if_neg hs]
    exact ⟨rt, h, .refl _⟩

/-- What an array holds at a place it still holds after another element was added. -/
theorem getElem?_push_of_some {α : Type} {xs : Array α} {x y : α} {i : Nat} (h : xs[i]? = some y) :
    (xs.push x)[i]? = some y := by
  obtain ⟨hi, -⟩ := Array.getElem?_eq_some_iff.mp h
  rw [Array.getElem?_push_lt hi]
  exact h ▸ (Array.getElem?_eq_getElem hi).symm

theorem le_pushObject (w : World) (obj : Obj) : w ≤ { w with objects := w.objects.push obj } :=
  ⟨fun h => ⟨_, getElem?_push_of_some h, .refl _⟩, fun h => ⟨_, h, .refl _⟩,
    fun h => ⟨_, h, .refl _⟩⟩

theorem le_pushRuntime (w : World) (rt : Runtime) : w ≤ { w with runtimes := w.runtimes.push rt } :=
  ⟨fun h => ⟨_, h, .refl _⟩, fun h => ⟨_, getElem?_push_of_some h, .refl _⟩,
    fun h => ⟨_, h, .refl _⟩⟩

theorem le_pushTable (w : World) (mt : MethodTable) : w ≤ { w with tables := w.tables.push mt } :=
  ⟨fun h => ⟨_, h, .refl _⟩, fun h => ⟨_, h, .refl _⟩,
    fun h => ⟨_, getElem?_push_of_some h, .refl _⟩⟩

theorem le_modifyTable {t f} (hf : ∀ mt, w.tables[t]? = some mt → mt.Lasts (f mt)) :
    w ≤ { w with tables := w.tables.modify t f } := by
  refine ⟨fun h => ⟨_, h, .refl _⟩, fun h => ⟨_, h, .refl _⟩, fun {u mt} h => ?_⟩
  show ∃ mt', (w.tables.modify t f)[u]? = some mt' ∧ mt.Lasts mt'
  rw [Array.getElem?_modify]
  by_cases hu : t = u
  · subst hu
    rw [if_pos rfl, h]
    exact ⟨f mt, rfl, hf mt h⟩
  · rw [if_neg hu]
    exact ⟨mt, h, .refl _⟩

end World

end ObjectKernel
