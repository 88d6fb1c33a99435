import ObjectKernel.Proofs.Later

/-!
# Sound worlds

`Later` says what a change keeps; this module says what every state has. In a sound world whatever is
named is there: a class is the one that its runtime has under its name, a string, a buffer, a thread or
a method body belongs to a runtime that exists, and the string of a literal spells that literal.

Each condition is stated of one object, one runtime or one method table *in* a world and survives every
later world, so that a change has to be looked at only where it happens.

## Contents

* `Thread.life`: how far a thread is in its life.
* `World.Vouches`, `World.Admits`: classes and method bodies that a world knows.
* `Obj.Sound`, `Class.Placed`, `Runtime.Sound`, `MethodTable.Sound`, `World.Sound`.
* `World.Next`: changes to a later sound world. `World.Calm`: those that leave the life of every thread
  alone.
* The changes one by one: `calm_addObject`, `calm_modifyObject`, `calm_modifyRuntime` and their like.
-/

namespace ObjectKernel

variable {w : World}

/-- What the search for instances can see to hold, because it unfolds to what is true. -/
class Evident (p : Prop) : Prop where
  holds : p

instance : Evident True := ⟨trivial⟩

instance {α : Type} {p : α → Prop} [h : ∀ a, Evident (p a)] : Evident (∀ a, p a) := ⟨fun a => (h a).holds⟩

/-! ## The life of a thread -/

/-- What the life of a thread shows in it: whether it is adopted, whether its start is reserved, its
stage, and whether it is over. -/
def Thread.life (t : Thread) : Bool × Bool × ThreadState × Bool :=
  (t.adopted, t.started, t.state, t.ended)

/-- A thread whose life has not begun. -/
def Thread.Unstarted (t : Thread) : Prop := t.life = (false, false, .new, false)

/-- A thread that stands for a task of the host: it is neither started nor ever over. -/
def Thread.Adopted (t : Thread) : Prop := t.life = (true, true, .runnable, false)

/-! ## What a world knows -/

/-- A class that a world vouches for: the one that its runtime has under its name. -/
def World.Vouches (w : World) (c : Class) : Prop := (w.classes c.home).get? c.name = some c

/-- A method body that a world admits: its runtime exists. -/
def World.Admits (w : World) : Code → Prop
  | .builtin home _ => w.Has home
  | .script home _ => w.Has home

/-- What the content of an object names is there. -/
def Payload.Sound (w : World) : Payload → Prop
  | .text home _ => w.Has home
  | .buffer home _ => ∀ r ∈ home, w.Has r
  | .thread t => ∀ r ∈ t.home, w.Has r
  | .extended part => ∃ t, w.thread? part = some t
  | .runnable code => ∀ c ∈ code, w.Admits c
  | .plain _ => True

/-- An object in a sound world. A thread that was initialised has a class, and the life of any other
thread has not begun. -/
structure Obj.Sound (w : World) (obj : Obj) : Prop where
  cls : ∀ c ∈ obj.cls, w.Vouches c
  payload : obj.payload.Sound w
  bound : ∀ t, obj.payload = .thread t → t.home.isSome → obj.cls.isSome
  idle : ∀ t, obj.payload = .thread t → t.home = none → t.Unstarted

/-- Method bodies that a world admits. -/
def World.AdmitsAll (w : World) (methods : Dictionary Selector Method) : Prop :=
  ∀ p ∈ methods, w.Admits p.2.code

/-- A class in its place in a runtime: below the root, or below a class of the same runtime. -/
structure Class.Placed (w : World) (r : RuntimeId) (name : Bytes) (c : Class) : Prop where
  home : c.home = r
  name : c.name = name
  methods : w.AdmitsAll c.body.methods
  parent : c = Builtin.rootClass r ∨ ∃ p, c.parent? = some p ∧ p.home = r ∧ w.Vouches p

/-- A runtime in a sound world. -/
structure Runtime.Sound (w : World) (r : RuntimeId) (rt : Runtime) : Prop where
  root : rt.classes.root = some (Builtin.rootClass r)
  builtin : ∀ c ∈ Builtin.classes r, rt.classes.get? c.name = some c
  cls : ∀ {name c}, rt.classes.get? name = some c → c.Placed w r name
  constant : ∀ {literal o}, rt.constants.get? literal = some o →
    w.text? o = some (r, .ofBytes literal)

/-- A method table in a sound world. -/
structure MethodTable.Sound (w : World) (mt : MethodTable) : Prop where
  home : w.Has mt.home
  methods : w.AdmitsAll mt.methods

/-- A sound world: everything that is named is there. -/
structure World.Sound (w : World) : Prop where
  object : ∀ {o obj}, w.object? o = some obj → obj.Sound w
  runtime : ∀ {r rt}, w.runtime? r = some rt → rt.Sound w r
  table : ∀ {t : TableId} {mt : MethodTable}, w.tables[t]? = some mt → mt.Sound w
  named : ∀ {name r}, w.scene.runtimes.get? name = some r → w.Has r
  shared : ∀ r ∈ w.globalRuntime, w.Has r

/-! ## Soundness of the parts lasts -/

section

variable {w v : World} {c : Class} {r : RuntimeId}

theorem World.Vouches.later (h : w ≤ v) (hc : w.Vouches c) : v.Vouches c :=
  World.getClass_later h hc

theorem World.Admits.later (h : w ≤ v) {code} (hc : w.Admits code) : v.Admits code := by
  cases code with
  | builtin home b => exact World.Has.later h hc
  | script home body => exact World.Has.later h hc

theorem World.AdmitsAll.later (h : w ≤ v) {methods} (hm : w.AdmitsAll methods) :
    v.AdmitsAll methods := fun p hp => (hm p hp).later h

theorem Payload.Sound.later (h : w ≤ v) {p : Payload} (hp : p.Sound w) : p.Sound v := by
  cases p with
  | text home content => exact World.Has.later h hp
  | buffer home content => exact fun r hr => (hp r hr).later h
  | thread t => exact fun r hr => (hp r hr).later h
  | extended part =>
    obtain ⟨t, ht⟩ := hp
    obtain ⟨u, hu, -⟩ := World.thread?_later h ht
    exact ⟨u, hu⟩
  | runnable code => exact fun c hc => (hp c hc).later h
  | plain fields => trivial

theorem Obj.Sound.later (h : w ≤ v) {obj : Obj} (ho : obj.Sound w) : obj.Sound v :=
  ⟨fun c hc => (ho.cls c hc).later h, ho.payload.later h, ho.bound, ho.idle⟩

theorem Class.Placed.later (h : w ≤ v) {name} (hc : c.Placed w r name) : c.Placed v r name := by
  refine ⟨hc.home, hc.name, hc.methods.later h, hc.parent.imp_right ?_⟩
  rintro ⟨p, hp, hr, hv⟩
  exact ⟨p, hp, hr, hv.later h⟩

theorem Runtime.Sound.later (h : w ≤ v) {rt : Runtime} (hr : rt.Sound w r) : rt.Sound v r :=
  ⟨hr.root, hr.builtin, fun hc => (hr.cls hc).later h,
    fun ho => World.text?_later h (hr.constant ho)⟩

/-- A class that is vouched for stands in its place. -/
theorem World.Sound.placed (hs : w.Sound) (hc : w.Vouches c) : c.Placed w c.home c.name := by
  obtain ⟨rt, hrt⟩ := World.exists_of_getClass hc
  unfold World.Vouches at hc
  rw [World.classes_eq hrt] at hc
  exact (hs.runtime hrt).cls hc

theorem MethodTable.Sound.later (h : w ≤ v) {mt : MethodTable} (hm : mt.Sound w) : mt.Sound v :=
  ⟨hm.home.later h, hm.methods.later h⟩

end

/-! ## Changes -/

/-- A world that may come next after a sound one. -/
structure World.Next (w v : World) : Prop where
  later : w ≤ v
  sound : v.Sound

theorem World.Next.refl (h : w.Sound) : w.Next w := ⟨le_refl w, h⟩

theorem World.Next.trans {v u} (h : w.Next v) (h' : v.Next u) : w.Next u :=
  ⟨h.later.trans h'.later, h'.sound⟩

/-- A change of a sound world to a sound world that leaves the life of every thread alone; a thread that
is new has not been started. -/
structure World.Calm (w v : World) : Prop where
  later : w ≤ v
  sound : v.Sound
  thread : ∀ {o u}, v.thread? o = some u → (∃ t, w.thread? o = some t ∧ u.life = t.life) ∨
    (w.object? o = none ∧ (u.Unstarted ∨ u.Adopted))
  started : ∀ r, v.startedThreads r = w.startedThreads r

namespace World

variable {w v u : World} {o : ObjId} {r : RuntimeId}

theorem Calm.next (h : w.Calm v) : w.Next v := ⟨h.later, h.sound⟩

theorem Calm.refl (h : w.Sound) : w.Calm w :=
  ⟨le_refl w, h, fun hu => .inl ⟨_, hu, rfl⟩, fun _ => rfl⟩

theorem object?_none_of_later (h : w ≤ v) (ho : v.object? o = none) : w.object? o = none := by
  cases hw : w.object? o with
  | none => rfl
  | some obj =>
    obtain ⟨obj', hobj', -⟩ := h.objects hw
    rw [ho] at hobj'
    cases hobj'

theorem Calm.trans (h : w.Calm v) (h' : v.Calm u) : w.Calm u := by
  refine ⟨h.later.trans h'.later, h'.sound, fun hx => ?_, fun r => (h'.started r).trans (h.started r)⟩
  rcases h'.thread hx with ⟨t, ht, hl⟩ | ⟨hn, hb⟩
  · rcases h.thread ht with ⟨s, hs, hls⟩ | ⟨hn, hb⟩
    · exact .inl ⟨s, hs, hl.trans hls⟩
    · exact .inr ⟨hn, hb.imp hl.trans hl.trans⟩
  · exact .inr ⟨object?_none_of_later h.later hn, hb⟩

theorem object?_congr (h : v.objects = w.objects) (o : ObjId) : v.object? o = w.object? o := by
  unfold object?
  rw [h]

theorem runtime?_congr (h : v.runtimes = w.runtimes) (r : RuntimeId) : v.runtime? r = w.runtime? r := by
  unfold runtime?
  rw [h]

theorem thread?_congr (h : v.object? o = w.object? o) : v.thread? o = w.thread? o := by
  unfold thread?
  rw [h]

theorem startedThreads_congr (h : v.runtime? r = w.runtime? r) : v.startedThreads r = w.startedThreads r := by
  unfold startedThreads registry
  rw [h]

/-- A later world is sound if everything in it that was not there before is. -/
theorem Sound.of_later (hs : w.Sound) (hle : w ≤ v)
    (ho : ∀ {o obj}, v.object? o = some obj → w.object? o = some obj ∨ obj.Sound v)
    (hr : ∀ {r rt}, v.runtime? r = some rt → w.runtime? r = some rt ∨ rt.Sound v r)
    (ht : ∀ {t : TableId} {mt : MethodTable}, v.tables[t]? = some mt → w.tables[t]? = some mt ∨ mt.Sound v)
    (hn : ∀ {name r}, v.scene.runtimes.get? name = some r → v.Has r)
    (hg : ∀ r ∈ v.globalRuntime, v.Has r) : v.Sound :=
  ⟨fun h => (ho h).elim (fun h' => (hs.object h').later hle) (fun h' => h'),
    fun h => (hr h).elim (fun h' => (hs.runtime h').later hle) (fun h' => h'),
    fun h => (ht h).elim (fun h' => (hs.table h').later hle) (fun h' => h'), hn, hg⟩

/-! ## The changes one by one -/

/-- Nothing but names of runtimes is changed. -/
theorem calm_surroundings (hs : w.Sound) (ho : v.objects = w.objects) (hr : v.runtimes = w.runtimes)
    (ht : v.tables = w.tables) (hn : ∀ {name r}, v.scene.runtimes.get? name = some r → w.Has r)
    (hg : ∀ r ∈ v.globalRuntime, w.Has r) : w.Calm v := by
  have hle : w ≤ v := le_of_same ho hr ht
  refine ⟨hle, hs.of_later hle (fun h => .inl ?_) (fun h => .inl ?_) (fun h => .inl (ht ▸ h))
    (fun h => (hn h).later hle) (fun r h => (hg r h).later hle), fun h => .inl ⟨_, ?_, rfl⟩,
    fun r => startedThreads_congr (runtime?_congr hr r)⟩
  · rwa [object?_congr ho] at h
  · rwa [runtime?_congr hr] at h
  · rwa [thread?_congr (object?_congr ho _)] at h

/-- How an object may change without a change of its life. -/
structure ObjCalm (w : World) (a b : Obj) : Prop where
  lasts : a.Lasts b
  sound : b.Sound w
  thread : ∀ {u}, b.payload = .thread u → ∃ t, a.payload = .thread t ∧ u.life = t.life

theorem calm_modifyObject (hs : w.Sound) {f} (hf : ∀ obj, w.object? o = some obj → ObjCalm w obj (f obj)) :
    w.Calm (w.modifyObject o f) := by
  have hle : w ≤ w.modifyObject o f := le_modifyObject fun obj hobj => (hf obj hobj).lasts
  refine ⟨hle, hs.of_later hle (fun {p obj} h => ?_) .inl .inl (fun h => (hs.named h).later hle)
    (fun r h => (hs.shared r h).later hle), fun {p x} h => .inl ?_, fun r => rfl⟩
  · rw [object?_modifyObject] at h
    by_cases hp : o = p
    · rw [if_pos hp] at h
      obtain ⟨a, ha, rfl⟩ := Option.map_eq_some_iff.mp h
      subst hp
      exact .inr ((hf a ha).sound.later hle)
    · rw [if_neg hp] at h
      exact .inl h
  · obtain ⟨b, hb, hu⟩ := thread?_eq_some.mp h
    rw [object?_modifyObject] at hb
    by_cases hp : o = p
    · rw [if_pos hp] at hb
      obtain ⟨a, ha, rfl⟩ := Option.map_eq_some_iff.mp hb
      subst hp
      obtain ⟨t, ht, hl⟩ := (hf a ha).thread hu
      exact ⟨t, thread?_eq_some.mpr ⟨a, ha, ht⟩, hl⟩
    · rw [if_neg hp] at hb
      exact ⟨x, thread?_eq_some.mpr ⟨b, hb, hu⟩, rfl⟩

theorem calm_addObject (hs : w.Sound) {obj : Obj} (ho : obj.Sound w)
    (hy : ∀ {t}, obj.payload = .thread t → t.Unstarted ∨ t.Adopted) :
    w.Calm { w with objects := w.objects.push obj } := by
  have hle := le_pushObject w obj
  have hcases {p : ObjId} {b : Obj}
      (h : object? { w with objects := w.objects.push obj } p = some b) :
      w.object? p = some b ∨ (w.object? p = none ∧ b = obj) := by
    unfold object? at h ⊢
    rw [Array.getElem?_push] at h
    by_cases hp : p = w.objects.size
    · rw [if_pos hp] at h
      cases h
      exact .inr ⟨by rw [hp]; exact Array.getElem?_size, rfl⟩
    · rw [if_neg hp] at h
      exact .inl h
  refine ⟨hle, hs.of_later hle (fun h => ?_) .inl .inl (fun h => (hs.named h).later hle)
    (fun r h => (hs.shared r h).later hle), fun h => ?_, fun r => rfl⟩
  · exact (hcases h).imp_right fun ⟨_, hb⟩ => hb ▸ ho.later hle
  · obtain ⟨b, hb, hu⟩ := thread?_eq_some.mp h
    rcases hcases hb with hw | ⟨hn, rfl⟩
    · exact .inl ⟨_, thread?_eq_some.mpr ⟨b, hw, hu⟩, rfl⟩
    · exact .inr ⟨hn, hy hu⟩

/-- How a runtime may change without a start of a thread. -/
structure RuntimeCalm (w : World) (r : RuntimeId) (a b : Runtime) : Prop where
  lasts : a.Lasts b
  sound : b.Sound w r
  started : b.registry.started = a.registry.started

theorem calm_modifyRuntime (hs : w.Sound) {f} (hf : ∀ rt, w.runtime? r = some rt → RuntimeCalm w r rt (f rt)) :
    w.Calm (w.modifyRuntime r f) := by
  have hle : w ≤ w.modifyRuntime r f := le_modifyRuntime fun rt hrt => (hf rt hrt).lasts
  refine ⟨hle, hs.of_later hle .inl (fun {s rt} h => ?_) .inl (fun h => (hs.named h).later hle)
    (fun r h => (hs.shared r h).later hle), fun h => .inl ⟨_, h, rfl⟩, fun s => ?_⟩
  · rw [runtime?_modifyRuntime] at h
    by_cases hrs : r = s
    · rw [if_pos hrs] at h
      obtain ⟨a, ha, rfl⟩ := Option.map_eq_some_iff.mp h
      subst hrs
      exact .inr ((hf a ha).sound.later hle)
    · rw [if_neg hrs] at h
      exact .inl h
  · unfold startedThreads registry
    rw [runtime?_modifyRuntime]
    by_cases hrs : r = s
    · subst hrs
      rw [if_pos rfl]
      cases hrt : w.runtime? r with
      | none => rfl
      | some rt => exact (hf rt hrt).started
    · rw [if_neg hrs]

theorem calm_addRuntime (hs : w.Sound) {rt : Runtime}
    (hr : rt.Sound { w with runtimes := w.runtimes.push rt } w.runtimes.size)
    (hb : rt.registry.started = []) : w.Calm { w with runtimes := w.runtimes.push rt } := by
  have hle := le_pushRuntime w rt
  refine ⟨hle, hs.of_later hle .inl (fun {s a} h => ?_) .inl (fun h => (hs.named h).later hle)
    (fun r h => (hs.shared r h).later hle), fun h => .inl ⟨_, h, rfl⟩, fun s => ?_⟩
  · unfold runtime? at h ⊢
    rw [Array.getElem?_push] at h
    by_cases hp : s = w.runtimes.size
    · rw [if_pos hp] at h
      cases h
      exact .inr (hp ▸ hr)
    · rw [if_neg hp] at h
      exact .inl h
  · unfold startedThreads registry runtime?
    rw [Array.getElem?_push]
    by_cases hp : s = w.runtimes.size
    · rw [if_pos hp, hp, Array.getElem?_size]
      exact hb
    · rw [if_neg hp]

theorem calm_addTable (hs : w.Sound) {mt : MethodTable} (hm : mt.Sound w) :
    w.Calm { w with tables := w.tables.push mt } := by
  have hle := le_pushTable w mt
  refine ⟨hle, hs.of_later hle .inl .inl (fun {t a} h => ?_) (fun h => (hs.named h).later hle)
    (fun r h => (hs.shared r h).later hle), fun h => .inl ⟨_, h, rfl⟩, fun s => rfl⟩
  replace h : (w.tables.push mt)[t]? = some a := h
  rw [Array.getElem?_push] at h
  by_cases hp : t = w.tables.size
  · rw [if_pos hp] at h
    cases h
    exact .inr (hm.later hle)
  · rw [if_neg hp] at h
    exact .inl h

theorem calm_modifyTable (hs : w.Sound) {t f} (hf : ∀ mt, w.tables[t]? = some mt → mt.Lasts (f mt) ∧ (f mt).Sound w) :
    w.Calm { w with tables := w.tables.modify t f } := by
  have hle : w ≤ { w with tables := w.tables.modify t f } :=
    le_modifyTable fun mt hmt => (hf mt hmt).1
  refine ⟨hle, hs.of_later hle .inl .inl (fun {u a} h => ?_) (fun h => (hs.named h).later hle)
    (fun r h => (hs.shared r h).later hle), fun h => .inl ⟨_, h, rfl⟩, fun s => rfl⟩
  replace h : (w.tables.modify t f)[u]? = some a := h
  rw [Array.getElem?_modify] at h
  by_cases hu : t = u
  · rw [if_pos hu] at h
    obtain ⟨b, hb, rfl⟩ := Option.map_eq_some_iff.mp h
    subst hu
    exact .inr ((hf b hb).2.later hle)
  · rw [if_neg hu] at h
    exact .inl h

end World

end ObjectKernel
