import ObjectKernel.Proofs.Effects
import ObjectKernel.Proofs.Sound

/-!
# What instructions may do

An instruction by itself may do anything to a world: bind an object to a class that no runtime has,
share a string under a literal that it does not spell, put a thread at any stage. The operations of the
kernel never do. `Instr.Allowed` says which instructions they may perform in a world, apart from the few
that move a thread through its life, and `exec_calm` says what follows: the world stays sound, comes
later, and no life moves.

## Contents

* The changes of objects, strings, buffers, threads, classes and runtimes, one lemma each.
* `Instr.Allowed`, which lasts (`Instr.Allowed.later`).
* `Instr.exec_calm`.
-/

namespace ObjectKernel

open Dictionary List

namespace World

variable {w v : World} {p : Payload} {c : Class} {o : ObjId} {rt : Runtime} {f : Thread → Thread} {t : ClassTable}
  {e d : ClassEntry} {obj : Obj} {r home : RuntimeId} {n name : Bytes} {m : Method} {table : TableId}
  {cs : List Class} {registry : Registry}

/-! ## Objects -/

/-- The content that an object may be allocated with before it has a class. -/
inductive Blank (w : World) : Payload → Prop where
  | plain : Blank w (.plain [])
  | thread : Blank w (.thread {})
  | buffer : Blank w (.buffer none {})
  | extended {part : ObjId} {t : Thread} (h : w.thread? part = some t) : Blank w (.extended part)

theorem Blank.later (h : w ≤ v) (hp : w.Blank p) : v.Blank p := by
  cases hp with
  | plain => exact .plain
  | thread => exact .thread
  | buffer => exact .buffer
  | extended ht =>
    obtain ⟨u, hu, -⟩ := thread?_later h ht
    exact .extended hu

theorem calm_allocate (hs : w.Sound) (hp : w.Blank p) : w.Calm (w.allocate p).2 := by
  refine calm_addObject hs ⟨fun c hc => (nomatch hc), ?_, fun t ht hh => ?_, fun t ht _ => ?_⟩
    fun {t} ht => .inl ?_
  · cases hp with
    | plain => trivial
    | thread => exact fun r hr => (nomatch hr)
    | buffer => exact fun r hr => (nomatch hr)
    | extended ht => exact ⟨_, ht⟩
  · cases hp <;> cases ht
    cases hh
  · cases hp <;> cases ht
    rfl
  · cases hp <;> cases ht
    rfl

theorem calm_create (hs : w.Sound) (hp : ∀ part, p ≠ .extended part) (hsound : p.Sound w) (hc : w.Vouches c)
    (ha : ∀ {t}, p = .thread t → t.home.isSome ∧ t.Adopted) : w.Calm (w.create p c).2 := by
  rw [create_eq w hp]
  have hobj : Obj.Sound w { cls := some c, hash := w.constructed + 1, payload := p } := by
    refine ⟨fun d hd => ?_, hsound, fun _ _ _ => rfl, fun t ht hn => ?_⟩
    · cases hd
      exact hc
    · have hsome := (ha ht).1
      rw [hn] at hsome
      cases hsome
  have h1 := calm_addObject hs hobj fun ht => .inr (ha ht).2
  exact h1.trans (calm_surroundings h1.sound rfl rfl rfl h1.sound.named h1.sound.shared)

theorem cls_of_classOf?_none (hc : w.classOf? o = none) (ho : w.object? (w.header o) = some obj) :
    obj.cls = none := by
  unfold classOf? at hc
  rwa [ho] at hc

theorem calm_bindClass (hs : w.Sound) (hn : w.classOf? o = none) (hc : w.Vouches c) : w.Calm (w.bindClass o c) := by
  have h1 : w.Calm (w.modifyObject (w.header o) fun obj =>
      { obj with cls := some c, hash := w.constructed + 1 }) := by
    refine calm_modifyObject hs fun obj hobj => ?_
    have hs' := hs.object hobj
    refine ⟨⟨fun hd => ?_, .refl _⟩, ⟨fun d hd => ?_, hs'.payload, fun _ _ _ => rfl, hs'.idle⟩,
      fun hu => ⟨_, hu, rfl⟩⟩
    · rw [cls_of_classOf?_none hn hobj] at hd
      cases hd
    · cases hd
      exact hc
  exact h1.trans (calm_surroundings h1.sound rfl rfl rfl h1.sound.named h1.sound.shared)

theorem calm_setField (hs : w.Sound) (o : ObjId) (name : Name) (x : Value) : w.Calm (w.setField o name x) := by
  refine calm_modifyObject hs fun obj hobj => ?_
  have hs' := hs.object hobj
  obtain ⟨cls, hash, p⟩ := obj
  cases p with
  | plain fields =>
    exact ⟨⟨fun h => ⟨h, rfl⟩, ⟨_, rfl⟩⟩, ⟨hs'.cls, trivial, fun t ht => (nomatch ht),
      fun t ht => (nomatch ht)⟩, fun hu => (nomatch hu)⟩
  | _ => exact ⟨.refl _, hs', fun hu => ⟨_, hu, rfl⟩⟩

/-! ## Strings and buffers -/

theorem home_of_mem_builtin (hc : c ∈ Builtin.classes home) : c.home = home := by
  simp only [Builtin.classes, mem_cons, not_mem_nil, or_false] at hc
  rcases hc with rfl | rfl | rfl | rfl | rfl <;> rfl

/-- The built-in classes of a runtime that exists are vouched for. -/
theorem vouches_builtin (hs : w.Sound) (hh : w.Has home) (hc : c ∈ Builtin.classes home) : w.Vouches c := by
  obtain ⟨rt, hrt⟩ := hh
  unfold Vouches
  rw [home_of_mem_builtin hc, classes_eq hrt]
  exact (hs.runtime hrt).builtin c hc

theorem calm_createText (hs : w.Sound) (hh : w.Has home) (s : CharSeq) :
    w.Calm (w.create (.text home s) (Builtin.textClass home)).2 :=
  calm_create hs (fun _ => nofun) hh (vouches_builtin hs hh (by simp [Builtin.classes])) nofun

theorem constants_eq (h : w.runtime? r = some rt) (literal : Bytes) :
    w.constant? r literal = rt.constants.get? literal := by
  unfold constant?
  rw [h]
  rfl

theorem calm_newConstant (hs : w.Sound) {literal} (hc : w.constant? home literal = none)
    (ho : w.text? o = some (home, .ofBytes literal)) :
    w.Calm (w.modifyRuntime home fun rt => { rt with constants := rt.constants.insert literal o }) := by
  refine calm_modifyRuntime hs fun rt hrt => ?_
  have hs' := hs.runtime hrt
  rw [constants_eq hrt] at hc
  refine ⟨⟨rfl, rfl, fun h _ => h, fun {l p} h => ?_⟩,
    ⟨hs'.root, hs'.builtin, hs'.cls, fun {l p} h => ?_⟩, rfl⟩
  · have hne : l ≠ literal := by
      rintro rfl
      rw [hc] at h
      cases h
    exact (get?_insert_of_ne _ _ hne).trans h
  · by_cases hl : l = literal
    · subst hl
      rw [show (rt.constants.insert l o).get? l = some o from
        get?_insert_self _ _ _] at h
      cases h
      exact ho
    · rw [show (rt.constants.insert literal o).get? l = rt.constants.get? l from
        get?_insert_of_ne _ _ hl] at h
      exact hs'.constant h

theorem calm_setBuffer (hs : w.Sound) (o : ObjId) (b : Buffer) : w.Calm (w.setBuffer o b) := by
  refine calm_modifyObject hs fun obj hobj => ?_
  have hs' := hs.object hobj
  obtain ⟨cls, hash, p⟩ := obj
  cases p with
  | buffer home content =>
    exact ⟨⟨fun h => ⟨h, rfl⟩, ⟨_, rfl⟩⟩, ⟨hs'.cls, hs'.payload, fun t ht => (nomatch ht),
      fun t ht => (nomatch ht)⟩, fun hu => (nomatch hu)⟩
  | _ => exact ⟨.refl _, hs', fun hu => ⟨_, hu, rfl⟩⟩

theorem buffer?_home (hs : w.Sound) {b} (h : w.buffer? o = some (some home, b)) : w.Has home := by
  obtain ⟨obj, hobj, hp⟩ := buffer?_eq_some.mp h
  have hsound := (hs.object hobj).payload
  rw [hp] at hsound
  exact hsound home rfl

/-! ## Threads -/

theorem calm_modifyThread (hs : w.Sound) (hf : ∀ obj t, w.object? o = some obj → obj.payload = .thread t →
      (f t).life = t.life ∧ (t.home.isSome → (f t).home = t.home) ∧ (∀ r ∈ (f t).home, w.Has r) ∧
      ((f t).home.isSome → obj.cls.isSome)) : w.Calm (w.modifyThread o f) := by
  refine calm_modifyObject hs fun obj hobj => ?_
  have hs' := hs.object hobj
  obtain ⟨cls, hash, p⟩ := obj
  cases p with
  | thread t =>
    obtain ⟨hlife, hkeep, hhas, hbound⟩ := hf _ t hobj rfl
    have hadopted : (f t).adopted = t.adopted := congrArg Prod.fst hlife
    have hstarted : (f t).started = t.started := congrArg (·.2.1) hlife
    refine ⟨⟨fun h => ⟨h, rfl⟩, ⟨f t, rfl, hadopted, hkeep, fun h => hstarted ▸ h⟩⟩,
      ⟨hs'.cls, hhas, fun u hu => ?_, fun u hu hn => ?_⟩, fun hu => ?_⟩
    · cases hu
      exact hbound
    · cases hu
      have hn' : t.home = none := by
        cases hh : t.home with
        | none => rfl
        | some r =>
          rw [hkeep (by rw [hh]; rfl), hh] at hn
          cases hn
      exact hlife.trans (hs'.idle t rfl hn')
    · cases hu
      exact ⟨t, rfl, hlife⟩
  | _ => exact ⟨.refl _, hs', fun hu => ⟨_, hu, rfl⟩⟩

/-- A change of a thread that touches neither its home nor its life. -/
theorem calm_modifyThread_aside (hs : w.Sound) (o : ObjId) (hf : ∀ t, (f t).home = t.home ∧ (f t).life = t.life) :
    w.Calm (w.modifyThread o f) := by
  refine calm_modifyThread hs fun obj t hobj ht => ⟨(hf t).2, fun _ => (hf t).1, fun r hr => ?_, ?_⟩
  · have hp := (hs.object hobj).payload
    rw [ht] at hp
    exact hp r ((hf t).1 ▸ hr)
  · rw [(hf t).1]
    exact (hs.object hobj).bound t ht

theorem calm_modifyRegistry (hs : w.Sound) {f} (hf : (f (w.registry home)).started = (w.registry home).started) :
    w.Calm (w.modifyRegistry home f) := by
  refine calm_modifyRuntime hs fun rt hrt => ?_
  have hs' := hs.runtime hrt
  rw [registry_eq hrt] at hf
  exact ⟨⟨rfl, rfl, fun h _ => h, fun h => h⟩, ⟨hs'.root, hs'.builtin, hs'.cls, hs'.constant⟩, hf⟩

theorem calm_modifyHomeRegistry (hs : w.Sound) (o : ObjId) {f} (hf : ∀ r, (f r).started = r.started) :
    w.Calm (w.modifyHomeRegistry o f) := by
  unfold modifyHomeRegistry
  split
  · exact calm_modifyRegistry hs (hf _)
  · exact .refl hs

/-- A thread whose object has no class was never initialised. -/
theorem home_none_of_unbound (hs : w.Sound) (hn : w.classOf? o = none) {t} (ho : w.object? (w.header o) = some obj)
    (ht : obj.payload = .thread t) : t.home = none := by
  cases hh : t.home with
  | none => rfl
  | some r =>
    have hb := (hs.object ho).bound t ht (by rw [hh]; rfl)
    rw [cls_of_classOf?_none hn ho] at hb
    cases hb

theorem calm_initThread (hs : w.Sound) (hh : w.Has home) {p d} (hn : w.classOf? p = none) (hd : w.Vouches d)
    (hreg : registry.started = (w.registry home).started) (target : Option ObjId) (id : Int64) (name : Bytes) :
    w.Calm (((w.bindClass p d).modifyRegistry home fun _ => registry).modifyThread (w.header p) fun t =>
      { t with home := some home, self := some p, target, id, name, ended := false }) := by
  have h1 : w.Calm (w.bindClass p d) := calm_bindClass hs hn hd
  have h2 := h1.trans (calm_modifyRegistry h1.sound (f := fun _ => registry) hreg)
  refine h2.trans (calm_modifyThread h2.sound fun obj t hobj ht => ?_)
  -- The object that is changed is the one that has just been bound.
  have hmod : (w.bindClass p d).object? (w.header p) = (w.object? (w.header p)).map
      (fun obj => { obj with cls := some d, hash := w.constructed + 1 }) :=
    (object?_modifyObject ..).trans (if_pos rfl)
  obtain ⟨a, ha, rfl⟩ := Option.map_eq_some_iff.mp (hmod.symm.trans hobj)
  have hnone : t.home = none := home_none_of_unbound hs hn ha ht
  have hidle : t.life = _ := (hs.object ha).idle t ht hnone
  refine ⟨?_, fun hs => ?_, fun r hr => ?_, fun _ => rfl⟩
  · have hended : t.ended = false := congrArg (·.2.2.2) hidle
    unfold Thread.life
    rw [hended]
  · rw [hnone] at hs
    cases hs
  · cases hr
    exact hh.later h2.later

theorem calm_adopt (hs : w.Sound) (hh : w.Has home) (task : TaskId)
    (hreg : registry.started = (w.registry home).started) : w.Calm ((w.create
      (.thread { w.adoptee home task with self := some w.objects.size })
      (Builtin.threadClass home)).2.modifyRegistry home fun _ => registry) := by
  have h1 : w.Calm (w.create (.thread { w.adoptee home task with self := some w.objects.size })
      (Builtin.threadClass home)).2 := by
    refine calm_create hs (fun _ => nofun) (fun r hr => ?_)
      (vouches_builtin hs hh (by simp [Builtin.classes])) fun ht => ?_
    · cases hr
      exact hh
    · cases ht
      exact ⟨rfl, rfl⟩
  exact h1.trans (calm_modifyRegistry h1.sound (hreg.trans (h1.started home).symm))

/-! ## Classes -/

theorem entry_settle_of_final (h : t.entries.get? n = some d) (hd : d.isFinal) :
    (t.settle name e).entries.get? n = some d := by
  unfold ClassTable.settle
  split
  · rename_i hb
    have hne : n ≠ name := by
      rintro rfl
      rw [hb] at h
      cases h
      cases hd
    exact (get?_insert_of_ne _ _ hne).trans h
  · exact h

theorem entry_of_settle (h : (t.settle name e).entries.get? n = some d) :
    t.entries.get? n = some d ∨ (t.entries.get? n = some .building ∧ n = name ∧ d = e) := by
  unfold ClassTable.settle at h
  split at h
  · by_cases hn : n = name
    · subst hn
      rw [show (t.entries.insert n e).get? n = some e from get?_insert_self _ _ _] at h
      cases h
      exact .inr ⟨‹_›, rfl, rfl⟩
    · rw [show (t.entries.insert name e).get? n = t.entries.get? n from
        get?_insert_of_ne _ _ hn] at h
      exact .inl h
  · exact .inl h

theorem root_settle (t : ClassTable) (name : Bytes) (e : ClassEntry) : (t.settle name e).root = t.root := by
  unfold ClassTable.settle
  split <;> rfl

/-- A name has a class when its entry is a definition. -/
theorem getClass_eq_some : t.get? name = some c ↔ t.entries.get? name = some (.defined c) := by
  unfold ClassTable.get?
  cases t.entries.get? name with
  | none => exact ⟨fun h => (nomatch h), fun h => (nomatch h)⟩
  | some e =>
    cases e with
    | defined d =>
      constructor
      · intro h
        cases h
        rfl
      · intro h
        cases h
        rfl
    | _ => exact ⟨fun h => (nomatch h), fun h => (nomatch h)⟩

theorem calm_settleClass (hs : w.Sound) (he : ∀ c, e = .defined c → c.Placed w home name) :
    w.Calm (w.settleClass home name e) := by
  refine calm_modifyRuntime hs fun rt hrt => ?_
  have hs' := hs.runtime hrt
  refine ⟨⟨rfl, root_settle _ _ _, entry_settle_of_final, fun h => h⟩,
    ⟨(root_settle _ _ _).trans hs'.root, fun c hc => ?_, fun {n c} hc => ?_, hs'.constant⟩, rfl⟩
  · exact getClass_eq_some.mpr
      (entry_settle_of_final (getClass_eq_some.mp (hs'.builtin c hc)) rfl)
  · rcases entry_of_settle (getClass_eq_some.mp hc) with h | ⟨-, rfl, h⟩
    · exact hs'.cls (getClass_eq_some.mpr h)
    · exact he c h.symm

theorem calm_reserveClass (hs : w.Sound) (hfree : (w.classes home).entries.get? name = none) :
    w.Calm (w.modifyRuntime home fun rt => { rt with classes := rt.classes.reserve name }) := by
  refine calm_modifyRuntime hs fun rt hrt => ?_
  have hs' := hs.runtime hrt
  rw [classes_eq hrt] at hfree
  have hentry : (rt.classes.reserve name).entries = rt.classes.entries.insert name .building := by
    unfold ClassTable.reserve
    rw [hfree]
  have hroot : (rt.classes.reserve name).root = rt.classes.root := by
    unfold ClassTable.reserve
    rw [hfree]
  have hkeep {n : Bytes} {d : ClassEntry} (h : rt.classes.entries.get? n = some d) :
      (rt.classes.reserve name).entries.get? n = some d := by
    have hne : n ≠ name := by
      rintro rfl
      rw [hfree] at h
      cases h
    rw [hentry]
    exact (get?_insert_of_ne _ _ hne).trans h
  refine ⟨⟨rfl, hroot, fun h _ => hkeep h, fun h => h⟩,
    ⟨hroot.trans hs'.root, fun c hc => ?_, fun {n c} hc => ?_, hs'.constant⟩, rfl⟩
  · exact getClass_eq_some.mpr (hkeep (getClass_eq_some.mp (hs'.builtin c hc)))
  · have hc' := getClass_eq_some.mp hc
    simp only [hentry] at hc'
    by_cases hn : n = name
    · subst hn
      rw [show (rt.classes.entries.insert n .building).get? n = some .building from
        get?_insert_self _ _ _] at hc'
      cases hc'
    · rw [show (rt.classes.entries.insert name .building).get? n = rt.classes.entries.get? n from
        get?_insert_of_ne _ _ hn] at hc'
      exact hs'.cls (getClass_eq_some.mpr hc')

theorem mem_place {s d p} (h : p ∈ MethodTable.place s m d) : p = (s, m) ∨ p ∈ d := by
  induction d with
  | nil => exact .inl (mem_singleton.mp h)
  | cons q rest ih =>
    simp only [MethodTable.place] at h
    split at h
    · exact mem_cons.mp h
    · split at h
      · exact (mem_cons.mp h).imp_right (mem_cons_of_mem q)
      · rcases mem_cons.mp h with rfl | h
        · exact .inr mem_cons_self
        · exact (ih h).imp_right (mem_cons_of_mem q)

theorem calm_addMethod (hs : w.Sound) {t} (s : Selector) (ht : w.tables[table]? = some t) (hcomplete : ¬ t.complete)
    (hc : w.Admits m.code) : w.Calm { w with tables := w.tables.modify table (·.add s m) } := by
  refine calm_modifyTable hs fun mt hmt => ⟨⟨rfl, fun hm => ?_⟩, ⟨(hs.table hmt).home, ?_⟩⟩
  · rw [ht] at hmt
    cases hmt
    exact absurd hm hcomplete
  · intro p hp
    rcases mem_place hp with rfl | hp
    · exact hc
    · exact (hs.table hmt).methods p hp

theorem calm_completeTable (hs : w.Sound) (table : TableId) : w.Calm (w.completeTable table) := by
  refine calm_modifyTable hs fun mt hmt => ⟨⟨rfl, fun hm => ?_⟩, ⟨(hs.table hmt).home,
    (hs.table hmt).methods⟩⟩
  obtain ⟨home, methods, complete⟩ := mt
  cases hm
  rfl

theorem calm_completeClass (hs : w.Sound) (name : Bytes) {p : Class} (hp : p.home = home) (hv : w.Vouches p) {t}
    (ht : (w.completeTable table).tables[table]? = some t) : w.Calm ((w.completeTable table).settleClass home name
      (.defined (.make { home, name, methods := t.methods } (some p)))) := by
  have h1 := calm_completeTable hs table
  refine h1.trans (calm_settleClass h1.sound fun c hc => ?_)
  cases hc
  exact ⟨rfl, rfl, (h1.sound.table ht).methods, .inr ⟨p, rfl, hp, hv.later h1.later⟩⟩

/-! ## Runtimes -/

theorem names_builtin_nodup (home : RuntimeId) : ((Builtin.classes home).map Class.name).Nodup := by
  have h : (Builtin.classes home).map Class.name = (Builtin.classes 0).map Class.name := rfl
  rw [h]
  decide +kernel

theorem get?_definitions (hn : (cs.map Class.name).Nodup) (hc : c ∈ cs) :
    get? (cs.map fun c => (c.name, ClassEntry.defined c)) c.name = some (.defined c) := by
  induction cs with
  | nil => cases hc
  | cons d rest ih =>
    rw [map_cons, nodup_cons] at hn
    simp only [map_cons, get?]
    rcases mem_cons.mp hc with rfl | hc
    · rw [if_pos rfl]
    · have hne : d.name ≠ c.name := fun h => hn.1 (h ▸ mem_map_of_mem hc)
      rw [if_neg hne]
      exact ih hn.2 hc

theorem mem_of_get?_definitions
    (h : get? (cs.map fun c => (c.name, ClassEntry.defined c)) name = some (.defined c)) :
    c ∈ cs ∧ c.name = name := by
  induction cs with
  | nil => cases h
  | cons d rest ih =>
    simp only [map_cons, get?] at h
    split at h
    · cases h
      exact ⟨mem_cons_self, ‹_›⟩
    · obtain ⟨hm, hn⟩ := ih h
      exact ⟨mem_cons_of_mem d hm, hn⟩

theorem admitsAll_builtin (hh : w.Has home) (hc : c ∈ Builtin.classes home) : w.AdmitsAll c.body.methods := by
  have hall : ∀ d ∈ Builtin.classes home, ∀ p ∈ d.body.methods, w.Admits p.2.code := by
    simp only [Builtin.classes, Builtin.rootClass, Builtin.textClass, Builtin.bufferClass,
      Builtin.threadClass, Builtin.runnableClass, Builtin.extension, Builtin.method, Class.body,
      forall_mem_cons, Admits, hh, not_mem_nil, false_implies, implies_true, and_self]
  exact hall c hc

theorem parent_builtin (hc : c ∈ Builtin.classes home) :
    c = Builtin.rootClass home ∨ c.parent? = some (Builtin.rootClass home) := by
  simp only [Builtin.classes, mem_cons, not_mem_nil, or_false] at hc
  rcases hc with rfl | rfl | rfl | rfl | rfl
  · exact .inl rfl
  all_goals exact .inr rfl

/-- A new runtime is sound where it is. -/
theorem sound_newRuntime (h : w.runtime? r = some rt) (hc : rt.classes = builtinClasses r) (hk : rt.constants = []) :
    rt.Sound w r := by
  have hroot : w.Vouches (Builtin.rootClass r) := by
    refine getClass_eq_some.mpr ?_
    rw [show (Builtin.rootClass r).home = r from rfl, classes_eq h, hc]
    exact get?_definitions (names_builtin_nodup r) (by simp [Builtin.classes])
  refine ⟨by rw [hc]; rfl, fun c hm => ?_, fun {name c} hm => ?_, fun {l o} hl => ?_⟩
  · rw [getClass_eq_some, hc]
    exact get?_definitions (names_builtin_nodup r) hm
  · rw [getClass_eq_some, hc] at hm
    obtain ⟨hmem, rfl⟩ := mem_of_get?_definitions hm
    exact ⟨home_of_mem_builtin hmem, rfl, admitsAll_builtin ⟨rt, h⟩ hmem,
      (parent_builtin hmem).imp_right fun hp => ⟨_, hp, rfl, hroot⟩⟩
  · rw [hk] at hl
    cases hl

theorem calm_pushRuntime (hs : w.Sound) (h : rt.New w.runtimes.size) :
    w.Calm { w with runtimes := w.runtimes.push rt } :=
  calm_addRuntime hs (sound_newRuntime Array.getElem?_push_size h.classes h.constants) (by rw [h.registry])

theorem calm_newRuntime (hs : w.Sound) {config r} (h : w.newRuntime config = .ok r) : w.Calm r.2 ∧ r.2.Has r.1 := by
  obtain ⟨rt, lockChecking, -, hnew, rfl⟩ := newRuntime_ok h
  have h1 := calm_pushRuntime hs hnew
  exact ⟨h1.trans (calm_surroundings h1.sound rfl rfl rfl h1.sound.named h1.sound.shared), rt,
    Array.getElem?_push_size⟩

/-- A change of a runtime in what does not concern classes, constants and started threads. -/
theorem calm_modifyRuntime_aside (hs : w.Sound) (home : RuntimeId) {f}
    (hf : ∀ rt, (f rt).config = rt.config ∧ (f rt).classes = rt.classes ∧ (f rt).constants = rt.constants ∧
      (f rt).registry = rt.registry) : w.Calm (w.modifyRuntime home f) := by
  refine calm_modifyRuntime hs fun rt hrt => ?_
  obtain ⟨hconfig, hclasses, hconstants, hregistry⟩ := hf rt
  have hs' := hs.runtime hrt
  refine ⟨⟨hconfig, ?_, fun h _ => ?_, fun h => ?_⟩, ⟨?_, ?_, fun {n c} => ?_, fun {l o} => ?_⟩, ?_⟩
  all_goals simp only [hclasses, hconstants, hregistry]
  · exact h
  · exact h
  · exact hs'.root
  · exact hs'.builtin
  · exact hs'.cls
  · exact hs'.constant

/-! ## Scenes -/

theorem runtimes_apply {s : Scene} {e} (he : ∀ name r, e ≠ .nameRuntime name r) :
    (s.apply e).runtimes = s.runtimes := by
  cases e with
  | nameRuntime name r => exact absurd rfl (he name r)
  | assign scope name x =>
    simp only [Scene.apply, Scene.assign]
    split
    · rfl
    · split <;> rfl
  | _ => rfl

theorem calm_edit (hs : w.Sound) {e} (he : ∀ name r, e = .nameRuntime name r → w.Has r) : w.Calm (w.edit e) := by
  refine calm_surroundings hs rfl rfl rfl (fun {name r} hr => ?_) hs.shared
  by_cases hn : ∃ n s, e = .nameRuntime n s
  · obtain ⟨n, s, rfl⟩ := hn
    replace hr : (w.scene.runtimes.insert n s).get? name = some r := hr
    by_cases h : name = n
    · subst h
      rw [get?_insert_self] at hr
      cases hr
      exact he _ _ rfl
    · rw [get?_insert_of_ne _ _ h] at hr
      exact hs.named hr
  · have hsame : (w.edit e).scene.runtimes = w.scene.runtimes :=
      runtimes_apply fun n s h => hn ⟨n, s, h⟩
    rw [hsame] at hr
    exact hs.named hr

end World

/-! ## Instructions -/

open World

variable {own : Option ObjId} {w v : World} {i : Instr}

/-- The instructions that a task may perform in a world, apart from those that move a thread through
its life; `own` is the thread that the task runs, whose failure it may record. -/
@[reducible] def Instr.Allowed (own : Option ObjId) (w : World) : Instr → Prop
  | allocate p => w.Blank p
  | construct _ c => ∀ d ∈ c, w.Vouches d
  | create p c => (∃ code, p = .runnable code ∧ ∀ x ∈ code, w.Admits x) ∧ w.Vouches c
  | makeText home _ _ | makeNullText home | newBuffer home | adopt home _ | newTable home => w.Has home
  | shareConstant home literal o => w.text? o = some (home, .ofBytes literal)
  | initThread home _ c _ => w.Has home ∧ ∀ d ∈ c, w.Vouches d
  | recordUncaught o _ => own = some o
  | reserveStart _ | setState .. | register _ | bindTask _ | unbindTask _ | endThread _ => False
  | addMethod _ _ _ code => w.Admits code
  | completeClass home _ parent _ => ∃ p, parent = some p ∧ p.home = home ∧ w.Vouches p
  | settleClass _ _ e => e.class? = none
  | edit (.nameRuntime _ r) => w.Has r
  | _ => True

theorem Instr.Allowed.later (h : w ≤ v) (hi : i.Allowed own w) : i.Allowed own v := by
  cases i with
  | allocate p => exact Blank.later h hi
  | construct o c => exact fun d hd => (hi d hd).later h
  | create p c =>
    obtain ⟨⟨code, rfl, hcode⟩, hc⟩ := hi
    exact ⟨⟨code, rfl, fun x hx => (hcode x hx).later h⟩, hc.later h⟩
  | makeText home op s => exact Has.later h hi
  | makeNullText home => exact Has.later h hi
  | newBuffer home => exact Has.later h hi
  | adopt home task => exact Has.later h hi
  | newTable home => exact Has.later h hi
  | shareConstant home literal o => exact text?_later h hi
  | initThread home o c target => exact ⟨hi.1.later h, fun d hd => (hi.2 d hd).later h⟩
  | addMethod table s arity code => exact Admits.later h hi
  | completeClass home name parent table =>
    obtain ⟨p, rfl, hp, hv⟩ := hi
    exact ⟨p, rfl, hp, hv.later h⟩
  | edit e =>
    cases e with
    | nameRuntime name r => exact Has.later h hi
    | _ => trivial
  | _ => exact hi

theorem text_createText (w : World) (home : RuntimeId) (s : CharSeq) (c : Class) :
    (w.create (.text home s) c).2.text? (w.create (.text home s) c).1 = some (home, s) := by
  have hp : ∀ part, Payload.text home s ≠ .extended part := fun _ => nofun
  rw [create_eq w hp]
  exact text?_eq_some.mpr ⟨_, Array.getElem?_push_size, rfl⟩

/-- **An allowed instruction keeps a world sound and every life as it is.** -/
theorem Instr.Effect.calm (hs : w.Sound) {task} (h : i.Effect task w v) (hi : i.Allowed own w) : w.Calm v := by
  have haround {v : World} (ho : v.objects = w.objects) (hr : v.runtimes = w.runtimes) (ht : v.tables = w.tables)
      (hscene : v.scene.runtimes = w.scene.runtimes) (hshared : ∀ r ∈ v.globalRuntime, r ∈ w.globalRuntime) :
      w.Calm v :=
    calm_surroundings hs ho hr ht (fun hn => hs.named (hscene ▸ hn)) fun r hr => hs.shared r (hshared r hr)
  cases h with
  | nothing => exact .refl hs
  | allocate => exact calm_allocate hs hi
  | create =>
    obtain ⟨⟨code, rfl, hcode⟩, hc⟩ := hi
    exact calm_create hs (fun _ => nofun) hcode hc nofun
  | construct unbound => exact calm_bindClass hs unbound (hi _ rfl)
  | setField => exact calm_setField hs _ _ _
  | text makes =>
    refine calm_createText hs ?_ _
    cases makes with
    | text | null => exact hi
    | buffer content => exact buffer?_home hs content
  | newBuffer =>
    refine calm_create hs (fun _ => nofun) (fun r hr => ?_)
      (vouches_builtin hs hi (by simp [Builtin.classes])) nofun
    cases hr
    exact hi
  | append b => exact calm_setBuffer hs _ b
  | initThread unbound => exact calm_initThread hs hi.1 unbound (hi.2 _ rfl) (by rfl) _ _ _
  | adopt => exact calm_adopt hs hi _ (by rfl)
  | thread reshapes =>
    cases reshapes with
    | recordUncaught | rename => exact calm_modifyThread_aside hs _ fun t => ⟨rfl, rfl⟩
    | reserveStart | setState | endThread => exact hi.elim
  | registry rebinds => cases rebinds <;> exact hi.elim
  | shareConstant unshared => exact calm_newConstant hs unshared hi
  | insertSelector | countBarrier => exact calm_modifyRuntime_aside hs _ fun _ => ⟨rfl, rfl, rfl, rfl⟩
  | reserveClass free => exact calm_reserveClass hs free
  | settleClass =>
    refine calm_settleClass hs fun c hc => ?_
    subst hc
    cases hi
  | newTable => exact calm_addTable hs ⟨hi, fun p hp => (nomatch hp)⟩
  | addMethod taken incomplete => exact calm_addMethod hs _ taken incomplete hi
  | completeTable => exact calm_completeTable hs _
  | completeClass taken =>
    obtain ⟨p, rfl, hp, hv⟩ := hi
    exact calm_completeClass hs _ hp hv taken
  | newRuntime new =>
    have hpushed := calm_pushRuntime hs new
    exact hpushed.trans (calm_surroundings hpushed.sound rfl rfl rfl hpushed.sound.named hpushed.sound.shared)
  | initGlobal new =>
    have hpushed := calm_pushRuntime hs new
    refine hpushed.trans (calm_surroundings hpushed.sound rfl rfl rfl hpushed.sound.named fun r hr => ?_)
    cases hr
    exact ⟨_, Array.getElem?_push_size⟩
  | closeGlobal => exact haround rfl rfl rfl rfl nofun
  | edit =>
    refine calm_edit hs fun name r he => ?_
    subst he
    exact hi
  | refuseGlobal | freshTask | writeError | takeErrorReports | takeReport | writeFile | openScope =>
    exact haround rfl rfl rfl rfl fun r hr => hr

theorem Instr.exec_calm (hs : w.Sound) (task : TaskId) (hi : i.Allowed own w) :
    w.Calm (i.exec task w).2 := (i.effect task w).calm hs hi

theorem World.calm_shareConstant (hs : w.Sound) {home literal o} (ho : w.text? o = some (home, .ofBytes literal)) :
    w.Calm (w.shareConstant home literal o).2 := by
  have hallowed : (Instr.shareConstant home literal o).Allowed none w := ho
  exact Instr.exec_calm hs 0 hallowed

end ObjectKernel
