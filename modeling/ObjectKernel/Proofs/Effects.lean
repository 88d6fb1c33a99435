import ObjectKernel.Proofs.Later

/-!
# What instructions make of a world

An instruction may be refused, or find nothing to do; otherwise it makes one of a few changes. This module
says once for each instruction which world comes of it and what has to hold for that, so that what holds
after every instruction is shown by cases on the changes, and no proof has to look at the sections that the
instructions stand for.

## Contents

* `World.create_eq`, `World.initThread_eq`, `World.adopt_of_unbound` and their like: the sections one by one.
* `Instr.Makes`, `Instr.Reshapes`, `Instr.Rebinds`: the instructions that make a string, change a thread, or
  change the registry of its home.
* `Instr.Effect`, `Instr.effect`: what an instruction makes of a world.
-/

namespace ObjectKernel

namespace World

variable {w v : World} {r : ObjId × World} {s : CharSeq} {o : ObjId} {home : RuntimeId} {op : Bytes}
  {task : TaskId}

/-! ## Objects and strings -/

theorem modify_push_size {α : Type} (xs : Array α) (x : α) (f : α → α) :
    (xs.push x).modify xs.size f = xs.push (f x) := by
  apply Array.ext_getElem?
  intro i
  rw [Array.getElem?_modify, Array.getElem?_push, Array.getElem?_push]
  by_cases hi : i = xs.size
  · rw [if_pos hi.symm, if_pos hi, if_pos hi]
    rfl
  · rw [if_neg (Ne.symm hi), if_neg hi, if_neg hi]

/-- An object that is created is bound from the start. -/
theorem create_eq (w : World) {p} (hp : ∀ part, p ≠ .extended part) (c : Class) :
    w.create p c = (w.objects.size,
      { w with
        objects := w.objects.push { cls := some c, hash := w.constructed + 1, payload := p }
        constructed := w.constructed + 1 }) := by
  have hh : (w.allocate p).2.header (w.allocate p).1 = w.objects.size :=
    header_of_object? Array.getElem?_push_size hp
  unfold create bindClass modifyObject
  simp only [hh]
  unfold allocate
  simp only [modify_push_size]

theorem header_bindClass (w : World) (p : ObjId) (c : Class) (q : ObjId) :
    (w.bindClass p c).header q = w.header q := by
  unfold header
  have hobj : (w.bindClass p c).object? q = if w.header p = q then
      (w.object? q).map fun obj => { obj with cls := some c, hash := w.constructed + 1 }
      else w.object? q := object?_modifyObject ..
  rw [hobj]
  by_cases hq : w.header p = q
  · rw [if_pos hq]
    cases w.object? q with
    | none => rfl
    | some obj =>
      obtain ⟨cls, hash, payload⟩ := obj
      cases payload <;> rfl
  · rw [if_neg hq]

/-- A string is within the limit of a runtime. -/
def Fits (w : World) (home : RuntimeId) (s : CharSeq) : Prop :=
  0 < (w.config home).maxStringLength → (s.length : Int) ≤ (w.config home).maxStringLength

theorem makeText_eq (w : World) (home : RuntimeId) (op : Bytes) (s : CharSeq) : w.makeText home op s =
      if 0 < (w.config home).maxStringLength ∧ (w.config home).maxStringLength < s.length then
        .error (.tooLong op s.length (w.config home).maxStringLength.toNat)
      else .ok (w.create (.text home s) (Builtin.textClass home)) := by
  unfold makeText CharSeq.bounded Config.exceeded?
  by_cases hmax : 0 < (w.config home).maxStringLength ∧ (w.config home).maxStringLength < s.length
  · rw [if_pos hmax, if_pos hmax]
    rfl
  · rw [if_neg hmax, if_neg hmax]
    rfl

theorem makeText_ok (h : w.makeText home op s = .ok r) : r = w.create (.text home s) (Builtin.textClass home) := by
  rw [makeText_eq] at h
  split at h
  · cases h
  · cases h
    rfl

theorem makeText_fits (h : w.makeText home op s = .ok r) : w.Fits home s := by
  rw [makeText_eq] at h
  split at h
  · cases h
  · rename_i hfits
    intro hpos
    exact Int.not_lt.mp fun hlt => hfits ⟨hpos, hlt⟩

theorem newBuffer_ok (h : w.newBuffer home = .ok r) :
    r = w.create (.buffer (some home) (.empty (w.config home).initialCapacity)) (Builtin.bufferClass home) := by
  simp only [newBuffer] at h
  split at h
  · cases h
    rfl
  · cases h

theorem append_ok {cs} (h : w.append o cs = .ok v) : ∃ b, v = w.setBuffer o b := by
  unfold append at h
  split at h
  · cases h
  · cases h
    exact ⟨_, rfl⟩
  · split at h
    · cases h
      exact ⟨_, rfl⟩
    · cases h

/-! ## Threads -/

/-- What the initialisation of a thread does when it succeeds: the runtime hands out an id and a name. -/
theorem initThread_eq {p c target} (hv : w.initThread home p c target = .ok v) :
    ∃ q d, p = some q ∧ c = some d ∧ w.classOf? q = none ∧
      v = ((w.bindClass q d).modifyRegistry home fun _ =>
        (w.registry home).nextId.2.nextName.2).modifyThread (w.header q) fun t =>
          { t with
            home := some home, self := some q, target, id := (w.registry home).nextId.1
            name := (w.registry home).nextId.2.nextName.1, ended := false } := by
  unfold initThread at hv
  cases c with
  | none => cases hv
  | some d =>
    by_cases hd : d.isSubclassOf (Builtin.threadClass home)
    · simp only [hd, Bool.not_true, Bool.false_eq_true, if_false] at hv
      cases p with
      | none => cases hv
      | some q =>
        cases hc : w.classOf? q with
        | some current =>
          simp only [construct, hc] at hv
          cases hv
        | none =>
          simp only [construct, hc] at hv
          cases hv
          refine ⟨q, d, rfl, rfl, hc, ?_⟩
          rw [← header_bindClass w q d q]
          rfl
    · simp only [hd] at hv
      cases hv

/-- The thread that stands for a task of the host, as it is made. -/
def adoptee (w : World) (home : RuntimeId) (task : TaskId) : Thread :=
  { home := some home, id := (w.registry home).nextId.1, name := (w.registry home).adoptedName task,
    adopted := true, started := true, state := .runnable }

/-- What the adoption of a task that has no thread does: there is a new thread, and it is bound. -/
theorem adopt_of_unbound (hb : (w.registry home).bound? task = none) : w.adopt home task = (w.objects.size,
      (w.create (.thread { w.adoptee home task with self := some w.objects.size })
        (Builtin.threadClass home)).2.modifyRegistry home fun _ =>
          { (w.registry home).nextId.2.bind task w.objects.size with
            adopted := (w.registry home).adopted + 1 }) := by
  unfold adopt
  rw [hb]
  dsimp only
  rw [create_eq w (p := .thread _) (fun _ => nofun), create_eq w (p := .thread _) (fun _ => nofun)]
  unfold modifyThread modifyObject
  rw [modify_push_size]
  rfl

theorem adopt_of_bound (hb : (w.registry home).bound? task = some o) : w.adopt home task = (o, w) := by
  unfold adopt
  rw [hb]

/-- What a reservation does: nothing, or it marks a thread that was free. -/
theorem reserveStart_cases (w : World) (o : ObjId) :
    w.reserveStart o = (false, w) ∨ ∃ t, w.thread? o = some t ∧ t.started = false ∧
      w.reserveStart o = (true, w.modifyThread o fun t => { t with started := true }) := by
  unfold reserveStart
  cases ht : w.thread? o with
  | none => exact .inl rfl
  | some t =>
    cases hstarted : t.started with
    | true => exact .inl (by simp only [hstarted, if_true])
    | false => exact .inr ⟨t, rfl, hstarted, by simp only [hstarted, Bool.false_eq_true, if_false]⟩

/-- An end that takes effect changes one thread. -/
theorem endThread_ok {p} (hv : w.endThread p = .ok v) : v = w.modifyThread p fun t => { t with ended := true } := by
  unfold World.endThread at hv
  split at hv
  · split at hv
    · cases hv
    · cases hv
      rfl
  · cases hv

/-! ## Classes and runtimes -/

/-- What a completion comes to: a class, which is settled, or a panic. -/
theorem completeClass_cases (w : World) (home : RuntimeId) (name : Bytes) (parent : Option Class) (table : TableId) :
    (∃ p, w.completeClass home name parent table = (.error p, w.completeTable table)) ∨
    ∃ methods, w.completeClass home name parent table =
      (.ok (.make { home, name, methods } parent), (w.completeTable table).settleClass home name
        (.defined (.make { home, name, methods } parent))) := by
  simp only [completeClass]
  split
  · exact .inl ⟨_, rfl⟩
  · split
    · exact .inl ⟨_, rfl⟩
    · exact .inr ⟨_, rfl⟩

end World

/-- A runtime with a number, as it is made. -/
structure Runtime.New (home : RuntimeId) (rt : Runtime) : Prop where
  valid : rt.config.validate = .ok ()
  classes : rt.classes = World.builtinClasses home
  constants : rt.constants = []
  registry : rt.registry = {}
  selectors : rt.selectors = .initial

/-- What making a runtime does when its settings are honoured. -/
theorem World.newRuntime_ok {w : World} {config r} (h : w.newRuntime config = .ok r) :
    ∃ rt lockChecking, rt.config = config.getD (.default w.environment) ∧ rt.New w.runtimes.size ∧
      r = (w.runtimes.size,
        { w with clock := w.clock + 1, runtimes := w.runtimes.push rt, lockChecking }) := by
  unfold newRuntime at h
  cases hv : (config.getD (.default w.environment)).validate with
  | error e =>
    simp only [hv] at h
    cases h
  | ok _ =>
    simp only [hv] at h
    cases h
    exact ⟨_, _, rfl, ⟨hv, rfl, rfl, rfl, rfl⟩, rfl⟩

namespace Instr

/-! ## Instructions -/

/-- The strings that an instruction makes, with their runtimes. -/
inductive Makes (w : World) : Instr → RuntimeId × CharSeq → Prop where
  | text {home : RuntimeId} {op : Bytes} {s : CharSeq} (fits : w.Fits home s) :
      Makes w (.makeText home op s) (home, s)
  | null (home : RuntimeId) : Makes w (.makeNullText home) (home, .ofBytes World.nullLiteral)
  | buffer {o : ObjId} {home : RuntimeId} {b : Buffer} (content : w.buffer? o = some (some home, b))
      (fits : w.Fits home (.ofRunes b.chars)) : Makes w (.bufferText o) (home, .ofRunes b.chars)

/-- The instructions that change a thread, and how. -/
inductive Reshapes : Instr → ObjId → (Thread → Thread) → Prop where
  | reserveStart (o : ObjId) : Reshapes (.reserveStart o) o fun t => { t with started := true }
  | setState (o : ObjId) (s : ThreadState) : Reshapes (.setState o s) o fun t => { t with state := s }
  | recordUncaught (o : ObjId) (e : Err) :
      Reshapes (.recordUncaught o e) o fun t => { t with uncaught := t.uncaught.or (some e) }
  | endThread (o : ObjId) : Reshapes (.endThread o) o fun t => { t with ended := true }
  | rename (o : ObjId) (name : Bytes) : Reshapes (.rename o name) o fun t => { t with name }

/-- The instructions of a task that change the registry of the home of a thread, and how. -/
inductive Rebinds (task : TaskId) : Instr → ObjId → (Registry → Registry) → Prop where
  | register (o : ObjId) : Rebinds task (.register o) o (·.register o)
  | bindTask (o : ObjId) : Rebinds task (.bindTask o) o (·.bind task o)
  | unbindTask (o : ObjId) : Rebinds task (.unbindTask o) o (·.unbind task)

/-- What an instruction of a task makes of a world. -/
inductive Effect (task : TaskId) (w : World) : Instr → World → Prop where
  /-- It is refused, or there is nothing to do. -/
  | nothing {i : Instr} : Effect task w i w
  | allocate {p : Payload} : Effect task w (.allocate p) (w.allocate p).2
  | create {p : Payload} {c : Class} : Effect task w (.create p c) (w.create p c).2
  | construct {o : ObjId} {c : Class} (unbound : w.classOf? o = none) :
      Effect task w (.construct (some o) (some c)) (w.bindClass o c)
  | setField {o : ObjId} {name : Name} {x : Value} :
      Effect task w (.setField o name x) (w.setField o name x)
  | text {i : Instr} {home : RuntimeId} {s : CharSeq} (makes : i.Makes w (home, s)) :
      Effect task w i (w.create (.text home s) (Builtin.textClass home)).2
  | newBuffer {home : RuntimeId} : Effect task w (.newBuffer home)
      (w.create (.buffer (some home) (.empty (w.config home).initialCapacity)) (Builtin.bufferClass home)).2
  | append {o : ObjId} {cs : List Rune} (b : Buffer) : Effect task w (.append o cs) (w.setBuffer o b)
  | initThread {home : RuntimeId} {o : ObjId} {c : Class} {target : Option ObjId}
      (unbound : w.classOf? o = none) : Effect task w (.initThread home (some o) (some c) target)
        (((w.bindClass o c).modifyRegistry home fun _ =>
          (w.registry home).nextId.2.nextName.2).modifyThread (w.header o) fun t =>
            { t with
              home := some home, self := some o, target, id := (w.registry home).nextId.1
              name := (w.registry home).nextId.2.nextName.1, ended := false })
  | adopt {home : RuntimeId} {id : TaskId} (unbound : (w.registry home).bound? id = none) :
      Effect task w (.adopt home id)
        ((w.create (.thread { w.adoptee home id with self := some w.objects.size })
          (Builtin.threadClass home)).2.modifyRegistry home fun _ =>
            { (w.registry home).nextId.2.bind id w.objects.size with
              adopted := (w.registry home).adopted + 1 })
  | thread {i : Instr} {o : ObjId} {f : Thread → Thread} (reshapes : i.Reshapes o f) :
      Effect task w i (w.modifyThread o f)
  | registry {i : Instr} {o : ObjId} {f : Registry → Registry} {home : RuntimeId}
      (rebinds : i.Rebinds task o f) (initialised : (w.thread? o).bind (·.home) = some home) :
      Effect task w i (w.modifyRegistry home f)
  | shareConstant {home : RuntimeId} {literal : Bytes} {o : ObjId}
      (unshared : w.constant? home literal = none) : Effect task w (.shareConstant home literal o)
        (w.modifyRuntime home fun rt => { rt with constants := rt.constants.insert literal o })
  | insertSelector {home : RuntimeId} {name : Bytes} :
      Effect task w (.insertSelector home name) (w.insertSelector home name).2
  | countBarrier {home : RuntimeId} : Effect task w (.countBarrier home) (w.countBarrier home)
  | reserveClass {home : RuntimeId} {name : Bytes}
      (free : (w.classes home).entries.get? name = none) : Effect task w (.reserveClass home name)
        (w.modifyRuntime home fun rt => { rt with classes := rt.classes.reserve name })
  | settleClass {home : RuntimeId} {name : Bytes} {e : ClassEntry} :
      Effect task w (.settleClass home name e) (w.settleClass home name e)
  | newTable {home : RuntimeId} : Effect task w (.newTable home) (w.newTable home).2
  | addMethod {table : TableId} {t : MethodTable} {s : Selector} {m : Method}
      (taken : w.tables[table]? = some t) (incomplete : ¬ t.complete) :
      Effect task w (.addMethod table s m.arity m.code)
        { w with tables := w.tables.modify table (·.add s m) }
  | completeTable {home : RuntimeId} {name : Bytes} {parent : Option Class} {table : TableId} :
      Effect task w (.completeClass home name parent table) (w.completeTable table)
  | completeClass {home : RuntimeId} {name : Bytes} {parent : Option Class} {table : TableId}
      {t : MethodTable} (taken : (w.completeTable table).tables[table]? = some t) :
      Effect task w (.completeClass home name parent table) ((w.completeTable table).settleClass home name
        (.defined (.make { home, name, methods := t.methods } parent)))
  | newRuntime {config : Option Config} {rt : Runtime} (new : rt.New w.runtimes.size) (lockChecking : Bool) :
      Effect task w (.newRuntime config)
        { w with clock := w.clock + 1, runtimes := w.runtimes.push rt, lockChecking }
  | initGlobal {config : Option Config} {rt : Runtime} (new : rt.New w.runtimes.size) (lockChecking : Bool) :
      Effect task w (.initGlobal config)
        { w with
          clock := w.clock + 1, runtimes := w.runtimes.push rt, lockChecking
          globalRuntime := some w.runtimes.size }
  | refuseGlobal {config : Option Config} (lockChecking : Bool) :
      Effect task w (.initGlobal config) { w with lockChecking }
  | closeGlobal : Effect task w .closeGlobal w.closeGlobal
  | freshTask : Effect task w .freshTask { w with tasks := w.tasks + 1 }
  | writeError {home : RuntimeId} {text : Bytes} {stack : Bool} :
      Effect task w (.writeError home text stack) (w.writeError home text stack)
  | takeErrorReports : Effect task w .takeErrorReports w.takeErrorReports.2
  | takeReport {home : RuntimeId} : Effect task w (.takeReport home) w.now.2
  | writeFile {path content : Bytes} (files : Files) : Effect task w (.writeFile path content) { w with files }
  | openScope {bindings : Dictionary Name Value} :
      Effect task w (.openScope bindings) (w.openScope bindings).2
  | edit {e : SceneEdit} : Effect task w (.edit e) (w.edit e)

namespace Effect

variable {task : TaskId} {w : World} {i : Instr} {ε : Type}

theorem attempt {r : Except ε World} (h : ∀ v, r = .ok v → i.Effect task w v) : i.Effect task w (w.attempt r).2 := by
  cases r with
  | error e => exact .nothing
  | ok v => exact h v rfl

theorem attemptResult {α : Type} {r : Except ε (α × World)} (h : ∀ p, r = .ok p → i.Effect task w p.2) :
    i.Effect task w (w.attemptResult r).2 := by
  cases r with
  | error e => exact .nothing
  | ok p => exact h p rfl

theorem bufferText (o : ObjId) : (Instr.bufferText o).Effect task w (w.attemptResult (w.bufferText o)).2 := by
  refine attemptResult fun r hr => ?_
  unfold World.bufferText at hr
  split at hr
  · cases hr
  · rename_i hb
    split at hr
    · cases hr
    · cases hr
    · split at hr
      · rename_i hmake
        cases hr
        rw [World.makeText_ok hmake]
        exact .text (.buffer hb (World.makeText_fits hmake))
      · cases hr

theorem modifyHomeRegistry {o f} (h : i.Rebinds task o f) : i.Effect task w (w.modifyHomeRegistry o f) := by
  unfold World.modifyHomeRegistry
  split
  · exact .registry h ‹_›
  · exact .nothing

theorem globalRuntime (config : Option Config) : (Instr.initGlobal config).Effect task w (w.initGlobal config).2 := by
  simp only [World.initGlobal]
  split
  · exact .nothing
  · split
    · exact .refuseGlobal _
    · rename_i hnew
      obtain ⟨rt, lockChecking, -, hrt, hpair⟩ := World.newRuntime_ok hnew
      replace hrt : rt.New w.runtimes.size := hrt
      cases hpair
      exact .initGlobal hrt lockChecking

end Effect

open World in
/-- **What an instruction makes of a world.** -/
theorem effect (task : TaskId) (w : World) (i : Instr) : i.Effect task w (i.exec task w).2 := by
  cases i with
  | construct o c =>
    refine .attempt fun v hv => ?_
    unfold World.construct at hv
    split at hv
    · cases hv
    · cases hv
    · split at hv
      · cases hv
      · cases hv
        exact .construct ‹_›
  | makeText home op s =>
    refine .attemptResult fun r hr => ?_
    rw [makeText_ok hr]
    exact .text (.text (makeText_fits hr))
  | makeNullText home => exact .text (.null home)
  | shareConstant home literal o =>
    show Effect task w _ (w.shareConstant home literal o).2
    unfold World.shareConstant
    split
    · exact .nothing
    · exact .shareConstant ‹_›
  | newBuffer home =>
    refine .attemptResult fun r hr => ?_
    rw [newBuffer_ok hr]
    exact .newBuffer
  | append o cs =>
    refine .attempt fun v hv => ?_
    obtain ⟨b, rfl⟩ := append_ok hv
    exact .append b
  | bufferText o => exact .bufferText o
  | initThread home o c target =>
    refine .attempt fun v hv => ?_
    obtain ⟨q, d, rfl, rfl, hunbound, rfl⟩ := initThread_eq hv
    exact .initThread hunbound
  | adopt home id =>
    show Effect task w _ (w.adopt home id).2
    cases hb : (w.registry home).bound? id with
    | none =>
      rw [adopt_of_unbound hb]
      exact .adopt hb
    | some o =>
      rw [adopt_of_bound hb]
      exact .nothing
  | reserveStart o =>
    show Effect task w _ (w.reserveStart o).2
    rcases w.reserveStart_cases o with hr | ⟨t, -, -, hr⟩
    · rw [hr]
      exact .nothing
    · rw [hr]
      exact .thread (.reserveStart o)
  | setState o s => exact .thread (.setState o s)
  | recordUncaught o e => exact .thread (.recordUncaught o e)
  | endThread o =>
    refine .attempt fun v hv => ?_
    rw [endThread_ok hv]
    exact .thread (.endThread o)
  | rename o name => exact .thread (.rename o name)
  | register o => exact .modifyHomeRegistry (.register o)
  | bindTask o => exact .modifyHomeRegistry (.bindTask o)
  | unbindTask o => exact .modifyHomeRegistry (.unbindTask o)
  | reserveClass home name =>
    show Effect task w _ (w.reserveClass home name).2
    unfold World.reserveClass
    split
    · exact .nothing
    · exact .reserveClass ‹_›
  | addMethod table s arity code =>
    refine .attempt fun v hv => ?_
    simp only [World.addMethod] at hv
    split at hv
    · cases hv
    · split at hv
      · cases hv
      · cases hv
        exact .addMethod (m := ⟨_, arity, code⟩) ‹_› ‹_›
  | completeClass home name parent table =>
    show Effect task w _ (w.completeClass home name parent table).2
    simp only [World.completeClass]
    split
    · exact .completeTable
    · split
      · exact .completeTable
      · exact .completeClass ‹_›
  | newRuntime config =>
    refine .attemptResult fun r hr => ?_
    obtain ⟨rt, lockChecking, -, hnew, rfl⟩ := newRuntime_ok hr
    exact .newRuntime hnew lockChecking
  | initGlobal config => exact .globalRuntime config
  | takeReport home =>
    show Effect task w _ (w.takeReport home).2
    simp only [World.takeReport]
    split <;> exact .takeReport
  | writeFile path content =>
    refine .attempt fun v hv => ?_
    unfold World.writeFile at hv
    cases hf : w.files.write path content with
    | error e =>
      rw [hf] at hv
      cases hv
    | ok files =>
      rw [hf] at hv
      cases hv
      exact .writeFile files
  | allocate => exact .allocate
  | create => exact .create
  | setField => exact .setField
  | freshTask => exact .freshTask
  | writeError => exact .writeError
  | takeErrorReports => exact .takeErrorReports
  | insertSelector => exact .insertSelector
  | newTable => exact .newTable
  | settleClass => exact .settleClass
  | closeGlobal => exact .closeGlobal
  | countBarrier => exact .countBarrier
  | openScope => exact .openScope
  | edit => exact .edit

end Instr

end ObjectKernel
