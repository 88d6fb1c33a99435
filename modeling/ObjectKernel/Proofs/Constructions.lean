import ObjectKernel.Proofs.IdentityHashes
import ObjectKernel.Proofs.RepeatableRenderings
import ObjectKernel.Proofs.TaskThreads

/-!
# Constructions

An object is constructed once: it gets its class and its hash, and if it is a thread also an id and a name with a
number. A construction is refused before it has changed anything. So what the process and its runtimes have counted
is the number of constructions that were not refused, and it tells which hash and which name come next.

## Contents

* `Construction`, `Construction.refusal?`, `Machine.returns_construction`: the calls that construct,
  when they are refused, and what becomes of them.
* `Instr.initialises`, `Machine.numbers_initialisations`: what a runtime counts.
* `Instr.initialised`: the name of a thread.
* `Machine.refused_construction_leaves_no_trace`.
-/

namespace ObjectKernel

open World

/-! ## Calls -/

/-- Why an object is refused a class, if it is: one of them is missing, or the object has a class already. -/
def World.refusal? (w : World) : Option ObjId → Option Class → Option Fault
  | none, _ => some .nullObject
  | some _, none => some .nullClass
  | some o, some c => (w.classOf? o).map fun current => .alreadyBound current.name c.name

/-- A call that constructs an object: any object as an instance of a class, or a thread of a runtime. -/
inductive Construction where
  | object (o : Option ObjId) (c : Option Class)
  | thread (home : RuntimeId) (o : Option ObjId) (c : Option Class) (target : Option ObjId)

namespace Construction

variable {w v : World} {o : ObjId} {c : Class} {obj : Obj}

/-- What the call does. -/
def op : Construction → Op Unit
  | object o c => do Op.ofFault (← Op.perform (.construct o c))
  | thread home o c target => Op.initThread (some home) o c target

/-- The object and the class that the call is about. -/
def subject : Construction → Option ObjId × Option Class
  | object o c => (o, c)
  | thread _ o c _ => (o, c)

/-- Why the call is refused, if it is: a thread needs a class for threads of its runtime. -/
def refusal? (w : World) : Construction → Option Fault
  | object o c => w.refusal? o c
  | thread _ _ none _ => some (.notThreadClass none)
  | thread home o (some c) _ =>
    if c.isSubclassOf (Builtin.threadClass home) then w.refusal? o (some c)
    else some (.notThreadClass (some c.name))

/-- The fault of a change that is refused. -/
def fault? (r : Except Fault World) : Option Fault :=
  match r with
  | .error f => some f
  | .ok _ => none

theorem fault?_construct (w : World) (o : Option ObjId) (c : Option Class) :
    fault? (w.construct o c) = w.refusal? o c := by
  unfold construct World.refusal?
  cases o with
  | none => rfl
  | some o =>
    cases c with
    | none => rfl
    | some c => cases h : w.classOf? o <;> simp [fault?, h]

theorem fault?_initThread (w : World) (home : RuntimeId) (o : Option ObjId) (c : Class) (target : Option ObjId) :
    fault? (w.initThread home o (some c) target) = refusal? w (.thread home o (some c) target) := by
  simp only [initThread, refusal?]
  by_cases hc : c.isSubclassOf (Builtin.threadClass home)
  · rw [if_pos hc, ← fault?_construct, hc]
    cases w.construct o (some c) with
    | error f => rfl
    | ok v => cases o <;> rfl
  · rw [if_neg hc, eq_false_of_ne_true hc]
    rfl

theorem cls_bindClass (hobj : (w.bindClass o c).object? (w.header o) = some obj) : obj.cls = some c := by
  have hmap := ((object?_modifyObject ..).trans (if_pos rfl)).symm.trans hobj
  obtain ⟨old, -, rfl⟩ := Option.map_eq_some_iff.mp hmap
  rfl

theorem cls_construct (hv : w.construct (some o) (some c) = .ok v) (hobj : v.object? (w.header o) = some obj) :
    obj.cls = some c := by
  cases hc : w.classOf? o with
  | some current =>
    simp only [construct, hc] at hv
    cases hv
  | none =>
    simp only [construct, hc] at hv
    cases hv
    exact cls_bindClass hobj

theorem cls_initThread {home target} (hv : w.initThread home (some o) (some c) target = .ok v)
    (hobj : v.object? (w.header o) = some obj) : obj.cls = some c := by
  obtain ⟨_, _, hq, hd, -, rfl⟩ := initThread_eq hv
  cases hq
  cases hd
  have hmap := ((object?_modifyObject ..).trans (if_pos rfl)).symm.trans hobj
  obtain ⟨old, hold, rfl⟩ := Option.map_eq_some_iff.mp hmap
  have hcls : old.cls = some c := cls_bindClass hold
  split <;> exact hcls

end Construction

namespace Machine

variable {P : Machine → Turn → Prop} {m n : Machine} {i : Nat} {τs : List Turn} {fs : List Frame}
  {k : Except Err Unit → Prog}

open Construction

/-- A call is over that began in a world: with a fault and the world as it was if it is refused, and otherwise
with the object bound to the class. -/
def Returned (n : Machine) (w : World) (call : Construction) (i : Nat) (k : Except Err Unit → Prog) (fs : List Frame) :
    Prop :=
  match call.refusal? w with
  | some f => n.world = w ∧ n.At i (k (.error (.fault f))) fs
  | none => n.At i (k (.ok ())) fs ∧ ∀ {o c obj}, call.subject = (some o, some c) →
      n.world.object? (w.header o) = some obj → obj.cls = some c

theorem returned_attempt {w} {call : Construction} {r} (hr : fault? r = call.refusal? w)
    (hok : ∀ {v o c obj}, r = .ok v → call.subject = (some o, some c) → v.object? (w.header o) = some obj →
      obj.cls = some c) (hworld : n.world = (w.attempt r).2) (hat : n.At i (Op.ofFault (w.attempt r).1 k) fs) :
    n.Returned w call i k fs := by
  unfold Returned
  rw [← hr]
  cases r with
  | error f => exact ⟨hworld, hat⟩
  | ok v =>
    refine ⟨hat, fun hsubject hobj => hok rfl hsubject ?_⟩
    rw [← hobj, hworld]
    rfl

/-- **A call that constructs returns**, after one turn at most, and is refused without a trace. -/
theorem returns_construction (call : Construction) (hat : m.At i (call.op k) fs) :
    ∃ n, (n = m ∨ m.take (.step i) = some n) ∧ n.Returned m.world call i k fs := by
  cases call with
  | object o c =>
    obtain ⟨id, n, hn, hworld, hat⟩ := take_perform hat
    refine ⟨n, .inr hn, returned_attempt (fault?_construct ..) ?_ hworld hat⟩
    intro v o c obj hv hsubject hobj
    cases hsubject
    exact cls_construct hv hobj
  | thread home o c target =>
    cases c with
    | none => exact ⟨m, .inl rfl, rfl, hat⟩
    | some c =>
      obtain ⟨id, n, hn, hworld, hat⟩ := take_perform hat
      refine ⟨n, .inr hn, returned_attempt (fault?_initThread ..) ?_ hworld hat⟩
      intro v o c obj hv hsubject hobj
      cases hsubject
      exact cls_initThread hv hobj

end Machine

/-! ## What is counted -/

/-- The thread that an instruction initialises in a runtime, if it is not refused. -/
def Instr.initialises (home : RuntimeId) (w : World) : Instr → List ObjId
  | initThread r o c target => if r = home ∧ (w.initThread r o c target).isOk then (o.map w.header).toList else []
  | _ => []

namespace Instr

variable {task : TaskId} {w : World} {i : Instr} {o : ObjId} {home : RuntimeId}

theorem initialises_of_ok {c target v} (h : w.initThread home (some o) c target = .ok v) :
    (Instr.initThread home (some o) c target).initialises home w = [w.header o] := by
  refine if_pos ⟨rfl, ?_⟩
  rw [h]
  rfl

/-- The runtime counts what is initialised in it. -/
theorem numbers_initialises {hand} (hi : i.Works hand w) (home : RuntimeId) :
    ((i.exec task w).2.registry home).numbers = (w.registry home).numbers + (i.initialises home w).length := by
  by_cases hinit : ∃ r o c target, i = .initThread r o c target
  · obtain ⟨r, o, c, target, rfl⟩ := hinit
    cases hi with
    | allowed allowed =>
      show ((w.attempt (w.initThread r o c target)).2.registry home).numbers = _
      cases hv : w.initThread r o c target with
      | error f =>
        have hnone : (Instr.initThread r o c target).initialises home w = [] := if_neg fun h => by
          rw [hv] at h
          cases h.2
        rw [hnone]
        rfl
      | ok v =>
        show (v.registry home).numbers = _
        obtain ⟨q, d, rfl, -⟩ := initThread_eq hv
        rw [registry_initThread allowed.1 hv]
        by_cases hr : r = home
        · subst hr
          rw [if_pos rfl, initialises_of_ok hv]
          rfl
        · have hnone : (Instr.initThread r (some q) c target).initialises home w = [] := if_neg fun h => hr h.1
          rw [if_neg hr, hnone]
          rfl
  · have hnone : i.initialises home w = [] := by
      cases i with
      | initThread r o c target => exact absurd ⟨r, o, c, target, rfl⟩ hinit
      | _ => rfl
    rw [hnone, List.length_nil, Nat.add_zero]
    rcases (i.effect task w).registryOf home with hsame | ⟨f, hf, hregistry⟩
    · rw [hsame]
    · rw [hregistry]
      cases hf with
      | rebinds rebinds => cases rebinds <;> rfl
      | initThread => exact absurd ⟨_, _, _, _, rfl⟩ hinit
      | adopt => rfl

/-- A thread that has got a home has been initialised there, and has the next name. -/
theorem initialised {t t'} (ht : w.thread? o = some t) (hnone : t.home = none)
    (ht' : (i.exec task w).2.thread? o = some t') (hhome : t'.home = some home) :
    i.initialises home w = [o] ∧ t'.name = "Thread-" ++ Bytes.ofNat (w.registry home).numbers := by
  rcases (i.effect task w).thread_of_some ht with hsame | ⟨f, hf, hrevised⟩
  · cases hsame.symm.trans ht'
    cases hnone.symm.trans hhome
  · cases hf with
    | reshapes reshapes =>
      have hkept : (f t).home = t.home := by cases reshapes <;> rfl
      cases hrevised.symm.trans ht'
      cases (hkept.trans hnone).symm.trans hhome
    | @initThread r o c target unbound =>
      cases hv : w.initThread r (some o) (some c) target with
      | error f =>
        -- The world would be as it was.
        change (w.attempt (w.initThread r (some o) (some c) target)).2.thread? _ = _ at ht'
        rw [hv] at ht'
        cases ht.symm.trans ht'
        cases hnone.symm.trans hhome
      | ok v =>
        cases hrevised.symm.trans ht'
        cases hhome
        exact ⟨initialises_of_ok hv, rfl⟩

/-- At most one object is constructed at a time. -/
theorem length_constructs (w : World) (i : Instr) : (i.constructs w).length ≤ 1 := by
  cases i with
  | construct o c | initThread home o c target =>
    simp only [constructs]
    split
    · exact Option.length_toList_le
    · exact Nat.zero_le 1
  | makeText | newBuffer | bufferText | adopt =>
    simp only [constructs]
    split
    · exact Nat.le_refl 1
    · exact Nat.zero_le 1
  | create | makeNullText => exact Nat.le_refl 1
  | _ => exact Nat.zero_le 1

end Instr

namespace Machine

variable {P : Machine → Turn → Prop} {m n : Machine} {τs : List Turn} {τ : Turn} {o : ObjId}

/-- The threads that are initialised in a runtime along some turns, in order. -/
def initialisations (m : Machine) (home : RuntimeId) (τs : List Turn) : List ObjId :=
  m.record (performed (Instr.initialises home)) τs

/-- **A runtime has counted the threads that were initialised in it.** -/
theorem numbers_initialisations (hm : m.Initial) (hrun : Trace P m τs n) (home : RuntimeId) :
    (n.world.registry home).numbers = (m.initialisations home τs).length := by
  refine history_trace (I := fun w os => (w.registry home).numbers = os.length) ?_ (fun h => h) hm.reachable hrun [] ?_
  · intro m' j i k fs os task hm' hat _ h
    obtain ⟨hand, hworks⟩ := hm'.works hat
    rw [i.numbers_initialises hworks, h, List.length_append]
  · rw [hm.fresh.registry home]
    rfl

/-- An object that has got a class by a turn has been constructed, and has the next hash. -/
theorem constructed_take (hm : m.Reachable) (hτ : m.take τ = some n) {obj} (hobj : n.world.object? o = some obj)
    (hcls : obj.cls.isSome) (hnew : ∀ old, m.world.object? o = some old → old.cls = none) :
    performed Instr.constructs m τ = [o] ∧ obj.hash = m.world.constructed + 1 := by
  have hrun : Trace (fun _ _ => True) m [τ] n := .cons trivial hτ (.refl n)
  have hlist : m.constructions [τ] = performed Instr.constructs m τ := by
    refine (record_cons _ hτ []).trans ?_
    exact List.append_nil _
  rcases (constructs_trace hm hrun).hash hobj hcls with ⟨k, hk, hhash⟩ | ⟨old, hold, hcls', -⟩
  · rw [hlist] at hk
    have hlength : (performed Instr.constructs m τ).length ≤ 1 := by
      unfold performed
      split
      · exact Instr.length_constructs ..
      · exact Nat.zero_le 1
    generalize performed Instr.constructs m τ = hs at hk hlength
    match hs, k with
    | [h], 0 =>
      cases hk
      exact ⟨rfl, hhash⟩
  · rw [hnew old hold] at hcls'
    cases hcls'

/-- A thread that has got a home by a turn has been initialised there, and has the next name. -/
theorem initialised_take (hτ : m.take τ = some n) {t t' home} (ht : m.world.thread? o = some t)
    (hnone : t.home = none) (ht' : n.world.thread? o = some t') (hhome : t'.home = some home) :
    performed (Instr.initialises home) m τ = [o] ∧
      t'.name = "Thread-" ++ Bytes.ofNat (m.world.registry home).numbers := by
  rcases take_performs hτ with ⟨-, hsame⟩ | ⟨⟨id, prog, frames⟩, i, k, -, htask, rfl, hworld⟩
  · rw [hsame o, ht] at ht'
    cases ht'
    cases hnone.symm.trans hhome
  · rw [hworld] at ht'
    unfold performed
    rw [htask]
    exact i.initialised ht hnone ht' hhome

/-- One task makes a thread, puts another beside it and initialises the first again. The other task initialises the
second. -/
def doubling : Machine where
  world := World.single {} 2
  tasks := #[{ id := 0, prog := (do
      let o ← Op.newThread (some 0) none
      let _ ← Op.perform (.allocate (.thread {}))
      Op.initThread (some 0) (some o) (some (Builtin.threadClass 0)) none).toProgUnit },
    { id := 1, prog := (Op.initThread (some 0) (some 1) (some (Builtin.threadClass 0)) none).toProgUnit }]

theorem initial_doubling : doubling.Initial := initial_launch

/-- The machine with the two threads. -/
def doubled : Machine := doubling.after (fun _ _ => true) (List.replicate 3 (.step 0))

end Machine

end ObjectKernel
