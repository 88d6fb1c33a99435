import ObjectKernel.Proofs.Instructions
import ObjectKernel.Program

/-!
# Lawful programs

A program tree may perform any instruction at any point. This module says which programs the kernel
runs: at every point, whatever other tasks have done meanwhile, the next instruction is allowed, a call
is of a body that the world admits, and the start of a thread is carried through from its reservation to
the new task. A program is judged in the world that it has seen last; what it goes on with is judged in
every world that may come next.

Operations are lawful under premises, such as that a runtime exists, and premises last. So the proof
that an operation is lawful follows its text, and most of them are found by instance search.

## Contents

* `World.Startable`, `startSection`, `Activation.Allowed`, `Prog.Lawful`.
* `Premise`, `Follows`: what an operation may be given to rely on.
* `Op.Lawful` and the rules for the combinators of `Op`.
* `Instr.Permitted`: the instructions that premises allow.
-/

namespace ObjectKernel

variable {w v : World} (r : RuntimeId)

/-! ## Programs -/

/-- A thread that a start may reserve: it was initialised, and it is no handle of a host task. -/
def World.Startable (w : World) (o : ObjId) : Prop :=
  ∃ t, w.thread? o = some t ∧ t.home.isSome ∧ t.adopted = false

/-- What follows the reservation of a start: the thread is marked, registered and given its task. -/
def startSection (o : ObjId) (p : Prog) : Prog :=
  .perform (.setState o .started) fun _ => .perform (.register o) fun _ => .spawn o p

/-- What a lawful program may call. -/
def Activation.Allowed (w : World) : Activation → Prop
  | .code c _ _ => w.Admits c
  | .thread _ => False
  | .joinAll .. => True

/-- A program that is lawful from a world on; `own` is the thread that its task runs. -/
inductive Prog.Lawful (own : Option ObjId) : World → Prog → Prop where
  | finish {w : World} (o : Outcome) : Lawful own w (.finish o)
  | observe {w : World} {f : TaskId → World → Prog}
      (next : ∀ t v, w.Next v → Lawful own v (f t v)) : Lawful own w (.observe f)
  | perform {w : World} {i : Instr} {k : i.Answer → Prog} (allowed : i.Allowed own w)
      (next : ∀ t v, w.Next v → Lawful own (i.exec t v).2 (k (i.exec t v).1)) :
      Lawful own w (.perform i k)
  | await {w : World} {c : Condition} {bound : Option Expiry} {k : Bool → Prog}
      (next : ∀ b v, w.Next v → Lawful own v (k b)) : Lawful own w (.await c bound k)
  | call {w : World} {a : Activation} {k : Except Err Value → Prog} (allowed : a.Allowed w)
      (next : ∀ r v, w.Next v → Lawful own v (k r)) : Lawful own w (.call a k)
  | guard {w : World} {body : Prog} {k : Outcome → Prog} (inner : Lawful own w body)
      (next : ∀ o v, w.Next v → Lawful own v (k o)) : Lawful own w (.guard body k)
  | pause {w : World} {k : Prog} (next : ∀ v, w.Next v → Lawful own v k) : Lawful own w (.pause k)
  | start {w : World} {o : ObjId} {k : Bool → Prog} {p : Prog} (startable : w.Startable o)
      (section_eq : k true = startSection o p) (next : ∀ v, w.Next v → Lawful own v p)
      (refused : ∀ v, w.Next v → Lawful own v (k false)) :
      Lawful own w (.perform (.reserveStart o) k)

theorem World.Startable.later (h : w ≤ v) {o} (ho : w.Startable o) : v.Startable o := by
  obtain ⟨t, ht, hh, ha⟩ := ho
  obtain ⟨u, hu, hl⟩ := World.thread?_later h ht
  exact ⟨u, hu, by rw [hl.home hh]; exact hh, hl.adopted.trans ha⟩

theorem Activation.Allowed.later (h : w ≤ v) {a : Activation} (ha : a.Allowed w) : a.Allowed v := by
  cases a with
  | code c self args => exact World.Admits.later h ha
  | thread o => exact ha
  | joinAll home self bound => trivial

theorem World.Next.of_le {u} (h : w ≤ v) (h' : v.Next u) : w.Next u :=
  ⟨h.trans h'.later, h'.sound⟩

/-- A lawful program stays lawful while other tasks run. -/
theorem Prog.Lawful.later {own} (h : w ≤ v) {p : Prog} (hp : p.Lawful own w) : p.Lawful own v := by
  induction hp generalizing v with
  | finish o => exact .finish o
  | observe next _ => exact .observe fun t u hu => next t u (.of_le h hu)
  | perform allowed next _ => exact .perform (allowed.later h) fun t u hu => next t u (.of_le h hu)
  | await next _ => exact .await fun b u hu => next b u (.of_le h hu)
  | call allowed next _ => exact .call (allowed.later h) fun r u hu => next r u (.of_le h hu)
  | guard inner next ih _ => exact .guard (ih h) fun o u hu => next o u (.of_le h hu)
  | pause next _ => exact .pause fun u hu => next u (.of_le h hu)
  | start startable section_eq next refused _ _ =>
    exact .start (startable.later h) section_eq (fun u hu => next u (.of_le h hu))
      fun u hu => refused u (.of_le h hu)

/-! ## Premises -/

/-- What an operation may be given to rely on. -/
inductive Premise where
  /-- The runtime, if there is one, exists. -/
  | home (r : Option RuntimeId)
  /-- The class, if there is one, is the one that its runtime has under its name. -/
  | cls (c : Option Class)
  /-- The class is there and may be extended in a runtime. -/
  | parent (r : RuntimeId) (c : Option Class)
  /-- The body, if there is one, belongs to a runtime that exists. -/
  | code (c : Option Code)
  /-- The object is a thread. -/
  | thread (o : ObjId)
  /-- The object is a string of a runtime that spells a literal. -/
  | text (o : ObjId) (home : RuntimeId) (literal : Bytes)

variable {Γ : List Premise} {p : Premise}

/-- Whether a premise holds in a world. -/
def Premise.Holds (w : World) : Premise → Prop
  | .home r => ∀ h ∈ r, w.Has h
  | .cls c => ∀ d ∈ c, w.Vouches d
  | .parent r c => ∃ p, c = some p ∧ p.home = r ∧ w.Vouches p
  | .code c => ∀ x ∈ c, w.Admits x
  | .thread o => ∃ t, w.thread? o = some t
  | .text o r literal => w.text? o = some (r, .ofBytes literal)

theorem Premise.Holds.later (h : w ≤ v) (hp : p.Holds w) : p.Holds v := by
  cases p with
  | home r => exact fun s hs => (hp s hs).later h
  | cls c => exact fun d hd => (hp d hd).later h
  | parent r c =>
    obtain ⟨p, hc, hr, hv⟩ := hp
    exact ⟨p, hc, hr, hv.later h⟩
  | code c => exact fun x hx => (hp x hx).later h
  | thread o =>
    obtain ⟨t, ht⟩ := hp
    obtain ⟨u, hu, -⟩ := World.thread?_later h ht
    exact ⟨u, hu⟩
  | text o home literal => exact World.text?_later h hp

/-- All of some premises hold. -/
def World.Assumes (w : World) (Γ : List Premise) : Prop := ∀ p ∈ Γ, p.Holds w

theorem World.Assumes.later (h : w ≤ v) (hΓ : w.Assumes Γ) : v.Assumes Γ := fun p hp => (hΓ p hp).later h

theorem World.Assumes.cons (hp : p.Holds w) (hΓ : w.Assumes Γ) : w.Assumes (p :: Γ) := fun q hq => by
  rcases List.mem_cons.mp hq with rfl | hq
  · exact hp
  · exact hΓ q hq

/-- A premise that follows from others. -/
class Follows (Γ : List Premise) (p : Premise) : Prop where
  holds : ∀ {w : World}, w.Sound → w.Assumes Γ → p.Holds w

instance (priority := high) Follows.head {Γ : List Premise} {p : Premise} : Follows (p :: Γ) p :=
  ⟨fun _ h => h p List.mem_cons_self⟩

instance Follows.tail {Γ : List Premise} {p q : Premise} [h : Follows Γ p] : Follows (q :: Γ) p :=
  ⟨fun hs hΓ => h.holds hs fun r hr => hΓ r (List.mem_cons_of_mem q hr)⟩

instance Follows.root {Γ : List Premise} : Follows Γ (.cls none) := ⟨fun _ _ => nofun⟩

instance Follows.threadClass {Γ : List Premise} [h : Follows Γ (.home (some r))] :
    Follows Γ (.cls (some (Builtin.threadClass r))) := by
  refine ⟨fun hs hΓ c hc => ?_⟩
  cases hc
  exact World.vouches_builtin hs (h.holds hs hΓ r rfl) (by simp [Builtin.classes])

instance Follows.runnableClass {Γ : List Premise} [h : Follows Γ (.home (some r))] :
    Follows Γ (.cls (some (Builtin.runnableClass r))) := by
  refine ⟨fun hs hΓ c hc => ?_⟩
  cases hc
  exact World.vouches_builtin hs (h.holds hs hΓ r rfl) (by simp [Builtin.classes])

instance Follows.script {Γ : List Premise} (body : Script) [h : Follows Γ (.home (some r))] :
    Follows Γ (.code (some (.script r body))) := by
  refine ⟨fun hs hΓ x hx => ?_⟩
  cases hx
  exact h.holds hs hΓ r rfl

instance Follows.mapScript {Γ : List Premise} (body : Option Script) [h : Follows Γ (.home (some r))] :
    Follows Γ (.code (body.map (.script r))) := by
  cases body with
  | none => exact ⟨fun _ _ x hx => (nomatch hx)⟩
  | some b => exact Follows.script r b

/-- An instruction that premises allow. -/
class Instr.Permitted (Γ : List Premise) (i : Instr) : Prop where
  allowed : ∀ {own : Option ObjId} {w : World}, w.Sound → w.Assumes Γ → i.Allowed own w

theorem Instr.Permitted.calm {i : Instr} (hi : i.Permitted Γ) (hs : w.Sound) (hΓ : w.Assumes Γ) (t : TaskId) :
    w.Calm (i.exec t w).2 := by
  have h : i.Allowed none w := hi.allowed hs hΓ
  exact exec_calm hs t h

/-! ## Operations -/

/-- An operation that is lawful under premises: its program is lawful if what follows it is, whatever
the result. -/
class Op.Lawful (Γ : List Premise) {α : Type} (x : Op α) : Prop where
  run : ∀ {own : Option ObjId} {w : World} {k : Except Err α → Prog}, w.Sound → w.Assumes Γ →
    (∀ r v, w.Next v → (k r).Lawful own v) → (x k).Lawful own w

namespace Op

variable {α β : Type} {own : Option ObjId}

/-! ### Combinators -/

instance lawful_pure (a : α) : Lawful Γ (pure a : Op α) :=
  ⟨fun hs _ hk => hk _ _ (.refl hs)⟩

instance lawful_throw (e : Err) : Lawful Γ (throw e : Op α) :=
  ⟨fun hs _ hk => hk _ _ (.refl hs)⟩

instance lawful_bind {x : Op α} {f : α → Op β} [hx : Lawful Γ x] [hf : ∀ a, Lawful Γ (f a)] : Lawful Γ (x >>= f) := by
  refine ⟨fun hs hΓ hk => hx.run hs hΓ fun r v hv => ?_⟩
  cases r with
  | ok a => exact (hf a).run hv.sound (hΓ.later hv.later) fun r u hu => hk r u (hv.trans hu)
  | error e => exact hk _ v hv

/-- More premises do no harm. -/
theorem Lawful.weaken {x : Op α} (hx : Lawful Γ x) (p : Premise) : Lawful (p :: Γ) x :=
  ⟨fun hs hΓ => hx.run hs fun q hq => hΓ q (List.mem_cons_of_mem p hq)⟩

theorem Lawful.bind {x : Op α} {f : α → Op β} (_ : Lawful Γ x) (_ : ∀ a, Lawful Γ (f a)) :
    Lawful Γ (x >>= f) := lawful_bind

instance lawful_result {x : Op α} [hx : Lawful Γ x] : Lawful Γ (result x) :=
  ⟨fun hs hΓ hk => hx.run hs hΓ fun r v hv => hk (.ok r) v hv⟩

instance lawful_ofExcept (r : Except Err α) : Lawful Γ (ofExcept r) :=
  ⟨fun hs _ hk => hk _ _ (.refl hs)⟩

instance lawful_fault (f : Fault) : Lawful Γ (fault f : Op α) := lawful_throw _

instance lawful_ofFault (r : Except Fault α) : Lawful Γ (ofFault r) := by
  cases r with
  | ok a => exact lawful_pure a
  | error f => exact lawful_fault f

instance lawful_panic (p : Panic) : Lawful Γ (panic p : Op α) := ⟨fun _ _ _ => .finish _⟩

instance lawful_defect (d : Defect) : Lawful Γ (defect d : Op α) := lawful_panic _

instance lawful_ofPanic (r : Except Panic α) : Lawful Γ (ofPanic r) := by
  cases r with
  | ok a => exact lawful_pure a
  | error p => exact lawful_panic p

instance lawful_ofStop (r : Except Stop α) : Lawful Γ (ofStop r) := by
  cases r with
  | ok a => exact lawful_pure a
  | error s =>
    cases s with
    | error e => exact lawful_throw e
    | panic p => exact lawful_panic p

instance lawful_observe (f : World → α) : Lawful Γ (observe f) :=
  ⟨fun _ _ hk => .observe fun _ v hv => hk _ v hv⟩

/-- What a look at the state shows may serve as a premise from there on. -/
theorem lawful_observe_bind {f : World → α} {g : α → Op β} (p : α → Premise)
    (hp : ∀ {w : World}, w.Sound → w.Assumes Γ → (p (f w)).Holds w)
    (hg : ∀ a, Lawful (p a :: Γ) (g a)) : Lawful Γ (observe f >>= g) := by
  refine ⟨fun hs hΓ hk => .observe fun _ v hv => ?_⟩
  have hΓ' := hΓ.later hv.later
  exact (hg (f v)).run hv.sound (.cons (hp hv.sound hΓ') hΓ') fun r u hu => hk r u (hv.trans hu)

instance lawful_task : Lawful Γ task := ⟨fun _ _ hk => .observe fun _ v hv => hk _ v hv⟩

instance lawful_perform {i : Instr} [hi : i.Permitted Γ] : Lawful (α := no_index i.Answer) Γ (perform i) := by
  refine ⟨fun hs hΓ hk => .perform (hi.allowed hs hΓ) fun t v hv => ?_⟩
  exact hk _ _ (hv.trans (hi.calm hv.sound (hΓ.later hv.later) t).next)

/-- What an instruction answers may serve as a premise from there on. -/
theorem lawful_perform_bind {i : Instr} {g : i.Answer → Op β} [hi : i.Permitted Γ] (p : i.Answer → Premise)
    (hp : ∀ {w : World} {t : TaskId}, w.Sound → w.Assumes Γ → (p (i.exec t w).1).Holds (i.exec t w).2)
    (hg : ∀ a, Lawful (p a :: Γ) (g a)) : Lawful Γ (perform i >>= g) := by
  refine ⟨fun hs hΓ hk => .perform (hi.allowed hs hΓ) fun t v hv => ?_⟩
  have hΓ' := hΓ.later hv.later
  have hnext := (hi.calm hv.sound hΓ' t).next
  exact (hg _).run hnext.sound (.cons (hp hv.sound hΓ') (hΓ'.later hnext.later)) fun r u hu =>
    hk r u ((hv.trans hnext).trans hu)

instance lawful_await (c : Condition) (bound : Option Expiry) : Lawful Γ (await c bound) :=
  ⟨fun _ _ hk => .await fun _ v hv => hk _ v hv⟩

theorem lawful_call {a : Activation} (ha : ∀ {w : World}, w.Assumes Γ → a.Allowed w) :
    Lawful Γ (call a) := ⟨fun _ hΓ hk => .call (ha hΓ) hk⟩

instance lawful_call_joinAll (home : RuntimeId) (self : Option ObjId) (bound : Option Expiry) :
    Lawful Γ (call (.joinAll home self bound)) := lawful_call fun _ => trivial

instance lawful_pause : Lawful Γ pause := ⟨fun _ _ hk => .pause fun v hv => hk _ v hv⟩

theorem lawful_toProg {x} (hx : Lawful Γ x) (hs : w.Sound) (hΓ : w.Assumes Γ) : x.toProg.Lawful own w := by
  refine hx.run hs hΓ fun r v _ => ?_
  cases r with
  | ok a => exact .finish _
  | error e => exact .finish _

theorem lawful_toProgUnit {x} (hx : Lawful Γ x) (hs : w.Sound) (hΓ : w.Assumes Γ) : x.toProgUnit.Lawful own w :=
  lawful_toProg (x := do x; return .null) inferInstance hs hΓ

instance lawful_guard {x : Op Unit} [hx : Lawful Γ x] : Lawful Γ (guard x) :=
  ⟨fun hs hΓ hk => .guard (lawful_toProgUnit hx hs hΓ) fun _ v hv => hk _ v hv⟩

instance lawful_ite {c : Prop} [Decidable c] {x y : Op α} [hx : Lawful Γ x] [hy : Lawful Γ y] :
    Lawful Γ (if c then x else y) := by
  split
  · exact hx
  · exact hy

theorem Lawful.ite {c : Prop} [Decidable c] {x y : Op α} (_ : Lawful Γ x) (_ : Lawful Γ y) :
    Lawful Γ (if c then x else y) := lawful_ite

instance lawful_protect {x y : Op Unit} [hx : Lawful Γ x] [hy : Lawful Γ y] : Lawful Γ (protect x y) := by
  unfold protect
  refine .bind inferInstance fun outcome => ?_
  cases outcome <;> infer_instance

end Op

/-! ### Instructions -/

namespace Instr

variable (o : ObjId) (name : Bytes) (home : RuntimeId)

instance {i : Instr} [h : Evident (∀ own w, i.Allowed own w)] : Permitted Γ i := ⟨fun _ _ => h.holds ..⟩

instance (e : Err) : Permitted Γ (.settleClass home name (.failed e)) := ⟨fun _ _ => rfl⟩
instance : Permitted Γ (.settleClass home name .abandoned) := ⟨fun _ _ => rfl⟩

instance : Permitted Γ (.allocate (.plain [])) := ⟨fun _ _ => .plain⟩
instance : Permitted Γ (.allocate (.thread {})) := ⟨fun _ _ => .thread⟩
instance : Permitted Γ (.allocate (.buffer none {})) := ⟨fun _ _ => .buffer⟩

instance (part : ObjId) [h : Follows Γ (.thread part)] : Permitted Γ (.allocate (.extended part)) := by
  refine ⟨fun hs hΓ => ?_⟩
  obtain ⟨t, ht⟩ := h.holds hs hΓ
  exact .extended ht

section

variable [h : Follows Γ (.home (some home))]

instance (op : Bytes) (s : CharSeq) : Permitted Γ (.makeText home op s) := ⟨fun hs hΓ => h.holds hs hΓ home rfl⟩
instance : Permitted Γ (.makeNullText home) := ⟨fun hs hΓ => h.holds hs hΓ home rfl⟩
instance : Permitted Γ (.newBuffer home) := ⟨fun hs hΓ => h.holds hs hΓ home rfl⟩
instance (task : TaskId) : Permitted Γ (.adopt home task) := ⟨fun hs hΓ => h.holds hs hΓ home rfl⟩
instance : Permitted Γ (.newTable home) := ⟨fun hs hΓ => h.holds hs hΓ home rfl⟩
instance (name : Name) : Permitted Γ (.edit (.nameRuntime name home)) := ⟨fun hs hΓ => h.holds hs hΓ home rfl⟩

end

instance (literal : Bytes) [h : Follows Γ (.text o home literal)] :
    Permitted Γ (.shareConstant home literal o) := ⟨fun hs hΓ => h.holds hs hΓ⟩

instance (o : Option ObjId) (c : Option Class) [h : Follows Γ (.cls c)] :
    Permitted Γ (.construct o c) := ⟨fun hs hΓ => h.holds hs hΓ⟩

instance (o target : Option ObjId) (c : Option Class) [h : Follows Γ (.home (some home))] [hc : Follows Γ (.cls c)] :
    Permitted Γ (.initThread home o c target) :=
  ⟨fun hs hΓ => ⟨h.holds hs hΓ home rfl, hc.holds hs hΓ⟩⟩

instance (parent : Option Class) (table : TableId) [h : Follows Γ (.parent home parent)] :
    Permitted Γ (.completeClass home name parent table) :=
  ⟨fun hs hΓ => h.holds hs hΓ⟩

instance (code : Option Code) (c : Class) [h : Follows Γ (.code code)]
    [hc : Follows Γ (.cls (some c))] : Permitted Γ (.create (.runnable code) c) :=
  ⟨fun hs hΓ => ⟨⟨code, rfl, h.holds hs hΓ⟩, hc.holds hs hΓ c rfl⟩⟩

end Instr

end ObjectKernel
