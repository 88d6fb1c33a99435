import ObjectKernel.Operation.Classes
import ObjectKernel.Operation.Texts
import ObjectKernel.Proofs.Sound

/-!
# Orderly programs

A class is defined by several instructions that have to come in one order and to be about one name: its
reservation, a table for its methods, and then either its completion or the note that it has failed. The
same goes for the text of null, which is made only to be shared. A program tree may perform these
instructions anywhere; this module says which programs keep to the order. All others of their instructions
are free, except that a string is made only of characters and bytes that belong together.

While a class is initialised its program owes the completion of that class, and may end in no other way
but by a panic. And a class is defined only in a runtime that exists: runtimes are numbered and none goes
away, so that a program has seen as many of them as there were when it looked last. A program is orderly
with respect to what it owes and to how many runtimes it has seen.

## Contents

* `Definition`: a definition of a class, and the points of it. `Definition.defineClass_eq`: the operation
  passes these points.
* `CharSeq.Faithful`, `Instr.IsFree`.
* `Prog.Orderly`: programs that keep the order.
* `Op.Orderly`, `Op.Steady`, and the rules for the combinators of `Op`.
-/

namespace ObjectKernel

/-! ## Definitions of classes -/

/-- What a definition of a class asks for. -/
structure Definition where
  home : RuntimeId
  name : Bytes
  superclass : Option Class

/-- A class whose name is reserved and whose methods are being added to a table. -/
structure Pending where
  home : RuntimeId
  name : Bytes
  parent : Option Class
  table : TableId

namespace Definition

/-- What a definition returns if it finds this entry under its name in the end. -/
def verdict (d : Definition) (reserved : Bool) : Option ClassEntry → Except Err (Class × Bool)
  | none => .error (.fault (.definitionIncomplete d.name))
  | some e => (ClassTable.answer d.name d.superclass e).map fun c => (c, reserved)

/-- The last look at the entry. -/
def concluding (d : Definition) (reserved : Bool) (k : Except Err (Class × Bool) → Prog) : Prog :=
  .observe fun _ w => k (d.verdict reserved ((w.classes d.home).entries.get? d.name))

/-- The wait for another definition of the same name. -/
def waiting (d : Definition) (k : Except Err (Class × Bool) → Prog) : Prog :=
  .await (.settled d.home d.name) none fun _ => d.concluding false k

/-- The superclass was not accepted. -/
def refusing (d : Definition) (f : Fault) (k : Except Err (Class × Bool) → Prog) : Prog :=
  .perform (.settleClass d.home d.name (.failed (.fault f))) fun _ => d.concluding true k

/-- The end of the section in which the class is initialised. -/
def completed : Except Panic Class → Prog
  | .ok _ => .finish (.value .null)
  | .error p => .finish (.panic p)

/-- What follows the initialiser. -/
def completing (d : Definition) (parent : Option Class) (table : TableId) : Except Err Unit → Prog
  | .ok _ => .perform (.completeClass d.home d.name parent table) completed
  | .error e => .finish (.error e)

/-- What follows the section in which the class is initialised. -/
def ended (d : Definition) (k : Except Err (Class × Bool) → Prog) : Outcome → Prog
  | .value _ => d.concluding true k
  | .error e => k (.error e)
  | .panic p => .perform (.settleClass d.home d.name .abandoned) fun _ => .finish (.panic p)

/-- The table is there, and the initialiser comes next. -/
def building (d : Definition) (init : TableId → Op Unit) (parent : Option Class)
    (k : Except Err (Class × Bool) → Prog) (table : TableId) : Prog :=
  .guard (init table (d.completing parent table)) (d.ended k)

/-- The superclass was accepted. -/
def opening (d : Definition) (init : TableId → Op Unit) (parent : Option Class)
    (k : Except Err (Class × Bool) → Prog) : Prog :=
  .perform (.newTable d.home) (d.building init parent k)

/-- What follows once the table of classes has accepted a superclass or not. -/
def decided (d : Definition) (init : TableId → Op Unit) (k : Except Err (Class × Bool) → Prog) :
    Except Fault (Option Class) → Prog
  | .error f => d.refusing f k
  | .ok parent => d.opening init parent k

/-- The name is reserved. -/
def deciding (d : Definition) (init : TableId → Op Unit) (k : Except Err (Class × Bool) → Prog) : Prog :=
  .observe fun _ w => d.decided init k ((w.classes d.home).accept d.name d.superclass)

/-- What follows the reservation. -/
def reserved (d : Definition) (init : TableId → Op Unit) (k : Except Err (Class × Bool) → Prog) :
    Bool → Prog
  | true => d.deciding init k
  | false => d.waiting k

/-- The name is about to be reserved. -/
def reserving (d : Definition) (init : TableId → Op Unit) (k : Except Err (Class × Bool) → Prog) : Prog :=
  .perform (.reserveClass d.home d.name) (d.reserved init k)

/-- What a definition owes while its class is initialised. -/
def pending (d : Definition) (parent : Option Class) (table : TableId) : Pending :=
  { home := d.home, name := d.name, parent, table }

/-- The last look, as the operation has it. -/
theorem concluding_eq (d : Definition) (b : Bool) (k : Except Err (Class × Bool) → Prog) :
    (do
      match ← Op.observe fun w => (w.classes d.home).entries.get? d.name with
      | none => Op.fault (.definitionIncomplete d.name)
      | some e =>
        let c ← Op.ofExcept (ClassTable.answer d.name d.superclass e)
        return (c, b) : Op (Class × Bool)) k = d.concluding b k := by
  refine Prog.observe_congr fun _ w => ?_
  dsimp only
  cases (w.classes d.home).entries.get? d.name with
  | none => rfl
  | some e =>
    show Op.ofExcept (ClassTable.answer d.name d.superclass e) _ = k (Except.map _ _)
    unfold Op.ofExcept
    cases ClassTable.answer d.name d.superclass e <;> rfl

/-- **A definition passes these points.** -/
theorem defineClass_eq (d : Definition) (h : d.name ≠ []) (init : TableId → Op Unit)
    (k : Except Err (Class × Bool) → Prog) :
    Op.defineClass (some d.home) d.name d.superclass init k = d.reserving init k := by
  show (if d.name = [] then _ else _ : Op (Class × Bool)) k = _
  rw [if_neg h]
  refine congrArg (Prog.perform _) (funext fun granted => ?_)
  cases granted with
  | false =>
    refine congrArg (Prog.await _ _) (funext fun _ => ?_)
    exact d.concluding_eq false k
  | true =>
    refine Prog.observe_congr fun _ w => ?_
    dsimp only
    cases (w.classes d.home).accept d.name d.superclass with
    | error f =>
      refine congrArg (Prog.perform _) (funext fun _ => ?_)
      exact d.concluding_eq true k
    | ok parent =>
      refine congrArg (Prog.perform _) (funext fun table => congr (congrArg Prog.guard ?_) ?_)
      · refine congrArg (init table) (funext fun r => ?_)
        cases r with
        | error e => rfl
        | ok u =>
          refine congrArg (Prog.perform _) (funext fun answer => ?_)
          cases answer <;> rfl
      · refine funext fun o => ?_
        cases o with
        | value v => exact d.concluding_eq true k
        | error e => rfl
        | panic p => rfl

end Definition

/-! ## Instructions -/

/-- The characters and the text of a string belong together: the text spells the characters, with U+FFFD
in place of each that is no scalar value. -/
class CharSeq.Faithful (s : CharSeq) : Prop where
  decode_text : Utf8.decode s.text = s.chars.map Rune.scalar

/-- The instructions that a program may perform at any point, whatever comes of them. -/
@[reducible] def Instr.IsFree : Instr → Prop
  | makeText _ _ s => s.Faithful
  | makeNullText _ | reserveClass .. | newTable _ | completeClass .. | settleClass .. => False
  | _ => True

instance {s : CharSeq} [h : s.Faithful] : Evident s.Faithful := ⟨h⟩

/-! ## Programs -/

/-- A program that keeps the order, where `owed` is the class that it has to complete and `n` the number
of runtimes that it has seen. -/
inductive Prog.Orderly : Option Pending → Nat → Prog → Prop where
  | finish {n : Nat} (o : Outcome) : Orderly none n (.finish o)
  | panic {owed : Option Pending} {n : Nat} (p : Panic) : Orderly owed n (.finish (.panic p))
  | observe {owed : Option Pending} {n : Nat} {f : TaskId → World → Prog}
      (next : ∀ t w, w.Sound → n ≤ w.runtimes.size → Orderly owed w.runtimes.size (f t w)) :
      Orderly owed n (.observe f)
  | perform {owed : Option Pending} {n : Nat} {i : Instr} {k : i.Answer → Prog} (free : i.IsFree)
      (next : ∀ a, Orderly owed n (k a)) : Orderly owed n (.perform i k)
  | await {owed : Option Pending} {n : Nat} {c : Condition} {bound : Option Expiry} {k : Bool → Prog}
      (next : ∀ b, Orderly owed n (k b)) : Orderly owed n (.await c bound k)
  | call {owed : Option Pending} {n : Nat} {a : Activation} {k : Except Err Value → Prog}
      (next : ∀ r, Orderly owed n (k r)) : Orderly owed n (.call a k)
  | guard {owed : Option Pending} {n : Nat} {body : Prog} {k : Outcome → Prog}
      (inner : Orderly none n body) (next : ∀ o, Orderly owed n (k o)) : Orderly owed n (.guard body k)
  | spawn {owed : Option Pending} {n : Nat} {o : ObjId} {k : Prog} (next : Orderly owed n k) :
      Orderly owed n (.spawn o k)
  | pause {owed : Option Pending} {n : Nat} {k : Prog} (next : Orderly owed n k) : Orderly owed n (.pause k)
  /-- The text of null is made only to be shared. -/
  | shareNull {owed : Option Pending} {n : Nat} {home : RuntimeId} {k : ObjId → Prog}
      (next : ∀ o, Orderly owed n (k o)) :
      Orderly owed n (.perform (.makeNullText home) fun o =>
        .perform (.shareConstant home World.nullLiteral o) k)
  /-- A class with a name is defined in a runtime that exists, and its initialiser is orderly in turn. -/
  | define {owed : Option Pending} {n : Nat} {d : Definition} {init : TableId → Op Unit}
      {k : Except Err (Class × Bool) → Prog} (named : d.name ≠ []) (seen : d.home < n)
      (inner : ∀ parent table, Orderly (some (d.pending parent table)) n
        (init table (d.completing parent table)))
      (next : ∀ r, Orderly owed n (k r)) :
      Orderly owed n (.perform (.reserveClass d.home d.name) (d.reserved init k))
  /-- The class that is owed is completed. -/
  | complete {c : Pending} {n : Nat} :
      Orderly (some c) n (.perform (.completeClass c.home c.name c.parent c.table) Definition.completed)

/-- More runtimes do no harm. -/
theorem Prog.Orderly.mono {owed n n'} (hn : n ≤ n') {p : Prog} (h : p.Orderly owed n) : p.Orderly owed n' := by
  induction h generalizing n' with
  | finish o => exact .finish o
  | panic p => exact .panic p
  | observe next _ => exact .observe fun t w hs hle => next t w hs (Nat.le_trans hn hle)
  | perform free _ ih => exact .perform free fun a => ih a hn
  | await _ ih => exact .await fun b => ih b hn
  | call _ ih => exact .call fun r => ih r hn
  | guard _ _ ih ih' => exact .guard (ih hn) fun o => ih' o hn
  | spawn _ ih => exact .spawn (ih hn)
  | pause _ ih => exact .pause (ih hn)
  | shareNull _ ih => exact .shareNull fun o => ih o hn
  | define named seen _ _ ih ih' =>
    exact .define named (Nat.lt_of_lt_of_le seen hn) (fun parent table => ih parent table hn) fun r => ih' r hn
  | complete => exact .complete

/-! ## Operations -/

/-- An operation that is orderly where `b` runtimes were seen: its program is orderly if what follows it
is, whatever the result. -/
class Op.Orderly (b : Nat) {α : Type} (x : Op α) : Prop where
  run : ∀ {owed : Option Pending} {n : Nat} {k : Except Err α → Prog}, b ≤ n →
    (∀ r, (k r).Orderly owed n) → (x k).Orderly owed n

/-- An orderly operation that never results in an error. -/
class Op.Steady (b : Nat) {α : Type} (x : Op α) : Prop where
  run : ∀ {owed : Option Pending} {n : Nat} {k : Except Err α → Prog}, b ≤ n →
    (∀ a, (k (.ok a)).Orderly owed n) → (x k).Orderly owed n

namespace Op

variable {b n : Nat} {α β : Type} {c : Prop}

instance (priority := low) Steady.orderly {x : Op α} [hx : Steady b x] : Orderly b x :=
  ⟨fun hn hk => hx.run hn fun a => hk (.ok a)⟩

/-! ### Operations without errors -/

instance steady_pure (a : α) : Steady b (pure a : Op α) := ⟨fun _ hk => hk a⟩

instance steady_panic (p : Panic) : Steady b (panic p : Op α) := ⟨fun _ _ => .panic p⟩

instance steady_defect (d : Defect) : Steady b (defect d : Op α) := steady_panic _

instance steady_ofPanic (r : Except Panic α) : Steady b (ofPanic r) := by
  cases r with
  | ok a => exact steady_pure a
  | error p => exact steady_panic p

instance steady_observe (f : World → α) : Steady b (observe f) :=
  ⟨fun _ hk => .observe fun _ _ _ hle => (hk _).mono hle⟩

instance steady_task : Steady b task := ⟨fun _ hk => .observe fun _ _ _ hle => (hk _).mono hle⟩

instance steady_perform {i : Instr} [hi : Evident i.IsFree] : Steady (α := no_index i.Answer) b (perform i) :=
  ⟨fun _ hk => .perform hi.holds fun _ => hk _⟩

instance steady_await (c : Condition) (bound : Option Expiry) : Steady b (await c bound) :=
  ⟨fun _ hk => .await fun _ => hk _⟩

instance steady_pause : Steady b pause := ⟨fun _ hk => .pause (hk ())⟩

instance steady_spawn (o : ObjId) : Steady b (spawn o) := ⟨fun _ hk => .spawn (hk ())⟩

instance steady_bind {x : Op α} {f : α → Op β} [hx : Steady b x] [hf : ∀ a, Steady b (f a)] :
    Steady b (x >>= f) := ⟨fun hn hk => hx.run hn fun a => (hf a).run hn hk⟩

theorem Steady.bind {x : Op α} {f : α → Op β} (_ : Steady b x) (_ : ∀ a, Steady b (f a)) :
    Steady b (x >>= f) := steady_bind

/-- What may err is steady once its errors are results. -/
instance steady_result {x : Op α} [hx : Orderly b x] : Steady b (result x) :=
  ⟨fun hn hk => hx.run hn fun r => hk r⟩

/-! ### Operations that may err -/

instance orderly_throw (e : Err) : Orderly b (throw e : Op α) := ⟨fun _ hk => hk (.error e)⟩

instance orderly_fault (f : Fault) : Orderly b (fault f : Op α) := orderly_throw _

instance orderly_ofExcept (r : Except Err α) : Orderly b (ofExcept r) := ⟨fun _ hk => hk r⟩

instance orderly_ofFault (r : Except Fault α) : Orderly b (ofFault r) := by
  cases r with
  | ok a => exact (steady_pure a).orderly
  | error f => exact orderly_fault f

instance orderly_ofStop (r : Except Stop α) : Orderly b (ofStop r) := by
  rcases r with (e | p) | a
  · exact orderly_throw e
  · exact (steady_panic p).orderly
  · exact (steady_pure a).orderly

instance orderly_call (a : Activation) : Orderly b (call a) := ⟨fun _ hk => .call hk⟩

instance orderly_bind {x : Op α} {f : α → Op β} [hx : Orderly b x] [hf : ∀ a, Orderly b (f a)] :
    Orderly b (x >>= f) := by
  refine ⟨fun hn hk => hx.run hn fun r => ?_⟩
  cases r with
  | ok a => exact (hf a).run hn hk
  | error e => exact hk (.error e)

theorem Orderly.bind {x : Op α} {f : α → Op β} (_ : Orderly b x) (_ : ∀ a, Orderly b (f a)) :
    Orderly b (x >>= f) := orderly_bind

/-- After a look at the state all of its runtimes were seen. -/
theorem Orderly.observe_bind {f : World → α} {g : α → Op β}
    (hg : ∀ w : World, w.Sound → b ≤ w.runtimes.size → Orderly w.runtimes.size (g (f w))) :
    Orderly b (observe f >>= g) := by
  refine ⟨fun hn hk => .observe fun _ w hs hle => ?_⟩
  exact (hg w hs (Nat.le_trans hn hle)).run (Nat.le_refl _) fun r => (hk r).mono hle

instance orderly_ite {c : Prop} [Decidable c] {x y : Op α} [hx : Orderly b x] [hy : Orderly b y] :
    Orderly b (if c then x else y) := by
  split
  · exact hx
  · exact hy

theorem Orderly.ite [Decidable c] {x y : Op α} (_ : Orderly b x) (_ : Orderly b y) :
    Orderly b (if c then x else y) := orderly_ite

/-- What has to be ruled out first. -/
theorem Orderly.unless [Decidable c] {x : Op β} {y : Op α} (_ : Orderly b x) (_ : Orderly b y) :
    Orderly b (if c then x >>= fun _ => y else y) := orderly_ite

theorem orderly_toProg {x} (hx : Orderly b x) (hn : b ≤ n) : x.toProg.Orderly none n := by
  refine hx.run hn fun r => ?_
  cases r <;> exact .finish _

theorem orderly_toProgUnit {x} (hx : Orderly b x) (hn : b ≤ n) : x.toProgUnit.Orderly none n :=
  orderly_toProg (x := do x; return .null) inferInstance hn

instance steady_guard {x : Op Unit} [hx : Orderly b x] : Steady b (guard x) :=
  ⟨fun hn hk => .guard (orderly_toProgUnit hx hn) fun _ => hk _⟩

/-! ### Definitions -/

/-- **A definition is orderly if its runtime exists and its initialiser never errs.** -/
theorem orderly_defineClass {home} (hhome : ∀ r ∈ home, r < b) {name : Bytes} {superclass : Option Class} {init}
    (hinit : ∀ t, Steady b (init t)) : Orderly b (defineClass home name superclass init) := by
  refine ⟨fun {owed n k} hn hk => ?_⟩
  cases home with
  | none => exact .panic _
  | some r =>
    by_cases hname : name = []
    · subst hname
      exact hk (.error _)
    · rw [show defineClass (some r) name superclass init k = _ from
        Definition.defineClass_eq ⟨r, name, superclass⟩ hname init k]
      have hseen : r < n := Nat.lt_of_lt_of_le (hhome r rfl) hn
      exact .define hname hseen (fun parent table => (hinit table).run hn fun _ => .complete) hk

end Op

end ObjectKernel
