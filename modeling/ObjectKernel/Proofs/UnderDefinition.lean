import ObjectKernel.Proofs.Accounts
import ObjectKernel.Proofs.ClassEntries
import ObjectKernel.Proofs.OrderlyScripts

/-!
# Classes under definition

A name that is under definition is in the hands of the task that reserved it, and no other task touches its
entry. The task has it in hand as a fresh key until it enters the initialiser, then as the key of a level of
its frames, since an initialiser may define further classes, and so on. It lets go of the key at the turn
that gives the entry its final state.

Which keys a task has in hand can be told from its turns alone. The invariant says that every task stands at
a point of its program where it has them in hand, that their entries are all under definition, and that no
key is in two places.

## Contents

* `Hand`, `Hand.after`, `Prog.initialises?`: the keys in hand, and what a turn does to them.
* `Levels`, `Stands`: where a task stands that keeps the order, down to a base. `Stands.goes`: one turn.
* `Handles`, `Stands.handles`: what a turn does to the entries in hand, and to all others.
* `Machine.Tidy`, `Machine.Tidy.take`, `Machine.Begins`, `Machine.Begins.tidy`: the invariant of runs.
-/

namespace ObjectKernel

open World Function

/-! ## Keys in hand -/

/-- The key of a definition. -/
def Definition.key (d : Definition) : ClassKey := (d.home, d.name)

/-- The keys of the names that a task has under definition: one that it has reserved, and those whose
classes it initialises, the innermost first. -/
structure Hand where
  fresh : Option ClassKey := none
  entered : List ClassKey := []

namespace Hand

/-- All the keys. -/
def held (h : Hand) : List ClassKey := h.fresh.toList ++ h.entered

/-- The hand without its first key. -/
def release (h : Hand) : Hand :=
  match h.fresh with
  | some _ => { h with fresh := none }
  | none => { h with entered := h.entered.tail }

/-- The hand after an initialiser was entered. -/
def enter (h : Hand) : Option ClassKey → Hand
  | some key => { entered := key :: h.entered }
  | none => h

end Hand

/-- The class whose initialiser a program is about to enter: the one that is abandoned if the section that
it enters ends in a panic. -/
def Prog.initialises? : Prog → Option ClassKey
  | .guard _ k =>
    match k (.panic (.text [])) with
    | .perform (.settleClass home name .abandoned) _ => some (home, name)
    | _ => none
  | _ => none

/-- What a turn does to the hand of its task. -/
def Hand.after (w : World) (h : Hand) : Prog → Hand
  | .perform (.reserveClass home name) _ =>
    if (w.reserveClass home name).1 then { h with fresh := some (home, name) } else h
  | .perform (.completeClass home name parent table) _ =>
    match (w.completeClass home name parent table).1 with
    | .ok _ => h.release
    | .error _ => h
  | .perform (.settleClass ..) _ => h.release
  | .guard body k => h.enter (Prog.guard body k).initialises?
  | _ => h

theorem Hand.after_of_free {i : Instr} (hi : i.IsFree) (w : World) (h : Hand) (k : i.Answer → Prog) :
    h.after w (.perform i k) = h := by
  cases i with
  | reserveClass | completeClass | settleClass => exact hi.elim
  | _ => rfl

/-- A section of which every end is followed by an orderly program is no initialiser. -/
theorem initialises?_of_orderly {owed n} (body : Prog) {k} (h : ∀ o, (k o).Orderly owed n) :
    (Prog.guard body k).initialises? = none := by
  have hpanic := h (.panic (.text []))
  simp only [Prog.initialises?]
  split
  · rename_i home name k' heq
    rw [heq] at hpanic
    cases hpanic with
    | perform free => exact free.elim
  · rfl

/-! ## Where a task stands -/

/-- What a definition may go on with as its superclass. -/
def Definition.Accepts (d : Definition) (parent : Option Class) : Prop :=
  ∀ p, d.superclass = some p → parent = some p

/-- The points of a definition between the reservation and the initialiser. -/
inductive Definition.Early (d : Definition) (init : TableId → Op Unit)
    (k : Except Err (Class × Bool) → Prog) : Prog → Prop where
  | deciding : Early d init k (d.deciding init k)
  | refusing (f : Fault) : Early d init k (d.refusing f k)
  | opening {parent : Option Class} (accepts : d.Accepts parent) : Early d init k (d.opening init parent k)
  | building {parent : Option Class} (accepts : d.Accepts parent) (table : TableId) :
      Early d init k (d.building init parent k table)

/-- What lies below some frames of a task: what is owed there, the frames, and the keys in hand. -/
abbrev Base := Option Pending → List Frame → List ClassKey → Prop

/-- The frames of a task that keeps the order, from the innermost one, which owes a class or none, down to
a base. A level either follows a section or a call, or it is that of a class that is initialised. -/
inductive Levels (B : Base) (n : Nat) : Option Pending → List Frame → List ClassKey → Prop where
  | base {owed : Option Pending} {fs : List Frame} {keys : List ClassKey} (base : B owed fs keys) :
      Levels B n owed fs keys
  | frame {owed : Option Pending} {f : Frame} {fs : List Frame} {keys : List ClassKey}
      (resumes : ∀ o, (f.resume o).Orderly owed n) (rest : Levels B n owed fs keys) :
      Levels B n none (f :: fs) keys
  | initialising {owed : Option Pending} {d : Definition} {k : Except Err (Class × Bool) → Prog}
      {parent : Option Class} {table : TableId} {fs : List Frame} {keys : List ClassKey}
      (next : ∀ r, (k r).Orderly owed n) (rest : Levels B n owed fs keys) :
      Levels B n (some (d.pending parent table)) (.guard (d.ended k) :: fs) (d.key :: keys)

/-- Where a task stands that keeps the order, and what it has in hand there. -/
inductive Stands (B : Base) (n : Nat) : Prog → List Frame → Hand → Prop where
  | orderly {owed : Option Pending} {p : Prog} {fs : List Frame} {keys : List ClassKey}
      (orderly : p.Orderly owed n) (levels : Levels B n owed fs keys) : Stands B n p fs { entered := keys }
  /-- A name is reserved, and its class is not initialised yet. -/
  | early {owed : Option Pending} {d : Definition} {init : TableId → Op Unit}
      {k : Except Err (Class × Bool) → Prog} {p : Prog} {fs : List Frame} {keys : List ClassKey}
      (point : d.Early init k p)
      (inner : ∀ parent table, (init table (d.completing parent table)).Orderly
        (some (d.pending parent table)) n)
      (next : ∀ r, (k r).Orderly owed n) (levels : Levels B n owed fs keys) :
      Stands B n p fs { fresh := some d.key, entered := keys }
  /-- The class is there, and the section of its initialiser ends. -/
  | closing {owed : Option Pending} {d : Definition} {k : Except Err (Class × Bool) → Prog} (x : Value)
      {fs : List Frame} {keys : List ClassKey} (next : ∀ r, (k r).Orderly owed n)
      (levels : Levels B n owed fs keys) :
      Stands B n (.finish (.value x)) (.guard (d.ended k) :: fs) { entered := keys }
  /-- The initialiser has ended in a panic. -/
  | abandoning {owed : Option Pending} (d : Definition) (k : Except Err (Class × Bool) → Prog) (x : Panic)
      {fs : List Frame} {keys : List ClassKey} (levels : Levels B n owed fs keys) :
      Stands B n (d.ended k (.panic x)) fs { entered := d.key :: keys }

/-- A turn with which a task leaves its base: it ends there, or it completes the class that is owed. -/
inductive Leaves (B : Base) (n : Nat) (w : World) : Prog → List Frame → Hand → Prop where
  | ending {owed : Option Pending} {o : Outcome} {fs : List Frame} {keys : List ClassKey}
      (base : B owed fs keys) (orderly : (Prog.finish o).Orderly owed n) :
      Leaves B n w (.finish o) fs { entered := keys }
  | completing {c : Pending} {cls : Class} {fs : List Frame} {keys : List ClassKey}
      (base : B (some c) fs keys) (ok : (w.completeClass c.home c.name c.parent c.table).1 = .ok cls) :
      Leaves B n w (.perform (.completeClass c.home c.name c.parent c.table) Definition.completed) fs
        { entered := keys }

section

variable {B : Base} {n n' : Nat} {owed : Option Pending} {fs gs : List Frame} {keys keys' : List ClassKey}
  {p q : Prog} {h : Hand} {w v : World} {id : TaskId} {d : Definition} {expired : Bool} {key : ClassKey}

theorem Levels.mono (hn : n ≤ n') (hl : Levels B n owed fs keys) : Levels B n' owed fs keys := by
  induction hl with
  | base base => exact .base base
  | frame resumes _ ih => exact .frame (fun o => (resumes o).mono hn) ih
  | initialising next _ ih => exact .initialising (fun r => (next r).mono hn) ih

theorem Stands.mono (hn : n ≤ n') (hp : Stands B n p fs h) : Stands B n' p fs h := by
  cases hp with
  | orderly orderly levels => exact .orderly (orderly.mono hn) (levels.mono hn)
  | early point inner next levels =>
    exact .early point (fun parent table => (inner parent table).mono hn)
      (fun r => (next r).mono hn) (levels.mono hn)
  | closing x next levels => exact .closing x (fun r => (next r).mono hn) (levels.mono hn)
  | abandoning d k x levels => exact .abandoning d k x (levels.mono hn)

/-- What follows a class that is settled. -/
theorem orderly_concluding (d : Definition) (b : Bool) {k} (hk : ∀ r, (k r).Orderly owed n) :
    (d.concluding b k).Orderly owed n :=
  .observe fun _ _ _ hle => (hk _).mono hle

theorem accepts_of_accept {t : ClassTable} {parent} (h : t.accept d.name d.superclass = .ok parent) :
    d.Accepts parent := by
  intro p hp
  simp only [ClassTable.accept, hp] at h
  split at h
  · exact (Except.ok.inj h).symm
  · cases h

/-! ### One turn -/

/-- An orderly program performs an instruction. -/
theorem stands_perform (i : Instr) {k} (hp : (Prog.perform i k).Orderly owed n) (levels : Levels B n owed fs keys) :
    Stands B n (k (i.exec id w).1) fs (Hand.after w { entered := keys } (.perform i k)) ∨
      Leaves B n w (.perform i k) fs { entered := keys } := by
  cases hp with
  | perform free next =>
    rw [Hand.after_of_free free]
    exact .inl (.orderly (next _) levels)
  | shareNull next => exact .inl (.orderly (.perform trivial next) levels)
  | @define _ _ d init k named seen inner next =>
    left
    simp only [Hand.after]
    show Stands B n (d.reserved init k (w.reserveClass d.home d.name).1) fs _
    cases hgranted : (w.reserveClass d.home d.name).1 with
    | true => exact .early .deciding inner next levels
    | false => exact .orderly (.await fun _ => orderly_concluding d false next) levels
  | @complete c =>
    simp only [Hand.after]
    show Stands B n (Definition.completed (w.completeClass c.home c.name c.parent c.table).1) fs _ ∨ _
    cases hcompleted : (w.completeClass c.home c.name c.parent c.table).1 with
    | error x => exact .inl (.orderly (.panic x) levels)
    | ok cls =>
      cases levels with
      | base base => exact .inr (.completing base hcompleted)
      | initialising next rest => exact .inl (.closing _ next rest)

/-- **One turn of a task that keeps the order.** -/
theorem Stands.goes (hs : w.Sound) (hcall : ∀ a k, p = .call a k → a.program.Orderly none w.runtimes.size)
    (hp : Stands B w.runtimes.size p fs h) (hgo : Goes id w expired p fs v q gs) :
    Stands B w.runtimes.size q gs (h.after w p) ∨ Leaves B w.runtimes.size w p fs h := by
  cases hp with
  | @orderly owed _ _ keys orderly levels =>
    cases hgo with
    | resume o f fs =>
      cases levels with
      | base base => exact .inr (.ending base orderly)
      | frame resumes rest => exact .inl (.orderly (resumes o) rest)
      | @initialising _ d k parent table _ _ next rest =>
        -- A program that owes a class ends in a panic only.
        cases orderly with
        | panic x => exact .inl (.abandoning d k x rest)
    | observe f =>
      cases orderly with
      | observe next => exact .inl (.orderly (next id w hs (Nat.le_refl _)) levels)
    | perform i k => exact stands_perform i orderly levels
    | await holds bound k =>
      cases orderly with
      | await next => exact .inl (.orderly (next true) levels)
    | expire c e k =>
      cases orderly with
      | await next => exact .inl (.orderly (next false) levels)
    | call a k =>
      cases orderly with
      | call next =>
        refine .inl (.orderly (hcall a k rfl) (.frame (fun o => ?_) levels))
        cases o with
        | value x => exact next _
        | error e => exact next _
        | panic x => exact .panic x
    | guard body k =>
      cases orderly with
      | guard inner next =>
        simp only [Hand.after]
        rw [initialises?_of_orderly _ next]
        exact .inl (.orderly inner (.frame next levels))
    | pause k =>
      cases orderly with
      | pause next => exact .inl (.orderly next levels)
  | @early owed d init k _ _ keys point inner next levels =>
    left
    cases point with
    | deciding =>
      cases hgo with
      | observe =>
        show Stands B _ (d.decided init k ((w.classes d.home).accept d.name d.superclass)) fs _
        cases haccept : (w.classes d.home).accept d.name d.superclass with
        | error f => exact .early (.refusing f) inner next levels
        | ok parent => exact .early (.opening (accepts_of_accept haccept)) inner next levels
    | refusing f =>
      cases hgo with
      | perform => exact .orderly (orderly_concluding d true next) levels
    | opening accepts =>
      cases hgo with
      | perform => exact .early (.building accepts _) inner next levels
    | building accepts table =>
      cases hgo with
      | guard => exact .orderly (inner _ table) (.initialising next levels)
  | closing x next levels =>
    left
    cases hgo with
    | resume => exact .orderly (orderly_concluding _ true next) levels
  | abandoning d k x levels =>
    left
    cases hgo with
    | perform => exact .orderly (.panic x) levels

/-- A task that starts another one. -/
theorem Stands.spawn {o k} (hp : Stands B n (.spawn o k) fs h) : Stands B n k fs h := by
  cases hp with
  | orderly orderly levels =>
    cases orderly with
    | spawn next => exact .orderly next levels
  | early point => cases point

/-! ## What a turn does to entries -/

/-- The base of a task: nothing is owed, and nothing is below. -/
def Bottom : Base := fun owed fs keys => owed = none ∧ fs = [] ∧ keys = []

/-- What a turn does to entries, with the keys in hand before and after it: it leaves all entries that are
there alone, and may take a name that has none in hand, or it settles the first key and lets go of it. -/
inductive Handles (w v : World) : List ClassKey → List ClassKey → Prop where
  | keep {keys : List ClassKey} (keeps : w.KeepsEntries v) : Handles w v keys keys
  | reserve {key : ClassKey} {keys : List ClassKey} (named : key.2 ≠ []) (free : w.entryOf? key = none)
      (building : v.entryOf? key = some .building) (keeps : w.KeepsEntries v) :
      Handles w v keys (key :: keys)
  | settle {key : ClassKey} {keys : List ClassKey} {e : ClassEntry} (final : e.isFinal)
      (entry : v.entryOf? key = some e) (others : ∀ x, x ≠ key → v.entryOf? x = w.entryOf? x) :
      Handles w v (key :: keys) keys

theorem handles_settleClass (h : w.entryOf? d.key = some .building) {e : ClassEntry} (he : e.isFinal)
    (keys : List ClassKey) : Handles w (w.settleClass d.home d.name e) (d.key :: keys) keys :=
  .settle he (entryOf?_settleClass_self h e) fun _ hne => entryOf?_settleClass_of_ne hne w e

theorem isEnding_of_isFree {i : Instr} (h : i.IsFree) : i.isEnding = false := by
  cases i with
  | completeClass | settleClass => exact h.elim
  | _ => rfl

/-- An orderly program of a task performs an instruction. -/
theorem handles_perform (i : Instr) {k} (hp : (Prog.perform i k).Orderly owed w.runtimes.size)
    (levels : Levels Bottom w.runtimes.size owed fs keys) (hheld : ∀ key ∈ keys, w.entryOf? key = some .building) :
    Handles w (i.exec id w).2 keys (Hand.after w { entered := keys } (.perform i k)).held := by
  cases hp with
  | perform free next =>
    rw [Hand.after_of_free free]
    exact .keep (Instr.exec_keepsEntries id w (isEnding_of_isFree free))
  | shareNull next => exact .keep (Instr.exec_keepsEntries id w rfl)
  | @define _ _ d init k named seen inner next =>
    simp only [Hand.after]
    show Handles w (w.reserveClass d.home d.name).2 keys _
    cases hentry : w.entryOf? d.key with
    | some e =>
      rw [reserveClass_taken hentry]
      exact .keep (keepsEntries_refl w)
    | none =>
      have hgranted : (w.reserveClass d.home d.name).1 = true := by rw [reserveClass_free hentry]
      rw [hgranted]
      exact .reserve named hentry (entryOf?_reserveClass_self (has_of_lt seen) hentry)
        (Instr.exec_keepsEntries id w (i := .reserveClass d.home d.name) rfl)
  | @complete c =>
    simp only [Hand.after]
    show Handles w (w.completeClass c.home c.name c.parent c.table).2 keys _
    rcases w.completeClass_cases c.home c.name c.parent c.table with ⟨x, heq⟩ | ⟨methods, heq⟩
    · rw [heq]
      exact .keep fun key e he => (entryOf?_completeTable w c.table key).trans he
    · rw [heq]
      cases levels with
      | base base => cases base.1
      | @initialising _ d _ _ _ _ keys next rest =>
        have hbuilding := hheld d.key List.mem_cons_self
        rw [← entryOf?_completeTable w] at hbuilding
        refine .settle rfl (entryOf?_settleClass_self hbuilding _) fun x hne => ?_
        exact (entryOf?_settleClass_of_ne hne _ _).trans (entryOf?_completeTable w _ x)

/-- **One turn and the entries**: those in hand, and all others. -/
theorem Stands.handles (hp : Stands Bottom w.runtimes.size p fs h)
    (hheld : ∀ key ∈ h.held, w.entryOf? key = some .building) (hgo : Goes id w expired p fs v q gs) :
    Handles w v h.held (h.after w p).held := by
  have hsame : Handles w w h.held h.held := .keep (keepsEntries_refl w)
  cases hp with
  | orderly orderly levels =>
    cases hgo with
    | perform i k => exact handles_perform i orderly levels hheld
    | guard body k =>
      cases orderly with
      | guard inner next =>
        simp only [Hand.after]
        rw [initialises?_of_orderly _ next]
        exact hsame
    | resume | observe | await | expire | call | pause => exact hsame
  | @early owed d init k _ _ keys point inner next levels =>
    have hbuilding := hheld d.key List.mem_cons_self
    cases point with
    | deciding =>
      cases hgo with
      | observe => exact hsame
    | refusing f =>
      cases hgo with
      | perform => exact handles_settleClass hbuilding rfl keys
    | opening accepts =>
      cases hgo with
      | perform => exact .keep (keepsEntries_of_runtimes rfl)
    | building accepts table =>
      cases hgo with
      | guard => exact hsame
  | closing x next levels =>
    cases hgo with
    | resume => exact hsame
  | @abandoning owed d k x _ keys levels =>
    cases hgo with
    | perform => exact handles_settleClass (hheld d.key List.mem_cons_self) rfl keys

/-- A program that enters an initialiser has its key in hand, fresh. -/
theorem Stands.fresh_of_initialises (hp : Stands B n p fs h) (hkey : p.initialises? = some key) :
    h.fresh = some key := by
  cases hp with
  | orderly orderly levels =>
    cases orderly with
    | guard inner next =>
      rw [initialises?_of_orderly _ next] at hkey
      cases hkey
    | _ => cases hkey
  | early point =>
    cases point with
    | building accepts table => exact hkey
    | deciding | refusing | opening => cases hkey
  | closing => cases hkey
  | abandoning => cases hkey

/-- A key that is fresh after a turn was so before, or its name was free. -/
theorem Hand.fresh_after (hkey : (h.after w p).fresh = some key) :
    (h.fresh = some key ∧ p.initialises? = none) ∨ w.entryOf? key = none := by
  have hrelease : h.release.fresh = none := by
    unfold Hand.release
    split
    · rfl
    · assumption
  unfold Hand.after at hkey
  split at hkey
  · rename_i home name k
    split at hkey
    · rename_i hgranted
      cases hkey
      right
      cases hentry : w.entryOf? (home, name) with
      | none => rfl
      | some e =>
        rw [reserveClass_taken hentry] at hgranted
        cases hgranted
    · exact .inl ⟨hkey, rfl⟩
  · split at hkey
    · cases hrelease.symm.trans hkey
    · exact .inl ⟨hkey, rfl⟩
  · cases hrelease.symm.trans hkey
  · rename_i body k
    cases hinit : (Prog.guard body k).initialises? with
    | none =>
      rw [hinit] at hkey
      exact .inl ⟨hkey, rfl⟩
    | some x =>
      rw [hinit] at hkey
      cases hkey
  · refine .inl ⟨hkey, ?_⟩
    rename_i hguard
    cases p with
    | guard body k => exact absurd rfl (hguard body k)
    | _ => rfl

/-- Only a name in hand is settled. -/
theorem Handles.mem_of_settled (h : Handles w v keys keys') (hold : w.entryOf? key = some .building)
    (hnew : v.entryOf? key ≠ some .building) : key ∈ keys := by
  cases h with
  | keep keeps => exact absurd (keeps _ _ hold) hnew
  | reserve named free building keeps => exact absurd (keeps _ _ hold) hnew
  | @settle x _ _ final entry others =>
    by_cases hx : key = x
    · rw [hx]
      exact List.mem_cons_self
    · exact absurd ((others key hx).trans hold) hnew

/-- A name that has an entry keeps one. -/
theorem Handles.isSome (h : Handles w v keys keys') (hkey : (w.entryOf? key).isSome) : (v.entryOf? key).isSome := by
  obtain ⟨e, he⟩ := Option.isSome_iff_exists.mp hkey
  cases h with
  | keep keeps => rw [keeps key e he]; rfl
  | reserve named free building keeps => rw [keeps key e he]; rfl
  | @settle x _ e' final entry others =>
    by_cases hx : key = x
    · rw [hx, entry]
      rfl
    · rw [others key hx]
      exact hkey

end

/-! ## Machines -/

namespace Machine

variable {m n : Machine} {hand : Nat → Hand} {τ : Turn} {t : Task} {p : Prog} {fs : List Frame} {i : Nat}
  {v w : World} {a : Activation}

/-- What a turn does to the hands of all tasks. -/
def handsAfter (m : Machine) (hand : Nat → Hand) (τ : Turn) : Nat → Hand :=
  match m.tasks[τ.task]? with
  | some t => update hand τ.task ((hand τ.task).after m.world t.prog)
  | none => hand

theorem handsAfter_self (ht : m.tasks[τ.task]? = some t) :
    m.handsAfter hand τ τ.task = (hand τ.task).after m.world t.prog := by
  unfold handsAfter
  rw [ht]
  exact update_self ..

theorem handsAfter_of_at (hat : m.At τ.task p fs) : m.handsAfter hand τ τ.task = (hand τ.task).after m.world p := by
  obtain ⟨t, ht, rfl, -⟩ := hat
  exact handsAfter_self ht

theorem handsAfter_of_ne (h : τ.task ≠ i) : m.handsAfter hand τ i = hand i := by
  unfold handsAfter
  cases m.tasks[τ.task]? with
  | some t => exact update_of_ne (Ne.symm h) ..
  | none => rfl

/-- A machine whose tasks keep the order and have these keys in hand. -/
structure Tidy (m : Machine) (hand : Nat → Hand) : Prop where
  stands : ∀ {i t}, m.tasks[i]? = some t →
    Stands Bottom m.world.runtimes.size t.prog t.frames (hand i)
  building : ∀ {i key}, key ∈ (hand i).held → m.world.entryOf? key = some .building
  named : ∀ {i key}, key ∈ (hand i).held → key.2 ≠ []
  nodup : ∀ i, (hand i).held.Nodup
  apart : ∀ {i j key}, key ∈ (hand i).held → key ∈ (hand j).held → i = j
  idle : ∀ {i}, m.tasks.size ≤ i → hand i = {}

/-- What the hands have to meet after one of them handled entries. -/
theorem Tidy.handled (h : m.Tidy hand) {j} {h' : Hand} (hh : Handles m.world v (hand j).held h'.held) :
    (∀ {i key}, key ∈ (update hand j h' i).held → v.entryOf? key = some .building ∧ key.2 ≠ []) ∧
      (∀ i, (update hand j h' i).held.Nodup) ∧ ∀ {i i' key}, key ∈ (update hand j h' i).held →
        key ∈ (update hand j h' i').held → i = i' := by
  generalize hold : (hand j).held = old at hh
  generalize hnew : h'.held = new at hh
  have hnodup : old.Nodup := hold ▸ h.nodup j
  -- What is in the new hand was in the old one, or had no entry.
  have hself : ∀ key ∈ new, (key ∈ old ∨ m.world.entryOf? key = none) ∧
      v.entryOf? key = some .building ∧ key.2 ≠ [] := by
    intro key hkey
    have hbuilding (hmem : key ∈ old) : m.world.entryOf? key = some .building :=
      h.building (i := j) (hold ▸ hmem)
    have hnamed (hmem : key ∈ old) : key.2 ≠ [] := h.named (i := j) (hold ▸ hmem)
    cases hh with
    | keep keeps => exact ⟨.inl hkey, keeps _ _ (hbuilding hkey), hnamed hkey⟩
    | reserve named free building keeps =>
      rcases List.mem_cons.mp hkey with rfl | hmem
      · exact ⟨.inr free, building, named⟩
      · exact ⟨.inl hmem, keeps _ _ (hbuilding hmem), hnamed hmem⟩
    | @settle x _ _ final entry others =>
      have hmem := List.mem_cons_of_mem x hkey
      refine ⟨.inl hmem, ?_, hnamed hmem⟩
      rw [others key fun heq => (List.nodup_cons.mp hnodup).1 (heq ▸ hkey)]
      exact hbuilding hmem
  have hapart : ∀ {i key}, i ≠ j → key ∈ (hand i).held → key ∉ new := by
    intro i key hi hkey hmem
    rcases (hself key hmem).1 with hheld | hfree
    · exact hi (h.apart hkey (hold ▸ hheld))
    · cases (h.building hkey).symm.trans hfree
  have hother : ∀ {i key}, i ≠ j → key ∈ (hand i).held → v.entryOf? key = some .building := by
    intro i key hi hkey
    have hbuilding := h.building hkey
    cases hh with
    | keep keeps => exact keeps _ _ hbuilding
    | reserve named free building keeps => exact keeps _ _ hbuilding
    | settle final entry others =>
      rw [others key fun heq => hi (h.apart hkey (hold ▸ heq ▸ List.mem_cons_self))]
      exact hbuilding
  have hnodup' : new.Nodup := by
    cases hh with
    | keep keeps => exact hnodup
    | reserve named free building keeps =>
      refine List.nodup_cons.mpr ⟨fun hmem => ?_, hnodup⟩
      cases (h.building (i := j) (hold ▸ hmem)).symm.trans free
    | settle final entry others => exact (List.nodup_cons.mp hnodup).2
  refine ⟨fun {i key} hkey => ?_, fun i => ?_, fun {i i' key} hkey hkey' => ?_⟩
  · by_cases hi : i = j
    · subst hi
      rw [update_self, hnew] at hkey
      exact (hself key hkey).2
    · rw [update_of_ne hi] at hkey
      exact ⟨hother hi hkey, h.named hkey⟩
  · by_cases hi : i = j
    · subst hi
      rwa [update_self, hnew]
    · rw [update_of_ne hi]
      exact h.nodup i
  · by_cases hi : i = j
    · by_cases hi' : i' = j
      · rw [hi, hi']
      · rw [hi, update_self, hnew] at hkey
        rw [update_of_ne hi'] at hkey'
        exact absurd hkey (hapart hi' hkey')
    · rw [update_of_ne hi] at hkey
      by_cases hi' : i' = j
      · rw [hi', update_self, hnew] at hkey'
        exact absurd hkey' (hapart hi hkey)
      · rw [update_of_ne hi'] at hkey'
        exact h.apart hkey hkey'

/-- What is called is orderly. -/
theorem orderly_of_allowed (h : a.Allowed w) : a.program.Orderly none w.runtimes.size := by
  refine Op.orderly_activation fun home body self args heq => ?_
  subst heq
  exact h.lt

theorem Reachable.orderly_call (hm : m.Reachable) (ht : m.tasks[i]? = some t) {k} (hp : t.prog = .call a k) :
    a.program.Orderly none m.world.runtimes.size := by
  obtain ⟨stage, hg⟩ := hm.governed
  have hsits := hg.task ht
  rw [hp] at hsits
  exact orderly_of_allowed hsits.allowed_of_call

/-- At the bottom there is nothing to leave. -/
theorem not_leaves_bottom {id expired q gs} {h : Hand} {k : Nat} (hgo : Goes id w expired p fs v q gs) :
    ¬ Leaves Bottom k w p fs h := by
  rintro (⟨base, orderly⟩ | ⟨base, ok⟩)
  · obtain ⟨-, rfl, -⟩ := base
    cases hgo
  · cases base.1

/-- **A turn keeps a machine tidy.** -/
theorem Tidy.take (hm : m.Reachable) (h : m.Tidy hand) (hτ : m.take τ = some n) : n.Tidy (m.handsAfter hand τ) := by
  have hle := size_runtimes_le (hm.le_take hτ)
  obtain ⟨t, ht, hcases⟩ := take_cases hτ
  have hstands := h.stands ht
  have heq : m.handsAfter hand τ = update hand τ.task ((hand τ.task).after m.world t.prog) := by
    unfold handsAfter
    rw [ht]
  rw [heq]
  rcases hcases with ⟨v, q, fs, hgo, rfl⟩ | ⟨o, k, -, hspawn, rfl⟩
  · obtain ⟨hbuilding, hnodup, hapart⟩ := h.handled (hstands.handles (fun _ => h.building) hgo)
    refine ⟨fun {i u} hu => ?_, fun hkey => (hbuilding hkey).1, fun hkey => (hbuilding hkey).2, hnodup,
      hapart, fun {i} hi => ?_⟩
    · by_cases hi : i = τ.task
      · subst hi
        rw [task_put_self ht] at hu
        cases hu
        rw [update_self]
        have hcall (a : Activation) (k : Except Err Value → Prog) (hp : t.prog = .call a k) :=
          hm.orderly_call ht hp
        exact ((hstands.goes hm.sound hcall hgo).resolve_right (not_leaves_bottom hgo)).mono hle
      · rw [task_put_of_ne hi] at hu
        rw [update_of_ne hi]
        exact (h.stands hu).mono hle
    · rw [size_put] at hi
      rw [update_of_ne (Nat.ne_of_gt (Nat.lt_of_lt_of_le (lt_of_task ht) hi))]
      exact h.idle hi
  · -- The task goes on with nothing else in hand, and the new one begins with nothing.
    rw [hspawn] at hstands ⊢
    have hsame : update hand τ.task ((hand τ.task).after m.world (.spawn o k)) = hand :=
      update_eq_self ..
    rw [hsame]
    have hsize : (m.fork τ.task t o k).tasks.size = m.tasks.size + 1 := by
      simp [Machine.fork]
    refine ⟨fun {i u} hu => ?_, h.building, h.named, h.nodup, h.apart,
      fun {i} hi => h.idle (by omega)⟩
    by_cases hi : i = τ.task
    · subst hi
      rw [task_fork_self ht] at hu
      cases hu
      exact hstands.spawn
    · by_cases hlast : i = m.tasks.size
      · subst hlast
        rw [task_fork_last] at hu
        cases hu
        rw [h.idle (Nat.le_refl _)]
        exact .orderly (Op.orderly_activation (a := .thread o) nofun) (.base ⟨rfl, rfl, rfl⟩)
      · rw [task_fork_of_ne hi hlast] at hu
        exact h.stands hu

/-! ### Runs from the beginning -/

/-- A machine at the beginning whose tasks have orderly programs. -/
structure Begins (m : Machine) : Prop where
  initial : m.Initial
  orderly : ∀ {j : Nat} {t : Task}, m.tasks[j]? = some t → t.prog.Orderly none m.world.runtimes.size

/-- Tasks of the host that begin in a world with one runtime. -/
theorem begins_single {c : Config} {n : Nat} {ts : List Task} [Launch ts]
    (horderly : ∀ t ∈ ts, t.prog.Orderly none 1) : Begins { world := World.single c n, tasks := ts.toArray } := by
  refine ⟨initial_launch, fun {j t} ht => horderly t ?_⟩
  rw [List.getElem?_toArray] at ht
  exact List.mem_of_getElem? ht

/-- At the beginning nothing is in hand. -/
theorem Begins.tidy_initial (h : m.Begins) : m.Tidy fun _ => {} := by
  refine ⟨fun {i t} ht => ?_, nofun, nofun, fun _ => List.nodup_nil, nofun, fun _ => rfl⟩
  rw [(h.initial.task ht).1]
  exact .orderly (h.orderly ht) (.base ⟨rfl, rfl, rfl⟩)

/-- **A machine that can be reached from an orderly beginning is tidy.** -/
theorem Begins.tidy (h : m.Begins) (hrun : Run m n) : ∃ hand, n.Tidy hand := by
  induction hrun with
  | refl => exact ⟨_, h.tidy_initial⟩
  | tail run move ih =>
    obtain ⟨hand, hn⟩ := ih
    obtain ⟨τ, hτ⟩ := move_iff.mp move
    exact ⟨_, hn.take (h.initial.reachable.run run) hτ⟩

end Machine

/-- **Every scenario begins with orderly programs.** -/
theorem Scenario.begins (s : Scenario) {home w} (h : s.world.newRuntime s.config = .ok (home, w)) :
    (Machine.start (w.edit (.nameRuntime mainName home))
      (Script.main { home := some home } s.script).toProgUnit).Begins := by
  refine ⟨s.initial h, fun {j t} ht => ?_⟩
  obtain ⟨hlt, rfl⟩ := Array.getElem?_eq_some_iff.mp ht
  have h0 : j = 0 := Nat.lt_one_iff.mp hlt
  subst h0
  obtain ⟨rt, lockChecking, -, -, heq⟩ := World.newRuntime_ok h
  obtain ⟨rfl, rfl⟩ := Prod.mk.inj heq
  refine Op.orderly_toProgUnit (Op.orderly_main _ (fun r hr => ?_) s.script) (Nat.le_refl _)
  cases hr
  show s.world.runtimes.size < (s.world.runtimes.push rt).size
  rw [Array.size_push]
  exact Nat.lt_succ_self _

end ObjectKernel
