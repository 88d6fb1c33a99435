import ObjectKernel.Proofs.Calls

/-!
# The history of class definitions

A class is made of a method table, and a table takes methods until a class is made of it. So what a class
has of its own is what was added to its table, the last method for each selector, and this does not change
once the class is there.

## Contents

* `Made`, `Instr.made`: the events of a history, additions to tables and classes made of tables.
* `lastAdded`: the method that a table was last given for a selector.
* `World.KeepsClasses`: changes that leave tables and classes alone.
* `World.Recorded`: a world with its history. `World.Recorded.exec`: what an instruction does to it.
* `Machine.recorded_trace`: every world that can be reached is as its history says.
-/

namespace ObjectKernel

open World List

variable {w v : World} {i : Instr} {r : RuntimeId} {task : TaskId} {name : Bytes}

/-- An event of a class definition. -/
inductive Made where
  /-- A table takes a method. -/
  | added (table : TableId) (s : Selector) (arity : Int) (code : Code)
  /-- A class is made of a table. -/
  | defined (c : Class) (table : TableId)

/-- What an instruction does towards a class definition. -/
def Instr.made (w : World) : Instr → List Made
  | .addMethod table s arity code =>
    match w.addMethod table s arity code with
    | .ok _ => [.added table s arity code]
    | .error _ => []
  | .completeClass home name parent table =>
    match (w.completeClass home name parent table).1 with
    | .ok c => [.defined c table]
    | .error _ => []
  | _ => []

/-- What counts of a method when it is called. -/
def Method.callee (m : Method) : Int × Code := (m.arity, m.code)

/-- The method that an event adds to a table for a selector. -/
def Made.addition? (table : TableId) (s : Selector) : Made → Option (Int × Code)
  | .added t k arity code => if t = table ∧ k = s then some (arity, code) else none
  | .defined .. => none

/-- The method that was last added to a table for a selector. -/
def lastAdded (h : List Made) (table : TableId) (s : Selector) : Option (Int × Code) :=
  (h.filterMap (Made.addition? table s)).getLast?

theorem lastAdded_append (h h' : List Made) (table : TableId) (s : Selector) :
    lastAdded (h ++ h') table s = (lastAdded h' table s).or (lastAdded h table s) := by
  unfold lastAdded
  rw [filterMap_append, getLast?_append]

theorem lastAdded_defined (h : List Made) (c : Class) (t table : TableId) (s : Selector) :
    lastAdded (h ++ [.defined c t]) table s = lastAdded h table s := by
  rw [lastAdded_append]
  rfl

theorem lastAdded_added (h : List Made) (t table : TableId) (k s : Selector) (arity : Int) (code : Code) :
    lastAdded (h ++ [.added t k arity code]) table s =
      if t = table ∧ k = s then some (arity, code) else lastAdded h table s := by
  rw [lastAdded_append]
  unfold lastAdded
  rw [filterMap_cons, filterMap_nil]
  by_cases hmatch : t = table ∧ k = s
  · rw [Made.addition?, if_pos hmatch, if_pos hmatch]
    rfl
  · rw [Made.addition?, if_neg hmatch, if_neg hmatch]
    rfl

/-- A table to which nothing was added has nothing. -/
theorem lastAdded_eq_none {h table} (hnone : ∀ s arity code, .added table s arity code ∉ h) (s : Selector) :
    lastAdded h table s = none := by
  unfold lastAdded
  rw [getLast?_eq_none_iff, filterMap_eq_nil_iff]
  intro e he
  cases e with
  | defined c t => rfl
  | added t k arity code =>
    refine if_neg ?_
    rintro ⟨rfl, rfl⟩
    exact hnone k arity code he

/-- The method that a table has for a selector once another one was put in its place. -/
theorem get?_place (s k : Selector) (m : Method) (d : Dictionary Selector Method) :
    (MethodTable.place s m d).get? k = if s = k then some m else d.get? k := by
  induction d with
  | nil => rfl
  | cons p rest ih =>
    obtain ⟨key, n⟩ := p
    unfold MethodTable.place
    by_cases hlt : s < key
    · rw [if_pos hlt]
      rfl
    · rw [if_neg hlt]
      by_cases heq : s = key
      · rw [if_pos heq]
        subst heq
        by_cases hk : s = k
        · rw [if_pos hk]
          exact if_pos hk
        · rw [if_neg hk]
          exact (if_neg hk).trans (if_neg hk).symm
      · rw [if_neg heq]
        show (if key = k then some n else _) = _
        rw [ih]
        by_cases hkey : key = k
        · rw [if_pos hkey, if_neg fun hsk => heq (hsk.trans hkey.symm)]
          exact (if_pos hkey).symm
        · rw [if_neg hkey]
          exact congrArg (ite _ _) (if_neg hkey).symm

/-! ## Changes that leave tables and classes alone -/

namespace World

variable {w v u : World}

/-- The tables are the same, and there are no more classes but those of new runtimes. -/
structure KeepsClasses (w v : World) : Prop where
  tables : v.tables = w.tables
  classes : ∀ {r name c}, (v.classes r).get? name = some c →
    (w.classes r).get? name = some c ∨ c ∈ Builtin.classes r

end World

/-- **Where a class comes from** that is there after an instruction: it was there before, a new runtime has
it, or a definition ends with it under a name that was reserved. -/
theorem Instr.Effect.getClass (h : i.Effect task w v) {c} (hc : (v.classes r).get? name = some c) :
    (w.classes r).get? name = some c ∨ c ∈ Builtin.classes r ∨
      (w.classes r).entries.get? name = some .building ∧ (i = .settleClass r name (.defined c) ∨
        ∃ parent table methods, i = .completeClass r name parent table ∧
          c = .make { home := r, name, methods } parent) := by
  obtain ⟨rt, hrt⟩ := exists_of_getClass hc
  rw [classes_eq hrt] at hc
  cases hold : w.runtime? r with
  | none =>
    rw [getClass_eq_some, (h.runtime_of_none hold hrt).classes] at hc
    exact .inr (.inl (mem_of_get?_definitions hc).1)
  | some old =>
    rw [classes_eq hold]
    rcases h.runtime_of_some hold with hsame | ⟨f, hf, hmodified⟩
    · cases hsame.symm.trans hrt
      exact .inl hc
    · cases hmodified.symm.trans hrt
      cases hf with
      | @reserveClass _ n _ =>
        left
        rw [getClass_eq_some] at hc ⊢
        dsimp only [ClassTable.reserve] at hc
        split at hc
        · exact hc
        · -- The entry that is new is not that of a class.
          by_cases hn : name = n
          · subst hn
            cases (Dictionary.get?_insert_self ..).symm.trans hc
          · exact (Dictionary.get?_insert_of_ne _ _ hn).symm.trans hc
      | settleClass =>
        rcases entry_of_settle (getClass_eq_some.mp hc) with hold | ⟨hbuilding, rfl, rfl⟩
        · exact .inl (getClass_eq_some.mpr hold)
        · exact .inr (.inr ⟨hbuilding, .inl rfl⟩)
      | completeClass methods =>
        rcases entry_of_settle (getClass_eq_some.mp hc) with hold | ⟨hbuilding, rfl, heq⟩
        · exact .inl (getClass_eq_some.mpr hold)
        · cases heq
          exact .inr (.inr ⟨hbuilding, .inr ⟨_, _, methods, rfl, rfl⟩⟩)
      | _ => exact .inl hc

/-- Whether an instruction writes neither a method table nor the end of a definition. -/
def Instr.isPlain : Instr → Bool
  | newTable .. | addMethod .. | completeClass .. | settleClass .. => false
  | _ => true

/-- Tables and classes are left alone by plain instructions. -/
theorem Instr.Effect.keepsClasses (h : i.Effect task w v) (hi : i.isPlain) : w.KeepsClasses v := by
  refine ⟨?_, fun hc => ?_⟩
  · cases h with
    | newTable | addMethod | settleClass | completeTable | completeClass => cases hi
    | _ => rfl
  · rcases h.getClass hc with hold | hbuiltin | ⟨-, rfl | ⟨_, _, _, rfl, -⟩⟩
    · exact .inl hold
    · exact .inr hbuiltin
    · cases hi
    · cases hi

namespace World

variable {w v u : World} {table : TableId}

/-- A definition that is given up makes no class. -/
theorem keepsClasses_settleClass (w : World) (home : RuntimeId) (name : Bytes) {e : ClassEntry}
    (he : e.class? = none) : w.KeepsClasses (w.settleClass home name e) := by
  refine ⟨rfl, fun hc => ?_⟩
  rcases (Instr.effect 0 w (.settleClass home name e)).getClass hc with hold | hbuiltin | ⟨-, hi | ⟨_, _, _, hi, -⟩⟩
  · exact .inl hold
  · exact .inr hbuiltin
  · cases hi
    cases he
  · cases hi

/-! ## Worlds with their history -/

/-- A world as a history of definitions says: a table has the methods that were last added to it, and a
class that is not built in was made of a table that takes no more of them. -/
structure Recorded (w : World) (h : List Made) : Prop where
  bounded : ∀ {t s arity code}, .added t s arity code ∈ h → t < w.tables.size
  methods : ∀ {t : TableId} {mt : MethodTable}, w.tables[t]? = some mt →
    ∀ s, (mt.methods.get? s).map Method.callee = lastAdded h t s
  defined : ∀ {c t}, .defined c t ∈ h →
    ∃ mt : MethodTable, w.tables[t]? = some mt ∧ mt.complete ∧ c.body.methods = mt.methods
  classes : ∀ {r name c}, (w.classes r).get? name = some c →
    c ∈ Builtin.classes r ∨ ∃ t, .defined c t ∈ h

variable {h : List Made}

/-- Changes that leave tables and classes alone add nothing to the history. -/
theorem Recorded.of_keeps (hw : w.Recorded h) (hkeeps : w.KeepsClasses v) : v.Recorded (h ++ []) := by
  obtain ⟨htables, hclasses⟩ := hkeeps
  rw [append_nil]
  refine ⟨fun hm => ?_, fun ht => ?_, fun hd => ?_, fun hc => ?_⟩
  · rw [htables]
    exact hw.bounded hm
  · rw [htables] at ht
    exact hw.methods ht
  · rw [htables]
    exact hw.defined hd
  · rcases hclasses hc with hc | hc
    · exact hw.classes hc
    · exact .inl hc

/-- A new table has no methods, and none were added to it. -/
theorem Recorded.newTable (hw : w.Recorded h) (home : RuntimeId) : (w.newTable home).2.Recorded h := by
  have hnone (s : Selector) : lastAdded h w.tables.size s = none :=
    lastAdded_eq_none (fun _ _ _ hm => Nat.lt_irrefl _ (hw.bounded hm)) s
  refine ⟨fun hm => ?_, fun {t mt} ht s => ?_, fun hd => ?_, hw.classes⟩
  · simp only [World.newTable]
    rw [Array.size_push]
    exact Nat.lt_succ_of_lt (hw.bounded hm)
  · simp only [World.newTable] at ht
    rw [Array.getElem?_push] at ht
    split at ht
    · cases ht
      subst t
      exact (hnone s).symm
    · exact hw.methods ht s
  · obtain ⟨mt, ht, hmt⟩ := hw.defined hd
    exact ⟨mt, getElem?_push_of_some ht, hmt⟩

/-- A table that takes a method has it from then on. A table of which a class was made takes none. -/
theorem Recorded.addMethod (hw : w.Recorded h) {s arity code} (hadd : w.addMethod table s arity code = .ok v) :
    v.Recorded (h ++ [.added table s arity code]) := by
  simp only [World.addMethod] at hadd
  split at hadd
  · cases hadd
  · rename_i mt₀ hmt₀
    split at hadd
    · cases hadd
    · rename_i hopen
      cases hadd
      refine ⟨fun hm => ?_, fun {t mt} ht k => ?_, fun {c t} hd => ?_, fun hc => ?_⟩
      · rw [Array.size_modify]
        rcases mem_append.mp hm with hm | hm
        · exact hw.bounded hm
        · cases mem_singleton.mp hm
          exact (Array.getElem?_eq_some_iff.mp hmt₀).1
      · rw [lastAdded_added]
        dsimp only at ht
        rw [Array.getElem?_modify] at ht
        by_cases htable : table = t
        · subst htable
          rw [if_pos rfl, hmt₀] at ht
          cases ht
          dsimp only [MethodTable.add]
          rw [get?_place]
          by_cases hk : s = k
          · rw [if_pos hk, if_pos ⟨rfl, hk⟩]
            rfl
          · rw [if_neg hk, if_neg fun hboth => hk hboth.2]
            exact hw.methods hmt₀ k
        · rw [if_neg htable] at ht
          rw [if_neg fun hboth => htable hboth.1]
          exact hw.methods ht k
      · have hold : .defined c t ∈ h := by
          rcases mem_append.mp hd with hd | hd
          · exact hd
          · cases mem_singleton.mp hd
        obtain ⟨mt, ht, hcomplete, hmethods⟩ := hw.defined hold
        refine ⟨mt, ?_, hcomplete, hmethods⟩
        dsimp only
        rw [Array.getElem?_modify, if_neg, ht]
        rintro rfl
        cases hmt₀.symm.trans ht
        exact hopen hcomplete
      · rcases hw.classes hc with hb | ⟨t, hd⟩
        · exact .inl hb
        · exact .inr ⟨t, mem_append_left _ hd⟩

theorem Recorded.completeTable (hw : w.Recorded h) (table : TableId) : (w.completeTable table).Recorded h := by
  refine ⟨fun hm => ?_, fun {t mt} ht => ?_, fun {c t} hd => ?_, hw.classes⟩
  · simp only [World.completeTable]
    rw [Array.size_modify]
    exact hw.bounded hm
  · simp only [World.completeTable] at ht
    rw [Array.getElem?_modify] at ht
    split at ht
    · obtain ⟨mt', hmt', rfl⟩ := Option.map_eq_some_iff.mp ht
      exact fun s => hw.methods hmt' s
    · exact hw.methods ht
  · obtain ⟨mt, ht, hcomplete, hmethods⟩ := hw.defined hd
    simp only [World.completeTable]
    rw [Array.getElem?_modify, ht]
    split
    · exact ⟨_, rfl, rfl, hmethods⟩
    · exact ⟨mt, rfl, hcomplete, hmethods⟩

theorem complete_completeTable {mt} (ht : (w.completeTable table).tables[table]? = some mt) : mt.complete := by
  simp only [World.completeTable] at ht
  rw [Array.getElem?_modify, if_pos rfl] at ht
  obtain ⟨mt', -, rfl⟩ := Option.map_eq_some_iff.mp ht
  rfl

theorem body_make (b : ClassBody) (parent : Option Class) : (Class.make b parent).body = b := by
  cases parent <;> rfl

/-- A definition that ends makes a class of its table, or none. -/
theorem Recorded.completeClass (hw : w.Recorded h) (home : RuntimeId) (name : Bytes)
    (parent : Option Class) (table : TableId) : (w.completeClass home name parent table).2.Recorded
      (h ++ Instr.made w (.completeClass home name parent table)) := by
  have hcomplete := hw.completeTable table
  simp only [Instr.made, World.completeClass]
  cases ht : (w.completeTable table).tables[table]? with
  | none => rwa [append_nil]
  | some mt =>
    dsimp only
    cases mt.defect? with
    | some d => rwa [append_nil]
    | none =>
      have hmt := complete_completeTable ht
      refine ⟨fun hm => ?_, fun ht' s => ?_, fun {c t} hd => ?_, fun {r n c} hc => ?_⟩
      · rcases mem_append.mp hm with hm | hm
        · exact hcomplete.bounded hm
        · cases mem_singleton.mp hm
      · rw [lastAdded_defined]
        exact hcomplete.methods ht' s
      · rcases mem_append.mp hd with hd | hd
        · exact hcomplete.defined hd
        · cases mem_singleton.mp hd
          exact ⟨mt, ht, hmt, congrArg ClassBody.methods (body_make ..)⟩
      · rcases (Instr.effect 0 (w.completeTable table) (.settleClass home name _)).getClass hc with
          hold | hbuiltin | ⟨-, hi | ⟨_, _, _, hi, -⟩⟩
        · rcases hcomplete.classes hold with hb | ⟨t, hd⟩
          · exact .inl hb
          · exact .inr ⟨t, mem_append_left _ hd⟩
        · exact .inl hbuiltin
        · cases hi
          exact .inr ⟨table, mem_append_right _ (mem_singleton_self _)⟩
        · cases hi

/-- **What an instruction does to a world with its history.** -/
theorem Recorded.exec (hw : w.Recorded h) (task : TaskId)
    (hi : ∀ r name e, i = .settleClass r name e → e.class? = none) : (i.exec task w).2.Recorded (h ++ i.made w) := by
  cases i with
  | completeClass home name parent table => exact hw.completeClass home name parent table
  | addMethod table s arity code =>
    simp only [Instr.exec, Instr.made]
    cases hadd : w.addMethod table s arity code with
    | error e => rwa [append_nil]
    | ok v => exact hw.addMethod hadd
  | newTable home =>
    show (w.newTable home).2.Recorded (h ++ [])
    rw [append_nil]
    exact hw.newTable home
  | settleClass r name e => exact hw.of_keeps (keepsClasses_settleClass w r name (hi r name e rfl))
  | _ => exact hw.of_keeps ((Instr.effect task w _).keepsClasses rfl)

/-- At the beginning there are no tables, and the classes are the built-in ones. -/
theorem Fresh.recorded (hw : w.Fresh) : w.Recorded [] := by
  have hnone (t : TableId) : w.tables[t]? = none := by
    rw [hw.tables]
    rfl
  refine ⟨nofun, fun {t mt} ht => ?_, nofun, fun {r name c} hc => .inl ?_⟩
  · cases (hnone t).symm.trans ht
  · obtain ⟨rt, hrt⟩ := exists_of_getClass hc
    rw [classes_eq hrt, (hw.runtime hrt).1, getClass_eq_some] at hc
    exact (mem_of_get?_definitions hc).1

end World

/-! ## Runs -/

/-- A task settles a definition by itself only to give it up. -/
theorem Sits.class?_of_settleClass {hand e k fs} (hs : Sits w hand (.perform (.settleClass r name e) k) fs) :
    e.class? = none := by
  cases hs with
  | free lawful _ =>
    cases lawful with
    | perform allowed _ => exact allowed
  | starting _ point => cases point
  | hosting point => cases point

namespace Machine

/-- The class definitions in a run. -/
def definitions (m : Machine) (τs : List Turn) : List Made := m.record (performed Instr.made) τs

/-- **Every world that can be reached is as the history of its definitions says.** -/
theorem recorded_trace {m n : Machine} (hm : m.Initial) {P : Machine → Turn → Prop} {τs} (hrun : Trace P m τs n) :
    n.world.Recorded (m.definitions τs) := by
  refine history_trace (I := World.Recorded) (fun {m' j i k fs xs} task hm' hat _ h => ?_)
    (fun h => ⟨h.bounded, h.methods, h.defined, h.classes⟩) hm.reachable hrun [] hm.fresh.recorded
  refine h.exec task fun r name e hi => ?_
  subst hi
  obtain ⟨stage, hg⟩ := hm'.governed
  obtain ⟨⟨id, prog, frames⟩, ht, hprog, -⟩ := hat
  dsimp only at hprog
  subst hprog
  exact (hg.task ht).class?_of_settleClass

end Machine

end ObjectKernel
