import Mathlib.Data.List.Nodup
import Mathlib.Data.List.Sort
import ObjectKernel.Proofs.Bindings
import ObjectKernel.Proofs.Definitions
import ObjectKernel.Proofs.NewTexts

/-!
# The entries of class names

What instructions do to the entries of class names. A reservation makes an entry for a name that has
none. Only a completion or a settlement changes an entry that is there, one that is under definition, and
only that of its own name. So entries are written once, names are listed once, and a class extends classes
that were there before it.

## Contents

* `ClassKey`, `World.entryOf?`: entries by runtime and name, and what reservations, completions and
  settlements make of them. `Instr.exec_keepsEntries`: the other instructions.
* `World.Listed`, `ClassTable.names_spec`: the names that have a class, in order.
* `World.Ranked`, `World.Ranked.chain`: superclass chains.
-/

namespace ObjectKernel

open Dictionary

/-! ## Orders and keys -/

theorem Bytes.atMost_iff (a b : Bytes) : Bytes.atMost a b ↔ a ≤ b := by
  induction a generalizing b with
  | nil => simp [Bytes.atMost]
  | cons x xs ih =>
    cases b with
    | nil => simp [Bytes.atMost]
    | cons y ys =>
      rw [List.cons_le_cons_iff]
      simp only [Bytes.atMost]
      split
      · simp [*]
      · split
        · rename_i hnot hlt
          have hne : x ≠ y := fun h => by simp [h] at hlt
          simp [hnot, hne]
        · rename_i hnot hnot'
          have heq : x = y := UInt8.le_antisymm (UInt8.not_lt.mp hnot') (UInt8.not_lt.mp hnot)
          simp [heq, ih]

namespace Dictionary

variable {α β : Type} [DecidableEq α] {d : Dictionary α β}

theorem mem_keys_insert {a x b} (h : x ∈ (d.insert a b).keys) : x = a ∨ x ∈ d.keys := by
  induction d with
  | nil => exact .inl (List.mem_singleton.mp h)
  | cons p rest ih =>
    simp only [insert] at h
    split at h
    · exact .inr h
    · rcases List.mem_cons.mp h with rfl | h
      · exact .inr List.mem_cons_self
      · exact (ih h).imp_right (List.mem_cons_of_mem _)

/-- An insertion keeps one entry for each key. -/
theorem nodup_keys_insert (h : d.keys.Nodup) (a : α) (b : β) : (d.insert a b).keys.Nodup := by
  induction d with
  | nil => simp [insert, keys]
  | cons p rest ih =>
    obtain ⟨hp, hrest⟩ := List.nodup_cons.mp h
    simp only [insert]
    split
    · exact h
    · rename_i hne
      refine List.nodup_cons.mpr ⟨fun hmem => ?_, ih hrest⟩
      rcases mem_keys_insert hmem with heq | hmem
      · exact hne heq
      · exact hp hmem

/-- Where each key has one entry, every entry is found. -/
theorem get?_of_mem (h : d.keys.Nodup) {a b} (hmem : (a, b) ∈ d) : d.get? a = some b := by
  induction d with
  | nil => cases hmem
  | cons p rest ih =>
    obtain ⟨hp, hrest⟩ := List.nodup_cons.mp h
    rcases List.mem_cons.mp hmem with rfl | hmem
    · exact if_pos rfl
    · have hne : p.1 ≠ a := fun heq => hp (heq ▸ List.mem_map_of_mem (f := Prod.fst) hmem)
      exact (if_neg hne).trans (ih hrest hmem)

end Dictionary

/-- **The listing of class names**: in increasing order, each once, and just those with a class. -/
theorem ClassTable.names_spec {t : ClassTable} (h : t.entries.keys.Nodup) :
    t.names.Pairwise (· < ·) ∧ ∀ name, name ∈ t.names ↔ (t.get? name).isSome := by
  have hperm : t.names.Perm ((t.entries.filter fun p => p.2.class?.isSome).map Prod.fst) :=
    List.mergeSort_perm ..
  constructor
  · have hnodup : t.names.Nodup :=
      hperm.nodup_iff.mpr (h.sublist (List.Sublist.map Prod.fst List.filter_sublist))
    have hsorted : t.names.Pairwise fun a b => Bytes.atMost a b := by
      apply List.pairwise_mergeSort
      · intro a b c hab hbc
        rw [Bytes.atMost_iff] at hab hbc ⊢
        exact List.le_trans hab hbc
      · intro a b
        rw [Bool.or_eq_true, Bytes.atMost_iff, Bytes.atMost_iff]
        exact List.le_total a b
    refine hsorted.imp₂ (fun a b hab hne => ?_) hnodup
    by_contra hnot
    exact hne (List.le_antisymm ((Bytes.atMost_iff a b).mp hab) (List.not_lt.mp hnot))
  · intro name
    rw [hperm.mem_iff, List.mem_map]
    constructor
    · rintro ⟨⟨n, e⟩, hmem, rfl⟩
      obtain ⟨hmem, hclass⟩ := List.mem_filter.mp hmem
      show ((t.entries.get? n).bind (·.class?)).isSome
      rw [get?_of_mem h hmem]
      exact hclass
    · intro hsome
      obtain ⟨c, hc⟩ := Option.isSome_iff_exists.mp hsome
      have hmem := mem_of_get? (World.getClass_eq_some.mp hc)
      exact ⟨_, List.mem_filter.mpr ⟨hmem, rfl⟩, rfl⟩

/-! ## Entries -/

/-- A class name in a runtime. -/
abbrev ClassKey := RuntimeId × Bytes

namespace World

variable {w v u : World} {key : ClassKey} {home : RuntimeId} {name : Bytes} {e : ClassEntry}

/-- The entry of a class name. -/
def entryOf? (w : World) (key : ClassKey) : Option ClassEntry := (w.classes key.1).entries.get? key.2

theorem entryOf?_eq_defined {c : Class} :
    w.entryOf? (home, name) = some (.defined c) ↔ (w.classes home).get? name = some c := getClass_eq_some.symm

theorem has_of_entryOf? (h : w.entryOf? key = some e) : w.Has key.1 := by
  unfold entryOf? classes at h
  cases hrt : w.runtime? key.1 with
  | none =>
    rw [hrt] at h
    cases h
  | some rt => exact ⟨rt, hrt⟩

theorem entryOf?_eq {rt} (h : w.runtime? home = some rt) (name : Bytes) :
    w.entryOf? (home, name) = rt.classes.entries.get? name := by
  unfold entryOf?
  rw [classes_eq h]

/-- An entry that is final lasts. -/
theorem entryOf?_later (h : w ≤ v) (he : w.entryOf? key = some e) (hfinal : e.isFinal) : v.entryOf? key = some e := by
  obtain ⟨rt, hrt⟩ := has_of_entryOf? he
  obtain ⟨rt', hrt', hlasts⟩ := h.runtimes hrt
  unfold entryOf? at he ⊢
  rw [classes_eq hrt] at he
  rw [classes_eq hrt']
  exact hlasts.entry he hfinal

theorem classes_congr (h : v.runtimes = w.runtimes) (r : RuntimeId) : v.classes r = w.classes r := by
  unfold classes
  rw [runtime?_congr h]

theorem entryOf?_congr (h : v.runtimes = w.runtimes) : v.entryOf? key = w.entryOf? key := by
  unfold entryOf?
  rw [classes_congr h]

theorem entryOf?_completeTable (w : World) (table : TableId) (key : ClassKey) :
    (w.completeTable table).entryOf? key = w.entryOf? key := entryOf?_congr rfl

theorem entryOf?_modifyRuntime_of_ne (h : key.1 ≠ home) (w : World) (f : Runtime → Runtime) :
    (w.modifyRuntime home f).entryOf? key = w.entryOf? key := by
  unfold entryOf? classes
  rw [runtime?_modifyRuntime, if_neg (Ne.symm h)]

theorem entryOf?_modifyRuntime {rt} (h : w.runtime? home = some rt) (f : Runtime → Runtime) (name : Bytes) :
    (w.modifyRuntime home f).entryOf? (home, name) = (f rt).classes.entries.get? name := by
  have hrt : (w.modifyRuntime home f).runtime? home = some (f rt) := by
    rw [runtime?_modifyRuntime, if_pos rfl, h]
    rfl
  exact entryOf?_eq hrt name

theorem entryOf?_modifyRuntime_of_none (h : w.runtime? home = none) (f : Runtime → Runtime) (key : ClassKey) :
    (w.modifyRuntime home f).entryOf? key = w.entryOf? key := by
  unfold entryOf? classes
  rw [runtime?_modifyRuntime]
  by_cases hkey : home = key.1
  · rw [if_pos hkey, ← hkey, h]
    rfl
  · rw [if_neg hkey]

/-! ### Settlements and completions -/

/-- A definition that ends leaves its entry. -/
theorem entryOf?_settleClass_self (h : w.entryOf? (home, name) = some .building) (e : ClassEntry) :
    (w.settleClass home name e).entryOf? (home, name) = some e := by
  obtain ⟨rt, hrt⟩ := has_of_entryOf? h
  rw [entryOf?_eq hrt] at h
  unfold settleClass
  rw [entryOf?_modifyRuntime hrt]
  simp only [ClassTable.settle, h]
  exact get?_insert_self ..

/-- What is not under definition it leaves as it is. -/
theorem entryOf?_settleClass_of_settled (h : w.entryOf? (home, name) ≠ some .building) (e : ClassEntry) :
    (w.settleClass home name e).entryOf? (home, name) = w.entryOf? (home, name) := by
  unfold settleClass
  cases hrt : w.runtime? home with
  | none => exact entryOf?_modifyRuntime_of_none hrt _ _
  | some rt =>
    rw [entryOf?_eq hrt] at h
    rw [entryOf?_modifyRuntime hrt, entryOf?_eq hrt]
    unfold ClassTable.settle
    split
    · next hbuilding => exact absurd hbuilding h
    · rfl

/-- It leaves other entries alone. -/
theorem entryOf?_settleClass_of_ne (h : key ≠ (home, name)) (w : World) (e : ClassEntry) :
    (w.settleClass home name e).entryOf? key = w.entryOf? key := by
  obtain ⟨r, n⟩ := key
  unfold settleClass
  by_cases hr : r = home
  · subst hr
    have hn : n ≠ name := fun hn => h (by rw [hn])
    cases hrt : w.runtime? r with
    | none => exact entryOf?_modifyRuntime_of_none hrt _ _
    | some rt =>
      rw [entryOf?_modifyRuntime hrt, entryOf?_eq hrt]
      unfold ClassTable.settle
      split
      · exact get?_insert_of_ne _ _ hn
      · rfl
  · exact entryOf?_modifyRuntime_of_ne hr w _

/-- It changes only an entry that is under definition. -/
theorem entryOf?_settleClass_cases (w : World) (home : RuntimeId) (name : Bytes) (e : ClassEntry)
    (key : ClassKey) : (w.settleClass home name e).entryOf? key = w.entryOf? key ∨
      key = (home, name) ∧ w.entryOf? key = some .building ∧ (w.settleClass home name e).entryOf? key = some e := by
  by_cases hkey : key = (home, name)
  · subst hkey
    by_cases hentry : w.entryOf? (home, name) = some .building
    · exact .inr ⟨rfl, hentry, entryOf?_settleClass_self hentry e⟩
    · exact .inl (entryOf?_settleClass_of_settled hentry e)
  · exact .inl (entryOf?_settleClass_of_ne hkey w e)

/-! ### Reservations -/

theorem reserveClass_taken (h : w.entryOf? (home, name) = some e) : w.reserveClass home name = (false, w) := by
  unfold reserveClass
  rw [show (w.classes home).entries.get? name = some e from h]

theorem reserveClass_free (h : w.entryOf? (home, name) = none) : w.reserveClass home name =
    (true, w.modifyRuntime home fun r => { r with classes := r.classes.reserve name }) := by
  unfold reserveClass
  rw [show (w.classes home).entries.get? name = none from h]

theorem entryOf?_reserveClass_self (hhome : w.Has home) (h : w.entryOf? (home, name) = none) :
    (w.reserveClass home name).2.entryOf? (home, name) = some .building := by
  obtain ⟨rt, hrt⟩ := hhome
  rw [reserveClass_free h, entryOf?_modifyRuntime hrt]
  rw [entryOf?_eq hrt] at h
  simp only [ClassTable.reserve, h]
  exact get?_insert_self ..

/-! ### Other instructions -/

/-- Every entry that is there stays as it is. -/
def KeepsEntries (w v : World) : Prop := ∀ key e, w.entryOf? key = some e → v.entryOf? key = some e

theorem keepsEntries_refl (w : World) : w.KeepsEntries w := fun _ _ he => he

theorem keepsEntries_of_runtimes (h : v.runtimes = w.runtimes) : w.KeepsEntries v :=
  fun _ _ he => (entryOf?_congr h).trans he

end World

/-- Whether an instruction ends a definition. -/
def Instr.isEnding : Instr → Bool
  | completeClass .. | settleClass .. => true
  | _ => false

open World in
/-- **Only the end of a definition changes an entry.** -/
theorem Instr.exec_keepsEntries (task : TaskId) (w : World) {i : Instr} (hi : i.isEnding = false) :
    w.KeepsEntries (i.exec task w).2 := by
  intro key e he
  obtain ⟨rt, hrt⟩ := has_of_entryOf? he
  unfold entryOf? at he ⊢
  rw [classes_eq hrt] at he
  rcases (i.effect task w).runtime_of_some hrt with hsame | ⟨f, hf, hmodified⟩
  · rwa [classes_eq hsame]
  · rw [classes_eq hmodified]
    cases hf with
    | settleClass | completeClass => cases hi
    | @reserveClass _ name free =>
      rw [classes_eq hrt] at free
      have hne : key.2 ≠ name := by
        rintro rfl
        cases free.symm.trans he
      simp only [ClassTable.reserve, free]
      exact (get?_insert_of_ne _ _ hne).trans he
    | _ => exact he

/-! ## Listings -/

namespace World

variable {w v : World} {home r : RuntimeId} {name : Bytes} {c : Class} {i : Instr} {hand : ObjId → Option Phase}

/-- Each class name has one entry at most. -/
def Listed (w : World) : Prop := ∀ r, (w.classes r).entries.keys.Nodup

/-- The names of the built-in classes differ. -/
theorem nodup_keys_builtin (home : RuntimeId) : (builtinClasses home).entries.keys.Nodup := by
  simp only [builtinClasses, keys, List.map_map]
  exact names_builtin_nodup _

theorem nodup_keys_settle {t : ClassTable} (h : t.entries.keys.Nodup) (name : Bytes) (e : ClassEntry) :
    (t.settle name e).entries.keys.Nodup := by
  simp only [ClassTable.settle]
  split
  · exact nodup_keys_insert h ..
  · exact h

theorem Listed.exec (h : w.Listed) (task : TaskId) (i : Instr) : (i.exec task w).2.Listed := by
  intro r
  have heffect := i.effect task w
  cases hnew : (i.exec task w).2.runtime? r with
  | none =>
    unfold classes
    rw [hnew]
    exact List.nodup_nil
  | some rt' =>
    rw [classes_eq hnew]
    cases hold : w.runtime? r with
    | none =>
      rw [(heffect.runtime_of_none hold hnew).classes]
      exact nodup_keys_builtin r
    | some rt =>
      have hr := h r
      rw [classes_eq hold] at hr
      rcases heffect.runtime_of_some hold with hsame | ⟨f, hf, hmodified⟩
      · cases hsame.symm.trans hnew
        exact hr
      · cases hmodified.symm.trans hnew
        cases hf with
        | settleClass | completeClass => exact nodup_keys_settle hr _ _
        | reserveClass =>
          simp only [ClassTable.reserve]
          split
          · exact hr
          · exact nodup_keys_insert hr ..
        | _ => exact hr

theorem Fresh.listed (h : w.Fresh) : w.Listed := by
  intro r
  cases hrt : w.runtime? r with
  | none =>
    unfold classes
    rw [hrt]
    exact List.nodup_nil
  | some rt =>
    rw [classes_eq hrt, (h.runtime hrt).1]
    exact nodup_keys_builtin r

/-! ## Chains -/

/-- No class has a name that occurs above it. -/
def Ranked (w : World) : Prop :=
  ∀ r name c, (w.classes r).get? name = some c → (c.chain.map Class.name).Nodup

/-- **The chain of a class** is made of classes that its runtime has, and it ends in the root. -/
theorem chain_of_getClass (hs : w.Sound) (h : (w.classes r).get? name = some c) :
    (∀ x ∈ c.chain, (w.classes r).get? x.name = some x) ∧ c.chain.getLast? = some (Builtin.rootClass r) := by
  induction c generalizing name with
  | root b =>
    obtain ⟨rt, hrt⟩ := exists_of_getClass h
    have hplaced := (hs.runtime hrt).cls (classes_eq hrt ▸ h)
    rcases hplaced.parent with hroot | ⟨p, hp, -⟩
    · refine ⟨fun x hx => ?_, congrArg some hroot⟩
      rw [List.mem_singleton.mp hx, hplaced.name]
      exact h
    · cases hp
  | extend b p ih =>
    obtain ⟨rt, hrt⟩ := exists_of_getClass h
    have hplaced := (hs.runtime hrt).cls (classes_eq hrt ▸ h)
    rcases hplaced.parent with hroot | ⟨q, hq, hhome, hvouches⟩
    · cases hroot
    · cases hq
      unfold Vouches at hvouches
      rw [hhome] at hvouches
      obtain ⟨hmembers, hlast⟩ := ih hvouches
      constructor
      · intro x hx
        rcases List.mem_cons.mp hx with rfl | hx
        · rw [hplaced.name]
          exact h
        · exact hmembers x hx
      · show (Class.extend b p :: p.chain).getLast? = _
        rw [List.getLast?_cons, hlast]
        rfl

theorem nodup_chain_builtin (h : c ∈ Builtin.classes r) : (c.chain.map Class.name).Nodup := by
  simp only [Builtin.classes, List.mem_cons, List.not_mem_nil, or_false] at h
  rcases h with rfl | rfl | rfl | rfl | rfl <;>
    simp [Builtin.rootClass, Builtin.textClass, Builtin.bufferClass, Builtin.threadClass,
      Builtin.runnableClass, Builtin.extension, Class.chain, Class.name, Class.body] <;> decide

/-- Where a class comes from that is there after an instruction: it was there before, it is one that a new
runtime has, or it was completed under a name that was reserved. -/
theorem class_of_exec (task : TaskId) (hi : i.Works hand w) (h : ((i.exec task w).2.classes r).get? name = some c) :
    (w.classes r).get? name = some c ∨ c ∈ Builtin.classes r ∨
      ∃ p methods, c = .extend { home := r, name, methods } p ∧ (w.classes r).get? p.name = some p ∧
        w.entryOf? (r, name) = some .building := by
  rcases (i.effect task w).getClass h with
    hold | hbuiltin | ⟨hbuilding, rfl | ⟨parent, table, methods, rfl, rfl⟩⟩
  · exact .inl hold
  · exact .inr (.inl hbuiltin)
  · cases hi with
    | allowed allowed => cases allowed
  · cases hi with
    | allowed allowed =>
      obtain ⟨p, rfl, rfl, hvouches⟩ := allowed
      exact .inr (.inr ⟨p, methods, rfl, hvouches, hbuilding⟩)

/-- A class extends classes that were there before it. -/
theorem Ranked.exec (hs : w.Sound) (h : w.Ranked) (task : TaskId) (hi : i.Works hand w) :
    (i.exec task w).2.Ranked := by
  intro r name c hc
  rcases class_of_exec task hi hc with hold | hbuiltin | ⟨p, methods, rfl, hparent, hbuilding⟩
  · exact h r name c hold
  · exact nodup_chain_builtin hbuiltin
  · refine List.nodup_cons.mpr ⟨fun hmem => ?_, h r p.name p hparent⟩
    -- A class above has the name, but the name is only reserved.
    obtain ⟨x, hx, hname⟩ := List.mem_map.mp hmem
    have hname : x.name = name := hname
    have hdefined : (w.classes r).get? name = some x := hname ▸ (chain_of_getClass hs hparent).1 x hx
    cases hbuilding.symm.trans (entryOf?_eq_defined.mpr hdefined)

theorem Fresh.ranked (h : w.Fresh) : w.Ranked := by
  intro r name c hc
  obtain ⟨rt, hrt⟩ := exists_of_getClass hc
  rw [classes_eq hrt, (h.runtime hrt).1, getClass_eq_some] at hc
  exact nodup_chain_builtin (mem_of_get?_definitions hc).1

end World

namespace Machine

open World

variable {m : Machine}

/-- **Each name is listed once, and no chain repeats a name**, in every world that can be reached. -/
theorem Reachable.listed (h : m.Reachable) : m.world.Listed ∧ m.world.Ranked := by
  refine h.invariant (I := fun w => w.Listed ∧ w.Ranked) (fun w hw => ⟨hw.listed, hw.ranked⟩) (fun h => h) ?_
  intro m j i k fs task hm hat _ h
  obtain ⟨hand, hworks⟩ := hm.works hat
  exact ⟨h.1.exec task i, h.2.exec hm.sound task hworks⟩

end Machine

end ObjectKernel
