import ObjectKernel.Proofs.Prompt
import ObjectKernel.Proofs.Bindings

/-!
# Signatures and their numbers

A runtime numbers the signatures of methods as they come. Interning a signature looks it up and, when it has no
number, inserts it; between the two any number of other tasks may do the same with this signature or another. The
insertion looks again, so nothing comes of it: names and numbers always belong together, a number once given stays,
and whoever interns a signature is told the number that it has for good. Everything is numbered from the well-known
signatures on, whose numbers are therefore constants.

## Contents

* `SelectorTable.Consistent`, `SelectorTable.Extends`: numbers and places agree; a table has all that another one has.
  Inserting keeps the first and does the second: `Consistent.insert`, `extends_insert`.
* `Instr.exec_selectors`: what an instruction does to a table. `World.Grows`, `Machine.grows_take`: what a turn does.
* `World.Numbers`, `Machine.numbers_trace`: a table has the well-known signatures and those that were interned.
* `Machine.attains_intern`: an interning task is told the number. `Machine.Numbered`: numbers that are given for good.
* `Machine.selectors_growing_bijection`.
-/

namespace ObjectKernel

/-! ## Tables -/

namespace SelectorTable

variable {t u : SelectorTable} {name : Bytes} {n : Nat}

/-- A signature has the number of its place, and no other. -/
def Consistent (t : SelectorTable) : Prop := ∀ (name : Bytes) (n : Nat), t.find? name = some n ↔ t.names[n]? = some name

/-- A table has the signatures of another one, at the same places. -/
def Extends (t u : SelectorTable) : Prop := ∀ (n : Nat) (name : Bytes), t.names[n]? = some name → u.names[n]? = some name

theorem consistent_empty : ({} : SelectorTable).Consistent := by
  intro name n
  constructor <;> exact nofun

theorem Extends.refl (t : SelectorTable) : t.Extends t := fun _ _ h => h

theorem Extends.trans {x} (h : t.Extends u) (h' : u.Extends x) : t.Extends x := by
  intro n name hn
  exact h' n name (h n name hn)

theorem extends_of_empty (t : SelectorTable) : ({} : SelectorTable).Extends t := nofun

theorem Extends.find? (h : t.Extends u) (ht : t.Consistent) (hu : u.Consistent) (hn : t.find? name = some n) :
    u.find? name = some n := by
  rw [hu]
  exact h n name ((ht name n).mp hn)

/-- A signature that has a number keeps it; another one gets the next. -/
theorem insert_cases (t : SelectorTable) (name : Bytes) : (∃ n, t.find? name = some n ∧ t.insert name = (n, t)) ∨
      t.find? name = none ∧ t.insert name = (t.names.size,
        { names := t.names.push name, numbers := t.numbers.insert name t.names.size }) := by
  unfold insert
  cases h : t.find? name with
  | some n => exact .inl ⟨n, rfl, rfl⟩
  | none => exact .inr ⟨rfl, rfl⟩

theorem intern_eq_insert (t : SelectorTable) (name : Bytes) : t.intern name = t.insert name := by
  unfold intern insert
  cases t.find? name <;> rfl

theorem Consistent.insert (h : t.Consistent) (name : Bytes) : (t.insert name).2.Consistent := by
  rcases t.insert_cases name with ⟨n, -, heq⟩ | ⟨hnone, heq⟩
  · rw [heq]
    exact h
  rw [heq]
  intro other k
  show (t.numbers.insert name t.names.size).get? other = some k ↔ (t.names.push name)[k]? = some other
  rw [Array.getElem?_push]
  by_cases hother : other = name
  · -- The new signature stands at the end, and nowhere before.
    subst hother
    rw [Dictionary.get?_insert_self]
    split
    · simp_all
    · rename_i hk
      constructor
      · intro hsize
        exact absurd (Option.some.inj hsize).symm hk
      · intro hplace
        rw [(h _ _).mpr hplace] at hnone
        cases hnone
  · -- Any other one stands where it stood.
    rw [Dictionary.get?_insert_of_ne _ _ hother]
    have hold := h other k
    unfold SelectorTable.find? at hold
    rw [hold]
    split
    · rename_i hk
      rw [hk, Array.getElem?_size]
      constructor
      · exact nofun
      · intro hname
        exact absurd (Option.some.inj hname).symm hother
    · exact Iff.rfl

theorem extends_insert (t : SelectorTable) (name : Bytes) : t.Extends (t.insert name).2 := by
  rcases t.insert_cases name with ⟨n, -, heq⟩ | ⟨-, heq⟩
  · rw [heq]
    exact .refl t
  · rw [heq]
    intro n other hn
    exact World.getElem?_push_of_some hn

/-- An inserted signature has the number that the insertion returns. -/
theorem find?_insert (t : SelectorTable) (name : Bytes) : (t.insert name).2.find? name = some (t.insert name).1 := by
  rcases t.insert_cases name with ⟨n, hn, heq⟩ | ⟨-, heq⟩
  · rw [heq]
    exact hn
  · rw [heq]
    exact Dictionary.get?_insert_self ..

theorem mem_insert {other : Bytes} (h : t.Consistent) :
    other ∈ (t.insert name).2.names ↔ other ∈ t.names ∨ other = name := by
  rcases t.insert_cases name with ⟨n, hn, heq⟩ | ⟨-, heq⟩
  · rw [heq]
    constructor
    · exact .inl
    · rintro (hmem | rfl)
      · exact hmem
      · exact Array.mem_of_getElem? ((h _ _).mp hn)
  · rw [heq]
    exact Array.mem_push

/-- What the public functions of a table say of a signature that stands at a place. -/
theorem Consistent.lookup_eq_iff (h : t.Consistent) : t.lookup name = n ↔ t.names[n]? = some name := by
  rw [← h name n]
  unfold lookup
  cases t.find? name with
  | some k => exact Int.natCast_inj.trans Option.some_inj.symm
  | none => simp

theorem Consistent.lookup_eq_neg_iff (h : t.Consistent) : t.lookup name = -1 ↔ name ∉ t.names := by
  have hfound : t.lookup name = -1 ↔ t.find? name = none := by
    unfold lookup
    cases t.find? name with
    | some k => simp
    | none => simp
  rw [hfound, ← not_iff_not]
  constructor
  · intro hsome hnot
    obtain ⟨n, hn⟩ := Option.ne_none_iff_exists'.mp hsome
    exact hnot (Array.mem_of_getElem? ((h _ _).mp hn))
  · intro hmem hnone
    apply hmem
    intro hin
    obtain ⟨n, hn⟩ := Array.getElem?_of_mem hin
    rw [(h _ _).mpr hn] at hnone
    cases hnone

theorem name_eq (hn : t.names[n]? = some name) : t.name n = name := by
  unfold SelectorTable.name
  rw [if_pos (Int.natCast_nonneg n), Int.toNat_natCast, hn, Option.getD_some]

theorem consistent_initial : SelectorTable.initial.Consistent := by
  have hfold (names : List Bytes) (t : SelectorTable) (ht : t.Consistent) :
      (names.foldl (fun t name => (t.intern name).2) t).Consistent := by
    induction names generalizing t with
    | nil => exact ht
    | cons name names ih =>
      rw [List.foldl_cons, intern_eq_insert]
      exact ih _ (ht.insert name)
  exact hfold _ _ consistent_empty

theorem names_initial : SelectorTable.initial.names = Selector.wellKnown.toArray := by decide +kernel

end SelectorTable

/-! ## Runtimes -/

namespace World

variable {u w v : World} {r : RuntimeId}

theorem selectors_eq {rt} (h : w.runtime? r = some rt) : w.selectors r = rt.selectors := by
  unfold selectors
  rw [h]

theorem selectors_of_not_has (h : ¬ w.Has r) : w.selectors r = {} := by
  unfold selectors
  cases hrt : w.runtime? r with
  | none => rfl
  | some rt => exact absurd ⟨rt, hrt⟩ h

theorem runtime?_of_not_has (h : ¬ w.Has r) : w.runtime? r = none := by
  cases hrt : w.runtime? r with
  | none => rfl
  | some rt => exact absurd ⟨rt, hrt⟩ h

end World

/-- What an instruction makes of the signatures of a runtime. -/
def Instr.numbering (r : RuntimeId) (t : SelectorTable) : Instr → SelectorTable
  | .insertSelector home name => if home = r then (t.insert name).2 else t
  | _ => t

theorem Instr.consistent_numbering (i : Instr) (r : RuntimeId) {t : SelectorTable} (h : t.Consistent) :
    (i.numbering r t).Consistent := by
  unfold numbering
  split
  · split
    · exact h.insert _
    · exact h
  · exact h

theorem Instr.extends_numbering (i : Instr) (r : RuntimeId) (t : SelectorTable) : t.Extends (i.numbering r t) := by
  unfold numbering
  split
  · split
    · exact t.extends_insert _
    · exact .refl t
  · exact .refl t

section

open World

variable {w : World} {r : RuntimeId} (task : TaskId)

theorem Instr.numbering_insertSelector (home r : RuntimeId) (name : Bytes) (t : SelectorTable) :
    (Instr.insertSelector home name).numbering r t = if home = r then (t.insert name).2 else t := rfl

/-- **Only an insertion changes the signatures of a runtime**, and only those of its own. -/
theorem Instr.exec_selectors (i : Instr) (hr : w.Has r) :
    (i.exec task w).2.Has r ∧ (i.exec task w).2.selectors r = i.numbering r (w.selectors r) := by
  obtain ⟨rt, hrt⟩ := hr
  rw [selectors_eq hrt]
  by_cases hi : ∃ home name, i = .insertSelector home name
  · obtain ⟨home, name, rfl⟩ := hi
    have hnew : (w.insertSelector home name).2.runtime? r =
        some (if home = r then { rt with selectors := ((w.selectors home).insert name).2 } else rt) := by
      refine (runtime?_modifyRuntime ..).trans ?_
      rw [hrt]
      split <;> rfl
    refine ⟨⟨_, hnew⟩, (selectors_eq hnew).trans ?_⟩
    rw [numbering_insertSelector]
    by_cases hhome : home = r
    · rw [if_pos hhome, if_pos hhome, hhome, selectors_eq hrt]
    · rw [if_neg hhome, if_neg hhome]
  · have hnumbering : i.numbering r rt.selectors = rt.selectors := by
      cases i with
      | insertSelector home name => exact absurd ⟨home, name, rfl⟩ hi
      | _ => rfl
    rw [hnumbering]
    rcases (i.effect task w).runtime_of_some hrt with hsame | ⟨f, hf, hmodified⟩
    · exact ⟨⟨rt, hsame⟩, selectors_eq hsame⟩
    · refine ⟨⟨_, hmodified⟩, (selectors_eq hmodified).trans ?_⟩
      cases hf with
      | insertSelector => exact absurd ⟨_, _, rfl⟩ hi
      | _ => rfl

/-- A runtime that an instruction makes has the well-known signatures. -/
theorem Instr.exec_selectors_new (i : Instr) (hr : ¬ w.Has r) (hnew : (i.exec task w).2.Has r) :
    (i.exec task w).2.selectors r = .initial := by
  obtain ⟨rt, hrt⟩ := hnew
  rw [selectors_eq hrt]
  exact ((i.effect task w).runtime_of_none (runtime?_of_not_has hr) hrt).selectors

end

namespace World

variable {u w v : World} {r : RuntimeId}

/-- A runtime is still there, its signatures are consistent if they were, and no number has changed. -/
structure Grows (r : RuntimeId) (w v : World) : Prop where
  has : w.Has r → v.Has r
  consistent : (w.selectors r).Consistent → (v.selectors r).Consistent
  extension : (w.selectors r).Extends (v.selectors r)

theorem interference_grows (r : RuntimeId) : Interference (Grows r) := by
  constructor
  · intro w
    exact ⟨id, id, .refl _⟩
  · intro w v u h h'
    exact ⟨h'.has ∘ h.has, h'.consistent ∘ h.consistent, h.extension.trans h'.extension⟩

end World

theorem Instr.exec_grows (task : TaskId) (i : Instr) (w : World) (r : RuntimeId) : w.Grows r (i.exec task w).2 := by
  by_cases hr : w.Has r
  · obtain ⟨hhas, hselectors⟩ := i.exec_selectors task hr
    refine ⟨fun _ => hhas, fun hw => ?_, ?_⟩
    · rw [hselectors]
      exact i.consistent_numbering r hw
    · rw [hselectors]
      exact i.extends_numbering r _
  · refine ⟨fun h => absurd h hr, fun _ => ?_, ?_⟩
    · by_cases hnew : (i.exec task w).2.Has r
      · rw [i.exec_selectors_new task hr hnew]
        exact SelectorTable.consistent_initial
      · rw [World.selectors_of_not_has hnew]
        exact SelectorTable.consistent_empty
    · rw [World.selectors_of_not_has hr]
      exact SelectorTable.extends_of_empty _

/-- The signature that an instruction interns in a runtime. -/
def Instr.interned (r : RuntimeId) (w : World) : Instr → List Bytes
  | .insertSelector home name => if home = r ∧ (w.runtime? r).isSome then [name] else []
  | _ => []

/-- A runtime, once it is there, has the well-known signatures under their constants, and beside them those that
were interned in it. -/
structure World.Numbers (r : RuntimeId) (w : World) (interned : List Bytes) : Prop where
  consistent : (w.selectors r).Consistent
  wellKnown : w.Has r → SelectorTable.initial.Extends (w.selectors r)
  names : w.Has r → ∀ name, name ∈ (w.selectors r).names ↔ name ∈ Selector.wellKnown ∨ name ∈ interned
  nothing : ¬ w.Has r → interned = []

namespace World.Numbers

variable {w : World} {r : RuntimeId} {names : List Bytes}

/-- A runtime that is new. -/
theorem of_initial (hselectors : w.Has r → w.selectors r = .initial) : w.Numbers r [] := by
  by_cases hr : w.Has r
  · have hinitial := hselectors hr
    constructor
    · rw [hinitial]
      exact SelectorTable.consistent_initial
    · intro _
      rw [hinitial]
      exact .refl _
    · intro _ name
      rw [hinitial, SelectorTable.names_initial]
      simp
    · intro _
      rfl
  · constructor
    · rw [selectors_of_not_has hr]
      exact SelectorTable.consistent_empty
    · exact fun h => absurd h hr
    · exact fun h => absurd h hr
    · intro _
      rfl

/-- **An instruction adds what it interns**, and nothing else. -/
theorem exec (h : w.Numbers r names) (task : TaskId) (i : Instr) :
    (i.exec task w).2.Numbers r (names ++ i.interned r w) := by
  by_cases hr : w.Has r
  · obtain ⟨hhas, hselectors⟩ := i.exec_selectors task hr
    have hgrows := i.exec_grows task w r
    refine ⟨hgrows.consistent h.consistent, fun _ => (h.wellKnown hr).trans hgrows.extension, fun _ name => ?_,
      fun hnot => absurd hhas hnot⟩
    rw [hselectors, List.mem_append, ← or_assoc, ← h.names hr name]
    cases i with
    | insertSelector home other =>
      rw [Instr.numbering_insertSelector]
      obtain ⟨rt, hrt⟩ := hr
      by_cases hhome : home = r
      · simp [hhome, SelectorTable.mem_insert h.consistent, Instr.interned, hrt]
      · simp [hhome, Instr.interned]
    | _ => simp [Instr.numbering, Instr.interned]
  · have hnone := runtime?_of_not_has hr
    have hnothing : names ++ i.interned r w = [] := by
      rw [h.nothing hr, List.nil_append]
      cases i with
      | insertSelector home other => simp [Instr.interned, hnone]
      | _ => rfl
    rw [hnothing]
    exact of_initial (i.exec_selectors_new task hr)

end World.Numbers

/-! ## Runs -/

namespace Machine

open World

variable {m₀ m n : Machine} {r : RuntimeId} {τs : List Turn} {name : Bytes}

theorem grows_take {τ} (hτ : m.take τ = some n) (r : RuntimeId) : m.world.Grows r n.world := by
  obtain ⟨⟨id, prog, frames⟩, -, ⟨v, q, fs, hgo, rfl⟩ | ⟨o, p, -, -, rfl⟩⟩ := take_cases hτ
  · generalize τ.isExpiry = expired at hgo
    cases hgo with
    | perform i p => exact i.exec_grows id m.world r
    | resume | observe | await | expire | call | guard | pause => exact (interference_grows r).refl _
  · exact ⟨fun h => h, fun h => h, .refl _⟩

/-- No run changes a number. -/
theorem grows_run (h : Run m n) (r : RuntimeId) : m.world.Grows r n.world := by
  induction h with
  | refl => exact (interference_grows r).refl _
  | tail _ move ih =>
    obtain ⟨τ, hτ⟩ := move_iff.mp move
    exact (interference_grows r).trans ih (grows_take hτ r)

/-- **A table has the well-known signatures and those that were interned.** -/
theorem numbers_trace (hm₀ : m₀.Initial) (hnew : ∀ {r}, m₀.world.Has r → m₀.world.selectors r = .initial)
    (hrun : Trace (fun _ _ => True) m₀ τs m) (r : RuntimeId) :
    m.world.Numbers r (m₀.record (performed (Instr.interned r)) τs) := by
  refine history_trace (I := World.Numbers r) ?_ ?_ hm₀.reachable hrun [] (.of_initial hnew)
  · intro m j i k fs xs task _ _ _ h
    exact h.exec task i
  · intro w xs h
    exact ⟨h.consistent, h.wellKnown, h.names, h.nothing⟩

/-- **A task that interns a signature is told its number** in its second turn at the latest, whatever other tasks
do between its turns. -/
theorem attains_intern (hm : m.Reachable) (hr : m.world.Has r) (hconsistent : (m.world.selectors r).Consistent)
    {i k fs} (hat : m.At i (Op.intern r name k) fs) :
    m.Attains i fs 2 (fun _ => False) fun q p => ∃ n, p = k (.ok n) ∧ (q.world.selectors r).find? name = some n := by
  refine attains_of_prompt (E := fun v p => ∃ n, p = k (.ok n) ∧ (v.selectors r).find? name = some n)
    (interference_grows r) (fun _ hτ => grows_take hτ r) hm hat ?_
  -- A number that is found stays until the task goes on.
  have hfound {w : World} (hw : (w.selectors r).Consistent) {n : Nat} (hn : (w.selectors r).find? name = some n)
      {N : Nat} : (k (.ok n)).Prompt (Grows r) (fun _ => False)
        (fun v p => ∃ n, p = k (.ok n) ∧ (v.selectors r).find? name = some n) N w := by
    refine .there fun v hv => ⟨n, rfl, ?_⟩
    exact hv.extension.find? hw (hv.consistent hw) hn
  refine .observe fun t v hv => ?_
  have hv_consistent := hv.consistent hconsistent
  dsimp only
  cases hlooked : (v.selectors r).find? name with
  | some n => exact hfound hv_consistent hlooked
  | none =>
    -- Others may have inserted the signature since, so the insertion looks again.
    refine .perform fun t u hu => ?_
    have hhas := hu.has (hv.has hr)
    have hinserted := (Instr.exec_selectors t (.insertSelector r name) hhas).2
    rw [Instr.numbering_insertSelector, if_pos rfl] at hinserted
    refine hfound ((Instr.exec_grows t _ u r).consistent (hu.consistent hv_consistent)) ?_
    rw [hinserted]
    exact SelectorTable.find?_insert ..

/-- From now on a signature has a number, and no other signature has it. -/
def Numbered (m : Machine) (r : RuntimeId) (name : Bytes) (n : Nat) : Prop :=
  ∀ q, Run m q → ∀ other, (q.world.selectors r).lookup other = n ↔ other = name

theorem numbered_of_find? (hconsistent : (m.world.selectors r).Consistent) {n}
    (hn : (m.world.selectors r).find? name = some n) : m.Numbered r name n := by
  intro q hq other
  have hgrows := grows_run hq r
  have hplace := hgrows.extension n name ((hconsistent name n).mp hn)
  rw [(hgrows.consistent hconsistent).lookup_eq_iff, hplace]
  constructor
  · intro hother
    exact (Option.some.inj hother).symm
  · rintro rfl
    rfl

/-- Numbers that are given for good are the same just if the signatures are. -/
theorem Numbered.eq_iff {q q' z : Machine} {name' n n'} (h : q.Numbered r name n) (h' : q'.Numbered r name' n')
    (hz : Run q z) (hz' : Run q' z) : n = n' ↔ name = name' := by
  have hnumber := (h z hz name).mpr rfl
  rw [← h' z hz' name, hnumber]
  exact Int.natCast_inj.symm

/-- **The signatures of a runtime are a growing bijection.** In every state of every process, in the midst of any
number of calls that intern signatures: numbers and signatures are inverse to each other; a signature has no number
just if it is neither well-known nor was ever interned; the well-known ones have their constants; no later state has
another number for a signature or another signature for a number; and a call that interns a signature comes to its
end within two turns of its own, with a number that belongs to this signature for good. So all calls with one
signature are told one number, and calls with different signatures different ones. -/
theorem selectors_growing_bijection (hm₀ : m₀.Initial)
    (hnew : ∀ {r}, m₀.world.Has r → m₀.world.selectors r = .initial)
    (hrun : Trace (fun _ _ => True) m₀ τs m) (hr : m.world.Has r) :
    (∀ n : Nat, n < (m.world.selectors r).size →
      (m.world.selectors r).lookup ((m.world.selectors r).name n) = n) ∧
    (∀ name, (m.world.selectors r).lookup name ≠ -1 →
      (m.world.selectors r).name ((m.world.selectors r).lookup name) = name) ∧
    (∀ name, (m.world.selectors r).lookup name = -1 ↔
      name ∉ Selector.wellKnown ∧ name ∉ m₀.record (performed (Instr.interned r)) τs) ∧
    (∀ (n : Nat) name, Selector.wellKnown[n]? = some name → (m.world.selectors r).lookup name = n) ∧
    (∀ q, Run m q →
      (∀ name, (m.world.selectors r).lookup name ≠ -1 →
        (q.world.selectors r).lookup name = (m.world.selectors r).lookup name) ∧
      ∀ n : Nat, n < (m.world.selectors r).size → (q.world.selectors r).name n = (m.world.selectors r).name n) ∧
    (∀ {i name k fs}, m.At i (Op.intern r name k) fs → m.Attains i fs 2 (fun _ => False) fun q p =>
      ∃ n, p = k (.ok n) ∧ q.Numbered r name n) ∧
    ∀ {q q' z : Machine} {name name' : Bytes} {n n' : Nat}, q.Numbered r name n → q'.Numbered r name' n' →
      Run q z → Run q' z → (n = n' ↔ name = name') := by
  have hnumbers := numbers_trace hm₀ hnew hrun r
  have hconsistent := hnumbers.consistent
  -- Every place below the size is taken, and every signature with a number stands at a place.
  have hplace {n : Nat} (hn : n < (m.world.selectors r).size) :
      ∃ name, (m.world.selectors r).names[n]? = some name := ⟨_, Array.getElem?_eq_getElem hn⟩
  have hnamed {name : Bytes} (h : (m.world.selectors r).lookup name ≠ -1) :
      ∃ n : Nat, (m.world.selectors r).names[n]? = some name := by
    rw [ne_eq, hconsistent.lookup_eq_neg_iff, not_not] at h
    exact Array.getElem?_of_mem h
  refine ⟨?_, ?_, ?_, ?_, ?_, ?_, Numbered.eq_iff⟩
  · intro n hn
    obtain ⟨name, hname⟩ := hplace hn
    rw [SelectorTable.name_eq hname]
    exact hconsistent.lookup_eq_iff.mpr hname
  · intro name hname
    obtain ⟨n, hn⟩ := hnamed hname
    rw [hconsistent.lookup_eq_iff.mpr hn, SelectorTable.name_eq hn]
  · intro name
    rw [hconsistent.lookup_eq_neg_iff, hnumbers.names hr, not_or]
  · intro n name hname
    refine hconsistent.lookup_eq_iff.mpr (hnumbers.wellKnown hr n name ?_)
    rw [SelectorTable.names_initial]
    simpa using hname
  · intro q hq
    have hgrows := grows_run hq r
    constructor
    · intro name hname
      obtain ⟨n, hn⟩ := hnamed hname
      rw [hconsistent.lookup_eq_iff.mpr hn]
      exact (hgrows.consistent hconsistent).lookup_eq_iff.mpr (hgrows.extension n name hn)
    · intro n hn
      obtain ⟨name, hname⟩ := hplace hn
      rw [SelectorTable.name_eq hname, SelectorTable.name_eq (hgrows.extension n name hname)]
  · intro i name k fs hat
    have hm := hm₀.reachable.run hrun.run
    refine (attains_intern hm hr hconsistent hat).imp fun {q p} hq hpoint => ?_
    obtain ⟨n, rfl, hn⟩ := hpoint
    exact ⟨n, rfl, numbered_of_find? ((grows_run hq r).consistent hconsistent) hn⟩

/-! ### Two tasks that intern one signature at the same time -/

/-- What a task does with the number of a signature: it ends with it. -/
def numberAnswer : Except Err Nat → Prog
  | .ok n => .finish (.value (.ofInt32 (Int32.ofNat n)))
  | .error e => .finish (.error e)

/-- Two tasks that intern the same signature, and one that interns another. -/
def interning : Machine where
  world := World.single {} 3
  tasks := #[{ id := 0, prog := Op.intern 0 "f()" numberAnswer },
    { id := 1, prog := Op.intern 0 "f()" numberAnswer },
    { id := 2, prog := Op.intern 0 "g()" numberAnswer }]

theorem initial_interning : interning.Initial := by
  have hintern (name : Bytes) : Launchable (Op.intern 0 name numberAnswer) :=
    launchable_run inferInstance fun r => by cases r <;> exact ⟨_, rfl⟩
  exact initial_launch

/-- All three look before one of them inserts; the third has not inserted yet. -/
def interleaving : List Turn := [.step 0, .step 1, .step 2, .step 0, .step 1]

/-- The machine when the first two are through. -/
def interned : Machine := interning.after (fun _ _ => true) interleaving

theorem selectors_growing_bijection_interned : interning.Initial ∧
    (∀ {r}, interning.world.Has r → interning.world.selectors r = .initial) ∧
    Trace (fun _ _ => True) interning interleaving interned ∧ interned.world.Has 0 ∧
    (interned.world.selectors 0).lookup "f()" ≠ -1 ∧ (interned.world.selectors 0).lookup "g()" = -1 ∧
    (interned.world.selectors 0).lookup "toString()" = Selector.toText ∧
    interned.outcome? 0 = some (.value (.ofInt32 14)) ∧ interned.outcome? 1 = some (.value (.ofInt32 14)) := by
  have hnew : ∀ {r}, interning.world.Has r → interning.world.selectors r = .initial := by
    rintro r ⟨rt, hrt⟩
    obtain ⟨hlt, -⟩ := Array.getElem?_eq_some_iff.mp hrt
    cases Nat.lt_one_iff.mp hlt
    rfl
  have hrun : Trace (fun _ _ => True) interning interleaving interned :=
    follow_trace (fun _ => trivial) (follow_eq_after (by decide +kernel))
  have hhas : interned.world.Has 0 := ⟨_, rfl⟩
  obtain ⟨-, -, hnever, hconstant, -⟩ := selectors_growing_bijection initial_interning hnew hrun hhas
  refine ⟨initial_interning, hnew, hrun, hhas, ?_, ?_, hconstant 1 _ rfl, by decide +kernel, by decide +kernel⟩
  · rw [ne_eq, hnever]
    decide +kernel
  · rw [hnever]
    decide +kernel

end Machine

end ObjectKernel
