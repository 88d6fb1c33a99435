/-!
# Dictionaries

Finite maps as lists of pairs, in the order in which their keys were first inserted. An insertion
replaces the value of a key that is there and appends one that is not.

## Contents

* `Dictionary.get?`, `insert`, `erase`, `keys`.
* What a look-up finds, also after an insertion or an erasure.
-/

namespace ObjectKernel

/-- A finite map in order of first insertion. -/
abbrev Dictionary (α β : Type) := List (α × β)

namespace Dictionary

variable {α β : Type} [DecidableEq α]

/-- The value of a key. -/
def get? : Dictionary α β → α → Option β
  | [], _ => none
  | (k, v) :: rest, a => if k = a then some v else get? rest a

/-- The dictionary with the value of a key set. -/
def insert : Dictionary α β → α → β → Dictionary α β
  | [], a, b => [(a, b)]
  | (k, v) :: rest, a, b => if k = a then (k, b) :: rest else (k, v) :: insert rest a b

/-- The dictionary without a key. -/
def erase : Dictionary α β → α → Dictionary α β
  | [], _ => []
  | (k, v) :: rest, a => if k = a then erase rest a else (k, v) :: erase rest a

/-- The keys, in order of first insertion. -/
def keys (d : Dictionary α β) : List α := d.map Prod.fst

@[simp] theorem get?_nil (a : α) : get? ([] : Dictionary α β) a = none := rfl

theorem mem_of_get? {d : Dictionary α β} {a b} (h : d.get? a = some b) : (a, b) ∈ d := by
  induction d with
  | nil => simp at h
  | cons p rest ih =>
    by_cases hp : p.1 = a
    · simp only [get?, hp, if_true, Option.some.injEq] at h
      simp [← hp, ← h]
    · simp only [get?, hp, if_false] at h
      exact List.mem_cons_of_mem p (ih h)

@[simp] theorem get?_insert_self (d : Dictionary α β) (a : α) (b : β) : (d.insert a b).get? a = some b := by
  induction d with
  | nil => simp [insert, get?]
  | cons p rest ih =>
    by_cases h : p.1 = a
    · simp [insert, get?, h]
    · simp [insert, get?, h, ih]

theorem get?_insert_of_ne (d : Dictionary α β) {a c} (b : β) (h : c ≠ a) : (d.insert a b).get? c = d.get? c := by
  induction d with
  | nil => simp [insert, get?, Ne.symm h]
  | cons p rest ih =>
    by_cases hp : p.1 = a
    · simp [insert, get?, hp, Ne.symm h]
    · simp [insert, get?, hp, ih]

@[simp] theorem get?_erase_self (d : Dictionary α β) (a : α) : (d.erase a).get? a = none := by
  induction d with
  | nil => rfl
  | cons p rest ih =>
    by_cases h : p.1 = a
    · simp [erase, h, ih]
    · simp [erase, h, get?, ih]

theorem get?_erase_of_ne (d : Dictionary α β) {a c} (h : c ≠ a) : (d.erase a).get? c = d.get? c := by
  induction d with
  | nil => rfl
  | cons p rest ih =>
    by_cases hp : p.1 = a
    · simp [erase, hp, get?, Ne.symm h, ih]
    · simp [erase, hp, get?, ih]

end Dictionary

end ObjectKernel
