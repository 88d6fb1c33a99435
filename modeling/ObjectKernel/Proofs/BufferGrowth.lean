import Mathlib.Algebra.Group.Nat.Defs
import Mathlib.Data.Nat.Find
import ObjectKernel.Proofs.BufferCapacity
import ObjectKernel.Proofs.CallRuns

/-!
# The growth of a buffer

A buffer grows in the middle of its life, from whatever capacity it has come to, and growth stops at a limit
that need not be a double of anything. The capacity depends on the number of characters alone all the same:
it is the initial capacity doubled as often as these characters need, cut off at the limit. A capacity that
was cut off is the limit, and whatever needs more than that is refused, so doubling never goes on from it.

Below the characters there are cells: a row of them is allocated at the beginning and at each growth, the
characters are copied over, and what is appended overwrites the cells behind them. The characters that a
buffer shows are those in its cells, and there are as many cells as the capacity says.

## Contents

* `Config.doublings`, `Config.capacityFor`: the capacity for a number of characters.
* `Buffer.double_eq_min`: what doubling comes to. `Buffer.Doubled`: a buffer with the capacity for its
  characters. `Buffer.Doubled.append`, `Buffer.Doubled.foldl`: appends keep it.
* `Buffer.Doubling`: the loop with the products in it. `Buffer.doubling_grown`: it ends.
* `Buffer.Storage`: the cells of a buffer. `Buffer.Storage.view_append`: they show what the buffer has.
* `Machine.capacity_is_capacityFor`.
-/

namespace ObjectKernel

/-! ## The capacity for a number of characters -/

namespace Config

theorem exists_doublings (c : Config) (length : Nat) : ∃ k, length ≤ c.initialCapacity * 2 ^ k :=
  ⟨length, calc
    length ≤ 2 ^ length := Nat.lt_two_pow_self.le
    _ ≤ c.initialCapacity * 2 ^ length := Nat.le_mul_of_pos_left _ (Buffer.initialCapacity_pos c)⟩

/-- How often the initial capacity has to be doubled for a number of characters. -/
def doublings (c : Config) (length : Nat) : Nat := Nat.find (c.exists_doublings length)

/-- The capacity of a buffer with a number of characters: the initial one if that suffices, and otherwise the
least double of it that does, or the growth limit if that is less. -/
def capacityFor (c : Config) (length : Nat) : Nat :=
  if length ≤ c.initialCapacity then c.initialCapacity
  else min c.growthLimit (c.initialCapacity * 2 ^ c.doublings length)

variable {c : Config} {m n : Nat}

theorem le_doublings (c : Config) (n : Nat) : n ≤ c.initialCapacity * 2 ^ c.doublings n :=
  Nat.find_spec (c.exists_doublings n)

theorem doublings_le {k} (h : n ≤ c.initialCapacity * 2 ^ k) : c.doublings n ≤ k :=
  Nat.find_min' (c.exists_doublings n) h

theorem doublings_mono (h : m ≤ n) : c.doublings m ≤ c.doublings n :=
  doublings_le (h.trans (c.le_doublings n))

/-- As long as the capacity for some characters suffices, more of them do not change it. -/
theorem capacityFor_eq (hle : m ≤ n) (hfits : n ≤ c.capacityFor m) : c.capacityFor n = c.capacityFor m := by
  unfold capacityFor at hfits ⊢
  by_cases hm : m ≤ c.initialCapacity
  · rw [if_pos hm] at hfits ⊢
    rw [if_pos hfits]
  · rw [if_neg hm] at hfits ⊢
    have hn : ¬n ≤ c.initialCapacity := by omega
    have hsame : c.doublings n = c.doublings m :=
      Nat.le_antisymm (doublings_le (hfits.trans (Nat.min_le_right ..))) (doublings_mono hle)
    rw [if_neg hn, hsame]

/-- A capacity that is less than the limit is a double of the initial one. -/
theorem capacityFor_of_lt (h : c.capacityFor n < c.growthLimit) :
    ∃ j ≤ c.doublings n, c.capacityFor n = c.initialCapacity * 2 ^ j := by
  unfold capacityFor at h ⊢
  by_cases hn : n ≤ c.initialCapacity
  · rw [if_pos hn]
    exact ⟨0, Nat.zero_le _, (Nat.mul_one _).symm⟩
  · rw [if_neg hn] at h ⊢
    exact ⟨c.doublings n, Nat.le_refl _, Nat.min_eq_right (by omega)⟩

end Config

namespace Buffer

variable {needed : Nat}

/-! ## Doubling -/

/-- Doubling from a double of the initial capacity on comes to the least one that suffices, or to the
limit. -/
theorem double_eq_min {c : Config} (fuel : Nat) {j} (hj : j ≤ c.doublings needed)
    (hlimit : c.initialCapacity * 2 ^ j ≤ c.growthLimit) (hfuel : needed ≤ c.initialCapacity * 2 ^ j + fuel) :
    double c.growthLimit needed fuel (c.initialCapacity * 2 ^ j) =
      min c.growthLimit (c.initialCapacity * 2 ^ c.doublings needed) := by
  have hstop (h : needed ≤ c.initialCapacity * 2 ^ j) : c.initialCapacity * 2 ^ j =
      min c.growthLimit (c.initialCapacity * 2 ^ c.doublings needed) := by
    rw [Nat.le_antisymm (Config.doublings_le h) hj]
    exact (Nat.min_eq_right hlimit).symm
  induction fuel generalizing j with
  | zero => exact hstop hfuel
  | succ fuel ih =>
    unfold double
    by_cases henough : needed ≤ c.initialCapacity * 2 ^ j
    · rw [if_pos henough]
      exact hstop henough
    · have hpow : c.initialCapacity * 2 ^ (j + 1) = c.initialCapacity * 2 ^ j * 2 := by
        rw [Nat.pow_succ, Nat.mul_assoc]
      have hnext : j + 1 ≤ c.doublings needed := by
        refine Nat.lt_of_le_of_ne hj ?_
        rintro rfl
        exact henough (c.le_doublings needed)
      rw [if_neg henough]
      by_cases hhalf : c.growthLimit / 2 < c.initialCapacity * 2 ^ j
      · rw [if_pos hhalf]
        have hgrows : c.initialCapacity * 2 ^ (j + 1) ≤ c.initialCapacity * 2 ^ c.doublings needed :=
          Nat.mul_le_mul_left _ (Nat.pow_le_pow_right (by decide) hnext)
        exact (Nat.min_eq_left (by omega)).symm
      · have hpos : 0 < c.initialCapacity * 2 ^ j :=
          Nat.mul_pos (initialCapacity_pos c) (Nat.pow_pos (by decide))
        rw [if_neg hhalf, ← hpow]
        refine ih hnext (by omega) (by omega) fun h => ?_
        rw [Nat.le_antisymm (Config.doublings_le h) hnext]
        exact (Nat.min_eq_right (by omega)).symm

/-- A buffer has the capacity for the characters that it holds. -/
structure Doubled (c : Config) (b : Buffer) : Prop where
  roomy : b.Roomy
  capacity : b.capacity = c.capacityFor b.length

theorem doubled_empty (c : Config) : (empty c.initialCapacity).Doubled c :=
  ⟨roomy_empty (initialCapacity_pos c), (if_pos (Nat.zero_le _)).symm⟩

variable {c : Config} {b : Buffer}

/-- Growth comes to the capacity for what is needed. -/
theorem Doubled.grown (h : b.Doubled c) (hcapacity : b.capacity < needed) (hlimit : needed ≤ c.growthLimit) :
    grown c.growthLimit needed b.capacity = c.capacityFor needed := by
  have hbelow : c.capacityFor b.length < c.growthLimit := by
    rw [← h.capacity]
    omega
  obtain ⟨j, hj, hdouble⟩ := Config.capacityFor_of_lt hbelow
  rw [← h.capacity] at hdouble
  have hlength := h.roomy.length
  have hmono : c.doublings b.length ≤ c.doublings needed := Config.doublings_mono (by omega)
  have hinitial : ¬needed ≤ c.initialCapacity := by
    have hpow : c.initialCapacity ≤ c.initialCapacity * 2 ^ j :=
      Nat.le_mul_of_pos_right _ (Nat.pow_pos (by decide))
    omega
  unfold Buffer.grown Config.capacityFor
  rw [if_neg h.roomy.pos.ne', if_neg hinitial, hdouble]
  exact double_eq_min _ (hj.trans hmono) (by omega) (by omega)

/-- **The capacity is a function of the length**: an append keeps it so, whether it fits or not. -/
theorem Doubled.append (h : b.Doubled c) (x : List Rune) : (b.append c.growthLimit x).Doubled c := by
  refine ⟨h.roomy.append c.growthLimit x, ?_⟩
  unfold Buffer.append
  split
  · exact h.capacity
  · dsimp only
    split
    · rename_i hfits
      rw [h.capacity] at hfits ⊢
      exact (Config.capacityFor_eq (Nat.le_add_right ..) hfits).symm
    · rename_i hcapacity
      split
      · exact h.capacity
      · rename_i hlimit
        exact h.grown (Nat.lt_of_not_le hcapacity) (Nat.le_of_not_lt hlimit)

theorem Doubled.foldl (h : b.Doubled c) (xs : List (List Rune)) :
    (xs.foldl (Buffer.append c.growthLimit) b).Doubled c := by
  induction xs generalizing b with
  | nil => exact h
  | cons x xs ih => exact ih (h.append x)

/-! ## Appends that fail, and all others -/

/-- An append that fails or is ignored leaves the capacity as it is. -/
theorem capacity_append_of_failed {limit x} (h : (b.append limit x).failure.isSome) :
    (b.append limit x).capacity = b.capacity := by
  unfold Buffer.append at h ⊢
  split
  · rfl
  · rename_i hgood
    rw [if_neg hgood] at h
    dsimp only at h ⊢
    split
    · rfl
    · rename_i hcapacity
      rw [if_neg hcapacity] at h
      split
      · rfl
      · rename_i hlimit
        rw [if_neg hlimit] at h
        exact absurd h hgood

/-- No append makes the capacity less. -/
theorem Roomy.capacity_le_append (h : b.Roomy) (limit : Nat) (x : List Rune) :
    b.capacity ≤ (b.append limit x).capacity := by
  unfold Buffer.append
  split
  · exact Nat.le_refl _
  · dsimp only
    split
    · exact Nat.le_refl _
    · split
      · exact Nat.le_refl _
      · exact (grown_bounds _ h.pos (by omega)).1

theorem Roomy.capacity_le_foldl (h : b.Roomy) (limit : Nat) (xs : List (List Rune)) :
    b.capacity ≤ (xs.foldl (Buffer.append limit) b).capacity := by
  induction xs generalizing b with
  | nil => exact Nat.le_refl _
  | cons x xs ih => exact (h.capacity_le_append limit x).trans (ih (h.append limit x))

/-! ## The loop -/

/-- The loop that doubles a capacity until it suffices or doubling would exceed the limit, with the products
that it computes on the way. -/
inductive Doubling (limit needed : Nat) : Nat → List Nat → Nat → Prop where
  | enough {capacity : Nat} (fits : needed ≤ capacity) : Doubling limit needed capacity [] capacity
  | cutOff {capacity : Nat} (short : capacity < needed) (half : limit / 2 < capacity) :
      Doubling limit needed capacity [] limit
  | double {capacity : Nat} {products : List Nat} {result : Nat} (short : capacity < needed)
      (half : capacity ≤ limit / 2) (next : Doubling limit needed (capacity * 2) products result) :
      Doubling limit needed capacity (capacity * 2 :: products) result

variable {limit needed capacity : Nat} {products : List Nat} {result : Nat}

/-- No product exceeds the limit. -/
theorem Doubling.product_le (h : Doubling limit needed capacity products result) : ∀ p ∈ products, p ≤ limit := by
  induction h with
  | enough | cutOff => exact nofun
  | double _ half _ ih => exact List.forall_mem_cons.mpr ⟨by omega, ih⟩

/-- The loop goes one way only. -/
theorem Doubling.unique (h : Doubling limit needed capacity products result) {products' result'}
    (h' : Doubling limit needed capacity products' result') : products' = products ∧ result' = result := by
  induction h generalizing products' result' with
  | enough =>
    cases h' with
    | enough => exact ⟨rfl, rfl⟩
    | cutOff | double => omega
  | cutOff =>
    cases h' with
    | cutOff => exact ⟨rfl, rfl⟩
    | enough | double => omega
  | double _ _ _ ih =>
    cases h' with
    | double _ _ next =>
      obtain ⟨rfl, rfl⟩ := ih next
      exact ⟨rfl, rfl⟩
    | enough | cutOff => omega

theorem doubling_double (limit needed fuel : Nat) (hpos : 0 < capacity) (hfuel : needed ≤ capacity + fuel) :
    ∃ products, Doubling limit needed capacity products (double limit needed fuel capacity) := by
  induction fuel generalizing capacity with
  | zero => exact ⟨[], .enough hfuel⟩
  | succ fuel ih =>
    unfold double
    split
    · rename_i henough
      exact ⟨[], .enough henough⟩
    · rename_i hshort
      split
      · rename_i hhalf
        exact ⟨[], .cutOff (Nat.lt_of_not_le hshort) hhalf⟩
      · rename_i hhalf
        -- A doubling adds one at least, so that the fuel suffices.
        have hdouble : 0 < capacity * 2 := by omega
        obtain ⟨products, hnext⟩ := ih hdouble (by omega)
        exact ⟨_, .double (Nat.lt_of_not_le hshort) (Nat.le_of_not_lt hhalf) hnext⟩

/-- **The loop ends**, with the capacity after growth. -/
theorem doubling_grown (limit needed : Nat) (hpos : 0 < capacity) :
    ∃ products, Doubling limit needed capacity products (grown limit needed capacity) := by
  unfold grown
  rw [if_neg hpos.ne']
  exact doubling_double limit needed _ hpos (by omega)

/-! ## Cells -/

/-- The cells of a buffer, of which the first ones hold its characters. -/
structure Storage where
  cells : List Rune
  length : Nat := 0
  capacity : Nat
  failure : Option Err := none

namespace Storage

/-- Cells that nothing was put into. -/
def blank (n : Nat) : List Rune := List.replicate n 0

/-- Copies characters over the cells from a position on, as far as there are cells. -/
def copyTo (cells : List Rune) (position : Nat) (cs : List Rune) : List Rune :=
  cells.take position ++ cs.take (cells.length - position) ++ cells.drop (position + cs.length)

/-- The cells of a new buffer. -/
def new (capacity : Nat) : Storage := { cells := blank capacity, capacity }

/-- Copies characters behind those that are there. -/
def put (s : Storage) (cs : List Rune) : Storage :=
  { s with cells := copyTo s.cells s.length cs, length := s.length + cs.length }

/-- Moves the characters to a new row of cells. -/
def resize (s : Storage) (capacity : Nat) : Storage :=
  { s with cells := copyTo (blank capacity) 0 (s.cells.take s.length), capacity }

/-- Appends characters, in new cells if there are too few and the limit allows for more. -/
def append (limit : Nat) (s : Storage) (cs : List Rune) : Storage :=
  if s.failure.isSome then s
  else
    let needed := s.length + cs.length
    if needed ≤ s.capacity then s.put cs
    else if limit < needed then { s with failure := some (.fault (.bufferFull needed limit)) }
    else (s.resize (grown limit needed s.capacity)).put cs

/-- What the cells show. -/
def view (s : Storage) : Buffer where
  reversed := (s.cells.take s.length).reverse
  length := s.length
  capacity := s.capacity
  failure := s.failure

/-- There are as many cells as the capacity says, and the characters are in them. -/
structure Sound (s : Storage) : Prop where
  cells : s.cells.length = s.capacity
  length : s.length ≤ s.capacity
  pos : 0 < s.capacity

variable {cells cs : List Rune} {position : Nat} {s : Storage}

theorem length_copyTo (h : position + cs.length ≤ cells.length) :
    (copyTo cells position cs).length = cells.length := by
  unfold copyTo
  simp only [List.length_append, List.length_take, List.length_drop]
  omega

theorem take_copyTo (h : position + cs.length ≤ cells.length) :
    (copyTo cells position cs).take (position + cs.length) = cells.take position ++ cs := by
  unfold copyTo
  have hall : cs.take (cells.length - position) = cs := List.take_of_length_le (by omega)
  have hlength : (cells.take position ++ cs).length = position + cs.length := by
    rw [List.length_append, List.length_take, Nat.min_eq_left (by omega)]
  rw [hall, List.take_append_of_le_length (by omega), List.take_of_length_le (by omega)]

theorem sound_new (h : 0 < capacity) : (new capacity).Sound :=
  ⟨List.length_replicate, Nat.zero_le _, h⟩

theorem view_new (capacity : Nat) : (new capacity).view = empty capacity := rfl

theorem Sound.put (h : s.Sound) (hfits : s.length + cs.length ≤ s.capacity) : (s.put cs).Sound := by
  have hcells : s.length + cs.length ≤ s.cells.length := h.cells ▸ hfits
  exact ⟨(length_copyTo hcells).trans h.cells, hfits, h.pos⟩

/-- What is put behind the characters shows behind them. -/
theorem Sound.view_put (h : s.Sound) (hfits : s.length + cs.length ≤ s.capacity) :
    (s.put cs).view = { s.view with
      reversed := cs.foldl (fun r c => c :: r) s.view.reversed, length := s.length + cs.length } := by
  have hcells : s.length + cs.length ≤ s.cells.length := h.cells ▸ hfits
  unfold view Storage.put
  simp only [take_copyTo hcells, List.reverse_append, List.foldl_flip_cons_eq_append']

theorem Sound.resize (h : s.Sound) (hle : s.capacity ≤ capacity) :
    (s.resize capacity).Sound ∧ (s.resize capacity).view = { s.view with capacity } := by
  have hblank : (blank capacity).length = capacity := List.length_replicate
  have hlength : (s.cells.take s.length).length = s.length := by
    rw [List.length_take, h.cells, Nat.min_eq_left h.length]
  have hfits : 0 + (s.cells.take s.length).length ≤ (blank capacity).length := by
    rw [hlength, hblank]
    have := h.length
    omega
  have hpos := h.pos
  have hshort := h.length
  refine ⟨⟨(length_copyTo hfits).trans hblank, hshort.trans hle, hpos.trans_le hle⟩, ?_⟩
  have hcopy := take_copyTo hfits
  rw [hlength, Nat.zero_add, List.take_zero, List.nil_append] at hcopy
  unfold view Storage.resize
  simp only [hcopy]

/-- **Appending to the cells is appending to the buffer that they show**, and the cells stay as many as the
capacity says. -/
theorem Sound.append (h : s.Sound) (limit : Nat) (cs : List Rune) :
    (s.append limit cs).Sound ∧ (s.append limit cs).view = s.view.append limit cs := by
  unfold Storage.append Buffer.append
  by_cases hfailed : s.failure.isSome = true
  · rw [if_pos hfailed, if_pos (show s.view.failure.isSome = true from hfailed)]
    exact ⟨h, rfl⟩
  · rw [if_neg hfailed, if_neg (show ¬s.view.failure.isSome = true from hfailed)]
    dsimp only
    by_cases hfits : s.length + cs.length ≤ s.capacity
    · rw [if_pos hfits, if_pos (show s.view.length + cs.length ≤ s.view.capacity from hfits)]
      exact ⟨h.put hfits, h.view_put hfits⟩
    · rw [if_neg hfits, if_neg (show ¬s.view.length + cs.length ≤ s.view.capacity from hfits)]
      by_cases hlimit : limit < s.length + cs.length
      · rw [if_pos hlimit, if_pos (show limit < s.view.length + cs.length from hlimit)]
        exact ⟨⟨h.cells, h.length, h.pos⟩, rfl⟩
      · rw [if_neg hlimit, if_neg (show ¬limit < s.view.length + cs.length from hlimit)]
        have hcapacity : s.capacity ≤ limit := by omega
        have hgrown := (grown_bounds (s.length + cs.length) h.pos hcapacity).1
        have hroom := le_grown h.pos (Nat.le_of_not_lt hlimit)
        obtain ⟨hsound, hview⟩ := h.resize hgrown
        refine ⟨hsound.put hroom, ?_⟩
        rw [hsound.view_put hroom, hview]
        rfl

theorem Sound.foldl (h : s.Sound) (limit : Nat) (xs : List (List Rune)) : (xs.foldl (Storage.append limit) s).Sound ∧
      (xs.foldl (Storage.append limit) s).view = xs.foldl (Buffer.append limit) s.view := by
  induction xs generalizing s with
  | nil => exact ⟨h, rfl⟩
  | cons x xs ih =>
    obtain ⟨hsound, hview⟩ := h.append limit x
    rw [List.foldl_cons, List.foldl_cons, ← hview]
    exact ih hsound

end Storage

end Buffer

/-! ## Buffers of a runtime -/

namespace Machine

/-- **The capacity of a buffer is a function of its length.** A task of a machine that can be reached makes a
buffer for a runtime, with whatever settings, and any turns of any tasks follow, and then any more. The
capacity is that for the number of characters, however they came there. It is no less later on, and the same
after an append that fails or is ignored. The row of cells that the same appends make of a new one shows the
buffer and is as long as its capacity. From there, the loop that doubles the capacity ends, whatever is
needed, and no product in it exceeds the limit. -/
theorem capacity_is_capacityFor {m m₁ n n' : Machine} (hm : m.Reachable) {i : Nat} {home : RuntimeId}
    {b : ObjId} (hnew : m.Makes i home b) (hstep : m.take (.step i) = some m₁) {τs τs' : List Turn}
    (hrun : Trace (fun _ _ => True) m₁ τs n) (hlater : Trace (fun _ _ => True) n τs' n') :
    let c := m.world.config home
    let s := (m₁.record (pieces b) τs).foldl (Buffer.Storage.append c.growthLimit)
      (Buffer.Storage.new c.initialCapacity)
    ∃ buf buf', n.world.buffer? b = some (some home, buf) ∧ n'.world.buffer? b = some (some home, buf') ∧
      buf.capacity = c.capacityFor buf.length ∧ buf.capacity ≤ buf'.capacity ∧
      (∀ cs, (buf.append c.growthLimit cs).failure.isSome →
        (buf.append c.growthLimit cs).capacity = buf.capacity) ∧
      (s.view = buf ∧ s.cells.length = buf.capacity) ∧
      ∀ needed, ∃ products,
        (∀ products' r, Buffer.Doubling c.growthLimit needed buf.capacity products' r ↔
          products' = products ∧ r = Buffer.grown c.growthLimit needed buf.capacity) ∧
        ∀ p ∈ products, p ≤ c.growthLimit := by
  obtain ⟨hb, hconfig⟩ := buffer_of_makes hnew hstep
  have hreach := hm.take hstep
  have hbuf := buffer_trace hreach hb hrun
  have hbuf' := buffer_trace hreach hb (hrun.append hlater)
  rw [hrun.record_append, List.foldl_append] at hbuf'
  rw [hconfig] at hbuf hbuf'
  intro c s
  have hdoubled := (Buffer.doubled_empty c).foldl (m₁.record (pieces b) τs)
  have hstorage := (Buffer.Storage.sound_new (Buffer.initialCapacity_pos c)).foldl c.growthLimit
    (m₁.record (pieces b) τs)
  obtain ⟨hsound, hview⟩ := hstorage
  have hlarger := hdoubled.roomy.capacity_le_foldl c.growthLimit (n.record (pieces b) τs')
  refine ⟨_, _, hbuf, hbuf', hdoubled.capacity, hlarger, ?_, ⟨hview, ?_⟩, ?_⟩
  · intro cs
    exact Buffer.capacity_append_of_failed
  · rw [hsound.cells, ← Buffer.Storage.view_new, ← hview]
    rfl
  · intro needed
    obtain ⟨products, hloop⟩ := Buffer.doubling_grown c.growthLimit needed hdoubled.roomy.pos
    refine ⟨products, fun products' r => ⟨hloop.unique, ?_⟩, hloop.product_le⟩
    rintro ⟨rfl, rfl⟩
    exact hloop

/-! ### A buffer that is cut off at ten characters -/

/-- Makes a buffer and appends four characters, then five, then two. -/
def pour : Op Unit := do
  let b ← Op.newBuffer (some 0)
  Op.append b (List.replicate 4 97)
  Op.append b (List.replicate 5 98)
  Op.append b (List.replicate 2 99)

/-- A task that fills a buffer of a runtime with an initial capacity of three and a growth limit of ten. -/
def pouring : Machine where
  world := World.single (limitTen 3) 1
  tasks := #[{ id := 0, prog := pour.toProgUnit }]

instance : Op.Lawful [.home (some 0)] pour := by
  unfold pour
  infer_instance

theorem initial_pouring : pouring.Initial := initial_launch

/-- The machine after a number of turns. -/
def poured : Nat → Machine
  | 0 => pouring
  | turns + 1 => (poured turns).after (fun _ _ => true) [.step 0]

/-- Four characters need one doubling. Nine need two, which would lead to twelve: the capacity is cut off, and
eleven characters do not fit. -/
theorem capacity_is_capacityFor_four : pouring.Reachable ∧ pouring.Makes 0 0 0 ∧
    Trace (fun _ _ => True) (poured 1) [.step 0] (poured 2) ∧
    Trace (fun _ _ => True) (poured 2) [.step 0, .step 0] (poured 4) ∧
    ∃ buf buf', (poured 2).world.buffer? 0 = some (some 0, buf) ∧
      (poured 4).world.buffer? 0 = some (some 0, buf') ∧ buf.length = 4 ∧ buf.capacity = 6 ∧
      (limitTen 3).capacityFor 4 = 6 ∧ buf'.failure.isSome ∧ buf'.length = 9 ∧ buf'.capacity = 10 := by
  have hreach := initial_pouring.reachable
  have hnew : pouring.Makes 0 0 0 := ⟨_, _, _, ⟨_, rfl, rfl, rfl⟩, rfl⟩
  have hrun : Trace (fun _ _ => True) (poured 1) [.step 0] (poured 2) :=
    follow_trace (fun _ => trivial) (follow_eq_after (by decide +kernel))
  have hnext : Trace (fun _ _ => True) (poured 2) [.step 0] (poured 3) :=
    follow_trace (fun _ => trivial) (follow_eq_after (by decide +kernel))
  have hlast : Trace (fun _ _ => True) (poured 3) [.step 0] (poured 4) :=
    follow_trace (fun _ => trivial) (follow_eq_after (by decide +kernel))
  have hlater := hnext.append hlast
  obtain ⟨buf, buf', hbuf, hbuf', hcapacity, -⟩ := capacity_is_capacityFor hreach hnew rfl hrun hlater
  refine ⟨hreach, hnew, hrun, hlater, buf, buf', hbuf, hbuf', ?_⟩
  have hfour : (poured 2).world.buffer? 0 =
      some (some 0, { reversed := List.replicate 4 97, length := 4, capacity := 6 }) := by decide +kernel
  have hnine : (poured 4).world.buffer? 0 = some (some 0,
      { reversed := List.replicate 5 98 ++ List.replicate 4 97, length := 9, capacity := 10,
        failure := some (.fault (.bufferFull 11 10)) }) := by decide +kernel
  cases hbuf.symm.trans hfour
  cases hbuf'.symm.trans hnine
  exact ⟨rfl, rfl, hcapacity.symm, rfl, rfl, rfl⟩

end Machine

end ObjectKernel
