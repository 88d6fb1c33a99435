import ObjectKernel.Proofs.BufferHistory

/-!
# The capacity of a buffer

A buffer never holds more characters than its capacity, which starts at the initial capacity and doubles up
to the growth limit. Settings that a runtime honours keep the initial capacity that they give within the
growth limit, but an initial capacity of zero stands for a default that is checked against nothing. So the
growth limit bounds the capacity of every buffer of a runtime if the initial capacity is given or the limit
is no less than the default, and otherwise of none.

## Contents

* `Buffer.le_grown`: growth makes room. `Buffer.Roomy`, `Buffer.Roomy.append`, `Buffer.Roomy.foldl`: a
  buffer has room for what it holds.
* `Config.initialCapacity_le_iff`: when the initial capacity is within the growth limit.
* `Machine.capacity_le_limit_iff`.
-/

namespace ObjectKernel

namespace Buffer

variable {capacity needed limit : Nat} {b : Buffer}

/-! ## Room -/

/-- Doubling comes to hold what is needed if the limit does. -/
theorem le_double (h : needed ≤ limit) (fuel : Nat) (hpos : 0 < capacity) (hfuel : needed ≤ capacity + fuel) :
    needed ≤ double limit needed fuel capacity := by
  induction fuel generalizing capacity with
  | zero => exact hfuel
  | succ fuel ih =>
    unfold double
    split
    · assumption
    · split
      · exact h
      · -- A doubling adds one at least, so that the fuel suffices.
        exact ih (by omega) (by omega)

theorem le_grown (hpos : 0 < capacity) (h : needed ≤ limit) : needed ≤ grown limit needed capacity := by
  unfold grown
  rw [if_neg hpos.ne']
  exact le_double h _ hpos (by omega)

/-- A buffer has room for what it holds, and some. -/
structure Roomy (b : Buffer) : Prop where
  pos : 0 < b.capacity
  length : b.length ≤ b.capacity

theorem roomy_empty (h : 0 < capacity) : (empty capacity).Roomy := ⟨h, Nat.zero_le _⟩

theorem Roomy.append (h : b.Roomy) (limit : Nat) (x : List Rune) : (b.append limit x).Roomy := by
  unfold Buffer.append
  split
  · exact h
  · dsimp only
    split
    · rename_i hfits
      exact ⟨h.pos, hfits⟩
    · split
      · exact ⟨h.pos, h.length⟩
      · rename_i hcapacity hlimit
        have hneeded : b.length + x.length ≤ grown limit (b.length + x.length) b.capacity :=
          le_grown h.pos (Nat.le_of_not_lt hlimit)
        refine ⟨?_, hneeded⟩
        show 0 < grown limit (b.length + x.length) b.capacity
        omega

theorem Roomy.foldl (h : b.Roomy) (limit : Nat) (xs : List (List Rune)) :
    (xs.foldl (Buffer.append limit) b).Roomy := by
  induction xs generalizing b with
  | nil => exact h
  | cons x xs ih => exact ih (h.append limit x)

end Buffer

/-! ## Settings -/

namespace Config

variable {c : Config}

theorem capacities_of_validate (h : c.validate = .ok ()) (hlimit : 0 < c.maxBufferCapacity) :
    0 ≤ c.bufferInitialCapacity ∧ c.bufferInitialCapacity ≤ c.maxBufferCapacity := by
  unfold validate at h
  split at h
  · cases h
  · split at h
    · cases h
    · split at h
      · cases h
      · split at h
        · cases h
        · rename_i hinitial _ hexceeds
          omega

/-- Settings that are honoured keep the initial capacity within the growth limit, unless it is left to a
default that is beyond it. -/
theorem initialCapacity_le_iff (h : c.validate = .ok ()) (hlimit : 0 < c.maxBufferCapacity) :
    c.initialCapacity ≤ c.growthLimit ↔
      c.bufferInitialCapacity ≠ 0 ∨ (defaultBufferCapacity : Int) ≤ c.maxBufferCapacity := by
  obtain ⟨hinitial, hle⟩ := capacities_of_validate h hlimit
  unfold initialCapacity growthLimit
  rw [if_pos hlimit]
  split <;> omega

end Config

/-! ## Buffers of a runtime -/

namespace Machine

/-- **The growth limit bounds a buffer exactly if it bounds the initial capacity.** A task of a machine
that can be reached makes a buffer for a runtime whose settings are honoured and give a growth limit, and
any turns of any tasks follow. Then the buffer holds no more than its capacity, and its capacity is within
the limit if and only if the settings give an initial capacity, or a limit that is no less than the
default one. Otherwise the capacity is and stays the default. -/
theorem capacity_le_limit_iff {m m₁ n : Machine} (hm : m.Reachable) {i : Nat} {home : RuntimeId}
    {b : ObjId} (hvalid : (m.world.config home).validate = .ok ())
    (hlimit : 0 < (m.world.config home).maxBufferCapacity) (hnew : m.Makes i home b)
    (hstep : m.take (.step i) = some m₁) {τs : List Turn} (hrun : Trace (fun _ _ => True) m₁ τs n) :
    ∃ buf, n.world.buffer? b = some (some home, buf) ∧ buf.length ≤ buf.capacity ∧
      ((buf.capacity : Int) ≤ (m.world.config home).maxBufferCapacity ↔
        (m.world.config home).bufferInitialCapacity ≠ 0 ∨
          (Config.defaultBufferCapacity : Int) ≤ (m.world.config home).maxBufferCapacity) ∧
      ((m.world.config home).maxBufferCapacity < buf.capacity →
        buf.capacity = Config.defaultBufferCapacity) := by
  obtain ⟨hb, hconfig⟩ := buffer_of_makes hnew hstep
  have hbuf := buffer_trace (hm.take hstep) hb hrun
  rw [hconfig] at hbuf
  have hinitial := Config.initialCapacity_le_iff hvalid hlimit
  generalize m.world.config home = c at *
  have hroomy := (Buffer.roomy_empty (Buffer.initialCapacity_pos c)).foldl c.growthLimit
    (m₁.record (pieces b) τs)
  have hfed := (Buffer.fed_empty c).foldl (m₁.record (pieces b) τs)
  have hgrowth : (c.growthLimit : Int) = c.maxBufferCapacity := by
    unfold Config.growthLimit
    rw [if_pos hlimit]
    omega
  have hlow := hfed.initial
  have hhigh := hfed.bounded
  unfold Buffer.bound at hhigh
  refine ⟨_, hbuf, hroomy.length, ?_, fun hexceeds => ?_⟩
  · rw [← hinitial]
    omega
  · -- Beyond the limit there is no growth, so the capacity is the one that the buffer began with.
    have hdefault : c.initialCapacity = Config.defaultBufferCapacity := by
      have hbeyond : ¬c.initialCapacity ≤ c.growthLimit := by omega
      rw [hinitial, not_or] at hbeyond
      unfold Config.initialCapacity
      rw [if_neg (by omega)]
    omega

/-! ### A buffer that is to hold eleven characters -/

/-- Makes a buffer and appends eleven characters. -/
def stuff : Op Unit := do
  let b ← Op.newBuffer (some 0)
  Op.append b (List.replicate 11 97)

/-- Settings that limit growth to ten characters. -/
def limitTen (initial : Int) : Config := { bufferInitialCapacity := initial, maxBufferCapacity := 10 }

/-- A task that stuffs a buffer of a runtime with a growth limit of ten. -/
def stuffing (initial : Int) : Machine where
  world := World.single (limitTen initial) 1
  tasks := #[{ id := 0, prog := stuff.toProgUnit }]

instance : Op.Lawful [.home (some 0)] stuff := by
  unfold stuff
  infer_instance

theorem initial_stuffing (initial : Int) : (stuffing initial).Initial := initial_launch

/-- The machine with the new buffer. -/
def provided (initial : Int) : Machine := (stuffing initial).after (fun _ _ => true) [.step 0]

/-- The machine once the characters are appended, as far as they fit. -/
def stuffed (initial : Int) : Machine := (provided initial).after (fun _ _ => true) [.step 0]

theorem capacity_le_limit_iff_three : (stuffing 3).Reachable ∧ (limitTen 3).validate = .ok () ∧
    (stuffing 3).Makes 0 0 0 ∧ (stuffing 3).take (.step 0) = some (provided 3) ∧
    Trace (fun _ _ => True) (provided 3) [.step 0] (stuffed 3) ∧
    ∃ buf, (stuffed 3).world.buffer? 0 = some (some 0, buf) ∧ buf.length ≤ buf.capacity ∧
      buf.capacity ≤ 10 := by
  have hreach := (initial_stuffing 3).reachable
  have hnew : (stuffing 3).Makes 0 0 0 := ⟨_, _, _, ⟨_, rfl, rfl, rfl⟩, rfl⟩
  have hrun : Trace (fun _ _ => True) (provided 3) [.step 0] (stuffed 3) :=
    follow_trace (fun _ => trivial) (follow_eq_after (by decide +kernel))
  obtain ⟨buf, hbuf, hlength, hcapacity, -⟩ :=
    capacity_le_limit_iff hreach (by decide) (by decide) hnew rfl hrun
  have hle : (buf.capacity : Int) ≤ 10 := hcapacity.mpr (.inl (by decide))
  exact ⟨hreach, by decide, hnew, rfl, hrun, buf, hbuf, hlength, by omega⟩

/-- A runtime that leaves the initial capacity to the default takes eleven characters into a buffer whose
growth it limits to ten. -/
theorem length_exceeds_limit : (stuffing 0).Reachable ∧ (limitTen 0).validate = .ok () ∧
    Run (stuffing 0) (stuffed 0) ∧
    ∃ buf, (stuffed 0).world.buffer? 0 = some (some 0, buf) ∧ buf.failure = none ∧ buf.length = 11 ∧
      buf.capacity = 1024 := by
  have hfirst : Trace (fun _ _ => True) (stuffing 0) [.step 0] (provided 0) :=
    follow_trace (fun _ => trivial) (follow_eq_after (by decide +kernel))
  have hrest : Trace (fun _ _ => True) (provided 0) [.step 0] (stuffed 0) :=
    follow_trace (fun _ => trivial) (follow_eq_after (by decide +kernel))
  refine ⟨(initial_stuffing 0).reachable, by decide, (hfirst.append hrest).run,
    { reversed := List.replicate 11 97, length := 11, capacity := 1024 }, by decide +kernel, ?_⟩
  exact ⟨rfl, rfl, rfl⟩

end Machine

end ObjectKernel
