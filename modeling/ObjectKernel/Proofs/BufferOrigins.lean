import ObjectKernel.Proofs.NewTexts

/-!
# Where buffers come from

A buffer is made for a runtime, and then it has the class that buffers have there, or it is allocated
without one, and then it has no place for a single character and no limit to grow to. So the buffers of a
runtime answer the calls that buffers answer, and a buffer without a runtime stays empty, whatever happens
to it.

## Contents

* `Obj.Seated`, `Instr.Effect.seated`: what instructions make.
* `World.Seated`, `Machine.Reachable.seated`: the class of a buffer with a runtime and how it fails, and the
  content of one without.
-/

namespace ObjectKernel

variable {b : Buffer} {w : World} {o : ObjId} {obj : Obj}

/-! ## New buffers -/

/-- A buffer that has failed, if at all, by a fault. -/
def Buffer.FailsByFault (b : Buffer) : Prop := ∀ ⦃e⦄, b.failure = some e → ∃ f, e = .fault f

theorem Buffer.FailsByFault.append (h : b.FailsByFault) (limit : Nat) (cs : List Rune) :
    (b.append limit cs).FailsByFault := by
  unfold Buffer.append
  split
  · exact h
  · dsimp only
    split
    · exact h
    · split
      · rintro e ⟨⟩
        exact ⟨_, rfl⟩
      · exact h

theorem Buffer.FailsByFault.foldl (h : b.FailsByFault) (limit : Nat) (pieces : List (List Rune)) :
    (pieces.foldl (Buffer.append limit) b).FailsByFault := by
  induction pieces generalizing b with
  | nil => exact h
  | cons x xs ih => exact ih (h.append limit x)

/-- An object is no buffer out of place: a buffer of a runtime has the class of buffers there and fails by
faults only, and one without a runtime has room for nothing. -/
def Obj.Seated (obj : Obj) : Prop :=
  ∀ ⦃home buf⦄, obj.payload = .buffer home buf →
    home = none ∧ buf = {} ∨
      ∃ r, home = some r ∧ obj.cls = some (Builtin.bufferClass r) ∧ buf.FailsByFault

open World

theorem World.object?_create {p c} (hp : ∀ part, p ≠ .extended part) (ho : w.object? o = none)
    (h : (w.create p c).2.object? o = some obj) : obj.cls = some c ∧ obj.payload = p := by
  rw [create_eq w hp] at h
  have hpush : (w.objects.push { cls := some c, hash := w.constructed + 1, payload := p })[o]? =
      some obj := h
  rw [Array.getElem?_push] at hpush
  split at hpush
  · cases hpush
    exact ⟨rfl, rfl⟩
  · cases ho.symm.trans hpush

/-- **An object that an instruction makes is no buffer out of place.** -/
theorem Instr.Effect.seated {hand v} {i : Instr} {task} (h : i.Effect task w v) (hi : i.Works hand w)
    (ho : w.object? o = none) (hobj : v.object? o = some obj) : obj.Seated := by
  intro home buf hbuf
  have hbefore : w.content? o = none := by
    unfold content?
    rw [ho]
    rfl
  have hafter : v.content? o = some (.buffer home buf) := by
    unfold content?
    rw [hobj, Option.map_some, hbuf]
  rcases h.contentOf o with hsame | ⟨g, -, haltered⟩ | ⟨p, -, hp, hnew⟩
  · rw [hsame, hbefore] at hafter
    cases hafter
  · rw [haltered, hbefore] at hafter
    cases hafter
  · cases hnew.symm.trans hafter
    cases hp with
    | allocate =>
      cases hi with
      | allowed allowed =>
        cases allowed
        exact .inl ⟨rfl, rfl⟩
    | create =>
      cases hi with
      | allowed allowed =>
        obtain ⟨⟨code, hcode, -⟩, -⟩ := allowed
        cases hcode
    | newBuffer r =>
      cases h with
      | nothing => cases ho.symm.trans hobj
      | newBuffer =>
        have hcls := (object?_create (p := .buffer (some r) (.empty (w.config r).initialCapacity)) nofun ho
          hobj).1
        exact .inr ⟨r, rfl, hcls, nofun⟩
      | text makes => cases makes
      | thread reshapes => cases reshapes
      | registry rebinds => cases rebinds

/-! ## Buffers in their places -/

namespace World

variable {w v : World} {o b : ObjId} {buf : Buffer} {i : Instr} {home : Option RuntimeId} {task : TaskId}

/-- No object is a buffer out of place. -/
def Seated (w : World) : Prop := ∀ ⦃o obj⦄, w.object? o = some obj → obj.Seated

/-- A buffer of a runtime has the class of buffers there. -/
theorem Seated.classOf? (h : w.Seated) {home} (hb : w.buffer? o = some (some home, buf)) :
    w.classOf? o = some (Builtin.bufferClass home) := by
  obtain ⟨obj, hobj, hp⟩ := buffer?_eq_some.mp hb
  rcases h hobj hp with ⟨hnone, -⟩ | ⟨r, hr, hcls, -⟩
  · cases hnone
  · cases hr
    refine (classOf?_of_object? hobj fun part => ?_).trans hcls
    rw [hp]
    exact nofun

/-- A buffer without a runtime is empty. -/
theorem Seated.eq_empty (h : w.Seated) (hb : w.buffer? o = some (none, buf)) : buf = {} := by
  obtain ⟨obj, hobj, hp⟩ := buffer?_eq_some.mp hb
  rcases h hobj hp with ⟨-, hempty⟩ | ⟨r, hr, -⟩
  · exact hempty
  · cases hr

/-- A buffer fails by faults only. -/
theorem Seated.failsByFault (h : w.Seated) (hb : w.buffer? o = some (home, buf)) : buf.FailsByFault := by
  obtain ⟨obj, hobj, hp⟩ := buffer?_eq_some.mp hb
  rcases h hobj hp with ⟨-, hempty⟩ | ⟨r, -, -, hfaults⟩
  · obtain rfl : buf = {} := hempty
    nofun
  · exact hfaults

/-- A buffer without a runtime takes nothing. -/
theorem append_empty (hb : w.buffer? b = some (none, {})) {cs} (h : w.append o cs = .ok v) :
    v.buffer? b = some (none, {}) := by
  by_cases ho : o = b
  · subst ho
    unfold append at h
    rw [hb] at h
    dsimp only at h
    split at h
    · rename_i hroom
      have hnil : cs = [] := by simpa using hroom
      subst hnil
      cases h
      rw [buffer?_setBuffer hb, if_pos rfl]
      rfl
    · cases h
  · obtain ⟨c, rfl⟩ := append_ok h
    rw [buffer?_setBuffer hb, if_neg ho]

/-- What was there is a buffer only if it was one, of the same runtime. -/
theorem buffer?_of_later (h : w ≤ v) {old} (hold : w.object? o = some old) (hb : v.buffer? o = some (home, buf)) :
    ∃ buf', w.buffer? o = some (home, buf') ∧
      ∀ c, old.cls = some c → ∃ obj, v.object? o = some obj ∧ obj.cls = some c := by
  obtain ⟨obj, hobj, hl⟩ := h.objects hold
  obtain ⟨obj', hobj', hp⟩ := buffer?_eq_some.mp hb
  cases hobj.symm.trans hobj'
  have hlast := hl.payload
  rw [hp] at hlast
  obtain ⟨cls, hash, payload⟩ := old
  cases payload with
  | buffer home' content =>
    obtain ⟨_, heq⟩ := hlast
    cases heq
    exact ⟨content, buffer?_eq_some.mpr ⟨_, hold, rfl⟩, fun c hc => ⟨obj, hobj, (hl.cls hc).1⟩⟩
  | plain =>
    obtain ⟨_, hne⟩ := hlast
    cases hne
  | thread =>
    obtain ⟨_, hne, -⟩ := hlast
    cases hne
  | text | extended | runnable => cases hlast

/-- A buffer without a runtime stays as it is. -/
theorem exec_empty (hb : w.buffer? b = some (none, {})) : (i.exec task w).2.buffer? b = some (none, {}) := by
  by_cases hi : ∃ o cs, i = .append o cs
  · obtain ⟨o, cs, rfl⟩ := hi
    show (w.attempt (w.append o cs)).2.buffer? b = _
    cases happ : w.append o cs with
    | error e => exact hb
    | ok v => exact append_empty hb happ
  · exact Instr.exec_keepsBuffers task w (fun o cs heq => hi ⟨o, cs, heq⟩) hb

/-- What a task does leaves buffers in their places. -/
theorem Seated.exec (h : w.Seated) {hand} (hi : i.Works hand w) (hle : w ≤ (i.exec task w).2) :
    (i.exec task w).2.Seated := by
  intro o obj hobj home buf hp
  cases hold : w.object? o with
  | none => exact (i.effect task w).seated hi hold hobj hp
  | some old =>
    have hb : (i.exec task w).2.buffer? o = some (home, buf) := buffer?_eq_some.mpr ⟨obj, hobj, hp⟩
    obtain ⟨buf', hb', hcls⟩ := buffer?_of_later hle hold hb
    cases home with
    | none =>
      rw [h.eq_empty hb'] at hb'
      cases hb.symm.trans (exec_empty hb')
      exact .inl ⟨rfl, rfl⟩
    | some r =>
      obtain ⟨old', hold', hp'⟩ := buffer?_eq_some.mp hb'
      cases hold.symm.trans hold'
      rcases h hold hp' with ⟨hnone, -⟩ | ⟨r', hr, hc, hfaults⟩
      · cases hnone
      · cases hr
        obtain ⟨obj', hobj', hc'⟩ := hcls _ hc
        cases hobj.symm.trans hobj'
        cases hb.symm.trans (Instr.exec_buffer task hb' i)
        exact .inr ⟨r, rfl, hc', hfaults.foldl _ _⟩

end World

/-- **In every machine that can be reached buffers are in their places.** -/
theorem Machine.Reachable.seated {m : Machine} (h : m.Reachable) : m.world.Seated := by
  refine h.invariant (fun w hw o obj hobj => ?_) (fun h => h) ?_
  · cases (hw.object? o).symm.trans hobj
  · intro m j i k fs task hm hat hle h
    obtain ⟨hand, hworks⟩ := hm.works hat
    exact h.exec hworks hle

end ObjectKernel
