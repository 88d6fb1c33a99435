import ObjectKernel.Proofs.BoundedList
import ObjectKernel.Proofs.Calls

/-!
# The history of a buffer

Nothing but an append to it changes a buffer. So what a buffer holds at any time is determined by the
pieces that were appended to it since it was made, in the order of the turns in which that happened,
whatever else the tasks of the machine did in between.

## Contents

* `World.KeepsBuffers`: changes that leave every buffer as it is.
* `Instr.pieces`, `Machine.pieces`: what an instruction and a turn append to a buffer.
* `Machine.buffer_trace`: what a run does to a buffer.
* `Machine.Makes`, `Machine.fed_of_makes`: a buffer is fed with its history from its creation on.
* `World.Told`: what `toString()` answers for a buffer.
-/

namespace ObjectKernel

namespace World

variable {w v u : World} {o b : ObjId} {buf : Buffer}

/-! ## Changes that leave buffers alone -/

/-- Every buffer stays as it is. -/
def KeepsBuffers (w v : World) : Prop :=
  ∀ ⦃o : ObjId⦄ ⦃p : Option RuntimeId × Buffer⦄, w.buffer? o = some p → v.buffer? o = some p

/-! ## Appends -/

theorem buffer?_setBuffer {p} (hb : w.buffer? b = some p) (c : Buffer) :
    (w.setBuffer o c).buffer? b = some (p.1, if o = b then c else p.2) := by
  obtain ⟨⟨cls, hash, payload⟩, hobj, rfl⟩ := buffer?_eq_some.mp hb
  refine buffer?_eq_some.mpr ?_
  unfold setBuffer
  rw [object?_modifyObject]
  by_cases ho : o = b
  · rw [if_pos ho, if_pos ho, hobj]
    exact ⟨_, rfl, rfl⟩
  · rw [if_neg ho, if_neg ho]
    exact ⟨_, hobj, rfl⟩

/-- A buffer of a runtime takes what is appended to it. -/
theorem append_eq {home} (hb : w.buffer? b = some (some home, buf)) (cs : List Rune) :
    w.append b cs = .ok (w.setBuffer b (buf.append (w.config home).growthLimit cs)) := by
  unfold append
  rw [hb]

theorem buffer?_later (h : w ≤ v) {home} (hb : w.buffer? o = some (home, buf)) :
    ∃ buf', v.buffer? o = some (home, buf') := by
  obtain ⟨obj, hobj, hp⟩ := buffer?_eq_some.mp hb
  obtain ⟨obj', hobj', hl⟩ := h.objects hobj
  have hlast := hl.payload
  rw [hp] at hlast
  obtain ⟨buf', hbuf⟩ := hlast
  exact ⟨buf', buffer?_eq_some.mpr ⟨obj', hobj', hbuf⟩⟩

end World

open World

variable {w : World} {b : ObjId} {buf : Buffer} {home : RuntimeId}

/-- What an instruction appends to a buffer. -/
def Instr.pieces (b : ObjId) : Instr → List (List Rune)
  | .append o cs => if o = b then [cs] else []
  | _ => []

/-- An instruction that appends nothing leaves the buffers alone. -/
theorem Instr.exec_keepsBuffers (task : TaskId) (w : World) {i : Instr}
    (hi : ∀ o cs, i ≠ .append o cs) : w.KeepsBuffers (i.exec task w).2 := by
  intro b p hb
  rw [buffer?_eq] at hb ⊢
  rcases (i.effect task w).contentOf b with hsame | ⟨g, hg, hv⟩ | ⟨_, rfl, -⟩
  · rwa [hsame]
  · obtain ⟨x, hx, hp⟩ := Option.bind_eq_some_iff.mp hb
    rw [hv, hx]
    -- Threads and fields are not where a buffer is.
    cases x with
    | buffer home buf =>
      cases hg with
      | append => exact absurd rfl (hi _ _)
      | setField | thread => exact hp
    | text | thread | extended | runnable | plain => cases hp
  · rw [content?_size] at hb
    cases hb

/-- What an event appends to a buffer. -/
def Event.pieces (b : ObjId) : Event → List (List Rune)
  | .performed i => i.pieces b
  | _ => []

/-- **What an instruction does to a buffer of a runtime**: it appends its pieces. -/
theorem Instr.exec_buffer (task : TaskId) (hb : w.buffer? b = some (some home, buf)) (i : Instr) :
    (i.exec task w).2.buffer? b =
      some (some home, (i.pieces b).foldl (Buffer.append (w.config home).growthLimit) buf) := by
  by_cases hi : ∃ o cs, i = .append o cs
  · obtain ⟨o, cs, rfl⟩ := hi
    simp only [Instr.exec, Instr.pieces]
    by_cases ho : o = b
    · subst ho
      rw [append_eq hb, if_pos rfl]
      exact (buffer?_setBuffer hb _).trans (by rw [if_pos rfl]; rfl)
    · rw [if_neg ho]
      cases happ : w.append o cs with
      | error e => exact hb
      | ok v =>
        obtain ⟨c, rfl⟩ := append_ok happ
        exact (buffer?_setBuffer hb c).trans (by rw [if_neg ho]; rfl)
  · have hkeeps := Instr.exec_keepsBuffers task w (i := i) fun o cs h => hi ⟨o, cs, h⟩
    have hnone : i.pieces b = [] := by
      cases i with
      | append o cs => exact absurd ⟨o, cs, rfl⟩ hi
      | _ => rfl
    rw [hnone]
    exact hkeeps hb

/-! ## Runs -/

namespace Machine

variable {m n : Machine} {b : ObjId} {home : RuntimeId} {buf : Buffer} {P : Machine → Turn → Prop} {τs : List Turn}
  {i : Nat}

/-- What a turn appends to a buffer. -/
def pieces (b : ObjId) : Machine → Turn → List (List Rune) := performed fun _ i => i.pieces b

/-- What a task appends at one level stands in the history of the buffer, in the same order. -/
theorem sublist_pieces (hrun : Trace P m τs n) (i depth : Nat) (b : ObjId) :
    List.Sublist ((m.record (events i depth) τs).flatMap (Event.pieces b)) (m.record (pieces b) τs) := by
  induction hrun with
  | refl m => exact .slnil
  | @cons m n p τ τs _ move _ ih =>
    rw [record_cons _ move, record_cons _ move, List.flatMap_append]
    refine List.Sublist.append ?_ ih
    by_cases hi : τ.task = i
    · subst hi
      obtain ⟨⟨id, prog, frames⟩, ht, -⟩ := take_cases move
      rw [events_self ht, pieces, performed, ht]
      cases prog with
      | perform i k =>
        dsimp only [Task.events]
        split
        · rw [List.flatMap_singleton]
          exact List.Sublist.refl _
        · exact List.nil_sublist _
      | call | finish =>
        dsimp only [Task.events]
        split <;> exact List.nil_sublist _
      | observe | await | guard | spawn | pause => exact List.nil_sublist _
    · rw [events_of_ne hi]
      exact List.nil_sublist _

/-- **What a run does to a buffer of a runtime**: it appends the pieces of its turns. -/
theorem buffer_trace (hm : m.Reachable) (hb : m.world.buffer? b = some (some home, buf)) (hrun : Trace P m τs n) :
    n.world.buffer? b = some (some home,
      (m.record (pieces b) τs).foldl (Buffer.append (m.world.config home).growthLimit) buf) := by
  have hkept := history_trace (f := fun _ i => i.pieces b)
    (I := fun w xs => w.config home = m.world.config home ∧ w.buffer? b = some (some home,
      xs.foldl (Buffer.append (m.world.config home).growthLimit) buf))
    ?_ (fun h => h) hm hrun [] ⟨rfl, hb⟩
  · exact hkept.2
  · intro m' j i k fs xs task hm' _ hle h
    have hhas := buffer?_home hm'.sound h.2
    have hexec := Instr.exec_buffer task h.2 i
    rw [h.1, ← List.foldl_append] at hexec
    exact ⟨(config_later hle hhas).trans h.1, hexec⟩

/-- A buffer that has failed stays as it is. -/
theorem buffer_trace_of_failed (hm : m.Reachable) (hb : m.world.buffer? b = some (some home, buf))
    (hfailed : buf.failure.isSome) (hrun : Trace P m τs n) : n.world.buffer? b = some (some home, buf) := by
  rw [buffer_trace hm hb hrun, Buffer.foldl_append_of_failed hfailed]

/-! ## New buffers -/

/-- A task makes a buffer for a runtime in its next turn. -/
def Makes (m : Machine) (i : Nat) (home : RuntimeId) (b : ObjId) : Prop :=
  ∃ k fs w, m.At i (.perform (.newBuffer home) k) fs ∧ m.world.newBuffer home = .ok (b, w)

theorem buffer_of_makes (hnew : m.Makes i home b) (hstep : m.take (.step i) = some n) :
    n.world.buffer? b = some (some home, .empty (m.world.config home).initialCapacity) ∧
      n.world.config home = m.world.config home := by
  obtain ⟨k, fs, w, hat, hok⟩ := hnew
  obtain ⟨id, n', hn, hworld, -⟩ := take_perform hat
  cases hn.symm.trans hstep
  have hw : n.world = w := by
    rw [hworld]
    show (m.world.attemptResult (m.world.newBuffer home)).2 = w
    rw [hok]
    rfl
  rw [hw]
  have hcreate := newBuffer_ok hok
  rw [create_eq _ (p := .buffer ..) fun _ => nofun] at hcreate
  obtain ⟨rfl, rfl⟩ := Prod.mk.inj hcreate
  exact ⟨buffer?_eq_some.mpr ⟨_, Array.getElem?_push_size, rfl⟩, rfl⟩

/-- **A buffer is fed with its history**, from its creation on. -/
theorem fed_of_makes (hm : m.Reachable) (hnew : m.Makes i home b) {m₁} (hstep : m.take (.step i) = some m₁)
    (hrun : Trace P m₁ τs n) :
    ∃ buf, n.world.buffer? b = some (some home, buf) ∧ buf.Fed (m.world.config home) (m₁.record (pieces b) τs) := by
  obtain ⟨hb, hconfig⟩ := buffer_of_makes hnew hstep
  have hbuf := buffer_trace (hm.take hstep) hb hrun
  rw [hconfig] at hbuf
  exact ⟨_, hbuf, (Buffer.fed_empty _).foldl _⟩

end Machine

/-! ## The text of a buffer -/

/-- What `toString()` answers for a buffer of a runtime: the failure that stopped the buffer, or a new
string with its characters, or that there are too many of them. -/
inductive World.Told (w : World) (b : ObjId) (home : RuntimeId) (buf : Buffer) :
    Except Err ObjId → World → Prop where
  | failed {e : Err} (stopped : buf.failure = some e) : Told w b home buf (.error e) w
  | text {s : ObjId} {v : World} (whole : buf.failure = none)
      (fits : 0 < (w.config home).maxStringLength → buf.length ≤ (w.config home).maxStringLength)
      (fresh : w.object? s = none) (content : v.text? s = some (home, .ofRunes buf.chars))
      (kept : v.buffer? b = w.buffer? b) : Told w b home buf (.ok s) v
  | tooLong (whole : buf.failure = none) (bounded : 0 < (w.config home).maxStringLength)
      (exceeds : (w.config home).maxStringLength < buf.length) :
      Told w b home buf (.error (.fault (.tooLong "StringBuffer.toString" buf.length
        (w.config home).maxStringLength.toNat))) w

theorem World.bufferText_eq (hb : w.buffer? b = some (some home, buf)) (hfailure : buf.failure = none) :
    w.bufferText b = (w.makeText home "StringBuffer.toString" (.ofRunes buf.chars)).mapError
      fun f => .error (.fault f) := by
  unfold bufferText
  rw [hb]
  simp only [hfailure]
  cases w.makeText home "StringBuffer.toString" (.ofRunes buf.chars) <;> rfl

/-- The answer of the section behind `toString()`. -/
theorem World.told_bufferText (hb : w.buffer? b = some (some home, buf)) (hlength : buf.length = buf.chars.length)
    (k : Except Err ObjId → Prog) : ∃ r, Op.ofStop (w.attemptResult (w.bufferText b)).1 k = k r ∧
      w.Told b home buf r (w.attemptResult (w.bufferText b)).2 := by
  cases hfailure : buf.failure with
  | some e =>
    have heq : w.bufferText b = .error (.error e) := by
      unfold bufferText
      rw [hb]
      simp only [hfailure]
    rw [heq]
    exact ⟨.error e, rfl, .failed hfailure⟩
  | none =>
    rw [bufferText_eq hb hfailure, makeText_eq]
    have hchars : (CharSeq.ofRunes buf.chars).length = buf.length := hlength.symm
    rw [hchars]
    by_cases hmax : 0 < (w.config home).maxStringLength ∧
        (w.config home).maxStringLength < buf.length
    · rw [if_pos hmax]
      exact ⟨_, rfl, .tooLong hfailure hmax.1 hmax.2⟩
    · rw [if_neg hmax]
      refine ⟨_, rfl, .text hfailure (fun hpos => ?_) ?_ (text_createText ..) ?_⟩
      · exact Int.not_lt.mp fun hlt => hmax ⟨hpos, hlt⟩
      · exact Array.getElem?_eq_none (Nat.le_refl _)
      · exact (Instr.exec_keepsBuffers 0 w (i := .create _ _) nofun hb).trans hb.symm

namespace Machine

/-- **A task that asks for the text of a buffer is told it in its next turn.** -/
theorem told_of_bufferText {m n : Machine} {home} (hb : m.world.buffer? b = some (some home, buf))
    (hlength : buf.length = buf.chars.length) {j k fs} (hat : m.At j (Op.bufferText b k) fs)
    (hstep : m.take (.step j) = some n) : ∃ r, n.At j (k r) fs ∧ m.world.Told b home buf r n.world := by
  obtain ⟨id, n', hn, hworld, hgoes⟩ := take_perform hat
  cases hn.symm.trans hstep
  obtain ⟨r, hr, htold⟩ := told_bufferText hb hlength k
  rw [hworld]
  exact ⟨r, hr ▸ hgoes, htold⟩

end Machine

end ObjectKernel
