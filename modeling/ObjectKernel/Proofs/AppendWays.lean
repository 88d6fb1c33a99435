import ObjectKernel.Proofs.AppendCalls
import ObjectKernel.Proofs.TextRepresentation

/-!
# Two ways to append an object

An object is appended to a buffer by an operation, or by a call of the method of the buffer. Both find out
how the object is rendered. The operation then writes the characters of the rendering, and the method what
its text spells. A string holds any numbers as characters, and a text spells scalar values only, so that the
method writes U+FFFD in place of whatever else there is. That changes no length, and so the two ways agree
on everything that a buffer shows but its characters. On those they agree just if there was nothing to
replace.

## Contents

* `Buffer.Alike`: buffers that show the same, apart from their characters. `Buffer.Respelt`: those that
  differ in the spelling of one piece. `Buffer.respelt_foldl`: appending such a piece among others.
* `Machine.around`: what a run appends to a buffer, with a gap for what one call appends.
  `Trace.pieces_around`: such a run.
* `Machine.Appends`, `appends_directly`, `appends_by_call`: the runs of either way.
  `Machine.append_ways_agree`: how they compare. `Machine.append_ways_differ_surrogate`: a string on which
  they do not agree.
-/

namespace ObjectKernel

open World List

variable {x : Option (List Rune)} {w v : World} {es : List Event}

/-! ## Buffers that differ in their characters only -/

namespace Buffer

/-- Two buffers show the same, apart from their characters. -/
structure Alike (b c : Buffer) : Prop where
  length : c.length = b.length
  capacity : c.capacity = b.capacity
  failure : c.failure = b.failure

theorem Alike.refl (b : Buffer) : b.Alike b := ⟨rfl, rfl, rfl⟩

/-- Whether a buffer takes so many characters. -/
def takes (limit : Nat) (b : Buffer) (count : Nat) : Bool :=
  b.failure.isNone && decide (b.length + count ≤ b.capacity ∨ b.length + count ≤ limit)

variable {b c : Buffer} {limit : Nat} {x y : List Rune}

theorem Alike.takes (h : b.Alike c) (count : Nat) : c.takes limit count = b.takes limit count := by
  unfold Buffer.takes
  rw [h.length, h.capacity, h.failure]

theorem append_of_takes (h : b.takes limit x.length) :
    b.append limit x =
      { b with
        reversed := x.foldl (fun r c => c :: r) b.reversed
        length := b.length + x.length
        capacity := if b.length + x.length ≤ b.capacity then b.capacity
          else grown limit (b.length + x.length) b.capacity } := by
  obtain ⟨hfailure, hroom⟩ := Bool.and_eq_true_iff.mp h
  replace hroom := of_decide_eq_true hroom
  unfold Buffer.append
  rw [if_neg (by rw [Option.isNone_iff_eq_none.mp hfailure]; nofun)]
  dsimp only
  split
  · rfl
  · rw [if_neg (by omega)]

theorem append_of_not_takes (h : ¬ b.takes limit x.length) :
    b.append limit x =
      { b with failure := b.failure.or (some (.fault (.bufferFull (b.length + x.length) limit))) } := by
  unfold takes at h
  unfold Buffer.append
  cases hfailure : b.failure with
  | some e =>
    rw [if_pos Option.isSome_some, Option.some_or, ← hfailure]
  | none =>
    rw [hfailure] at h
    simp only [Option.isNone_none, Bool.true_and, decide_eq_true_eq, not_or] at h
    rw [if_neg nofun]
    dsimp only
    rw [if_neg h.1, if_pos (by omega), Option.none_or]

/-- What is appended is kept whole or not at all. -/
theorem chars_append (limit : Nat) (b : Buffer) (x : List Rune) :
    (b.append limit x).chars = b.chars ++ if b.takes limit x.length then x else [] := by
  by_cases h : b.takes limit x.length
  · rw [append_of_takes h, if_pos h]
    exact reverse_foldl_cons x b.reversed
  · rw [append_of_not_takes h, if_neg h, append_nil]
    rfl

theorem failure_append_of_not_takes (h : ¬ b.takes limit x.length) : (b.append limit x).failure.isSome := by
  rw [append_of_not_takes h]
  cases b.failure <;> rfl

/-- How much is appended tells what comes of it, apart from the characters. -/
theorem Alike.append (h : b.Alike c) (hxy : y.length = x.length) : (b.append limit x).Alike (c.append limit y) := by
  by_cases ht : b.takes limit x.length
  · have ht' : c.takes limit y.length := by rwa [hxy, h.takes]
    rw [append_of_takes ht, append_of_takes ht']
    refine ⟨?_, ?_, h.failure⟩ <;> dsimp only <;> rw [h.length, hxy]
    rw [h.capacity]
  · have ht' : ¬ c.takes limit y.length := by rwa [hxy, h.takes]
    rw [append_of_not_takes ht, append_of_not_takes ht']
    refine ⟨h.length, h.capacity, ?_⟩
    dsimp only
    rw [h.length, hxy, h.failure]

/-- The same pieces add the same characters. -/
theorem Alike.foldl (h : b.Alike c) (xs : List (List Rune)) :
    (xs.foldl (Buffer.append limit) b).Alike (xs.foldl (Buffer.append limit) c) ∧
      ∃ v, (xs.foldl (Buffer.append limit) b).chars = b.chars ++ v ∧
        (xs.foldl (Buffer.append limit) c).chars = c.chars ++ v := by
  induction xs generalizing b c with
  | nil => exact ⟨h, [], (append_nil _).symm, (append_nil _).symm⟩
  | cons x xs ih =>
    obtain ⟨halike, v, hb, hc⟩ := ih (h.append rfl)
    refine ⟨halike, (if b.takes limit x.length then x else []) ++ v, ?_, ?_⟩
    · rw [foldl_cons, hb, chars_append, append_assoc]
    · rw [foldl_cons, hc, chars_append, h.takes, append_assoc]

/-- Two buffers have the same but for one piece, in which the second one has U+FFFD in place of whatever is
no scalar value. -/
structure Respelt (piece : List Rune) (b c : Buffer) : Prop where
  alike : b.Alike c
  chars : ∃ u v, b.chars = u ++ piece ++ v ∧ c.chars = u ++ piece.map Rune.scalar ++ v

theorem map_scalar_eq_iff (x : List Rune) : x.map Rune.scalar = x ↔ ∀ r ∈ x, r.isScalar := by
  have hone (r : Rune) : r.scalar = r ↔ r.isScalar := by
    refine ⟨fun h => ?_, fun h => if_pos h⟩
    rw [← h]
    exact r.isScalar_scalar
  induction x with
  | nil => simp
  | cons r rs ih => simp [hone, ih]

/-- They have the same characters just if there is nothing to replace. -/
theorem Respelt.chars_eq_iff (h : Respelt x b c) : c.chars = b.chars ↔ ∀ r ∈ x, r.isScalar := by
  obtain ⟨u, v, hb, hc⟩ := h.chars
  rw [hb, hc, append_left_inj, append_right_inj, map_scalar_eq_iff]

/-- **Pieces that differ in one of them**, which is written as it is or respelt. -/
theorem respelt_foldl (limit : Nat) (b : Buffer) (before after : List (List Rune)) (x : Option (List Rune)) {d}
    (hc : c = (before ++ x.toList ++ after).foldl (Buffer.append limit) b)
    (hd : d = (before ++ (x.map (map Rune.scalar)).toList ++ after).foldl (Buffer.append limit) b) :
    ∃ kept, Respelt kept c d ∧ (x = some kept ∨ kept = [] ∧ (x = none ∨ c.failure.isSome)) := by
  subst hc hd
  cases x with
  | none =>
    rw [Option.map_none]
    generalize (before ++ none.toList ++ after).foldl (Buffer.append limit) b = e
    exact ⟨[], ⟨.refl e, e.chars, [], by simp, by simp⟩, .inr ⟨rfl, .inl rfl⟩⟩
  | some x =>
    simp only [Option.map_some, Option.toList_some, foldl_append, foldl_cons, foldl_nil]
    generalize before.foldl (Buffer.append limit) b = e
    have hlength : (x.map Rune.scalar).length = x.length := length_map _
    have hone : (e.append limit x).Alike (e.append limit (x.map Rune.scalar)) :=
      (Alike.refl e).append hlength
    obtain ⟨halike, v, hx, hy⟩ := hone.foldl after
    by_cases ht : e.takes limit x.length
    · refine ⟨x, ⟨halike, e.chars, v, ?_, ?_⟩, .inl rfl⟩
      · rw [hx, chars_append, if_pos ht]
      · rw [hy, chars_append, if_pos (by rwa [hlength])]
    · have hfailed := failure_append_of_not_takes ht
      refine ⟨[], ⟨halike, e.chars, v, ?_, ?_⟩, .inr ⟨rfl, .inr ?_⟩⟩
      · rw [hx, chars_append, if_neg ht]
      · rw [hy, chars_append, if_neg (by rwa [hlength])]
        rfl
      · rwa [foldl_append_of_failed hfailed]

end Buffer

/-! ## What else is appended -/

namespace Machine

variable {P : Machine → Turn → Prop} {m n : Machine} {τs : List Turn} {i d : Nat} {b : ObjId}
  {own : Option (List Rune)}

/-- What a turn appends to a buffer, with nothing in place of what a task appends at one level. -/
def around (b : ObjId) (i d : Nat) (m : Machine) (τ : Turn) : List (Option (List Rune)) :=
  match m.tasks[τ.task]? with
  | some ⟨_, .perform instr _, frames⟩ =>
    (instr.pieces b).map fun x => if τ.task = i ∧ frames.length = d then none else some x
  | _ => []

/-- A turn appends what it appends at the level, or what it appends elsewhere. -/
theorem pieces_cases (b : ObjId) (i d : Nat) (m : Machine) (τ : Turn) :
    (m.pieces b τ = (m.events i d τ).flatMap (Event.pieces b) ∧ m.around b i d τ = (m.pieces b τ).map fun _ => none) ∨
      ((m.events i d τ).flatMap (Event.pieces b) = [] ∧ m.around b i d τ = (m.pieces b τ).map some) := by
  unfold around pieces performed
  by_cases hi : τ.task = i
  · subst hi
    cases ht : m.tasks[τ.task]? with
    | none =>
      unfold events
      rw [ht]
      exact .inl ⟨rfl, rfl⟩
    | some t =>
      rw [events_self ht]
      obtain ⟨id, prog, frames⟩ := t
      cases prog with
      | perform instr k =>
        by_cases hd : frames.length = d
        · left
          simp [Task.events, hd, Event.pieces]
        · right
          simp [Task.events, hd]
      | call | finish =>
        right
        refine ⟨?_, rfl⟩
        dsimp only [Task.events]
        split <;> rfl
      | observe | await | guard | spawn | pause => exact .inr ⟨rfl, rfl⟩
  · right
    rw [events_of_ne hi]
    refine ⟨rfl, ?_⟩
    cases m.tasks[τ.task]? with
    | none => rfl
    | some t =>
      obtain ⟨id, prog, frames⟩ := t
      cases prog with
      | perform => simp [hi]
      | finish | observe | await | call | guard | spawn | pause => rfl

/-- **What is appended in a run in which a task appends one piece at a level, or none.** -/
theorem Trace.pieces_around (h : Trace P m τs n)
    (hown : (m.record (events i d) τs).flatMap (Event.pieces b) = own.toList) :
    ∃ before after, m.record (around b i d) τs = before.map some ++ (own.toList.map fun _ => none) ++ after.map some ∧
      m.record (pieces b) τs = before ++ own.toList ++ after := by
  induction h generalizing own with
  | refl =>
    have hnone : own.toList = [] := hown.symm
    rw [hnone]
    exact ⟨[], [], rfl, rfl⟩
  | @cons m n p τ τs _ move _ ih =>
    rw [record_cons _ move, flatMap_append] at hown
    simp only [record_cons _ move]
    rcases pieces_cases b i d m τ with ⟨hpieces, haround⟩ | ⟨hnone, haround⟩
    · cases hfirst : (m.events i d τ).flatMap (Event.pieces b) with
      | nil =>
        rw [hfirst] at hown hpieces
        obtain ⟨before, after, hrest, hrest'⟩ := ih hown
        rw [haround, hpieces, hrest, hrest']
        exact ⟨before, after, rfl, rfl⟩
      | cons x xs =>
        -- This is the piece, and there is no other.
        rw [hfirst] at hown hpieces
        cases own with
        | none => cases hown
        | some y =>
          obtain ⟨rfl, hrest⟩ := cons.inj hown
          obtain ⟨rfl, hrest⟩ := append_eq_nil_iff.mp hrest
          obtain ⟨before, after, haround', hpieces'⟩ :=
            ih (show _ = (none : Option (List Rune)).toList from hrest)
          rw [haround, hpieces, haround', hpieces']
          refine ⟨[], before ++ after, ?_, ?_⟩ <;> simp
    · rw [hnone] at hown
      obtain ⟨before, after, hrest, hrest'⟩ := ih hown
      rw [haround, hrest, hrest']
      refine ⟨m.pieces b τ ++ before, after, ?_, ?_⟩ <;> simp

theorem Trace.pieces_eq (h : Trace P m τs n)
    (hown : (m.record (events i d) τs).flatMap (Event.pieces b) = own.toList) :
    m.record (pieces b) τs = (m.record (around b i d) τs).map (·.getD (own.getD [])) := by
  obtain ⟨before, after, haround, hpieces⟩ := h.pieces_around hown
  rw [haround, hpieces]
  cases own <;> simp

end Machine

/-! ## What the method appends -/

theorem BufferCall.Contributes.later {u o} (h : (BufferCall.object o).Contributes w v es x) (hle : v ≤ u) :
    (BufferCall.object o).Contributes w u es x := by
  cases h with
  | noObject => exact .noObject
  | object rendered => exact .object (rendered.later hle)

/-- A string is its own rendering. -/
theorem BufferCall.Contributes.eq_chars {o t} (ht : w.text? o = some t)
    (h : (BufferCall.object (some o)).Contributes w v es x) : x = some t.2.chars := by
  cases h with
  | object rendered =>
    cases rendered with
    | same text =>
      cases ht.symm.trans text
      rfl
    | asked other | mute other => cases ht.symm.trans other

/-! ## The two ways -/

namespace Machine

variable {m n : Machine} {τs : List Turn} {i : Nat} {fs : List Frame} {b : ObjId} {o : Option ObjId}
  {home : RuntimeId} {buf : Buffer} {out : Outcome}

/-- In a run a task renders an object at a level, and writes this to a buffer there. -/
structure Appends (b : ObjId) (o : Option ObjId) (i d : Nat) (m : Machine) (τs : List Turn) (n : Machine)
    (rendering written : Option (List Rune)) : Prop where
  contributes :
    (BufferCall.object o).Contributes m.world n.world (m.record (events i d) τs) rendering
  own : (m.record (events i d) τs).flatMap (Event.pieces b) = written.toList

/-- The operation that appends an object writes the characters of the rendering. -/
theorem appends_directly (hm : m.Reachable) (hb : m.world.buffer? b = some (some home, buf))
    (ho : (BufferCall.object o).Typed m.world) (hcall : m.At i (Op.appendObject b o).toProgUnit fs)
    (hrun : Trace (Unreturned i fs) m τs n) (hreturn : n.At i (.finish out) fs) :
    ∃ x, m.Appends b o i fs.length τs n x x := by
  rw [Op.toProgUnit_eq] at hcall
  have hensures := (BufferCall.object o).ensures_toOp hm.sound hb ho Op.finishUnit
  obtain ⟨v, hle, hleads⟩ := ensures_return interference_proceeds
    (fun hleads => by cases hleads <;> exact ⟨_, rfl⟩) Reachable.proceeds hm hcall hensures hrun hreturn
  generalize Prog.finish out = p at hleads
  cases hleads with
  | appended contributes once => exact ⟨some _, contributes.later hle, once⟩
  | refused contributes never | panicked contributes never =>
    exact ⟨none, contributes.later hle, never⟩

/-- The method that appends an object writes what the text of the rendering spells. -/
theorem appends_by_call {s : Machine} (hs : s.Begins) (hreach : Run s m)
    (hb : m.world.buffer? b = some (some home, buf)) (ho : (BufferCall.object o).Typed m.world) {r}
    (hcall : m.At i (Op.dispatch r (some b) Selector.appendObject [.ofRef o]).toProg fs)
    (hrun : Trace (Unreturned i fs) m τs n) (hreturn : n.At i (.finish out) fs) :
    ∃ x : Option (List Rune), m.Appends b o i (fs.length + 1) τs n x (x.map (map Rune.scalar)) := by
  have hm : m.Reachable := hs.initial.reachable.run hreach
  obtain ⟨τs₁, τs₂, τs₃, p, q, out', rfl, hbefore, hbody, hmethod, hend, hafter, hnone, hnone'⟩ :=
    dispatch_run hm (hm.seated.classOf? hb) (AppendCall.object.find?_bufferClass home) rfl
      (fun r => by cases r <;> exact ⟨_, rfl⟩) hcall hrun hreturn
  have hp : p.Reachable := hm.run hbefore.run
  have hlast : q.world ≤ n.world := (hp.run hmethod.run).le hafter.run
  have hrecord : m.record (events i (fs.length + 1)) (τs₁ ++ (τs₂ ++ τs₃)) =
      p.record (events i (fs.length + 1)) τs₂ := by
    rw [hbefore.record_append, hnone, hmethod.record_append, hnone', nil_append, append_nil]
  have hpresent : (Value.ofRef o).Present m.world := by
    intro o' ho'
    cases o with
    | none => cases ho'
    | some o =>
      cases ho'
      exact ho
  have hcases := append_method_cases hp hm.sound (hm.le hbefore.run) hb .object hpresent hbody hmethod hend
  rw [length_cons, ← hrecord] at hcases
  rcases hcases with ⟨⟨⟨hplain, href⟩, hrendered⟩, hnever, -⟩ | ⟨cs, _, _, _, hspelt, honce, -⟩
  · -- There is no rendering.
    cases o with
    | none => cases href
    | some o =>
      cases href
      exact ⟨none, .object (hrendered.later hlast), hnever⟩
  · cases o with
    | none =>
      cases hspelt with
      | plain primitive =>
        cases primitive
        exact ⟨some nullChars, .noObject, honce⟩
      | object given => cases given.2
    | some o =>
      cases hspelt with
      | plain primitive => cases primitive
      | @object _ s t given made rendered =>
        cases given.2
        have hfaithful := hs.spelled (hreach.trans hrun.run) (text?_later hlast made)
        exact ⟨some t.2.chars, .object (rendered.later hlast), honce.trans (congrArg (fun x => [x]) hfaithful.decode_text)⟩

/-- **Two ways to append an object**, from the same world: by the operation, and by a call of the method.
Whatever other tasks do meanwhile, each way appends a rendering of the object once, or nothing if there is
none. If both come to the same rendering, and to the same pieces of others around it, then the two buffers
show the same length, capacity and error in the end, and the same characters but for what they have kept of
the rendering. That has U+FFFD in place of whatever is no scalar value, in the buffer that the method has
appended to, and so all characters are the same just if it has scalar values only. What is kept is the
rendering, unless the buffer has failed. Of a buffer without a runtime nothing ever changes. -/
theorem append_ways_agree {s m₁ m₂ n₁ n₂ : Machine} (hm₁ : m₁.Reachable) (hs : s.Begins) (hm₂ : Run s m₂)
    (hworld : m₂.world = m₁.world) {b : ObjId} {home : Option RuntimeId} {buf : Buffer}
    (hb : m₁.world.buffer? b = some (home, buf)) {o : Option ObjId}
    (ho : (BufferCall.object o).Typed m₁.world) {r : Option RuntimeId} {i₁ i₂ : Nat}
    {fs₁ fs₂ : List Frame} (hcall₁ : m₁.At i₁ (Op.appendObject b o).toProgUnit fs₁)
    (hcall₂ : m₂.At i₂ (Op.dispatch r (some b) Selector.appendObject [.ofRef o]).toProg fs₂)
    {τs₁ τs₂ : List Turn} (hrun₁ : Trace (Unreturned i₁ fs₁) m₁ τs₁ n₁)
    (hrun₂ : Trace (Unreturned i₂ fs₂) m₂ τs₂ n₂) {out₁ out₂ : Outcome}
    (hreturn₁ : n₁.At i₁ (.finish out₁) fs₁) (hreturn₂ : n₂.At i₂ (.finish out₂) fs₂) :
    ∃ buf₁ buf₂, n₁.world.buffer? b = some (home, buf₁) ∧ n₂.world.buffer? b = some (home, buf₂) ∧
      (home = none → buf₁ = buf₂) ∧
      (home.isSome → ∃ x₁ x₂ : Option (List Rune), m₁.Appends b o i₁ fs₁.length τs₁ n₁ x₁ x₁ ∧
        m₂.Appends b o i₂ (fs₂.length + 1) τs₂ n₂ x₂ (x₂.map (List.map Rune.scalar)) ∧
        (x₁ = x₂ →
          m₁.record (around b i₁ fs₁.length) τs₁ = m₂.record (around b i₂ (fs₂.length + 1)) τs₂ →
          ∃ kept, Buffer.Respelt kept buf₁ buf₂ ∧
            (x₁ = some kept ∨ kept = [] ∧ (x₁ = none ∨ buf₁.failure.isSome)) ∧
            (buf₂.chars = buf₁.chars ↔ ∀ c ∈ kept, c.isScalar))) := by
  have hreach₂ : m₂.Reachable := hs.initial.reachable.run hm₂
  have hb₂ : m₂.world.buffer? b = some (home, buf) := hworld ▸ hb
  have hn₁ : n₁.Reachable := hm₁.run hrun₁.run
  have hn₂ : n₂.Reachable := hreach₂.run hrun₂.run
  cases home with
  | none =>
      obtain ⟨buf₁, hbuf₁⟩ := buffer?_later (hm₁.le hrun₁.run) hb
      obtain ⟨buf₂, hbuf₂⟩ := buffer?_later (hreach₂.le hrun₂.run) hb₂
      refine ⟨buf₁, buf₂, hbuf₁, hbuf₂, fun _ => ?_, nofun⟩
      rw [hn₁.seated.eq_empty hbuf₁, hn₂.seated.eq_empty hbuf₂]
  | some home =>
      refine ⟨_, _, buffer_trace hm₁ hb hrun₁, buffer_trace hreach₂ hb₂ hrun₂, nofun, fun _ => ?_⟩
      obtain ⟨x₁, hx₁⟩ := appends_directly hm₁ hb ho hcall₁ hrun₁ hreturn₁
      obtain ⟨x₂, hx₂⟩ := appends_by_call hs hm₂ hb₂ (hworld ▸ ho) hcall₂ hrun₂ hreturn₂
      refine ⟨x₁, x₂, hx₁, hx₂, ?_⟩
      rintro rfl haround
      obtain ⟨before, after, haround₁, hpieces₁⟩ := hrun₁.pieces_around hx₁.own
      have hpieces₂ : m₂.record (pieces b) τs₂ =
          before ++ (x₁.map (List.map Rune.scalar)).toList ++ after := by
        rw [hrun₂.pieces_eq hx₂.own, ← haround, haround₁]
        cases x₁ <;> simp
      obtain ⟨kept, hrespelt, hkept⟩ :=
        Buffer.respelt_foldl (m₁.world.config home).growthLimit buf before after x₁ rfl rfl
      rw [hworld, hpieces₁, hpieces₂]
      exact ⟨kept, hrespelt, hkept, hrespelt.chars_eq_iff⟩

/-! ### A letter, and a surrogate -/

/-- Makes a string of one number, and a buffer. -/
def jot (r : Rune) : Op Unit := do
  let a ← Op.newBuffer (some 0)
  Op.append a [r]
  let _ ← Op.bufferText a
  let _ ← Op.newBuffer (some 0)

/-- One task makes a string and a buffer. Another one is about to append the one to the other, and so is a
third one, by a call. -/
def jotting (r : Rune) : Machine where
  world := World.single {} 3
  tasks := #[{ id := 0, prog := (jot r).toProgUnit },
    { id := 1, prog := (Op.appendObject 2 (some 1)).toProgUnit },
    { id := 2, prog := (Op.dispatch (some 0) (some 2) Selector.appendObject [.ofRef (some 1)]).toProg }]

instance (r : Rune) : Op.Lawful [.home (some 0)] (jot r) := by
  unfold jot
  infer_instance

theorem begins_jotting (r : Rune) : (jotting r).Begins := by
  have hjot : Op.Orderly 1 (jot r) := by
    unfold jot
    infer_instance
  refine begins_single ?_
  rintro t (_ | ⟨_, _ | ⟨_, _ | ⟨_, ⟨⟩⟩⟩⟩)
  · exact Op.orderly_toProgUnit hjot (Nat.le_refl 1)
  · exact Op.orderly_toProgUnit (b := 1) inferInstance (Nat.le_refl 1)
  · exact Op.orderly_toProg (b := 1) (x := Op.dispatch _ _ _ [.ofRef (some 1)]) inferInstance (Nat.le_refl 1)

/-- The machine with the string and the buffer. -/
def jotted (r : Rune) : Machine := (jotting r).after (fun _ _ => true) (List.replicate 4 (.step 0))

/-- The machine once the string was appended. -/
def appended (r : Rune) : Machine := (jotted r).after (going 1) (List.replicate 4 (.step 1))

/-- The machine once the string was appended by the call. -/
def called (r : Rune) : Machine := (jotted r).after (going 2) (List.replicate 8 (.step 2))

theorem append_ways_agree_letter : (jotting 0xE9).Begins ∧ Run (jotting 0xE9) (jotted 0xE9) ∧
    (BufferCall.object (some 1)).Typed (jotted 0xE9).world ∧
    (jotted 0xE9).At 1 (Op.appendObject 2 (some 1)).toProgUnit [] ∧
    (jotted 0xE9).At 2
      (Op.dispatch (some 0) (some 2) Selector.appendObject [.ofRef (some 1)]).toProg [] ∧
    Trace (Unreturned 1 []) (jotted 0xE9) (List.replicate 4 (.step 1)) (appended 0xE9) ∧
    Trace (Unreturned 2 []) (jotted 0xE9) (List.replicate 8 (.step 2)) (called 0xE9) ∧
    ∃ buf₁ buf₂, (appended 0xE9).world.buffer? 2 = some (some 0, buf₁) ∧
      (called 0xE9).world.buffer? 2 = some (some 0, buf₂) ∧ buf₁.chars = [0xE9] ∧
      buf₁.Alike buf₂ ∧ buf₂.chars = buf₁.chars := by
  have hrun : Trace (fun _ _ => True) (jotting 0xE9) _ (jotted 0xE9) :=
    follow_trace (fun _ => trivial) (follow_eq_after (by decide +kernel))
  have hdirect : Trace (Unreturned 1 []) (jotted 0xE9) (List.replicate 4 (.step 1)) (appended 0xE9) :=
    follow_trace unreturned_of_going (follow_eq_after (by decide +kernel))
  have hcall : Trace (Unreturned 2 []) (jotted 0xE9) (List.replicate 8 (.step 2)) (called 0xE9) :=
    follow_trace unreturned_of_going (follow_eq_after (by decide +kernel))
  have htext : (jotted 0xE9).world.text? 1 = some (0, .ofRunes [0xE9]) := by decide +kernel
  have hbegins := begins_jotting 0xE9
  have htyped : (BufferCall.object (some 1)).Typed (jotted 0xE9).world := by
    change ((jotted 0xE9).world.object? 1).isSome = true
    decide +kernel
  have hat₁ : (jotted 0xE9).At 1 (Op.appendObject 2 (some 1)).toProgUnit [] := ⟨_, rfl, rfl, rfl⟩
  have hat₂ : (jotted 0xE9).At 2
      (Op.dispatch (some 0) (some 2) Selector.appendObject [.ofRef (some 1)]).toProg [] :=
    ⟨_, rfl, rfl, rfl⟩
  have hreturn : (appended 0xE9).outcome? 1 = some (.value .null) ∧
      (called 0xE9).outcome? 2 = some (.value (.ofObject 2)) := by decide +kernel
  have hmade : (jotted 0xE9).world.buffer? 2 = some (some 0, ⟨[], 0, 1024, none⟩) := by decide +kernel
  obtain ⟨buf₁, buf₂, hb₁, hb₂, -, h⟩ := append_ways_agree ⟨_, hbegins.initial, hrun.run⟩ hbegins
    hrun.run rfl hmade htyped hat₁ hat₂
    hdirect hcall (outcome?_eq_some.mp hreturn.1) (outcome?_eq_some.mp hreturn.2)
  obtain ⟨x₁, x₂, happends₁, happends₂, h⟩ := h rfl
  cases happends₁.contributes.eq_chars htext
  cases happends₂.contributes.eq_chars htext
  obtain ⟨kept, hrespelt, hkept, hchars⟩ := h rfl (by decide +kernel)
  have hbuf₁ : ((appended 0xE9).world.buffer? 2).map (·.2.chars) = some [0xE9] := by decide +kernel
  rw [hb₁] at hbuf₁
  refine ⟨hbegins, hrun.run, htyped, hat₁, hat₂, hdirect, hcall, buf₁, buf₂, hb₁, hb₂,
    Option.some.inj hbuf₁, hrespelt.alike, hchars.mpr ?_⟩
  rcases hkept with hkept | ⟨rfl, -⟩
  · cases hkept
    exact List.all_eq_true.mp (by decide)
  · exact nofun

/-- **A string that cannot be spelled is appended in two ways**: as its characters, or as U+FFFD. -/
theorem append_ways_differ_surrogate : (jotting 0xD800).Begins ∧ Run (jotting 0xD800) (jotted 0xD800) ∧
    Trace (Unreturned 1 []) (jotted 0xD800) (List.replicate 4 (.step 1)) (appended 0xD800) ∧
    (appended 0xD800).At 1 (.finish (.value .null)) [] ∧
    Trace (Unreturned 2 []) (jotted 0xD800) (List.replicate 8 (.step 2)) (called 0xD800) ∧
    (called 0xD800).At 2 (.finish (.value (.ofObject 2))) [] ∧
    ∃ buf₁ buf₂, (appended 0xD800).world.buffer? 2 = some (some 0, buf₁) ∧
      (called 0xD800).world.buffer? 2 = some (some 0, buf₂) ∧ buf₁.chars = [0xD800] ∧
      buf₂.chars = [0xFFFD] := by
  have hreturn : (appended 0xD800).outcome? 1 = some (.value .null) ∧
      (called 0xD800).outcome? 2 = some (.value (.ofObject 2)) := by decide +kernel
  have hrun : Trace (fun _ _ => True) (jotting 0xD800) _ (jotted 0xD800) :=
    follow_trace (fun _ => trivial) (follow_eq_after (by decide +kernel))
  refine ⟨begins_jotting 0xD800, hrun.run,
    follow_trace unreturned_of_going (follow_eq_after (by decide +kernel)),
    outcome?_eq_some.mp hreturn.1, follow_trace unreturned_of_going (follow_eq_after (by decide +kernel)),
    outcome?_eq_some.mp hreturn.2, ⟨[0xD800], 1, 1024, none⟩, ⟨[0xFFFD], 1, 1024, none⟩, ?_, ?_,
    rfl, rfl⟩
  · decide +kernel
  · decide +kernel

end Machine

end ObjectKernel
