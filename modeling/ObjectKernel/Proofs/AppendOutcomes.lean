import ObjectKernel.Proofs.AppendWays

/-!
# What appending calls report

A call that appends to a buffer by selector does two things with the buffer: it appends its characters, and
then it looks whether the buffer has failed. Each of the two is one step, and other tasks may come between.
So the call reports the state of the buffer that it sees, not what became of its own characters. The two
agree as long as nobody else makes the buffer fail in between, and in any case a call whose characters were
not taken reports an error, since a failure stays. What cannot be rendered is not appended at all, and then
the call passes on the failure of the rendering without looking at the buffer.

## Contents

* `Buffer.answer_of_not_takes`, `Buffer.answer_of_takes`: what a call answers about its own characters.
* `Machine.append_reports_buffer`: what a call reports. `Machine.append_reports_others`: two calls that do not
  report what became of their own characters.
-/

namespace ObjectKernel

open World

/-! ## Answers -/

namespace Buffer

variable {limit : Nat} {before seen : Buffer} {cs : List Rune} {between : List (List Rune)}

theorem answer_of_failure {e} (h : seen.failure = some e) (b : ObjId) : seen.answer b = .error e := by
  unfold answer
  rw [h]

theorem answer_eq_ok_iff {b : ObjId} : seen.answer b = .ok (.ofObject b) ↔ seen.failure = none := by
  unfold answer
  cases seen.failure with
  | none => exact ⟨fun _ => rfl, fun _ => rfl⟩
  | some e => exact ⟨nofun, nofun⟩

theorem failure_append_of_takes (h : before.takes limit cs.length) : (before.append limit cs).failure = none := by
  rw [append_of_takes h]
  exact Option.isNone_iff_eq_none.mp (Bool.and_eq_true_iff.mp h).1

/-- Characters that were not taken have left a failure behind, which stays and is answered. -/
theorem answer_of_not_takes (hseen : seen = between.foldl (Buffer.append limit) (before.append limit cs))
    (h : ¬before.takes limit cs.length) (b : ObjId) :
    ∃ e, (before.append limit cs).failure = some e ∧ seen.answer b = .error e := by
  have hfailed := failure_append_of_not_takes h
  rw [foldl_append_of_failed hfailed] at hseen
  obtain ⟨e, he⟩ := Option.isSome_iff_exists.mp hfailed
  exact ⟨e, he, answer_of_failure (hseen ▸ he) b⟩

/-- Unless the buffer has come to fail since, characters that were taken make the answer good. -/
theorem answer_of_takes (hkept : seen.failure.isSome → (before.append limit cs).failure.isSome)
    (h : before.takes limit cs.length) (b : ObjId) : seen.answer b = .ok (.ofObject b) := by
  rw [failure_append_of_takes h] at hkept
  refine answer_eq_ok_iff.mpr ?_
  cases hseen : seen.failure with
  | none => rfl
  | some e =>
    rw [hseen] at hkept
    cases hkept rfl

end Buffer

/-! ## Calls -/

namespace Machine

variable {m n : Machine} {τs : List Turn} {i : Nat} {fs : List Frame} {b : ObjId} {home : RuntimeId} {out : Outcome}

/-- A call that comes to its end has failed to render what it was given, or it has appended and looked. -/
theorem append_call_cases (hm : m.Reachable) {buf} (hb : m.world.buffer? b = some (some home, buf)) (c : AppendCall)
    {x : Value} (hx : x.Present m.world) {r k} (hcall : m.At i (Op.dispatch r (some b) c.selector [x] k) fs)
    (hrun : Trace (Unreturned i (.caller k :: fs)) m τs n) (hreturn : n.At i (.finish out) (.caller k :: fs)) :
    let es := m.record (events i (fs.length + 1)) τs
    (c.Unspelt m.world n.world es x ∧ es.flatMap (Event.pieces b) = [] ∧ (∀ v, out ≠ .value v) ∧
        PassesOn es out) ∨
      ∃ cs before seen between, c.Spelt m.world n.world es x cs ∧ es.flatMap (Event.pieces b) = [cs] ∧
        AppendsThenLooks b home i cs m τs n before seen between ∧ out = .ofResult (seen.answer b) := by
  -- The method is entered.
  obtain ⟨τs₁, τs₂, p, rfl, hbefore, hbody, hmethod, hnone⟩ :=
    dispatch_entry hm (hm.seated.classOf? hb) (c.find?_bufferClass home) rfl hcall hrun fun hat => by
      have hlen := congrArg List.length (at_unique hat hreturn).2
      rw [List.length_cons] at hlen
      omega
  have hp : p.Reachable := hm.run hbefore.run
  have hle : m.world ≤ p.world := hm.le hbefore.run
  have hcases := append_method_cases hp hm.sound hle hb c hx hbody hmethod hreturn
  have hrecord : m.record (events i (fs.length + 1)) (τs₁ ++ τs₂) = p.record (events i (fs.length + 1)) τs₂ := by
    rw [hbefore.record_append, hnone]
    rfl
  rw [List.length_cons, ← hrecord] at hcases
  refine hcases.imp_right ?_
  rintro ⟨cs, before, seen, between, hspelt, hown, hruns, hout⟩
  exact ⟨cs, before, seen, between, hspelt, hown,
    hruns.prepend hbefore (config_later hle (buffer?_home hm.sound hb)), hout⟩

/-- **An appending call reports the buffer that it sees after its append.** A task of a machine that can be
reached makes such a call on a buffer of a runtime, from anywhere, and the call comes to its end, whatever
other tasks do meanwhile. If what it was given cannot be rendered, nothing is appended, and the call fails
as the rendering did. Otherwise it appends its characters in one turn, all of them or none, and looks at the
buffer in a later turn. It returns the failure of the buffer that it sees then, or the receiver if there is
none. So it returns the failure if its characters were not appended, and they were appended if it returns
the receiver; and if the buffer has not come to fail between the two turns, then both hold the other way
round as well. -/
theorem append_reports_buffer (hm : m.Reachable) {buf : Buffer}
    (hb : m.world.buffer? b = some (some home, buf)) (c : AppendCall) {x : Value} (hx : x.Present m.world)
    {r : Option RuntimeId} {k : Except Err Value → Prog}
    (hcall : m.At i (Op.dispatch r (some b) c.selector [x] k) fs)
    (hrun : Trace (Unreturned i (.caller k :: fs)) m τs n)
    (hreturn : n.At i (.finish out) (.caller k :: fs)) :
    let es := m.record (events i (fs.length + 1)) τs
    let limit := (m.world.config home).growthLimit
    (c.Unspelt m.world n.world es x ∧ es.flatMap (Event.pieces b) = [] ∧ (∀ v, out ≠ .value v) ∧
        PassesOn es out) ∨
      ∃ cs before seen between, c.Spelt m.world n.world es x cs ∧ es.flatMap (Event.pieces b) = [cs] ∧
        AppendsThenLooks b home i cs m τs n before seen between ∧
        out = .ofResult (seen.answer b) ∧
        (before.append limit cs).chars =
          before.chars ++ (if before.takes limit cs.length then cs else []) ∧
        (¬before.takes limit cs.length → ∃ e, (before.append limit cs).failure = some e ∧ out = .error e) ∧
        (out = .value (.ofObject b) → before.takes limit cs.length) ∧
        ((seen.failure.isSome → (before.append limit cs).failure.isSome) →
          ((∃ e, out = .error e) ↔ ¬before.takes limit cs.length) ∧
          (out = .value (.ofObject b) ↔ before.takes limit cs.length)) := by
  intro es limit
  rcases append_call_cases hm hb c hx hcall hrun hreturn with hrefused | hlooked
  · exact .inl hrefused
  · obtain ⟨cs, before, seen, between, hspelt, hown, hruns, rfl⟩ := hlooked
    have herror (hnot : ¬before.takes limit cs.length) :
        ∃ e, (before.append limit cs).failure = some e ∧ Outcome.ofResult (seen.answer b) = .error e := by
      obtain ⟨e, he, hanswer⟩ := Buffer.answer_of_not_takes hruns.seen hnot b
      exact ⟨e, he, congrArg Outcome.ofResult hanswer⟩
    have hgood (hvalue : Outcome.ofResult (seen.answer b) = .value (.ofObject b)) :
        before.takes limit cs.length := by
      by_contra hnot
      obtain ⟨e, -, hout⟩ := herror hnot
      cases hout.symm.trans hvalue
    refine .inr ⟨cs, before, seen, between, hspelt, hown, hruns, rfl, Buffer.chars_append .., herror, hgood, ?_⟩
    intro hkept
    have htaken (ht : before.takes limit cs.length) :
        Outcome.ofResult (seen.answer b) = .value (.ofObject b) :=
      congrArg Outcome.ofResult (Buffer.answer_of_takes hkept ht b)
    refine ⟨⟨?_, fun hnot => (herror hnot).imp fun _ h => h.2⟩, hgood, htaken⟩
    rintro ⟨e, he⟩ ht
    cases he.symm.trans (htaken ht)

/-! ### Three calls on a buffer for three characters -/

/-- Settings with room for three characters in a buffer. -/
def threeCells : Config := { bufferInitialCapacity := 3, maxBufferCapacity := 3 }

/-- Makes two buffers and lets the second one fail. -/
def equip : Op Unit := do
  let _ ← Op.newBuffer (some 0)
  let other ← Op.newBuffer (some 0)
  Op.append other (List.replicate 5 97)

/-- A call that appends to the first buffer. -/
def adding (c : AppendCall) (x : Value) : Prog := (Op.dispatch (some 0) (some 0) c.selector [x]).toProg

/-- One task provides two buffers. Two others are about to append a number with one digit and one with five
digits to the first buffer, and a fourth one to append the second buffer to it. -/
def crowding : Machine where
  world := World.single threeCells 4
  tasks := #[{ id := 0, prog := equip.toProgUnit }, { id := 1, prog := adding .int (.ofInt32 1) },
    { id := 2, prog := adding .int (.ofInt32 12345) }, { id := 3, prog := adding .object (.ofRef (some 1)) }]

instance : Op.Lawful [.home (some 0)] equip := by
  unfold equip
  infer_instance

instance (c : AppendCall) (x : Value) : Launchable (adding c x) := inferInstanceAs (Launchable (Op.toProg _))

theorem initial_crowding : crowding.Initial := initial_launch

/-- Whether a task has not come to the end of a level of its frames. -/
def busy (i depth : Nat) (m : Machine) (_ : Turn) : Bool :=
  match m.tasks[i]? with
  | some ⟨_, .finish _, fs⟩ => fs.length ≠ depth
  | _ => true

theorem unreturned_of_busy {τ} (h : busy i fs.length m τ) : m.Unreturned i fs τ := by
  rintro - out ⟨⟨id, prog, frames⟩, ht, rfl, rfl⟩
  unfold busy at h
  rw [ht] at h
  exact absurd rfl (of_decide_eq_true h)

/-- The machine with the buffers. -/
def equipped : Machine := crowding.after (fun _ _ => true) (List.replicate 3 (.step 0))

/-- The turns in which the first number is appended, then the second one is refused, and then the first call
looks at the buffer. -/
def crowd : List Turn := List.replicate 4 (.step 1) ++ List.replicate 5 (.step 2) ++ [.step 1]

/-- The machine once both numbers were dealt with, before the first call returns. -/
def crowded : Machine := equipped.after (busy 1 1) crowd

/-- The machine once the rendering of the second buffer has failed, before the third call returns. -/
def crowdedOut : Machine := crowded.after (busy 3 1) (List.replicate 9 (.step 3))

/-- What follows a call that is all that a task does. -/
def conclude : Except Err Value → Prog
  | .ok v => .finish (.value v)
  | .error e => .finish (.error e)

theorem run_equipped : Run crowding equipped :=
  (follow_trace (fun _ => trivial) (follow_eq_after (by decide +kernel)) :
    Trace (fun _ _ => True) crowding _ equipped).run

theorem trace_crowded : Trace (Unreturned 1 [.caller conclude]) equipped crowd crowded :=
  follow_trace unreturned_of_busy (follow_eq_after (by decide +kernel))

/-- The call with one digit sees the failure that the call with five digits has caused meanwhile. -/
theorem append_reports_buffer_crowded : equipped.Reachable ∧ (Value.ofInt32 1).Present equipped.world ∧
    equipped.At 1 (Op.dispatch (some 0) (some 0) AppendCall.int.selector [.ofInt32 1] conclude) [] ∧
    Trace (Unreturned 1 [.caller conclude]) equipped crowd crowded ∧
    crowded.At 1 (.finish (.error (.fault (.bufferFull 6 3)))) [.caller conclude] ∧
    ∃ before seen between, AppendsThenLooks 0 0 1 [0x31] equipped crowd crowded before seen between ∧
      seen.failure = some (.fault (.bufferFull 6 3)) := by
  have hreach : equipped.Reachable := initial_crowding.reachable.run run_equipped
  have hpresent : (Value.ofInt32 1).Present equipped.world := nofun
  have hcall : equipped.At 1 (Op.dispatch (some 0) (some 0) AppendCall.int.selector [.ofInt32 1] conclude) [] :=
    ⟨_, rfl, rfl, rfl⟩
  have hreturn : crowded.At 1 (.finish (.error (.fault (.bufferFull 6 3)))) [.caller conclude] :=
    ⟨_, rfl, rfl, rfl⟩
  have hb : equipped.world.buffer? 0 = some (some 0, .empty 3) := by decide +kernel
  refine ⟨hreach, hpresent, hcall, trace_crowded, hreturn, ?_⟩
  rcases append_reports_buffer hreach hb .int hpresent hcall trace_crowded hreturn with
    ⟨hunspelt, -⟩ | ⟨cs, before, seen, between, hspelt, -, hruns, hout, -⟩
  · cases hunspelt
  · cases hspelt
    refine ⟨before, seen, between, hruns, ?_⟩
    unfold Buffer.answer at hout
    cases hfailure : seen.failure with
    | none =>
        rw [hfailure] at hout
        cases hout
    | some e =>
        rw [hfailure] at hout
        cases hout
        rfl

/-- **A call need not report what became of its own characters.** The call with one digit returns an error,
although its digit was appended: the call with five digits came between its append and its look. After that
the call with the other buffer returns an error that is not that of the buffer, although it has appended
nothing: it is that of the other buffer, which cannot be rendered. -/
theorem append_reports_others : crowding.Initial ∧ Run crowding equipped ∧
    (equipped.At 1 (adding .int (.ofInt32 1)) [] ∧
      Trace (Unreturned 1 [.caller conclude]) equipped crowd crowded ∧
      crowded.At 1 (.finish (.error (.fault (.bufferFull 6 3)))) [.caller conclude] ∧
      equipped.record (pieces 0) crowd = [[0x31], [0x31, 0x32, 0x33, 0x34, 0x35]] ∧
      crowded.world.buffer? 0 = some (some 0,
        { reversed := [0x31], length := 1, capacity := 3, failure := some (.fault (.bufferFull 6 3)) })) ∧
    crowded.At 3 (adding .object (.ofRef (some 1))) [] ∧
    Trace (Unreturned 3 [.caller conclude]) crowded (List.replicate 9 (.step 3)) crowdedOut ∧
    crowdedOut.At 3 (.finish (.error (.fault (.bufferFull 5 3)))) [.caller conclude] ∧
    crowded.record (pieces 0) (List.replicate 9 (.step 3)) = [] := by
  refine ⟨initial_crowding, run_equipped, ⟨⟨_, rfl, rfl, rfl⟩, trace_crowded, ⟨_, rfl, rfl, rfl⟩, ?_, ?_⟩,
    ⟨_, rfl, rfl, rfl⟩, follow_trace unreturned_of_busy (follow_eq_after ?_), ⟨_, rfl, rfl, rfl⟩, ?_⟩
  · decide +kernel
  · decide +kernel
  · decide +kernel
  · decide +kernel

end Machine

end ObjectKernel
