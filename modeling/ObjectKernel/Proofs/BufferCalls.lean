import ObjectKernel.Proofs.Rendering

/-!
# Calls on a buffer

A call that appends to a buffer contributes one piece: the characters of what it was given, of null if it
was given nothing, or of what the object that it was given is rendered as. Only a rendering that fails
contributes nothing. Together with the history of a buffer this makes a buffer a bounded list of the
contributions of its calls, in the order in which they came, whoever made them.

## Contents

* `BufferCall`, `BufferCall.toOp`: the calls.
* `BufferCall.Contributes`, `BufferCall.Leads`: what they do. `BufferCall.ensures_toOp`: they do so.
* `Machine.buffer_refines_bounded_list`.
-/

namespace ObjectKernel

open World

/-- A call that appends to a buffer. -/
inductive BufferCall where
  | text (s : Option ObjId)
  | int (n : Int32)
  | long (n : Int64)
  | char (r : Rune)
  | bool (v : Bool)
  | object (o : Option ObjId)

namespace BufferCall

/-- The operation of a call. -/
def toOp (b : ObjId) : BufferCall → Op Unit
  | text s => Op.appendText b s
  | int n => Op.appendBytes b (Bytes.ofInt n.toInt)
  | long n => Op.appendBytes b (Bytes.ofInt n.toInt)
  | char r => Op.append b [r]
  | bool v => Op.appendBytes b (if v then ("true" : Bytes) else "false")
  | object o => Op.appendObject b o

/-- What a call is given is there, and a string where it has to be one. -/
def Typed (w : World) : BufferCall → Prop
  | text (some s) => (w.text? s).isSome
  | object (some o) => (w.object? o).isSome
  | _ => True

/-- What a call with events `es`, from a world `w` to a world `v`, contributes to its buffer. -/
inductive Contributes (w v : World) (es : List Event) : BufferCall → Option (List Rune) → Prop where
  | noText : Contributes w v es (text none) (some nullChars)
  | text {s : ObjId} {t : RuntimeId × CharSeq} (given : w.text? s = some t) :
      Contributes w v es (text (some s)) (some t.2.chars)
  | int (n : Int32) : Contributes w v es (int n) (some (Utf8.decode (Bytes.ofInt n.toInt)))
  | long (n : Int64) : Contributes w v es (long n) (some (Utf8.decode (Bytes.ofInt n.toInt)))
  | char (r : Rune) : Contributes w v es (char r) (some [r])
  | bool (x : Bool) :
      Contributes w v es (bool x) (some (Utf8.decode (if x then ("true" : Bytes) else "false")))
  | noObject : Contributes w v es (object none) (some nullChars)
  | object {o : ObjId} {x : Option (List Rune)} (rendered : Rendered w v es o x) :
      Contributes w v es (object (some o)) x

/-- Where a call on a buffer leads: what follows it goes on normally once its contribution is appended,
and with an error, if at all, when there is none. -/
inductive Leads (w : World) (b : ObjId) (c : BufferCall) (next : Except Err Unit → Prog) :
    List Event → World → Prog → Prop where
  | appended {es : List Event} {v : World} {x : List Rune} (contributes : c.Contributes w v es (some x))
      (once : es.flatMap (Event.pieces b) = [x]) : Leads w b c next es v (next (.ok ()))
  | refused {es : List Event} {v : World} {e : Err} (contributes : c.Contributes w v es none)
      (never : es.flatMap (Event.pieces b) = []) : Leads w b c next es v (next (.error e))
  | panicked {es : List Event} {v : World} {p : Panic} (contributes : c.Contributes w v es none)
      (never : es.flatMap (Event.pieces b) = []) : Leads w b c next es v (.finish (.panic p))

end BufferCall

namespace Op

/-! ## The operations as programs -/

theorem appendText_some (b s : ObjId) (k : Except Err Unit → Prog) :
    appendText b (some s) k = .observe fun _ v =>
      match v.text? s with
      | some t => append b t.2.chars k
      | none => .finish (.panic (.defect (.wrongShape (v.shapeOf s) "*runtime.String"))) := by
  refine Prog.observe_congr fun _ v => ?_
  dsimp only
  cases v.text? s <;> rfl

/-- What appends the string that comes out. -/
def appending (b : ObjId) (k : Except Err Unit → Prog) : Except Err ObjId → Prog
  | .ok s => appendText b (some s) k
  | .error e => k (.error e)

theorem appendText_none (b : ObjId) (k : Except Err Unit → Prog) :
    appendText b none k = .observe fun _ v =>
      nullText ((v.buffer? b).bind Prod.fst) (appending b k) := by
  refine Prog.observe_congr fun _ v => ?_
  refine congrArg (nullText _) (funext fun r => ?_)
  cases r <;> rfl

theorem appendObject_eq (b : ObjId) (o : Option ObjId) (k : Except Err Unit → Prog) :
    appendObject b o k = .observe fun _ v =>
      renderObject ((v.buffer? b).bind Prod.fst) o (appending b k) := by
  refine Prog.observe_congr fun _ v => ?_
  refine congrArg (renderObject _ o) (funext fun r => ?_)
  cases r <;> rfl

/-- An append to a buffer of a runtime goes through. -/
theorem ensures_append {E : List Event → World → Prog → Prop} {es} {w : World} (hs : w.Sound) {b home buf}
    (hb : w.buffer? b = some (some home, buf)) {cs k}
    (hk : ∀ v, w.Next v → (k (.ok ())).Ensures Proceeds E (es ++ [.performed (.append b cs)]) v) :
    (append b cs k).Ensures Proceeds E es w := by
  refine .perform fun t v hv => ?_
  replace hv := hv hs
  obtain ⟨buf', hb'⟩ := buffer?_later hv.later hb
  have happend := append_eq hb' cs
  have hcalm := calm_setBuffer hv.sound b (buf'.append (v.config home).growthLimit cs)
  show (ofPanic (v.attempt (v.append b cs)).1 k).Ensures Proceeds E _ (v.attempt (v.append b cs)).2
  rw [happend]
  exact hk _ (hv.trans hcalm.next)

end Op

namespace BufferCall

/-! ## What the calls do -/

section

open Op

variable {w u : World} {b : ObjId} {home : RuntimeId} {buf : Buffer} {c : BufferCall}
  {next : Except Err Unit → Prog} {es : List Event}

/-- A call that has nothing to do but to append its contribution leads where it should. -/
theorem ensures_contribution (hb : w.buffer? b = some (some home, buf)) (hu : w.Next u) (hes : Silent es) {x}
    (hx : ∀ es' v, u ≤ v → c.Contributes w v (es ++ es') (some x)) :
    (append b x next).Ensures Proceeds (c.Leads w b next) es u := by
  obtain ⟨buf', hb'⟩ := buffer?_later hu.later hb
  refine ensures_append hu.sound hb' fun v hv => .exit fun v' hv' => ?_
  replace hv' := hv.trans (hv' hv.sound)
  have honce : (es ++ [Event.performed (.append b x)]).flatMap (Event.pieces b) = [x] := by
    rw [List.flatMap_append, hes b, List.nil_append, List.flatMap_singleton]
    exact if_pos rfl
  exact .appended (hx _ v' hv'.later) honce

/-- A call that has the string to append leads where it should. -/
theorem ensures_appending (hb : w.buffer? b = some (some home, buf)) (hu : w.Next u) (hes : Silent es) {s t}
    (ht : u.text? s = some t) (hx : ∀ es' v, u ≤ v → c.Contributes w v (es ++ es') (some t.2.chars)) :
    (appending b next (.ok s)).Ensures Proceeds (c.Leads w b next) es u := by
  show (appendText b (some s) next).Ensures Proceeds (c.Leads w b next) es u
  rw [appendText_some]
  refine .observe fun _ v hv => ?_
  replace hv := hv hu.sound
  rw [text?_later hv.later ht]
  exact ensures_contribution hb (hu.trans hv) hes fun es' v' hv' => hx es' v' (hv.later.trans hv')

/-- **A call appends its contribution**, whatever happens meanwhile. -/
theorem ensures_toOp (hs : w.Sound) (hb : w.buffer? b = some (some home, buf)) (ht : c.Typed w)
    (next : Except Err Unit → Prog) : (c.toOp b next).Ensures Proceeds (c.Leads w b next) [] w := by
  have hsilent : Silent [] := fun _ => rfl
  have hhas := buffer?_home hs hb
  -- The runtime of the buffer is read anew by the calls that need it, and is always the same.
  have hhome {v : World} (hv : w.Next v) : (v.buffer? b).bind Prod.fst = some home := by
    obtain ⟨buf', hb'⟩ := buffer?_later hv.later hb
    rw [hb']
    rfl
  have hdirect {x : List Rune} (hx : ∀ es v, c.Contributes w v es (some x)) :
      (append b x next).Ensures Proceeds (c.Leads w b next) [] w :=
    ensures_contribution hb (.refl hs) hsilent fun es' v _ => hx _ v
  have hnull (hx : ∀ es v, c.Contributes w v es (some nullChars)) :
      (nullText (some home) (appending b next)).Ensures Proceeds (c.Leads w b next) [] w :=
    ensures_nullText hs hhas fun s es' u hu htext hes =>
      ensures_appending hb hu hes htext fun es'' v' _ => hx _ v'
  cases c with
  | int n => exact hdirect fun _ _ => .int n
  | long n => exact hdirect fun _ _ => .long n
  | char r => exact hdirect fun _ _ => .char r
  | bool x => exact hdirect fun _ _ => .bool x
  | text s =>
    cases s with
    | some s =>
      obtain ⟨t, htext⟩ := Option.isSome_iff_exists.mp ht
      exact ensures_appending hb (.refl hs) hsilent htext fun _ _ _ => .text htext
    | none =>
      show (appendText b none next).Ensures Proceeds _ _ _
      rw [appendText_none]
      refine .observe fun _ v hv => ?_
      replace hv := hv hs
      rw [hhome hv]
      exact (hnull fun _ _ => .noText).later interference_proceeds fun _ => hv
  | object o =>
    show (appendObject b o next).Ensures Proceeds _ _ _
    rw [appendObject_eq]
    refine .observe fun _ v hv => ?_
    replace hv := hv hs
    rw [hhome hv]
    -- What was read does not matter: the rendering may as well begin in the world of the call.
    refine Prog.Ensures.later interference_proceeds (fun _ => hv) ?_
    cases o with
    | none => exact hnull fun _ _ => .noObject
    | some o =>
      refine ensures_renderObject hs hhas ht ⟨?_, ?_, ?_⟩
      · intro s t es v hv htext hes hrendered
        refine ensures_appending hb hv hes htext fun es' v' hv' => ?_
        exact .object ((hrendered.extend es').later hv')
      · intro e es v hv hes hrendered _
        refine .exit fun v' hv' => ?_
        exact .refused (.object (hrendered.later (hv' hv.sound).later)) (hes b)
      · intro p es v hv hes hrendered _
        exact .panicked (.object hrendered) (hes b)

end

end BufferCall

namespace Machine

/-! ## Buffers as bounded lists -/

/-- A call on a buffer, made by a task of a machine that can be reached, leads where it should in every
run. -/
theorem leads_of_call {m n : Machine} (hm : m.Reachable) {b home buf}
    (hb : m.world.buffer? b = some (some home, buf)) {c : BufferCall} (hc : c.Typed m.world) {j next fs}
    (hcall : m.At j (c.toOp b next) fs) {τs} (hrun : Trace (Unreturned j fs) m τs n) {out}
    (hreturn : n.At j (.finish out) fs) : ∃ τs₁ τs₂ p, τs = τs₁ ++ τs₂ ∧ Trace (Unreturned j fs) m τs₁ p ∧
      Trace (Unreturned j fs) p τs₂ n ∧
      p.Arrived (c.Leads m.world b next) j fs (m.record (events j fs.length) τs₁) := by
  refine ensures_trace interference_proceeds ?_ hm hcall (c.ensures_toOp hm.sound hb hc next) hrun hreturn
  intro m n τ hm hunreturned hτ
  exact ⟨hunreturned, fun _ _ => ⟨hm.le_take hτ, (hm.take hτ).sound⟩⟩

/-- **A buffer is a bounded list of the contributions of its calls, with a failure that stays.** A task
of a machine that can be reached makes a buffer for a runtime, and any turns of any tasks follow. Then of
the pieces that were appended, in their order, the buffer holds the longest prefix within the greater of
its initial capacity and its growth limit, its length counts them, and it has failed unless that is all of
them, for good and with the length that was the first too much. -/
theorem buffer_refines_bounded_list {m m₁ n : Machine} (hm : m.Reachable) {i : Nat} {home : RuntimeId}
    {b : ObjId} (hnew : m.Makes i home b) (hstep : m.take (.step i) = some m₁) {τs : List Turn}
    (hrun : Trace (fun _ _ => True) m₁ τs n) :
    ∃ (k : Nat) (buf : Buffer), n.world.buffer? b = some (some home, buf) ∧
      LongestPrefix (max (m.world.config home).initialCapacity (m.world.config home).growthLimit)
        (m₁.record (pieces b) τs) k ∧
      buf.chars = ((m₁.record (pieces b) τs).take k).flatten ∧ buf.length = buf.chars.length ∧
      (k = (m₁.record (pieces b) τs).length → buf.failure = none) ∧
      (k < (m₁.record (pieces b) τs).length → ∃ e, buf.failure = some e ∧
        e.kind? = some .allocation ∧
        e.value? = some (.number (total (m₁.record (pieces b) τs) (k + 1))) ∧
        -- The failure stays, and so does the rest of the buffer.
        ∀ τs' p, Trace (fun _ _ => True) n τs' p → p.world.buffer? b = some (some home, buf)) ∧
      -- A task that asks for the text is told the failure, or the text if it is not too long.
      (∀ j next fs p, n.At j (Op.bufferText b next) fs → n.take (.step j) = some p →
        ∃ r, p.At j (next r) fs ∧ n.world.Told b home buf r p.world) ∧
      -- A call that is made then appends its contribution, as one of the pieces that follow, and what
      -- comes after the call goes on from there.
      ∀ (c : BufferCall) j next fs τs' p out, c.Typed n.world → n.At j (c.toOp b next) fs →
        Trace (Unreturned j fs) n τs' p → p.At j (.finish out) fs →
        ∃ τs₁ τs₂ q, τs' = τs₁ ++ τs₂ ∧ Trace (Unreturned j fs) n τs₁ q ∧
          Trace (Unreturned j fs) q τs₂ p ∧
          q.Arrived (c.Leads n.world b next) j fs (n.record (events j fs.length) τs₁) ∧
          List.Sublist ((n.record (events j fs.length) τs₁).flatMap (Event.pieces b))
            (n.record (pieces b) τs₁) := by
  obtain ⟨buf, hbuf, ⟨k, hlongest, hrefines⟩, -, -⟩ := fed_of_makes hm hnew hstep hrun
  have hn : n.Reachable := (hm.take hstep).run hrun.run
  refine ⟨k, buf, hbuf, hlongest, hrefines.chars, hrefines.length, fun hk => ?_, fun hk => ?_,
    fun j next fs p hat hτ => told_of_bufferText hbuf hrefines.length hat hτ,
    fun c j next fs τs' p out hc hcall hcalls hreturn => ?_⟩
  · rw [hrefines.failure, if_pos hk]
  · have hfailure := hrefines.failure
    rw [if_neg (Nat.ne_of_lt hk)] at hfailure
    exact ⟨_, hfailure, rfl, rfl, fun τs' p htrace =>
      buffer_trace_of_failed hn hbuf (by rw [hfailure]; rfl) htrace⟩
  · obtain ⟨τs₁, τs₂, q, heq, hfirst, hrest, harrived⟩ :=
      leads_of_call hn hbuf hc hcall hcalls hreturn
    exact ⟨τs₁, τs₂, q, heq, hfirst, hrest, harrived, sublist_pieces hfirst ..⟩

/-! ### A buffer for three characters -/

/-- Makes a buffer and appends two characters. -/
def fill : Op Unit := do
  let b ← Op.newBuffer (some 0)
  Op.append b [97]
  Op.append b [98]

/-- One task fills a buffer, and another one is about to append null to it. -/
def filling : Machine where
  world := World.single { bufferInitialCapacity := 2, maxBufferCapacity := 3 } 2
  tasks := #[{ id := 0, prog := fill.toProgUnit },
    { id := 1, prog := (BufferCall.text none).toOp 0 Op.finishUnit }]

instance : Op.Lawful [.home (some 0)] fill := by
  unfold fill
  infer_instance

instance : Launchable ((BufferCall.text none).toOp 0 Op.finishUnit) :=
  launchable_run (x := Op.appendText 0 none) inferInstance fun r => by cases r <;> exact ⟨_, rfl⟩

theorem initial_filling : filling.Initial := initial_launch

/-- The machine with the new buffer. -/
def made : Machine := filling.after (fun _ _ => true) [.step 0]

/-- The machine once two characters are appended. -/
def filled : Machine := made.after (fun _ _ => true) (List.replicate 2 (.step 0))

/-- The machine once null is appended as well, which is too much. -/
def overfull : Machine := filled.after (fun m _ => m.outcome? 1 = none) (List.replicate 6 (.step 1))

theorem buffer_refines_bounded_list_overfull : filling.Reachable ∧ filling.Makes 0 0 0 ∧
    filling.take (.step 0) = some made ∧
    Trace (fun _ _ => True) made (List.replicate 2 (.step 0)) filled ∧
    filled.At 1 ((BufferCall.text none).toOp 0 Op.finishUnit) [] ∧
    Trace (Unreturned 1 []) filled (List.replicate 6 (.step 1)) overfull ∧
    overfull.At 1 (.finish (.value .null)) [] ∧
    (∃ buf, filled.world.buffer? 0 = some (some 0, buf) ∧ buf.chars = [97, 98] ∧ buf.failure = none) ∧
    (∃ (τs : List Turn) (q : Machine), q.Arrived ((BufferCall.text none).Leads filled.world 0 Op.finishUnit) 1 []
      (filled.record (events 1 0) τs)) ∧
    ∃ buf e, overfull.world.buffer? 0 = some (some 0, buf) ∧ buf.chars = [97, 98] ∧
      buf.failure = some e ∧ e.kind? = some .allocation ∧ e.value? = some (.number 6) := by
  have hreach := initial_filling.reachable
  have hnew : filling.Makes 0 0 0 := ⟨_, _, _, ⟨_, rfl, rfl, rfl⟩, rfl⟩
  have hstep : filling.take (.step 0) = some made := rfl
  have hfill : Trace (fun _ _ => True) made (List.replicate 2 (.step 0)) filled :=
    follow_trace (fun _ => trivial) (follow_eq_after (by decide +kernel))
  have hcall : filled.At 1 ((BufferCall.text none).toOp 0 Op.finishUnit) [] := ⟨_, rfl, rfl, rfl⟩
  have hrun : Trace (Unreturned 1 []) filled (List.replicate 6 (.step 1)) overfull := by
    refine follow_trace (fun {m τ} h _ out hat => ?_) (follow_eq_after (by decide +kernel))
    cases (of_decide_eq_true h).symm.trans (outcome?_eq_some.mpr hat)
  have hreturn : overfull.At 1 (.finish (.value .null)) [] := outcome?_eq_some.mp (by decide +kernel)
  refine ⟨hreach, hnew, hstep, hfill, hcall, hrun, hreturn, ?_, ?_, ?_⟩
  · obtain ⟨k, buf, hbuf, hlongest, hchars, -, hwhole, -⟩ :=
      buffer_refines_bounded_list hreach hnew hstep hfill
    have hpieces : made.record (pieces 0) (List.replicate 2 (.step 0)) = [[97], [98]] := by
      decide +kernel
    rw [hpieces] at hlongest hchars hwhole
    have hk : k = 2 := Nat.le_antisymm hlongest.le (hlongest.longest 2 (by decide) (by decide))
    subst hk
    exact ⟨buf, hbuf, hchars, hwhole rfl⟩
  · obtain ⟨k, buf, -, -, -, -, -, -, -, hcalls⟩ := buffer_refines_bounded_list hreach hnew hstep hfill
    obtain ⟨τs₁, τs₂, q, -, -, -, harrived, -⟩ :=
      hcalls (.text none) 1 Op.finishUnit [] _ _ _ trivial hcall hrun hreturn
    exact ⟨τs₁, q, harrived⟩
  · obtain ⟨k, buf, hbuf, hlongest, hchars, -, -, hfailed, -⟩ :=
      buffer_refines_bounded_list hreach hnew hstep (hfill.append (hrun.imp fun _ => trivial))
    have hpieces : made.record (pieces 0) (List.replicate 2 (.step 0) ++ List.replicate 6 (.step 1)) =
        [[97], [98], nullChars] := by
      decide +kernel
    rw [hpieces] at hlongest hchars hfailed
    have hk : k = 2 := by
      refine Nat.le_antisymm ?_ (hlongest.longest 2 (by decide) (by decide))
      by_contra hlt
      have hthree : k = 3 := Nat.le_antisymm hlongest.le (Nat.lt_of_not_le hlt)
      subst hthree
      exact absurd hlongest.fits (by decide)
    subst hk
    obtain ⟨e, hfailure, hkind, hvalue, -⟩ := hfailed (by decide)
    exact ⟨buf, e, hbuf, hchars, hfailure, hkind, hvalue⟩

end Machine

end ObjectKernel
