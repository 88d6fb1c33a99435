import ObjectKernel.Proofs.BufferCalls
import ObjectKernel.Proofs.BufferOrigins
import ObjectKernel.Proofs.Results

/-!
# Calls that append

A method of a buffer that appends something finds out first what its argument is as text, which may ask an object
to render itself. Then it appends the characters, and then it looks whether the buffer has failed, and answers what
it sees. Each of the two is one step, and other tasks may come between.

## Contents

* `AppendCall`: the calls. `AppendCall.Spelt`, `AppendCall.Unspelt`: what they are to append.
* `AppendCall.Prepares`, `AppendCall.ensures_run`: what they do before they append, whatever happens meanwhile.
* `Machine.AppendsThenLooks`: an append and a look in a run. `Machine.appendsThenLooks_of_trace`.
* `Machine.append_method_cases`: the runs of the methods.
-/

namespace ObjectKernel

open World

/-! ## The calls -/

/-- A call by selector that appends to a buffer. -/
inductive AppendCall where
  | object
  | int
  | long

/-- An object in a value exists. -/
def Value.Present (w : World) (x : Value) : Prop := ∀ o, x.ref = some o → (w.object? o).isSome

/-- What a result is as an outcome. -/
def Outcome.ofResult : Except Err Value → Outcome
  | .ok v => .value v
  | .error e => .error e

/-- What an appending call answers that sees a buffer. -/
def Buffer.answer (b : ObjId) (seen : Buffer) : Except Err Value :=
  match seen.failure with
  | some e => .error e
  | none => .ok (.ofObject b)

namespace Op

/-- What the method answers once it has appended something. -/
def answering (b : ObjId) (k : Except Err Value → Prog) : Except Err Unit → Prog
  | .ok _ => appended b k
  | .error e => k (.error e)

theorem appended_eq (b : ObjId) (k : Except Err Value → Prog) :
    appended b k = .observe fun _ v => k (match (v.buffer? b).bind (·.2.failure) with
      | some e => .error e
      | none => .ok (.ofObject b)) := by
  refine Prog.observe_congr fun _ v => ?_
  dsimp only
  cases (v.buffer? b).bind (·.2.failure) <;> rfl

/-- What appends the text of the string that comes out. -/
def spelling (b : ObjId) (k : Except Err Value → Prog) : Except Err ObjId → Prog
  | .ok s => .observe fun _ v =>
    match v.text? s with
    | some t => append b (Utf8.decode t.2.text) (answering b k)
    | none => .finish (.panic (.defect (.wrongShape (v.shapeOf s) "*runtime.String")))
  | .error e => k (.error e)

theorem toProg_ofResult (x : Op Value) : x.toProg = x fun r => .finish (.ofResult r) := by
  refine congrArg x (funext fun r => ?_)
  cases r <;> rfl

end Op

namespace AppendCall

/-- The selector of a call. -/
def selector : AppendCall → Selector
  | object => .appendObject
  | int => .appendInt
  | long => .appendLong

/-- The method of a call. -/
def code : AppendCall → Builtin
  | object => .bufferAppendObject
  | int => .bufferAppendInt
  | long => .bufferAppendLong

/-- Buffers have the methods. -/
theorem find?_bufferClass (c : AppendCall) (home : RuntimeId) : (Builtin.bufferClass home).find? c.selector =
    some (Builtin.bufferClass home, (Builtin.method home c.selector 1 c.code).2) := by
  cases c <;> rfl

/-- The characters that a call with events `es`, from a world `w` to a world `v`, is to append: those of the
number or of the plain value that it is given, or what the text of the rendering spells. -/
inductive Spelt (w v : World) (es : List Event) (x : Value) : AppendCall → List Rune → Prop where
  | int : Spelt w v es x int (Utf8.decode (Bytes.ofInt x.asInt32.toInt))
  | long : Spelt w v es x long (Utf8.decode (Bytes.ofInt x.asInt64.toInt))
  | plain {text : Bytes} (primitive : x.primitiveText = some text) : Spelt w v es x object (Utf8.decode text)
  | object {o s : ObjId} {t : RuntimeId × CharSeq} (given : x.primitiveText = none ∧ x.ref = some o)
      (made : v.text? s = some t) (rendered : Rendered w v es o (some t.2.chars)) :
      Spelt w v es x object (Utf8.decode t.2.text)

/-- A call with events `es`, from a world `w` to a world `v`, has nothing to append: the object that it is
given cannot be rendered. -/
inductive Unspelt (w v : World) (es : List Event) (x : Value) : AppendCall → Prop where
  | object {o : ObjId} (given : x.primitiveText = none ∧ x.ref = some o) (rendered : Rendered w v es o none) :
      Unspelt w v es x object

/-- What comes after an append in a call. -/
theorem Spelt.extend {w v es x} {c : AppendCall} {cs} (h : c.Spelt w v es x cs) (es' : List Event) {u} (hle : v ≤ u) :
    c.Spelt w u (es ++ es') x cs := by
  cases h with
  | int => exact .int
  | long => exact .long
  | plain primitive => exact .plain primitive
  | object given made rendered =>
    exact .object given (text?_later hle made) ((rendered.extend es').later hle)

/-- Where a call comes to before it touches the buffer: it is about to append, or it ends with the failure
of a rendering. -/
inductive Prepares (w : World) (b : ObjId) (x : Value) (k : Except Err Value → Prog) (c : AppendCall) :
    List Event → World → Prog → Prop where
  | ready {es : List Event} {v : World} {cs : List Rune} (spelt : c.Spelt w v es x cs) (silent : Silent es) :
      Prepares w b x k c es v (Op.append b cs (Op.answering b k))
  | refused {es : List Event} {v : World} {e : Err} (unspelt : c.Unspelt w v es x) (silent : Silent es)
      (passes : PassesOn es (.error e)) : Prepares w b x k c es v (k (.error e))
  | panicked {es : List Event} {v : World} {p : Panic} (unspelt : c.Unspelt w v es x) (silent : Silent es)
      (passes : PassesOn es (.panic p)) : Prepares w b x k c es v (.finish (.panic p))

/-- What a call does once it knows that it has a buffer. -/
def writes (home : RuntimeId) (b : ObjId) (x : Value) (k : Except Err Value → Prog) : AppendCall → Prog
  | int => Op.append b (Utf8.decode (Bytes.ofInt x.asInt32.toInt)) (Op.answering b k)
  | long => Op.append b (Utf8.decode (Bytes.ofInt x.asInt64.toInt)) (Op.answering b k)
  | object =>
    match x.primitiveText with
    | some text => Op.append b (Utf8.decode text) (Op.answering b k)
    | none => Op.renderObject (some home) x.ref (Op.spelling b k)

theorem run_eq (c : AppendCall) (home : RuntimeId) (b : ObjId) (x : Value) (k : Except Err Value → Prog) :
    Builtin.run home (some b) [x] c.code k = .observe fun _ v =>
      match v.buffer? b with
      | some _ => c.writes home b x k
      | none => .finish (.panic (.defect (.wrongShape (v.shapeOf b) "*runtime.StringBuffer"))) := by
  cases c with
  | int | long =>
    refine Prog.observe_congr fun _ v => ?_
    dsimp only
    cases v.buffer? b with
    | none => rfl
    | some p =>
      refine congrArg (Op.append b _) (funext fun r => ?_)
      cases r <;> rfl
  | object =>
    refine Prog.observe_congr fun _ v => ?_
    dsimp only [writes]
    cases v.buffer? b with
    | none => rfl
    | some p =>
      show (Op.render (some home) x >>= fun text => Op.appendBytes b text >>= fun _ => Op.appended b) k = _
      unfold Op.render
      cases x.primitiveText with
      | some text =>
        refine congrArg (Op.append b _) (funext fun r => ?_)
        cases r <;> rfl
      | none =>
        refine congrArg (Op.renderObject (some home) x.ref) (funext fun r => ?_)
        cases r with
        | error e => rfl
        | ok s =>
          refine Prog.observe_congr fun _ v => ?_
          dsimp only
          cases v.text? s with
          | none => rfl
          | some t =>
            refine congrArg (Op.append b _) (funext fun r => ?_)
            cases r <;> rfl

section

variable {w : World} {b : ObjId} {home : RuntimeId} {buf : Buffer} {x : Value} {c : AppendCall}

theorem ref_of_primitiveText (h : x.primitiveText = none) : ∃ o, x.ref = some o := by
  unfold Value.primitiveText at h
  cases hx : x.type <;> rw [hx] at h
  case object | unknown =>
    cases href : x.ref with
    | some o => exact ⟨o, rfl⟩
    | none =>
      rw [href] at h
      cases h
  all_goals cases h

/-- **A call prepares what it appends**, whatever happens meanwhile. -/
theorem ensures_run (hs : w.Sound) (hb : w.buffer? b = some (some home, buf)) (hx : x.Present w)
    (k : Except Err Value → Prog) :
    (Builtin.run home (some b) [x] c.code k).Ensures Proceeds (c.Prepares w b x k) [] w := by
  have hready {cs : List Rune} (hcs : ∀ v, c.Spelt w v [] x cs) {u : World} :
      (Op.append b cs (Op.answering b k)).Ensures Proceeds (c.Prepares w b x k) [] u :=
    .exit fun v _ => .ready (hcs v) fun _ => rfl
  rw [run_eq]
  refine .observe fun _ v hv => ?_
  replace hv := hv hs
  obtain ⟨buf', hb'⟩ := buffer?_later hv.later hb
  rw [hb']
  cases c with
  | int => exact hready fun _ => .int
  | long => exact hready fun _ => .long
  | object =>
    dsimp only [writes]
    cases hprimitive : x.primitiveText with
    | some text => exact hready fun _ => .plain hprimitive
    | none =>
      obtain ⟨o, ho⟩ := ref_of_primitiveText hprimitive
      rw [ho]
      refine Prog.Ensures.later interference_proceeds (fun _ => hv) ?_
      refine Op.ensures_renderObject hs (buffer?_home hs hb) (hx o ho) ⟨?_, ?_, ?_⟩
      · intro s t es u hu ht hes hrendered
        refine .observe fun _ u' hu' => ?_
        replace hu' := hu' hu.sound
        rw [text?_later hu'.later ht]
        refine .exit fun u'' hu'' => .ready ?_ hes
        have hle := hu'.later.trans (hu'' hu'.sound).later
        exact .object ⟨hprimitive, ho⟩ (text?_later hle ht) (hrendered.later hle)
      · intro e es u hu hes hrendered hpasses
        refine .exit fun u' hu' => .refused (.object ⟨hprimitive, ho⟩ ?_) hes hpasses
        exact hrendered.later (hu' hu.sound).later
      · intro p es u _ hes hrendered hpasses
        exact .panicked (.object ⟨hprimitive, ho⟩ hrendered) hes hpasses

end

end AppendCall

/-! ## An append and a look -/

namespace Machine

variable {m n q : Machine} {τs : List Turn} {i : Nat} {fs : List Frame} {b : ObjId} {home : RuntimeId}
  {cs : List Rune} {out : Outcome} {τ : Turn} {buf : Buffer}

/-- In a run a task appends characters to a buffer in one turn of its own, and looks at the buffer in a later
one. It finds the buffer as `before` and then as `seen`, with the turns `between` the two. -/
structure AppendsThenLooks (b : ObjId) (home : RuntimeId) (i : Nat) (cs : List Rune) (m : Machine)
    (τs : List Turn) (n : Machine) (before seen : Buffer) (between : List (List Rune)) : Prop where
  turns : ∃ τs₁ τ τs₂ τ' τs₃ q q' p p', τs = τs₁ ++ τ :: (τs₂ ++ τ' :: τs₃) ∧
    Trace (fun _ _ => True) m τs₁ q ∧ q.take τ = some q' ∧ Trace (fun _ _ => True) q' τs₂ p ∧
    p.take τ' = some p' ∧ Trace (fun _ _ => True) p' τs₃ n ∧ (τ.task = i ∧ τ'.task = i) ∧
    q.pieces b τ = [cs] ∧ q'.record (pieces b) τs₂ = between ∧
    q.world.buffer? b = some (some home, before) ∧
    q'.world.buffer? b = some (some home, before.append (m.world.config home).growthLimit cs) ∧
    p.world.buffer? b = some (some home, seen)
  seen : seen = between.foldl (Buffer.append (m.world.config home).growthLimit)
    (before.append (m.world.config home).growthLimit cs)

theorem pieces_at {instr : Instr} {k} (h : m.At τ.task (.perform instr k) fs) (b : ObjId) :
    m.pieces b τ = instr.pieces b := by
  obtain ⟨⟨id, prog, frames⟩, ht, rfl, rfl⟩ := h
  unfold pieces performed
  rw [ht]

/-- **A task that is about to append and to answer appends, looks, and answers what it sees.** -/
theorem appendsThenLooks_of_trace (hm : m.Reachable) (hb : m.world.buffer? b = some (some home, buf)) {k}
    (hk : ∀ r, ∃ out, k r = .finish out) (hat : m.At i (Op.append b cs (Op.answering b k)) fs)
    (hrun : Trace (Unreturned i fs) m τs n) (hreturn : n.At i (.finish out) fs) :
    ∃ before seen between, AppendsThenLooks b home i cs m τs n before seen between ∧
      k (seen.answer b) = .finish out ∧ (m.record (events i fs.length) τs).flatMap (Event.pieces b) = [cs] := by
  -- The characters are appended.
  obtain ⟨τs₁, τ, τs₂, q, q', rfl, hothers, hq, rfl, -, hτ, hrest⟩ :=
    hrun.own_turn hat fun hn => by cases (at_unique hn hreturn).1
  have hreach : q.Reachable := hm.run hothers.run
  obtain ⟨before, hbefore⟩ := buffer?_later (hm.le hothers.run) hb
  have hconfig : q.world.config home = m.world.config home :=
    config_later (hm.le hothers.run) (buffer?_home hm.sound hb)
  have hpieces : q.pieces b τ = [cs] := (pieces_at hq b).trans (if_pos rfl)
  have hafter : q'.world.buffer? b =
      some (some home, before.append (m.world.config home).growthLimit cs) := by
    have hone := buffer_trace hreach hbefore (.cons trivial hτ (.refl q') : Trace (fun _ _ => True) q [τ] q')
    rw [record_cons _ hτ, hpieces, hconfig] at hone
    exact hone
  have hlooks : q'.At τ.task (Op.appended b k) fs := by
    rcases goes_of_take hτ hq with ⟨id, p, gs, hgo, hat'⟩ | ⟨o, k', hspawn, -⟩
    · obtain ⟨-, rfl, rfl⟩ := hgo.performed
      rw [show (Instr.append b cs).exec id q.world = q.world.attempt (q.world.append b cs) from rfl,
        append_eq hbefore cs] at hat'
      exact hat'
    · cases hspawn
  -- The task looks.
  rw [Op.appended_eq] at hlooks
  obtain ⟨τs₃, τ', τs₄, p, p', rfl, hothers', hp, htask, -, hτ', hlast⟩ :=
    hrest.own_turn hlooks fun hn => by cases (at_unique hn hreturn).1
  have hreach' : q'.Reachable := hreach.take hτ
  have hseen := buffer_trace hreach' hafter hothers'
  have hconfig' : q'.world.config home = m.world.config home :=
    (config_later (hreach.le_take hτ) (buffer?_home hreach.sound hbefore)).trans hconfig
  rw [hconfig'] at hseen
  generalize hfound : (q'.record (pieces b) τs₃).foldl (Buffer.append (m.world.config home).growthLimit)
    (before.append (m.world.config home).growthLimit cs) = seen at hseen
  have hanswer : p'.At τ.task (k (seen.answer b)) fs := by
    rw [← htask] at hp ⊢
    rcases goes_of_take hτ' hp with ⟨id, r, gs, hgo, hat'⟩ | ⟨o, k', hspawn, -⟩
    · obtain ⟨-, rfl, rfl⟩ := hgo.observed
      rwa [hseen] at hat'
    · cases hspawn
  obtain ⟨out', hout'⟩ := hk (seen.answer b)
  rw [hout'] at hanswer
  have hidle := hlast.idle hanswer
  cases (at_unique (hanswer.of_trace_ne hidle) hreturn).1
  refine ⟨before, seen, q'.record (pieces b) τs₃, ⟨?_, hfound.symm⟩, hout', ?_⟩
  · exact ⟨τs₁, τ, τs₃, τ', τs₄, q, q', p, p', rfl, hothers.imp fun _ => trivial, hτ,
      hothers'.imp fun _ => trivial, hτ', hlast.imp fun _ => trivial, ⟨rfl, htask⟩, hpieces, rfl, hbefore,
      hafter, hseen⟩
  · -- Nothing else happens at the level of the task.
    have hnone : m.record (events τ.task fs.length) τs₁ = [] :=
      hothers.record_eq_nil fun h => events_of_ne h.2 ..
    have hnone' : q'.record (events τ.task fs.length) τs₃ = [] :=
      hothers'.record_eq_nil fun h => events_of_ne h.2 ..
    have hlook : p.events τ.task fs.length τ' = [] := by
      rw [← htask] at hp ⊢
      rw [events_at hp]
      rfl
    have hown : q.events τ.task fs.length τ = [.performed (.append b cs)] := by
      rw [events_at hq]
      exact if_pos rfl
    rw [hothers.record_append, hnone, record_cons _ hτ, hown, hothers'.record_append, hnone',
      record_cons _ hτ', hlook, hidle.record_eq_nil fun hi => events_of_ne hi ..]
    simp [Event.pieces, Instr.pieces]

theorem AppendsThenLooks.prepend {τs₁ before seen between}
    (h : AppendsThenLooks b home i cs q τs n before seen between) (hfirst : Trace (fun _ _ => True) m τs₁ q)
    (hconfig : q.world.config home = m.world.config home) :
    AppendsThenLooks b home i cs m (τs₁ ++ τs) n before seen between := by
  obtain ⟨⟨τs₂, τ, τs₃, τ', τs₄, p, p', r, r', rfl, hothers, hrest⟩, hseen⟩ := h
  rw [hconfig] at hrest hseen
  exact ⟨⟨τs₁ ++ τs₂, τ, τs₃, τ', τs₄, p, p', r, r', (List.append_assoc ..).symm, hfirst.append hothers, hrest⟩,
    hseen⟩

/-- **A method that comes to its end** has failed to render what it was given, or it has appended and looked. -/
theorem append_method_cases (hm : m.Reachable) {w : World} (hw : w.Sound) (hle : w ≤ m.world)
    (hb : w.buffer? b = some (some home, buf)) (c : AppendCall) {x : Value} (hx : x.Present w)
    (hbody : m.At i (Activation.code (Builtin.method home c.selector 1 c.code).2.code (some b) [x]).program fs)
    (hrun : Trace (Unreturned i fs) m τs n) (hreturn : n.At i (.finish out) fs) :
    let es := m.record (events i fs.length) τs
    (c.Unspelt w n.world es x ∧ es.flatMap (Event.pieces b) = [] ∧ (∀ v, out ≠ .value v) ∧ PassesOn es out) ∨
      ∃ cs before seen between, c.Spelt w n.world es x cs ∧ es.flatMap (Event.pieces b) = [cs] ∧
        AppendsThenLooks b home i cs m τs n before seen between ∧ out = .ofResult (seen.answer b) := by
  have hprog : (Activation.code (Builtin.method home c.selector 1 c.code).2.code (some b) [x]).program =
      Builtin.run home (some b) [x] c.code fun r => .finish (.ofResult r) := Op.toProg_ofResult _
  rw [hprog] at hbody
  have hensures := (AppendCall.ensures_run (c := c) hw hb hx fun r => .finish (.ofResult r)).later
    interference_proceeds fun _ => ⟨hle, hm.sound⟩
  -- It comes to where it touches the buffer, or ends.
  obtain ⟨τs₁, τs₂, q, rfl, hprepares, hrest, prog, hat, hpoint⟩ := ensures_trace interference_proceeds
    (fun hm hu hτ => ⟨hu, fun _ => hm.proceeds hτ⟩) hm hbody hensures hrun hreturn
  have hq : q.Reachable := hm.run hprepares.run
  have hlast : q.world ≤ n.world := hq.le hrest.run
  have hmq : m.world ≤ q.world := hm.le hprepares.run
  intro es
  have hes : es = m.record (events i fs.length) τs₁ ++ q.record (events i fs.length) τs₂ :=
    hprepares.record_append ..
  have hended (out' : Outcome) (hat : q.At i (.finish out') fs) :
      out = out' ∧ es = m.record (events i fs.length) τs₁ := by
    have hidle := hrest.idle hat
    cases (at_unique (hat.of_trace_ne hidle) hreturn).1
    rw [hes, hidle.record_eq_nil fun hi => events_of_ne hi .., List.append_nil]
    exact ⟨rfl, rfl⟩
  cases hpoint with
  | refused unspelt silent passes =>
    obtain ⟨rfl, hsame⟩ := hended _ hat
    obtain ⟨given, rendered⟩ := unspelt
    rw [hsame]
    exact .inl ⟨.object given (rendered.later hlast), silent b, nofun, passes⟩
  | panicked unspelt silent passes =>
    obtain ⟨rfl, hsame⟩ := hended _ hat
    obtain ⟨given, rendered⟩ := unspelt
    rw [hsame]
    exact .inl ⟨.object given (rendered.later hlast), silent b, nofun, passes⟩
  | @ready cs spelt silent =>
    obtain ⟨buf', hb'⟩ := buffer?_later (hle.trans hmq) hb
    obtain ⟨before, seen, between, hruns, hout, hown⟩ :=
      appendsThenLooks_of_trace hq hb' (fun r => ⟨_, rfl⟩) hat hrest hreturn
    cases hout
    refine .inr ⟨cs, before, seen, between, ?_, ?_, ?_, rfl⟩
    · rw [hes]
      exact spelt.extend _ hlast
    · rw [hes, List.flatMap_append, silent b, List.nil_append]
      exact hown
    · exact hruns.prepend (hprepares.imp fun _ => trivial)
        (config_later hmq ((buffer?_home hw hb).later hle))

end Machine

end ObjectKernel
