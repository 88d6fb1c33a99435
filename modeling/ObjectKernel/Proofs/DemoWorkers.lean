import ObjectKernel.Proofs.DemoShares

/-!
# The threads of the demonstration

A worker writes a line in each round, and adds it to the text when it is complete. Whatever the others do in the
meantime, the line is the piece of that worker and that round; if it is too long then the worker fails, and there
is no room for everything. The greeter says hello, and has nothing to do with the text.

## Contents

* `Demo.Plan.runs_writeText`, `runs_writeSelf`, `runs_writeChar`, `runs_writeInt`: the steps that write a line.
* `Demo.Plan.runs_round`: a round. `Demo.Plan.runs_workerBody`: all rounds.
* `Demo.Plan.runs_greeterBody`: the greeter.
* `Demo.Plan.runs_run`, `runs_execute`: the task of a thread. `Demo.Plan.parental`: it keeps to the agreement.
-/

namespace ObjectKernel.Demo.Plan

open World Protocol Dictionary Utf8

variable {d : Plan} {E : Part → Outcome → Prop} {S : Part → World → ObjId → Prop} {id : TaskId} {w v : World}
  {a : Part} {q r k : Nat} {s : Share} {X : Stop → Part → World → Prop} {n : ScopeId} {e : Dictionary Name Value}
  {x y : Name} {σ : Nat → Share} {o t : ObjId} {Q : StepResult → Part → World → Prop} {α : Type}
  {xs : List (List Rune)} {m : Lead} {cs : CharSeq} {rest : List Step}

/-! ## Operands -/

/-- Where a step of a body of a thread stands. -/
def site (d : Plan) (n : ScopeId) : Context := { home := some d.home, scope := some n }

/-- The value of a variable of a thread. -/
theorem Holds.lookup (h : d.Holds q s v) (hscope : s.scope = some (n, e)) {y} (hx : e.get? x = some y) :
    v.scene.lookup (some n) x = y := by
  have hlocals : v.scene.locals (some n) = e := congrArg (Option.getD · []) (h.scope hscope)
  unfold Scene.lookup
  rw [hlocals, hx]

/-- The shared buffer, from within a thread. -/
theorem Concord.lookup_shared {h} (hc : d.Concord m σ h v) (hq : q < m.begun) (hscope : (σ q).scope = some (n, e))
    (hx : e.get? shared = none) : v.scene.lookup (some n) shared = .ofObject 0 := by
  have hlocals : v.scene.locals (some n) = e := congrArg (Option.getD · []) ((hc.holds q hq).scope hscope)
  unfold Scene.lookup
  rw [hlocals, hx]
  dsimp only
  rw [hc.leads.globals, hc.leads.shared]
  rfl

theorem runs_answerObject (hQ : ∀ r v, w.Next v → Q (r, some (.ofObject o)) a v) :
    (d.pact E).Runs S id a w (Op.answerObject o) Q X :=
  .bind (.observe fun v hv _ => .pure (hQ _ v hv))

theorem runs_bufferReply (hQ : ∀ r v, w.Next v → Q r a v) : (d.pact E).Runs S id a w (bufferReply o) Q X := by
  refine .bind (.observe fun v hv _ => ?_)
  cases v.buffer? o with
  | some b => exact .pure (hQ _ v hv)
  | none => exact .pure (hQ _ v hv)

/-- A step of a thread finds what a variable holds. -/
theorem runs_operand (hscope : s.scope = some (n, e)) (hx : e.get? x = some (.ofObject o)) {f}
    {Q : α → Part → World → Prop} (h : ∀ v, w.Next v → (d.pact E).Runs S id (.share q s) v (f (some o)) Q X) :
    (d.pact E).Runs S id (.share q s) w (Op.observe (·.objectOperand (d.site n) (some x)) >>= f) Q X := by
  refine .bind (.observe fun v hv hk => ?_)
  have hoperand : v.objectOperand (d.site n) (some x) = some o :=
    congrArg Value.asObject ((knows_holds hk).1.lookup hscope hx)
  rw [hoperand]
  exact h v hv

/-- A step that writes on in the line of a thread finds it. -/
theorem runs_line (hline : s.line = some (o, xs)) (hscope : s.scope = some (n, e))
    (hx : e.get? x = some (.ofObject o)) {f} {Q : α → Part → World → Prop}
    (h : ∀ v, w.Next v → (d.pact E).Runs S id (.share q s) v (f o) Q X) : (d.pact E).Runs S id (.share q s) w
      (Op.observe (·.objectOperand (d.site n) (some x)) >>= fun y => Op.needBuffer y >>= f) Q X := by
  refine runs_operand hscope hx fun v hv => .bind (.needBuffer fun u hu hk => ?_)
  obtain ⟨b, hb, -⟩ := (knows_holds hk).1.line hline
  exact ⟨⟨_, hb⟩, h u (hv.trans hu)⟩

/-- A step with the shared buffer finds it. -/
theorem runs_shared (hscope : s.scope = some (n, e)) (hshared : e.get? shared = none) {f}
    {Q : α → Part → World → Prop} (h : ∀ v, w.Next v → (d.pact E).Runs S id (.share q s) v (f 0) Q X) :
    (d.pact E).Runs S id (.share q s) w
      (Op.observe (·.objectOperand (d.site n) (some shared)) >>= fun y => Op.needBuffer y >>= f) Q X := by
  refine .bind (.observe fun v hv hk => ?_)
  obtain ⟨m, σ, hist, hc, hq, rfl⟩ := knows_share hk
  have hoperand : v.objectOperand (d.site n) (some shared) = some 0 :=
    congrArg Value.asObject (hc.lookup_shared hq hscope hshared)
  rw [hoperand]
  refine .bind (.needBuffer fun u hu hk => ?_)
  obtain ⟨m, σ', hist, hc, -⟩ := knows_share hk
  obtain ⟨b, hb, -⟩ := hc.text
  exact ⟨⟨_, hb⟩, h u (hv.trans hu)⟩

/-! ## Writing a line -/

/-- A string is written. -/
theorem runs_writeText (hline : s.line = some (o, xs)) (hscope : s.scope = some (n, e))
    (hx : e.get? x = some (.ofObject o)) (hy : e.get? y = some (.ofObject t)) {r} (ht : w.text? t = some (r, cs))
    (hQ : ∀ r v, w.Next v → Q r (.share q { s with line := some (o, xs ++ [cs.chars]) }) v) :
    (d.pact E).Runs S id (.share q s) w
      (Action.toOp (d.site n) (.buffer none (.appendText (some x) (some y)))) Q X := by
  refine .bind (.observe fun v hv _ => ?_)
  refine runs_line hline hscope hx fun v' hv' => runs_operand hscope hy fun u hu => ?_
  have hwu := (hv.trans hv').trans hu
  refine .bind (.bind (.pure (.bind (.needText fun u' hu' _ => ⟨_, text?_later (hwu.trans hu').later ht, ?_⟩))))
  refine runs_appendLine hline fun u'' hu'' => ?_
  exact runs_bufferReply fun r z hz => hQ r z (((hwu.trans hu').trans hu'').trans hz)

/-- A character is written. -/
theorem runs_writeChar (hline : s.line = some (o, xs)) (hscope : s.scope = some (n, e))
    (hx : e.get? x = some (.ofObject o)) {c}
    (hQ : ∀ r v, w.Next v → Q r (.share q { s with line := some (o, xs ++ [[c]]) }) v) :
    (d.pact E).Runs S id (.share q s) w (Action.toOp (d.site n) (.buffer none (.appendChar (some x) c))) Q X := by
  refine .bind (.observe fun v hv _ => ?_)
  refine runs_line hline hscope hx fun v' hv' => .bind (runs_appendLine hline fun u hu => ?_)
  exact runs_bufferReply fun r z hz => hQ r z (((hv.trans hv').trans hu).trans hz)

/-- A number is written. -/
theorem runs_writeInt (hline : s.line = some (o, xs)) (hscope : s.scope = some (n, e))
    (hx : e.get? x = some (.ofObject o)) (hy : e.get? y = some (.ofInt32 (Int32.ofNat k))) (hQ : ∀ r v, w.Next v →
      Q r (.share q { s with line := some (o, xs ++ [decode (Bytes.ofInt (Int32.ofNat k).toInt)]) }) v) :
    (d.pact E).Runs S id (.share q s) w
      (Action.toOp (d.site n) (.buffer none (.appendInt (some x) (.ref (some y))))) Q X := by
  refine .bind (.observe fun v hv _ => ?_)
  refine runs_line hline hscope hx fun v' hv' => .bind (.observe fun u hu hknows => ?_)
  have hoperand : u.operand (d.site n) (.ref (some y)) = .ofInt32 (Int32.ofNat k) :=
    (knows_holds hknows).1.lookup hscope hy
  have hback : (Value.ofInt32 (Int32.ofNat k)).asInt32 = Int32.ofNat k := Int32.toInt32_toInt64 _
  rw [hoperand, hback]
  refine .bind (runs_appendLine hline fun u' hu' => ?_)
  exact runs_bufferReply fun r z hz => hQ r z ((((hv.trans hv').trans hu).trans hu').trans hz)

theorem find?_toText (d : Plan) : d.cls.find? Selector.toText =
    some (Builtin.threadClass d.home, (Builtin.method d.home .toText 0 .threadToText).2) := rfl

/-- How a worker is shown. -/
def title (q : Nat) : Bytes := "Thread[" ++ ("worker-" ++ Bytes.ofNat q) ++ "]"

/-- A worker is rendered, unless that is too long. -/
theorem runs_renderSelf (hworker : q < d.workers) {Q : ObjId → Part → World → Prop}
    (hQ : ∀ t v, w.Next v → v.text? t = some (d.home, .ofBytes (title q)) → Q t (.share q s) v)
    (hlong : ∀ f v, w.Next v → d.config.exceeded? (decode (title q)).length ≠ none →
      X (.error f) (.share q s) v) :
    (d.pact E).Runs S id (.share q s) w (Op.renderObject (some d.home) (some (d.self q))) Q X := by
  refine .bind (.observe fun v hv hk => ?_)
  obtain ⟨-, -, hset, -⟩ := knows_holds hk
  have hnot : (v.text? (d.self q)).isSome = false := by
    obtain ⟨⟨cls, hash, payload⟩, hobj, rfl⟩ := hset.wrapper q hworker
    unfold text?
    rw [hobj]
    rfl
  rw [hnot, if_neg nofun]
  refine .bind (.dispatch (fun u _ hk => (knows_holds hk).2.2.1.worker q hworker) d.find?_toText rfl
    fun v₁ hv₁ _ => ?_)
  refine .call rfl (.bind (.needThread fun v₂ hv₂ hk => ?_))
  obtain ⟨hholds, -, hset, -⟩ := knows_holds hk
  have hheader := hset.header_self hholds.thread
  rw [hheader]
  refine ⟨_, hholds.thread, .bind (.bind (.observe fun v₃ hv₃ hk => ?_))⟩
  obtain ⟨hholds, hproper, -⟩ := knows_holds hk
  have hchain := ((hv.trans hv₁).trans hv₂).trans hv₃
  have hrecord : ((v₃.thread? (d.thr q)).getD {}) = s.thread := by
    rw [hholds.thread]
    rfl
  rw [hrecord, hproper.cast.home, hproper.cast.name hworker]
  refine runs_makeText (a := .share q s) nofun (fun t v₄ hv₄ ht => ?_) fun f v₄ hv₄ hexceeds => ?_
  · refine .pure (.bind (.observe fun v₅ hv₅ _ => ?_))
    have hasText : ((Value.ofObject t).asObject.filter fun s => (v₅.text? s).isSome) = some t := by
      have hsome : (v₅.text? t).isSome := by
        rw [text?_later hv₅.later ht]
        rfl
      show (some t).filter _ = some t
      rw [Option.filter_some, if_pos hsome]
    rw [hasText]
    exact .pure (hQ t v₅ ((hchain.trans hv₄).trans hv₅) (text?_later hv₅.later ht))
  · exact hlong _ v₄ (hchain.trans hv₄) hexceeds

/-- A worker writes itself. -/
theorem runs_writeSelf (hworker : q < d.workers) (hline : s.line = some (o, xs)) (hscope : s.scope = some (n, e))
    (hx : e.get? x = some (.ofObject o)) (hy : e.get? y = some (.ofObject (d.self q)))
    (hQ : ∀ r v, w.Next v → Q r (.share q { s with line := some (o, xs ++ [decode (title q)]) }) v)
    (hlong : ∀ f v, w.Next v → d.config.exceeded? (decode (title q)).length ≠ none → X (.error f) (.share q s) v) :
    (d.pact E).Runs S id (.share q s) w
      (Action.toOp (d.site n) (.buffer none (.appendObject (some x) (some y)))) Q X := by
  refine .bind (.observe fun v hv _ => ?_)
  refine runs_line hline hscope hx fun v' hv' => runs_operand hscope hy fun u hu => ?_
  refine .bind (.bind (.observe fun u' hu' hk => ?_))
  obtain ⟨b, hb, -⟩ := (knows_holds hk).1.line hline
  rw [hb]
  have hchain := ((hv.trans hv').trans hu).trans hu'
  refine .bind (runs_renderSelf hworker (fun t z hz ht => ?_) fun f z hz => hlong f z (hchain.trans hz))
  refine .bind (.pure (.bind (.needText fun z' hz' _ => ⟨_, text?_later hz'.later ht, ?_⟩)))
  refine runs_appendLine hline fun z'' hz'' => ?_
  exact runs_bufferReply fun r y hy => hQ r y ((((hchain.trans hz).trans hz').trans hz'').trans hy)

/-! ## A round -/

/-- A thread begins a line and keeps it in a variable. -/
theorem runs_keepBuffer (hscope : s.scope = some (n, e)) (hx : isGlobalName x = false)
    {Q : Flow → Part → World → Prop} (h : ∀ o v, w.Next v → (d.pact E).Runs S id
      (.share q { s with line := some (o, []), scope := some (n, e.insert x (.ofObject o)) }) v
      (stepsToOp (d.site n) rest) Q X) :
    (d.pact E).Runs S id (.share q s) w (stepsToOp (d.site n) (keep x (.buffer none .create) :: rest)) Q X := by
  refine .keep (.bind (.observe fun v hv _ => .bind (runs_newBuffer fun o v₁ hv₁ => ?_)))
  refine runs_answerObject fun _ v₂ hv₂ => ⟨_, rfl, ?_⟩
  refine runs_assign (s := { s with line := some (o, []) }) hscope hx fun v₃ hv₃ => ?_
  exact h o v₃ (((hv.trans hv₁).trans hv₂).trans hv₃)

/-- A thread keeps the string of a short literal in a variable. -/
theorem runs_keepConstant (hscope : s.scope = some (n, e)) (hx : isGlobalName x = false) {literal}
    (hfits : d.config.exceeded? (decode literal).length = none) {Q : Flow → Part → World → Prop}
    (h : ∀ o v, w.Next v → v.text? o = some (d.home, .ofBytes literal) → (d.pact E).Runs S id
      (.share q { s with scope := some (n, e.insert x (.ofObject o)) }) v (stepsToOp (d.site n) rest) Q X) :
    (d.pact E).Runs S id (.share q s) w
      (stepsToOp (d.site n) (keep x (.text none (.constant literal)) :: rest)) Q X := by
  refine .keep (.bind (.observe fun v hv _ => .bind ?_))
  refine runs_constant (a := .share q s) nofun hfits fun o v₁ hv₁ htext => ?_
  refine runs_answerObject fun _ v₂ hv₂ => ⟨_, rfl, runs_assign hscope hx fun v₃ hv₃ => ?_⟩
  exact h o v₃ (((hv.trans hv₁).trans hv₂).trans hv₃) (text?_later (hv₂.trans hv₃).later htext)

/-- A thread keeps the text of its line in a variable, unless it is too long. -/
theorem runs_keepLineText (hline : s.line = some (o, xs)) (hscope : s.scope = some (n, e))
    (hx : isGlobalName x = false) (hy : e.get? y = some (.ofObject o)) {Q : Flow → Part → World → Prop}
    (h : ∀ t v, w.Next v → v.text? t = some (d.home, .ofRunes xs.flatten) → (d.pact E).Runs S id
      (.share q { s with scope := some (n, e.insert x (.ofObject t)) }) v (stepsToOp (d.site n) rest) Q X)
    (hlong : ∀ f v, w.Next v →
      ¬ (xs.flatten.length ≤ Buffer.bound d.config ∧ d.config.exceeded? xs.flatten.length = none) →
      X (.error f) (.share q s) v) : (d.pact E).Runs S id (.share q s) w
      (stepsToOp (d.site n) (keep x (.buffer none (.toText (some y))) :: rest)) Q X := by
  refine .keep (.bind (.observe fun v hv _ => ?_))
  refine runs_line hline hscope hy fun v₁ hv₁ => .bind ?_
  have hchain := hv.trans hv₁
  refine runs_lineText hline (fun t v₂ hv₂ htext => ?_) fun f v₂ hv₂ => hlong f v₂ (hchain.trans hv₂)
  refine runs_answerObject fun _ v₃ hv₃ => ⟨_, rfl, runs_assign hscope hx fun v₄ hv₄ => ?_⟩
  exact h t v₄ (((hchain.trans hv₂).trans hv₃).trans hv₄) (text?_later (hv₃.trans hv₄).later htext)

/-- A worker adds its next piece to the text. -/
theorem runs_addPiece (hworker : q < d.workers) (hcount : s.count < d.rounds) (hended : s.thread.ended = false)
    (hscope : s.scope = some (n, e)) (hshared : e.get? shared = none) (hy : e.get? y = some (.ofObject t)) {r}
    (ht : w.text? t = some (r, cs)) (hpiece : cs.chars = decode (entry q s.count))
    (hQ : ∀ r v, w.Next v → Q r (.share q { s with count := s.count + 1 }) v) : (d.pact E).Runs S id (.share q s) w
      (Action.toOp (d.site n) (.buffer none (.appendText (some shared) (some y)))) Q X := by
  refine .bind (.observe fun v hv _ => ?_)
  refine runs_shared hscope hshared fun v₁ hv₁ => runs_operand hscope hy fun v₂ hv₂ => ?_
  have hchain := (hv.trans hv₁).trans hv₂
  refine .bind (.bind (.pure (.bind (.needText fun v₃ hv₃ _ => ⟨_, text?_later (hchain.trans hv₃).later ht, ?_⟩))))
  dsimp only
  rw [hpiece]
  refine runs_contribute hworker hcount hended fun v₄ hv₄ => ?_
  exact runs_bufferReply fun r z hz => hQ r z (((hchain.trans hv₃).trans hv₄).trans hz)

/-- What a worker writes in a round is its piece. -/
theorem decode_entry (q r : Nat) : decode (entry q r) =
    [decode "[", decode (title q), [32], decode (Bytes.ofInt (Int32.ofNat r).toInt),
      decode "]"].flatten := by
  have hentry : entry q r = "[" ++ (title q ++ (" " ++ (Bytes.ofInt (Int32.ofNat r).toInt ++ "]"))) := by
    have hopening : ("[Thread[worker-" : Bytes) = "[" ++ ("Thread[" ++ "worker-") := by decide
    have hclosing : ("] " : Bytes) = "]" ++ " " := by decide
    unfold entry title
    rw [hopening, hclosing]
    simp only [List.append_assoc]
  have htitle : (title q).IsAscii :=
    ((by decide : Bytes.IsAscii _).append ((by decide : Bytes.IsAscii _).append (Bytes.isAscii_ofNat q))).append
      (by decide)
  rw [hentry, decode_append (by decide), decode_append htitle, decode_append (by decide),
    decode_append (Bytes.isAscii_ofInt _)]
  simp only [List.flatten_cons, List.flatten_nil, List.append_nil]
  rfl

theorem exceeded?_one (c : Config) : c.exceeded? 1 = none := by
  unfold Config.exceeded?
  exact if_neg (by omega)

/-- The variables of a worker in a round. -/
structure Vars (d : Plan) (q r : Nat) (e : Dictionary Name Value) : Prop where
  self : e.get? "self" = some (.ofObject (d.self q))
  round : e.get? "round" = some (.ofInt32 (Int32.ofNat r))
  shared : e.get? shared = none

theorem Vars.insert (h : d.Vars q r e) (hself : "self" ≠ x) (hround : "round" ≠ x) (hshared : Demo.shared ≠ x)
    (y : Value) : d.Vars q r (e.insert x y) where
  self := (get?_insert_of_ne e y hself).trans h.self
  round := (get?_insert_of_ne e y hround).trans h.round
  shared := (get?_insert_of_ne e y hshared).trans h.shared

/-- If there is room for everything then there is room for a piece. -/
theorem fits_entry (hroom : d.Roomy) (hworker : q < d.workers) (hr : r < d.rounds)
    (hk : k ≤ (decode (entry q r)).length) : k ≤ Buffer.bound d.config ∧ d.config.exceeded? k = none := by
  rw [length_decode (isAscii_entry q r)] at hk
  have hle := hk.trans (length_entry_le hworker hr)
  exact ⟨hle.trans hroom.fits, Config.exceeded?_mono hle hroom.allowed⟩

/-- **A round.** The worker adds its piece to the text, or fails because there is no room for everything. -/
theorem runs_round (hworker : q < d.workers) (hr : r < d.rounds) (hscope : s.scope = some (n, e))
    (hvars : d.Vars q r e) (hcount : s.count = r) (hended : s.thread.ended = false) {Q : Flow → Part → World → Prop}
    (hQ : ∀ e' line v, w.Next v → d.Vars q r e' →
      Q .proceed (.share q { s with scope := some (n, e'), line, count := r + 1 }) v)
    (hX : ∀ f t v, w.Next v → t.thread = s.thread → ¬ d.Roomy → X (.error f) (.share q t) v) :
    (d.pact E).Runs S id (.share q s) w (stepsToOp (d.site n) roundBody) Q X := by
  subst hcount
  have hget (e : Dictionary Name Value) {x y : Name} (z : Value) (hxy : y ≠ x) :
      (e.insert x z).get? y = e.get? y := get?_insert_of_ne e z hxy
  have hshort : d.config.exceeded? (decode "[").length = none := exceeded?_one _
  have hshort' : d.config.exceeded? (decode "]").length = none := exceeded?_one _
  unfold roundBody
  -- The line is begun, and written piece by piece.
  refine runs_keepBuffer hscope rfl fun o v₁ hv₁ => ?_
  refine runs_keepConstant rfl rfl hshort fun t v₂ hv₂ ht => ?_
  have hvars₁ := hvars.insert (x := "line") (by decide) (by decide) (by decide) (.ofObject o)
  have hvars₂ := hvars₁.insert (x := "opening") (by decide) (by decide) (by decide) (.ofObject t)
  have hline₂ : ((e.insert "line" (.ofObject o)).insert "opening" (.ofObject t)).get? "line" = some (.ofObject o) :=
    (hget _ _ (by decide)).trans (get?_insert_self ..)
  refine .act (runs_writeText rfl rfl hline₂ (get?_insert_self ..) ht fun _ v₃ hv₃ => ?_)
  refine .act (runs_writeSelf hworker rfl rfl hline₂ hvars₂.self (fun _ v₄ hv₄ => ?_) fun f v₄ hv₄ hexceeds => ?_)
  · refine .act (runs_writeChar rfl rfl hline₂ fun _ v₅ hv₅ => ?_)
    refine .act (runs_writeInt rfl rfl hline₂ hvars₂.round fun _ v₆ hv₆ => ?_)
    refine runs_keepConstant rfl rfl hshort' fun t' v₇ hv₇ ht' => ?_
    have hvars₇ := hvars₂.insert (x := "closing") (by decide) (by decide) (by decide) (.ofObject t')
    have hline₇ := (hget _ (y := "line") (x := "closing") (.ofObject t') (by decide)).trans hline₂
    refine .act (runs_writeText rfl rfl hline₇ (get?_insert_self ..) ht' fun _ v₈ hv₈ => ?_)
    have hchain := ((((((hv₁.trans hv₂).trans hv₃).trans hv₄).trans hv₅).trans hv₆).trans hv₇).trans hv₈
    -- Now it is complete, and is added to the text.
    refine runs_keepLineText rfl rfl rfl hline₇ (fun t'' v₉ hv₉ ht'' => ?_) fun f v₉ hv₉ hexceeds => ?_
    · have hvars₉ := hvars₇.insert (x := "piece") (by decide) (by decide) (by decide) (.ofObject t'')
      refine .act (runs_addPiece hworker ?_ ?_ rfl hvars₉.shared (get?_insert_self ..) ht'' ?_
        fun _ v₁₀ hv₁₀ => ?_)
      · exact hr
      · exact hended
      · exact (decode_entry q s.count).symm
      · refine .act (.pure (.steps_nil ?_))
        exact hQ _ _ v₁₀ ((hchain.trans hv₉).trans hv₁₀) hvars₉
    · refine hX f _ v₉ (hchain.trans hv₉) rfl fun hroom => hexceeds ?_
      exact fits_entry hroom hworker hr (congrArg List.length (decode_entry q s.count)).ge
  · refine hX f _ v₄ (((hv₁.trans hv₂).trans hv₃).trans hv₄) rfl fun hroom => hexceeds ?_
    refine (fits_entry hroom hworker hr ?_).2
    rw [decode_entry]
    simp only [List.flatten_cons, List.length_append]
    omega

/-! ## A worker -/

/-- If there is room for everything then there is room for what the workers have added. -/
theorem Concord.length_le {h} (hc : d.Concord m σ h v) : (entries h).flatten.length ≤ volume d.workers d.rounds := by
  refine hc.shuffle.length_le (fun i => ?_) fun i hi => ?_
  · unfold counts
    split
    · exact (hc.proper i ‹_›).count_le
    · exact Nat.zero_le _
  · unfold counts
    split
    · exact (hc.proper i ‹_›).idle hi
    · rfl

/-- A worker looks whether the text has failed, which it has not if there is room for everything. -/
theorem runs_checkShared (hscope : s.scope = some (n, e)) (hshared : e.get? shared = none)
    (hQ : ∀ r v, w.Next v → Q r (.share q s) v) (hX : ∀ f v, w.Next v → ¬ d.Roomy → X (.error f) (.share q s) v) :
    (d.pact E).Runs S id (.share q s) w (Action.toOp (d.site n) (.buffer none (.check (some shared)))) Q X := by
  refine .bind (.observe fun v hv _ => ?_)
  refine runs_shared hscope hshared fun v₁ hv₁ => .bind (.bind (.observe fun v₂ hv₂ hk => ?_))
  have hchain := (hv.trans hv₁).trans hv₂
  obtain ⟨m, σ, h, hc, -⟩ := knows_share hk
  obtain ⟨b, hb, hfed⟩ := hc.text
  rw [hb]
  dsimp only [Option.bind]
  cases hfailure : b.failure with
  | none => exact .pure (.pure (hQ _ v₂ hchain))
  | some f =>
    refine .throw (hX f v₂ hchain fun hroom => ?_)
    have hnone := hfed.failure_eq_none_iff.mpr (hc.length_le.trans hroom.fits)
    rw [hfailure] at hnone
    cases hnone

/-- **The body of a worker.** It adds all its pieces, or fails because there is no room for everything. -/
theorem runs_workerBody (hw : w.Sound) (hworker : q < d.workers)
    (hscope : s.scope = some (n, e)) (hself : e.get? "self" = some (.ofObject (d.self q)))
    (hshared : e.get? shared = none) (hcount : s.count = 0) (hended : s.thread.ended = false)
    {Q : Flow → Part → World → Prop}
    (hQ : ∀ t v, w.Next v → t.thread = s.thread → t.count = d.rounds → Q .proceed (.share q t) v)
    (hX : ∀ f t v, w.Next v → t.thread = s.thread → ¬ d.Roomy → X (.error f) (.share q t) v) :
    (d.pact E).Runs S id (.share q s) w (stepsToOp (d.site n) (workerBody d.rounds)) Q X := by
  unfold workerBody stepsToOp Step.toOp
  refine .bind (.bind ?_)
  -- Before each round the worker has added as many pieces as there were rounds.
  refine (Runs.repeated (fun i (b : Part) v => w.Next v ∧ ∃ t e', b = .share q t ∧ t.thread = s.thread ∧
    t.scope = some (n, e') ∧ e'.get? "self" = some (.ofObject (d.self q)) ∧ e'.get? shared = none ∧ t.count = i)
    ?_ d.rounds 0 _ w (Nat.zero_add _) ⟨.refl hw, s, e, rfl, rfl, hscope, hself, hshared, hcount⟩).imp ?_
    fun _ _ _ h => h
  · rintro i b v hi ⟨hv, t, e', rfl, hthread, hscope', hself', hshared', hcount'⟩
    have hended' : t.thread.ended = false := by rw [hthread, hended]
    refine .bind (runs_assign hscope' rfl fun v₁ hv₁ => ?_)
    refine runs_round (s := { t with scope := some (n, _) }) hworker hi rfl
      ⟨?_, get?_insert_self .., ?_⟩ hcount' hended'
      (fun e'' line v₂ hv₂ hvars => ?_) fun f t' v₂ hv₂ ht' => hX f t' v₂ ((hv.trans hv₁).trans hv₂)
        (ht'.trans hthread)
    · exact (get?_insert_of_ne _ _ (by decide)).trans hself'
    · exact (get?_insert_of_ne _ _ (by decide)).trans hshared'
    · exact ⟨rfl, (hv.trans hv₁).trans hv₂, _, e'', rfl, hthread, rfl, hvars.self, hvars.shared, rfl⟩
  · rintro flow b v ⟨rfl, hv, t, e', rfl, hthread, hscope', -, hshared', hcount'⟩
    refine .pure (.act (runs_checkShared hscope' hshared' (fun _ v₁ hv₁ => ?_) fun f v₁ hv₁ => ?_))
    · exact .steps_nil (hQ t v₁ (hv.trans hv₁) hthread hcount')
    · exact hX f t v₁ (hv.trans hv₁) hthread

theorem find?_run (d : Plan) : d.cls.find? Selector.run =
    some (d.cls, { name := Builtin.signature Selector.run, arity := 0, code := .script d.home (workerBody d.rounds) }) :=
  rfl

/-- What `run()` of a worker does. -/
theorem runs_workerRun (hworker : q < d.workers) (hcount : s.count = 0)
    (hended : s.thread.ended = false) {Q : Value → Part → World → Prop}
    (hQ : ∀ y t v, w.Next v → t.thread = s.thread → t.count = d.rounds → Q y (.share q t) v)
    (hX : ∀ f t v, w.Next v → t.thread = s.thread → ¬ d.Roomy → X (.error f) (.share q t) v) :
    (d.pact E).Runs S id (.share q s) w (Op.dispatch (some d.home) (some (d.self q)) Selector.run []) Q X := by
  refine .dispatch (fun v _ hk => (knows_holds hk).2.2.1.worker q hworker) d.find?_run rfl fun v hv _ => ?_
  have hself : (Scene.callVariables (some (d.self q)) []).get? "self" = some (.ofObject (d.self q)) := rfl
  have hshared : (Scene.callVariables (some (d.self q)) []).get? shared = none := rfl
  refine .call rfl (.bind (runs_openScope fun n v₁ hv₁ => .bind ?_))
  refine runs_workerBody (s := { s with scope := some (n, _) }) hv₁.sound hworker rfl hself hshared hcount
    hended (fun t v₂ hv₂ ht hcount' => ?_) fun f t v₂ hv₂ ht => hX f t v₂ ((hv.trans hv₁).trans hv₂) ht
  exact .pure (hQ _ t v₂ ((hv.trans hv₁).trans hv₂) ht hcount')

/-! ## The greeter -/

/-- The thread that an object is or has, if it is one. -/
theorem runs_needThread (hw : w.Sound) {y : Option ObjId} {Q : ObjId → Part → World → Prop}
    (hQ : ∀ o v, w.Next v → Q o a v) (hX : ∀ p v, w.Next v → X (.panic p) a v) :
    (d.pact E).Runs S id a w (Op.needThread y) Q X := by
  cases y with
  | none => exact .panic (hX _ w (.refl hw))
  | some o =>
    refine .bind (.observe fun v hv _ => ?_)
    cases v.thread? (v.header o) with
    | some t => exact .pure (hQ _ v hv)
    | none => exact .panic (hX _ v hv)

/-- The thread of a task in the shared runtime, which may be made for it now. -/
theorem runs_globalThread (ha : ∀ u, a ≠ .alone u) (htask : a.task? = some id) {Q : Option ObjId → Part → World → Prop}
    (hQ : ∀ y v, w.Next v → Q y a v) : (d.pact E).Runs S id a w Op.globalThread Q X := by
  refine .bind (.observe fun v hv _ => ?_)
  cases v.globalRuntime with
  | none => exact .pure (hQ _ v hv)
  | some r =>
    refine .bind (.bind (.pure (.bind (.task fun v₁ hv₁ _ => .bind (.observe fun v₂ hv₂ _ => ?_)))))
    have hchain := (hv.trans hv₁).trans hv₂
    cases (v₂.registry r).bound? id with
    | some o => exact .pure (.pure (hQ _ v₂ hchain))
    | none =>
      exact runs_quiet ha rfl rfl (.inr (by exact htask.symm)) fun v₃ hv₃ _ hnext =>
        .pure (hQ _ _ ((hchain.trans hv₃).trans hnext))

/-- The body of the greeter. -/
theorem runs_greeterBody (htask : s.task = id) (hscope : s.scope = some (n, e)) {Q : Flow → Part → World → Prop}
    (hQ : ∀ t v, w.Next v → t.thread = s.thread → Q .proceed (.share q t) v)
    (hX : ∀ p t v, w.Next v → t.thread = s.thread → X (.panic p) (.share q t) v) :
    (d.pact E).Runs S id (.share q s) w (stepsToOp (d.site n) greeterBody) Q X := by
  -- What is printed depends on the variable, but not what becomes of the share.
  have hgreets (t : Share) (v : World) (hv : w.Next v) (ht : t.thread = s.thread) : (d.pact E).Runs S id
      (.share q t) v
      (stepsToOp (d.site n) [act (.host (.print [.literal "hello from ", .threadName "me", .literal "\n"]))]) Q X := by
    refine .act (.bind (.bind (.pure (.bind (.bind (.bind (.observe fun v₁ hv₁ _ => ?_)))))))
    refine .bind (runs_needThread hv₁.sound (fun o v₂ hv₂ => ?_) fun p v₂ hv₂ => ?_)
    on_goal 2 => exact hX p t v₂ ((hv.trans hv₁).trans hv₂) ht
    refine .bind (.observe fun v₃ hv₃ _ => .pure (.bind (.bind (.pure (.bind (.pure (.pure (.pure (.pure ?_)))))))))
    refine .bind (runs_print fun v₄ hv₄ => .pure (.steps_nil ?_))
    exact hQ _ v₄ ((((hv.trans hv₁).trans hv₂).trans hv₃).trans hv₄) ht
  refine .step (x := Action.toOp (d.site n) _) (by rw [keep, Step.toOp]) rfl ?_
  refine .bind (.observe fun v hv _ => .bind ?_)
  refine runs_globalThread (a := .share q s) (by rintro _ ⟨⟩) (congrArg some htask) fun y v₁ hv₁ => ?_
  cases y with
  | none => exact .pure (.pure (hgreets s v₁ (hv.trans hv₁) rfl))
  | some o =>
    refine runs_answerObject fun _ v₂ hv₂ => runs_assign hscope rfl fun v₃ hv₃ => ?_
    exact hgreets _ v₃ (((hv.trans hv₁).trans hv₂).trans hv₃) rfl

theorem find?_threadRun (home : RuntimeId) : (Builtin.threadClass home).find? Selector.run =
    some (Builtin.threadClass home, (Builtin.method home .run 0 .threadRun).2) := rfl

theorem find?_runnableRun (home : RuntimeId) : (Builtin.runnableClass home).find? Selector.run =
    some (Builtin.runnableClass home, (Builtin.method home .run 0 .runnableRun).2) := rfl

/-- What `run()` of the greeter does. -/
theorem runs_greeterRun (htask : s.task = id) {Q : Value → Part → World → Prop}
    (hQ : ∀ y t v, w.Next v → t.thread = s.thread → Q y (.share d.workers t) v)
    (hX : ∀ p t v, w.Next v → t.thread = s.thread → X (.panic p) (.share d.workers t) v) :
    (d.pact E).Runs S id (.share d.workers s) w
      (Op.dispatch (some d.home) (some (d.self d.workers)) Selector.run []) Q X := by
  refine .dispatch (fun v _ hk => (knows_holds hk).2.2.1.greeter) (find?_threadRun d.home) rfl fun v hv _ => ?_
  refine .call rfl (.bind (.needThread fun v₁ hv₁ hk => ?_))
  obtain ⟨hholds, -, hset, -⟩ := knows_holds hk
  rw [hset.header_self hholds.thread]
  refine ⟨_, hholds.thread, .bind (.observe fun v₂ hv₂ hk => ?_)⟩
  obtain ⟨hholds, hproper, -⟩ := knows_holds hk
  have htarget : ((v₂.thread? (d.thr d.workers)).getD {}).target = some d.greeting := by
    rw [hholds.thread]
    exact hproper.cast.target rfl
  rw [htarget]
  have hchain := (hv.trans hv₁).trans hv₂
  refine .dispatch (fun v _ hk => (knows_holds hk).2.2.1.itemClass) (find?_runnableRun d.home) rfl fun v₃ hv₃ _ => ?_
  refine .call rfl (.bind (.observe fun v₄ hv₄ hk => ?_))
  rw [(knows_holds hk).2.2.1.item]
  refine .bind (.call rfl (.bind (runs_openScope fun n v₅ hv₅ => .bind ?_)))
  have hchain' := ((hchain.trans hv₃).trans hv₄).trans hv₅
  refine runs_greeterBody (s := { s with scope := some (n, _) }) htask rfl (fun t v₆ hv₆ ht => ?_) fun p t v₆ hv₆ ht =>
    hX p t v₆ (hchain'.trans hv₆) ht
  exact .pure (.pure (hQ _ t v₆ (hchain'.trans hv₆) ht))

/-! ## The task of a thread -/

/-- A failure that escaped a thread is kept and reported. -/
theorem runs_uncaught {f} {stack : Bool} (hended : s.thread.ended = false) (hfails : q < d.workers → ¬ d.Roomy)
    {Q : Unit → Part → World → Prop} (hQ : ∀ v, w.Next v →
      Q () (.share q { s with thread := { s.thread with uncaught := s.thread.uncaught.or (some f) } }) v) :
    (d.pact E).Runs S id (.share q s) w (Op.uncaught (d.thr q) f stack) Q X := by
  refine .bind (runs_recordUncaught hended hfails fun name v hv => .bind (.observe fun v₁ hv₁ hk => ?_))
  obtain ⟨hholds, hproper, -⟩ := knows_holds hk
  rw [hholds.thread, Option.getD_some, hproper.cast.home]
  refine .bind (.pure (runs_quiet (a := .share q _) nofun rfl rfl (.inl rfl) fun v₂ hv₂ _ hnext => ?_))
  exact hQ _ (((hv.trans hv₁).trans hv₂).trans hnext)

/-- What `run()` of a thread does. Its record stays as it is. A worker adds all its pieces, or fails because there
is no room for everything. -/
theorem runs_run (htask : s.task = id) (hq : q ≤ d.workers) (hcount : s.count = 0)
    (hended : s.thread.ended = false) : (d.pact E).Runs S id (.share q s) w
      (Op.dispatch (some d.home) (some (d.self q)) Selector.run [])
      (fun _ b v => ∃ t, b = .share q t ∧ w.Next v ∧ t.thread = s.thread ∧ (q < d.workers → t.count = d.rounds))
      fun _ b v => ∃ t, b = .share q t ∧ w.Next v ∧ t.thread = s.thread ∧ (q < d.workers → ¬ d.Roomy) := by
  by_cases hworker : q < d.workers
  · refine runs_workerRun hworker hcount hended (fun _ t v hv ht hdone => ?_) fun f t v hv ht hfails => ?_
    · exact ⟨t, rfl, hv, ht, fun _ => hdone⟩
    · exact ⟨t, rfl, hv, ht, fun _ => hfails⟩
  · obtain rfl : q = d.workers := Nat.le_antisymm hq (Nat.le_of_not_lt hworker)
    refine runs_greeterRun htask (fun _ t v hv ht => ?_) fun p t v hv ht => ?_
    · exact ⟨t, rfl, hv, ht, fun h => absurd h hworker⟩
    · exact ⟨t, rfl, hv, ht, fun h => absurd h hworker⟩

/-- How the task of a thread ends. -/
theorem runs_leave (hended : s.thread.ended = false)
    (hdone : s.thread.uncaught = none → q < d.workers → s.count = d.rounds) :
    (d.pact E).Runs S id (.share q s) w
      (do
        Op.perform (.unbindTask (d.thr q))
        Op.perform (.setState (d.thr q) .terminated)
        Op.ofPanic (← Op.perform (.endThread (d.thr q))))
      (fun _ b _ => ∃ t, b = .share q t ∧ t.thread.ended) X := by
  refine .bind (runs_quiet (a := .share q s) nofun rfl rfl (.inl rfl) fun v _ _ _ =>
    .bind (runs_setState hended (fun _ => rfl) fun v₁ _ => ?_))
  refine .bind (runs_endThread (s := { s with thread := { s.thread with state := .terminated } }) hended rfl hdone
    fun v₂ _ => .pure ?_)
  exact ⟨_, rfl, rfl⟩

/-- **The task of a thread.** Whatever comes of `run()`, the thread is over in the end. -/
theorem runs_execute (htask : s.task = id) (hcount : s.count = 0) (hended : s.thread.ended = false)
    (hstate : s.thread.state ≠ .terminated) :
    (d.pact E).Runs S id (.share q s) w (Op.execute (d.thr q))
      (fun _ b _ => ∃ t, b = .share q t ∧ t.thread.ended) X := by
  refine .bind (.observe fun v hv hk => ?_)
  obtain ⟨hholds, hproper, -, hq⟩ := knows_holds hk
  rw [hholds.thread, Option.getD_some, hproper.cast.home, hproper.cast.self]
  refine .bind (runs_quiet (a := .share q s) nofun rfl rfl (.inr (by exact congrArg some htask.symm))
    fun v₁ hv₁ _ hnext₁ => .bind ?_)
  refine .guard (.bind (runs_setState hended (fun h => absurd h hstate) fun v₂ hv₂ => .bind (.result ?_)))
  let s' := { s with thread := { s.thread with state := .runnable } }
  -- The record is as it was, so that the thread is not over.
  have hopen {t : Share} (ht : t.thread = s'.thread) : t.thread.ended = false := by rw [ht, hended]
  have hkept {u : Option Err} {f : Err} (hnone : u.or (some f) = none) : False := by
    cases (Option.or_eq_none_iff.mp hnone).2
  refine (runs_run (s := s') htask hq hcount hended).imp ?_ ?_
  · rintro y b v₃ ⟨t, rfl, hv₃, ht, hdone⟩
    exact .pure (runs_leave (hopen ht) fun _ => hdone)
  · rintro (f | p) b v₃ ⟨t, rfl, hv₃, ht, hfails⟩ <;> have hstill := hopen ht
    · refine runs_uncaught hstill hfails fun v₄ hv₄ => ?_
      exact runs_leave hstill fun hnone => (hkept hnone).elim
    · refine .bind (runs_uncaught hstill hfails fun v₄ hv₄ => ?_)
      exact runs_leave hstill fun hnone => (hkept hnone).elim

/-- What is started for a thread keeps to the agreement. -/
theorem parental {t : Thread} (hended : t.ended = false) (hstate : t.state ≠ .terminated) (v : World) :
    (d.pact E).Parental (.share q { thread := t, task := v.tasks }) v (d.thr q) := by
  refine (runs_execute (s := { thread := t, task := v.tasks }) (X := fun _ _ _ => False) rfl rfl hended
    hstate).keeps ?_ fun _ _ _ h => h.elim
  rintro b u ⟨t', rfl, hover⟩ u' _ _
  exact hover

end ObjectKernel.Demo.Plan
