import ObjectKernel.Proofs.DemoLead

/-!
# What the demonstration prints

When the main program has waited for all workers, and none of them has failed, the shared buffer was fed with all
pieces, in an order that the schedule has chosen. The main program prints how many characters there are, which does
not depend on that order, and the text. Then it passes the shutdown barrier and discards the runtime. If there is no
room for everything then it fails on the way, and prints nothing. So whether the text is printed, and how long it
is, does not depend on the schedule, and no schedule goes on for ever.

## Contents

* `Demo.printout`: what is printed if the pieces are in an order. `Demo.Plan.Verdict`: what may be printed.
* `Demo.Plan.runs_keepText`, `runs_output`: the text is made and printed.
* `Demo.Plan.runs_barrier`: the shutdown barrier.
* `Demo.Plan.runs_program`, `Demo.Plan.abides`: the program keeps to the agreement.
* `Demo.printout_independent_of_schedule`: what every run prints.
-/

namespace ObjectKernel.Demo

open World Protocol List

/-- What the main program prints if the pieces are in an order. -/
def printout (workers rounds : Nat) (h : List (Nat × Nat)) : List Bytes :=
  [Bytes.ofNat (characters workers rounds) ++ " characters, hash " ++
      Bytes.ofInt (CharSeq.ofRunes (runes h).flatten).hashCode.toInt ++ "\n",
   text h ++ "\n"]

/-- The same for any number of rounds. -/
def output (workers rounds : Nat) (h : List (Nat × Nat)) : List Bytes :=
  [Bytes.ofNat (volume workers rounds) ++ " characters, hash " ++
      Bytes.ofInt (CharSeq.ofRunes (entries h).flatten).hashCode.toInt ++ "\n",
   Utf8.encode (entries h).flatten ++ "\n"]

theorem output_eq_printout {workers rounds} (hrange : rounds < 2 ^ 31) {h}
    (hs : Shuffle (everyRound workers rounds) h) : output workers rounds h = printout workers rounds h := by
  unfold output
  rw [volume_eq_characters hrange, hs.entries_eq hrange, encode_runes]
  rfl

/-- The runtime that is shared, if the main program has such a part. -/
def Part.sharing : Part → Option RuntimeId
  | alone u => u.globalRuntime
  | lead m => m.sharing
  | share .. => none

/-- The program at its beginning. -/
def beginning (w : World) (c : Config) (workers rounds : Nat) : Machine :=
  .start w (program c workers rounds).toProgUnit

namespace Plan

/-- What the main program may have printed in the end: all pieces if there is room for them, and otherwise
nothing. -/
def Verdict (d : Plan) (shown : List Bytes) : Prop :=
  (Printable d.config d.workers d.rounds ∧
    ∃ h, Shuffle (everyRound d.workers d.rounds) h ∧ shown = printout d.workers d.rounds h) ∨
  (¬ Printable d.config d.workers d.rounds ∧ shown = [])

/-- The agreement with which the main program has printed what `R` says when it ends. -/
def protocol (d : Plan) (R : List Bytes → Prop) : Protocol := d.pact fun a _ => R a.shown

variable {d : Plan} {acc : Ledger} {E : Part → Outcome → Prop} {S : Part → World → ObjId → Prop} {id : TaskId}
  {w v : World} {m : Lead} {X : Stop → Part → World → Prop} {q k : Nat} {σ : Nat → Share} {x : Name}
  {Q : Unit → Part → World → Prop} {o : ObjId} {b : Part} {r : RuntimeId} {s : CharSeq} {bs : List Bytes}
  {hist : List (Nat × Nat)} {rest : List Step} {pieces : List OutputPiece} {self : Option ObjId}
  {bound : Option Expiry}

/-! ## The text -/

/-- When all workers are over and have not failed, they have added all pieces. -/
theorem Joining.shuffle (h : d.Joining acc d.workers m) (hc : d.Concord m σ hist v) :
    Shuffle (everyRound d.workers d.rounds) hist := by
  have hcounts : counts m σ = everyRound d.workers d.rounds := by
    funext q
    unfold counts everyRound
    rw [h.begun]
    by_cases hq : q < d.workers
    · obtain ⟨t, ht, hnone⟩ := h.joined q hq
      obtain ⟨hbegun, hrecord, hover⟩ := hc.joined _ ht
      rw [if_pos (Nat.lt_succ_of_lt hq), if_pos hq]
      refine (hc.proper q hbegun).done ?_ ?_ hq
      · rwa [hrecord]
      · rwa [hrecord]
    · rw [if_neg hq]
      by_cases hlast : q < d.workers + 1
      · rw [if_pos hlast]
        exact (hc.proper q (h.begun ▸ hlast)).idle (Nat.le_of_not_lt hq)
      · rw [if_neg hlast]
  rw [← hcounts]
  exact hc.shuffle

/-- A variable that is neither global nor the one with the greeter can be bound. -/
theorem Joining.bind (h : d.Joining acc k m) (hx : isGlobalName x = false) (hgreeter : "greeter" ≠ x) (y : Value) :
    d.Joining acc k { m with globals := m.globals.insert x y } :=
  { h with
    named :=
      { worker := fun q hq => by
          rw [Dictionary.get?_insert_of_ne _ _ (workerName_ne hx q)]
          exact h.named.worker q hq
        greeter := by
          rw [Dictionary.get?_insert_of_ne _ _ hgreeter]
          exact h.named.greeter } }

/-- **The text is made** if there is room for everything: all pieces, in an order that depends on the schedule. -/
theorem runs_keepText (h : d.Joining acc d.workers m) (hvalid : d.config.validate = .ok ())
    (hreferences : Memory.hasRoom d.workers Memory.referenceSize) {Q : Flow → Part → World → Prop}
    (hQ : ∀ m' v hist o, d.Roomy → Shuffle (everyRound d.workers d.rounds) hist →
      d.Joining acc d.workers m' → m'.shown = m.shown → m'.globals.get? "text" = some (.ofObject o) →
      v.text? o = some (d.home, .ofRunes (entries hist).flatten) →
      (d.pact E).Runs S id (.lead m') v (stepsToOp d.stage rest) Q X)
    (hX : ∀ e v, ¬ d.Roomy → X (.error e) (.lead m) v) : (d.pact E).Runs S id (.lead m) w
      (stepsToOp d.stage (keep "text" (.buffer none (.toText (some shared))) :: rest)) Q X := by
  refine .keep (.bind (.observe fun v hv _ => .bind (.observe fun v₁ hv₁ hk => ?_)))
  obtain ⟨σ, hist, hc⟩ := knows_lead hk
  rw [objectOperand_lead hc hc.leads.shared]
  refine .bind (.needBuffer fun v₂ hv₂ hk => ?_)
  obtain ⟨σ, hist, hc⟩ := knows_lead hk
  obtain ⟨b, hb, -⟩ := hc.text
  refine ⟨⟨_, hb⟩, .bind (.bind (runs_quiet (a := .lead m) nofun rfl rfl (.inl rfl) fun v₃ hv₃ hk hnext => ?_))⟩
  obtain ⟨σ, hist, hc⟩ := knows_lead hk
  have hshuffle := h.shuffle hc
  obtain ⟨b, hb, hfed⟩ := hc.text
  have hlength := hshuffle.length_eq
  rcases exec_bufferText id hb hfed hc.set with ⟨hbound, hfits, r, u, hexec, htext⟩ | ⟨hexceeds, e, hexec⟩
  · rw [hexec] at hnext ⊢
    rw [hlength] at hbound hfits
    refine .pure (runs_answerObject fun _ v₄ hv₄ => ⟨_, rfl, runs_bind (shared_ne rfl) fun v₅ hv₅ => ?_⟩)
    exact hQ _ v₅ hist r ⟨hvalid, hc.set.room, hreferences, hbound, hfits⟩ hshuffle (h.bind rfl (by decide) _) rfl
      (Dictionary.get?_insert_self ..) (text?_later (hv₄.trans hv₅).later htext)
  · rw [hexec] at hnext ⊢
    rw [hlength] at hexceeds
    exact .throw (hX e v₃ fun hroom => hexceeds ⟨hroom.fits, hroom.allowed⟩)

/-! ## Output -/

/-- What a piece of output shows that is a literal or about a string in a variable. -/
inductive Shows (x : Name) (s : CharSeq) : OutputPiece → Bytes → Prop where
  | literal (b : Bytes) : Shows x s (.literal b) b
  | length : Shows x s (.textLength x) (Bytes.ofNat s.length)
  | hash : Shows x s (.textHash x) (Bytes.ofInt s.hashCode.toInt)
  | content : Shows x s (.textContent x) s.text

/-- The main program finds the string in a variable. -/
theorem runs_namedText (hx : m.globals.get? x = some (.ofObject o)) {r} (ht : w.text? o = some r) {α : Type} {f}
    {Q : α → Part → World → Prop} (h : ∀ v, w.Next v → (d.pact E).Runs S id (.lead m) v (f r) Q X) :
    (d.pact E).Runs S id (.lead m) w
      (Op.observe (·.objectOperand d.stage (some x)) >>= fun o => Op.needText o >>= f) Q X := by
  refine .bind (.observe fun v hv hk => ?_)
  obtain ⟨σ, hist, hc⟩ := knows_lead hk
  rw [objectOperand_lead hc hx]
  refine .bind (.needText fun v₁ hv₁ _ => ⟨r, ?_, h v₁ (hv.trans hv₁)⟩)
  exact text?_later (hv.trans hv₁).later ht

/-- Pieces of output about a string are put together. The induction is on the pieces. -/
theorem runs_allBytes (hx : m.globals.get? x = some (.ofObject o)) (hpieces : List.Forall₂ (Shows x s) pieces bs) :
    ∀ {w : World}, w.text? o = some (r, s) → ∀ {Q : Bytes → Part → World → Prop},
      (∀ v, v.text? o = some (r, s) → Q bs.flatten (.lead m) v) →
      (d.pact E).Runs S id (.lead m) w (OutputPiece.allBytes d.stage pieces) Q X := by
  induction hpieces with
  | nil =>
    intro w ht Q hQ
    exact .pure (hQ w ht)
  | @cons p b pieces bs hp _ ih =>
    intro w ht Q hQ
    have hrest (v : World) (hv : v.text? o = some (r, s)) : (d.pact E).Runs S id (.lead m) v
        (OutputPiece.allBytes d.stage pieces >>= fun c => pure (b ++ c)) Q X :=
      .bind (ih hv fun v₁ hv₁ => .pure (hQ v₁ hv₁))
    have hlater {v : World} (hv : w.Next v) := hrest v (text?_later hv.later ht)
    cases hp with
    | literal => exact .bind (.pure (hrest w ht))
    | length => exact .bind (runs_namedText hx ht fun v hv => .pure (hlater hv))
    | hash => exact .bind (runs_namedText hx ht fun v hv => .pure (hlater hv))
    | content => exact .bind (runs_namedText hx ht fun v hv => .pure (hlater hv))

/-- They are printed. -/
theorem runs_output (hx : m.globals.get? x = some (.ofObject o)) (ht : w.text? o = some (r, s))
    (hpieces : List.Forall₂ (Shows x s) pieces bs) {b} (hb : bs.flatten = b) {Q : Flow → Part → World → Prop}
    (hQ : ∀ v, v.text? o = some (r, s) → (d.pact E).Runs S id (.lead { m with shown := m.shown ++ [b] }) v
      (stepsToOp d.stage rest) Q X) :
    (d.pact E).Runs S id (.lead m) w (stepsToOp d.stage (act (.host (.print pieces)) :: rest)) Q X := by
  subst hb
  refine .act (.bind (runs_allBytes hx hpieces ht fun v hv => .bind (runs_show fun v₁ hv₁ => .pure ?_)))
  exact hQ v₁ (text?_later hv₁.later hv)

/-! ## The shutdown barrier -/

/-- The barrier waits for threads that the main program does not know to be over. -/
theorem Joining.pending (h : d.Joining acc k m) (hc : d.Concord m σ hist v) (ho : o ∈ v.pendingThreads d.home self) :
    ∃ q, q ≤ d.workers ∧ o = d.thr q ∧ ∀ t, (q, t) ∉ m.joined := by
  obtain ⟨hlive, -⟩ := mem_filter.mp ho
  obtain ⟨hstarted, hrunning⟩ := mem_filter.mp hlive
  rw [hc.leads.started, h.enrolled] at hstarted
  obtain ⟨q, hq, rfl⟩ := mem_map.mp hstarted
  refine ⟨q, Nat.lt_succ_iff.mp (mem_range.mp hq), rfl, fun t ht => ?_⟩
  obtain ⟨hbegun, hrecord, hover⟩ := hc.joined _ ht
  have hterminated : v.isTerminated (d.thr q) := by
    unfold isTerminated
    rw [(hc.holds q hbegun).thread]
    dsimp only
    rw [(hc.proper q hbegun).settled (hrecord ▸ hover)]
    rfl
  rw [hterminated] at hrunning
  cases hrunning

/-- When there is nothing to wait for, all threads have terminated. -/
theorem Joining.settles (h : d.Joining acc k m) (hc : d.Concord m σ hist v)
    (hnone : v.pendingThreads d.home self = []) :
    ∃ settled : Bool, (self = none → settled) ∧ (d.pact E).Shifts (.lead m) v (.lead { m with settled }) := by
  cases self with
  | some o => exact ⟨m.settled, nofun, .refl ..⟩
  | none =>
    refine ⟨true, fun _ => rfl, shifts_settled fun q hq => ?_⟩
    by_contra hlive
    have hstarted : d.thr q ∈ v.startedThreads d.home := by
      rw [hc.leads.started, h.enrolled]
      exact mem_map_of_mem (mem_range.mpr (h.begun ▸ hq))
    have hpending : d.thr q ∈ v.pendingThreads d.home none :=
      mem_filter.mpr ⟨mem_filter.mpr ⟨hstarted, by simpa using hlive⟩, by simp⟩
    rw [hnone] at hpending
    cases hpending

/-- The main program waits for threads in turn, and knows then that they are over. -/
theorem runs_joinPending {os : List ObjId} :
    ∀ {m : Lead} {w : World} {Q : Unit → Part → World → Prop}, (∀ o ∈ os, ∃ q, q < m.begun ∧ o = d.thr q) →
      (∀ js v, (∀ o ∈ os, ∃ q t, q < m.begun ∧ o = d.thr q ∧ (q, t) ∈ js) →
        Q () (.lead { m with joined := js ++ m.joined }) v) →
      (∀ e js v, bound.isSome → X (.error e) (.lead { m with joined := js ++ m.joined }) v) →
      (d.pact E).Runs S id (.lead m) w (Op.joinPending bound os) Q X := by
  induction os with
  | nil =>
    intro m w Q _ hQ _
    exact .pure (hQ [] w nofun)
  | cons o os ih =>
    intro m w Q hos hQ hX
    obtain ⟨q, hq, rfl⟩ := hos o mem_cons_self
    refine .bind (.result (runs_joinable hq fun v _ => .bind (runs_ended hq (fun t v₁ _ => ?_) fun v₁ _ hb => ?_)))
    · refine .pure (ih (fun o ho => hos o (mem_cons_of_mem _ ho)) (fun js v₂ hjs => ?_) fun e js v₂ hb => ?_)
      · have hnext := hQ (js ++ [(q, t)]) v₂ fun o ho => ?_
        · rwa [append_assoc] at hnext
        · rcases mem_cons.mp ho with rfl | ho
          · exact ⟨q, t, hq, rfl, mem_append_right _ mem_cons_self⟩
          · obtain ⟨p, t, hp, heq, hmem⟩ := hjs o ho
            exact ⟨p, t, hp, heq, mem_append_left _ hmem⟩
      · have hstop := hX e (js ++ [(q, t)]) v₂ hb
        rwa [append_assoc] at hstop
    · obtain ⟨e, rfl⟩ := Option.isSome_iff_exists.mp hb
      exact .throw (.bind (.observe fun v₂ _ _ => .throw (hX _ [] v₂ hb)))

/-- Nothing is left to wait for once all threads are known to be over. -/
theorem runs_joinAll_of_joined (h : d.Joining acc k m) (hall : ∀ q, q ≤ d.workers → ∃ t, (q, t) ∈ m.joined)
    (hQ : ∀ (settled : Bool) v, (self = none → settled) → Q () (.lead { m with settled }) v) :
    (d.pact E).Runs S id (.lead m) w (Op.joinAll d.home self bound) Q X := by
  refine .bind (.note fun v hv hk => ?_)
  obtain ⟨σ, hist, hc⟩ := knows_lead hk
  have hnone : v.pendingThreads d.home self = [] := by
    refine eq_nil_iff_forall_not_mem.mpr fun o ho => ?_
    obtain ⟨q, hq, -, hfree⟩ := h.pending hc ho
    obtain ⟨t, ht⟩ := hall q hq
    exact hfree t ht
  obtain ⟨settled, hsettled, hshifts⟩ := h.settles hc hnone
  rw [hnone]
  exact ⟨_, hshifts, .pure (hQ settled v hsettled)⟩

/-- The barrier takes two passes at most: only the greeter may not be over. -/
theorem runs_joinAll (h : d.Joining acc d.workers m)
    (hQ : ∀ joined (settled : Bool) v, (self = none → settled) → Q () (.lead { m with joined, settled }) v)
    (hX : ∀ e joined v, bound.isSome → X (.error e) (.lead { m with joined }) v) :
    (d.pact E).Runs S id (.lead m) w (Op.joinAll d.home self bound) Q X := by
  refine .bind (.note fun v hv hk => ?_)
  obtain ⟨σ, hist, hc⟩ := knows_lead hk
  cases hpending : v.pendingThreads d.home self with
  | nil =>
    obtain ⟨settled, hsettled, hshifts⟩ := h.settles hc hpending
    exact ⟨_, hshifts, .pure (hQ m.joined settled v hsettled)⟩
  | cons o os =>
    have hos : ∀ x ∈ o :: os, x = d.thr d.workers := by
      intro x hx
      obtain ⟨q, hq, rfl, hfree⟩ := h.pending hc (hpending ▸ hx)
      rcases Nat.lt_or_eq_of_le hq with hlt | rfl
      · obtain ⟨t, ht, -⟩ := h.joined q hlt
        exact absurd ht (hfree t)
      · rfl
    have hlast : d.workers < m.begun := h.begun ▸ Nat.lt_succ_self _
    refine ⟨.lead m, .refl .., .bind (runs_joinPending (fun x hx => ⟨_, hlast, hos x hx⟩) (fun js v₁ hjs => ?_)
      fun e js v₁ => hX e _ v₁)⟩
    -- Then all threads are known to be over, and there is nothing to wait for in the second pass.
    let m' : Lead := { m with joined := js ++ m.joined }
    have hjoining : d.Joining acc d.workers m' :=
      { h with
        joined := fun q hq => by
          obtain ⟨t, ht, hnone⟩ := h.joined q hq
          exact ⟨t, mem_append_right js ht, hnone⟩ }
    have hall (q : Nat) (hq : q ≤ d.workers) : ∃ t, (q, t) ∈ m'.joined := by
      rcases Nat.lt_or_eq_of_le hq with hlt | rfl
      · obtain ⟨t, ht, -⟩ := hjoining.joined q hlt
        exact ⟨t, ht⟩
      · obtain ⟨p, t, hp, hthr, ht⟩ := hjs o mem_cons_self
        rw [h.begun] at hp
        have hle := Nat.lt_succ_iff.mp hp
        obtain rfl := thr_inj (Nat.le_refl _) hle ((hos o mem_cons_self).symm.trans hthr)
        exact ⟨t, mem_append_left _ ht⟩
    exact .bind (.callUnit rfl (runs_joinAll_of_joined hjoining hall fun settled v₂ hsettled =>
      .pure (hQ _ settled v₂ hsettled)))

/-- A run of the barrier is counted. -/
theorem runs_count
    (hQ : ∀ v, Q () (.lead { m with ledger := { m.ledger with barriers := m.ledger.barriers + 1 } }) v) :
    (d.pact E).Runs S id (.lead m) w (Op.perform (.countBarrier d.home)) Q X := by
  refine runs_direct (m := m) (.countBarrier d.home)
    { m with ledger := { m.ledger with barriers := m.ledger.barriers + 1 } } nofun nofun nofun rfl rfl rfl rfl
    (append_nil _).symm fun v hv hhas hl => ⟨?_, fun _ => hQ _⟩
  obtain ⟨hcounted, hfiles, hown⟩ := hl.books
  exact { hl with
    started := (Instr.exec_started (i := .countBarrier d.home) id v nofun d.home hhas).2.trans hl.started
    books := ⟨hcounted.countBarrier, hfiles, fun h => World.Unbound.exec (hown h) (i := .countBarrier d.home) nofun⟩ }

/-- What has become of the files when the barrier was passed: a report was written to a path, unless none is wanted
or nothing can be written there. -/
def Filed (path : Bytes) (before after : Files) : Prop :=
  (∃ report : Report, before.write path report.encode = .ok after) ∨
  after = before ∧ (path = [] ∨ ∃ e, ∀ content, before.write path content = .error e)

/-- Whether something can be written does not depend on what it is. -/
theorem write_refused {fs : Files} {path content e} (h : fs.write path content = .error e) (content' : Bytes) :
    fs.write path content' = .error e := by
  unfold Files.write at h ⊢
  cases htarget : fs.target path with
  | error c =>
    rw [htarget] at h
    exact h
  | ok place =>
    rw [htarget] at h
    dsimp only at h ⊢
    split at h
    · exact h
    · exact h
    · cases h

/-- A report is written, if that is wanted. -/
theorem runs_reportTo (path : Bytes)
    (hQ : ∀ files v, Filed path m.ledger.files files → Q () (.lead { m with ledger := { m.ledger with files } }) v)
    (hX : ∀ e files v, Filed path m.ledger.files files →
      X (.error e) (.lead { m with ledger := { m.ledger with files } }) v) : (d.pact E).Runs S id (.lead m) w
      (do if path ≠ [] then Op.writeReport path (← Op.perform (.takeReport d.home))) Q X := by
  by_cases hpath : path ≠ []
  on_goal 2 =>
    rw [if_neg hpath]
    exact .pure (hQ m.ledger.files w (.inr ⟨rfl, .inl (not_not.mp hpath)⟩))
  rw [if_pos hpath]
  refine .bind (runs_quiet (a := .lead m) nofun rfl rfl (.inl rfl) fun v _ _ _ => ?_)
  generalize ((Instr.takeReport d.home).exec id v).1 = report
  have hexec (v₁ : World) (hl : d.Leads m v₁) : (Instr.writeFile path report.encode).exec id v₁ =
      v₁.attempt (do return { v₁ with files := ← m.ledger.files.write path report.encode }) := by
    rw [← hl.books.2.1]
    rfl
  cases hwrite : m.ledger.files.write path report.encode with
  | ok files =>
    refine .bind (runs_direct (m := m) (.writeFile path report.encode) { m with ledger := { m.ledger with files } }
      nofun nofun nofun rfl rfl rfl rfl (append_nil _).symm fun v₁ _ _ hl => ?_)
    rw [hexec v₁ hl, hwrite]
    exact ⟨{ hl with books := ⟨hl.books.1, rfl, hl.books.2.2⟩ }, fun _ => .pure (hQ files _ (.inl ⟨report, hwrite⟩))⟩
  | error e =>
    refine .bind (runs_direct (m := m) (.writeFile path report.encode) m nofun nofun nofun rfl rfl rfl rfl
      (append_nil _).symm fun v₁ _ _ hl => ?_)
    rw [hexec v₁ hl, hwrite]
    exact ⟨hl, fun _ => .throw (hX _ m.ledger.files _ (.inr ⟨rfl, .inr ⟨e, write_refused hwrite⟩⟩))⟩

/-- The main program when it has passed the barrier: that was counted, a report was written if it could be, and all
threads have terminated if the wait had no bound. -/
structure Passed (d : Plan) (acc : Ledger) (shown : List Bytes) (m : Lead) : Prop where
  begun : m.begun = d.workers + 1
  enrolled : m.enrolled = (List.range (d.workers + 1)).map d.thr
  barriers : m.ledger.barriers = acc.barriers + 1
  files : Filed d.config.reportPath acc.files m.ledger.files
  settled : d.config.shutdownTimeout = 0 → acc.own → m.settled
  shown : m.shown = shown

/-- **The shutdown barrier.** -/
theorem runs_barrier (h : d.Joining acc d.workers m) (hbound : d.config.shutdownTimeout = 0 → bound = none)
    (hQ : ∀ m' v, d.Passed acc m.shown m' → Q () (.lead m') v)
    (hX : ∀ e m' v, d.Passed acc m.shown m' → X (.error e) (.lead m') v) :
    (d.pact E).Runs S mainTask (.lead m) w (Op.barrierBounded d.home bound) Q X := by
  obtain rfl := h.ledger
  refine .bind (.task fun v _ _ => .bind (.observe fun v₁ _ hk => .bind (.result (.callUnit rfl ?_))))
  obtain ⟨σ, hist, hc⟩ := knows_lead hk
  -- The main program runs no thread, so that it waits for all of them.
  have hself (hown : m.ledger.own) : v₁.ownThread? d.home mainTask = none := by
    unfold ownThread?
    rw [(hc.leads.books.2.2 hown).2]
  have hunbounded {M : Prop} (hzero : d.config.shutdownTimeout = 0) (hexpired : bound.isSome) : M := by
    rw [hbound hzero] at hexpired
    cases hexpired
  refine runs_joinAll h (fun joined settled v₂ hsettled => ?_) fun e joined v₂ hexpired => ?_
  all_goals
    refine .bind (runs_count fun v₃ => .bind (.observe fun v₄ _ hk => ?_))
    obtain ⟨σ, hist, hc⟩ := knows_lead hk
    rw [hc.set.config]
    refine .bind (.result (runs_reportTo _ (fun files v₅ hfiled => ?_) fun f files v₅ hfiled => ?_))
  · exact .pure (hQ _ v₅ ⟨h.begun, h.enrolled, rfl, hfiled, fun _ hown => hsettled (hself hown), rfl⟩)
  · exact .throw (hX _ _ v₅ ⟨h.begun, h.enrolled, rfl, hfiled, fun _ hown => hsettled (hself hown), rfl⟩)
  · exact .throw (hX _ _ v₅ ⟨h.begun, h.enrolled, rfl, hfiled, fun hzero => hunbounded hzero hexpired, rfl⟩)
  · exact .throw (hX _ _ v₅ ⟨h.begun, h.enrolled, rfl, hfiled, fun hzero => hunbounded hzero hexpired, rfl⟩)

/-- The last step of the main program. -/
theorem runs_globalJoinAll (h : d.Joining acc d.workers m) {Q : Flow → Part → World → Prop}
    (hQ : ∀ m' v, d.Passed acc m.shown m' → Q .proceed (.lead m') v)
    (hX : ∀ e m' v, d.Passed acc m.shown m' → X (.error e) (.lead m') v) :
    (d.pact E).Runs S mainTask (.lead m) w (stepsToOp d.stage [act (.runtime none .globalJoinAll)]) Q X := by
  refine .act (.bind (.observe fun v _ _ => .bind (.bind (.observe fun v₁ _ hk => ?_))))
  obtain ⟨σ, hist, hc⟩ := knows_lead hk
  rw [hc.leads.sharing, h.sharing]
  refine .bind (.pure (.bind (.observe fun v₁ _ hk => ?_)))
  obtain ⟨σ, hist, hc⟩ := knows_lead hk
  rw [hc.set.config]
  refine runs_barrier h (fun hzero => ?_) (fun m' v₂ hpassed => .pure (.steps_nil (hQ m' v₂ hpassed))) hX
  rw [hzero]
  rfl

/-! ## The program -/

/-- How the main program may end. If there is no room for everything then it has started no thread, or it fails
before the barrier when it has started all of them. Otherwise it has printed all pieces and passed the barrier. -/
inductive Rests (d : Plan) (acc : Ledger) : Part → Outcome → Prop where
  | unbegun {u : World} {out : Outcome} (room : ¬ d.Roomy) (started : u.startedThreads d.home = []) :
      Rests d acc (.alone u) out
  | early {m : Lead} {e : Err} (room : ¬ d.Roomy) (enrolled : m.enrolled = (List.range (d.workers + 1)).map d.thr)
      (ledger : m.ledger = acc) (shown : m.shown = []) : Rests d acc (.lead m) (.error e)
  | passed {m : Lead} {out : Outcome} {h : List (Nat × Nat)} (room : d.Roomy)
      (shuffle : Shuffle (everyRound d.workers d.rounds) h)
      (passed : d.Passed acc (output d.workers d.rounds h) m) : Rests d acc (.lead m) out

theorem Rests.value {y} (h : d.Rests acc b (.value y)) : d.Rests acc b (.value .null) := by
  cases h with
  | unbegun room started => exact .unbegun room started
  | passed room shuffle passed => exact .passed room shuffle passed

/-- The main program from the text on. -/
theorem runs_finale (h : d.Joining acc d.workers m) (hshown : m.shown = []) (hvalid : d.config.validate = .ok ())
    (hreferences : Memory.hasRoom d.workers Memory.referenceSize)
    (hX : ∀ e b v, d.Rests acc b (.error e) → X (.error e) b v) : (d.pact E).Runs S mainTask (.lead m) w
      (stepsToOp d.stage [keep "text" (.buffer none (.toText (some shared))),
         act (.host (.print [.textLength "text", .literal " characters, hash ", .textHash "text", .literal "\n"])),
         act (.host (.print [.textContent "text", .literal "\n"])),
         act (.runtime none .globalJoinAll)]) (fun _ b _ => d.Rests acc b (.value .null)) X := by
  refine runs_keepText h hvalid hreferences (fun m' v hist o hroom hshuffle hjoining hshown' hx ht => ?_)
    fun e v hroom => hX _ _ v (.early hroom h.enrolled h.ledger hshown)
  let line : Bytes := Bytes.ofNat (volume d.workers d.rounds) ++ " characters, hash " ++
    Bytes.ofInt (CharSeq.ofRunes (entries hist).flatten).hashCode.toInt ++ "\n"
  let last : Bytes := Utf8.encode (entries hist).flatten ++ "\n"
  let m₁ : Lead := { m' with shown := m'.shown ++ [line] }
  let m₂ : Lead := { m₁ with shown := m₁.shown ++ [last] }
  have hprinted : m₂.shown = output d.workers d.rounds hist := by
    show m'.shown ++ [line] ++ [last] = _
    rw [hshown', hshown]
    rfl
  refine runs_output hx ht (.cons .length (.cons (.literal _) (.cons .hash (.cons (.literal _) .nil))))
    (b := line) ?_ fun v₁ ht₁ => ?_
  · show [Bytes.ofNat (entries hist).flatten.length, _, _, _].flatten = _
    rw [hshuffle.length_eq]
    simp [line]
  refine runs_output (m := m₁) hx ht₁ (.cons .content (.cons (.literal _) .nil)) (b := last) rfl fun v₂ _ => ?_
  refine runs_globalJoinAll (m := m₂) { hjoining with } (fun m'' v₃ h => ?_) fun e m'' v₃ h => hX e _ v₃ ?_
  · exact .passed hroom hshuffle (hprinted ▸ h)
  · exact .passed hroom hshuffle (hprinted ▸ h)

/-- The main program from the workers on: it makes them, starts them, waits for them, and prints the text. -/
theorem runs_script {g u} (hr : d.Ready acc 0 g u) (hsize : u.objects.size = 1)
    (hvalid : d.config.validate = .ok ()) (hreferences : Memory.hasRoom d.workers Memory.referenceSize)
    (hX : ∀ e b v, d.Rests acc b (.error e) → X (.error e) b v) :
    (d.pact E).Runs (d.pact E).Parental mainTask (.alone u) u (stepsToOp d.stage (script d.workers))
      (fun _ b _ => d.Rests acc b (.value .null)) X := by
  unfold script
  rw [append_assoc, append_assoc, append_assoc, append_assoc, map_eq_flatMap]
  refine .append ((Runs.flatMap_range
    (fun k (b : Part) v => ∃ g, b = .alone v ∧ d.Ready acc k g v ∧ v.objects.size = 2 * k + 1)
    ⟨g, rfl, hr, hsize⟩ ?_).imp ?_ fun _ _ _ h => h)
  · rintro k b v hk ⟨g, rfl, hr, hsize⟩
    exact runs_makeWorker hk hr hsize
  rintro flow b v ⟨rfl, g, rfl, hr, hsize⟩
  refine ⟨rfl, .append ((runs_makeGreeter hr hsize).imp ?_ fun _ _ _ h => h)⟩
  rintro flow b v ⟨rfl, m, rfl, hstarting⟩
  refine ⟨rfl, .append ((Runs.flatMap_range (fun k (b : Part) _ => ∃ m, b = .lead m ∧ d.Starting acc k m)
    ⟨m, rfl, hstarting⟩ ?_).imp ?_ fun _ _ _ h => h)⟩
  · rintro k b v hk ⟨m, rfl, hstarting⟩
    exact runs_startWorker hstarting hk
  rintro flow b v ⟨rfl, m, rfl, hstarting⟩
  refine ⟨rfl, runs_startGreeter hstarting fun m v hstarting => ?_⟩
  refine runs_joinGreeter hstarting.joining fun m' v hjoining hshown => ?_
  have hnone : m'.shown = [] := hshown.trans hstarting.shown
  show (d.pact E).Runs _ _ (.lead m') v (stepsToOp d.stage ((range d.workers).flatMap joinWorker ++ _)) _ _
  refine .append ((Runs.flatMap_range
    (fun k (b : Part) _ => ∃ m : Lead, b = .lead m ∧ d.Joining acc k m ∧ m.shown = [])
    ⟨m', rfl, hjoining, hnone⟩ ?_).imp ?_ fun _ _ _ h => h)
  · rintro k b v hk ⟨m, rfl, hjoining, hshown⟩
    refine (runs_joinWorker hjoining hk fun e m' v hjoining' hshown' hroom => ?_).imp ?_ fun _ _ _ h => h
    · exact hX _ _ v (.early hroom hjoining'.enrolled hjoining'.ledger (hshown'.trans hshown))
    · rintro flow b v ⟨rfl, m', rfl, hjoining, hshown'⟩
      exact ⟨rfl, m', rfl, hjoining, hshown'.trans hshown⟩
  rintro flow b v ⟨rfl, m, rfl, hjoining, hshown⟩
  exact ⟨rfl, runs_finale hjoining hshown hvalid hreferences hX⟩

/-- The main program is at its end: it rests, and has discarded the shared runtime. -/
def Over (d : Plan) (acc : Ledger) (b : Part) (out : Outcome) : Prop := d.Rests acc b out ∧ b.sharing = none

/-- However the scripts end, the shared runtime is discarded then. -/
theorem runs_closing (out : Outcome) (u : World) (h : d.Rests acc b out) :
    (d.pact E).Runs S id b u (Op.perform .closeGlobal >>= fun _ => match out with
      | .value _ => pure ()
      | .error e => throw e
      | .panic p => Op.panic p) (fun _ b _ => d.Over acc b (.value .null)) fun s b _ => d.Over acc b s.outcome := by
  refine .bind (Runs.imp (Q := fun _ c _ => d.Over acc c out) ?_ (fun _ c v hc => ?_) fun _ _ _ h => h)
  · cases h with
    | unbegun room started => exact alone_perform rfl rfl fun _ => ⟨.unbegun room started, rfl⟩
    | early room enrolled ledger shown => exact runs_closeGlobal fun _ => ⟨.early room enrolled ledger shown, rfl⟩
    | passed room shuffle passed => exact runs_closeGlobal fun _ => ⟨.passed room shuffle { passed with }, rfl⟩
  · cases out with
    | value y => exact .pure ⟨hc.1.value, hc.2⟩
    | error e => exact .throw hc
    | panic p => exact .panic hc

/-- The account of the main program at the beginning. -/
def account (w : World) : Ledger := { barriers := 0, files := w.files, own := 0 < w.tasks }

/-- **The program keeps to the agreement**, whatever the settings are. -/
theorem runs_program (hw : w.Fresh) (hnone : w.globalRuntime = none) (hhome : d.home = w.runtimes.size) :
    (d.pact E).Runs (d.pact E).Parental mainTask (.alone w) w (program d.config d.workers d.rounds)
      (fun _ b _ => d.Over (account w) b (.value .null)) fun s b _ => d.Over (account w) b s.outcome := by
  rcases initGlobal_cases hnone d.config with ⟨e, v, hinvalid, hinit, hsharing, hruntimes⟩ |
    ⟨v, rt, hvalid, hinit, hsharing, hobjects, hrt, hconfig, hselectors, hclasses, hregistry, hbarriers, hfiles, htasks⟩
  · have hexec : (Instr.initGlobal (some d.config)).exec mainTask w = (.error e, v) := hinit
    refine .bind (alone_perform rfl hexec fun _ => .bind (.throw ⟨.unbegun (fun h => hinvalid h.valid) ?_, hsharing⟩))
    have hmissing : v.runtime? d.home = none := by
      unfold runtime?
      rw [hruntimes, hhome]
      exact Array.getElem?_size
    unfold startedThreads registry
    rw [hmissing]
  have hexec : (Instr.initGlobal (some d.config)).exec mainTask w = (.ok (), v) := hinit
  rw [← hhome] at hsharing hrt hclasses
  have hopened (hnext : w.Next v) : d.Opened (account w) v :=
    { sound := hnext.sound
      has := ⟨rt, hrt⟩
      config := by
        unfold World.config
        rw [hrt]
        exact hconfig
      sharing := hsharing
      started := by
        unfold startedThreads
        rw [registry_eq hrt, hregistry]
      books := ⟨⟨rt, hrt, hbarriers⟩, hfiles, fun h => ⟨htasks.symm ▸ h, by
        rw [registry_eq hrt, hregistry]
        rfl⟩⟩ }
  refine .bind (alone_perform rfl hexec fun hnext => .bind (alone_observe ?_))
  rw [hsharing]
  refine .bind (.guard (.bind (runs_preparation (hopened hnext) hrt hselectors hclasses (hobjects.trans hw.objects)
    (fun g u hr hsize => ?_) fun p u hroom hu => runs_closing (.panic p) u (.unbegun hroom hu.started))))
  by_cases hreferences : Memory.hasRoom d.workers Memory.referenceSize
  · rw [hreferences]
    exact .bind ((runs_script hr hsize hvalid hreferences fun e b u h => runs_closing (.error e) u h).imp
      (fun _ b u h => .pure (runs_closing (.value .null) u h)) fun _ _ _ h => h)
  · rw [Bool.eq_false_iff.mpr hreferences]
    exact .bind (.panic (runs_closing (.panic _) u (.unbegun (fun hroom => hreferences hroom.references) hr.started)))

/-! ## Every run -/

theorem lawful_program (c : Config) (workers rounds : Nat) : Op.Lawful [] (program c workers rounds) := by
  refine .bind inferInstance fun made => ?_
  rcases made with e | _
  on_goal 1 => refine .bind inferInstance fun _ => ?_
  all_goals
    refine Op.lawful_globalRuntime_bind fun home => ?_
    have hpreparation := Op.lawful_steps { home } (preparation rounds) [.home home] inferInstance
    have hscript := Op.lawful_steps { home } (script workers) [.home home] inferInstance
    refine .bind ?_ fun out => .bind inferInstance fun _ => ?_
    · infer_instance
    · cases out <;> infer_instance

theorem initial_beginning (hw : w.Fresh) (c : Config) (workers rounds : Nat) :
    (beginning w c workers rounds).Initial := by
  refine ⟨hw, fun {j t} ht => ?_⟩
  obtain ⟨hlt, rfl⟩ := Array.getElem?_eq_some_iff.mp ht
  obtain rfl : j = 0 := Nat.lt_one_iff.mp hlt
  exact ⟨rfl, Op.lawful_toProgUnit (lawful_program c workers rounds) hw.sound nofun⟩

/-- **The program keeps to the agreement**, and so do the threads that it starts. -/
theorem abides_pact (hw : w.Fresh) (hnone : w.globalRuntime = none) (hhome : d.home = w.runtimes.size)
    (hE : ∀ b out, d.Over (account w) b out → E b out) :
    (beginning w d.config d.workers d.rounds).Abides (d.pact E) (solo w) := by
  refine ⟨.inl rfl, fun k => ?_, fun {j t} ht => ?_⟩
  · cases k with
    | zero => exact ⟨nofun, nofun⟩
    | succ k => exact ⟨fun _ => Nat.succ_le_succ (Nat.zero_le k), fun _ => rfl⟩
  · obtain ⟨hlt, rfl⟩ := Array.getElem?_eq_some_iff.mp ht
    obtain rfl : j = 0 := Nat.lt_one_iff.mp hlt
    refine ⟨.alone w, rfl, w, _, _, ht, .refl hw.sound, ?_⟩
    have hends {b : Part} {v : World} {out : Outcome} (h : d.Over (account w) b out) : (d.pact E).Ends b v out := by
      cases b with
      | alone | lead => exact hE _ _ h
      | share => cases h.1
    exact (runs_program hw hnone hhome).keeps (fun _ _ h _ _ _ => hends h) fun _ _ _ h _ _ _ => hends h

/-- What the main program has printed at its end. -/
theorem Rests.verdict (hrange : d.rounds < 2 ^ 31) {out} (h : d.Rests acc b out) : d.Verdict b.shown := by
  have hroom : d.Roomy ↔ Printable d.config d.workers d.rounds := hasRoom_iff_printable hrange
  cases h with
  | unbegun room => exact .inr ⟨fun h => room (hroom.mpr h), rfl⟩
  | early room _ _ shown => exact .inr ⟨fun h => room (hroom.mpr h), shown⟩
  | passed room shuffle passed =>
    exact .inl ⟨hroom.mp room, _, shuffle, passed.shown.trans (output_eq_printout hrange shuffle)⟩

theorem abides (hw : w.Fresh) (hnone : w.globalRuntime = none) (hhome : d.home = w.runtimes.size)
    (hrange : d.rounds < 2 ^ 31) : (beginning w d.config d.workers d.rounds).Abides (d.protocol d.Verdict) (solo w) :=
  abides_pact hw hnone hhome fun _ _ h => h.1.verdict hrange

end Plan

end ObjectKernel.Demo
