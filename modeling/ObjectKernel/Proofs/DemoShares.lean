import ObjectKernel.Proofs.DemoParts
import ObjectKernel.Proofs.Literals

/-!
# What threads do with their shares

The rules for what a thread of the demonstration does: it changes its record, binds its variables, writes its
line, makes strings, and adds a piece to the text.

## Contents

* `Demo.Plan.runs_quiet`: what concerns no share.
* `Demo.Plan.runs_setState`, `runs_recordUncaught`, `runs_endThread`: the record of a thread.
* `Demo.Plan.runs_openScope`, `runs_assign`, `runs_print`: variables and output.
* `Demo.Plan.runs_newBuffer`, `runs_appendLine`, `runs_contribute`: the line and the text.
* `Demo.Plan.runs_makeText`, `runs_constant`, `runs_lineText`: strings.
-/

namespace ObjectKernel.Demo.Plan

open World Protocol Instr

variable {d : Plan} {E : Part → Outcome → Prop} {S : Part → World → ObjId → Prop} {id : TaskId} {w v : World}
  {a : Part} {q : Nat} {s : Share} {X : Stop → Part → World → Prop} {i : Instr} {o : ObjId}
  {Q : Unit → Part → World → Prop} {e : Dictionary Name Value} {xs : List (List Rune)} {b : Buffer}

/-- What is made before the first start is there for every task that has others beside it. -/
theorem knows_set (ha : ∀ u, a ≠ .alone u) (hk : (d.pact E).Knows a v) : d.Set v := by
  obtain ⟨P, j, hP, hj⟩ := hk
  rcases hP with rfl | ⟨m, σ, h, rfl, hc⟩
  · cases j with
    | zero => exact absurd (Option.some.inj hj).symm (ha v)
    | succ j => cases hj
  · exact hc.set

/-- What a thread knows. -/
theorem knows_holds (hk : (d.pact E).Knows (.share q s) v) :
    d.Holds q s v ∧ d.Proper q s ∧ d.Set v ∧ q ≤ d.workers := by
  obtain ⟨m, σ, h, hc, hq, rfl⟩ := knows_share hk
  have hbegun := hc.leads.begun
  exact ⟨hc.holds q hq, hc.proper q hq, hc.set, by omega⟩

/-- An instruction that concerns no share. -/
theorem runs_quiet (ha : ∀ u, a ≠ .alone u) (hi : i.isQuiet) (hprints : i.prints = [])
    (hbinds : i.binds id = none ∨ i.binds id = a.task?) {Q : i.Answer → Part → World → Prop}
    (hQ : ∀ v, w.Next v → (d.pact E).Knows a v → v.Next (i.exec id v).2 → Q (i.exec id v).1 a (i.exec id v).2) :
    (d.pact E).Runs S id a w (Op.perform i) Q X :=
  .perform fun v hv hk hnext => ⟨a, acts_quiet ha hv.sound hnext hi hprints hbinds, hQ v hv hk hnext⟩

/-! ## The record of a thread -/

theorem own_of_subject (h : i.subject? = some (d.thr q)) : d.Own id q s i where
  subject _ ho := Option.some.inj (ho.symm.trans h)
  assign _ _ _ hi := absurd hi (ne_of_subject? h rfl)
  append _ _ hi := absurd hi (ne_of_subject? h rfl)
  modest := isReserved_of_subject? h
  binds := .inl (binds_of_subject? h id)

/-- A thread that is not over changes its record. -/
theorem runs_record {f : Thread → Thread} (hsubject : i.subject? = some (d.thr q)) (hprints : i.prints = [])
    (hended : s.thread.ended = false) (hstate : s.thread.state = .terminated → (f s.thread).state = .terminated)
    {Q : i.Answer → Part → World → Prop} (hQ : ∀ v, w.Next v → d.Holds q s v → d.Proper q s →
      (i.exec id v).2.thread? (d.thr q) = some (f s.thread) ∧ d.Proper q { s with thread := f s.thread } ∧
        (v.Next (i.exec id v).2 →
          Q (i.exec id v).1 (.share q { s with thread := f s.thread }) (i.exec id v).2)) :
    (d.pact E).Runs S id (.share q s) w (Op.perform i) Q X := by
  refine .perform fun v hv hk hnext => ?_
  obtain ⟨hholds, hproper, -⟩ := knows_holds hk
  obtain ⟨hthread, hproper', hQ⟩ := hQ v hv hholds hproper
  refine ⟨.share q { s with thread := f s.thread }, acts_share ?_ fun m σ h hc hq hs => ⟨h, ?_⟩, hQ hnext⟩
  · rw [hprints, List.append_nil]
  · subst hs
    have hown : d.Own id q (σ q) i := own_of_subject hsubject
    have hne (j : Instr) (hj : j.subject? = none) : i ≠ j := ne_of_subject? hsubject hj
    have hlocals {n x} (hn : (σ q).scope = some (n, x)) : (i.exec id v).2.scene.scopes[n]? = some x :=
      exec_locals id (hholds.scope hn) fun y z hi => absurd hi (hne _ rfl)
    refine hc.act_aside hq hv.sound hnext hown (fun cs => hne _ rfl) ⟨hthread, hlocals, fun ho => ?_⟩ hproper'
      (fun n => .inl) (fun o => .inl) (.inr ⟨hended, hstate⟩) rfl rfl
    obtain ⟨b, hb, hfed⟩ := hholds.line ho
    exact ⟨b, exec_buffer_of_ne id hb fun cs => hne _ rfl, hfed⟩

theorem thread?_modify {t} (h : v.thread? o = some t) (f : Thread → Thread) :
    (v.modifyThread o f).thread? o = some (f t) := by
  rw [thread?_modifyThread, if_pos rfl, h]
  rfl

/-- A thread that is not over goes to another stage. -/
theorem runs_setState {st : ThreadState} (hended : s.thread.ended = false)
    (hstate : s.thread.state = .terminated → st = .terminated)
    (hQ : ∀ v, w.Next v → Q () (.share q { s with thread := { s.thread with state := st } }) v) :
    (d.pact E).Runs S id (.share q s) w (Op.perform (.setState (d.thr q) st)) Q X := by
  refine runs_record (f := fun t => { t with state := st }) rfl rfl hended hstate fun v hv hholds hproper =>
    ⟨thread?_modify hholds.thread _, ?_, fun hnext => hQ _ (hv.trans hnext)⟩
  exact { hproper with
    cast := { hproper.cast with }
    settled := fun hover => absurd hover (by simp [hended])
    done := fun hover => absurd hover (by simp [hended]) }

/-- A failure of a thread is kept. If there is room for everything then no worker fails. -/
theorem runs_recordUncaught {e : Err} (hended : s.thread.ended = false)
    (hfails : q < d.workers → ¬ d.Roomy) {Q : Bytes → Part → World → Prop}
    (hQ : ∀ name v, w.Next v →
      Q name (.share q { s with thread := { s.thread with uncaught := s.thread.uncaught.or (some e) } }) v) :
    (d.pact E).Runs S id (.share q s) w (Op.perform (.recordUncaught (d.thr q) e)) Q X := by
  refine runs_record (f := fun t => { t with uncaught := t.uncaught.or (some e) }) rfl rfl hended (fun h => h)
    fun v hv hholds hproper => ⟨thread?_modify hholds.thread _, ?_, fun hnext => hQ _ _ (hv.trans hnext)⟩
  exact { hproper with
    cast := { hproper.cast with }
    well := fun hroom hq => absurd hroom (hfails hq)
    done := fun hover => absurd hover (by simp [hended]) }

/-- A thread is over. A worker that has not failed has added all its pieces then. -/
theorem runs_endThread (hended : s.thread.ended = false) (hstate : s.thread.state = .terminated)
    (hdone : s.thread.uncaught = none → q < d.workers → s.count = d.rounds)
    {Q : Except Panic Unit → Part → World → Prop}
    (hQ : ∀ v, w.Next v → Q (.ok ()) (.share q { s with thread := { s.thread with ended := true } }) v) :
    (d.pact E).Runs S id (.share q s) w (Op.perform (.endThread (d.thr q))) Q X := by
  refine runs_record (f := fun t => { t with ended := true }) rfl rfl hended (fun h => h) fun v hv hholds hproper => ?_
  have hexec : (endThread (d.thr q)).exec id v =
      (.ok (), v.modifyThread (d.thr q) fun t => { t with ended := true }) := by
    show v.attempt (v.endThread (d.thr q)) = _
    unfold World.endThread
    rw [hholds.thread]
    dsimp only
    rw [if_neg (by simp [hended])]
    rfl
  rw [hexec]
  refine ⟨thread?_modify hholds.thread _, ?_, fun hnext => hQ _ (hv.trans hnext)⟩
  exact { hproper with
    cast := { hproper.cast with }
    settled := fun _ => hstate
    done := fun _ => hdone }

/-! ## Variables and output -/

/-- A thread gets variables. -/
theorem runs_openScope {Q : ScopeId → Part → World → Prop}
    (hQ : ∀ n v, w.Next v → Q n (.share q { s with scope := some (n, e) }) v) :
    (d.pact E).Runs S id (.share q s) w (Op.perform (.openScope e)) Q X := by
  refine .perform fun v hv hk hnext => ?_
  obtain ⟨hholds, hproper, -⟩ := knows_holds hk
  refine ⟨.share q { s with scope := some (v.scene.scopes.size, e) }, acts_share ?_ fun m σ h hc hq hs => ⟨h, ?_⟩,
    hQ _ _ (hv.trans hnext)⟩
  · exact (List.append_nil _).symm
  · subst hs
    have hown : d.Own id q (σ q) (.openScope e) := ⟨nofun, nofun, nofun, rfl, .inl rfl⟩
    have hkept : d.Holds q (σ q) ((openScope e).exec id v).2 :=
      hholds.kept hv.sound hproper.cast.home_isSome nofun nofun nofun
    refine hc.act_aside hq hv.sound hnext hown nofun ⟨hkept.thread, fun hn => ?_, hkept.line⟩ { hproper with }
      (fun n hn => ?_) (fun o => .inl) (.inl rfl) rfl rfl
    · cases hn
      exact Array.getElem?_push_size
    · cases hn
      exact .inr (Nat.le_refl _)

/-- A thread binds one of its variables. -/
theorem runs_assign {n} (hscope : s.scope = some (n, e)) {x} (hx : isGlobalName x = false) {y}
    (hQ : ∀ v, w.Next v → Q () (.share q { s with scope := some (n, e.insert x y) }) v) :
    (d.pact E).Runs S id (.share q s) w (Op.edit (.assign (some n) x y)) Q X := by
  refine .perform fun v hv hk hnext => ?_
  obtain ⟨hholds, hproper, -⟩ := knows_holds hk
  refine ⟨.share q { s with scope := some (n, e.insert x y) }, acts_share ?_ fun m σ h hc hq hs => ⟨h, ?_⟩,
    hQ _ (hv.trans hnext)⟩
  · exact (List.append_nil _).symm
  · subst hs
    have hid : (σ q).scopeId = some n := congrArg (Option.map Prod.fst) hscope
    have hown : d.Own id q (σ q) (.edit (.assign (some n) x y)) := by
      refine ⟨nofun, fun scope x' y' hi => ?_, nofun, rfl, .inl rfl⟩
      cases hi
      exact ⟨hx, rfl, hid⟩
    refine hc.act_aside hq hv.sound hnext hown nofun ⟨hholds.thread, fun hn => ?_, hholds.line⟩ { hproper with }
      (fun k hk => ?_) (fun o => .inl) (.inl rfl) rfl rfl
    · cases hn
      show (v.scene.assign (some n) x y).scopes[n]? = _
      unfold Scene.assign
      dsimp only
      rw [hx, if_neg nofun]
      show (v.scene.scopes.modify n _)[n]? = _
      rw [Array.getElem?_modify, if_pos rfl, hholds.scope hscope]
      rfl
    · exact .inl (hid.trans hk)

/-- A thread prints something. -/
theorem runs_print {b} (hQ : ∀ v, w.Next v → Q () (.share q { s with shown := s.shown ++ [b] }) v) :
    (d.pact E).Runs S id (.share q s) w (Op.edit (.print b)) Q X := by
  refine .perform fun v hv hk hnext => ?_
  obtain ⟨hholds, hproper, -⟩ := knows_holds hk
  refine ⟨.share q { s with shown := s.shown ++ [b] }, acts_share rfl fun m σ h hc hq hs => ⟨h, ?_⟩,
    hQ _ (hv.trans hnext)⟩
  subst hs
  have hown : d.Own id q (σ q) (.edit (.print b)) := ⟨nofun, nofun, nofun, rfl, .inl rfl⟩
  exact hc.act_aside hq hv.sound hnext hown nofun ⟨hholds.thread, hholds.scope, hholds.line⟩ { hproper with }
    (fun n => .inl) (fun o => .inl) (.inl rfl) rfl rfl

/-! ## The line and the text -/

/-- A buffer is made if there is room for one. -/
theorem exec_newBuffer (id : TaskId) (hconfig : v.config d.home = d.config)
    (hroom : Memory.hasRoom d.config.initialCapacity Memory.characterSize) :
    ∃ u, (newBuffer d.home).exec id v = (.ok v.objects.size, u) ∧
      u.buffer? v.objects.size = some (some d.home, .empty d.config.initialCapacity) ∧
      u.objects.size = v.objects.size + 1 := by
  let p : Payload := .buffer (some d.home) (.empty d.config.initialCapacity)
  have hp (part : ObjId) : p ≠ .extended part := nofun
  have hnew : v.newBuffer d.home = .ok (v.create p (Builtin.bufferClass d.home)) := by
    unfold World.newBuffer
    rw [hconfig]
    exact if_pos hroom
  refine ⟨(v.create p (Builtin.bufferClass d.home)).2, ?_, ?_, ?_⟩
  · show v.attemptResult (v.newBuffer d.home) = _
    rw [hnew]
    rfl
  · rw [create_eq v hp]
    exact buffer?_eq_some.mpr ⟨_, Array.getElem?_push_size, rfl⟩
  · rw [create_eq v hp]
    exact Array.size_push _

/-- A thread begins a line. -/
theorem runs_newBuffer {Q : ObjId → Part → World → Prop}
    (hQ : ∀ o v, w.Next v → Q o (.share q { s with line := some (o, []) }) v) :
    (d.pact E).Runs S id (.share q s) w (Op.newBuffer (some d.home)) Q X := by
  refine .bind (.pure (.bind (.perform fun v hv hk hnext => ?_)))
  obtain ⟨hholds, hproper, hset, -⟩ := knows_holds hk
  obtain ⟨u, hexec, hbuffer, -⟩ := exec_newBuffer id hset.config hset.room
  refine ⟨.share q { s with line := some (v.objects.size, []) },
    acts_share ?_ fun m σ h hc hq hs => ⟨h, ?_⟩, ?_⟩
  · exact (List.append_nil _).symm
  · subst hs
    have hown : d.Own id q (σ q) (.newBuffer d.home) := ⟨nofun, nofun, nofun, rfl, .inl rfl⟩
    have hkept : d.Holds q (σ q) ((newBuffer d.home).exec id v).2 :=
      hholds.kept hv.sound hproper.cast.home_isSome nofun nofun nofun
    refine hc.act_aside hq hv.sound hnext hown nofun ⟨hkept.thread, hkept.scope, fun ho => ?_⟩ { hproper with }
      (fun n => .inl) (fun o ho => ?_) (.inl rfl) rfl rfl
    · cases ho
      rw [hexec]
      exact ⟨_, hbuffer, Buffer.fed_empty d.config⟩
    · cases ho
      exact .inr (Nat.le_refl _)
  · rw [hexec] at hnext ⊢
    exact .pure (hQ _ _ (hv.trans hnext))

/-- What an append to a buffer that was fed does. -/
theorem exec_append (id : TaskId) (hb : v.buffer? o = some (some d.home, b)) (hfed : b.Fed d.config xs)
    (hset : d.Set v) (cs : List Rune) : ((append o cs).exec id v).1 = .ok () ∧
      ∃ b', ((append o cs).exec id v).2.buffer? o = some (some d.home, b') ∧ b'.Fed d.config (xs ++ [cs]) := by
  refine ⟨?_, b.append d.config.growthLimit cs, ?_, hfed.append cs⟩
  · show (v.attempt (v.append o cs)).1 = _
    rw [append_eq hb]
    rfl
  · have hpieces : (append o cs).pieces o = [cs] := if_pos rfl
    rw [exec_buffer id hb, hpieces, hset.config]
    rfl

/-- A thread writes on in its line. -/
theorem runs_appendLine (hline : s.line = some (o, xs)) {cs}
    (hQ : ∀ v, w.Next v → Q () (.share q { s with line := some (o, xs ++ [cs]) }) v) :
    (d.pact E).Runs S id (.share q s) w (Op.append o cs) Q X := by
  refine .bind (.perform fun v hv hk hnext => ?_)
  obtain ⟨hholds, hproper, hset, -⟩ := knows_holds hk
  obtain ⟨b, hb, hfed⟩ := hholds.line hline
  obtain ⟨hok, b', hb', hfed'⟩ := exec_append id hb hfed hset cs
  refine ⟨.share q { s with line := some (o, xs ++ [cs]) }, acts_share ?_ fun m σ h hc hq hs => ⟨h, ?_⟩, ?_⟩
  · exact (List.append_nil _).symm
  · subst hs
    have hid : (σ q).lineId = some o := congrArg (Option.map Prod.fst) hline
    have hown : d.Own id q (σ q) (.append o cs) := by
      refine ⟨nofun, nofun, fun o' cs' hi => ?_, rfl, .inl rfl⟩
      cases hi
      exact .inr hid
    refine hc.act_aside hq hv.sound hnext hown (fun cs' hi => ?_) ⟨?_, fun hn => ?_, fun ho => ?_⟩ { hproper with }
      (fun n => .inl) (fun o' ho => .inl (hid.trans ho)) (.inl rfl) rfl rfl
    · cases hi
      exact hc.aside q hq hid
    · exact exec_thread (i := .append o cs) hv.sound hholds.thread hproper.cast.home_isSome nofun id
    · exact exec_locals (i := .append o cs) id (hholds.scope hn) nofun
    · cases ho
      exact ⟨b', hb', hfed'⟩
  · rw [hok]
    exact .pure (hQ _ (hv.trans hnext))

/-- **A worker adds its next piece to the text.** -/
theorem runs_contribute (hworker : q < d.workers) (hcount : s.count < d.rounds) (hended : s.thread.ended = false)
    (hQ : ∀ v, w.Next v → Q () (.share q { s with count := s.count + 1 }) v) :
    (d.pact E).Runs S id (.share q s) w (Op.append 0 (Utf8.decode (entry q s.count))) Q X := by
  refine .bind (.perform fun v hv hk hnext => ?_)
  obtain ⟨hholds, hproper, hset, -⟩ := knows_holds hk
  refine ⟨.share q { s with count := s.count + 1 },
    acts_share ?_ fun m σ h hc hq hs => ⟨h ++ [(q, s.count)], ?_⟩, ?_⟩
  · exact (List.append_nil _).symm
  · subst hs
    obtain ⟨b, hb, hfed⟩ := hc.text
    obtain ⟨-, b', hb', hfed'⟩ := exec_append id hb hfed hset (Utf8.decode (entry q (σ q).count))
    have hown : d.Own id q (σ q) (.append 0 (Utf8.decode (entry q (σ q).count))) := by
      refine ⟨nofun, nofun, fun o cs hi => ?_, rfl, .inl rfl⟩
      cases hi
      exact .inl rfl
    have hkept : d.Holds q (σ q) ((append 0 (Utf8.decode (entry q (σ q).count))).exec id v).2 := by
      refine hholds.kept hv.sound hproper.cast.home_isSome nofun nofun fun o cs ho hi => ?_
      cases hi
      exact hc.aside q hq ho
    have hcounts : counts m (Function.update σ q { σ q with count := (σ q).count + 1 }) =
        Function.update (counts m σ) q ((σ q).count + 1) := by
      funext p
      unfold counts
      by_cases hpq : p = q
      · subst hpq
        rw [Function.update_self, Function.update_self, if_pos hq]
      · rw [Function.update_of_ne hpq, Function.update_of_ne hpq]
    have hown' : counts m σ q = (σ q).count := if_pos hq
    refine hc.act (t := { σ q with count := (σ q).count + 1 }) hq hv.sound hnext hown
      ⟨hkept.thread, hkept.scope, hkept.line⟩ ?_ (fun n => .inl) (fun o => .inl) (.inl rfl) rfl ?_ ⟨b', hb', ?_⟩
    · exact { hproper with
        count_le := hcount
        idle := fun hle => absurd hworker (Nat.not_lt_of_le hle)
        done := fun hover => absurd hover (by simp [hended]) }
    · have hnext := hc.shuffle.append q
      rwa [hown', ← hcounts] at hnext
    · unfold entries at hfed' ⊢
      rwa [List.map_append]
  · obtain ⟨m, σ, h, hc, -⟩ := knows_share hk
    obtain ⟨b, hb, hfed⟩ := hc.text
    rw [(exec_append id hb hfed hset _).1]
    exact .pure (hQ _ (hv.trans hnext))

/-! ## Strings -/

theorem makeText_cases (v : World) (home : RuntimeId) (op : Bytes) (cs : CharSeq) :
    ((v.config home).exceeded? cs.length = none ∧
      v.makeText home op cs = .ok (v.create (.text home cs) (Builtin.textClass home))) ∨
    ((v.config home).exceeded? cs.length ≠ none ∧ ∃ f, v.makeText home op cs = .error f) := by
  unfold World.makeText CharSeq.bounded
  cases hlong : (v.config home).exceeded? cs.length with
  | none => exact .inl ⟨rfl, rfl⟩
  | some limit => exact .inr ⟨nofun, _, rfl⟩

/-- A string is made, unless it is too long. -/
theorem runs_makeText (ha : ∀ u, a ≠ .alone u) {op : Bytes} {cs} {Q : ObjId → Part → World → Prop}
    (hQ : ∀ o v, w.Next v → v.text? o = some (d.home, cs) → Q o a v)
    (hlong : ∀ f v, w.Next v → d.config.exceeded? cs.length ≠ none → X (.error (.fault f)) a v) :
    (d.pact E).Runs S id a w (Op.makeText (some d.home) op cs) Q X := by
  refine .bind (.pure (.bind (runs_quiet ha rfl rfl (.inl rfl) fun v hv hk hnext => ?_)))
  have hexec : (makeText d.home op cs).exec id v = v.attemptResult (v.makeText d.home op cs) := rfl
  have hconfig := (knows_set ha hk).config
  rw [hexec] at hnext ⊢
  rcases makeText_cases v d.home op cs with ⟨-, hmake⟩ | ⟨hexceeds, f, hmake⟩
  · rw [hmake] at hnext ⊢
    exact .pure (hQ _ _ (hv.trans hnext) (text_createText ..))
  · rw [hmake] at hnext ⊢
    rw [hconfig] at hexceeds
    exact .throw (hlong f _ (hv.trans hnext) hexceeds)

/-- The string of a literal that is not too long. -/
theorem runs_constant (ha : ∀ u, a ≠ .alone u) {literal}
    (hfits : d.config.exceeded? (Utf8.decode literal).length = none) {Q : ObjId → Part → World → Prop}
    (hQ : ∀ o v, w.Next v → v.text? o = some (d.home, .ofBytes literal) → Q o a v) :
    (d.pact E).Runs S id a w (Op.constant (some d.home) literal) Q X := by
  refine .bind (.pure (.bind (.observe fun v hv hk => ?_)))
  cases hconstant : v.constant? d.home literal with
  | some o => exact .pure (hQ o v hv (text?_of_constant? hv.sound hconstant))
  | none =>
    refine .bind (.result (runs_makeText ha (fun o u hu htext => ?_) fun f u _ hexceeds => absurd hfits hexceeds))
    refine runs_quiet ha rfl rfl (.inl rfl) fun u' hu' _ hnext => ?_
    refine hQ _ _ (((hv.trans hu).trans hu').trans hnext) ?_
    exact text?_shareConstant hu'.sound (text?_later hu'.later htext)

/-- What becomes of the text of a buffer that was fed: all of it, unless it is too long. -/
theorem exec_bufferText (id : TaskId) (hb : v.buffer? o = some (some d.home, b)) (hfed : b.Fed d.config xs)
    (hset : d.Set v) : (xs.flatten.length ≤ Buffer.bound d.config ∧ d.config.exceeded? xs.flatten.length = none ∧
      ∃ r u, (bufferText o).exec id v = (.ok r, u) ∧ u.text? r = some (d.home, .ofRunes xs.flatten)) ∨
    (¬ (xs.flatten.length ≤ Buffer.bound d.config ∧ d.config.exceeded? xs.flatten.length = none) ∧
      ∃ e, (bufferText o).exec id v = (.error (.error e), v)) := by
  show _ ∧ _ ∧ (∃ r u, v.attemptResult (v.bufferText o) = _ ∧ _) ∨
    _ ∧ ∃ e, v.attemptResult (v.bufferText o) = _
  have hiff := hfed.failure_eq_none_iff
  cases hfailure : b.failure with
  | some e =>
    rw [hfailure] at hiff
    refine .inr ⟨fun hfits => ?_, e, ?_⟩
    · cases hiff.mpr hfits.1
    · unfold World.bufferText
      rw [hb]
      simp only [hfailure]
      rfl
  | none =>
    have hchars := hfed.chars_eq hfailure
    have hbound := hiff.mp hfailure
    rw [bufferText_eq hb hfailure, hchars]
    rcases makeText_cases v d.home "StringBuffer.toString" (.ofRunes xs.flatten) with
      ⟨hfits, hmake⟩ | ⟨hexceeds, f, hmake⟩
    · rw [hset.config] at hfits
      rw [hmake]
      exact .inl ⟨hbound, hfits, _, _, rfl, text_createText ..⟩
    · rw [hset.config] at hexceeds
      rw [hmake]
      exact .inr ⟨fun hfits => hexceeds hfits.2, _, rfl⟩

/-- The text of the line of a thread. -/
theorem runs_lineText (hline : s.line = some (o, xs)) {Q : ObjId → Part → World → Prop}
    (hQ : ∀ r v, w.Next v → v.text? r = some (d.home, .ofRunes xs.flatten) → Q r (.share q s) v)
    (hlong : ∀ e v, w.Next v →
      ¬ (xs.flatten.length ≤ Buffer.bound d.config ∧ d.config.exceeded? xs.flatten.length = none) →
      X (.error e) (.share q s) v) : (d.pact E).Runs S id (.share q s) w (Op.bufferText o) Q X := by
  refine .bind (runs_quiet (a := .share q s) nofun rfl rfl (.inl rfl) fun v hv hk hnext => ?_)
  obtain ⟨hholds, -, hset, -⟩ := knows_holds hk
  obtain ⟨b, hb, hfed⟩ := hholds.line hline
  rcases exec_bufferText id hb hfed hset with ⟨-, -, r, u, hexec, htext⟩ | ⟨hexceeds, e, hexec⟩
  · rw [hexec] at hnext ⊢
    exact .pure (hQ r u (hv.trans hnext) htext)
  · rw [hexec] at hnext ⊢
    exact .throw (hlong e v hv hexceeds)

end ObjectKernel.Demo.Plan
