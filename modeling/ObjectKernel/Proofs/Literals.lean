import ObjectKernel.Proofs.NewTexts
import ObjectKernel.Proofs.Prompt

/-!
# Literals

A runtime shares one string for each literal. Asking for the string of a literal that is too long is a
defect of the program, with one exception: the text of null is shared in the same place and is exempt from
the limit, so that asking for the literal `null` is a defect only until null has been rendered.

## Contents

* `World.TooLong`, `World.Lent`: literals beyond the limit, and the one that is shared all the same.
* `World.constant?_later`, `World.constant_inj`: the string of a literal stays, and it is the string of no
  other literal.
* `Machine.literal_of_constant`: what a task is given that asks for the string of a literal.
-/

namespace ObjectKernel

namespace World

variable {w v : World} {r : RuntimeId} {literal literal' : Bytes} {o : ObjId}

/-- A literal has more characters than a runtime allows. -/
def TooLong (w : World) (r : RuntimeId) (literal : Bytes) : Prop :=
  0 < (w.config r).maxStringLength ∧ (w.config r).maxStringLength < (Utf8.decode literal).length

/-- A literal has a string that the rendering of null has left. -/
def Lent (w : World) (r : RuntimeId) (literal : Bytes) : Prop :=
  literal = nullLiteral ∧ (w.constant? r literal).isSome

theorem fits_iff_not_tooLong : w.Fits r (.ofBytes literal) ↔ ¬w.TooLong r literal := by
  have hlength : (CharSeq.ofBytes literal).length = (Utf8.decode literal).length := rfl
  unfold Fits TooLong
  rw [hlength]
  omega

/-! ## Shared strings -/

theorem constant?_later (h : w ≤ v) (ho : w.constant? r literal = some o) : v.constant? r literal = some o := by
  obtain ⟨rt, hrt, hc⟩ := Option.bind_eq_some_iff.mp ho
  obtain ⟨rt', hrt', hlasts⟩ := h.runtimes hrt
  exact Option.bind_eq_some_iff.mpr ⟨rt', hrt', hlasts.constant hc⟩

/-- Two literals that have one string are one literal. -/
theorem constant_inj (hs : w.Sound) (h : w.constant? r literal = some o) (h' : w.constant? r literal' = some o) :
    literal' = literal := by
  have htext := (text?_of_constant? hs h').symm.trans (text?_of_constant? hs h)
  exact congrArg (fun t => t.2.text) (Option.some.inj htext)

/-- The string of a literal is one of no other. -/
theorem constant_eq_iff (hs : w.Sound) (h : w.constant? r literal = some o) {o'}
    (h' : w.constant? r literal' = some o') : o' = o ↔ literal' = literal := by
  constructor
  · rintro rfl
    exact constant_inj hs h h'
  · rintro rfl
    exact Option.some.inj (h'.symm.trans h)

/-- The string that sharing answers is the one that is shared then. -/
theorem constant?_shareConstant (hr : w.Has r) (literal : Bytes) (o : ObjId) :
    (w.shareConstant r literal o).2.constant? r literal = some (w.shareConstant r literal o).1 := by
  unfold shareConstant
  split
  · assumption
  · obtain ⟨rt, hrt⟩ := hr
    refine Option.bind_eq_some_iff.mpr ⟨{ rt with constants := rt.constants.insert literal o }, ?_, ?_⟩
    · rw [runtime?_modifyRuntime, if_pos rfl, hrt]
      rfl
    · exact Dictionary.get?_insert_self ..

/-- A literal that is too long has a string only if it is that of null. -/
theorem eq_nullLiteral_of_constant? (hs : w.Sound) (hb : w.Bounded)
    (h : w.constant? r literal = some o) (hlong : w.TooLong r literal) : literal = nullLiteral := by
  rcases hb (text?_of_constant? hs h) with hfits | hnull
  · exact absurd hlong (fits_iff_not_tooLong.mp hfits)
  · exact congrArg CharSeq.text hnull

/-- What a new string for a literal comes to. -/
theorem makeText_literal (w : World) (r : RuntimeId) (op literal : Bytes) :
    (w.TooLong r literal ∧ ∃ f : Fault, f.kind = .overflow ∧ w.makeText r op (.ofBytes literal) = .error f) ∨
    (¬w.TooLong r literal ∧ w.makeText r op (.ofBytes literal) =
      .ok (w.create (.text r (.ofBytes literal)) (Builtin.textClass r))) := by
  rw [makeText_eq]
  split
  · rename_i hlong
    exact .inl ⟨hlong, _, rfl, rfl⟩
  · rename_i hfits
    exact .inr ⟨hfits, rfl⟩

end World

open World

/-! ## Asking for the string of a literal -/

namespace Op

/-- What is done about a literal that has no string. -/
def addConstant (r : RuntimeId) (literal : Bytes) (k : Except Err ObjId → Prog) : Prog :=
  .perform (.makeText r "String.<init>" (.ofBytes literal)) fun
    | .ok o => .perform (.shareConstant r literal o) fun o' => k (.ok o')
    | .error f => .finish (.panic (.error (.fault f)))

/-- A look-up of a literal, whose string is made and shared the first time. -/
theorem constant_eq (r : RuntimeId) (literal : Bytes) (k : Except Err ObjId → Prog) :
    constant (some r) literal k = .observe fun _ v =>
      match v.constant? r literal with
      | some o => k (.ok o)
      | none => addConstant r literal k := by
  refine Prog.observe_congr fun _ v => ?_
  dsimp only
  cases v.constant? r literal with
  | some o => rfl
  | none =>
    refine congrArg (Prog.perform _) (funext fun made => ?_)
    cases made <;> rfl

variable {w : World} {r : RuntimeId} {literal : Bytes} {next : Except Err ObjId → Prog}

/-- A literal that is too long makes the program panic. -/
theorem prompt_addConstant_tooLong (hs : w.Sound) (hr : w.Has r) (hlong : w.TooLong r literal) :
    (addConstant r literal next).Prompt Proceeds (fun _ => False)
      (fun _ p => ∃ e : Err, e.kind? = some .overflow ∧ p = .finish (.panic (.error e))) 1 w := by
  refine .perform fun t v hv => ?_
  replace hv := hv hs
  have hlong' : v.TooLong r literal := by
    unfold TooLong
    rwa [config_later hv.later hr]
  rcases v.makeText_literal r "String.<init>" literal with ⟨-, f, hkind, hmake⟩ | ⟨hfits, -⟩
  · have hexec : (Instr.makeText r "String.<init>" (.ofBytes literal)).exec t v = (.error f, v) := by
      show v.attemptResult _ = _
      rw [hmake]
      rfl
    rw [hexec]
    exact .there fun u _ => ⟨.fault f, congrArg some hkind, rfl⟩
  · exact absurd hlong' hfits

/-- Any other literal is given its string, which is shared then. -/
theorem prompt_addConstant (hs : w.Sound) (hr : w.Has r) (hfits : ¬w.TooLong r literal) :
    (addConstant r literal next).Prompt Proceeds (fun _ => False)
      (fun v p => ∃ o, p = next (.ok o) ∧ v.constant? r literal = some o) 2 w := by
  refine .perform fun t v hv => ?_
  replace hv := hv hs
  have hfits' : ¬v.TooLong r literal := by
    unfold TooLong
    rwa [config_later hv.later hr]
  have hr' := hr.later hv.later
  rcases v.makeText_literal r "String.<init>" literal with ⟨hlong, -⟩ | ⟨-, hmake⟩
  · exact absurd hlong hfits'
  · have hmade : v.Next (v.create (.text r (.ofBytes literal)) (Builtin.textClass r)).2 :=
      (calm_createText hv.sound hr' _).next
    have htext := text_createText v r (.ofBytes literal) (Builtin.textClass r)
    have hexec : (Instr.makeText r "String.<init>" (.ofBytes literal)).exec t v =
        (.ok (v.create (.text r (.ofBytes literal)) (Builtin.textClass r)).1,
          (v.create (.text r (.ofBytes literal)) (Builtin.textClass r)).2) := by
      show v.attemptResult _ = _
      rw [hmake]
      rfl
    rw [hexec]
    refine .perform fun t u hu => .there fun u' hu' => ⟨_, rfl, ?_⟩
    replace hu := hu hmade.sound
    have hshared := calm_shareConstant hu.sound (text?_later hu.later htext)
    exact constant?_later (hu' hshared.sound).later
      (constant?_shareConstant ((hr'.later hmade.later).later hu.later) literal _)

end Op

namespace Machine

variable {m n : Machine}

/-- **What a task is given that asks for the string of a literal.** Its first turn looks for the string.
If the literal is too long, it then panics with an overflow within one turn, unless the literal is that of
null and has a string. Otherwise it is given, within two turns, the string of the literal: one with the
text of the literal, which is shared under this literal, and under no other, from then on. None of these
turns has to wait. -/
theorem literal_of_constant (hm : m.Reachable) {r : RuntimeId} (hr : m.world.Has r) {i : Nat}
    {literal : Bytes} {next : Except Err ObjId → Prog} {fs : List Frame}
    (hat : m.At i (Op.constant (some r) literal next) fs) :
    ∃ m₁, m.take (.step i) = some m₁ ∧
      (m.world.TooLong r literal ∧ ¬m.world.Lent r literal →
        m₁.Attains i fs 1 (fun _ => False) fun _ p =>
          ∃ e : Err, e.kind? = some .overflow ∧ p = .finish (.panic (.error e))) ∧
      (¬(m.world.TooLong r literal ∧ ¬m.world.Lent r literal) →
        m₁.Attains i fs 2 (fun _ => False) fun q p =>
          ∃ o, p = next (.ok o) ∧ q.world.text? o = some (r, .ofBytes literal) ∧
            ∀ n, Run q n → n.world.constant? r literal = some o ∧
              ∀ literal' o', n.world.constant? r literal' = some o' → (o' = o ↔ literal' = literal)) := by
  rw [Op.constant_eq] at hat
  obtain ⟨id, m₁, htake, hworld, hgoes⟩ := take_observe hat
  have hm₁ := hm.take htake
  refine ⟨m₁, htake, ?_, ?_⟩
  · rintro ⟨hlong, hlent⟩
    have hnone : m.world.constant? r literal = none := by
      cases hc : m.world.constant? r literal with
      | none => rfl
      | some o =>
          have hnull := eq_nullLiteral_of_constant? hm.sound hm.bounded hc hlong
          exact absurd ⟨hnull, by rw [hc]; rfl⟩ hlent
    rw [hnone] at hgoes
    rw [← hworld] at hr hlong
    exact attains_of_prompt interference_proceeds (fun h hτ => h.proceeds hτ) hm₁ hgoes
      (Op.prompt_addConstant_tooLong hm₁.sound hr hlong)
  · intro hgiven
    have hprompt : (match m.world.constant? r literal with
        | some o => next (.ok o)
        | none => Op.addConstant r literal next).Prompt Proceeds (fun _ => False)
          (fun v p => ∃ o, p = next (.ok o) ∧ v.constant? r literal = some o) 2 m₁.world := by
      cases hc : m.world.constant? r literal with
      | some o =>
          rw [← hworld] at hc
          exact .there fun v hv => ⟨o, rfl, constant?_later (hv hm₁.sound).later hc⟩
      | none =>
          have hfits : ¬m.world.TooLong r literal := by
            refine fun hlong => hgiven ⟨hlong, fun hlent => ?_⟩
            have hsome := hlent.2
            rw [hc] at hsome
            cases hsome
          rw [← hworld] at hr hfits
          exact Op.prompt_addConstant hm₁.sound hr hfits
    have hattains :=
      attains_of_prompt interference_proceeds (fun h hτ => h.proceeds hτ) hm₁ hgoes hprompt
    -- What is shared at the point is shared from then on.
    refine hattains.imp fun {q p} hrun hpoint => ?_
    obtain ⟨o, rfl, hshared⟩ := hpoint
    have hq := hm₁.run hrun
    refine ⟨o, rfl, text?_of_constant? hq.sound hshared, fun n hn => ?_⟩
    have hlast := constant?_later (hq.le hn) hshared
    exact ⟨hlast, fun literal' o' => constant_eq_iff (hq.run hn).sound hlast⟩

/-! ### The literal null under a limit of three characters -/

/-- Settings under which a string has at most three characters. -/
def brief : Config := { maxStringLength := 3 }

/-- What a task does with a string that it asked for: nothing. -/
def ignore : Except Err ObjId → Prog
  | .ok _ => .finish (.value .null)
  | .error e => .finish (.error e)

/-- A task that asks for the string of the literal null, and one that renders null. -/
def quoting : Machine where
  world := World.single brief 2
  tasks := #[{ id := 0, prog := Op.constant (some 0) nullLiteral ignore },
    { id := 1, prog := Op.renderObject (some 0) none ignore }]

theorem initial_quoting : quoting.Initial := by
  have hignore {x : Op ObjId} (hx : Op.Lawful [.home (some 0)] x) : Launchable (x ignore) :=
    launchable_run hx fun r => by cases r <;> exact ⟨_, rfl⟩
  have hquote := hignore (x := Op.constant (some 0) nullLiteral) inferInstance
  have hrender := hignore (x := Op.renderObject (some 0) none) inferInstance
  exact initial_launch

/-- The machine once the task that asks has had its turns. -/
def quoted : Machine := quoting.after (fun _ _ => true) (List.replicate 2 (.step 0))

/-- The machine once null has been rendered. -/
def nullRendered : Machine := quoting.after (fun _ _ => true) (List.replicate 3 (.step 1))

/-- The machine once the task that asks has had its turns after that. -/
def nullQuoted : Machine := nullRendered.after (fun _ _ => true) [.step 0]

theorem trace_nullRendered : Trace (fun _ _ => True) quoting (List.replicate 3 (.step 1)) nullRendered :=
  follow_trace (fun _ => trivial) (follow_eq_after (by decide +kernel))

theorem literal_of_constant_lent : nullRendered.Reachable ∧ nullRendered.world.Has 0 ∧
    nullRendered.world.TooLong 0 nullLiteral ∧
    nullRendered.At 0 (Op.constant (some 0) nullLiteral ignore) [] ∧
    ∃ m₁, nullRendered.take (.step 0) = some m₁ ∧
      m₁.Attains 0 [] 2 (fun _ => False) fun q p =>
        ∃ o, p = ignore (.ok o) ∧ q.world.text? o = some (0, .ofBytes nullLiteral) := by
  have hreach := initial_quoting.reachable.run trace_nullRendered.run
  have hhas : nullRendered.world.Has 0 := ⟨_, rfl⟩
  have hlong : nullRendered.world.TooLong 0 nullLiteral := by
    constructor <;> decide +kernel
  have hlent : nullRendered.world.Lent 0 nullLiteral := ⟨rfl, by decide +kernel⟩
  have hat : nullRendered.At 0 (Op.constant (some 0) nullLiteral ignore) [] := ⟨_, rfl, rfl, rfl⟩
  obtain ⟨m₁, htake, -, hgiven⟩ := literal_of_constant hreach hhas hat
  refine ⟨hreach, hhas, hlong, hat, m₁, htake, ?_⟩
  refine (hgiven fun h => h.2 hlent).imp fun {q p} _ hpoint => ?_
  obtain ⟨o, rfl, htext, -⟩ := hpoint
  exact ⟨o, rfl, htext⟩

/-- The same call panics in one run and is answered in another: whether the literal null can be asked for
depends on whether null was rendered before. -/
theorem literal_null_depends_on_history : quoting.Reachable ∧
    quoting.At 0 (Op.constant (some 0) nullLiteral ignore) [] ∧
    Run quoting quoted ∧ (∃ p, quoted.outcome? 0 = some (.panic p)) ∧
    Run quoting nullQuoted ∧ nullQuoted.outcome? 0 = some (.value .null) := by
  have hfirst : Trace (fun _ _ => True) quoting (List.replicate 2 (.step 0)) quoted :=
    follow_trace (fun _ => trivial) (follow_eq_after (by decide +kernel))
  have hsecond : Trace (fun _ _ => True) nullRendered [.step 0] nullQuoted :=
    follow_trace (fun _ => trivial) (follow_eq_after (by decide +kernel))
  exact ⟨initial_quoting.reachable, ⟨_, rfl, rfl, rfl⟩, hfirst.run, ⟨_, rfl⟩,
    (trace_nullRendered.append hsecond).run, by decide +kernel⟩

end Machine

end ObjectKernel
