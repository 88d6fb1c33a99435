import ObjectKernel.Proofs.CourseRuns
import ObjectKernel.Proofs.Rendering

/-!
# Runs of a call to its return

What a program ensures under interference it has done by the time that it comes to its end. A call by
selector is taken apart: the look-up, the call, what is called from its beginning to its end, and the
return.

## Contents

* `Trace.own_turn`, `Trace.returned`, `Trace.idle`: turns of a task in a run.
* `Machine.ensures_return`: what a program has done when it returns.
* `Machine.dispatch_entry`, `Machine.dispatch_run`: a call by selector.
-/

namespace ObjectKernel

variable {id : TaskId} {w v : World} {expired : Bool} {q : Prog} {gs fs : List Frame}

/-- What a turn above a level does: it returns from the frame next to the level, or it stays above. -/
theorem Goes.returns_or_stays {p fs' f} (h : Goes id w expired p (gs ++ f :: fs) v q fs') :
    (∃ out, p = .finish out ∧ gs = [] ∧ q = f.resume out ∧ fs' = fs) ∨
      ((∀ out, p = .finish out → gs ≠ []) ∧ ∃ gs', fs' = gs' ++ f :: fs) := by
  by_cases hp : ∃ out, p = .finish out
  · obtain ⟨out, rfl⟩ := hp
    cases gs with
    | nil =>
      cases h
      exact .inl ⟨out, rfl, rfl, rfl, rfl⟩
    | cons g gs =>
      cases h
      exact .inr ⟨fun _ _ => List.cons_ne_nil g gs, gs, rfl⟩
  · obtain ⟨hs, rfl⟩ := h.frames fun out hout => hp ⟨out, hout⟩
    exact .inr ⟨fun out hout => absurd ⟨out, hout⟩ hp, hs ++ gs, (List.append_assoc ..).symm⟩

theorem Goes.observed {f} (h : Goes id w expired (.observe f) fs v q gs) : v = w ∧ q = f id w ∧ gs = fs := by
  cases h
  exact ⟨rfl, rfl, rfl⟩

theorem Goes.calls {a k} (h : Goes id w expired (.call a k) fs v q gs) : q = a.program ∧ gs = .caller k :: fs := by
  cases h
  exact ⟨rfl, rfl⟩

namespace Machine

variable {P : Machine → Turn → Prop} {m n : Machine} {τs : List Turn} {i : Nat} {fs : List Frame} {p : Prog}
  {τ : Turn} {out : Outcome} {f : Frame} {α : Type}

/-! ## Turns of a task -/

theorem At.of_ne (h : m.At i p fs) (hτ : m.take τ = some n) (hi : τ.task ≠ i) : n.At i p fs := by
  obtain ⟨t, ht, hp, hf⟩ := h
  exact ⟨t, task_of_ne hτ hi ht, hp, hf⟩

theorem At.of_trace_ne (h : m.At i p fs) (hrun : Trace (fun _ τ => τ.task ≠ i) m τs n) : n.At i p fs := by
  obtain ⟨t, ht, hp, hf⟩ := h
  exact ⟨t, hrun.task_of_ne ht, hp, hf⟩

/-- A task that does not stay where it stands has a turn there, after turns of other tasks only. -/
theorem Trace.own_turn (h : Trace P m τs n) (hat : m.At i p fs) (hn : ¬ n.At i p fs) :
    ∃ τs₁ τ τs₂ q q', τs = τs₁ ++ τ :: τs₂ ∧ Trace (fun m τ => P m τ ∧ τ.task ≠ i) m τs₁ q ∧
      q.At i p fs ∧ τ.task = i ∧ P q τ ∧ q.take τ = some q' ∧ Trace P q' τs₂ n := by
  induction h with
  | refl => exact absurd hat hn
  | @cons m n p τ τs meets move rest ih =>
    by_cases hi : τ.task = i
    · exact ⟨[], τ, τs, m, n, rfl, .refl m, hat, hi, meets, move, rest⟩
    · obtain ⟨τs₁, τ', τs₂, q, q', rfl, hothers, hrest⟩ := ih (hat.of_ne move hi) hn
      exact ⟨τ :: τs₁, τ', τs₂, q, q', rfl, .cons ⟨meets, hi⟩ move hothers, hrest⟩

/-- A task that has come to the end of a level and does not return has no turn. -/
theorem Trace.idle (h : Trace (Unreturned i fs) m τs n) (hat : m.At i (.finish out) fs) :
    Trace (fun _ τ => τ.task ≠ i) m τs n := by
  induction h with
  | refl => exact .refl _
  | @cons m n p τ τs meets move rest ih =>
    have hi : τ.task ≠ i := fun hi => meets hi out hat
    exact .cons hi move (ih (hat.of_ne move hi))

/-- In a run a task comes to the end of what runs above a level, and returns to the level from there. -/
def Returns (P : Machine → Turn → Prop) (i : Nat) (f : Frame) (fs : List Frame) (m : Machine)
    (τs : List Turn) (n : Machine) : Prop :=
  ∃ τs₁ τ τs₂ r r' out, τs = τs₁ ++ τ :: τs₂ ∧
    Trace (fun m τ => P m τ ∧ m.Unreturned i (f :: fs) τ) m τs₁ r ∧ r.At i (.finish out) (f :: fs) ∧
    τ.task = i ∧ r.take τ = some r' ∧ r'.At i (f.resume out) fs ∧ Trace P r' τs₂ n

theorem Returns.cons {q} (h : Returns P i f fs m τs n) (meets : P q τ) (hnot : q.Unreturned i (f :: fs) τ)
    (move : q.take τ = some m) : Returns P i f fs q (τ :: τs) n := by
  obtain ⟨τs₁, τ', τs₂, r, r', out, rfl, hbefore, hrest⟩ := h
  exact ⟨τ :: τs₁, τ', τs₂, r, r', out, rfl, .cons ⟨meets, hnot⟩ move hbefore, hrest⟩

/-- **A task that is above a level and has come to it has returned.** -/
theorem Trace.returns (h : Trace P m τs n) (hat : m.At i p (gs ++ f :: fs)) (hn : n.At i q fs) :
    Returns P i f fs m τs n := by
  induction h generalizing p gs with
  | refl =>
    have hlen := congrArg List.length (at_unique hat hn).2
    rw [List.length_append, List.length_cons] at hlen
    omega
  | @cons m n _ τ τs meets move rest ih =>
    by_cases hi : τ.task = i
    · subst hi
      rcases goes_of_take move hat with ⟨id, p', gs', hgo, hat'⟩ | ⟨o, k, rfl, hat'⟩
      · rcases Goes.returns_or_stays hgo with ⟨out, rfl, rfl, rfl, rfl⟩ | ⟨hnot, gs'', rfl⟩
        · exact ⟨[], τ, τs, m, n, out, rfl, .refl m, hat, rfl, move, hat', rest⟩
        · refine (ih hat' hn).cons meets (fun _ out hout => ?_) move
          obtain ⟨hp, hframes⟩ := at_unique hat hout
          exact hnot out hp (List.append_left_eq_self.mp hframes)
      · refine (ih hat' hn).cons meets (fun _ out hout => ?_) move
        cases (at_unique hat hout).1
    · exact (ih (hat.of_ne move hi) hn).cons meets (fun h => absurd h hi) move

/-! ## Records -/

theorem Trace.record_append (f : Machine → Turn → List α) (h : Trace P m τs n) (τs' : List Turn) :
    m.record f (τs ++ τs') = m.record f τs ++ n.record f τs' := by
  induction h with
  | refl => rfl
  | cons _ move _ ih => rw [List.cons_append, record_cons _ move, record_cons _ move, ih, List.append_assoc]

theorem Trace.record_eq_nil {f : Machine → Turn → List α} (hf : ∀ {m τ}, P m τ → f m τ = []) (h : Trace P m τs n) :
    m.record f τs = [] := by
  induction h with
  | refl => rfl
  | cons meets move _ ih => rw [record_cons _ move, hf meets, ih, List.append_nil]

/-! ## Calls -/

/-- **What a program has done when it returns**, if what it ensures is an end. -/
theorem ensures_return {R : World → World → Prop} {E : List Event → World → Prog → Prop} (hR : Interference R)
    (hE : ∀ {es v p}, E es v p → ∃ out, p = .finish out)
    (henv : ∀ {m n : Machine} {τ : Turn}, m.Reachable → m.take τ = some n → R m.world n.world) (hm : m.Reachable)
    (hcall : m.At i p fs) (hp : p.Ensures R E [] m.world) (hrun : Trace (Unreturned i fs) m τs n)
    (hreturn : n.At i (.finish out) fs) :
    ∃ v, v ≤ n.world ∧ E (m.record (events i fs.length) τs) v (.finish out) := by
  obtain ⟨τs₁, τs₂, q, rfl, hfirst, hrest, p', hat, hpoint⟩ :=
    ensures_trace hR (fun hm hu hτ => ⟨hu, fun _ => henv hm hτ⟩) hm hcall hp hrun hreturn
  obtain ⟨out', rfl⟩ := hE hpoint
  have hidle := hrest.idle hat
  cases (at_unique (hat.of_trace_ne hidle) hreturn).1
  have hnone : q.record (events i fs.length) τs₂ = [] :=
    hidle.record_eq_nil fun hi => events_of_ne hi ..
  refine ⟨q.world, (hm.run hfirst.run).le hrest.run, ?_⟩
  rw [hfirst.record_append, hnone, List.append_nil]
  exact hpoint

theorem events_at (h : m.At τ.task p fs) (d : Nat) : m.events τ.task d τ = Task.events ⟨0, p, fs⟩ d := by
  obtain ⟨⟨id, prog, frames⟩, ht, rfl, rfl⟩ := h
  exact events_self ht d

section

variable {b : ObjId} {c owner : Class} {s : Selector} {meth : Method} {args : List Value}
  {home : Option RuntimeId} {k : Except Err Value → Prog}

/-- **A call by selector enters the method that is found**: the class is looked up, and the method is called.
Nothing is done at its level before. -/
theorem dispatch_entry (hm : m.Reachable) (hcls : m.world.classOf? b = some c)
    (found : c.find? s = some (owner, meth)) (arity : (args.length : Int) = meth.arity)
    (hcall : m.At i (Op.dispatch home (some b) s args k) fs) (hrun : Trace P m τs n)
    (hn : ∀ {p}, n.At i p fs → ∃ out, p = .finish out) :
    ∃ τs₁ τs₂ p, τs = τs₁ ++ τs₂ ∧ Trace (fun _ _ => True) m τs₁ p ∧
      p.At i (Activation.code meth.code (some b) args).program (.caller k :: fs) ∧ Trace P p τs₂ n ∧
      m.record (events i (fs.length + 1)) τs₁ = [] := by
  rw [Op.dispatch_eq] at hcall
  obtain ⟨τs₁, τ₁, τs₂, q₁, q₁', rfl, hothers₁, hat₁, rfl, -, hτ₁, hrest₁⟩ :=
    hrun.own_turn hcall fun hat => by cases (hn hat).choose_spec
  have hle : m.world ≤ q₁.world := hm.le hothers₁.run
  have hlooked : q₁'.At τ₁.task (.call (.code meth.code (some b) args) k) fs := by
    rcases goes_of_take hτ₁ hat₁ with ⟨id, q, gs, hgo, hat⟩ | ⟨o, k', hspawn, -⟩
    · obtain ⟨-, rfl, rfl⟩ := hgo.observed
      rw [World.classOf?_later hle hcls] at hat
      dsimp only at hat
      rwa [Op.invokeFrom_call _ _ _ found arity] at hat
    · cases hspawn
  obtain ⟨τs₃, τ₂, τs₄, q₂, q₂', rfl, hothers₂, hat₂, htask, -, hτ₂, hrest₂⟩ :=
    hrest₁.own_turn hlooked fun hat => by cases (hn hat).choose_spec
  have hcalled : q₂'.At τ₁.task (Activation.code meth.code (some b) args).program (.caller k :: fs) := by
    rw [← htask] at hat₂ ⊢
    rcases goes_of_take hτ₂ hat₂ with ⟨id, q, gs, hgo, hat⟩ | ⟨o, k', hspawn, -⟩
    · obtain ⟨rfl, rfl⟩ := hgo.calls
      exact hat
    · cases hspawn
  have hbefore : Trace (fun _ _ => True) m (τs₁ ++ τ₁ :: (τs₃ ++ [τ₂])) q₂' := by
    have hlast : Trace (fun _ _ => True) q₁' (τs₃ ++ [τ₂]) q₂' :=
      (hothers₂.imp fun _ => trivial).append (.cons trivial hτ₂ (.refl _))
    exact (hothers₁.imp fun _ => trivial).append (.cons trivial hτ₁ hlast)
  refine ⟨τs₁ ++ τ₁ :: (τs₃ ++ [τ₂]), τs₄, q₂', by simp, hbefore, hcalled, hrest₂, ?_⟩
  have hnone₁ : m.record (events τ₁.task (fs.length + 1)) τs₁ = [] :=
    hothers₁.record_eq_nil fun h => events_of_ne h.2 ..
  have hnone₂ : q₁'.record (events τ₁.task (fs.length + 1)) τs₃ = [] :=
    hothers₂.record_eq_nil fun h => events_of_ne h.2 ..
  have hcalls : q₂.events τ₁.task (fs.length + 1) τ₂ = [] := by
    rw [← htask] at hat₂ ⊢
    rw [events_at hat₂]
    exact if_neg (Nat.ne_of_lt (Nat.lt_succ_self _))
  rw [hothers₁.record_append, hnone₁, record_cons _ hτ₁, events_at hat₁, hothers₂.record_append, hnone₂,
    record_cons _ hτ₂, hcalls]
  rfl

/-- **A call by selector**: the method that is found runs to its end, and nothing is done at its level
before or after. -/
theorem dispatch_run (hm : m.Reachable) (hcls : m.world.classOf? b = some c) (found : c.find? s = some (owner, meth))
    (arity : (args.length : Int) = meth.arity) (hk : ∀ r, ∃ out, k r = .finish out)
    (hcall : m.At i (Op.dispatch home (some b) s args k) fs) (hrun : Trace (Unreturned i fs) m τs n)
    (hreturn : n.At i (.finish out) fs) :
    ∃ τs₁ τs₂ τs₃ p r out', τs = τs₁ ++ (τs₂ ++ τs₃) ∧ Trace (fun _ _ => True) m τs₁ p ∧
      p.At i (Activation.code meth.code (some b) args).program (.caller k :: fs) ∧
      Trace (Unreturned i (.caller k :: fs)) p τs₂ r ∧ r.At i (.finish out') (.caller k :: fs) ∧
      Trace (fun _ _ => True) r τs₃ n ∧
      m.record (events i (fs.length + 1)) τs₁ = [] ∧ r.record (events i (fs.length + 1)) τs₃ = [] := by
  obtain ⟨τs₁, τs₂, p, rfl, hbefore, hcalled, hrest, hnone⟩ :=
    dispatch_entry hm hcls found arity hcall hrun fun hat => ⟨out, (at_unique hat hreturn).1⟩
  -- The method runs to its end, and the task has returned.
  obtain ⟨τs₃, τ, τs₄, r, r', out', rfl, hbody, hend, rfl, hτ, hback, hlast⟩ :=
    hrest.returns (show p.At i _ ([] ++ .caller k :: fs) from hcalled) hreturn
  obtain ⟨out'', hfinish⟩ : ∃ out'', (Frame.caller k).resume out' = .finish out'' := by
    cases out' with
    | value v => exact hk (.ok v)
    | error e => exact hk (.error e)
    | panic p => exact ⟨_, rfl⟩
  rw [hfinish] at hback
  have hidle := hlast.idle hback
  refine ⟨τs₁, τs₃, τ :: τs₄, p, r, out', rfl, hbefore, hcalled, hbody.imp And.right, hend,
    .cons trivial hτ (hlast.imp fun _ => trivial), hnone, ?_⟩
  have hreturns : r.events τ.task (fs.length + 1) τ = [] := by
    rw [events_at hend]
    exact if_neg (by rw [List.length_cons]; omega)
  rw [record_cons _ hτ, hreturns, hidle.record_eq_nil fun hi => events_of_ne hi ..]
  rfl

end

end Machine

end ObjectKernel
