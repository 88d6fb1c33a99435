import ObjectKernel.Proofs.LastingThreads
import ObjectKernel.Proofs.Results

/-!
# How programs end

A program may end in a value, an error or a panic, and what it calls may too. This module follows a program through all
runs in which it comes to its end: other tasks have turns whenever they like, and what is called runs on frames of its
own. Nothing is said about programs that never end.

An operation is described by the errors and panics that it can stop with and by what holds of its result. Panics of what
it calls pass through it, and errors do unless it looks at them, so that what can stop a call can stop the operation that
makes it.

## Contents

* `Prog.Ends`: a program ends only in certain ways. `ends_finish`, `ends_observe`, `ends_perform`, `ends_await`,
  `ends_call`, `ends_spawn`: by its next step.
* `Outcome.Only`: the outcomes with certain errors and panics only.
* `Op.Raises`: what an operation can stop with, and its result. `Op.Raises.bind` and its like: how operations are put
  together. `Op.Raises.ends`: an operation as a program.
-/

namespace ObjectKernel

/-- The outcomes that are an error or a panic only as `A` says. -/
def Outcome.Only (A : Stop → Prop) : Outcome → Prop
  | .value _ => True
  | .error e => A (.error e)
  | .panic p => A (.panic p)

theorem Outcome.Only.imp {A B : Stop → Prop} (hAB : ∀ s, A s → B s) {o : Outcome} (h : o.Only A) : o.Only B := by
  cases o with
  | value => trivial
  | error e => exact hAB _ h
  | panic p => exact hAB _ h

/-- A program that ends only as `F` says, once the world follows `w`, in the runs in which the world is as `G` says before
every turn. -/
def Prog.Ends (G : World → Prop) (F : World → Outcome → Prop) (w : World) (p : Prog) : Prop :=
  ∀ ⦃m n : Machine⦄ ⦃i : Nat⦄ ⦃fs : List Frame⦄ ⦃τs : List Turn⦄ ⦃out : Outcome⦄, m.Reachable →
    w.Follows m.world → m.At i p fs → Machine.Trace (fun m τ => G m.world ∧ m.Unreturned i fs τ) m τs n →
    n.At i (.finish out) fs → F n.world out

/-- A machine that a program may come upon: its world follows one that the program has seen, and is as `G` says. -/
structure Machine.Met (G : World → Prop) (w : World) (m : Machine) : Prop where
  reachable : m.Reachable
  follows : w.Follows m.world
  holds : G m.world

theorem Goes.awaited {id w v expired c bound k q fs gs} (h : Goes id w expired (.await c bound k) fs v q gs) :
    ∃ b, q = k b ∧ gs = fs := by
  cases h with
  | await => exact ⟨true, rfl, rfl⟩
  | expire => exact ⟨false, rfl, rfl⟩

/-- What holds in the beginning and is kept holds before every turn of a run. -/
theorem Machine.Reachable.trace_keeping {I : World → Prop} (hI : ∀ {w v : World}, w.Follows v → I w → I v)
    {P : Machine → Turn → Prop} {m n : Machine} {τs} (hm : m.Reachable) (h : I m.world) (hrun : Trace P m τs n) :
    Trace (fun m τ => I m.world ∧ P m τ) m τs n := by
  induction hrun with
  | refl m => exact .refl m
  | cons meets move _ ih => exact .cons ⟨h, meets⟩ move (ih (hm.take move) (hI (hm.follows_take move) h))

section

variable {G : World → Prop} {F : World → Outcome → Prop} {w v : World} {p : Prog}

open Machine

theorem Prog.Ends.later (h : p.Ends G F w) (hv : w.Follows v) : p.Ends G F v :=
  fun _ _ _ _ _ _ hm hw => h hm (hv.trans hw)

theorem Prog.Ends.imp {G' : World → Prop} {F' : World → Outcome → Prop} (h : p.Ends G F w) (hG : ∀ v, G' v → G v)
    (hF : ∀ v o, F v o → F' v o) : p.Ends G' F' w :=
  fun _ _ _ _ _ _ hm hw hat hrun hreturn =>
    hF _ _ (h hm hw hat (hrun.imp fun hturn => ⟨hG _ hturn.1, hturn.2⟩) hreturn)

/-! ## The next step of a program -/

theorem ends_finish {o} (h : ∀ v, w.Follows v → F v o) : (Prog.finish o).Ends G F w := by
  intro m n i fs τs out hm hw hat hrun hreturn
  -- A program that has ended has no turn any more.
  have hidle : Trace (fun _ τ => τ.task ≠ i) m τs n := Trace.idle (hrun.imp And.right) hat
  cases (at_unique (hat.of_trace_ne hidle) hreturn).1
  exact h _ (hw.trans (hm.follows hrun))

/-- A program that has not ended takes its next step at its level, and its end is that of what follows. -/
theorem ends_of_turn (hp : ∀ o, p ≠ .finish o)
    (next : ∀ {m n : Machine} {fs : List Frame} {τ : Turn}, m.Met G w → m.At τ.task p fs →
      m.take τ = some n → m.world.Follows n.world → ∃ q, n.At τ.task q fs ∧ q.Ends G F n.world) : p.Ends G F w := by
  intro m n i fs τs out hm hw hat hrun hreturn
  -- The program is not at its end yet, so one of the turns is its own. Until then others have had theirs.
  obtain ⟨τs₁, τ, τs₂, q, q', -, hothers, hthere, rfl, ⟨hholds, -⟩, hτ, hrest⟩ :=
    hrun.own_turn hat fun hn => hp out (at_unique hn hreturn).1
  have hq : q.Reachable := hm.run hothers.run
  obtain ⟨r, hr, hends⟩ :=
    next ⟨hq, hw.trans (hm.follows hothers), hholds⟩ hthere hτ (hq.follows_take hτ)
  exact hends (hq.take hτ) (.refl _) hr hrest hreturn

theorem ends_observe {f} (next : ∀ t {m : Machine}, m.Met G w → (f t m.world).Ends G F m.world) :
    (Prog.observe f).Ends G F w := by
  refine ends_of_turn (fun _ => nofun) ?_
  intro m n fs τ hmet hat hτ _
  rcases goes_of_take hτ hat with ⟨id, q, gs, hgo, hq⟩ | ⟨o, k, hspawn, -⟩
  · obtain ⟨hworld, rfl, rfl⟩ := hgo.observed
    rw [hworld]
    exact ⟨_, hq, next id hmet⟩
  · cases hspawn

theorem ends_perform {i : Instr} {k} (next : ∀ t {m : Machine}, m.Met G w → m.world.Follows (i.exec t m.world).2 →
      (k (i.exec t m.world).1).Ends G F (i.exec t m.world).2) : (Prog.perform i k).Ends G F w := by
  refine ends_of_turn (fun _ => nofun) ?_
  intro m n fs τ hmet hat hτ hfollows
  rcases goes_of_take hτ hat with ⟨id, q, gs, hgo, hq⟩ | ⟨o, k', hspawn, -⟩
  · obtain ⟨hworld, rfl, rfl⟩ := hgo.performed
    rw [hworld] at hfollows ⊢
    exact ⟨_, hq, next id hmet hfollows⟩
  · cases hspawn

theorem ends_await {c : Condition} {bound : Option Expiry} {k}
    (next : ∀ b {m : Machine}, m.Met G w → (k b).Ends G F m.world) : (Prog.await c bound k).Ends G F w := by
  refine ends_of_turn (fun _ => nofun) ?_
  intro m n fs τ hmet hat hτ hfollows
  rcases goes_of_take hτ hat with ⟨id, q, gs, hgo, hq⟩ | ⟨o, k', hspawn, -⟩
  · obtain ⟨b, rfl, rfl⟩ := hgo.awaited
    exact ⟨_, hq, (next b hmet).later hfollows⟩
  · cases hspawn

theorem ends_spawn {o : ObjId} {k : Prog} (next : ∀ {m : Machine}, m.Met G w → k.Ends G F m.world) :
    (Prog.spawn o k).Ends G F w := by
  refine ends_of_turn (fun _ => nofun) ?_
  intro m n fs τ hmet hat hτ hfollows
  rcases goes_of_take hτ hat with ⟨id, q, gs, hgo, hq⟩ | ⟨o', k', hspawn, hq⟩
  · generalize τ.isExpiry = expired at hgo
    cases hgo
  · cases hspawn
    exact ⟨k, hq, (next hmet).later hfollows⟩

/-- **A call**: what is called ends as `H` says, and the caller goes on from there. -/
theorem ends_call {H : World → Outcome → Prop} {a : Activation} {k}
    (callee : ∀ {m : Machine}, m.Met G w → a.program.Ends G H m.world)
    (next : ∀ {v : World} o, w.Follows v → H v o → ((Frame.caller k).resume o).Ends G F v) :
    (Prog.call a k).Ends G F w := by
  intro m n i fs τs out hm hw hat hrun hreturn
  obtain ⟨τs₁, τ, τs₂, q, q', -, hothers, hthere, rfl, ⟨hholds, -⟩, hτ, hrest⟩ :=
    hrun.own_turn hat fun hn => by cases (at_unique hn hreturn).1
  have hq : q.Reachable := hm.run hothers.run
  have hwq : w.Follows q.world := hw.trans (hm.follows hothers)
  have hcalled : q'.At τ.task a.program ([] ++ .caller k :: fs) := by
    rcases goes_of_take hτ hthere with ⟨id, r, gs, hgo, hr⟩ | ⟨o, k', hspawn, -⟩
    · obtain ⟨rfl, rfl⟩ := hgo.calls
      exact hr
    · cases hspawn
  -- What was called has run to its end, and the task has returned to the caller.
  obtain ⟨τs₃, τ', τs₄, r, r', out', rfl, hbody, hend, hτ'i, hτ', hback, htail⟩ :=
    hrest.returns hcalled hreturn
  have hq' : q'.Reachable := hq.take hτ
  have hr : r.Reachable := hq'.run hbody.run
  have hqr : q.world.Follows r.world := (hq.follows_take hτ).trans (hq'.follows hbody)
  have hout : H r.world out' := callee ⟨hq, hwq, hholds⟩ hq' (hq.follows_take hτ) hcalled
    (hbody.imp fun hturn => ⟨hturn.1.1, hturn.2⟩) hend
  exact next out' (hwq.trans hqr) hout (hr.take hτ') (hr.follows_take hτ') hback htail hreturn

end

/-! ## Operations -/

/-- An operation that raises errors and panics only as `A` says, and whose result, if it comes to one, is as `Q` says. -/
def Op.Raises {α : Type} (G : World → Prop) (A : Stop → Prop) (w : World) (x : Op α) (Q : World → α → Prop) : Prop :=
  ∀ ⦃F : World → Outcome → Prop⦄ ⦃k : Except Err α → Prog⦄, (∀ v p, A (.panic p) → F v (.panic p)) →
    (∀ v a, w.Follows v → Q v a → (k (.ok a)).Ends G F v) →
    (∀ v e, w.Follows v → A (.error e) → (k (.error e)).Ends G F v) → (x k).Ends G F w

namespace Op.Raises

variable {α β : Type} {G : World → Prop} {A : Stop → Prop} {w v : World} {x : Op α} {Q : World → α → Prop}
  {Q' : World → β → Prop}

open Machine

theorem imp {Q' : World → α → Prop} (h : x.Raises G A w Q) (hQ : ∀ v a, w.Follows v → Q v a → Q' v a) :
    x.Raises G A w Q' :=
  fun _ _ hA hok => h hA fun v a hv ha => hok v a hv (hQ v a hv ha)

theorem pure {a} (h : Q w a) : (Pure.pure a : Op α).Raises G A w Q :=
  fun _ _ _ hok _ => hok w a (.refl w) h

theorem throw {e} (h : A (.error e)) : (MonadExcept.throw e : Op α).Raises G A w Q :=
  fun _ _ _ _ herror => herror w e (.refl w) h

theorem fault {f} (h : A (.error (.fault f))) : (Op.fault f : Op α).Raises G A w Q := throw h

theorem panic {p} (h : A (.panic p)) : (Op.panic p : Op α).Raises G A w Q :=
  fun _ _ hA _ _ => ends_finish fun v _ => hA v p h

/-- **One operation after the other.** -/
theorem bind {f} (hx : x.Raises G A w Q) (hf : ∀ v a, w.Follows v → Q v a → (f a).Raises G A v Q') :
    (x >>= f).Raises G A w Q' := by
  intro F k hA hok herror
  refine hx hA (fun v a hv ha => ?_) herror
  exact hf v a hv ha hA (fun u b hu => hok u b (hv.trans hu)) fun u e hu => herror u e (hv.trans hu)

theorem observe_bind {view : World → α} {f : α → Op β}
    (h : ∀ {m : Machine}, m.Met G w → (f (view m.world)).Raises G A m.world Q') :
    (observe view >>= f).Raises G A w Q' := by
  intro F k hA hok herror
  refine ends_observe fun _ m hm => ?_
  exact h hm hA (fun v b hv => hok v b (hm.follows.trans hv)) fun v e hv => herror v e (hm.follows.trans hv)

theorem perform {i : Instr} {Q : World → i.Answer → Prop}
    (h : ∀ t {m : Machine}, m.Met G w → m.world.Follows (i.exec t m.world).2 →
      Q (i.exec t m.world).2 (i.exec t m.world).1) : (Op.perform i).Raises G A w Q := by
  intro F k hA hok herror
  refine ends_perform fun t m hm hfollows => ?_
  exact hok _ _ (hm.follows.trans hfollows) (h t hm hfollows)

theorem await (c : Condition) (bound : Option Expiry) : (Op.await c bound).Raises G A w fun _ _ => True := by
  intro F k hA hok herror
  exact ends_await fun b m hm => hok m.world b hm.follows trivial

theorem spawn (o : ObjId) : (Op.spawn o).Raises G A w fun _ _ => True := by
  intro F k hA hok herror
  exact ends_spawn fun hm => hok _ () hm.follows trivial

/-- A call raises what stops what it calls. -/
theorem call {a : Activation}
    (callee : ∀ {m : Machine}, m.Met G w → a.program.Ends G (fun _ => Outcome.Only A) m.world) :
    (Op.call a).Raises G A w fun _ _ => True := by
  intro F k hA hok herror
  refine ends_call callee fun {v} o hv ho => ?_
  cases o with
  | value b => exact hok v b hv trivial
  | error e => exact herror v e hv ho
  | panic p => exact ends_finish fun u _ => hA u p ho

theorem ofFault {r} (h : ∀ a, r = .ok a → Q w a) (hA : ∀ f, r = .error f → A (.error (.fault f))) :
    (Op.ofFault r).Raises G A w Q := by
  cases r with
  | ok a => exact pure (h a rfl)
  | error f => exact fault (hA f rfl)

theorem ofPanic {r} (h : ∀ a, r = .ok a → Q w a) (hA : ∀ p, r = .error p → A (.panic p)) :
    (Op.ofPanic r).Raises G A w Q := by
  cases r with
  | ok a => exact pure (h a rfl)
  | error p => exact panic (hA p rfl)

/-- An error of an operation becomes part of its result. -/
theorem result (h : x.Raises G A w Q) : (Op.result x).Raises G A w fun v r => ∀ a, r = .ok a → Q v a := by
  intro F k hA hok herror
  refine h hA (fun v a hv ha => ?_) fun v e hv _ => ?_
  · apply hok v (.ok a) hv
    rintro _ ⟨⟩
    exact ha
  · exact hok v (.error e) hv nofun

/-- **An operation as a program** ends in a value or in what stops the operation. -/
theorem ends {x : Op Value} {Q : World → Value → Prop} (h : x.Raises G A w Q) :
    x.toProg.Ends G (fun _ => Outcome.Only A) w := by
  refine h (fun _ p hp => hp) (fun v a hv ha => ?_) fun v e hv he => ?_
  · exact ends_finish fun _ _ => trivial
  · exact ends_finish fun _ _ => he

end Op.Raises

end ObjectKernel
