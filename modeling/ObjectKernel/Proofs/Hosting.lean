import ObjectKernel.Proofs.Bindings
import ObjectKernel.Proofs.Inheritance

/-!
# What the task of a thread does

The task of a thread binds itself, calls `run()` on the outermost object, files and reports what escapes
from it, unbinds itself, and marks the thread as terminated and over, in this order and whatever `run()`
does. The code of `run()` is above the outermost two levels of the task's frames, so that what the task
does at these two levels tells the whole story.

## Contents

* `Prog.conduct`: what a task does at its outermost two levels.
* `Apart`: code that runs within `run()`. `Goes.above`: a turn above given frames.
* `Ran`, `Filed`, `Concluded`: how `run()` went, what was done about it, and the whole story.
* `Hosted`: where the task of a thread stands, by what it has done so far. `Hosted.goes`: its turns.
-/

namespace ObjectKernel

open Op

variable {gs : List Frame}

/-! ## The outermost two levels -/

/-- What the next turn of a program does at the outermost two levels. -/
def Prog.conduct (fs : List Frame) : Prog → List Event
  | .perform i _ => if fs.length ≤ 1 then [.performed i] else []
  | .call a _ => if fs.length = 1 then [.called a] else []
  | .finish out => if fs.length = 2 then [.returned out] else []
  | _ => []

/-- What a turn does at the outermost two levels of a task. -/
def Machine.conduct (j : Nat) (m : Machine) (τ : Turn) : List Event :=
  match m.tasks[j]? with
  | some t => if τ.task = j then t.prog.conduct t.frames else []
  | none => []

namespace Machine

variable {m n : Machine} {τ : Turn} {j : Nat}

theorem conduct_of_ne (h : τ.task ≠ j) (m : Machine) : m.conduct j τ = [] := by
  unfold conduct
  split
  · exact if_neg h
  · rfl

theorem conduct_self {t} (ht : m.tasks[τ.task]? = some t) : m.conduct τ.task τ = t.prog.conduct t.frames := by
  unfold conduct
  rw [ht]
  exact if_pos rfl

theorem conduct_of_size_le (h : m.tasks.size ≤ j) (τ : Turn) : m.conduct j τ = [] := by
  unfold conduct
  rw [Array.getElem?_eq_none h]

end Machine

/-! ## Code within `run()` -/

/-- Code that runs in a call from `run()`, with frames above that call: it is lawful for anybody. -/
inductive Apart (w : World) : Prog → List Frame → Prop where
  | free {p : Prog} {fs : List Frame} (lawful : p.Lawful none w) (frames : Frames none w fs) :
      Apart w p fs
  | starting {x : ObjId} {p q : Prog} {phase : Phase} {fs : List Frame} (point : Starts x q phase p)
      (lawful : ∀ v, w.Next v → q.Lawful none v) (frames : Frames none w fs) : Apart w p fs

namespace Apart

variable {w v : World} {p q : Prog} {fs gs : List Frame}

theorem later (h : w ≤ v) (ha : Apart w p fs) : Apart v p fs := by
  cases ha with
  | free lawful frames => exact .free (lawful.later h) (frames.later h)
  | starting point lawful frames =>
    exact .starting point (fun u hu => lawful u (.of_le h hu)) (frames.later h)

theorem goes (hs : w.Sound) (hle : w ≤ v) (h : Apart w p fs) {id expired} (hgo : Goes id w expired p fs v q gs) :
    Apart v q gs := by
  cases h with
  | free lawful frames =>
    rcases lawful.goes hs frames hgo with ⟨-, -, hlaw, hframes⟩ |
      ⟨o, p', -, -, -, -, rfl, hlaw, rfl⟩ | ⟨x, out, -, hown, -⟩
    · exact .free hlaw hframes
    · exact .starting .marking (fun u hu => hlaw u (.of_le hle hu)) (frames.later hle)
    · cases hown
  | starting point lawful frames =>
    have hlaw : ∀ u, v.Next u → _ := fun u hu => lawful u (.of_le hle hu)
    cases point with
    | marking =>
      cases hgo
      exact .starting .enrolling hlaw (frames.later hle)
    | enrolling =>
      cases hgo
      exact .starting .launching hlaw (frames.later hle)
    | launching => cases hgo

theorem spawn (hs : w.Sound) {x} (h : Apart w (.spawn x p) fs) : Apart w p fs := by
  cases h with
  | free lawful frames => cases lawful
  | starting point lawful frames =>
    cases point with
    | launching => exact .free (lawful w (.refl hs)) frames

/-- Such code is not the task of a thread. -/
theorem hosts?_eq {i : Instr} {k} (h : Apart w (.perform i k) fs) : i.hosts? = none := by
  cases h with
  | free lawful frames =>
    cases lawful with
    | perform allowed next =>
      cases i with
      | recordUncaught o e => cases allowed
      | bindTask | unbindTask | endThread => exact allowed.elim
      | _ => rfl
    | start => rfl
  | starting point lawful frames => cases point <;> rfl

end Apart

/-- A turn above the outermost two levels does nothing there, unless it returns to them. -/
theorem Prog.conduct_above (p : Prog) (hp : gs ≠ [] ∨ ∀ out, p ≠ .finish out) (f g : Frame) :
    p.conduct (gs ++ [f, g]) = [] := by
  have hlength : (gs ++ [f, g]).length = gs.length + 2 := List.length_append
  unfold Prog.conduct
  split
  · exact if_neg (by omega)
  · exact if_neg (by omega)
  · refine if_neg fun h => ?_
    rcases hp with hne | hnot
    · exact hne (List.eq_nil_of_length_eq_zero (by omega))
    · exact hnot _ rfl
  · rfl

/-- A turn above given frames leaves these alone. -/
theorem Goes.above {id w v expired p q fs fs'} (h : Goes id w expired p (gs ++ fs) v q fs')
    (hp : gs ≠ [] ∨ ∀ out, p ≠ .finish out) : ∃ gs', fs' = gs' ++ fs ∧ Goes id w expired p gs v q gs' := by
  cases gs with
  | cons g gs =>
    cases h with
    | resume out => exact ⟨gs, rfl, .resume out g gs⟩
    | observe f => exact ⟨g :: gs, rfl, .observe f (g :: gs)⟩
    | perform i k => exact ⟨g :: gs, rfl, .perform i k (g :: gs)⟩
    | await holds bound k => exact ⟨g :: gs, rfl, .await holds bound k (g :: gs)⟩
    | expire c e k => exact ⟨g :: gs, rfl, .expire c e k (g :: gs)⟩
    | call a k => exact ⟨.caller k :: g :: gs, rfl, .call a k (g :: gs)⟩
    | guard body k => exact ⟨.guard k :: g :: gs, rfl, .guard q k (g :: gs)⟩
    | pause k => exact ⟨g :: gs, rfl, .pause q (g :: gs)⟩
  | nil =>
    cases h with
    | resume out => exact absurd rfl ((hp.resolve_left fun h => h rfl) out)
    | observe f => exact ⟨[], rfl, .observe f []⟩
    | perform i k => exact ⟨[], rfl, .perform i k []⟩
    | await holds bound k => exact ⟨[], rfl, .await holds bound k []⟩
    | expire c e k => exact ⟨[], rfl, .expire c e k []⟩
    | call a k => exact ⟨[.caller k], rfl, .call a k []⟩
    | guard body k => exact ⟨[.guard k], rfl, .guard q k []⟩
    | pause k => exact ⟨[], rfl, .pause q []⟩

/-! ## Outcomes and what is done about them -/

/-- The failure that an outcome of `run()` is. -/
def Outcome.failure : Outcome → Option Err
  | .value _ => none
  | .error e => some e
  | .panic p => some (panicError p)

/-- The report of a failure. -/
def failureReport (name : Bytes) (e : Err) : Bytes :=
  "Exception in thread " ++ Quoted.text name ++ " " ++ e.message

namespace Filing

/-- Writes the report of a failure. -/
def writing (home : RuntimeId) (text : Bytes) (stack : Bool) (rest : Prog) : Prog :=
  .perform (.writeError home text stack) fun _ => rest

/-- Looks where the report goes. -/
def looking (o : ObjId) (e : Err) (stack : Bool) (rest : Prog) (name : Bytes) : Prog :=
  .observe fun _ w =>
    match ((w.thread? o).getD {}).home with
    | some home => writing home (failureReport name e) stack rest
    | none => .finish (.panic (.defect .nullDereference))

/-- Files a failure and reports it, and then goes on. -/
def filing (o : ObjId) (e : Err) (stack : Bool) (rest : Prog) : Prog :=
  .perform (.recordUncaught o e) (looking o e stack rest)

end Filing

/-- What follows the call of `run()`: an error that escapes it is filed. -/
def afterRun (o : ObjId) : Except Err Value → Prog
  | .ok _ => .finish (.value .null)
  | .error e => Filing.filing o e false (.finish (.value .null))

theorem body_eq (o : ObjId) (t : Thread) :
    (Run.body o t).toProgUnit = dispatch t.home t.self Selector.run [] (afterRun o) := by
  refine (toProgUnit_eq _).trans ?_
  refine congrArg (dispatch t.home t.self Selector.run []) (funext fun r => ?_)
  cases r with
  | ok v => rfl
  | error e =>
    refine congrArg (Prog.perform (.recordUncaught o e)) (funext fun name => ?_)
    refine Prog.observe_congr fun _ w => ?_
    dsimp only
    cases ((w.thread? o).getD {}).home <;> rfl

namespace Outcome

/-- Whether an outcome is a panic, which is filed after the guard of `run()`. -/
def isPanic : Outcome → Bool
  | .panic _ => true
  | .value _ | .error _ => false

/-- The frames with which a failure is filed. -/
def level (o : ObjId) (out : Outcome) : List Frame := if out.isPanic then [] else [.guard (Run.leaving o)]

/-- What follows when a failure is filed. -/
def rest (o : ObjId) (out : Outcome) : Prog :=
  if out.isPanic then Run.unbinding o else .finish (.value .null)

theorem length_level (o : ObjId) (out : Outcome) : (out.level o).length ≤ 1 := by
  unfold level
  split <;> simp

end Outcome

/-! ## The story of a thread -/

/-- How the call of `run()` on an object of a class went: the body that the class has for it was called
and had an outcome, or there was none to call, which is an error. -/
inductive Ran (self : ObjId) (c : Class) : List Event → Outcome → Prop where
  | called {d : Class} {code : Code} (found : c.resolve Selector.run = some (d, 0, code)) (out : Outcome) :
      Ran self c [.called (.code code (some self) []), .returned out] out
  | refused (lacks : ∀ d code, c.resolve Selector.run ≠ some (d, 0, code)) (e : Err) :
      Ran self c [] (.error e)

/-- What was done about an outcome of `run()`: a failure was filed and reported once, and if there was
none then nothing. -/
inductive Filed (o : ObjId) (home : RuntimeId) (out : Outcome) : List Event → Prop where
  | nothing (none : out.failure = none) : Filed o home out []
  | failure {e : Err} (some : out.failure = some e) (name : Bytes) :
      Filed o home out [.performed (.recordUncaught o e),
        .performed (.writeError home (failureReport name e) out.isPanic)]

/-- What the task of a thread does before `run()`. -/
def beginnings (o : ObjId) : List Event := [.performed (.bindTask o), .performed (.setState o .runnable)]

/-- What the task of a thread does at last. -/
def endings (o : ObjId) : List Event :=
  [.performed (.unbindTask o), .performed (.setState o .terminated), .performed (.endThread o)]

/-- The whole story of the task of a thread, with the outcome of `run()`. -/
def Concluded (o : ObjId) (home : RuntimeId) (self : ObjId) (c : Class) (es : List Event)
    (out : Outcome) : Prop :=
  ∃ ran filed, Ran self c ran out ∧ Filed o home out filed ∧
    es = beginnings o ++ ran ++ filed ++ endings o

section

variable (o : ObjId) (home : RuntimeId) (self : ObjId) (c : Class)

/-- Where the task of a thread stands, by what it has done at its outermost two levels. -/
inductive Hosted (w : World) : List Event → Prog → List Frame → Prop where
  | entering : Hosted w [] (Activation.thread o).program []
  | binding {t : Thread} (inHome : t.home = some home) (onSelf : t.self = some self) :
      Hosted w [] (Run.binding o t) []
  | hosting {t : Thread} (inHome : t.home = some home) (onSelf : t.self = some self) :
      Hosted w [.performed (.bindTask o)] (Run.hosting o t) []
  | beginning {t : Thread} (inHome : t.home = some home) (onSelf : t.self = some self) :
      Hosted w [.performed (.bindTask o)] (Run.beginning o t) [.guard (Run.leaving o)]
  | looking : Hosted w (beginnings o)
      (dispatch (some home) (some self) Selector.run [] (afterRun o)) [.guard (Run.leaving o)]
  | calling {d : Class} {code : Code} (found : c.resolve Selector.run = some (d, 0, code)) :
      Hosted w (beginnings o) (.call (.code code (some self) []) (afterRun o)) [.guard (Run.leaving o)]
  | lacking (lacks : ∀ d code, c.resolve Selector.run ≠ some (d, 0, code)) (e : World → Err) :
      Hosted w (beginnings o) (.observe fun _ v => afterRun o (.error (e v))) [.guard (Run.leaving o)]
  | running {d : Class} {code : Code} (found : c.resolve Selector.run = some (d, 0, code)) {p : Prog}
      {gs : List Frame} (apart : Apart w p gs) :
      Hosted w (beginnings o ++ [.called (.code code (some self) [])]) p
        (gs ++ [.caller (afterRun o), .guard (Run.leaving o)])
  | filing {ran : List Event} {out : Outcome} (hran : Ran self c ran out) {e : Err}
      (failure : out.failure = some e) :
      Hosted w (beginnings o ++ ran) (Filing.filing o e out.isPanic (out.rest o)) (out.level o)
  | reporting {ran : List Event} {out : Outcome} (hran : Ran self c ran out) {e : Err}
      (failure : out.failure = some e) (name : Bytes) :
      Hosted w (beginnings o ++ ran ++ [.performed (.recordUncaught o e)])
        (Filing.looking o e out.isPanic (out.rest o) name) (out.level o)
  | writing {ran : List Event} {out : Outcome} (hran : Ran self c ran out) {e : Err}
      (failure : out.failure = some e) (name : Bytes) :
      Hosted w (beginnings o ++ ran ++ [.performed (.recordUncaught o e)])
        (Filing.writing home (failureReport name e) out.isPanic (out.rest o)) (out.level o)
  | settled {ran filed : List Event} {out : Outcome} (hran : Ran self c ran out)
      (hfiled : Filed o home out filed) :
      Hosted w (beginnings o ++ ran ++ filed) (.finish (.value .null)) [.guard (Run.leaving o)]
  | panicking {ran : List Event} {p : Panic} (hran : Ran self c ran (.panic p)) :
      Hosted w (beginnings o ++ ran) (.finish (.panic p)) [.guard (Run.leaving o)]
  | unbinding {ran filed : List Event} {out : Outcome} (hran : Ran self c ran out)
      (hfiled : Filed o home out filed) : Hosted w (beginnings o ++ ran ++ filed) (Run.unbinding o) []
  | terminating {ran filed : List Event} {out : Outcome} (hran : Ran self c ran out)
      (hfiled : Filed o home out filed) :
      Hosted w (beginnings o ++ ran ++ filed ++ [.performed (.unbindTask o)]) (Run.terminating o) []
  | closing {ran filed : List Event} {out : Outcome} (hran : Ran self c ran out)
      (hfiled : Filed o home out filed) :
      Hosted w (beginnings o ++ ran ++ filed ++
        [.performed (.unbindTask o), .performed (.setState o .terminated)]) (Run.closing o) []

end

namespace Hosted

variable {o self : ObjId} {home : RuntimeId} {c : Class} {w v : World} {es ran : List Event} {p q : Prog}
  {fs gs : List Frame} {e : Err}

theorem later (hle : w ≤ v) (h : Hosted o home self c w es p fs) : Hosted o home self c v es p fs := by
  cases h with
  | entering => exact .entering
  | binding inHome onSelf => exact .binding inHome onSelf
  | hosting inHome onSelf => exact .hosting inHome onSelf
  | beginning inHome onSelf => exact .beginning inHome onSelf
  | looking => exact .looking
  | calling found => exact .calling found
  | lacking lacks e => exact .lacking lacks e
  | running found apart => exact .running found (apart.later hle)
  | filing hran failure => exact .filing hran failure
  | reporting hran failure name => exact .reporting hran failure name
  | writing hran failure name => exact .writing hran failure name
  | settled hran hfiled => exact .settled hran hfiled
  | panicking hran => exact .panicking hran
  | unbinding hran hfiled => exact .unbinding hran hfiled
  | terminating hran hfiled => exact .terminating hran hfiled
  | closing hran hfiled => exact .closing hran hfiled

/-- An error of `run()` is filed before the guard is left. -/
theorem filing_error (hran : Ran self c ran (.error e)) :
    Hosted o home self c w (beginnings o ++ ran) (afterRun o (.error e)) [.guard (Run.leaving o)] :=
  .filing hran rfl

/-- What the look-up of `run()` leads to. -/
theorem of_answers (h : Answers self [] (afterRun o) (c.resolve Selector.run) p) :
    Hosted o home self c w (beginnings o) p [.guard (Run.leaving o)] := by
  generalize hfound : c.resolve Selector.run = found at h
  cases h with
  | runs takes =>
    subst takes
    exact .calling hfound
  | @wrongArity d arity code e differs kind =>
    have hran : Ran self c [] (.error e) := .refused (fun d' code' h => by
      cases hfound.symm.trans h
      exact differs rfl) e
    have hfiling : Hosted o home self c w (beginnings o ++ []) (afterRun o (.error e)) _ :=
      filing_error hran
    rwa [List.append_nil] at hfiling
  | noMethod kind =>
    refine .lacking (fun d code h => ?_) _
    cases hfound.symm.trans h

/-- What an outcome of `run()` leads to. -/
theorem of_outcome {d code} (found : c.resolve Selector.run = some (d, 0, code)) (out : Outcome) :
    Hosted o home self c w (beginnings o ++ [.called (.code code (some self) [])] ++ [.returned out])
      ((Frame.caller (afterRun o)).resume out) [.guard (Run.leaving o)] := by
  have hran : Ran self c [.called (.code code (some self) []), .returned out] out := .called found out
  rw [List.append_assoc]
  cases out with
  | value x =>
    have hfiled : Filed o home (.value x) [] := .nothing rfl
    have hsettled := Hosted.settled (w := w) hran hfiled
    rwa [List.append_nil] at hsettled
  | error e => exact filing_error hran
  | panic p => exact .panicking hran

/-- What follows when a failure is filed and reported. -/
theorem of_filed {out} (hran : Ran self c ran out) (failure : out.failure = some e) (name : Bytes) :
    Hosted o home self c w (beginnings o ++ ran ++ [.performed (.recordUncaught o e)] ++
        [.performed (.writeError home (failureReport name e) out.isPanic)]) (out.rest o) (out.level o) := by
  have hfiled : Filed o home out _ := .failure failure name
  rw [List.append_assoc]
  unfold Outcome.rest Outcome.level
  by_cases hpanic : out.isPanic
  · rw [if_pos hpanic, if_pos hpanic]
    exact .unbinding hran hfiled
  · rw [if_neg hpanic, if_neg hpanic]
    exact .settled hran hfiled

/-- A turn that does nothing at the outermost two levels adds nothing to the story. -/
theorem of_quiet {es'} (hquiet : es' = []) (h : Hosted o home self c w es p fs) :
    Hosted o home self c w (es ++ es') p fs := by
  rw [hquiet, List.append_nil]
  exact h

/-- **A turn of the task of a thread** leads to where its story goes on, unless it is the last one. -/
theorem goes (hs : w.Sound) {failure} (hr : w.Records o home self failure) (hc : w.classOf? self = some c)
    (hcall : ∀ {a k}, p = .call a k → a.Allowed w) (hle : w ≤ v) (h : Hosted o home self c w es p fs)
    (hlast : ∀ k, p ≠ .perform (.endThread o) k) {id expired} (hgo : Goes id w expired p fs v q gs) :
    Hosted o home self c v (es ++ p.conduct fs) q gs := by
  obtain ⟨t, ht, hhome, hself, -⟩ := hr
  cases h with
  | entering =>
    rw [Run.program_eq] at hgo ⊢
    cases hgo
    refine .of_quiet rfl (.binding ?_ ?_)
    · rw [ht]
      exact hhome
    · rw [ht]
      exact hself
  | binding inHome onSelf =>
    cases hgo
    exact .hosting inHome onSelf
  | hosting inHome onSelf =>
    cases hgo
    exact .of_quiet rfl (.beginning inHome onSelf)
  | beginning inHome onSelf =>
    cases hgo
    rw [body_eq, inHome, onSelf]
    exact .looking
  | looking =>
    rw [dispatch_eq] at hgo ⊢
    cases hgo
    dsimp only
    rw [hc]
    exact .of_quiet rfl (.of_answers (answers_invokeFrom home c Selector.run self [] (afterRun o)))
  | calling found =>
    have hallowed := hcall rfl
    cases hgo
    have hapart : Apart w _ [] := .free (lawful_activation hs hallowed) .base
    exact .running found hapart
  | lacking lacks e =>
    cases hgo
    exact filing_error (.refused lacks _)
  | @running d code found p gs₀ apart =>
    by_cases hreturn : gs₀ = [] ∧ ∃ out, p = .finish out
    · -- The body that was called returns.
      obtain ⟨rfl, out, rfl⟩ := hreturn
      cases hgo
      exact of_outcome found out
    · have habove : gs₀ ≠ [] ∨ ∀ out, p ≠ .finish out := by
        by_cases hnil : gs₀ = []
        · exact .inr fun out hout => hreturn ⟨hnil, out, hout⟩
        · exact .inl hnil
      obtain ⟨gs', rfl, hgo'⟩ := hgo.above habove
      exact .of_quiet (p.conduct_above habove _ _) (.running found (apart.goes hs hle hgo'))
  | filing hran hfailure =>
    cases hgo
    rw [Filing.filing, Prog.conduct, if_pos (Outcome.length_level ..)]
    exact .reporting hran hfailure _
  | reporting hran hfailure name =>
    cases hgo
    dsimp only
    rw [ht, Option.getD_some, hhome]
    exact .of_quiet rfl (.writing hran hfailure name)
  | writing hran hfailure name =>
    cases hgo
    rw [Filing.writing, Prog.conduct, if_pos (Outcome.length_level ..)]
    exact of_filed hran hfailure name
  | settled hran hfiled =>
    cases hgo
    exact .of_quiet rfl (.unbinding hran hfiled)
  | panicking hran =>
    cases hgo
    exact .of_quiet rfl (.filing hran rfl)
  | unbinding hran hfiled =>
    cases hgo
    exact .terminating hran hfiled
  | terminating hran hfiled =>
    cases hgo
    rw [List.append_assoc]
    exact .closing hran hfiled
  | closing => exact absurd rfl (hlast _)

end Hosted

end ObjectKernel
