import ObjectKernel.Proofs.Bindings

/-!
# What an instruction leaves as it was

An instruction changes the thread that it is about, the variables that it assigns and the list that it adds
to, and no others. So what a task holds for itself stays as it is, whatever other tasks do elsewhere.

## Contents

* `Instr.subject?`, `Instr.exec_thread`: threads.
* `Instr.exec_locals`, `Instr.exec_globals`: variables.
* `Instr.exec_started`: the started threads of a runtime. `Instr.exec_globalRuntime`: the shared runtime.
-/

namespace ObjectKernel

open World

variable {i : Instr} {d : Dictionary Name Value} {w : World} {n : ScopeId}

/-! ## Threads -/

/-- The thread that an instruction changes. -/
def Instr.subject? : Instr → Option ObjId
  | .reserveStart o | .setState o _ | .recordUncaught o _ | .endThread o | .rename o _ => some o
  | _ => none

/-- **A thread that was initialised is changed only by what is about it.** -/
theorem Instr.exec_thread (hs : w.Sound) {o t} (ht : w.thread? o = some t) (hhome : t.home.isSome)
    (hi : i.subject? ≠ some o) (task : TaskId) : (i.exec task w).2.thread? o = some t := by
  rcases (i.effect task w).thread_of_some ht with hsame | ⟨f, hf, -⟩
  · exact hsame
  · cases hf with
    | reshapes reshapes => cases reshapes <;> exact absurd rfl hi
    | initThread unbound =>
      rw [(unstarted_of_unbound hs unbound ht).1] at hhome
      cases hhome

/-! ## Variables -/

theorem Scene.scopes_assign {s : Scene} (h : s.scopes[n]? = some d) {scope x} {v : Value}
    (hn : scope = some n → isGlobalName x) : (s.assign scope x v).scopes[n]? = some d := by
  cases scope with
  | none => exact h
  | some k =>
    unfold Scene.assign
    dsimp only
    split
    · exact h
    · rename_i hx
      refine Array.getElem?_modify.trans ?_
      rw [if_neg, h]
      rintro rfl
      exact hx (hn rfl)

/-- **The variables of a scope are changed only by assigning to one of them.** -/
theorem Instr.exec_locals (task : TaskId) (h : w.scene.scopes[n]? = some d)
    (hi : ∀ x v, i = .edit (.assign (some n) x v) → isGlobalName x) :
    (i.exec task w).2.scene.scopes[n]? = some d := by
  have heffect := i.effect task w
  generalize (i.exec task w).2 = v at heffect ⊢
  cases heffect with
  | @edit e =>
    cases e with
    | assign scope x v =>
      refine Scene.scopes_assign h fun hn => hi x v ?_
      rw [hn]
    | _ => exact h
  | openScope => exact getElem?_push_of_some h
  | _ => exact h

/-- **Global variables are changed only by assigning to one of them.** -/
theorem Instr.exec_globals (task : TaskId) (w : World)
    (hi : ∀ scope x v, i = .edit (.assign scope x v) → scope.isSome ∧ isGlobalName x = false) :
    (i.exec task w).2.scene.globals = w.scene.globals := by
  have heffect := i.effect task w
  generalize (i.exec task w).2 = v at heffect ⊢
  cases heffect with
  | @edit e =>
    cases e with
    | assign scope x v =>
      obtain ⟨hscope, hx⟩ := hi scope x v rfl
      cases scope with
      | none => cases hscope
      | some n =>
        show (w.scene.assign (some n) x v).globals = _
        unfold Scene.assign
        dsimp only
        rw [hx, if_neg nofun]
    | _ => rfl
  | _ => rfl

/-- The shared runtime is changed only by making or discarding it. -/
theorem Instr.exec_globalRuntime (task : TaskId) (w : World) (hinit : ∀ c, i ≠ .initGlobal c)
    (hclose : i ≠ .closeGlobal) : (i.exec task w).2.globalRuntime = w.globalRuntime := by
  have heffect := i.effect task w
  generalize (i.exec task w).2 = v at heffect ⊢
  cases heffect with
  | initGlobal => exact absurd rfl (hinit _)
  | closeGlobal => exact absurd rfl hclose
  | _ => rfl

/-! ## Started threads -/

/-- Runtimes that exist have started the same threads. -/
def World.SameStarted (w v : World) : Prop := ∀ r, w.Has r → v.Has r ∧ v.startedThreads r = w.startedThreads r

/-- **The started threads of a runtime are changed only by registering one.** -/
theorem Instr.exec_started (task : TaskId) (w : World) (hi : ∀ o, i ≠ .register o) :
    w.SameStarted (i.exec task w).2 := by
  have heffect := i.effect task w
  rintro r ⟨rt, hrt⟩
  constructor
  · rcases heffect.runtime_of_some hrt with hsame | ⟨f, -, hmodified⟩
    · exact ⟨_, hsame⟩
    · exact ⟨_, hmodified⟩
  · unfold startedThreads
    rcases heffect.registryOf r with hsame | ⟨f, hf, hregistry⟩
    · rw [hsame]
    · rw [hregistry]
      cases hf with
      | initThread | adopt => rfl
      | rebinds rebinds =>
        cases rebinds with
        | register => exact absurd rfl (hi _)
        | bindTask | unbindTask => rfl

end ObjectKernel
