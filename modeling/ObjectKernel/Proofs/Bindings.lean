import ObjectKernel.Proofs.ThreadRecords

/-!
# Bindings of threads to tasks

The registry of a runtime binds tasks to threads. A thread is bound by its own task only, in the registry of
its home, and that task ends the binding too; apart from this there are the threads that are made for tasks
which the runtime did not start.

## Contents

* `World.registry_initThread`, `World.registry_adopt`: what becomes of a registry that hands out numbers.
* `World.bound?_unbindTask`: what the end of a binding leaves.
* `Instr.exec_bound`: which bindings there are after an instruction.
* `Machine.Reachable.bound_home`: only threads that were initialised are bound.
-/

namespace ObjectKernel

open World

variable {o : ObjId} {id : TaskId} {r : RuntimeId}

namespace World

variable {w v u : World} {p : ObjId} {t : Thread} {home : RuntimeId}

/-- Every runtime has the registry that it had. -/
def SameRegistries (w v : World) : Prop := ∀ r, v.registry r = w.registry r

theorem sameRegistries_of_runtimes (h : v.runtimes = w.runtimes) : w.SameRegistries v := by
  intro r
  unfold registry
  rw [runtime?_congr h]

theorem registry_modifyThread (w : World) (o : ObjId) (f : Thread → Thread) (r : RuntimeId) :
    (w.modifyThread o f).registry r = w.registry r := rfl

/-- The change of the registry of a runtime that exists. -/
theorem registry_modifyRegistry_of_has (hh : w.Has home) (f : Registry → Registry) (r : RuntimeId) :
    (w.modifyRegistry home f).registry r = if home = r then f (w.registry r) else w.registry r := by
  obtain ⟨rt, hrt⟩ := hh
  unfold registry modifyRegistry
  rw [runtime?_modifyRuntime]
  by_cases hr : home = r
  · subst hr
    rw [if_pos rfl, if_pos rfl, hrt]
    rfl
  · rw [if_neg hr, if_neg hr]

/-- The change of the registry of the home of a thread that was initialised. -/
theorem registry_modifyHomeRegistry_of_thread (hs : w.Sound) (ht : w.thread? p = some t) (hhome : t.home = some home)
    (f : Registry → Registry) (r : RuntimeId) :
    (w.modifyHomeRegistry p f).registry r = if home = r then f (w.registry r) else w.registry r := by
  have hbind : (w.thread? p).bind (·.home) = some home := by
    rw [ht]
    exact hhome
  unfold modifyHomeRegistry
  rw [hbind]
  exact registry_modifyRegistry_of_has (has_home hs ht hhome) f r

/-- The registry of a runtime that has initialised a thread. -/
theorem registry_initThread (hh : w.Has home) {p c target} (hv : w.initThread home p c target = .ok v)
    (r : RuntimeId) : v.registry r = if home = r then (w.registry r).nextId.2.nextName.2 else w.registry r := by
  obtain ⟨q, d, -, -, -, rfl⟩ := initThread_eq hv
  rw [registry_modifyThread, registry_modifyRegistry_of_has (show (w.bindClass q d).Has home from hh)]
  by_cases hr : home = r
  · rw [if_pos hr, if_pos hr, hr]
  · rw [if_neg hr, if_neg hr]
    rfl

/-- The registry of a runtime that has adopted a task. -/
theorem registry_adopt (hh : w.Has home) {task} (hb : (w.registry home).bound? task = none) (r : RuntimeId) :
    (w.adopt home task).2.registry r =
      if home = r then
        { (w.registry r).nextId.2.bind task w.objects.size with adopted := (w.registry r).adopted + 1 }
      else w.registry r := by
  have hhas : (w.create (.thread { w.adoptee home task with self := some w.objects.size })
    (Builtin.threadClass home)).2.Has home := hh
  rw [adopt_of_unbound hb]
  dsimp only
  rw [registry_modifyRegistry_of_has hhas]
  by_cases hr : home = r
  · rw [if_pos hr, if_pos hr, hr]
  · rw [if_neg hr, if_neg hr]
    rfl

/-- A task that ends its binding to a thread has none in the home of that thread. -/
theorem bound?_unbindTask (hs : w.Sound) (ht : w.thread? p = some t) (hhome : t.home = some home) (task : TaskId) :
    ((w.unbindTask p task).registry home).bound? task = none := by
  unfold unbindTask
  rw [registry_modifyHomeRegistry_of_thread hs ht hhome, if_pos rfl]
  exact Dictionary.get?_erase_self ..

end World

/-- Ids of tasks are handed out in order. -/
theorem Instr.exec_tasks (task : TaskId) (w : World) (i : Instr) : w.tasks ≤ (i.exec task w).2.tasks := by
  have heffect := i.effect task w
  generalize (i.exec task w).2 = v at heffect ⊢
  cases heffect with
  | freshTask => exact Nat.le_succ _
  | _ => exact Nat.le_refl _

/-- **A thread is bound to a task only by that task**, and in the registry of its home, unless it is made
for the task. -/
theorem Instr.exec_bound {w task} {i : Instr} (h : ((i.exec task w).2.registry r).bound? id = some o) :
    (w.registry r).bound? id = some o ∨ (i = .bindTask o ∧ id = task ∧ (w.thread? o).bind (·.home) = some r) ∨
      i = .adopt r id ∧ (w.registry r).bound? id = none ∧ o = w.objects.size := by
  rcases (i.effect task w).registryOf r with hsame | ⟨f, hf, hregistry⟩
  · rw [hsame] at h
    exact .inl h
  · rw [hregistry] at h
    cases hf with
    | initThread => exact .inl h
    | @adopt _ t unbound =>
      by_cases hid : id = t
      · subst hid
        cases (Dictionary.get?_insert_self ..).symm.trans h
        exact .inr (.inr ⟨rfl, unbound, rfl⟩)
      · exact .inl ((Dictionary.get?_insert_of_ne _ _ hid).symm.trans h)
    | rebinds rebinds initialised =>
      cases rebinds with
      | register => exact .inl h
      | bindTask =>
        by_cases hid : id = task
        · subst hid
          cases (Dictionary.get?_insert_self ..).symm.trans h
          exact .inr (.inl ⟨rfl, rfl, initialised⟩)
        · exact .inl ((Dictionary.get?_insert_of_ne _ _ hid).symm.trans h)
      | unbindTask =>
        by_cases hid : id = task
        · subst hid
          cases (Dictionary.get?_erase_self ..).symm.trans h
        · exact .inl ((Dictionary.get?_erase_of_ne _ hid).symm.trans h)

/-- **A thread that a registry binds to a task was initialised.** -/
theorem Machine.Reachable.bound_home {m : Machine} (h : m.Reachable) (hb : (m.world.registry r).bound? id = some o) :
    ∃ t, m.world.thread? o = some t ∧ t.home.isSome := by
  refine h.invariant (I := fun w => ∀ {r id o}, (w.registry r).bound? id = some o →
    ∃ t, w.thread? o = some t ∧ t.home.isSome) (fun w hw r id o hb => ?_) (fun h => h) ?_ hb
  · unfold registry at hb
    split at hb
    · rename_i rt hrt
      rw [(hw.runtime hrt).2.2] at hb
      cases hb
    · cases hb
  · intro m j i k fs task hm hat hle h r id o hb
    have hlater {t : Thread} (ht : m.world.thread? o = some t) (hh : t.home.isSome) :
        ∃ u, (i.exec task m.world).2.thread? o = some u ∧ u.home.isSome := by
      obtain ⟨u, hu, hl⟩ := World.thread?_later hle ht
      refine ⟨u, hu, ?_⟩
      rw [hl.home hh]
      exact hh
    rcases Instr.exec_bound hb with hold | ⟨rfl, -, hhome⟩ | ⟨rfl, hunbound, rfl⟩
    · obtain ⟨t, ht, hh⟩ := h hold
      exact hlater ht hh
    · obtain ⟨t, ht, hh⟩ := Option.bind_eq_some_iff.mp hhome
      exact hlater ht (by rw [hh]; rfl)
    · exact ⟨_, (thread?_adopt hunbound _).trans (if_pos rfl), rfl⟩

end ObjectKernel
