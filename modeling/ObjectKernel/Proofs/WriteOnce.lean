import ObjectKernel.Proofs.Literals
import ObjectKernel.Proofs.UnderDefinition

/-!
# Class definitions are write-once

The task that reserves a name runs the initialiser of its class, at most once, and decides what the name
stands for: a class, an error, or nothing at all if the initialiser panics. From then on nothing changes
that, and every other definition of the name is answered by it.

## Contents

* `Machine.initialisers`, `Machine.Chronicled`: the classes that were initialised in a run.
* `Redefined`, `Machine.attains_redefined`: what a definition returns under a name that has an entry.
* `Definition.Ends`, `Machine.Pursues`: the definition that reserved the name, up to its end.
* `Machine.SettledAs`, `Machine.definitions_write_once`.
-/

namespace ObjectKernel

open World

variable {fs : List Frame} {B : Base} {n : Nat}

/-! ## Initialisers -/

namespace Machine

variable {m n : Machine} {hand : Nat → Hand} {τ : Turn} {done : List ClassKey}

/-- The class whose initialiser a turn enters. -/
def initialisers (m : Machine) (τ : Turn) : List ClassKey :=
  match m.tasks[τ.task]? with
  | some t => t.prog.initialises?.toList
  | none => []

theorem initialisers_eq {t} (ht : m.tasks[τ.task]? = some t) : m.initialisers τ = t.prog.initialises?.toList := by
  unfold initialisers
  rw [ht]

/-- What is known of the classes that were initialised so far. -/
structure Chronicled (m : Machine) (hand : Nat → Hand) (done : List ClassKey) : Prop where
  nodup : done.Nodup
  entry : ∀ key ∈ done, (m.world.entryOf? key).isSome
  fresh : ∀ {i key}, (hand i).fresh = some key → key ∉ done
  /-- The empty name has no class. -/
  blank : ∀ r, (m.world.classes r).get? [] = none

/-- What a turn does to entries, whichever task takes it. -/
theorem Tidy.handles (h : m.Tidy hand) (hτ : m.take τ = some n) :
    ∃ keys, Handles m.world n.world (hand τ.task).held keys := by
  obtain ⟨t, ht, ⟨v, q, fs, hgo, rfl⟩ | ⟨o, k, -, -, rfl⟩⟩ := take_cases hτ
  · exact ⟨_, (h.stands ht).handles (fun _ => h.building) hgo⟩
  · exact ⟨_, .keep (keepsEntries_of_runtimes rfl)⟩

theorem name_ne_nil_of_builtin {r c} (h : c ∈ Builtin.classes r) : c.name ≠ [] := by
  simp only [Builtin.classes, List.mem_cons, List.not_mem_nil, or_false] at h
  rcases h with rfl | rfl | rfl | rfl | rfl <;> exact List.cons_ne_nil _ _

/-- No turn gives the empty name a class. -/
theorem Tidy.blank_take (hm : m.Reachable) (h : m.Tidy hand)
    (hblank : ∀ r, (m.world.classes r).get? [] = none) (hτ : m.take τ = some n) (r : RuntimeId) :
    (n.world.classes r).get? [] = none := by
  obtain ⟨keys, hhandles⟩ := h.handles hτ
  cases hget : (n.world.classes r).get? [] with
  | none => rfl
  | some c =>
    exfalso
    have hnew : n.world.entryOf? (r, []) ≠ some .building := by
      rw [entryOf?_eq_defined.mpr hget]
      nofun
    have hsame (hruntimes : n.world.runtimes = m.world.runtimes) : False := by
      rw [classes_congr hruntimes, hblank r] at hget
      cases hget
    obtain ⟨t, ht, ⟨v, q, fs, hgo, rfl⟩ | ⟨o, k, -, -, rfl⟩⟩ := take_cases hτ
    · obtain ⟨id, prog, frames⟩ := t
      generalize τ.isExpiry = expired at hgo
      cases hgo with
      | perform i k =>
        obtain ⟨held, hworks⟩ := hm.works ⟨_, ht, rfl, rfl⟩
        rcases class_of_exec id hworks hget with hold | hbuiltin | ⟨p, methods, -, -, hold⟩
        · rw [hblank r] at hold
          cases hold
        · obtain ⟨rt, hrt⟩ := exists_of_getClass hget
          have hplaced := ((hm.take hτ).sound.runtime hrt).cls (classes_eq hrt ▸ hget)
          exact name_ne_nil_of_builtin hbuiltin hplaced.name
        · exact h.named (hhandles.mem_of_settled hold hnew) rfl
      | resume | observe | await | expire | call | guard | pause => exact hsame rfl
    · exact hsame rfl

/-- **A turn keeps the record of initialisers without repetitions.** -/
theorem Tidy.chronicled_take (hm : m.Reachable) (h : m.Tidy hand) (hdone : m.Chronicled hand done)
    (hτ : m.take τ = some n) : n.Chronicled (m.handsAfter hand τ) (done ++ m.initialisers τ) := by
  obtain ⟨keys, hhandles⟩ := h.handles hτ
  have hblank := h.blank_take hm hdone.blank hτ
  have hentry : ∀ key ∈ done, (n.world.entryOf? key).isSome :=
    fun key hkey => hhandles.isSome (hdone.entry key hkey)
  obtain ⟨t, ht, -⟩ := take_cases hτ
  -- A key that is fresh after the turn is not among the initialised ones.
  have hfresh : ∀ {i key}, (m.handsAfter hand τ i).fresh = some key →
      key ∉ done ∧ ∀ x, t.prog.initialises? = some x → key ≠ x := by
    intro i key hkey
    by_cases hi : τ.task = i
    · subst hi
      rw [handsAfter_self ht] at hkey
      rcases Hand.fresh_after hkey with ⟨hold, hnone⟩ | hfree
      · refine ⟨hdone.fresh hold, fun x hx => ?_⟩
        rw [hnone] at hx
        cases hx
      · constructor
        · intro hmem
          have hsome := hdone.entry key hmem
          rw [hfree] at hsome
          cases hsome
        · rintro x hx rfl
          have hheld : key ∈ (hand τ.task).held := by
            simp [Hand.held, (h.stands ht).fresh_of_initialises hx]
          cases (h.building hheld).symm.trans hfree
    · rw [handsAfter_of_ne hi] at hkey
      refine ⟨hdone.fresh hkey, ?_⟩
      rintro x hx rfl
      have hheld : key ∈ (hand τ.task).held := by
        simp [Hand.held, (h.stands ht).fresh_of_initialises hx]
      have hother : key ∈ (hand i).held := by simp [Hand.held, hkey]
      exact hi (h.apart hheld hother)
  cases hinit : t.prog.initialises? with
  | none =>
    rw [initialisers_eq ht, hinit, Option.toList_none, List.append_nil]
    exact ⟨hdone.nodup, hentry, fun hkey => (hfresh hkey).1, hblank⟩
  | some x =>
    have hold := (h.stands ht).fresh_of_initialises hinit
    have hheld : x ∈ (hand τ.task).held := by simp [Hand.held, hold]
    rw [initialisers_eq ht, hinit, Option.toList_some]
    refine ⟨?_, ?_, ?_, hblank⟩
    · exact List.nodup_append.mpr ⟨hdone.nodup, List.nodup_singleton x, fun a ha b hb heq =>
        hdone.fresh hold (List.mem_singleton.mp hb ▸ heq ▸ ha)⟩
    · intro key hkey
      rcases List.mem_append.mp hkey with hkey | hkey
      · exact hentry key hkey
      · rw [List.mem_singleton.mp hkey]
        exact hhandles.isSome (by rw [h.building hheld]; rfl)
    · intro i key hkey hmem
      obtain ⟨hnot, hne⟩ := hfresh hkey
      rcases List.mem_append.mp hmem with hmem | hmem
      · exact hnot hmem
      · exact hne x hinit (List.mem_singleton.mp hmem)

/-- **In every run from an orderly beginning each class is initialised at most once.** -/
theorem Begins.chronicled (h : m.Begins) {τs} (hrun : Trace (fun _ _ => True) m τs n) :
    ∃ hand, n.Tidy hand ∧ n.Chronicled hand (m.record initialisers τs) := by
  have hstart : m.Chronicled (fun _ => {}) [] := by
    refine ⟨List.nodup_nil, nofun, nofun, fun r => ?_⟩
    cases hget : (m.world.classes r).get? [] with
    | none => rfl
    | some c =>
      obtain ⟨rt, hrt⟩ := exists_of_getClass hget
      rw [classes_eq hrt, (h.initial.fresh.runtime hrt).1, getClass_eq_some] at hget
      obtain ⟨hbuiltin, hname⟩ := mem_of_get?_definitions hget
      exact absurd hname (name_ne_nil_of_builtin hbuiltin)
  suffices hgeneral : ∀ {m : Machine} {hand : Nat → Hand} {done : List ClassKey}, m.Reachable →
      m.Tidy hand → m.Chronicled hand done → Trace (fun _ _ => True) m τs n →
      ∃ hand, n.Tidy hand ∧ n.Chronicled hand (done ++ m.record initialisers τs) from
    hgeneral h.initial.reachable h.tidy_initial hstart hrun
  clear hrun hstart
  intro m hand done hm htidy hdone hrun
  induction hrun generalizing hand done with
  | refl m =>
    rw [record, List.append_nil]
    exact ⟨hand, htidy, hdone⟩
  | cons _ move _ ih =>
    rw [record_cons _ move, ← List.append_assoc]
    exact ih (hm.take move) (htidy.take hm move) (htidy.chronicled_take hm hdone move)

end Machine

/-! ## Later definitions -/

/-- What a definition of a name with a given superclass returns, by the entry that an earlier definition of
the name has left. -/
inductive Redefined (name : Bytes) (superclass : Option Class) :
    ClassEntry → Except Err (Class × Bool) → Prop where
  | same {c : Class} (fits : superclass = none ∨ superclass = c.parent?) :
      Redefined name superclass (.defined c) (.ok (c, false))
  | conflict {c : Class} {e : Err} (given : superclass ≠ none) (differs : superclass ≠ c.parent?)
      (kind : e.kind? = some .illegalState) : Redefined name superclass (.defined c) (.error e)
  | failed (e : Err) : Redefined name superclass (.failed e) (.error e)
  | abandoned {f : Fault} (kind : f.kind = .illegalState)
      (detail : f.detail = "definition of " ++ name ++ " did not complete") :
      Redefined name superclass .abandoned (.error (.fault f))

section

variable {w v : World} {d : Definition} {c : Class}

/-- Classes that are there are told apart by their runtimes and names. -/
theorem isSame_iff {d} (hc : w.Vouches c) (hd : w.Vouches d) : c.isSame d ↔ c = d := by
  constructor
  · intro hsame
    have hid : (c.home, c.name) = (d.home, d.name) := by simpa [Class.isSame, Class.identity] using hsame
    obtain ⟨hhome, hname⟩ := Prod.mk.inj hid
    unfold Vouches at hc hd
    rw [hhome, hname] at hc
    exact Option.some.inj (hc.symm.trans hd)
  · rintro rfl
    simp [Class.isSame]

theorem isSame?_parent_iff (hs : w.Sound) (hc : w.Vouches c) {s} (hv : w.Vouches s) :
    Class.isSame? c.parent? (some s) ↔ some s = c.parent? := by
  cases hparent : c.parent? with
  | none => simp [Class.isSame?]
  | some p =>
    rw [Option.some_inj]
    exact (isSame_iff (Op.vouches_parent hs hc hparent) hv).trans eq_comm

/-- A final entry answers as it should. -/
theorem redefined_of_answer (hs : w.Sound) (hv : ∀ p ∈ d.superclass, w.Vouches p) {e : ClassEntry}
    (hfinal : e.isFinal) (he : w.entryOf? d.key = some e) :
    Redefined d.name d.superclass e (d.verdict false (some e)) := by
  cases e with
  | building => cases hfinal
  | abandoned => exact .abandoned rfl rfl
  | failed e => exact .failed e
  | defined c =>
    have hc : w.Vouches c := Op.vouches_of_getClass hs (entryOf?_eq_defined.mp he)
    simp only [Definition.verdict, ClassTable.answer]
    cases hsuper : d.superclass with
    | none =>
      rw [if_pos (.inl rfl)]
      exact .same (.inl rfl)
    | some s =>
      have hiff := isSame?_parent_iff hs hc (hv s hsuper)
      by_cases hsame : some s = c.parent?
      · rw [if_pos (.inr (hiff.mpr hsame))]
        exact .same (.inr hsame)
      · rw [if_neg (by simpa using mt hiff.mp hsame)]
        exact .conflict (Option.some_ne_none s) hsame rfl

/-- What may happen to a world while a definition waits: names that have an entry keep one. -/
def World.KeepsNames (w v : World) : Prop :=
  w.Proceeds v ∧ ∀ key, (w.entryOf? key).isSome → (v.entryOf? key).isSome

theorem interference_keepsNames : Interference KeepsNames :=
  ⟨fun w => ⟨interference_proceeds.refl w, fun _ h => h⟩,
    fun h h' => ⟨interference_proceeds.trans h.1 h'.1, fun key hkey => h'.2 key (h.2 key hkey)⟩⟩

theorem holds_settled : (Condition.settled d.home d.name).holds w ↔ ∃ e, w.entryOf? d.key = some e ∧ e.isFinal := by
  have hkey : (w.classes d.home).entries.get? d.name = w.entryOf? d.key := rfl
  rw [Condition.holds, hkey]
  cases w.entryOf? d.key <;> simp

/-- A definition of a name that has an entry waits for the end of the definition under way, if there is
one, and returns what the entry says then. -/
theorem prompt_reserving (hs : w.Sound) (hv : ∀ p ∈ d.superclass, w.Vouches p) (hentry : (w.entryOf? d.key).isSome)
    {init : TableId → Op Unit} {next : Except Err (Class × Bool) → Prog} :
    (d.reserving init next).Prompt KeepsNames (fun c => c = .settled d.home d.name)
      (fun v p => ∃ e res, e.isFinal ∧ v.entryOf? d.key = some e ∧ p = next res ∧
        Redefined d.name d.superclass e res) 3 w := by
  refine .perform fun t v hnext => ?_
  obtain ⟨e, he⟩ := Option.isSome_iff_exists.mp (hnext.2 d.key hentry)
  have hv₁ := hnext.1 hs
  show Prog.Prompt _ _ _ 2 (v.reserveClass d.home d.name).2
    (d.reserved init next (v.reserveClass d.home d.name).1)
  rw [reserveClass_taken he]
  refine .await rfl fun u hu holds => .observe fun t x hx => .there fun y hy => ?_
  have hu₁ := hu.1 hv₁.sound
  have hx₁ := hx.1 hu₁.sound
  obtain ⟨e', he', hfinal⟩ := holds_settled.mp holds
  have hlast := entryOf?_later hx₁.later he' hfinal
  have hvouch : ∀ p ∈ d.superclass, x.Vouches p := fun p hp =>
    (hv p hp).later (hv₁.later.trans (hu₁.later.trans hx₁.later))
  have hres := redefined_of_answer hx₁.sound hvouch hfinal hlast
  refine ⟨e', _, hfinal, entryOf?_later (hy.1 hx₁.sound).later hlast hfinal, ?_, hres⟩
  show next (d.verdict false (x.entryOf? d.key)) = _
  rw [hlast]

end

namespace Machine

variable {m n : Machine} {τ : Turn} {i : Nat} {fs : List Frame}

/-- An instruction leaves a name its entry, or gives it another one. -/
theorem isSome_entryOf?_exec (task : TaskId) (w : World) (i : Instr) {key} (h : (w.entryOf? key).isSome) :
    ((i.exec task w).2.entryOf? key).isSome := by
  have hsettle (u : World) (home : RuntimeId) (name : Bytes) (e : ClassEntry)
      (hu : (u.entryOf? key).isSome) : ((u.settleClass home name e).entryOf? key).isSome := by
    rcases u.entryOf?_settleClass_cases home name e key with hsame | ⟨-, -, hset⟩
    · rwa [hsame]
    · rw [hset]
      rfl
  cases hending : i.isEnding with
  | false =>
    obtain ⟨e, he⟩ := Option.isSome_iff_exists.mp h
    rw [Instr.exec_keepsEntries task w hending key e he]
    rfl
  | true =>
    cases i with
    | settleClass home name e => exact hsettle w home name e h
    | completeClass home name parent table =>
      show ((w.completeClass home name parent table).2.entryOf? key).isSome
      rw [← entryOf?_completeTable w table] at h
      rcases w.completeClass_cases home name parent table with ⟨x, heq⟩ | ⟨methods, heq⟩
      · rwa [heq]
      · rw [heq]
        exact hsettle _ _ _ _ h
    | _ => cases hending

theorem Reachable.keepsNames (hm : m.Reachable) (hτ : m.take τ = some n) : m.world.KeepsNames n.world := by
  refine ⟨hm.proceeds hτ, fun key hkey => ?_⟩
  obtain ⟨t, -, ⟨v, q, fs, hgo, rfl⟩ | ⟨o, k, -, -, rfl⟩⟩ := take_cases hτ
  · generalize t.prog = prog, t.frames = frames, τ.isExpiry = expired at hgo
    cases hgo with
    | perform i k => exact isSome_entryOf?_exec t.id m.world i hkey
    | resume | observe | await | expire | call | guard | pause => exact hkey
  · exact hkey

/-- **A definition of a name that has an entry** returns within three turns of its own what the entry says
when it is final, and waits for nothing but that. -/
theorem attains_redefined (hm : m.Reachable) {d : Definition} (hname : d.name ≠ [])
    (hv : ∀ p ∈ d.superclass, m.world.Vouches p) (hentry : (m.world.entryOf? d.key).isSome) {init next}
    (hat : m.At i (Op.defineClass (some d.home) d.name d.superclass init next) fs) :
    m.Attains i fs 3 (fun c => c = .settled d.home d.name) fun q p =>
      ∃ e res, e.isFinal ∧ q.world.entryOf? d.key = some e ∧ p = next res ∧
        Redefined d.name d.superclass e res := by
  rw [d.defineClass_eq hname] at hat
  exact attains_of_prompt interference_keepsNames (fun h hτ => h.keepsNames hτ) hm hat
    (prompt_reserving hm.sound hv hentry)

/-- What a name whose definition has ended is from then on: its entry stays, the class of the entry is the
one that is found under the name, and each further definition of the name returns what the entry says,
within three turns and without having to wait. -/
def SettledAs (m : Machine) (home : RuntimeId) (name : Bytes) (e : ClassEntry) : Prop :=
  ∀ n, Run m n → n.world.entryOf? (home, name) = some e ∧ (n.world.classes home).get? name = e.class? ∧
    ∀ superclass init next i fs, (∀ p ∈ superclass, n.world.Vouches p) →
      n.At i (Op.defineClass (some home) name superclass init next) fs →
      n.Attains i fs 3 (fun _ => False) fun _ p =>
        ∃ res, p = next res ∧ Redefined name superclass e res

/-- **A final entry settles its name.** -/
theorem Reachable.settledAs (hm : m.Reachable) {home name} (hname : name ≠ []) {e}
    (he : m.world.entryOf? (home, name) = some e) (hfinal : e.isFinal) : m.SettledAs home name e := by
  have hlast {n : Machine} (hn : Run m n) : n.world.entryOf? (home, name) = some e :=
    entryOf?_later (hm.le hn) he hfinal
  intro n hn
  refine ⟨hlast hn, ?_, fun superclass init next i fs hv hat => ?_⟩
  · show (n.world.entryOf? (home, name)).bind (·.class?) = _
    rw [hlast hn]
    rfl
  · let d : Definition := ⟨home, name, superclass⟩
    have hattains := attains_redefined (d := d) (hm.run hn) hname hv
      (Option.isSome_iff_exists.mpr ⟨e, hlast hn⟩) hat
    intro τs q hrun
    rcases hattains τs q hrun with
      ⟨τs₁, τs₂, u, p, heq, hfirst, hrest, hcount, hu, e', res, -, he', hp, hres⟩ | ⟨hlt, hnext⟩
    · cases (hlast (hn.trans hfirst.run)).symm.trans he'
      exact .inl ⟨τs₁, τs₂, u, p, heq, hfirst, hrest, hcount, hu, res, hp, hres⟩
    · refine .inr ⟨hlt, hnext.imp_right ?_⟩
      rintro ⟨c, rfl, hnot⟩
      exact absurd (holds_settled.mpr ⟨e, hlast (hn.trans hrun.run), hfinal⟩) hnot

end Machine

/-! ## The definition that reserved the name -/

/-- How a definition ends that has reserved its name, by the entry that it leaves: it returns the class, or
the error with which it failed, or it panics. -/
inductive Definition.Ends (d : Definition) (next : Except Err (Class × Bool) → Prog) :
    ClassEntry → Prog → Prop where
  | made {c : Class} (accepts : d.Accepts c.parent?) : Ends d next (.defined c) (next (.ok (c, true)))
  | failed (e : Err) : Ends d next (.failed e) (next (.error e))
  | abandoned (x : Panic) : Ends d next .abandoned (.finish (.panic x))

/-- A definition that has reserved its name and has not ended yet. -/
inductive Definition.Underway (d : Definition) (init : TableId → Op Unit)
    (next : Except Err (Class × Bool) → Prog) (fs : List Frame) : Prog → List Frame → Prop where
  | early {p : Prog} (point : d.Early init next p) : Underway d init next fs p fs
  /-- In the section in which the class is initialised. -/
  | inside (p : Prog) (gs : List Frame) : Underway d init next fs p (gs ++ .guard (d.ended next) :: fs)
  | abandoning (x : Panic) : Underway d init next fs (d.ended next (.panic x)) fs
  | concluding : Underway d init next fs (d.concluding true next) fs

/-- A definition that is under way has not returned. -/
theorem Definition.Underway.frames_ne {d : Definition} {init next gs out}
    (h : d.Underway init next fs (.finish out) gs) : gs ≠ fs := by
  generalize hp : Prog.finish out = p at h
  cases h with
  | early point => cases point <;> cases hp
  | inside p gs =>
    intro heq
    have hlen := congrArg List.length heq
    rw [List.length_append, List.length_cons] at hlen
    omega
  | abandoning => cases hp
  | concluding => cases hp

/-- What lies below an initialiser: the section of its definition. -/
def Definition.floor (d : Definition) (next : Except Err (Class × Bool) → Prog) (fs : List Frame)
    (keys : List ClassKey) (parent : Option Class) (table : TableId) : Base := fun owed gs held =>
  owed = some (d.pending parent table) ∧ gs = .guard (d.ended next) :: fs ∧ held = d.key :: keys

/-- Where the definition stands in a machine that it has reserved its name in. -/
inductive Machine.Pursues (d : Definition) (init : TableId → Op Unit)
    (next : Except Err (Class × Bool) → Prog) (i : Nat) (fs : List Frame) (keys : List ClassKey)
    (hand : Nat → Hand) (m : Machine) : Prop where
  | early {p : Prog} (stands : m.At i p fs) (point : d.Early init next p)
      (inner : ∀ parent table, (init table (d.completing parent table)).Orderly
        (some (d.pending parent table)) m.world.runtimes.size)
      (held : hand i = { fresh := some d.key, entered := keys }) : Pursues d init next i fs keys hand m
  | inside {parent : Option Class} {table : TableId} {p : Prog} {gs : List Frame}
      (accepts : d.Accepts parent) (stands : m.At i p gs)
      (above : Stands (d.floor next fs keys parent table) m.world.runtimes.size p gs (hand i)) :
      Pursues d init next i fs keys hand m
  | closing {c : Class} {x : Value} (stands : m.At i (.finish (.value x)) (.guard (d.ended next) :: fs))
      (entry : m.world.entryOf? d.key = some (.defined c)) (accepts : d.Accepts c.parent?) :
      Pursues d init next i fs keys hand m
  | abandoning {x : Panic} (stands : m.At i (d.ended next (.panic x)) fs)
      (held : hand i = { entered := d.key :: keys }) : Pursues d init next i fs keys hand m
  | concluding {e : ClassEntry} (stands : m.At i (d.concluding true next) fs)
      (entry : m.world.entryOf? d.key = some e) (final : e.isFinal)
      (ends : d.Ends next e (next (d.verdict true (some e)))) : Pursues d init next i fs keys hand m

/-- A class with an accepted superclass is what its definition returns. -/
theorem Definition.ends_of_accepts (d : Definition) (next : Except Err (Class × Bool) → Prog) {c : Class}
    (h : d.Accepts c.parent?) : d.Ends next (.defined c) (next (d.verdict true (some (.defined c)))) := by
  have hanswer : d.verdict true (some (.defined c)) = .ok (c, true) := by
    simp only [Definition.verdict, ClassTable.answer]
    cases hsuper : d.superclass with
    | none =>
      rw [if_pos (.inl rfl)]
      rfl
    | some p =>
      rw [h p hsuper, if_pos (.inr (by simp [Class.isSame?, Class.isSame]))]
      rfl
  rw [hanswer]
  exact .made h

/-- The frames of a task that stands above a base go on with those of the base. -/
theorem Levels.suffix {owed keys} (h : Levels B n owed fs keys) :
    ∃ owed' gs fs' keys', B owed' fs' keys' ∧ fs = gs ++ fs' := by
  induction h with
  | base base => exact ⟨_, [], _, _, base, rfl⟩
  | @frame _ f _ _ _ _ ih =>
    obtain ⟨owed', gs, fs', keys', base, rfl⟩ := ih
    exact ⟨owed', f :: gs, fs', keys', base, rfl⟩
  | @initialising _ d k _ _ _ _ _ _ ih =>
    obtain ⟨owed', gs, fs', keys', base, rfl⟩ := ih
    exact ⟨owed', .guard (d.ended k) :: gs, fs', keys', base, rfl⟩

theorem Stands.suffix {p h} (hp : Stands B n p fs h) : ∃ owed gs fs' keys, B owed fs' keys ∧ fs = gs ++ fs' := by
  cases hp with
  | orderly _ levels => exact levels.suffix
  | early _ _ _ levels => exact levels.suffix
  | @closing _ d k x _ _ _ levels =>
    obtain ⟨owed, gs, fs', keys, base, rfl⟩ := levels.suffix
    exact ⟨owed, .guard (d.ended k) :: gs, fs', keys, base, rfl⟩
  | abandoning _ _ _ levels => exact levels.suffix

namespace Machine

variable {m n : Machine} {hand : Nat → Hand} {τ : Turn} {i : Nat} {fs : List Frame} {keys : List ClassKey}
  {d : Definition} {init : TableId → Op Unit} {next : Except Err (Class × Bool) → Prog} {p : Prog}

theorem Pursues.underway (h : m.Pursues d init next i fs keys hand) :
    ∃ p gs, m.At i p gs ∧ d.Underway init next fs p gs := by
  cases h with
  | early stands point => exact ⟨_, _, stands, .early point⟩
  | inside accepts stands above =>
    obtain ⟨owed, gs, fs', keys', ⟨-, rfl, -⟩, rfl⟩ := above.suffix
    exact ⟨_, _, stands, .inside _ gs⟩
  | closing stands => exact ⟨_, _, stands, .inside _ []⟩
  | abandoning stands => exact ⟨_, _, stands, .abandoning _⟩
  | concluding stands => exact ⟨_, _, stands, .concluding⟩

/-- While others have their turns the definition stays where it is. -/
theorem Pursues.take_other (hm : m.Reachable) (hτ : m.take τ = some n) (hi : τ.task ≠ i)
    (h : m.Pursues d init next i fs keys hand) : n.Pursues d init next i fs keys (m.handsAfter hand τ) := by
  have hle := hm.le_take hτ
  have hsize := size_runtimes_le hle
  have hhand : m.handsAfter hand τ i = hand i := handsAfter_of_ne hi
  have hat {p : Prog} {gs : List Frame} (h : m.At i p gs) : n.At i p gs := by
    obtain ⟨t, ht, hp, hf⟩ := h
    exact ⟨t, task_of_ne hτ hi ht, hp, hf⟩
  cases h with
  | early stands point inner held =>
    exact .early (hat stands) point (fun parent table => (inner parent table).mono hsize)
      (hhand.trans held)
  | inside accepts stands above => exact .inside accepts (hat stands) (hhand ▸ above.mono hsize)
  | closing stands entry accepts => exact .closing (hat stands) (entryOf?_later hle entry rfl) accepts
  | abandoning stands held => exact .abandoning (hat stands) (hhand.trans held)
  | concluding stands entry final ends =>
    exact .concluding (hat stands) (entryOf?_later hle entry final) final ends

/-- The definition has come to its end, and the entry of its name says how. -/
def Ended (d : Definition) (next : Except Err (Class × Bool) → Prog) (i : Nat) (fs : List Frame)
    (m : Machine) : Prop :=
  ∃ p e, m.At i p fs ∧ m.world.entryOf? d.key = some e ∧ e.isFinal ∧ d.Ends next e p

/-- A turn of the definition before its initialiser. -/
theorem Pursues.take_early (hm : m.Reachable) (htidy : m.Tidy hand) (hτ : m.take τ = some n)
    (stands : m.At τ.task p fs) (point : d.Early init next p)
    (inner : ∀ parent table, (init table (d.completing parent table)).Orderly
      (some (d.pending parent table)) m.world.runtimes.size)
    (held : hand τ.task = { fresh := some d.key, entered := keys }) :
    n.Pursues d init next τ.task fs keys (m.handsAfter hand τ) := by
  have hsize := size_runtimes_le (hm.le_take hτ)
  have hinner := fun parent table => (inner parent table).mono hsize
  have hhand : m.handsAfter hand τ τ.task = (hand τ.task).after m.world p := handsAfter_of_at stands
  rw [held] at hhand
  have hbuilding : m.world.entryOf? d.key = some .building :=
    htidy.building (i := τ.task) (by simp [held, Hand.held])
  rcases goes_of_take hτ stands with ⟨id, q, gs, hgo, hat⟩ | ⟨o, k, hspawn, -⟩
  · generalize τ.isExpiry = expired, hworld : n.world = v at hgo
    cases point with
    | deciding =>
      cases hgo with
      | observe =>
        change n.At τ.task (d.decided init next ((m.world.classes d.home).accept d.name d.superclass)) fs
          at hat
        cases haccept : (m.world.classes d.home).accept d.name d.superclass with
        | error f =>
          rw [haccept] at hat
          exact .early hat (.refusing f) hinner hhand
        | ok parent =>
          rw [haccept] at hat
          exact .early hat (.opening (accepts_of_accept haccept)) hinner hhand
    | refusing f =>
      cases hgo with
      | perform =>
        refine .concluding hat (e := .failed (.fault f)) ?_ rfl (.failed _)
        rw [hworld]
        exact entryOf?_settleClass_self hbuilding _
    | opening accepts =>
      cases hgo with
      | perform => exact .early hat (.building accepts _) hinner hhand
    | @building parent accepts table =>
      cases hgo with
      | guard =>
        have hbase : d.floor next fs keys parent table (some (d.pending parent table))
            (.guard (d.ended next) :: fs) (d.key :: keys) := ⟨rfl, rfl, rfl⟩
        have hentered : m.handsAfter hand τ τ.task = { entered := d.key :: keys } := hhand
        have habove := Stands.orderly (hinner parent table) (.base hbase)
        exact .inside accepts hat (hentered ▸ habove)
  · cases point <;> cases hspawn

/-- A turn of the definition in its initialiser. -/
theorem Pursues.take_inside (hm : m.Reachable) (htidy : m.Tidy hand) (hτ : m.take τ = some n) {parent table gs}
    (accepts : d.Accepts parent) (stands : m.At τ.task p gs)
    (above : Stands (d.floor next fs keys parent table) m.world.runtimes.size p gs (hand τ.task)) :
    n.Pursues d init next τ.task fs keys (m.handsAfter hand τ) := by
  have hsize := size_runtimes_le (hm.le_take hτ)
  have hhand : m.handsAfter hand τ τ.task = (hand τ.task).after m.world p := handsAfter_of_at stands
  rcases goes_of_take hτ stands with ⟨id, q, gs', hgo, hat⟩ | ⟨o, k, rfl, hat⟩
  · have hcall (a : Activation) (k : Except Err Value → Prog) (hp : p = .call a k) :
        a.program.Orderly none m.world.runtimes.size := by
      obtain ⟨t, ht, hprog, -⟩ := stands
      exact hm.orderly_call ht (hprog.trans hp)
    rcases above.goes hm.sound hcall hgo with habove | hleaves
    · exact .inside accepts hat (hhand ▸ habove.mono hsize)
    · have hheld : d.key ∈ (hand τ.task).held → m.world.entryOf? d.key = some .building := htidy.building
      generalize hand τ.task = held at hleaves hhand hheld
      generalize τ.isExpiry = expired, hworld : n.world = v at hgo
      cases hleaves with
      | ending base orderly =>
        -- The section ends before the class is completed, so it ends in a panic.
        obtain ⟨rfl, rfl, rfl⟩ := base
        cases orderly with
        | panic x =>
          cases hgo with
          | resume => exact .abandoning hat hhand
      | @completing c cls _ _ base ok =>
        obtain ⟨hc, rfl, rfl⟩ := base
        cases hc
        have hbuilding := hheld (by simp [Hand.held])
        cases hgo with
        | perform =>
          rcases m.world.completeClass_cases d.home d.name parent table with ⟨x, heq⟩ | ⟨methods, heq⟩
          · have hfail := congrArg Prod.fst heq
            cases ok.symm.trans hfail
          · change n.At τ.task (Definition.completed
              (m.world.completeClass d.home d.name parent table).1) _ at hat
            rw [heq] at hat
            have hentry : n.world.entryOf? d.key =
                some (.defined (.make { home := d.home, name := d.name, methods } parent)) := by
              rw [hworld]
              show (m.world.completeClass d.home d.name parent table).2.entryOf? d.key = _
              rw [heq]
              exact entryOf?_settleClass_self ((entryOf?_completeTable _ table d.key).trans hbuilding) _
            refine .closing hat hentry ?_
            cases parent <;> exact accepts
  · have hsame : m.handsAfter hand τ τ.task = hand τ.task := hhand
    exact .inside accepts hat (hsame ▸ above.spawn.mono hsize)

/-- **One turn**: the definition goes on, or it comes to its end. -/
theorem Pursues.take (hm : m.Reachable) (htidy : m.Tidy hand) (hτ : m.take τ = some n)
    (h : m.Pursues d init next i fs keys hand) :
    n.Pursues d init next i fs keys (m.handsAfter hand τ) ∨ n.Ended d next i fs := by
  by_cases hi : τ.task = i
  · subst hi
    cases h with
    | early stands point inner held => exact .inl (.take_early hm htidy hτ stands point inner held)
    | inside accepts stands above => exact .inl (.take_inside hm htidy hτ accepts stands above)
    | closing stands entry accepts =>
      left
      have hlast := entryOf?_later (hm.le_take hτ) entry rfl
      rcases goes_of_take hτ stands with ⟨id, q, gs, hgo, hat⟩ | ⟨o, k, hspawn, -⟩
      · generalize τ.isExpiry = expired, n.world = v at hgo
        cases hgo with
        | resume => exact .concluding hat hlast rfl (d.ends_of_accepts next accepts)
      · cases hspawn
    | @abandoning x stands held =>
      right
      have hbuilding : m.world.entryOf? d.key = some .building :=
        htidy.building (i := τ.task) (by simp [held, Hand.held])
      rcases goes_of_take hτ stands with ⟨id, q, gs, hgo, hat⟩ | ⟨o, k, hspawn, -⟩
      · generalize τ.isExpiry = expired, hworld : n.world = v at hgo
        cases hgo with
        | perform =>
          refine ⟨_, .abandoned, hat, ?_, rfl, .abandoned x⟩
          rw [hworld]
          exact entryOf?_settleClass_self hbuilding _
      · cases hspawn
    | @concluding e stands entry final ends =>
      right
      have hlast := entryOf?_later (hm.le_take hτ) entry final
      rcases goes_of_take hτ stands with ⟨id, q, gs, hgo, hat⟩ | ⟨o, k, hspawn, -⟩
      · generalize τ.isExpiry = expired, n.world = v at hgo
        cases hgo with
        | observe =>
          change n.At τ.task (next (d.verdict true (m.world.entryOf? d.key))) fs at hat
          rw [entry] at hat
          exact ⟨_, e, hat, hlast, final, ends⟩
      · cases hspawn
  · exact .inl (h.take_other hm hτ hi)

/-- **A definition that has reserved its name**, in any run: it has come to its end, or it is under way. -/
theorem Pursues.trace (hm : m.Reachable) (htidy : m.Tidy hand) (h : m.Pursues d init next i fs keys hand) {τs}
    (hrun : Trace (fun _ _ => True) m τs n) : (∃ τs₁ τs₂ q, τs = τs₁ ++ τs₂ ∧ Trace (fun _ _ => True) m τs₁ q ∧
      Trace (fun _ _ => True) q τs₂ n ∧ q.Ended d next i fs) ∨
    ∃ p gs, n.At i p gs ∧ d.Underway init next fs p gs := by
  induction hrun generalizing hand with
  | refl m => exact .inr h.underway
  | @cons m q n τ τs meets move rest ih =>
    rcases h.take hm htidy move with hnext | hended
    · rcases ih (hm.take move) (htidy.take hm move) hnext with
        ⟨τs₁, τs₂, u, rfl, hfirst, hrest, hended⟩ | hunder
      · exact .inl ⟨τ :: τs₁, τs₂, u, rfl, .cons meets move hfirst, hrest, hended⟩
      · exact .inr hunder
    · exact .inl ⟨[τ], τs, q, rfl, .cons meets move (.refl q), rest, hended⟩

/-- The reservation. -/
theorem Tidy.pursues (hm : m.Reachable) (htidy : m.Tidy hand) (hτ : m.take τ = some n)
    (hi : τ.task = i) (hat : m.At i (d.reserving init next) fs) (hfree : m.world.entryOf? d.key = none)
    (hinit : ∀ table, Op.Steady m.world.runtimes.size (init table)) :
    ∃ keys, n.Pursues d init next i fs keys (m.handsAfter hand τ) := by
  subst hi
  have hsize := size_runtimes_le (hm.le_take hτ)
  have hhand : m.handsAfter hand τ τ.task = (hand τ.task).after m.world (d.reserving init next) :=
    handsAfter_of_at hat
  have hnone : (hand τ.task).fresh = none := by
    obtain ⟨t, ht, hprog, -⟩ := hat
    have hstands := htidy.stands ht
    rw [hprog] at hstands
    generalize hand τ.task = held, t.frames = gs at hstands
    generalize hp : d.reserving init next = p at hstands
    cases hstands with
    | orderly => rfl
    | early point => cases point <;> cases hp
    | closing => rfl
    | abandoning => rfl
  rcases goes_of_take hτ hat with ⟨id, q, gs, hgo, hat'⟩ | ⟨o, k, hspawn, -⟩
  · generalize τ.isExpiry = expired, n.world = v at hgo
    cases hgo with
    | perform =>
      have hgranted : (m.world.reserveClass d.home d.name).1 = true := by rw [reserveClass_free hfree]
      change n.At τ.task (d.reserved init next (m.world.reserveClass d.home d.name).1) fs at hat'
      rw [hgranted] at hat'
      refine ⟨(hand τ.task).entered, .early hat' .deciding (fun parent table => ?_) ?_⟩
      · exact (hinit table).run hsize fun _ => .complete
      · rw [hhand]
        show (if (m.world.reserveClass d.home d.name).1 then _ else _ : Hand) = _
        rw [hgranted]
        rfl
  · cases hspawn

/-- **Class definitions are write-once and well-founded**, in every run from an orderly beginning. -/
theorem definitions_write_once (h : m.Begins) {τs : List Turn}
    (hrun : Trace (fun _ _ => True) m τs n) :
    -- A turn that enters the initialiser of a class puts its name on record, and no name is there twice.
    (∀ i d init parent next table fs, n.At i (Definition.building d init parent next table) fs →
      n.initialisers (.step i) = [(d.home, d.name)]) ∧
    (m.record initialisers τs).Nodup ∧
    -- Once a name has a class, it has this class for ever, and the class answers every later definition.
    (∀ home name c, (n.world.classes home).get? name = some c → n.SettledAs home name (.defined c)) ∧
    -- The definition that finds the name free is under way until it settles the name, by a class that it
    -- returns, by an error that it returns, or by a panic.
    (∀ home name superclass init next i fs q, name ≠ [] → n.world.entryOf? (home, name) = none →
      (∀ table, Op.Steady n.world.runtimes.size (init table)) →
      n.At i (Op.defineClass (some home) name superclass init next) fs → n.take (.step i) = some q →
      ∀ τs' p, Trace (fun _ _ => True) q τs' p →
        (∃ τs₁ τs₂ u x e, τs' = τs₁ ++ τs₂ ∧ Trace (fun _ _ => True) q τs₁ u ∧
          Trace (fun _ _ => True) u τs₂ p ∧ u.At i x fs ∧
          Definition.Ends ⟨home, name, superclass⟩ next e x ∧ u.SettledAs home name e) ∨
        ∃ x gs, p.At i x gs ∧ Definition.Underway ⟨home, name, superclass⟩ init next fs x gs) ∧
    -- Every other definition waits for that at most, and then returns what the name was settled to.
    (∀ home name superclass init next i fs, name ≠ [] → (n.world.entryOf? (home, name)).isSome →
      (∀ p ∈ superclass, n.world.Vouches p) →
      n.At i (Op.defineClass (some home) name superclass init next) fs →
      n.Attains i fs 3 (fun c => c = .settled home name) fun u x =>
        ∃ e res, x = next res ∧ Redefined name superclass e res ∧ u.SettledAs home name e) ∧
    -- The superclass chain of a class is made of classes that are there, without repetition, down to the
    -- root.
    (∀ home name c, (n.world.classes home).get? name = some c →
      (∀ x ∈ c.chain, (n.world.classes home).get? x.name = some x) ∧ (c.chain.map Class.name).Nodup ∧
        ∃ root, c.chain.getLast? = some root ∧ root.name = "java.lang.Object") ∧
    -- The names are listed in order, without repetition: those that have a class.
    ∀ home, (n.world.classes home).names.Pairwise (· < ·) ∧
      ∀ name, name ∈ (n.world.classes home).names ↔ ((n.world.classes home).get? name).isSome := by
  have hn : n.Reachable := h.initial.reachable.run hrun.run
  obtain ⟨hand, htidy, hdone⟩ := h.chronicled hrun
  obtain ⟨hlisted, hranked⟩ := hn.listed
  refine ⟨fun i d init parent next table fs hat => ?_, hdone.nodup, fun home name c hc => ?_, ?_, ?_,
    fun home name c hc => ?_, fun home => ClassTable.names_spec (hlisted home)⟩
  · obtain ⟨t, ht, hprog, -⟩ := hat
    rw [initialisers_eq ht, hprog]
    rfl
  · have hname : name ≠ [] := by
      rintro rfl
      rw [hdone.blank home] at hc
      cases hc
    exact hn.settledAs hname (entryOf?_eq_defined.mpr hc) rfl
  · intro home name superclass init next i fs q hname hfree hinit hat htake τs' p hlater
    rw [Definition.defineClass_eq ⟨home, name, superclass⟩ hname] at hat
    obtain ⟨keys, hpursues⟩ := htidy.pursues hn htake rfl hat hfree hinit
    refine (hpursues.trace (hn.take htake) (htidy.take hn htake) hlater).imp_left ?_
    rintro ⟨τs₁, τs₂, u, heq, hfirst, hrest, x, e, hx, he, hfinal, hends⟩
    have hu := (hn.take htake).run hfirst.run
    exact ⟨τs₁, τs₂, u, x, e, heq, hfirst, hrest, hx, hends, hu.settledAs hname he hfinal⟩
  · intro home name superclass init next i fs hname hentry hv hat
    refine (attains_redefined (d := ⟨home, name, superclass⟩) hn hname hv hentry hat).imp ?_
    rintro u x hu ⟨e, res, hfinal, he, hx, hres⟩
    exact ⟨e, res, hx, hres, (hn.run hu).settledAs hname he hfinal⟩
  · obtain ⟨hmembers, hlast⟩ := chain_of_getClass hn.sound hc
    exact ⟨hmembers, hranked home name c hc, _, hlast, rfl⟩

/-! ### An initialiser that defines a class and then panics -/

/-- An initialiser that defines another class and panics. -/
def panicking : Op Unit := do
  let _ ← Op.result (Op.defineClass (some 0) "Inner" none fun _ => pure ())
  Op.panic (.text "stop")

/-- What a task does with a class that it has defined: nothing. -/
def drop : Except Err (Class × Bool) → Prog
  | .ok _ => .finish (.value .null)
  | .error e => .finish (.error e)

/-- One task defines a class with this initialiser, and another one is about to define a class of the same
name. -/
def contending : Machine where
  world := World.single (.default []) 2
  tasks := #[{ id := 0, prog := Op.defineClass (some 0) "Outer" none (fun _ => panicking) drop },
    { id := 1, prog := Op.defineClass (some 0) "Outer" none (fun _ => pure ()) drop }]

theorem seen_home : ∀ r ∈ some 0, r < 1 := by
  rintro r ⟨⟩
  exact Nat.zero_lt_one

theorem steady_panicking : Op.Steady 1 panicking := by
  have hinner : Op.Orderly 1 (Op.defineClass (some 0) "Inner" none fun _ => pure ()) :=
    Op.orderly_defineClass seen_home fun _ => inferInstance
  unfold panicking
  infer_instance

instance {init : TableId → Op Unit} [hinit : ∀ t, Op.Lawful [.home (some 0)] (init t)] :
    Launchable (Op.defineClass (some 0) "Outer" none init drop) := by
  refine launchable_run (Op.lawful_defineClass hinit) fun r => ?_
  cases r <;> exact ⟨_, rfl⟩

instance : Op.Lawful [.home (some 0)] panicking := by
  have hinner : Op.Lawful [.home (some 0)] (Op.defineClass (some 0) "Inner" none fun _ => pure ()) :=
    Op.lawful_defineClass fun _ => inferInstance
  unfold panicking
  infer_instance

theorem begins_contending : contending.Begins := by
  have horderly (x : Except Err (Class × Bool)) : (drop x).Orderly none 1 := by
    cases x <;> exact .finish _
  refine begins_single ?_
  rintro t (_ | ⟨_, _ | ⟨_, ⟨⟩⟩⟩)
  · exact (Op.orderly_defineClass seen_home fun _ => steady_panicking).run (Nat.le_refl 1) horderly
  · exact (Op.orderly_defineClass seen_home fun _ => inferInstance).run (Nat.le_refl 1) horderly

/-- The machine in which the first task has reserved the name. -/
def reserved : Machine := contending.after (fun _ _ => true) [.step 0]

/-- The machine in which it has ended in its panic. -/
def abandoned : Machine := reserved.after (fun _ _ => true) (List.replicate 12 (.step 0))

theorem definitions_write_once_abandoned : contending.Begins ∧
    contending.world.entryOf? (0, "Outer") = none ∧
    contending.At 0 (Op.defineClass (some 0) "Outer" none (fun _ => panicking) drop) [] ∧
    contending.take (.step 0) = some reserved ∧
    Trace (fun _ _ => True) reserved (List.replicate 12 (.step 0)) abandoned ∧
    -- The outer name has no class for ever, and the inner one has its class.
    abandoned.SettledAs 0 "Outer" .abandoned ∧
    (∃ c, (abandoned.world.classes 0).get? "Inner" = some c ∧ abandoned.SettledAs 0 "Inner" (.defined c)) ∧
    contending.record initialisers (List.replicate 13 (.step 0)) =
      [((0 : RuntimeId), ("Outer" : Bytes)), ((0 : RuntimeId), ("Inner" : Bytes))] ∧
    (contending.record initialisers (List.replicate 13 (.step 0))).Nodup := by
  have hfree : contending.world.entryOf? (0, "Outer") = none := rfl
  have hat : contending.At 0 (Op.defineClass (some 0) "Outer" none (fun _ => panicking) drop) [] := ⟨_, rfl, rfl, rfl⟩
  have htake : contending.take (.step 0) = some reserved := rfl
  have hlater : Trace (fun _ _ => True) reserved (List.replicate 12 (.step 0)) abandoned :=
    follow_trace (fun _ => trivial) (follow_eq_after (by decide +kernel))
  have hrun : Trace (fun _ _ => True) contending (List.replicate 13 (.step 0)) abandoned :=
    .cons trivial htake hlater
  obtain ⟨-, -, -, hfirst, -⟩ := definitions_write_once begins_contending (.refl contending)
  obtain ⟨-, hnodup, hclasses, -⟩ := definitions_write_once begins_contending hrun
  refine ⟨begins_contending, hfree, hat, htake, hlater, ?_, ?_, by decide +kernel, hnodup⟩
  · have hended : abandoned.At 0 (.finish (.panic (.text "stop"))) [] := ⟨_, rfl, rfl, rfl⟩
    rcases hfirst 0 "Outer" none _ _ 0 [] reserved (List.cons_ne_nil _ _) hfree
        (fun _ => steady_panicking) hat htake _ _ hlater with
      ⟨τs₁, τs₂, u, x, e, -, -, hrest, -, -, hsettled⟩ | ⟨x, gs, hx, hunder⟩
    · have hentry : abandoned.world.entryOf? (0, "Outer") = some .abandoned := rfl
      cases hentry.symm.trans (hsettled abandoned hrest.run).1
      exact fun n hn => hsettled n (hrest.run.trans hn)
    · -- A task that is over is not in the middle of a definition.
      obtain ⟨rfl, rfl⟩ := at_unique hended hx
      exact absurd rfl hunder.frames_ne
  · have hsome : ((abandoned.world.classes 0).get? "Inner").isSome := by decide +kernel
    obtain ⟨c, hc⟩ := Option.isSome_iff_exists.mp hsome
    exact ⟨c, hc, hclasses 0 "Inner" c hc⟩

end Machine

end ObjectKernel
