import ObjectKernel.Proofs.Endings
import ObjectKernel.Proofs.RepeatableRenderings

/-!
# Objects and the methods that their classes have for them

A built-in method body is written for one kind of object, and nothing but the class of a receiver decides whether it is
called for an object of that kind. So objects are sorted into families, one for each built-in class, and so are the
built-in bodies. An object is apt for its class if every built-in body that the class has for it is one of its family or
of the root, and if the methods that programs have added do not panic. Programs may return what errors they like; `E`
tells which ones these are.

A thread or a buffer that a program has allocated and bound to a class by itself is apt, but belongs to no runtime.

## Contents

* `Family`, `Builtin.family`, `World.family`: objects and bodies by kind. `World.Belongs`: an object is of a kind.
* `Stop.Regular`: faults of the kernel, and the errors of programs. `Activation.Quiet`: a call that never panics.
* `Class.Apt`, `World.Apt`: classes and objects in keeping with each other. `Class.Apt.find?`: the methods that are found.
* `World.WorkItem`, `World.RunsQuietly`: what threads run. `World.Raw`: an object that belongs to no runtime.
-/

namespace ObjectKernel

/-! ## Families -/

/-- What built-in method bodies are written for: all objects, strings, buffers, threads, or work items. -/
inductive Family where
  | any
  | text
  | buffer
  | thread
  | item
  deriving DecidableEq

/-- The built-in class of a family. -/
def Family.cls : Family → RuntimeId → Class
  | any => Builtin.rootClass
  | text => Builtin.textClass
  | buffer => Builtin.bufferClass
  | thread => Builtin.threadClass
  | item => Builtin.runnableClass

namespace Builtin

/-- The family that a body is written for. -/
def family : Builtin → Family
  | objectEquals | objectToText | objectHashCode => .any
  | textEquals | textToText | textCharAt | textLength | textHashCode => .text
  | bufferAppendObject | bufferAppendInt | bufferAppendLong | bufferToText | bufferLength => .buffer
  | threadRun | threadStart | threadJoin | threadJoinMillis | threadJoinNanos | threadIsAlive
  | threadToText => .thread
  | runnableRun => .item

/-- The selector that a body is called by. -/
def selector : Builtin → Selector
  | objectEquals | textEquals => .equals
  | objectToText | textToText | bufferToText | threadToText => .toText
  | objectHashCode | textHashCode => .hashCode
  | textCharAt => .charAt
  | textLength | bufferLength => .length
  | bufferAppendObject => .appendObject
  | bufferAppendInt => .appendInt
  | bufferAppendLong => .appendLong
  | threadRun | runnableRun => .run
  | threadStart => .start
  | threadJoin => .join
  | threadJoinMillis => .joinMillis
  | threadJoinNanos => .joinNanos
  | threadIsAlive => .isAlive

end Builtin

/-- The methods of a built-in class are the bodies of its family, each under its selector. -/
theorem Family.findLocal?_cls {f : Family} {r s meth} (h : (f.cls r).findLocal? s = some meth) :
    ∃ b, meth.code = .builtin r b ∧ b.family = f ∧ b.selector = s := by
  have hall : ∀ p ∈ (f.cls r).body.methods, ∃ b, p.2.code = .builtin r b ∧ b.family = f ∧ b.selector = p.1 := by
    -- A built-in class lists its methods one by one.
    cases f <;>
      repeat refine List.forall_mem_cons.mpr ⟨⟨_, rfl, rfl, rfl⟩, ?_⟩
    all_goals exact List.forall_mem_nil _
  exact hall _ (Dictionary.mem_of_get? h)

/-- The family that the content of an object belongs to. -/
def Payload.family : Payload → Family
  | .text .. => .text
  | .buffer .. => .buffer
  | .thread _ | .extended _ => .thread
  | .runnable _ => .item
  | .plain _ => .any

namespace World

variable {w v : World}

/-- The family of an object. -/
def family (w : World) (o : ObjId) : Family :=
  match w.object? o with
  | some obj => obj.payload.family
  | none => .any

/-- An object is what the bodies of a family are written for. -/
def Belongs (w : World) (o : ObjId) : Family → Prop
  | .any => True
  | .text => (w.text? o).isSome
  | .buffer => (w.buffer? o).isSome
  | .thread => (w.thread? (w.header o)).isSome
  | .item => (w.runnable? o).isSome

theorem belongs_family (hs : w.Sound) (o : ObjId) : w.Belongs o (w.family o) := by
  unfold family
  cases hobj : w.object? o with
  | none => trivial
  | some obj =>
    obtain ⟨cls, hash, payload⟩ := obj
    cases payload with
    | text home s => simp [Payload.family, Belongs, text?, hobj]
    | buffer home b => simp [Payload.family, Belongs, buffer?, hobj]
    | thread t => simp [Payload.family, Belongs, header, thread?, hobj]
    | extended part =>
      obtain ⟨t, ht⟩ := (hs.object hobj).payload
      simp [Payload.family, Belongs, header, hobj, ht]
    | runnable code => simp [Payload.family, Belongs, runnable?, hobj]
    | plain fields => trivial

end World

/-! ## Methods -/

/-- The regular stops: errors and panics that are faults of the kernel, and errors that programs return by themselves. -/
inductive Stop.Regular (E : Err → Prop) : Stop → Prop where
  | fault (f : Fault) : Regular E (.error (.fault f))
  | panic (f : Fault) : Regular E (.panic (.error (.fault f)))
  | own {e : Err} (own : E e) : Regular E (.error e)

/-- A call that never ends in a panic, and in no error but one of `E`, whatever goes on beside it. -/
def Activation.Quiet (E : Err → Prop) (a : Activation) : Prop :=
  ∀ w, a.program.Ends (fun _ => True) (fun _ => Outcome.Only fun s => ∃ e, s = .error e ∧ E e) w

/-- What stops a quiet call is regular. -/
theorem Activation.Quiet.ends {E : Err → Prop} {a : Activation} (h : a.Quiet E) {A : Stop → Prop}
    (hA : ∀ {s}, Stop.Regular E s → A s) (G : World → Prop) (w : World) :
    a.program.Ends G (fun _ => Outcome.Only A) w := by
  refine (h w).imp (fun _ _ => trivial) fun _ _ hout => hout.imp ?_
  rintro _ ⟨e, rfl, he⟩
  exact hA (.own he)

namespace Class

variable {c d owner : Class} {s : Selector} {meth : Method} {f : Family}

/-- The classes above a class of a chain are in the chain. -/
theorem chain_subset (h : d ∈ c.chain) : d.chain ⊆ c.chain := by
  induction c with
  | root body =>
    cases List.mem_singleton.mp h
    exact List.Subset.refl _
  | extend body parent ih =>
    rcases List.mem_cons.mp h with rfl | h
    · exact List.Subset.refl _
    · exact List.Subset.trans (ih h) (List.subset_cons_self ..)

theorem mem_chain_self (c : Class) : c ∈ c.chain := by cases c <;> exact List.mem_cons_self

theorem mem_chain_parent {p} (h : c.parent? = some p) : p ∈ c.chain := by
  cases c with
  | root body => cases h
  | extend body parent =>
    cases h
    exact List.mem_cons_of_mem _ (mem_chain_self p)

/-- A method that is found belongs to a class of the chain. -/
theorem mem_chain_of_find? (h : c.find? s = some (owner, meth)) :
    owner ∈ c.chain ∧ owner.findLocal? s = some meth := by
  induction c with
  | root body =>
    obtain ⟨_, hlocal, heq⟩ := Option.map_eq_some_iff.mp h
    cases heq
    exact ⟨List.mem_singleton.mpr rfl, hlocal⟩
  | extend body parent ih =>
    unfold find? at h
    split at h
    · rename_i hlocal
      cases h
      exact ⟨List.mem_cons_self, hlocal⟩
    · obtain ⟨hmem, hlocal⟩ := ih h
      exact ⟨List.mem_cons_of_mem _ hmem, hlocal⟩

/-- A class for objects of a family: it inherits the bodies of the built-in class of the family, if any, and what programs
have added to it and to the classes above does not panic. -/
structure Apt (E : Err → Prop) (f : Family) (c : Class) : Prop where
  inherits : ∀ ⦃d s meth r b⦄, d ∈ c.chain → d.findLocal? s = some meth → meth.code = .builtin r b →
    d = f.cls r ∨ d = Family.any.cls r
  added : ∀ ⦃d s meth r body⦄, d ∈ c.chain → d.findLocal? s = some meth → meth.code = .script r body →
    ∀ self args, (Activation.code meth.code self args).Quiet E

/-- Above the built-in class of a family there is only the root, and all their methods are built in. -/
theorem code_of_mem_chain_cls {r} (hd : d ∈ (f.cls r).chain) (hlocal : d.findLocal? s = some meth) :
    (d = f.cls r ∨ d = Family.any.cls r) ∧ ∃ b, meth.code = .builtin r b := by
  have hchain : d = f.cls r ∨ d = Family.any.cls r := by
    cases f with
    | any => exact .inl (List.mem_singleton.mp hd)
    | text | buffer | thread | item => exact (List.mem_cons.mp hd).imp id List.mem_singleton.mp
  refine ⟨hchain, ?_⟩
  rcases hchain with rfl | rfl
  · obtain ⟨b, hcode, -⟩ := Family.findLocal?_cls hlocal
    exact ⟨b, hcode⟩
  · obtain ⟨b, hcode, -⟩ := Family.findLocal?_cls hlocal
    exact ⟨b, hcode⟩

/-- The built-in class of a family is one for its objects. -/
theorem apt_cls (E : Err → Prop) (f : Family) (r : RuntimeId) : (f.cls r).Apt E f := by
  constructor
  · intro d s meth r' b hd hlocal hcode
    obtain ⟨hcls, b', hcode'⟩ := code_of_mem_chain_cls hd hlocal
    cases hcode.symm.trans hcode'
    exact hcls
  · intro d s meth r' body hd hlocal hcode
    obtain ⟨-, b', hcode'⟩ := code_of_mem_chain_cls hd hlocal
    cases hcode.symm.trans hcode'

/-- **The methods that a class has for objects of a family**: those that programs have added, which do not panic, and
bodies that are written for them. -/
theorem Apt.find? {E : Err → Prop} (h : c.Apt E f) (hd : d ∈ c.chain) (found : d.find? s = some (owner, meth)) :
    (∀ self args, (Activation.code meth.code self args).Quiet E) ∨
      ∃ r b, meth.code = .builtin r b ∧ (b.family = f ∨ b.family = .any) ∧ b.selector = s := by
  obtain ⟨howner, hlocal⟩ := mem_chain_of_find? found
  have hmem : owner ∈ c.chain := chain_subset hd howner
  cases hcode : meth.code with
  | script r body => exact .inl (hcode ▸ h.added hmem hlocal hcode)
  | builtin r b =>
    refine .inr ⟨r, b, rfl, ?_⟩
    rcases h.inherits hmem hlocal hcode with rfl | rfl
    · obtain ⟨b', hcode', hfamily, hselector⟩ := Family.findLocal?_cls hlocal
      cases hcode.symm.trans hcode'
      exact ⟨.inl hfamily, hselector⟩
    · obtain ⟨b', hcode', hfamily, hselector⟩ := Family.findLocal?_cls hlocal
      cases hcode.symm.trans hcode'
      exact ⟨.inr hfamily, hselector⟩

end Class

/-! ## Objects -/

namespace World

variable {w v : World} {o : ObjId} {E : Err → Prop} {f : Family}

/-- A work item as runtimes make them, whose code, if any, does not panic. -/
def WorkItem (w : World) (E : Err → Prop) (x : ObjId) : Prop :=
  ∃ r code, w.classOf? x = some (Builtin.runnableClass r) ∧ w.runnable? x = some code ∧
    ∀ c ∈ code, (Activation.code c none []).Quiet E

/-- An object that is apt for its class, if it has one. -/
def Apt (w : World) (E : Err → Prop) (o : ObjId) : Prop := ∀ ⦃c⦄, w.classOf? o = some c → c.Apt E (w.family o)

/-- An object that has the built-in class of its family. -/
theorem apt_of_cls (hfamily : w.family o = f) {r} (hcls : w.classOf? o = some (f.cls r)) : w.Apt E o := by
  intro c hc
  cases hcls.symm.trans hc
  rw [hfamily]
  exact Class.apt_cls E f r

/-- What an object has to run, its own code or that of its work item, does not panic. -/
structure RunsQuietly (w : World) (E : Err → Prop) (o : ObjId) : Prop where
  code : ∀ ⦃code⦄, w.runnable? o = some (some code) → (Activation.code code none []).Quiet E
  target : ∀ ⦃t x⦄, w.thread? (w.header o) = some t → t.target = some x → w.WorkItem E x

/-- A buffer that belongs to no runtime. -/
def LooseBuffer (w : World) (o : ObjId) : Prop := ∃ b, w.buffer? o = some (none, b)

/-- An object with a class that belongs to no runtime: a buffer, or a thread that was not initialised. -/
def Raw (w : World) (o : ObjId) : Prop :=
  (w.classOf? o).isSome ∧ (w.LooseBuffer o ∨ ∃ t, w.thread? (w.header o) = some t ∧ t.home = none)

theorem WorkItem.later (hv : w ≤ v) (h : w.WorkItem E o) : v.WorkItem E o := by
  obtain ⟨r, code, hcls, hcode, hquiet⟩ := h
  exact ⟨r, code, classOf?_later hv hcls, runnable?_later hv hcode, hquiet⟩

theorem isSome_classOf?_later (hv : w ≤ v) (h : (w.classOf? o).isSome) : (v.classOf? o).isSome := by
  obtain ⟨c, hc⟩ := Option.isSome_iff_exists.mp h
  rw [classOf?_later hv hc]
  rfl

theorem Belongs.later (hv : w ≤ v) (h : w.Belongs o f) : v.Belongs o f := by
  cases f with
  | any => trivial
  | text =>
    obtain ⟨t, ht⟩ := Option.isSome_iff_exists.mp h
    exact Option.isSome_iff_exists.mpr ⟨t, text?_later hv ht⟩
  | buffer =>
    obtain ⟨⟨home, b⟩, hb⟩ := Option.isSome_iff_exists.mp h
    obtain ⟨b', hb'⟩ := buffer?_later hv hb
    exact Option.isSome_iff_exists.mpr ⟨_, hb'⟩
  | thread =>
    obtain ⟨t, ht⟩ := Option.isSome_iff_exists.mp h
    obtain ⟨hheader, u, hu, -⟩ := thread?_header_later hv ht
    exact Option.isSome_iff_exists.mpr ⟨u, by rw [hheader]; exact hu⟩
  | item =>
    obtain ⟨code, hcode⟩ := Option.isSome_iff_exists.mp h
    exact Option.isSome_iff_exists.mpr ⟨code, runnable?_later hv hcode⟩

/-- The thread that an object is or has as its part is why the object is a thread. -/
theorem family_of_thread {t} (ht : w.thread? (w.header o) = some t) :
    w.family o = .thread ∧ w.text? o = none ∧ w.runnable? o = none ∧ w.buffer? o = none := by
  obtain ⟨obj, hobj, hp⟩ := thread?_eq_some.mp ht
  unfold header at hobj
  cases hown : w.object? o with
  | none =>
    rw [hown] at hobj
    cases hown.symm.trans hobj
  | some own =>
    rw [hown] at hobj
    obtain ⟨cls, hash, payload⟩ := own
    cases payload with
    | thread | extended => simp [family, text?, runnable?, buffer?, hown, Payload.family]
    | text | buffer | runnable | plain =>
      cases hown.symm.trans hobj
      cases hp

theorem LooseBuffer.later (hv : w ≤ v) (h : w.LooseBuffer o) : v.LooseBuffer o := by
  obtain ⟨b, hb⟩ := h
  exact buffer?_later hv hb

/-- What has a class and belongs to no runtime never will. -/
theorem Raw.later (hv : w.Follows v) (h : w.Raw o) : v.Raw o := by
  obtain ⟨hcls, hloose⟩ := h
  refine ⟨isSome_classOf?_later hv.le hcls, ?_⟩
  rcases hloose with hloose | ⟨t, ht, hhome⟩
  · exact .inl (hloose.later hv.le)
  · obtain ⟨hheader, -⟩ := thread?_header_later hv.le ht
    have hpart : (w.classOf? (w.header o)).isSome := by
      rw [classOf?_of_header ht rfl]
      exact hcls
    obtain ⟨u, hu, hgrant⟩ := hv.grants ht hpart
    refine .inr ⟨u, by rw [hheader]; exact hu, ?_⟩
    exact (congrArg Prod.fst hgrant).trans hhome

end World

end ObjectKernel
