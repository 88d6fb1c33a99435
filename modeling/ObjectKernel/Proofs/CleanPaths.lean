import ObjectKernel.Proofs.LoadedSettings

/-!
# Clean paths

A path that starts at the root and was cleaned is its names with separators before them: no part is empty or
a dot part, so cleaning it again changes nothing. The directory above it is what is left when the last name
is cut off and the rest is cleaned; only the root is its own directory above. So whoever goes up from such a
path passes the paths with fewer and fewer of its names, each shorter than the one before, and ends at the
root.

## Contents

* `Bytes.splitOn_append`, `Bytes.splitOn_joinWith`: parts that were joined are found again.
* `Path.IsName`: the parts that cleaning keeps. `Path.isName_of_mem_cleanParts`, `Path.clean_ofParts`.
* `Path.parent`: the directory above. `Path.parent_ofParts_cons`, `Path.parent_root`.
* `Path.AtOrAbove`: the directories that a path passes. `Path.mem_ancestors`.
-/

namespace ObjectKernel

open List

/-! ## Cutting and joining -/

namespace Bytes

variable {sep : UInt8} {b part : Bytes} {parts : List Bytes}

/-- No part contains the separator. -/
theorem not_mem_of_mem_splitOn (h : part ∈ splitOn sep b) : sep ∉ part := by
  induction b generalizing part with
  | nil =>
    rw [mem_singleton.mp h]
    exact not_mem_nil
  | cons x rest ih =>
    rw [splitOn] at h
    split at h
    · exact absurd ‹_› (splitOn_ne_nil sep rest)
    · rename_i first others hsplit
      rw [hsplit] at ih
      by_cases hx : x = sep
      · rw [if_pos hx] at h
        rcases mem_cons.mp h with rfl | h
        · exact not_mem_nil
        · exact ih h
      · rw [if_neg hx] at h
        rcases mem_cons.mp h with rfl | h
        · exact not_mem_cons_of_ne_of_not_mem (Ne.symm hx) (ih mem_cons_self)
        · exact ih (mem_cons_of_mem first h)

theorem splitOn_of_not_mem (h : sep ∉ b) : splitOn sep b = [b] := by
  induction b with
  | nil => rfl
  | cons x rest ih =>
    simp only [mem_cons, not_or] at h
    obtain ⟨hx, hrest⟩ := h
    simp only [splitOn, ih hrest, if_neg (Ne.symm hx)]

/-- A separator divides the parts before it from those after it. -/
theorem splitOn_append (sep : UInt8) (a b : Bytes) : splitOn sep (a ++ sep :: b) = splitOn sep a ++ splitOn sep b := by
  induction a with
  | nil =>
    cases hb : splitOn sep b with
    | nil => exact absurd hb (splitOn_ne_nil sep b)
    | cons part parts => simp [splitOn, hb]
  | cons x rest ih =>
    rw [cons_append, splitOn, ih, splitOn]
    cases hrest : splitOn sep rest with
    | nil => exact absurd hrest (splitOn_ne_nil sep rest)
    | cons part parts =>
      simp only [cons_append]
      split <;> rfl

theorem joinWith_cons (h : parts ≠ []) : joinWith [sep] (part :: parts) = part ++ sep :: joinWith [sep] parts := by
  cases parts with
  | nil => exact absurd rfl h
  | cons next rest => simp [joinWith]

theorem joinWith_concat (h : parts ≠ []) (part : Bytes) :
    joinWith [sep] (parts ++ [part]) = joinWith [sep] parts ++ sep :: part := by
  induction parts with
  | nil => exact absurd rfl h
  | cons first rest ih =>
    by_cases hrest : rest = []
    · subst hrest
      simp [joinWith]
    · rw [cons_append, joinWith_cons (by simp), ih hrest, joinWith_cons hrest, append_assoc,
        cons_append]

/-- Parts that were joined are found again. -/
theorem splitOn_joinWith (hne : parts ≠ []) (h : ∀ part ∈ parts, sep ∉ part) :
    splitOn sep (joinWith [sep] parts) = parts := by
  induction parts with
  | nil => exact absurd rfl hne
  | cons first rest ih =>
    obtain ⟨hfirst, hothers⟩ := forall_mem_cons.mp h
    by_cases hrest : rest = []
    · subst hrest
      exact splitOn_of_not_mem hfirst
    · rw [joinWith_cons hrest, splitOn_append, splitOn_of_not_mem hfirst, ih hrest hothers]
      rfl

end Bytes

/-! ## Names -/

namespace Path

variable {p dir part name : Bytes} {kept : List Bytes}

/-- A part that cleaning keeps. -/
structure IsName (part : Bytes) : Prop where
  ne_nil : part ≠ []
  ne_dot : part ≠ dot
  ne_dotDot : part ≠ dotDot
  not_mem : slash ∉ part

theorem IsName.push (h : IsName part) (kept : List Bytes) : push true kept part = part :: kept := by
  unfold Path.push
  rw [if_neg (not_or.mpr ⟨h.ne_nil, h.ne_dot⟩), if_neg h.ne_dotDot]

/-- From the root on, a part leaves only names behind. -/
theorem isName_push (hkept : ∀ name ∈ kept, IsName name) (hpart : slash ∉ part) :
    ∀ name ∈ push true kept part, IsName name := by
  unfold push
  by_cases hstay : part = [] ∨ part = dot
  · rw [if_pos hstay]
    exact hkept
  · rw [if_neg hstay]
    by_cases hup : part = dotDot
    · rw [if_pos hup]
      cases kept with
      | nil => exact nofun
      | cons last before =>
        obtain ⟨hlast, hbefore⟩ := forall_mem_cons.mp hkept
        simp only [if_neg hlast.ne_dotDot]
        exact hbefore
    · rw [if_neg hup]
      obtain ⟨hne, hdot⟩ := not_or.mp hstay
      exact forall_mem_cons.mpr ⟨⟨hne, hdot, hup, hpart⟩, hkept⟩

theorem isName_foldl_push {parts : List Bytes} (hparts : ∀ part ∈ parts, slash ∉ part)
    (hkept : ∀ name ∈ kept, IsName name) : ∀ name ∈ parts.foldl (push true) kept, IsName name := by
  induction parts generalizing kept with
  | nil => exact hkept
  | cons part rest ih =>
    obtain ⟨hpart, hrest⟩ := forall_mem_cons.mp hparts
    exact ih hrest (isName_push hkept hpart)

/-- What cleaning keeps of a path that starts at the root. -/
theorem isName_of_mem_cleanParts (h : isAbsolute p) : ∀ name ∈ cleanParts p, IsName name := by
  unfold cleanParts
  rw [h]
  apply isName_foldl_push
  · intro part hpart
    exact Bytes.not_mem_of_mem_splitOn hpart
  · exact nofun

theorem foldl_push_names {names : List Bytes} (h : ∀ name ∈ names, IsName name) :
    names.foldl (push true) kept = names.reverse ++ kept := by
  induction names generalizing kept with
  | nil => rfl
  | cons name rest ih =>
    obtain ⟨hname, hrest⟩ := forall_mem_cons.mp h
    rw [foldl_cons, hname.push, ih hrest, reverse_cons, append_assoc]
    rfl

/-! ## Cleaning what is clean -/

variable {kept : List Bytes}

/-- A path of names has them as its parts, after an empty one before the root. -/
theorem parts_ofParts (hne : kept ≠ []) (h : ∀ name ∈ kept, IsName name) :
    parts (ofParts true kept) = [] :: kept.reverse := by
  have hslash : ∀ name ∈ kept.reverse, slash ∉ name := by
    intro name hname
    exact (h name (mem_reverse.mp hname)).not_mem
  have hsplit := Bytes.splitOn_append slash [] (Bytes.joinWith [slash] kept.reverse)
  rw [Bytes.splitOn_joinWith (by simpa using hne) hslash] at hsplit
  exact hsplit

theorem cleanParts_ofParts (h : ∀ name ∈ kept, IsName name) : cleanParts (ofParts true kept) = kept := by
  by_cases hne : kept = []
  · subst hne
    rfl
  · have hnames : ∀ name ∈ kept.reverse, IsName name := fun name hname => h name (mem_reverse.mp hname)
    unfold cleanParts
    rw [parts_ofParts hne h, isAbsolute_ofParts, foldl_cons]
    have hempty : push true [] [] = [] := rfl
    rw [hempty, foldl_push_names hnames, reverse_reverse, append_nil]

/-- A path of names is clean. -/
theorem clean_ofParts (h : ∀ name ∈ kept, IsName name) : clean (ofParts true kept) = ofParts true kept := by
  unfold clean
  rw [isAbsolute_ofParts, cleanParts_ofParts h]

theorem clean_eq_ofParts (h : isAbsolute p) : clean p = ofParts true (cleanParts p) := by
  unfold clean
  rw [h]

/-- The absolute form of a path is a path of names. -/
theorem absolute_eq_ofParts {workingDir} (h : isAbsolute workingDir) (p : Bytes) :
    ∃ names, (∀ name ∈ names, IsName name) ∧ absolute workingDir p = ofParts true names := by
  unfold absolute
  by_cases hp : isAbsolute p = true
  · rw [if_pos hp]
    exact ⟨_, isName_of_mem_cleanParts hp, clean_eq_ofParts hp⟩
  · have hne : workingDir ≠ [] := by
      rintro rfl
      cases h
    have hjoin : isAbsolute (workingDir ++ [slash] ++ p) := by
      rw [append_assoc]
      exact isAbsolute_append h _
    rw [if_neg hp, join, if_neg hne]
    exact ⟨_, isName_of_mem_cleanParts hjoin, clean_eq_ofParts hjoin⟩

/-- A clean path is its own absolute form. -/
theorem absolute_ofParts (h : ∀ name ∈ kept, IsName name) (workingDir : Bytes) :
    absolute workingDir (ofParts true kept) = ofParts true kept := by
  unfold absolute
  rw [if_pos (isAbsolute_ofParts kept), clean_ofParts h]

/-! ## The directory above -/

/-- The directory above a path: all up to the last separator, cleaned. -/
def parent (p : Bytes) : Bytes := clean (p.reverse.dropWhile (· ≠ slash)).reverse

/-- A separator at the end means nothing. -/
theorem clean_concat_slash (h : isAbsolute p) : clean (p ++ [slash]) = clean p := by
  have hparts : parts (p ++ [slash]) = parts p ++ [[]] := Bytes.splitOn_append slash p []
  have hkept : cleanParts (p ++ [slash]) = cleanParts p := by
    unfold cleanParts
    rw [hparts, foldl_append, isAbsolute_append h, h]
    rfl
  rw [clean_eq_ofParts (isAbsolute_append h _), clean_eq_ofParts h, hkept]

/-- The last name of a path stands after a separator. -/
theorem parent_concat (p : Bytes) (h : slash ∉ name) : parent (p ++ slash :: name) = clean (p ++ [slash]) := by
  have hname : ∀ b ∈ name.reverse, decide (b ≠ slash) = true := by
    intro b hb
    refine decide_eq_true ?_
    rintro rfl
    exact h (mem_reverse.mp hb)
  unfold parent
  have hcut : (p ++ slash :: name).reverse.dropWhile (· ≠ slash) = slash :: p.reverse := by
    rw [reverse_append, reverse_cons, append_assoc, dropWhile_append_of_pos hname]
    rfl
  rw [hcut, reverse_cons, reverse_reverse]

/-- The root is its own directory above. -/
theorem parent_root : parent [slash] = [slash] := rfl

/-- The directory above a path has all its names but the last one. -/
theorem parent_ofParts_cons (h : ∀ part ∈ name :: kept, IsName part) :
    parent (ofParts true (name :: kept)) = ofParts true kept := by
  obtain ⟨hname, hkept⟩ := forall_mem_cons.mp h
  by_cases hne : kept = []
  · subst hne
    exact parent_concat [] hname.not_mem
  · have hpath : ofParts true (name :: kept) = ofParts true kept ++ slash :: name := by
      show slash :: Bytes.joinWith [slash] (name :: kept).reverse = _
      rw [reverse_cons, Bytes.joinWith_concat (by simpa using hne)]
      rfl
    rw [hpath, parent_concat _ hname.not_mem, clean_concat_slash (isAbsolute_ofParts kept), clean_ofParts hkept]

/-- With one name more a path is longer. -/
theorem length_ofParts_lt (kept : List Bytes) (h : name ≠ []) :
    (ofParts true kept).length < (ofParts true (name :: kept)).length := by
  have hpos : 0 < name.length := length_pos_iff.mpr h
  show (slash :: Bytes.joinWith [slash] kept.reverse).length <
    (slash :: Bytes.joinWith [slash] (name :: kept).reverse).length
  by_cases hne : kept = []
  · subst hne
    simpa [Bytes.joinWith] using hpos
  · rw [reverse_cons, Bytes.joinWith_concat (by simpa using hne)]
    simp only [length_cons, length_append]
    omega

/-! ## Going up -/

/-- A directory is at or above a path: its names are the first ones of the path. -/
def AtOrAbove (dir p : Bytes) : Prop := ∃ names, names <:+ cleanParts p ∧ dir = ofParts true names

theorem mem_ancestorsOf : dir ∈ ancestorsOf kept ↔ ∃ names, names <:+ kept ∧ dir = ofParts true names := by
  induction kept with
  | nil =>
    simp only [ancestorsOf, mem_singleton, suffix_nil]
    constructor
    · rintro rfl
      exact ⟨[], rfl, rfl⟩
    · rintro ⟨_, rfl, rfl⟩
      rfl
  | cons name before ih =>
    simp only [ancestorsOf, mem_cons, ih, suffix_cons_iff]
    constructor
    · rintro (rfl | ⟨names, hnames, rfl⟩)
      · exact ⟨_, .inl rfl, rfl⟩
      · exact ⟨names, .inr hnames, rfl⟩
    · rintro ⟨names, rfl | hnames, rfl⟩
      · exact .inl rfl
      · exact .inr ⟨names, hnames, rfl⟩

theorem mem_ancestors : dir ∈ ancestors p ↔ AtOrAbove dir p := mem_ancestorsOf

/-- Each directory on the way up is shorter than those before it. -/
theorem pairwise_ancestorsOf (h : ∀ name ∈ kept, IsName name) :
    (ancestorsOf kept).Pairwise fun lower upper => upper.length < lower.length := by
  induction kept with
  | nil => exact pairwise_singleton _ _
  | cons name before ih =>
    obtain ⟨hname, hbefore⟩ := forall_mem_cons.mp h
    refine pairwise_cons.mpr ⟨?_, ih hbefore⟩
    intro upper hupper
    have hfirst := length_ofParts_lt before hname.ne_nil
    cases before with
    | nil =>
      rw [mem_singleton.mp hupper]
      exact hfirst
    | cons next rest =>
      rcases mem_cons.mp hupper with rfl | hrest
      · exact hfirst
      · exact Nat.lt_trans ((pairwise_cons.mp (ih hbefore)).1 upper hrest) hfirst

end Path

end ObjectKernel
