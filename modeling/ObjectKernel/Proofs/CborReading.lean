import ObjectKernel.Cbor.Reader
import Mathlib.Algebra.Group.Nat.Defs
import Mathlib.Tactic.Common

/-!
# Canonical CBOR reads back

The canonical bytes of an item are read as that item, whatever follows them, if the item keeps within the
limits of the reader. A head spells its argument in the least width; the reader takes any width, so that
reading is shown for each width in turn. The fuel of the reader is enough because every item takes a byte.

## Contents

* `ofBigEndian_bigEndian`, `head?_head`: numbers and heads read back.
* `Reads`: an item reads back inside a number of levels. `items?_writeAll`: so do sequences of such items.
* The kinds of items one by one: `reads_unsigned`, `reads_text`, `reads_array`, `reads_map` and their like.
* `Refused`: an item that never reads back. `refused_array`: an array with too many elements.
-/

namespace ObjectKernel.Cbor

open List Item Option

variable {n fuel depth : Nat} {i bad : Item} {items after : List Item} {entries : List (Item × Item)}

/-! ## Numbers -/

theorem length_bigEndian (width n : Nat) : (bigEndian width n).length = width := by
  induction width generalizing n with
  | zero => rfl
  | succ width ih => rw [bigEndian, length_append, ih, length_singleton]

/-- A number that its width is enough for is spelled in full. -/
theorem ofBigEndian_bigEndian {width} (h : n < 256 ^ width) : ofBigEndian (bigEndian width n) = n := by
  induction width generalizing n with
  | zero =>
    cases Nat.lt_one_iff.mp h
    rfl
  | succ width ih =>
    have hquotient : n / 256 < 256 ^ width := by
      rw [Nat.div_lt_iff_lt_mul (by decide)]
      rwa [Nat.pow_succ] at h
    have hdigits : ofBigEndian (bigEndian (width + 1) n) =
        ofBigEndian (bigEndian width (n / 256)) * 256 + (n % 256).toUInt8.toNat := by
      unfold ofBigEndian Bytes.ofDigits
      rw [bigEndian, map_append, foldl_append]
      rfl
    rw [hdigits, ih hquotient, Bytes.toNat_toUInt8 (Nat.mod_lt n (by decide)), Nat.div_add_mod']

theorem take?_append (b rest : Bytes) : take? b.length (b ++ rest) = some (b, rest) := by
  unfold take?
  rw [if_pos (by rw [length_append]; exact Nat.le_add_right ..), take_left, drop_left]

/-! ## Heads -/

/-- The head of the least width is read for what it says. Simple values are left out from 24 on, where a
wider head may stand for something else. -/
theorem head?_head {major} (hn : n < Number.unsignedLimit) (hmajor : major < 7 ∨ major = 7 ∧ n < 24) (rest : Bytes) :
    ∃ info spelled, info ≠ 31 ∧ (n < 24 → info = n) ∧
      head? (head major n ++ rest) = some (⟨major, info, n, spelled⟩, rest) := by
  have hlt : major < 8 := by omega
  -- A head with its argument in some bytes after the initial one.
  have hwide {info width : Nat} (hinfo : 24 ≤ info ∧ info < 28) (hwidth : argumentWidth? info = some width)
      (hn24 : 24 ≤ n) (hfits : n < 256 ^ width) :
      head? ((major * 32 + info).toUInt8 :: bigEndian width n ++ rest) =
        some (⟨major, info, n, bigEndian width n⟩, rest) := by
    have hbyte : (major * 32 + info).toUInt8.toNat = major * 32 + info := Bytes.toNat_toUInt8 (by omega)
    have hquotient : (major * 32 + info) / 32 = major := by omega
    have hremainder : (major * 32 + info) % 32 = info := by omega
    have htake := take?_append (bigEndian width n) rest
    rw [length_bigEndian] at htake
    rw [cons_append, head?]
    simp only [hbyte, hquotient, hremainder]
    rw [if_neg (by omega), if_neg (by omega), hwidth]
    simp only [bind_eq_bind, bind_some, htake, ofBigEndian_bigEndian hfits]
    rw [if_neg (by omega)]
  unfold head
  by_cases h24 : n < 24
  · rw [if_pos h24]
    have hbyte : (major * 32 + n).toUInt8.toNat = major * 32 + n := Bytes.toNat_toUInt8 (by omega)
    refine ⟨n, [], by omega, fun _ => rfl, ?_⟩
    have hquotient : (major * 32 + n) / 32 = major := by omega
    have hremainder : (major * 32 + n) % 32 = n := by omega
    rw [singleton_append, head?]
    simp only [hbyte, hquotient, hremainder]
    rw [if_pos h24]
  · rw [if_neg h24]
    have hn24 : 24 ≤ n := Nat.le_of_not_lt h24
    split
    · exact ⟨24, _, by decide, fun h => absurd h h24, hwide (by decide) rfl hn24 ‹_›⟩
    · split
      · exact ⟨25, _, by decide, fun h => absurd h h24, hwide (by decide) rfl hn24 ‹_›⟩
      · split
        · exact ⟨26, _, by decide, fun h => absurd h h24, hwide (by decide) rfl hn24 ‹_›⟩
        · exact ⟨27, _, by decide, fun h => absurd h h24, hwide (by decide) rfl hn24 hn⟩

theorem length_head_pos (major n : Nat) : 0 < (head major n).length := by
  unfold head
  split
  · exact Nat.one_pos
  · split
    · exact Nat.succ_pos _
    · split
      · exact Nat.succ_pos _
      · split <;> exact Nat.succ_pos _

/-! ## Items -/

theorem length_write_pos (i : Item) : 0 < i.write.length := by
  have hhead (major n : Nat) (b : Bytes) : 0 < (head major n ++ b).length := by
    rw [length_append]
    exact Nat.add_pos_left (length_head_pos major n) _
  cases i with
  | unsigned n | negative n | simple n => exact length_head_pos _ _
  | bytes | text | array | map | tag =>
    rw [write]
    exact hhead ..
  | float bits =>
    rw [write]
    split
    · exact Nat.succ_pos _
    · split <;> exact Nat.succ_pos _

/-- An item that reads back inside a number of levels, whatever follows it. -/
def Reads (depth : Nat) (i : Item) : Prop :=
  ∀ fuel rest, 2 * i.write.length ≤ fuel → item? fuel depth (i.write ++ rest) = some (i, rest)

/-- Fuel for an item that takes a byte is not all gone. -/
theorem exists_fuel (h : 2 * i.write.length ≤ fuel) : ∃ f, fuel = f + 1 := by
  have hpos := length_write_pos i
  exact ⟨fuel - 1, by omega⟩

theorem reads_unsigned (hn : n < Number.unsignedLimit) (depth : Nat) : Reads depth (.unsigned n) := by
  intro fuel rest hfuel
  obtain ⟨fuel, rfl⟩ := exists_fuel hfuel
  obtain ⟨info, spelled, -, -, hhead⟩ := head?_head hn (.inl (by decide : 0 < 7)) rest
  rw [item?, write, hhead]
  rfl

theorem reads_negative (hn : n < Number.unsignedLimit) (depth : Nat) : Reads depth (.negative n) := by
  intro fuel rest hfuel
  obtain ⟨fuel, rfl⟩ := exists_fuel hfuel
  obtain ⟨info, spelled, -, -, hhead⟩ := head?_head hn (.inl (by decide : 1 < 7)) rest
  rw [item?, write, hhead]
  rfl

theorem reads_null (depth : Nat) : Reads depth .null := by
  intro fuel rest hfuel
  obtain ⟨fuel, rfl⟩ := exists_fuel hfuel
  obtain ⟨info, spelled, -, hinfo, hhead⟩ :=
    head?_head (by decide : 22 < Number.unsignedLimit) (.inr ⟨rfl, by decide⟩) rest
  rw [item?, null, write, hhead]
  cases hinfo (by decide)
  rfl

theorem reads_text {b : Bytes} (hb : b.length < Number.signedLimit) (depth : Nat) : Reads depth (.ofText b) := by
  intro fuel rest hfuel
  obtain ⟨fuel, rfl⟩ := exists_fuel hfuel
  have hlimit : b.length < Number.unsignedLimit := Nat.lt_trans hb (by decide)
  obtain ⟨info, spelled, hinfo, -, hhead⟩ := head?_head hlimit (.inl (by decide : 3 < 7)) (b ++ rest)
  rw [item?, ofText, write, flatten_singleton, append_assoc, hhead]
  simp only [bind_eq_bind, bind_some]
  rw [if_neg hinfo, if_neg (Nat.not_le_of_lt hb), take?_append]
  rfl

/-! ## Sequences -/

/-- Items that read back one by one read back together. -/
theorem items?_writeAll (h : ∀ i ∈ items, Reads depth i) (hfuel : 2 * (writeAll items).length + 1 ≤ fuel)
    (before : List Item) (rest : Bytes) :
    items? fuel depth items.length before (writeAll items ++ rest) = some (before.reverse ++ items, rest) := by
  induction items generalizing fuel before with
  | nil =>
    obtain ⟨fuel, rfl⟩ : ∃ f, fuel = f + 1 := ⟨fuel - 1, by omega⟩
    rw [length_nil, items?, append_nil]
    rfl
  | cons i items ih =>
    obtain ⟨fuel, rfl⟩ : ∃ f, fuel = f + 1 := ⟨fuel - 1, by omega⟩
    have hpos := length_write_pos i
    rw [writeAll, length_append] at hfuel
    have hread : item? fuel depth (i.write ++ (writeAll items ++ rest)) =
        some (i, writeAll items ++ rest) := h i mem_cons_self fuel _ (by omega)
    have hfuel' : 2 * (writeAll items).length + 1 ≤ fuel := by omega
    have hrest := ih (fun j hj => h j (mem_cons_of_mem i hj)) hfuel' (i :: before)
    rw [length_cons, writeAll, append_assoc, items?, hread]
    simp only
    rw [hrest, reverse_cons, append_assoc, singleton_append]

/-- The keys and values of a map in turn. -/
def flatEntries (entries : List (Item × Item)) : List Item := entries.flatMap fun e => [e.1, e.2]

theorem writeEntries_eq (entries : List (Item × Item)) :
    writeEntries entries = writeAll (flatEntries entries) := by
  induction entries with
  | nil => rfl
  | cons e entries ih =>
    obtain ⟨key, value⟩ := e
    rw [writeEntries, ih, append_assoc]
    rfl

theorem length_flatEntries (entries : List (Item × Item)) : (flatEntries entries).length = 2 * entries.length := by
  induction entries with
  | nil => rfl
  | cons e entries ih =>
    show (flatEntries entries).length + 1 + 1 = _
    rw [ih, length_cons]
    rfl

theorem entries?_flatEntries (entries : List (Item × Item)) : entries? (flatEntries entries) = some entries := by
  induction entries with
  | nil => rfl
  | cons e entries ih =>
    show (entries? (flatEntries entries)).map (e :: ·) = _
    rw [ih]
    rfl

theorem reads_array (hlength : items.length ≤ maxElements) (hdepth : depth + 1 ≤ maxDepth)
    (h : ∀ i ∈ items, Reads (depth + 1) i) : Reads depth (.array items) := by
  intro fuel rest hfuel
  obtain ⟨fuel, rfl⟩ := exists_fuel hfuel
  have hlimit : items.length < Number.unsignedLimit := Nat.lt_of_le_of_lt hlength (by decide)
  obtain ⟨info, spelled, hinfo, -, hhead⟩ :=
    head?_head hlimit (.inl (by decide : 4 < 7)) (writeAll items ++ rest)
  have hfuel' : 2 * (writeAll items).length + 1 ≤ fuel := by
    have hpos := length_head_pos 4 items.length
    rw [write, length_append] at hfuel
    omega
  rw [item?, write, append_assoc, hhead]
  simp only [bind_eq_bind, bind_some]
  rw [if_neg (Nat.not_lt_of_le hdepth), if_neg hinfo, if_neg (Nat.not_lt_of_le hlength),
    items?_writeAll h hfuel' [] rest]
  rfl

theorem reads_map (hlength : entries.length ≤ maxElements) (hdepth : depth + 1 ≤ maxDepth)
    (h : ∀ i ∈ flatEntries entries, Reads (depth + 1) i) : Reads depth (.map entries) := by
  intro fuel rest hfuel
  obtain ⟨fuel, rfl⟩ := exists_fuel hfuel
  have hlimit : entries.length < Number.unsignedLimit := Nat.lt_of_le_of_lt hlength (by decide)
  obtain ⟨info, spelled, hinfo, -, hhead⟩ :=
    head?_head hlimit (.inl (by decide : 5 < 7)) (writeAll (flatEntries entries) ++ rest)
  have hfuel' : 2 * (writeAll (flatEntries entries)).length + 1 ≤ fuel := by
    have hpos := length_head_pos 5 entries.length
    rw [write, writeEntries_eq, length_append] at hfuel
    omega
  have hitems := items?_writeAll h hfuel' [] rest
  rw [length_flatEntries] at hitems
  rw [item?, write, writeEntries_eq, append_assoc, hhead]
  simp only [bind_eq_bind, bind_some]
  rw [if_neg (Nat.not_lt_of_le hdepth), if_neg hinfo, if_neg (Nat.not_lt_of_le hlength), hitems]
  simp only [bind_some, reverse_nil, nil_append]
  rw [entries?_flatEntries]
  rfl

/-- **The canonical bytes of an item are read as that item.** -/
theorem read?_write (h : Reads 0 i) : read? i.write = some i := by
  have hitem := h (2 * i.write.length + 2) [] (Nat.le_add_right ..)
  rw [append_nil] at hitem
  rw [read?, hitem]
  rfl

/-! ## Refusals -/

/-- An item that is never read inside a number of levels. -/
def Refused (depth : Nat) (i : Item) : Prop :=
  ∀ fuel rest, item? fuel depth (i.write ++ rest) = none

/-- An array with more elements than the reader takes. -/
theorem refused_array (hlength : maxElements < items.length) (hlimit : items.length < Number.unsignedLimit)
    (depth : Nat) : Refused depth (.array items) := by
  intro fuel rest
  cases fuel with
  | zero => rw [item?]
  | succ fuel =>
    obtain ⟨info, spelled, hinfo, -, hhead⟩ :=
      head?_head hlimit (.inl (by decide : 4 < 7)) (writeAll items ++ rest)
    rw [item?, write, append_assoc, hhead]
    simp only [bind_eq_bind, bind_some, bind_none]
    rw [if_neg hinfo, if_pos hlength]
    split <;> rfl

/-- A sequence in which an item is refused after some that read back. -/
theorem items?_refused (h : ∀ i ∈ items, Reads depth i) (hbad : Refused depth bad)
    (hfuel : 2 * (writeAll (items ++ bad :: after)).length + 1 ≤ fuel) (before : List Item) (rest : Bytes) :
    items? fuel depth (items ++ bad :: after).length before
      (writeAll (items ++ bad :: after) ++ rest) = none := by
  induction items generalizing fuel before with
  | nil =>
    obtain ⟨fuel, rfl⟩ : ∃ f, fuel = f + 1 := ⟨fuel - 1, by omega⟩
    rw [nil_append, length_cons, writeAll, append_assoc, items?, hbad]
  | cons i items ih =>
    obtain ⟨fuel, rfl⟩ : ∃ f, fuel = f + 1 := ⟨fuel - 1, by omega⟩
    have hpos := length_write_pos i
    rw [cons_append, writeAll, length_append] at hfuel
    have hfuel' : 2 * (writeAll (items ++ bad :: after)).length + 1 ≤ fuel := by omega
    have hrest := ih (fun j hj => h j (mem_cons_of_mem i hj)) hfuel' (i :: before)
    rw [cons_append, length_cons, writeAll, append_assoc, items?,
      h i mem_cons_self fuel _ (by omega)]
    exact hrest

/-- **A map is not read if one of its keys or values is refused.** -/
theorem read?_refused (hlength : entries.length ≤ maxElements)
    (hentries : flatEntries entries = items ++ bad :: after) (h : ∀ i ∈ items, Reads 1 i) (hbad : Refused 1 bad) :
    read? (map entries).write = none := by
  have hlimit : entries.length < Number.unsignedLimit := Nat.lt_of_le_of_lt hlength (by decide)
  obtain ⟨info, spelled, hinfo, -, hhead⟩ :=
    head?_head hlimit (.inl (by decide : 5 < 7)) (writeAll (flatEntries entries))
  have hwrite : (map entries).write =
      head 5 entries.length ++ writeAll (flatEntries entries) := by
    rw [write, writeEntries_eq]
  have hfuel : 2 * (writeAll (flatEntries entries)).length + 1 ≤
      2 * (map entries).write.length + 1 := by
    rw [hwrite, length_append]
    omega
  rw [hentries] at hfuel
  have hitems := items?_refused h hbad hfuel [] []
  rw [← hentries, length_flatEntries, append_nil] at hitems
  have hitem : item? (2 * (map entries).write.length + 1 + 1) 0 (map entries).write = none := by
    generalize 2 * (map entries).write.length + 1 = fuel at hitems ⊢
    rw [item?, hwrite, hhead]
    simp only [bind_eq_bind, bind_some, bind_none]
    rw [if_neg (by decide), if_neg hinfo, if_neg (Nat.not_lt_of_le hlength), hitems]
    rfl
  rw [read?, hitem]
  rfl

end ObjectKernel.Cbor
