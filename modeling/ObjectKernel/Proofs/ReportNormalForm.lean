import ObjectKernel.Proofs.ReportRoundTrip

/-!
# The normal form of a report's bytes

The reader takes many spellings of one report: heads of any width, lengths that are not given in advance, tags,
keys in words, keys that are repeated or unknown, and `null` for what is not there. The writer has one spelling
for each report. So writing what was read gives a normal form, provided that the writer's bytes are read again,
and they are: whatever the reader has accepted has texts that are UTF-8, and lists that are not too long.

The argument follows the reader. What an item holds is no longer than the bytes it was read from, and its arrays
keep the limit (`Item.Within`); the reader of reports takes texts and lists from such items only.

## Contents

* `Item.Within`: an item whose texts and arrays are bounded. `Behind`, `item?_cases`: what can stand behind a head.
* `Reading`, `reading`: whatever is read of some bytes is within their length. `read?_within`: so is a document.
* `Report.accepted`: a report that was read can be stored.
* `Report.normalize?`: the normal form. `Report.normal_form`.
-/

namespace ObjectKernel

open Cbor Option List

variable {n : Nat}

namespace Utf8

theorem WellFormed.append {a b} (ha : WellFormed a) (hb : WellFormed b) : WellFormed (a ++ b) := by
  induction ha with
  | nil => exact hb
  | cons scalar tail ih =>
    rw [append_assoc]
    exact .cons scalar ih

/-- Chunks that are each well-formed are well-formed together. The converse fails: a chunk may end inside a
character. -/
theorem wellFormed_flatten {chunks : List Bytes} (h : ∀ b ∈ chunks, WellFormed b) : WellFormed chunks.flatten := by
  induction chunks with
  | nil => exact .nil
  | cons b chunks ih =>
    rw [forall_mem_cons] at h
    exact h.1.append (ih h.2)

end Utf8

/-! ## What is read of a byte string -/

namespace Cbor

variable {b rest : Bytes} {x : Item} {fuel n major depth number : Nat} {values : Dictionary Nat Item}
  {fields : List Nat} {hd : Head} {items : List Item} {entries : List (Item × Item)}

/-- An item with texts of at most `n` bytes and arrays of at most `maxElements` elements, also in its parts. -/
inductive Item.Within (n : Nat) : Item → Prop where
  | unsigned (k : Nat) : Within n (.unsigned k)
  | negative (k : Nat) : Within n (.negative k)
  | bytes (chunks : List Bytes) : Within n (.bytes chunks)
  | text {chunks : List Bytes} (short : chunks.flatten.length ≤ n) : Within n (.text chunks)
  | array {items : List Item} (few : items.length ≤ maxElements) (parts : ∀ i ∈ items, Within n i) :
      Within n (.array items)
  | map {entries : List (Item × Item)} (values : ∀ e ∈ entries, Within n e.2) : Within n (.map entries)
  | tag {number : Nat} {content : Item} (inner : Within n content) : Within n (.tag number content)
  | simple (k : Nat) : Within n (.simple k)
  | float (bits : Bytes) : Within n (.float bits)

theorem length_take? {k x} (h : take? k b = some (x, rest)) : x.length + rest.length = b.length := by
  unfold take? at h
  obtain ⟨-, heq⟩ := ite_none_right_eq_some.mp h
  cases heq
  rw [← length_append, take_append_drop]

/-- A head takes a byte at least. -/
theorem length_head? (h : head? b = some (hd, rest)) : rest.length < b.length := by
  cases b with
  | nil => cases h
  | cons first t =>
    rw [length_cons, Nat.lt_succ_iff]
    rw [head?] at h
    dsimp only at h
    split at h
    · cases h
      exact Nat.le_refl _
    · split at h
      · obtain ⟨-, heq⟩ := ite_none_right_eq_some.mp h
        cases heq
        exact Nat.le_refl _
      · -- The argument has bytes of its own.
        simp only [bind_eq_bind, bind_eq_some_iff] at h
        obtain ⟨width, -, ⟨spelled, after⟩, htake, h⟩ := h
        have hlength := length_take? htake
        dsimp only at h
        split at h
        · cases h
        · cases h
          omega

/-- Chunks are no longer than the bytes they are read from. -/
theorem length_chunks? {acc chunks} (h : chunks? major fuel acc b = some (chunks, rest)) :
    chunks.flatten.length + rest.length ≤ acc.reverse.flatten.length + b.length := by
  induction fuel generalizing acc b with
  | zero => cases h
  | succ fuel ih =>
    cases b with
    | nil => cases h
    | cons first t =>
      rw [chunks?] at h
      split at h
      · cases h
        simp
      · simp only [bind_eq_bind, bind_eq_some_iff] at h
        obtain ⟨⟨hd, after⟩, hhead, h⟩ := h
        dsimp only at h
        split at h
        · cases h
        · split at h
          · cases h
          · obtain ⟨⟨chunk, after'⟩, htake, h⟩ := bind_eq_some_iff.mp h
            have hrest := ih h
            have hchunk := length_take? htake
            have hlength := length_head? hhead
            simp only [reverse_cons, flatten_append, flatten_singleton,
              length_append] at hrest
            omega

theorem mem_of_entries? (h : entries? items = some entries) : ∀ e ∈ entries, e.2 ∈ items := by
  fun_induction entries? items generalizing entries with
  | case1 =>
    cases h
    exact nofun
  | case2 => cases h
  | case3 key value rest ih =>
    obtain ⟨others, hothers, rfl⟩ := map_eq_some_iff.mp h
    rw [forall_mem_cons]
    refine ⟨?_, fun e he => ?_⟩
    · simp
    · have hmem := ih hothers e he
      simp [hmem]

/-- A sequence of items that is read up to a break or by its number. -/
def Sequence (fuel depth : Nat) (b : Bytes) (items : List Item) (rest : Bytes) : Prop :=
  itemsToBreak? fuel depth [] b = some (items, rest) ∨ ∃ n, items? fuel depth n [] b = some (items, rest)

/-- What can be read behind a head, one case for each kind of item. -/
inductive Behind (fuel depth : Nat) (b : Bytes) : Item → Bytes → Prop where
  | unsigned (n : Nat) : Behind fuel depth b (.unsigned n) b
  | negative (n : Nat) : Behind fuel depth b (.negative n) b
  | bytes {chunks : List Bytes} {rest : Bytes} (fits : chunks.flatten.length + rest.length ≤ b.length) :
      Behind fuel depth b (.bytes chunks) rest
  | text {chunks : List Bytes} {rest : Bytes} (fits : chunks.flatten.length + rest.length ≤ b.length) :
      Behind fuel depth b (.text chunks) rest
  | array {items : List Item} {rest : Bytes} (few : items.length ≤ maxElements)
      (read : Sequence fuel (depth + 1) b items rest) : Behind fuel depth b (.array items) rest
  | map {items : List Item} {entries : List (Item × Item)} {rest : Bytes}
      (read : Sequence fuel (depth + 1) b items rest) (paired : entries? items = some entries) :
      Behind fuel depth b (.map entries) rest
  | tag (number : Nat) {content : Item} {rest : Bytes} (read : tagged? fuel depth b = some (content, rest)) :
      Behind fuel depth b (.tag number content) rest
  | simple (n : Nat) : Behind fuel depth b (.simple n) b
  | float (bits : Bytes) : Behind fuel depth b (.float bits) b

/-- A string in chunks or in one piece, of bytes or of text, is no longer than the bytes it is read from. -/
theorem fits_of_string {make : List Bytes → Item}
    (h : (if hd.info = 31 then (chunks? major fuel [] b).bind fun c => some (make c.1, c.2)
      else if hd.argument ≥ Number.signedLimit then none
      else (take? hd.argument b).bind fun c => some (make [c.1], c.2)) = some (x, rest)) :
    ∃ chunks, x = make chunks ∧ chunks.flatten.length + rest.length ≤ b.length := by
  split at h
  · obtain ⟨⟨chunks, after⟩, hchunks, h⟩ := bind_eq_some_iff.mp h
    cases h
    have hlength := length_chunks? hchunks
    simp only [reverse_nil, flatten_nil, length_nil, Nat.zero_add] at hlength
    exact ⟨chunks, rfl, hlength⟩
  · split at h
    · cases h
    · obtain ⟨⟨chunk, after⟩, htake, h⟩ := bind_eq_some_iff.mp h
      cases h
      refine ⟨[chunk], rfl, ?_⟩
      rw [flatten_singleton]
      exact Nat.le_of_eq (length_take? htake)

/-- As many items are read as were asked for. -/
theorem length_items? {acc} (h : items? fuel depth n acc b = some (items, rest)) : items.length = acc.length + n := by
  induction fuel generalizing n acc b with
  | zero =>
    rw [items?] at h
    cases h
  | succ fuel ih =>
    cases n with
    | zero =>
      rw [items?] at h
      cases h
      simp
    | succ n =>
      rw [items?] at h
      split at h
      · cases h
      · rw [ih h, length_cons]
        omega

theorem item?_cases (h : item? (fuel + 1) depth b = some (x, rest)) :
    ∃ hd after, head? b = some (hd, after) ∧ Behind fuel depth after x rest := by
  rw [item?] at h
  obtain ⟨⟨hd, after⟩, hhead, h⟩ := bind_eq_some_iff.mp h
  refine ⟨hd, after, hhead, ?_⟩
  clear hhead
  dsimp only at h
  -- One case for each major type.
  split at h
  · cases h
    exact .unsigned _
  · cases h
    exact .negative _
  · obtain ⟨chunks, rfl, hfits⟩ := fits_of_string h
    exact .bytes hfits
  · obtain ⟨chunks, rfl, hfits⟩ := fits_of_string h
    exact .text hfits
  · split at h
    · cases h
    · split at h
      · obtain ⟨⟨items, after'⟩, hitems, h⟩ := bind_eq_some_iff.mp h
        dsimp only at h
        split at h
        · cases h
        · rename_i hfew
          cases h
          exact .array (Nat.le_of_not_lt hfew) (.inl hitems)
      · split at h
        · cases h
        · rename_i hfew
          obtain ⟨⟨items, after'⟩, hitems, h⟩ := bind_eq_some_iff.mp h
          cases h
          have hlength := length_items? hitems
          rw [length_nil, Nat.zero_add] at hlength
          exact .array (hlength ▸ Nat.le_of_not_lt hfew) (.inr ⟨_, hitems⟩)
  · split at h
    · cases h
    · split at h
      · obtain ⟨⟨items, after'⟩, hitems, h⟩ := bind_eq_some_iff.mp h
        dsimp only at h
        split at h
        · cases h
        · obtain ⟨entries, hentries, h⟩ := bind_eq_some_iff.mp h
          cases h
          exact .map (.inl hitems) hentries
      · split at h
        · cases h
        · obtain ⟨⟨items, after'⟩, hitems, h⟩ := bind_eq_some_iff.mp h
          obtain ⟨entries, hentries, h⟩ := bind_eq_some_iff.mp h
          cases h
          exact .map (.inr ⟨_, hitems⟩) hentries
  · obtain ⟨⟨content, after'⟩, hcontent, h⟩ := bind_eq_some_iff.mp h
    cases h
    exact .tag _ hcontent
  · split at h
    · cases h
      exact .float _
    · cases h
      exact .simple _

/-- Whatever is read with some fuel, of at most `n` bytes, is within `n`, and takes bytes from the front. -/
structure Reading (n fuel : Nat) : Prop where
  item : ∀ {depth : Nat} {b rest : Bytes} {x : Item}, item? fuel depth b = some (x, rest) → b.length ≤ n →
    x.Within n ∧ rest.length ≤ b.length
  tagged : ∀ {depth : Nat} {b rest : Bytes} {x : Item}, tagged? fuel depth b = some (x, rest) → b.length ≤ n →
    x.Within n ∧ rest.length ≤ b.length
  items : ∀ {depth k : Nat} {acc items : List Item} {b rest : Bytes},
    items? fuel depth k acc b = some (items, rest) → b.length ≤ n → (∀ i ∈ acc, i.Within n) →
    (∀ i ∈ items, i.Within n) ∧ rest.length ≤ b.length
  itemsToBreak : ∀ {depth : Nat} {acc items : List Item} {b rest : Bytes},
    itemsToBreak? fuel depth acc b = some (items, rest) → b.length ≤ n → (∀ i ∈ acc, i.Within n) →
    (∀ i ∈ items, i.Within n) ∧ rest.length ≤ b.length

namespace Reading

variable {n fuel depth : Nat} {b rest : Bytes} {x : Item} {items : List Item}

theorem sequence (h : Reading n fuel) (hread : Sequence fuel depth b items rest) (hb : b.length ≤ n) :
    (∀ i ∈ items, i.Within n) ∧ rest.length ≤ b.length := by
  rcases hread with hread | ⟨k, hread⟩
  · exact h.itemsToBreak hread hb nofun
  · exact h.items hread hb nofun

theorem behind (h : Reading n fuel) (hx : Behind fuel depth b x rest) (hb : b.length ≤ n) :
    x.Within n ∧ rest.length ≤ b.length := by
  cases hx with
  | unsigned k => exact ⟨.unsigned k, Nat.le_refl _⟩
  | negative k => exact ⟨.negative k, Nat.le_refl _⟩
  | simple k => exact ⟨.simple k, Nat.le_refl _⟩
  | float bits => exact ⟨.float bits, Nat.le_refl _⟩
  | bytes fits => exact ⟨.bytes _, by omega⟩
  | text fits => exact ⟨.text (by omega), by omega⟩
  | array few read =>
    obtain ⟨hitems, hrest⟩ := h.sequence read hb
    exact ⟨.array few hitems, hrest⟩
  | map read paired =>
    obtain ⟨hitems, hrest⟩ := h.sequence read hb
    exact ⟨.map fun e he => hitems _ (mem_of_entries? paired e he), hrest⟩
  | tag number read =>
    obtain ⟨hcontent, hrest⟩ := h.tagged read hb
    exact ⟨.tag hcontent, hrest⟩

/-- One more unit of fuel. -/
theorem step (h : Reading n fuel) : Reading n (fuel + 1) where
  item hread hb := by
    obtain ⟨hd, after, hhead, hbehind⟩ := item?_cases hread
    have hlength := length_head? hhead
    obtain ⟨hx, hrest⟩ := h.behind hbehind (by omega)
    exact ⟨hx, by omega⟩
  tagged hread hb := by
    rw [tagged?] at hread
    obtain ⟨⟨hd, after⟩, hhead, hread⟩ := bind_eq_some_iff.mp hread
    have hlength := length_head? hhead
    dsimp only at hread
    split at hread
    · split at hread
      · cases hread
      · obtain ⟨⟨content, after'⟩, hcontent, hread⟩ := bind_eq_some_iff.mp hread
        cases hread
        obtain ⟨hinner, hrest⟩ := h.tagged hcontent (by omega)
        exact ⟨.tag hinner, Nat.le_trans hrest (Nat.le_of_lt hlength)⟩
    · exact h.item hread hb
  items {depth k acc items b rest} hread hb hacc := by
    cases k with
    | zero =>
      rw [items?] at hread
      cases hread
      exact ⟨by simpa using hacc, Nat.le_refl _⟩
    | succ k =>
      rw [items?] at hread
      split at hread
      · cases hread
      · rename_i x after hitem
        obtain ⟨hx, hafter⟩ := h.item hitem hb
        obtain ⟨hitems, hrest⟩ := h.items hread (by omega) (forall_mem_cons.mpr ⟨hx, hacc⟩)
        exact ⟨hitems, by omega⟩
  itemsToBreak {depth acc items b rest} hread hb hacc := by
    cases b with
    | nil =>
      rw [itemsToBreak?] at hread
      cases hread
    | cons first t =>
      rw [itemsToBreak?] at hread
      split at hread
      · cases hread
        exact ⟨by simpa using hacc, by simp⟩
      · split at hread
        · cases hread
        · rename_i x after hitem
          obtain ⟨hx, hafter⟩ := h.item hitem hb
          obtain ⟨hitems, hrest⟩ := h.itemsToBreak hread (by omega) (forall_mem_cons.mpr ⟨hx, hacc⟩)
          exact ⟨hitems, by omega⟩

end Reading

/-- **Whatever is read of some bytes is within their length.** -/
theorem reading (n fuel : Nat) : Reading n fuel := by
  induction fuel with
  | zero => constructor <;> simp [item?, tagged?, items?, itemsToBreak?]
  | succ fuel ih => exact ih.step

theorem read?_within (h : read? b = some x) : x.Within b.length := by
  unfold read? at h
  obtain ⟨⟨item, rest⟩, hitem, h⟩ := bind_eq_some_iff.mp h
  obtain ⟨-, heq⟩ := ite_none_right_eq_some.mp h
  cases heq
  exact ((reading _ _).item hitem (Nat.le_refl _)).1

/-! ## What is taken from an item -/

theorem Item.Within.untagged {y} (hx : x.Within n) (h : x.untagged? = some y) : y.Within n := by
  induction hx with
  | @tag number content inner ih =>
    rw [Item.untagged?] at h
    split at h
    · exact ih h
    · split at h
      · cases h
      · split at h
        · cases h
          exact .tag inner
        · exact ih h
  | unsigned | negative | bytes | text | array | map | simple | float =>
    cases h
    constructor <;> assumption

/-- A text that the reader accepts: UTF-8, of at most `n` bytes. -/
def Accepted (n : Nat) (b : Bytes) : Prop := b.length ≤ n ∧ Utf8.WellFormed b

theorem accepted_nil (n : Nat) : Accepted n [] := ⟨Nat.zero_le n, .nil⟩

/-- The text of an item is accepted. -/
theorem Item.Within.accepted (hx : x.Within n) (h : x.text? = some b) : Accepted n b := by
  unfold Item.text? at h
  obtain ⟨y, hy, h⟩ := bind_eq_some_iff.mp h
  have hwithin := hx.untagged hy
  split at h
  · rename_i chunks
    obtain ⟨hvalid, heq⟩ := ite_none_right_eq_some.mp h
    cases heq
    cases hwithin with
    | text short =>
      refine ⟨short, Utf8.wellFormed_flatten fun c hc => ?_⟩
      exact (Utf8.isValid_iff c).mp (all_eq_true.mp hvalid c hc)
  · obtain ⟨-, heq⟩ := ite_none_right_eq_some.mp h
    cases heq
    exact accepted_nil n

/-- The values of fields are values of entries. -/
theorem mem_of_fieldValues? (h : fieldValues? fields entries = some values) (hx : values.get? number = some x) :
    ∃ e ∈ entries, e.2 = x := by
  induction entries generalizing values with
  | nil =>
    cases h
    cases hx
  | cons e entries ih =>
    obtain ⟨key, value⟩ := e
    rw [fieldValues?] at h
    obtain ⟨named, -, h⟩ := bind_eq_some_iff.mp h
    obtain ⟨later, hlater, h⟩ := bind_eq_some_iff.mp h
    have hothers (hx : later.get? number = some x) : ∃ e ∈ (key, value) :: entries, e.2 = x := by
      obtain ⟨e, he, hvalue⟩ := ih hlater hx
      exact ⟨e, mem_cons_of_mem _ he, hvalue⟩
    cases named with
    | none =>
      cases h
      exact hothers hx
    | some k =>
      cases h
      by_cases hk : number = k
      · subst hk
        rw [Dictionary.get?_insert_self] at hx
        cases hx
        exact ⟨_, mem_cons_self, rfl⟩
      · rw [Dictionary.get?_insert_of_ne _ _ hk] at hx
        exact hothers hx

/-- What is decoded from a field has the properties of the default and of what the values give. -/
theorem decodeField_spec {α : Type} {P : α → Prop} (hentries : ∀ e ∈ entries, e.2.Within n)
    (hvalues : fieldValues? fields entries = some values) {default y decode} (hdefault : P default)
    (hdecode : ∀ {x}, x.Within n → decode x = some y → P y) (h : decodeField values number default decode = some y) :
    P y := by
  unfold decodeField at h
  split at h
  · cases h
    exact hdefault
  · rename_i x hx
    obtain ⟨e, he, rfl⟩ := mem_of_fieldValues? hvalues hx
    exact hdecode (hentries e he) h

end Cbor

theorem ThreadRecord.accepted {x : Item} {t} (hx : x.Within n) (h : ThreadRecord.ofItem? x = some t) :
    ∀ b ∈ t.texts, Accepted n b := by
  unfold ThreadRecord.ofItem? at h
  obtain ⟨y, hy, h⟩ := bind_eq_some_iff.mp h
  have hwithin := hx.untagged hy
  split at h
  · cases hwithin with
    | map hentries =>
      simp only [bind_eq_bind, bind_eq_some_iff] at h
      obtain ⟨values, hvalues, id, -, name, hname, state, hstate, uncaught, huncaught, heq⟩ := h
      cases heq
      have htext {number : Nat} {b : Bytes} (hb : decodeField values number [] Item.text? = some b) :
          Accepted n b := decodeField_spec hentries hvalues (accepted_nil n) Item.Within.accepted hb
      simp only [texts, forall_mem_cons]
      exact ⟨htext hname, htext hstate, htext huncaught, forall_mem_nil _⟩
  · obtain ⟨-, heq⟩ := ite_none_right_eq_some.mp h
    cases heq
    simp [texts, accepted_nil]

theorem ThreadRecord.accepted_mapM {items : List Item} {ts : List ThreadRecord} (hitems : ∀ i ∈ items, i.Within n)
    (h : items.mapM ThreadRecord.ofItem? = some ts) :
    ts.length = items.length ∧ ∀ t ∈ ts, ∀ b ∈ t.texts, Accepted n b := by
  induction items generalizing ts with
  | nil =>
    cases h
    exact ⟨rfl, nofun⟩
  | cons i items ih =>
    rw [forall_mem_cons] at hitems
    simp only [mapM_cons, bind_eq_bind, bind_eq_some_iff] at h
    obtain ⟨t, ht, rest, hrest, heq⟩ := h
    cases heq
    obtain ⟨hlength, htexts⟩ := ih hitems.2 hrest
    refine ⟨by rw [length_cons, length_cons, hlength], ?_⟩
    exact forall_mem_cons.mpr ⟨ThreadRecord.accepted hitems.1 ht, htexts⟩

namespace Report

variable {n : Nat} {x : Item} {r : Report}

/-- A thread list that was read is not too long, and its texts are accepted. -/
theorem accepted_threads {threads : Option (List ThreadRecord)} (hx : x.Within n)
    (h : threadsOfItem? x = some threads) :
    (threads.getD []).length ≤ maxElements ∧ ∀ t ∈ threads.getD [], ∀ b ∈ t.texts, Accepted n b := by
  unfold threadsOfItem? at h
  obtain ⟨y, hy, h⟩ := bind_eq_some_iff.mp h
  have hwithin := hx.untagged hy
  split at h
  · obtain ⟨ts, hts, heq⟩ := bind_eq_some_iff.mp h
    cases heq
    cases hwithin with
    | array few parts =>
      obtain ⟨hlength, htexts⟩ := ThreadRecord.accepted_mapM parts hts
      exact ⟨hlength ▸ few, htexts⟩
  · obtain ⟨-, heq⟩ := ite_none_right_eq_some.mp h
    cases heq
    exact ⟨Nat.zero_le _, nofun⟩

/-- **A report that was read has few threads and accepted texts.** -/
theorem accepted (hx : x.Within n) (h : ofItem? x = some r) :
    r.records.length ≤ maxElements ∧ ∀ b ∈ r.texts, Accepted n b := by
  unfold ofItem? at h
  obtain ⟨y, hy, h⟩ := bind_eq_some_iff.mp h
  have hwithin := hx.untagged hy
  split at h
  · cases hwithin with
    | map hentries =>
      simp only [bind_eq_bind, bind_eq_some_iff] at h
      obtain ⟨values, hvalues, session, hsession, started, -, finished, -, threads, hthreads, barriers, -, heq⟩ :=
        h
      cases heq
      have hsession : Accepted n session :=
        decodeField_spec hentries hvalues (accepted_nil n) Item.Within.accepted hsession
      have hrecords : (threads.getD []).length ≤ maxElements ∧
          ∀ t ∈ threads.getD [], ∀ b ∈ t.texts, Accepted n b :=
        decodeField_spec (P := fun threads => (threads.getD []).length ≤ maxElements ∧
          ∀ t ∈ threads.getD [], ∀ b ∈ t.texts, Accepted n b)
          hentries hvalues ⟨Nat.zero_le _, nofun⟩ accepted_threads hthreads
      exact ⟨hrecords.1, forall_texts.mpr ⟨hsession, hrecords.2⟩⟩
  · obtain ⟨-, heq⟩ := ite_none_right_eq_some.mp h
    cases heq
    exact ⟨Nat.zero_le _, forall_texts.mpr ⟨accepted_nil n, nofun⟩⟩

/-- What was read can be written and read again. -/
theorem decode?_encode_of_decode? {b : Bytes} (hb : b.length < Number.signedLimit) (h : decode? b = some r) :
    decode? r.encode = some r := by
  unfold decode? at h
  obtain ⟨x, hx, h⟩ := bind_eq_some_iff.mp h
  obtain ⟨hfew, htexts⟩ := accepted (read?_within hx) h
  have hsized : r.Sized :=
    ⟨fun t ht => Nat.lt_of_le_of_lt (htexts t ht).1 hb, Nat.lt_of_le_of_lt hfew (by decide)⟩
  have hstorable : r.Storable := ⟨fun t ht => (htexts t ht).2, hfew⟩
  rw [decode?_encode hsized, if_pos hstorable]

/-- The bytes of the report that some bytes are read as. -/
def normalize? (b : Bytes) : Option Bytes := (decode? b).map encode

/-- **Reading normalises.** Of all bytes that are read as one report, those that the writer makes of it are the
normal form: they are read as the same report, they are their own normal form, and bytes that are read as another
report have another one. The bytes may be any that a machine can hold. -/
theorem normal_form {b : Bytes} (hb : b.length < Number.signedLimit) {r : Report} (h : decode? b = some r) :
    decode? r.encode = some r ∧ normalize? b = some r.encode ∧ normalize? r.encode = some r.encode ∧
      ∀ {b' : Bytes} {r' : Report}, b'.length < Number.signedLimit → decode? b' = some r' →
        (normalize? b' = normalize? b ↔ r' = r) := by
  have hback := decode?_encode_of_decode? hb h
  have hform : normalize? b = some r.encode := by
    unfold normalize?
    rw [h, Option.map_some]
  refine ⟨hback, hform, ?_, ?_⟩
  · unfold normalize?
    rw [hback, Option.map_some]
  · intro b' r' hb' h'
    have hform' : normalize? b' = some r'.encode := by
      unfold normalize?
      rw [h', Option.map_some]
    rw [hform, hform']
    constructor
    · intro heq
      have hback' := decode?_encode_of_decode? hb' h'
      rw [Option.some.inj heq, hback] at hback'
      exact (Option.some.inj hback').symm
    · rintro rfl
      rfl

/-- A report in a roundabout spelling: a tag that means nothing, a map without a length, a key in words, a text in
chunks, a head that is too wide, a big number, a key that is repeated and one that is unknown, a list without a
length, and absent values. -/
def roundabout : Bytes :=
  [0xD9, 0xD9, 0xF7, 0xBF,
    0x61, 0x31, 0x7F, 0x61, 0x61, 0x78, 0x02, 0xC3, 0xA9, 0xFF,
    0x18, 0x02, 0xC2, 0x41, 0x07,
    0x03, 0x39, 0x00, 0x00,
    0x01, 0x61, 0x7A,
    0x19, 0x00, 0x63, 0x9F, 0xFF,
    0x04, 0x9F, 0xA1, 0x01, 0x20, 0xF6, 0xFF,
    0x05, 0xF7, 0xFF]

/-- The report in the roundabout spelling. -/
def terse : Report where
  session := "aé"
  startedAt := 7
  finishedAt := -1
  threads := some [{ id := -1 }, {}]

theorem normal_form_roundabout : roundabout.length < Number.signedLimit ∧ decode? roundabout = some terse ∧
    terse.encode ≠ roundabout ∧ decode? terse.encode = some terse ∧
    normalize? roundabout = some terse.encode ∧ normalize? terse.encode = some terse.encode := by
  have hlength : roundabout.length < Number.signedLimit := by decide +kernel
  have hread : decode? roundabout = some terse := by decide +kernel
  obtain ⟨hback, hform, hsame, -⟩ := normal_form hlength hread
  exact ⟨hlength, hread, by decide +kernel, hback, hform, hsame⟩

end Report

end ObjectKernel
