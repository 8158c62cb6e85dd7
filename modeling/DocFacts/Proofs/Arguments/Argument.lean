import DocFacts.Proofs.Arguments.EntryValue
import DocFacts.Proofs.List
import DocFacts.Proofs.Value.Cast
import DocFacts.Proofs.Value.Leaf

/-!
# The arguments of a body

The arguments of a body are the texts in it that are values: those of its entries, and those in the
composites among them.  In a map an entry has no value if it is a flag, and its value does not
count if its key comes again in a later entry (`ValueIn`).

Every argument is cast to a leaf of the value of the body (`Argument.leaf`).  Conversely every leaf
is what an argument is cast to, but for the empty strings that stand for flags (`exists_argument`).
The entries are settled first, as `SplitsAtCommas` does, and a composite is shorter than the body it
stands in.
-/

namespace DocFacts

variable {body text w raw : List Char} {v x : Value} {quoted : Bool}

/-! ## The values of the entries -/

/-- Two texts stand for rows of the same key. -/
def SameKey (text text' : List Char) : Prop :=
  ∃ row row', RowOf text row ∧ RowOf text' row' ∧ row.1 = row'.1

/-- The text is the value of an entry of the body, and counts. -/
inductive ValueIn (body w : List Char) : Prop where
  /-- In a list every entry is a value that is not blank. -/
  | item (hmem : w ∈ entryTexts body) (hblank : ¬ BlankText w)
      (hkeyed : ∀ text ∈ entryTexts body, ¬ Keyed text) : ValueIn body w
  /-- In a map an entry with an equals sign has a value, which counts unless the key of the entry
  comes again. -/
  | row {before after : List (List Char)} {text : List Char}
      (htexts : entryTexts body = before ++ text :: after) (hkeyed : Keyed text)
      (hvalue : ValueOf text w)
      (hlast : ∀ later ∈ after, ¬ BlankText later → ¬ SameKey text later) : ValueIn body w

theorem ValueIn.length_le (h : ValueIn body w) : w.length ≤ body.length := by
  cases h with
  | item hmem _ _ => exact length_le_of_mem_entryTexts hmem
  | row htexts _ hvalue _ =>
    have hmem : _ ∈ entryTexts body := htexts ▸ List.mem_append_cons_self
    exact Nat.le_trans hvalue.length_le (length_le_of_mem_entryTexts hmem)

/-! ## The leaves of an assembled value -/

/-- The leaves of a body without equals signs are those of its entries. -/
theorem leaf_entries_iff {entries : List Entry} {separated : Bool} :
    (Entry.assemble entries false separated).Leaf x ↔ ∃ entry ∈ entries, entry.value.Leaf x := by
  have hlist : (Value.list (entries.map Entry.value)).Leaf x ↔
      ∃ entry ∈ entries, entry.value.Leaf x := by simp
  cases separated with
  | true => rwa [Entry.assemble_separated]
  | false =>
    match entries with
    | [] => exact hlist
    | [entry] => simp [Entry.assemble]
    | _ :: _ :: _ => exact hlist

/-- The leaves of a body with an equals sign are those of its rows. -/
theorem leaf_rows_iff {entries : List Entry} {separated : Bool} :
    (Entry.assemble entries true separated).Leaf x ↔ ∃ before entry after,
      entries = before ++ entry :: after ∧ entry.field.2.Leaf x ∧
        ∀ later ∈ after, later.field.1 ≠ entry.field.1 := by
  have hmap : Entry.assemble entries true separated =
      .map (Table.ofList (entries.map Entry.field)) := rfl
  rw [hmap, Value.leaf_map_iff]
  constructor
  · rintro ⟨row, hrow, hleaf⟩
    obtain ⟨before, after, hrows, hafter⟩ := Table.mem_ofList_iff.1 hrow
    obtain ⟨before, tail, rfl, rfl, htail⟩ := List.map_eq_append_iff.1 hrows
    obtain ⟨entry, after, rfl, rfl, rfl⟩ := List.map_eq_cons_iff.1 htail
    exact ⟨before, entry, after, rfl, hleaf, fun later hlater =>
      hafter later.field (List.mem_map_of_mem hlater)⟩
  · rintro ⟨before, entry, after, rfl, hleaf, hafter⟩
    refine ⟨entry.field, Table.mem_ofList_iff.2 ⟨before.map Entry.field, after.map Entry.field, ?_,
      fun row hrow => ?_⟩, hleaf⟩
    · rw [List.map_append, List.map_cons]
    · obtain ⟨later, hlater, rfl⟩ := List.mem_map.1 hrow
      exact hafter later hlater

/-! ## Entries and their texts -/

/-- Rows of other keys are rows of other texts. -/
theorem sameKey_iff {later : List Char} {entry entry' : Entry} (h : EntryText text entry)
    (h' : EntryText later entry') : SameKey text later ↔ entry.field.1 = entry'.field.1 := by
  constructor
  · rintro ⟨row, row', hrow, hrow', heq⟩
    rwa [hrow.unique h.rowOf, hrow'.unique h'.rowOf] at heq
  · intro heq
    exact ⟨_, _, h.rowOf, h'.rowOf, heq⟩

section

variable {front back : List (List Char)} {entries before after : List Entry} {entry : Entry}

/-- The text of an entry, and what stands behind both. -/
theorem exists_text (h : List.Forall₂ EntryText ((entryTexts body).filter (¬ BlankText ·))
    (before ++ entry :: after)) : ∃ front text back, entryTexts body = front ++ text :: back ∧
      ¬ BlankText text ∧ EntryText text entry ∧
      List.Forall₂ EntryText (back.filter (¬ BlankText ·)) after := by
  obtain ⟨before', text, after', hfilter, htext, hbehind⟩ := h.exists_of_append_cons_right
  obtain ⟨front, tail, htexts, -, htail⟩ := List.filter_eq_append_iff.1 hfilter
  obtain ⟨mid, back, rfl, -, hblank, rfl⟩ := List.filter_eq_cons_iff.1 htail
  refine ⟨front ++ mid, text, back, ?_, by simpa using hblank, htext, hbehind⟩
  rw [htexts, List.append_assoc]

/-- The entry of a text, and what stands behind both. -/
theorem exists_entry (h : List.Forall₂ EntryText ((entryTexts body).filter (¬ BlankText ·)) entries)
    (htexts : entryTexts body = front ++ text :: back) (hblank : ¬ BlankText text) :
    ∃ before entry after, entries = before ++ entry :: after ∧ EntryText text entry ∧
      List.Forall₂ EntryText (back.filter (¬ BlankText ·)) after := by
  rw [htexts, List.filter_append, List.filter_cons_of_pos (by simpa using hblank)] at h
  exact h.exists_of_append_cons_left

/-- The key of an entry comes again in the texts behind its own if it does in the entries. -/
theorem not_sameKey_iff (h : EntryText text entry)
    (hbehind : List.Forall₂ EntryText (back.filter (¬ BlankText ·)) after) :
    (∀ later ∈ back, ¬ BlankText later → ¬ SameKey text later) ↔
      ∀ later ∈ after, later.field.1 ≠ entry.field.1 := by
  constructor
  · intro hlast later hlater heq
    obtain ⟨_, _, rfl⟩ := List.append_of_mem hlater
    obtain ⟨_, text', _, hback, htext', -⟩ := hbehind.exists_of_append_cons_right
    obtain ⟨hmem, hblank⟩ := List.mem_filter.1 (hback ▸ List.mem_append_cons_self)
    exact hlast text' hmem (by simpa using hblank) ((sameKey_iff h htext').2 heq.symm)
  · intro hafter later hlater hblank hsame
    have hmem : later ∈ back.filter (¬ BlankText ·) :=
      List.mem_filter.2 ⟨hlater, by simpa using hblank⟩
    obtain ⟨_, _, hback⟩ := List.append_of_mem hmem
    rw [hback] at hbehind
    obtain ⟨_, entry', _, rfl, hentry', -⟩ := hbehind.exists_of_append_cons_left
    have heq := (sameKey_iff h hentry').1 hsame
    exact hafter entry' (List.mem_append_right _ List.mem_cons_self) heq.symm

end

/-! ## From leaves to values and back -/

/-- A leaf of a body is one of a value that counts, or the empty string of a flag. -/
theorem exists_valueIn (h : parseBody body = .ok v) (hx : v.Leaf x) : x = .string "" ∨
    ∃ w spelling u, ValueIn body w ∧ SpelledAs w [] spelling ∧ spelling.value = .ok u ∧
      u.Leaf x := by
  obtain ⟨entries, hentries, hbody⟩ := exists_entries (exists_values ⟨v, h⟩)
  rw [h] at hbody
  obtain rfl := Except.ok.inj hbody
  cases hany : (entryTexts body).any (Keyed ·) with
  | false =>
    rw [hany, leaf_entries_iff] at hx
    obtain ⟨entry, hentry, hx⟩ := hx
    obtain ⟨before, after, rfl⟩ := List.append_of_mem hentry
    obtain ⟨front, text, back, htexts, hblank, htext, -⟩ := exists_text hentries
    have hmem : text ∈ entryTexts body := htexts ▸ List.mem_append_cons_self
    have hkeyed : ∀ text ∈ entryTexts body, ¬ Keyed text := by simpa using hany
    obtain ⟨w, spelling, hw, hspelled, hvalue⟩ :=
      htext.exists_spelled hblank (not_meets_of_mem_entryTexts hmem)
    obtain rfl := hw.unique (.whole (hkeyed text hmem))
    exact .inr ⟨w, spelling, _, .item hmem hblank hkeyed, hspelled, hvalue, hx⟩
  | true =>
    rw [hany, leaf_rows_iff] at hx
    obtain ⟨before, entry, after, rfl, hx, hafter⟩ := hx
    obtain ⟨front, text, back, htexts, hblank, htext, hbehind⟩ := exists_text hentries
    have hmem : text ∈ entryTexts body := htexts ▸ List.mem_append_cons_self
    obtain ⟨w, spelling, hw, hspelled, hvalue⟩ :=
      htext.exists_spelled hblank (not_meets_of_mem_entryTexts hmem)
    have hlast := (not_sameKey_iff htext hbehind).2 hafter
    cases htext with
    | unnamed _ _ _ => exact .inl (hx.eq rfl).symm
    | named hkeyed _ =>
      exact .inr ⟨w, spelling, _, .row htexts hkeyed hw hlast, hspelled, hvalue, hx⟩

/-- What a value that counts spells is a part of the value of the body. -/
theorem ValueIn.exists_value {spelling : Spelling} (hw : ValueIn body w)
    (hspelled : SpelledAs w [] spelling) (h : parseBody body = .ok v) :
    ∃ u, spelling.value = .ok u ∧ ∀ x, u.Leaf x → v.Leaf x := by
  obtain ⟨entries, hentries, hbody⟩ := exists_entries (exists_values ⟨v, h⟩)
  rw [h] at hbody
  obtain rfl := Except.ok.inj hbody
  cases hw with
  | item hmem hblank hkeyed =>
    have hany : (entryTexts body).any (Keyed ·) = false := by simpa using hkeyed
    obtain ⟨front, back, htexts⟩ := List.append_of_mem hmem
    obtain ⟨before, entry, after, rfl, hentry, -⟩ := exists_entry hentries htexts hblank
    obtain ⟨w', spelling', hw', hspelled', hvalue⟩ :=
      hentry.exists_spelled hblank (not_meets_of_mem_entryTexts hmem)
    obtain rfl := hw'.unique (.whole (hkeyed w hmem))
    rw [hspelled.unique hspelled']
    refine ⟨_, hvalue, fun x hx => ?_⟩
    rw [hany, leaf_entries_iff]
    exact ⟨entry, List.mem_append_right _ List.mem_cons_self, hx⟩
  | @row front back text htexts hkeyed hvalue hlast =>
    have hmem : text ∈ entryTexts body := htexts ▸ List.mem_append_cons_self
    have hany : (entryTexts body).any (Keyed ·) = true :=
      List.any_eq_true.2 ⟨text, hmem, decide_eq_true hkeyed⟩
    have hblank : ¬ BlankText text := Drafted.not_blankText_of_keyed hkeyed
    obtain ⟨before, entry, after, rfl, hentry, hbehind⟩ := exists_entry hentries htexts hblank
    obtain ⟨w', spelling', hw', hspelled', hvalue'⟩ :=
      hentry.exists_spelled hblank (not_meets_of_mem_entryTexts hmem)
    obtain rfl := hw'.unique hvalue
    rw [hspelled.unique hspelled']
    have hafter := (not_sameKey_iff hentry hbehind).1 hlast
    refine ⟨_, hvalue', fun x hx => ?_⟩
    rw [hany, leaf_rows_iff]
    refine ⟨before, entry, after, rfl, ?_, hafter⟩
    cases hentry with
    | unnamed hnot _ _ => exact absurd hkeyed hnot
    | named _ _ => exact hx

/-! ## Arguments at any depth -/

/-- The text is an argument of the body, at any depth, and stands between quotation marks or not. -/
inductive Argument : (body raw : List Char) → (quoted : Bool) → Prop where
  /-- A value that is spelled as a text. -/
  | text {body w raw : List Char} {quoted : Bool} (hvalue : ValueIn body w)
      (hspelled : SpelledAs w [] (.text raw quoted)) : Argument body raw quoted
  /-- An argument of a composite. -/
  | braces {body w inside raw : List Char} {quoted : Bool} (hvalue : ValueIn body w)
      (hspelled : SpelledAs w [] (.braces inside)) (h : Argument inside raw quoted) :
      Argument body raw quoted

/-- Nothing that is cast is a composite. -/
theorem isComposite_cast (raw : String) (quoted : Bool) :
    (Value.cast raw quoted).isComposite = false :=
  (Value.typed_ofText _).scalar

/-- **Every argument is a leaf** of the value of the body. -/
theorem Argument.leaf (h : Argument body raw quoted) (hv : parseBody body = .ok v) :
    v.Leaf (Value.cast (String.ofList raw) quoted) := by
  induction h generalizing v with
  | text hvalue hspelled =>
    obtain ⟨u, hu, hleaf⟩ := hvalue.exists_value hspelled hv
    obtain rfl := Except.ok.inj hu
    exact hleaf _ (.self (isComposite_cast _ _))
  | braces hvalue hspelled _ ih =>
    obtain ⟨u, hu, hleaf⟩ := hvalue.exists_value hspelled hv
    exact hleaf _ (ih hu)

/-- **Every leaf is an argument**, or the empty string of a flag. -/
theorem exists_argument (h : parseBody body = .ok v) (hx : v.Leaf x) : x = .string "" ∨
    ∃ raw quoted, Argument body raw quoted ∧ x = Value.cast (String.ofList raw) quoted := by
  induction hk : body.length using Nat.strongRecOn generalizing body v with
  | _ k ih =>
    rcases exists_valueIn h hx with hflag | ⟨w, spelling, u, hw, hspelled, hu, hx⟩
    · exact .inl hflag
    · cases spelling with
      | text raw quoted =>
        obtain rfl := Except.ok.inj hu
        exact .inr ⟨raw, quoted, .text hw hspelled, (hx.eq (isComposite_cast _ _)).symm⟩
      | braces inside =>
        have hshorter : inside.length < k := by
          rw [← hk]
          exact Nat.lt_of_lt_of_le hspelled.length_lt hw.length_le
        rcases ih _ hshorter hu hx rfl with hflag | ⟨raw, quoted, harg, heq⟩
        · exact .inl hflag
        · exact .inr ⟨raw, quoted, .braces hw hspelled harg, heq⟩

end DocFacts
