import DocFacts.Arguments.Entry

/-!
# Drafts

What changes in a draft when its token is replaced, and what does not.  The reader writes into the
token of the side that it is on, so these lemmas are all that later statements need of the two
sides.
-/

namespace DocFacts

theorem Entry.assemble_separated (entries : List Entry) :
    assemble entries false true = .list (entries.map value) := by
  cases entries with
  | nil => rfl
  | cons entry entries =>
    cases entries with
    | nil => rfl
    | cons entry' entries => rfl

namespace Draft

variable {d : Draft}

@[simp] theorem current_setCurrent (token : Token) : (d.setCurrent token).current = token := by
  obtain ⟨side, name, value, quoted⟩ := d
  cases side with
  | name => rfl
  | value => rfl

@[simp] theorem setCurrent_current : d.setCurrent d.current = d := by
  obtain ⟨side, name, value, quoted⟩ := d
  cases side with
  | name => rfl
  | value => rfl

@[simp] theorem setCurrent_setCurrent (token token' : Token) :
    (d.setCurrent token).setCurrent token' = d.setCurrent token' := by
  obtain ⟨side, name, value, quoted⟩ := d
  cases side with
  | name => rfl
  | value => rfl

@[simp] theorem side_setCurrent (token : Token) : (d.setCurrent token).side = d.side := by
  obtain ⟨side, name, value, quoted⟩ := d
  cases side with
  | name => rfl
  | value => rfl

@[simp] theorem quoted_setCurrent (token : Token) : (d.setCurrent token).quoted = d.quoted := by
  obtain ⟨side, name, value, quoted⟩ := d
  cases side with
  | name => rfl
  | value => rfl

@[simp] theorem current_quote (text : String) : (d.quote text).current = .text text := by
  obtain ⟨side, name, value, quoted⟩ := d
  cases side with
  | name => rfl
  | value => rfl

theorem value_finish (d : Draft) : d.finish.value = d.current.value d.quoted := by
  obtain ⟨side, name, value, quoted⟩ := d
  cases side with
  | name => rfl
  | value => rfl

/-- A character is added to the text that has been read. -/
theorem push_eq {seen : List Char} (h : d.current = .text (String.ofList seen)) (c : Char) :
    d.push c = d.setCurrent (.text (String.ofList (seen ++ [c]))) := by
  have hstring : (String.ofList seen).push c = String.ofList (seen ++ [c]) :=
    String.toList_inj.1 (by simp)
  rw [push, h, Token.push, hstring]

/-- Nothing has been read of the token. -/
structure Fresh (d : Draft) : Prop where
  /-- There is no text. -/
  empty : d.current = .text ""
  /-- There is no string. -/
  unquoted : d.quoted = false

theorem fresh_empty : Fresh {} := ⟨rfl, rfl⟩

/-- The draft of a row, once its equals sign has been crossed. -/
def row (key : String) : Draft := (({} : Draft).setCurrent (.text key)).crossEquals

theorem fresh_row (key : String) : (row key).Fresh := ⟨rfl, rfl⟩

/-- Nothing has been read of a value in front of the equals sign. -/
def Unvalued (d : Draft) : Prop := d.side = .name → d.value = .text ""

theorem Unvalued.setCurrent (h : d.Unvalued) (token : Token) :
    (d.setCurrent token).Unvalued := by
  obtain ⟨side, name, value, quoted⟩ := d
  cases side with
  | name => exact h
  | value =>
    intro hside
    cases hside

/-! ## Closed drafts -/

/-- The draft holds a string or a composite, to which nothing can be added. -/
def IsClosed (d : Draft) : Prop := d.quoted = true ∨ ∃ v, d.current = .composite v

theorem not_isClosed_of_text {t : String} (hquoted : d.quoted = false) (ht : d.current = .text t) :
    ¬ d.IsClosed := by
  rintro (hd | ⟨v, hv⟩)
  · rw [hquoted] at hd
    cases hd
  · rw [ht] at hv
    cases hv

theorem unquoted_of_not_isClosed (h : ¬ d.IsClosed) : d.quoted = false :=
  eq_false_of_ne_true fun hd => h (.inl hd)

theorem exists_text_of_not_isClosed (h : ¬ d.IsClosed) : ∃ t, d.current = .text t := by
  cases hcurrent : d.current with
  | text t => exact ⟨t, rfl⟩
  | composite v => exact absurd (.inr ⟨v, hcurrent⟩) h

theorem not_isClosed_push (h : ¬ d.IsClosed) (c : Char) : ¬ (d.push c).IsClosed := by
  obtain ⟨t, ht⟩ := exists_text_of_not_isClosed h
  refine not_isClosed_of_text (t := t.push c) ?_ ?_
  · exact (quoted_setCurrent _).trans (unquoted_of_not_isClosed h)
  · rw [push, current_setCurrent, ht]
    rfl

theorem exists_named_iff : (∃ key v, d.finish = .named key v) ↔ d.side = .value := by
  obtain ⟨side, name, value, quoted⟩ := d
  cases side with
  | name => simp [finish]
  | value => simp [finish]

end Draft

end DocFacts
