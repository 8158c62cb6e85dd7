import DocFacts.Proofs.List
import DocFacts.Text.Blank

/-!
# Texts with nothing to trim

Blank characters are dropped one by one, and dropping them ends at a character that is not
blank.  A text without blanks at its ends is what is left of it.
-/

namespace DocFacts.Text

theorem dropBlank_cons_of_isBlank {c : Char} (h : isBlank c = true) (text : List Char) :
    dropBlank (c :: text) = dropBlank text := by
  simp [dropBlank, h]

theorem dropBlank_cons_of_not {c : Char} (h : isBlank c = false) (text : List Char) :
    dropBlank (c :: text) = c :: text := by
  simp [dropBlank, h]

theorem dropBlank_eq {text : List Char} (h : ∀ c ∈ text.head?, isBlank c = false) :
    dropBlank text = text := by
  cases text with
  | nil => rfl
  | cons c text => exact dropBlank_cons_of_not (h c rfl) text

theorem dropBlank_append {blanks : List Char} (h : ∀ c ∈ blanks, isBlank c = true)
    (text : List Char) : dropBlank (blanks ++ text) = dropBlank text :=
  List.dropWhile_append_of_pos h

/-- What is dropped is blank. -/
theorem exists_append_dropBlank (text : List Char) :
    ∃ blanks, (∀ c ∈ blanks, isBlank c = true) ∧ blanks ++ dropBlank text = text :=
  ⟨text.takeWhile isBlank, List.all_eq_true.1 List.all_takeWhile,
    List.takeWhile_append_dropWhile⟩

/-- What is left of a text when it is trimmed stands in it. -/
theorem mem_of_mem_trim {text : List Char} {c : Char} (h : c ∈ trim text) : c ∈ text := by
  rw [trim, trimEnd, List.mem_reverse] at h
  have hdrop : c ∈ (dropBlank text).reverse := (List.dropWhile_suffix isBlank).mem h
  exact (List.dropWhile_suffix isBlank).mem (List.mem_reverse.1 hdrop)

/-- Nothing is trimmed of a text without blanks at its ends. -/
theorem trim_eq {text : List Char} (hhead : ∀ c ∈ text.head?, isBlank c = false)
    (hlast : ∀ c ∈ text.getLast?, isBlank c = false) : trim text = text := by
  have hreverse : ∀ c ∈ text.reverse.head?, isBlank c = false := by
    rw [List.head?_reverse]
    exact hlast
  rw [trim, dropBlank_eq hhead, trimEnd, dropBlank_eq hreverse, List.reverse_reverse]

/-! ## Blank characters at the end -/

section Append

variable {blanks : List Char}

theorem dropBlank_eq_nil (h : ∀ c ∈ blanks, isBlank c = true) : dropBlank blanks = [] := by
  rw [← List.append_nil blanks, dropBlank_append h]
  rfl

theorem trimEnd_append (h : ∀ c ∈ blanks, isBlank c = true) (text : List Char) :
    trimEnd (text ++ blanks) = trimEnd text := by
  rw [trimEnd, trimEnd, List.reverse_append,
    dropBlank_append fun c hc => h c (List.mem_reverse.1 hc)]

/-- Blank characters at the end of a text are trimmed. -/
theorem trim_append (h : ∀ c ∈ blanks, isBlank c = true) (text : List Char) :
    trim (text ++ blanks) = trim text := by
  rw [trim, trim, dropBlank, dropBlank, List.dropWhile_append]
  split
  · rename_i hempty
    rw [← dropBlank, dropBlank_eq_nil h, List.isEmpty_iff.1 hempty]
  · exact trimEnd_append h _

/-- Blank characters in front of a text are trimmed. -/
theorem trim_blanks_append (h : ∀ c ∈ blanks, isBlank c = true) (text : List Char) :
    trim (blanks ++ text) = trim text := by
  rw [trim, dropBlank_append h, trim]

/-- What is trimmed at the end is blank. -/
theorem exists_trimEnd_append (text : List Char) :
    ∃ blanks, (∀ c ∈ blanks, isBlank c = true) ∧ trimEnd text ++ blanks = text := by
  obtain ⟨blanks, hblanks, happend⟩ := exists_append_dropBlank text.reverse
  refine ⟨blanks.reverse, fun c hc => hblanks c (List.mem_reverse.1 hc), ?_⟩
  rw [trimEnd, ← List.reverse_append, happend, List.reverse_reverse]

/-- A text up to a character that is not blank has nothing to trim at its end. -/
theorem trimEnd_append_singleton {c : Char} (hc : isBlank c = false) (text : List Char) :
    trimEnd (text ++ [c]) = text ++ [c] := by
  rw [trimEnd, List.reverse_append, List.reverse_singleton, List.singleton_append,
    dropBlank_cons_of_not hc, List.reverse_cons, List.reverse_reverse]

/-- Of a text with a character that is not blank only what is behind it can be trimmed at the
end. -/
theorem trimEnd_append_cons {c : Char} (hc : isBlank c = false) (front back : List Char) :
    trimEnd (front ++ c :: back) = front ++ c :: trimEnd back := by
  rw [trimEnd, trimEnd, List.reverse_append, List.reverse_cons, List.append_assoc,
    List.singleton_append, dropBlank, List.dropWhile_append_cons hc, List.reverse_append,
    List.reverse_cons, List.reverse_reverse, List.append_assoc, List.singleton_append, dropBlank]

theorem trim_trimEnd (text : List Char) : trim (trimEnd text) = trim text := by
  obtain ⟨blanks, hblanks, happend⟩ := exists_trimEnd_append text
  rw [← trim_append hblanks (trimEnd text), happend]

/-- A text is blank, or it has a last character that is not blank, and is trimmed up to it. -/
theorem trim_cases (text : List Char) :
    (∀ c ∈ text, isBlank c = true) ∨
      ∃ front c back, isBlank c = false ∧ (∀ d ∈ back, isBlank d = true) ∧
        dropBlank text = front ++ c :: back ∧ trim text = front ++ [c] := by
  obtain ⟨back, hback, happend⟩ := exists_trimEnd_append (dropBlank text)
  rcases List.eq_nil_or_concat (trimEnd (dropBlank text)) with hnil | ⟨front, c, hconcat⟩
  · left
    obtain ⟨blanks, hblanks, htext⟩ := exists_append_dropBlank text
    rw [hnil, List.nil_append] at happend
    rw [← htext, ← happend]
    exact List.forall_mem_append.2 ⟨hblanks, hback⟩
  · right
    rw [List.concat_eq_append] at hconcat
    have hreverse : dropBlank (dropBlank text).reverse = c :: front.reverse := by
      rw [← List.reverse_inj, ← trimEnd, hconcat]
      simp
    refine ⟨front, c, back, isBlank_of_dropBlank_eq_cons hreverse, hback, ?_, hconcat⟩
    rw [← happend, hconcat, List.append_assoc, List.singleton_append]

/-- A text is trimmed to nothing if it is blank, and only then. -/
theorem trim_eq_nil_iff {text : List Char} : trim text = [] ↔ ∀ c ∈ text, isBlank c = true := by
  rcases trim_cases text with hblank | ⟨front, c, back, hc, -, hdrop, htrim⟩
  · rw [trim, dropBlank_eq_nil hblank]
    exact ⟨fun _ => hblank, fun _ => rfl⟩
  · rw [htrim]
    refine ⟨fun h => absurd h (by simp), fun hblank => ?_⟩
    rw [dropBlank_eq_nil hblank] at hdrop
    exact absurd hdrop.symm (by simp)

/-- More text goes behind what a text is trimmed to, with nothing trimmed in front of it but blank
characters. -/
theorem exists_trim_append {text : List Char} (h : trim text ≠ []) (back : List Char) :
    ∃ more, trim (text ++ back) = trim text ++ more ∧ trim more = trim back := by
  rcases trim_cases text with hblank | ⟨front, c, tail, hc, htail, hdrop, htrim⟩
  · exact absurd (trim_eq_nil_iff.2 hblank) h
  · refine ⟨trimEnd (tail ++ back), ?_, by rw [trim_trimEnd, trim_blanks_append htail]⟩
    have hfront : dropBlank (text ++ back) = front ++ c :: (tail ++ back) := by
      rw [dropBlank, List.dropWhile_append, ← dropBlank, hdrop, if_neg (by simp),
        List.append_assoc, List.cons_append]
    rw [trim, hfront, trimEnd_append_cons hc, htrim, List.append_assoc, List.singleton_append]

end Append

end DocFacts.Text
