import Mathlib.Data.List.Forall2

/-!
# Lists

What the theory needs of lists in general, whatever their elements are.  A list may be taken
apart at one of its elements (`append_eq_append_cons_cases`,
`Forall₂.exists_of_append_cons_left`), a class of elements may end at one
(`takeWhile_append_cons`), and two elements may stand next to each other in it
(`pair_infix_cons_cons_iff`).
-/

namespace List

variable {α β : Type}

/-! ## Apart at an element -/

section

variable {a b : α} {front back before after : List α}

/-- The element stands behind the front of the list or in it. -/
theorem append_eq_append_cons_cases (h : front ++ back = before ++ a :: after) :
    (∃ middle, before = front ++ middle ∧ back = middle ++ a :: after) ∨
      ∃ middle, front = before ++ a :: middle ∧ after = middle ++ back := by
  rcases append_eq_append_iff.1 h with ⟨middle, hbefore, hback⟩ | ⟨middle, hfront, hafter⟩
  · exact .inl ⟨middle, hbefore, hback⟩
  · cases middle with
    | nil =>
      rw [append_nil] at hfront
      exact .inl ⟨[], by rw [hfront, append_nil], hafter.symm⟩
    | cons b middle =>
      obtain ⟨rfl, rfl⟩ := cons.inj hafter
      exact .inr ⟨middle, hfront, rfl⟩

theorem eq_of_singleton_eq_append_cons (h : [b] = front ++ a :: back) :
    front = [] ∧ a = b ∧ back = [] := by
  cases front with
  | nil =>
    obtain ⟨rfl, rfl⟩ := cons.inj h
    exact ⟨rfl, rfl, rfl⟩
  | cons c front => simp at h

/-- A list is taken apart in one way at the last place of an element. -/
theorem append_cons_inj_of_not_mem_back (h : front ++ a :: back = before ++ a :: after)
    (hback : a ∉ back) (hafter : a ∉ after) : front = before ∧ back = after := by
  rcases append_eq_append_cons_cases h with ⟨middle, hbefore, hrest⟩ | ⟨middle, -, rfl⟩
  · cases middle with
    | nil => exact ⟨by rw [hbefore, append_nil], (cons.inj hrest).2⟩
    | cons b middle =>
      rw [(cons.inj hrest).2] at hback
      exact absurd mem_append_cons_self hback
  · exact absurd mem_append_cons_self hafter

theorem getElem?_and_drop_of_drop_eq_cons {n : Nat} (h : front.drop n = a :: back) :
    front[n]? = some a ∧ front.drop (n + 1) = back := by
  constructor
  · rw [← head?_drop, h, head?_cons]
  · rw [← drop_drop, h, drop_one, tail_cons]

end

/-! ## Classes of elements -/

section

variable {p q : α → Bool} {a : α} {l : List α}

theorem takeWhile_append_cons (ha : p a = false) (front back : List α) :
    (front ++ a :: back).takeWhile p = front.takeWhile p := by
  induction front with
  | nil => simp [ha]
  | cons b front ih =>
    cases hb : p b with
    | true => simp [hb, ih]
    | false => simp [hb]

theorem dropWhile_append_cons (ha : p a = false) (front back : List α) :
    (front ++ a :: back).dropWhile p = front.dropWhile p ++ a :: back := by
  induction front with
  | nil => simp [ha]
  | cons b front ih =>
    cases hb : p b with
    | true => simp [hb, ih]
    | false => simp [hb]

/-- The first element of a kind is the first one among those of its class too. -/
theorem find?_filter_of_find? (h : l.find? p = some a) (ha : q a = true) :
    (l.filter q).find? p = some a := by
  obtain ⟨hp, front, back, rfl, hfront⟩ := find?_eq_some_iff_append.1 h
  rw [find?_filter, find?_eq_some_iff_append]
  refine ⟨by simp [hp, ha], front, back, rfl, fun b hb => ?_⟩
  have hnot : p b = false := by simpa using hfront b hb
  simp [hnot]

end

theorem max?_append_singleton (l : List Nat) (n : Nat) :
    (l ++ [n]).max? = some (l.max?.elim n (max · n)) := by
  cases l with
  | nil => rfl
  | cons m l =>
    rw [cons_append, max?_cons', max?_cons', foldl_append]
    rfl

/-! ## Lists side by side -/

/-- Lists are the same if their elements have the same images and are told apart by them. -/
theorem eq_of_map_eq_map {f : α → β} {l l' : List α}
    (hinj : ∀ a ∈ l, ∀ b ∈ l', f a = f b → a = b) (h : l.map f = l'.map f) : l = l' := by
  induction l generalizing l' with
  | nil => exact (map_eq_nil_iff.1 h.symm).symm
  | cons a l ih =>
    cases l' with
    | nil => cases h
    | cons b l' =>
      obtain ⟨hhead, htail⟩ := cons.inj h
      rw [hinj a mem_cons_self b mem_cons_self hhead]
      rw [ih (fun c hc d hd => hinj c (mem_cons_of_mem _ hc) d (mem_cons_of_mem _ hd)) htail]

section

variable {R : α → β → Prop}

/-- What stands beside an element of the right list, and what stands behind both. -/
theorem Forall₂.exists_of_append_cons_right {l : List α} {before after : List β} {b : β}
    (h : Forall₂ R l (before ++ b :: after)) :
    ∃ before' a after', l = before' ++ a :: after' ∧ R a b ∧ Forall₂ R after' after := by
  have hdrop := forall₂_drop before.length h
  rw [drop_left] at hdrop
  obtain ⟨a, after', hab, hafter, hdrop⟩ := forall₂_cons_right_iff.1 hdrop
  exact ⟨l.take before.length, a, after', by rw [← hdrop, take_append_drop], hab, hafter⟩

/-- What stands beside an element of the left list, and what stands behind both. -/
theorem Forall₂.exists_of_append_cons_left {l : List β} {before after : List α} {a : α}
    (h : Forall₂ R (before ++ a :: after) l) :
    ∃ before' b after', l = before' ++ b :: after' ∧ R a b ∧ Forall₂ R after after' := by
  have hdrop := forall₂_drop before.length h
  rw [drop_left] at hdrop
  obtain ⟨b, after', hab, hafter, hdrop⟩ := forall₂_cons_left_iff.1 hdrop
  exact ⟨l.take before.length, b, after', by rw [← hdrop, take_append_drop], hab, hafter⟩

end

/-! ## Two elements next to each other -/

section

variable {a b c d : α}

theorem not_pair_infix_singleton (c : α) : ¬ [a, b] <:+: [c] := fun h => by
  simpa using h.length_le

/-- The two stand at the front or behind the first element. -/
theorem pair_infix_cons_cons_iff {rest : List α} :
    [a, b] <:+: c :: d :: rest ↔ (c = a ∧ d = b) ∨ [a, b] <:+: d :: rest := by
  rw [infix_cons_iff]
  simp [eq_comm]

/-- Two elements next to each other do not go over another one. -/
theorem not_pair_infix_append_cons {front back : List α} (ha : c ≠ a) (hb : c ≠ b)
    (hfront : ¬ [a, b] <:+: front) (hback : ¬ [a, b] <:+: back) :
    ¬ [a, b] <:+: front ++ c :: back := by
  induction front with
  | nil =>
    cases back with
    | nil => simpa using not_pair_infix_singleton c
    | cons d back =>
      rw [nil_append, pair_infix_cons_cons_iff]
      rintro (⟨hc, -⟩ | h)
      · exact ha hc
      · exact hback h
  | cons d front ih =>
    cases front with
    | nil =>
      rw [cons_append, nil_append, pair_infix_cons_cons_iff]
      rintro (⟨-, hc⟩ | h)
      · exact hb hc
      · exact ih (by simp) h
    | cons e front =>
      rw [pair_infix_cons_cons_iff, not_or] at hfront
      rw [cons_append, cons_append, pair_infix_cons_cons_iff]
      rintro (h | h)
      · exact hfront.1 h
      · exact ih hfront.2 h

end

end List
