import DocFacts.Proofs.List
import DocFacts.Text.Search

/-!
# Where a text is cut

A text is cut behind the first place of a mark of two characters: the mark stands at the end of
the front part and nowhere before (`cutBehind?_eq_some_iff`).  Without the mark it is not cut.
-/

namespace DocFacts.Text

variable {a b c d : Char} {text rest front back : List Char}

/-- A text is a front part, which ends at the first place of a mark, and the part behind it. -/
structure Cuts (a b : Char) (text front back : List Char) : Prop where
  /-- The parts are the text. -/
  append_eq : text = front ++ back
  /-- The mark stands at the end of the front part. -/
  ends : [a, b] <:+ front
  /-- It stands nowhere before. -/
  first : ¬ [a, b] <:+: front.dropLast

theorem cutBehind?_eq_none_iff : cutBehind? a b text = none ↔ ¬ [a, b] <:+: text := by
  fun_induction cutBehind? a b text with
  | case1 => simp
  | case2 c => simp [List.not_pair_infix_singleton]
  | case3 c d rest h => simp [List.pair_infix_cons_cons_iff, h]
  | case4 c d rest h ih => simp [List.pair_infix_cons_cons_iff, h, ih]

namespace Cuts

theorem mark_append (rest : List Char) : Cuts a b (a :: b :: rest) [a, b] rest :=
  ⟨rfl, List.suffix_refl _, List.not_pair_infix_singleton a⟩

/-- A text that does not start with the mark is cut where its rest is. -/
theorem cons (h : ¬ (c = a ∧ d = b)) (hcuts : Cuts a b (d :: rest) front back) :
    Cuts a b (c :: d :: rest) (c :: front) back := by
  obtain ⟨happend, hends, hfirst⟩ := hcuts
  refine ⟨by rw [happend, List.cons_append], hends.trans (List.suffix_cons c front), ?_⟩
  match front, happend, hends, hfirst with
  | [], _, _, _ => simp
  | [_], _, hends, _ => simpa using hends.length_le
  | d' :: e :: front, happend, _, hfirst =>
    obtain ⟨rfl, -⟩ := List.cons.inj happend
    rw [List.dropLast_cons_of_ne_nil (List.cons_ne_nil _ _)] at hfirst ⊢
    rw [List.dropLast_cons_of_ne_nil (List.cons_ne_nil _ _), List.pair_infix_cons_cons_iff]
    exact fun hor => hor.elim h hfirst

/-- More text belongs to the part behind the cut. -/
theorem append (h : Cuts a b text front back) (more : List Char) :
    Cuts a b (text ++ more) front (back ++ more) :=
  ⟨by rw [h.append_eq, List.append_assoc], h.ends, h.first⟩

/-- A text that is cut has the mark. -/
theorem has_mark (h : Cuts a b text front back) : [a, b] <:+: text := by
  rw [h.append_eq]
  exact h.ends.isInfix.trans (List.prefix_append front back).isInfix

variable {front' back' : List Char}

/-- A front part that is longer has the mark before its end. -/
theorem length_le (h : Cuts a b text front back) (h' : Cuts a b text front' back') :
    front'.length ≤ front.length := by
  refine Nat.le_of_not_lt fun hlt => h'.first ?_
  have hfront : front <+: text := h.append_eq ▸ List.prefix_append front back
  have hfront' : front'.dropLast <+: text :=
    (List.dropLast_prefix front').trans (h'.append_eq ▸ List.prefix_append front' back')
  have hlength : front.length ≤ front'.dropLast.length := by
    rw [List.length_dropLast]
    omega
  exact h.ends.isInfix.trans (List.prefix_of_prefix_length_le hfront hfront' hlength).isInfix

/-- There is one cut at most. -/
theorem unique (h : Cuts a b text front back) (h' : Cuts a b text front' back') :
    front = front' ∧ back = back' :=
  List.append_inj (h.append_eq.symm.trans h'.append_eq)
    (Nat.le_antisymm (h'.length_le h) (h.length_le h'))

end Cuts

theorem cuts_of_cutBehind? (h : cutBehind? a b text = some (front, back)) :
    Cuts a b text front back := by
  fun_induction cutBehind? a b text generalizing front back with
  | case1 => cases h
  | case2 c => cases h
  | case3 c d rest hmark =>
    obtain ⟨rfl, rfl⟩ := hmark
    cases h
    exact .mark_append rest
  | case4 c d rest hmark ih =>
    simp only [Option.map_eq_some_iff, Prod.exists, Prod.mk.injEq] at h
    obtain ⟨front, back, hcut, rfl, rfl⟩ := h
    exact (ih hcut).cons hmark

/-- The reader of marks cuts a text where it is to be cut. -/
theorem cutBehind?_eq_some_iff :
    cutBehind? a b text = some (front, back) ↔ Cuts a b text front back := by
  refine ⟨cuts_of_cutBehind?, fun h => ?_⟩
  cases hcut : cutBehind? a b text with
  | none =>
    rw [cutBehind?_eq_none_iff] at hcut
    exact absurd h.has_mark hcut
  | some cut =>
    obtain ⟨rfl, rfl⟩ := h.unique (cuts_of_cutBehind? hcut)
    rfl

end DocFacts.Text
