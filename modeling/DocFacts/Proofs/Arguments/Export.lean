import DocFacts.Arguments.Star
import DocFacts.Proofs.Arguments.Argument
import DocFacts.Proofs.Decimal.Overflow

/-!
# What a body exports

A consumer gets the document of the value of a body, in which a number that is not finite is
`null`.  The numbers of a body are the literals among its arguments, and each of them is read as the
number nearest to it.  From a limit on there is no finite number near a literal, and there, and only
there, a number is lost in the document (`parseArguments_exports`).
-/

namespace DocFacts

open Decimal (Literal infinity limit negativeInfinity)

variable {raw text : List Char} {quoted : Bool} {l : Literal}

/-! ## Numerals -/

/-- The argument spells a number, with or without blank characters around it. -/
def Numeral (raw : List Char) (quoted : Bool) (l : Literal) : Prop :=
  l.Spells (Text.trim (Text.unescape (if quoted then raw else Text.trim raw)))

theorem cast_ofList (raw : List Char) (quoted : Bool) : Value.cast (String.ofList raw) quoted =
    Value.ofText (Text.unescape (if quoted then raw else Text.trim raw)) := by
  rw [Value.cast, String.toList_ofList]

/-- There is no digit in the word of a truth value. -/
theorem isDigit_of_truthText {b : Bool} (h : Value.TruthText text b) :
    ∀ c ∈ text, c.isDigit = false := by
  have hletters : (if b then "true" else "false").toList.all
      (fun w => !w.isDigit && !w.toUpper.isDigit) = true := by
    cases b with
    | true => rfl
    | false => rfl
  intro c hc
  obtain ⟨front, back, rfl⟩ := List.append_of_mem hc
  obtain ⟨front', w, back', hword, hw, -⟩ := h.exists_of_append_cons_left
  rw [hword] at hletters
  have hletter := List.all_eq_true.1 hletters w (List.mem_append_right _ List.mem_cons_self)
  obtain ⟨hlower, hupper⟩ := Bool.and_eq_true_iff.1 hletter
  rcases hw with rfl | rfl
  · simpa using hlower
  · simpa using hupper

/-- A numeral is cast to the integer or to the floating-point number that it stands for. -/
theorem Numeral.cast_cases (h : Numeral raw quoted l) :
    (∃ n : Int64, Value.cast (String.ofList raw) quoted = .int n ∧ l.toInt? = some n.toInt) ∨
      Value.cast (String.ofList raw) quoted = .float l.toFloat := by
  rw [cast_ofList]
  have htyped := Value.typed_ofText (Text.unescape (if quoted then raw else Text.trim raw))
  cases hv : Value.ofText (Text.unescape (if quoted then raw else Text.trim raw)) with
  | bool b =>
    obtain ⟨c, hc, hdigit⟩ := h.exists_digit
    have hletter := isDigit_of_truthText ((htyped.bool_iff b).1 hv) c (Text.mem_of_mem_trim hc)
    rw [hletter] at hdigit
    cases hdigit
  | int n => exact .inl ⟨n, rfl, h.toInt?_eq_some_iff.2 ((htyped.int_iff n).1 hv).2⟩
  | float x =>
    obtain ⟨-, -, l', hl', rfl⟩ := (htyped.float_iff x).1 hv
    rw [h.unique hl']
    exact .inr rfl
  | string s => exact absurd h (((htyped.string_iff s).1 hv).2.1 l)
  | list _ | map _ =>
    have hscalar := htyped.scalar
    rw [hv] at hscalar
    cases hscalar

theorem exists_numeral {x : Float} (h : Value.cast (String.ofList raw) quoted = .float x) :
    ∃ l, Numeral raw quoted l ∧ x = l.toFloat := by
  rw [cast_ofList] at h
  obtain ⟨-, -, l, hl, hx⟩ := ((Value.typed_ofText _).float_iff x).1 h
  exact ⟨l, hl, hx.symm⟩

/-! ## What a consumer gets -/

/-- The numbers of a body, and what becomes of them. -/
structure Exports (body : List Char) (v : Value) : Prop where
  /-- A floating-point number in the value is what a literal among the arguments is read as, and at
  worst infinite. -/
  float {x : Float} (hx : v.Leaf (.float x)) :
    ∃ raw quoted l, Argument body raw quoted ∧ Numeral raw quoted l ∧ x = l.toFloat ∧
      (Decimal.isFinite x = true ∨ x = infinity ∨ x = negativeInfinity)
  /-- A literal among the arguments that is below the limit is a number in the document. -/
  number {raw : List Char} {quoted : Bool} {l : Literal} (harg : Argument body raw quoted)
    (hl : Numeral raw quoted l) (hlimit : l.magnitude < limit) :
    (∃ n : Int64, l.toInt? = some n.toInt ∧ v.toJson.Part (.int n.toInt)) ∨
      v.toJson.Part (.float l.toFloat)
  /-- There is a number in the value that is not finite exactly if one of these literals is not
  below the limit. -/
  infinite_iff : (∃ x, v.Leaf (.float x) ∧ Decimal.isFinite x = false) ↔
    ∃ raw quoted l, Argument body raw quoted ∧ Numeral raw quoted l ∧ limit ≤ l.magnitude
  /-- Then, and only then, there is a `null` in the document. -/
  null_iff : v.toJson.Part .null ↔
    ∃ raw quoted l, Argument body raw quoted ∧ Numeral raw quoted l ∧ limit ≤ l.magnitude

section

variable {body : List Char} {v : Value}

/-- A literal among the arguments is a leaf of the value. -/
theorem Argument.leaf_cases (harg : Argument body raw quoted) (hl : Numeral raw quoted l)
    (hv : parseBody body = .ok v) :
    (∃ n : Int64, l.toInt? = some n.toInt ∧ v.Leaf (.int n)) ∨ v.Leaf (.float l.toFloat) := by
  have hleaf := harg.leaf hv
  rcases hl.cast_cases with ⟨n, hcast, hn⟩ | hcast
  · rw [hcast] at hleaf
    exact .inl ⟨n, hn, hleaf⟩
  · rw [hcast] at hleaf
    exact .inr hleaf

/-- A floating-point number in the value is a literal among the arguments. -/
theorem exists_literal {x : Float} (hv : parseBody body = .ok v) (hx : v.Leaf (.float x)) :
    ∃ raw quoted l, Argument body raw quoted ∧ Numeral raw quoted l ∧ x = l.toFloat := by
  rcases exists_argument hv hx with hflag | ⟨raw, quoted, harg, hcast⟩
  · cases hflag
  · obtain ⟨l, hl, hlx⟩ := exists_numeral hcast.symm
    exact ⟨raw, quoted, l, harg, hl, hlx⟩

/-- The numbers that are not finite are the literals that are not below the limit. -/
theorem exists_infinite_iff (hv : parseBody body = .ok v) :
    (∃ x, v.Leaf (.float x) ∧ Decimal.isFinite x = false) ↔
      ∃ raw quoted l, Argument body raw quoted ∧ Numeral raw quoted l ∧ limit ≤ l.magnitude := by
  constructor
  · rintro ⟨x, hx, hinfinite⟩
    obtain ⟨raw, quoted, l, harg, hl, rfl⟩ := exists_literal hv hx
    refine ⟨raw, quoted, l, harg, hl, not_lt.1 fun hlt => ?_⟩
    rw [Decimal.Literal.isFinite_toFloat hlt] at hinfinite
    cases hinfinite
  · rintro ⟨raw, quoted, l, harg, hl, hlimit⟩
    rcases harg.leaf_cases hl hv with ⟨n, hn, -⟩ | hleaf
    · exact absurd (Decimal.Literal.magnitude_lt_of_int64 hn) (not_lt.2 hlimit)
    · have hnot := mt Decimal.Literal.isFinite_toFloat_iff.1 (not_lt.2 hlimit)
      exact ⟨l.toFloat, hleaf, Bool.eq_false_iff.2 hnot⟩

end

/-- **What a consumer gets** of arguments that are accepted. -/
theorem parseArguments_exports {content : String} {v : Value}
    (h : parseArguments content = .ok v) : Exports (dropStars true content.toList) v := by
  have hv : parseBody (dropStars true content.toList) = .ok v := h
  refine ⟨fun {x} hx => ?_, fun {raw quoted l} harg hl hlimit => ?_, exists_infinite_iff hv,
    Value.part_null_iff.trans (exists_infinite_iff hv)⟩
  · obtain ⟨raw, quoted, l, harg, hl, rfl⟩ := exists_literal hv hx
    exact ⟨raw, quoted, l, harg, hl, rfl, l.toFloat_cases⟩
  · rcases harg.leaf_cases hl hv with ⟨n, hn, hleaf⟩ | hleaf
    · exact .inl ⟨n, hn, hleaf.part⟩
    · have hpart := hleaf.part
      rw [Value.toJson, if_pos (Decimal.Literal.isFinite_toFloat hlimit)] at hpart
      exact .inr hpart

theorem exports_largeNumber :
    parseArguments "a = 1e308, b" = .ok (.map [("a", .float 1e308), ("b", .string "")]) ∧
      Exports (dropStars true "a = 1e308, b".toList)
        (.map [("a", .float 1e308), ("b", .string "")]) := by
  have hvalue : parseArguments "a = 1e308, b" =
      .ok (.map [("a", .float 1e308), ("b", .string "")]) := by decide +kernel
  exact ⟨hvalue, parseArguments_exports hvalue⟩

/-- A number with a large exponent is accepted and lost. -/
theorem null_beyondLimit :
    parseArguments "1e999" = .ok (.float infinity) ∧ Decimal.isFinite infinity = false ∧
      (Value.float infinity).toJson = .null := by
  have hinfinite : Decimal.isFinite infinity = false := by decide
  refine ⟨by decide +kernel, hinfinite, ?_⟩
  rw [Value.toJson, if_neg (Bool.eq_false_iff.1 hinfinite)]

end DocFacts
