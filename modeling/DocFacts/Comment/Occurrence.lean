import DocFacts.Text.Blank

/-!
# Occurrences in a comment

An occurrence is written `@name(body)`.  The name is the longest run of letters, underscores
and hyphens behind the `@`, and blank characters may stand in front of the parenthesis.  The
body ends at the first closing parenthesis that no backslash protects, on whatever line that
is.  `occurrences` lists the occurrences of a text from left to right.  One that is never
closed is none, and an `@` inside the body of an occurrence is part of that body.
-/

namespace DocFacts

/-- An occurrence before its body is parsed. -/
structure Occurrence where
  /-- The name behind the `@`. -/
  name : List Char
  /-- What stands between the parentheses. -/
  body : List Char
deriving DecidableEq, Repr

/-- The characters of names: ASCII letters, the underscore and the hyphen. -/
def isNameChar (c : Char) : Bool := c.isAlpha || c == '_' || c == '-'

/-- Split a text behind the first closing parenthesis that no backslash protects. -/
def closeParenthesis? : List Char → Option (List Char × List Char)
  | [] => none
  | ')' :: rest => some ([], rest)
  | ['\\'] => none
  | '\\' :: c :: rest =>
    (closeParenthesis? rest).map fun (body, behind) => ('\\' :: c :: body, behind)
  | c :: rest => (closeParenthesis? rest).map fun (body, behind) => (c :: body, behind)

/-- Read an occurrence whose `@` stands directly in front of the text. -/
def Occurrence.read? (text : List Char) : Option (Occurrence × List Char) :=
  let name := text.takeWhile isNameChar
  if name = [] then none
  else
    match Text.dropBlank (text.dropWhile isNameChar) with
    | '(' :: rest => (closeParenthesis? rest).map fun (body, behind) => (⟨name, body⟩, behind)
    | _ => none

theorem length_of_closeParenthesis? {text body rest : List Char}
    (h : closeParenthesis? text = some (body, rest)) : rest.length < text.length := by
  fun_induction closeParenthesis? text generalizing body rest with
  | case1 => simp at h
  | case2 => simp only [Option.some.injEq, Prod.mk.injEq] at h; simp [← h.2]
  | case3 => simp at h
  | case4 c text ih =>
    simp only [Option.map_eq_some_iff, Prod.exists, Prod.mk.injEq] at h
    obtain ⟨b, r, hc, -, rfl⟩ := h
    have := ih hc
    simp only [List.length_cons]; omega
  | case5 c text _ _ _ ih =>
    simp only [Option.map_eq_some_iff, Prod.exists, Prod.mk.injEq] at h
    obtain ⟨b, r, hc, -, rfl⟩ := h
    have := ih hc
    simp only [List.length_cons]; omega

theorem Occurrence.length_of_read? {text rest : List Char} {o : Occurrence}
    (h : Occurrence.read? text = some (o, rest)) : rest.length < text.length := by
  simp only [read?] at h
  split at h
  · simp at h
  · split at h
    · rename_i after hd
      simp only [Option.map_eq_some_iff, Prod.exists, Prod.mk.injEq] at h
      obtain ⟨b, r, hc, -, rfl⟩ := h
      have h1 := length_of_closeParenthesis? hc
      have h2 := Text.length_dropBlank_le (text.dropWhile isNameChar)
      have h3 : (text.dropWhile isNameChar).length ≤ text.length :=
        (List.dropWhile_suffix isNameChar).length_le
      simp only [hd, List.length_cons] at h2
      omega
    · simp at h

/-- The occurrences of a text, from left to right. -/
def occurrences (text : List Char) : List Occurrence :=
  match text with
  | [] => []
  | c :: rest =>
    match _h : if c = '@' then Occurrence.read? rest else none with
    | some (o, behind) => o :: occurrences behind
    | none => occurrences rest
termination_by text.length
decreasing_by
  · split at _h
    · have := Occurrence.length_of_read? _h
      simp only [List.length_cons]; omega
    · simp at _h
  · exact Nat.lt_succ_self _

example : occurrences "@A(1) a@b @ C(x) @D (\\)@E(2))".toList =
    [⟨['A'], ['1']⟩, ⟨['D'], "\\)@E(2".toList⟩] := by decide +kernel

end DocFacts
