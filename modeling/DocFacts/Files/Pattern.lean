import DocFacts.Files.Path

/-!
# Patterns of paths

A pattern is matched against paths segment by segment.  In a segment a question mark stands
for any character, a star for any number of characters, and brackets for one of the characters
in them, or with an exclamation mark for one that is not in them.  Two stars stand for any
number of directories and have to be a segment of their own.  Everything else stands for
itself.  A dot at the start of a name is a character like any other.
-/

namespace DocFacts.Files

/-- What is wrong with a pattern. -/
inductive PatternFault where
  /-- A bracket that is never closed, or has nothing in it. -/
  | range
  /-- More than two stars in a row. -/
  | stars
  /-- Two stars that are not a segment of their own. -/
  | doubleStar
deriving DecidableEq, Repr

/-- A fault of a pattern and where it is. -/
structure PatternError where
  /-- The position, in characters. -/
  position : Nat
  /-- What is wrong there. -/
  fault : PatternFault
deriving DecidableEq, Repr

/-- The text of a fault of a pattern. -/
def PatternError.message (e : PatternError) : String :=
  let text := match e.fault with
    | .range => "invalid range pattern"
    | .stars => "wildcards are either regular `*` or recursive `**`"
    | .doubleStar => "recursive wildcards must form a single path component"
  "Pattern syntax error near position " ++ toString e.position ++ ": " ++ text

/-- A part of a pattern. -/
inductive Wild where
  /-- A character that stands for itself. -/
  | char (c : Char)
  /-- Any character. -/
  | one
  /-- Any number of characters. -/
  | many
  /-- Any number of directories. -/
  | deep
  /-- A character in one of the ranges. -/
  | within (ranges : List (Char × Char))
  /-- A character in none of the ranges. -/
  | without (ranges : List (Char × Char))
deriving DecidableEq, Repr

namespace Pattern

/-- The ranges that the characters between brackets stand for. -/
def ranges : List Char → List (Char × Char)
  | a :: '-' :: b :: rest => (a, b) :: ranges rest
  | a :: rest => (a, a) :: ranges rest
  | [] => []

/-- Split a text behind the first closing bracket that is not its first character. -/
def closeBracket? : List Char → Option (List Char × List Char)
  | [] => none
  | c :: rest =>
    let body := rest.takeWhile (· ≠ ']')
    match rest.dropWhile (· ≠ ']') with
    | [] => none
    | _ :: behind => some (c :: body, behind)

/-- Read the ranges behind an opening bracket. -/
def readBracket? : List Char → Option (Wild × List Char)
  | '!' :: rest => (closeBracket? rest).map fun (body, behind) => (.without (ranges body), behind)
  | rest => (closeBracket? rest).map fun (body, behind) => (.within (ranges body), behind)

theorem length_of_closeBracket? {text body rest : List Char}
    (h : closeBracket? text = some (body, rest)) : rest.length < text.length := by
  cases text with
  | nil => simp [closeBracket?] at h
  | cons c text =>
    simp only [closeBracket?] at h
    split at h
    · simp at h
    · rename_i d behind hd
      have : (text.dropWhile (· ≠ ']')).length ≤ text.length :=
        (List.dropWhile_suffix _).length_le
      simp only [Option.some.injEq, Prod.mk.injEq] at h
      obtain ⟨-, rfl⟩ := h
      simp only [hd, List.length_cons] at this ⊢
      omega

theorem length_of_readBracket? {text rest : List Char} {w : Wild}
    (h : readBracket? text = some (w, rest)) : rest.length < text.length := by
  simp only [readBracket?] at h
  split at h
  · simp only [Option.map_eq_some_iff, Prod.exists, Prod.mk.injEq] at h
    obtain ⟨_, _, hc, -, rfl⟩ := h
    exact Nat.lt_succ_of_lt (length_of_closeBracket? hc)
  · simp only [Option.map_eq_some_iff, Prod.exists, Prod.mk.injEq] at h
    obtain ⟨_, _, hc, -, rfl⟩ := h
    exact length_of_closeBracket? hc

/-- Read a pattern.  `position` is the number of characters passed, and `previous` the last
of them. -/
def read (position : Nat) (previous : Option Char) (text : List Char) :
    Except PatternError (List Wild) :=
  match text with
  | [] => .ok []
  | c :: rest =>
    if c = '?' then (read (position + 1) (some c) rest).map (.one :: ·)
    else if c = '*' then
      let stars := rest.takeWhile (· = '*')
      let behind := rest.dropWhile (· = '*')
      let count := stars.length + 1
      if 2 < count then .error ⟨position + 2, .stars⟩
      else if count = 2 then
        if previous.isSome ∧ previous ≠ some '/' then .error ⟨position - 1, .doubleStar⟩
        else
          match _h : behind with
          | [] => .ok [.deep]
          | d :: after =>
            if d = '/' then (read (position + 3) (some d) after).map (.deep :: ·)
            else .error ⟨position + 2, .doubleStar⟩
      else (read (position + 1) (some c) rest).map (.many :: ·)
    else if c = '[' then
      match _h : readBracket? rest with
      | some (w, behind) =>
        let passed := 1 + (rest.length - behind.length)
        (read (position + passed) (some ']') behind).map (w :: ·)
      | none => .error ⟨position, .range⟩
    else (read (position + 1) (some c) rest).map (.char c :: ·)
termination_by text.length
decreasing_by
  · simp
  · have : (rest.dropWhile (· = '*')).length ≤ rest.length :=
      (List.dropWhile_suffix _).length_le
    simp only [behind] at _h
    simp only [_h, List.length_cons] at this ⊢
    omega
  · simp
  · have := length_of_readBracket? _h
    simp only [List.length_cons]; omega
  · simp

/-- The text of a pattern in which every character stands for itself. -/
def literal? (pattern : List Wild) : Option String :=
  (pattern.mapM fun
    | Wild.char c => some c
    | _ => none).map String.ofList

/-- The character lies in one of the ranges. -/
def inRanges (ranges : List (Char × Char)) (c : Char) : Bool :=
  ranges.any fun (low, high) => decide (low ≤ c ∧ c ≤ high)

/-- A pattern matches a name. -/
def isMatch (pattern : List Wild) (name : List Char) : Bool :=
  match pattern, name with
  | [], [] => true
  | [], _ :: _ => false
  | .many :: rest, [] => isMatch rest []
  | .deep :: rest, [] => isMatch rest []
  | .many :: rest, c :: name => isMatch rest (c :: name) || isMatch (.many :: rest) name
  | .deep :: rest, c :: name => isMatch rest (c :: name) || isMatch (.deep :: rest) name
  | _ :: _, [] => false
  | .char d :: rest, c :: name => c == d && isMatch rest name
  | .one :: rest, _ :: name => isMatch rest name
  | .within ranges :: rest, c :: name => inRanges ranges c && isMatch rest name
  | .without ranges :: rest, c :: name => !inRanges ranges c && isMatch rest name
termination_by pattern.length + name.length
decreasing_by all_goals simp only [List.length_cons]; omega

/-- A pattern that matches exactly the given text. -/
def escape (text : String) : String :=
  String.ofList (text.toList.flatMap fun c =>
    if c = '?' ∨ c = '*' ∨ c = '[' ∨ c = ']' then ['[', c, ']'] else [c])

example : (read 0 none "a**b".toList).toOption = none := by decide +kernel
example : (read 0 none "[!a-c]*".toList).toOption = some [.without [('a', 'c')], .many] := by
  decide +kernel

end Pattern

end DocFacts.Files
