import DocFacts.Arguments.Reading

/-!
# Reading an argument body

`Reading.run` repeats the moves of the reader up to the end of a body.  The inside of a composite
is read as a body of its own, and behind the composite must come a comma or the end.  Each move
leaves less to read, and so does each composite, which is why `run` ends.
-/

namespace DocFacts

namespace Reading

/-- Take a composite into the entry that is being read and go on behind it. -/
def take (r : Reading) (v : Value) (behind : Cursor) : Reading :=
  { r with cursor := behind, draft := r.draft.compose v }

/-- Read to the end of the body. -/
def run (r : Reading) : Except ParseError Value :=
  match _hr : r.cursor.rest with
  | [] => .ok r.result
  | c :: rest =>
    match _hs : r.step c rest with
    | .refuse e => .error e
    | .proceed r' => run r'
    | .descend body behind =>
      match run (start body) with
      | .error e => .error e
      | .ok v =>
        match behind.skipBlank.separatorError? with
        | some e => .error e
        | none => run (r.take v behind.skipBlank)
termination_by r.cursor.rest.length
decreasing_by
  · have hlength := length_of_step_eq_proceed _hs
    simp only [_hr, List.length_cons]
    omega
  · have hlength := length_of_step_eq_descend _hs
    simp only [_hr, start, List.length_cons]
    omega
  · have hlength := length_of_step_eq_descend _hs
    have hskip := behind.length_skipBlank_le
    simp only [_hr, take, List.length_cons]
    omega

end Reading

/-- The value of a body. -/
def parseBody (body : List Char) : Except ParseError Value := (Reading.start body).run

namespace Reading

variable {r : Reading} {rest : List Char}

/-! ## The beginning of a run -/

theorem run_nil (h : r.cursor.rest = []) : r.run = .ok r.result := by
  rw [run]
  split
  next => rfl
  next hrest => cases h.symm.trans hrest

/-- A run goes on as its first move says. -/
theorem run_cons {c : Char} (h : r.cursor.rest = c :: rest) :
    r.run =
      match r.step c rest with
      | .refuse e => .error e
      | .proceed r' => r'.run
      | .descend body behind =>
        match parseBody body with
        | .error e => .error e
        | .ok v =>
          match behind.skipBlank.separatorError? with
          | some e => .error e
          | none => (r.take v behind.skipBlank).run := by
  rw [run]
  split
  next hrest => cases h.symm.trans hrest
  next hrest =>
    obtain ⟨rfl, rfl⟩ := List.cons.inj (h.symm.trans hrest)
    split
    next hstep => rw [hstep]
    next hstep => rw [hstep]
    next hstep =>
      rw [hstep]
      rfl

theorem run_proceed {c : Char} {r' : Reading} (h : r.cursor.rest = c :: rest)
    (hs : r.step c rest = .proceed r') : r.run = r'.run := by
  rw [run_cons h, hs]

end Reading

end DocFacts
