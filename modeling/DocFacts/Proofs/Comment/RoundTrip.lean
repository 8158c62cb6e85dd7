import DocFacts.Proofs.Arguments.RoundTrip
import DocFacts.Proofs.Comment.Grouped
import DocFacts.Proofs.Comment.Occurrence

/-!
# Scanning what was written

A comment can be written for any sequence of names and writable values, one occurrence for each
of them.  Scanning it gives the values back, grouped by name (`scan_writtenComment`).  The text
of a value closes no occurrence before its end, and trimming and the removal of stars leave it
as it is.  So each body comes to the parser as it was written.
-/

namespace DocFacts

/-- The name can stand behind an `@`. -/
structure IsName (name : String) : Prop where
  /-- The name has a character. -/
  nonempty : name.toList ≠ []
  /-- All of its characters are those of names. -/
  chars : ∀ c ∈ name.toList, isNameChar c = true

/-- An occurrence of a name with the text of a value, and a blank behind it. -/
def writtenOccurrence (name : String) (v : Value) : List Char :=
  '@' :: name.toList ++ '(' :: v.written ++ [')', ' ']

/-- A comment with an occurrence for each name and value. -/
def writtenComment (pairs : List (String × Value)) : String :=
  String.ofList (['/', '*', '*', ' '] ++
    pairs.flatMap (fun pair => writtenOccurrence pair.1 pair.2) ++ ['*', '/'])

/-! ## Occurrences -/

/-- An occurrence is read back if its body ends at the parenthesis behind it. -/
theorem Occurrence.read?_of_close {name : String} (hname : IsName name) {body behind : List Char}
    (hclose : closeParenthesis? (body ++ ')' :: behind) = some (body, behind)) :
    Occurrence.read? (name.toList ++ '(' :: (body ++ ')' :: behind)) =
      some (⟨name.toList, body⟩, behind) := by
  refine Occurrence.read?_eq_some_iff.2 ⟨hname.nonempty, ?_, [], body ++ ')' :: behind, ?_, ?_, ?_⟩
  · have hopen : isNameChar '(' = false := by decide
    rw [List.takeWhile_append_of_pos hname.chars, List.takeWhile_cons, hopen]
    simp
  · rw [List.drop_left, List.nil_append]
  · simp
  · exact closeParenthesis?_eq_some_iff.1 hclose

theorem Occurrence.read?_written {name : String} (hn : IsName name) {v : Value} (h : v.Writable)
    (rest : List Char) :
    Occurrence.read? (name.toList ++ '(' :: (v.written ++ ')' :: rest)) =
      some (⟨name.toList, v.written⟩, rest) := by
  refine Occurrence.read?_of_close hn ?_
  rw [h.tidy_written.closeParenthesis?_append, closeParenthesis?]
  simp

variable {pairs : List (String × Value)}

/-- The occurrences of a written text are those that were written. -/
theorem occurrences_written (hnames : ∀ pair ∈ pairs, IsName pair.1)
    (hvalues : ∀ pair ∈ pairs, pair.2.Writable) :
    occurrences (pairs.flatMap fun pair => writtenOccurrence pair.1 pair.2) =
      pairs.map fun pair => ⟨pair.1.toList, pair.2.written⟩ := by
  induction pairs with
  | nil => rw [List.flatMap_nil, occurrences, List.map_nil]
  | cons pair pairs ih =>
    obtain ⟨hname, hnames⟩ := List.forall_mem_cons.1 hnames
    obtain ⟨hvalue, hvalues⟩ := List.forall_mem_cons.1 hvalues
    have htext : writtenOccurrence pair.1 pair.2 ++
          pairs.flatMap (fun pair => writtenOccurrence pair.1 pair.2) =
        '@' :: (pair.1.toList ++ '(' :: (pair.2.written ++ ')' ::
          ' ' :: pairs.flatMap fun pair => writtenOccurrence pair.1 pair.2)) := by
      simp [writtenOccurrence]
    rw [List.flatMap_cons, htext, occurrences_at (Occurrence.read?_written hname hvalue _),
      occurrences_cons_of_ne (by decide), ih hnames hvalues, List.map_cons]

theorem Occurrence.value_written {name : List Char} {v : Value} (h : v.Writable) :
    (Occurrence.mk name v.written).value = .ok v := by
  have hparse : parseArguments (String.ofList (Text.trim v.written)) = .ok v := by
    rw [parseArguments, String.toList_ofList, h.tidy_written.trim_eq,
      h.tidy_written.dropStars_eq, parseBody_written h]
  rw [value, hparse]

theorem commentText_written (text : List Char) :
    commentText (['/', '*', '*', ' '] ++ text ++ ['*', '/']) = ' ' :: text := by
  simp [commentText]

/-- Adding the written occurrences goes on with the table of the pairs. -/
theorem addOccurrences_written {front : List (String × Value)}
    (h : Table.Distinct (AnnotationSet.grouped front))
    (hvalues : ∀ pair ∈ pairs, pair.2.Writable) :
    addOccurrences (AnnotationSet.grouped front)
        (pairs.map fun pair => ⟨pair.1.toList, pair.2.written⟩) =
      .ok (AnnotationSet.grouped (front ++ pairs)) := by
  refine addOccurrences_eq_grouped h ?_
  rw [List.map_map]
  refine List.map_congr_left fun pair hpair => ?_
  simp only [Function.comp_apply, String.ofList_toList,
    Occurrence.value_written (hvalues pair hpair)]

/-- **Scanning undoes writing.**  The comment that is written for names and writable values has
the names in the order in which they are first seen, each with its values in order. -/
theorem scan_writtenComment (hnames : ∀ pair ∈ pairs, IsName pair.1)
    (hvalues : ∀ pair ∈ pairs, pair.2.Writable) :
    scan (writtenComment pairs) = .ok (AnnotationSet.grouped pairs) := by
  rw [scan, writtenComment, String.toList_ofList, commentText_written,
    occurrences_cons_of_ne (by decide), occurrences_written hnames hvalues]
  have hempty : Table.Distinct (AnnotationSet.grouped []) := List.nodup_nil
  exact addOccurrences_written hempty hvalues

/-- Two names, one of them twice, and a string with braces, a mark and a parenthesis in a map in
a list. -/
def samplePairs : List (String × Value) :=
  [("Route", .list [.map [("path", .string "/a/{id} \")"), ("id", .int (-7))]]),
    ("Old", .bool true), ("Route", .list [])]

theorem scan_samplePairs :
    (∀ pair ∈ samplePairs, IsName pair.1) ∧ (∀ pair ∈ samplePairs, pair.2.Writable) ∧
      scan (writtenComment samplePairs) =
        .ok [("Route", [.list [.map [("path", .string "/a/{id} \")"), ("id", .int (-7))]],
          .list []]), ("Old", [.bool true])] := by
  have hnames : ∀ pair ∈ samplePairs, IsName pair.1 := by
    have hroute : IsName "Route" := ⟨by decide, List.all_eq_true.1 (by decide)⟩
    have hold : IsName "Old" := ⟨by decide, List.all_eq_true.1 (by decide)⟩
    simp only [samplePairs, List.forall_mem_cons]
    exact ⟨hroute, hold, hroute, by simp⟩
  have hmap : Value.Writable
      (.map [("path", .string "/a/{id} \")"), ("id", .int (-7))]) := by
    have hpath : Text.Bare "path".toList := ⟨by decide, List.all_eq_true.1 (by decide)⟩
    have hid : Text.Bare "id".toList := ⟨by decide, List.all_eq_true.1 (by decide)⟩
    refine .map (by simp) (by decide) ?_ ?_
    · simp only [List.forall_mem_cons]
      exact ⟨hpath, hid, by simp⟩
    · simp only [List.forall_mem_cons]
      exact ⟨.string (by decide) (by decide) (by decide), .int (-7), by simp⟩
  have hvalues : ∀ pair ∈ samplePairs, pair.2.Writable := by
    simp only [samplePairs, List.forall_mem_cons]
    refine ⟨.list ?_, .bool true, .list (by simp), by simp⟩
    simp only [List.forall_mem_cons]
    exact ⟨hmap, by simp⟩
  refine ⟨hnames, hvalues, (scan_writtenComment hnames hvalues).trans ?_⟩
  exact congrArg Except.ok (by decide +kernel)

end DocFacts
