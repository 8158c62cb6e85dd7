import DocFacts.Proofs.Comment.Grouped
import DocFacts.Proofs.Comment.Occurrence
import DocFacts.Proofs.List

/-!
# The matches of a comment

A match is an occurrence at its place in a text.  Matches are found from left to right, each
behind the end of the one before it (`Matches`).  A text has exactly one such sequence
(`exists_matches`, `Matches.unique`), and a scan takes its occurrences and no others.  So a scan
groups the values of the matches by name, or fails at the first whose body cannot be parsed
(`scan_matches`).
-/

namespace DocFacts

/-- An occurrence with its place in a text. -/
structure Match extends Occurrence where
  /-- The position of the `@`. -/
  start : Nat
  /-- The position of the closing parenthesis. -/
  stop : Nat

namespace Match

/-- The text has the match at its place. -/
structure IsIn (m : Match) (text : List Char) : Prop where
  /-- The match starts with an `@`. -/
  at_start : text[m.start]? = some '@'
  /-- There is a name. -/
  name_ne_nil : m.name ≠ []
  /-- It is the longest run of name characters behind the `@`. -/
  longest : (text.drop (m.start + 1)).takeWhile isNameChar = m.name
  /-- Blank characters, a parenthesis and the body stand behind the name. -/
  closes : ∃ blanks inside, text.drop (m.start + 1 + m.name.length) = blanks ++ '(' :: inside ∧
    (∀ c ∈ blanks, Text.isBlank c = true) ∧ Closes inside m.body (text.drop (m.stop + 1))
  /-- The match stops at a closing parenthesis. -/
  at_stop : text[m.stop]? = some ')'

/-- What the parser makes of the body. -/
def parsed (m : Match) : Except ParseError Value :=
  parseArguments (String.ofList (Text.trim m.body))

end Match

/-- The matches of a text from a position on: the leftmost of them, and those behind its end. -/
inductive Matches (text : List Char) : Nat → List Match → Prop where
  /-- No match starts there or behind. -/
  | nil {n : Nat} (h : ∀ m : Match, m.IsIn text → m.start < n) : Matches text n []
  /-- The leftmost match, and those behind its end. -/
  | cons {n : Nat} {m : Match} {ms : List Match} (h : m.IsIn text) (hn : n ≤ m.start)
    (hleft : ∀ m' : Match, m'.IsIn text → n ≤ m'.start → m.start ≤ m'.start)
    (hms : Matches text (m.stop + 1) ms) : Matches text n (m :: ms)

variable {text : List Char}

namespace Match

variable {m m' : Match}

theorem IsIn.read?_eq (h : m.IsIn text) : Occurrence.read? (text.drop (m.start + 1)) =
    some (m.toOccurrence, text.drop (m.stop + 1)) := by
  rw [Occurrence.read?_eq_some_iff, List.drop_drop]
  exact ⟨h.name_ne_nil, h.longest, h.closes⟩

/-- A match is known by its start. -/
theorem IsIn.unique (h : m.IsIn text) (h' : m'.IsIn text) (hstart : m.start = m'.start) :
    m = m' := by
  have hread := h.read?_eq
  rw [hstart, h'.read?_eq] at hread
  obtain ⟨hoccurrence, hbehind⟩ := Prod.mk.inj (Option.some.inj hread)
  obtain ⟨hlt, -⟩ := List.getElem?_eq_some_iff.1 h.at_stop
  obtain ⟨hlt', -⟩ := List.getElem?_eq_some_iff.1 h'.at_stop
  have hstop : m.stop = m'.stop := by
    have hlength := congrArg List.length hbehind
    simp only [List.length_drop] at hlength
    omega
  cases m
  cases m'
  simp_all

/-- What the reader of occurrences finds behind an `@` is a match. -/
theorem exists_isIn {n : Nat} {o : Occurrence} {behind : List Char} (hn : text[n]? = some '@')
    (h : Occurrence.read? (text.drop (n + 1)) = some (o, behind)) :
    ∃ stop, n < stop ∧ behind = text.drop (stop + 1) ∧ (Match.mk o n stop).IsIn text := by
  rw [Occurrence.read?_eq_some_iff, List.drop_drop] at h
  obtain ⟨hname, hlongest, blanks, inside, hinside, hblanks, hcloses⟩ := h
  have hstop : text.drop (n + 1 + o.name.length + (blanks ++ '(' :: o.body).length) =
      ')' :: behind := by
    rw [← List.drop_drop, hinside, hcloses.text_eq]
    simp
  obtain ⟨hat, hbehind⟩ := List.getElem?_and_drop_of_drop_eq_cons hstop
  subst hbehind
  exact ⟨_, by omega, rfl, hn, hname, hlongest, ⟨blanks, inside, hinside, hblanks, hcloses⟩, hat⟩

end Match

namespace Matches

/-- A text has one sequence of matches. -/
theorem unique {n : Nat} {ms ms' : List Match} (h : Matches text n ms)
    (h' : Matches text n ms') : ms = ms' := by
  induction h generalizing ms' with
  | nil hnone =>
    cases h' with
    | nil => rfl
    | cons hm hn => exact absurd (hnone _ hm) (Nat.not_lt.2 hn)
  | @cons n m ms hm hn hleft hms ih =>
    cases h' with
    | nil hnone => exact absurd (hnone _ hm) (Nat.not_lt.2 hn)
    | @cons _ m' ms' hm' hn' hleft' hms' =>
      have hstart : m.start = m'.start :=
        Nat.le_antisymm (hleft m' hm' hn') (hleft' m hm hn)
      obtain rfl := hm.unique hm' hstart
      rw [ih hms']

/-- A position at which no match starts can be passed over. -/
theorem of_succ {n : Nat} {ms : List Match} (hnone : ∀ m : Match, m.IsIn text → m.start ≠ n)
    (h : Matches text (n + 1) ms) : Matches text n ms := by
  have hlater (m : Match) (hm : m.IsIn text) (hn : n ≤ m.start) : n + 1 ≤ m.start :=
    Nat.lt_of_le_of_ne hn (hnone m hm).symm
  cases h with
  | nil hlt =>
    refine .nil fun m hm => Nat.lt_of_not_le fun hn => ?_
    exact absurd (hlt m hm) (Nat.not_lt.2 (hlater m hm hn))
  | cons hm hn hleft hms =>
    exact .cons hm (Nat.le_of_succ_le hn) (fun m' hm' hn' => hleft m' hm' (hlater m' hm' hn')) hms

end Matches

/-- **Which occurrences are found.**  The matches of a text from a position on are the
occurrences that are listed for what stands there. -/
theorem exists_matches (text : List Char) (n : Nat) :
    ∃ ms, Matches text n ms ∧ ms.map Match.toOccurrence = occurrences (text.drop n) := by
  -- Every round goes on behind a match or behind a character, so the rest gets shorter.
  induction hk : text.length - n using Nat.strongRecOn generalizing n with
  | _ k ih =>
    cases hrest : text.drop n with
    | nil =>
      have hlength : text.length ≤ n := List.drop_eq_nil_iff.1 hrest
      refine ⟨[], .nil fun m hm => ?_, by rw [occurrences, List.map_nil]⟩
      obtain ⟨hlt, -⟩ := List.getElem?_eq_some_iff.1 hm.at_start
      omega
    | cons c rest =>
      have hlt : n < text.length := by
        have hlength := congrArg List.length hrest
        simp only [List.length_drop, List.length_cons] at hlength
        omega
      obtain ⟨hc, rfl⟩ := List.getElem?_and_drop_of_drop_eq_cons hrest
      cases hread : if c = '@' then Occurrence.read? (text.drop (n + 1)) else none with
      | none =>
        have hnone (hc : c = '@') : Occurrence.read? (text.drop (n + 1)) = none := by
          rwa [if_pos hc] at hread
        obtain ⟨ms, hms, hmap⟩ := ih _ (by omega) (n + 1) rfl
        refine ⟨ms, hms.of_succ ?_, by rw [hmap, occurrences_cons_of_not hnone]⟩
        rintro m hm rfl
        have hat := hm.at_start.symm.trans hc
        have hsome := hm.read?_eq
        rw [hnone (Option.some.inj hat).symm] at hsome
        cases hsome
      | some found =>
        split at hread
        · rename_i hat
          subst hat
          obtain ⟨stop, hstop, hbehind, hm⟩ := Match.exists_isIn hc hread
          obtain ⟨ms, hms, hmap⟩ := ih _ (by omega) (stop + 1) rfl
          refine ⟨⟨found.1, n, stop⟩ :: ms, .cons hm (Nat.le_refl n) (fun _ _ hn => hn) hms, ?_⟩
          rw [occurrences_at hread, List.map_cons, hmap, hbehind]
        · cases hread

/-- The matches of a text are its occurrences. -/
theorem Matches.map_eq {ms : List Match} (h : Matches text 0 ms) :
    ms.map Match.toOccurrence = occurrences text := by
  obtain ⟨ms', hms', hmap⟩ := exists_matches text 0
  rw [h.unique hms', hmap, List.drop_zero]

/-! ## The annotations of the matches -/

/-- The text of a comment is what is left without its first three and its last two characters. -/
theorem commentText_spec (comment : List Char) :
    (comment.length ≤ 5 → commentText comment = []) ∧
      (5 < comment.length → ∃ front back, front.length = 3 ∧ back.length = 2 ∧
        comment = front ++ commentText comment ++ back) := by
  constructor
  · intro h
    rw [commentText, Nat.sub_eq_zero_of_le h, List.take_zero]
  · intro h
    refine ⟨comment.take 3, (comment.drop 3).drop (comment.length - 5), ?_, ?_, ?_⟩
    · rw [List.length_take]
      omega
    · simp only [List.length_drop]
      omega
    · rw [commentText, List.append_assoc, List.take_append_drop, List.take_append_drop]

theorem Match.value_eq (m : Match) :
    m.toOccurrence.value = m.parsed.mapError (ScanError.mk (String.ofList m.name)) := by
  rw [Occurrence.value, parsed]
  cases parseArguments (String.ofList (Text.trim m.body)) with
  | ok v => rfl
  | error e => rfl

theorem Match.isOk_value (m : Match) : m.toOccurrence.value.isOk = m.parsed.isOk := by
  rw [value_eq]
  cases m.parsed with
  | ok v => rfl
  | error e => rfl

/-- Matches whose bodies can be parsed have names and values. -/
theorem exists_pairs {ms : List Match} (h : ∀ m ∈ ms, m.parsed.isOk = true) :
    ∃ pairs : List (String × Value), ms.map (fun m => (String.ofList m.name, m.parsed)) =
      pairs.map fun pair => (pair.1, .ok pair.2) := by
  induction ms with
  | nil => exact ⟨[], rfl⟩
  | cons m ms ih =>
    obtain ⟨hm, hms⟩ := List.forall_mem_cons.1 h
    obtain ⟨pairs, hpairs⟩ := ih hms
    cases hv : m.parsed with
    | ok v => exact ⟨(String.ofList m.name, v) :: pairs, by rw [List.map_cons, hpairs, hv]; rfl⟩
    | error e =>
      rw [hv] at hm
      cases hm

/-- A set has the values of some matches, grouped by name. -/
structure AnnotationSet.Gathers (set : AnnotationSet) (ms : List Match) : Prop where
  /-- The names stand in the order in which they are first seen. -/
  keys_eq : Table.keys set = (ms.map fun m => String.ofList m.name).eraseDups
  /-- No name stands twice. -/
  distinct : Table.Distinct set
  /-- A name has a value. -/
  ne_nil : ∀ row ∈ set, row.2 ≠ []
  /-- The values of a name are those of its matches, in order. -/
  values_eq : ∀ row ∈ set, row.2.map Except.ok =
    (ms.filter fun m => String.ofList m.name = row.1).map Match.parsed

theorem AnnotationSet.gathers_grouped {ms : List Match} {pairs : List (String × Value)}
    (h : ms.map (fun m => (String.ofList m.name, m.parsed)) =
      pairs.map fun pair => (pair.1, .ok pair.2)) : (grouped pairs).Gathers ms := by
  have hnames : ms.map (fun m => String.ofList m.name) = pairs.map Prod.fst := by
    simpa [Function.comp_def] using congrArg (List.map Prod.fst) h
  have hvalues (name : String) : (valuesOf pairs name).map Except.ok =
      (ms.filter fun m => String.ofList m.name = name).map Match.parsed := by
    have hname := congrArg (fun rows => (rows.filter fun row => row.1 = name).map Prod.snd) h
    simpa [valuesOf, List.filter_map, Function.comp_def] using hname.symm
  refine ⟨by rw [keys_grouped, hnames], distinct_grouped pairs, fun row hrow => ?_,
    fun row hrow => ?_⟩
  · obtain ⟨name, hname, rfl⟩ := List.mem_map.1 hrow
    exact valuesOf_ne_nil (List.mem_eraseDups.1 hname)
  · obtain ⟨name, -, rfl⟩ := List.mem_map.1 hrow
    exact hvalues name

theorem scan_eq_error {comment : String} {front back : List Match} {m : Match} {e : ParseError}
    (hms : Matches (commentText comment.toList) 0 (front ++ m :: back))
    (hfront : ∀ u ∈ front, u.parsed.isOk = true) (he : m.parsed = .error e) :
    scan comment = .error ⟨String.ofList m.name, e⟩ := by
  rw [scan, ← hms.map_eq, List.map_append, List.map_cons]
  refine addOccurrences_eq_error ?_ (by rw [m.value_eq, he]; rfl) []
  intro o ho
  obtain ⟨u, hu, rfl⟩ := List.mem_map.1 ho
  rw [u.isOk_value, hfront u hu]

theorem scan_eq_ok {comment : String} {ms : List Match}
    (hms : Matches (commentText comment.toList) 0 ms) (hok : ∀ m ∈ ms, m.parsed.isOk = true) :
    ∃ set, scan comment = .ok set ∧ set.Gathers ms := by
  obtain ⟨pairs, hpairs⟩ := exists_pairs hok
  have hvalues : (ms.map Match.toOccurrence).map (fun o => (String.ofList o.name, o.value)) =
      pairs.map fun pair => (pair.1, .ok pair.2) := by
    have herror := congrArg
      (List.map fun row : String × Except ParseError Value =>
        (row.1, row.2.mapError (ScanError.mk row.1))) hpairs
    have hvalue (m : Match) : (String.ofList m.name, m.toOccurrence.value) =
        (String.ofList m.name, m.parsed.mapError (ScanError.mk (String.ofList m.name))) := by
      rw [m.value_eq]
    rw [List.map_map, List.map_map] at herror
    rw [List.map_map]
    exact (List.map_congr_left fun m _ => hvalue m).trans herror
  refine ⟨_, ?_, AnnotationSet.gathers_grouped hpairs⟩
  rw [scan, ← hms.map_eq]
  exact addOccurrences_eq_grouped AnnotationSet.distinct_nil hvalues

/-- **What a scan finds.**  A comment has one sequence of matches, each the leftmost behind the
end of the one before it.  If the body of one cannot be parsed, the scan fails with the error of
the first of them.  Else it has the values of all matches and no others, grouped by name. -/
theorem scan_matches (comment : String) :
    (comment.toList.length ≤ 5 → commentText comment.toList = []) ∧
    (5 < comment.toList.length → ∃ front back, front.length = 3 ∧ back.length = 2 ∧
      comment.toList = front ++ commentText comment.toList ++ back) ∧
    ∃ ms, Matches (commentText comment.toList) 0 ms ∧
      (∀ ms', Matches (commentText comment.toList) 0 ms' → ms' = ms) ∧
      (∀ front m back e, ms = front ++ m :: back → (∀ u ∈ front, u.parsed.isOk = true) →
        m.parsed = .error e → scan comment = .error ⟨String.ofList m.name, e⟩) ∧
      ((∀ m ∈ ms, m.parsed.isOk = true) →
        ∃ set, scan comment = .ok set ∧ set.Gathers ms) := by
  obtain ⟨hshort, hlong⟩ := commentText_spec comment.toList
  obtain ⟨ms, hms, -⟩ := exists_matches (commentText comment.toList) 0
  refine ⟨hshort, hlong, ms, hms, fun ms' hms' => hms'.unique hms, ?_, scan_eq_ok hms⟩
  rintro front m back e rfl hfront he
  exact scan_eq_error hms hfront he

end DocFacts
