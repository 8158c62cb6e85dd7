import DocFacts.Comment.Scan
import DocFacts.Proofs.Source.Parts

/-!
# Collected comments and their delimiters

A scan drops the first three and the last two characters of a comment without looking at them.
The collector puts a comment together line by line and looks for its end from the second star of
the opening mark on.  That both go together is stated here: a comment that is collected is
enclosed (`Enclosed`), and of an enclosed comment a scan drops the two marks and nothing else
(`Enclosed.eq_or_eq`).

What is kept from line to line is that a comment that is open has not been closed (`Unclosed`).
A line feed stands between two lines, so no mark that closes a comment arises between them.
-/

namespace DocFacts

/-- The comment of a declaration and those of its members. -/
def Declaration.comments (d : Declaration) : List String :=
  d.comment :: d.members.map Member.comment

namespace Source

/-! ## Comments that are closed and comments that are open -/

/-- The text is one comment.  The mark that closes it may begin with the second star of the mark
that opens it, and stands nowhere before the end. -/
structure Enclosed (text : List Char) : Prop where
  /-- The text starts with the mark that opens a comment. -/
  opens : ['/', '*', '*'] <+: text
  /-- It ends with the mark that closes one. -/
  closes : ['*', '/'] <:+ text
  /-- From the third character on that mark stands nowhere before. -/
  once : ¬ ['*', '/'] <:+: (text.drop 2).dropLast

/-- The text is the beginning of a comment that is not closed. -/
structure Unclosed (text : List Char) : Prop where
  /-- The text starts with the mark that opens a comment. -/
  opens : ['/', '*', '*'] <+: text
  /-- From the third character on the mark that closes one stands nowhere. -/
  never : ¬ ['*', '/'] <:+: text.drop 2

variable {text line : List Char} {cut : Cut}

/-- A comment that begins on a line and is closed on it. -/
theorem enclosed_of_cuts {rest front back : List Char}
    (h : Text.Cuts '*' '/' ('*' :: rest) front back) : Enclosed ('/' :: '*' :: front) := by
  obtain ⟨happend, hends, hfirst⟩ := h
  cases front with
  | nil => simp at hends
  | cons c front =>
    obtain ⟨rfl, -⟩ := List.cons.inj happend
    exact ⟨⟨front, rfl⟩, hends.trans ⟨['/', '*'], rfl⟩, hfirst⟩

theorem unclosed_of_not_infix {rest : List Char} (h : ¬ ['*', '/'] <:+: '*' :: rest) :
    Unclosed ('/' :: '*' :: '*' :: rest) := ⟨⟨rest, rfl⟩, h⟩

namespace Unclosed

variable {front back : List Char}

theorem drop_append (h : Unclosed text) (back : List Char) :
    (text ++ back).drop 2 = text.drop 2 ++ back := by
  obtain ⟨rest, rfl⟩ := h.opens
  rfl

/-- An open comment goes on with a line that does not close it. -/
theorem append (h : Unclosed text) (hline : ¬ ['*', '/'] <:+: line) :
    Unclosed (text ++ '\n' :: line) where
  opens := h.opens.trans (List.prefix_append _ _)
  never := by
    rw [h.drop_append]
    exact List.not_pair_infix_append_cons (by decide) (by decide) h.never hline

/-- An open comment is closed by the first mark of a line. -/
theorem enclosed_append (h : Unclosed text) (hcuts : Text.Cuts '*' '/' line front back) :
    Enclosed (text ++ '\n' :: front) := by
  have hne : front ≠ [] := by
    rintro rfl
    simpa using hcuts.ends
  refine ⟨h.opens.trans (List.prefix_append _ _), ?_, ?_⟩
  · exact hcuts.ends.trans ⟨text ++ ['\n'], by simp⟩
  · rw [h.drop_append, List.dropLast_append_of_ne_nil (List.cons_ne_nil _ _),
      List.dropLast_cons_of_ne_nil hne]
    exact List.not_pair_infix_append_cons (by decide) (by decide) h.never hcuts.first

end Unclosed

/-- What a line comes to: the comments that are closed on it, and the one that is open behind it. -/
structure Cut.Sound (cut : Cut) : Prop where
  /-- The comments that are closed are enclosed. -/
  docs : ∀ text ∈ cut.docs, Enclosed text
  /-- The comment that is open is not closed. -/
  opened : ∀ text ∈ cut.opened, Unclosed text

theorem Starts.sound (h : Starts line cut) : cut.Sound := by
  cases h with
  | code h => exact ⟨by simp, by simp⟩
  | closed hline h => exact ⟨by simpa using enclosed_of_cuts h, by simp⟩
  | opened hline h =>
    refine ⟨by simp, ?_⟩
    rintro text htext
    cases htext
    rw [hline]
    exact unclosed_of_not_infix h

theorem Splits.sound {opened : Option (List Char)} (h : Splits line opened cut)
    (hopened : ∀ text ∈ opened, Unclosed text) : cut.Sound := by
  cases h with
  | outside h => exact h.sound
  | closed h hback =>
    have hrest := hback.sound
    refine ⟨?_, hrest.opened⟩
    exact List.forall_mem_cons.2 ⟨(hopened _ rfl).enclosed_append h, hrest.docs⟩
  | inside h =>
    refine ⟨by simp, ?_⟩
    rintro text htext
    cases htext
    exact (hopened _ rfl).append h

/-! ## What the collector keeps -/

/-- A header has no comment or an enclosed one. -/
def Fits (comment : String) : Prop := comment = "" ∨ Enclosed comment.toList

/-- The comments so far are closed or open as they should be. -/
structure Comments.Sound (s : Comments) : Prop where
  /-- The comment that is open is not closed. -/
  opened : ∀ text ∈ s.opened, Unclosed text
  /-- The comment that waits is enclosed. -/
  waiting : ∀ text ∈ s.waiting, Enclosed text

namespace Comments

variable {s : Comments}

theorem Sound.read (h : s.Sound) (line : List Char) : (s.read line).1.Sound := by
  obtain ⟨opened, waiting⟩ := s
  obtain ⟨cut, hcut⟩ := exists_splits line opened
  have hsound := hcut.sound h.opened
  rw [read_eq hcut]
  refine ⟨hsound.opened, ?_⟩
  intro text htext
  rcases Option.or_eq_some_iff.1 htext with hdoc | ⟨-, hwaiting⟩
  · exact hsound.docs text (List.mem_of_getLast? hdoc)
  · exact h.waiting text hwaiting

theorem Sound.drop (h : s.Sound) : s.drop.Sound := ⟨h.opened, by simp [Comments.drop]⟩

theorem Sound.fits_take (h : s.Sound) : Fits s.take := by
  cases hwaiting : s.waiting with
  | none => exact .inl (by simp [take, hwaiting])
  | some text => exact .inr (by simpa [take, hwaiting] using h.waiting text hwaiting)

end Comments

/-- All comments of a declaration fit. -/
def AllFit (d : Declaration) : Prop := ∀ comment ∈ d.comments, Fits comment

/-- A member with a comment that fits joins its declaration. -/
theorem AllFit.add_member {d : Declaration} {m : Member} (h : AllFit d) (hm : Fits m.comment) :
    AllFit { d with members := d.members ++ [m] } := by
  intro comment hcomment
  simp only [Declaration.comments, List.map_append, List.map_cons, List.map_nil,
    ← List.cons_append, List.mem_append, List.mem_singleton] at hcomment
  rcases hcomment with hcomment | rfl
  · exact h comment hcomment
  · exact hm

namespace Collector

variable {s : Collector}

/-- All comments that have been found so far fit. -/
structure Sound (s : Collector) : Prop where
  /-- The comments that have not found a header are sound. -/
  comments : s.comments.Sound
  /-- The comments of the declarations and of their members fit. -/
  found : ∀ d ∈ s.found, AllFit d

theorem sound_empty : Sound {} := ⟨⟨by simp, by simp⟩, by simp⟩

/-- A header takes the comment that waits, and all other code leaves the comments found. -/
theorem Sound.readCode (h : s.Sound) (code : Code) : (s.readCode code).Sound := by
  cases code with
  | silent => exact h
  | space name => exact ⟨h.comments.drop, h.found⟩
  | declaration name =>
    refine ⟨h.comments.drop, List.forall_mem_cons.2 ⟨?_, h.found⟩⟩
    intro comment hcomment
    rw [List.mem_singleton.1 hcomment]
    exact h.comments.fits_take
  | function name =>
    have hfound := h.found
    rw [Collector.readCode]
    split
    · exact ⟨h.comments.drop, hfound⟩
    · rename_i owner rest hs
      rw [hs] at hfound
      obtain ⟨howner, hrest⟩ := List.forall_mem_cons.1 hfound
      refine ⟨h.comments.drop, List.forall_mem_cons.2 ⟨?_, hrest⟩⟩
      exact howner.add_member h.comments.fits_take
  | other => exact ⟨h.comments.drop, h.found⟩

/-- A line keeps comments that fit. -/
theorem Sound.readLine (h : s.Sound) (line : List Char) : (s.readLine line).Sound := by
  have hread := h.comments.read (Text.trim line)
  rw [Collector.readLine]
  split
  · rename_i comments code heq
    have hs : Sound { s with comments := comments } := ⟨by simpa only [heq] using hread, h.found⟩
    exact hs.readCode _
  · rename_i comments heq
    exact ⟨by simpa only [heq] using hread, h.found⟩

theorem Sound.readLines (h : s.Sound) (lines : List (List Char)) :
    (lines.foldl Collector.readLine s).Sound := by
  induction lines generalizing s with
  | nil => exact h
  | cons line lines ih => exact ih (h.readLine line)

end Collector

/-- **Whatever is collected fits.** -/
theorem allFit_collect (source : String) : ∀ d ∈ collect source, AllFit d := by
  intro d hd
  have hsound := Collector.sound_empty.readLines (Text.lines source.toList)
  exact hsound.found d (List.mem_reverse.1 hd)

/-! ## What a scan drops -/

/-- Of an enclosed comment a scan drops the two marks and nothing else.  They share a star in the
shortest one. -/
theorem Enclosed.eq_or_eq (h : Enclosed text) :
    (text = ['/', '*', '*', '/'] ∧ commentText text = []) ∨
      (text = ['/', '*', '*'] ++ commentText text ++ ['*', '/'] ∧
        ¬ ['*', '/'] <:+: '*' :: commentText text) := by
  obtain ⟨⟨rest, rfl⟩, ⟨front, hfront⟩, honce⟩ := h
  -- The closing mark takes the last two characters.  They are behind the first two, so the second
  -- star is the only one that can be in both marks.
  match front with
  | [] => cases hfront
  | [_] => cases hfront
  | [_, _] =>
    cases hfront
    exact .inl ⟨rfl, rfl⟩
  | _ :: _ :: _ :: inner =>
    obtain rfl : inner ++ ['*', '/'] = rest := by simpa using congrArg (List.drop 3) hfront
    rw [← List.append_assoc, commentText_of_eq]
    refine .inr ⟨rfl, ?_⟩
    intro hinner
    refine honce (hinner.trans (List.IsPrefix.isInfix ⟨['*'], ?_⟩))
    simp [List.dropLast_cons_of_ne_nil, List.dropLast_append_of_ne_nil]

/-! ## The comments of a source -/

/-- **A collected comment loses its marks in a scan and nothing else.**  Each comment that is
collected is empty or enclosed, with the mark that closes it nowhere before its end.  Behind the
three characters that open it and in front of the two that close it stands what a scan looks at. -/
theorem collected_comment_enclosed (source : String) :
    (∀ d ∈ collect source, ∀ comment ∈ d.comments, comment = "" ∨
      (Enclosed comment.toList ∧
        ((comment = "/**/" ∧ commentText comment.toList = []) ∨
          (comment.toList = ['/', '*', '*'] ++ commentText comment.toList ++ ['*', '/'] ∧
            ¬ ['*', '/'] <:+: '*' :: commentText comment.toList)))) ∧
      commentText "/**/".toList = [] ∧ commentText "/***/".toList = [] ∧
      commentText "".toList = [] := by
  refine ⟨?_, by decide, by decide, by decide⟩
  intro d hd comment hcomment
  rcases allFit_collect source d hd comment hcomment with hempty | henclosed
  · exact .inl hempty
  · refine .inr ⟨henclosed, ?_⟩
    rcases henclosed.eq_or_eq with ⟨hshort, htext⟩ | hlong
    · exact .inl ⟨String.toList_inj.1 hshort, htext⟩
    · exact .inr hlong

end Source

end DocFacts
