import DocFacts.Proofs.Source.Items
import DocFacts.Proofs.Text.Lines

/-!
# A line break behind a comment

What stands behind a comment that is closed on a line could as well stand on a line of its own
(`collect_lineBreak`).  There is one exception.  If the line starts with the comment, and the text
behind it starts with another one, the whole text is read as other code.  Behind a comment that was
opened on an earlier line it is read as on a line of its own.

A line comes to a `Cut`, so it is compared what the line comes to with what its two parts come to
one after the other (`Splits.append_closed`, `Splits.append_started`).
-/

namespace DocFacts.Source

open Text (EndsLine firstLine nextLines)

/-- The comment that is open behind some lines. -/
inductive Leaves : Option (List Char) → List (List Char) → Option (List Char) → Prop where
  /-- No line. -/
  | nil {opened : Option (List Char)} : Leaves opened [] opened
  /-- A line and those behind it. -/
  | cons {opened opened' : Option (List Char)} {line : List Char} {lines : List (List Char)}
    {cut : Cut} (h : Splits (Text.trim line) opened cut) (hlines : Leaves cut.opened lines opened') :
    Leaves opened (line :: lines) opened'

namespace Collector

variable (s : Collector)

/-- The collector behind a line, told by what the line comes to. -/
def after (cut : Cut) : Collector :=
  let s := { s with comments := ⟨cut.opened, cut.docs.getLast?.or s.comments.waiting⟩ }
  match cut.code with
  | some code => s.readCode (Code.ofLine code)
  | none => s

variable {s} {line : List Char} {cut : Cut}

theorem readLine_eq_after (h : Splits (Text.trim line) s.comments.opened cut) :
    s.readLine line = s.after cut := by
  have hread : s.comments.read (Text.trim line) =
      (⟨cut.opened, cut.docs.getLast?.or s.comments.waiting⟩, cut.code) :=
    Comments.read_eq h s.comments.waiting
  rw [readLine, hread, after]
  cases cut.code <;> rfl

theorem opened_after (s : Collector) (cut : Cut) : (s.after cut).comments.opened = cut.opened := by
  rw [after]
  cases cut.code with
  | none => rfl
  | some code => rw [opened_readCode]

theorem opened_of_leaves {lines : List (List Char)} {opened : Option (List Char)}
    (h : Leaves s.comments.opened lines opened) :
    (lines.foldl readLine s).comments.opened = opened := by
  induction lines generalizing s with
  | nil =>
    cases h with
    | nil => rfl
  | cons line lines ih =>
    cases h with
    | cons hcut hlines =>
      rw [List.foldl_cons]
      refine ih ?_
      rwa [readLine_eq_after hcut, opened_after]

theorem readLine_congr {line' : List Char} (h : Text.trim line = Text.trim line') :
    s.readLine line = s.readLine line' := by
  rw [readLine, readLine, h]

theorem readLine_nil (h : s.comments.opened = none) : s.readLine [] = s := by
  have hcut : Splits (Text.trim []) s.comments.opened ⟨[], some [], none⟩ := by
    rw [h]
    exact .outside (.code (by decide))
  obtain ⟨⟨opened, waiting⟩, space, found, notes⟩ := s
  obtain rfl : opened = none := h
  rw [readLine_eq_after hcut]
  rfl

/-- A text is read line by line.  No text is as good as a blank line outside comments. -/
theorem foldl_lines {text : List Char} (h : text = [] → s.comments.opened = none) :
    (Text.lines text).foldl readLine s =
      (Text.lines (nextLines text)).foldl readLine (s.readLine (firstLine text)) := by
  by_cases hempty : text = []
  · subst hempty
    exact (readLine_nil (h rfl)).symm
  · obtain ⟨line, hlines, htrim⟩ := Text.exists_lines_eq hempty
    rw [hlines, List.foldl_cons, readLine_congr htrim]

end Collector

/-! ## A line in two parts -/

section Parts

variable {line more : List Char} {doc text : List Char}

/-- Nothing but a comment stands on the line, so no code is left. -/
theorem Starts.no_docs {cut : Cut} (h : Starts line cut) (hdocs : cut.docs = [])
    (hcode : cut.code = some []) : line = [] := by
  cases h with
  | code h => exact Option.some.inj hcode
  | closed hline h => cases hdocs
  | opened hline h => cases hcode

/-- No comment ends on an empty line. -/
theorem Splits.ne_nil {opened : Option (List Char)} {cut : Cut} (h : Splits line opened cut)
    (hdocs : cut.docs ≠ []) : line ≠ [] := by
  rintro rfl
  cases h with
  | outside h =>
    cases h with
    | code h => exact hdocs rfl
    | closed hline h => cases hline
    | opened hline h => cases hline
  | closed h hback => exact absurd h.has_mark (by simp)
  | inside h => exact hdocs rfl

/-- Text behind a comment that the line closes is read as on a line of its own. -/
theorem Splits.append_closed {cut : Cut} (h : Splits line (some text) ⟨[doc], some [], none⟩)
    (hmore : Starts (Text.trim more) cut) :
    Splits (line ++ more) (some text) { cut with docs := doc :: cut.docs } := by
  generalize hcut : (⟨[doc], some [], none⟩ : Cut) = whole at h
  cases h with
  | @closed _ front back rest hfront hback =>
    obtain ⟨hdocs, hcode, -⟩ := Cut.mk.inj hcut
    obtain ⟨rfl, hrest⟩ := List.cons.inj hdocs
    have hblank := Text.trim_eq_nil_iff.1 (hback.no_docs hrest.symm hcode.symm)
    refine .closed (hfront.append more) ?_
    rwa [Text.trim_blanks_append hblank]
  | inside h => cases (Cut.mk.inj hcut).1

/-- Text behind a comment that the line starts with is the code of the line. -/
theorem Splits.append_started (h : Splits line none ⟨[doc], some [], none⟩) (more : List Char) :
    Splits (line ++ more) none ⟨[doc], some (Text.trim more), none⟩ := by
  cases h with
  | outside h =>
    generalize hcut : (⟨[doc], some [], none⟩ : Cut) = whole at h
    cases h with
    | code h => cases (Cut.mk.inj hcut).1
    | @closed rest front back hline hfront =>
      obtain ⟨hdocs, hcode, -⟩ := Cut.mk.inj hcut
      obtain ⟨rfl, -⟩ := List.cons.inj hdocs
      have hblank := Text.trim_eq_nil_iff.1 (Option.some.inj hcode).symm
      have hwhole : line ++ more = '/' :: '*' :: '*' :: (rest ++ more) := by
        rw [hline]
        rfl
      have hstarts := Starts.closed hwhole (hfront.append more)
      rw [Text.trim_blanks_append hblank] at hstarts
      exact .outside hstarts
    | opened hline h => cases (Cut.mk.inj hcut).1

end Parts

namespace Collector

variable {s : Collector} {front line doc : List Char} {cut : Cut}

/-- A line that comes to code. -/
theorem after_code (s : Collector) (docs : List (List Char)) (code : List Char)
    (opened : Option (List Char)) : s.after ⟨docs, some code, opened⟩ =
      { s with comments := ⟨opened, docs.getLast?.or s.comments.waiting⟩ }.readCode
        (Code.ofLine code) := rfl

/-- A line that comes to nothing but a comment. -/
theorem after_doc (s : Collector) (doc : List Char) :
    s.after ⟨[doc], some [], none⟩ = { s with comments := ⟨none, some doc⟩ } := rfl

/-- A comment in front of all that a line comes to could as well have a line of its own. -/
theorem after_cons (s : Collector) (doc : List Char) (cut : Cut) :
    s.after { cut with docs := doc :: cut.docs } = (s.after ⟨[doc], some [], none⟩).after cut := by
  rw [after_doc, after, after, List.getLast?_cons]
  cases cut.docs.getLast? <;> rfl

/-- A line up to the end of a comment and the text behind it are read one after the other, unless
the line starts with the comment and the text with another one. -/
theorem readLine_append (h : Splits (Text.trim front) s.comments.opened ⟨[doc], some [], none⟩)
    (hfront : Text.trim front ≠ [])
    (hline : s.comments.opened ≠ none ∨ ¬ ['/', '*', '*'] <+: Text.trim line) :
    s.readLine (front ++ line) = (s.readLine front).readLine line := by
  obtain ⟨more, hmore, htrim⟩ := Text.exists_trim_append hfront line
  obtain ⟨cut, hcut⟩ := exists_starts (Text.trim line)
  have hwhole : Splits (Text.trim (front ++ line)) s.comments.opened
      { cut with docs := doc :: cut.docs } := by
    rw [hmore]
    cases hopened : s.comments.opened with
    | some text =>
      rw [hopened] at h
      exact h.append_closed (htrim ▸ hcut)
    | none =>
      rw [hopened] at h hline
      have hcode : cut = ⟨[], some (Text.trim line), none⟩ :=
        hcut.unique (.code (hline.resolve_left fun hne => hne rfl))
      rw [hcode, ← htrim]
      exact h.append_started more
  have hbehind : Splits (Text.trim line) (s.readLine front).comments.opened cut := by
    rw [readLine_eq_after h, opened_after]
    exact .outside hcut
  rw [readLine_eq_after hwhole, after_cons, readLine_eq_after hbehind, readLine_eq_after h]

/-- All the text behind a comment with which a line starts is the code of the line.  If that is
other code, it does not matter which. -/
theorem readLine_started_congr {line' : List Char} (hopened : s.comments.opened = none)
    (h : Splits (Text.trim front) none ⟨[doc], some [], none⟩) (hfront : Text.trim front ≠ [])
    (hline : Code.ofLine (Text.trim line) = .other)
    (hline' : Code.ofLine (Text.trim line') = .other) :
    s.readLine (front ++ line) = s.readLine (front ++ line') := by
  have hread {line : List Char} (hline : Code.ofLine (Text.trim line) = .other) :
      s.readLine (front ++ line) = { s with comments := {} } := by
    obtain ⟨more, hmore, htrim⟩ := Text.exists_trim_append hfront line
    have hwhole : Splits (Text.trim (front ++ line)) s.comments.opened
        ⟨[doc], some (Text.trim more), none⟩ := by
      rw [hmore, hopened]
      exact h.append_started more
    rw [readLine_eq_after hwhole, htrim, after_code, hline]
    rfl
  rw [hread hline, hread hline']

/-- A source is read up to some line, then that line, and then what is behind it. -/
theorem readSource_append {past : List Char} (hpast : EndsLine past) (hline : '\n' ∉ front)
    (hfront : Text.trim front ≠ []) (rest : List Char) :
    readSource (String.ofList (past ++ front ++ rest)) = (Text.lines (nextLines rest)).foldl readLine
      (((Text.lines past).foldl readLine {}).readLine (front ++ firstLine rest)) := by
  have hne : front ++ rest ≠ [] := by
    rintro hnil
    rw [(List.append_eq_nil_iff.1 hnil).1] at hfront
    exact hfront rfl
  rw [readSource, String.toList_ofList, List.append_assoc, Text.lines_append hpast,
    List.foldl_append, foldl_lines fun hnil => absurd hnil hne, Text.firstLine_append hline,
    Text.nextLines_append hline]

end Collector

/-- **A line break behind a comment.**  If nothing but a comment ends on a line, what follows on
the line can stand on a line of its own (first part).  If the line starts with that comment, and
another one starts what follows, all that follows is read as other code (second part). -/
theorem collect_lineBreak {past front rest doc : List Char} {opened : Option (List Char)}
    (hpast : EndsLine past) (hline : '\n' ∉ front) (hopened : Leaves none (Text.lines past) opened)
    (hfront : Splits (Text.trim front) opened ⟨[doc], some [], none⟩) :
    ((opened ≠ none ∨ ¬ ['/', '*', '*'] <+: Text.trim (firstLine rest)) →
      collect (String.ofList (past ++ front ++ '\n' :: rest)) =
        collect (String.ofList (past ++ front ++ rest))) ∧
    (opened = none → ['/', '*', '*'] <+: Text.trim (firstLine rest) →
      collect (String.ofList (past ++ front ++ rest)) =
        collect (String.ofList (past ++ front ++ ';' :: rest.dropWhile (· ≠ '\n')))) := by
  have hne : Text.trim front ≠ [] := hfront.ne_nil (by simp)
  have hread := Collector.readSource_append hpast hline hne
  have hs := Collector.opened_of_leaves (s := {}) hopened
  generalize (Text.lines past).foldl Collector.readLine {} = s at hread hs
  subst hs
  refine ⟨fun hcond => ?_, fun hnone hdoc => ?_⟩
  · have hbehind : (s.readLine front).comments.opened = none := by
      rw [Collector.readLine_eq_after hfront, Collector.opened_after]
    have hbreak : s.readLine (front ++ firstLine ('\n' :: rest)) = s.readLine front :=
      congrArg s.readLine (List.append_nil front)
    rw [collect, collect, hread, hread, Collector.readLine_append hfront hne hcond, hbreak,
      ← Collector.foldl_lines fun _ => hbehind]
    rfl
  · rw [hnone] at hfront
    have hother : Code.ofLine (Text.trim (firstLine rest)) = .other := by
      obtain ⟨more, hmore⟩ := hdoc
      rw [← hmore]
      exact ofLine_eq_other (by decide) (by decide) _
    have hsemicolon : Code.ofLine (Text.trim [';']) = .other := by decide +kernel
    have hend : '\n' ∉ [';'] := by decide
    have hfirst : firstLine (';' :: rest.dropWhile (· ≠ '\n')) = [';'] :=
      (Text.firstLine_append hend _).trans (congrArg _ (Text.firstLine_dropWhile rest))
    have hnext : nextLines (';' :: rest.dropWhile (· ≠ '\n')) = nextLines rest :=
      (Text.nextLines_append hend _).trans (Text.nextLines_dropWhile rest)
    rw [collect, collect, hread, hread, hnext, hfirst,
      Collector.readLine_started_congr hnone hfront hne hother hsemicolon]

/-- A second comment behind one that is closed. -/
theorem lineBreak_secondComment :
    collect ("\n".intercalate
        [r"class A {", "/** a", "* x */", " /** b */ function f() {}", r"}"]) =
      collect ("\n".intercalate
        [r"class A {", "/** a", "* x */ /** b */ function f() {}", r"}"]) ∧
    collect ("\n".intercalate [r"class A {", "/** a", "* x */ /** b */ function f() {}", r"}"]) =
      [⟨"A", "", [⟨"f", "/** b */"⟩]⟩] := by
  have hlines : Text.lines (r"class A {" ++ "\n/** a\n").toList =
      [r"class A {".toList, "/** a".toList] := by
    decide +kernel
  have hclass :
      Splits (Text.trim r"class A {".toList) none ⟨[], some r"class A {".toList, none⟩ := by
    rw [show Text.trim r"class A {".toList = r"class A {".toList by decide +kernel]
    exact .outside (.code (by decide))
  have ha : Splits (Text.trim "/** a".toList) none ⟨[], none, some "/** a".toList⟩ := by
    rw [show Text.trim "/** a".toList = "/** a".toList by decide +kernel]
    exact .outside (.opened rfl (by decide))
  have hcut : Text.cutBehind? '*' '/' "* x */".toList = some ("* x */".toList, []) := by decide
  have hx : Splits (Text.trim "* x */".toList) (some "/** a".toList)
      ⟨["/** a\n* x */".toList], some [], none⟩ := by
    rw [show Text.trim "* x */".toList = "* x */".toList by decide +kernel]
    exact .closed (Text.cutBehind?_eq_some_iff.1 hcut) (@Starts.code [] (by decide))
  have hopened := Leaves.cons hclass (.cons ha .nil)
  rw [← hlines] at hopened
  refine ⟨?_, by decide +kernel⟩
  exact (@collect_lineBreak (r"class A {" ++ "\n/** a\n").toList "* x */".toList
    (" /** b */ function f() {}\n" ++ r"}").toList "/** a\n* x */".toList (some "/** a".toList)
    (.inr (by decide)) (by decide) hopened hx).1 (.inl (by decide))

/-- A second comment behind one with which the line starts is other code. -/
theorem lineBreak_secondComment_started :
    collect ("\n".intercalate [r"class A {", "/** a */", " /** b */ function f() {}", r"}"]) =
      [⟨"A", "", [⟨"f", "/** b */"⟩]⟩] ∧
    collect ("\n".intercalate [r"class A {", "/** a */ /** b */ function f() {}", r"}"]) =
      [⟨"A", "", []⟩] := by
  decide +kernel

end DocFacts.Source
