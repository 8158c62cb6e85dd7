import DocFacts.Arguments.Star
import DocFacts.Proofs.Arguments.TopLevel

/-!
# Where an error points

An error shows a place of the body: the offset of a quotation mark, the text behind a brace, or the
text up to a missing comma.  `ParseError.PointsInto` says what stands at that place in the whole
body.  An inside of a composite is read as a body of its own, so an error that arises there would
count its offset from the wrong place.  It never does: an inside is balanced, and a balanced body is
refused for a missing comma only (`PointsInto.of_balanced`).  A text in front of a missing comma is
a piece of the inside and so of the whole body, and what has been closed in front of it in the one
has been closed in the other (`PointsInto.composite`).  So every error points into the whole body,
by induction on the nesting (`pointsInto_of_parseBody`).
-/

namespace DocFacts

namespace Pass

variable {p : Pass} {text : List Char}

/-- A string that is never closed has no mark behind its first. -/
theorem not_meets_mark_of_closeQuote {past : List Char}
    (hpast : Text.isEscaped p.past = Text.isEscaped past) (h : closeQuote past text = none) :
    ¬ p.Meets IsMark text := by
  induction text generalizing p past with
  | nil => exact not_meets_nil
  | cons c text ih =>
    rw [closeQuote] at h
    split at h
    · cases h
    · rename_i hc
      rw [meets_cons]
      rintro (hm | hmeets)
      · exact hc ⟨hm.1, hpast ▸ hm.2⟩
      · refine ih ?_ h hmeets
        rw [past_step]
        exact Text.isEscaped_cons_congr hpast c

/-- Without a mark a pass stays between quotation marks. -/
theorem inQuote_through_of_not_meets (hq : p.inQuote = true) (h : ¬ p.Meets IsMark text) :
    (p.through text).inQuote = true := by
  induction text generalizing p with
  | nil => exact hq
  | cons c text ih =>
    rw [meets_cons, not_or] at h
    refine ih ?_ h.2
    rw [step_inQuote h.1 hq]

/-- A composite that is never closed stays open over all of the text behind its brace. -/
theorem depth_pos_of_closeBrace {within : List Char} (hq : p.inQuote = false)
    (h : closeBrace 1 false [] text = none) (hwithin : within <+: text) :
    0 < (p.through ('{' :: within)).depth := by
  obtain ⟨back, rfl⟩ := hwithin
  have hnone : closeBrace 1 false [] within = none := by
    cases hclose : closeBrace 1 false [] within with
    | none => rfl
    | some cut =>
      rw [closeBrace_append hclose] at h
      cases h
  have hdepth := depth_through_of_closeBrace_eq_none (inside_step_open hq) hnone
  exact Nat.zero_lt_of_lt hdepth

/-- What closes a string in the inside of a composite closes it in the whole body. -/
theorem Inside.closesQuote {q : Pass} {surplus : Nat} {c : Char} (h : p.Inside q surplus)
    (hc : p.ClosesQuote c) : q.ClosesQuote c :=
  ⟨h.inQuote.trans hc.1, h.isMark_iff.2 hc.2⟩

/-- What closes a composite in the inside of another closes it in the whole body. -/
theorem Inside.closesBrace {q : Pass} {surplus : Nat} {c : Char} (h : p.Inside q surplus)
    (hc : p.ClosesBrace c) : q.ClosesBrace c := by
  obtain ⟨hq, hbrace, hdepth⟩ := hc
  refine ⟨h.inQuote.trans hq, hbrace, ?_⟩
  rw [h.depth]
  omega

end Pass

/-- A string or a composite is closed at the end of the text. -/
inductive EndsClosed (text : List Char) : Prop where
  /-- The text ends in the quotation mark that closes a string. -/
  | string {front : List Char} (htext : text = front ++ ['"'])
      (hclose : (Pass.through {} front).ClosesQuote '"')
  /-- The text ends in the brace that closes a composite, and blank characters. -/
  | composite {front gap : List Char} (htext : text = front ++ '}' :: gap)
      (hgap : ∀ c ∈ gap, Text.isBlank c = true)
      (hclose : (Pass.through {} front).ClosesBrace '}')

namespace EndsClosed

/-- What is closed in the inside of a composite is closed in the whole body. -/
theorem of_inside {text front : List Char} (h : EndsClosed text) (hstray : Pass.NoStray {} text)
    (htop : (Pass.through {} front).AtTop) : EndsClosed (front ++ '{' :: text) := by
  have hinside (before : List Char) (hbefore : Pass.NoStray {} before) :
      Pass.Inside (Pass.through {} before) (Pass.through {} (front ++ '{' :: before))
        ((Pass.through {} front).depth + 1) := by
    rw [Pass.through_append, Pass.through_cons]
    exact (Pass.inside_step_open htop.1).through hbefore
  cases h with
  | @string before htext hclose =>
    rw [htext] at hstray ⊢
    refine @EndsClosed.string _ (front ++ '{' :: before) (by simp) ?_
    exact (hinside before (Pass.noStray_append.1 hstray).1).closesQuote hclose
  | @composite before gap htext hgap hclose =>
    rw [htext] at hstray ⊢
    refine @EndsClosed.composite _ (front ++ '{' :: before) gap (by simp) hgap ?_
    exact (hinside before (Pass.noStray_append.1 hstray).1).closesBrace hclose

end EndsClosed

namespace ParseError

/-- What an error says of the body that is refused. -/
inductive PointsInto (body : List Char) : ParseError → Prop where
  /-- The offset is that of a mark at the top level behind which there is no other. -/
  | openString {front back : List Char} (hbody : body = front ++ '"' :: back)
      (htop : (Pass.through {} front).AtTop) (hmark : (Pass.through {} front).IsMark '"')
      (hback : ¬ (Pass.through {} (front ++ ['"'])).Meets Pass.IsMark back) :
      PointsInto body (.unterminatedQuote front.length)
  /-- The text stands behind a brace at the top level, and the depth stays above zero in it. -/
  | openComposite {front back : List Char} (hbody : body = front ++ '{' :: back)
      (htop : (Pass.through {} front).AtTop)
      (hback : ∀ within, within <+: back → 0 < (Pass.through {} (front ++ '{' :: within)).depth) :
      PointsInto body (.unterminatedComposite (String.ofList back))
  /-- The text is a piece of the body and ends in a character that is no comma.  In front of that
  character a string or a composite is closed. -/
  | missingComma {front near back : List Char} {c : Char}
      (hbody : body = front ++ (near ++ [c]) ++ back) (hlength : (near ++ [c]).length ≤ 10)
      (hcomma : c ≠ ',') (hclosed : EndsClosed (front ++ near)) :
      PointsInto body (.missingComma (String.ofList (near ++ [c])))

variable {body inside front back : List Char} {e : ParseError}

/-! ## Insides of composites -/

/-- A balanced body is refused for a missing comma only. -/
theorem PointsInto.of_balanced (h : PointsInto body e) (hbody : Pass.Balanced {} body) :
    ∃ near, e = .missingComma near := by
  cases h with
  | @openString front back heq htop hmark hback =>
    have hopen : (Pass.through {} (front ++ ['"'])).inQuote = true := by
      rw [Pass.through_append, Pass.through_cons, Pass.through_nil, Pass.step_mark hmark, htop.1]
      rfl
    have hend := Pass.inQuote_through_of_not_meets hopen hback
    rw [← Pass.through_append, List.append_assoc, List.singleton_append, ← heq,
      hbody.outside] at hend
    cases hend
  | @openComposite front back heq htop hback =>
    have hdepth := hback back List.prefix_rfl
    rw [← heq, hbody.closed] at hdepth
    exact absurd hdepth (Nat.lt_irrefl 0)
  | missingComma hbody hlength hcomma hclosed => exact ⟨_, rfl⟩

/-- An error that points into the inside of a composite points into the whole body. -/
theorem PointsInto.composite (h : PointsInto inside e) (hinside : Pass.Balanced {} inside)
    (htop : (Pass.through {} front).AtTop) :
    PointsInto (front ++ '{' :: (inside ++ '}' :: back)) e := by
  obtain ⟨near, rfl⟩ := h.of_balanced hinside
  cases h with
  | @missingComma before near after c heq hlength hcomma hclosed =>
    have hstray : Pass.NoStray {} (before ++ near) := by
      have hwhole := hinside.noStray
      have hsplit : inside = (before ++ near) ++ (c :: after) := by
        rw [heq]
        simp
      rw [hsplit] at hwhole
      exact (Pass.noStray_append.1 hwhole).1
    have hbody : front ++ '{' :: (inside ++ '}' :: back) =
        (front ++ '{' :: before) ++ (near ++ [c]) ++ (after ++ '}' :: back) := by
      rw [heq]
      simp
    refine .missingComma hbody hlength hcomma ?_
    rw [List.append_assoc, List.cons_append]
    exact hclosed.of_inside hstray htop

/-! ## The place at which the reader is stuck -/

/-- A missing comma behind something closed. -/
theorem pointsInto_separator {past rest : List Char} (hclosed : EndsClosed past.reverse)
    (he : (Cursor.mk past rest).separatorError? = some e) :
    PointsInto (past.reverse ++ rest) e := by
  obtain ⟨c, back, hrest, hc, rfl⟩ := Cursor.separatorError?_eq_some_iff.1 he
  obtain rfl : rest = c :: back := hrest
  have hpast : (past.drop 9).reverse ++ (past.take 9).reverse = past.reverse := by
    rw [← List.reverse_append, List.take_append_drop]
  have hnear : ((c :: past).take 10).reverse = (past.take 9).reverse ++ [c] := by
    rw [List.take_succ_cons, List.reverse_cons]
  rw [hnear]
  refine @PointsInto.missingComma _ (past.drop 9).reverse _ back c ?_ ?_ hc ?_
  · rw [← List.append_assoc, hpast, List.append_assoc, List.singleton_append]
  · rw [List.length_append, List.length_reverse, List.length_take, List.length_singleton]
    omega
  · rw [hpast]
    exact hclosed

end ParseError

open ParseError

namespace Reading

variable {r s : Reading} {e : ParseError} {inside gap : List Char}

/-- Behind a string something is closed. -/
theorem endsClosed_string (hr : r.OnTop) (hescaped : Text.isEscaped r.cursor.past = false)
    (hinside : Quotable [] inside) :
    EndsClosed ('"' :: (inside.reverse ++ '"' :: r.cursor.past)).reverse := by
  refine @EndsClosed.string _ (r.cursor.past.reverse ++ '"' :: inside) (by simp) ?_
  rw [Pass.through_append, hr]
  exact Pass.closesQuote_through rfl hescaped hinside

/-- Behind a composite and blank characters something is closed. -/
theorem endsClosed_composite (hr : r.OnTop) (hinside : Pass.Balanced {} inside)
    (hgap : ∀ c ∈ gap, Text.isBlank c = true) :
    EndsClosed (gap.reverse ++ '}' :: (inside.reverse ++ '{' :: r.cursor.past)).reverse := by
  refine @EndsClosed.composite _ (r.cursor.past.reverse ++ '{' :: inside) gap (by simp) hgap ?_
  rw [Pass.through_append, hr, Pass.through_open_balanced rfl hinside]
  exact ⟨rfl, rfl, Nat.succ_pos _⟩

/-- A reader that is stuck points into the body that it reads, if the insides of its composites are
refused with errors that point into them. -/
theorem Stuck.pointsInto (h : Stuck r e) (hr : r.OnTop)
    (ih : ∀ inside e, inside.length < r.whole.length → parseBody inside = .error e →
      PointsInto inside e) : PointsInto r.whole e := by
  have htop : (Pass.through {} r.cursor.past.reverse).AtTop := by
    rw [hr]
    exact ⟨rfl, rfl⟩
  cases h with
  | @openString back hrest hescaped hclose =>
    have hlength : r.cursor.offset = r.cursor.past.reverse.length := by
      rw [List.length_reverse]
      rfl
    have hmark : (Pass.through {} r.cursor.past.reverse).IsMark '"' := by
      rw [hr]
      exact ⟨rfl, hescaped⟩
    rw [hlength, whole, hrest]
    refine .openString rfl htop hmark (Pass.not_meets_mark_of_closeQuote ?_ hclose)
    rw [Pass.past_through, List.reverse_append, List.reverse_singleton, List.singleton_append,
      List.cons_append]
    exact Text.isEscaped_cons_of_ne (by decide) _
  | @behindString inside back e hrest hescaped hinside hback =>
    have hwhole : r.whole = ('"' :: (inside.reverse ++ '"' :: r.cursor.past)).reverse ++ back := by
      rw [whole, hrest]
      simp
    rw [hwhole]
    exact pointsInto_separator (endsClosed_string hr hescaped hinside) hback
  | @openComposite back hrest hclose =>
    rw [whole, hrest]
    refine .openComposite rfl htop fun within hwithin => ?_
    rw [Pass.through_append]
    exact Pass.depth_pos_of_closeBrace htop.1 hclose hwithin
  | @inComposite inside back e hrest hinside herror =>
    have hlength : inside.length < r.whole.length := by
      rw [whole, hrest]
      simp only [List.length_append, List.length_cons]
      omega
    rw [whole, hrest]
    exact (ih inside e hlength herror).composite hinside htop
  | @behindComposite inside gap back v e hrest hinside hvalue hgap hblank hback =>
    have hwhole : r.whole =
        (gap.reverse ++ '}' :: (inside.reverse ++ '{' :: r.cursor.past)).reverse ++ back := by
      rw [whole, hrest]
      simp
    rw [hwhole]
    exact pointsInto_separator (endsClosed_composite hr hinside hgap) hback

end Reading

/-- An error points into the body that is refused. -/
theorem pointsInto_of_parseBody {body : List Char} {e : ParseError}
    (h : parseBody body = .error e) : PointsInto body e := by
  induction hk : body.length using Nat.strongRecOn generalizing body e with
  | _ k ih =>
    obtain ⟨s, hreads, hstuck⟩ := Reading.run_eq_error_iff.1 h
    have hwhole : s.whole = body := hreads.whole_eq
    rw [← hwhole]
    refine hstuck.pointsInto (hreads.onTop (Reading.onTop_start body)) ?_
    intro inside e hlength herror
    rw [hwhole, hk] at hlength
    exact ih inside.length hlength herror rfl

/-- The reader hands back balanced insides only. -/
theorem Reading.balanced_of_step_eq_descend {r : Reading} {c : Char} {rest inside : List Char}
    {behind : Cursor} (h : r.step c rest = .descend inside behind) : Pass.Balanced {} inside := by
  obtain ⟨-, cut, back, hclose, rfl, -⟩ := Reading.of_step_eq_descend h
  obtain ⟨body, -, rfl, hbody⟩ := (closeBrace_eq_some_iff (p := {})).1 hclose
  rw [List.append_nil, List.reverse_reverse]
  exact hbody

/-- **Errors point into the whole body.**  What is said of the body without the stars of its lines
holds of every error, and the inside of a composite, wherever the reader meets it, is refused for a
missing comma only. -/
theorem parseArguments_error_pointsInto (content : String) :
    (∀ e, parseArguments content = .error e → e.PointsInto (dropStars true content.toList)) ∧
      ∀ (r : Reading) (c : Char) (rest inside : List Char) (behind : Cursor) (e : ParseError),
        r.step c rest = .descend inside behind → parseBody inside = .error e →
          ∃ near, e = .missingComma near := by
  constructor
  · intro e h
    exact pointsInto_of_parseBody h
  · intro r c rest inside behind e hstep herror
    exact (pointsInto_of_parseBody herror).of_balanced (Reading.balanced_of_step_eq_descend hstep)

end DocFacts
