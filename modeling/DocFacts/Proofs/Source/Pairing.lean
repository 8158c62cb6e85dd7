import DocFacts.Proofs.Source.Items

/-!
# The header that gets a comment

A comment goes to the header behind it, or to none (`collect_header`).  The header has an item of
its own (`HeaderItem`), and what stands in front of it is not looked at again for the comments of
the headers behind it.  This holds for headers that start their line.  A line that starts with an
attribute is silent up to its end.  So what stands behind the attribute is no header, and the source
is read as if it did not have the line (`itemsIn_append_cons_of_silent`).
-/

namespace DocFacts.Source

/-- The line starts with the header of a declaration or of a function. -/
def StartsHeader (line : List Char) : Prop :=
  ∃ name, DeclarationHeader line name ∨ FunctionHeader line name

/-- The comment of a declaration or a member. -/
def Item.comment : Item → String
  | .declaration _ comment => comment
  | .member _ m => m.comment

/-- The items that the headers on a line have, by the grammar of headers. -/
inductive HeaderItem (past : List Part) (line : List Char) : Item → Prop where
  /-- A declaration. -/
  | declaration {name : String} (h : DeclarationHeader line name) :
    HeaderItem past line (.declaration (nameIn past name) (commentIn past))
  /-- A member of the nearest declaration. -/
  | member {name owner : String} (h : FunctionHeader line name) (howner : ownerIn past = some owner) :
    HeaderItem past line (.member owner ⟨name, commentIn past⟩)

/-- The items of some parts behind others, from first to last. -/
def itemsFrom (past : List Part) : List Part → List Item
  | [] => []
  | p :: parts => (itemIn past p).toList ++ itemsFrom (p :: past) parts

variable {past : List Part} {line : List Char}

theorem itemsIn_append (past parts : List Part) :
    itemsIn (parts.reverse ++ past) = itemsIn past ++ itemsFrom past parts := by
  induction parts generalizing past with
  | nil => exact (List.append_nil _).symm
  | cons p parts ih =>
    rw [List.reverse_cons, List.append_assoc, List.singleton_append, ih, itemsIn, itemsFrom,
      List.append_assoc]

/-- The items that headers have are those of their lines. -/
theorem itemIn_eq_some_iff {item : Item} :
    itemIn past (.code line) = some item ↔ HeaderItem past line item := by
  rw [itemIn_code]
  constructor
  · intro h
    split at h
    · rename_i name hcode
      obtain rfl := Option.some.inj h
      cases Code.ofLine_eq_iff.1 hcode with
      | declaration hheader => exact .declaration hheader
    · rename_i name hcode
      obtain ⟨owner, howner, rfl⟩ := Option.map_eq_some_iff.1 h
      cases Code.ofLine_eq_iff.1 hcode with
      | function hheader => exact .member hheader howner
    · cases h
  · rintro (hheader | ⟨hheader, howner⟩)
    · rw [(IsKind.declaration hheader).ofLine_eq]
    · rw [(IsKind.function hheader).ofLine_eq]
      exact Option.map_eq_some_iff.2 ⟨_, howner, rfl⟩

theorem HeaderItem.comment_eq {item : Item} (h : HeaderItem past line item) :
    item.comment = commentIn past := by
  cases h with
  | declaration h => rfl
  | member h howner => rfl

theorem StartsHeader.kind?_ne (h : StartsHeader line) :
    ∃ code, (Part.code line).kind? = some code ∧ code ≠ .silent := by
  obtain ⟨name, h | h⟩ := h
  · exact ⟨_, congrArg some (IsKind.declaration h).ofLine_eq, by simp⟩
  · exact ⟨_, congrArg some (IsKind.function h).ofLine_eq, by simp⟩

/-! ## Comments -/

/-- The comment of a header is a part in front of it, if it has one. -/
theorem commentIn_mem (past : List Part) :
    commentIn past = "" ∨ .doc (commentIn past).toList ∈ past := by
  rw [commentIn]
  split
  · rename_i text hfind
    right
    rw [String.toList_ofList]
    exact List.mem_of_find?_eq_some hfind
  · exact .inl rfl

/-- Behind a comment with nothing but silent code behind it, a header gets that comment. -/
theorem commentIn_append_doc {between : List Part} (h : ∀ p ∈ between, p.kind? = some .silent)
    (text : List Char) (past : List Part) :
    commentIn (between ++ .doc text :: past) = String.ofList text := by
  have hbetween : between.find? (fun p => p.kind? ≠ some .silent) = none :=
    List.find?_eq_none.2 fun p hp => by simp [h p hp]
  rw [commentIn, List.find?_append, hbetween, Option.none_or]
  rfl

section HeaderItem

variable {between middle : List Part} {doc header next : List Char} {item : Item}

/-- With nothing but silent code in between, the comment is that of the header. -/
theorem HeaderItem.comment_of_silent (hbetween : ∀ p ∈ between, p.kind? = some .silent)
    (h : HeaderItem (between ++ .doc doc :: past) line item) : item.comment = String.ofList doc :=
  h.comment_eq.trans (commentIn_append_doc hbetween doc past)

/-- No comment in front of a header is that of another header behind it. -/
theorem HeaderItem.comment_of_header (hheader : StartsHeader header)
    (h : HeaderItem (middle.reverse ++ .code header :: past) next item) :
    item.comment = "" ∨ .doc item.comment.toList ∈ middle := by
  obtain ⟨code, hkind, hcode⟩ := hheader.kind?_ne
  rw [h.comment_eq, commentIn_append hkind hcode, ← List.mem_reverse]
  exact commentIn_mem middle.reverse

end HeaderItem

/-! ## Silent code -/

section Silent

variable {p : Part}

theorem spaceIn_append_cons_of_silent (h : p.kind? = some .silent) (parts past : List Part) :
    spaceIn (parts ++ p :: past) = spaceIn (parts ++ past) := by
  rw [spaceIn, spaceIn, List.findSome?_append, List.findSome?_append, List.findSome?_cons, h]

theorem nameIn_append_cons_of_silent (h : p.kind? = some .silent) (parts past : List Part)
    (name : String) : nameIn (parts ++ p :: past) name = nameIn (parts ++ past) name := by
  rw [nameIn, spaceIn_append_cons_of_silent h, nameIn]

theorem commentIn_append_cons_of_silent (h : p.kind? = some .silent) (parts past : List Part) :
    commentIn (parts ++ p :: past) = commentIn (parts ++ past) := by
  rw [commentIn, commentIn, List.find?_append, List.find?_append,
    List.find?_cons_of_neg (by simp [h])]

theorem ownerIn_append_cons_of_silent (h : p.kind? = some .silent) (parts past : List Part) :
    ownerIn (parts ++ p :: past) = ownerIn (parts ++ past) := by
  induction parts with
  | nil => rw [List.nil_append, List.nil_append, ownerIn, h]
  | cons q parts ih =>
    rw [List.cons_append, List.cons_append, ownerIn, ownerIn, ih]
    simp only [nameIn_append_cons_of_silent h]

theorem itemIn_append_cons_of_silent (h : p.kind? = some .silent) (parts past : List Part)
    (q : Part) : itemIn (parts ++ p :: past) q = itemIn (parts ++ past) q := by
  rw [itemIn, itemIn]
  simp only [nameIn_append_cons_of_silent h, commentIn_append_cons_of_silent h,
    ownerIn_append_cons_of_silent h]

/-- Code that starts with an attribute is silent. -/
theorem kind?_of_attribute (h : ['#', '['] <+: line) : (Part.code line).kind? = some .silent :=
  congrArg some (IsKind.silent (.inr h)).ofLine_eq

theorem itemIn_of_silent (h : p.kind? = some .silent) (past : List Part) : itemIn past p = none := by
  rw [itemIn, h]

/-- Silent code could as well not be there. -/
theorem itemsIn_append_cons_of_silent (h : p.kind? = some .silent) (parts past : List Part) :
    itemsIn (parts ++ p :: past) = itemsIn (parts ++ past) := by
  induction parts with
  | nil => exact itemsIn_cons_of_none (itemIn_of_silent h past)
  | cons q parts ih =>
    rw [List.cons_append, List.cons_append, itemsIn, itemsIn, ih, itemIn_append_cons_of_silent h]

end Silent

/-- **The header that gets a comment.**  Behind a comment stands a line, and another one further
behind.  If the first line starts with a header, that header has its item, with the comment if only
silent code is in between, and the comment of the second line is one that stands between the two
lines, or none.  If the first line starts with an attribute, it is as if it were not there: what
else stands on it has no item, and the second line can get the comment. -/
theorem collect_header {source : String} {front between middle behind : List Part}
    {doc header next : List Char}
    (h : Reads none (Text.lines source.toList)
      (front ++ .doc doc :: (between ++ .code header :: (middle ++ .code next :: behind)))) :
    let past := (front ++ .doc doc :: between).reverse
    let past' := middle.reverse ++ .code header :: past
    ∃ item item' : Option Item,
      (collect source).flatMap declarationItems = itemsIn past ++ item.toList ++
        itemsFrom (.code header :: past) middle ++ item'.toList ++
          itemsFrom (.code next :: past') behind ∧
      (∀ i, item = some i ↔ HeaderItem past header i) ∧
      (∀ i, item' = some i ↔ HeaderItem past' next i) ∧
      (StartsHeader header →
        ((∀ p ∈ between, p.kind? = some .silent) → ∀ i ∈ item, i.comment = String.ofList doc) ∧
        ∀ i ∈ item', i.comment = "" ∨ .doc i.comment.toList ∈ middle) ∧
      (['#', '['] <+: header →
        item = none ∧
        (collect source).flatMap declarationItems =
          itemsIn (front ++ .doc doc :: (between ++ (middle ++ .code next :: behind))).reverse ∧
        ((∀ p ∈ between ++ middle, p.kind? = some .silent) →
          ∀ i ∈ item', i.comment = String.ofList doc)) := by
  intro past past'
  have hitems := items_collect h
  have hpast : past = between.reverse ++ .doc doc :: front.reverse := by simp [past]
  have hpast' : past' = middle.reverse ++ .code header :: between.reverse ++
      .doc doc :: front.reverse := by simp [past', past]
  have hparts :
      (front ++ .doc doc :: (between ++ .code header :: (middle ++ .code next :: behind))).reverse =
        behind.reverse ++ .code next :: past' := by simp [past', past]
  refine ⟨itemIn past (.code header), itemIn past' (.code next), ?_, fun i => itemIn_eq_some_iff,
    fun i => itemIn_eq_some_iff, fun hheader => ⟨fun hbetween i hi => ?_, fun i hi => ?_⟩,
    fun hattribute => ⟨?_, ?_, fun hsilent i hi => ?_⟩⟩
  · rw [hitems, hparts, itemsIn_append, itemsIn, itemsIn_append, itemsIn]
  · rw [hpast] at hi
    exact (itemIn_eq_some_iff.1 hi).comment_of_silent fun p hp => hbetween p (List.mem_reverse.1 hp)
  · exact (itemIn_eq_some_iff.1 hi).comment_of_header hheader
  · exact itemIn_of_silent (kind?_of_attribute hattribute) past
  · have hwith : behind.reverse ++ .code next :: past' =
        (middle ++ .code next :: behind).reverse ++ .code header :: past := by simp [past', past]
    have hwithout : (front ++ .doc doc :: (between ++ (middle ++ .code next :: behind))).reverse =
        (middle ++ .code next :: behind).reverse ++ past := by simp [past]
    rw [hitems, hparts, hwith, hwithout,
      itemsIn_append_cons_of_silent (kind?_of_attribute hattribute)]
  · -- The line itself is silent, so there is nothing else in front of the second one.
    rw [hpast'] at hi
    refine (itemIn_eq_some_iff.1 hi).comment_of_silent fun p hp => ?_
    rcases List.mem_append.1 hp with hp | hp
    · exact hsilent p (List.mem_append_right _ (List.mem_reverse.1 hp))
    · rcases List.mem_cons.1 hp with rfl | hp
      · exact kind?_of_attribute hattribute
      · exact hsilent p (List.mem_append_left _ (List.mem_reverse.1 hp))

/-- A class with an attribute on the line between a comment and the function behind it. -/
def attributeAbove : String :=
  "\n".intercalate [r"class A {", "/** D */", "#[X]", "function a() {}", "function b() {}", r"}"]

/-- An attribute on a line of its own. -/
theorem header_belowAttribute :
    collect attributeAbove =
      [⟨"A", "", [⟨"a", "/** D */"⟩, ⟨"b", ""⟩]⟩] ∧
    ∃ item item' : Option Item,
      [.declaration "A" "", .member "A" ⟨"a", "/** D */"⟩, .member "A" ⟨"b", ""⟩] =
        [.declaration "A" ""] ++ item.toList ++ item'.toList ∧
      (∀ i ∈ item, i.comment = "/** D */") ∧ ∀ i ∈ item', i.comment = "" := by
  have hcollect : collect attributeAbove =
      [⟨"A", "", [⟨"a", "/** D */"⟩, ⟨"b", ""⟩]⟩] := by decide +kernel
  have hlines : Text.lines attributeAbove.toList =
      [r"class A {".toList, "/** D */".toList, "#[X]".toList, "function a() {}".toList,
        "function b() {}".toList, r"}".toList] := by decide +kernel
  have hcode (line : List Char) {lines : List (List Char)} {parts : List Part}
      (hline : ¬ ['/', '*', '*'] <+: Text.trim line) (h : Reads none lines parts) :
      Reads none (line :: lines) (.code (Text.trim line) :: parts) :=
    Reads.cons (.outside (.code hline)) h
  have hcut : Text.cutBehind? '*' '/' ['*', ' ', 'D', ' ', '*', '/'] =
      some (['*', ' ', 'D', ' ', '*', '/'], []) := by decide
  have hdoc : Splits (Text.trim "/** D */".toList) none
      ⟨[['/', '*', '*', ' ', 'D', ' ', '*', '/']], some [], none⟩ := by
    rw [show Text.trim "/** D */".toList = "/** D */".toList by decide +kernel]
    exact .outside (.closed rfl (Text.cutBehind?_eq_some_iff.1 hcut))
  have hreads := hcode r"class A {".toList (by decide) <| Reads.cons hdoc <|
    hcode "#[X]".toList (by decide) <| hcode "function a() {}".toList (by decide) <|
    hcode "function b() {}".toList (by decide) <|
    hcode r"}".toList (by decide) <| .nil
  rw [← hlines] at hreads
  obtain ⟨item, item', hitems, -, -, hheader, -⟩ :=
    @collect_header _ [_] [_, _] [] [_] _ _ _ hreads
  obtain ⟨hown, hnext⟩ := hheader ⟨"a", .inr (functionName?_eq_some_iff.1 (by decide +kernel))⟩
  refine ⟨hcollect, item, item', ?_, hown (by decide +kernel), fun i hi => ?_⟩
  · have hfront : itemsIn [.code (Text.trim "#[X]".toList), .code [],
        .doc ['/', '*', '*', ' ', 'D', ' ', '*', '/'], .code (Text.trim r"class A {".toList)] =
          [.declaration "A" ""] := by decide +kernel
    have hbrace : Code.ofLine (Text.trim r"}".toList) = .other := by decide +kernel
    have hbehind (past : List Part) : itemsFrom past [.code (Text.trim r"}".toList)] = [] := by
      rw [itemsFrom, itemsFrom, itemIn_code, hbrace]
      rfl
    rw [hcollect, hbehind, itemsFrom, List.append_nil, List.append_nil] at hitems
    exact hitems.trans (congrArg (· ++ item.toList ++ item'.toList) hfront)
  · exact (hnext i hi).resolve_right (by simp)

/-- An attribute on the line of the header. -/
theorem header_behindAttribute :
    collect ("\n".intercalate
        [r"class A {", "/** D */", "#[X] function a() {}", "function b() {}", r"}"]) =
      [⟨"A", "", [⟨"b", "/** D */"⟩]⟩] := by decide +kernel

end DocFacts.Source
