import DocFacts.Proofs.Source.Header
import DocFacts.Proofs.Source.Parts

/-!
# What is collected from a source

The items of a source are its declarations, each with its members behind it, and they say which
declarations these are (`flatMap_declarationItems_inj`).  They are told from the parts of the
source alone: an item for each header, with what the parts in front of it say (`itemsIn`).  A
collector knows of those parts just the nearest namespace, the last declaration and the comment
that waits (`Collector.Knows`).  Each part keeps that so (`Collector.Knows.doc`,
`Collector.Knows.code`), and so does each line.  So `collect` gives the items of the source
(`collect_items`).
-/

namespace DocFacts.Source

/-- A declaration without its members, or a member of a declaration. -/
inductive Item where
  /-- A declaration. -/
  | declaration (name comment : String)
  /-- A member and the name of the declaration to which it belongs. -/
  | member (owner : String) (m : Member)
deriving DecidableEq, Repr

/-- A declaration, and its members behind it. -/
def declarationItems (d : Declaration) : List Item :=
  .declaration d.name d.comment :: d.members.map (.member d.name)

/-- Members end where there is no more member. -/
theorem map_member_append_inj {owner : String} {ms ms' : List Member} {items items' : List Item}
    (hitems : ∀ m, items.head? ≠ some (.member owner m))
    (hitems' : ∀ m, items'.head? ≠ some (.member owner m))
    (h : ms.map (.member owner) ++ items = ms'.map (.member owner) ++ items') :
    ms = ms' ∧ items = items' := by
  induction ms generalizing ms' with
  | nil =>
    cases ms' with
    | nil => exact ⟨rfl, h⟩
    | cons m' ms' => exact absurd (congrArg List.head? h) (hitems m')
  | cons m ms ih =>
    cases ms' with
    | nil => exact absurd (congrArg List.head? h.symm) (hitems' m)
    | cons m' ms' =>
      obtain ⟨hm, htail⟩ := List.cons.inj h
      obtain ⟨rfl, hrest⟩ := ih htail
      obtain ⟨-, rfl⟩ := Item.member.inj hm
      exact ⟨rfl, hrest⟩

theorem head?_flatMap_declarationItems_ne (ds : List Declaration) (owner : String) (m : Member) :
    (ds.flatMap declarationItems).head? ≠ some (.member owner m) := by
  cases ds with
  | nil => simp
  | cons d ds => simp [declarationItems]

/-- The declarations with their members are known by their items. -/
theorem flatMap_declarationItems_inj {ds ds' : List Declaration}
    (h : ds.flatMap declarationItems = ds'.flatMap declarationItems) : ds = ds' := by
  induction ds generalizing ds' with
  | nil =>
    cases ds' with
    | nil => rfl
    | cons d' ds' => cases h
  | cons d ds ih =>
    cases ds' with
    | nil => cases h
    | cons d' ds' =>
      rw [List.flatMap_cons, List.flatMap_cons] at h
      obtain ⟨hd, hrest⟩ := List.cons.inj h
      obtain ⟨hname, hcomment⟩ := Item.declaration.inj hd
      rw [← hname] at hrest
      obtain ⟨hmembers, hds⟩ := map_member_append_inj (head?_flatMap_declarationItems_ne ds d.name)
        (head?_flatMap_declarationItems_ne ds' d.name) hrest
      obtain rfl := ih hds
      cases d
      cases d'
      simp_all

/-! ## What the parts of a source say

Here `past` is what stands in front of a place, the nearest part first. -/

/-- The kind of a part, if it is code. -/
def Part.kind? : Part → Option Code
  | .doc _ => none
  | .code text => some (Code.ofLine text)

/-- The name on the nearest namespace line. -/
def spaceIn (past : List Part) : Option String :=
  past.findSome? fun p =>
    match p.kind? with
    | some (.space name) => some name
    | _ => none

/-- The name that a declaration gets. -/
def nameIn (past : List Part) (name : String) : String :=
  match spaceIn past with
  | none => name
  | some space => space ++ "\\" ++ name

/-- The name of the nearest declaration. -/
def ownerIn : List Part → Option String
  | [] => none
  | p :: past =>
    match p.kind? with
    | some (.declaration name) => some (nameIn past name)
    | _ => ownerIn past

/-- The comment that a header gets: the nearest part that is not silent code, if that is a
comment. -/
def commentIn (past : List Part) : String :=
  match past.find? fun p => p.kind? ≠ some .silent with
  | some (.doc text) => String.ofList text
  | _ => ""

/-- The item of a part. -/
def itemIn (past : List Part) (p : Part) : Option Item :=
  match p.kind? with
  | some (.declaration name) => some (.declaration (nameIn past name) (commentIn past))
  | some (.function name) =>
    (ownerIn past).map fun owner => .member owner ⟨name, commentIn past⟩
  | _ => none

/-- The items of some parts, from first to last. -/
def itemsIn : List Part → List Item
  | [] => []
  | p :: past => itemsIn past ++ (itemIn past p).toList

section Code

variable (past : List Part) (text : List Char)

theorem spaceIn_code : spaceIn (.code text :: past) =
    match Code.ofLine text with
    | .space name => some name
    | _ => spaceIn past := by
  rw [spaceIn, List.findSome?_cons, Part.kind?]
  cases Code.ofLine text <;> rfl

theorem ownerIn_code : ownerIn (.code text :: past) =
    match Code.ofLine text with
    | .declaration name => some (nameIn past name)
    | _ => ownerIn past := by
  rw [ownerIn, Part.kind?]
  cases Code.ofLine text <;> rfl

theorem commentIn_code : commentIn (.code text :: past) =
    if Code.ofLine text = .silent then commentIn past else "" := by
  by_cases hsilent : Code.ofLine text = .silent
  · simp [commentIn, Part.kind?, hsilent]
  · simp [commentIn, Part.kind?, hsilent]

theorem itemIn_code : itemIn past (.code text) =
    match Code.ofLine text with
    | .declaration name => some (.declaration (nameIn past name) (commentIn past))
    | .function name => (ownerIn past).map fun owner => .member owner ⟨name, commentIn past⟩
    | _ => none := by
  rw [itemIn, Part.kind?]
  cases Code.ofLine text <;> rfl

variable {past}

theorem itemsIn_cons_of_none {p : Part} (h : itemIn past p = none) :
    itemsIn (p :: past) = itemsIn past := by
  rw [itemsIn, h, Option.toList_none, List.append_nil]

theorem itemsIn_cons_of_some {p : Part} {item : Item} (h : itemIn past p = some item) :
    itemsIn (p :: past) = itemsIn past ++ [item] := by
  rw [itemsIn, h, Option.toList_some]

end Code

namespace Collector

/-- What a collector knows of the parts that it has read. -/
structure Knows (s : Collector) (past : List Part) : Prop where
  /-- The nearest namespace. -/
  space_eq : s.space = spaceIn past
  /-- The comment for the next header. -/
  take_eq : s.comments.take = commentIn past
  /-- The last declaration. -/
  owner_eq : s.found.head?.map Declaration.name = ownerIn past
  /-- The items. -/
  items_eq : s.found.reverse.flatMap declarationItems = itemsIn past

variable {s : Collector} {past : List Part}

theorem Knows.nil : Knows {} [] := ⟨rfl, rfl, rfl, rfl⟩

theorem Knows.qualify_eq (h : s.Knows past) (name : String) :
    s.qualify name = nameIn past name := by
  have hspace := h.space_eq
  cases hname : spaceIn past with
  | none => simp [qualify, nameIn, hspace, hname]
  | some space => simp [qualify, nameIn, hspace, hname]

theorem Knows.doc (h : s.Knows past) (text : List Char) (opened : Option (List Char)) :
    Knows { s with comments := ⟨opened, some text⟩ } (.doc text :: past) where
  space_eq := h.space_eq
  take_eq := rfl
  owner_eq := h.owner_eq
  items_eq := h.items_eq.trans (itemsIn_cons_of_none rfl).symm

/-- Code keeps what a collector knows. -/
theorem Knows.code (h : s.Knows past) (text : List Char) :
    (s.readCode (Code.ofLine text)).Knows (.code text :: past) := by
  have hqualify := h.qualify_eq
  obtain ⟨hspace, htake, howner, hitems⟩ := h
  have hspace' := spaceIn_code past text
  have htake' := commentIn_code past text
  have howner' := ownerIn_code past text
  have hitem := itemIn_code past text
  generalize Code.ofLine text = code at hspace' htake' howner' hitem ⊢
  cases code with
  | silent =>
    exact ⟨hspace.trans hspace'.symm, htake.trans htake'.symm, howner.trans howner'.symm,
      hitems.trans (itemsIn_cons_of_none hitem).symm⟩
  | space name =>
    exact ⟨hspace'.symm, htake'.symm, howner.trans howner'.symm,
      hitems.trans (itemsIn_cons_of_none hitem).symm⟩
  | declaration name =>
    have hname := congrArg some (hqualify name)
    refine ⟨hspace.trans hspace'.symm, htake'.symm, hname.trans howner'.symm, ?_⟩
    rw [itemsIn_cons_of_some hitem, ← hitems, ← hqualify, ← htake]
    simp [readCode, declarationItems]
  | function name =>
    cases hfound : s.found with
    | nil =>
      rw [hfound] at howner hitems
      have hnone : itemIn past (.code text) = none := by
        rw [hitem, ← howner]
        rfl
      simp only [readCode, hfound]
      exact ⟨hspace.trans hspace'.symm, htake'.symm, howner.trans howner'.symm,
        hitems.trans (itemsIn_cons_of_none hnone).symm⟩
    | cons owner found =>
      rw [hfound] at howner hitems
      have hsome : itemIn past (.code text) =
          some (.member owner.name ⟨name, s.comments.take⟩) := by
        rw [hitem, ← howner, htake]
        rfl
      simp only [readCode, hfound]
      refine ⟨hspace.trans hspace'.symm, htake'.symm, howner.trans howner'.symm, ?_⟩
      rw [itemsIn_cons_of_some hsome, ← hitems]
      simp [declarationItems]
  | other =>
    exact ⟨hspace.trans hspace'.symm, htake'.symm, howner.trans howner'.symm,
      hitems.trans (itemsIn_cons_of_none hitem).symm⟩

/-- The comment that is open does not matter. -/
theorem Knows.setOpened (h : s.Knows past) (opened : Option (List Char)) :
    Knows { s with comments := ⟨opened, s.comments.waiting⟩ } past :=
  ⟨h.space_eq, h.take_eq, h.owner_eq, h.items_eq⟩

/-- Of some comments the last one waits. -/
theorem Knows.docs (h : s.Knows past) (docs : List (List Char)) (opened : Option (List Char)) :
    Knows { s with comments := ⟨opened, docs.getLast?.or s.comments.waiting⟩ }
      ((docs.map .doc).reverse ++ past) := by
  induction docs generalizing s past with
  | nil => exact h.setOpened opened
  | cons text docs ih =>
    simpa [List.getLast?_cons] using ih (h.doc text opened)

@[simp] theorem opened_readCode (s : Collector) (code : Code) :
    (s.readCode code).comments.opened = s.comments.opened := by
  cases code with
  | silent => rfl
  | space name => rfl
  | declaration name => rfl
  | function name =>
    rw [readCode]
    split
    · rfl
    · rfl
  | other => rfl

/-- A line keeps what a collector knows. -/
theorem Knows.line (h : s.Knows past) {line : List Char} {cut : Cut}
    (hcut : Splits (Text.trim line) s.comments.opened cut) :
    (s.readLine line).Knows (cut.parts.reverse ++ past) ∧
      (s.readLine line).comments.opened = cut.opened := by
  have hread : s.comments.read (Text.trim line) =
      (⟨cut.opened, cut.docs.getLast?.or s.comments.waiting⟩, cut.code) :=
    Comments.read_eq hcut s.comments.waiting
  have hdocs := h.docs cut.docs cut.opened
  rw [readLine, hread]
  cases hcode : cut.code with
  | none =>
    simpa [Cut.parts, hcode] using hdocs
  | some text =>
    have hnext := hdocs.code text
    simpa [Cut.parts, hcode] using hnext

/-- **What a collector knows behind a source.** -/
theorem Knows.lines (h : s.Knows past) {lines : List (List Char)} {parts : List Part}
    (hreads : Reads s.comments.opened lines parts) :
    (lines.foldl readLine s).Knows (parts.reverse ++ past) := by
  induction lines generalizing s past parts with
  | nil =>
    cases hreads with
    | nil => exact h
  | cons line lines ih =>
    cases hreads with
    | @cons _ _ _ cut parts hcut hlines =>
      obtain ⟨hknows, hopened⟩ := h.line hcut
      rw [← hopened] at hlines
      simpa using ih hknows hlines

end Collector

/-- No comment is found in front of code that is not silent. -/
theorem commentIn_append {p : Part} {code : Code} (hp : p.kind? = some code)
    (hcode : code ≠ .silent) (past past' : List Part) :
    commentIn (past ++ p :: past') = commentIn past := by
  have hkind : p.kind? ≠ some .silent := by
    rw [hp]
    simpa using hcode
  have hfind : (p :: past').find? (fun p => p.kind? ≠ some .silent) = some p :=
    List.find?_cons_of_pos (by simpa using hkind)
  rw [commentIn, commentIn, List.find?_append, hfind]
  cases past.find? fun p => p.kind? ≠ some .silent with
  | some q => rfl
  | none =>
    cases p with
    | doc text => cases hp
    | code text => rfl

/-- The items of a source are those of its parts. -/
theorem items_collect {source : String} {parts : List Part}
    (h : Reads none (Text.lines source.toList) parts) :
    (collect source).flatMap declarationItems = itemsIn parts.reverse := by
  have hknows := Collector.Knows.nil.lines h
  rw [List.append_nil] at hknows
  exact hknows.items_eq

/-- **What is collected.**  A source has one sequence of parts, and the kind of each code in it is
told by the grammar of headers.  What is collected are the declarations whose items are those of
the parts, in source order: one for each header of a declaration, and one for each header of a
function that has a declaration in front of it.  The comment of a header stands behind the header,
or the other code, in front of it, so no comment goes to two headers. -/
theorem collect_items (source : String) :
    ∃ parts, (∀ ps, Reads none (Text.lines source.toList) ps ↔ ps = parts) ∧
      (∀ line code, Code.ofLine line = code ↔ IsKind line code) ∧
      (∀ ds, ds.flatMap declarationItems = itemsIn parts.reverse ↔ ds = collect source) ∧
      ∀ front p middle code, p.kind? = some code → code ≠ .silent →
        commentIn (front ++ p :: middle).reverse = commentIn middle.reverse := by
  obtain ⟨parts, hparts⟩ := exists_reads none (Text.lines source.toList)
  have hitems := items_collect hparts
  refine ⟨parts, fun ps => ⟨fun h => h.unique hparts, fun h => h ▸ hparts⟩,
    fun line code => Code.ofLine_eq_iff, fun ds => ⟨fun h => ?_, fun h => h ▸ hitems⟩,
    fun front p middle code hp hcode => ?_⟩
  · exact flatMap_declarationItems_inj (h.trans hitems.symm)
  · rw [List.reverse_append, List.reverse_cons, List.append_assoc]
    exact commentIn_append hp hcode middle.reverse front.reverse

end DocFacts.Source
