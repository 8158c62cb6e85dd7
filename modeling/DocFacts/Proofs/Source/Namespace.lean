import DocFacts.Proofs.Extraction.Keys
import DocFacts.Proofs.Extraction.Trace
import DocFacts.Proofs.List
import DocFacts.Proofs.Source.Items

/-!
# Namespaces

A namespace line puts the namespace of what follows in force.  It has the name of the namespace, or
no name, and then what follows is global (`GlobalHeader`).  Each header of a declaration has its
short name and the namespace in force in front of it (`headersIn`).

A declaration is named by the nearest line that has a name.  This is the namespace in force unless
a line without a name stands behind it (`forceIn_eq_spaceIn_iff`), which is not read as a namespace
line.  Short names have no separator, so the name tells the namespace and the short name
(`qualified_inj`).  Hence declarations of different namespaces have different names, and what is
remembered of them and what comes out of them is kept apart, as long as the namespace in force has
been read (`collect_names`).
-/

namespace DocFacts.Source

open Text (isBlank)

/-! ## Qualified names -/

/-- A short name in a namespace, or in none. -/
def qualified (space : Option String) (short : String) : String :=
  match space with
  | none => short
  | some space => space ++ "\\" ++ short

theorem nameIn_eq (past : List Part) (short : String) :
    nameIn past short = qualified (spaceIn past) short := by
  rw [nameIn]
  cases spaceIn past with
  | none => rfl
  | some space => rfl

theorem toList_qualified_some (space short : String) :
    (qualified (some space) short).toList = space.toList ++ '\\' :: short.toList := by
  simp [qualified]

/-- The last separator of a name stands in front of the short name. -/
theorem qualified_inj {space space' : Option String} {short short' : String}
    (hshort : '\\' ∉ short.toList) (hshort' : '\\' ∉ short'.toList) :
    qualified space short = qualified space' short' ↔ space = space' ∧ short = short' := by
  constructor
  · intro h
    cases space with
    | none =>
      cases space' with
      | none => exact ⟨rfl, h⟩
      | some name' =>
        have hmem : '\\' ∈ (qualified (some name') short').toList := by
          simp [toList_qualified_some]
        rw [← h] at hmem
        exact absurd hmem hshort
    | some name =>
      cases space' with
      | none =>
        have hmem : '\\' ∈ (qualified (some name) short).toList := by
          simp [toList_qualified_some]
        rw [h] at hmem
        exact absurd hmem hshort'
      | some name' =>
        have hchars := congrArg String.toList h
        rw [toList_qualified_some, toList_qualified_some] at hchars
        obtain ⟨hname, hrest⟩ := List.append_cons_inj_of_not_mem_back hchars hshort hshort'
        rw [String.toList_inj.1 hname, String.toList_inj.1 hrest]
        exact ⟨rfl, rfl⟩
  · intro h
    rw [h.1, h.2]

/-- There is no separator in the short name of a declaration. -/
theorem DeclarationHeader.separator_not_mem {line : List Char} {short : String}
    (h : DeclarationHeader line short) : '\\' ∉ short.toList := by
  obtain ⟨inside, behind, -, c, more, rfl, hc, hmore, -⟩ := h
  rw [String.toList_ofList, List.mem_cons, not_or]
  refine ⟨?_, fun hmem => absurd (hmore _ hmem) (by decide)⟩
  intro hseparator
  rw [← hseparator] at hc
  exact absurd hc (by decide)

/-! ## The namespace in force -/

/-- A line goes back to the global namespace: the word, no name, and an opening brace. -/
def GlobalHeader (line : List Char) : Prop :=
  ∃ blanks behind, (∀ c ∈ blanks, isBlank c = true) ∧
    line = "namespace".toList ++ (blanks ++ '{' :: behind)

theorem globalHeader_iff {line : List Char} : GlobalHeader line ↔
    ((Text.after? "namespace".toList line).bind fun rest => (Text.dropBlank rest).head?) =
      some '{' := by
  constructor
  · intro h
    obtain ⟨blanks, behind, hblanks, hline⟩ := h
    rw [Text.after?_eq_some_iff.2 hline, Option.bind_some, Text.dropBlank_append hblanks,
      Text.dropBlank_cons_of_not (by decide)]
    rfl
  · intro h
    obtain ⟨rest, hafter, hhead⟩ := Option.bind_eq_some_iff.1 h
    obtain ⟨blanks, hblanks, hrest⟩ := Text.exists_append_dropBlank rest
    obtain ⟨behind, hbehind⟩ := List.head?_eq_some_iff.1 hhead
    rw [hbehind] at hrest
    exact ⟨blanks, behind, hblanks, by rw [hrest]; exact Text.after?_eq_some_iff.1 hafter⟩

instance (line : List Char) : Decidable (GlobalHeader line) :=
  decidable_of_iff _ globalHeader_iff.symm

/-- A namespace line has a name or has none. -/
theorem SpaceHeader.not_global {line : List Char} {name : String} (h : SpaceHeader line name) :
    ¬ GlobalHeader line := by
  obtain ⟨inside, _, _, _, hheads, hname, -⟩ := h
  obtain ⟨bare, hbare, word, hword, hfront⟩ := hheads
  obtain ⟨c, more, -, hc, -, -, rfl⟩ := hname
  intro hglobal
  obtain ⟨blanks, behind, hblanks, hline⟩ := hglobal
  cases hbare with
  | here =>
    obtain rfl := List.mem_singleton.1 hword
    obtain ⟨blanks', -, hblanks', hinside, hline'⟩ := hfront
    have hrest := congrArg Text.dropBlank (List.append_cancel_left (hline'.symm.trans hline))
    rw [Text.dropBlank_append hblanks', Text.dropBlank_eq hinside, Text.dropBlank_append hblanks,
      Text.dropBlank_cons_of_not (by decide)] at hrest
    rw [(List.cons.inj hrest).1] at hc
    exact absurd hc (by decide)
  | skip hmem _ _ => cases hmem

namespace Part

/-- The name on a namespace line. -/
def space? (p : Part) : Option String :=
  match p.kind? with
  | some (.space name) => some name
  | _ => none

/-- The part is a namespace line without a name. -/
def IsGlobal (p : Part) : Prop := ∃ line, p = .code line ∧ GlobalHeader line

instance (p : Part) : Decidable p.IsGlobal :=
  match p with
  | .doc text => .isFalse fun h => by
    obtain ⟨line, hline, -⟩ := h
    cases hline
  | .code text => decidable_of_iff (GlobalHeader text)
    ⟨fun h => ⟨text, rfl, h⟩, fun ⟨_, hline, h⟩ => by cases hline; exact h⟩

/-- A line without a name is no line with a name. -/
theorem IsGlobal.space?_eq {p : Part} (h : p.IsGlobal) : p.space? = none := by
  obtain ⟨line, rfl, hline⟩ := h
  rw [space?, kind?]
  cases hcode : Code.ofLine line with
  | space name =>
    cases Code.ofLine_eq_iff.1 hcode with
    | space h => exact absurd hline h.not_global
  | silent | declaration _ | function _ | other => rfl

/-- What a part puts in force: a namespace, or `none` for what is global. -/
def force? (p : Part) : Option (Option String) :=
  match p.space? with
  | some name => some (some name)
  | none => if p.IsGlobal then some none else none

end Part

/-- The namespace in force: that of the nearest namespace line, with or without a name. -/
def forceIn (past : List Part) : Option String := (past.findSome? Part.force?).join

theorem spaceIn_eq (past : List Part) : spaceIn past = past.findSome? Part.space? := rfl

theorem forceIn_cons_of_space {p : Part} {name : String} (h : p.space? = some name)
    (past : List Part) : forceIn (p :: past) = spaceIn (p :: past) := by
  rw [forceIn, spaceIn_eq, List.findSome?_cons, List.findSome?_cons, Part.force?, h]
  rfl

theorem forceIn_cons_of_global {p : Part} (h : p.IsGlobal) (past : List Part) :
    forceIn (p :: past) = none := by
  rw [forceIn, List.findSome?_cons, Part.force?, h.space?_eq]
  simp only [if_pos h, Option.join_some]

theorem forceIn_cons_of_not {p : Part} (hspace : p.space? = none) (hglobal : ¬ p.IsGlobal)
    (past : List Part) : forceIn (p :: past) = forceIn past := by
  rw [forceIn, forceIn, List.findSome?_cons, Part.force?, hspace]
  simp only [if_neg hglobal]

theorem spaceIn_cons_of_none {p : Part} (h : p.space? = none) (past : List Part) :
    spaceIn (p :: past) = spaceIn past := by
  rw [spaceIn_eq, spaceIn_eq, List.findSome?_cons, h]

/-- A namespace has been left unnoticed: behind the nearest line with a name there is one without
a name. -/
inductive Unnoticed : List Part → Prop where
  /-- A line without a name leaves the namespace. -/
  | left {p : Part} {past : List Part} (h : p.IsGlobal) (hspace : spaceIn past ≠ none) :
    Unnoticed (p :: past)
  /-- No line with a name follows. -/
  | stays {p : Part} {past : List Part} (hnone : p.space? = none) (h : Unnoticed past) :
    Unnoticed (p :: past)

/-- What has been left unnoticed is still the nearest line with a name, and not in force. -/
theorem Unnoticed.forceIn_eq {past : List Part} (h : Unnoticed past) :
    forceIn past = none ∧ spaceIn past ≠ none := by
  induction h with
  | left h hspace =>
    rw [spaceIn_cons_of_none h.space?_eq]
    exact ⟨forceIn_cons_of_global h _, hspace⟩
  | @stays p past hnone h ih =>
    rw [spaceIn_cons_of_none hnone]
    refine ⟨?_, ih.2⟩
    by_cases hglobal : p.IsGlobal
    · exact forceIn_cons_of_global hglobal past
    · exact (forceIn_cons_of_not hnone hglobal past).trans ih.1

/-- **When the namespace in force has been read.**  The nearest line with a name gives it, unless a
line without a name stands behind that. -/
theorem forceIn_eq_spaceIn_iff (past : List Part) :
    forceIn past = spaceIn past ↔ ¬ Unnoticed past := by
  constructor
  · intro heq h
    obtain ⟨hforce, hspace⟩ := h.forceIn_eq
    exact hspace (heq.symm.trans hforce)
  · intro h
    induction past with
    | nil => rfl
    | cons p past ih =>
      cases hspace : p.space? with
      | some name => exact forceIn_cons_of_space hspace past
      | none =>
        have hpast := ih fun hpast => h (.stays hspace hpast)
        rw [spaceIn_cons_of_none hspace]
        by_cases hglobal : p.IsGlobal
        · rw [forceIn_cons_of_global hglobal]
          by_contra hne
          exact h (.left hglobal (Ne.symm hne))
        · rw [forceIn_cons_of_not hspace hglobal, hpast]

/-! ## Headers -/

/-- A header of a declaration. -/
structure Header where
  /-- The short name. -/
  short : String
  /-- The parts in front of it, the nearest first. -/
  past : List Part

namespace Header

/-- The name of the declaration. -/
def name (h : Header) : String := nameIn h.past h.short

/-- The namespace in force. -/
def force (h : Header) : Option String := forceIn h.past

/-- The headers stand in different namespaces, or have different short names. -/
def Differs (a b : Header) : Prop := a.force ≠ b.force ∨ a.short ≠ b.short

/-- The declaration is named for the namespace in force, if that has been read. -/
theorem name_eq_iff (h : Header) (hshort : '\\' ∉ h.short.toList) :
    h.name = qualified h.force h.short ↔ ¬ Unnoticed h.past := by
  rw [name, force, nameIn_eq, qualified_inj hshort hshort, ← forceIn_eq_spaceIn_iff]
  exact ⟨fun heq => heq.1.symm, fun heq => ⟨heq.symm, rfl⟩⟩

end Header

/-- The short name in the header of a declaration. -/
def Part.short? (p : Part) : Option String :=
  match p.kind? with
  | some (.declaration short) => some short
  | _ => none

theorem Part.short?_eq_some_iff {p : Part} {short : String} :
    p.short? = some short ↔ ∃ line, p = .code line ∧ DeclarationHeader line short := by
  cases p with
  | doc text => simp [short?, kind?]
  | code text =>
    rw [short?, kind?]
    constructor
    · intro h
      cases hcode : Code.ofLine text with
      | declaration name =>
        rw [hcode] at h
        cases h
        cases Code.ofLine_eq_iff.1 hcode with
        | declaration h => exact ⟨text, rfl, h⟩
      | silent | space _ | function _ | other =>
        rw [hcode] at h
        cases h
    · intro h
      obtain ⟨line, hline, h⟩ := h
      cases hline
      rw [(IsKind.declaration h).ofLine_eq]

/-- The headers among some parts, from first to last. -/
def headersIn : List Part → List Header
  | [] => []
  | p :: past => headersIn past ++ (p.short?.map fun short => ⟨short, past⟩).toList

/-- The headers are the code that starts with one. -/
theorem exists_of_mem_headersIn {past : List Part} {h : Header} (hmem : h ∈ headersIn past) :
    ∃ front line, past = front ++ .code line :: h.past ∧ DeclarationHeader line h.short := by
  induction past with
  | nil => cases hmem
  | cons p past ih =>
    rcases List.mem_append.1 hmem with hpast | hp
    · obtain ⟨front, line, hfront, hline⟩ := ih hpast
      exact ⟨p :: front, line, by rw [hfront, List.cons_append], hline⟩
    · obtain ⟨short, hshort, hh⟩ := Option.map_eq_some_iff.1 (Option.mem_toList.1 hp)
      obtain ⟨line, hline, hheader⟩ := Part.short?_eq_some_iff.1 hshort
      subst hh
      exact ⟨[], line, by rw [hline, List.nil_append], hheader⟩

theorem separator_not_mem_of_mem_headersIn {past : List Part} {h : Header}
    (hmem : h ∈ headersIn past) : '\\' ∉ h.short.toList := by
  obtain ⟨front, line, -, hline⟩ := exists_of_mem_headersIn hmem
  exact hline.separator_not_mem

/-- The name of a declaration. -/
def Item.declared? : Item → Option String
  | .declaration name _ => some name
  | .member _ _ => none

theorem filterMap_declared?_flatMap (ds : List Declaration) :
    (ds.flatMap declarationItems).filterMap Item.declared? = ds.map Declaration.name := by
  induction ds with
  | nil => rfl
  | cons d ds ih =>
    have hmembers : (d.members.map (Item.member d.name)).filterMap Item.declared? = [] := by
      rw [List.filterMap_map]
      exact List.filterMap_eq_nil_iff.2 fun m _ => rfl
    rw [List.flatMap_cons, List.filterMap_append, ih, declarationItems]
    simp [Item.declared?, hmembers]

/-- The item of a header, and no other one, is a declaration. -/
theorem bind_declared?_itemIn (past : List Part) (p : Part) :
    (itemIn past p).bind Item.declared? = p.short?.map (nameIn past) := by
  rw [itemIn, Part.short?]
  cases p.kind? with
  | none => rfl
  | some code =>
    cases code with
    | function name => cases ownerIn past <;> rfl
    | silent | space _ | declaration _ | other => rfl

theorem filterMap_declared?_itemsIn (past : List Part) :
    (itemsIn past).filterMap Item.declared? = (headersIn past).map Header.name := by
  induction past with
  | nil => rfl
  | cons p past ih =>
    have hitem : (itemIn past p).toList.filterMap Item.declared? =
        ((itemIn past p).bind Item.declared?).toList := by
      cases itemIn past p with
      | none => rfl
      | some item =>
        rw [Option.toList_some, Option.bind_some, List.filterMap_cons]
        cases item.declared? with
        | none => rfl
        | some name => rfl
    rw [itemsIn, headersIn, List.filterMap_append, ih, hitem, bind_declared?_itemIn,
      List.map_append]
    cases p.short? with
    | none => rfl
    | some short => rfl

/-- The declarations of a source are named by its headers. -/
theorem map_name_collect {source : String} {parts : List Part}
    (h : Reads none (Text.lines source.toList) parts) :
    (collect source).map Declaration.name = (headersIn parts.reverse).map Header.name := by
  rw [← filterMap_declared?_flatMap, items_collect h, filterMap_declared?_itemsIn]

/-! ## What is kept apart -/

/-- Requests for declarations of different names are remembered under different keys. -/
theorem disjoint_keys {r r' : Request} (h : r.owner.name ≠ r'.owner.name) :
    r.keys.Disjoint r'.keys := by
  have howner {r : Request} {key : Key} (hkey : key ∈ r.keys) : key.1 = r.owner.name := by
    rcases List.mem_cons.1 hkey with hkey | hkey
    · rw [hkey]
      cases r with
      | declaration d => rfl
      | member d m => rfl
    · rw [List.mem_singleton.1 hkey]
  intro key hkey hkey'
  exact h ((howner hkey).symm.trans (howner hkey'))

/-- The headers of a source. -/
def HeadersOf (source : String) (hs : List Header) : Prop :=
  ∃ parts, Reads none (Text.lines source.toList) parts ∧ hs = headersIn parts.reverse

/-- Headers in different namespaces and headers with different short names have different names, if
their namespaces have been read. -/
theorem Header.Differs.name_ne {a b : Header} (h : a.Differs b) (hshort : '\\' ∉ a.short.toList)
    (hshort' : '\\' ∉ b.short.toList) (ha : ¬ Unnoticed a.past) (hb : ¬ Unnoticed b.past) :
    a.name ≠ b.name := by
  rw [(a.name_eq_iff hshort).2 ha, (b.name_eq_iff hshort').2 hb, ne_eq,
    qualified_inj hshort hshort', not_and_or]
  exact h

/-- **Declarations of different namespaces are kept apart.**  A source has one sequence of headers,
and for each of them there is a declaration.  It is named by the namespace in force and its short
name exactly if that namespace has not been left unnoticed.  Then declarations in different
namespaces and declarations with different short names have different names, what is remembered of
them is under different keys, and with a result each has a row of its own in it. -/
theorem collect_names (source : String) :
    ∃ hs, (∀ hs', HeadersOf source hs' ↔ hs' = hs) ∧
      (collect source).map Declaration.name = hs.map Header.name ∧
      (∀ h ∈ hs, h.name = qualified h.force h.short ↔ ¬ Unnoticed h.past) ∧
      (∀ a ∈ hs, ∀ b ∈ hs, a.Differs b → ¬ Unnoticed a.past → ¬ Unnoticed b.past →
        a.name ≠ b.name ∧
          ∀ r r' : Request, r.owner.name = a.name → r'.owner.name = b.name →
            r.keys.Disjoint r'.keys) ∧
      ((∀ h ∈ hs, ¬ Unnoticed h.past) → hs.Pairwise Header.Differs →
        ∀ {σ ε : Type} (x : Extractor σ ε) (s : Extractor.State σ) (all : Table String Extraction),
          (x.extractAll (collect source) s).1 = .ok all →
            all.keys = hs.map fun h => qualified h.force h.short) := by
  obtain ⟨parts, hparts⟩ := exists_reads none (Text.lines source.toList)
  have hshort {h : Header} (hmem : h ∈ headersIn parts.reverse) : '\\' ∉ h.short.toList :=
    separator_not_mem_of_mem_headersIn hmem
  have hnames := map_name_collect hparts
  refine ⟨headersIn parts.reverse, fun hs' => ⟨?_, ?_⟩, hnames, ?_, ?_, ?_⟩
  · intro h
    obtain ⟨parts', hparts', hhs'⟩ := h
    rw [hhs', hparts'.unique hparts]
  · intro h
    exact ⟨parts, hparts, h⟩
  · intro h hmem
    exact h.name_eq_iff (hshort hmem)
  · intro a ha b hb hdiffers haread hbread
    have hne := hdiffers.name_ne (hshort ha) (hshort hb) haread hbread
    refine ⟨hne, fun r r' hr hr' => disjoint_keys ?_⟩
    rw [hr, hr']
    exact hne
  · intro hread hpairwise σ ε x s all hall
    have hname : ∀ h ∈ headersIn parts.reverse, h.name = qualified h.force h.short :=
      fun h hmem => (h.name_eq_iff (hshort hmem)).2 (hread h hmem)
    have hdistinct : ((headersIn parts.reverse).map Header.name).Nodup := by
      refine List.pairwise_map.2 (hpairwise.imp_of_mem fun ha hb hdiffers => ?_)
      exact hdiffers.name_ne (hshort ha) (hshort hb) (hread _ ha) (hread _ hb)
    rw [← hnames] at hdistinct
    rw [Extractor.keys_tabulate hall hdistinct, hnames]
    exact List.map_congr_left hname

/-- A class in a namespace, and a global one of the same short name behind it. -/
def sampleSource : String :=
  "\n".intercalate [r"namespace A {", "class U {}", r"}", r"namespace {", "class U {}", r"}", ""]

/-- A line without a name is not read as a namespace line.  So a global declaration behind it gets
the name of the one that stands in the namespace. -/
theorem collect_sampleSource :
    (∃ hs, HeadersOf sampleSource hs ∧
      hs.map (fun h => (h.force, h.short)) = [(some "A", "U"), (none, "U")]) ∧
      collect sampleSource = [⟨"A\\U", "", []⟩, ⟨"A\\U", "", []⟩] := by
  have hreads := @reads_code (Text.lines sampleSource.toList) (by decide +kernel)
  exact ⟨⟨_, ⟨_, hreads, rfl⟩, by decide +kernel⟩, by decide +kernel⟩

end DocFacts.Source
