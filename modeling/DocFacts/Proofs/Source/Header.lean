import DocFacts.Proofs.Text.Blank
import DocFacts.Source.Header

/-!
# The grammar of header lines

What heads a line is told here without its readers: words with blank characters behind them
(`FrontWord`), any number of modifiers (`Behind`) and the longest name (`FrontName`).  The readers
find exactly that.  The words of different headers differ, so no line is of two kinds
(`Heads.not_heads`), and the kind of a line does not depend on the order in which the kinds are
tried (`Code.ofLine_eq_iff`).
-/

namespace DocFacts.Source

open Text (isBlank)

variable {text rest : List Char}

/-! ## Words -/

/-- A word stands at the front of a text, then blank characters, then the rest. -/
def FrontWord (word text rest : List Char) : Prop :=
  ∃ blanks, blanks ≠ [] ∧ (∀ c ∈ blanks, isBlank c = true) ∧
    (∀ c ∈ rest.head?, isBlank c = false) ∧ text = word ++ (blanks ++ rest)

/-- No character of a word is blank, and there is one. -/
def IsWord (word : String) : Prop := word.toList ≠ [] ∧ ∀ c ∈ word.toList, isBlank c = false

instance (word : String) : Decidable (IsWord word) :=
  decidable_of_iff (word.toList ≠ [] ∧ word.toList.all (fun c => !isBlank c) = true)
    (by simp [IsWord])

theorem behindWord?_eq_some_iff {word : String} :
    behindWord? word text = some rest ↔ FrontWord word.toList text rest := by
  rw [behindWord?]
  constructor
  · intro h
    split at h
    · rename_i c behind hafter
      split at h
      · rename_i hc
        obtain ⟨blanks, hblanks, hbehind⟩ := Text.exists_append_dropBlank behind
        obtain rfl := Option.some.inj h
        refine ⟨c :: blanks, by simp, List.forall_mem_cons.2 ⟨hc, hblanks⟩, fun d hd => ?_, ?_⟩
        · obtain ⟨tail, htail⟩ := List.head?_eq_some_iff.1 hd
          exact Text.isBlank_of_dropBlank_eq_cons htail
        · rw [Text.after?_eq_some_iff.1 hafter, List.cons_append, hbehind]
      · cases h
    · cases h
  · rintro ⟨blanks, hne, hblanks, hrest, rfl⟩
    cases blanks with
    | nil => exact absurd rfl hne
    | cons c blanks =>
      obtain ⟨hc, hblanks⟩ := List.forall_mem_cons.1 hblanks
      simp only [Text.after?_eq_some_iff.2 rfl, List.cons_append, if_pos hc]
      rw [Text.dropBlank_append hblanks, Text.dropBlank_eq hrest]

namespace FrontWord

variable {word word' : String} {rest' : List Char}

/-- A word is what stands in front of the first blank character. -/
theorem takeWhile_eq (h : FrontWord word.toList text rest) (hword : IsWord word) :
    text.takeWhile (fun c => !isBlank c) = word.toList ∧
      Text.dropBlank (text.dropWhile fun c => !isBlank c) = rest := by
  obtain ⟨blanks, hne, hblanks, hrest, rfl⟩ := h
  have hw : ∀ c ∈ word.toList, (!isBlank c) = true := by
    intro c hc
    rw [hword.2 c hc]
    rfl
  rw [List.takeWhile_append_of_pos hw, List.dropWhile_append_of_pos hw]
  cases blanks with
  | nil => exact absurd rfl hne
  | cons c blanks =>
    obtain ⟨hc, -⟩ := List.forall_mem_cons.1 hblanks
    constructor
    · simp [hc]
    · rw [List.cons_append, List.dropWhile_cons, hc]
      simp only [Bool.not_true, Bool.false_eq_true, if_false]
      rw [← List.cons_append, Text.dropBlank_append hblanks, Text.dropBlank_eq hrest]

/-- One word at most stands at the front of a text. -/
theorem unique (h : FrontWord word.toList text rest) (h' : FrontWord word'.toList text rest')
    (hword : IsWord word) (hword' : IsWord word') : word = word' ∧ rest = rest' := by
  obtain ⟨hw, hr⟩ := h.takeWhile_eq hword
  obtain ⟨hw', hr'⟩ := h'.takeWhile_eq hword'
  exact ⟨String.toList_inj.1 (hw.symm.trans hw'), hr.symm.trans hr'⟩

theorem head?_eq (h : FrontWord word.toList text rest) (hword : IsWord word) :
    text.head? = word.toList.head? := by
  obtain ⟨blanks, -, -, -, rfl⟩ := h
  obtain ⟨c, tail, hc⟩ := List.exists_cons_of_ne_nil hword.1
  rw [hc, List.cons_append, List.head?_cons, List.head?_cons]

end FrontWord

theorem behindAnyWord?_eq_some_iff {words : List String} (hwords : ∀ word ∈ words, IsWord word) :
    behindAnyWord? words text = some rest ↔
      ∃ word ∈ words, FrontWord word.toList text rest := by
  constructor
  · intro h
    obtain ⟨word, hword, hbehind⟩ := List.exists_of_findSome?_eq_some h
    exact ⟨word, hword, behindWord?_eq_some_iff.1 hbehind⟩
  · rintro ⟨word, hword, hfront⟩
    have hsome : (behindAnyWord? words text).isSome = true := by
      rw [behindAnyWord?, List.findSome?_isSome_iff]
      exact ⟨word, hword, by rw [behindWord?_eq_some_iff.2 hfront]; rfl⟩
    obtain ⟨rest', hrest'⟩ := Option.isSome_iff_exists.1 hsome
    obtain ⟨word', hword', hbehind⟩ := List.exists_of_findSome?_eq_some hrest'
    have hfront' := behindWord?_eq_some_iff.1 hbehind
    rw [hrest', (hfront.unique hfront' (hwords word hword) (hwords word' hword')).2]

/-! ## Modifiers -/

/-- Any number of words stand at the front of a text, and the rest behind them. -/
inductive Behind (words : List String) : List Char → List Char → Prop where
  /-- No word, or no more. -/
  | here {text : List Char} : Behind words text text
  /-- A word and what stands behind it. -/
  | skip {text rest rest' : List Char} {word : String} (hword : word ∈ words)
    (h : FrontWord word.toList text rest) (hrest : Behind words rest rest') :
    Behind words text rest'

namespace Behind

variable {words : List String} {line : List Char} {word : String}

theorem of_skipModifiers (hwords : ∀ word ∈ words, IsWord word) (text : List Char) :
    Behind words text (skipModifiers words text) := by
  fun_induction skipModifiers words text with
  | case1 text rest hrest ih =>
    obtain ⟨word, hword, hfront⟩ := (behindAnyWord?_eq_some_iff hwords).1 hrest
    exact .skip hword hfront ih
  | case2 text hnone => exact .here

/-- Skipping modifiers ends at a word that is none. -/
theorem skipModifiers_eq (h : Behind words text line) (hline : FrontWord word.toList line rest)
    (hwords : ∀ word ∈ words, IsWord word) (hword : IsWord word) (hmem : word ∉ words) :
    skipModifiers words text = line := by
  induction h with
  | @here text =>
    rw [skipModifiers]
    split
    · rename_i behind hbehind
      obtain ⟨word', hword', hfront⟩ := (behindAnyWord?_eq_some_iff hwords).1 hbehind
      obtain ⟨rfl, -⟩ := hline.unique hfront hword (hwords word' hword')
      exact absurd hword' hmem
    · rfl
  | @skip text behind line word' hword' hfront hbehind ih =>
    have hskip := (behindAnyWord?_eq_some_iff hwords).2 ⟨word', hword', hfront⟩
    rw [skipModifiers]
    split
    · rename_i behind' hbehind'
      rw [hskip] at hbehind'
      cases hbehind'
      exact ih hline
    · rename_i hnone
      rw [hskip] at hnone
      cases hnone

end Behind

/-- A word from a list stands behind modifiers at the front of a line, and the rest behind it. -/
def Heads (modifiers words : List String) (line rest : List Char) : Prop :=
  ∃ bare, Behind modifiers line bare ∧ ∃ word ∈ words, FrontWord word.toList bare rest

section Heads

variable {modifiers modifiers' words words' : List String} {line rest' : List Char}

theorem behindAnyWord?_skipModifiers_eq_some_iff
    (hwords : ∀ word ∈ words ++ modifiers, IsWord word) (hmem : ∀ word ∈ words, word ∉ modifiers) :
    behindAnyWord? words (skipModifiers modifiers line) = some rest ↔
      Heads modifiers words line rest := by
  obtain ⟨hwords, hmodifiers⟩ := List.forall_mem_append.1 hwords
  rw [behindAnyWord?_eq_some_iff hwords]
  constructor
  · exact fun h => ⟨_, Behind.of_skipModifiers hmodifiers line, h⟩
  · rintro ⟨bare, hbehind, word, hword, hfront⟩
    rw [hbehind.skipModifiers_eq hfront hmodifiers (hwords word hword) (hmem word hword)]
    exact ⟨word, hword, hfront⟩

namespace Heads

/-- The words at the front of a line tell the kinds of headers apart. -/
theorem not_heads (h : Heads modifiers words line rest)
    (hwords : ∀ word ∈ words ++ modifiers, IsWord word)
    (hwords' : ∀ word ∈ words' ++ modifiers', IsWord word)
    (hmem : ∀ word ∈ words, word ∉ words' ++ modifiers')
    (hmem' : ∀ word ∈ words', word ∉ words ++ modifiers) :
    ¬ Heads modifiers' words' line rest' := by
  obtain ⟨bare, hbehind, word, hword, hfront⟩ := h
  rintro ⟨bare', hbehind', word', hword', hfront'⟩
  have hisWord := hwords word (List.mem_append_left _ hword)
  have hisWord' := hwords' word' (List.mem_append_left _ hword')
  -- While both lines go on with a modifier it is the same one.
  induction hbehind with
  | here =>
    cases hbehind' with
    | here =>
      obtain ⟨rfl, -⟩ := hfront.unique hfront' hisWord hisWord'
      exact hmem word hword (List.mem_append_left _ hword')
    | @skip _ _ _ v hv hskip _ =>
      have hv' : v ∈ words' ++ modifiers' := List.mem_append_right _ hv
      obtain ⟨rfl, -⟩ := hfront.unique hskip hisWord (hwords' v hv')
      exact hmem word hword hv'
  | @skip _ _ _ v hv hskip _ ih =>
    have hv' : v ∈ words ++ modifiers := List.mem_append_right _ hv
    cases hbehind' with
    | here =>
      obtain ⟨rfl, -⟩ := hfront'.unique hskip hisWord' (hwords v hv')
      exact hmem' word' hword' hv'
    | @skip _ _ _ u hu hskip' hbehind' =>
      have hu' : u ∈ words' ++ modifiers' := List.mem_append_right _ hu
      obtain ⟨-, rfl⟩ := hskip.unique hskip' (hwords v hv') (hwords' u hu')
      exact ih hfront hbehind'

/-- A line starts with one of its words. -/
theorem exists_head? (h : Heads modifiers words line rest)
    (hwords : ∀ word ∈ words ++ modifiers, IsWord word) :
    ∃ word ∈ words ++ modifiers, line.head? = word.toList.head? := by
  obtain ⟨bare, hbehind, word, hword, hfront⟩ := h
  cases hbehind with
  | here =>
    have hmem := List.mem_append_left modifiers hword
    exact ⟨word, hmem, hfront.head?_eq (hwords word hmem)⟩
  | @skip _ _ _ v hv hskip _ =>
    have hmem := List.mem_append_right words hv
    exact ⟨v, hmem, hskip.head?_eq (hwords v hmem)⟩

/-- A line with a word is not silent. -/
theorem not_silent (h : Heads modifiers words line rest)
    (hwords : ∀ word ∈ words ++ modifiers, IsWord word)
    (hhead : ∀ word ∈ words ++ modifiers, word.toList.head? ≠ some '#') :
    ¬ (line = [] ∨ startsAttribute line = true) := by
  obtain ⟨word, hword, hline⟩ := h.exists_head? hwords
  rintro (rfl | hattribute)
  · exact (hwords word hword).1 (List.head?_eq_none_iff.1 hline.symm)
  · obtain ⟨behind, hbehind⟩ := Option.isSome_iff_exists.1 hattribute
    rw [Text.after?_eq_some_iff] at hbehind
    rw [hbehind] at hline
    exact hhead word hword hline.symm

end Heads

end Heads

/-! ## Names -/

/-- A name stands at the front of a text, as long as it can be, and then the rest. -/
def FrontName (isRest : Char → Bool) (name : String) (text rest : List Char) : Prop :=
  ∃ c more, name = String.ofList (c :: more) ∧ isNameStart c = true ∧
    (∀ d ∈ more, isRest d = true) ∧ (∀ d ∈ rest.head?, isRest d = false) ∧
    text = c :: (more ++ rest)

theorem readName?_eq_some_iff {isRest : Char → Bool} {name : String} :
    readName? isRest text = some (name, rest) ↔ FrontName isRest name text rest := by
  constructor
  · intro h
    cases text with
    | nil => cases h
    | cons c text =>
      rw [readName?] at h
      split at h
      · rename_i hc
        obtain ⟨rfl, rfl⟩ := Prod.mk.inj (Option.some.inj h)
        refine ⟨c, text.takeWhile isRest, rfl, hc, List.all_eq_true.1 List.all_takeWhile,
          fun d hd => ?_, by rw [List.takeWhile_append_dropWhile]⟩
        simpa [Option.mem_def.1 hd] using List.head?_dropWhile_not isRest text
      · cases h
  · rintro ⟨c, more, rfl, hc, hmore, hrest, rfl⟩
    have htake : rest.takeWhile isRest = [] ∧ rest.dropWhile isRest = rest := by
      cases rest with
      | nil => exact ⟨rfl, rfl⟩
      | cons d rest => simp [hrest d rfl]
    rw [readName?, if_pos hc, List.takeWhile_append_of_pos hmore,
      List.dropWhile_append_of_pos hmore, htake.1, htake.2, List.append_nil]

/-! ## Headers -/

/-- The modifiers of declarations. -/
def declarationModifiers : List String := ["abstract", "final", "readonly"]

/-- The words that head declarations. -/
def declarationWords : List String := ["class", "interface", "trait"]

/-- The modifiers of functions. -/
def functionModifiers : List String :=
  ["public", "protected", "private", "static", "abstract", "final"]

/-- The words that head functions. -/
def functionWords : List String := ["function"]

/-- The words that head namespaces. -/
def spaceWords : List String := ["namespace"]

/-- A line names a namespace: a word, the name, and a semicolon or an opening brace. -/
def SpaceHeader (line : List Char) (name : String) : Prop :=
  ∃ inside blanks mark behind, Heads [] spaceWords line inside ∧
    FrontName isPathRest name inside (blanks ++ mark :: behind) ∧
    (∀ c ∈ blanks, isBlank c = true) ∧ (mark = ';' ∨ mark = '{')

/-- A line starts with the header of a declaration: modifiers, a word and the name. -/
def DeclarationHeader (line : List Char) (name : String) : Prop :=
  ∃ inside behind, Heads declarationModifiers declarationWords line inside ∧
    FrontName isNameRest name inside behind

/-- A line starts with the header of a function: modifiers, a word and the name, which may have an
ampersand in front. -/
def FunctionHeader (line : List Char) (name : String) : Prop :=
  ∃ inside behind, Heads functionModifiers functionWords line inside ∧
    (FrontName isNameRest name inside behind ∨
      ∃ inside', inside = '&' :: inside' ∧ FrontName isNameRest name inside' behind)

theorem isWord_space : ∀ word ∈ spaceWords ++ [], IsWord word := by decide

theorem isWord_declaration :
    ∀ word ∈ declarationWords ++ declarationModifiers, IsWord word := by decide

theorem isWord_function : ∀ word ∈ functionWords ++ functionModifiers, IsWord word := by
  decide

variable {line : List Char} {name : String}

theorem behindAnyWord?_singleton (word : String) (text : List Char) :
    behindAnyWord? [word] text = behindWord? word text := by
  rw [behindAnyWord?, List.findSome?_singleton]

theorem skipModifiers_nil (text : List Char) : skipModifiers [] text = text := by
  rw [skipModifiers]
  rfl

theorem spaceName?_eq_some_iff : spaceName? line = some name ↔ SpaceHeader line name := by
  have hheads {inside : List Char} :
      behindWord? "namespace" line = some inside ↔ Heads [] spaceWords line inside := by
    rw [← behindAnyWord?_skipModifiers_eq_some_iff isWord_space (by decide), skipModifiers_nil,
      spaceWords, behindAnyWord?_singleton]
  rw [spaceName?]
  constructor
  · intro h
    split at h
    · rename_i found behind hread
      obtain ⟨inside, hword, hname⟩ := Option.bind_eq_some_iff.1 hread
      obtain ⟨blanks, hblanks, hbehind⟩ := Text.exists_append_dropBlank behind
      rw [← hbehind, readName?_eq_some_iff] at hname
      split at h
      · rename_i rest hmark
        rw [hmark] at hname
        cases h
        exact ⟨inside, blanks, ';', rest, hheads.1 hword, hname, hblanks, .inl rfl⟩
      · rename_i rest hmark
        rw [hmark] at hname
        cases h
        exact ⟨inside, blanks, '{', rest, hheads.1 hword, hname, hblanks, .inr rfl⟩
      · cases h
    · cases h
  · rintro ⟨inside, blanks, mark, behind, hword, hname, hblanks, hmark⟩
    have hread : (behindWord? "namespace" line).bind (readName? isPathRest) =
        some (name, blanks ++ mark :: behind) := by
      rw [hheads.2 hword, Option.bind_some, readName?_eq_some_iff.2 hname]
    rw [hread]
    simp only [Text.dropBlank_append hblanks]
    rcases hmark with rfl | rfl
    · rw [Text.dropBlank_cons_of_not (by decide)]
      rfl
    · rw [Text.dropBlank_cons_of_not (by decide)]
      rfl

theorem declarationName?_eq_some_iff :
    declarationName? line = some name ↔ DeclarationHeader line name := by
  have hheads {inside : List Char} :
      behindAnyWord? declarationWords (skipModifiers declarationModifiers line) = some inside ↔
        Heads declarationModifiers declarationWords line inside :=
    behindAnyWord?_skipModifiers_eq_some_iff isWord_declaration (by decide)
  rw [declarationName?, Option.map_eq_some_iff]
  constructor
  · rintro ⟨⟨found, behind⟩, hread, rfl⟩
    obtain ⟨inside, hword, hname⟩ := Option.bind_eq_some_iff.1 hread
    exact ⟨inside, behind, hheads.1 hword, readName?_eq_some_iff.1 hname⟩
  · rintro ⟨inside, behind, hword, hname⟩
    refine ⟨(name, behind), ?_, rfl⟩
    exact Option.bind_eq_some_iff.2 ⟨inside, hheads.2 hword, readName?_eq_some_iff.2 hname⟩

theorem functionName?_eq_some_iff : functionName? line = some name ↔ FunctionHeader line name := by
  have hheads {inside : List Char} :
      behindWord? "function" (skipModifiers functionModifiers line) = some inside ↔
        Heads functionModifiers functionWords line inside := by
    rw [← behindAnyWord?_skipModifiers_eq_some_iff isWord_function (by decide), functionWords,
      behindAnyWord?_singleton]
  rw [functionName?, Option.map_eq_some_iff]
  constructor
  · rintro ⟨⟨found, behind⟩, hread, rfl⟩
    obtain ⟨inside, hword, hname⟩ := Option.bind_eq_some_iff.1 hread
    refine ⟨inside, behind, hheads.1 hword, ?_⟩
    rw [readName?_eq_some_iff] at hname
    cases hafter : Text.after? ['&'] inside with
    | none => exact .inl (by simpa [hafter] using hname)
    | some inside' =>
      refine .inr ⟨inside', Text.after?_eq_some_iff.1 hafter, ?_⟩
      simpa [hafter] using hname
  · rintro ⟨inside, behind, hword, hname⟩
    refine ⟨(name, behind), Option.bind_eq_some_iff.2 ⟨inside, hheads.2 hword, ?_⟩, rfl⟩
    rw [readName?_eq_some_iff]
    rcases hname with hname | ⟨inside', rfl, hname⟩
    · have hnone : Text.after? ['&'] inside = none := by
        obtain ⟨c, more, -, hc, -, -, rfl⟩ := hname
        have hne : '&' ≠ c := by
          rintro rfl
          cases hc
        rw [Text.after?, if_neg hne]
      rwa [hnone]
    · exact hname

/-! ## Kinds of lines -/

theorem SpaceHeader.not_silent (h : SpaceHeader line name) :
    ¬ (line = [] ∨ startsAttribute line = true) := by
  obtain ⟨inside, -, -, -, hword, -⟩ := h
  exact hword.not_silent isWord_space (by decide)

theorem DeclarationHeader.not_silent (h : DeclarationHeader line name) :
    ¬ (line = [] ∨ startsAttribute line = true) := by
  obtain ⟨inside, -, hword, -⟩ := h
  exact hword.not_silent isWord_declaration (by decide)

theorem FunctionHeader.not_silent (h : FunctionHeader line name) :
    ¬ (line = [] ∨ startsAttribute line = true) := by
  obtain ⟨inside, -, hword, -⟩ := h
  exact hword.not_silent isWord_function (by decide)

variable {name' : String}

theorem DeclarationHeader.not_space (h : DeclarationHeader line name) :
    ¬ SpaceHeader line name' := by
  obtain ⟨inside, -, hword, -⟩ := h
  rintro ⟨inside', -, -, -, hword', -⟩
  exact hword.not_heads isWord_declaration isWord_space (by decide) (by decide) hword'

theorem FunctionHeader.not_space (h : FunctionHeader line name) : ¬ SpaceHeader line name' := by
  obtain ⟨inside, -, hword, -⟩ := h
  rintro ⟨inside', -, -, -, hword', -⟩
  exact hword.not_heads isWord_function isWord_space (by decide) (by decide) hword'

theorem FunctionHeader.not_declaration (h : FunctionHeader line name) :
    ¬ DeclarationHeader line name' := by
  obtain ⟨inside, -, hword, -⟩ := h
  rintro ⟨inside', -, hword', -⟩
  exact hword.not_heads isWord_function isWord_declaration (by decide) (by decide) hword'

/-- The kind of a line, told by its grammar. -/
inductive IsKind (line : List Char) : Code → Prop where
  /-- The line is blank, or starts with an attribute. -/
  | silent (h : line = [] ∨ ['#', '['] <+: line) : IsKind line .silent
  /-- The line names a namespace. -/
  | space {name : String} (h : SpaceHeader line name) : IsKind line (.space name)
  /-- The line starts with the header of a declaration. -/
  | declaration {name : String} (h : DeclarationHeader line name) :
    IsKind line (.declaration name)
  /-- The line starts with the header of a function. -/
  | function {name : String} (h : FunctionHeader line name) : IsKind line (.function name)
  /-- The line is none of these. -/
  | other (hsilent : ¬ (line = [] ∨ ['#', '['] <+: line)) (hspace : ∀ name, ¬ SpaceHeader line name)
    (hdeclaration : ∀ name, ¬ DeclarationHeader line name)
    (hfunction : ∀ name, ¬ FunctionHeader line name) : IsKind line .other

theorem startsAttribute_iff : startsAttribute line = true ↔ ['#', '['] <+: line := by
  rw [startsAttribute, Option.isSome_iff_exists]
  simp only [Text.after?_eq_some_iff]
  exact exists_congr fun behind => eq_comm

theorem eq_none_iff_of_eq_some_iff {found : Option String} {p : String → Prop}
    (h : ∀ name, found = some name ↔ p name) : found = none ↔ ∀ name, ¬ p name := by
  simp only [Option.eq_none_iff_forall_ne_some, ne_eq, h]

theorem spaceName?_eq_none_iff : spaceName? line = none ↔ ∀ name, ¬ SpaceHeader line name :=
  eq_none_iff_of_eq_some_iff fun _ => spaceName?_eq_some_iff

theorem declarationName?_eq_none_iff :
    declarationName? line = none ↔ ∀ name, ¬ DeclarationHeader line name :=
  eq_none_iff_of_eq_some_iff fun _ => declarationName?_eq_some_iff

theorem functionName?_eq_none_iff :
    functionName? line = none ↔ ∀ name, ¬ FunctionHeader line name :=
  eq_none_iff_of_eq_some_iff fun _ => functionName?_eq_some_iff

theorem isKind_ofLine (line : List Char) : IsKind line (Code.ofLine line) := by
  rw [Code.ofLine]
  split
  · rename_i hsilent
    rw [startsAttribute_iff] at hsilent
    exact .silent hsilent
  · rename_i hsilent
    rw [startsAttribute_iff] at hsilent
    split
    · rename_i hspace
      exact .space (spaceName?_eq_some_iff.1 hspace)
    · rename_i hdeclaration
      exact .declaration (declarationName?_eq_some_iff.1 hdeclaration)
    · rename_i hfunction
      exact .function (functionName?_eq_some_iff.1 hfunction)
    · rename_i hspace hdeclaration hfunction
      exact .other hsilent (spaceName?_eq_none_iff.1 hspace)
        (declarationName?_eq_none_iff.1 hdeclaration) (functionName?_eq_none_iff.1 hfunction)

theorem IsKind.ofLine_eq {code : Code} (h : IsKind line code) : Code.ofLine line = code := by
  rw [Code.ofLine]
  cases h with
  | silent h =>
    rw [← startsAttribute_iff] at h
    rw [if_pos h]
  | space h => rw [if_neg h.not_silent, spaceName?_eq_some_iff.2 h]
  | declaration h =>
    rw [if_neg h.not_silent, spaceName?_eq_none_iff.2 fun _ => h.not_space,
      declarationName?_eq_some_iff.2 h]
  | function h =>
    rw [if_neg h.not_silent, spaceName?_eq_none_iff.2 fun _ => h.not_space,
      declarationName?_eq_none_iff.2 fun _ => h.not_declaration, functionName?_eq_some_iff.2 h]
  | other hsilent hspace hdeclaration hfunction =>
    rw [← startsAttribute_iff] at hsilent
    rw [if_neg hsilent, spaceName?_eq_none_iff.2 hspace,
      declarationName?_eq_none_iff.2 hdeclaration, functionName?_eq_none_iff.2 hfunction]

/-- **The kind of a line.**  The readers tell the kind of a line as its grammar does. -/
theorem Code.ofLine_eq_iff {code : Code} : Code.ofLine line = code ↔ IsKind line code :=
  ⟨fun h => h ▸ isKind_ofLine line, IsKind.ofLine_eq⟩

/-! ## Lines that can only be other code -/

/-- The words that a header can start with. -/
def headWords : List String :=
  (spaceWords ++ []) ++ (declarationWords ++ declarationModifiers) ++
    (functionWords ++ functionModifiers)

/-- A line that starts with a character that no header starts with, and no attribute, is other
code. -/
theorem ofLine_eq_other {c : Char} (hc : c ≠ '#')
    (hwords : ∀ word ∈ headWords, word.toList.head? ≠ some c) (tail : List Char) :
    Code.ofLine (c :: tail) = .other := by
  have hnot {modifiers words : List String} {rest : List Char}
      (hisWord : ∀ word ∈ words ++ modifiers, IsWord word)
      (hsubset : words ++ modifiers ⊆ headWords) : ¬ Heads modifiers words (c :: tail) rest := by
    intro h
    obtain ⟨word, hword, hhead⟩ := h.exists_head? hisWord
    exact hwords word (hsubset hword) hhead.symm
  refine IsKind.ofLine_eq (.other ?_ ?_ ?_ ?_)
  · rintro (hnil | hattribute)
    · cases hnil
    · exact hc (List.cons_prefix_cons.1 hattribute).1.symm
  · rintro name ⟨inside, -, -, -, hheads, -⟩
    exact hnot isWord_space (by decide) hheads
  · rintro name ⟨inside, -, hheads, -⟩
    exact hnot isWord_declaration (by decide) hheads
  · rintro name ⟨inside, -, hheads, -⟩
    exact hnot isWord_function (by decide) hheads

end DocFacts.Source
