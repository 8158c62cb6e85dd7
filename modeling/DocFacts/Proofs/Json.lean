import DocFacts.Json
import DocFacts.Proofs.Decimal.Integer

/-!
# Documents read apart

Two documents without floating-point numbers have the same compact form only if they are the same
(`compact_inj`).  The form has no tags.  But the first character of a document tells what kind of
document it is (`exists_first`), and a document ends where it ends, whatever stands behind it
(`Separates`): a string at a quotation mark that no escape hides, a container at its bracket, and a
number where the digits end.  So the parts of a container can be told apart, and with them the
containers.  The induction is on the document, and it needs the general form, with any text behind.
-/

namespace DocFacts.Json

/-- There is no floating-point number in the document. -/
inductive FloatFree : Json → Prop where
  /-- The value `null`. -/
  | null : FloatFree .null
  /-- A truth value. -/
  | bool (b : Bool) : FloatFree (.bool b)
  /-- A number without fraction. -/
  | int (n : Int) : FloatFree (.int n)
  /-- A string. -/
  | string (s : String) : FloatFree (.string s)
  /-- An array of such documents. -/
  | array {items : List Json} (parts : ∀ item ∈ items, FloatFree item) : FloatFree (.array items)
  /-- An object of such documents. -/
  | object {members : List (String × Json)} (parts : ∀ row ∈ members, FloatFree row.2) :
      FloatFree (.object members)

/-- The text does not go on with the number in front of it. -/
def Delimits (text : List Char) : Prop := ∀ c ∈ text.head?, c.isDigit = false

theorem delimits_nil : Delimits [] := fun _ hc => by cases hc

theorem delimits_cons {c : Char} (h : c.isDigit = false) (text : List Char) :
    Delimits (c :: text) := by
  intro d hd
  cases hd
  exact h

/-- Whatever stands behind them, two things are written alike only if they are the same. -/
def Separates {α : Type} (write : α → List Char) (a b : α) : Prop :=
  ∀ x y, Delimits x → Delimits y → write a ++ x = write b ++ y → a = b ∧ x = y

/-! ## Strings -/

/-- The characters that a string escapes. -/
def escaped : List Char := '"' :: '\\' :: (List.range 0x20).map Char.ofNat

theorem escapeChar_of_not_mem {c : Char} (h : c ∉ escaped) :
    escapeChar c = [c] ∧ c ≠ '"' ∧ c ≠ '\\' := by
  have hquote : c ≠ '"' := fun hc => h (hc ▸ by decide)
  have hbackslash : c ≠ '\\' := fun hc => h (hc ▸ by decide)
  have hcontrol : ¬ c.toNat < 0x20 := by
    intro hlt
    refine h (List.mem_cons_of_mem _ (List.mem_cons_of_mem _ (List.mem_map.2 ⟨c.toNat, ?_, ?_⟩)))
    · exact List.mem_range.2 hlt
    · exact Char.ofNat_toNat c
  have hne {d : Char} (hd : d.toNat < 0x20) : c ≠ d := fun hc => hcontrol (hc ▸ hd)
  refine ⟨?_, hquote, hbackslash⟩
  rw [escapeChar, if_neg hquote, if_neg hbackslash, if_neg (hne (by decide)),
    if_neg (hne (by decide)), if_neg (hne (by decide)), if_neg (hne (by decide)),
    if_neg (hne (by decide)), if_neg hcontrol]

/-- An escape starts with a backslash. -/
theorem head?_escapeChar_of_mem {c : Char} (h : c ∈ escaped) :
    (escapeChar c).head? = some '\\' := by
  have hall : (escaped.all fun c => (escapeChar c).head? == some '\\') = true := by decide +kernel
  exact beq_iff_eq.1 (List.all_eq_true.1 hall c h)

/-- No escape is the beginning of another one. -/
theorem eq_of_prefix_escapeChar {c d : Char} (hc : c ∈ escaped) (hd : d ∈ escaped)
    (h : escapeChar c <+: escapeChar d) : c = d := by
  have hall : (escaped.all fun c => escaped.all fun d =>
      !(escapeChar c).isPrefixOf (escapeChar d) || c == d) = true := by decide +kernel
  have hcd := List.all_eq_true.1 (List.all_eq_true.1 hall c hc) d hd
  rw [List.isPrefixOf_iff_prefix.2 h, Bool.not_true, Bool.false_or] at hcd
  exact beq_iff_eq.1 hcd

/-- A character inside a string starts with no quotation mark. -/
theorem exists_escapeChar (c : Char) :
    ∃ first more, escapeChar c = first :: more ∧ first ≠ '"' := by
  by_cases hc : c ∈ escaped
  · obtain ⟨more, hmore⟩ := List.head?_eq_some_iff.1 (head?_escapeChar_of_mem hc)
    exact ⟨'\\', more, hmore, by decide⟩
  · obtain ⟨hplain, hquote, -⟩ := escapeChar_of_not_mem hc
    exact ⟨c, [], hplain, hquote⟩

theorem escapeChar_append_inj {c d : Char} {x y : List Char}
    (h : escapeChar c ++ x = escapeChar d ++ y) : c = d ∧ x = y := by
  suffices hcd : c = d by
    subst hcd
    exact ⟨rfl, List.append_cancel_left h⟩
  -- A character that is not escaped does not start with the backslash of an escape.
  have hplain {c d : Char} {x y : List Char} (hc : c ∉ escaped)
      (h : escapeChar c ++ x = escapeChar d ++ y) : c = d := by
    obtain ⟨hc, -, hbackslash⟩ := escapeChar_of_not_mem hc
    rw [hc, List.singleton_append] at h
    by_cases hd : d ∈ escaped
    · obtain ⟨more, hmore⟩ := List.head?_eq_some_iff.1 (head?_escapeChar_of_mem hd)
      rw [hmore, List.cons_append] at h
      exact absurd (List.cons.inj h).1 hbackslash
    · rw [(escapeChar_of_not_mem hd).1, List.singleton_append] at h
      exact (List.cons.inj h).1
  by_cases hc : c ∈ escaped
  · by_cases hd : d ∈ escaped
    · rcases List.prefix_or_prefix_of_prefix (List.prefix_append (escapeChar c) x)
        (h ▸ List.prefix_append (escapeChar d) y) with hprefix | hprefix
      · exact eq_of_prefix_escapeChar hc hd hprefix
      · exact (eq_of_prefix_escapeChar hd hc hprefix).symm
    · exact (hplain hd h.symm).symm
  · exact hplain hc h

/-- The inside of a string ends at the quotation mark. -/
theorem flatMap_escapeChar_inj {s t x y : List Char}
    (h : s.flatMap escapeChar ++ '"' :: x = t.flatMap escapeChar ++ '"' :: y) :
    s = t ∧ x = y := by
  induction s generalizing t with
  | nil =>
    cases t with
    | nil => exact ⟨rfl, (List.cons.inj h).2⟩
    | cons d t =>
      obtain ⟨first, more, hd, hne⟩ := exists_escapeChar d
      rw [List.flatMap_cons, hd] at h
      exact absurd (List.cons.inj h).1.symm hne
  | cons c s ih =>
    cases t with
    | nil =>
      obtain ⟨first, more, hc, hne⟩ := exists_escapeChar c
      rw [List.flatMap_cons, hc] at h
      exact absurd (List.cons.inj h).1 hne
    | cons d t =>
      rw [List.flatMap_cons, List.flatMap_cons, List.append_assoc, List.append_assoc] at h
      obtain ⟨rfl, htail⟩ := escapeChar_append_inj h
      obtain ⟨rfl, hrest⟩ := ih htail
      exact ⟨rfl, hrest⟩

theorem quote_append_inj {s t : String} {x y : List Char} (h : quote s ++ x = quote t ++ y) :
    s = t ∧ x = y := by
  have hinside :
      s.toList.flatMap escapeChar ++ '"' :: x = t.toList.flatMap escapeChar ++ '"' :: y := by
    simpa [quote] using h
  obtain ⟨hchars, hrest⟩ := flatMap_escapeChar_inj hinside
  exact ⟨String.toList_inj.1 hchars, hrest⟩

/-! ## Numbers -/

/-- A number ends where its digits end. -/
theorem separates_integer (m n : Int) : Separates integer m n := by
  intro x y hx hy h
  obtain ⟨sign, negative, ds, hsign, hne, hds, htext, hm⟩ := Decimal.integerText_integer m
  obtain ⟨sign', negative', ds', hsign', hne', hds', htext', hn⟩ := Decimal.integerText_integer n
  rw [htext, htext', List.append_assoc, List.append_assoc] at h
  have hread := hsign.readSign_append (Decimal.unsigned_append_of_digits hne hds x)
  rw [h, hsign'.readSign_append (Decimal.unsigned_append_of_digits hne' hds' y)] at hread
  obtain ⟨rfl, hdigits⟩ := Prod.mk.inj hread
  obtain ⟨htake, hdrop⟩ := Decimal.digits_append hds hx
  obtain ⟨htake', hdrop'⟩ := Decimal.digits_append hds' hy
  rw [← hdigits, htake'] at htake
  rw [← hdigits, hdrop'] at hdrop
  rw [hm, hn, htake]
  exact ⟨rfl, hdrop.symm⟩

/-! ## Containers -/

section Parts

variable {α : Type} {write : α → List Char} {bracket : Char} {as bs : List α} {x y : List Char}

/-- The parts of a container with commas between them, and its bracket. -/
def closedParts (write : α → List Char) (bracket : Char) (as : List α) (x : List Char) :
    List Char := [','].intercalate (as.map write) ++ bracket :: x

/-- What stands behind a part: the bracket, or a comma and the other parts. -/
def behindPart (write : α → List Char) (bracket : Char) (as : List α) (x : List Char) :
    List Char :=
  match as with
  | [] => bracket :: x
  | a :: as => ',' :: closedParts write bracket (a :: as) x

theorem closedParts_cons (a : α) :
    closedParts write bracket (a :: as) x = write a ++ behindPart write bracket as x := by
  cases as with
  | nil => simp [closedParts, behindPart]
  | cons a' as => simp [closedParts, behindPart, List.intercalate_cons_cons]

theorem delimits_behindPart (h : bracket.isDigit = false) :
    Delimits (behindPart write bracket as x) := by
  cases as with
  | nil => exact delimits_cons h x
  | cons a as => exact delimits_cons (by decide) _

/-- A part does not start with the bracket that closes its container. -/
def OpensPart (write : α → List Char) (bracket : Char) (a : α) : Prop :=
  ∃ c more, write a = c :: more ∧ c ≠ bracket

theorem OpensPart.ne {a : α} (h : OpensPart write bracket a) {rest : List Char} :
    write a ++ rest ≠ bracket :: y := by
  obtain ⟨c, more, ha, hc⟩ := h
  intro heq
  rw [ha] at heq
  exact hc (List.cons.inj heq).1

/-- Parts that can be told apart can be told apart in their container. -/
theorem closedParts_inj (hdigit : bracket.isDigit = false) (hcomma : bracket ≠ ',')
    (has : ∀ a ∈ as, OpensPart write bracket a) (hbs : ∀ b ∈ bs, OpensPart write bracket b)
    (hwrite : ∀ a ∈ as, ∀ b ∈ bs, Separates write a b)
    (h : closedParts write bracket as x = closedParts write bracket bs y) : as = bs ∧ x = y := by
  induction as generalizing bs with
  | nil =>
    cases bs with
    | nil => exact ⟨rfl, (List.cons.inj h).2⟩
    | cons b bs =>
      rw [closedParts_cons] at h
      exact absurd h.symm (hbs b List.mem_cons_self).ne
  | cons a as ih =>
    cases bs with
    | nil =>
      rw [closedParts_cons] at h
      exact absurd h (has a List.mem_cons_self).ne
    | cons b bs =>
      rw [closedParts_cons, closedParts_cons] at h
      obtain ⟨rfl, hbehind⟩ := hwrite a List.mem_cons_self b List.mem_cons_self _ _
        (delimits_behindPart hdigit) (delimits_behindPart hdigit) h
      cases as with
      | nil =>
        cases bs with
        | nil => exact ⟨rfl, (List.cons.inj hbehind).2⟩
        | cons b' bs => exact absurd (List.cons.inj hbehind).1 hcomma
      | cons a' as =>
        cases bs with
        | nil => exact absurd (List.cons.inj hbehind).1.symm hcomma
        | cons b' bs =>
          obtain ⟨-, has⟩ := List.forall_mem_cons.1 has
          obtain ⟨-, hbs⟩ := List.forall_mem_cons.1 hbs
          have hwrite' : ∀ c ∈ a' :: as, ∀ d ∈ b' :: bs, Separates write c d := fun c hc d hd =>
            hwrite c (List.mem_cons_of_mem _ hc) d (List.mem_cons_of_mem _ hd)
          obtain ⟨htail, hx⟩ := ih has hbs hwrite' (List.cons.inj hbehind).2
          exact ⟨by rw [htail], hx⟩

end Parts

theorem compactChars_array (items : List Json) (x : List Char) :
    compactChars (.array items) ++ x = '[' :: closedParts compactChars ']' items x := by
  have hitems : compactItems items = [','].intercalate (items.map compactChars) := by
    induction items with
    | nil => rfl
    | cons item rest ih =>
      cases rest with
      | nil => simp [compactItems]
      | cons item' rest =>
        rw [compactItems, ih]
        · simp [List.intercalate_cons_cons]
        · simp
  simp [compactChars, closedParts, hitems]

/-- A member of an object as it is written. -/
def member (row : String × Json) : List Char := quote row.1 ++ ':' :: compactChars row.2

theorem compactChars_object (members : List (String × Json)) (x : List Char) :
    compactChars (.object members) ++ x = '{' :: closedParts member '}' members x := by
  have hmembers : compactMembers members = [','].intercalate (members.map member) := by
    induction members with
    | nil => rfl
    | cons row rest ih =>
      obtain ⟨key, item⟩ := row
      cases rest with
      | nil => simp [compactMembers, member]
      | cons row rest =>
        rw [compactMembers, ih]
        · simp [member, List.intercalate_cons_cons]
        · simp
  simp [compactChars, closedParts, hmembers]

theorem separates_member {row row' : String × Json} (h : Separates compactChars row.2 row'.2) :
    Separates member row row' := by
  intro x y hx hy heq
  rw [member, member, List.append_assoc, List.append_assoc] at heq
  obtain ⟨hkey, hrest⟩ := quote_append_inj heq
  obtain ⟨hitem, hxy⟩ := h x y hx hy (List.cons.inj hrest).2
  exact ⟨Prod.ext hkey hitem, hxy⟩

/-! ## Documents -/

/-- The kinds of documents. -/
inductive Shape where
  | null | bool | number | string | array | object
deriving DecidableEq

/-- The kind of a document. -/
def shape : Json → Shape
  | .null => .null
  | .bool _ => .bool
  | .int _ => .number
  | .float _ => .number
  | .string _ => .string
  | .array _ => .array
  | .object _ => .object

/-- The kind that a document has by its first character. -/
def Shape.ofFirst (c : Char) : Shape :=
  if c = 'n' then .null
  else if c = 't' ∨ c = 'f' then .bool
  else if c = '"' then .string
  else if c = '[' then .array
  else if c = '{' then .object
  else .number

theorem Shape.ofFirst_of_integer {c : Char} (h : c = '-' ∨ c.isDigit = true) :
    ofFirst c = .number ∧ c ≠ ']' ∧ c ≠ '}' := by
  have hnot : c ∉ ['n', 't', 'f', '"', '[', '{', ']', '}'] := by
    rcases h with rfl | h
    · decide
    · exact Text.not_mem_of_class h (by decide)
  simp only [List.mem_cons, List.not_mem_nil, or_false, not_or] at hnot
  obtain ⟨hn, ht, hf, hquote, harray, hobject, hitems, hmembers⟩ := hnot
  refine ⟨?_, hitems, hmembers⟩
  rw [ofFirst, if_neg hn, if_neg (not_or.2 ⟨ht, hf⟩), if_neg hquote, if_neg harray, if_neg hobject]

variable {a b : Json}

/-- The first character of a document tells its kind.  No closing bracket is one. -/
theorem exists_first (h : FloatFree a) : ∃ c more, compactChars a = c :: more ∧
    Shape.ofFirst c = a.shape ∧ c ≠ ']' ∧ c ≠ '}' := by
  cases h with
  | null => exact ⟨_, _, rfl, by decide⟩
  | bool b =>
    cases b with
    | true => exact ⟨_, _, rfl, by decide⟩
    | false => exact ⟨_, _, rfl, by decide⟩
  | int n =>
    obtain ⟨c, more, hn⟩ := List.exists_cons_of_ne_nil (Decimal.integer_ne_nil n)
    have hc := Decimal.mem_integer (hn ▸ List.mem_cons_self)
    exact ⟨c, more, by simp [compactChars, scalar, hn], Shape.ofFirst_of_integer hc⟩
  | string s => exact ⟨_, _, rfl, rfl, by decide, by decide⟩
  | array _ => exact ⟨_, _, rfl, rfl, by decide, by decide⟩
  | object _ => exact ⟨_, _, rfl, rfl, by decide, by decide⟩

theorem shape_eq (ha : FloatFree a) (hb : FloatFree b) {x y : List Char}
    (h : compactChars a ++ x = compactChars b ++ y) : a.shape = b.shape := by
  obtain ⟨c, more, hc, hshape, -⟩ := exists_first ha
  obtain ⟨c', more', hc', hshape', -⟩ := exists_first hb
  rw [hc, hc'] at h
  rw [← hshape, ← hshape', (List.cons.inj h).1]

/-- **A document ends where it ends.** -/
theorem FloatFree.separates (ha : FloatFree a) (hb : FloatFree b) :
    Separates compactChars a b := by
  intro x y hx hy h
  have hshape := shape_eq ha hb h
  induction ha generalizing b x y with
  | null =>
    cases hb with
    | null => exact ⟨rfl, List.append_cancel_left h⟩
    | bool _ | int _ | string _ | array _ | object _ => cases hshape
  | bool b =>
    cases hb with
    | bool b' =>
      cases b with
      | true =>
        cases b' with
        | true => exact ⟨rfl, List.append_cancel_left h⟩
        | false => cases (List.cons.inj h).1
      | false =>
        cases b' with
        | true => cases (List.cons.inj h).1
        | false => exact ⟨rfl, List.append_cancel_left h⟩
    | null | int _ | string _ | array _ | object _ => cases hshape
  | int n =>
    cases hb with
    | int n' =>
      obtain ⟨rfl, hxy⟩ := separates_integer n n' x y hx hy h
      exact ⟨rfl, hxy⟩
    | null | bool _ | string _ | array _ | object _ => cases hshape
  | string s =>
    cases hb with
    | string s' =>
      obtain ⟨rfl, hxy⟩ := quote_append_inj h
      exact ⟨rfl, hxy⟩
    | null | bool _ | int _ | array _ | object _ => cases hshape
  | @array items parts ih =>
    cases hb with
    | @array items' parts' =>
      have hopens {items : List Json} (parts : ∀ item ∈ items, FloatFree item) :
          ∀ item ∈ items, OpensPart compactChars ']' item := by
        intro item hitem
        obtain ⟨c, more, hc, -, hne, -⟩ := exists_first (parts item hitem)
        exact ⟨c, more, hc, hne⟩
      have hparts : ∀ item ∈ items, ∀ item' ∈ items', Separates compactChars item item' := by
        intro item hitem item' hitem' x y hx hy h
        have hitem'' := parts' item' hitem'
        exact ih item hitem hitem'' x y hx hy h (shape_eq (parts item hitem) hitem'' h)
      rw [compactChars_array, compactChars_array] at h
      obtain ⟨rfl, hxy⟩ := closedParts_inj (by decide) (by decide) (hopens parts) (hopens parts')
        hparts (List.cons.inj h).2
      exact ⟨rfl, hxy⟩
    | null | bool _ | int _ | string _ | object _ => cases hshape
  | @object members parts ih =>
    cases hb with
    | @object members' parts' =>
      have hopens (members : List (String × Json)) :
          ∀ row ∈ members, OpensPart member '}' row :=
        fun row _ => ⟨'"', _, rfl, by decide⟩
      have hparts : ∀ row ∈ members, ∀ row' ∈ members', Separates member row row' := by
        intro row hrow row' hrow'
        have hrow'' := parts' row' hrow'
        exact separates_member fun x y hx hy h =>
          ih row hrow hrow'' x y hx hy h (shape_eq (parts row hrow) hrow'' h)
      rw [compactChars_object, compactChars_object] at h
      obtain ⟨rfl, hxy⟩ := closedParts_inj (by decide) (by decide) (hopens members)
        (hopens members') hparts (List.cons.inj h).2
      exact ⟨rfl, hxy⟩
    | null | bool _ | int _ | string _ | array _ => cases hshape

/-- Documents without floating-point numbers are told apart by their compact forms. -/
theorem compact_inj (ha : FloatFree a) (hb : FloatFree b) (h : a.compact = b.compact) : a = b := by
  have hchars : compactChars a ++ [] = compactChars b ++ [] := by
    rw [List.append_nil, List.append_nil]
    exact String.ofList_injective h
  exact (ha.separates hb [] [] delimits_nil delimits_nil hchars).1

end DocFacts.Json
