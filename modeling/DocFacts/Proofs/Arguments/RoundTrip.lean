import DocFacts.Proofs.Arguments.Tidy
import DocFacts.Proofs.Arguments.TopLevel
import DocFacts.Proofs.Table

/-!
# Reading what was written

The text of a writable value is the body of that value.  `Reading.run_load` is the step: in
front of the text of a value the reader goes on behind the text, with the value in its draft.
For a composite this is known once its inside is known to be read as a body of its own, so
`parseBody_written` is by induction on the value.  The reader meets the elements of a list and
the rows of a map one by one, each up to its comma.
-/

namespace DocFacts

/-! ## Drafts -/

namespace Draft

variable {d : Draft} {v : Value}

/-- The draft with the text of a value read into its token. -/
def load (d : Draft) (v : Value) : Draft :=
  match v with
  | .string s => d.quote (String.ofList (Text.guarded s.toList))
  | .list _ | .map _ => d.compose v
  | .bool _ | .int _ | .float _ => d.setCurrent (.text (String.ofList v.written))

theorem side_load : (d.load v).side = d.side := by
  cases v <;> simp [load, quote, compose]

/-- The token that has been read stands for the value. -/
theorem value_load (h : v.Writable) (hd : d.Fresh) :
    (d.load v).current.value (d.load v).quoted = v := by
  cases h with
  | bool b =>
    simp only [load, current_setCurrent, quoted_setCurrent, hd.unquoted, Token.value]
    cases b with
    | true => rfl
    | false => rfl
  | int n =>
    simp only [load, current_setCurrent, quoted_setCurrent, hd.unquoted, Token.value,
      Value.written, Value.display, String.toList_ofList]
    exact Value.cast_integer n false
  | @string s line word number =>
    have hquoted : (d.quote (String.ofList (Text.guarded s.toList))).quoted = true := rfl
    have hcurrent : (d.quote (String.ofList (Text.guarded s.toList))).current =
        .text (String.ofList (Text.guarded s.toList)) := current_setCurrent _
    simp only [load, hquoted, hcurrent, Token.value]
    exact Value.cast_guarded word.1 word.2 number
  | list parts => simp [load, compose, Token.value]
  | map _ _ _ parts => simp [load, compose, Token.value]

/-- A draft that holds a value is an entry. -/
theorem isEmpty_load (h : v.Writable) : (({} : Draft).load v).isEmpty = false := by
  cases h with
  | bool b =>
    cases b with
    | true => rfl
    | false => rfl
  | int n =>
    obtain ⟨c, text, htext⟩ := List.exists_cons_of_ne_nil (Decimal.integer_ne_nil n.toInt)
    have hblank : Text.isBlank c = false := by
      refine Text.isBlank_of_isBare (Text.isBare_of_mem_integer (n := n.toInt) ?_)
      rw [htext]
      exact List.mem_cons_self
    simp [load, setCurrent, isEmpty, Token.isBlank, Value.written, Value.display, htext,
      Text.allBlank, hblank]
  | string _ _ _ => rfl
  | list _ => rfl
  | map _ _ _ _ => rfl

theorem value_finish_load (h : v.Writable) : (({} : Draft).load v).finish.value = v := by
  have hside : (({} : Draft).load v).side = .name := side_load
  have hvalue := value_load h fresh_empty
  rw [current, hside] at hvalue
  rw [finish, hside]
  exact hvalue

theorem finish_load_row {key : String} (hk : Text.Bare key.toList) (h : v.Writable) :
    ((row key).load v).finish = .named key v := by
  have hside : ((row key).load v).side = .value := side_load
  have hname : ((row key).load v).name = .text key := by
    cases v <;> rfl
  have hvalue := value_load h (fresh_row key)
  rw [current, hside] at hvalue
  rw [finish, hside]
  simp only [hname, hvalue, Token.key, Text.trim_eq_of_bare hk.bare, String.ofList_toList]

theorem isEmpty_load_row {key : String} : ((row key).load v).isEmpty = false := by
  have hside : ((row key).load v).side = .value := side_load
  simp [isEmpty, hside]

end Draft

/-! ## Written text -/

namespace Reading

variable {r : Reading} {rest : List Char}

/-- The reader passes characters without a meaning and keeps them as text. -/
theorem run_bare {text seen : List Char} (h : ∀ c ∈ text, Text.isBare c = true)
    (hd : r.draft.current = .text (String.ofList seen)) (hr : r.cursor.rest = text ++ rest) :
    r.run = Reading.run { r with
      cursor := ⟨text.reverse ++ r.cursor.past, rest⟩
      draft := r.draft.setCurrent (.text (String.ofList (seen ++ text))) } :=
  (reads_class rfl h hr hd).run_eq

/-- The reader takes a string that is followed by a separator. -/
theorem run_quoted {s : List Char} (he : Text.isEscaped r.cursor.past = false)
    (hrest : MayFollow 0 rest) (hr : r.cursor.rest = '"' :: (Text.guarded s ++ '"' :: rest)) :
    r.run = Reading.run { r with
      cursor := ⟨('"' :: Text.guarded s ++ ['"']).reverse ++ r.cursor.past, rest⟩
      draft := r.draft.quote (String.ofList (Text.guarded s)) } := by
  have hadvance := Advance.string hr he (Text.quotable_guarded s Text.isEscaped_nil) hrest
  simpa using hadvance.run_eq

/-- The reader takes a composite that is followed by a separator. -/
theorem run_composite {text : List Char} {v : Value} (htidy : Tidy text)
    (hv : parseBody text = .ok v) (hrest : MayFollow 0 rest)
    (hr : r.cursor.rest = '{' :: (text ++ '}' :: rest)) :
    r.run = Reading.run { r with
      cursor := ⟨('{' :: text ++ ['}']).reverse ++ r.cursor.past, rest⟩
      draft := r.draft.compose v } := by
  have hgap : r.cursor.rest = '{' :: (text ++ '}' :: ([] ++ rest)) := hr
  have hadvance := Advance.composite hgap htidy.balanced hv (List.forall_mem_nil _) hrest
  simpa [take] using hadvance.run_eq

/-- The reader takes the text of a value that is followed by a separator. -/
theorem run_load {v : Value} (h : v.Writable)
    (hv : v.isComposite = true → parseBody v.written = .ok v) (hd : r.draft.Fresh)
    (he : Text.isEscaped r.cursor.past = false) (hrest : MayFollow 0 rest)
    (hr : r.cursor.rest = v.embed v.written ++ rest) :
    r.run = Reading.run { r with
      cursor := ⟨(v.embed v.written).reverse ++ r.cursor.past, rest⟩
      draft := r.draft.load v } := by
  have hempty : r.draft.current = .text (String.ofList []) := hd.empty
  cases h with
  | bool b =>
    rw [Value.embed_scalar rfl] at hr ⊢
    rw [run_bare (Value.bare_written_bool b).bare hempty hr, List.nil_append, Draft.load]
  | int n =>
    rw [Value.embed_scalar rfl] at hr ⊢
    rw [run_bare (Value.bare_written_int n).bare hempty hr, List.nil_append, Draft.load]
  | @string s _ _ _ =>
    rw [Value.embed_scalar rfl, Value.written] at hr ⊢
    rw [run_quoted he hrest (by simpa using hr), Draft.load]
  | @list items parts =>
    rw [Value.embed_composite rfl] at hr ⊢
    have htidy := (Value.Writable.list parts).tidy_written
    rw [run_composite htidy (hv rfl) hrest (by simpa using hr), Draft.load]
  | @map fields nonempty distinct keys parts =>
    rw [Value.embed_composite rfl] at hr ⊢
    have htidy := (Value.Writable.map nonempty distinct keys parts).tidy_written
    rw [run_composite htidy (hv rfl) hrest (by simpa using hr), Draft.load]

/-! ## Elements and rows -/

/-- The reader takes the elements of a list one by one. -/
theorem run_writtenItems {items : List Value} (h : ∀ v ∈ items, v.Writable)
    (hv : ∀ v ∈ items, parseBody v.written = .ok v) (hd : r.draft = {})
    (he : Text.isEscaped r.cursor.past = false)
    (hr : r.cursor.rest = Value.writtenItems items) :
    r.run = .ok (Entry.assemble
      (r.entries.reverse ++ items.map fun v => (({} : Draft).load v).finish)
      r.keyed (r.separated || !items.isEmpty)) := by
  induction items generalizing r with
  | nil =>
    rw [Value.writtenItems] at hr
    have hempty : r.draft.isEmpty = true := by
      rw [hd]
      rfl
    have hflush : r.flush = r.entries := by simp [flush, hempty]
    rw [run_nil hr, result, hflush]
    simp
  | cons v items ih =>
    obtain ⟨hwritable, hitems⟩ := List.forall_mem_cons.1 h
    obtain ⟨hparse, hparses⟩ := List.forall_mem_cons.1 hv
    rw [Value.writtenItems] at hr
    have hfresh : r.draft.Fresh := by
      rw [hd]
      exact Draft.fresh_empty
    rw [run_load hwritable (fun _ => hparse) hfresh he (mayFollow_comma 0 _) hr,
      (Advance.comma rfl).run_eq, ih hitems hparses rfl (Text.isEscaped_cons_of_ne (by decide) _) rfl]
    simp [flush, hd, Draft.isEmpty_load hwritable]

/-- The reader takes a row of a map up to its separator. -/
theorem run_row {key : String} {v : Value} (hk : Text.Bare key.toList) (h : v.Writable)
    (hv : parseBody v.written = .ok v) (hd : r.draft = {}) (hrest : MayFollow 0 rest)
    (hr : r.cursor.rest = key.toList ++ '=' :: v.embed v.written ++ rest) :
    r.run = Reading.run { r with
      cursor := ⟨(key.toList ++ '=' :: v.embed v.written).reverse ++ r.cursor.past, rest⟩
      draft := (Draft.row key).load v
      keyed := true } := by
  have hempty : r.draft.current = .text (String.ofList []) := by
    rw [hd]
    rfl
  have hkey : r.cursor.rest = key.toList ++ '=' :: (v.embed v.written ++ rest) := by
    simpa using hr
  have hside {token : Token} : (r.draft.setCurrent token).side = .name := by
    rw [Draft.side_setCurrent, hd]
  have hrow : (r.draft.setCurrent (.text (String.ofList ([] ++ key.toList)))).crossEquals =
      Draft.row key := by
    rw [hd, List.nil_append, String.ofList_toList, Draft.row]
  rw [run_bare hk.bare hempty hkey, (Advance.equals rfl hside).run_eq]
  simp only [hrow]
  have hescaped : Text.isEscaped ('=' :: (key.toList.reverse ++ r.cursor.past)) = false :=
    Text.isEscaped_cons_of_ne (by decide) _
  rw [run_load h (fun _ => hv) (Draft.fresh_row key) hescaped hrest rfl]
  simp

/-- The reader takes the rows of a map one by one. -/
theorem run_writtenFields {fields : List (String × Value)} (hne : fields ≠ [])
    (hkeys : ∀ row ∈ fields, Text.Bare row.1.toList) (h : ∀ row ∈ fields, row.2.Writable)
    (hv : ∀ row ∈ fields, parseBody row.2.written = .ok row.2) (hd : r.draft = {})
    (hr : r.cursor.rest = Value.writtenFields fields) :
    r.run = .ok (.map (Table.ofList
      (r.entries.reverse.map Entry.field ++ fields))) := by
  induction fields generalizing r with
  | nil => exact absurd rfl hne
  | cons row fields ih =>
    obtain ⟨key, v⟩ := row
    obtain ⟨hkey, hkeys⟩ := List.forall_mem_cons.1 hkeys
    obtain ⟨hwritable, hwritables⟩ := List.forall_mem_cons.1 h
    obtain ⟨hparse, hparses⟩ := List.forall_mem_cons.1 hv
    cases fields with
    | nil =>
      rw [Value.writtenFields] at hr
      rw [run_row hkey hwritable hparse hd (mayFollow_nil 0) (by simpa using hr), run_nil rfl]
      simp [result, flush, Draft.isEmpty_load_row, Draft.finish_load_row hkey hwritable,
        Entry.assemble, Entry.field]
    | cons row' fields =>
      rw [Value.writtenFields_cons_cons] at hr
      rw [run_row hkey hwritable hparse hd (mayFollow_comma 0 _) hr, (Advance.comma rfl).run_eq,
        ih (by simp) hkeys hwritables hparses rfl rfl]
      simp [flush, Draft.isEmpty_load_row, Draft.finish_load_row hkey hwritable, Entry.field]

end Reading

theorem parseBody_written_scalar {v : Value} (h : v.Writable) (hs : v.isComposite = false) :
    parseBody v.written = .ok v := by
  have hr : (Reading.start v.written).cursor.rest = v.embed v.written ++ [] := by
    rw [Value.embed_scalar hs, List.append_nil, Reading.start]
  have hcomposite : v.isComposite = true → parseBody v.written = .ok v := by simp [hs]
  rw [parseBody, Reading.run_load h hcomposite Draft.fresh_empty rfl (mayFollow_nil 0) hr,
    Reading.run_nil rfl]
  simp [Reading.start, Reading.result, Reading.flush, Draft.isEmpty_load h, Entry.assemble,
    Draft.value_finish_load h]

/-- **Parsing undoes writing.** -/
theorem parseBody_written {v : Value} (h : v.Writable) : parseBody v.written = .ok v := by
  induction h with
  | bool b => exact parseBody_written_scalar (.bool b) rfl
  | int n => exact parseBody_written_scalar (.int n) rfl
  | string line word number => exact parseBody_written_scalar (.string line word number) rfl
  | @list items parts ih =>
    have hvalues : (items.map fun v => (({} : Draft).load v).finish).map Entry.value = items := by
      rw [List.map_map]
      exact (List.map_congr_left fun v hv => Draft.value_finish_load (parts v hv)).trans
        (List.map_id _)
    rw [Value.written, parseBody, Reading.run_writtenItems parts ih rfl rfl rfl]
    -- An empty list has no comma, and any other has one behind each element.
    cases items with
    | nil => rfl
    | cons v items =>
      have hlist := Entry.assemble_separated
        ((v :: items).map fun v => (({} : Draft).load v).finish)
      rw [hvalues] at hlist
      exact congrArg Except.ok hlist
  | @map fields nonempty distinct keys parts ih =>
    rw [Value.written, parseBody, Reading.run_writtenFields nonempty keys parts ih rfl rfl]
    simp [Reading.start, Table.ofList_of_distinct distinct]

end DocFacts
