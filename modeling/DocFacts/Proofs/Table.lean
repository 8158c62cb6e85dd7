import DocFacts.Table
import Mathlib.Data.List.Induction

/-!
# Tables with distinct keys

A table whose keys are distinct is known by its keys in order and by the value of each.  Rows
with distinct keys are a table as they stand.  Of rows that repeat keys, the table has each key
where it stood first (`keys_ofList`), with the value that it had last (`get?_ofList`), so a row is
in the table unless its key comes again behind it (`mem_ofList_iff`).
-/

namespace DocFacts.Table

variable {κ ν : Type} [DecidableEq κ]

instance (t : Table κ ν) : Decidable (Distinct t) :=
  inferInstanceAs (Decidable (keys t).Nodup)

theorem insert_of_not_mem {t : Table κ ν} {k : κ} (h : k ∉ keys t) (v : ν) :
    insert t k v = t ++ [(k, v)] := by
  induction t with
  | nil => rfl
  | cons row t ih =>
    obtain ⟨hne, ht⟩ := List.ne_and_not_mem_of_not_mem_cons h
    rw [insert, if_neg hne.symm, ih ht, List.cons_append]

theorem length_insert_of_get?_eq_none {t : Table κ ν} {k : κ} (h : t.get? k = none) (v : ν) :
    (insert t k v).length = t.length + 1 := by
  rw [insert_of_not_mem (get?_eq_none_iff.1 h), List.length_append, List.length_singleton]

theorem foldl_insert_of_distinct {t : Table κ ν} {rows : List (κ × ν)}
    (h : Distinct (t ++ rows)) :
    rows.foldl (fun t row => insert t row.1 row.2) t = t ++ rows := by
  induction rows generalizing t with
  | nil => simp
  | cons row rows ih =>
    have hkey : row.1 ∉ keys t := by
      have hnodup : (keys t ++ row.1 :: keys rows).Nodup := by simpa [Distinct, keys] using h
      intro hmem
      exact (List.nodup_append.1 hnodup).2.2 _ hmem _ List.mem_cons_self rfl
    rw [List.foldl_cons, insert_of_not_mem hkey, ih]
    · simp
    · simpa using h

/-- Rows with distinct keys are inserted as they stand. -/
theorem ofList_of_distinct {rows : List (κ × ν)} (h : Distinct rows) : ofList rows = rows :=
  foldl_insert_of_distinct (t := []) h

theorem get?_map_of_mem {names : List κ} {k : κ} (h : k ∈ names) (f : κ → ν) :
    get? (names.map fun name => (name, f name)) k = some (f k) := by
  induction names with
  | nil => cases h
  | cons name names ih =>
    by_cases hname : name = k
    · subst hname
      simp [get?]
    · have hk : k ∈ names := by
        rcases List.mem_cons.1 h with heq | hk
        · exact absurd heq.symm hname
        · exact hk
      rw [List.map_cons, get?, if_neg hname, ih hk]

/-- Tables with the same distinct keys in the same order are equal if they agree on each. -/
theorem eq_of_get?_eq {t t' : Table κ ν} (h : Distinct t) (hkeys : keys t = keys t')
    (hget : ∀ k ∈ keys t, get? t k = get? t' k) : t = t' := by
  induction t generalizing t' with
  | nil => exact (List.map_eq_nil_iff.1 hkeys.symm).symm
  | cons row t ih =>
    cases t' with
    | nil => simp [keys] at hkeys
    | cons row' t' =>
      obtain ⟨k, v⟩ := row
      obtain ⟨k', v'⟩ := row'
      obtain ⟨rfl, htail⟩ := List.cons.inj hkeys
      obtain ⟨hk, hdistinct⟩ := List.nodup_cons.1 h
      have hv : v = v' := by simpa [get?] using hget k List.mem_cons_self
      have hrest : t = t' := by
        refine ih hdistinct htail fun j hj => ?_
        have hne : k ≠ j := fun heq => hk (heq ▸ hj)
        simpa [get?, hne] using hget j (List.mem_cons_of_mem _ hj)
      rw [hv, hrest]

/-! ## The row of a key -/

/-- A key that is present has a first row. -/
theorem exists_append_cons_of_mem_keys {t : Table κ ν} {k : κ} (h : k ∈ keys t) :
    ∃ front v back, t = front ++ (k, v) :: back ∧ k ∉ keys front := by
  induction t with
  | nil => cases h
  | cons row t ih =>
    obtain ⟨k', v'⟩ := row
    by_cases hk : k' = k
    · subst hk
      exact ⟨[], v', t, rfl, List.not_mem_nil⟩
    · have hmem : k ∈ keys t := (List.mem_cons.1 h).resolve_left (Ne.symm hk)
      obtain ⟨front, v, back, rfl, hfront⟩ := ih hmem
      exact ⟨(k', v') :: front, v, back, rfl,
        List.not_mem_cons_of_ne_of_not_mem (Ne.symm hk) hfront⟩

section FirstRow

variable {front : Table κ ν} {k : κ} (h : k ∉ keys front)
include h

/-- The first row of a key says its value. -/
theorem get?_append_cons (v : ν) (back : Table κ ν) :
    get? (front ++ (k, v) :: back) k = some v := by
  induction front with
  | nil => simp [get?]
  | cons row front ih =>
    obtain ⟨hne, hfront⟩ := List.ne_and_not_mem_of_not_mem_cons h
    rw [List.cons_append, get?, if_neg hne.symm, ih hfront]

/-- A value is replaced in the first row of its key. -/
theorem insert_append_cons (v w : ν) (back : Table κ ν) :
    insert (front ++ (k, v) :: back) k w = front ++ (k, w) :: back := by
  induction front with
  | nil => simp [insert]
  | cons row front ih =>
    obtain ⟨hne, hfront⟩ := List.ne_and_not_mem_of_not_mem_cons h
    rw [List.cons_append, insert, if_neg hne.symm, ih hfront, List.cons_append]

end FirstRow

/-- If the keys are distinct, each row says the value of its key. -/
theorem get?_eq_some_iff {t : Table κ ν} (h : Distinct t) {k : κ} {v : ν} :
    get? t k = some v ↔ (k, v) ∈ t := by
  induction t with
  | nil => simp
  | cons row t ih =>
    obtain ⟨k', v'⟩ := row
    obtain ⟨hk', hdistinct⟩ := List.nodup_cons.1 h
    by_cases hk : k' = k
    · subst hk
      have hnot : (k', v) ∉ t := fun hmem => hk' (List.mem_map.2 ⟨_, hmem, rfl⟩)
      simp [get?, hnot, eq_comm]
    · simp [get?, hk, Ne.symm hk, ih hdistinct]

/-- The order of distinct keys does not matter for their values. -/
theorem get?_perm {t t' : Table κ ν} (h : Distinct t) (hperm : t'.Perm t) (k : κ) :
    get? t' k = get? t k := by
  have hdistinct : Distinct t' := (hperm.map Prod.fst).nodup_iff.2 h
  refine Option.ext fun v => ?_
  rw [get?_eq_some_iff hdistinct, get?_eq_some_iff h, hperm.mem_iff]

/-! ## Rows that repeat keys -/

theorem ofList_append_singleton (rows : List (κ × ν)) (row : κ × ν) :
    ofList (rows ++ [row]) = insert (ofList rows) row.1 row.2 :=
  List.foldl_append

/-- A key stands where it was inserted first. -/
theorem keys_ofList (rows : List (κ × ν)) :
    keys (ofList rows) = (rows.map Prod.fst).eraseDups := by
  induction rows using List.reverseRecOn with
  | nil => rfl
  | append_singleton rows row ih =>
    rw [ofList_append_singleton, keys_insert, ih, List.map_append, List.eraseDups_append,
      List.map_singleton]
    by_cases hmem : row.1 ∈ rows.map Prod.fst
    · rw [if_pos (List.mem_eraseDups.2 hmem), List.removeAll,
        List.filter_cons_of_neg (by simpa using hmem)]
      simp
    · rw [if_neg (fun h => hmem (List.mem_eraseDups.1 h)), List.removeAll,
        List.filter_cons_of_pos (by simpa using hmem)]
      rfl

/-- A key has the value that was inserted last. -/
theorem get?_ofList (rows : List (κ × ν)) (k : κ) :
    get? (ofList rows) k = (rows.reverse.find? (·.1 = k)).map Prod.snd := by
  induction rows using List.reverseRecOn with
  | nil => rfl
  | append_singleton rows row ih =>
    rw [ofList_append_singleton, get?_insert, ih, List.reverse_append, List.reverse_singleton,
      List.singleton_append, List.find?_cons]
    by_cases hk : row.1 = k
    · simp [hk]
    · simp [hk]

theorem distinct_ofList (rows : List (κ × ν)) : Distinct (ofList rows) := by
  induction rows using List.reverseRecOn with
  | nil => exact List.nodup_nil
  | append_singleton rows row ih =>
    rw [ofList_append_singleton]
    exact ih.insert row.1 row.2

/-- Without its repetitions a list has nothing twice. -/
theorem nodup_eraseDups (names : List κ) : names.eraseDups.Nodup := by
  have hkeys : keys (ofList (names.map fun name => (name, ()))) = names.eraseDups := by
    rw [keys_ofList, List.map_map]
    exact congrArg List.eraseDups (List.map_id names)
  rw [← hkeys]
  exact distinct_ofList _

/-- The rows of the table are those behind which no row has the same key. -/
theorem mem_ofList_iff {rows : List (κ × ν)} {row : κ × ν} : row ∈ ofList rows ↔
    ∃ before after, rows = before ++ row :: after ∧ ∀ later ∈ after, later.1 ≠ row.1 := by
  rw [← get?_eq_some_iff (distinct_ofList rows), get?_ofList, Option.map_eq_some_iff]
  constructor
  · rintro ⟨found, hfound, hvalue⟩
    obtain ⟨hkey, front, back, hrows, hfront⟩ := List.find?_eq_some_iff_append.1 hfound
    obtain rfl : found = row := Prod.ext (of_decide_eq_true hkey) hvalue
    refine ⟨back.reverse, front.reverse, ?_, fun later hlater => ?_⟩
    · rw [← List.reverse_reverse rows, hrows]
      simp
    · simpa using hfront later (List.mem_reverse.1 hlater)
  · rintro ⟨before, after, rfl, hafter⟩
    refine ⟨row, List.find?_eq_some_iff_append.2
      ⟨by simp, after.reverse, before.reverse, ?_, ?_⟩, rfl⟩
    · simp
    · intro later hlater
      simpa using hafter later (List.mem_reverse.1 hlater)

end DocFacts.Table
