import DocFacts.Comment.Scan
import DocFacts.Proofs.Table

/-!
# Values grouped by name

A scan adds values one by one.  The table that it has built from some names and values is told
here at once: the names in the order in which they are first seen, each with its values
(`AnnotationSet.grouped`).  `addOccurrences_eq_grouped` and `addOccurrences_eq_error` say what
adding occurrences comes to when all bodies can be parsed, and when one cannot.
-/

namespace DocFacts

namespace AnnotationSet

/-- The values of a name, in order. -/
def valuesOf (pairs : List (String × Value)) (name : String) : List Value :=
  (pairs.filter fun pair => pair.1 = name).map Prod.snd

/-- The names in the order in which they are first seen, each with its values in order. -/
def grouped (pairs : List (String × Value)) : AnnotationSet :=
  (pairs.map Prod.fst).eraseDups.map fun name => (name, valuesOf pairs name)

theorem keys_grouped (pairs : List (String × Value)) :
    Table.keys (grouped pairs) = (pairs.map Prod.fst).eraseDups := by
  simp [Table.keys, grouped, Function.comp_def]

theorem get?_grouped {pairs : List (String × Value)} {name : String}
    (h : name ∈ pairs.map Prod.fst) :
    Table.get? (grouped pairs) name = some (valuesOf pairs name) :=
  Table.get?_map_of_mem (List.mem_eraseDups.2 h) _

theorem valuesOf_append (pairs pairs' : List (String × Value)) (name : String) :
    valuesOf (pairs ++ pairs') name = valuesOf pairs name ++ valuesOf pairs' name := by
  simp [valuesOf]

theorem valuesOf_of_not_mem {pairs : List (String × Value)} {name : String}
    (h : name ∉ pairs.map Prod.fst) : valuesOf pairs name = [] := by
  have hnone : (pairs.filter fun pair => pair.1 = name) = [] := by
    rw [List.filter_eq_nil_iff]
    intro pair hpair hname
    exact h (List.mem_map.2 ⟨pair, hpair, by simpa using hname⟩)
  rw [valuesOf, hnone, List.map_nil]

theorem getD_get?_grouped (pairs : List (String × Value)) (name : String) :
    (Table.get? (grouped pairs) name).getD [] = valuesOf pairs name := by
  by_cases h : name ∈ pairs.map Prod.fst
  · rw [get?_grouped h, Option.getD_some]
  · have hkey : name ∉ Table.keys (grouped pairs) := by
      rw [keys_grouped, List.mem_eraseDups]
      exact h
    rw [Table.get?_eq_none_iff.2 hkey, Option.getD_none, valuesOf_of_not_mem h]

/-- A value added behind the others is that of one more pair. -/
theorem add_grouped {pairs : List (String × Value)} (h : Table.Distinct (grouped pairs))
    (name : String) (v : Value) : (grouped pairs).add name v = grouped (pairs ++ [(name, v)]) := by
  have hkeys : Table.keys ((grouped pairs).add name v) =
      Table.keys (grouped (pairs ++ [(name, v)])) := by
    rw [add, Table.keys_insert, keys_grouped, keys_grouped, List.map_append, List.eraseDups_append]
    by_cases hname : name ∈ pairs.map Prod.fst
    · simp [List.removeAll, hname]
    · simp [List.removeAll, hname, List.eraseDups_cons]
  refine Table.eq_of_get?_eq (Table.Distinct.insert h name _) hkeys fun k hk => ?_
  have hmem : k ∈ (pairs ++ [(name, v)]).map Prod.fst := by
    rw [hkeys, keys_grouped, List.mem_eraseDups] at hk
    exact hk
  rw [get?_grouped hmem, valuesOf_append, add, Table.get?_insert, getD_get?_grouped]
  by_cases hname : name = k
  · subst hname
    simp [valuesOf]
  · have hold : k ∈ pairs.map Prod.fst := by simpa [Ne.symm hname] using hmem
    simp [valuesOf, hname, get?_grouped hold]

/-- The names of more pairs are distinct as well. -/
theorem distinct_grouped_append {front : List (String × Value)}
    (h : Table.Distinct (grouped front)) (pairs : List (String × Value)) :
    Table.Distinct (grouped (front ++ pairs)) := by
  induction pairs generalizing front with
  | nil => rwa [List.append_nil]
  | cons pair pairs ih =>
    have hnext : Table.Distinct (grouped (front ++ [pair])) := by
      rw [← add_grouped h pair.1 pair.2]
      exact Table.Distinct.insert h _ _
    simpa using ih hnext

theorem distinct_nil : Table.Distinct (grouped []) := List.nodup_nil

theorem distinct_grouped (pairs : List (String × Value)) : Table.Distinct (grouped pairs) := by
  simpa using distinct_grouped_append distinct_nil pairs

/-- A name that is seen has a value. -/
theorem valuesOf_ne_nil {pairs : List (String × Value)} {name : String}
    (h : name ∈ pairs.map Prod.fst) : valuesOf pairs name ≠ [] := by
  obtain ⟨pair, hpair, rfl⟩ := List.mem_map.1 h
  exact List.ne_nil_of_mem
    (List.mem_map_of_mem (List.mem_filter.2 ⟨hpair, decide_eq_true rfl⟩))

end AnnotationSet

/-- Adding occurrences that have values goes on with the table of their names and values. -/
theorem addOccurrences_eq_grouped {front pairs : List (String × Value)} {os : List Occurrence}
    (h : Table.Distinct (AnnotationSet.grouped front))
    (hos : os.map (fun o => (String.ofList o.name, o.value)) =
      pairs.map fun pair => (pair.1, .ok pair.2)) :
    addOccurrences (AnnotationSet.grouped front) os =
      .ok (AnnotationSet.grouped (front ++ pairs)) := by
  induction os generalizing front pairs with
  | nil =>
    have hpairs : pairs = [] := List.map_eq_nil_iff.1 hos.symm
    rw [hpairs, List.append_nil, addOccurrences]
  | cons o os ih =>
    cases pairs with
    | nil => cases hos
    | cons pair pairs =>
      obtain ⟨hpair, hos⟩ := List.cons.inj hos
      obtain ⟨hname, hvalue⟩ := Prod.mk.inj hpair
      have hnext := AnnotationSet.distinct_grouped_append h [pair]
      simp only [addOccurrences, hvalue]
      rw [hname, AnnotationSet.add_grouped h, ih hnext hos, List.append_assoc,
        List.singleton_append]

/-- Adding occurrences ends at the first that has no value. -/
theorem addOccurrences_eq_error {front back : List Occurrence} {o : Occurrence} {e : ScanError}
    (hfront : ∀ u ∈ front, u.value.isOk = true) (he : o.value = .error e) (set : AnnotationSet) :
    addOccurrences set (front ++ o :: back) = .error e := by
  induction front generalizing set with
  | nil => rw [List.nil_append, addOccurrences, he]
  | cons u front ih =>
    obtain ⟨hu, hfront⟩ := List.forall_mem_cons.1 hfront
    rw [List.cons_append, addOccurrences]
    cases hvalue : u.value with
    | error e' =>
      rw [hvalue] at hu
      cases hu
    | ok v => exact ih hfront _

end DocFacts
