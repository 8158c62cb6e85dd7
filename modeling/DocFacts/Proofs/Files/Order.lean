import DocFacts.Files.Path
import Mathlib.Data.List.Basic

/-!
# The order of paths

Paths are ordered by their parts (`compareParts_eq_compareLex`), so two paths are equal in that
order exactly if they have the same parts (`comparePaths_eq_eq_iff`).  A set of paths is ascending
(`PathSet.Ascending`), and it is known by the parts of its paths
(`PathSet.Ascending.map_parts_eq`): in what order they came to it, how often, and in which
spelling, makes no difference to them.
-/

namespace DocFacts.Files

/-! ## Parts are ordered -/

/-- The name of a part, if it is one. -/
def Part.label : Part → String
  | .name n => n
  | _ => ""

theorem Part.eq_of_rank_of_label {a b : Part} (hrank : a.rank = b.rank)
    (hlabel : a.label = b.label) : a = b := by
  cases a <;> cases b <;> simp_all [rank, label]

/-- Parts are ordered by their kinds, and by their names then. -/
theorem Part.compare_eq_compareLex :
    Part.compare = compareLex (compareOn Part.rank) (compareOn Part.label) := by
  funext a b
  cases a <;> cases b <;> rfl

instance : Std.TransCmp Part.compare := by
  rw [Part.compare_eq_compareLex]
  infer_instance

instance : Std.LawfulEqCmp Part.compare where
  eq_of_compare {a b} h := by
    rw [Part.compare_eq_compareLex] at h
    obtain ⟨hrank, hlabel⟩ := Ordering.then_eq_eq.1 h
    exact Part.eq_of_rank_of_label (Nat.compare_eq_eq.1 hrank)
      (Std.LawfulEqCmp.eq_of_compare hlabel)

/-- Lists of parts are ordered as words are. -/
theorem compareParts_eq_compareLex : compareParts = List.compareLex Part.compare := by
  funext p q
  induction p generalizing q with
  | nil =>
    cases q with
    | nil => rfl
    | cons b bs => rfl
  | cons a as ih =>
    cases q with
    | nil => rfl
    | cons b bs =>
      rw [compareParts, List.compareLex_cons_cons, ih]

instance : Std.TransCmp compareParts := by
  rw [compareParts_eq_compareLex]
  infer_instance

instance : Std.LawfulEqCmp compareParts := by
  rw [compareParts_eq_compareLex]
  infer_instance

variable {p q : String} {s t : PathSet}

instance : Std.TransCmp comparePaths where
  eq_swap {p q} := by
    rw [comparePaths, comparePaths]
    exact Std.OrientedCmp.eq_swap
  isLE_trans {p q r} hpq hqr := by
    rw [comparePaths] at *
    exact Std.TransCmp.isLE_trans hpq hqr

/-- Paths are equal in their order if they have the same parts. -/
theorem comparePaths_eq_eq_iff : comparePaths p q = .eq ↔ parts p = parts q := by
  rw [comparePaths]
  exact Std.LawfulEqCmp.compare_eq_iff_eq

/-! ## Sets of paths -/

namespace PathSet

/-- Each path comes before those behind it. -/
def Ascending (s : PathSet) : Prop := s.Pairwise fun p q => comparePaths p q = .lt

/-- What is in a set with another path is that path or has been in it. -/
theorem mem_of_mem_insert (h : q ∈ insert p s) : q = p ∨ q ∈ s := by
  induction s with
  | nil => exact .inl (List.mem_singleton.1 h)
  | cons r s ih =>
    rw [insert] at h
    split at h
    · exact List.mem_cons.1 h
    · exact .inr h
    · rcases List.mem_cons.1 h with rfl | h
      · exact .inr List.mem_cons_self
      · exact (ih h).imp_right (List.mem_cons_of_mem r)

/-- A path adds its parts to those of a set. -/
theorem mem_map_parts_insert {x : List Part} :
    x ∈ (insert p s).map parts ↔ x = parts p ∨ x ∈ s.map parts := by
  induction s with
  | nil => simp [insert]
  | cons r s ih =>
    rw [insert]
    split
    · simp
    · rename_i h
      simp [comparePaths_eq_eq_iff.1 h]
    · simp only [List.map_cons, List.mem_cons, ih]
      exact or_left_comm

/-- A path is added where it belongs. -/
theorem Ascending.insert (h : s.Ascending) (p : String) : (insert p s).Ascending := by
  induction s with
  | nil => exact List.pairwise_singleton _ _
  | cons r s ih =>
    obtain ⟨hr, hs⟩ := List.pairwise_cons.1 h
    rw [PathSet.insert]
    split
    · rename_i hlt
      refine List.pairwise_cons.2 ⟨?_, h⟩
      intro q hq
      rcases List.mem_cons.1 hq with rfl | hq
      · exact hlt
      · exact Std.TransCmp.lt_trans hlt (hr q hq)
    · exact h
    · rename_i hgt
      refine List.pairwise_cons.2 ⟨?_, ih hs⟩
      intro q hq
      rcases mem_of_mem_insert hq with rfl | hq
      · exact Std.OrientedCmp.lt_of_gt hgt
      · exact hr q hq

/-- All paths of a list are added where they belong. -/
theorem Ascending.insertAll (h : s.Ascending) (ps : List String) :
    (ps.foldl (fun set p => PathSet.insert p set) s).Ascending := by
  induction ps generalizing s with
  | nil => exact h
  | cons p ps ih => exact ih (h.insert p)

theorem mem_of_mem_insertAll {ps : List String}
    (h : q ∈ ps.foldl (fun set p => PathSet.insert p set) s) : q ∈ ps ∨ q ∈ s := by
  induction ps generalizing s with
  | nil => exact .inr h
  | cons p ps ih =>
    rcases ih h with hq | hq
    · exact .inl (List.mem_cons_of_mem p hq)
    · rcases mem_of_mem_insert hq with rfl | hq
      · exact .inl List.mem_cons_self
      · exact .inr hq

/-- The paths of a list add their parts to those of a set. -/
theorem mem_map_parts_insertAll {ps : List String} {x : List Part} :
    x ∈ (ps.foldl (fun set p => PathSet.insert p set) s).map parts ↔
      x ∈ ps.map parts ∨ x ∈ s.map parts := by
  induction ps generalizing s with
  | nil => simp
  | cons p ps ih =>
    rw [List.foldl_cons, ih, mem_map_parts_insert, List.map_cons, List.mem_cons, or_left_comm,
      or_assoc]

/-- The parts of the paths of a set are in order, too. -/
theorem Ascending.map_parts (h : s.Ascending) :
    (s.map parts).Pairwise fun x y => compareParts x y = .lt := List.pairwise_map.2 h

theorem Ascending.nodup_map_parts (h : s.Ascending) : (s.map parts).Nodup := by
  refine h.map_parts.imp ?_
  rintro x y hlt rfl
  exact Std.OrientedCmp.not_lt_of_lt hlt hlt

/-- **A set of paths is known by their parts.** -/
theorem Ascending.map_parts_eq (hs : s.Ascending) (ht : t.Ascending)
    (h : ∀ x, x ∈ s.map parts ↔ x ∈ t.map parts) : s.map parts = t.map parts := by
  have hperm := (List.perm_ext_iff_of_nodup hs.nodup_map_parts ht.nodup_map_parts).2 h
  refine hperm.eq_of_pairwise ?_ hs.map_parts ht.map_parts
  intro x y _ _ hxy hyx
  exact absurd hyx (Std.OrientedCmp.not_lt_of_lt hxy)

end PathSet

end DocFacts.Files
