import DocFacts.Extraction.Consolidation
import DocFacts.Proofs.Table
import Mathlib.Data.List.Forall2

/-!
# What a member inherits

A member inherits two annotations of its declaration and nothing else.  `Inherits` says what that
comes to: which names the result has, what becomes of the sector and of the routes, and that all
else stays.  Of the declaration it asks just which names have a single value, so the order in
which the declaration has its names does not matter.

The declaration is read row by row.  Its names are distinct, so what a name of the result has
depends on one row at most (`get?_foldl_inherit`), and the row of the sector is the only one that
can add a name (`keys_foldl_inherit`).
-/

namespace DocFacts

/-- A name has one value, which is this one. -/
def AnnotationSet.Once (set : AnnotationSet) (name : String) (v : Value) : Prop :=
  Table.get? set name = some [v]

/-! ## Names of routes -/

/-- The text of the argument that names a route. -/
inductive NameText : Value → String → Prop where
  /-- The text of the argument, if there is one. -/
  | named {fields : List (String × Value)} {v : Value}
    (h : Table.get? fields routeField = some v) : NameText (.map fields) v.display
  /-- The empty text, if there is none. -/
  | unnamed {v : Value} (h : ∀ fields, v = .map fields → routeField ∉ Table.keys fields) :
    NameText v ""

/-- A route with a text in front of its name. -/
inductive Prepended (base : String) : Value → Value → Prop where
  /-- The name is changed where it stands. -/
  | named {front back : List (String × Value)} {v : Value} (h : routeField ∉ Table.keys front) :
    Prepended base (.map (front ++ (routeField, v) :: back))
      (.map (front ++ (routeField, .string (base ++ v.display)) :: back))
  /-- A map without a name gets one behind its other arguments. -/
  | unnamed {fields : List (String × Value)} (h : routeField ∉ Table.keys fields) :
    Prepended base (.map fields) (.map (fields ++ [(routeField, .string base)]))
  /-- A value that is no map is not changed. -/
  | other {v : Value} (h : v.map? = none) : Prepended base v v

section Routes

variable {fields : List (String × Value)} {v w : Value} {base text : String}

theorem Value.routeName_of_some (h : Table.get? fields routeField = some v) :
    (Value.map fields).routeName = v.display := by
  rw [Value.routeName, Value.get?, Value.map?, Option.bind_some, h]
  rfl

theorem Value.routeName_of_none (h : Table.get? fields routeField = none) :
    (Value.map fields).routeName = "" := by
  rw [Value.routeName, Value.get?, Value.map?, Option.bind_some, h]
  rfl

theorem Value.prependRoute_map (base : String) (fields : List (String × Value)) :
    (Value.map fields).prependRoute base =
      .map (Table.insert fields routeField (.string (base ++ (Value.map fields).routeName))) :=
  rfl

theorem nameText_iff : NameText v text ↔ v.routeName = text := by
  constructor
  · intro h
    cases h with
    | named h => exact Value.routeName_of_some h
    | unnamed h =>
      cases v with
      | map fields => exact Value.routeName_of_none (Table.get?_eq_none_iff.2 (h fields rfl))
      | _ => rfl
  · rintro rfl
    cases v with
    | map fields =>
      cases hname : Table.get? fields routeField with
      | some w =>
        rw [Value.routeName_of_some hname]
        exact .named hname
      | none =>
        rw [Value.routeName_of_none hname]
        refine .unnamed ?_
        rintro _ ⟨⟩
        exact Table.get?_eq_none_iff.1 hname
    | _ => exact .unnamed nofun

theorem Value.prependRoute_append_cons {front : List (String × Value)} (h : routeField ∉ Table.keys front)
    (v : Value) (back : List (String × Value)) (base : String) :
    (Value.map (front ++ (routeField, v) :: back)).prependRoute base =
      .map (front ++ (routeField, .string (base ++ v.display)) :: back) := by
  rw [Value.prependRoute_map, Value.routeName_of_some (Table.get?_append_cons h v back),
    Table.insert_append_cons h]

theorem Value.prependRoute_of_not_mem (h : routeField ∉ Table.keys fields) (base : String) :
    (Value.map fields).prependRoute base = .map (fields ++ [(routeField, .string base)]) := by
  rw [Value.prependRoute_map, Value.routeName_of_none (Table.get?_eq_none_iff.2 h),
    Table.insert_of_not_mem h, String.append_empty]

theorem prepended_iff : Prepended base v w ↔ v.prependRoute base = w := by
  constructor
  · intro h
    cases h with
    | @named front back v h => exact Value.prependRoute_append_cons h v back base
    | unnamed h => exact Value.prependRoute_of_not_mem h base
    | other h =>
      cases v with
      | map fields => cases h
      | _ => rfl
  · rintro rfl
    cases v with
    | map fields =>
      by_cases hmem : routeField ∈ Table.keys fields
      · obtain ⟨front, v, back, rfl, hfront⟩ := Table.exists_append_cons_of_mem_keys hmem
        rw [Value.prependRoute_append_cons hfront]
        exact .named hfront
      · rw [Value.prependRoute_of_not_mem hmem]
        exact .unnamed hmem
    | _ => exact .other rfl

/-- All routes of a name with a text in front of their names. -/
theorem forall₂_prepended_iff {values values' : List Value} :
    List.Forall₂ (Prepended base) values values' ↔
      values.map (Value.prependRoute base) = values' := by
  have hrelation : Prepended base = fun v w => v.prependRoute base = w := by
    funext v w
    exact propext prepended_iff
  rw [hrelation, ← List.forall₂_map_left_iff, List.forall₂_eq_eq_eq]

end Routes

/-! ## Reading the declaration -/

namespace Rules

variable (rules : Rules)

/-- What a name has that has these values of its own and those from the declaration. -/
def merge (name : String) (given own : Option (List Value)) : Option (List Value) :=
  match given with
  | some [base] =>
    if name = rules.sector then some [base]
    else if name = rules.route then own.map (List.map (Value.prependRoute base.routeName))
    else own
  | _ => own

/-- The names of a member whose declaration has these values of the sector. -/
def joined (given : Option (List Value)) (names : List String) : List String :=
  match given with
  | some [_] => if rules.sector ∈ names then names else names ++ [rules.sector]
  | _ => names

theorem get?_inherit (set : AnnotationSet) (name : String) (values : List Value) (k : String) :
    Table.get? (rules.inherit set (name, values)) k =
      if name = k then rules.merge k (some values) (Table.get? set k) else Table.get? set k := by
  match values with
  | [] => simp [inherit, merge]
  | [base] =>
    rw [inherit, merge]
    cases hroute : Table.get? set name with
    | none => grind [Table.get?_insert]
    | some routes => grind [Table.get?_insert]
  | _ :: _ :: _ => simp [inherit, merge]

theorem keys_inherit (set : AnnotationSet) (name : String) (values : List Value) :
    Table.keys (rules.inherit set (name, values)) =
      if name = rules.sector then rules.joined (some values) (Table.keys set)
      else Table.keys set := by
  match values with
  | [] => simp [inherit, joined]
  | [base] =>
    rw [inherit, joined]
    cases hroute : Table.get? set name with
    | none => grind [Table.keys_insert]
    | some routes =>
      have hmem : name ∈ Table.keys set := by
        by_contra hnot
        rw [Table.get?_eq_none_iff.2 hnot] at hroute
        cases hroute
      grind [Table.keys_insert]
  | _ :: _ :: _ => simp [inherit, joined]

variable {declaration : AnnotationSet}

/-- The values of a name depend on the row of that name alone. -/
theorem get?_foldl_inherit (h : Table.Distinct declaration) (set : AnnotationSet) (k : String) :
    Table.get? (declaration.foldl rules.inherit set) k =
      rules.merge k (Table.get? declaration k) (Table.get? set k) := by
  induction declaration generalizing set with
  | nil => rfl
  | cons row declaration ih =>
    obtain ⟨name, values⟩ := row
    obtain ⟨hname, hdistinct⟩ := List.nodup_cons.1 h
    rw [List.foldl_cons, ih hdistinct, get?_inherit, Table.get?]
    by_cases hk : name = k
    · subst hk
      rw [if_pos rfl, if_pos rfl, Table.get?_eq_none_iff.2 hname]
      rfl
    · rw [if_neg hk, if_neg hk]

/-- The names depend on the row of the sector alone. -/
theorem keys_foldl_inherit (h : Table.Distinct declaration) (set : AnnotationSet) :
    Table.keys (declaration.foldl rules.inherit set) =
      rules.joined (Table.get? declaration rules.sector) (Table.keys set) := by
  induction declaration generalizing set with
  | nil => rfl
  | cons row declaration ih =>
    obtain ⟨name, values⟩ := row
    obtain ⟨hname, hdistinct⟩ := List.nodup_cons.1 h
    rw [List.foldl_cons, ih hdistinct, keys_inherit, Table.get?]
    by_cases hsector : name = rules.sector
    · rw [if_pos hsector, if_pos hsector, Table.get?_eq_none_iff.2 (hsector ▸ hname)]
      rfl
    · rw [if_neg hsector, if_neg hsector]

/-! ## What is inherited -/

variable {rules}

theorem merge_of_not_once {name : String} {own : Option (List Value)}
    (h : ∀ base, ¬ declaration.Once name base) :
    rules.merge name (Table.get? declaration name) own = own := by
  rw [merge]
  exact h

theorem joined_of_not_once {names : List String}
    (h : ∀ base, ¬ declaration.Once rules.sector base) :
    rules.joined (Table.get? declaration rules.sector) names = names := by
  rw [joined]
  exact h

theorem joined_of_mem {names : List String} (h : rules.sector ∈ names)
    (given : Option (List Value)) : rules.joined given names = names := by
  unfold joined
  split
  · exact if_pos h
  · rfl

end Rules

/-- A set is that of a member with what it inherits from its declaration. -/
structure Inherits (rules : Rules) (member declaration merged : AnnotationSet) : Prop where
  /-- A sector that the declaration has once joins the names of the member. -/
  keys_of_once : ∀ base, declaration.Once rules.sector base → rules.sector ∉ Table.keys member →
    Table.keys merged = Table.keys member ++ [rules.sector]
  /-- Otherwise the names stay. -/
  keys_eq : (∀ base, declaration.Once rules.sector base → rules.sector ∈ Table.keys member) →
    Table.keys merged = Table.keys member
  /-- A sector that the declaration has once takes the place of that of the member. -/
  sector : ∀ base, declaration.Once rules.sector base → merged.Once rules.sector base
  /-- A route that the declaration has once goes in front of the routes of the member. -/
  routes : ∀ base text values, rules.route ≠ rules.sector → declaration.Once rules.route base →
    NameText base text → Table.get? member rules.route = some values →
    ∃ values', Table.get? merged rules.route = some values' ∧
      List.Forall₂ (Prepended text) values values'
  /-- All other names have what the member has. -/
  others : ∀ name,
    (∀ base, declaration.Once name base → name ≠ rules.sector ∧ name ≠ rules.route) →
    Table.get? merged name = Table.get? member name

section Inherits

variable {rules : Rules} {member declaration declaration' merged : AnnotationSet}

theorem inherits_foldl (h : Table.Distinct declaration) :
    Inherits rules member declaration (declaration.foldl rules.inherit member) where
  keys_of_once := by
    intro base hbase hmem
    rw [Rules.keys_foldl_inherit rules h, hbase, Rules.joined, if_neg hmem]
  keys_eq := by
    intro hsector
    rw [Rules.keys_foldl_inherit rules h]
    by_cases hmem : rules.sector ∈ Table.keys member
    · exact Rules.joined_of_mem hmem _
    · exact Rules.joined_of_not_once fun base hbase => hmem (hsector base hbase)
  sector := by
    intro base hbase
    rw [AnnotationSet.Once, Rules.get?_foldl_inherit rules h, hbase, Rules.merge, if_pos rfl]
  routes := by
    intro base text values hne hbase htext hvalues
    rw [nameText_iff] at htext
    refine ⟨_, ?_, forall₂_prepended_iff.2 rfl⟩
    rw [Rules.get?_foldl_inherit rules h, hbase, Rules.merge, if_neg hne, if_pos rfl, hvalues,
      htext]
    rfl
  others := by
    intro name hother
    rw [Rules.get?_foldl_inherit rules h]
    by_cases honce : ∃ base, declaration.Once name base
    · obtain ⟨base, hbase⟩ := honce
      obtain ⟨hsector, hroute⟩ := hother base hbase
      rw [hbase, Rules.merge, if_neg hsector, if_neg hroute]
    · exact Rules.merge_of_not_once (not_exists.1 honce)

namespace Inherits

/-- The names with single values are all that is asked of a declaration. -/
theorem of_once_iff (h : Inherits rules member declaration merged)
    (honce : ∀ name base, declaration'.Once name base ↔ declaration.Once name base) :
    Inherits rules member declaration' merged := by
  obtain ⟨hjoined, hkeys, hsector, hroutes, hothers⟩ := h
  constructor <;> simpa only [honce]

/-- The sector joins the names, or they stay. -/
theorem keys_cases (h : Inherits rules member declaration merged) :
    ((∃ base, declaration.Once rules.sector base) ∧ rules.sector ∉ Table.keys member ∧
        Table.keys merged = Table.keys member ++ [rules.sector]) ∨
      ((∀ base, declaration.Once rules.sector base → rules.sector ∈ Table.keys member) ∧
        Table.keys merged = Table.keys member) := by
  by_cases hmem : rules.sector ∈ Table.keys member
  · exact .inr ⟨fun _ _ => hmem, h.keys_eq fun _ _ => hmem⟩
  · by_cases honce : ∃ base, declaration.Once rules.sector base
    · obtain ⟨base, hbase⟩ := honce
      exact .inl ⟨⟨base, hbase⟩, hmem, h.keys_of_once base hbase hmem⟩
    · have hnot : ∀ base, declaration.Once rules.sector base → rules.sector ∈ Table.keys member :=
        fun base hbase => absurd ⟨base, hbase⟩ honce
      exact .inr ⟨hnot, h.keys_eq hnot⟩

theorem keys_unique {merged' : AnnotationSet} (h : Inherits rules member declaration merged)
    (h' : Inherits rules member declaration merged') :
    Table.keys merged' = Table.keys merged := by
  rcases h.keys_cases with ⟨⟨base, hbase⟩, hmem, hkeys⟩ | ⟨hnot, hkeys⟩
  · rw [hkeys, h'.keys_of_once base hbase hmem]
  · rw [hkeys, h'.keys_eq hnot]

theorem distinct (h : Inherits rules member declaration merged)
    (hmember : Table.Distinct member) : Table.Distinct merged := by
  rw [Table.Distinct]
  rcases h.keys_cases with ⟨-, hmem, hkeys⟩ | ⟨-, hkeys⟩
  · have hinsert := hmember.insert rules.sector []
    rwa [Table.Distinct, Table.keys_insert, if_neg hmem, ← hkeys] at hinsert
  · rw [hkeys]
    exact hmember

theorem mem_keys (h : Inherits rules member declaration merged) {name : String}
    (hname : name ∈ Table.keys merged) (hne : name ≠ rules.sector) :
    name ∈ Table.keys member := by
  rcases h.keys_cases with ⟨-, -, hkeys⟩ | ⟨-, hkeys⟩
  · rw [hkeys, List.mem_append, List.mem_singleton] at hname
    exact hname.resolve_right hne
  · rwa [hkeys] at hname

/-- Nothing is left open about the values. -/
theorem get?_unique {merged' : AnnotationSet} (h : Inherits rules member declaration merged)
    (h' : Inherits rules member declaration merged') {name : String}
    (hname : name ∈ Table.keys merged) : Table.get? merged name = Table.get? merged' name := by
  by_cases hother : ∀ base, declaration.Once name base →
      name ≠ rules.sector ∧ name ≠ rules.route
  · rw [h.others name hother, h'.others name hother]
  · push Not at hother
    obtain ⟨base, hbase, hroute⟩ := hother
    by_cases hsector : name = rules.sector
    · subst hsector
      exact (h.sector base hbase).trans (h'.sector base hbase).symm
    · obtain rfl := hroute hsector
      have hmem := h.mem_keys hname hsector
      obtain ⟨values, hvalues⟩ := Option.ne_none_iff_exists'.1
        fun hnone => Table.get?_eq_none_iff.1 hnone hmem
      have htext : NameText base base.routeName := nameText_iff.2 rfl
      obtain ⟨routes, hget, hroutes⟩ := h.routes base _ values hsector hbase htext hvalues
      obtain ⟨routes', hget', hroutes'⟩ := h'.routes base _ values hsector hbase htext hvalues
      rw [hget, hget', ← forall₂_prepended_iff.1 hroutes, ← forall₂_prepended_iff.1 hroutes']

theorem unique {merged' : AnnotationSet} (hmember : Table.Distinct member)
    (h : Inherits rules member declaration merged)
    (h' : Inherits rules member declaration merged') : merged = merged' :=
  Table.eq_of_get?_eq (h.distinct hmember) (h'.keys_unique h) fun _ => h.get?_unique h'

end Inherits

/-- **What is inherited.**  A member without annotations inherits nothing.  Any other has itself and
what it inherits from its declaration, and nothing else, in whatever order the declaration has its
names. -/
theorem eq_consolidate_iff_inherits (rules : Rules) (hmember : Table.Distinct member)
    (hdeclaration : Table.Distinct declaration) :
    consolidate rules [] declaration = [] ∧
      (member ≠ [] → ∀ merged,
        merged = consolidate rules member declaration ↔
          Inherits rules member declaration merged) ∧
      ∀ declaration', declaration'.Perm declaration →
        consolidate rules member declaration' = consolidate rules member declaration := by
  have hconsolidate (hne : member ≠ []) (declaration : AnnotationSet) :
      consolidate rules member declaration = declaration.foldl rules.inherit member := by
    rw [consolidate, if_neg (by simpa using hne)]
  refine ⟨rfl, fun hne merged => ?_, fun declaration' hperm => ?_⟩
  · rw [hconsolidate hne]
    constructor
    · rintro rfl
      exact inherits_foldl hdeclaration
    · exact fun h => h.unique hmember (inherits_foldl hdeclaration)
  · by_cases hempty : member = []
    · rw [hempty]
      rfl
    · have hdistinct : Table.Distinct declaration' :=
        (hperm.map Prod.fst).nodup_iff.2 hdeclaration
      have honce (name : String) (base : Value) :
          declaration.Once name base ↔ declaration'.Once name base := by
        rw [AnnotationSet.Once, AnnotationSet.Once, Table.get?_perm hdeclaration hperm]
      rw [hconsolidate hempty, hconsolidate hempty]
      exact ((inherits_foldl hdistinct).of_once_iff honce).unique hmember
        (inherits_foldl hdeclaration)

end Inherits

/-- A member with a route of each kind: with a name that is a number, without a name, and no map. -/
def sampleMember : AnnotationSet :=
  [("ApiRoute", [.map [("name", .int 5), ("id", .int 1)], .map [("id", .int 2)], .string "/x"]),
    ("ApiMethod", [.string "get"])]

/-- A declaration with a sector and a route, and a name that occurs twice. -/
def sampleBase : AnnotationSet :=
  [("ApiSector", [.string "Users"]), ("ApiMethod", [.bool true, .bool false]),
    ("ApiRoute", [.map [("name", .string "/v")]])]

theorem inherits_sampleMember :
    Table.Distinct sampleMember ∧ Table.Distinct sampleBase ∧ sampleMember ≠ [] ∧
      Inherits {} sampleMember sampleBase
        [("ApiRoute", [.map [("name", .string "/v5"), ("id", .int 1)],
            .map [("id", .int 2), ("name", .string "/v")], .string "/x"]),
          ("ApiMethod", [.string "get"]), ("ApiSector", [.string "Users"])] ∧
      sampleBase.reverse.Perm sampleBase ∧
      consolidate {} sampleMember sampleBase.reverse = consolidate {} sampleMember sampleBase :=
  have hmember : Table.Distinct sampleMember := by decide
  have hbase : Table.Distinct sampleBase := by decide
  have hne : sampleMember ≠ [] := by decide
  have hperm : sampleBase.reverse.Perm sampleBase := List.reverse_perm sampleBase
  have h := eq_consolidate_iff_inherits {} hmember hbase
  ⟨hmember, hbase, hne, (h.2.1 hne _).1 (by decide +kernel), hperm, h.2.2 _ hperm⟩

end DocFacts
