import DocFacts.Comment.Scan

/-!
# Consolidation

A member inherits from its declaration.  Two annotations are passed on.  The route of the
declaration goes in front of the names of the member's routes.  The sector of the declaration
takes the place of the member's sector.  Only an annotation that occurs once at the
declaration is passed on, and a member without annotations inherits nothing.
-/

namespace DocFacts

/-- The names of the annotations that are passed on. -/
structure Rules where
  /-- The route: its `name` at the declaration goes in front of its `name` at the member. -/
  route : String := "ApiRoute"
  /-- The sector: its value at the declaration replaces those at the member. -/
  sector : String := "ApiSector"
deriving DecidableEq, Repr, Inhabited

/-- The argument that names a route. -/
def routeField : String := "name"

/-- The text of the argument that names a route, empty if there is none. -/
def Value.routeName (v : Value) : String := ((v.get? routeField).map Value.display).getD ""

/-- A route with a text in front of its name.  Only a map has a name to change. -/
def Value.prependRoute (base : String) (v : Value) : Value :=
  v.set routeField (.string (base ++ v.routeName))

/-- Pass one annotation of the declaration on to a set of the member. -/
def Rules.inherit (rules : Rules) (set : AnnotationSet) (row : String × List Value) :
    AnnotationSet :=
  match row with
  | (name, [base]) =>
    let set :=
      if name = rules.route then
        match Table.get? set name with
        | some routes => Table.insert set name (routes.map (Value.prependRoute base.routeName))
        | none => set
      else set
    if name = rules.sector then Table.insert set name [base] else set
  | _ => set

/-- The annotations of a member together with what it inherits from its declaration. -/
def consolidate (rules : Rules) (member declaration : AnnotationSet) : AnnotationSet :=
  if member.isEmpty then [] else declaration.foldl rules.inherit member

end DocFacts
