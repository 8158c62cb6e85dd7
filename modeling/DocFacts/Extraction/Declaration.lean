/-!
# Declarations

What the facts are about: declarations such as classes, and the members that they own.  Each
comes with its documentation comment, or with the empty text if it has none.
-/

namespace DocFacts

/-- A member of a declaration. -/
structure Member where
  /-- The name of the member. -/
  name : String
  /-- Its documentation comment. -/
  comment : String
deriving DecidableEq, Repr, Inhabited

/-- A declaration and its members. -/
structure Declaration where
  /-- The name of the declaration, with its namespace. -/
  name : String
  /-- Its documentation comment. -/
  comment : String
  /-- Its members in source order. -/
  members : List Member := []
deriving DecidableEq, Repr, Inhabited

end DocFacts
