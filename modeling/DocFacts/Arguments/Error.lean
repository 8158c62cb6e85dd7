/-!
# Why a body cannot be read

The causes for which the arguments of an occurrence are refused, and their texts.
-/

namespace DocFacts

/-- A cause for which an argument body is refused. -/
inductive ParseError where
  /-- The quotation mark at `offset` is never closed. -/
  | unterminatedQuote (offset : Nat)
  /-- A closed string or composite is followed by something other than a comma.  `near` is the
  text up to and with that character, ten characters at most. -/
  | missingComma (near : String)
  /-- An opening brace is never closed.  `near` is the text behind it. -/
  | unterminatedComposite (near : String)
deriving DecidableEq, Repr

/-- The text of a cause. -/
def ParseError.message : ParseError → String
  | .unterminatedQuote offset => "unterminated quote opened at offset " ++ toString offset
  | .missingComma near => "missing comma separator near: ..." ++ near ++ "<--"
  | .unterminatedComposite near =>
    "composite value is not enclosed correctly near: ..." ++ near

end DocFacts
