/-!
# Access to files

What the command needs of a file system.  A record of operations stands for it, so that the
command runs the same on the real one and on a tree in memory.
-/

namespace DocFacts.Files

/-- Why a file operation fails. -/
inductive Fault where
  /-- There is no such file. -/
  | missing
  /-- The path leads to a directory. -/
  | isDirectory
  /-- The path goes through something that is no directory. -/
  | notDirectory
  /-- The content is not text. -/
  | notText
  /-- Any other cause, in the words of the system. -/
  | other (text : String)
deriving DecidableEq, Repr

/-- The text of a fault. -/
def Fault.message : Fault → String
  | .missing => "No such file or directory (os error 2)"
  | .isDirectory => "Is a directory (os error 21)"
  | .notDirectory => "Not a directory (os error 20)"
  | .notText => "stream did not contain valid UTF-8"
  | .other text => text

/-- The operations of a file system. -/
structure Access (m : Type → Type) where
  /-- The path leads to a file. -/
  isFile : String → m Bool
  /-- The path leads to a directory. -/
  isDirectory : String → m Bool
  /-- The path leads to anything. -/
  isPresent : String → m Bool
  /-- The names in a directory.  There are none in one that cannot be read. -/
  children : String → m (List String)
  /-- The content of a file. -/
  read : String → m (Except Fault ByteArray)
  /-- The content of the standard input. -/
  readInput : m (Except Fault ByteArray)
  /-- Replace the content of a file, or create it. -/
  write : String → String → m (Except Fault Unit)

/-- The text with the given bytes. -/
def decodeText (bytes : ByteArray) : Except Fault String :=
  match String.fromUTF8? bytes with
  | some text => .ok text
  | none => .error .notText

end DocFacts.Files
