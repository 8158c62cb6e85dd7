import DocFacts.Command.Run

/-!
# The program

Connects the command to the real file system and streams.
-/

namespace DocFacts

open Files

/-- The fault that an error of the system stands for. -/
def faultOf (e : IO.Error) : Fault :=
  match e with
  | .noFileOrDirectory .. => .missing
  | .inappropriateType .. => .notDirectory
  | e => .other (toString e)

/-- The result of an operation of the system. -/
def attempt {α : Type} (operation : IO α) : IO (Except Fault α) := do
  match ← operation.toBaseIO with
  | .ok a => return .ok a
  | .error e => return .error (faultOf e)

/-- The kind of what a path leads to, if it leads to anything. -/
def kindOf (path : String) : IO (Option IO.FS.FileType) := do
  if path = "" then return none
  match ← attempt ((← IO.currentDir) / path).metadata with
  | .ok metadata => return some metadata.type
  | .error _ => return none

/-- The operations of the real file system. -/
def system : Access IO where
  isFile path := return (← kindOf path) == some .file
  isDirectory path := return (← kindOf path) == some .dir
  isPresent path := return (← kindOf path).isSome
  children path := do
    match ← attempt ((← IO.currentDir) / path).readDir with
    | .ok entries => return entries.toList.map (·.fileName)
    | .error _ => return []
  read path := attempt (IO.FS.readBinFile path)
  readInput := do
    let input ← IO.getStdin
    attempt input.readBinToEnd
  write path content := do
    if (← kindOf path) == some .dir then return .error .isDirectory
    else attempt (IO.FS.writeFile path content)

end DocFacts

/-- Run the command with the arguments of the program. -/
def main (arguments : List String) : IO UInt32 := do
  let report ← DocFacts.Command.run DocFacts.system (← IO.getEnv "RUST_LOG") arguments
  (← IO.getStderr).putStr report.stderr
  (← IO.getStdout).putStr report.stdout
  return report.code.toUInt32
