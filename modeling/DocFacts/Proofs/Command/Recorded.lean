import DocFacts.Command.Run
import DocFacts.Proofs.Files.Recorded

/-!
# Runs with a record

Finding the files of inputs only looks at paths, so it gives the same in a file system that looks
the same (`resolve_gives`).  After that the files are read in order, up to the first that cannot be
read (`filesRead`).  So a run with a record leaves the same report, and the record lists the files
that it has read (`run_records`).
-/

namespace DocFacts.Command

open Files

/-! ## What inputs refer to -/

section Gives

variable {m : Type → Type} [Monad m] [LawfulMonad m] {fs : Access m} {plain : Access Id}

theorem matchingFiles_gives (h : fs.LooksLike plain) (pattern : String) :
    Gives (matchingFiles fs pattern) (matchingFiles plain pattern) := by
  rw [matchingFiles, matchingFiles]
  cases Search.read pattern with
  | error e => exact .pure _
  | ok search =>
    refine (search.run_gives h).bind fun paths =>
      .bind (.collectM (fun path => ?_) _) fun files => .pure _
    exact (h.isFile path).bind fun _ => .pure _

theorem matchingAny_gives (h : fs.LooksLike plain) (patterns : List String) :
    Gives (matchingAny fs patterns) (matchingAny plain patterns) := by
  induction patterns with
  | nil => exact .pure _
  | cons pattern patterns ih =>
    refine (matchingFiles_gives h pattern).bind fun files => ?_
    cases files with
    | error e => exact .pure _
    | ok files => exact ih.bind fun _ => .pure _

theorem Input.files_gives (h : fs.LooksLike plain) (input : Input) :
    Gives (input.files fs) (input.files plain) := by
  cases input with
  | file path => exact .pure _
  | directory path => exact matchingAny_gives h _
  | pattern text => exact matchingFiles_gives h text

theorem Input.classify_gives (h : fs.LooksLike plain) (argument : String) :
    Gives (Input.classify fs argument) (Input.classify plain argument) :=
  (h.isFile argument).bind fun _ =>
    .ite (.pure _) ((h.isDirectory argument).bind fun _ => .ite (.pure _) (.pure _))

theorem resolveFrom_gives (h : fs.LooksLike plain) (found : Resolved) (inputs : List String) :
    Gives (resolveFrom fs found inputs) (resolveFrom plain found inputs) := by
  induction inputs generalizing found with
  | nil => exact .pure _
  | cons argument inputs ih =>
    refine (Input.classify_gives h argument).bind fun input => ?_
    refine (input.files_gives h).bind fun files => ?_
    cases files with
    | error e => exact .pure _
    | ok files => exact ih _

theorem resolve_gives (h : fs.LooksLike plain) (inputs : List String) :
    Gives (resolve fs inputs) (resolve plain inputs) := resolveFrom_gives h {} inputs

end Gives

/-! ## What is read -/

/-- The files up to the first that cannot be read. -/
def filesRead (fs : Access Id) : List String → List String
  | [] => []
  | path :: rest =>
    path ::
      match (fs.read path).bind decodeText with
      | .error _ => []
      | .ok _ => filesRead fs rest

/-- The files that are read for some inputs. -/
def pathsRead (fs : Access Id) (inputs : List String) : List String :=
  if inputs.isEmpty then []
  else
    match resolve fs inputs with
    | (_, some _) => []
    | (found, none) => filesRead fs found.files

variable {fs : Access Id}

theorem readFiles_records (files : List String) :
    Records (readFiles fs.recorded files) (readFiles fs files) (filesRead fs files) := by
  induction files with
  | nil => exact .pure _
  | cons path files ih =>
    refine (fs.recorded_read path).bind ?_
    cases (fs.read path).bind decodeText with
    | error fault => exact .pure _
    | ok source => exact ih.bind_pure (.pure _)

theorem readDeclarations_records (inputs : List String) :
    Records (readDeclarations fs.recorded inputs) (readDeclarations fs inputs)
      (pathsRead fs inputs) := by
  rw [readDeclarations, readDeclarations, pathsRead]
  split
  · refine Gives.records (.bind (a := fs.readInput) rfl fun source => ?_)
    cases source.bind decodeText with
    | error fault => exact .pure _
    | ok source => exact .pure _
  · refine Records.bind (resolve_gives fs.recorded_looksLike inputs).records ?_
    cases resolve fs inputs with
    | mk found fault =>
      cases fault with
      | some e => exact .pure _
      | none => exact (readFiles_records found.files).bind_pure (.pure _)

theorem produce_records (o : Options) :
    Records (produce fs.recorded o) (produce fs o) (pathsRead fs o.inputs) := by
  refine (readDeclarations_records o.inputs).bind_pure ?_
  cases readDeclarations fs o.inputs with
  | mk events declarations =>
    cases declarations with
    | error failure => exact .pure _
    | ok declarations =>
      simp only
      cases (extractDeclarations o.rules o.skipInvalid declarations).2 with
      | error e => exact .pure _
      | ok all => exact .pure _

/-- **A record does not change a run.** -/
theorem runOptions_records (environment : Option String) (o : Options) :
    Records (runOptions fs.recorded environment o) (runOptions fs environment o)
      (pathsRead fs o.inputs) := by
  refine (produce_records o).bind_pure ?_
  cases produce fs o with
  | mk events result =>
    cases result with
    | error failure => exact .pure _
    | ok document =>
      cases o.output with
      | none => exact .pure _
      | some path =>
        simp only
        refine Gives.records (.bind (a := fs.write path document) rfl fun done => ?_)
        cases done with
        | error fault => exact .pure _
        | ok done => exact .pure _

/-- With arguments that can be read the run is that of the options. -/
theorem run_records {arguments : List String} {o : Options} (environment : Option String)
    (h : Options.read? arguments = some o) :
    Records (run fs.recorded environment arguments) (run fs environment arguments)
      (pathsRead fs o.inputs) := by
  rw [run, run, h]
  exact runOptions_records environment o

end DocFacts.Command
