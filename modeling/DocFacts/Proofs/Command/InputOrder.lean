import DocFacts.Proofs.Command.Recorded

/-!
# The order of the inputs

The files of the inputs are a set: whatever the order of the inputs, and however often one is
given, the set has the same paths (`IsSetOf.map_parts_eq`).  Only their spelling may differ, and
that makes no difference to what the files contain.  A pattern that cannot be read ends the run
before any file is read, wherever it stands.  So two runs with the same set of inputs leave the
same result (`run_same_inputs`).

What a run makes of the files that it reads is a function of their contents (`declarationsIn`,
`countRead`).  So it is enough that the contents are the same.
-/

namespace DocFacts.Command

open Files

variable {fs : Access Id}

/-! ## The files of inputs -/

/-- The files of an input. -/
def filesOf (fs : Access Id) (argument : String) : Except BadPattern (List String) :=
  ((Input.classify fs argument).run.files fs).run

/-- All paths that are found lead to files. -/
def AllFiles (fs : Access Id) (result : Except BadPattern (List String)) : Prop :=
  ∀ files, result = .ok files → ∀ path ∈ files, fs.isFile path = true

theorem mem_collectM {α β : Type} {f : α → Id (List β)} {as : List α} {b : β} :
    b ∈ (collectM f as).run ↔ ∃ a ∈ as, b ∈ (f a).run := by
  induction as with
  | nil => simp [collectM]
  | cons a as ih => simp [collectM, ih]

theorem allFiles_matchingFiles (pattern : String) :
    AllFiles fs (matchingFiles fs pattern).run := by
  intro files hfiles path hpath
  rw [matchingFiles] at hfiles
  cases hsearch : Search.read pattern with
  | error e =>
    rw [hsearch] at hfiles
    cases hfiles
  | ok search =>
    rw [hsearch] at hfiles
    cases hfiles
    obtain ⟨found, -, hmem⟩ := mem_collectM.1 hpath
    obtain ⟨hfile, rfl⟩ : (fs.isFile found).run = true ∧ path = found := by simpa using hmem
    exact hfile

theorem matchingAny_cons (pattern : String) (patterns : List String) :
    (matchingAny fs (pattern :: patterns)).run =
      match (matchingFiles fs pattern).run with
      | .error e => .error e
      | .ok front => (matchingAny fs patterns).run.map (front ++ ·) := by
  rw [matchingAny, Id.run_bind]
  cases (matchingFiles fs pattern).run <;> rfl

theorem allFiles_matchingAny (patterns : List String) :
    AllFiles fs (matchingAny fs patterns).run := by
  induction patterns with
  | nil =>
    rintro files ⟨⟩ path hpath
    cases hpath
  | cons pattern patterns ih =>
    intro files hfiles path hpath
    rw [matchingAny_cons] at hfiles
    cases hfront : (matchingFiles fs pattern).run with
    | error e =>
      rw [hfront] at hfiles
      cases hfiles
    | ok front =>
      cases hback : (matchingAny fs patterns).run with
      | error e =>
        rw [hfront, hback] at hfiles
        cases hfiles
      | ok back =>
        rw [hfront, hback] at hfiles
        cases hfiles
        rcases List.mem_append.1 hpath with hpath | hpath
        · exact allFiles_matchingFiles pattern front hfront path hpath
        · exact ih back hback path hpath

theorem isFile_of_classify {argument path : String}
    (h : (Input.classify fs argument).run = .file path) : fs.isFile path = true := by
  rw [Input.classify, Id.run_bind] at h
  split at h
  · rename_i hfile
    cases h
    exact hfile
  · rw [Id.run_bind] at h
    split at h <;> cases h

theorem allFiles_filesOf (argument : String) : AllFiles fs (filesOf fs argument) := by
  rw [filesOf]
  cases hinput : (Input.classify fs argument).run with
  | file path =>
    rintro files ⟨⟩ q hq
    rw [List.mem_singleton.1 hq]
    exact isFile_of_classify hinput
  | directory path => exact allFiles_matchingAny _
  | pattern text => exact allFiles_matchingFiles text

/-- The set of the files of all inputs. -/
structure IsSetOf (fs : Access Id) (inputs : List String) (files : PathSet) : Prop where
  /-- It is in order. -/
  ascending : files.Ascending
  /-- All its paths lead to files. -/
  isFile : ∀ path ∈ files, fs.isFile path = true
  /-- Its paths are those of the inputs, in some spelling. -/
  mem_parts : ∀ x, x ∈ files.map parts ↔
    ∃ argument ∈ inputs, ∃ found, filesOf fs argument = .ok found ∧ x ∈ found.map parts

theorem isSetOf_empty : IsSetOf fs [] ({} : Resolved).files := ⟨List.Pairwise.nil, by simp, by simp⟩

/-- The files of one more input. -/
theorem IsSetOf.add {inputs : List String} {files : PathSet} {argument : String}
    {found : List String} (h : IsSetOf fs inputs files) (hfound : filesOf fs argument = .ok found) :
    IsSetOf fs (inputs ++ [argument]) (found.foldl (fun set path => set.insert path) files) := by
  refine ⟨h.ascending.insertAll found, ?_, ?_⟩
  · intro path hpath
    rcases PathSet.mem_of_mem_insertAll hpath with hpath | hpath
    · exact allFiles_filesOf argument found hfound path hpath
    · exact h.isFile path hpath
  · intro x
    rw [PathSet.mem_map_parts_insertAll, h.mem_parts]
    simp [or_and_right, exists_or, hfound, or_comm]

theorem resolveFrom_cons (found : Resolved) (argument : String) (inputs : List String) :
    resolveFrom fs found (argument :: inputs) =
      match filesOf fs argument with
      | .error e => (found, some e)
      | .ok files =>
        resolveFrom fs
          { files := files.foldl (fun set path => set.insert path) found.files
            empty := if files.isEmpty then found.empty ++ [argument] else found.empty }
          inputs := rfl

/-- If all inputs can be read, the search ends with the set of their files. -/
theorem resolveFrom_of_ok {before inputs : List String} {found : Resolved}
    (h : IsSetOf fs before found.files)
    (hinputs : ∀ argument ∈ inputs, ∃ files, filesOf fs argument = .ok files) :
    ∃ found', resolveFrom fs found inputs = (found', none) ∧
      IsSetOf fs (before ++ inputs) found'.files := by
  induction inputs generalizing before found with
  | nil => exact ⟨found, rfl, by simpa using h⟩
  | cons argument inputs ih =>
    obtain ⟨⟨files, hfiles⟩, hinputs⟩ := List.forall_mem_cons.1 hinputs
    rw [resolveFrom_cons, hfiles, List.append_cons before argument inputs]
    exact ih (h.add hfiles) hinputs

theorem resolve_of_ok {inputs : List String}
    (h : ∀ argument ∈ inputs, ∃ files, filesOf fs argument = .ok files) :
    ∃ found, resolve fs inputs = (found, none) ∧ IsSetOf fs inputs found.files := by
  obtain ⟨found, hfound, hset⟩ := resolveFrom_of_ok isSetOf_empty h
  exact ⟨found, hfound, hset⟩

/-- An input that cannot be read ends the search. -/
theorem resolveFrom_of_error {inputs : List String} {argument : String} {e : BadPattern}
    (hmem : argument ∈ inputs) (h : filesOf fs argument = .error e) (found : Resolved) :
    ∃ found' e', resolveFrom fs found inputs = (found', some e') := by
  induction inputs generalizing found with
  | nil => cases hmem
  | cons first inputs ih =>
    rw [resolveFrom_cons]
    cases hfirst : filesOf fs first with
    | error e' => exact ⟨found, e', rfl⟩
    | ok files =>
      rcases List.mem_cons.1 hmem with rfl | hmem
      · rw [h] at hfirst
        cases hfirst
      · exact ih hmem _

/-! ## Two runs -/

variable {inputs inputs' : List String} {files files' : PathSet}

theorem IsSetOf.congr (h : IsSetOf fs inputs files)
    (hinputs : ∀ argument, argument ∈ inputs ↔ argument ∈ inputs') : IsSetOf fs inputs' files :=
  ⟨h.ascending, h.isFile, fun x => by simp only [h.mem_parts, hinputs]⟩

/-- Inputs have one set of files, up to the spelling of its paths. -/
theorem IsSetOf.map_parts_eq (h : IsSetOf fs inputs files) (h' : IsSetOf fs inputs files') :
    files.map parts = files'.map parts :=
  h.ascending.map_parts_eq h'.ascending fun x => by rw [h.mem_parts, h'.mem_parts]

/-- How many files are read: those up to the first that cannot be read. -/
def countRead : List (Except Fault ByteArray) → Nat
  | [] => 0
  | content :: rest =>
    match content.bind decodeText with
    | .error _ => 1
    | .ok _ => countRead rest + 1

theorem filesRead_eq_take (files : List String) :
    filesRead fs files = files.take (countRead (files.map fs.read)) := by
  induction files with
  | nil => rfl
  | cons path files ih =>
    rw [filesRead, List.map_cons, countRead]
    cases (fs.read path).bind decodeText with
    | error fault => simp
    | ok source => simp [ih]

/-- The declarations of files with the given contents. -/
def declarationsIn : List (Except Fault ByteArray) → Option (List Declaration)
  | [] => some []
  | content :: rest =>
    (content.bind decodeText).toOption.bind fun source =>
      (declarationsIn rest).map (Source.collect source ++ ·)

theorem readFiles_eq (files : List String) :
    (readFiles fs files).run.2.toOption = declarationsIn (files.map fs.read) := by
  induction files with
  | nil => rfl
  | cons path files ih =>
    rw [List.map_cons, declarationsIn, ← ih, readFiles, Id.run_bind]
    change _ = ((fs.read path).run.bind decodeText).toOption.bind _
    cases (fs.read path).run.bind decodeText with
    | error fault => rfl
    | ok source =>
      simp only [Id.run_bind, Id.run_pure]
      cases (readFiles fs files).run.2 with
      | error failure => rfl
      | ok ds => rfl

/-- What some inputs come to: the declarations, unless the run fails before they are all read, and
the paths that are read. -/
inductive ComesTo (fs : Access Id) (inputs : List String) :
    Option (List Declaration) → List String → Prop where
  /-- A pattern cannot be read, so no file is. -/
  | refused {argument : String} {e : BadPattern} (hmem : argument ∈ inputs)
    (h : filesOf fs argument = .error e) : ComesTo fs inputs none []
  /-- The files are read in order up to the first that cannot be read. -/
  | read {files : PathSet} (hall : ∀ argument ∈ inputs, ∃ found, filesOf fs argument = .ok found)
    (h : IsSetOf fs inputs files) :
    ComesTo fs inputs (declarationsIn (files.map fs.read))
      (files.take (countRead (files.map fs.read)))

theorem readDeclarations_comesTo (h : inputs ≠ []) :
    ComesTo fs inputs (readDeclarations fs inputs).run.2.toOption (pathsRead fs inputs) := by
  rw [readDeclarations, pathsRead, if_neg (by simpa using h), if_neg (by simpa using h),
    Id.run_bind]
  by_cases hall : ∀ argument ∈ inputs, ∃ found, filesOf fs argument = .ok found
  · obtain ⟨found, hfound, hset⟩ := resolve_of_ok hall
    simp only [hfound, filesRead_eq_take]
    have := ComesTo.read hall hset
    rw [← readFiles_eq] at this
    exact this
  · push Not at hall
    obtain ⟨argument, hmem, hbad⟩ := hall
    cases hfiles : filesOf fs argument with
    | ok files => exact absurd hfiles (hbad files)
    | error e =>
      obtain ⟨found, e', hfound⟩ := resolveFrom_of_error hmem hfiles {}
      rw [← resolve] at hfound
      simp only [hfound]
      exact .refused hmem hfiles

/-- **What inputs come to does not depend on their order and repetition.** -/
theorem ComesTo.congr {ds ds' : Option (List Declaration)} {paths paths' : List String}
    (hfs : fs.RespectsPaths) (hinputs : ∀ argument, argument ∈ inputs ↔ argument ∈ inputs')
    (h : ComesTo fs inputs ds paths) (h' : ComesTo fs inputs' ds' paths') :
    ds = ds' ∧ paths.map parts = paths'.map parts := by
  cases h with
  | refused hmem hbad =>
    cases h' with
    | refused hmem' hbad' => exact ⟨rfl, rfl⟩
    | read hall' hset' =>
      obtain ⟨found, hfound⟩ := hall' _ ((hinputs _).1 hmem)
      rw [hbad] at hfound
      cases hfound
  | read hall hset =>
    cases h' with
    | refused hmem' hbad' =>
      obtain ⟨found, hfound⟩ := hall _ ((hinputs _).2 hmem')
      rw [hbad'] at hfound
      cases hfound
    | read hall' hset' =>
      have hparts := (hset.congr hinputs).map_parts_eq hset'
      have hread := hfs.map_read_eq hset.isFile hset'.isFile hparts
      rw [hread]
      exact ⟨rfl, by rw [List.map_take, List.map_take, hparts]⟩

theorem ComesTo.ascending {ds : Option (List Declaration)} {paths : List String}
    (h : ComesTo fs inputs ds paths) : PathSet.Ascending paths := by
  cases h with
  | refused hmem hbad => exact List.Pairwise.nil
  | read hall hset => exact hset.ascending.sublist (List.take_sublist _ _)

theorem ascending_pathsRead (inputs : List String) : PathSet.Ascending (pathsRead fs inputs) := by
  cases inputs with
  | nil => exact List.Pairwise.nil
  | cons argument inputs => exact (readDeclarations_comesTo (List.cons_ne_nil _ _)).ascending

theorem readDeclarations_congr (hfs : fs.RespectsPaths)
    (h : ∀ argument, argument ∈ inputs ↔ argument ∈ inputs') :
    (readDeclarations fs inputs).run.2.toOption = (readDeclarations fs inputs').run.2.toOption ∧
      (pathsRead fs inputs).map parts = (pathsRead fs inputs').map parts := by
  by_cases hinputs : inputs = []
  · subst hinputs
    rw [List.eq_nil_iff_forall_not_mem.2 fun argument hmem =>
      List.not_mem_nil ((h argument).2 hmem)]
    exact ⟨rfl, rfl⟩
  · have hinputs' : inputs' ≠ [] := by
      obtain ⟨argument, hmem⟩ := List.exists_mem_of_ne_nil inputs hinputs
      exact List.ne_nil_of_mem ((h argument).1 hmem)
    exact (readDeclarations_comesTo hinputs).congr hfs h (readDeclarations_comesTo hinputs')

/-- The document for some declarations, unless one of them cannot be read. -/
def documentOf (o : Options) (ds : List Declaration) : Option String :=
  (extractDeclarations o.rules o.skipInvalid ds).2.toOption.map fun all =>
    (if o.pretty then (extractionsToJson all).pretty else (extractionsToJson all).compact) ++ "\n"

theorem produce_eq (o : Options) :
    (produce fs o).run.2.toOption =
      (readDeclarations fs o.inputs).run.2.toOption.bind (documentOf o) := by
  rw [produce, Id.run_bind]
  cases hread : (readDeclarations fs o.inputs).run with
  | mk events declarations =>
    cases declarations with
    | error failure => rfl
    | ok ds =>
      simp only [documentOf, Except.toOption, Option.bind_some]
      cases (extractDeclarations o.rules o.skipInvalid ds).2 with
      | error e => rfl
      | ok all => rfl

/-- Two runs end with the same exit code, standard output and written file. -/
structure Report.SameResult (r r' : Report) : Prop where
  /-- The exit codes are the same. -/
  code : r.code = r'.code
  /-- So are the standard outputs. -/
  stdout : r.stdout = r'.stdout
  /-- The same file is written with the same content, or none is written. -/
  written : r.written = r'.written

theorem runOptions_sameResult {o o' : Options} (environment : Option String)
    (houtput : o.output = o'.output)
    (h : (produce fs o).run.2.toOption = (produce fs o').run.2.toOption) :
    (runOptions fs environment o).run.SameResult (runOptions fs environment o').run := by
  rw [runOptions, runOptions, Id.run_bind, Id.run_bind]
  cases hdone : (produce fs o).run with
  | mk events result =>
    cases hdone' : (produce fs o').run with
    | mk events' result' =>
      rw [hdone, hdone'] at h
      cases result with
      | error failure =>
        cases result' with
        | error failure' => exact ⟨rfl, rfl, rfl⟩
        | ok document' => cases h
      | ok document =>
        cases result' with
        | error failure' => cases h
        | ok document' =>
          cases h
          simp only [← houtput]
          cases o.output with
          | none => exact ⟨rfl, rfl, rfl⟩
          | some path =>
            simp only [Id.run_bind]
            cases (fs.write path document).run with
            | error fault => exact ⟨rfl, rfl, rfl⟩
            | ok done => exact ⟨rfl, rfl, rfl⟩

/-- **The order of the inputs and their repetition make no difference.**  Two runs with the same
set of inputs and the same options leave the same exit code, standard output and written file.
Each reads its files in the order of their paths, each path once whatever its spelling, and both
read the same paths, up to their spelling.  Only the standard error stream may differ. -/
theorem run_same_inputs (fs : Access Id) (hfs : fs.RespectsPaths) (environment : Option String)
    {arguments arguments' : List String} {o o' : Options}
    (h : Options.read? arguments = some o) (h' : Options.read? arguments' = some o')
    (hoptions : { o with inputs := [] } = { o' with inputs := [] })
    (hinputs : ∀ argument, argument ∈ o.inputs ↔ argument ∈ o'.inputs) :
    (run fs environment arguments).run.SameResult (run fs environment arguments').run ∧
      ∃ paths paths',
        (run fs.recorded environment arguments).run [] = (run fs environment arguments, paths) ∧
        (run fs.recorded environment arguments').run [] = (run fs environment arguments', paths') ∧
        PathSet.Ascending paths ∧ PathSet.Ascending paths' ∧
        paths.map parts = paths'.map parts := by
  obtain ⟨hdeclarations, hpaths⟩ := readDeclarations_congr hfs hinputs
  refine ⟨?_, _, _, run_records environment h [], run_records environment h' [],
    ascending_pathsRead o.inputs, ascending_pathsRead o'.inputs, hpaths⟩
  rw [run, run, h, h']
  cases o
  cases o'
  cases hoptions
  refine runOptions_sameResult environment rfl ?_
  rw [produce_eq, produce_eq, hdeclarations]
  rfl

/-- Two files, one of them in a directory. -/
def twoFiles : Tree :=
  (({} : Tree).addFile "d/a.php" r"class A {".toUTF8).addFile "b.php" r"class B {".toUTF8

/-- Two files in other orders, one of them twice in two spellings. -/
theorem run_same_inputs_twoFiles :
    (run (twoFiles.access .empty) none ["--pretty", "d//a.php", "b.php", "d/a.php"]).run.SameResult
      (run (twoFiles.access .empty) none
        ["b.php", "d/a.php", "b.php", "--pretty", "d//a.php"]).run := by
  have hread : Options.read? ["--pretty", "d//a.php", "b.php", "d/a.php"] =
      some { inputs := ["d//a.php", "b.php", "d/a.php"], pretty := true } := by decide +kernel
  have hread' : Options.read? ["b.php", "d/a.php", "b.php", "--pretty", "d//a.php"] =
      some { inputs := ["b.php", "d/a.php", "b.php", "d//a.php"], pretty := true } := by
    decide +kernel
  have hinputs (argument : String) : argument ∈ ["d//a.php", "b.php", "d/a.php"] ↔
      argument ∈ ["b.php", "d/a.php", "b.php", "d//a.php"] := by
    simp only [List.mem_cons, List.not_mem_nil]
    grind
  exact (run_same_inputs _ (twoFiles.respectsPaths .empty) none hread hread' rfl hinputs).1

end DocFacts.Command
