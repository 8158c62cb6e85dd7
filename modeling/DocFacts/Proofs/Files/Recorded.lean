import DocFacts.Files.Tree
import DocFacts.Files.Walk
import DocFacts.Proofs.Files.Order
import Mathlib.Data.List.Basic

/-!
# Looking at a file system

A file system that does not change is a list of answers (`Access Id`).  Whoever asks it through a
monad that does more, like one that keeps a record, learns the same (`Access.LooksLike`).  So all
that only looks at paths gives the same in both (`Gives`), a walk in particular (`walk_gives`).

`Access.recorded` is the file system that keeps a record of the paths that are read.

Two spellings of a path may differ in what they lead to, since one that ends in a slash leads to no
file.  `Access.RespectsPaths` asks for less: two that both lead to files lead to the same one.
Every tree is like this (`Tree.respectsPaths`).
-/

namespace DocFacts.Files

/-! ## Computations that only give a value -/

section Gives

variable {m : Type → Type} [Monad m] {α β : Type}

/-- A computation does nothing but give a value. -/
def Gives (x : m α) (a : Id α) : Prop := x = pure a

theorem Gives.pure (a : α) : Gives (m := m) (Pure.pure a) (Pure.pure a) := rfl

theorem Gives.ite {p : Prop} [Decidable p] {x y : m α} {a b : Id α} (hx : Gives x a)
    (hy : Gives y b) : Gives (if p then x else y) (if p then a else b) := by
  split
  · exact hx
  · exact hy

variable [LawfulMonad m]

theorem Gives.bind {x : m α} {a : Id α} {f : α → m β} {g : α → Id β} (hx : Gives x a)
    (hf : ∀ a, Gives (f a) (g a)) : Gives (x >>= f) (a >>= g) := by
  rw [Gives, hx, pure_bind]
  exact hf a

theorem Gives.collectM {f : α → m (List β)} {g : α → Id (List β)} (h : ∀ a, Gives (f a) (g a))
    (as : List α) : Gives (collectM f as) (collectM g as) := by
  induction as with
  | nil => exact .pure []
  | cons a as ih => exact (h a).bind fun front => ih.bind fun back => .pure (front ++ back)

end Gives

/-! ## Walks -/

/-- The questions about paths have the same answers in both file systems. -/
structure Access.LooksLike {m : Type → Type} [Monad m] (fs : Access m) (plain : Access Id) :
    Prop where
  /-- The same paths lead to files. -/
  isFile (path : String) : Gives (fs.isFile path) (plain.isFile path)
  /-- The same paths lead to directories. -/
  isDirectory (path : String) : Gives (fs.isDirectory path) (plain.isDirectory path)
  /-- The same paths lead to anything. -/
  isPresent (path : String) : Gives (fs.isPresent path) (plain.isPresent path)
  /-- Directories have the same names. -/
  children (path : String) : Gives (fs.children path) (plain.children path)

section Walk

variable {m : Type → Type} [Monad m] [LawfulMonad m] {fs : Access m} {plain : Access Id}

/-- A walk gives the same paths. -/
theorem walk_gives (h : fs.LooksLike plain) (wantsDirectory : Bool) (levels : Nat) (path : String)
    (segments : List Segment) :
    Gives (walk fs wantsDirectory levels path segments)
      (walk plain wantsDirectory levels path segments) := by
  have hfinal (p : String) :
      Gives (if wantsDirectory then do return if ← fs.isDirectory p then [p] else []
          else return [p])
        (if wantsDirectory then do return if ← plain.isDirectory p then [p] else []
          else return [p]) :=
    .ite ((h.isDirectory p).bind fun _ => .pure _) (.pure [p])
  induction levels, path, segments using walk.induct fs wantsDirectory with
  | case1 levels path =>
    rw [walk, walk]
    exact hfinal path
  | case2 levels path name rest next hname ih =>
    simp only [walk, hname, ↓reduceIte]
    exact (h.isDirectory path).bind fun _ => .ite (.ite (hfinal _) ih) (.pure [])
  | case3 levels path name rest next hname ih =>
    simp only [walk, hname, ↓reduceIte]
    exact (h.isPresent _).bind fun _ => .ite (.ite (hfinal _) ih) (.pure [])
  | case4 levels path rest ih =>
    rw [walk, walk]
    refine (h.isDirectory path).bind fun _ => .ite ((h.children path).bind fun names =>
      .collectM (fun name => (h.isDirectory _).bind fun isDirectory => ?_) _) (.pure [])
    cases levels with
    | zero => exact .pure []
    | succ levels =>
      obtain ⟨hbelow, hhere⟩ := ih name
      have hjoin (here : List String) :
          Gives
            (if isDirectory then
              walk fs wantsDirectory levels (extend path name) (.deep :: rest) >>= fun below =>
                return here ++ below
            else pure [] >>= fun below => return here ++ below)
            (if isDirectory then
              walk plain wantsDirectory levels (extend path name) (.deep :: rest) >>= fun below =>
                return here ++ below
            else pure [] >>= fun below => return here ++ below) :=
        .ite (hbelow.bind fun _ => .pure _) ((Gives.pure []).bind fun _ => .pure _)
      cases rest with
      | nil => exact (Gives.pure _).bind hjoin
      | cons segment more =>
        exact .ite (.ite ((hfinal _).bind hjoin) (hhere.bind hjoin)) ((Gives.pure []).bind hjoin)
  | case5 levels path segment rest hfixed hdeep ihspecial ih =>
    rw [walk.eq_4 _ _ _ _ _ _ hfixed hdeep, walk.eq_4 _ _ _ _ _ _ hfixed hdeep]
    refine (h.isDirectory path).bind fun _ => .ite ?_ (.pure [])
    refine (Gives.collectM (fun name => .ite (hfinal _) (ihspecial name)) _).bind fun special => ?_
    refine (h.children path).bind fun names => ?_
    refine .bind (.collectM (fun name => ?_) _) fun below => .pure (special ++ below)
    exact .ite (.ite (hfinal _) (ih name)) (.pure [])

theorem Search.run_gives (h : fs.LooksLike plain) (s : Search) : Gives (s.run fs) (s.run plain) :=
  walk_gives h _ _ _ _

end Walk

/-! ## A record of what is read -/

/-- The file system that keeps a record of the paths that are read, in the order of reading. -/
def Access.recorded (fs : Access Id) : Access (StateM (List String)) where
  isFile path := return fs.isFile path
  isDirectory path := return fs.isDirectory path
  isPresent path := return fs.isPresent path
  children path := return fs.children path
  read path := do
    modify (· ++ [path])
    return fs.read path
  readInput := return fs.readInput
  write path content := return fs.write path content

theorem Access.recorded_looksLike (fs : Access Id) : fs.recorded.LooksLike fs :=
  ⟨fun _ => rfl, fun _ => rfl, fun _ => rfl, fun _ => rfl⟩

section Records

variable {α β : Type}

/-- A computation gives a value, and adds paths to the record. -/
def Records (x : StateM (List String) α) (a : Id α) (paths : List String) : Prop :=
  ∀ log, x.run log = (a, log ++ paths)

variable {x : StateM (List String) α} {a : Id α} {paths later : List String}
  {f : α → StateM (List String) β} {g : α → Id β}

theorem Gives.records (h : Gives x a) : Records x a [] := by
  intro log
  rw [h, List.append_nil]
  rfl

theorem Records.pure (a : α) : Records (Pure.pure a) (Pure.pure a) [] :=
  Gives.records (.pure a)

theorem Records.bind (hx : Records x a paths) (hf : Records (f a) (g a) later) :
    Records (x >>= f) (a >>= g) (paths ++ later) := by
  intro log
  rw [StateT.run_bind, hx log, ← List.append_assoc]
  exact hf (log ++ paths)

/-- What is recorded first is all if nothing is recorded later. -/
theorem Records.bind_pure (hx : Records x a paths) (hf : Records (f a) (g a) []) :
    Records (x >>= f) (a >>= g) paths := by
  simpa using hx.bind hf

theorem Access.recorded_read (fs : Access Id) (path : String) :
    Records (fs.recorded.read path) (fs.read path) [path] := fun _ => rfl

end Records

/-! ## Spellings of a path -/

/-- Two spellings of a path that both lead to a file lead to the same content. -/
def Access.RespectsPaths (fs : Access Id) : Prop :=
  ∀ p q, fs.isFile p = true → fs.isFile q = true → comparePaths p q = .eq → fs.read p = fs.read q

theorem Access.RespectsPaths.map_read_eq {fs : Access Id} (h : fs.RespectsPaths)
    {ps qs : List String} (hps : ∀ p ∈ ps, fs.isFile p = true) (hqs : ∀ q ∈ qs, fs.isFile q = true)
    (heq : ps.map parts = qs.map parts) : ps.map fs.read = qs.map fs.read := by
  induction ps generalizing qs with
  | nil =>
    cases qs with
    | nil => rfl
    | cons q qs => cases heq
  | cons p ps ih =>
    cases qs with
    | nil => cases heq
    | cons q qs =>
      obtain ⟨hpq, htail⟩ := List.cons.inj heq
      obtain ⟨hp, hps⟩ := List.forall_mem_cons.1 hps
      obtain ⟨hq, hqs⟩ := List.forall_mem_cons.1 hqs
      rw [List.map_cons, List.map_cons, h p q hp hq (comparePaths_eq_eq_iff.2 hpq),
        ih hps hqs htail]

/-- The place that a part of a path leads to. -/
def Part.enter (place : List String) : Part → List String
  | .root => place
  | .here => place
  | .up => place.dropLast
  | .name n => place ++ [n]

/-- The place that the parts of a path lead to from the top. -/
def placeOf (ps : List Part) : List String := ps.foldl Part.enter []

namespace Tree

variable {t : Tree} {place place' : List String} {path : String}

/-- Segments that are followed to their end lead where their parts do. -/
theorem eq_of_follow {names : List String} (h : t.follow place names = .ok place') :
    place' = (names.filterMap Part.ofSegment?).foldl Part.enter place := by
  induction names generalizing place with
  | nil =>
    cases h
    rfl
  | cons name names ih =>
    rw [follow] at h
    split at h
    · cases h
    split at h
    · rename_i hname
      rw [List.filterMap_cons_none (by rw [Part.ofSegment?, if_pos hname])]
      exact ih h
    rename_i hname
    split at h
    · rename_i hup
      rw [List.filterMap_cons_some (by rw [Part.ofSegment?, if_neg hname, if_pos hup])]
      split at h
      · cases h
      · exact ih h
    · rename_i hup
      rw [List.filterMap_cons_some (by rw [Part.ofSegment?, if_neg hname, if_neg hup])]
      split at h
      · exact ih h
      · cases h

/-- A path that leads anywhere leads where its parts do. -/
theorem eq_placeOf_of_resolve (h : t.resolve path = .ok place) : place = placeOf (parts path) := by
  rw [resolve] at h
  rw [parts, placeOf]
  split at h
  · cases h
  · rename_i hroot
    rw [eq_of_follow h]
    cases hsegments : segments path with
    | nil => rfl
    | cons first rest =>
      have hfirst : first ≠ "" := by
        rintro rfl
        exact hroot rest hsegments
      simp only [hfirst, List.filterMap_cons, Part.ofSegment?, false_or, if_false]
      -- A dot at the start is a part, but it leads nowhere.
      by_cases hhere : first = "."
      · simp only [hhere, if_true, List.foldl_cons, Part.enter]
      · by_cases hup : first = ".." <;> simp [hhere, hup]

theorem resolve_of_isFile {input : ByteArray} (h : (t.access input).isFile path = true) :
    ∃ place, t.resolve path = .ok place := by
  cases hplace : t.resolve path with
  | error e => simp [access, hplace] at h
  | ok place => exact ⟨place, rfl⟩

/-- **A file has one content in all spellings of its path.** -/
theorem respectsPaths (t : Tree) (input : ByteArray) : (t.access input).RespectsPaths := by
  intro p q hp hq hpq
  obtain ⟨place, hplace⟩ := resolve_of_isFile hp
  obtain ⟨place', hplace'⟩ := resolve_of_isFile hq
  have heq : place = place' := by
    rw [eq_placeOf_of_resolve hplace, eq_placeOf_of_resolve hplace', comparePaths_eq_eq_iff.1 hpq]
  subst heq
  simp only [access, read, hplace, hplace']

end Tree

end DocFacts.Files
