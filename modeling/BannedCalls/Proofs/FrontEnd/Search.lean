import BannedCalls.FrontEnd.Library

/-!
# The order of a library search

A search goes through one list of candidates: those at the place that the environment names, those
below the roots of the program, and those of a package manager. It ends with the first that
qualifies. So a place without a library is passed over as if the environment did not name it, and
what is found exists.
-/

namespace BannedCalls

namespace Host

/-- The value of a variable, which is empty if the variable is not set. -/
def value (host : Host) (name : Text) : Text :=
  ((host.environment.find? fun entry => entry.1 = name).map Prod.snd).getD []

/-- Where the environment says that the library is, or nothing. -/
def libraryPlace (host : Host) : Text :=
  if host.value "LIBCLANG_FILE" ≠ [] then host.value "LIBCLANG_FILE"
  else host.value "LIBCLANG_PATH"

theorem setting?_eq (host : Host) (name : Text) :
    host.setting? name = if host.value name = [] then none else some (host.value name) := by
  unfold setting? value
  cases host.environment.find? fun entry => entry.1 = name with
  | none => rfl
  | some entry => rfl

theorem setting?_or_setting? (host : Host) :
    (host.setting? "LIBCLANG_FILE").or (host.setting? "LIBCLANG_PATH") =
      if host.libraryPlace = [] then none else some host.libraryPlace := by
  rw [setting?_eq, setting?_eq, libraryPlace]
  by_cases hf : host.value "LIBCLANG_FILE" = []
  · rw [if_pos hf, Option.none_or, if_neg (not_not_intro hf)]
  · rw [if_neg hf, Option.some_or, if_pos hf, if_neg hf]

theorem libraryPlace_of_environment_nil {host : Host} (h : host.environment = []) :
    host.libraryPlace = [] := by
  simp [libraryPlace, value, h]

end Host

namespace LibrarySearch

/-- A path that may be taken for the library: if anything is there, or only if it is a file. -/
inductive Candidate
  | existing (path : Text)
  | file (path : Text)
  deriving DecidableEq, Repr

namespace Candidate

def path : Candidate → Text
  | existing path => path
  | file path => path

def qualifies (fs : FileSystem) : Candidate → Bool
  | existing path => fs.exists? path
  | file path => fs.isFile path

/-- The names in a directory that the environment gives, and what it gives itself. -/
def atPlace (fs : FileSystem) (place : Text) : List Candidate :=
  if place = [] then []
  else
    (if fs.isDirectory place then names.map fun name => existing (Path.join place name) else []) ++
      [file place]

/-- Every name in a root itself and then among the libraries of the root. -/
def belowRoot (root : Text) : List Candidate :=
  names.flatMap fun name =>
    [existing (Path.join root name), existing (Path.join root (Path.join "lib" name))]

def below (roots : List Text) : List Candidate := roots.flatMap belowRoot

def installed : List Candidate := systemPaths.map existing

/-- The candidate qualifies, and none does that stands before it. -/
def IsFirst (fs : FileSystem) (candidates : List Candidate) (c : Candidate) : Prop :=
  ∃ before after, candidates = before ++ c :: after ∧ c.qualifies fs ∧
    ∀ d ∈ before, ¬ d.qualifies fs

/-- The path of the first candidate that qualifies. -/
def first? (fs : FileSystem) (candidates : List Candidate) : Option Text :=
  (candidates.find? (qualifies fs)).map path

variable {fs : FileSystem}

theorem exists?_path {c : Candidate} (h : c.qualifies fs) : fs.exists? c.path := by
  cases c with
  | existing path => exact h
  | file path => exact Bool.or_eq_true_iff.2 (Or.inl h)

theorem first?_eq_some_iff {candidates : List Candidate} {path : Text} :
    first? fs candidates = some path ↔ ∃ c, IsFirst fs candidates c ∧ c.path = path := by
  rw [first?, Option.map_eq_some_iff]
  apply exists_congr
  intro c
  apply and_congr_left'
  rw [List.find?_eq_some_iff_append, IsFirst]
  simp only [Bool.not_eq_true, Bool.not_eq_eq_eq_not, Bool.not_true]
  constructor
  · rintro ⟨hq, before, after, hc, hb⟩
    exact ⟨before, after, hc, hq, hb⟩
  · rintro ⟨before, after, hc, hq, hb⟩
    exact ⟨hq, before, after, hc, hb⟩

theorem first?_eq_none_iff {candidates : List Candidate} :
    first? fs candidates = none ↔ ∀ c ∈ candidates, ¬ c.qualifies fs := by
  rw [first?, Option.map_eq_none_iff, List.find?_eq_none]

theorem exists?_of_first? {candidates : List Candidate} {path : Text}
    (h : first? fs candidates = some path) : fs.exists? path := by
  obtain ⟨c, ⟨-, -, -, hq, -⟩, rfl⟩ := first?_eq_some_iff.1 h
  exact exists?_path hq

theorem first?_append (before after : List Candidate) :
    first? fs (before ++ after) = (first? fs before).or (first? fs after) := by
  rw [first?, List.find?_append, Option.map_or]
  rfl

/-- A loop over groups of candidates that stops at its first result. -/
theorem first?_flatMap {α : Type} (groups : List α) (candidates : α → List Candidate) :
    first? fs (groups.flatMap candidates) =
      groups.findSome? fun group => first? fs (candidates group) := by
  induction groups with
  | nil => rfl
  | cons group rest ih =>
    rw [List.flatMap_cons, first?_append, ih, List.findSome?_cons]
    cases first? fs (candidates group) <;> rfl

theorem first?_map_existing (paths : List Text) :
    first? fs (paths.map existing) = paths.find? fs.exists? := by
  induction paths with
  | nil => rfl
  | cons path rest ih =>
    rw [List.map_cons, List.find?_cons, ← ih, first?, List.find?_cons]
    cases h : fs.exists? path <;> simp [qualifies, h, Candidate.path, first?]

end Candidate

open Candidate

theorem inEnvironment?_eq (s : LibrarySearch) :
    s.inEnvironment? = first? s.host.fileSystem
      (atPlace s.host.fileSystem s.host.libraryPlace) := by
  rw [inEnvironment?, Host.setting?_or_setting?, atPlace]
  by_cases hp : s.host.libraryPlace = []
  · rw [if_pos hp, if_pos hp]
    rfl
  · have hfile (place : Text) : first? s.host.fileSystem [file place] =
        if s.host.fileSystem.isFile place then some place else none := by
      cases h : s.host.fileSystem.isFile place <;> simp [first?, qualifies, h, Candidate.path]
    rw [if_neg hp, if_neg hp, first?_append, hfile]
    simp only [Option.bind_eq_bind, Option.bind_some]
    by_cases hd : s.host.fileSystem.isDirectory s.host.libraryPlace
    · rw [if_pos hd, if_pos hd, firstExisting?, ← first?_map_existing, List.map_map]
      rfl
    · rw [if_neg hd, if_neg hd]
      rfl

theorem findSome?_inRoot? (s : LibrarySearch) (roots : List Text) :
    roots.findSome? s.inRoot? = first? s.host.fileSystem (below roots) := by
  have hr (root : Text) : s.inRoot? root = first? s.host.fileSystem (belowRoot root) := by
    rw [belowRoot, first?_flatMap, inRoot?]
    congr 1
    funext name
    exact (first?_map_existing _).symm
  rw [below, first?_flatMap]
  exact congrArg (roots.findSome? ·) (funext hr)

theorem result_eq (s : LibrarySearch) :
    s.result = first? s.host.fileSystem
      (atPlace s.host.fileSystem s.host.libraryPlace ++ below s.roots ++ installed) := by
  rw [result, inEnvironment?_eq, findSome?_inRoot?, firstExisting?, ← first?_map_existing,
    ← first?_append, ← first?_append]
  rfl

theorem roots_ofProgram (host : Host) (moduleFile : Text) (frozen : Bool) (bundle : Option Text) :
    (ofProgram host moduleFile frozen bundle).roots =
      (if frozen then bundle.toList.filter (· ≠ []) else []) ++
        [Path.absolute host.fileSystem.workingDirectory (Path.parent moduleFile)] := by
  have hb : bundle.toList.filter (· ≠ []) = (bundle.filter (· ≠ [])).toList := by
    cases bundle with
    | none => rfl
    | some path => by_cases hp : path = [] <;> simp [Option.filter, hp]
  cases frozen with
  | false => rfl
  | true => rw [if_pos rfl, hb]; rfl

/-- A search finds the first candidate that qualifies, which exists, and nothing if none does. Where
the environment names nothing that can be used, the search is the same without it, and finds the
first of what stands below the roots of the program if anything does. -/
theorem result_is_first (host : Host) (moduleFile : Text) (frozen : Bool)
    (bundle : Option Text) :
    let fs := host.fileSystem
    let program := Path.absolute fs.workingDirectory (Path.parent moduleFile)
    let offered := atPlace fs host.libraryPlace
    let bundled := below ((if frozen then bundle.toList.filter (· ≠ []) else []) ++ [program])
    let found := (ofProgram host moduleFile frozen bundle).result
    (∀ path, found = some path ↔
      ∃ c, IsFirst fs (offered ++ bundled ++ installed) c ∧ c.path = path) ∧
      (found = none ↔ ∀ c ∈ offered ++ bundled ++ installed, ¬ c.qualifies fs) ∧
      (∀ path, found = some path → fs.exists? path) ∧
      ((∀ c ∈ offered, ¬ c.qualifies fs) →
        found = (ofProgram { host with environment := [] } moduleFile frozen bundle).result ∧
        ((∃ c ∈ bundled, c.qualifies fs) →
          ∃ c, IsFirst fs bundled c ∧ found = some c.path)) := by
  intro fs program offered bundled found
  have hf : found = first? fs (offered ++ bundled ++ installed) := by
    have hr := result_eq (ofProgram host moduleFile frozen bundle)
    rwa [roots_ofProgram] at hr
  refine ⟨fun path => ?_, ?_, fun path hp => ?_, fun ho => ?_⟩
  · rw [hf, first?_eq_some_iff]
  · rw [hf, first?_eq_none_iff]
  · apply exists?_of_first?
    rw [← hf, hp]
  · have hb : found = first? fs (bundled ++ installed) := by
      rw [hf, List.append_assoc, first?_append, first?_eq_none_iff.2 ho, Option.none_or]
    constructor
    · have hr := result_eq (ofProgram { host with environment := [] } moduleFile frozen bundle)
      rw [roots_ofProgram, Host.libraryPlace_of_environment_nil rfl] at hr
      exact hb.trans hr.symm
    · rintro ⟨c, hc, hq⟩
      obtain ⟨path, hp⟩ : ∃ path, first? fs bundled = some path := by
        apply Option.ne_none_iff_exists'.1
        intro hn
        exact first?_eq_none_iff.1 hn c hc hq
      obtain ⟨d, hd, rfl⟩ := first?_eq_some_iff.1 hp
      refine ⟨d, hd, ?_⟩
      rw [hb, first?_append, hp, Option.some_or]

/-- A link to a directory without a library, and libraries in the bundle and beside the module. -/
def emptyPlace : Host where
  fileSystem := ⟨[("/work/bundle/lib/libclang.so", []), ("/app/libclang.so", [])],
    ["/opt/llvm-18"], [("/opt/llvm", "llvm-18")], "/work"⟩
  units := []
  sdk := .missing
  environment := [("LIBCLANG_FILE", []), ("LIBCLANG_PATH", "/opt/llvm")]

/-- The environment names a directory, and the library is found in the bundle, where it stands behind
seven candidates. -/
theorem result_is_first_emptyPlace :
    let search := ofProgram emptyPlace "/app/parser.py" true (some "bundle")
    emptyPlace.fileSystem.isDirectory emptyPlace.libraryPlace ∧
      search.result = some "bundle/lib/libclang.so" ∧
      search.result = (ofProgram { emptyPlace with environment := [] } "/app/parser.py" true
        (some "bundle")).result ∧
      ∃ c, IsFirst emptyPlace.fileSystem (below ["bundle", "/app"]) c ∧
        search.result = some c.path := by
  intro search
  obtain ⟨hp, -, -, hn⟩ := result_is_first emptyPlace "/app/parser.py" true (some "bundle")
  obtain ⟨he, hb⟩ := hn (by decide +kernel)
  have hfirst : IsFirst emptyPlace.fileSystem
      (atPlace emptyPlace.fileSystem "/opt/llvm" ++ below ["bundle", "/app"] ++ installed)
      (existing "bundle/lib/libclang.so") :=
    ⟨names.map (existing ∘ Path.join "/opt/llvm") ++ [file "/opt/llvm"] ++
        (belowRoot "bundle").take 3, (belowRoot "bundle").drop 4 ++ belowRoot "/app" ++ installed,
      by decide +kernel, by decide +kernel, by decide +kernel⟩
  refine ⟨by decide +kernel, (hp _).2 ⟨_, hfirst, rfl⟩, he, hb ?_⟩
  exact ⟨existing "/app/libclang.so", by decide +kernel, by decide +kernel⟩

end LibrarySearch

end BannedCalls
