import BannedCalls.FileSystem.Basic
import BannedCalls.Source.Cursor

/-!
# Scopes

A scope is the file under analysis. What is located in another file is foreign to it; what has
no file, or one with an empty name, is not. Trimming a tree takes out every cursor that is
foreign, with all below it.

`Scope.trim` resolves each file name once and remembers the answer. `Scope.trim_eq` says that the
memory makes no difference: the result is `Cursor.prune` by `Scope.keeps`.
-/

namespace BannedCalls

namespace Cursor

mutual

def prune (keeps : CursorInfo → Bool) : Cursor → Option Cursor
  | node info children =>
    if keeps info then some (node info (pruneAll keeps children)) else none

def pruneAll (keeps : CursorInfo → Bool) : List Cursor → List Cursor
  | [] => []
  | c :: rest =>
    match prune keeps c with
    | some kept => kept :: pruneAll keeps rest
    | none => pruneAll keeps rest

end

end Cursor

/-- Without a target, or with an empty one, nothing is foreign. -/
structure Scope where
  fileSystem : FileSystem
  target : Option Text

namespace Scope

/-- The file names that have to resolve to the target, and the target. -/
def test (scope : Scope) (file : Option Text) : Option (Text × Text) :=
  match scope.target, file with
  | some target, some name => if target = [] ∨ name = [] then none else some (target, name)
  | _, _ => none

def keepsFile (scope : Scope) (file : Option Text) : Bool :=
  match scope.test file with
  | some (target, name) => scope.fileSystem.realPath name = target
  | none => true

def keeps (scope : Scope) (info : CursorInfo) : Bool := scope.keepsFile info.location.file

/-- File names together with the paths that they resolved to. -/
abbrev Memory := List (Text × Text)

def resolveName (scope : Scope) (memory : Memory) (name : Text) : Text × Memory :=
  match memory.find? fun entry => entry.1 = name with
  | some entry => (entry.2, memory)
  | none =>
    let path := scope.fileSystem.realPath name
    (path, (name, path) :: memory)

def judge (scope : Scope) (memory : Memory) (info : CursorInfo) : Bool × Memory :=
  match scope.test info.location.file with
  | some (target, name) =>
    let (path, memory) := scope.resolveName memory name
    (path = target, memory)
  | none => (true, memory)

mutual

def trimWith (scope : Scope) (memory : Memory) : Cursor → Option Cursor × Memory
  | .node info children =>
    match scope.judge memory info with
    | (true, memory) =>
      let (kept, memory) := trimAllWith scope memory children
      (some (.node info kept), memory)
    | (false, memory) => (none, memory)

def trimAllWith (scope : Scope) (memory : Memory) : List Cursor → List Cursor × Memory
  | [] => ([], memory)
  | c :: rest =>
    let (first, memory) := trimWith scope memory c
    let (others, memory) := trimAllWith scope memory rest
    (first.toList ++ others, memory)

end

def trim (scope : Scope) (root : Cursor) : Option Cursor := (scope.trimWith [] root).1

/-- What is remembered is what resolving afresh would give. -/
def Sound (scope : Scope) (memory : Memory) : Prop :=
  ∀ entry ∈ memory, entry.2 = scope.fileSystem.realPath entry.1

theorem resolveName_eq (scope : Scope) {memory : Memory} (h : scope.Sound memory) (name : Text) :
    (scope.resolveName memory name).1 = scope.fileSystem.realPath name ∧
      scope.Sound (scope.resolveName memory name).2 := by
  unfold resolveName
  cases hf : memory.find? fun entry => entry.1 = name with
  | none =>
    refine ⟨rfl, fun entry he => ?_⟩
    rcases List.mem_cons.1 he with rfl | he
    · rfl
    · exact h entry he
  | some entry =>
    have hn : entry.1 = name := by simpa using List.find?_some hf
    exact ⟨hn ▸ h entry (List.mem_of_find?_eq_some hf), h⟩

theorem judge_eq (scope : Scope) {memory : Memory} (h : scope.Sound memory) (info : CursorInfo) :
    (scope.judge memory info).1 = scope.keeps info ∧ scope.Sound (scope.judge memory info).2 := by
  unfold judge keeps keepsFile
  cases scope.test info.location.file with
  | none => exact ⟨rfl, h⟩
  | some pair =>
    obtain ⟨target, name⟩ := pair
    obtain ⟨hp, hs⟩ := scope.resolveName_eq h name
    exact ⟨by simp [hp], hs⟩

mutual

theorem trimWith_eq (scope : Scope) {memory : Memory} (h : scope.Sound memory) :
    (c : Cursor) → (scope.trimWith memory c).1 = c.prune scope.keeps ∧
      scope.Sound (scope.trimWith memory c).2
  | .node info children => by
    obtain ⟨hk, hs⟩ := scope.judge_eq h info
    rw [trimWith, Cursor.prune, ← hk]
    cases hj : scope.judge memory info with
    | mk kept next =>
      rw [hj] at hs
      cases kept with
      | true =>
        obtain ⟨ha, hs⟩ := trimAllWith_eq scope hs children
        exact ⟨by simp [ha], hs⟩
      | false => exact ⟨rfl, hs⟩

theorem trimAllWith_eq (scope : Scope) {memory : Memory} (h : scope.Sound memory) :
    (cs : List Cursor) → (scope.trimAllWith memory cs).1 = Cursor.pruneAll scope.keeps cs ∧
      scope.Sound (scope.trimAllWith memory cs).2
  | [] => ⟨rfl, h⟩
  | c :: rest => by
    obtain ⟨hc, hs⟩ := trimWith_eq scope h c
    obtain ⟨hr, hs⟩ := trimAllWith_eq scope hs rest
    rw [trimAllWith, Cursor.pruneAll]
    refine ⟨?_, hs⟩
    simp only [hr, hc]
    cases c.prune scope.keeps <;> rfl

end

theorem trim_eq (scope : Scope) (root : Cursor) : scope.trim root = root.prune scope.keeps :=
  (scope.trimWith_eq (fun _ h => absurd h List.not_mem_nil) root).1

end Scope

end BannedCalls
