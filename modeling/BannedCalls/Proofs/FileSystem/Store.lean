import BannedCalls.FileSystem.Basic

/-!
# Storing a file

A new file is found under its path, and nothing else changes but that the directories on the way to
it are there. Paths resolve as before, since only links matter to that.
-/

namespace BannedCalls.FileSystem

def store (fs : FileSystem) (path : Text) (bytes : List UInt8) : FileSystem :=
  { fs with files := fs.files ++ [(path, bytes)] }

variable (fs : FileSystem) (path : Text) (bytes : List UInt8)

theorem resolveSteps_store (follow : List Text → Text → List Text → Resolution)
    (busy : List Text) (reached : Text) (steps : List Text) :
    (fs.store path bytes).resolveSteps follow busy reached steps =
      fs.resolveSteps follow busy reached steps := by
  have ht : (fs.store path bytes).target? = fs.target? := rfl
  induction steps generalizing reached with
  | nil => rfl
  | cons step rest ih => simp only [resolveSteps, ht, ih]

theorem resolve_store (depth : Nat) : (fs.store path bytes).resolve depth = fs.resolve depth := by
  induction depth with
  | zero =>
    funext busy reached steps
    exact resolveSteps_store ..
  | succ depth ih =>
    funext busy reached steps
    rw [resolve, resolve, ih]
    exact resolveSteps_store ..

theorem realPath_store : (fs.store path bytes).realPath = fs.realPath := by
  funext p
  have hd : (fs.store path bytes).depth = fs.depth := rfl
  rw [realPath, realPath, hd, resolve_store]
  rfl

theorem contents?_store (p : Text) :
    (fs.store path bytes).contents? p =
      (fs.contents? p).or (if fs.realPath path = fs.realPath p then some bytes else none) := by
  rw [contents?, contents?, realPath_store, store, List.find?_append]
  cases fs.files.find? fun file => fs.realPath file.1 = fs.realPath p with
  | some file => rfl
  | none =>
    by_cases h : fs.realPath path = fs.realPath p <;> simp [h]

variable {fs path} {p : Text}

theorem isFile_store_of_ne (h : fs.realPath path ≠ fs.realPath p) :
    (fs.store path bytes).isFile p = fs.isFile p := by
  rw [isFile, isFile, contents?_store, if_neg h, Option.or_none]

theorem mem_directoryPaths_store {directory : Text} :
    directory ∈ (fs.store path bytes).directoryPaths ↔
      directory ∈ fs.directoryPaths ∨ directory ∈ Path.ancestors (fs.realPath path) := by
  simp only [directoryPaths, realPath_store]
  simp [store, or_assoc]

/-- What is there stays there, and nothing comes up beside the file but what is on the way to it. -/
theorem exists?_store (h : fs.realPath path ≠ fs.realPath p)
    (ha : fs.realPath p ∈ Path.ancestors (fs.realPath path) → fs.exists? p) :
    (fs.store path bytes).exists? p = fs.exists? p := by
  have hd : (fs.store path bytes).directoryPaths.contains (fs.realPath p) ↔
      fs.directoryPaths.contains (fs.realPath p) ∨
        fs.realPath p ∈ Path.ancestors (fs.realPath path) := by
    rw [List.contains_iff_mem, List.contains_iff_mem, mem_directoryPaths_store]
  rw [Bool.eq_iff_iff]
  simp only [exists?, isDirectory, isFile_store_of_ne bytes h, realPath_store, Bool.or_eq_true,
    Bool.and_eq_true] at ha ⊢
  constructor
  · rintro (hf | ⟨hn, hc⟩)
    · exact Or.inl hf
    · rcases hd.1 hc with hc | hm
      · exact Or.inr ⟨hn, hc⟩
      · exact ha hm
  · exact Or.imp_right fun ⟨hn, hc⟩ => ⟨hn, hd.2 (Or.inl hc)⟩

end BannedCalls.FileSystem
