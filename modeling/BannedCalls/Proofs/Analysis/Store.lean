import BannedCalls.Proofs.Analysis.Cases
import BannedCalls.Proofs.FileSystem.Shown
import BannedCalls.Proofs.FileSystem.Store
import BannedCalls.Proofs.Source.Kept

/-!
# Analyses beside a new file

A file at a fresh path makes no difference to an analysis of another file: what is there is found as
before, and what is kept of a tree and of its diagnostics depends on where their files resolve to.
-/

namespace BannedCalls

/-- A new file can be stored at the path, and it does not matter to how these files are found: it is
none of them, and none of them is a directory that would come up on the way to it. -/
structure FileSystem.Fresh (fs : FileSystem) (path : Text) (files : List Text) : Prop where
  noLoop : ¬ fs.Loops path
  absent : fs.contents? path = none
  apart : ∀ file ∈ files, fs.realPath path ≠ fs.realPath file
  onTheWay : ∀ file ∈ files, fs.realPath file ∈ Path.ancestors (fs.realPath path) → fs.exists? file

theorem FileSystem.contents?_store_shown {fs : FileSystem} {path : Text} {files : List Text}
    (h : fs.Fresh path files) (bytes : List UInt8) :
    (fs.store path bytes).contents? (Path.shown path) = some bytes := by
  have hs := realPath_shown h.noLoop
  have ha : fs.contents? (Path.shown path) = none := by
    have h := h.absent
    rwa [contents?, ← hs] at h
  rw [contents?_store, ha, hs, if_pos rfl, Option.none_or]

namespace Host

def store (host : Host) (path : Text) (bytes : List UInt8) : Host :=
  { host with fileSystem := host.fileSystem.store path bytes }

variable {host : Host} {path file : Text} {files : List Text} (bytes : List UInt8)

theorem parseFile_store (h : host.fileSystem.Fresh path files) (hm : file ∈ files) :
    (host.store path bytes).parseFile file [] = host.parseFile file [] := by
  have he := FileSystem.exists?_store bytes (h.apart file hm) (h.onTheWay file hm)
  have hf := FileSystem.isFile_store_of_ne bytes (h.apart file hm)
  simp only [parseFile, store, he, hf]
  rfl

theorem nodes_scope_store (root : Cursor) :
    ((host.store path bytes).scope file).nodes root = (host.scope file).nodes root := by
  have hk : ((host.store path bytes).scope file).keeps = (host.scope file).keeps := by
    funext info
    simp only [Scope.keeps, Scope.keepsFile, Scope.test, scope, store, FileSystem.realPath_store]
    rfl
  rw [Scope.nodes_eq, Scope.nodes_eq, hk]

theorem diagnosticItems_store (diagnostics : List Diagnostic) :
    (host.store path bytes).diagnosticItems file diagnostics =
      host.diagnosticItems file diagnostics := by
  simp only [diagnosticItems, Report.diagnosticItems, Diagnostic.isAbout, store,
    FileSystem.realPath_store]

theorem entry_store (h : host.fileSystem.Fresh path files) (hm : file ∈ files) (list : BanList)
    (timing : Timing) :
    (host.store path bytes).entry list file timing = host.entry list file timing := by
  have hr : (host.store path bytes).fileSystem.realPath = host.fileSystem.realPath :=
    FileSystem.realPath_store ..
  simp only [entry, parseFile_store bytes h hm, diagnosticItems_store, nodes_scope_store,
    Analysis.failureReport, Analysis.successReport, hr]

end Host

end BannedCalls
