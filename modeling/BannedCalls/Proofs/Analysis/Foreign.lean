import BannedCalls.Proofs.Analysis.Findings
import BannedCalls.Proofs.Call.Relabel

/-!
# Foreign code

What a unit says about a file is its tree without the foreign cursors and what is below them, and
its diagnostics without the foreign ones, with every file under its resolved path. An analysis
depends on nothing else of a unit, except that it fails without a tree.
-/

namespace BannedCalls

/-- The place is in a file with a name, and the name does not resolve to the target. -/
def Location.isForeign (fs : FileSystem) (target : Text) (place : Location) : Bool :=
  match place.file with
  | some name => name ≠ [] && fs.realPath name ≠ target
  | none => false

/-- The place with the path that its file resolves to. An empty name stays. -/
def Location.resolved (fs : FileSystem) (place : Location) : Location :=
  { place with file := place.file.map fun name => if name = [] then [] else fs.realPath name }

def CursorInfo.resolved (fs : FileSystem) (info : CursorInfo) : CursorInfo :=
  { info with location := info.location.resolved fs }

def Diagnostic.resolved (fs : FileSystem) (d : Diagnostic) : Diagnostic :=
  { d with location := d.location.map (Location.resolved fs) }

/-- What is left of a tree, if anything is. -/
def Cursor.about (fs : FileSystem) (target : Text) (root : Cursor) : Option Cursor :=
  (root.prune fun info => !info.location.isForeign fs target).map (relabel (CursorInfo.resolved fs))

def SourceUnit.about (fs : FileSystem) (target : Text) (unit : SourceUnit) : SourceUnit where
  root := unit.root.bind (Cursor.about fs target)
  diagnostics := (unit.diagnostics.filter fun d =>
    !(d.location.any (Location.isForeign fs target))).map (Diagnostic.resolved fs)

theorem CursorInfo.keepsCalls_resolved (fs : FileSystem) : KeepsCalls (resolved fs) :=
  ⟨fun _ => rfl, fun _ => rfl, fun _ => rfl⟩

theorem Node.trace_relabel_resolved (fs : FileSystem) (n : Node) :
    (n.relabel (CursorInfo.resolved fs)).trace = n.trace := by
  simp only [trace, info_relabel]
  rfl

/-! ## The two filters -/

theorem Scope.keeps_eq_not_isForeign (fs : FileSystem) {target : Text} (h : target ≠ []) :
    keeps ⟨fs, some target⟩ = fun info => !info.location.isForeign fs target := by
  rw [keeps_of_target_ne_nil fs h]
  funext info
  unfold CursorInfo.isAbout Location.isForeign
  cases info.location.file with
  | none => rfl
  | some name => by_cases hn : name = [] <;> simp [hn]

theorem Diagnostic.isAbout_eq_not_isForeign (fs : FileSystem) (target : Text) (d : Diagnostic) :
    d.isAbout fs target = !(d.location.any (Location.isForeign fs target)) := by
  unfold isAbout Location.isForeign
  cases d.location with
  | none => rfl
  | some place =>
    simp only [Option.bind_some, Option.any_some]
    cases place.file with
    | none => rfl
    | some name => by_cases hn : name = [] <;> simp [hn]

namespace Host

variable (host : Host) (path : Text)

theorem nodes_scope (root : Cursor) :
    ((host.scope path).nodes root).map (Node.relabel (CursorInfo.resolved host.fileSystem)) =
      (root.about host.fileSystem (host.fileSystem.realPath path)).elim [] Cursor.nodes := by
  have hk := Scope.keeps_eq_not_isForeign host.fileSystem (host.fileSystem.realPath_ne_nil path)
  rw [Scope.nodes, Scope.trim_eq, scope, hk, Cursor.about]
  cases root.prune fun info =>
      !info.location.isForeign host.fileSystem (host.fileSystem.realPath path) with
  | none => rfl
  | some kept => exact (Cursor.nodes_relabel _ kept).symm

theorem run_nodes_scope (list : BanList) (root : Cursor) :
    list.engine.run ((host.scope path).nodes root) =
      list.engine.run
        ((root.about host.fileSystem (host.fileSystem.realPath path)).elim [] Cursor.nodes) := by
  rw [← nodes_scope, BanList.run_nodes_relabel (CursorInfo.keepsCalls_resolved _)]

theorem trace_nodes_scope (root : Cursor) :
    ((host.scope path).nodes root).flatMap Node.trace =
      ((root.about host.fileSystem (host.fileSystem.realPath path)).elim [] Cursor.nodes).flatMap
        Node.trace := by
  simp only [← nodes_scope, List.flatMap_map, Node.trace_relabel_resolved]

theorem diagnosticItems_eq_about (unit : SourceUnit) :
    host.diagnosticItems path unit.diagnostics =
      (unit.about host.fileSystem (host.fileSystem.realPath path)).diagnostics.map
        Diagnostic.toItem := by
  have ht (d : Diagnostic) : (d.resolved host.fileSystem).toItem = d.toItem := by
    cases hd : d.location <;> simp [Diagnostic.toItem, Diagnostic.resolved, hd, Location.resolved]
  simp only [diagnosticItems, Report.diagnosticItems, Diagnostic.isAbout_eq_not_isForeign,
    SourceUnit.about, List.map_map, Function.comp_def, ht]

/-- The host with a front end that makes `unit` of the path. -/
def serving (unit : SourceUnit) : Host := { host with units := (path, unit) :: host.units }

variable {host path}

theorem parseFile_serving_of_isFile (h : host.fileSystem.isFile path) (unit : SourceUnit) :
    (host.serving path unit).parseFile path [] =
      ⟨.ok unit, [⟨path, defaultArguments ++ host.sdk.arguments ++ [], none⟩]⟩ := by
  simp [parseFile, FileSystem.exists?, request, serving, unit?, h]

theorem parseFile_serving_of_not_isFile (h : ¬ host.fileSystem.isFile path) (unit : SourceUnit) :
    (host.serving path unit).parseFile path [] = host.parseFile path [] := by
  simp [parseFile, serving, h]

end Host

namespace Analysis

variable {host : Host} {path : Text} {unit unit' : SourceUnit}

theorem ofTree_congr {root root' : Cursor}
    (hr : root.about host.fileSystem (host.fileSystem.realPath path) =
      root'.about host.fileSystem (host.fileSystem.realPath path))
    (hd : (unit.about host.fileSystem (host.fileSystem.realPath path)).diagnostics =
      (unit'.about host.fileSystem (host.fileSystem.realPath path)).diagnostics)
    (offers : List Offer) (traced : Bool) (clock : Clock) (calls : List ParseCall) :
    ofTree host offers traced clock path root unit calls =
      ofTree host offers traced clock path root' unit' calls := by
  have hi : host.diagnosticItems path unit.diagnostics =
      host.diagnosticItems path unit'.diagnostics := by
    rw [host.diagnosticItems_eq_about, host.diagnosticItems_eq_about, hd]
  have hs (list : BanList) : list.engine.run ((host.scope path).nodes root) =
      list.engine.run ((host.scope path).nodes root') := by
    rw [host.run_nodes_scope, host.run_nodes_scope, hr]
  have ht : ((host.scope path).nodes root).flatMap Node.trace =
      ((host.scope path).nodes root').flatMap Node.trace := by
    rw [host.trace_nodes_scope, host.trace_nodes_scope, hr]
  simp only [Host.diagnosticItems, Host.scope] at hi hs ht
  simp only [ofTree, hi, hs, ht]

theorem readings_ofTree_ne (root : Cursor) (offers : List Offer) (traced : Bool) (clock : Clock)
    (calls : List ParseCall) :
    (ofTree host offers traced clock path root unit calls).readings ≠ 3 := by
  unfold ofTree
  dsimp only
  split
  · simp
  · split <;> simp

theorem ofUnit_eq_iff (hu : unit.about host.fileSystem (host.fileSystem.realPath path) =
      unit'.about host.fileSystem (host.fileSystem.realPath path))
    (offers : List Offer) (traced : Bool) (clock : Clock) (calls : List ParseCall) :
    ofUnit host offers traced clock path unit calls =
        ofUnit host offers traced clock path unit' calls ↔
      (unit.root.isSome ↔ unit'.root.isSome) := by
  have hd := congrArg SourceUnit.diagnostics hu
  have hr := congrArg SourceUnit.root hu
  unfold ofUnit
  cases h : unit.root with
  | none =>
    cases h' : unit'.root with
    | none => simp
    | some root' =>
      refine iff_of_false (fun he => ?_) (by simp)
      exact readings_ofTree_ne root' offers traced clock calls (congrArg readings he).symm
  | some root =>
    cases h' : unit'.root with
    | none =>
      refine iff_of_false (fun he => ?_) (by simp)
      exact readings_ofTree_ne root offers traced clock calls (congrArg readings he)
    | some root' =>
      simp only [SourceUnit.about, h, h', Option.bind_some] at hr
      simp [ofTree_congr hr hd]

end Analysis

/-- Surroundings in which `alias.cpp` is a link to `main.cpp`. -/
def aliasHost : Host where
  fileSystem := ⟨[("main.cpp", [])], [], [("alias.cpp", "main.cpp")], "/work"⟩
  units := []
  sdk := .missing
  environment := []

/-- The tree of `nestedRoot` without its header, for a file that is called `alias.cpp`. -/
def aliasUnit : SourceUnit where
  root := some (.node ⟨.other "TRANSLATION_UNIT", "main.cpp", ⟨none, 0, 0⟩, ⟨0, 10, 1, 1⟩, []⟩
    [nestedCall "alias.cpp"])
  diagnostics := [⟨.warning, "unused variable", some ⟨some "alias.cpp", 1, 1⟩⟩]

end BannedCalls
