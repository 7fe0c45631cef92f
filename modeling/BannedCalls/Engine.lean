import BannedCalls.Call.Rule
import BannedCalls.Source.Walk

/-!
# Rule engines

An engine takes every call of a walk to each of its visitors in turn and strings together what
they report. A visitor without a hook for calls is refused when the engine is built.

`Desk` keeps engines by name. An engine owns its ban list, so that what is done to one of them
does not show in another.
-/

namespace BannedCalls

structure Visitor (α : Type) where
  name : Text
  /-- What a visitor has to say about a call; nothing at all counts as an empty report. -/
  onCall : Option (Cursor → Option (List α))

structure MissingHook where
  visitor : Text
  deriving DecidableEq, Repr

def MissingHook.message (e : MissingHook) : Text := e.visitor ++ " has no on_call_expression() hook"

/-- An engine by the hooks of its visitors. -/
structure RuleEngine (α : Type) where
  hooks : List (Cursor → Option (List α))

namespace RuleEngine

variable {α : Type}

def hookOf (visitor : Visitor α) : Except MissingHook (Cursor → Option (List α)) :=
  visitor.onCall.elim (.error ⟨visitor.name⟩) .ok

def ofVisitors (visitors : List (Visitor α)) : Except MissingHook (RuleEngine α) := do
  return ⟨← visitors.mapM hookOf⟩

def reports (engine : RuleEngine α) (call : Cursor) : List α :=
  engine.hooks.flatMap fun hook => (hook call).getD []

def run (engine : RuleEngine α) (nodes : List Node) : List α :=
  (nodes.filter fun n => n.info.kind = .callExpr).flatMap fun n => engine.reports n.cursor

theorem run_append (engine : RuleEngine α) (xs ys : List Node) :
    engine.run (xs ++ ys) = engine.run xs ++ engine.run ys := by
  simp [run]

end RuleEngine

namespace BanList

/-- The ban rule over a list, as a visitor. -/
def visitor (list : BanList) : Visitor Finding :=
  ⟨BanRule.name, some fun call => some (BanRule.findings list call)⟩

/-- The engine with the ban rule as its only visitor. -/
def engine (list : BanList) : RuleEngine Finding :=
  ⟨[fun call => some (BanRule.findings list call)]⟩

theorem ofVisitors_visitor (list : BanList) :
    RuleEngine.ofVisitors [list.visitor] = .ok list.engine := rfl

end BanList

/-! ## Named engines -/

namespace Desk

/-- What an engine can be used for once it is built. Only the first use may change it. -/
inductive Use
  | add (pair : Json)
  | entries
  | run (nodes : List Node)
  | visit (node : Node)

inductive Action
  | build (pairs : Option Json)
  | use (use : Use)

structure Step where
  id : Text
  action : Action

inductive Reply
  | entries (pairs : List BannedPair)
  | findings (found : List Finding)

inductive StepError
  | pair (error : PairError)
  | unknownEngine

end Desk

/-- The engines of a desk by their names; each is its ban list. -/
abbrev Desk := List (Text × BanList)

namespace Desk

def engine? (desk : Desk) (id : Text) : Option BanList :=
  (desk.find? fun entry => entry.1 = id).map Prod.snd

def put (desk : Desk) (id : Text) (list : BanList) : Desk :=
  (id, list) :: desk.filter fun entry => entry.1 ≠ id

/-- A value that stands for nothing stands for no pairs. -/
def build : Option Json → Except PairError BanList
  | none => .ok .empty
  | some pairs => if pairs.isNothing then .ok .empty else BanList.ofJson pairs

/-- The reply of an engine to a use of it, and the engine afterwards. -/
def serve (list : BanList) : Use → Except PairError Reply × BanList
  | .add pair =>
    match list.add (.value pair) with
    | .ok next => (.ok (.entries next.entries), next)
    | .error e => (.error e, list)
  | .entries => (.ok (.entries list.entries), list)
  | .run nodes => (.ok (.findings (list.engine.run nodes)), list)
  | .visit node => (.ok (.findings (BanRule.findings list node.cursor)), list)

/-- What an action does to the engine that it is meant for, of which there may be none yet. A
failed build leaves the earlier engine. -/
def act (current : Option BanList) : Action → Except StepError Reply × Option BanList
  | .build pairs =>
    match build pairs with
    | .ok list => (.ok (.entries list.entries), some list)
    | .error e => (.error (.pair e), current)
  | .use use =>
    match current with
    | none => (.error .unknownEngine, none)
    | some list =>
      let (reply, next) := serve list use
      (reply.mapError .pair, some next)

def step (desk : Desk) (s : Step) : Except StepError Reply × Desk :=
  let (reply, list) := act (desk.engine? s.id) s.action
  (reply, list.elim desk (desk.put s.id))

def replies (desk : Desk) : List Step → List (Except StepError Reply)
  | [] => []
  | s :: rest => (desk.step s).1 :: replies (desk.step s).2 rest

theorem engine?_put_self (desk : Desk) (id : Text) (list : BanList) :
    (desk.put id list).engine? id = some list := by simp [put, engine?]

theorem engine?_put_of_ne (desk : Desk) {id other : Text} (list : BanList) (h : other ≠ id) :
    (desk.put id list).engine? other = desk.engine? other := by
  have h' : id ≠ other := fun e => h e.symm
  simp only [put, engine?, List.find?_cons, h', decide_false, List.find?_filter]
  congr 2
  funext entry
  by_cases he : entry.1 = other
  · simp [he, h]
  · simp [he]

end Desk

end BannedCalls
