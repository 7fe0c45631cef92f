import BannedCalls.Proofs.Call.Relabel

/-!
# Noise among tokens

Among the tokens of a cursor the comments are noise, and so are those that start outside its extent.
The rule does not hear it: in two trees that differ in noise alone every cursor has the same call
shape, and the same is found.
-/

namespace BannedCalls

def Token.isNoise (extent : Extent) (token : Token) : Bool :=
  token.kind = .comment || token.offset < extent.start || extent.stop ≤ token.offset

namespace CursorInfo

/-- The data of a cursor without the noise among its tokens. -/
def quiet (info : CursorInfo) : CursorInfo :=
  { info with tokens := info.tokens.filter fun token => !token.isNoise info.extent }

theorem ownTokens_eq (info : CursorInfo) : info.ownTokens = info.quiet.tokens := by
  refine List.filter_congr fun token _ => ?_
  rw [Bool.eq_iff_iff]
  simp [Token.isNoise, Extent.holds, and_assoc]

theorem quiet_quiet (info : CursorInfo) : info.quiet.quiet = info.quiet := by
  simp [quiet]

theorem keepsCalls_quiet : KeepsCalls quiet where
  kind _ := rfl
  extent _ := rfl
  ownTokens info := by rw [ownTokens_eq, ownTokens_eq, quiet_quiet]

end CursorInfo

/-- Two trees are the same without the noise. Then a walk of the one meets the same nodes as a walk
of the other, with the same shapes, noise apart, and every list finds the same in both. -/
theorem Scope.run_nodes_of_quiet_eq {root root' : Cursor}
    (h : root.relabel CursorInfo.quiet = root'.relabel CursorInfo.quiet) (scope : Scope)
    (list : BanList) :
    let shape := fun n : Node => n.cursor.shape?.map (CallShape.relabel CursorInfo.quiet)
    (scope.nodes root).map shape = (scope.nodes root').map shape ∧
      list.engine.run (scope.nodes root) = list.engine.run (scope.nodes root') := by
  intro shape
  have hk (info : CursorInfo) : scope.keeps info.quiet = scope.keeps info := rfl
  have hn : (scope.nodes root).map (Node.relabel CursorInfo.quiet) =
      (scope.nodes root').map (Node.relabel CursorInfo.quiet) := by
    rw [← nodes_relabel hk, ← nodes_relabel hk, h]
  have hs : shape = (fun n => n.cursor.shape?) ∘ Node.relabel CursorInfo.quiet :=
    funext fun n => (Cursor.shape?_relabel CursorInfo.keepsCalls_quiet n.cursor).symm
  constructor
  · rw [hs, ← List.map_map, ← List.map_map, hn]
  · have hr := list.run_nodes_relabel CursorInfo.keepsCalls_quiet
    rw [← hr, hn, hr]

/-! ## A call with a comment -/

/-- The call in `return a.b/**/();`, with these tokens for itself and for its callee. -/
def returnedCall (callTokens calleeTokens : List Token) : Cursor :=
  let place : Location := ⟨some "main.cpp", 1, 8⟩
  .node ⟨.callExpr, "b", place, ⟨7, 16, 1, 8⟩, callTokens⟩
    [.node ⟨.memberRefExpr, "b", place, ⟨7, 10, 1, 8⟩, calleeTokens⟩ []]

/-- In the noisy tree the comment is among the tokens of the call and of the callee, the call takes
in the whole statement, and the callee goes on to the bracket. -/
theorem Scope.run_nodes_of_quiet_eq_returned :
    let access : List Token :=
      [⟨.identifier, "a", 7⟩, ⟨.punctuation, ".", 8⟩, ⟨.identifier, "b", 9⟩]
    let comment : Token := ⟨.comment, "/**/", 10⟩
    let bracket : Token := ⟨.punctuation, "(", 14⟩
    let close : Token := ⟨.punctuation, ")", 15⟩
    let root := returnedCall (access ++ [bracket, close]) access
    let root' := returnedCall
      (⟨.keyword, "return", 0⟩ :: access ++ [comment, bracket, close, ⟨.punctuation, ";", 16⟩])
      (access ++ [comment, bracket])
    let scope : Scope := ⟨⟨[], [], [], "/work"⟩, some "/work/main.cpp"⟩
    let list : BanList := ⟨[⟨"a", "b"⟩]⟩
    root.relabel CursorInfo.quiet = root'.relabel CursorInfo.quiet ∧
      list.engine.run (scope.nodes root) = list.engine.run (scope.nodes root') ∧
      (list.engine.run (scope.nodes root')).map Finding.start = [7] := by
  intro access comment bracket close root root' scope list
  have h : root.relabel CursorInfo.quiet = root'.relabel CursorInfo.quiet := rfl
  refine ⟨h, (run_nodes_of_quiet_eq h scope list).2, ?_⟩
  decide +kernel

end BannedCalls
