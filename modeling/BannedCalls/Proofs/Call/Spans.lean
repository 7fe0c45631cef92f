import BannedCalls.Proofs.Call.Chains

/-!
# The span of a finding

A finding spans the callee of a call. Nothing is promised about extents, but a token that counts
starts inside the extent of its cursor. So the names of the callee keep the span from being empty,
and the bracket behind the callee keeps it from reaching the end of the call.
-/

namespace BannedCalls

theorem CursorInfo.quiet_tokens_sublist (info : CursorInfo) :
    info.quiet.tokens.Sublist info.tokens := List.filter_sublist

theorem CursorInfo.bounds_of_mem_quiet {info : CursorInfo} {token : Token}
    (h : token ∈ info.quiet.tokens) :
    info.extent.start ≤ token.offset ∧ token.offset < info.extent.stop := by
  have hn := (List.mem_filter.1 h).2
  simp only [Token.isNoise, Bool.not_eq_true', Bool.or_eq_false_iff, decide_eq_false_iff_not] at hn
  exact ⟨Int.not_lt.1 hn.1.2, Int.not_le.1 hn.2⟩

/-- Between two offsets there is room for tokens that start one behind the other. -/
theorem Token.length_le_of_pairwise {start stop : Int} {first : Token} {rest : List Token}
    (h : ∀ token ∈ first :: rest, start ≤ token.offset ∧ token.offset < stop)
    (hs : (first :: rest).Pairwise (·.offset < ·.offset)) :
    ((first :: rest).length : Int) ≤ stop - start := by
  induction rest generalizing start first with
  | nil =>
    have hf := h first List.mem_cons_self
    simp only [List.length_singleton]
    omega
  | cons second rest ih =>
    have hf := h first List.mem_cons_self
    obtain ⟨hlt, hs⟩ := List.pairwise_cons.1 hs
    -- The others all start behind the first, which takes one offset of the room.
    have hr : ((second :: rest).length : Int) ≤ stop - (first.offset + 1) := by
      refine ih (fun token ht => ⟨hlt token ht, ?_⟩) hs
      exact (h token (List.mem_cons_of_mem first ht)).2
    rw [List.length_cons, Int.natCast_add]
    omega

namespace Finding

def Covers (f : Finding) (offset : Int) : Prop := f.start ≤ offset ∧ offset < f.stop

/-- What a finding has to do with a call and with its callee. -/
structure Spans (f : Finding) (call callee : CursorInfo) : Prop where
  start : f.start = callee.extent.start
  stop : f.stop = callee.extent.stop
  line : f.line = some callee.extent.line
  column : f.column = some callee.extent.column
  names : ∃ receiver dot member, callee.quiet.tokens = [receiver, dot, member] ∧
    f.message = BanRule.messageStart ++ receiver.spelling ++ "." ++ member.spelling ∧
    f.Covers receiver.offset ∧ f.Covers member.offset
  bracket : ∃ token ∈ call.tokens, token.spelling = "(" ∧
    f.stop ≤ token.offset ∧ token.offset < call.extent.stop
  width_pos : 1 ≤ f.width
  stop_lt : f.stop < call.extent.stop
  three_le_width : callee.tokens.Pairwise (·.offset < ·.offset) → 3 ≤ f.width

end Finding

namespace BanRule

theorem stop_finding (shape : CallShape) :
    (finding shape).stop = shape.callee.info.extent.stop := by
  simp only [finding, Finding.stop]
  omega

theorem covers_finding {shape : CallShape} {token : Token}
    (h : token ∈ shape.callee.info.quiet.tokens) : (finding shape).Covers token.offset := by
  rw [Finding.Covers, stop_finding]
  exact CursorInfo.bounds_of_mem_quiet h

theorem length_le_width {shape : CallShape} {first : Token} {rest : List Token}
    (h : ∀ token ∈ first :: rest, token ∈ shape.callee.info.quiet.tokens)
    (hs : (first :: rest).Pairwise (·.offset < ·.offset)) :
    ((first :: rest).length : Int) ≤ (finding shape).width :=
  Token.length_le_of_pairwise (fun token ht => CursorInfo.bounds_of_mem_quiet (h token ht)) hs

theorem spans_finding {call : Cursor} {chain : List Cursor} {shape : CallShape}
    (h : call.Reads chain shape) : (finding shape).Spans call.info shape.callee.info := by
  obtain ⟨receiver, dot, member, ht, -, hr, -, -, hm⟩ := h.access
  obtain ⟨before, bracket, after, hc, -, hle, hb⟩ := h.bracket
  have hrm : receiver ∈ shape.callee.info.quiet.tokens := by simp [ht]
  have hmm : member ∈ shape.callee.info.quiet.tokens := by simp [ht]
  have hbm : bracket ∈ call.info.quiet.tokens := by simp [hc]
  have hlt : bracket.offset < call.info.extent.stop := (CursorInfo.bounds_of_mem_quiet hbm).2
  constructor
  case start => rfl
  case stop => exact stop_finding shape
  case line => rfl
  case column => rfl
  case names =>
    refine ⟨receiver, dot, member, ht, ?_, covers_finding hrm, covers_finding hmm⟩
    rw [hr, hm]
    rfl
  case bracket =>
    refine ⟨bracket, (CursorInfo.quiet_tokens_sublist _).subset hbm, hb, ?_, hlt⟩
    rwa [stop_finding]
  case width_pos =>
    have hs : [receiver].Pairwise (·.offset < ·.offset) := List.pairwise_singleton _ _
    refine length_le_width (fun token htok => ?_) hs
    rwa [List.mem_singleton.1 htok]
  case stop_lt =>
    rw [stop_finding]
    exact Int.lt_of_le_of_lt hle hlt
  case three_le_width =>
    intro hs
    have hq := hs.sublist (CursorInfo.quiet_tokens_sublist _)
    rw [ht] at hq
    refine length_le_width (fun token htok => ?_) hq
    rwa [ht]

end BanRule

namespace Scope

/-- What is found in a walk spans the callee of a call of the walk, whatever extents the cursors
have. -/
theorem exists_spans_of_mem_run {scope : Scope} {root : Cursor} {list : BanList} {f : Finding}
    (h : f ∈ list.engine.run (scope.nodes root)) :
    ∃ n ∈ scope.nodes root, n.info.kind = .callExpr ∧ ∃ (chain : List Cursor) (callee : Cursor),
      n.cursor.CalleeChain chain callee ∧ f.Spans n.info callee.info := by
  rw [BanList.run_engine] at h
  obtain ⟨n, hn, hf⟩ := List.mem_flatMap.1 h
  obtain ⟨hn, hk⟩ := List.mem_filter.1 hn
  obtain ⟨shape, hs, -, rfl⟩ := BanRule.exists_shape_of_mem_findings hf
  obtain ⟨chain, hr⟩ := Cursor.shape?_eq_some_iff.1 hs
  exact ⟨n, hn, of_decide_eq_true hk, chain, shape.callee, hr.leads, BanRule.spans_finding hr⟩

/-- A call that begins in the middle of its own callee. -/
def skewedCall : Cursor :=
  let place : Location := ⟨some "main.cpp", 1, 1⟩
  .node ⟨.callExpr, "b", place, ⟨6, 12, 1, 7⟩, [⟨.punctuation, "(", 10⟩, ⟨.punctuation, ")", 11⟩]⟩
    [.node ⟨.memberRefExpr, "b", place, ⟨0, 9, 1, 1⟩,
      [⟨.identifier, "a", 0⟩, ⟨.punctuation, ".", 4⟩, ⟨.identifier, "b", 8⟩]⟩ []]

/-- The finding begins before the call does, and yet it ends inside the call. -/
theorem exists_spans_of_mem_run_skewed :
    let scope : Scope := ⟨⟨[], [], [], "/work"⟩, some "/work/main.cpp"⟩
    let list : BanList := ⟨[⟨"a", "b"⟩]⟩
    ∃ f ∈ list.engine.run (scope.nodes skewedCall), (f.start, f.width) = (0, 9) ∧
      ∃ n ∈ scope.nodes skewedCall, n.info.kind = .callExpr ∧
        ∃ (chain : List Cursor) (callee : Cursor),
          n.cursor.CalleeChain chain callee ∧ f.Spans n.info callee.info := by
  intro scope list
  have hf : ∃ f ∈ list.engine.run (scope.nodes skewedCall), (f.start, f.width) = (0, 9) := by
    decide +kernel
  obtain ⟨f, hf, hs⟩ := hf
  exact ⟨f, hf, hs, exists_spans_of_mem_run hf⟩

end Scope

end BannedCalls
