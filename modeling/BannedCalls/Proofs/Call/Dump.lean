import BannedCalls.CallDump
import BannedCalls.Proofs.Analysis.Findings
import BannedCalls.Proofs.Ban.Accepted
import BannedCalls.Proofs.Ban.Forms
import BannedCalls.Proofs.Call.Chains
import BannedCalls.Proofs.Call.Scoped
import BannedCalls.Proofs.Source.Lineage

/-!
# What a dump shows

A dump has a line for every call that a walk meets. Where it shows a pair, this is the pair that the
rule compares with the entries of a ban list: a list finds the call once for each entry that is the
pair. Where it shows a dash, no list finds the call. The pair can be told from the line as long as
identifiers are spelled without dots.
-/

namespace BannedCalls

open Text

/-- A pair that is shown with one dot, between two names. -/
def BannedPair.Dotted (p : BannedPair) : Prop := p.Named ∧ dot ∉ p.receiver ∧ dot ∉ p.member

theorem BannedPair.shown_ne_dash (p : BannedPair) : p.shown ≠ "-" := by
  intro h
  have hd : dot ∈ p.shown := by simp [p.shown_eq]
  rw [h] at hd
  exact absurd hd (by decide)

theorem BannedPair.eq_of_shown_eq {p q : BannedPair} (hp : p.Dotted) (h : p.shown = q.shown) :
    p = q := by
  obtain ⟨receiver, member⟩ := p
  obtain ⟨receiver', member'⟩ := q
  obtain ⟨-, hr, hm⟩ := hp
  rw [BannedPair.shown_eq, BannedPair.shown_eq] at h
  -- With one dot in the text there is one place to cut it.
  have hc : (receiver' ++ dot :: member').count dot = 1 := by
    rw [← h, List.count_append, List.count_cons_self, List.count_eq_zero.2 hr,
      List.count_eq_zero.2 hm]
  obtain ⟨hr', hm'⟩ := not_mem_of_count_eq_one hc
  have hs := congrArg (splitOn dot) h
  rw [splitOn_append_cons hr hm, splitOn_append_cons hr' hm'] at hs
  obtain ⟨rfl, rfl⟩ : receiver = receiver' ∧ member = member' := by simpa using hs
  rfl

/-! ## The pair of a call -/

namespace Cursor

/-- The pair that the rule compares with the entries of a list. -/
def pair? (call : Cursor) : Option BannedPair :=
  call.shape?.map fun shape => ⟨shape.receiver, shape.member⟩

theorem shapeText_eq (call : Cursor) :
    CallDump.shapeText call = call.pair?.elim ("-" : Text) BannedPair.shown := by
  unfold CallDump.shapeText pair?
  cases call.shape? <;> rfl

end Cursor

theorem BanRule.length_findings (list : BanList) (call : Cursor) :
    (findings list call).length = call.pair?.elim 0 fun p => list.entries.count p := by
  rw [findings_eq, Cursor.pair?]
  cases call.shape? <;> simp

namespace Cursor

variable {call : Cursor} {p : BannedPair}

/-- The pair of a call shows in how often the lists find it. -/
theorem pair?_eq_some_iff (hp : p.Named) :
    call.pair? = some p ↔ ∀ list : BanList, (∀ q ∈ list.entries, q.Named) →
      (BanRule.findings list call).length = list.entries.count p := by
  constructor
  · intro h list _
    rw [BanRule.length_findings, h, Option.elim_some]
  · intro h
    have hl := h ⟨[p]⟩ (List.forall_mem_singleton.2 hp)
    rw [BanRule.length_findings, List.count_singleton_self] at hl
    cases hq : call.pair? with
    | none => simp [hq] at hl
    | some q =>
      rw [hq, Option.elim_some, List.count_singleton] at hl
      by_cases he : p = q
      · rw [he]
      · simp [he] at hl

theorem pair?_eq_none_iff (hn : ∀ p, call.pair? = some p → p.Named) :
    call.pair? = none ↔ ∀ list : BanList, (∀ q ∈ list.entries, q.Named) →
      BanRule.findings list call = [] := by
  constructor
  · intro h list _
    rw [← List.length_eq_zero_iff, BanRule.length_findings, h, Option.elim_none]
  · intro h
    cases hp : call.pair? with
    | none => rfl
    | some p =>
      have hf := h ⟨[p]⟩ (List.forall_mem_singleton.2 (hn p hp))
      have hl := BanRule.length_findings ⟨[p]⟩ call
      rw [hf, hp] at hl
      simp at hl

theorem shapeText_eq_shown_iff (hd : ∀ q, call.pair? = some q → q.Dotted) :
    CallDump.shapeText call = p.shown ↔ call.pair? = some p := by
  rw [shapeText_eq]
  cases hq : call.pair? with
  | none =>
    rw [Option.elim_none]
    exact iff_of_false p.shown_ne_dash.symm (Option.some_ne_none p).symm
  | some q =>
    rw [Option.elim_some, Option.some_inj]
    exact ⟨BannedPair.eq_of_shown_eq (hd q hq), congrArg _⟩

theorem shapeText_eq_dash_iff : CallDump.shapeText call = "-" ↔ call.pair? = none := by
  rw [shapeText_eq]
  cases hq : call.pair? with
  | none => simp
  | some q => exact iff_of_false q.shown_ne_dash (Option.some_ne_none q)

/-- Identifiers are spelled by texts that are not empty and have no dot. -/
def Spelled (root : Cursor) : Prop :=
  ∀ n ∈ root.nodes, ∀ token ∈ n.info.tokens, token.kind = .identifier →
    token.spelling ≠ [] ∧ dot ∉ token.spelling

/-- The callee of a call is met in the walk of the call. -/
theorem callee_mem_nodesUnder {shape : CallShape} (h : call.shape? = some shape)
    (ancestors : List CursorInfo) :
    shape.callee ∈ (call.nodesUnder ancestors).map Node.cursor := by
  obtain ⟨chain, hr⟩ := shape?_eq_some_iff.1 h
  have hm : shape.callee ∈ chain := List.mem_of_getLast? hr.leads.last
  have hd := (hr.leads.prefix_nodesUnder ancestors).subset hm
  rw [List.map_drop] at hd
  exact List.mem_of_mem_drop hd

end Cursor

namespace Scope

variable {scope : Scope} {root : Cursor} {i : Nat} {n : Node}

theorem exists_info_of_mem_nodes (hn : n ∈ scope.nodes root) :
    ∃ m ∈ root.nodes, m.info = n.info := by
  rw [nodes_eq] at hn
  obtain ⟨m, hm, rfl⟩ := List.mem_map.1 hn
  exact ⟨m, (List.mem_filter.1 hm).1, rfl⟩

/-- In a tree whose identifiers are spelled so, the pairs of calls are shown with one dot. -/
theorem dotted_of_pair? (hs : root.Spelled) (hn : (scope.nodes root)[i]? = some n)
    {p : BannedPair} (hp : n.cursor.pair? = some p) : p.Dotted := by
  obtain ⟨shape, hshape, rfl⟩ := Option.map_eq_some_iff.1 hp
  have hcallee : shape.callee ∈ (scope.nodes root).map Node.cursor := by
    have hm := ((Scope.nodesUnder_prefix_drop hn).map Node.cursor).subset
      (Cursor.callee_mem_nodesUnder hshape n.ancestors)
    rw [List.map_drop] at hm
    exact List.mem_of_mem_drop hm
  obtain ⟨m, hm, hmc⟩ := List.mem_map.1 hcallee
  obtain ⟨k, hk, hki⟩ := exists_info_of_mem_nodes hm
  have hk' : k.info = shape.callee.info := hki.trans (congrArg Cursor.info hmc)
  -- The two names are identifiers among the tokens of the callee.
  have htoken : ∀ token ∈ shape.callee.info.ownTokens, token.kind = .identifier →
      token.spelling ≠ [] ∧ dot ∉ token.spelling := by
    intro token ht
    exact hs k hk token (hk' ▸ (List.mem_filter.1 ht).1)
  obtain ⟨-, -, -, -, ha, -⟩ := Cursor.shape?_eq_some_iff_callee?.1 hshape
  obtain ⟨receiver, point, member, ht, hr, hr', -, hm, hm'⟩ := memberAccess?_eq_some_iff.1 ha
  rw [ht] at htoken
  have hreceiver := htoken receiver (by simp) hr
  have hmember := htoken member (by simp) hm
  rw [hr'] at hreceiver
  rw [hm'] at hmember
  exact ⟨⟨hreceiver.1, hmember.1⟩, hreceiver.2, hmember.2⟩

end Scope

/-! ## The lines of a dump -/

namespace CallDump

variable {scope : Scope} {root : Cursor} {i : Nat} {n : Node} {first last : Option Int}

/-- Whether a node has a line in a dump. -/
def hasLine (first last : Option Int) (n : Node) : Bool :=
  n.info.kind = .callExpr && isWithin first last n.info.location.line

theorem hasLine_iff : hasLine first last n ↔ n.info.kind = .callExpr ∧
    ∀ a b, first = some a → last = some b →
      a ≤ n.info.location.line ∧ n.info.location.line ≤ b := by
  rw [hasLine, Bool.and_eq_true, decide_eq_true_iff]
  cases first <;> cases last <;> simp [isWithin]

/-- The positions of the nodes that have a line. -/
def positions (nodes : List Node) (first last : Option Int) : List Nat :=
  (nodes.zipIdx.filter fun x => hasLine first last x.1).map Prod.snd

theorem pairwise_positions (nodes : List Node) (first last : Option Int) :
    (positions nodes first last).Pairwise (· < ·) := by
  have hs : (positions nodes first last).Sublist (nodes.zipIdx.map Prod.snd) :=
    List.filter_sublist.map Prod.snd
  rw [List.zipIdx_map_snd] at hs
  exact List.Pairwise.sublist hs (List.pairwise_lt_range' 1)

theorem mem_positions {nodes : List Node} :
    i ∈ positions nodes first last ↔ ∃ n, nodes[i]? = some n ∧ hasLine first last n := by
  simp only [positions, List.mem_map, List.mem_filter, List.mem_zipIdx_iff_getElem?]
  constructor
  · rintro ⟨⟨n, i⟩, hn, rfl⟩
    exact ⟨n, hn⟩
  · rintro ⟨n, hn⟩
    exact ⟨(n, i), hn, rfl⟩

/-- What holds of every node and its line holds of the positions and the lines of a dump. -/
theorem forall₂_positions {nodes : List Node} {R : Nat → Text → Prop}
    (h : ∀ i n, nodes[i]? = some n → R i (line n)) :
    List.Forall₂ R (positions nodes first last) (lines nodes first last) := by
  have hz : nodes.filter (hasLine first last) =
      (nodes.zipIdx.filter fun x => hasLine first last x.1).map Prod.fst := by
    conv_lhs => rw [← List.zipIdx_map_fst 0 nodes]
    exact List.filter_map
  have hl : lines nodes first last =
      (nodes.zipIdx.filter fun x => hasLine first last x.1).map fun x => line x.1 :=
    (congrArg (List.map line) hz).trans List.map_map
  rw [hl, positions, List.forall₂_map_left_iff, List.forall₂_map_right_iff, List.forall₂_same]
  rintro ⟨n, i⟩ hx
  exact h i n (List.mem_zipIdx_iff_getElem?.1 (List.mem_filter.1 hx).1)

/-- A text shows what lists find at a call: the pair that they have to name, or a dash where none
finds anything. -/
structure ShowsCall (shape : Text) (call : Cursor) : Prop where
  pair : ∀ p : BannedPair, shape = p.shown ↔ p.Named ∧
    ∀ list : BanList, (∀ q ∈ list.entries, q.Named) →
      (BanRule.findings list call).length = list.entries.count p
  dash : shape = "-" ↔ ∀ list : BanList, (∀ q ∈ list.entries, q.Named) →
    BanRule.findings list call = []

/-- A text shows what stands above a node of a walk: the kinds along its only lineage, which is
where the links to the parents lead, as far as to the third. -/
structure ShowsAbove (parents : Text) (scope : Scope) (root : Cursor) (i : Nat)
    (above : List Nat) (kinds : List CursorKind) : Prop where
  lineage : Entry.Lineage (scope.outline root) i above
  unique : ∀ other, Entry.Lineage (scope.outline root) i other → other = above
  climb : Entry.climb (scope.outline root) 3 i = above.take 3
  kindsAt : above.map (fun j => (scope.nodes root)[j]?.map fun m => m.info.kind) = kinds.map some
  text : parents = Text.join " -> " ((kinds.take (min 3 above.length)).map CursorKind.shown)

/-- A line shows the node at a position of a walk. -/
def Shows (scope : Scope) (root : Cursor) (i : Nat) (text : Text) : Prop :=
  ∃ n shape parents above kinds, (scope.nodes root)[i]? = some n ∧
    text = "line=" ++ Text.ofInt n.info.location.line ++
      " column=" ++ Text.ofInt n.info.location.column ++ " name=" ++ n.info.name ++
      " callee=" ++ calleeText n.cursor ++ " shape=" ++ shape ++ " parents=" ++ parents ∧
    ShowsCall shape n.cursor ∧ ShowsAbove parents scope root i above kinds

theorem showsCall (hs : root.Spelled) (hn : (scope.nodes root)[i]? = some n) :
    ShowsCall (shapeText n.cursor) n.cursor := by
  have hd : ∀ q, n.cursor.pair? = some q → q.Dotted := fun q => Scope.dotted_of_pair? hs hn
  refine ⟨fun p => ?_, ?_⟩
  · rw [Cursor.shapeText_eq_shown_iff hd]
    constructor
    · intro hp
      have hq : p.Named := (hd p hp).1
      exact ⟨hq, (Cursor.pair?_eq_some_iff hq).1 hp⟩
    · rintro ⟨hq, hl⟩
      exact (Cursor.pair?_eq_some_iff hq).2 hl
  · rw [Cursor.shapeText_eq_dash_iff]
    exact Cursor.pair?_eq_none_iff fun q hq => (hd q hq).1

theorem exists_showsAbove (hn : (scope.nodes root)[i]? = some n) :
    ∃ above kinds, ShowsAbove (ancestorText n) scope root i above kinds := by
  obtain ⟨above, hl, hu, hc, ha⟩ := Scope.exists_lineage hn
  refine ⟨above, n.ancestors.map CursorInfo.kind, hl, hu, hc 3, ?_, ?_⟩
  · have hk := congrArg (List.map (Option.map CursorInfo.kind)) ha
    simpa only [List.map_map, Function.comp_def, Option.map_map, Option.map_some] using hk
  · have hlen : above.length = n.ancestors.length := by
      simpa only [List.length_map] using congrArg List.length ha
    have htake : (n.ancestors.map CursorInfo.kind).take (min 3 above.length) =
        (n.ancestors.map CursorInfo.kind).take 3 := by
      rw [hlen, ← List.length_map CursorInfo.kind, ← List.take_eq_take_min]
    rw [htake, ancestorText, ← List.map_take, List.map_map]
    rfl

/-- A dump has a line for each call of the walk, in the order of the walk; two bounds leave those
between them. Where a line shows a pair, every list finds the call once per entry that is the pair,
where it shows a dash no list finds it, and it ends with the kinds of up to three cursors above. -/
theorem lines_show (scope : Scope) {root : Cursor} (hs : root.Spelled) (first last : Option Int) :
    ∃ positions : List Nat, positions.Pairwise (· < ·) ∧
      (∀ i, i ∈ positions ↔ ∃ n, (scope.nodes root)[i]? = some n ∧ n.info.kind = .callExpr ∧
        ∀ a b, first = some a → last = some b →
          a ≤ n.info.location.line ∧ n.info.location.line ≤ b) ∧
      List.Forall₂ (Shows scope root) positions (lines (scope.nodes root) first last) := by
  refine ⟨positions (scope.nodes root) first last, pairwise_positions _ first last, ?_, ?_⟩
  · intro i
    simp only [mem_positions, hasLine_iff]
  · apply forall₂_positions
    intro i n hn
    obtain ⟨above, kinds, ha⟩ := exists_showsAbove hn
    exact ⟨n, shapeText n.cursor, ancestorText n, above, kinds, hn, rfl, showsCall hs hn, ha⟩

/-- The calls located in a header have no line. -/
theorem lines_show_nested :
    let scope : Scope := ⟨nestedHost.fileSystem, some "/work/main.cpp"⟩
    let outer : Text :=
      "line=1 column=1 name=b callee=a . b shape=a.b parents=CursorKind.TRANSLATION_UNIT"
    let inner : Text := "line=1 column=1 name=d callee=c . d shape=c.d " ++
      "parents=CursorKind.CALL_EXPR -> CursorKind.TRANSLATION_UNIT"
    nestedRoot.Spelled ∧ ∃ positions : List Nat, positions.Pairwise (· < ·) ∧
      List.Forall₂ (Shows scope nestedRoot) positions [outer, inner] := by
  intro scope outer inner
  have hs : nestedRoot.Spelled := by
    unfold Cursor.Spelled
    decide +kernel
  have hl : lines (scope.nodes nestedRoot) (some 1) (some 1) = [outer, inner] := by decide +kernel
  obtain ⟨positions, hp, -, hf⟩ := lines_show scope hs (some 1) (some 1)
  rw [hl] at hf
  exact ⟨hs, positions, hp, hf⟩

end CallDump

end BannedCalls
