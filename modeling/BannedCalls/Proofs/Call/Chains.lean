import BannedCalls.Proofs.Call.Noise
import BannedCalls.Proofs.Call.Wrapping
import BannedCalls.Proofs.Source.Blocks
import Mathlib.Data.List.Chain
import Mathlib.Data.List.Infix

/-!
# Chains of a callee

A call has a shape exactly when it reads so: a chain of wrappers leads from its first child to a
member reference spelled by an identifier, a dot and an identifier, and the first token of the call
behind that opens a bracket. There is one such chain at most, and it stands right behind the call in
every walk.
-/

namespace BannedCalls

/-! ## What the tokens say -/

theorem memberAccess?_eq_some_iff {tokens : List Token} {names : Text × Text} :
    memberAccess? tokens = some names ↔ ∃ receiver dot member, tokens = [receiver, dot, member] ∧
      receiver.kind = .identifier ∧ receiver.spelling = names.1 ∧ dot.spelling = "." ∧
      member.kind = .identifier ∧ member.spelling = names.2 := by
  constructor
  · intro h
    unfold memberAccess? at h
    split at h
    · next receiver dot member =>
      split at h
      · next hc =>
        obtain rfl := Option.some.inj h
        exact ⟨receiver, dot, member, rfl, hc.1, rfl, hc.2.2, hc.2.1, rfl⟩
      · cases h
    · cases h
  · rintro ⟨receiver, dot, member, rfl, hr, hr', hd, hm, hm'⟩
    simp [memberAccess?, hr, hr', hd, hm, hm']

theorem CursorInfo.opensAt_iff {info : CursorInfo} {offset : Int} :
    info.opensAt offset ↔ ∃ (before : List Token) (bracket : Token) (after : List Token),
      info.quiet.tokens = before ++ bracket :: after ∧ (∀ token ∈ before, token.offset < offset) ∧
        offset ≤ bracket.offset ∧ bracket.spelling = "(" := by
  unfold opensAt
  rw [ownTokens_eq]
  constructor
  · intro h
    cases hf : info.quiet.tokens.find? fun token => offset ≤ token.offset with
    | none => simp [hf] at h
    | some bracket =>
      obtain ⟨hb, before, after, he, hn⟩ := List.find?_eq_some_iff_append.1 hf
      simp only [hf, decide_eq_true_eq] at h hb
      refine ⟨before, bracket, after, he, fun token ht => ?_, hb, h⟩
      simpa using hn token ht
  · rintro ⟨before, bracket, after, he, hn, hb, hs⟩
    have hf : info.quiet.tokens.find? (fun token => offset ≤ token.offset) = some bracket := by
      refine List.find?_eq_some_iff_append.2 ⟨by simpa using hb, before, after, he, ?_⟩
      intro token ht
      simpa using hn token ht
    simp [hf, hs]

/-! ## Chains of wrappers -/

theorem Extent.sameOffsets_iff {a b : Extent} :
    a.sameOffsets b ↔ a.start = b.start ∧ a.stop = b.stop := by
  simp [sameOffsets]

namespace Cursor

/-- An unexposed cursor over the same offsets as its only child. -/
structure Wraps (outer inner : Cursor) : Prop where
  kind : outer.kind = .unexposedExpr
  children : outer.children = [inner]
  start : outer.info.extent.start = inner.info.extent.start
  stop : outer.info.extent.stop = inner.info.extent.stop

/-- A way from a call's first child to a member reference through wrappers. -/
structure CalleeChain (call : Cursor) (chain : List Cursor) (callee : Cursor) : Prop where
  first : chain.head? = call.children.head?
  last : chain.getLast? = some callee
  wraps : chain.IsChain Wraps
  kind : callee.kind = .memberRefExpr

/-- A call that reads `receiver.member(`, with the way to its callee. -/
structure Reads (call : Cursor) (chain : List Cursor) (shape : CallShape) : Prop where
  leads : call.CalleeChain chain shape.callee
  depth : chain.length = shape.depth
  access : ∃ receiver dot member, shape.callee.info.quiet.tokens = [receiver, dot, member] ∧
    receiver.kind = .identifier ∧ receiver.spelling = shape.receiver ∧ dot.spelling = "." ∧
    member.kind = .identifier ∧ member.spelling = shape.member
  bracket : ∃ (before : List Token) (bracket : Token) (after : List Token),
    call.info.quiet.tokens = before ++ bracket :: after ∧
    (∀ token ∈ before, token.offset < shape.callee.info.extent.stop) ∧
    shape.callee.info.extent.stop ≤ bracket.offset ∧ bracket.spelling = "("

theorem unwrap_of_wraps {outer inner : Cursor} (h : outer.Wraps inner) :
    outer.unwrap = inner.unwrap.map fun found => (found.1, found.2 + 1) := by
  obtain ⟨info, children⟩ := outer
  obtain rfl : children = [inner] := h.children
  exact unwrap_singleton h.kind (Extent.sameOffsets_iff.2 ⟨h.start.symm, h.stop.symm⟩)

theorem unwrap_of_isChain {c d : Cursor} {rest : List Cursor} (h : (c :: rest).IsChain Wraps)
    (hl : (c :: rest).getLast? = some d) (hd : d.kind ≠ .unexposedExpr) :
    c.unwrap = some (d, rest.length) := by
  induction rest generalizing c with
  | nil =>
    obtain rfl : c = d := Option.some.inj hl
    cases c
    exact unwrap_of_not_unexposed hd _
  | cons inner rest ih =>
    obtain ⟨hw, hc⟩ := List.isChain_cons_cons.1 h
    rw [List.getLast?_cons_cons] at hl
    rw [unwrap_of_wraps hw, ih hc hl]
    rfl

theorem exists_isChain_of_unwrap {c d : Cursor} {k : Nat} (h : c.unwrap = some (d, k)) :
    ∃ rest, (c :: rest).IsChain Wraps ∧ (c :: rest).getLast? = some d ∧ rest.length = k := by
  induction c using wrapper_induction generalizing k with
  | node info children ih =>
    by_cases hk : info.kind = .unexposedExpr
    · obtain ⟨inner, rfl, hs⟩ := eq_singleton_of_unwrap hk h
      rw [unwrap_singleton hk hs] at h
      obtain ⟨⟨d, k⟩, hb, he⟩ := Option.map_eq_some_iff.1 h
      obtain ⟨rfl, rfl⟩ := Prod.mk.inj he
      obtain ⟨rest, hc, hl, rfl⟩ := ih inner rfl hb
      obtain ⟨h1, h2⟩ := Extent.sameOffsets_iff.1 hs
      refine ⟨inner :: rest, List.isChain_cons_cons.2 ⟨⟨hk, rfl, h1.symm, h2.symm⟩, hc⟩, ?_, rfl⟩
      rwa [List.getLast?_cons_cons]
    · rw [unwrap_of_not_unexposed hk] at h
      obtain ⟨rfl, rfl⟩ := Prod.mk.inj (Option.some.inj h)
      exact ⟨[], List.isChain_singleton _, rfl, rfl⟩

theorem callee?_of_children {call first : Cursor} {others : List Cursor}
    (h : call.children = first :: others) : call.callee? = first.unwrap := by
  simp [callee?, h]

theorem callee?_of_calleeChain {call callee : Cursor} {chain : List Cursor}
    (h : call.CalleeChain chain callee) :
    ∃ k, call.callee? = some (callee, k) ∧ chain.length = k + 1 := by
  obtain ⟨hf, hl, hw, hk⟩ := h
  cases chain with
  | nil => simp at hl
  | cons first rest =>
    obtain ⟨others, hc⟩ := List.head?_eq_some_iff.1 hf.symm
    have hu : callee.kind ≠ .unexposedExpr := by simp [hk]
    exact ⟨rest.length, by rw [callee?_of_children hc, unwrap_of_isChain hw hl hu], rfl⟩

theorem exists_calleeChain {call callee : Cursor} {k : Nat} (h : call.callee? = some (callee, k))
    (hk : callee.kind = .memberRefExpr) :
    ∃ chain, call.CalleeChain chain callee ∧ chain.length = k + 1 := by
  cases hc : call.children with
  | nil => simp [callee?, hc] at h
  | cons first others =>
    rw [callee?_of_children hc] at h
    obtain ⟨rest, hw, hl, rfl⟩ := exists_isChain_of_unwrap h
    exact ⟨first :: rest, ⟨by rw [hc]; rfl, hl, hw, hk⟩, rfl⟩

theorem shape?_eq_some_iff_callee? {call : Cursor} {shape : CallShape} :
    call.shape? = some shape ↔ ∃ k, call.callee? = some (shape.callee, k) ∧ k + 1 = shape.depth ∧
      shape.callee.kind = .memberRefExpr ∧
      memberAccess? shape.callee.info.ownTokens = some (shape.receiver, shape.member) ∧
      call.info.opensAt shape.callee.info.extent.stop := by
  obtain ⟨receiver, member, callee, depth⟩ := shape
  constructor
  · intro h
    unfold shape? at h
    obtain ⟨⟨callee', k⟩, hc, h⟩ := Option.bind_eq_some_iff.1 h
    dsimp only at h
    split at h
    · cases h
    · next hk =>
      obtain ⟨⟨r, m⟩, hm, h⟩ := Option.bind_eq_some_iff.1 h
      dsimp only at h
      split at h
      · next ho =>
        obtain ⟨rfl, rfl, rfl, rfl⟩ := CallShape.mk.inj (Option.some.inj h)
        exact ⟨k, hc, rfl, not_not.1 hk, hm, ho⟩
      · cases h
  · rintro ⟨k, hc, rfl, hk, hm, ho⟩
    simp [shape?, hc, hk, hm, ho]

/-- A call has the shapes that it reads as. -/
theorem shape?_eq_some_iff {call : Cursor} {shape : CallShape} :
    call.shape? = some shape ↔ ∃ chain, call.Reads chain shape := by
  rw [shape?_eq_some_iff_callee?]
  constructor
  · rintro ⟨k, hc, hd, hk, hm, ho⟩
    obtain ⟨chain, hch, hl⟩ := exists_calleeChain hc hk
    rw [CursorInfo.ownTokens_eq] at hm
    exact ⟨chain, hch, hl.trans hd, memberAccess?_eq_some_iff.1 hm, CursorInfo.opensAt_iff.1 ho⟩
  · rintro ⟨chain, hch, hd, hm, ho⟩
    obtain ⟨k, hc, hl⟩ := callee?_of_calleeChain hch
    refine ⟨k, hc, hl.symm.trans hd, hch.kind, ?_, CursorInfo.opensAt_iff.2 ho⟩
    rw [CursorInfo.ownTokens_eq]
    exact memberAccess?_eq_some_iff.2 hm

/-- Wrappers and what they wrap stand one behind the other in a walk. -/
theorem isChain_prefix_nodesUnder {c : Cursor} {rest : List Cursor}
    (h : (c :: rest).IsChain Wraps) (ancestors : List CursorInfo) :
    c :: rest <+: (c.nodesUnder ancestors).map Node.cursor := by
  induction rest generalizing c ancestors with
  | nil =>
    rw [nodesUnder_eq_cons, List.map_cons]
    exact List.cons_prefix_cons.2 ⟨rfl, List.nil_prefix⟩
  | cons inner rest ih =>
    obtain ⟨hw, hc⟩ := List.isChain_cons_cons.1 h
    rw [nodesUnder_eq_cons, hw.children, nodesUnderAll, nodesUnderAll, List.append_nil,
      List.map_cons]
    exact List.cons_prefix_cons.2 ⟨rfl, ih hc _⟩

/-- The chain of a callee stands right behind the call. -/
theorem CalleeChain.prefix_nodesUnder {call callee : Cursor} {chain : List Cursor}
    (h : call.CalleeChain chain callee) (ancestors : List CursorInfo) :
    chain <+: ((call.nodesUnder ancestors).drop 1).map Node.cursor := by
  cases chain with
  | nil => exact List.nil_prefix
  | cons first rest =>
    obtain ⟨others, hc⟩ := List.head?_eq_some_iff.1 h.first.symm
    rw [nodesUnder_eq_cons, hc, nodesUnderAll, List.drop_one, List.tail_cons, List.map_append]
    exact (isChain_prefix_nodesUnder h.wraps _).trans (List.prefix_append _ _)

theorem CalleeChain.unique {call callee callee' : Cursor} {chain chain' : List Cursor}
    (h : call.CalleeChain chain callee) (h' : call.CalleeChain chain' callee') :
    chain = chain' ∧ callee = callee' := by
  obtain ⟨k, hc, hl⟩ := callee?_of_calleeChain h
  obtain ⟨k', hc', hl'⟩ := callee?_of_calleeChain h'
  obtain ⟨rfl, rfl⟩ := Prod.mk.inj (Option.some.inj (hc.symm.trans hc'))
  -- Both begin the walk below the call, and they are of one length.
  have hp := List.prefix_iff_eq_take.1 (h.prefix_nodesUnder [])
  have hp' := List.prefix_iff_eq_take.1 (h'.prefix_nodesUnder [])
  rw [hl] at hp
  rw [hl'] at hp'
  exact ⟨hp.trans hp'.symm, rfl⟩

end Cursor

namespace Scope

/-- A walked call has the shapes that it reads as, and none where it reads as none. The chain that
leads to its callee is the only one, and it is what the walk meets next. -/
theorem shape?_reads {scope : Scope} {root : Cursor} {i : Nat} {n : Node}
    (h : (scope.nodes root)[i]? = some n) :
    (∀ shape, n.cursor.shape? = some shape ↔ ∃ chain, n.cursor.Reads chain shape) ∧
      (n.cursor.shape? = none ↔ ∀ chain shape, ¬ n.cursor.Reads chain shape) ∧
      (∀ chain callee, n.cursor.CalleeChain chain callee →
        chain <+: ((scope.nodes root).drop (i + 1)).map Node.cursor ∧
        ∀ chain' callee', n.cursor.CalleeChain chain' callee' →
          chain' = chain ∧ callee' = callee) := by
  refine ⟨fun shape => Cursor.shape?_eq_some_iff, ?_, ?_⟩
  · rw [Option.eq_none_iff_forall_ne_some]
    constructor
    · intro hn chain shape hr
      exact hn shape (Cursor.shape?_eq_some_iff.2 ⟨chain, hr⟩)
    · intro hn shape hs
      obtain ⟨chain, hr⟩ := Cursor.shape?_eq_some_iff.1 hs
      exact hn chain shape hr
  · intro chain callee hc
    refine ⟨?_, fun chain' callee' hc' => hc'.unique hc⟩
    have hd := List.IsPrefix.drop (nodesUnder_prefix_drop h) 1
    rw [List.drop_drop] at hd
    exact (hc.prefix_nodesUnder n.ancestors).trans (hd.map Node.cursor)

/-- The inner call of a line, below the wrapper that was there and two that were put in. -/
theorem shape?_reads_wrapped :
    let scope : Scope := ⟨nestedHost.fileSystem, some "/work/main.cpp"⟩
    let ns := scope.nodes (wrappedCall "main.cpp")
    ∃ (n : Node) (chain : List Cursor) (shape : CallShape), ns[4]? = some n ∧
      n.cursor.shape? = some shape ∧ n.cursor.Reads chain shape ∧
      (shape.receiver, shape.member) = (Text.ofString "c", Text.ofString "d") ∧
      chain.length = 4 ∧ chain <+: (ns.drop 5).map Node.cursor := by
  intro scope ns
  have hn : ∃ n shape, ns[4]? = some n ∧ n.cursor.shape? = some shape ∧
      (shape.receiver, shape.member) = (Text.ofString "c", Text.ofString "d") ∧ shape.depth = 4 :=
    ⟨_, _, rfl, rfl, rfl, rfl⟩
  obtain ⟨n, shape, hn, hs, ht, hd⟩ := hn
  obtain ⟨hr, -, hc⟩ := shape?_reads hn
  obtain ⟨chain, hch⟩ := (hr shape).1 hs
  exact ⟨n, chain, shape, hn, hs, hch, ht, hch.depth.trans hd, (hc chain _ hch.leads).1⟩

end Scope

end BannedCalls
