import BannedCalls.Proofs.Analysis.Findings

/-!
# Ban lists as multisets

At a call it only matters how often a pair is in the ban list. So the order of a list shows nowhere
in what is found, and two lists put together find at every call what the first finds there and then
what the second finds there.
-/

namespace BannedCalls

namespace BanRule

theorem findings_of_perm {list other : BanList} (h : list.entries.Perm other.entries)
    (call : Cursor) : findings list call = findings other call := by
  simp only [findings_eq, h.count_eq]

theorem findings_append (xs ys : List BannedPair) (call : Cursor) :
    findings ⟨xs ++ ys⟩ call = findings ⟨xs⟩ call ++ findings ⟨ys⟩ call := by
  unfold findings
  cases call.shape? with
  | none => rfl
  | some shape => simp only [List.filter_append, List.map_append]

end BanRule

namespace BanList

theorem run_of_perm {list other : BanList} (h : list.entries.Perm other.entries)
    (ns : List Node) : list.engine.run ns = other.engine.run ns := by
  simp only [run_engine, BanRule.findings_of_perm h]

theorem run_append_perm (xs ys : List BannedPair) (ns : List Node) :
    ((⟨xs ++ ys⟩ : BanList).engine.run ns).Perm
      ((⟨xs⟩ : BanList).engine.run ns ++ (⟨ys⟩ : BanList).engine.run ns) := by
  simp only [run_engine, BanRule.findings_append]
  exact (List.flatMap_append_perm _ _ _).symm

theorem run_sublist_append (xs ys : List BannedPair) (ns : List Node) :
    ((⟨xs⟩ : BanList).engine.run ns).Sublist ((⟨xs ++ ys⟩ : BanList).engine.run ns) := by
  simp only [run_engine, BanRule.findings_append]
  exact List.Sublist.flatMap_right _ fun n _ => List.sublist_append_left _ _

/-- Engines for two series of named pairs, and one for both series together. If the series have the
same pairs, in whatever order, their engines find the same, in the same order. The engine of both
finds what the two find, and what the first finds it finds in the same order. -/
theorem run_multiset {offers others : List Offer} {pairs otherPairs : List BannedPair}
    (hw : offers.map Offer.members = pairs.map fun p => .ok [.str p.receiver, .str p.member])
    (hw' : others.map Offer.members =
      otherPairs.map fun p => .ok [.str p.receiver, .str p.member])
    (hn : ∀ p ∈ pairs, p.Named) (hn' : ∀ p ∈ otherPairs, p.Named) (ns : List Node) :
    ∃ first second both : BanList, ofOffers offers = .ok first ∧ ofOffers others = .ok second ∧
      ofOffers (offers ++ others) = .ok both ∧
      (pairs.Perm otherPairs → first.engine.run ns = second.engine.run ns) ∧
      (both.engine.run ns).Perm (first.engine.run ns ++ second.engine.run ns) ∧
      (first.engine.run ns).Sublist (both.engine.run ns) := by
  have hb : (offers ++ others).map Offer.members =
      (pairs ++ otherPairs).map fun p => .ok [.str p.receiver, .str p.member] := by
    rw [List.map_append, List.map_append, hw, hw']
  have hnb : ∀ p ∈ pairs ++ otherPairs, p.Named := by
    intro p hp
    exact (List.mem_append.1 hp).elim (hn p) (hn' p)
  exact ⟨⟨pairs⟩, ⟨otherPairs⟩, ⟨pairs ++ otherPairs⟩, ofOffers_of_writes hw hn,
    ofOffers_of_writes hw' hn', ofOffers_of_writes hb hnb, fun h => run_of_perm h ns,
    run_append_perm pairs otherPairs ns, run_sublist_append pairs otherPairs ns⟩

/-- Both calls of `nestedCall` are banned, one of them twice. -/
theorem run_multiset_nested :
    let pairs : List BannedPair := [⟨"a", "b"⟩, ⟨"c", "d"⟩, ⟨"a", "b"⟩]
    let otherPairs : List BannedPair := [⟨"a", "b"⟩, ⟨"a", "b"⟩, ⟨"c", "d"⟩]
    let ns := (nestedCall "main.cpp").nodes
    ∃ first second both : BanList, ofOffers (pairs.map BannedPair.offer) = .ok first ∧
      ofOffers (otherPairs.map fun p => .value p.toJson) = .ok second ∧
      ofOffers (pairs.map BannedPair.offer ++ otherPairs.map fun p => .value p.toJson) = .ok both ∧
      first.engine.run ns = second.engine.run ns ∧
      (both.engine.run ns).length = (first.engine.run ns).length + (second.engine.run ns).length ∧
      (first.engine.run ns).Sublist (both.engine.run ns) ∧
      (first.engine.run ns).map Finding.start = [0, 0, 4] := by
  intro pairs otherPairs ns
  have hn : ∀ p ∈ pairs, p.Named := by decide
  have hn' : ∀ p ∈ otherPairs, p.Named := by decide
  obtain ⟨first, second, both, hf, hs, hb, he, hp, hl⟩ :=
    @run_multiset (pairs.map BannedPair.offer) (otherPairs.map fun p => .value p.toJson) pairs
      otherPairs rfl rfl hn hn' ns
  refine ⟨first, second, both, hf, hs, hb, he (by decide), ?_, hl, ?_⟩
  · rw [hp.length_eq, List.length_append]
  · obtain rfl := Except.ok.inj ((ofOffers_of_writes rfl hn).symm.trans hf)
    decide +kernel

end BanList

end BannedCalls
