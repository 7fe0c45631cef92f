import BannedCalls.Proofs.Ban.Grammar

/-!
# Two forms of a list

A list of pairs is written as an argument, with dots and commas, or as the options of a
configuration. As long as no name holds such a mark, the two forms stand for the same pairs or are
both refused; what is blank in the one is blank in the other.
-/

namespace BannedCalls

open Text

/-- Neither name holds a mark that has a meaning in an argument. -/
def BannedPair.Unmarked (p : BannedPair) : Prop :=
  (comma ∉ p.receiver ∧ dot ∉ p.receiver) ∧ comma ∉ p.member ∧ dot ∉ p.member

instance : DecidablePred BannedPair.Unmarked := fun p =>
  inferInstanceAs (Decidable ((comma ∉ p.receiver ∧ dot ∉ p.receiver) ∧
    comma ∉ p.member ∧ dot ∉ p.member))

theorem BannedPair.shown_eq (p : BannedPair) : p.shown = p.receiver ++ dot :: p.member := by
  rw [shown, List.append_assoc]
  rfl

theorem BannedPair.Unmarked.comma_not_mem_shown {p : BannedPair} (h : p.Unmarked) :
    comma ∉ p.shown := by
  have hd : comma ≠ dot := by decide
  simp [p.shown_eq, h.1.1, h.2.1, hd]

namespace BanConfig

variable {pairs found : List BannedPair} {p q : BannedPair} {x y : Text}

def written (pairs : List BannedPair) : Text := join [comma] (pairs.map BannedPair.shown)

theorem not_isBlank_shown (p : BannedPair) : ¬ p.shown.isBlank := by
  intro h
  exact not_isBlank_dot (List.all_eq_true.1 h dot (by simp [p.shown_eq]))

theorem segments_written (hne : pairs ≠ []) (h : ∀ p ∈ pairs, p.Unmarked) :
    segments (written pairs) = pairs.map BannedPair.shown := by
  have hc : ∀ piece ∈ pairs.map BannedPair.shown, comma ∉ piece := by
    intro piece hp
    obtain ⟨p, hm, rfl⟩ := List.mem_map.1 hp
    exact (h p hm).comma_not_mem_shown
  rw [segments, written, splitOn_join (by simpa using hne) hc, List.filter_eq_self]
  intro piece hp
  obtain ⟨p, -, rfl⟩ := List.mem_map.1 hp
  simpa using not_isBlank_shown p

/-- A pair is read alike in both forms. -/
theorem pairOfPart_shown_eq_ok_iff (h : p.Unmarked) :
    pairOfPart p.shown.strip = .ok q ↔ pairOfEntry p.toJson = .ok q := by
  rw [p.shown_eq, pairOfPart_strip h.1.2 h.2.2, BannedPair.toJson, pairOfEntry_texts]
  split <;> simp

theorem pairsOfOptions_entries (pairs : List BannedPair) :
    pairsOfOptions (.arr (pairs.map BannedPair.toJson)) =
      (pairs.map BannedPair.toJson).mapM pairOfEntry := by
  cases pairs <;> rfl

theorem pairsOfArgument_written_eq_ok_iff (hne : pairs ≠ []) (h : ∀ p ∈ pairs, p.Unmarked) :
    pairsOfArgument (written pairs) = .ok found ↔
      (pairs.map BannedPair.toJson).mapM pairOfEntry = .ok found := by
  have hm : ((pairs.map BannedPair.shown).mapM fun segment => pairOfPart segment.strip) =
      .ok found ↔ (pairs.map BannedPair.toJson).mapM pairOfEntry = .ok found := by
    rw [List.mapM_map, List.mapM_map]
    exact mapM_eq_ok_congr fun p hp _ => pairOfPart_shown_eq_ok_iff (h p hp)
  rw [pairsOfArgument_eq_ok_iff, segments_written hne h, ← mapM_pairOfPart_eq_ok_iff, hm]
  exact and_iff_right (by simpa using hne)

/-- Both forms of a list, the second also behind the truth value that switches it on, give the same
pairs, or none of them gives any. -/
theorem forms_agree (hne : pairs ≠ []) (h : ∀ p ∈ pairs, p.Unmarked) :
    let entries := pairs.map BannedPair.toJson
    (∃ found, pairsOfArgument (written pairs) = .ok found ∧
      pairsOfOptions (.arr entries) = .ok found ∧
      pairsOfOptions (.arr (.bool true :: entries)) = .ok found) ∨
    ∃ e e', pairsOfArgument (written pairs) = .error e ∧
      pairsOfOptions (.arr entries) = .error e' ∧
      pairsOfOptions (.arr (.bool true :: entries)) = .error e' := by
  intro entries
  have hs : pairsOfOptions (.arr (.bool true :: entries)) = entries.mapM pairOfEntry := rfl
  rw [hs, pairsOfOptions_entries]
  cases hm : entries.mapM pairOfEntry with
  | ok found => exact Or.inl ⟨found, (pairsOfArgument_written_eq_ok_iff hne h).2 hm, rfl, rfl⟩
  | error e' =>
    cases hw : pairsOfArgument (written pairs) with
    | ok found => cases hm.symm.trans ((pairsOfArgument_written_eq_ok_iff hne h).1 hw)
    | error e => exact Or.inr ⟨e, e', rfl, rfl, rfl⟩

theorem segments_append (x y : Text) : segments (x ++ comma :: y) = segments x ++ segments y := by
  rw [segments, splitOn_append_sep, List.filter_append]
  rfl

/-- Two arguments joined by a comma give the pairs of the one and then those of the other. -/
theorem pairsOfArgument_append {xs ys : List BannedPair} (hx : pairsOfArgument x = .ok xs)
    (hy : pairsOfArgument y = .ok ys) : pairsOfArgument (x ++ comma :: y) = .ok (xs ++ ys) := by
  obtain ⟨hne, hx⟩ := pairsOfArgument_eq_ok_iff.1 hx
  obtain ⟨-, hy⟩ := pairsOfArgument_eq_ok_iff.1 hy
  rw [pairsOfArgument_eq_ok_iff, segments_append]
  exact ⟨by simp [hne], List.rel_append hx hy⟩

theorem dot_mem_of_pairsOfArgument (h : pairsOfArgument x = .ok pairs) : dot ∈ x := by
  obtain ⟨hne, hs⟩ := exists_pairsOfArgument_iff.1 ⟨pairs, h⟩
  obtain ⟨segment, hm⟩ := List.exists_mem_of_ne_nil _ hne
  obtain ⟨p, hc, -⟩ := hs segment hm
  have hd : dot ∈ segment := List.count_pos_iff.1 (hc ▸ Nat.one_pos)
  exact (of_mem_splitOn (List.mem_filter.1 hm).1).1 hd

end BanConfig

end BannedCalls
