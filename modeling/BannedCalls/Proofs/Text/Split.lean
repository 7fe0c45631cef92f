import BannedCalls.Text.Basic

/-!
# Pieces of a text

The pieces of a cut are stretches between the separators, so they hold nothing but what the text
holds and no separator. Cutting puts pieces apart again that were joined.
-/

namespace BannedCalls.Text

variable {sep : CodePoint}

theorem of_mem_splitOn {t piece : Text} (h : piece ∈ splitOn sep t) : piece ⊆ t ∧ sep ∉ piece := by
  induction t generalizing piece with
  | nil => simp [List.mem_singleton.1 h]
  | cons c rest ih =>
    rw [splitOn] at h
    split at h
    · next hn => exact absurd hn (splitOn_ne_nil sep rest)
    · next first pieces hs =>
      obtain ⟨hf, hn⟩ := ih (hs ▸ List.mem_cons_self)
      have hp : ∀ p ∈ first :: pieces, p ⊆ c :: rest ∧ sep ∉ p := fun p hm =>
        (ih (hs ▸ hm)).imp_left (List.subset_cons_of_subset c)
      split at h
      · rcases List.mem_cons.1 h with rfl | h
        · exact ⟨List.nil_subset _, List.not_mem_nil⟩
        · exact hp piece h
      · next hc =>
        rcases List.mem_cons.1 h with rfl | h
        · exact ⟨List.cons_subset_cons c hf, List.not_mem_cons_of_ne_of_not_mem (Ne.symm hc) hn⟩
        · exact hp piece (List.mem_cons_of_mem _ h)

theorem splitOn_of_not_mem {t : Text} (h : sep ∉ t) : splitOn sep t = [t] := by
  induction t with
  | nil => rfl
  | cons c rest ih =>
    obtain ⟨hc, hr⟩ := not_or.1 (mt List.mem_cons.2 h)
    simp [splitOn, ih hr, Ne.symm hc]

theorem splitOn_append_sep (s t : Text) :
    splitOn sep (s ++ sep :: t) = splitOn sep s ++ splitOn sep t := by
  induction s with
  | nil =>
    cases h : splitOn sep t with
    | nil => exact absurd h (splitOn_ne_nil sep t)
    | cons piece pieces => simp [splitOn, h]
  | cons c rest ih =>
    rw [List.cons_append, splitOn, ih, splitOn]
    cases h : splitOn sep rest with
    | nil => exact absurd h (splitOn_ne_nil sep rest)
    | cons piece pieces => by_cases hc : c = sep <;> simp [hc]

theorem splitOn_join {pieces : List Text} (hn : pieces ≠ []) (h : ∀ p ∈ pieces, sep ∉ p) :
    splitOn sep (join [sep] pieces) = pieces := by
  fun_induction join [sep] pieces with
  | case1 => exact absurd rfl hn
  | case2 piece => exact splitOn_of_not_mem (h piece List.mem_cons_self)
  | case3 piece next pieces ih =>
    obtain ⟨hp, h⟩ := List.forall_mem_cons.1 h
    rw [List.append_assoc, List.singleton_append, splitOn_append_sep, splitOn_of_not_mem hp,
      ih (by simp) h]
    rfl

theorem splitOn_append_cons {left right : Text} (hl : sep ∉ left) (hr : sep ∉ right) :
    splitOn sep (left ++ sep :: right) = [left, right] := by
  rw [splitOn_append_sep, splitOn_of_not_mem hl, splitOn_of_not_mem hr]
  rfl

theorem length_splitOn (sep : CodePoint) (t : Text) :
    (splitOn sep t).length = t.count sep + 1 := by
  induction t with
  | nil => rfl
  | cons c rest ih =>
    rw [splitOn]
    cases h : splitOn sep rest with
    | nil => exact absurd h (splitOn_ne_nil sep rest)
    | cons piece pieces =>
      rw [h, List.length_cons] at ih
      by_cases hc : c = sep
      · simp [hc, ih]
      · simp [hc, ih, List.count_cons_of_ne hc]

theorem not_mem_of_count_eq_one {left right : Text}
    (h : (left ++ sep :: right).count sep = 1) : sep ∉ left ∧ sep ∉ right := by
  rw [List.count_append, List.count_cons_self] at h
  exact ⟨List.count_eq_zero.1 (by omega), List.count_eq_zero.1 (by omega)⟩

theorem exists_eq_append_cons {t : Text} (h : t.count sep = 1) :
    ∃ left right, t = left ++ sep :: right ∧ sep ∉ left ∧ sep ∉ right := by
  have hm : sep ∈ t := List.count_pos_iff.1 (h ▸ Nat.one_pos)
  obtain ⟨left, right, rfl⟩ := List.append_of_mem hm
  exact ⟨left, right, rfl, not_mem_of_count_eq_one h⟩

end BannedCalls.Text
