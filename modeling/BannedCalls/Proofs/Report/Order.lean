import BannedCalls.Report.Order

/-!
# Ordered reports

The order of reports is total and transitive. Placing an item keeps a series of items ordered, so
sorting gives an ordered series, and an ordered series is left as it is.
-/

namespace BannedCalls

namespace ReportKey

variable {a b c : ReportKey}

theorem le_iff : a.le b ↔ a.line < b.line ∨ a.line = b.line ∧ (a.column < b.column ∨
    a.column = b.column ∧ (a.rank < b.rank ∨ a.rank = b.rank ∧ List.le a.source b.source)) := by
  unfold le
  split
  · simp only [decide_eq_true_iff]
    omega
  · split
    · simp only [decide_eq_true_iff]
      omega
    · split
      · simp only [decide_eq_true_iff]
        omega
      · simp_all

theorem le_total (a b : ReportKey) : a.le b ∨ b.le a := by
  rw [le_iff, le_iff]
  have hs : List.le a.source b.source ∨ List.le b.source a.source := List.le_total _ _
  grind

theorem le_trans (hab : a.le b) (hbc : b.le c) : a.le c := by
  rw [le_iff] at hab hbc ⊢
  have hs : List.le a.source b.source → List.le b.source c.source → List.le a.source c.source :=
    List.le_trans
  grind

theorem line_le_of_le (h : a.le b) : a.line ≤ b.line := by
  rcases le_iff.1 h with h | ⟨h, -⟩
  · exact Int.le_of_lt h
  · exact Int.le_of_eq h

end ReportKey

/-- A line or a column that the item has counts less than one that is missing. -/
def Item.Near (i : Item) : Prop :=
  (∀ line, i.line? = some line → line < farAway) ∧
    ∀ column, i.column? = some column → column < farAway

namespace Report

/-- No item stands behind one that it has to precede. -/
def Ordered (items : List Item) : Prop := items.Pairwise fun a b => a.key.le b.key

theorem place_of_precedes {i : Item} {items : List Item} (h : ∀ j ∈ items, i.key.le j.key) :
    place i items = i :: items := by
  cases items with
  | nil => rfl
  | cons next rest => rw [place, if_pos (h next List.mem_cons_self)]

theorem ordered_place (i : Item) {items : List Item} (h : Ordered items) :
    Ordered (place i items) := by
  induction items with
  | nil => exact List.pairwise_singleton _ _
  | cons next rest ih =>
    obtain ⟨hn, hr⟩ := List.pairwise_cons.1 h
    rw [place]
    split
    · next hi =>
      apply List.pairwise_cons.2 ⟨fun j hj => ?_, h⟩
      rcases List.mem_cons.1 hj with rfl | hj
      · exact hi
      · exact ReportKey.le_trans hi (hn j hj)
    · next hi =>
      apply List.pairwise_cons.2 ⟨fun j hj => ?_, ih hr⟩
      rcases List.mem_cons.1 ((place_perm i rest).mem_iff.1 hj) with rfl | hj
      · exact (ReportKey.le_total _ _).resolve_left hi
      · exact hn j hj

theorem ordered_sort (items : List Item) : Ordered (sort items) := by
  induction items with
  | nil => exact List.Pairwise.nil
  | cons i rest ih => exact ordered_place i ih

/-- An item stands in order between two parts of the others, once they are sorted together. -/
theorem exists_sort_concat (items : List Item) (i : Item) :
    ∃ before after, sort (items ++ [i]) = before ++ i :: after ∧ (before ++ after).Perm items ∧
      (∀ j ∈ before, j.key.le i.key) ∧ ∀ j ∈ after, i.key.le j.key := by
  have hp := sort_perm (items ++ [i])
  have ho := ordered_sort (items ++ [i])
  obtain ⟨before, after, hs⟩ := List.append_of_mem (hp.mem_iff.2 (by simp : i ∈ items ++ [i]))
  rw [hs] at hp ho
  obtain ⟨-, ha, hb⟩ := List.pairwise_append.1 ho
  refine ⟨before, after, hs, ?_, fun j hj => hb j hj i List.mem_cons_self,
    (List.pairwise_cons.1 ha).1⟩
  exact ((List.perm_middle.symm.trans hp).trans (List.perm_append_singleton i items)).cons_inv

theorem sort_of_ordered {items : List Item} (h : Ordered items) : sort items = items := by
  induction items with
  | nil => rfl
  | cons i rest ih =>
    obtain ⟨hi, hr⟩ := List.pairwise_cons.1 h
    calc sort (i :: rest) = place i (sort rest) := rfl
      _ = place i rest := by rw [ih hr]
      _ = i :: rest := place_of_precedes hi

theorem sort_sort (items : List Item) : sort (sort items) = sort items :=
  sort_of_ordered (ordered_sort items)

end Report

end BannedCalls
