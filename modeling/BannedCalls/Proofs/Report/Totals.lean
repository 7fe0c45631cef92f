import BannedCalls.Proofs.Report.Summary
import Mathlib.Data.List.Basic

/-!
# Summaries add up

A summary lists the rules that its items name, each once and with the number of the items that name
it. So the summary of two lists together has for every severity and every rule the sum of the two
counts, and items in another order have the same counts.
-/

namespace BannedCalls

namespace Summary

def names (s : Summary) : List Text := s.byRule.map Prod.fst

/-- How many items name a rule; none if it is not listed. -/
def tally (s : Summary) (rule : Text) : Nat := (s.byRule.lookup rule).getD 0

/-- The summary says how many items there are of each severity, where one that is missing, not known
or no text counts as information, and how many name each rule. -/
structure Counts (s : Summary) (items : List Item) : Prop where
  error : s.error = items.countP fun i => i.severity.text? = some ("error" : Text)
  warning : s.warning = items.countP fun i => i.severity.text? = some ("warning" : Text)
  info : s.info = items.countP fun i =>
    i.severity.text? ≠ some ("error" : Text) ∧ i.severity.text? ≠ some ("warning" : Text)
  total : s.total = items.length
  parts : s.total = s.error + s.warning + s.info
  names_nodup : s.names.Nodup
  mem_byRule_iff : ∀ rule n, (rule, n) ∈ s.byRule ↔
    rule ≠ [] ∧ n ≠ 0 ∧ n = items.countP fun i => i.rule.text? = some rule
  sum_byRule : (s.byRule.map Prod.snd).sum = items.countP fun i => i.rule.text?.any (· ≠ [])

/-- Every count of the summary is the sum of the counts of two others. -/
structure IsSum (r s t : Summary) : Prop where
  error : r.error = s.error + t.error
  warning : r.warning = s.warning + t.warning
  info : r.info = s.info + t.info
  total : r.total = s.total + t.total
  mem_names_iff : ∀ rule, rule ∈ r.names ↔ rule ∈ s.names ∨ rule ∈ t.names
  tally : ∀ rule, r.tally rule = s.tally rule + t.tally rule

/-- The summaries agree in all but the order of the rules. -/
structure Same (s t : Summary) : Prop where
  error : s.error = t.error
  warning : s.warning = t.warning
  info : s.info = t.info
  total : s.total = t.total
  byRule : s.byRule.Perm t.byRule

/-! ## The rules of a summary -/

variable {items : List Item} {rule : Text}

theorem byRule_ofItems_eq_map (items : List Item) :
    (ofItems items).byRule = (items.filterMap Item.rule?).eraseDups.map fun rule =>
      (rule, (items.filterMap Item.rule?).count rule) := by
  rw [byRule_ofItems, foldl_count]

theorem names_ofItems (items : List Item) :
    (ofItems items).names = (items.filterMap Item.rule?).eraseDups := by
  rw [names, byRule_ofItems_eq_map, List.map_map]
  exact List.map_id _

theorem mem_names_ofItems : rule ∈ (ofItems items).names ↔ rule ∈ items.filterMap Item.rule? := by
  rw [names_ofItems, List.mem_eraseDups]

theorem tally_ofItems (items : List Item) (rule : Text) :
    (ofItems items).tally rule = (items.filterMap Item.rule?).count rule := by
  rw [tally, byRule_ofItems_eq_map]
  by_cases h : rule ∈ (items.filterMap Item.rule?).eraseDups
  · rw [List.lookup_graph _ h, Option.getD_some]
  · have hl : ((items.filterMap Item.rule?).eraseDups.map fun rule =>
        (rule, (items.filterMap Item.rule?).count rule)).lookup rule = none := by
      rw [List.lookup_eq_none_iff]
      rintro p hp
      obtain ⟨other, ho, rfl⟩ := List.mem_map.1 hp
      exact bne_iff_ne.2 fun he => h (he ▸ ho)
    rw [hl, Option.getD_none, List.count_eq_zero.2 (mt List.mem_eraseDups.2 h)]

theorem count_filterMap_rule? (items : List Item) (h : rule ≠ []) :
    (items.filterMap Item.rule?).count rule = items.countP fun i => i.rule.text? = some rule := by
  rw [List.count_filterMap]
  apply List.countP_congr
  intro i _
  simp [Item.rule?_eq_some_iff, h]

theorem ne_nil_of_mem_filterMap_rule? (h : rule ∈ items.filterMap Item.rule?) : rule ≠ [] := by
  obtain ⟨i, -, hi⟩ := List.mem_filterMap.1 h
  exact (Item.rule?_eq_some_iff.1 hi).1

theorem mem_byRule_ofItems {n : Nat} : (rule, n) ∈ (ofItems items).byRule ↔
    rule ≠ [] ∧ n ≠ 0 ∧ n = items.countP fun i => i.rule.text? = some rule := by
  rw [byRule_ofItems_eq_map, List.mem_map]
  constructor
  · rintro ⟨rule, hm, he⟩
    obtain ⟨rfl, rfl⟩ := Prod.mk.inj he
    have hr := List.mem_eraseDups.1 hm
    have hn := ne_nil_of_mem_filterMap_rule? hr
    refine ⟨hn, ?_, count_filterMap_rule? items hn⟩
    exact Nat.ne_of_gt (List.count_pos_iff.2 hr)
  · rintro ⟨hn, hz, rfl⟩
    rw [← count_filterMap_rule? items hn] at hz ⊢
    exact ⟨rule, List.mem_eraseDups.2 (List.count_pos_iff.1 (Nat.pos_of_ne_zero hz)), rfl⟩

theorem counts_ofItems (items : List Item) : (ofItems items).Counts items where
  error := error_ofItems items
  warning := warning_ofItems items
  info := by
    rw [info_ofItems]
    apply List.countP_congr
    intro i _
    simp [Item.isError, Item.isWarning]
  total := total_ofItems items
  parts := rfl
  names_nodup := names_ofItems items ▸ nodup_eraseDups _
  mem_byRule_iff := fun _ _ => mem_byRule_ofItems
  sum_byRule := by
    simp only [sum_byRule_ofItems, Item.isSome_rule?]

theorem isSum_ofItems_append (xs ys : List Item) :
    (ofItems (xs ++ ys)).IsSum (ofItems xs) (ofItems ys) where
  error := by simp only [error_ofItems, List.countP_append]
  warning := by simp only [warning_ofItems, List.countP_append]
  info := by simp only [info_ofItems, List.countP_append]
  total := by simp only [total_ofItems, List.length_append]
  mem_names_iff := fun rule => by
    simp only [mem_names_ofItems, List.filterMap_append, List.mem_append]
  tally := fun rule => by simp only [tally_ofItems, List.filterMap_append, List.count_append]

theorem same_ofItems_of_perm {xs ys : List Item} (h : xs.Perm ys) :
    (ofItems xs).Same (ofItems ys) where
  error := by simp only [error_ofItems, h.countP_eq]
  warning := by simp only [warning_ofItems, h.countP_eq]
  info := by simp only [info_ofItems, h.countP_eq]
  total := by simp only [total_ofItems, h.length_eq]
  byRule := by
    have hr : (xs.filterMap Item.rule?).Perm (ys.filterMap Item.rule?) := h.filterMap Item.rule?
    have hp : (xs.filterMap Item.rule?).eraseDups.Perm (ys.filterMap Item.rule?).eraseDups := by
      apply (List.perm_ext_iff_of_nodup (nodup_eraseDups _) (nodup_eraseDups _)).2
      intro rule
      rw [List.mem_eraseDups, List.mem_eraseDups, hr.mem_iff]
    simp only [byRule_ofItems_eq_map, hr.count_eq]
    exact hp.map _

/-- A summary counts its items by their severities and by the rules that they name. Put together,
items are counted as they are apart, and in another order they are counted alike. -/
theorem ofItems_adds_up (xs ys : List Item) :
    (ofItems xs).Counts xs ∧ (ofItems (xs ++ ys)).IsSum (ofItems xs) (ofItems ys) ∧
      (xs.Perm ys → (ofItems xs).Same (ofItems ys)) :=
  ⟨counts_ofItems xs, isSum_ofItems_append xs ys, same_ofItems_of_perm⟩

/-- Severities that are unknown, null and missing, and a rule without a name. From the other end the
rules come up in another order. -/
theorem ofItems_adds_up_reversed :
    let item (severity rule : Entered) : Item :=
      ⟨severity, .missing, rule, none, none, none, none, []⟩
    let xs := [item (.given "error") (.given "ban"), item (.given "fatal") (.given []),
      item (.other .null) (.given "ban"), item (.given "warning") (.given "style"),
      item .missing (.other .null)]
    xs.Perm xs.reverse ∧ (ofItems xs).Counts xs ∧ (ofItems xs).Same (ofItems xs.reverse) ∧
      (ofItems xs).byRule = [(("ban" : Text), 2), (("style" : Text), 1)] ∧ (ofItems xs).info = 3 ∧
      (ofItems xs.reverse).byRule = [(("style" : Text), 1), (("ban" : Text), 2)] ∧
      (ofItems (xs ++ xs.reverse)).tally "ban" = 4 := by
  intro item xs
  have hp : xs.Perm xs.reverse := xs.reverse_perm.symm
  obtain ⟨hc, hs, hm⟩ := ofItems_adds_up xs xs.reverse
  exact ⟨hp, hc, hm hp, rfl, rfl, rfl, hs.tally "ban"⟩

end Summary

end BannedCalls
