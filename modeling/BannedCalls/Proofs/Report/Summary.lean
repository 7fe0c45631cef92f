import BannedCalls.Report.Summary
import Mathlib.Algebra.GroupWithZero.Nat
import Mathlib.Data.List.Induction

/-!
# What a summary counts

A summary counts every item once, by its severity, and every named rule once for each item that has
it. Items are counted from the first to the last, so the inductions take them off the end.
-/

namespace BannedCalls

/-- The rule of an item, if it names one. -/
def Item.rule? (i : Item) : Option Text :=
  match i.rule with
  | .given rule => if rule = [] then none else some rule
  | _ => none

theorem Item.rule?_eq_some_iff {i : Item} {rule : Text} :
    i.rule? = some rule ↔ rule ≠ [] ∧ i.rule.text? = some rule := by
  unfold rule? Entered.text?
  cases i.rule with
  | missing => simp
  | other value => simp
  | given name =>
    simp only [Option.some.injEq]
    split
    · next h =>
      subst h
      simp [eq_comm]
    · next h =>
      simp only [Option.some.injEq, iff_and_self]
      exact fun he => he ▸ h

theorem Item.isSome_rule? (i : Item) : i.rule?.isSome = i.rule.text?.any (· ≠ []) := by
  unfold rule? Entered.text?
  cases i.rule with
  | missing => rfl
  | other value => rfl
  | given name => by_cases h : name = [] <;> simp [h]

namespace Summary

theorem ofItems_concat (items : List Item) (i : Item) :
    ofItems (items ++ [i]) = (ofItems items).add i := by
  rw [ofItems, List.foldl_append]
  rfl

/-! ## Severities -/

/-- What some items raise by one, and no other item changes, counts those items. -/
theorem eq_countP_of_add {c : Summary → Nat} {p : Item → Bool} (hz : c empty = 0)
    (ha : ∀ s i, c (s.add i) = c s + if p i then 1 else 0) (items : List Item) :
    c (ofItems items) = items.countP p := by
  induction items using List.reverseRecOn with
  | nil => exact hz
  | append_singleton items i ih =>
    rw [ofItems_concat, ha, ih, List.countP_append, List.countP_singleton]

theorem error_add (s : Summary) (i : Item) :
    (s.add i).error = s.error + if i.isError then 1 else 0 := by
  unfold add countSeverity
  split
  · rfl
  · split <;> rfl

theorem isWarning_of_isError {i : Item} (h : i.isError) : i.isWarning = false := by
  simp only [Item.isError, decide_eq_true_eq] at h
  simp only [Item.isWarning, h]
  decide

theorem warning_add (s : Summary) (i : Item) :
    (s.add i).warning = s.warning + if i.isWarning then 1 else 0 := by
  unfold add countSeverity
  split
  · next he => simp only [isWarning_of_isError he, Bool.false_eq_true, if_false, Nat.add_zero]
  · split <;> rfl

theorem info_add (s : Summary) (i : Item) :
    (s.add i).info = s.info + if !i.isError && !i.isWarning then 1 else 0 := by
  unfold add countSeverity
  split
  · next he => simp [he]
  · split
    · next hw => simp [hw]
    · next he hw => simp [he, hw]

theorem total_ofItems (items : List Item) : (ofItems items).total = items.length := by
  rw [eq_countP_of_add (p := fun _ => true) rfl total_add, List.countP_true]

theorem error_ofItems (items : List Item) : (ofItems items).error = items.countP Item.isError :=
  eq_countP_of_add rfl error_add items

theorem warning_ofItems (items : List Item) :
    (ofItems items).warning = items.countP Item.isWarning :=
  eq_countP_of_add rfl warning_add items

theorem info_ofItems (items : List Item) :
    (ofItems items).info = items.countP fun i => !i.isError && !i.isWarning :=
  eq_countP_of_add rfl info_add items

/-! ## Rules -/

theorem byRule_add (s : Summary) (i : Item) :
    (s.add i).byRule = i.rule?.elim s.byRule fun rule => count rule s.byRule := by
  unfold add countRule Item.rule?
  cases i.rule with
  | missing => rfl
  | given rule => by_cases h : rule = [] <;> simp [h]
  | other value => rfl

theorem byRule_ofItems (items : List Item) :
    (ofItems items).byRule =
      (items.filterMap Item.rule?).foldl (fun counts rule => count rule counts) [] := by
  induction items using List.reverseRecOn with
  | nil => rfl
  | append_singleton items i ih =>
    rw [ofItems_concat, byRule_add, ih, List.filterMap_append, List.foldl_append]
    cases h : i.rule? <;> simp [h]

theorem sum_count (rule : Text) (counts : List (Text × Nat)) :
    ((count rule counts).map Prod.snd).sum = (counts.map Prod.snd).sum + 1 := by
  induction counts with
  | nil => rfl
  | cons first rest ih =>
    rw [count]
    split
    · simp only [List.map_cons, List.sum_cons]
      omega
    · simp only [List.map_cons, List.sum_cons, ih]
      omega

theorem sum_byRule_ofItems (items : List Item) :
    ((ofItems items).byRule.map Prod.snd).sum = items.countP fun i => i.rule?.isSome := by
  apply eq_countP_of_add (c := fun s => (s.byRule.map Prod.snd).sum) rfl
  intro s i
  rw [byRule_add]
  cases i.rule? with
  | none => rfl
  | some rule => exact sum_count rule s.byRule

theorem eraseDups_concat (rules : List Text) (rule : Text) :
    (rules ++ [rule]).eraseDups =
      if rules.contains rule then rules.eraseDups else rules.eraseDups ++ [rule] := by
  rw [List.eraseDups_append]
  by_cases h : rule ∈ rules
  · simp [List.removeAll, h]
  · simp [List.removeAll, h, List.eraseDups_cons]

theorem nodup_eraseDups (rules : List Text) : rules.eraseDups.Nodup := by
  induction rules using List.reverseRecOn with
  | nil => exact List.nodup_nil
  | append_singleton rules rule ih =>
    rw [eraseDups_concat]
    split
    · exact ih
    · next hr =>
      have hr' : rule ∉ rules.eraseDups := by
        intro h
        exact hr (List.contains_iff_mem.2 (List.mem_eraseDups.1 h))
      exact (List.perm_append_singleton rule _).nodup_iff.2 (List.nodup_cons.2 ⟨hr', ih⟩)

/-- Counting a rule once more, where each name is listed with its count. -/
theorem count_map {names : List Text} (hn : names.Nodup) {f : Text → Nat} {rule : Text}
    (hf : rule ∉ names → f rule = 0) :
    count rule (names.map fun name => (name, f name)) =
      (if names.contains rule then names else names ++ [rule]).map fun name =>
        (name, f name + if rule = name then 1 else 0) := by
  induction names with
  | nil => simp [count, hf]
  | cons name rest ih =>
    obtain ⟨hm, hn⟩ := List.nodup_cons.1 hn
    by_cases he : name = rule
    · subst he
      -- The name stands once, so the counts behind it stay as they are.
      have hrest : ∀ other ∈ rest,
          (other, f other) = (other, f other + if name = other then 1 else 0) := by
        intro other ho
        have hne : name ≠ other := fun h => hm (h ▸ ho)
        rw [if_neg hne, Nat.add_zero]
      rw [if_pos (List.contains_iff_mem.2 List.mem_cons_self), List.map_cons, List.map_cons, count,
        if_pos rfl, if_pos rfl, List.map_congr_left hrest]
    · have hf' : rule ∉ rest → f rule = 0 := by
        intro h
        exact hf (List.not_mem_cons_of_ne_of_not_mem (Ne.symm he) h)
      rw [List.map_cons, count, if_neg he, ih hn hf', List.contains_cons,
        beq_eq_false_iff_ne.2 (Ne.symm he), Bool.false_or]
      split <;> simp [Ne.symm he]

/-- Every rule is listed once, in the order in which the rules first came up. -/
theorem foldl_count (rules : List Text) :
    rules.foldl (fun counts rule => count rule counts) [] =
      rules.eraseDups.map fun rule => (rule, rules.count rule) := by
  induction rules using List.reverseRecOn with
  | nil => rfl
  | append_singleton rules rule ih =>
    have hf : rule ∉ rules.eraseDups → rules.count rule = 0 := by
      intro h
      exact List.count_eq_zero.2 (mt List.mem_eraseDups.2 h)
    have hc (name : Text) : (rules ++ [rule]).count name =
        rules.count name + if rule = name then 1 else 0 := by
      simp only [List.count_append, List.count_singleton, beq_iff_eq]
    have hm : rules.eraseDups.contains rule = rules.contains rule := by
      rw [Bool.eq_iff_iff, List.contains_iff_mem, List.contains_iff_mem, List.mem_eraseDups]
    rw [List.foldl_append, ih, List.foldl_cons, List.foldl_nil, count_map (nodup_eraseDups rules) hf,
      hm, eraseDups_concat]
    simp only [hc]

/-- Where all rules are one, it is counted alone. -/
theorem foldl_count_replicate (rule : Text) (n : Nat) :
    (List.replicate n rule).foldl (fun counts rule => count rule counts) [] =
      if n = 0 then [] else [(rule, n)] := by
  rw [foldl_count]
  cases n with
  | zero => rfl
  | succ n => simp [List.replicate_succ, List.eraseDups_cons]

end Summary

end BannedCalls
