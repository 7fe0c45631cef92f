import BannedCalls.Analysis

/-!
# Where the items of a report come from

The items of a report are those of the diagnostics, those of the findings, and the warning that the
rule was not asked. They are told apart by their sources, and every one of them has a text to show.
-/

namespace BannedCalls

namespace Item

def isFrom (source : Text) (i : Item) : Bool := i.source.text? = some source

/-- The message of the item is a text. -/
def Worded (i : Item) : Prop := ∃ t, i.message = some (.str t)

theorem advised_worded (severity source : Text) (rule : Option Text) (line column : Option Int)
    (span : Option (Int × Int)) (message suggestion : Text) (confidence : Numeral) :
    (advised severity source rule line column span message suggestion confidence).Worded :=
  ⟨message, rfl⟩

theorem isFrom_advised (name severity source : Text) (rule : Option Text) (line column : Option Int)
    (span : Option (Int × Int)) (message suggestion : Text) (confidence : Numeral) :
    (advised severity source rule line column span message suggestion confidence).isFrom name =
      decide (source = name) := by
  simp [isFrom, advised, Entered.text?]

theorem isError_advised (severity source : Text) (rule : Option Text) (line column : Option Int)
    (span : Option (Int × Int)) (message suggestion : Text) (confidence : Numeral) :
    (advised severity source rule line column span message suggestion confidence).isError =
      decide (severity = "error") := by
  simp [isError, advised, Entered.text?]

theorem countP_isFrom {items : List Item} {source : Text}
    (h : ∀ i ∈ items, i.source = .given source) (name : Text) :
    items.countP (isFrom name) = if source = name then items.length else 0 := by
  split
  · next hs =>
    apply List.countP_eq_length.2
    intro i hi
    simp [isFrom, h i hi, hs, Entered.text?]
  · next hs =>
    apply List.countP_eq_zero.2
    intro i hi
    simp [isFrom, h i hi, hs, Entered.text?]

end Item

theorem Level.severity_eq_error_iff (level : Level) :
    level.severity = "error" ↔ level = .error ∨ level = .fatal := by
  cases level <;> simp [Level.severity] <;> decide

theorem Diagnostic.isError_toItem (d : Diagnostic) :
    d.toItem.isError ↔ d.level = .error ∨ d.level = .fatal := by
  simp [toItem, Item.advised, Item.isError, Entered.text?, Level.severity_eq_error_iff]

namespace Report

theorem isBlocked_diagnosticItems {fs : FileSystem} {target : Text}
    {diagnostics : List Diagnostic} :
    isBlocked (diagnosticItems fs target diagnostics) ↔
      ∃ d ∈ diagnostics, d.isAbout fs target ∧ (d.level = .error ∨ d.level = .fatal) := by
  simp only [isBlocked, diagnosticItems, List.any_map, List.any_eq_true, Function.comp_apply,
    Diagnostic.isError_toItem, List.mem_filter, and_assoc]

theorem mem_diagnosticItems {fs : FileSystem} {target : Text} {diagnostics : List Diagnostic}
    {i : Item} (h : i ∈ diagnosticItems fs target diagnostics) :
    ∃ d ∈ diagnostics, i = d.toItem := by
  obtain ⟨d, hd, rfl⟩ := List.mem_map.1 h
  exact ⟨d, (List.mem_filter.1 hd).1, rfl⟩

theorem source_of_mem_diagnosticItems {fs : FileSystem} {target : Text}
    {diagnostics : List Diagnostic} {i : Item} (h : i ∈ diagnosticItems fs target diagnostics) :
    i.source = .given "clang" := by
  obtain ⟨d, -, rfl⟩ := mem_diagnosticItems h
  rfl

theorem countP_isError_diagnosticItems (fs : FileSystem) (target : Text)
    (diagnostics : List Diagnostic) :
    (diagnosticItems fs target diagnostics).countP Item.isError =
      diagnostics.countP fun d =>
        d.isAbout fs target && (d.level = .error || d.level = .fatal) := by
  rw [diagnosticItems, List.countP_map, List.countP_filter]
  apply List.countP_congr
  intro d _
  simp [Diagnostic.isError_toItem, and_comm]

theorem isBlocked_iff_countP_pos (items : List Item) :
    isBlocked items ↔ 0 < items.countP Item.isError := by
  rw [isBlocked, List.any_eq_true, List.countP_pos_iff]

end Report

namespace Analysis

/-- Without a warning that the rule was not asked, the items from the rule are the findings. -/
theorem filter_isFrom_rule_gather {fs : FileSystem} {target : Text}
    {diagnostics : List Diagnostic}
    (hb : Report.isBlocked (Report.diagnosticItems fs target diagnostics) = false)
    (findings : List Finding) :
    (gather (Report.diagnosticItems fs target diagnostics) findings).filter
      (Item.isFrom "rule") = findings.map Finding.toItem := by
  have hd : (Report.diagnosticItems fs target diagnostics).filter (Item.isFrom "rule") = [] := by
    rw [List.filter_eq_nil_iff]
    intro i hi
    obtain ⟨d, -, rfl⟩ := Report.mem_diagnosticItems hi
    rw [Diagnostic.toItem, Item.isFrom_advised]
    decide
  have hf : (findings.map Finding.toItem).filter (Item.isFrom "rule") =
      findings.map Finding.toItem := by
    rw [List.filter_eq_self]
    intro i hi
    obtain ⟨f, -, rfl⟩ := List.mem_map.1 hi
    rw [Finding.toItem, Item.isFrom_advised]
    decide
  simp [gather, hb, hd, hf]

/-- How many items of a report come from where. -/
theorem countP_isFrom_gather {items : List Item} (hd : ∀ i ∈ items, i.source = .given "clang")
    (findings : List Finding) (name : Text) :
    (gather items findings).countP (Item.isFrom name) =
      (if "clang" = name then items.length else 0) +
        (if "rule" = name then findings.length else 0) +
        if Report.isBlocked items then if "runtime" = name then 1 else 0 else 0 := by
  have hf : ∀ i ∈ findings.map Finding.toItem, i.source = .given "rule" := by
    intro i hi
    obtain ⟨f, -, rfl⟩ := List.mem_map.1 hi
    rfl
  have hl (line : Option Json) : ∀ i ∈ [Report.limitedItem line], i.source = .given "runtime" := by
    intro i hi
    obtain rfl := List.mem_singleton.1 hi
    rfl
  rw [gather, List.countP_append, List.countP_append, Item.countP_isFrom hd, Item.countP_isFrom hf,
    List.length_map]
  congr 1
  split
  · rw [Item.countP_isFrom (hl _), List.length_singleton]
  · rfl

theorem countP_isFrom_rule_gather {items : List Item}
    (hd : ∀ i ∈ items, i.source = .given "clang") (findings : List Finding) :
    (gather items findings).countP (Item.isFrom "rule") = findings.length := by
  have hc : ("clang" : Text) ≠ "rule" := by decide
  have hr : ("runtime" : Text) ≠ "rule" := by decide
  rw [countP_isFrom_gather hd, if_neg hc, if_pos rfl, if_neg hr, ite_self, Nat.zero_add,
    Nat.add_zero]

theorem countP_isFrom_runtime_gather {items : List Item}
    (hd : ∀ i ∈ items, i.source = .given "clang") (findings : List Finding) :
    (gather items findings).countP (Item.isFrom "runtime") =
      if Report.isBlocked items then 1 else 0 := by
  have hc : ("clang" : Text) ≠ "runtime" := by decide
  have hr : ("rule" : Text) ≠ "runtime" := by decide
  rw [countP_isFrom_gather hd, if_neg hc, if_neg hr, if_pos rfl, Nat.zero_add]

/-- Only diagnostics are errors. -/
theorem countP_isError_gather (items : List Item) (findings : List Finding) :
    (gather items findings).countP Item.isError = items.countP Item.isError := by
  have hf : (findings.map Finding.toItem).countP Item.isError = 0 := by
    apply List.countP_eq_zero.2
    intro i hi
    obtain ⟨f, -, rfl⟩ := List.mem_map.1 hi
    rw [Finding.toItem, Item.isError_advised]
    decide
  have hl (line : Option Json) : [Report.limitedItem line].countP Item.isError = 0 := rfl
  rw [gather, List.countP_append, List.countP_append, hf]
  split
  · rw [hl]
    rfl
  · rfl

theorem gather_worded {fs : FileSystem} {target : Text} {diagnostics : List Diagnostic}
    {findings : List Finding} {i : Item}
    (h : i ∈ gather (Report.diagnosticItems fs target diagnostics) findings) : i.Worded := by
  rcases List.mem_append.1 h with h | h
  · rcases List.mem_append.1 h with h | h
    · obtain ⟨d, -, rfl⟩ := Report.mem_diagnosticItems h
      exact Item.advised_worded ..
    · obtain ⟨f, -, rfl⟩ := List.mem_map.1 h
      exact Item.advised_worded ..
  · split at h
    · obtain rfl := List.mem_singleton.1 h
      exact ⟨_, rfl⟩
    · simp at h

end Analysis

end BannedCalls
