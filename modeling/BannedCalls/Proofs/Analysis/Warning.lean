import BannedCalls.Proofs.Analysis.Findings
import BannedCalls.Proofs.Report.Order
import Mathlib.Order.Bounds.Basic

/-!
# The warning behind the first error

A report on a file with errors warns that the rule was not asked. The warning points at the first
line with an error. It has no column, so it stands behind the errors on that line, and in front of
all that lies further down.
-/

namespace BannedCalls

namespace Diagnostic

theorem line?_toItem (d : Diagnostic) : d.toItem.line? = d.location.map Location.line := by
  cases hp : d.location <;> simp [toItem, Item.advised, Item.line?, Item.place?, Json.integer?, hp]

theorem column?_toItem (d : Diagnostic) : d.toItem.column? = d.location.map Location.column := by
  cases hp : d.location <;>
    simp [toItem, Item.advised, Item.column?, Item.place?, Json.integer?, hp]

end Diagnostic

namespace Item

theorem rank_of_isError {i : Item} (h : i.isError) : i.rank = 0 := by
  unfold isError at h
  unfold rank
  cases hs : i.severity with
  | missing => simp [hs, Entered.text?] at h
  | other value => simp [hs, Entered.text?] at h
  | given severity =>
    obtain rfl : severity = "error" := by simpa [hs, Entered.text?] using h
    rfl

theorem column_key_le {i : Item} (h : i.Near) : i.key.column ≤ farAway := by
  rw [key]
  cases hc : i.column? with
  | none => exact le_rfl
  | some column => exact (h.2 column hc).le

theorem near_toItem {d : Diagnostic}
    (h : ∀ place ∈ d.location, place.line < 1000000000 ∧ place.column < 1000000000) :
    d.toItem.Near := by
  constructor
  · intro line hl
    obtain ⟨place, hp, rfl⟩ := Option.map_eq_some_iff.1 (d.line?_toItem ▸ hl)
    exact (h place hp).1
  · intro column hc
    obtain ⟨place, hp, rfl⟩ := Option.map_eq_some_iff.1 (d.column?_toItem ▸ hc)
    exact (h place hp).2

end Item

namespace Report

variable {items : List Item} {line : Option Int} {i : Item}

theorem firstErrorLine?_eq_none_iff :
    firstErrorLine? items = none ↔ ∀ i ∈ items, i.isError → i.line? = none := by
  simp [firstErrorLine?]

theorem isLeast_of_firstErrorLine? {n : Int} (h : firstErrorLine? items = some n) :
    IsLeast {m | ∃ i ∈ items, i.isError ∧ i.line? = some m} n := by
  have hm (m : Int) : m ∈ (items.filter Item.isError).filterMap Item.line? ↔
      ∃ i ∈ items, i.isError ∧ i.line? = some m := by
    simp only [List.mem_filterMap, List.mem_filter, and_assoc]
  obtain ⟨hn, hle⟩ := List.min?_eq_some_iff.1 h
  exact ⟨(hm n).1 hn, fun m hs => hle m ((hm m).2 hs)⟩

theorem line_limitedItem (line : Option Int) :
    (limitedItem (line.map .int)).line = some (line.elim .null .int) := by
  cases line <;> rfl

theorem line?_limitedItem (line : Option Int) : (limitedItem (line.map .int)).line? = line := by
  cases line <;> rfl

theorem key_limitedItem (line : Option Int) :
    (limitedItem (line.map .int)).key =
      ⟨line.getD Item.farAway, Item.farAway, 1, "runtime"⟩ := by
  cases line <;> rfl

/-- An error on the line that the warning points at has a column in front of it, or ranks higher. -/
theorem not_limitedItem_le (hn : i.Near) (he : i.isError) (hl : i.line? = line) :
    ¬ (limitedItem (line.map .int)).key.le i.key := by
  have hline : i.key.line = line.getD Item.farAway := by rw [Item.key, hl]
  have hrank : i.key.rank = 0 := Item.rank_of_isError he
  have hcolumn := Item.column_key_le hn
  rw [ReportKey.le_iff, key_limitedItem]
  dsimp only
  omega

theorem line_limitedItem_cases (items : List Item) :
    let warning := limitedItem ((firstErrorLine? items).map .int)
    (warning.line = some .null ∧ ∀ i ∈ items, i.isError → i.line? = none) ∨
      ∃ n, warning.line = some (.int n) ∧
        IsLeast {m | ∃ i ∈ items, i.isError ∧ i.line? = some m} n := by
  intro warning
  have hw : warning.line = some ((firstErrorLine? items).elim .null .int) := line_limitedItem _
  cases hl : firstErrorLine? items with
  | none => exact Or.inl ⟨by rw [hw, hl]; rfl, firstErrorLine?_eq_none_iff.1 hl⟩
  | some n => exact Or.inr ⟨n, by rw [hw, hl]; rfl, isLeast_of_firstErrorLine? hl⟩

/-- An error behind the warning is not on the first line with an error, and there is such a line. -/
theorem line?_ne_of_limitedItem_le (hm : i ∈ items) (hn : i.Near) (he : i.isError)
    (h : (limitedItem ((firstErrorLine? items).map .int)).key.le i.key) :
    firstErrorLine? items ≠ none ∧ i.line? ≠ firstErrorLine? items := by
  have hne : i.line? ≠ firstErrorLine? items := fun hl => not_limitedItem_le hn he hl h
  refine ⟨fun hnone => hne ?_, hne⟩
  rw [hnone]
  exact firstErrorLine?_eq_none_iff.1 hnone i hm he

theorem exists_le_of_limitedItem_le {m : Int} (hn : i.Near) (hm : i.line? = some m)
    (h : (limitedItem (line.map .int)).key.le i.key) : ∃ n, line = some n ∧ n ≤ m := by
  have hl := ReportKey.line_le_of_le h
  rw [key_limitedItem, Item.key, hm] at hl
  cases line with
  | none => exact absurd (hn.1 m hm) (not_lt.2 hl)
  | some n => exact ⟨n, rfl, hl⟩

theorem exists_le_of_le_limitedItem {n : Int} (hn : n < Item.farAway)
    (h : i.key.le (limitedItem ((some n).map .int)).key) : ∃ m, i.line? = some m ∧ m ≤ n := by
  have hl := ReportKey.line_le_of_le h
  rw [key_limitedItem, Item.key] at hl
  cases hm : i.line? with
  | none => exact absurd hn (not_lt.2 (by simpa [hm] using hl))
  | some m => exact ⟨m, rfl, by simpa [hm] using hl⟩

end Report

/-- The report has one item that says that the rule was not asked. It points at the first line with
an error; what stands behind it is no error on that line and lies no further up, and what stands in
front of it lies no further down. -/
structure FileReport.Warns (r : FileReport) (before : List Item) (warning : Item)
    (after : List Item) : Prop where
  items : r.items = before ++ warning :: after
  limited : ∃ line, warning = Report.limitedItem line
  source : warning.isFrom "runtime"
  sole : ∀ i ∈ before ++ after, ¬ i.isFrom "runtime"
  column : warning.column = some .null
  line : (warning.line = some .null ∧ ∀ i ∈ r.items, i.isError → i.line? = none) ∨
    ∃ n, warning.line = some (.int n) ∧
      IsLeast {m | ∃ i ∈ r.items, i.isError ∧ i.line? = some m} n
  not_error_after : ∀ i ∈ after, i.isError → warning.line? ≠ none ∧ i.line? ≠ warning.line?
  after_line : ∀ i ∈ after, ∀ m, i.line? = some m → ∃ n, warning.line? = some n ∧ n ≤ m
  before_line : ∀ i ∈ before, ∀ n, warning.line? = some n → ∃ m, i.line? = some m ∧ m ≤ n

namespace Analysis

variable {items : List Item}

theorem gather_of_blocked (h : Report.isBlocked items) :
    gather items [] =
      items ++ [Report.limitedItem ((Report.firstErrorLine? items).map .int)] := by
  simp [gather, h]

/-- The warning is no error itself. -/
theorem mem_sort_gather_isError (h : Report.isBlocked items) (i : Item) :
    i ∈ Report.sort (gather items []) ∧ i.isError ↔ i ∈ items ∧ i.isError := by
  rw [gather_of_blocked h, (Report.sort_perm _).mem_iff, List.mem_append, List.mem_singleton]
  constructor
  · rintro ⟨hi | rfl, he⟩
    · exact ⟨hi, he⟩
    · cases he
  · rintro ⟨hi, he⟩
    exact ⟨Or.inl hi, he⟩

theorem exists_warns {r : FileReport} (hr : r.items = Report.sort (gather items []))
    (hb : Report.isBlocked items) (hs : ∀ i ∈ items, i.source = .given "clang")
    (hn : ∀ i ∈ items, i.Near) : ∃ before warning after, r.Warns before warning after := by
  let warning := Report.limitedItem ((Report.firstErrorLine? items).map .int)
  have he (i : Item) : i ∈ r.items ∧ i.isError ↔ i ∈ items ∧ i.isError :=
    hr ▸ mem_sort_gather_isError hb i
  have hl : warning.line? = Report.firstErrorLine? items := Report.line?_limitedItem _
  obtain ⟨before, after, hsort, hp, hbefore, hafter⟩ := Report.exists_sort_concat items warning
  have ha' : ∀ i ∈ after, i ∈ items := fun i h => hp.mem_iff.1 (List.mem_append_right _ h)
  rw [gather_of_blocked hb] at hr
  refine ⟨before, warning, after, hr.trans hsort, ⟨_, rfl⟩, rfl, ?_, rfl, ?_, ?_, ?_, ?_⟩
  · intro i h
    have hc : ("clang" : Text) ≠ "runtime" := by decide
    simp [Item.isFrom, hs i (hp.mem_iff.1 h), Entered.text?, hc]
  · rcases Report.line_limitedItem_cases items with ⟨hw, hnone⟩ | ⟨n, hw, hleast⟩
    · exact Or.inl ⟨hw, fun i hi herror => hnone i ((he i).1 ⟨hi, herror⟩).1 herror⟩
    · refine Or.inr ⟨n, hw, ?_⟩
      simpa only [← and_assoc, he] using hleast
  · intro i h herror
    rw [hl]
    exact Report.line?_ne_of_limitedItem_le (ha' i h) (hn i (ha' i h)) herror (hafter i h)
  · intro i h m hm
    rw [hl]
    exact Report.exists_le_of_limitedItem_le (hn i (ha' i h)) hm (hafter i h)
  · intro i h n hline
    rw [hl] at hline
    obtain ⟨⟨first, hf, -, hfl⟩, -⟩ := Report.isLeast_of_firstErrorLine? hline
    have hle := hbefore i h
    simp only [warning, hline] at hle
    exact Report.exists_le_of_le_limitedItem ((hn first hf).1 n hfl) hle

end Analysis

/-- Where a report on a parsed file has errors, and its diagnostics lie where the order of reports
tells them from places that are missing, the warning stands behind the errors on the first line with
any, and between the lines above and those below. -/
theorem analyze_warns {host : Host} {offers : List Offer} {traced : Bool} {clock : Clock}
    {path : Text} {r : FileReport}
    (hr : (analyze host offers traced clock path).report = .ok r) (hok : r.ok)
    (he : ∃ i ∈ r.items, i.isError)
    (hd : ∀ unit, (host.parseFile path []).result = .ok unit → ∀ d ∈ unit.diagnostics,
      ∀ place ∈ d.location, place.line < 1000000000 ∧ place.column < 1000000000) :
    ∃ before warning after, r.Warns before warning after := by
  obtain ⟨unit, findings, hu, hi, hf⟩ := exists_gather_of_report hr hok
  have hb : Report.isBlocked (host.diagnosticItems path unit.diagnostics) := by
    rw [Report.isBlocked_iff_countP_pos, ← Analysis.countP_isError_gather _ findings,
      ← (Report.sort_perm _).countP_eq, ← hi]
    exact List.countP_pos_iff.2 he
  obtain rfl := hf hb
  refine Analysis.exists_warns hi hb (fun _ => Report.source_of_mem_diagnosticItems) ?_
  intro i hm
  obtain ⟨d, hd', rfl⟩ := Report.mem_diagnosticItems hm
  exact Item.near_toItem (hd unit hu d hd')

/-! ## Errors on two lines, and one without a line -/

def crowdedDiagnostics : List Diagnostic :=
  [⟨.fatal, "too many errors emitted", none⟩,
    ⟨.error, "expected ';'", some ⟨some "main.cpp", 7, 2⟩⟩,
    ⟨.error, "expected expression", some ⟨some "main.cpp", 3, 80⟩⟩,
    ⟨.warning, "unused variable", some ⟨some "main.cpp", 3, 9⟩⟩,
    ⟨.note, "declared here", some ⟨some "main.cpp", 2, 1⟩⟩,
    ⟨.error, "unknown type name", some ⟨some "h.h", 1, 1⟩⟩]

def crowdedHost : Host :=
  { nestedHost with units := [("main.cpp", ⟨some nestedRoot, crowdedDiagnostics⟩)] }

theorem analyze_warns_crowded :
    ∃ r, (analyze crowdedHost [] false ⟨[]⟩ "main.cpp").report = .ok r ∧ r.ok ∧
      (r.items.map fun i => (i.line?, i.isFrom "runtime")) =
        [(some 2, false), (some 3, false), (some 3, false), (some 3, true), (some 7, false),
          (none, false)] ∧
      ∃ before warning after, r.Warns before warning after := by
  have hp : (crowdedHost.parseFile "main.cpp" []).result =
      .ok ⟨some nestedRoot, crowdedDiagnostics⟩ := rfl
  have hb : Report.isBlocked (crowdedHost.diagnosticItems "main.cpp" crowdedDiagnostics) := by
    decide +kernel
  obtain ⟨timing, hr, -⟩ := analyze_of_blocked hp hb [] false ⟨[]⟩
  let items := Report.sort
    (Analysis.gather (crowdedHost.diagnosticItems "main.cpp" crowdedDiagnostics) [])
  have hi : (items.map fun i => (i.line?, i.isFrom "runtime")) =
      [(some 2, false), (some 3, false), (some 3, false), (some 3, true), (some 7, false),
        (none, false)] := by
    decide +kernel
  have he : items.any Item.isError := by decide +kernel
  refine ⟨_, hr, rfl, hi, analyze_warns hr rfl (List.any_eq_true.1 he) ?_⟩
  intro unit hu
  obtain rfl := Except.ok.inj (hp.symm.trans hu)
  decide +kernel

end BannedCalls
