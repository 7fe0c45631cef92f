import BannedCalls.Proofs.Report.Sources

/-!
# The cases of an analysis

What is reported about a file, its timing aside, is settled by the surroundings, the ban list and
the path alone: `Host.entry`. The clock and the trace do not matter to it. How often the clock is
read depends on how far the analysis gets.
-/

namespace BannedCalls

namespace Host

variable (host : Host) (list : BanList) (path : Text)

/-- The scope of the file at a path. -/
def scope : Scope := ⟨host.fileSystem, some (host.fileSystem.realPath path)⟩

/-- The items from the diagnostics of the unit at a path. -/
def diagnosticItems (diagnostics : List Diagnostic) : List Item :=
  Report.diagnosticItems host.fileSystem (host.fileSystem.realPath path) diagnostics

/-- If the front end answers for the path, its answer has a tree. -/
def HasTree : Prop := ∀ unit, (host.parseFile path []).result = .ok unit → unit.root.isSome

/-- How often an analysis of the file reads the clock. -/
def readings : Nat :=
  match (host.parseFile path []).result with
  | .error _ => 2
  | .ok unit => if Report.isBlocked (host.diagnosticItems path unit.diagnostics) then 4 else 6

/-- The report about a file, once its timing is known; without a tree there is none. -/
def entry (timing : Timing) : Option FileReport :=
  match (host.parseFile path []).result with
  | .error e => some { Analysis.failureReport host ⟨[]⟩ path e with timing }
  | .ok ⟨none, _⟩ => none
  | .ok ⟨some root, diagnostics⟩ =>
    let items := host.diagnosticItems path diagnostics
    let findings :=
      if Report.isBlocked items then [] else list.engine.run ((host.scope path).nodes root)
    some (Analysis.successReport host path items findings timing)

end Host

section

variable {host : Host} {list : BanList} {path : Text} {offers : List Offer}

theorem Host.mem_units_of_parseFile {extra : List Text} {unit : SourceUnit}
    (h : (host.parseFile path extra).result = .ok unit) : (path, unit) ∈ host.units := by
  unfold Host.parseFile at h
  split at h
  · simp at h
  · split at h
    · simp at h
    · cases hu : host.unit? path with
      | none => simp [Host.request, hu] at h
      | some found =>
        obtain rfl : found = unit := by simpa [Host.request, hu] using h
        obtain ⟨entry, he, rfl⟩ := Option.map_eq_some_iff.1 hu
        have hp : entry.1 = path := by simpa using List.find?_some he
        subst hp
        exact List.mem_of_find?_eq_some he

theorem Host.hasTree_of_forall_units (h : ∀ entry ∈ host.units, entry.2.root.isSome) :
    host.HasTree path :=
  fun _ hu => h _ (Host.mem_units_of_parseFile hu)

theorem analyze_of_error {e : ParseError} (h : (host.parseFile path []).result = .error e)
    (offers : List Offer) (traced : Bool) (clock : Clock) :
    (analyze host offers traced clock path).report =
        .ok (Analysis.failureReport host clock path e) ∧
      (analyze host offers traced clock path).readings = 2 := by
  simp [analyze, h]

theorem analyze_of_treeless {diagnostics : List Diagnostic}
    (h : (host.parseFile path []).result = .ok ⟨none, diagnostics⟩) (offers : List Offer)
    (traced : Bool) (clock : Clock) :
    (analyze host offers traced clock path).report = .error .noTree := by
  simp [analyze, h, Analysis.ofUnit]

theorem analyze_of_blocked {root : Cursor} {diagnostics : List Diagnostic}
    (h : (host.parseFile path []).result = .ok ⟨some root, diagnostics⟩)
    (hb : Report.isBlocked (host.diagnosticItems path diagnostics)) (offers : List Offer)
    (traced : Bool) (clock : Clock) :
    ∃ timing, (analyze host offers traced clock path).report =
        .ok (Analysis.successReport host path (host.diagnosticItems path diagnostics) [] timing) ∧
      (analyze host offers traced clock path).readings = 4 := by
  unfold Host.diagnosticItems at hb
  simp only [analyze, h, Analysis.ofUnit, Analysis.ofTree, if_pos hb]
  exact ⟨_, rfl, trivial⟩

theorem analyze_of_clean {root : Cursor} {diagnostics : List Diagnostic}
    (h : (host.parseFile path []).result = .ok ⟨some root, diagnostics⟩)
    (hb : ¬ Report.isBlocked (host.diagnosticItems path diagnostics))
    (ho : BanList.ofOffers offers = .ok list) (traced : Bool) (clock : Clock) :
    ∃ timing, (analyze host offers traced clock path).report =
        .ok (Analysis.successReport host path (host.diagnosticItems path diagnostics)
          (list.engine.run ((host.scope path).nodes root)) timing) ∧
      (analyze host offers traced clock path).readings = 6 := by
  unfold Host.diagnosticItems at hb
  simp only [analyze, h, Analysis.ofUnit, Analysis.ofTree, if_neg hb, ho]
  exact ⟨_, rfl, trivial⟩

theorem analyze_of_refused {root : Cursor} {diagnostics : List Diagnostic} {e : PairError}
    (h : (host.parseFile path []).result = .ok ⟨some root, diagnostics⟩)
    (hb : ¬ Report.isBlocked (host.diagnosticItems path diagnostics))
    (ho : BanList.ofOffers offers = .error e) (traced : Bool) (clock : Clock) :
    (analyze host offers traced clock path).report = .error (.pair e) := by
  unfold Host.diagnosticItems at hb
  simp only [analyze, h, Analysis.ofUnit, Analysis.ofTree, if_neg hb, ho]

/-- The items of a file that was parsed are what was gathered about it, in order. -/
theorem exists_gather_of_report {traced : Bool} {clock : Clock} {r : FileReport}
    (hr : (analyze host offers traced clock path).report = .ok r) (hok : r.ok) :
    ∃ unit findings, (host.parseFile path []).result = .ok unit ∧
      r.items =
        Report.sort (Analysis.gather (host.diagnosticItems path unit.diagnostics) findings) ∧
      (Report.isBlocked (host.diagnosticItems path unit.diagnostics) → findings = []) := by
  cases hp : (host.parseFile path []).result with
  | error e =>
    obtain rfl := Except.ok.inj ((analyze_of_error hp offers traced clock).1.symm.trans hr)
    simp [FileReport.ok, Analysis.failureReport] at hok
  | ok unit =>
    obtain ⟨root, diagnostics⟩ := unit
    cases root with
    | none => cases (analyze_of_treeless hp offers traced clock).symm.trans hr
    | some root =>
      by_cases hb : Report.isBlocked (host.diagnosticItems path diagnostics)
      · obtain ⟨timing, hs, -⟩ := analyze_of_blocked hp hb offers traced clock
        obtain rfl := Except.ok.inj (hs.symm.trans hr)
        exact ⟨_, [], rfl, rfl, fun _ => rfl⟩
      · cases ho : BanList.ofOffers offers with
        | error e => cases (analyze_of_refused hp hb ho traced clock).symm.trans hr
        | ok list =>
          obtain ⟨timing, hs, -⟩ := analyze_of_clean hp hb ho traced clock
          obtain rfl := Except.ok.inj (hs.symm.trans hr)
          exact ⟨_, _, rfl, rfl, fun h => absurd h hb⟩

/-- Up to its timing, the report of an analysis is the entry of the file. -/
theorem analyze_report (ho : BanList.ofOffers offers = .ok list) (traced : Bool) (clock : Clock)
    (path : Text) :
    ∃ timing, (analyze host offers traced clock path).report =
      (host.entry list path timing).elim (.error .noTree) .ok := by
  unfold Host.entry
  cases h : (host.parseFile path []).result with
  | error e => exact ⟨_, (analyze_of_error h offers traced clock).1⟩
  | ok unit =>
    obtain ⟨root, diagnostics⟩ := unit
    cases root with
    | none => exact ⟨.ofStages 0 0 0, analyze_of_treeless h offers traced clock⟩
    | some root =>
      by_cases hb : Report.isBlocked (host.diagnosticItems path diagnostics)
      · obtain ⟨timing, hr, -⟩ := analyze_of_blocked h hb offers traced clock
        exact ⟨timing, by simp [hr, hb]⟩
      · obtain ⟨timing, hr, -⟩ := analyze_of_clean h hb ho traced clock
        exact ⟨timing, by simp [hr, hb]⟩

theorem analyze_readings (ho : BanList.ofOffers offers = .ok list) (ht : host.HasTree path)
    (traced : Bool) (clock : Clock) :
    (analyze host offers traced clock path).readings = host.readings path := by
  unfold Host.readings
  cases h : (host.parseFile path []).result with
  | error e => exact (analyze_of_error h offers traced clock).2
  | ok unit =>
    obtain ⟨root, diagnostics⟩ := unit
    obtain ⟨root, rfl⟩ := Option.isSome_iff_exists.1 (ht _ h)
    by_cases hb : Report.isBlocked (host.diagnosticItems path diagnostics)
    · obtain ⟨timing, -, hr⟩ := analyze_of_blocked h hb offers traced clock
      simp [hr, hb]
    · obtain ⟨timing, -, hr⟩ := analyze_of_clean h hb ho traced clock
      simp [hr, hb]

theorem isSome_entry_iff (timing : Timing) :
    (host.entry list path timing).isSome ↔ host.HasTree path := by
  unfold Host.entry Host.HasTree
  cases h : (host.parseFile path []).result with
  | error e => simp
  | ok unit =>
    obtain ⟨root, diagnostics⟩ := unit
    cases root <;> simp

/-- The timing is the only part of an entry that depends on the timing. -/
theorem entry_eq_of_entry {timing timing' : Timing} {r : FileReport}
    (h : host.entry list path timing = some r) :
    host.entry list path timing' = some { r with timing := timing' } := by
  unfold Host.entry at h ⊢
  split at h
  · obtain rfl := Option.some.inj h
    rfl
  · simp at h
  · obtain rfl := Option.some.inj h
    rfl

theorem exists_report (ho : BanList.ofOffers offers = .ok list) (ht : host.HasTree path)
    (traced : Bool) (clock : Clock) :
    ∃ r, (analyze host offers traced clock path).report = .ok r := by
  obtain ⟨timing, hr⟩ := @analyze_report host _ _ ho traced clock path
  obtain ⟨r, he⟩ := Option.isSome_iff_exists.1 ((isSome_entry_iff timing).2 ht)
  rw [he] at hr
  exact ⟨r, hr⟩

theorem report_of_not_hasTree (ho : BanList.ofOffers offers = .ok list)
    (ht : ¬ host.HasTree path) (traced : Bool) (clock : Clock) :
    (analyze host offers traced clock path).report = .error .noTree := by
  obtain ⟨timing, hr⟩ := @analyze_report host _ _ ho traced clock path
  have he : host.entry list path timing = none := by
    rw [← Option.not_isSome_iff_eq_none, isSome_entry_iff]
    exact ht
  rw [he] at hr
  exact hr

theorem exists_entry_of_report (ho : BanList.ofOffers offers = .ok list) {traced : Bool}
    {clock : Clock} {r : FileReport} (h : (analyze host offers traced clock path).report = .ok r) :
    ∃ timing, host.entry list path timing = some r := by
  obtain ⟨timing, hr⟩ := @analyze_report host _ _ ho traced clock path
  rw [h] at hr
  cases he : host.entry list path timing with
  | none => simp [he] at hr
  | some r' =>
    rw [he] at hr
    obtain rfl := Except.ok.inj hr
    exact ⟨timing, he⟩

/-- Neither the clock nor the trace matters to a report, its timing aside. -/
theorem analyze_report_eq_ok (ho : BanList.ofOffers offers = .ok list) {traced : Bool}
    {clock : Clock} {r : FileReport} (h : (analyze host offers traced clock path).report = .ok r)
    (traced' : Bool) (clock' : Clock) :
    ∃ timing,
      (analyze host offers traced' clock' path).report = .ok { r with timing := timing } := by
  obtain ⟨timing, he⟩ := exists_entry_of_report ho h
  obtain ⟨timing', hr⟩ := @analyze_report host _ _ ho traced' clock' path
  rw [entry_eq_of_entry he] at hr
  exact ⟨timing', hr⟩

theorem entry_worded {timing : Timing} {r : FileReport}
    (h : host.entry list path timing = some r) : ∀ i ∈ r.items, i.Worded := by
  unfold Host.entry at h
  split at h
  · obtain rfl := Option.some.inj h
    intro i hi
    obtain rfl := List.mem_singleton.1 hi
    exact Item.advised_worded ..
  · simp at h
  · obtain rfl := Option.some.inj h
    intro i hi
    exact Analysis.gather_worded ((Report.sort_perm _).mem_iff.1 hi)

end

end BannedCalls
