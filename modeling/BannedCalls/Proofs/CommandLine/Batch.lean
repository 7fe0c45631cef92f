import BannedCalls.Proofs.Analysis.Cases
import BannedCalls.Proofs.CommandLine.Options
import Mathlib.Algebra.GroupWithZero.Nat

/-!
# Batches of files

A batch is its files analysed one by one: each analysis starts where the clock stands after those
before it, and nothing else passes from one file to the next. A batch fails only where the front end
answers for a file without a tree.
-/

namespace BannedCalls

/-- How often the analyses of a series of files read the clock. -/
def Host.readingsOf (host : Host) (files : List Text) : Nat := (files.map host.readings).sum

@[simp] theorem Host.readingsOf_nil (host : Host) : host.readingsOf [] = 0 := rfl

@[simp] theorem Host.readingsOf_cons (host : Host) (path : Text) (rest : List Text) :
    host.readingsOf (path :: rest) = host.readings path + host.readingsOf rest := rfl

namespace Batch

variable {host : Host} {offers : List Offer} {list : BanList}

theorem run_cons_of_error {e : AnalysisError} {traced : Bool} {clock : Clock} {path : Text}
    (h : (analyze host offers traced clock path).report = .error e) (rest : List Text) :
    (run host offers traced clock (path :: rest)).failure = some e ∧
      (run host offers traced clock (path :: rest)).reports = [] := by
  simp [run, h]

theorem run_cons_of_ok {r : FileReport} {traced : Bool} {clock : Clock} {path : Text}
    (h : (analyze host offers traced clock path).report = .ok r) (rest : List Text) :
    let others := run host offers traced
      (clock.advance (analyze host offers traced clock path).readings) rest
    (run host offers traced clock (path :: rest)).failure = others.failure ∧
      (run host offers traced clock (path :: rest)).reports = r :: others.reports ∧
      (run host offers traced clock (path :: rest)).readings =
        (analyze host offers traced clock path).readings + others.readings := by
  simp [run, h]

theorem run_of_trees (ho : BanList.ofOffers offers = .ok list) {files : List Text}
    (ht : ∀ path ∈ files, host.HasTree path) (traced : Bool) (clock : Clock) :
    (run host offers traced clock files).failure = none ∧
      (run host offers traced clock files).readings = host.readingsOf files ∧
      (run host offers traced clock files).reports.map .ok = files.mapIdx fun i path =>
        (analyze host offers traced
          (clock.advance (host.readingsOf (files.take i))) path).report := by
  induction files generalizing clock with
  | nil => exact ⟨rfl, rfl, rfl⟩
  | cons path rest ih =>
    obtain ⟨hp, hrest⟩ := List.forall_mem_cons.1 ht
    obtain ⟨r, hr⟩ := exists_report ho hp traced clock
    obtain ⟨hf, hs, hn⟩ := run_cons_of_ok hr rest
    rw [analyze_readings ho hp] at hf hs hn
    -- The rest starts where the first analysis leaves the clock.
    obtain ⟨ihf, ihn, ihs⟩ := ih hrest (clock.advance (host.readings path))
    refine ⟨hf.trans ihf, ?_, ?_⟩
    · rw [hn, ihn, Host.readingsOf_cons]
    · rw [hs, List.map_cons, ihs, List.mapIdx_cons]
      simp only [List.take_zero, Host.readingsOf_nil, List.take_succ_cons, Host.readingsOf_cons,
        Clock.advance_add]
      congr 1
      exact hr.symm

theorem failure_of_treeless (ho : BanList.ofOffers offers = .ok list) {files : List Text}
    (ht : ∃ path ∈ files, ¬ host.HasTree path) (traced : Bool) (clock : Clock) :
    (run host offers traced clock files).failure = some .noTree := by
  induction files generalizing clock with
  | nil => simp at ht
  | cons path rest ih =>
    by_cases hp : host.HasTree path
    · obtain ⟨r, hr⟩ := exists_report ho hp traced clock
      obtain ⟨hf, -, -⟩ := run_cons_of_ok hr rest
      have hrest : ∃ path ∈ rest, ¬ host.HasTree path := by
        obtain ⟨other, hm, ho⟩ := ht
        rcases List.mem_cons.1 hm with rfl | hm
        · exact absurd hp ho
        · exact ⟨other, hm, ho⟩
      exact hf.trans (ih hrest _)
    · exact (run_cons_of_error (report_of_not_hasTree ho hp traced clock) rest).1

theorem failure_eq_none_iff (ho : BanList.ofOffers offers = .ok list) {files : List Text}
    (traced : Bool) (clock : Clock) :
    (run host offers traced clock files).failure = none ↔
      ∀ path ∈ files, host.HasTree path := by
  by_cases ht : ∀ path ∈ files, host.HasTree path
  · simp only [(run_of_trees ho ht traced clock).1, true_iff]
    exact ht
  · have hl : ∃ path ∈ files, ¬ host.HasTree path := by simpa using ht
    simp only [failure_of_treeless ho hl, reduceCtorEq, false_iff]
    exact ht

theorem entry_of_mem_reports (ho : BanList.ofOffers offers = .ok list) {files : List Text}
    {traced : Bool} {clock : Clock} {r : FileReport}
    (hm : r ∈ (run host offers traced clock files).reports) :
    ∃ path timing, host.entry list path timing = some r := by
  induction files generalizing clock with
  | nil => simp [run] at hm
  | cons path rest ih =>
    cases hr : (analyze host offers traced clock path).report with
    | error e => simp [run_cons_of_error hr rest] at hm
    | ok first =>
      rw [(run_cons_of_ok hr rest).2.1] at hm
      rcases List.mem_cons.1 hm with rfl | hm
      · obtain ⟨timing, he⟩ := exists_entry_of_report ho hr
        exact ⟨path, timing, he⟩
      · exact ih hm

end Batch

namespace CommandLine

variable {host : Host} {args : List Text} {pairs : List BannedPair}

theorem run_of_pairs (hp : (Settings.ofArguments args).pairs host.fileSystem = .ok pairs)
    (hf : (Settings.ofArguments args).files ≠ []) (clock : Clock) :
    run host clock args = runFiles host clock (Settings.ofArguments args) pairs := by
  simp [run, hp, hf]

theorem run_json (hj : (Settings.ofArguments args).text = false)
    (hp : (Settings.ofArguments args).pairs host.fileSystem = .ok pairs)
    (hf : (Settings.ofArguments args).files ≠ []) (clock : Clock) :
    run host clock args = jsonOutcome clock pairs (Batch.run host (pairs.map BannedPair.offer)
      (Settings.ofArguments args).traced clock.next (Settings.ofArguments args).files) := by
  rw [run_of_pairs hp hf, runFiles, hj]
  rfl

theorem exit_jsonOutcome (clock : Clock) (pairs : List BannedPair) (batch : Batch) :
    (jsonOutcome clock pairs batch).exit =
      batch.failure.elim (.ok 0) fun e => .error (.analysis e) := by
  unfold jsonOutcome
  cases batch.failure <;> rfl

theorem stdout_jsonOutcome {batch : Batch} (h : batch.failure = none) (clock : Clock)
    (pairs : List BannedPair) :
    (jsonOutcome clock pairs batch).stdout =
      (payload batch.reports (totalTime clock batch.readings) pairs).print ++ "\n" := by
  unfold jsonOutcome
  rw [h]

/-- Surroundings with one file, for which the front end answers with the tree `root`, if any. -/
def loneHost (root : Option Cursor) : Host where
  fileSystem := ⟨[("main.cpp", [])], [], [], "/work"⟩
  units := [("main.cpp", ⟨root, []⟩)]
  sdk := .missing
  environment := []

def emptyRoot : Cursor :=
  .node ⟨.other "TRANSLATION_UNIT", "main.cpp", ⟨none, 0, 0⟩, ⟨0, 0, 1, 1⟩, []⟩ []

end CommandLine

end BannedCalls
