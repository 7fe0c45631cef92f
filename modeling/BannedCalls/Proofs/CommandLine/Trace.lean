import BannedCalls.Proofs.Analysis.Trace
import BannedCalls.Proofs.CommandLine.Modes
import BannedCalls.Proofs.CommandLine.Scan
import Mathlib.Data.List.TakeWhile

/-!
# Traced runs

A traced run is the untraced one with a trace on its standard error: the visits of its files in
turn, as far as it comes. A run that stops before its files visits none, and one that meets a file
without a tree stops there.
-/

namespace BannedCalls

/-- The files that a run analyses to the end. -/
def Settings.analysed (s : Settings) (host : Host) : List Text :=
  match s.pairs host.fileSystem with
  | .error _ => []
  | .ok _ => s.files.takeWhile fun path => host.HasTree path

/-- A debug flag can stand anywhere, even between an option and its value. -/
theorem Settings.ofArguments_insert_debug (before after : List Text) :
    ofArguments (before ++ ("--debug" : Text) :: after) =
      { ofArguments (before ++ after) with traced := true } := by
  have hu : Arguments.unflagged (before ++ ("--debug" : Text) :: after) =
      Arguments.unflagged (before ++ after) := by
    simp [Arguments.unflagged]
  have ht : (before ++ ("--debug" : Text) :: after).contains "--text" =
      (before ++ after).contains "--text" := by
    have hn : ("--debug" : Text) ≠ "--text" := by decide
    simp only [List.contains_append, contains_cons_of_ne hn]
  simp only [ofArguments_eq_scan, hu, ht]
  simp

namespace Batch

variable {host : Host} {offers : List Offer} {list : BanList}

theorem trace_run_untraced (host : Host) (offers : List Offer) (clock : Clock)
    (files : List Text) : (run host offers false clock files).trace = [] := by
  induction files generalizing clock with
  | nil => rfl
  | cons path rest ih =>
    have ht := trace_analyze_untraced host offers clock path
    unfold run
    dsimp only
    split
    · exact ht
    · simp only [ht, ih, List.append_nil]

theorem run_traced (ho : BanList.ofOffers offers = .ok list) (clock : Clock) (files : List Text) :
    run host offers true clock files =
      { run host offers false clock files with
        trace := (files.takeWhile fun path => host.HasTree path).flatMap host.visits } := by
  induction files generalizing clock with
  | nil => rfl
  | cons path rest ih =>
    unfold run
    rw [analyze_traced]
    dsimp only
    by_cases hp : host.HasTree path
    · obtain ⟨r, hr⟩ := exists_report ho hp false clock
      simp only [hr, ih, List.takeWhile_cons, decide_eq_true hp, if_true, List.flatMap_cons]
    · have hr := report_of_not_hasTree ho hp false clock
      simp only [hr, List.takeWhile_cons, decide_eq_false hp, visits_of_not_hasTree hp]
      rfl

end Batch

namespace CommandLine

theorem jsonOutcome_trace (clock : Clock) (pairs : List BannedPair) (batch : Batch)
    (trace : Text) : jsonOutcome clock pairs { batch with trace } =
      { jsonOutcome clock pairs batch with stderr := trace } := by
  unfold jsonOutcome
  cases batch.failure <;> rfl

theorem stderr_runFiles (host : Host) (clock : Clock) (s : Settings) (pairs : List BannedPair) :
    (runFiles host clock s pairs).stderr =
      (Batch.run host (pairs.map BannedPair.offer) s.traced clock.next s.files).trace := by
  unfold runFiles
  split
  · rfl
  · exact stderr_jsonOutcome ..

theorem stderr_obey_untraced (host : Host) (clock : Clock) {s : Settings} (h : s.traced = false) :
    (obey host clock s).stderr = [] := by
  unfold obey
  split
  · rfl
  · rfl
  · rfl
  · split
    · rfl
    · rw [stderr_runFiles, h, Batch.trace_run_untraced]

theorem obey_traced (host : Host) (clock : Clock) {s : Settings} (h : s.traced = false) :
    obey host clock { s with traced := true } =
      { obey host clock s with stderr := (s.analysed host).flatMap host.visits } := by
  have hp : ({ s with traced := true } : Settings).pairs host.fileSystem =
    s.pairs host.fileSystem := rfl
  unfold obey Settings.analysed
  rw [hp]
  cases hs : s.pairs host.fileSystem with
  | error e => cases e <;> rfl
  | ok pairs =>
    by_cases hf : s.files = []
    · simp only [hf, if_true]
      rfl
    · simp only [hf, if_false, runFiles, h, Batch.run_traced (Settings.ofOffers_of_pairs hs)]
      split
      · rfl
      · exact jsonOutcome_trace ..

theorem analysed_of_exit_zero {host : Host} {clock : Clock} {s : Settings}
    (h : (obey host clock s).exit = .ok 0) : s.analysed host = s.files := by
  unfold obey at h
  unfold Settings.analysed
  cases hs : s.pairs host.fileSystem with
  | error e => cases e <;> simp [hs, usageOutcome, escapeOutcome] at h
  | ok pairs =>
    by_cases hf : s.files = []
    · simp [hs, hf, usageOutcome] at h
    · have ht : ∀ path ∈ s.files, host.HasTree path :=
        (exit_runFiles_eq_zero_iff hs clock).1 (by simpa [hs, hf] using h)
      exact List.takeWhile_eq_self_iff.2 fun path hm => decide_eq_true (ht path hm)

/-- A debug flag changes nothing but what a run writes to its standard error: nothing without the
flag, and with it the visits of the files that the run analyses. These are all its files, unless it
stops on the way. -/
theorem run_debug (host : Host) (clock : Clock) {before after : List Text}
    (h : ("--debug" : Text) ∉ before ++ after) :
    let s := Settings.ofArguments (before ++ after)
    let plain := run host clock (before ++ after)
    let traced := run host clock (before ++ ("--debug" : Text) :: after)
    plain.stderr = [] ∧
      traced = { plain with stderr := (s.analysed host).flatMap host.visits } ∧
      (plain.exit = .ok 0 → s.analysed host = s.files) := by
  intro s plain traced
  have hf : s.traced = false := by
    simp only [s, Settings.ofArguments_eq_scan]
    simpa using h
  have ht := congrArg (obey host clock) (Settings.ofArguments_insert_debug before after)
  exact ⟨stderr_obey_untraced host clock hf, ht.trans (obey_traced host clock hf),
    analysed_of_exit_zero⟩

theorem run_debug_between :
    let before : List Text := ["--ban"]
    let after : List Text := ["a.b", "gone.cpp", "main.cpp"]
    let traced := run nestedHost ⟨[]⟩ (before ++ ("--debug" : Text) :: after)
    traced.exit = .ok 0 ∧ traced.stdout = (run nestedHost ⟨[]⟩ (before ++ after)).stdout ∧
      traced.stderr =
        "VISITING: CursorKind.TRANSLATION_UNIT line 0\n" ++
        "VISITING: CursorKind.CALL_EXPR line 1\n" ++
        "VISITING: CursorKind.MEMBER_REF_EXPR line 1\n" ++
        "VISITING: CursorKind.CALL_EXPR line 1\n" ++
        "VISITING: CursorKind.UNEXPOSED_EXPR line 1\n" ++
        "VISITING: CursorKind.MEMBER_REF_EXPR line 1\n" := by
  intro before after traced
  have hs : Settings.ofArguments (before ++ after) =
      ⟨false, false, [], [some "a.b"], ["gone.cpp", "main.cpp"]⟩ := by
    rw [Settings.ofArguments_eq_scan]
    decide +kernel
  have hx : (run nestedHost ⟨[]⟩ (before ++ after)).exit = .ok 0 := by
    refine @exit_run_of_trees nestedHost _ [⟨"a", "b"⟩] ?_ ?_ ?_ ⟨[]⟩
    · rw [hs]
      rfl
    · simp [hs]
    · exact fun path _ => Host.hasTree_of_forall_units (by simp [nestedHost])
  obtain ⟨-, ht, ha⟩ := @run_debug nestedHost ⟨[]⟩ before after (by decide)
  have htraced : traced = _ := ht
  rw [htraced, ha hx, hs]
  exact ⟨hx, rfl, by decide +kernel⟩

/-- Surroundings with two files, of which the front end parses the first without a tree. -/
def unevenHost : Host where
  fileSystem := ⟨[("bare.cpp", []), ("main.cpp", [])], [], [], "/work"⟩
  units := [("bare.cpp", ⟨none, []⟩), ("main.cpp", ⟨some emptyRoot, []⟩)]
  sdk := .missing
  environment := []

/-- A file that the front end parses with a tree is not visited when the run stops before it. -/
theorem run_debug_stopped :
    let lines : Text := "VISITING: CursorKind.TRANSLATION_UNIT line 0\n"
    let atOptions := run unevenHost ⟨[]⟩ ["--debug", "--config", "gone", "main.cpp"]
    let atFile := run unevenHost ⟨[]⟩ ["--debug", "bare.cpp", "main.cpp"]
    unevenHost.visits "main.cpp" = lines ∧
      (atOptions.exit = .ok 2 ∧ atOptions.stderr = []) ∧
      (atFile.exit = .error (.analysis .noTree) ∧ atFile.stderr = []) := by
  intro lines atOptions atFile
  refine ⟨by decide +kernel, ?_, ?_⟩
  · have ho : atOptions = usageOutcome false (.config (.fileMissing "gone")) := by
      have hs : Settings.ofArguments ["--debug", "--config", "gone", "main.cpp"] =
          ⟨false, true, [some "gone"], [], ["main.cpp"]⟩ := by
        rw [Settings.ofArguments_eq_scan]
        decide +kernel
      exact run_of_config (by rw [hs]; rfl) ⟨[]⟩
    rw [ho]
    exact ⟨rfl, rfl⟩
  · have hs : Settings.ofArguments ["bare.cpp", "main.cpp"] =
        ⟨false, false, [], [], ["bare.cpp", "main.cpp"]⟩ :=
      Settings.ofArguments_of_files (by decide)
    have ho : atFile = obey unevenHost ⟨[]⟩
        { Settings.ofArguments ["bare.cpp", "main.cpp"] with traced := true } :=
      congrArg (obey unevenHost ⟨[]⟩) (Settings.ofArguments_debug_cons _)
    rw [ho, obey_traced _ _ (by rw [hs]), ← run_eq_obey]
    refine ⟨@exit_run_of_treeless unevenHost _ [] (by rw [hs]; rfl) ⟨"bare.cpp", ?_⟩ ⟨[]⟩, ?_⟩
    · rw [hs]
      decide +kernel
    · rw [hs]
      decide +kernel

end CommandLine

end BannedCalls
