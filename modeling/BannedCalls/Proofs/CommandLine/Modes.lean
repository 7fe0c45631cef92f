import BannedCalls.Proofs.CommandLine.Exit
import BannedCalls.Proofs.Report.Reread

/-!
# Text and JSON

A run in text mode ends as the run in JSON mode does, having done the same. What it prints can be
told from the results that the other prints: `story` tells it, reading nothing but them.
-/

namespace BannedCalls

/-! ## The story of results -/

namespace CommandLine

/-- The lines about a result, under a heading if there are several: its errors and warnings in
order, and its timing. -/
def resultLines (several : Bool) (result : Json) : Option (List Text) := do
  let file ← (← result.member? "file").text?
  let items ← (← result.member? "items").items?
  let timing ← Timing.ofJson? (← result.member? "timing_ms")
  let shown ← ((items.map Item.ofJson).filter fun i => i.isError || i.isWarning).mapM fun i =>
    i.shown.toOption
  return (if several then ["=== " ++ file ++ " ==="] else []) ++ shown ++ [timing.line]

/-- The lines about results, with an empty one between any two of them. -/
def storyLines (several : Bool) : List Json → Option (List Text)
  | [] => some []
  | result :: rest => do
    let lines ← resultLines several result
    let others ← storyLines several rest
    return lines ++ (if rest.isEmpty then [] else [[]]) ++ others

def story (results : List Json) : Option Text :=
  (storyLines (1 < results.length) results).map fun lines =>
    lines.flatMap fun line => line ++ ("\n" : Text)

/-- A report that text can show and that can be told from its JSON. -/
def Tellable (r : FileReport) : Prop :=
  ∀ i ∈ r.items, i.Worded ∧ Item.ofJson i.toJson = i

theorem tellable_of_entry {host : Host} {list : BanList} {path : Text} {timing : Timing}
    {r : FileReport} (h : host.entry list path timing = some r) : Tellable r :=
  fun i hi => ⟨entry_worded h i hi, ofJson_toJson_of_entry h i hi⟩

theorem mapM_shown {items : List Item} (h : ∀ i ∈ items, i.Worded) :
    ∃ lines : List Text, (items.mapM fun i => i.shown.toOption) = some lines ∧
      (items.map fun i => i.shown.mapError fun _ => Escape.messageNotText) = lines.map .ok := by
  induction items with
  | nil => exact ⟨[], rfl, rfl⟩
  | cons i rest ih =>
    obtain ⟨hi, hr⟩ := List.forall_mem_cons.1 h
    obtain ⟨line, hl⟩ := Item.shown_of_worded hi
    obtain ⟨lines, hm, he⟩ := ih hr
    refine ⟨line :: lines, ?_, ?_⟩
    · simp only [List.mapM_cons, hl, hm]
      rfl
    · rw [List.map_cons, he, hl]
      rfl

theorem reportLines_eq {r : FileReport} (h : Tellable r) (count : Nat) :
    ∃ lines, resultLines (1 < count) r.toJson = some lines ∧
      ∀ isLast, reportLines count isLast r = (lines ++ if isLast then [] else [[]]).map .ok := by
  have hj : (r.items.map Item.toJson).map Item.ofJson = r.items := by
    rw [List.map_map]
    exact (List.map_congr_left fun i hi => (h i hi).2).trans (List.map_id _)
  have hw : ∀ i ∈ r.items.filter fun i => i.isError || i.isWarning, i.Worded :=
    fun i hi => (h i (List.mem_filter.1 hi).1).1
  obtain ⟨shown, hs, hl⟩ := mapM_shown hw
  have hf : r.toJson.member? "file" = some (.str r.file) := rfl
  have hi : r.toJson.member? "items" = some (.arr (r.items.map Item.toJson)) := rfl
  have ht : r.toJson.member? "timing_ms" = some r.timing.toJson := rfl
  refine ⟨(if 1 < count then ["=== " ++ r.file ++ " ==="] else []) ++ shown ++ [r.timing.line],
    ?_, fun isLast => ?_⟩
  · simp [resultLines, hf, hi, ht, Json.text?, Json.items?, Timing.ofJson?_toJson, hj, hs]
  · unfold reportLines itemLines
    rw [hl]
    by_cases hc : 1 < count <;> cases isLast <;> simp [hc]

theorem allLines_eq {reports : List FileReport} (h : ∀ r ∈ reports, Tellable r) (count : Nat) :
    ∃ lines, storyLines (1 < count) (reports.map FileReport.toJson) = some lines ∧
      allLines count (reports.length - 1) reports = lines.map .ok := by
  induction reports with
  | nil => exact ⟨[], rfl, rfl⟩
  | cons r rest ih =>
    obtain ⟨hr, hrest⟩ := List.forall_mem_cons.1 h
    obtain ⟨lines, hs, hl⟩ := reportLines_eq hr count
    obtain ⟨others, ho, ha⟩ := ih hrest
    refine ⟨lines ++ (if rest.isEmpty then [] else [[]]) ++ others, ?_, ?_⟩
    · simp [storyLines, hs, ho]
    · have he : (rest.length == 0) = rest.isEmpty := by cases rest <;> rfl
      rw [allLines, List.length_cons, Nat.add_sub_cancel, hl, ha, he, ← List.map_append]

theorem printLines_ok (lines : List Text) :
    printLines (lines.map .ok) = (lines.flatMap fun line => line ++ ("\n" : Text), none) := by
  induction lines with
  | nil => rfl
  | cons line rest ih =>
    rw [List.map_cons, printLines, ih]
    rfl

/-- What text shows of a batch without a failure is the story of its results. -/
theorem stdout_textOutcome {batch : Batch} (hf : batch.failure = none)
    (h : ∀ r ∈ batch.reports, Tellable r) :
    story (batch.reports.map FileReport.toJson) =
      some (textOutcome batch.reports.length batch).stdout := by
  obtain ⟨lines, hs, hl⟩ := allLines_eq h batch.reports.length
  rw [story, List.length_map, hs]
  simp [textOutcome, hf, hl, printLines_ok]

/-! ## Runs in both modes -/

/-- What a run does once its arguments are sorted out. -/
def obey (host : Host) (clock : Clock) (s : Settings) : Outcome :=
  match s.pairs host.fileSystem with
  | .error (.config e) => usageOutcome s.text (.config e)
  | .error .isDirectory => escapeOutcome .isDirectory
  | .error .notUtf8 => escapeOutcome .notUtf8
  | .ok pairs =>
    if s.files = [] then usageOutcome s.text .noFiles else runFiles host clock s pairs

theorem run_eq_obey (host : Host) (clock : Clock) (args : List Text) :
    run host clock args = obey host clock (Settings.ofArguments args) := rfl

/-- The analyses that a run makes of its files. -/
def batchOf (host : Host) (clock : Clock) (s : Settings) (pairs : List BannedPair) : Batch :=
  Batch.run host (pairs.map BannedPair.offer) s.traced clock.next s.files

/-- The modes part only in how they print: a fault in the options, or a batch that is one batch for
both of them. -/
theorem obey_cases (host : Host) (clock : Clock) (s : Settings) :
    (∃ e, ∀ text, obey host clock { s with text } = usageOutcome text e) ∨
      (∃ e, ∀ text, obey host clock { s with text } = escapeOutcome e) ∨
      ∃ pairs, s.pairs host.fileSystem = .ok pairs ∧
        obey host clock { s with text := false } =
          jsonOutcome clock pairs (batchOf host clock s pairs) ∧
        obey host clock { s with text := true } =
          textOutcome s.files.length (batchOf host clock s pairs) := by
  have hp (text : Bool) : ({ s with text } : Settings).pairs host.fileSystem =
      s.pairs host.fileSystem := rfl
  cases h : s.pairs host.fileSystem with
  | error e =>
    cases e with
    | config e => exact .inl ⟨.config e, fun text => by simp [obey, hp, h]⟩
    | isDirectory => exact .inr (.inl ⟨.isDirectory, fun text => by simp [obey, hp, h]⟩)
    | notUtf8 => exact .inr (.inl ⟨.notUtf8, fun text => by simp [obey, hp, h]⟩)
  | ok pairs =>
    by_cases hf : s.files = []
    · exact .inl ⟨.noFiles, fun text => by simp only [obey, hp, h, if_pos hf]⟩
    · refine .inr (.inr ⟨pairs, rfl, ?_, ?_⟩) <;>
        simp [obey, hp, h, hf, runFiles, batchOf]

theorem exit_jsonOutcome_eq_ok_iff {clock : Clock} {pairs : List BannedPair} {batch : Batch}
    {n : Nat} : (jsonOutcome clock pairs batch).exit = .ok n ↔ batch.failure = none ∧ n = 0 := by
  rw [exit_jsonOutcome]
  cases batch.failure <;> simp [eq_comm]

theorem stderr_jsonOutcome (clock : Clock) (pairs : List BannedPair) (batch : Batch) :
    (jsonOutcome clock pairs batch).stderr = batch.trace := by
  unfold jsonOutcome
  cases batch.failure <;> rfl

theorem calls_jsonOutcome (clock : Clock) (pairs : List BannedPair) (batch : Batch) :
    (jsonOutcome clock pairs batch).calls = batch.calls := by
  unfold jsonOutcome
  cases batch.failure <;> rfl

variable {host : Host} {s : Settings} {pairs : List BannedPair}

theorem tellable_of_mem_batchOf (hp : s.pairs host.fileSystem = .ok pairs) (clock : Clock) :
    ∀ r ∈ (batchOf host clock s pairs).reports, Tellable r := by
  intro r hr
  obtain ⟨path, timing, he⟩ := Batch.entry_of_mem_reports (Settings.ofOffers_of_pairs hp) hr
  exact tellable_of_entry he

theorem exit_textOutcome_batchOf (hp : s.pairs host.fileSystem = .ok pairs) (clock : Clock) :
    (textOutcome s.files.length (batchOf host clock s pairs)).exit =
      (jsonOutcome clock pairs (batchOf host clock s pairs)).exit := by
  rw [exit_textOutcome fun r hr i hi => (tellable_of_mem_batchOf hp clock r hr i hi).1,
    exit_jsonOutcome]

theorem exit_runFiles_eq_zero_iff (hp : s.pairs host.fileSystem = .ok pairs) (clock : Clock) :
    (runFiles host clock s pairs).exit = .ok 0 ↔ ∀ path ∈ s.files, host.HasTree path := by
  have ho := Settings.ofOffers_of_pairs hp
  rw [exit_runFiles ho, ← Batch.failure_eq_none_iff ho s.traced clock.next]
  cases (Batch.run host (pairs.map BannedPair.offer) s.traced clock.next s.files).failure <;> simp

theorem reports_batchOf (hp : s.pairs host.fileSystem = .ok pairs)
    (ht : ∀ path ∈ s.files, host.HasTree path) (clock : Clock) :
    (batchOf host clock s pairs).reports.map .ok = s.files.mapIdx fun i path =>
      (analyze host (pairs.map BannedPair.offer) s.traced
        (clock.advance (1 + host.readingsOf (s.files.take i))) path).report := by
  have ho := Settings.ofOffers_of_pairs hp
  refine (Batch.run_of_trees ho ht s.traced clock.next).2.2.trans ?_
  congr 1
  funext i path
  rw [Clock.advance_add]
  rfl

theorem length_batchOf (hp : s.pairs host.fileSystem = .ok pairs)
    (ht : ∀ path ∈ s.files, host.HasTree path) (clock : Clock) :
    (batchOf host clock s pairs).reports.length = s.files.length := by
  simpa using congrArg List.length (reports_batchOf hp ht clock)

/-- A text flag changes nothing but what is printed. A fault in the options is printed as it stands
in the payload. Of an undisturbed run the story of the results in the payload is printed. -/
theorem run_text (host : Host) (clock : Clock) {before after : List Text}
    (h : ("--text" : Text) ∉ before ++ after) :
    let s := Settings.ofArguments (before ++ after)
    let json := run host clock (before ++ after)
    let text := run host clock (before ++ ("--text" : Text) :: after)
    text.exit = json.exit ∧ text.stderr = json.stderr ∧ text.calls = json.calls ∧
      (json.exit = .ok 2 → ∃ e : UsageError,
        json.stdout = (usagePayload e).print ++ "\n" ∧ text.stdout = e.message ++ "\n") ∧
      (json.exit = .ok 0 → ∃ pairs, s.pairs host.fileSystem = .ok pairs ∧
        let batch := batchOf host clock s pairs
        batch.reports.length = s.files.length ∧
          json.stdout =
            (payload batch.reports (totalTime clock batch.readings) pairs).print ++ "\n" ∧
          story (batch.reports.map FileReport.toJson) = some text.stdout) := by
  intro s json text
  have hf : s.text = false := by simpa [s, Settings.ofArguments] using h
  have hj : json = obey host clock { s with text := false } := by
    rw [← hf]
    rfl
  have ht : text = obey host clock { s with text := true } := by
    rw [← Settings.ofArguments_insert_text]
    rfl
  rcases obey_cases host clock s with ⟨e, he⟩ | ⟨e, he⟩ | ⟨pairs, hp, hoj, hot⟩
  · rw [hj, ht, he, he]
    exact ⟨rfl, rfl, rfl, fun _ => ⟨e, rfl, rfl⟩, fun hx => by simp [usageOutcome] at hx⟩
  · rw [hj, ht, he, he]
    exact ⟨rfl, rfl, rfl, fun hx => by simp [escapeOutcome] at hx,
      fun hx => by simp [escapeOutcome] at hx⟩
  · rw [hj, ht, hoj, hot]
    refine ⟨exit_textOutcome_batchOf hp clock, (stderr_jsonOutcome ..).symm,
      (calls_jsonOutcome ..).symm, fun hx => ?_, fun hx => ?_⟩
    · exact absurd (exit_jsonOutcome_eq_ok_iff.1 hx).2 (by decide)
    · have hb := (exit_jsonOutcome_eq_ok_iff.1 hx).1
      have ht := (Batch.failure_eq_none_iff (Settings.ofOffers_of_pairs hp) _ _).1 hb
      have hl := length_batchOf hp ht clock
      refine ⟨pairs, hp, hl, stdout_jsonOutcome hb clock pairs, ?_⟩
      rw [← hl]
      exact stdout_textOutcome hb (tellable_of_mem_batchOf hp clock)

theorem run_text_between :
    let host := loneHost (some emptyRoot)
    let before : List Text := ["--ban"]
    let after : List Text := ["a.b", "main.cpp", "gone.cpp"]
    let text := run host ⟨[]⟩ (before ++ ("--text" : Text) :: after)
    let timing : Text :=
      "[timing] parse: 0.0 ms, traversal: 0.0 ms, interpretation: 0.0 ms, total: 0.0 ms.\n"
    text.exit = .ok 0 ∧ text.stdout = "=== main.cpp ===\n" ++ timing ++ "\n=== gone.cpp ===\n" ++
      "[ERROR] Failed to parse gone.cpp: Input file does not exist: gone.cpp\n" ++ timing := by
  intro host before after text timing
  have hs : Settings.ofArguments (before ++ after) =
      ⟨false, false, [], [some "a.b"], ["main.cpp", "gone.cpp"]⟩ := by
    rw [List.singleton_append, Settings.ofArguments_ban_cons (by decide) (by decide) (by decide),
      Settings.ofArguments_of_files (by decide)]
  have ht : ∀ path, host.HasTree path :=
    fun path => Host.hasTree_of_forall_units (by simp [host, loneHost])
  have hj : (run host ⟨[]⟩ (before ++ after)).exit = .ok 0 := by
    refine @exit_run_of_trees host _ [⟨"a", "b"⟩] ?_ ?_ (fun path _ => ht path) ⟨[]⟩ <;> rw [hs]
    · rfl
    · simp
  obtain ⟨hx, -, -, -, hr⟩ := @run_text host ⟨[]⟩ before after (by decide)
  obtain ⟨pairs, hp, -, -, hst⟩ := hr hj
  rw [hs] at hp hst
  obtain rfl : [(⟨"a", "b"⟩ : BannedPair)] = pairs := Except.ok.inj hp
  exact ⟨hx.trans hj, Option.some.inj (hst.symm.trans (by decide +kernel))⟩

end CommandLine

end BannedCalls
