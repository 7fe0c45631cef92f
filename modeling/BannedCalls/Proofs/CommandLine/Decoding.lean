import BannedCalls.Proofs.Ban.Documents
import BannedCalls.Proofs.CommandLine.Modes
import BannedCalls.Proofs.CommandLine.Scan
import BannedCalls.Proofs.Report.Faithful

/-!
# Output that can be decoded

Where all texts are scalar, what a run has to say is faithful, so the line that it prints says all
of it.
-/

namespace BannedCalls

open Text

/-! ## Options of scalar texts -/

namespace Settings

structure Scalar (s : Settings) : Prop where
  configs : ∀ path, some path ∈ s.configs → path.Scalar
  bans : ∀ argument, some argument ∈ s.bans → argument.Scalar
  files : ∀ path ∈ s.files, path.Scalar

theorem scalar_ofArguments {args : List Text} (h : ∀ arg ∈ args, arg.Scalar) :
    (ofArguments args).Scalar where
  configs _ hm := h _ (mem_of_mem_ofArguments (.inl hm))
  bans _ hm := h _ (mem_of_mem_ofArguments (.inr (.inl hm)))
  files _ hm := h _ (mem_of_mem_ofArguments (.inr (.inr hm)))

variable {s : Settings} {fs : FileSystem}

theorem normal_of_pairs (hs : s.Scalar) {pairs : List BannedPair} (h : s.pairs fs = .ok pairs) :
    ∀ p ∈ pairs, p.Normal := by
  obtain ⟨ofConfigs, ofBans, hc, hb, rfl⟩ := pairs_eq_ok_iff.1 h
  intro p hp
  rcases List.mem_append.1 hp with hp | hp
  · obtain ⟨found, hf, hp⟩ := List.mem_flatten.1 hp
    obtain ⟨value, -, hv⟩ := exists_of_mem_of_mapM_eq_ok hc hf
    cases value with
    | none => simp [configPairs] at hv
    | some path => exact BanConfig.normal_of_load hv p hp
  · obtain ⟨found, hf, hp⟩ := List.mem_flatten.1 hp
    obtain ⟨value, hm, hv⟩ := exists_of_mem_of_mapM_eq_ok hb hf
    cases value with
    | none => simp [banPairs] at hv
    | some argument =>
      cases ha : BanConfig.pairsOfArgument argument with
      | error e => simp [banPairs, ha, mapError_error] at hv
      | ok pairs =>
        obtain rfl : pairs = found := by simpa [banPairs, ha, mapError_ok] using hv
        exact BanConfig.normal_of_pairsOfArgument (hs.bans argument hm) ha p hp

theorem scalar_message_of_pairs (hs : s.Scalar) {e : ConfigError}
    (h : s.pairs fs = .error (.config e)) : e.message.Scalar := by
  rcases pairs_eq_error_iff.1 h with h | ⟨-, -, h⟩
  · obtain ⟨before, value, after, hc, -, he⟩ := mapM_eq_error_iff.1 h
    cases value with
    | none =>
      obtain rfl := BanConfig.LoadError.config.inj (Except.error.inj he)
      exact scalar_ofString _
    | some path => exact BanConfig.scalar_message_of_load (hs.configs path (by simp [hc])) he
  · obtain ⟨before, value, after, hb, -, he⟩ := mapM_eq_error_iff.1 h
    cases value with
    | none =>
      obtain rfl := BanConfig.LoadError.config.inj (Except.error.inj he)
      exact scalar_ofString _
    | some argument =>
      cases ha : BanConfig.pairsOfArgument argument with
      | ok pairs => simp [banPairs, ha, mapError_ok] at he
      | error found =>
        obtain rfl : found = e := by simpa [banPairs, ha, mapError_error] using he
        exact BanConfig.scalar_message_of_pairsOfArgument (hs.bans argument (by simp [hb])) ha

end Settings

namespace CommandLine

/-! ## Faithful payloads -/

theorem faithful_usagePayload {e : UsageError} (h : e.message.Scalar) :
    (usagePayload e).Faithful :=
  @Json.Faithful.record ["ok", "error"] [("ok", .bool false), ("error", .str e.message)] rfl
    (by decide) (by simp [Json.Faithful.bool, faithful_text h])

theorem faithful_payload {reports : List FileReport} (hr : ∀ r ∈ reports, r.toJson.Faithful)
    (total : Numeral) {pairs : List BannedPair} (hp : ∀ p ∈ pairs, p.Normal) :
    (payload reports total pairs).Faithful := by
  have htotal : (Json.obj [("total", .real total)]).Faithful :=
    @Json.Faithful.record ["total"] [("total", .real total)] rfl (by decide)
      (by simp [Json.Faithful.real])
  have hreports : (Json.arr (reports.map FileReport.toJson)).Faithful := .list hr
  have hban : (Json.arr (pairs.map BannedPair.toJson)).Faithful :=
    .arr (BanConfig.faithful_entries hp)
  exact @Json.Faithful.record ["ok", "results", "timing_ms", "ban"] [("ok", .bool true),
    ("results", .arr (reports.map FileReport.toJson)), ("timing_ms", .obj [("total", .real total)]),
    ("ban", .arr (pairs.map BannedPair.toJson))] rfl (by decide)
    (by simp [Json.Faithful.bool, hreports, htotal, hban])

/-! ## Runs -/

variable {host : Host} {args : List Text} {s : Settings} {pairs : List BannedPair}

theorem entry_of_mem_batchOf (hp : s.pairs host.fileSystem = .ok pairs)
    (ht : ∀ path ∈ s.files, host.HasTree path) {clock : Clock} {r : FileReport}
    (hr : r ∈ (batchOf host clock s pairs).reports) :
    ∃ path ∈ s.files, ∃ timing, host.entry ⟨pairs⟩ path timing = some r := by
  have hm : (Except.ok r : Except AnalysisError FileReport) ∈
      (batchOf host clock s pairs).reports.map .ok := List.mem_map_of_mem hr
  rw [reports_batchOf hp ht clock] at hm
  obtain ⟨i, hi, he⟩ := List.mem_mapIdx.1 hm
  exact ⟨_, List.getElem_mem hi, exists_entry_of_report (Settings.ofOffers_of_pairs hp) he⟩

theorem faithful_of_mem_batchOf (hh : host.Scalar) (hs : s.Scalar)
    (hp : s.pairs host.fileSystem = .ok pairs) (ht : ∀ path ∈ s.files, host.HasTree path)
    (clock : Clock) : ∀ r ∈ (batchOf host clock s pairs).reports, r.toJson.Faithful := by
  intro r hr
  obtain ⟨path, hm, timing, he⟩ := entry_of_mem_batchOf hp ht hr
  exact faithful_of_entry hh (hs.files path hm)
    (fun p hm => (Settings.normal_of_pairs hs hp p hm).unpaired) he

/-- What a run in JSON mode has to say, and the status that it exits with. -/
inductive Answers (host : Host) (clock : Clock) (s : Settings) : Nat → Json → Prop
  | config {e : ConfigError} (h : s.pairs host.fileSystem = .error (.config e)) :
    Answers host clock s 2 (usagePayload (.config e))
  | noFiles {pairs : List BannedPair} (h : s.pairs host.fileSystem = .ok pairs)
    (hf : s.files = []) : Answers host clock s 2 (usagePayload .noFiles)
  | results {pairs : List BannedPair} (h : s.pairs host.fileSystem = .ok pairs)
    (hf : s.files ≠ []) (ht : ∀ path ∈ s.files, host.HasTree path) :
    Answers host clock s 0 (payload (batchOf host clock s pairs).reports
      (totalTime clock (batchOf host clock s pairs).readings) pairs)

theorem answers_of_exit {clock : Clock} {n : Nat}
    (hj : (Settings.ofArguments args).text = false) (hx : (run host clock args).exit = .ok n) :
    ∃ said, Answers host clock (Settings.ofArguments args) n said ∧
      (run host clock args).stdout = said.print ++ "\n" := by
  cases hp : (Settings.ofArguments args).pairs host.fileSystem with
  | error e =>
    cases e with
    | config e =>
      have hr := run_of_config hp clock
      obtain rfl : 2 = n := by simpa [hr, usageOutcome] using hx
      exact ⟨_, .config hp, by simp [hr, usageOutcome, hj]⟩
    | isDirectory => simp [run, hp, escapeOutcome] at hx
    | notUtf8 => simp [run, hp, escapeOutcome] at hx
  | ok pairs =>
    by_cases hf : (Settings.ofArguments args).files = []
    · have hr : run host clock args = usageOutcome false .noFiles := by simp [run, hp, hf, hj]
      obtain rfl : 2 = n := by simpa [hr, usageOutcome] using hx
      exact ⟨_, .noFiles hp hf, by simp [hr, usageOutcome]⟩
    · have hr := run_json hj hp hf clock
      rw [hr] at hx ⊢
      obtain ⟨hb, rfl⟩ := exit_jsonOutcome_eq_ok_iff.1 hx
      have ht := (Batch.failure_eq_none_iff (Settings.ofOffers_of_pairs hp) _ _).1 hb
      exact ⟨_, .results hp hf ht, stdout_jsonOutcome hb clock pairs⟩

theorem Answers.faithful (hh : host.Scalar) (hs : s.Scalar) {clock : Clock} {n : Nat} {said : Json}
    (h : Answers host clock s n said) : said.Faithful := by
  cases h with
  | config h => exact faithful_usagePayload (Settings.scalar_message_of_pairs hs h)
  | noFiles h hf => exact faithful_usagePayload (scalar_ofString _)
  | results h hf ht =>
    exact faithful_payload (faithful_of_mem_batchOf hh hs h ht clock) _
      (Settings.normal_of_pairs hs h)

/-- A run in JSON mode that exits with a status prints one line of ASCII, and what the line is read
as is what the run has to say: the fault in its options, or the analyses of its files and the
pairs. -/
theorem run_decodes (ht : ("--text" : Text) ∉ args) (ha : ∀ arg ∈ args, arg.Scalar)
    (hh : host.Scalar) {clock : Clock} {n : Nat} (hx : (run host clock args).exit = .ok n) :
    ∃ line said, (run host clock args).stdout = line ++ "\n" ∧ line.Typable ∧
      Answers host clock (Settings.ofArguments args) n said ∧
      Json.read line = .ok said ∧ Json.read (run host clock args).stdout = .ok said := by
  have hj : (Settings.ofArguments args).text = false := by simpa [Settings.ofArguments] using ht
  obtain ⟨said, hs, ho⟩ := answers_of_exit hj hx
  have hf := hs.faithful hh (Settings.scalar_ofArguments ha)
  refine ⟨said.print, said, ho, Json.typable_print said, hs, ?_, ?_⟩
  · have hr := @Json.read_print_of_faithful said hf [] (by simp)
    rwa [List.append_nil] at hr
  · have hb : ∀ c ∈ ("\n" : Text), Json.isSpace c := List.forall_mem_singleton.2 rfl
    rw [ho]
    exact Json.read_print_of_faithful hf hb

/-! ## Texts to be escaped -/

def escapedName : Text := "\"\\\n\x7F😀.cpp"

/-- Surroundings with a file and a note on it, both with code points that are escaped. -/
def escapedHost : Host where
  fileSystem := ⟨[(escapedName, [])], [], [], "/é"⟩
  units := [(escapedName, ⟨some emptyRoot, [⟨.note, "\t\u2028😀", none⟩]⟩)]
  sdk := .missing
  environment := []

theorem run_decodes_escaped :
    let outcome := run escapedHost ⟨[]⟩ ["--debug", "--ban", "é.😀", escapedName]
    outcome.exit = .ok 0 ∧ ∃ line reports total, outcome.stdout = line ++ "\n" ∧ line.Typable ∧
      reports.map FileReport.file = [escapedName] ∧
      Json.read line = .ok (payload reports total [⟨"é", "😀"⟩]) := by
  intro outcome
  have hs : Settings.ofArguments ["--debug", "--ban", "é.😀", escapedName] =
      ⟨false, true, [], [some "é.😀"], [escapedName]⟩ := by
    rw [Settings.ofArguments_eq_scan]
    decide +kernel
  have hp : (⟨false, true, [], [some "é.😀"], [escapedName]⟩ : Settings).pairs
      escapedHost.fileSystem = .ok [⟨"é", "😀"⟩] := rfl
  have hh : escapedHost.Scalar := by
    refine ⟨⟨scalar_ofString _, by simp [escapedHost]⟩, ?_⟩
    simp [escapedHost]
  have hx : outcome.exit = .ok 0 := by
    refine @exit_run_of_trees escapedHost _ [⟨"é", "😀"⟩] (by rw [hs]; exact hp) (by rw [hs]; simp)
      (fun path _ => Host.hasTree_of_forall_units (by simp [escapedHost])) ⟨[]⟩
  have ha : ∀ arg ∈ (["--debug", "--ban", "é.😀", escapedName] : List Text), arg.Scalar := by
    simp [escapedName]
  obtain ⟨line, said, ho, hl, hsaid, hr, -⟩ := @run_decodes escapedHost _ (by decide) ha hh _ _ hx
  rw [hs] at hsaid
  cases hsaid with
  | results h hf ht =>
    obtain rfl := Except.ok.inj (hp.symm.trans h)
    exact ⟨hx, line, _, _, ho, hl, by decide +kernel, hr⟩

end CommandLine

end BannedCalls
