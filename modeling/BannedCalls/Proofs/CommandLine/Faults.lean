import BannedCalls.Proofs.CommandLine.Modes
import BannedCalls.Proofs.CommandLine.Scan

/-!
# The first fault of a command line

Before any file is looked at, a run makes a series of checks: every configuration is loaded, every
ban value is read, and there have to be files. The first check that fails ends the run, and nothing
that comes after it in the series matters.
-/

namespace BannedCalls

/-- A check made before any file is looked at: of the value of an option, or of the files. -/
inductive Check
  | config (value : Option Text)
  | ban (value : Option Text)
  | files (names : List Text)
  deriving DecidableEq

/-- How a check fails: by a fault that the run reports, or by a failure that escapes from it. -/
inductive Fault
  | usage (error : UsageError)
  | escape (error : Escape)

namespace Fault

def ofLoad : BanConfig.LoadError → Fault
  | .config e => usage (.config e)
  | .isDirectory => escape .isDirectory
  | .notUtf8 => escape .notUtf8

def outcome (text : Bool) : Fault → Outcome
  | usage e => CommandLine.usageOutcome text e
  | escape e => CommandLine.escapeOutcome e

end Fault

namespace Check

/-- The pairs that a check brings in, if it does not fail. -/
def attempt (fs : FileSystem) : Check → Except Fault (List BannedPair)
  | config value => (Settings.configPairs fs value).mapError .ofLoad
  | ban value => (Settings.banPairs value).mapError .ofLoad
  | files names => if names = [] then .error (.usage .noFiles) else .ok []

/-- The checks on a command line, its option values taken from left to right. -/
def ofArguments (args : List Text) : List Check :=
  let configs := Arguments.scan "--config" (Arguments.unflagged args)
  let bans := Arguments.scan "--ban" configs.2
  configs.1.map config ++ (bans.1.map ban ++ [files bans.2])

end Check

namespace Settings

/-- The checks in the order in which they are made. -/
def checks (s : Settings) : List Check :=
  s.configs.map .config ++ (s.bans.map .ban ++ [.files s.files])

theorem checks_ofArguments (args : List Text) :
    (ofArguments args).checks = Check.ofArguments args := by
  rw [ofArguments_eq_scan]
  rfl

/-- Nothing but a configuration fails before a configuration does. -/
theorem eq_config_of_first_failure {s : Settings} {fs : FileSystem} {before after : List Check}
    {check : Check} {value : Option Text} (hs : s.checks = before ++ check :: after)
    (hb : ∀ c ∈ before, ∃ pairs, c.attempt fs = .ok pairs) (hv : Check.config value ∈ s.checks)
    (hf : ∃ fault, (Check.config value).attempt fs = .error fault) :
    ∃ other, check = .config other := by
  have hn : Check.config value ∉ before := by
    intro hm
    obtain ⟨pairs, hp⟩ := hb _ hm
    obtain ⟨fault, hf⟩ := hf
    cases hp.symm.trans hf
  have hm : Check.config value ∈ s.configs.map .config := by
    simpa [checks] using hv
  rcases List.append_eq_append_iff.1 hs with ⟨more, rfl, -⟩ | ⟨more, hc, hr⟩
  · exact absurd (List.mem_append_left more hm) hn
  · cases more with
    | nil => exact absurd (by simpa [hc] using hm) hn
    | cons first more =>
      obtain ⟨rfl, -⟩ := List.cons.inj hr
      have hfirst : check ∈ s.configs.map .config := by simp [hc]
      obtain ⟨other, -, rfl⟩ := List.mem_map.1 hfirst
      exact ⟨other, rfl⟩

end Settings

namespace CommandLine

variable {host : Host} {clock : Clock} {args : List Text}

theorem mapM_attempt_config (fs : FileSystem) (values : List (Option Text)) :
    (values.map Check.config).mapM (Check.attempt fs) =
      (values.mapM (Settings.configPairs fs)).mapError .ofLoad := by
  rw [List.mapM_map]
  exact mapM_mapError Fault.ofLoad values

theorem mapM_attempt_ban (fs : FileSystem) (values : List (Option Text)) :
    (values.map Check.ban).mapM (Check.attempt fs) =
      (values.mapM Settings.banPairs).mapError .ofLoad := by
  rw [List.mapM_map]
  exact mapM_mapError Fault.ofLoad values

theorem obey_eq_checks (host : Host) (clock : Clock) (s : Settings) :
    obey host clock s =
      match s.checks.mapM (Check.attempt host.fileSystem) with
      | .error fault => fault.outcome s.text
      | .ok found => runFiles host clock s found.flatten := by
  rw [Settings.checks, List.mapM_append, List.mapM_append, mapM_attempt_config, mapM_attempt_ban]
  unfold obey Settings.pairs
  cases s.configs.mapM (Settings.configPairs host.fileSystem) with
  | error e => cases e <;> rfl
  | ok ofConfigs =>
    cases s.bans.mapM Settings.banPairs with
    | error e => cases e <;> rfl
    | ok ofBans =>
      by_cases hf : s.files = []
      · simp [mapError_ok, Check.attempt, hf, Fault.outcome, bind, Except.bind, pure, Except.pure]
      · simp [mapError_ok, Check.attempt, hf, bind, Except.bind, pure, Except.pure]

theorem obey_of_fault {s : Settings} {before after : List Check} {check : Check} {fault : Fault}
    (hs : s.checks = before ++ check :: after)
    (hb : ∀ c ∈ before, ∃ pairs, c.attempt host.fileSystem = .ok pairs)
    (hc : check.attempt host.fileSystem = .error fault) (clock : Clock) :
    obey host clock s = fault.outcome s.text := by
  rw [obey_eq_checks, mapM_eq_error_iff.2 ⟨before, check, after, hs, hb, hc⟩]

theorem exit_runFiles_ne_two (s : Settings) (pairs : List BannedPair) :
    (runFiles host clock s pairs).exit ≠ .ok 2 := by
  unfold runFiles
  split
  · unfold textOutcome
    dsimp only
    cases (printLines _).2 <;> simp
  · rw [exit_jsonOutcome]
    cases Batch.failure _ <;> simp

theorem exists_fault_of_exit_two {s : Settings} (h : (obey host clock s).exit = .ok 2) :
    ∃ before check after e, s.checks = before ++ check :: after ∧
      (∀ c ∈ before, ∃ pairs, c.attempt host.fileSystem = .ok pairs) ∧
      check.attempt host.fileSystem = .error (.usage e) := by
  rw [obey_eq_checks] at h
  cases hm : s.checks.mapM (Check.attempt host.fileSystem) with
  | ok found => exact absurd (by simpa [hm] using h) (exit_runFiles_ne_two s found.flatten)
  | error fault =>
    rw [hm] at h
    cases fault with
    | escape e => simp [Fault.outcome, escapeOutcome] at h
    | usage e =>
      obtain ⟨before, check, after, hs, hb, hc⟩ := mapM_eq_error_iff.1 hm
      exact ⟨before, check, after, e, hs, hb, hc⟩

/-- A run that exits with 2 has touched no file, and it prints the fault of the first check that
fails: of the configurations in turn, then of the ban values, then of the files. Another run that
fares alike up to that check has the same outcome, whatever follows on its command line. -/
theorem run_first_fault (h : (run host clock args).exit = .ok 2) :
    let fs := host.fileSystem
    let checks := Check.ofArguments args
    let text := args.contains "--text"
    let outcome := run host clock args
    outcome.calls = [] ∧ outcome.readings = 0 ∧ outcome.stderr = [] ∧
      ∃ before check after e, checks = before ++ check :: after ∧
        (∀ c ∈ before, ∃ pairs, c.attempt fs = .ok pairs) ∧
        check.attempt fs = .error (.usage e) ∧
        outcome.stdout = (if text then e.message else (usagePayload e).print) ++ "\n" ∧
        ((∃ value fault, Check.config value ∈ checks ∧
          (Check.config value).attempt fs = .error fault) → ∃ value, check = .config value) ∧
        ∀ host' clock' args' after', args'.contains "--text" = text →
          Check.ofArguments args' = before ++ check :: after' →
          (∀ c ∈ before ++ [check], c.attempt host'.fileSystem = c.attempt fs) →
          run host' clock' args' = outcome := by
  intro fs checks text outcome
  have hchecks : (Settings.ofArguments args).checks = checks := Settings.checks_ofArguments args
  obtain ⟨before, check, after, e, hs, hb, hc⟩ := exists_fault_of_exit_two h
  have ho : outcome = usageOutcome text e := obey_of_fault hs hb hc clock
  refine ⟨by rw [ho]; rfl, by rw [ho]; rfl, by rw [ho]; rfl, before, check, after, e,
    hchecks ▸ hs, hb, hc, by rw [ho]; rfl, ?_, ?_⟩
  · rintro ⟨value, fault, hv, hf⟩
    exact Settings.eq_config_of_first_failure hs hb (hchecks ▸ hv) ⟨fault, hf⟩
  · intro host' clock' args' after' ht hs' ha
    have hb' : ∀ c ∈ before, ∃ pairs, c.attempt host'.fileSystem = .ok pairs := by
      intro c hm
      rw [ha c (List.mem_append_left _ hm)]
      exact hb c hm
    have hc' : check.attempt host'.fileSystem = .error (.usage e) := by
      rw [ha check (by simp)]
      exact hc
    have hr : run host' clock' args' = usageOutcome (args'.contains "--text") e :=
      obey_of_fault ((Settings.checks_ofArguments args').trans hs') hb' hc' clock'
    rw [hr, ht, ho]

/-- A ban value at fault stands in front, but the missing configuration is reported. -/
theorem run_first_fault_gone :
    let args : List Text := ["--ban", "plain", "--config", "gone", "main.cpp", "--config"]
    let outcome := run (bareHost [] []) ⟨[]⟩ args
    outcome.exit = .ok 2 ∧ outcome.calls = [] ∧
      outcome.stdout =
        "\x7b\"ok\": false, \"error\": \"Config file not found: gone\"\x7d\n" ∧
      run (bareHost [] []) ⟨[1]⟩ ["--config", "gone"] = outcome := by
  intro args outcome
  let fs := (bareHost [] []).fileSystem
  have hgone : (Check.config (some "gone")).attempt fs =
      .error (.usage (.config (.fileMissing "gone"))) := rfl
  have hs : Check.ofArguments args = .config (some "gone") ::
      [.config none, .ban (some "plain"), .files ["main.cpp"]] := by decide +kernel
  have h : outcome.exit = .ok 2 :=
    congrArg Outcome.exit (@obey_of_fault _ _ [] _ _ _
      ((Settings.checks_ofArguments args).trans hs) (by simp) hgone ⟨[]⟩)
  obtain ⟨hcalls, -, -, before, check, after, e, hs', hb, hc, ho, -, hrest⟩ := run_first_fault h
  cases before with
  | cons first before =>
    obtain ⟨rfl, -⟩ := List.cons.inj (hs.symm.trans hs')
    obtain ⟨pairs, hp⟩ := hb _ List.mem_cons_self
    cases hp.symm.trans hgone
  | nil =>
    obtain ⟨rfl, -⟩ := List.cons.inj (hs.symm.trans hs')
    obtain rfl : UsageError.config (.fileMissing "gone") = e := by
      injection hgone.symm.trans hc with hf
      injection hf
    have hr : Check.ofArguments ["--config", "gone"] =
        [.config (some "gone"), .files []] := by decide +kernel
    exact ⟨h, hcalls, ho.trans (by decide +kernel),
      hrest _ ⟨[1]⟩ _ _ (by decide +kernel) hr fun _ _ => rfl⟩

end CommandLine

end BannedCalls
