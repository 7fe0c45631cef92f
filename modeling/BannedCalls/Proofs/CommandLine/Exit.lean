import BannedCalls.Proofs.CommandLine.Batch

/-!
# How a run ends

A run exits with 0 after its files, and with 2 after a fault in the options or without files. Three
failures escape: a configuration that is a directory, one that is no UTF-8, and a file without a
tree. Printing never fails, since all items of an analysis have texts to show.
-/

namespace BannedCalls

theorem Item.shown_of_worded {i : Item} (h : i.Worded) : ∃ t, i.shown = .ok t := by
  obtain ⟨message, hm⟩ := h
  simp [shown, messageText?, hm, Json.text?]

namespace Settings

/-- The options are in order, and among the files is one without a tree. -/
def MeetsTreeless (s : Settings) (host : Host) : Prop :=
  (∃ pairs, s.pairs host.fileSystem = .ok pairs) ∧ ∃ path ∈ s.files, ¬ host.HasTree path

theorem not_meetsTreeless_of_error {s : Settings} {host : Host} {e : BanConfig.LoadError}
    (h : s.pairs host.fileSystem = .error e) : ¬ s.MeetsTreeless host := by
  rintro ⟨⟨pairs, hp⟩, -⟩
  cases hp.symm.trans h

end Settings

namespace CommandLine

variable {host : Host} {args : List Text} {pairs : List BannedPair}

/-! ## Printing -/

theorem itemLines_ok {r : FileReport} (h : ∀ i ∈ r.items, i.Worded) :
    ∀ line ∈ itemLines r, ∃ t, line = .ok t := by
  intro line hl
  obtain ⟨i, hi, rfl⟩ := List.mem_map.1 hl
  obtain ⟨t, ht⟩ := Item.shown_of_worded (h i (List.mem_filter.1 hi).1)
  rw [ht]
  exact ⟨t, rfl⟩

theorem reportLines_ok {r : FileReport} (h : ∀ i ∈ r.items, i.Worded) (count : Nat)
    (isLast : Bool) : ∀ line ∈ reportLines count isLast r, ∃ t, line = .ok t := by
  intro line hl
  simp only [reportLines, List.mem_append] at hl
  rcases hl with ((hl | hl) | hl) | hl
  · split at hl
    · exact ⟨_, List.mem_singleton.1 hl⟩
    · simp at hl
  · exact itemLines_ok h line hl
  · exact ⟨_, List.mem_singleton.1 hl⟩
  · split at hl
    · simp at hl
    · exact ⟨_, List.mem_singleton.1 hl⟩

theorem allLines_ok {reports : List FileReport} (h : ∀ r ∈ reports, ∀ i ∈ r.items, i.Worded)
    (count left : Nat) : ∀ line ∈ allLines count left reports, ∃ t, line = .ok t := by
  induction reports generalizing left with
  | nil => simp [allLines]
  | cons r rest ih =>
    obtain ⟨hr, hrest⟩ := List.forall_mem_cons.1 h
    intro line hl
    rcases List.mem_append.1 hl with hl | hl
    · exact reportLines_ok hr count _ line hl
    · exact ih hrest (left - 1) line hl

theorem printLines_append {lines : List (Except Escape Text)}
    (h : ∀ line ∈ lines, ∃ t, line = .ok t) (rest : List (Except Escape Text)) :
    (printLines (lines ++ rest)).2 = (printLines rest).2 := by
  induction lines with
  | nil => rfl
  | cons line lines ih =>
    obtain ⟨⟨t, rfl⟩, hrest⟩ := List.forall_mem_cons.1 h
    exact ih hrest

theorem exit_textOutcome {batch : Batch} (h : ∀ r ∈ batch.reports, ∀ i ∈ r.items, i.Worded)
    (count : Nat) :
    (textOutcome count batch).exit =
      batch.failure.elim (.ok 0) fun e => .error (.analysis e) := by
  simp only [textOutcome, printLines_append (allLines_ok h count (count - 1))]
  cases batch.failure <;> rfl

/-! ## Exits -/

theorem exit_runFiles (ho : BanList.ofOffers (pairs.map BannedPair.offer) = .ok ⟨pairs⟩)
    (s : Settings) (clock : Clock) :
    (runFiles host clock s pairs).exit =
      (Batch.run host (pairs.map BannedPair.offer) s.traced clock.next s.files).failure.elim (.ok 0)
        fun e => .error (.analysis e) := by
  unfold runFiles
  split
  · apply exit_textOutcome
    intro r hr
    obtain ⟨path, timing, he⟩ := Batch.entry_of_mem_reports ho hr
    exact entry_worded he
  · exact exit_jsonOutcome ..

theorem exit_run_of_trees (hp : (Settings.ofArguments args).pairs host.fileSystem = .ok pairs)
    (hf : (Settings.ofArguments args).files ≠ [])
    (ht : ∀ path ∈ (Settings.ofArguments args).files, host.HasTree path) (clock : Clock) :
    (run host clock args).exit = .ok 0 := by
  have ho := Settings.ofOffers_of_pairs hp
  rw [run_of_pairs hp hf, exit_runFiles ho, (Batch.failure_eq_none_iff ho _ _).2 ht]
  rfl

theorem exit_run_of_treeless (hp : (Settings.ofArguments args).pairs host.fileSystem = .ok pairs)
    (ht : ∃ path ∈ (Settings.ofArguments args).files, ¬ host.HasTree path) (clock : Clock) :
    (run host clock args).exit = .error (.analysis .noTree) := by
  have ho := Settings.ofOffers_of_pairs hp
  have hf : (Settings.ofArguments args).files ≠ [] := by
    obtain ⟨path, hm, -⟩ := ht
    exact List.ne_nil_of_mem hm
  rw [run_of_pairs hp hf, exit_runFiles ho, Batch.failure_of_treeless ho ht]
  rfl

theorem run_of_config {e : ConfigError}
    (h : (Settings.ofArguments args).pairs host.fileSystem = .error (.config e)) (clock : Clock) :
    run host clock args = usageOutcome (Settings.ofArguments args).text (.config e) := by
  simp [run, h]

theorem exit_run_of_unsettled {e : BanConfig.LoadError}
    (h : (Settings.ofArguments args).pairs host.fileSystem = .error e)
    (hs : ∀ c, e ≠ .config c) (clock : Clock) :
    (run host clock args).exit = .error .isDirectory ∨
      (run host clock args).exit = .error .notUtf8 := by
  cases e with
  | config c => exact absurd rfl (hs c)
  | isDirectory => exact Or.inl (by simp [run, h, escapeOutcome])
  | notUtf8 => exact Or.inr (by simp [run, h, escapeOutcome])

theorem exit_run_of_settled
    (hs : BanConfig.Settled ((Settings.ofArguments args).pairs host.fileSystem))
    (ht : ¬ (Settings.ofArguments args).MeetsTreeless host) (clock : Clock) :
    (run host clock args).exit = .ok 0 ∨ (run host clock args).exit = .ok 2 := by
  rcases hs with ⟨pairs, hp⟩ | ⟨e, hp⟩
  · by_cases hf : (Settings.ofArguments args).files = []
    · exact Or.inr (by simp [run, hp, hf, usageOutcome])
    · have hall : ∀ path ∈ (Settings.ofArguments args).files, host.HasTree path := by
        intro path hm
        by_cases hn : host.HasTree path
        · exact hn
        · exact absurd ⟨⟨pairs, hp⟩, path, hm, hn⟩ ht
      exact Or.inl (exit_run_of_trees hp hf hall clock)
  · exact Or.inr (congrArg Outcome.exit (run_of_config hp clock))

/-- A run ends in one of three ways, told apart before it starts. -/
theorem exit_run_cases (host : Host) (clock : Clock) (args : List Text) :
    let s := Settings.ofArguments args
    let exit := (run host clock args).exit
    (s.StopsUnreadable host.fileSystem ∧ ¬ s.MeetsTreeless host ∧
        (exit = .error .isDirectory ∨ exit = .error .notUtf8)) ∨
      (¬ s.StopsUnreadable host.fileSystem ∧ s.MeetsTreeless host ∧
        exit = .error (.analysis .noTree)) ∨
      (¬ s.StopsUnreadable host.fileSystem ∧ ¬ s.MeetsTreeless host ∧
        (exit = .ok 0 ∨ exit = .ok 2)) := by
  intro s exit
  by_cases hu : s.StopsUnreadable host.fileSystem
  · have hs : ¬ BanConfig.Settled (s.pairs host.fileSystem) :=
      fun h => Settings.settled_pairs_iff.1 h hu
    cases hp : s.pairs host.fileSystem with
    | ok pairs => exact absurd (Or.inl ⟨pairs, hp⟩) hs
    | error e =>
      rw [hp, BanConfig.settled_error_iff] at hs
      have he := exit_run_of_unsettled hp (fun c hc => hs ⟨c, hc⟩) clock
      exact Or.inl ⟨hu, Settings.not_meetsTreeless_of_error hp, he⟩
  · apply Or.inr
    by_cases ht : s.MeetsTreeless host
    · obtain ⟨⟨pairs, hp⟩, hf⟩ := ht
      exact Or.inl ⟨hu, ⟨⟨pairs, hp⟩, hf⟩, exit_run_of_treeless hp hf clock⟩
    · exact Or.inr ⟨hu, ht, exit_run_of_settled (Settings.settled_pairs_iff.2 hu) ht clock⟩

/-- Surroundings with the given files and directories, and a front end that refuses all paths. -/
def bareHost (files : List (Text × List UInt8)) (directories : List Text) : Host where
  fileSystem := ⟨files, directories, [], "/work"⟩
  units := []
  sdk := .missing
  environment := []

end CommandLine

end BannedCalls
