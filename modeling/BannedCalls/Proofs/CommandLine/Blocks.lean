import BannedCalls.Proofs.CommandLine.Modes

/-!
# Blocks of a command line

The blocks of a command line may come in any order: flags, options with a value each, and files.
The settings are read off block by block, so a run does what it does for the blocks sorted by kind.
-/

namespace BannedCalls

/-- What a word of a command line stands for: the value of an option, or a file. -/
inductive WordKind
  | config
  | ban
  | file
  deriving DecidableEq

def WordKind.lead : WordKind → List Text
  | config => ["--config"]
  | ban => ["--ban"]
  | file => []

/-- A block of a command line: a flag, or a word with what leads it in. -/
inductive Block
  | text
  | debug
  | word (kind : WordKind) (word : Text)
  deriving DecidableEq

namespace Block

def arguments : Block → List Text
  | text => ["--text"]
  | debug => ["--debug"]
  | word kind w => kind.lead ++ [w]

/-- No word is spelled like a flag or an option. -/
def Plain : Block → Prop
  | text | debug => True
  | word _ w => w ∉ Settings.flags

instance : DecidablePred Plain
  | text | debug => inferInstanceAs (Decidable True)
  | word _ w => inferInstanceAs (Decidable (w ∉ Settings.flags))

def wordOf? (kind : WordKind) : Block → Option Text
  | text | debug => none
  | word k w => if k = kind then some w else none

def line (blocks : List Block) : List Text := blocks.flatMap arguments

def wordsOf (kind : WordKind) (blocks : List Block) : List Text := blocks.filterMap (wordOf? kind)

/-- The flags, each of them once, then the words by their kinds. -/
def sorted (blocks : List Block) : List Block :=
  [text, debug].filter (· ∈ blocks) ++ [.config, .ban, .file].flatMap fun kind =>
    (wordsOf kind blocks).map (word kind)

/-! ## Settings -/

def addTo (s : Settings) : Block → Settings
  | text => { s with text := true }
  | debug => { s with traced := true }
  | word .config w => { s with configs := some w :: s.configs }
  | word .ban w => { s with bans := some w :: s.bans }
  | word .file w => { s with files := w :: s.files }

/-- A block in front adds what it says, whatever the arguments behind it are. -/
theorem ofArguments_arguments_append {block : Block} (h : block.Plain) (args : List Text) :
    Settings.ofArguments (block.arguments ++ args) =
      block.addTo (Settings.ofArguments args) := by
  cases block with
  | text => exact Settings.ofArguments_insert_text [] args
  | debug => exact Settings.ofArguments_debug_cons args
  | word kind w =>
    obtain ⟨ht, hd, hc, hb⟩ := Settings.ne_of_not_mem_flags h
    -- A value is gone before the kinds after its own are taken out, so it may be spelled like them.
    cases kind with
    | config => exact Settings.ofArguments_config_cons ht hd args
    | ban => exact Settings.ofArguments_ban_cons ht hd hc args
    | file => exact Settings.ofArguments_file_cons ht hd hc hb args

def settings (blocks : List Block) : Settings where
  text := decide (text ∈ blocks)
  traced := decide (debug ∈ blocks)
  configs := (wordsOf .config blocks).map some
  bans := (wordsOf .ban blocks).map some
  files := wordsOf .file blocks

theorem settings_cons (block : Block) (blocks : List Block) :
    settings (block :: blocks) = block.addTo (settings blocks) := by
  cases block with
  | text => simp [settings, addTo, wordsOf, List.filterMap_cons, wordOf?]
  | debug => simp [settings, addTo, wordsOf, List.filterMap_cons, wordOf?]
  | word kind w =>
    cases kind <;> simp [settings, addTo, wordsOf, wordOf?]

theorem ofArguments_line {blocks : List Block} (h : ∀ block ∈ blocks, block.Plain) :
    Settings.ofArguments (line blocks) = settings blocks := by
  induction blocks with
  | nil => exact Settings.ofArguments_nil
  | cons block blocks ih =>
    obtain ⟨hp, h⟩ := List.forall_mem_cons.1 h
    rw [line, List.flatMap_cons, ofArguments_arguments_append hp, ← line, ih h, settings_cons]

/-! ## Sorting -/

theorem wordOf?_eq_some_iff {kind : WordKind} {block : Block} {w : Text} :
    block.wordOf? kind = some w ↔ block = word kind w := by
  cases block <;> simp [wordOf?]

theorem mem_wordsOf {kind : WordKind} {blocks : List Block} {w : Text} :
    w ∈ wordsOf kind blocks ↔ word kind w ∈ blocks := by
  simp [wordsOf, wordOf?_eq_some_iff]

theorem mem_sorted {block : Block} {blocks : List Block} :
    block ∈ sorted blocks ↔ block ∈ blocks := by
  cases block with
  | text => simp [sorted]
  | debug => simp [sorted]
  | word kind w => cases kind <;> simp [sorted, mem_wordsOf]

theorem wordsOf_append (kind : WordKind) (xs ys : List Block) :
    wordsOf kind (xs ++ ys) = wordsOf kind xs ++ wordsOf kind ys := List.filterMap_append

theorem wordsOf_map_word (kind k : WordKind) (ws : List Text) :
    wordsOf kind (ws.map (word k)) = if k = kind then ws else [] := by
  rw [wordsOf, List.filterMap_map]
  by_cases h : k = kind <;> simp [wordOf?, h, Function.comp_def]

theorem wordsOf_sorted (kind : WordKind) (blocks : List Block) :
    wordsOf kind (sorted blocks) = wordsOf kind blocks := by
  have hf : wordsOf kind ([text, debug].filter (· ∈ blocks)) = [] := by
    rw [List.eq_nil_iff_forall_not_mem]
    intro w
    simp [mem_wordsOf]
  cases kind <;> simp [sorted, wordsOf_append, wordsOf_map_word, hf]

theorem settings_sorted (blocks : List Block) : settings (sorted blocks) = settings blocks := by
  simp only [settings, mem_sorted, wordsOf_sorted]

end Block

/-! ## Runs -/

namespace CommandLine

open BannedCalls.Block

variable {blocks : List Block}

theorem run_line_sorted (h : ∀ block ∈ blocks, block.Plain) (host : Host) (clock : Clock) :
    run host clock (line (sorted blocks)) = run host clock (line blocks) := by
  have hs : ∀ block ∈ sorted blocks, block.Plain := fun block hm => h block (mem_sorted.1 hm)
  rw [run_eq_obey, run_eq_obey, ofArguments_line h, ofArguments_line hs, settings_sorted]

theorem pairs_settings {fs : FileSystem} {ofConfigs ofBans : List (List BannedPair)}
    (hc : (wordsOf .config blocks).map (BanConfig.load fs) = ofConfigs.map .ok)
    (hb : (wordsOf .ban blocks).map BanConfig.pairsOfArgument = ofBans.map .ok) :
    (settings blocks).pairs fs = .ok (ofConfigs.flatten ++ ofBans.flatten) := by
  refine Settings.pairs_eq_ok_iff.2 ⟨ofConfigs, ofBans, ?_, ?_, rfl⟩
  · rw [mapM_eq_ok_iff, ← hc, settings, List.map_map]
    rfl
  · have hm := congrArg (List.map (Except.mapError BanConfig.LoadError.config)) hb
    rw [List.map_map, List.map_map] at hm
    rw [mapM_eq_ok_iff, settings, List.map_map]
    exact hm

/-- A command line is obeyed as the one with its blocks sorted by kind. With all options in order,
every file is analysed for the pairs of the configurations in their order followed by those of the
ban values in theirs, and these are the pairs that are printed. -/
theorem run_line (host : Host) (clock : Clock) (h : ∀ block ∈ blocks, block.Plain) :
    let outcome := run host clock (line blocks)
    let files := wordsOf .file blocks
    outcome = run host clock (line (sorted blocks)) ∧
      ∀ ofConfigs ofBans : List (List BannedPair),
        (wordsOf .config blocks).map (BanConfig.load host.fileSystem) = ofConfigs.map .ok →
        (wordsOf .ban blocks).map BanConfig.pairsOfArgument = ofBans.map .ok → files ≠ [] →
        let pairs := ofConfigs.flatten ++ ofBans.flatten
        let offers := pairs.map BannedPair.offer
        let traced := decide (debug ∈ blocks)
        let batch := Batch.run host offers traced clock.next files
        outcome = (if text ∈ blocks then textOutcome files.length batch
          else jsonOutcome clock pairs batch) ∧
        (outcome.exit = .ok 0 ↔ ∀ path ∈ files, host.HasTree path) ∧
        (outcome.exit = .ok 0 →
          (batch.reports.map .ok = files.mapIdx fun i path => (analyze host offers traced
            (clock.advance (1 + host.readingsOf (files.take i))) path).report) ∧
          (text ∉ blocks → outcome.stdout =
            (payload batch.reports (totalTime clock (host.readingsOf files)) pairs).print ++
              "\n")) := by
  intro outcome files
  refine ⟨(run_line_sorted h host clock).symm, fun ofConfigs ofBans hc hb hf => ?_⟩
  intro pairs offers traced batch
  have hp : (settings blocks).pairs host.fileSystem = .ok pairs := pairs_settings hc hb
  have hr : outcome = runFiles host clock (settings blocks) pairs := by
    have hs := ofArguments_line h
    rw [← hs]
    exact run_of_pairs (by rwa [hs]) (by rwa [hs]) clock
  have hx : outcome.exit = .ok 0 ↔ ∀ path ∈ files, host.HasTree path :=
    hr ▸ exit_runFiles_eq_zero_iff hp clock
  have ho : outcome = if text ∈ blocks then textOutcome files.length batch
      else jsonOutcome clock pairs batch := by
    rw [hr]
    by_cases ht : text ∈ blocks <;> simp [runFiles, settings, ht, batch, offers, traced, files]
  refine ⟨ho, hx, fun h0 => ?_⟩
  obtain ⟨hn, hs, -⟩ :=
    Batch.run_of_trees (Settings.ofOffers_of_pairs hp) (hx.1 h0) traced clock.next
  refine ⟨reports_batchOf hp (hx.1 h0) clock, fun ht => ?_⟩
  rw [ho, if_neg ht, stdout_jsonOutcome hn, hs]

/-- Surroundings with a file and, as JSON, the configuration that bans `a.b`. -/
def configuredHost : Host :=
  { loneHost (some emptyRoot) with
    fileSystem := ⟨[("main.cpp", []), ("conf", [91, 91, 34, 97, 34, 44, 34, 98, 34, 93, 93])], [],
      [], "/work"⟩ }

theorem run_line_mixed :
    let mixed : List Text :=
      ["--ban", "c.d", "main.cpp", "--debug", "--config", "conf", "--ban", "e.f"]
    let inOrder : List Text :=
      ["--debug", "--config", "conf", "--ban", "c.d", "--ban", "e.f", "main.cpp"]
    let outcome := run configuredHost ⟨[]⟩ mixed
    outcome = run configuredHost ⟨[]⟩ inOrder ∧ outcome.exit = .ok 0 ∧ ∃ reports,
      reports.map FileReport.ok = [true] ∧
      outcome.stdout =
        (payload reports (totalTime ⟨[]⟩ 6) [⟨"a", "b"⟩, ⟨"c", "d"⟩, ⟨"e", "f"⟩]).print ++
          "\n" := by
  intro mixed inOrder outcome
  obtain ⟨hs, hr⟩ := @run_line [.word .ban "c.d", .word .file "main.cpp", .debug,
    .word .config "conf", .word .ban "e.f"] configuredHost ⟨[]⟩ (by decide)
  have hc : BanConfig.load configuredHost.fileSystem "conf" = .ok [⟨"a", "b"⟩] := rfl
  obtain ⟨-, hx, ho⟩ := hr [[⟨"a", "b"⟩]] [[⟨"c", "d"⟩], [⟨"e", "f"⟩]]
    (congrArg (fun r => [r]) hc) rfl (by decide)
  have h0 := hx.2 fun path _ =>
    Host.hasTree_of_forall_units (by simp [configuredHost, loneHost])
  have hn : configuredHost.readingsOf ["main.cpp"] = 6 := by decide +kernel
  exact ⟨hs, h0, _, by decide +kernel, hn ▸ (ho h0).2 (by decide)⟩

end CommandLine

end BannedCalls
