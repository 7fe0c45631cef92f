import BannedCalls.CommandLine
import BannedCalls.Proofs.Ban.Accepted
import BannedCalls.Proofs.Ban.Loading

/-!
# Options

How options are taken out of the arguments, step by step, and what the pairs of a command line are.
-/

namespace BannedCalls

namespace Arguments

variable {flag : Text} {before : List Text}

theorem ne_flag_of_not_mem (h : flag ∉ before) : ∀ arg ∈ before, decide (arg ≠ flag) = true := by
  intro arg ha
  rw [decide_eq_true_iff]
  intro he
  exact h (he ▸ ha)

theorem takeWhile_append_flag (h : flag ∉ before) (after : List Text) :
    (before ++ flag :: after).takeWhile (· ≠ flag) = before := by
  rw [List.takeWhile_append_of_pos (ne_flag_of_not_mem h)]
  simp

theorem dropWhile_append_flag (h : flag ∉ before) (after : List Text) :
    (before ++ flag :: after).dropWhile (· ≠ flag) = flag :: after := by
  rw [List.dropWhile_append_of_pos (ne_flag_of_not_mem h)]
  simp

theorem dropWhile_of_not_mem {args : List Text} (h : flag ∉ args) :
    args.dropWhile (· ≠ flag) = [] := by
  have hl : (args ++ []).dropWhile (· ≠ flag) = [] :=
    List.dropWhile_append_of_pos (ne_flag_of_not_mem h)
  rwa [List.append_nil] at hl

theorem takeOption_of_not_mem {args : List Text} (h : flag ∉ args) :
    takeOption flag args = ([], args) := by
  have hd := dropWhile_of_not_mem h
  rw [takeOption]
  split
  · rfl
  · next he => cases hd.symm.trans he
  · next he => cases hd.symm.trans he

theorem takeOption_append_last (h : flag ∉ before) :
    takeOption flag (before ++ [flag]) = ([none], before) := by
  have hd := dropWhile_append_flag h []
  rw [takeOption]
  split
  · next he => cases hd.symm.trans he
  · rw [takeWhile_append_flag h]
  · next he => cases hd.symm.trans he

theorem takeOption_append (h : flag ∉ before) (value : Text) (after : List Text) :
    takeOption flag (before ++ flag :: value :: after) =
      (some value :: (takeOption flag (before ++ after)).1,
        (takeOption flag (before ++ after)).2) := by
  have hd := dropWhile_append_flag h (value :: after)
  rw [takeOption]
  split
  · next he => cases hd.symm.trans he
  · next he => cases hd.symm.trans he
  · next value' after' he =>
    obtain ⟨-, he⟩ := List.cons.inj (hd.symm.trans he)
    obtain ⟨rfl, rfl⟩ := List.cons.inj he
    rw [takeWhile_append_flag h]

theorem takeOption_cons (flag value : Text) (after : List Text) :
    takeOption flag (flag :: value :: after) =
      (some value :: (takeOption flag after).1, (takeOption flag after).2) :=
  takeOption_append List.not_mem_nil value after

/-- An argument in front of all flags stays where it is. -/
theorem takeOption_cons_of_ne {arg : Text} (h : flag ≠ arg) (args : List Text) :
    takeOption flag (arg :: args) =
      ((takeOption flag args).1, arg :: (takeOption flag args).2) := by
  by_cases hm : flag ∈ args
  · obtain ⟨before, after, hs, hb⟩ := List.eq_append_cons_of_mem hm
    have hb' : flag ∉ arg :: before := List.not_mem_cons_of_ne_of_not_mem h hb
    rw [hs]
    cases after with
    | nil => rw [takeOption_append_last hb, ← List.cons_append, takeOption_append_last hb']
    | cons value after =>
      -- What is left joins the two sides of the flag, so the induction is on the length.
      rw [takeOption_append hb, ← List.cons_append, takeOption_append hb', List.cons_append,
        takeOption_cons_of_ne h (before ++ after)]
  · have hm' : flag ∉ arg :: args := List.not_mem_cons_of_ne_of_not_mem h hm
    rw [takeOption_of_not_mem hm, takeOption_of_not_mem hm']
termination_by args.length
decreasing_by
  simp only [hs, List.length_append, List.length_cons]
  omega

end Arguments

namespace Settings

theorem without_cons_of_ne {flag arg : Text} (h : arg ≠ flag) (args : List Text) :
    without flag (arg :: args) = arg :: without flag args :=
  List.filter_cons_of_pos (decide_eq_true h)

theorem contains_cons_of_ne {flag arg : Text} (h : arg ≠ flag) (args : List Text) :
    (arg :: args).contains flag = args.contains flag := by
  rw [List.contains_cons, beq_eq_false_iff_ne.2 h.symm, Bool.false_or]

theorem ofArguments_nil : ofArguments [] = ⟨false, false, [], [], []⟩ := by
  have hc : Arguments.takeOption "--config" [] = ([], []) :=
    Arguments.takeOption_of_not_mem List.not_mem_nil
  have hb : Arguments.takeOption "--ban" [] = ([], []) :=
    Arguments.takeOption_of_not_mem List.not_mem_nil
  simp [ofArguments, without, hc, hb]

/-- A text flag can stand anywhere, even between an option and its value. -/
theorem ofArguments_insert_text (before after : List Text) :
    ofArguments (before ++ ("--text" : Text) :: after) =
      { ofArguments (before ++ after) with text := true } := by
  have hw : without "--text" (before ++ ("--text" : Text) :: after) =
      without "--text" (before ++ after) := by
    simp [without]
  simp [ofArguments, hw]

theorem ofArguments_debug_cons (args : List Text) :
    ofArguments ("--debug" :: args) = { ofArguments args with traced := true } := by
  have hdt : ("--debug" : Text) ≠ "--text" := by decide
  have hw : without "--debug" ("--debug" :: without "--text" args) =
      without "--debug" (without "--text" args) := by
    simp [without]
  simp only [ofArguments, without_cons_of_ne hdt, contains_cons_of_ne hdt, hw]
  simp

theorem ofArguments_config_cons {value : Text} (ht : value ≠ "--text") (hd : value ≠ "--debug")
    (args : List Text) :
    ofArguments ("--config" :: value :: args) =
      { ofArguments args with configs := some value :: (ofArguments args).configs } := by
  have hct : ("--config" : Text) ≠ "--text" := by decide
  have hcd : ("--config" : Text) ≠ "--debug" := by decide
  simp only [ofArguments, without_cons_of_ne hct, without_cons_of_ne ht, without_cons_of_ne hcd,
    without_cons_of_ne hd, Arguments.takeOption_cons, contains_cons_of_ne hct,
    contains_cons_of_ne ht, contains_cons_of_ne hcd, contains_cons_of_ne hd]

theorem ofArguments_ban_cons {value : Text} (ht : value ≠ "--text") (hd : value ≠ "--debug")
    (hc : value ≠ "--config") (args : List Text) :
    ofArguments ("--ban" :: value :: args) =
      { ofArguments args with bans := some value :: (ofArguments args).bans } := by
  have hbt : ("--ban" : Text) ≠ "--text" := by decide
  have hbd : ("--ban" : Text) ≠ "--debug" := by decide
  have hbc : ("--config" : Text) ≠ "--ban" := by decide
  simp only [ofArguments, without_cons_of_ne hbt, without_cons_of_ne ht, without_cons_of_ne hbd,
    without_cons_of_ne hd, Arguments.takeOption_cons_of_ne hbc,
    Arguments.takeOption_cons_of_ne hc.symm, Arguments.takeOption_cons, contains_cons_of_ne hbt,
    contains_cons_of_ne ht, contains_cons_of_ne hbd, contains_cons_of_ne hd]

theorem ofArguments_file_cons {file : Text} (ht : file ≠ "--text") (hd : file ≠ "--debug")
    (hc : file ≠ "--config") (hb : file ≠ "--ban") (args : List Text) :
    ofArguments (file :: args) =
      { ofArguments args with files := file :: (ofArguments args).files } := by
  simp only [ofArguments, without_cons_of_ne ht, without_cons_of_ne hd,
    Arguments.takeOption_cons_of_ne hc.symm, Arguments.takeOption_cons_of_ne hb.symm,
    contains_cons_of_ne ht, contains_cons_of_ne hd]

def flags : List Text := ["--text", "--debug", "--config", "--ban"]

theorem ne_of_not_mem_flags {arg : Text} (h : arg ∉ flags) :
    arg ≠ "--text" ∧ arg ≠ "--debug" ∧ arg ≠ "--config" ∧ arg ≠ "--ban" := by
  simpa [flags] using h

theorem ofArguments_of_files {args : List Text} (h : ∀ arg ∈ args, arg ∉ flags) :
    ofArguments args = ⟨false, false, [], [], args⟩ := by
  induction args with
  | nil => exact ofArguments_nil
  | cons file args ih =>
    obtain ⟨hf, h⟩ := List.forall_mem_cons.1 h
    obtain ⟨ht, hd, hc, hb⟩ := ne_of_not_mem_flags hf
    rw [ofArguments_file_cons ht hd hc hb, ih h]

theorem pairs_eq_ok_iff {s : Settings} {fs : FileSystem} {pairs : List BannedPair} :
    s.pairs fs = .ok pairs ↔ ∃ ofConfigs ofBans, s.configs.mapM (configPairs fs) = .ok ofConfigs ∧
      s.bans.mapM banPairs = .ok ofBans ∧ pairs = ofConfigs.flatten ++ ofBans.flatten := by
  simp only [Settings.pairs, bind_eq_ok_iff, pure, Except.pure, Except.ok.injEq]
  constructor
  · rintro ⟨ofConfigs, hc, ofBans, hb, rfl⟩
    exact ⟨ofConfigs, ofBans, hc, hb, rfl⟩
  · rintro ⟨ofConfigs, ofBans, hc, hb, rfl⟩
    exact ⟨ofConfigs, hc, ofBans, hb, rfl⟩

theorem named_of_configPairs {fs : FileSystem} {value : Option Text} {pairs : List BannedPair}
    (h : configPairs fs value = .ok pairs) : ∀ p ∈ pairs, p.Named := by
  cases value with
  | none => simp [configPairs] at h
  | some path => exact BanConfig.named_of_load h

theorem named_of_banPairs {value : Option Text} {pairs : List BannedPair}
    (h : banPairs value = .ok pairs) : ∀ p ∈ pairs, p.Named := by
  cases value with
  | none => simp [banPairs] at h
  | some argument =>
    cases hp : BanConfig.pairsOfArgument argument with
    | error e => simp [banPairs, hp, mapError_error] at h
    | ok found =>
      obtain rfl : found = pairs := by simpa [banPairs, hp, mapError_ok] using h
      exact BanConfig.named_of_pairsOfArgument hp

theorem named_of_pairs {s : Settings} {fs : FileSystem} {pairs : List BannedPair}
    (h : s.pairs fs = .ok pairs) : ∀ p ∈ pairs, p.Named := by
  obtain ⟨ofConfigs, ofBans, hc, hb, rfl⟩ := pairs_eq_ok_iff.1 h
  intro p hp
  rcases List.mem_append.1 hp with hp | hp
  · obtain ⟨found, hf, hp⟩ := List.mem_flatten.1 hp
    obtain ⟨value, -, hv⟩ := exists_of_mem_of_mapM_eq_ok hc hf
    exact named_of_configPairs hv p hp
  · obtain ⟨found, hf, hp⟩ := List.mem_flatten.1 hp
    obtain ⟨value, -, hv⟩ := exists_of_mem_of_mapM_eq_ok hb hf
    exact named_of_banPairs hv p hp

/-- A ban list takes all pairs that come from options. -/
theorem ofOffers_of_pairs {s : Settings} {fs : FileSystem} {pairs : List BannedPair}
    (h : s.pairs fs = .ok pairs) : BanList.ofOffers (pairs.map BannedPair.offer) = .ok ⟨pairs⟩ :=
  BanList.ofOffers_offer (named_of_pairs h)

theorem pairs_eq_error_iff {s : Settings} {fs : FileSystem} {e : BanConfig.LoadError} :
    s.pairs fs = .error e ↔ s.configs.mapM (configPairs fs) = .error e ∨
      ∃ ofConfigs, s.configs.mapM (configPairs fs) = .ok ofConfigs ∧
        s.bans.mapM banPairs = .error e := by
  simp [Settings.pairs, bind_eq_error_iff, pure, Except.pure]

/-- The first configuration at fault cannot be read. -/
def StopsUnreadable (s : Settings) (fs : FileSystem) : Prop :=
  ∃ before path after, s.configs = before ++ some path :: after ∧
    (∀ value ∈ before, ∃ pairs, configPairs fs value = .ok pairs) ∧ BanConfig.Unreadable fs path

theorem settled_banPairs (value : Option Text) : BanConfig.Settled (banPairs value) := by
  cases value with
  | none => exact Or.inr ⟨_, rfl⟩
  | some argument => exact BanConfig.settled_mapError _

theorem settled_pairs_iff {s : Settings} {fs : FileSystem} :
    BanConfig.Settled (s.pairs fs) ↔ ¬ s.StopsUnreadable fs := by
  constructor
  · rintro hs ⟨before, path, after, hc, hb, hu⟩
    cases hl : BanConfig.load fs path with
    | ok pairs => exact BanConfig.settled_load_iff.1 (Or.inl ⟨pairs, hl⟩) hu
    | error e =>
      have he : s.pairs fs = .error e :=
        pairs_eq_error_iff.2 (Or.inl (mapM_eq_error_iff.2 ⟨before, some path, after, hc, hb, hl⟩))
      rw [he, BanConfig.settled_error_iff] at hs
      obtain ⟨c, rfl⟩ := hs
      exact BanConfig.settled_load_iff.1 (Or.inr ⟨c, hl⟩) hu
  · intro hn
    cases hs : s.pairs fs with
    | ok pairs => exact Or.inl ⟨pairs, rfl⟩
    | error e =>
      rcases pairs_eq_error_iff.1 hs with he | ⟨-, -, he⟩
      · obtain ⟨before, value, after, hc, hb, he⟩ := mapM_eq_error_iff.1 he
        cases value with
        | none =>
          obtain rfl := Except.error.inj he
          exact Or.inr ⟨_, rfl⟩
        | some path =>
          have hl : BanConfig.Settled (BanConfig.load fs path) :=
            BanConfig.settled_load_iff.2 fun hu => hn ⟨before, path, after, hc, hb, hu⟩
          rw [configPairs] at he
          rw [he, BanConfig.settled_error_iff] at hl
          obtain ⟨c, rfl⟩ := hl
          exact Or.inr ⟨c, rfl⟩
      · obtain ⟨before, value, after, -, -, he⟩ := mapM_eq_error_iff.1 he
        have hb := settled_banPairs value
        rw [he, BanConfig.settled_error_iff] at hb
        obtain ⟨c, rfl⟩ := hb
        exact Or.inr ⟨c, rfl⟩

end Settings

end BannedCalls
