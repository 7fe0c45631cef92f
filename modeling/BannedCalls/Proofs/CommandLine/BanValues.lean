import BannedCalls.Proofs.Ban.Forms
import BannedCalls.Proofs.CommandLine.Modes
import BannedCalls.Proofs.CommandLine.Scan

/-!
# Ban values joined

A list of pairs means the same in a ban value and in a configuration. Two ban values in a row mean
what a single one does in which they are joined by a comma.
-/

namespace BannedCalls

open Text

namespace Settings

variable {x y : Text} {xs ys : List BannedPair}

/-- A value that gives pairs is not taken for an option, whatever stands behind it. -/
theorem ofArguments_ban_cons_of_ok (h : BanConfig.pairsOfArgument x = .ok xs) (args : List Text) :
    ofArguments ("--ban" :: x :: args) =
      { ofArguments args with bans := some x :: (ofArguments args).bans } := by
  have hd : ∀ flag ∈ flags, dot ∉ flag := by decide
  have hm : x ∉ flags := fun hm => hd x hm (BanConfig.dot_mem_of_pairsOfArgument h)
  obtain ⟨ht, hd, hc, -⟩ := ne_of_not_mem_flags hm
  exact ofArguments_ban_cons ht hd hc args

theorem banPairs_of_ok (h : BanConfig.pairsOfArgument x = .ok xs) :
    banPairs (some x) = .ok xs := by
  rw [banPairs, h, mapError_ok]

/-- Among other ban values, two values in a row bring in the pairs that they bring in joined. -/
theorem pairs_join (hx : BanConfig.pairsOfArgument x = .ok xs)
    (hy : BanConfig.pairsOfArgument y = .ok ys) (s : Settings) (fs : FileSystem)
    (before after : List (Option Text)) :
    ({ s with bans := before ++ some x :: some y :: after } : Settings).pairs fs =
      ({ s with bans := before ++ some (x ++ comma :: y) :: after } : Settings).pairs fs := by
  have hj := banPairs_of_ok (BanConfig.pairsOfArgument_append hx hy)
  simp only [pairs, List.mapM_append, List.mapM_cons, banPairs_of_ok hx, banPairs_of_ok hy, hj]
  cases before.mapM banPairs with
  | error e => rfl
  | ok first =>
    cases after.mapM banPairs with
    | error e => rfl
    | ok rest =>
      cases s.configs.mapM (configPairs fs) <;> simp [bind, Except.bind, pure, Except.pure]

end Settings

namespace CommandLine

variable {host : Host} {clock : Clock}

/-- Of the options, a run sees only the pairs that they bring in. -/
theorem obey_congr {s s' : Settings} (hp : s.pairs host.fileSystem = s'.pairs host.fileSystem)
    (ht : s.text = s'.text) (hd : s.traced = s'.traced) (hf : s.files = s'.files) :
    obey host clock s = obey host clock s' := by
  simp only [obey, runFiles, hp, ht, hd, hf]

theorem run_join {x y : Text} {xs ys : List BannedPair} (hx : BanConfig.pairsOfArgument x = .ok xs)
    (hy : BanConfig.pairsOfArgument y = .ok ys) {before : List Text}
    (hc : none ∉ (Settings.ofArguments before).configs)
    (hb : none ∉ (Settings.ofArguments before).bans) (after : List Text) :
    run host clock (before ++ ("--ban" : Text) :: x :: "--ban" :: y :: after) =
      run host clock (before ++ ("--ban" : Text) :: (x ++ comma :: y) :: after) := by
  have hxy := BanConfig.pairsOfArgument_append hx hy
  simp only [run_eq_obey, Settings.ofArguments_append hc hb, Settings.ofArguments_ban_cons_of_ok hx,
    Settings.ofArguments_ban_cons_of_ok hy, Settings.ofArguments_ban_cons_of_ok hxy]
  exact obey_congr (Settings.pairs_join hx hy ⟨_, _, _, [], _⟩ _ _ _) rfl rfl rfl

/-- A list of pairs without marks in their names means the same as an argument and as options, with
or without the truth value in front. So two arguments joined by a comma give the pairs of both, and
two ban values in a row do what they do joined, wherever they are options on a command line. -/
theorem run_ban_forms :
    (∀ pairs : List BannedPair, pairs ≠ [] → (∀ p ∈ pairs, p.Unmarked) →
      let written := BanConfig.pairsOfArgument (join [comma] (pairs.map BannedPair.shown))
      let entries := pairs.map BannedPair.toJson
      let plain := BanConfig.pairsOfOptions (.arr entries)
      let switched := BanConfig.pairsOfOptions (.arr (.bool true :: entries))
      (∃ found, written = .ok found ∧ plain = .ok found ∧ switched = .ok found) ∨
        ∃ e e', written = .error e ∧ plain = .error e' ∧ switched = .error e') ∧
    ∀ (x y : Text) (xs ys : List BannedPair), BanConfig.pairsOfArgument x = .ok xs →
      BanConfig.pairsOfArgument y = .ok ys →
      BanConfig.pairsOfArgument (x ++ comma :: y) = .ok (xs ++ ys) ∧
      ∀ (host : Host) (clock : Clock) (before after : List Text),
        none ∉ (Settings.ofArguments before).configs → none ∉ (Settings.ofArguments before).bans →
        run host clock (before ++ ("--ban" : Text) :: x :: "--ban" :: y :: after) =
          run host clock (before ++ ("--ban" : Text) :: (x ++ comma :: y) :: after) := by
  refine ⟨fun pairs hne h => BanConfig.forms_agree hne h, fun x y xs ys hx hy => ?_⟩
  refine ⟨BanConfig.pairsOfArgument_append hx hy, fun host clock before after hc hb => ?_⟩
  exact run_join hx hy hc hb after

/-- Pairs with blanks around their names, and two ban values between other arguments. -/
theorem run_ban_forms_padded :
    let pairs : List BannedPair := [⟨"a ", " b"⟩, ⟨"\u3000c", "d"⟩]
    let found : List BannedPair := [⟨"a", "b"⟩, ⟨"c", "d"⟩]
    let host := bareHost [] []
    BanConfig.pairsOfArgument (join [comma] (pairs.map BannedPair.shown)) = .ok found ∧
      BanConfig.pairsOfOptions (.arr (pairs.map BannedPair.toJson)) = .ok found ∧
      BanConfig.pairsOfOptions (.arr (.bool true :: pairs.map BannedPair.toJson)) = .ok found ∧
      BanConfig.pairsOfArgument "a.b,c.d" = .ok found ∧
      run host ⟨[]⟩ ["main.cpp", "--ban", "a.b", "--ban", "c.d", "--text"] =
        run host ⟨[]⟩ ["main.cpp", "--ban", "a.b,c.d", "--text"] := by
  intro pairs found host
  obtain ⟨hforms, hjoin⟩ := run_ban_forms
  obtain ⟨hj, hrun⟩ := hjoin "a.b" "c.d" [⟨"a", "b"⟩] [⟨"c", "d"⟩] rfl rfl
  have hw : BanConfig.pairsOfArgument (join [comma] (pairs.map BannedPair.shown)) = .ok found :=
    rfl
  have hs : Settings.ofArguments ["main.cpp"] = ⟨false, false, [], [], ["main.cpp"]⟩ :=
    Settings.ofArguments_of_files (by decide)
  have hf : BanConfig.pairsOfOptions (.arr (pairs.map BannedPair.toJson)) = .ok found ∧
      BanConfig.pairsOfOptions (.arr (.bool true :: pairs.map BannedPair.toJson)) =
        .ok found := by
    rcases hforms pairs (by decide) (by decide) with ⟨found', he, hp⟩ | ⟨e, e', he, -⟩
    · obtain rfl := Except.ok.inj (hw.symm.trans he)
      exact hp
    · cases hw.symm.trans he
  refine ⟨hw, hf.1, hf.2, hj, hrun host ⟨[]⟩ ["main.cpp"] ["--text"] ?_ ?_⟩
  · simp [hs]
  · simp [hs]

end CommandLine

end BannedCalls
