import BannedCalls.Proofs.CommandLine.Options

/-!
# One pass over the arguments

Taking out an option again and again comes to one pass from left to right: an argument spelled like
the option takes the one behind it as its value, however that is spelled, and has none at the end.
-/

namespace BannedCalls

namespace Arguments

/-- The values of an option, and the arguments left without them, in one pass. -/
def scan (flag : Text) : List Text → List (Option Text) × List Text
  | [] => ([], [])
  | arg :: rest =>
    if arg = flag then
      match rest with
      | [] => ([none], [])
      | value :: after => (some value :: (scan flag after).1, (scan flag after).2)
    else ((scan flag rest).1, arg :: (scan flag rest).2)

theorem takeOption_eq_scan (flag : Text) (args : List Text) :
    takeOption flag args = scan flag args := by
  fun_induction scan flag args with
  | case1 => exact takeOption_of_not_mem List.not_mem_nil
  | case2 => exact takeOption_append_last List.not_mem_nil
  | case3 value after ih => rw [takeOption_cons, ih]
  | case4 arg rest hne ih => rw [takeOption_cons_of_ne (Ne.symm hne), ih]

theorem not_mem_scan (flag : Text) (args : List Text) : flag ∉ (scan flag args).2 := by
  fun_induction scan flag args with
  | case1 => exact List.not_mem_nil
  | case2 => exact List.not_mem_nil
  | case3 value after ih => exact ih
  | case4 arg rest hne ih => exact List.not_mem_cons_of_ne_of_not_mem (Ne.symm hne) ih

theorem scan_sublist (flag : Text) (args : List Text) : ((scan flag args).2).Sublist args := by
  fun_induction scan flag args with
  | case1 => exact List.Sublist.refl _
  | case2 => exact List.nil_sublist _
  | case3 value after ih => exact (ih.cons value).cons flag
  | case4 arg rest hne ih => exact ih.cons_cons arg

theorem mem_of_mem_scan {flag : Text} {args : List Text} {value : Text}
    (h : some value ∈ (scan flag args).1) : value ∈ args := by
  fun_induction scan flag args with
  | case1 => exact absurd h List.not_mem_nil
  | case2 => simp at h
  | case3 first after ih =>
    rcases List.mem_cons.1 h with he | h
    · obtain rfl := Option.some.inj he
      simp
    · exact List.mem_cons_of_mem _ (List.mem_cons_of_mem _ (ih h))
  | case4 arg rest hne ih => exact List.mem_cons_of_mem _ (ih h)

theorem scan_cons_of_ne {flag arg : Text} (h : arg ≠ flag) (rest : List Text) :
    scan flag (arg :: rest) = ((scan flag rest).1, arg :: (scan flag rest).2) := by
  cases rest <;> simp only [scan, if_neg h]

/-- If no value is missing, what follows is scanned as if it stood alone. -/
theorem scan_append {flag : Text} {before : List Text} (h : none ∉ (scan flag before).1)
    (after : List Text) :
    scan flag (before ++ after) = ((scan flag before).1 ++ (scan flag after).1,
      (scan flag before).2 ++ (scan flag after).2) := by
  fun_induction scan flag before with
  | case1 => rfl
  | case2 => simp at h
  | case3 value rest ih =>
    have hr := ih (not_or.1 (mt List.mem_cons.2 h)).2
    simp only [List.cons_append, scan, if_true, hr]
  | case4 arg rest hne ih => rw [List.cons_append, scan_cons_of_ne hne, ih h, List.cons_append]

/-- The arguments without the two flags that have no value. -/
def unflagged (args : List Text) : List Text :=
  args.filter fun arg => arg ≠ "--text" ∧ arg ≠ "--debug"

end Arguments

namespace Settings

open Arguments

/-- The settings by two passes over the arguments, one for each option. -/
theorem ofArguments_eq_scan (args : List Text) :
    let configs := scan "--config" (unflagged args)
    let bans := scan "--ban" configs.2
    ofArguments args =
      ⟨args.contains "--text", args.contains "--debug", configs.1, bans.1, bans.2⟩ := by
  intro configs bans
  have hw : without "--debug" (without "--text" args) = unflagged args := by
    simp [without, unflagged, List.filter_filter, and_comm]
  have hd : (without "--text" args).contains "--debug" = args.contains "--debug" := by
    rw [Bool.eq_iff_iff, List.contains_iff_mem, List.contains_iff_mem, without, List.mem_filter]
    exact and_iff_left (by decide)
  simp only [ofArguments, hw, hd, takeOption_eq_scan]
  rfl

/-- If no option in front lacks its value, the arguments behind are sorted out on their own. -/
theorem ofArguments_append {before : List Text} (hc : none ∉ (ofArguments before).configs)
    (hb : none ∉ (ofArguments before).bans) (after : List Text) :
    ofArguments (before ++ after) =
      { text := (ofArguments before).text || (ofArguments after).text
        traced := (ofArguments before).traced || (ofArguments after).traced
        configs := (ofArguments before).configs ++ (ofArguments after).configs
        bans := (ofArguments before).bans ++ (ofArguments after).bans
        files := (ofArguments before).files ++ (ofArguments after).files } := by
  rw [ofArguments_eq_scan] at hc hb
  have hu : unflagged (before ++ after) = unflagged before ++ unflagged after :=
    List.filter_append before after
  simp only [ofArguments_eq_scan, hu, scan_append hc, scan_append hb, List.contains_append]

/-- The values of the options and the files are arguments. -/
theorem mem_of_mem_ofArguments {args : List Text} {word : Text}
    (h : some word ∈ (ofArguments args).configs ∨ some word ∈ (ofArguments args).bans ∨
      word ∈ (ofArguments args).files) : word ∈ args := by
  have hu : unflagged args ⊆ args := List.filter_sublist.subset
  have hr := (scan_sublist "--config" (unflagged args)).subset
  rw [ofArguments_eq_scan] at h
  rcases h with h | h | h
  · exact hu (mem_of_mem_scan h)
  · exact hu (hr (mem_of_mem_scan h))
  · exact hu (hr ((scan_sublist _ _).subset h))

/-- No file is spelled like a flag or an option. -/
theorem not_mem_flags_of_mem_files {args : List Text} {file : Text}
    (h : file ∈ (ofArguments args).files) : file ∉ flags := by
  rw [ofArguments_eq_scan] at h
  have hb : file ≠ "--ban" := fun he => not_mem_scan _ _ (he ▸ h)
  have hr := (scan_sublist _ _).subset h
  have hc : file ≠ "--config" := fun he => not_mem_scan _ _ (he ▸ hr)
  obtain ⟨-, hu⟩ := List.mem_filter.1 ((scan_sublist _ _).subset hr)
  simp only [decide_eq_true_eq] at hu
  simp [flags, hu, hc, hb]

end Settings

end BannedCalls
