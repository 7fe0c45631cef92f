import BannedCalls.Proofs.CommandLine.Scan
import Mathlib.Computability.StateTransition

/-!
# Round by round

An option is taken out of the arguments in rounds. Each round looks for the first flag from the front
again, notes the value behind it, and closes the gap. Every round leaves fewer arguments and changes
nothing in what all rounds together come to, so the rounds end where one pass ends.
-/

namespace BannedCalls

namespace Arguments

/-- The values noted so far, and the arguments that are left. -/
abbrev Taken := List (Option Text) × List Text

/-- One round. There is none without a flag. A flag in last place has no value, and as there is no
flag in front of it, its round is the last one. -/
def round? (flag : Text) : Taken → Option Taken
  | (values, args) =>
    match args.dropWhile (· ≠ flag) with
    | [] => none
    | [_] => some (values ++ [none], args.takeWhile (· ≠ flag))
    | _ :: value :: after =>
      some (values ++ [some value], args.takeWhile (· ≠ flag) ++ after)

variable {flag : Text} {before : List Text} {s t : Taken}

theorem round?_of_not_mem {args : List Text} (h : flag ∉ args) (values : List (Option Text)) :
    round? flag (values, args) = none := by
  simp only [round?, dropWhile_of_not_mem h]

theorem round?_append_last (h : flag ∉ before) (values : List (Option Text)) :
    round? flag (values, before ++ [flag]) = some (values ++ [none], before) := by
  simp only [round?, dropWhile_append_flag h, takeWhile_append_flag h]

theorem round?_append (h : flag ∉ before) (values : List (Option Text)) (value : Text)
    (after : List Text) :
    round? flag (values, before ++ flag :: value :: after) =
      some (values ++ [some value], before ++ after) := by
  simp only [round?, dropWhile_append_flag h, takeWhile_append_flag h]

theorem exists_first_flag {args : List Text} (h : flag ∈ args) : ∃ before, flag ∉ before ∧
    (args = before ++ [flag] ∨ ∃ value after, args = before ++ flag :: value :: after) := by
  obtain ⟨before, after, hs, hb⟩ := List.eq_append_cons_of_mem h
  cases after with
  | nil => exact ⟨before, hb, Or.inl hs⟩
  | cons value after => exact ⟨before, hb, Or.inr ⟨value, after, hs⟩⟩

/-- All that a round can do. -/
theorem round?_cases (h : round? flag s = some t) :
    (∃ before, flag ∉ before ∧ s.2 = before ++ [flag] ∧ t = (s.1 ++ [none], before)) ∨
      ∃ before value after, flag ∉ before ∧ s.2 = before ++ flag :: value :: after ∧
        t = (s.1 ++ [some value], before ++ after) := by
  obtain ⟨values, args⟩ := s
  by_cases hm : flag ∈ args
  · obtain ⟨before, hb, rfl | ⟨value, after, rfl⟩⟩ := exists_first_flag hm
    · rw [round?_append_last hb] at h
      exact Or.inl ⟨before, hb, rfl, (Option.some.inj h).symm⟩
    · rw [round?_append hb] at h
      exact Or.inr ⟨before, value, after, hb, rfl, (Option.some.inj h).symm⟩
  · cases (round?_of_not_mem hm values).symm.trans h

theorem not_mem_of_round?_eq_none (h : round? flag s = none) : flag ∉ s.2 := by
  obtain ⟨values, args⟩ := s
  intro hm
  obtain ⟨before, hb, rfl | ⟨value, after, rfl⟩⟩ := exists_first_flag hm
  · cases (round?_append_last hb values).symm.trans h
  · cases (round?_append hb values value after).symm.trans h

theorem length_lt_of_round? (h : round? flag s = some t) : t.2.length < s.2.length := by
  rcases round?_cases h with ⟨before, -, hs, rfl⟩ | ⟨before, value, after, -, hs, rfl⟩
  · simp only [hs, List.length_append, List.length_singleton]
    omega
  · simp only [hs, List.length_append, List.length_cons]
    omega

/-- What the rounds come to from here on. -/
def outcome (flag : Text) (s : Taken) : Taken :=
  (s.1 ++ (takeOption flag s.2).1, (takeOption flag s.2).2)

theorem outcome_of_round? (h : round? flag s = some t) : outcome flag t = outcome flag s := by
  rcases round?_cases h with ⟨before, hb, hs, rfl⟩ | ⟨before, value, after, hb, hs, rfl⟩
  · simp only [outcome, hs, takeOption_append_last hb, takeOption_of_not_mem hb, List.append_nil]
  · simp only [outcome, hs, takeOption_append hb, List.append_assoc, List.singleton_append]

theorem outcome_of_reaches (h : StateTransition.Reaches (round? flag) s t) :
    outcome flag t = outcome flag s := by
  induction h with
  | refl => rfl
  | tail _ hr ih => exact (outcome_of_round? hr).trans ih

theorem outcome_of_round?_eq_none (h : round? flag s = none) : outcome flag s = s := by
  simp only [outcome, takeOption_of_not_mem (not_mem_of_round?_eq_none h), List.append_nil]

/-- The rounds end, because each one leaves fewer arguments. -/
theorem exists_mem_eval (flag : Text) (s : Taken) :
    ∃ t, t ∈ StateTransition.eval (round? flag) s := by
  cases h : round? flag s with
  | none => exact ⟨s, StateTransition.mem_eval.2 ⟨.refl, h⟩⟩
  | some next =>
    obtain ⟨t, ht⟩ := exists_mem_eval flag next
    rw [← StateTransition.reaches_eval (.single h)] at ht
    exact ⟨t, ht⟩
termination_by s.2.length
decreasing_by exact length_lt_of_round? h

theorem eval_round? (flag : Text) (s : Taken) :
    StateTransition.eval (round? flag) s = Part.some (outcome flag s) := by
  obtain ⟨t, ht⟩ := exists_mem_eval flag s
  obtain ⟨hr, hn⟩ := StateTransition.mem_eval.1 ht
  have ho : t = outcome flag s := by
    rw [← outcome_of_reaches hr, outcome_of_round?_eq_none hn]
  rw [← ho, Part.eq_some_iff]
  exact ht

/-! ## What one pass leaves -/

/-- A value can be missing in last place only. -/
theorem exists_given_scan (flag : Text) (args : List Text) :
    ∃ given : List Text, (scan flag args).1 = given.map some ∨
      (scan flag args).1 = given.map some ++ [none] := by
  fun_induction scan flag args with
  | case1 => exact ⟨[], Or.inl rfl⟩
  | case2 => exact ⟨[], Or.inr rfl⟩
  | case3 value after ih =>
    obtain ⟨given, hg⟩ := ih
    refine ⟨value :: given, hg.imp ?_ ?_⟩
    · intro he
      rw [he, List.map_cons]
    · intro he
      rw [he, List.map_cons, List.cons_append]
  | case4 arg rest hne ih => exact ih

theorem none_not_mem_dropLast_scan (flag : Text) (args : List Text) :
    none ∉ (scan flag args).1.dropLast := by
  obtain ⟨given, hg | hg⟩ := exists_given_scan flag args
  · rw [hg]
    intro h
    simpa using List.mem_of_mem_dropLast h
  · rw [hg, List.dropLast_concat]
    simp

theorem count_none_scan (flag : Text) (args : List Text) :
    (scan flag args).1.count none = if (scan flag args).1.getLast? = some none then 1 else 0 := by
  obtain ⟨given, hg⟩ := exists_given_scan flag args
  have hn : none ∉ given.map some := by simp
  have hc : (given.map some).count none = 0 := List.count_eq_zero.2 hn
  rcases hg with hg | hg
  · have hlast : (given.map some).getLast? ≠ some none := fun h => hn (List.mem_of_getLast? h)
    rw [hg, hc, if_neg hlast]
  · rw [hg, List.count_append, hc, List.getLast?_concat, if_pos rfl, List.count_singleton_self]

theorem length_scan (flag : Text) (args : List Text) :
    args.length + (scan flag args).1.count none =
      (scan flag args).2.length + 2 * (scan flag args).1.length := by
  fun_induction scan flag args with
  | case1 => rfl
  | case2 => rfl
  | case3 value after ih =>
    simp only [List.length_cons, List.count_cons_of_ne (Option.some_ne_none value)]
    omega
  | case4 arg rest hne ih =>
    simp only [List.length_cons]
    omega

/-- Round by round an option is taken out with its values. The rounds end, and they come to one pass
from left to right. No flag is left, and what is left stands in the order in which it stood. Only the
last value can be missing. A value goes with its flag, and where it is missing the flag goes alone. -/
theorem takeOption_one_pass (flag : Text) (args : List Text) :
    let values := (takeOption flag args).1
    let rest := (takeOption flag args).2
    StateTransition.eval (round? flag) ([], args) = Part.some (values, rest) ∧
      (values, rest) = scan flag args ∧
      flag ∉ rest ∧ rest.Sublist args ∧
      none ∉ values.dropLast ∧ values.count none ≤ 1 ∧
      args.length + (if values.getLast? = some none then 1 else 0) =
        rest.length + 2 * values.length := by
  have hl := length_scan flag args
  have hc := count_none_scan flag args
  have hle : (scan flag args).1.count none ≤ 1 := by
    rw [hc]
    split <;> omega
  intro values rest
  refine ⟨eval_round? flag ([], args), takeOption_eq_scan flag args, ?_⟩
  simp only [values, rest, takeOption_eq_scan]
  exact ⟨not_mem_scan flag args, scan_sublist flag args, none_not_mem_dropLast_scan flag args, hle,
    hc ▸ hl⟩

/-- A value spelled like the flag, and a flag in last place. -/
example : takeOption "--ban" ["--ban", "--ban", "main.cpp", "--ban"] =
    ([some ("--ban" : Text), none], [("main.cpp" : Text)]) := by
  rw [takeOption_eq_scan]
  rfl

end Arguments

end BannedCalls
