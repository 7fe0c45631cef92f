import BannedCalls.FileSystem.Basic
import BannedCalls.Proofs.Text.Split
import Mathlib.Data.List.Basic

/-!
# Shown paths

The way a message shows a path has its steps, without those that are empty or a single dot. So both
resolve to the same path, unless the resolution stops at a loop of links: what a loop leaves is kept
as it is spelled.
-/

namespace BannedCalls

namespace Path

/-- The steps that lead somewhere. -/
def plainSteps (steps : List Text) : List Text := steps.filter fun step => step ≠ [] ∧ step ≠ "."

theorem shown_eq (p : Text) :
    shown p = orDot (root p ++ Text.join [separator] (plainSteps (steps p))) := rfl

theorem plainSteps_root_append (p t : Text) :
    plainSteps (steps (root p ++ t)) = plainSteps (steps t) := by
  have hs (t : Text) : plainSteps (steps (separator :: t)) = plainSteps (steps t) := by
    have h := @Text.splitOn_append_sep separator [] t
    rw [steps, ← List.nil_append (separator :: t), h]
    rfl
  unfold root
  split
  · rfl
  · exact (hs _).trans (hs _)
  · exact hs _

theorem plainSteps_orDot (p : Text) : plainSteps (steps (orDot p)) = plainSteps (steps p) := by
  unfold orDot
  split
  · next h =>
    rw [h]
    decide
  · rfl

theorem plainSteps_join_plainSteps (steps' : List Text)
    (h : ∀ step ∈ steps', separator ∉ step) :
    plainSteps (steps (Text.join [separator] (plainSteps steps'))) = plainSteps steps' := by
  by_cases hn : plainSteps steps' = []
  · rw [hn]
    rfl
  · rw [steps, Text.splitOn_join hn fun step hm => h step (List.mem_filter.1 hm).1]
    exact List.filter_eq_self.2 fun step hm => (List.mem_filter.1 hm).2

theorem plainSteps_shown (p : Text) : plainSteps (steps (shown p)) = plainSteps (steps p) := by
  rw [shown_eq, plainSteps_orDot, plainSteps_root_append]
  exact plainSteps_join_plainSteps _ fun step hm => (Text.of_mem_splitOn hm).2

theorem isRooted_root_append {p : Text} (h : isRooted p) (t : Text) : isRooted (root p ++ t) := by
  cases p with
  | nil => exact absurd h (by decide)
  | cons c rest =>
    obtain rfl : c = separator := by simpa [isRooted] using h
    have hl : ((separator :: rest).takeWhile (· = separator)).length ≠ 0 := by simp
    unfold root
    split
    · next h0 => exact absurd h0 hl
    · rfl
    · rfl

theorem root_of_not_isRooted {p : Text} (h : ¬ isRooted p) : root p = [] := by
  cases p with
  | nil => rfl
  | cons c rest =>
    have hc : c ≠ separator := by simpa [isRooted] using h
    simp [root, hc]

theorem not_isRooted_join_plainSteps (p : Text) :
    ¬ isRooted (orDot (Text.join [separator] (plainSteps (steps p)))) := by
  cases h : plainSteps (steps p) with
  | nil => decide
  | cons step rest =>
    obtain ⟨hm, hs⟩ := List.mem_filter.1 (h ▸ List.mem_cons_self : step ∈ plainSteps (steps p))
    obtain ⟨hn, -⟩ := decide_eq_true_iff.1 hs
    obtain ⟨c, tail, rfl⟩ := List.exists_cons_of_ne_nil hn
    have hc : separator ≠ c := fun he => (Text.of_mem_splitOn hm).2 (he ▸ List.mem_cons_self)
    cases rest <;> simp [orDot, Text.join, isRooted, hc.symm]

theorem isRooted_shown (p : Text) : isRooted (shown p) = isRooted p := by
  rw [Bool.eq_iff_iff, shown_eq]
  by_cases h : isRooted p
  · have hr := isRooted_root_append h (Text.join [separator] (plainSteps (steps p)))
    have hn : root p ++ Text.join [separator] (plainSteps (steps p)) ≠ [] := by
      intro he
      rw [he] at hr
      exact absurd hr (by decide)
    exact iff_of_true (by rwa [orDot, if_neg hn]) h
  · rw [root_of_not_isRooted h]
    exact iff_of_false (not_isRooted_join_plainSteps p) h

end Path

namespace FileSystem

variable {fs : FileSystem}

open BannedCalls.Path

/-- Steps that lead nowhere can be left out, unless a loop stops the resolution. -/
theorem resolveSteps_plainSteps (follow : List Text → Text → List Text → Resolution)
    (busy : List Text) (path : Text) (steps : List Text) :
    let all := fs.resolveSteps follow busy path steps
    let plain := fs.resolveSteps follow busy path (plainSteps steps)
    plain.looped = all.looped ∧ (all.looped = false → plain = all) := by
  induction steps generalizing path with
  | nil => exact ⟨rfl, fun _ => rfl⟩
  | cons step rest ih =>
    by_cases hs : step = [] ∨ step = "."
    · have hp : plainSteps (step :: rest) = plainSteps rest := by
        rcases hs with rfl | rfl <;> rfl
      simp only [hp, resolveSteps, if_pos hs]
      exact ih path
    · have hp : plainSteps (step :: rest) = step :: plainSteps rest :=
        List.filter_cons_of_pos (decide_eq_true (not_or.1 hs))
      simp only [hp, resolveSteps, if_neg hs]
      split
      · exact ih _
      · split
        · exact ih _
        · split
          · simp [leave]
          · split
            · simp [leave]
            · exact ih _

theorem resolve_plainSteps (depth : Nat) (busy : List Text) (path : Text)
    (steps : List Text) :
    let all := fs.resolve depth busy path steps
    let plain := fs.resolve depth busy path (plainSteps steps)
    plain.looped = all.looped ∧ (all.looped = false → plain = all) := by
  cases depth with
  | zero => exact resolveSteps_plainSteps ..
  | succ depth => exact resolveSteps_plainSteps ..

/-- Resolving the path stops at a loop of links. -/
def Loops (fs : FileSystem) (p : Text) : Prop :=
  (fs.resolve fs.depth [] (start [] p) (Path.steps p)).looped

instance (fs : FileSystem) (p : Text) : Decidable (fs.Loops p) :=
  inferInstanceAs (Decidable (_ = true))

theorem realPath_shown {p : Text} (h : ¬ fs.Loops p) :
    fs.realPath (Path.shown p) = fs.realPath p := by
  have hs : start [] (Path.shown p) = start [] p := by
    rw [start, start, isRooted_shown]
  obtain ⟨hl, he⟩ := @resolve_plainSteps fs fs.depth [] (start [] p) (Path.steps p)
  obtain ⟨hl', he'⟩ :=
    @resolve_plainSteps fs fs.depth [] (start [] p) (Path.steps (Path.shown p))
  rw [plainSteps_shown] at hl' he'
  have ha := Bool.eq_false_iff.2 h
  rw [realPath, realPath, hs, ← he ha, ← he' (hl'.symm.trans (hl.trans ha))]

end FileSystem

end BannedCalls
