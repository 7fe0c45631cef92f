import BannedCalls.Number.Written

/-!
# Digits written and read

The digits of a number say it, and the first of them is zero only for zero itself. A run of digits
is read up to the first code point that is none.
-/

namespace BannedCalls

theorem Numeral.natOfDigits_append_singleton (ds : List (Fin 10)) (d : Fin 10) :
    natOfDigits (ds ++ [d]) = 10 * natOfDigits ds + d.val := by
  simp [natOfDigits, List.foldl_append]

namespace Text

theorem decimalDigits_of_lt {n : Nat} (h : n < 10) : decimalDigits n = [⟨n, h⟩] := by
  rw [decimalDigits, dif_pos h]

theorem decimalDigits_of_ge {n : Nat} (h : ¬ n < 10) :
    decimalDigits n = decimalDigits (n / 10) ++ [⟨n % 10, Nat.mod_lt n (Nat.succ_pos 9)⟩] := by
  rw [decimalDigits, dif_neg h]

theorem natOfDigits_decimalDigits (n : Nat) : Numeral.natOfDigits (decimalDigits n) = n := by
  induction n using Nat.strongRecOn with
  | _ n ih =>
    by_cases h : n < 10
    · rw [decimalDigits_of_lt h]
      simp [Numeral.natOfDigits]
    · rw [decimalDigits_of_ge h, Numeral.natOfDigits_append_singleton, ih (n / 10) (by omega)]
      dsimp only
      omega

/-- Digits start with zero only if they are its single digit. -/
theorem decimalDigits_cases (n : Nat) :
    (n = 0 ∧ decimalDigits n = [0]) ∨
      ∃ d ds, d ≠ 0 ∧ decimalDigits n = d :: ds := by
  induction n using Nat.strongRecOn with
  | _ n ih =>
    by_cases h : n < 10
    · rw [decimalDigits_of_lt h]
      by_cases h0 : n = 0
      · subst h0
        exact Or.inl ⟨rfl, rfl⟩
      · refine Or.inr ⟨⟨n, h⟩, [], fun he => h0 (congrArg Fin.val he), rfl⟩
    · rw [decimalDigits_of_ge h]
      rcases ih (n / 10) (by omega) with ⟨h0, -⟩ | ⟨d, ds, hd, hs⟩
      · omega
      · exact Or.inr ⟨d, ds ++ [_], hd, by rw [hs, List.cons_append]⟩

end Text

namespace Written

/-- Nothing that has to be read as part of the digits before it. -/
def EndsDigits (rest : Text) : Prop := ∀ c ∈ rest.head?, isDigit c = false

theorem isDigit_ofDigit (d : Fin 10) : isDigit (CodePoint.ofDigit d) := by
  simp [isDigit]

theorem digitRun_of_ends {rest : Text} (h : EndsDigits rest) : digitRun rest = ([], rest) := by
  cases rest with
  | nil => rfl
  | cons c rest =>
    have hc : isDigit c = false := h c rfl
    simp [digitRun, hc]

theorem digitRun_cons_digit (d : Fin 10) (t : Text) :
    digitRun (CodePoint.ofDigit d :: t) = (d :: (digitRun t).1, (digitRun t).2) := by
  simp [digitRun, isDigit_ofDigit]

theorem digitRun_ofDigits (ds : List (Fin 10)) {rest : Text} (h : EndsDigits rest) :
    digitRun (Text.ofDigits ds ++ rest) = (ds, rest) := by
  induction ds with
  | nil => exact digitRun_of_ends h
  | cons d ds ih =>
    have hd := digitRun_cons_digit d (Text.ofDigits ds ++ rest)
    rw [ih] at hd
    exact hd

end Written

end BannedCalls
