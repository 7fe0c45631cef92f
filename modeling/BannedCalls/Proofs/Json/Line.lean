import BannedCalls.Proofs.Json.Texts

/-!
# Printed lines

Whatever a value holds, it is printed on one line of ASCII, without control characters.
-/

namespace BannedCalls

open Text

/-! ## Numbers -/

namespace Numeral

theorem typable_sign (negative : Bool) : (sign negative).Typable := by
  cases negative <;> decide

theorem typable_fractionText (fraction : List (Fin 10)) : (fractionText fraction).Typable := by
  unfold fractionText
  split
  · decide
  · exact @typable_append ['.'] _ (by decide) (typable_ofDigits _)

theorem typable_exponentText (n : Int) : (exponentText n).Typable := by
  unfold exponentText
  refine typable_append ?_ ?_
  · split <;> decide
  · split
    · exact typable_append (by decide) (typable_ofDigits _)
    · exact typable_ofDigits _

theorem typable_write {infinity nan : Text} (hi : infinity.Typable) (hn : nan.Typable)
    (x : Numeral) : (x.write infinity nan).Typable := by
  cases x with
  | positional negative whole tenths finer =>
    exact typable_append (typable_append (typable_sign _) (typable_ofDigits _))
      (typable_fractionText _)
  | scientific negative whole fraction exponent =>
    exact typable_append (typable_append (typable_append (typable_append (typable_sign _)
      (typable_ofDigits _)) (typable_fractionText _)) (by decide)) (typable_exponentText _)
  | infinite negative => exact typable_append (typable_sign _) hi
  | nan => exact hn

end Numeral

/-! ## Values -/

namespace Json

theorem typable_escapeUnit (n : Nat) : (escapeUnit n).Typable :=
  typable_append (by decide) (typable_hexDigits 4 n)

theorem typable_unescape? {c letter : CodePoint} (h : unescape? letter = some c) :
    0x20 ≤ letter.val ∧ letter.val ≤ 0x7E := by
  unfold unescape? at h
  repeat' split at h
  all_goals first
    | (subst letter; decide)
    | simp at h

theorem typable_escape (c : CodePoint) : (escape c).Typable := by
  rcases escape_cases c with ⟨letter, he, hs⟩ | ⟨he, -, -, hc⟩ | he
  · rw [he]
    exact List.forall_mem_cons.2 ⟨by decide, List.forall_mem_singleton.2 (typable_unescape? hs)⟩
  · rw [he]
    exact List.forall_mem_singleton.2 hc
  · rw [he]
    intro d hd
    obtain ⟨n, -, hd⟩ := List.mem_flatMap.1 hd
    exact typable_escapeUnit n d hd

theorem typable_printText (t : Text) : (printText t).Typable := by
  refine typable_append (typable_append (by decide) fun d hd => ?_) (by decide)
  obtain ⟨c, -, hd⟩ := List.mem_flatMap.1 hd
  exact typable_escape c d hd

mutual

theorem typable_print : (j : Json) → j.print.Typable
  | null => by decide
  | bool b => by cases b <;> decide
  | int n => typable_ofInt n
  | real x => x.typable_write (by decide) (by decide)
  | str t => typable_printText t
  | arr items => typable_append (typable_append (by decide) (typable_printItems items)) (by decide)
  | obj members =>
    typable_append (typable_append (by decide) (typable_printMembers members)) (by decide)

theorem typable_printItems : (items : List Json) → (printItems items).Typable
  | [] => by decide
  | [item] => typable_print item
  | item :: next :: rest =>
    typable_append (typable_append (typable_print item) (by decide))
      (typable_printItems (next :: rest))

theorem typable_printMembers : (members : List (Text × Json)) → (printMembers members).Typable
  | [] => by decide
  | [(name, value)] =>
    typable_append (typable_append (typable_printText name) (by decide)) (typable_print value)
  | (name, value) :: next :: rest =>
    typable_append (typable_append (typable_append (typable_append (typable_printText name)
      (by decide)) (typable_print value)) (by decide)) (typable_printMembers (next :: rest))

end

end Json

end BannedCalls
