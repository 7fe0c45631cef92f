import BannedCalls.Text.Utf8

/-!
# Typable texts

A text that can be typed on a plain keyboard is ASCII without control characters, as all numerals
are. Stored as UTF-8 and read as lines, such a text is the same again.
-/

namespace BannedCalls.Text

/-- All code points are between the space and the tilde. -/
def Typable (t : Text) : Prop := ∀ c ∈ t, 0x20 ≤ c.val ∧ c.val ≤ 0x7E

instance : DecidablePred Typable := fun t => List.decidableBAll _ t

variable {s t : Text}

theorem typable_append (hs : s.Typable) (ht : t.Typable) : Typable (s ++ t) :=
  List.forall_mem_append.2 ⟨hs, ht⟩

theorem typable_ofDigits (ds : List (Fin 10)) : (ofDigits ds).Typable := by
  have hd : ∀ d : Fin 10, 0x20 ≤ (CodePoint.ofDigit d).val ∧ (CodePoint.ofDigit d).val ≤ 0x7E := by
    decide
  intro c hc
  obtain ⟨d, -, rfl⟩ := List.mem_map.1 hc
  exact hd d

theorem typable_hexDigits (width n : Nat) : (hexDigits width n).Typable := by
  have hd : ∀ d : Fin 16, 0x20 ≤ (CodePoint.ofHexDigit d).val ∧
      (CodePoint.ofHexDigit d).val ≤ 0x7E := by
    decide
  induction width generalizing n with
  | zero => exact fun _ h => absurd h List.not_mem_nil
  | succ width ih =>
    refine typable_append (ih _) fun c hc => ?_
    rw [List.mem_singleton.1 hc]
    exact hd _

theorem typable_ofInt (n : Int) : (ofInt n).Typable := by
  unfold ofInt
  split
  · exact @typable_append ['-'] _ (by decide) (typable_ofDigits _)
  · exact typable_ofDigits _

theorem decode_encode_of_typable (h : t.Typable) : Utf8.decode (Utf8.encode t) = some t :=
  Utf8.decode_encode_ascii fun c hc => Nat.lt_of_le_of_lt (h c hc).2 (by decide)

theorem unifyNewlines_of_typable (h : t.Typable) : t.unifyNewlines = t := by
  induction t with
  | nil => rfl
  | cons c rest ih =>
    obtain ⟨hc, hr⟩ := List.forall_mem_cons.1 h
    have hn : c ≠ '\r' := by
      rintro rfl
      exact absurd hc.1 (by decide)
    rw [unifyNewlines.eq_def]
    simp only [if_neg hn, ih hr]

end BannedCalls.Text
