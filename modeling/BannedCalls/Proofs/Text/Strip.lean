import BannedCalls.Text.Blank
import Mathlib.Data.List.DropRight

/-!
# Stripped texts

Stripping leaves a stretch of a text, and a stripped text is left as it is. What is left has no
blank at either end, and all code points that are not blank.
-/

namespace BannedCalls.Text

theorem stripStart_isSuffix (t : Text) : stripStart t <:+ t := List.dropWhile_suffix _

theorem stripEnd_isPrefix (t : Text) : stripEnd t <+: t := by
  have h := List.reverse_prefix.2 (stripStart_isSuffix t.reverse)
  rwa [List.reverse_reverse] at h

theorem strip_isInfix (t : Text) : strip t <:+: t :=
  (stripEnd_isPrefix _).isInfix.trans (stripStart_isSuffix t).isInfix

theorem stripStart_stripStart (t : Text) : stripStart (stripStart t) = stripStart t :=
  List.dropWhile_idempotent _ t

theorem stripEnd_stripEnd (t : Text) : stripEnd (stripEnd t) = stripEnd t := by
  rw [stripEnd, stripEnd, List.reverse_reverse, stripStart_stripStart]

theorem stripStart_of_isPrefix {s t : Text} (h : s <+: t) (ht : stripStart t = t) :
    stripStart s = s := by
  refine List.dropWhile_eq_self_iff.2 fun hl => ?_
  rw [h.getElem hl]
  exact List.dropWhile_eq_self_iff.1 ht (hl.trans_le h.length_le)

theorem strip_strip (t : Text) : strip (strip t) = strip t := by
  have h : stripStart (strip t) = strip t :=
    stripStart_of_isPrefix (stripEnd_isPrefix _) (stripStart_stripStart t)
  rw [strip, h, strip, stripEnd_stripEnd]

variable {t : Text} {c : CodePoint}

/-- There is no blank at either end. -/
def Trimmed (t : Text) : Prop := (∀ c ∈ t.head?, ¬ c.isBlank) ∧ ∀ c ∈ t.getLast?, ¬ c.isBlank

theorem stripStart_eq_self_iff : stripStart t = t ↔ ∀ c ∈ t.head?, ¬ c.isBlank := by
  cases t with
  | nil => simp [stripStart]
  | cons c rest => simp [stripStart, List.dropWhile_eq_self_iff]

theorem stripEnd_eq_self_iff : stripEnd t = t ↔ ∀ c ∈ t.getLast?, ¬ c.isBlank := by
  rw [← List.head?_reverse, ← stripStart_eq_self_iff, stripEnd, List.reverse_eq_iff]

theorem trimmed_strip (t : Text) : (strip t).Trimmed :=
  ⟨stripStart_eq_self_iff.1 (stripStart_of_isPrefix (stripEnd_isPrefix _) (stripStart_stripStart t)),
    stripEnd_eq_self_iff.1 (stripEnd_stripEnd _)⟩

theorem count_stripStart (hc : ¬ c.isBlank) (t : Text) : (stripStart t).count c = t.count c := by
  induction t with
  | nil => rfl
  | cons d rest ih =>
    rw [stripStart_cons]
    split
    · next hd =>
      have hne : d ≠ c := by
        rintro rfl
        exact hc hd
      rw [ih, List.count_cons_of_ne hne]
    · rfl

theorem count_strip (hc : ¬ c.isBlank) (t : Text) : (strip t).count c = t.count c := by
  rw [strip, stripEnd, List.count_reverse, count_stripStart hc, List.count_reverse,
    count_stripStart hc]

/-! ## Blanks on both sides of a code point -/

theorem stripStart_append_cons (hc : ¬ c.isBlank) (left right : Text) :
    stripStart (left ++ c :: right) = stripStart left ++ c :: right := by
  induction left with
  | nil => simp [hc, stripStart]
  | cons d left ih =>
    rw [List.cons_append, stripStart_cons, stripStart_cons, ih]
    split <;> rfl

theorem stripEnd_append_cons (hc : ¬ c.isBlank) (left right : Text) :
    stripEnd (left ++ c :: right) = left ++ c :: stripEnd right := by
  rw [stripEnd, List.reverse_append, List.reverse_cons, List.append_assoc, List.singleton_append,
    stripStart_append_cons hc]
  simp [stripEnd]

theorem strip_append_cons (hc : ¬ c.isBlank) (left right : Text) :
    strip (left ++ c :: right) = stripStart left ++ c :: stripEnd right := by
  rw [strip, stripStart_append_cons hc, stripEnd_append_cons hc]

theorem strip_stripStart (t : Text) : strip (stripStart t) = strip t := by
  rw [strip, stripStart_stripStart, strip]

theorem isBlank_stripEnd : (stripEnd t).isBlank ↔ t.isBlank := by
  rw [← stripEnd_eq_nil_iff, stripEnd_stripEnd, stripEnd_eq_nil_iff]

theorem strip_stripEnd (t : Text) : strip (stripEnd t) = strip t := by
  by_cases hb : t.isBlank
  · rw [strip_eq_nil_iff.2 hb, strip_eq_nil_iff.2 (isBlank_stripEnd.2 hb)]
  · -- A code point that is not blank keeps the two ends apart.
    obtain ⟨c, hm, hc⟩ : ∃ c ∈ t, ¬ c.isBlank := by simpa [isBlank] using hb
    obtain ⟨left, right, rfl⟩ := List.append_of_mem hm
    rw [stripEnd_append_cons hc, strip_append_cons hc, strip_append_cons hc, stripEnd_stripEnd]

end BannedCalls.Text
