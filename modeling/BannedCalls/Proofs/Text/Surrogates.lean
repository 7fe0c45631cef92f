import BannedCalls.Proofs.Text.Typable
import BannedCalls.Text.Quoted
import Mathlib.Data.List.Chain

/-!
# Surrogate halves

A text is scalar if it has no surrogate halves. It is unpaired if no high half in it stands right
before a low one, which is all that printing it and reading it back asks for.
-/

namespace BannedCalls

/-- The two are halves that name one code point together. -/
def CodePoint.Pairs (high low : CodePoint) : Prop := high.isHighSurrogate ∧ low.isLowSurrogate

theorem CodePoint.isSurrogate_eq_false_iff {c : CodePoint} :
    c.isSurrogate = false ↔ c.val < 0xD800 ∨ 0xDFFF < c.val := by
  simp only [isSurrogate, isHighSurrogate, isLowSurrogate, Bool.or_eq_false_iff,
    Bool.and_eq_false_iff, decide_eq_false_iff_not]
  omega

theorem CodePoint.isSurrogate_ofChar (c : Char) : (ofChar c).isSurrogate = false :=
  isSurrogate_eq_false_iff.2 (c.valid.imp_right And.left)

namespace Text

def Scalar (t : Text) : Prop := ∀ c ∈ t, c.isSurrogate = false

instance : DecidablePred Scalar := fun t => List.decidableBAll _ t

def Unpaired (t : Text) : Prop := t.IsChain fun high low => ¬ high.Pairs low

variable {s t : Text}

/-! ## Scalar texts -/

@[simp] theorem scalar_nil : Scalar [] := fun _ h => absurd h List.not_mem_nil

@[simp] theorem scalar_cons_iff {c : CodePoint} :
    Scalar (c :: t) ↔ c.isSurrogate = false ∧ t.Scalar := List.forall_mem_cons

@[simp] theorem scalar_append_iff : Scalar (s ++ t) ↔ s.Scalar ∧ t.Scalar :=
  List.forall_mem_append

theorem Scalar.of_subset (h : t.Scalar) (hs : s ⊆ t) : s.Scalar := fun c hc => h c (hs hc)

theorem Typable.scalar (h : t.Typable) : t.Scalar :=
  fun c hc => CodePoint.isSurrogate_eq_false_iff.2 (Or.inl ((h c hc).2.trans_lt (by decide)))

@[simp] theorem scalar_ofString (s : String) : Scalar (ofString s) := by
  intro c hc
  obtain ⟨x, -, rfl⟩ := List.mem_map.1 hc
  exact CodePoint.isSurrogate_ofChar x

theorem scalar_flatMap {α : Type} {f : α → Text} {xs : List α} (h : ∀ x ∈ xs, (f x).Scalar) :
    Scalar (xs.flatMap f) := by
  intro c hc
  obtain ⟨x, hx, hc⟩ := List.mem_flatMap.1 hc
  exact h x hx c hc

/-! ## Unpaired texts -/

theorem Unpaired.of_infix (h : t.Unpaired) (hs : s <:+: t) : s.Unpaired := List.IsChain.infix h hs

theorem Scalar.unpaired (h : t.Scalar) : t.Unpaired := by
  induction t with
  | nil => exact List.isChain_nil
  | cons c rest ih =>
    obtain ⟨hc, hr⟩ := scalar_cons_iff.1 h
    refine List.isChain_cons.2 ⟨fun d _ hp => ?_, ih hr⟩
    simp [CodePoint.isSurrogate, hp.1] at hc

theorem Scalar.append_unpaired (hs : s.Scalar) (ht : t.Unpaired) : Unpaired (s ++ t) := by
  refine List.isChain_append.2 ⟨hs.unpaired, ht, fun b hb d _ hp => ?_⟩
  have hn := hs b (List.mem_of_mem_getLast? hb)
  simp [CodePoint.isSurrogate, hp.1] at hn

/-- A code point that is no half keeps apart what stands on its two sides. -/
theorem Unpaired.append_cons {c : CodePoint} (hs : s.Unpaired) (hc : c.isSurrogate = false)
    (ht : t.Unpaired) : Unpaired (s ++ c :: t) := by
  refine List.isChain_append.2 ⟨hs, List.isChain_cons.2 ⟨fun d _ hp => ?_, ht⟩, ?_⟩
  · simp [CodePoint.isSurrogate, hp.1] at hc
  · intro b _ d hd hp
    obtain rfl := Option.some.inj hd
    simp [CodePoint.isSurrogate, hp.2] at hc

end Text

/-! ## Quoted texts -/

namespace CodePoint

theorem inRanges_of_mem {n first last : Nat} {ranges : List (Nat × Nat)}
    (hs : ranges.Pairwise fun a b => a.1 ≤ b.1) (hm : (first, last) ∈ ranges) (hf : first ≤ n)
    (hl : n ≤ last) : inRanges n ranges := by
  induction ranges with
  | nil => exact absurd hm List.not_mem_nil
  | cons range rest ih =>
    obtain ⟨hr, hs⟩ := List.pairwise_cons.1 hs
    rcases List.mem_cons.1 hm with rfl | hm
    · simp [inRanges, Nat.not_lt.2 hf, hl]
    · have hle : range.1 ≤ n := (hr _ hm).trans hf
      simp [inRanges, Nat.not_lt.2 hle, ih hs hm]

theorem pairwise_unprintableRanges : unprintableRanges.Pairwise fun a b => a.1 ≤ b.1 := by
  have : IsTrans (Nat × Nat) fun a b => a.1 ≤ b.1 := ⟨fun _ _ _ => Nat.le_trans⟩
  have hc : unprintableRanges.IsChain fun a b => a.1 ≤ b.1 := by decide +kernel
  exact hc.pairwise

theorem isPrintable_of_isSurrogate {c : CodePoint} (h : c.isSurrogate) :
    c.isPrintable = false := by
  have hm : (0xD7FC, 0xF8FF) ∈ unprintableRanges := by decide +kernel
  have hv : 0xD7FC ≤ c.val ∧ c.val ≤ 0xF8FF := by
    simp only [isSurrogate, isHighSurrogate, isLowSurrogate, Bool.or_eq_true, Bool.and_eq_true,
      decide_eq_true_eq] at h
    omega
  rw [isPrintable, inRanges_of_mem pairwise_unprintableRanges hm hv.1 hv.2]
  rfl

theorem scalar_quoted {mark : CodePoint} (hm : mark.isSurrogate = false) (c : CodePoint) :
    (quoted mark c).Scalar := by
  have hx (width : Nat) : (Text.hexDigits width c.val).Scalar :=
    (Text.typable_hexDigits width c.val).scalar
  unfold quoted
  split
  · next h =>
    have hc : c.isSurrogate = false := by
      rw [Bool.or_eq_true, decide_eq_true_eq, decide_eq_true_eq] at h
      rcases h with rfl | rfl
      · exact hm
      · exact isSurrogate_ofChar _
    simp [isSurrogate_ofChar, hc]
  · repeat' split
    · exact Text.scalar_ofString _
    · exact Text.scalar_ofString _
    · exact Text.scalar_ofString _
    · next h =>
      have hc : c.isSurrogate = false := by
        by_contra hs
        simp [isPrintable_of_isSurrogate (eq_true_of_ne_false hs)] at h
      simp [hc]
    · exact Text.scalar_append_iff.2 ⟨Text.scalar_ofString _, hx 2⟩
    · exact Text.scalar_append_iff.2 ⟨Text.scalar_ofString _, hx 4⟩
    · exact Text.scalar_append_iff.2 ⟨Text.scalar_ofString _, hx 8⟩

end CodePoint

/-- The way a message shows a text is scalar, whatever the text is. -/
theorem Text.scalar_quoted (t : Text) : t.quoted.Scalar := by
  have hm : t.quoteMark.isSurrogate = false := by
    unfold quoteMark
    split <;> exact CodePoint.isSurrogate_ofChar _
  have hq : Scalar (t.flatMap (CodePoint.quoted t.quoteMark)) :=
    scalar_flatMap fun c _ => CodePoint.scalar_quoted hm c
  simp [quoted, hm, hq]

end BannedCalls
