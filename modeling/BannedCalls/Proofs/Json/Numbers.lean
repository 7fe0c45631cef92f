import BannedCalls.Json.Printer
import BannedCalls.Json.Reader
import BannedCalls.Proofs.Number.Digits

/-!
# Numbers printed and read

A printed number is read back as it was, digit for digit, if nothing behind it would continue it.
-/

namespace BannedCalls

open Written

theorem Text.exists_ofNat (n : Nat) :
    ∃ d ds, Text.ofNat n = CodePoint.ofDigit d :: Text.ofDigits ds := by
  rcases Text.decimalDigits_cases n with ⟨-, hs⟩ | ⟨d, ds, -, hs⟩
  · exact ⟨0, [], by rw [Text.ofNat, hs]; rfl⟩
  · exact ⟨d, ds, by rw [Text.ofNat, hs]; rfl⟩

theorem Text.ofInt_eq_sign (n : Int) :
    Text.ofInt n = Numeral.sign (n < 0) ++ Text.ofNat n.natAbs := by
  unfold Text.ofInt Numeral.sign
  by_cases h : n < 0 <;> simp [h] <;> rfl

theorem Written.signed_natAbs (n : Int) : signed (n < 0) n.natAbs = n := by
  simp only [signed, decide_eq_true_eq, Int.ofNat_eq_natCast]
  split <;> omega

/-- An exponent is a sign with digits that say its absolute value. -/
theorem Numeral.exists_exponentText (n : Int) :
    ∃ d ds, exponentText n = (if n < 0 then '-' else '+' : CodePoint) :: Text.ofDigits (d :: ds) ∧
      natOfDigits (d :: ds) = n.natAbs := by
  have hn := Text.natOfDigits_decimalDigits n.natAbs
  obtain ⟨d, ds, hs⟩ : ∃ d ds, Text.decimalDigits n.natAbs = d :: ds := by
    rcases Text.decimalDigits_cases n.natAbs with ⟨-, hs⟩ | ⟨d, ds, -, hs⟩
    · exact ⟨0, [], hs⟩
    · exact ⟨d, ds, hs⟩
  rw [hs] at hn
  unfold exponentText
  dsimp only
  by_cases hl : (Text.ofNat n.natAbs).length < 2
  · refine ⟨0, d :: ds, ?_, ?_⟩
    · rw [if_pos hl, Text.ofNat, hs]
      by_cases h : n < 0 <;> simp [h] <;> rfl
    · rw [← hn]
      simp [natOfDigits]
  · refine ⟨d, ds, ?_, hn⟩
    rw [if_neg hl, Text.ofNat, hs]
    by_cases h : n < 0 <;> simp [h] <;> rfl

namespace Json

/-- Nothing that has to be read as part of the number before it. -/
def EndsNumber (rest : Text) : Prop :=
  ∀ c ∈ rest.head?, isDigit c = false ∧ c ≠ '.' ∧ c ≠ 'e' ∧ c ≠ 'E'

theorem EndsNumber.endsDigits {rest : Text} (h : EndsNumber rest) : EndsDigits rest :=
  fun c hc => (h c hc).1

theorem endsDigits_cons {c : CodePoint} (h : isDigit c = false) (rest : Text) :
    EndsDigits (c :: rest) := by
  intro d hd
  obtain rfl := Option.some.inj hd
  exact h

theorem after?_cons_self (c : CodePoint) (rest : Text) : after? c (c :: rest) = some rest := by
  simp [after?]

theorem after?_cons_of_ne {c d : CodePoint} (h : d ≠ c) (rest : Text) :
    after? c (d :: rest) = none := by
  simp [after?, h]

theorem ofDigit_ne {c : CodePoint} (h : isDigit c = false) (d : Fin 10) :
    CodePoint.ofDigit d ≠ c := by
  intro he
  rw [← he, isDigit_ofDigit] at h
  exact Bool.noConfusion h

theorem after?_ofNat {c : CodePoint} (h : isDigit c = false) (n : Nat) (rest : Text) :
    after? c (Text.ofNat n ++ rest) = none := by
  obtain ⟨d, ds, hs⟩ := Text.exists_ofNat n
  rw [hs]
  exact after?_cons_of_ne (ofDigit_ne h d) _

theorem readWhole?_ofNat (n : Nat) {rest : Text} (h : EndsDigits rest) :
    readWhole? (Text.ofNat n ++ rest) = some (n, rest) := by
  have hz : ∀ d : Fin 10, d ≠ 0 → CodePoint.ofDigit d ≠ '0' := by decide
  rcases Text.decimalDigits_cases n with ⟨rfl, hs⟩ | ⟨d, ds, hd, hs⟩
  · rw [Text.ofNat, hs]
    rfl
  · have hr := digitRun_ofDigits (d :: ds) h
    have hn := Text.natOfDigits_decimalDigits n
    rw [hs] at hn
    rw [Text.ofNat, hs]
    simp only [Text.ofDigits, List.map_cons, List.cons_append] at hr ⊢
    simp only [readWhole?, if_neg (hz d hd), hr, hn]

theorem readFraction_of_ends {rest : Text} (h : EndsNumber rest) :
    readFraction rest = ([], rest) := by
  cases rest with
  | nil => rfl
  | cons c rest => simp [readFraction, (h c rfl).2.1]

theorem readFraction_fractionText (fraction : List (Fin 10)) {rest : Text} (h : EndsDigits rest)
    (hp : ∀ c ∈ rest.head?, c ≠ '.') :
    readFraction (Numeral.fractionText fraction ++ rest) = (fraction, rest) := by
  cases fraction with
  | nil =>
    cases rest with
    | nil => rfl
    | cons c rest => simp [Numeral.fractionText, readFraction, hp c rfl]
  | cons d ds =>
    have hr := digitRun_ofDigits (d :: ds) h
    simp [Numeral.fractionText, readFraction, hr]

theorem readExponent_of_ends {rest : Text} (h : EndsNumber rest) :
    readExponent rest = (none, rest) := by
  cases rest with
  | nil => rfl
  | cons c rest => simp [readExponent, (h c rfl).2.2.1, (h c rfl).2.2.2]

theorem readExponent_exponentText (n : Int) {rest : Text} (h : EndsDigits rest) :
    readExponent ('e' :: (Numeral.exponentText n ++ rest)) = (some n, rest) := by
  obtain ⟨d, ds, hs, hn⟩ := Numeral.exists_exponentText n
  have hr := digitRun_ofDigits (d :: ds) h
  have hu : unsign ((if n < 0 then '-' else '+' : CodePoint) :: (Text.ofDigits (d :: ds) ++ rest)) =
      (decide (n < 0), Text.ofDigits (d :: ds) ++ rest) := by
    have hm : CodePoint.ofChar '+' ≠ CodePoint.ofChar '-' := by decide
    by_cases hneg : n < 0 <;> simp [unsign, hneg, hm]
  rw [hs, List.cons_append]
  simp [readExponent, hu, hr, hn, signed_natAbs]

/-- A number is read from its sign and its whole part on. -/
theorem readNumber?_sign (negative : Bool) (whole : Nat) {rest : Text} (h : EndsDigits rest) :
    readNumber? (Numeral.sign negative ++ (Text.ofNat whole ++ rest)) =
      some (number negative whole (readFraction rest).1 (readExponent (readFraction rest).2).1,
        (readExponent (readFraction rest).2).2) := by
  have hm : isDigit '-' = false := by decide
  cases negative with
  | true =>
    have ha : after? '-' (Numeral.sign true ++ (Text.ofNat whole ++ rest)) =
        some (Text.ofNat whole ++ rest) := after?_cons_self '-' _
    simp [readNumber?, ha, readWhole?_ofNat whole h]
  | false =>
    have ha : after? '-' (Numeral.sign false ++ (Text.ofNat whole ++ rest)) = none :=
      after?_ofNat hm whole rest
    have hb : Numeral.sign false ++ (Text.ofNat whole ++ rest) = Text.ofNat whole ++ rest := rfl
    rw [hb] at ha ⊢
    simp [readNumber?, ha, readWhole?_ofNat whole h]

theorem readNumber?_ofInt (n : Int) {rest : Text} (h : EndsNumber rest) :
    readNumber? (Text.ofInt n ++ rest) = some (int n, rest) := by
  rw [Text.ofInt_eq_sign, List.append_assoc, readNumber?_sign _ _ h.endsDigits,
    readFraction_of_ends h, readExponent_of_ends h]
  simp only [number, signed_natAbs]

theorem number_positional (negative : Bool) (whole : Nat) (tenths : Fin 10)
    (finer : List (Fin 10)) :
    number negative whole (tenths :: finer) none =
      real (.positional negative whole tenths finer) := rfl

theorem number_scientific (negative : Bool) (whole : Nat) (fraction : List (Fin 10))
    (exponent : Int) :
    number negative whole fraction (some exponent) =
      real (.scientific negative whole fraction exponent) := by
  cases fraction <;> rfl

theorem readNumber?_positional (negative : Bool) (whole : Nat) (tenths : Fin 10)
    (finer : List (Fin 10)) {rest : Text} (h : EndsNumber rest) :
    readNumber? ((Numeral.positional negative whole tenths finer).write "Infinity" "NaN" ++ rest) =
      some (real (.positional negative whole tenths finer), rest) := by
  have hd : EndsDigits (Numeral.fractionText (tenths :: finer) ++ rest) :=
    endsDigits_cons (by decide) _
  have hf := readFraction_fractionText (tenths :: finer) h.endsDigits fun c hc => (h c hc).2.1
  rw [Numeral.write, List.append_assoc, List.append_assoc, readNumber?_sign _ _ hd, hf,
    readExponent_of_ends h, number_positional]

theorem readNumber?_scientific (negative : Bool) (whole : Nat) (fraction : List (Fin 10))
    (exponent : Int) {rest : Text} (h : EndsNumber rest) :
    readNumber?
        ((Numeral.scientific negative whole fraction exponent).write "Infinity" "NaN" ++ rest) =
      some (real (.scientific negative whole fraction exponent), rest) := by
  let tail : Text := 'e' :: (Numeral.exponentText exponent ++ rest)
  have ht : EndsDigits tail := endsDigits_cons (by decide) _
  have hp : ∀ c ∈ tail.head?, c ≠ '.' := by
    intro c hc
    obtain rfl := Option.some.inj hc
    decide
  have hd : EndsDigits (Numeral.fractionText fraction ++ tail) := by
    cases fraction with
    | nil => exact ht
    | cons d ds => exact endsDigits_cons (by decide) _
  have he : readExponent tail = (some exponent, rest) :=
    readExponent_exponentText exponent h.endsDigits
  have hw : (Numeral.scientific negative whole fraction exponent).write "Infinity" "NaN" ++ rest =
      Numeral.sign negative ++ (Text.ofNat whole ++ (Numeral.fractionText fraction ++ tail)) := by
    simp only [Numeral.write, List.append_assoc]
    rfl
  rw [hw, readNumber?_sign _ _ hd, readFraction_fractionText fraction ht hp, he, number_scientific]

end Json

end BannedCalls
