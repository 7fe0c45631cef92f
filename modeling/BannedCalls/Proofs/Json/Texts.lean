import BannedCalls.Json.Printer
import BannedCalls.Json.Reader
import BannedCalls.Proofs.Text.Surrogates

/-!
# Texts printed and read

A printed text is read code unit by code unit, and the units of a code point beyond the basic plane
are joined again. So are two halves that were apart before: a text is read back as it was just if
none of its high halves stands right before a low one.
-/

namespace BannedCalls

/-! ## Halves -/

namespace CodePoint

/-- The code units of a code point, as code points. -/
def halves (c : CodePoint) : Text := c.units.map (Fin.ofNat _)

theorem halves_of_lt {c : CodePoint} (h : c.val < 0x10000) : c.halves = [c] := by
  simp [halves, units, h]

theorem isHighSurrogate_iff {c : CodePoint} :
    c.isHighSurrogate ↔ 0xD800 ≤ c.val ∧ c.val ≤ 0xDBFF := by
  simp [isHighSurrogate]

theorem isLowSurrogate_iff {c : CodePoint} :
    c.isLowSurrogate ↔ 0xDC00 ≤ c.val ∧ c.val ≤ 0xDFFF := by
  simp [isLowSurrogate]

/-- The code point that two halves name. -/
def joined (high low : CodePoint) : CodePoint :=
  Fin.ofNat _ (0x10000 + (high.val - 0xD800) * 0x400 + (low.val - 0xDC00))

theorem exists_halves_of_ge {c : CodePoint} (h : 0x10000 ≤ c.val) :
    ∃ high low, c.halves = [high, low] ∧ high.Pairs low ∧ joined high low = c := by
  have hc := c.isLt
  refine ⟨Fin.ofNat _ (0xD800 + (c.val - 0x10000) / 0x400),
    Fin.ofNat _ (0xDC00 + (c.val - 0x10000) % 0x400), ?_, ⟨?_, ?_⟩, ?_⟩
  · simp [halves, units, Nat.not_lt.2 h]
  · rw [isHighSurrogate_iff, Fin.val_ofNat]
    omega
  · rw [isLowSurrogate_iff, Fin.val_ofNat]
    omega
  · apply Fin.ext
    simp only [joined, Fin.val_ofNat]
    omega

/-- The first unit of a code point is a low half only if the code point is. -/
theorem exists_halves (c : CodePoint) :
    ∃ first others, c.halves = first :: others ∧ first.isLowSurrogate = c.isLowSurrogate := by
  by_cases h : c.val < 0x10000
  · exact ⟨c, [], halves_of_lt h, rfl⟩
  · obtain ⟨high, low, hs, ⟨hh, -⟩, -⟩ := exists_halves_of_ge (Nat.not_lt.1 h)
    refine ⟨high, [low], hs, ?_⟩
    have h1 : ¬ high.isLowSurrogate := by
      rw [isHighSurrogate_iff] at hh
      rw [isLowSurrogate_iff]
      omega
    have h2 : ¬ c.isLowSurrogate := by
      rw [isLowSurrogate_iff]
      omega
    rw [Bool.eq_false_iff.2 h1, Bool.eq_false_iff.2 h2]

end CodePoint

namespace Json

open CodePoint

theorem joinPairs_of_pairs {high low : CodePoint} (h : high.Pairs low) (rest : Text) :
    joinPairs (high :: low :: rest) = high.joined low :: joinPairs rest := by
  rw [joinPairs, if_pos ((Bool.and_eq_true _ _).mpr h)]
  rfl

theorem joinPairs_of_not_pairs {high low : CodePoint} (h : ¬ high.Pairs low) (rest : Text) :
    joinPairs (high :: low :: rest) = high :: joinPairs (low :: rest) := by
  rw [joinPairs, if_neg (mt (Bool.and_eq_true _ _).mp h)]

/-- Joining goes through a code point beyond the basic plane, whether it is cut or not. -/
theorem joinPairs_halves_of_ge {c : CodePoint} (h : 0x10000 ≤ c.val) (rest : Text) :
    joinPairs (c.halves ++ rest) = c :: joinPairs rest := by
  obtain ⟨high, low, hs, hp, hj⟩ := exists_halves_of_ge h
  rw [hs, ← hj]
  exact joinPairs_of_pairs hp rest

/-- Cutting up a text does not matter to what its halves join to. -/
theorem joinPairs_flatMap_halves (t : Text) : joinPairs (t.flatMap halves) = joinPairs t := by
  fun_induction joinPairs t with
  | case1 high low rest hp ih =>
    rw [Bool.and_eq_true] at hp
    have hh : high.val < 0x10000 := by
      have := isHighSurrogate_iff.1 hp.1
      omega
    have hl : low.val < 0x10000 := by
      have := isLowSurrogate_iff.1 hp.2
      omega
    rw [List.flatMap_cons, List.flatMap_cons, halves_of_lt hh, halves_of_lt hl]
    exact (joinPairs_of_pairs hp _).trans (congrArg _ ih)
  | case2 high low rest hp ih =>
    rw [List.flatMap_cons]
    by_cases hh : high.val < 0x10000
    · obtain ⟨first, others, hs, hf⟩ := low.exists_halves
      rw [Bool.and_eq_true, ← hf] at hp
      rw [List.flatMap_cons, hs] at ih ⊢
      rw [halves_of_lt hh]
      exact (joinPairs_of_not_pairs hp _).trans (congrArg _ ih)
    · rw [joinPairs_halves_of_ge (Nat.not_lt.1 hh), ih]
  | case3 rest hr =>
    rcases rest with _ | ⟨c, _ | ⟨low, rest⟩⟩
    · rfl
    · rw [List.flatMap_cons, List.flatMap_nil]
      by_cases hc : c.val < 0x10000
      · rw [halves_of_lt hc]
        rfl
      · exact joinPairs_halves_of_ge (Nat.not_lt.1 hc) []
    · exact absurd rfl (hr c low rest)

/-! ## Joined texts -/

theorem joinPairs_of_unpaired {t : Text} (h : t.Unpaired) : joinPairs t = t := by
  fun_induction joinPairs t with
  | case1 high low rest hp ih =>
    exact absurd ((Bool.and_eq_true _ _).mp hp) (List.isChain_cons_cons.1 h).1
  | case2 high low rest hp ih => rw [ih (List.isChain_cons_cons.1 h).2]
  | case3 rest hr => rfl

theorem joined_ge {high low : CodePoint} (h : high.Pairs low) :
    0x10000 ≤ (joined high low).val := by
  have hh := isHighSurrogate_iff.1 h.1
  have hl := isLowSurrogate_iff.1 h.2
  rw [joined, Fin.val_ofNat]
  omega

/-- What two halves are joined to is no half itself. -/
theorem isSurrogate_joined {high low : CodePoint} (h : high.Pairs low) :
    (high.joined low).isSurrogate = false := by
  have hj := joined_ge h
  rw [isSurrogate_eq_false_iff]
  omega

/-- What has no code point beyond the basic plane was not joined. -/
theorem joinPairs_of_lt {t : Text} (h : ∀ c ∈ joinPairs t, c.val < 0x10000) :
    joinPairs t = t := by
  fun_induction joinPairs t with
  | case1 high low rest hp ih =>
    rw [Bool.and_eq_true] at hp
    exact absurd (h _ List.mem_cons_self) (Nat.not_lt.2 (joined_ge hp))
  | case2 high low rest hp ih => rw [ih (List.forall_mem_cons.1 h).2]
  | case3 rest hr => rfl

theorem exists_joinPairs_cons (c : CodePoint) (t : Text) :
    ∃ first rest, joinPairs (c :: t) = first :: rest ∧
      (first = c ∨ first.isSurrogate = false) := by
  cases t with
  | nil => exact ⟨c, [], rfl, Or.inl rfl⟩
  | cons low t =>
    by_cases hp : c.Pairs low
    · exact ⟨_, _, joinPairs_of_pairs hp t, Or.inr (isSurrogate_joined hp)⟩
    · exact ⟨c, _, joinPairs_of_not_pairs hp t, Or.inl rfl⟩

theorem unpaired_joinPairs (t : Text) : (joinPairs t).Unpaired := by
  fun_induction joinPairs t with
  | case1 high low rest hp ih =>
    rw [Bool.and_eq_true] at hp
    exact Text.Unpaired.append_cons List.isChain_nil (isSurrogate_joined hp) ih
  | case2 high low rest hp ih =>
    obtain ⟨first, others, hs, hf⟩ := exists_joinPairs_cons low rest
    rw [Bool.and_eq_true] at hp
    rw [hs] at ih ⊢
    refine List.isChain_cons_cons.2 ⟨?_, ih⟩
    rintro ⟨hh, hl⟩
    rcases hf with rfl | hf
    · exact hp ⟨hh, hl⟩
    · simp [isSurrogate, hl] at hf
  | case3 rest hr =>
    rcases rest with _ | ⟨c, _ | ⟨low, rest⟩⟩
    · exact List.isChain_nil
    · exact List.isChain_singleton c
    · exact absurd rfl (hr c low rest)

/-! ## Units -/

variable {opening start more units rest : Text}

theorem readUnits_plain {c : CodePoint} (hq : c ≠ '\x22') (hb : c ≠ '\\') (hc : 0x20 ≤ c.val)
    (h : readUnits opening .none more = .ok (units, rest)) :
    readUnits opening .none (c :: more) = .ok (c :: units, rest) := by
  simp [readUnits, hq, hb, Nat.not_lt.2 hc, h]

theorem readUnits_backslash :
    readUnits opening .none ('\\' :: more) = readUnits opening (.opened ('\\' :: more)) more := by
  have hb : CodePoint.ofChar '\\' ≠ CodePoint.ofChar '\x22' := by decide
  simp [readUnits, hb]

theorem readUnits_short {c letter : CodePoint} (hs : unescape? letter = some c)
    (h : readUnits opening .none more = .ok (units, rest)) :
    readUnits opening .none ('\\' :: letter :: more) = .ok (c :: units, rest) := by
  have hu : letter ≠ 'u' := by
    rintro rfl
    have hn : unescape? 'u' = none := rfl
    cases hn.symm.trans hs
  rw [readUnits_backslash]
  simp [readUnits, hu, hs, h]

theorem readUnits_digit {count value : Nat} (hc : count < 3) (d : Fin 16) :
    readUnits opening (.numbered start count value) (CodePoint.ofHexDigit d :: more) =
      readUnits opening (.numbered start (count + 1) (16 * value + d.val)) more := by
  simp [readUnits, hc]

theorem readUnits_last_digit {value : Nat} (d : Fin 16)
    (h : readUnits opening .none more = .ok (units, rest)) :
    readUnits opening (.numbered start 3 value) (CodePoint.ofHexDigit d :: more) =
      .ok (Fin.ofNat _ (16 * value + d.val) :: units, rest) := by
  have hm : more ≠ [] := by
    rintro rfl
    simp [readUnits] at h
  simp [readUnits, hm, h]

theorem readUnits_escapeUnit {n : Nat} (hn : n < 0x10000)
    (h : readUnits opening .none more = .ok (units, rest)) :
    readUnits opening .none (escapeUnit n ++ more) = .ok (Fin.ofNat _ n :: units, rest) := by
  let digit (k : Nat) : CodePoint := CodePoint.ofHexDigit ⟨k % 16, by omega⟩
  have hs : escapeUnit n ++ more = ofChar '\\' :: ofChar 'u' :: digit (n / 16 / 16 / 16) ::
      digit (n / 16 / 16) :: digit (n / 16) :: digit n :: more := rfl
  have hu (start tail : Text) : readUnits opening (.opened start) ('u' :: tail) =
      readUnits opening (.numbered ('u' :: tail) 0 0) tail := by
    simp [readUnits]
  have hv : 16 * (16 * (16 * (16 * 0 + n / 16 / 16 / 16 % 16) + n / 16 / 16 % 16) + n / 16 % 16) +
      n % 16 = n := by
    omega
  rw [hs, readUnits_backslash, hu, readUnits_digit (by decide), readUnits_digit (by decide),
    readUnits_digit (by decide), readUnits_last_digit _ h]
  exact congrArg (fun n => Except.ok (Fin.ofNat _ n :: units, rest)) hv

/-- A code point is printed by a letter, as it is, or by its code units. -/
theorem escape_cases (c : CodePoint) :
    (∃ letter, escape c = ['\\', letter] ∧ unescape? letter = some c) ∨
      (escape c = [c] ∧ c ≠ '\x22' ∧ c ≠ '\\' ∧ 0x20 ≤ c.val ∧ c.val ≤ 0x7E) ∨
      escape c = c.units.flatMap escapeUnit := by
  unfold escape
  split
  · next h => exact Or.inl ⟨'\x22', rfl, by rw [h]; rfl⟩
  · next hq =>
    split
    · next h => exact Or.inl ⟨'\\', rfl, by rw [h]; rfl⟩
    · next hb =>
      repeat' split
      · next h => exact Or.inl ⟨'n', rfl, by rw [h]; rfl⟩
      · next h => exact Or.inl ⟨'r', rfl, by rw [h]; rfl⟩
      · next h => exact Or.inl ⟨'t', rfl, by rw [h]; rfl⟩
      · next h => exact Or.inl ⟨'b', rfl, congrArg some (Fin.ext h.symm)⟩
      · next h => exact Or.inl ⟨'f', rfl, congrArg some (Fin.ext h.symm)⟩
      · next h => exact Or.inr (Or.inl ⟨rfl, hq, hb, h⟩)
      · exact Or.inr (Or.inr rfl)

theorem unescape?_lt {c letter : CodePoint} (h : unescape? letter = some c) : c.val < 0x80 := by
  unfold unescape? at h
  repeat' split at h
  all_goals first
    | (obtain rfl := Option.some.inj h; decide)
    | simp at h

theorem units_lt (c : CodePoint) : ∀ n ∈ c.units, n < 0x10000 := by
  have hc := c.isLt
  intro n hn
  unfold CodePoint.units at hn
  split at hn <;> simp at hn <;> omega

theorem readUnits_flatMap_escapeUnit {codes : List Nat} (hc : ∀ n ∈ codes, n < 0x10000)
    (h : readUnits opening .none more = .ok (units, rest)) :
    readUnits opening .none (codes.flatMap escapeUnit ++ more) =
      .ok (codes.map (Fin.ofNat _) ++ units, rest) := by
  induction codes with
  | nil => exact h
  | cons n codes ih =>
    obtain ⟨hn, hc⟩ := List.forall_mem_cons.1 hc
    rw [List.flatMap_cons, List.append_assoc]
    exact readUnits_escapeUnit hn (ih hc)

/-- What is escaped is read as its halves. -/
theorem readUnits_escape (c : CodePoint) (h : readUnits opening .none more = .ok (units, rest)) :
    readUnits opening .none (escape c ++ more) = .ok (c.halves ++ units, rest) := by
  rcases escape_cases c with ⟨letter, he, hs⟩ | ⟨he, hq, hb, hc⟩ | he
  · have hc := unescape?_lt hs
    rw [he, halves_of_lt (by omega)]
    exact readUnits_short hs h
  · rw [he, halves_of_lt (by omega)]
    exact readUnits_plain hq hb hc.1 h
  · rw [he]
    exact readUnits_flatMap_escapeUnit (units_lt c) h

theorem readUnits_flatMap_escape (opening t rest : Text) :
    readUnits opening .none (t.flatMap escape ++ ofChar '\x22' :: rest) =
      .ok (t.flatMap halves, rest) := by
  induction t with
  | nil => simp [readUnits]
  | cons c t ih =>
    rw [List.flatMap_cons, List.append_assoc]
    exact readUnits_escape c ih

/-- A printed text, the opening quote aside, is read as the text with its halves joined. -/
theorem readText_printText (opening t rest : Text) :
    readText opening (t.flatMap escape ++ ofChar '\x22' :: rest) = .ok (joinPairs t, rest) := by
  rw [readText, readUnits_flatMap_escape]
  exact congrArg (fun u => Except.ok (u, rest)) (joinPairs_flatMap_halves t)

end Json

end BannedCalls
