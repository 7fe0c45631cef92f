import BannedCalls.Proofs.FirstFailure
import BannedCalls.Proofs.Json.Numbers
import BannedCalls.Proofs.Json.Texts
import Mathlib.Data.List.TakeWhile

/-!
# Values printed and read

Every printed value is read, down to its last code point, and `Json.reread` says what comes back:
the halves in its texts are joined, and of members of one name the last is kept.
-/

namespace BannedCalls.Json

mutual

/-- What a value is read as once it is printed. -/
def reread : Json → Json
  | null => null
  | bool b => bool b
  | int n => int n
  | real x => real x
  | str t => str (joinPairs t)
  | arr items => arr (rereadItems items)
  | obj members => object (rereadMembers members)

def rereadItems : List Json → List Json
  | [] => []
  | item :: rest => reread item :: rereadItems rest

def rereadMembers : List (Text × Json) → List (Text × Json)
  | [] => []
  | (name, value) :: rest => (joinPairs name, reread value) :: rereadMembers rest

end

theorem rereadItems_eq_map (items : List Json) : rereadItems items = items.map reread := by
  induction items with
  | nil => rfl
  | cons item rest ih => rw [rereadItems, ih, List.map_cons]

theorem rereadMembers_eq_map (members : List (Text × Json)) :
    rereadMembers members = members.map fun m => (joinPairs m.1, reread m.2) := by
  induction members with
  | nil => rfl
  | cons member rest ih => rw [rereadMembers, ih, List.map_cons]

/-! ## The steps of a reader -/

/-- A code point that stands in front of a value. -/
def Starts (c : CodePoint) : Prop := isSpace c = false ∧ c ≠ ']' ∧ c ≠ 0xFEFF

instance (c : CodePoint) : Decidable (Starts c) := inferInstanceAs (Decidable (_ ∧ _ ∧ _))

theorem starts_ofDigit (d : Fin 10) : Starts (CodePoint.ofDigit d) := by
  revert d
  decide

theorem exists_sign (negative : Bool) (whole : Nat) (tail : Text) :
    ∃ c rest, Numeral.sign negative ++ (Text.ofNat whole ++ tail) = c :: rest ∧ Starts c := by
  cases negative with
  | true => exact ⟨'-', _, rfl, by decide⟩
  | false =>
    obtain ⟨d, ds, hs⟩ := Text.exists_ofNat whole
    exact ⟨_, _, by rw [hs]; rfl, starts_ofDigit d⟩

theorem exists_print (j : Json) : ∃ c rest, j.print = c :: rest ∧ Starts c := by
  cases j with
  | null => exact ⟨'n', _, rfl, by decide⟩
  | bool b =>
    cases b with
    | true => exact ⟨'t', _, rfl, by decide⟩
    | false => exact ⟨'f', _, rfl, by decide⟩
  | int n =>
    have h := exists_sign (n < 0) n.natAbs []
    rwa [List.append_nil, ← Text.ofInt_eq_sign] at h
  | real x =>
    cases x with
    | positional negative whole tenths finer =>
      have h := exists_sign negative whole (Numeral.fractionText (tenths :: finer))
      rwa [← List.append_assoc] at h
    | scientific negative whole fraction exponent =>
      have h := exists_sign negative whole
        (Numeral.fractionText fraction ++ "e" ++ Numeral.exponentText exponent)
      simpa only [print, Numeral.write, List.append_assoc] using h
    | infinite negative =>
      cases negative with
      | true => exact ⟨'-', _, rfl, by decide⟩
      | false => exact ⟨'I', _, rfl, by decide⟩
    | nan => exact ⟨'N', _, rfl, by decide⟩
  | str t => exact ⟨'\x22', _, rfl, by decide⟩
  | arr items => exact ⟨'[', _, rfl, by decide⟩
  | obj members => exact ⟨'\x7b', _, rfl, by decide⟩

theorem skip_cons {c : CodePoint} (h : isSpace c = false) (rest : Text) :
    skip (c :: rest) = c :: rest := by
  simp [skip, h]

theorem skip_print (j : Json) (rest : Text) : skip (j.print ++ rest) = j.print ++ rest := by
  obtain ⟨c, tail, hs, hc, -⟩ := exists_print j
  rw [hs]
  exact skip_cons hc _

theorem printText_append (t rest : Text) : printText t ++ rest =
    CodePoint.ofChar '\x22' :: (t.flatMap escape ++ CodePoint.ofChar '\x22' :: rest) := by
  rw [printText, List.append_assoc, List.append_assoc]
  rfl

section

variable {fuel : Nat} {t next rest : Text} {item value : Json} {items : List Json}
  {members : List (Text × Json)}

theorem readValue_text (fuel : Nat) (t rest : Text) :
    readValue (fuel + 1) (printText t ++ rest) = .ok (str (joinPairs t), rest) := by
  rw [printText_append, readValue, after?_cons_self]
  simp only [readText_printText]
  rfl

theorem readValue_word (word : Text × Json) (h : word ∈ words) (fuel : Nat) (rest : Text) :
    readValue (fuel + 1) (word.1 ++ rest) = .ok (word.2, rest) := by
  simp only [words, List.mem_cons, List.not_mem_nil, or_false] at h
  rcases h with rfl | rfl | rfl | rfl | rfl | rfl <;> rfl

theorem readWord?_eq_none (h : ∀ word ∈ words, ¬ word.1 <+: t) : readWord? t = none := by
  refine List.findSome?_eq_none_iff.2 fun word hw => if_neg ?_
  rw [List.isPrefixOf_iff_prefix]
  exact h word hw

/-- The first two code points of a word are no digits. -/
theorem readWord?_sign (negative : Bool) (whole : Nat) (t : Text) :
    readWord? (Numeral.sign negative ++ (Text.ofNat whole ++ t)) = none := by
  have hw : ∀ word ∈ words, ∃ c d tail, word.1 = c :: d :: tail ∧ Written.isDigit c = false ∧
      Written.isDigit d = false := by
    intro word hm
    simp only [words, List.mem_cons, List.not_mem_nil, or_false] at hm
    rcases hm with rfl | rfl | rfl | rfl | rfl | rfl <;> exact ⟨_, _, _, rfl, by decide, by decide⟩
  obtain ⟨digit, digits, hs⟩ := Text.exists_ofNat whole
  refine readWord?_eq_none fun word hm hp => ?_
  obtain ⟨c, d, tail, hc, hcd, hdd⟩ := hw word hm
  rw [hc, hs] at hp
  cases negative with
  | true =>
    obtain ⟨-, hp⟩ := List.cons_prefix_cons.1 hp
    exact ofDigit_ne hdd digit (List.cons_prefix_cons.1 hp).1.symm
  | false => exact ofDigit_ne hcd digit (List.cons_prefix_cons.1 hp).1.symm

theorem after?_sign {c : CodePoint} (hc : Written.isDigit c = false) (hm : c ≠ '-')
    (negative : Bool) (whole : Nat) (t : Text) :
    after? c (Numeral.sign negative ++ (Text.ofNat whole ++ t)) = none := by
  cases negative with
  | true => exact after?_cons_of_ne hm.symm _
  | false => exact after?_ofNat hc whole t

theorem readValue_number {negative : Bool} {whole : Nat}
    (h : readNumber? (Numeral.sign negative ++ (Text.ofNat whole ++ t)) = some (value, rest))
    (fuel : Nat) :
    readValue (fuel + 1) (Numeral.sign negative ++ (Text.ofNat whole ++ t)) =
      .ok (value, rest) := by
  have hq := @after?_sign '\x22' (by decide) (by decide) negative whole t
  have ha := @after?_sign '[' (by decide) (by decide) negative whole t
  have ho := @after?_sign '\x7b' (by decide) (by decide) negative whole t
  simp only [readValue, hq, ha, ho, readWord?_sign, h, Option.none_or]

theorem readValue_items (hc : after? ']' t = none) (hs : skip t = t)
    (h : readItems fuel t = .ok (items, rest)) :
    readValue (fuel + 1) (CodePoint.ofChar '[' :: t) = .ok (arr items, rest) := by
  have ht : after? '\x22' (CodePoint.ofChar '[' :: t) = none := after?_cons_of_ne (by decide) t
  simp [readValue, ht, after?_cons_self, hs, hc, h]

theorem readValue_members (hc : after? '\x7d' t = none) (hs : skip t = t)
    (h : readMembers fuel t = .ok (members, rest)) :
    readValue (fuel + 1) (CodePoint.ofChar '\x7b' :: t) = .ok (object members, rest) := by
  have ht : after? '\x22' (CodePoint.ofChar '\x7b' :: t) = none := after?_cons_of_ne (by decide) t
  have ha : after? '[' (CodePoint.ofChar '\x7b' :: t) = none := after?_cons_of_ne (by decide) t
  simp [readValue, ht, ha, after?_cons_self, hs, hc, h]

theorem readItems_last (h : readValue fuel t = .ok (item, CodePoint.ofChar ']' :: rest)) :
    readItems (fuel + 1) t = .ok ([item], rest) := by
  have hs : skip (CodePoint.ofChar ']' :: rest) = CodePoint.ofChar ']' :: rest :=
    skip_cons (by decide) rest
  have hc : after? ',' (CodePoint.ofChar ']' :: rest) = none := after?_cons_of_ne (by decide) rest
  rw [readItems]
  refine bind_eq_ok_iff.2 ⟨_, h, ?_⟩
  simp [hs, hc, after?_cons_self]

theorem readItems_cons (h : readValue fuel t = .ok (item, ", " ++ next)) (hn : skip next = next)
    (hr : readItems fuel next = .ok (items, rest)) :
    readItems (fuel + 1) t = .ok (item :: items, rest) := by
  have hs : skip (", " ++ next) = CodePoint.ofChar ',' :: CodePoint.ofChar ' ' :: next := rfl
  have hn' : skip (CodePoint.ofChar ' ' :: next) = next := hn
  rw [readItems]
  refine bind_eq_ok_iff.2 ⟨_, h, ?_⟩
  simp [hs, hn', hr, after?_cons_self]

theorem readMembers_last (hs : skip t = t)
    (h : readValue fuel t = .ok (value, CodePoint.ofChar '\x7d' :: rest)) (name : Text) :
    readMembers (fuel + 1) (printText name ++ (": " ++ t)) =
      .ok ([(joinPairs name, value)], rest) := by
  have hc : skip (": " ++ t) = CodePoint.ofChar ':' :: CodePoint.ofChar ' ' :: t := rfl
  have ht : skip (CodePoint.ofChar ' ' :: t) = t := hs
  have hn : skip (CodePoint.ofChar '\x7d' :: rest) = CodePoint.ofChar '\x7d' :: rest :=
    skip_cons (by decide) rest
  have ha : after? ',' (CodePoint.ofChar '\x7d' :: rest) = none :=
    after?_cons_of_ne (by decide) rest
  rw [printText_append, readMembers, after?_cons_self]
  refine bind_eq_ok_iff.2 ⟨_, readText_printText _ _ _, ?_⟩
  simp only [hc, ht, after?_cons_self]
  refine bind_eq_ok_iff.2 ⟨_, h, ?_⟩
  simp only [hn, ha, after?_cons_self]

theorem readMembers_cons (hs : skip t = t) (h : readValue fuel t = .ok (value, ", " ++ next))
    (hn : skip next = next) (hr : readMembers fuel next = .ok (members, rest)) (name : Text) :
    readMembers (fuel + 1) (printText name ++ (": " ++ t)) =
      .ok ((joinPairs name, value) :: members, rest) := by
  have hc : skip (": " ++ t) = CodePoint.ofChar ':' :: CodePoint.ofChar ' ' :: t := rfl
  have ht : skip (CodePoint.ofChar ' ' :: t) = t := hs
  have hd : skip (", " ++ next) = CodePoint.ofChar ',' :: CodePoint.ofChar ' ' :: next := rfl
  have hn' : skip (CodePoint.ofChar ' ' :: next) = next := hn
  rw [printText_append, readMembers, after?_cons_self]
  refine bind_eq_ok_iff.2 ⟨_, readText_printText _ _ _, ?_⟩
  simp only [hc, ht, after?_cons_self]
  refine bind_eq_ok_iff.2 ⟨_, h, ?_⟩
  simp only [hd, hn', after?_cons_self]
  exact bind_eq_ok_iff.2 ⟨_, hr, rfl⟩

end

/-! ## Whole values -/

theorem endsNumber_cons {c : CodePoint}
    (h : Written.isDigit c = false ∧ c ≠ '.' ∧ c ≠ 'e' ∧ c ≠ 'E') (rest : Text) :
    EndsNumber (c :: rest) := by
  intro d hd
  obtain rfl := Option.some.inj hd
  exact h

theorem readValue_real (x : Numeral) (fuel : Nat) {rest : Text} (h : EndsNumber rest) :
    readValue (fuel + 1) ((real x).print ++ rest) = .ok (real x, rest) := by
  cases x with
  | positional negative whole tenths finer =>
    have hn := readNumber?_positional negative whole tenths finer h
    simp only [Numeral.write, List.append_assoc] at hn
    simp only [print, Numeral.write, List.append_assoc]
    exact readValue_number hn fuel
  | scientific negative whole fraction exponent =>
    have hn := readNumber?_scientific negative whole fraction exponent h
    simp only [Numeral.write, List.append_assoc] at hn
    simp only [print, Numeral.write, List.append_assoc]
    exact readValue_number hn fuel
  | infinite negative =>
    cases negative with
    | true => exact readValue_word ("-Infinity", _) (by simp [words]) fuel rest
    | false => exact readValue_word ("Infinity", _) (by simp [words]) fuel rest
  | nan => exact readValue_word ("NaN", _) (by simp [words]) fuel rest

theorem readValue_int (n : Int) (fuel : Nat) {rest : Text} (h : EndsNumber rest) :
    readValue (fuel + 1) ((int n).print ++ rest) = .ok (int n, rest) := by
  have hn := readNumber?_ofInt n h
  rw [Text.ofInt_eq_sign, List.append_assoc] at hn
  rw [print, Text.ofInt_eq_sign, List.append_assoc]
  exact readValue_number hn fuel

theorem printItems_cons_cons (item next : Json) (rest : List Json) :
    printItems (item :: next :: rest) = item.print ++ (", " ++ printItems (next :: rest)) := by
  rw [printItems, List.append_assoc]

theorem printMembers_singleton (name : Text) (value : Json) :
    printMembers [(name, value)] = printText name ++ (": " ++ value.print) := by
  rw [printMembers, List.append_assoc]

theorem printMembers_cons_cons (name : Text) (value : Json) (next : Text × Json)
    (rest : List (Text × Json)) :
    printMembers ((name, value) :: next :: rest) =
      printText name ++ (": " ++ (value.print ++ (", " ++ printMembers (next :: rest)))) := by
  simp only [printMembers, List.append_assoc]

theorem exists_printItems (item : Json) (rest : List Json) :
    ∃ c tail, printItems (item :: rest) = c :: tail ∧ Starts c := by
  obtain ⟨c, tail, hs, hc⟩ := exists_print item
  cases rest with
  | nil => exact ⟨c, tail, hs, hc⟩
  | cons next rest => exact ⟨c, _, by rw [printItems_cons_cons, hs]; rfl, hc⟩

theorem exists_printMembers (member : Text × Json) (rest : List (Text × Json)) :
    ∃ tail, printMembers (member :: rest) = CodePoint.ofChar '\x22' :: tail := by
  cases rest with
  | nil => exact ⟨_, by rw [printMembers_singleton, printText_append]⟩
  | cons next rest => exact ⟨_, by rw [printMembers_cons_cons, printText_append]⟩

theorem length_print_pos (j : Json) : 0 < j.print.length := by
  obtain ⟨c, tail, hs, -⟩ := exists_print j
  rw [hs]
  exact Nat.succ_pos _

theorem skip_printItems (item : Json) (rest : List Json) (t : Text) :
    skip (printItems (item :: rest) ++ t) = printItems (item :: rest) ++ t ∧
      after? ']' (printItems (item :: rest) ++ t) = none := by
  obtain ⟨c, tail, hs, hc, hb, -⟩ := exists_printItems item rest
  rw [hs]
  exact ⟨skip_cons hc _, after?_cons_of_ne hb _⟩

theorem skip_printMembers (member : Text × Json) (rest : List (Text × Json)) (t : Text) :
    skip (printMembers (member :: rest) ++ t) = printMembers (member :: rest) ++ t ∧
      after? '\x7d' (printMembers (member :: rest) ++ t) = none := by
  obtain ⟨tail, hs⟩ := exists_printMembers member rest
  rw [hs]
  exact ⟨skip_cons (by decide) _, after?_cons_of_ne (by decide) _⟩

theorem print_arr (items : List Json) (rest : Text) : (arr items).print ++ rest =
    CodePoint.ofChar '[' :: (printItems items ++ CodePoint.ofChar ']' :: rest) := by
  rw [print, List.append_assoc, List.append_assoc]
  rfl

theorem print_obj (members : List (Text × Json)) (rest : Text) : (obj members).print ++ rest =
    CodePoint.ofChar '\x7b' :: (printMembers members ++ CodePoint.ofChar '\x7d' :: rest) := by
  rw [print, List.append_assoc, List.append_assoc]
  rfl

theorem length_print_arr (items : List Json) :
    (arr items).print.length = (printItems items).length + 2 := by
  simpa using congrArg List.length (print_arr items [])

theorem length_print_obj (members : List (Text × Json)) :
    (obj members).print.length = (printMembers members).length + 2 := by
  simpa using congrArg List.length (print_obj members [])

-- The bounds count two calls for each code point and one more for a series of parts.
mutual

theorem readValue_print : (j : Json) → (fuel : Nat) → (rest : Text) →
    2 * j.print.length ≤ fuel + 1 → EndsNumber rest →
      readValue (fuel + 1) (j.print ++ rest) = .ok (j.reread, rest)
  | null, fuel, rest, _, _ => readValue_word ("null", null) (by simp [words]) fuel rest
  | bool true, fuel, rest, _, _ => readValue_word ("true", bool true) (by simp [words]) fuel rest
  | bool false, fuel, rest, _, _ => readValue_word ("false", bool false) (by simp [words]) fuel rest
  | int n, fuel, _, _, hr => readValue_int n fuel hr
  | real x, fuel, _, _, hr => readValue_real x fuel hr
  | str t, fuel, rest, _, _ => readValue_text fuel t rest
  | arr [], _, _, _, _ => rfl
  | arr (item :: items), fuel, rest, hf, _ => by
    rw [length_print_arr] at hf
    obtain ⟨k, rfl⟩ : ∃ k, fuel = k + 2 := ⟨fuel - 2, by omega⟩
    obtain ⟨hs, hb⟩ := skip_printItems item items (CodePoint.ofChar ']' :: rest)
    rw [print_arr]
    exact readValue_items hb hs (readItems_print (item :: items) (by simp) k rest (by omega))
  | obj [], _, _, _, _ => rfl
  | obj (member :: members), fuel, rest, hf, _ => by
    rw [length_print_obj] at hf
    obtain ⟨k, rfl⟩ : ∃ k, fuel = k + 2 := ⟨fuel - 2, by omega⟩
    obtain ⟨hs, hb⟩ := skip_printMembers member members (CodePoint.ofChar '\x7d' :: rest)
    rw [print_obj]
    exact readValue_members hb hs
      (readMembers_print (member :: members) (by simp) k rest (by omega))

theorem readItems_print : (items : List Json) → items ≠ [] → (fuel : Nat) → (rest : Text) →
    2 * (printItems items).length + 1 ≤ fuel + 2 →
      readItems (fuel + 2) (printItems items ++ CodePoint.ofChar ']' :: rest) =
        .ok (rereadItems items, rest)
  | [], hn, _, _, _ => absurd rfl hn
  | [item], _, fuel, rest, hf =>
    readItems_last (readValue_print item fuel _ (Nat.le_of_succ_le_succ hf)
      (endsNumber_cons (by decide) rest))
  | item :: next :: items, _, fuel, rest, hf => by
    have hl := length_print_pos item
    have hc : (", " : Text).length = 2 := rfl
    rw [printItems_cons_cons, List.length_append, List.length_append] at hf
    obtain ⟨k, rfl⟩ : ∃ k, fuel = k + 1 := ⟨fuel - 1, by omega⟩
    rw [printItems_cons_cons, List.append_assoc, List.append_assoc]
    exact readItems_cons
      (readValue_print item (k + 1) _ (by omega) (endsNumber_cons (by decide) _))
      (skip_printItems next items _).1
      (readItems_print (next :: items) (by simp) k rest (by omega))

theorem readMembers_print : (members : List (Text × Json)) → members ≠ [] → (fuel : Nat) →
    (rest : Text) → 2 * (printMembers members).length + 1 ≤ fuel + 2 →
      readMembers (fuel + 2) (printMembers members ++ CodePoint.ofChar '\x7d' :: rest) =
        .ok (rereadMembers members, rest)
  | [], hn, _, _, _ => absurd rfl hn
  | [(name, value)], _, fuel, rest, hf => by
    rw [printMembers_singleton, List.length_append, List.length_append] at hf
    rw [printMembers_singleton, List.append_assoc, List.append_assoc]
    exact readMembers_last (skip_print value _)
      (readValue_print value fuel _ (by omega) (endsNumber_cons (by decide) rest)) name
  | (name, value) :: next :: members, _, fuel, rest, hf => by
    have hl := length_print_pos value
    have hc : (", " : Text).length = 2 := rfl
    rw [printMembers_cons_cons] at hf
    simp only [List.length_append] at hf
    obtain ⟨k, rfl⟩ : ∃ k, fuel = k + 1 := ⟨fuel - 1, by omega⟩
    rw [printMembers_cons_cons]
    simp only [List.append_assoc]
    exact readMembers_cons (skip_print value _)
      (readValue_print value (k + 1) _ (by omega) (endsNumber_cons (by decide) _))
      (skip_printMembers next members _).1
      (readMembers_print (next :: members) (by simp) k rest (by omega)) name

end

theorem skip_blank {blank : Text} (h : ∀ c ∈ blank, isSpace c) : skip blank = [] :=
  List.dropWhile_eq_nil_iff.2 h

theorem endsNumber_blank {blank : Text} (h : ∀ c ∈ blank, isSpace c) : EndsNumber blank := by
  intro c hc
  have hs := h c (List.mem_of_mem_head? hc)
  simp only [isSpace, Bool.or_eq_true, decide_eq_true_eq] at hs
  rcases hs with ((rfl | rfl) | rfl) | rfl <;> decide

/-- Reading undoes printing up to what printing joins, whatever white space follows. -/
theorem read_print (j : Json) {blank : Text} (h : ∀ c ∈ blank, isSpace c) :
    read (j.print ++ blank) = .ok j.reread := by
  obtain ⟨c, tail, hs, -, -, hm⟩ := exists_print j
  have hh : (j.print ++ blank).head? ≠ some 0xFEFF := by
    rw [hs]
    exact fun he => hm (Option.some.inj he)
  have hl : 2 * j.print.length ≤ 2 * (j.print ++ blank).length + 1 + 1 := by
    rw [List.length_append]
    omega
  have hv := readValue_print j _ blank hl (endsNumber_blank h)
  have hd : readDocument (j.print ++ blank) = .ok j.reread := by
    rw [readDocument, if_neg hh, skip_print]
    refine bind_eq_ok_iff.2 ⟨_, hv, ?_⟩
    simp [skip_blank h, pure, Except.pure]
  rw [read, hd]
  rfl

/-! ## Members read -/

theorem lookup?_cons (name : Text) (member : Text × Json) (rest : List (Text × Json)) :
    lookup? name (member :: rest) =
      if member.1 = name then some member.2 else lookup? name rest := by
  by_cases h : member.1 = name <;> simp [lookup?, h]

theorem lookup?_insert_of_ne {name other : Text} (h : other ≠ name) (value : Json)
    (members : List (Text × Json)) :
    lookup? name (insert other value members) = lookup? name members := by
  induction members with
  | nil => simp [insert, lookup?, h]
  | cons member rest ih =>
    obtain ⟨first, old⟩ := member
    by_cases hf : first = other
    · rw [insert, if_pos hf, lookup?_cons, lookup?_cons, if_neg h, if_neg (hf ▸ h)]
    · rw [insert, if_neg hf, lookup?_cons, lookup?_cons, ih]

theorem lookup?_foldl_insert {name : Text} {members : List (Text × Json)}
    (h : ∀ m ∈ members, m.1 ≠ name) (known : List (Text × Json)) :
    lookup? name (members.foldl (fun known m => insert m.1 m.2 known) known) =
      lookup? name known := by
  induction members generalizing known with
  | nil => rfl
  | cons member rest ih =>
    obtain ⟨hm, hr⟩ := List.forall_mem_cons.1 h
    rw [List.foldl_cons, ih hr, lookup?_insert_of_ne hm]

/-- A member is read under its name if no member behind it is read under the same. -/
theorem lookup?_reread {name : Text} (value : Json) (before : List (Text × Json))
    {after : List (Text × Json)} (h : ∀ m ∈ after, joinPairs m.1 ≠ joinPairs name) :
    ∃ members, (obj (before ++ (name, value) :: after)).reread = obj members ∧
      lookup? (joinPairs name) members = some value.reread := by
  refine ⟨_, rfl, ?_⟩
  have ha : ∀ m ∈ after.map fun m => (joinPairs m.1, m.2.reread), m.1 ≠ joinPairs name := by
    intro m hm
    obtain ⟨m', hm', rfl⟩ := List.mem_map.1 hm
    exact h m' hm'
  rw [rereadMembers_eq_map, List.map_append, List.map_cons, List.foldl_append, List.foldl_cons,
    lookup?_foldl_insert ha, lookup?_insert_self]

end BannedCalls.Json
