import BannedCalls.Ban.Config
import BannedCalls.Proofs.FirstFailure
import BannedCalls.Proofs.Text.Split
import BannedCalls.Proofs.Text.Strip

/-!
# The grammar of arguments

An argument is cut at its commas into segments. Each of them spells a pair by a single dot between
two names, or it is at fault; the first fault is the one that counts.
-/

namespace BannedCalls

namespace Text

abbrev comma : CodePoint := ','

abbrev dot : CodePoint := '.'

theorem not_isBlank_dot : ¬ dot.isBlank := by decide

/-- A name as an argument can give it. -/
structure IsName (t : Text) : Prop where
  ne_nil : t ≠ []
  trimmed : t.Trimmed
  comma : comma ∉ t
  dot : dot ∉ t

end Text

open Text

namespace BanConfig

/-- The segment has exactly one dot, and more than blanks on each side of it. The names are what
stands there, without the blanks around it. -/
def Spells (segment : Text) (p : BannedPair) : Prop :=
  segment.count dot = 1 ∧ ∃ left right : Text, segment = left ++ dot :: right ∧
    ¬ left.isBlank ∧ ¬ right.isBlank ∧ p = ⟨left.strip, right.strip⟩

/-- What stands between the commas of an argument, unless it is blank. -/
def segments (argument : Text) : List Text :=
  (splitOn comma argument).filter fun segment => !segment.isBlank

variable {segment argument left right : Text} {p : BannedPair}

/-! ## One segment -/

theorem spells_append_cons (hl : dot ∉ left) (hr : dot ∉ right) :
    Spells (left ++ dot :: right) p ↔
      ¬ left.isBlank ∧ ¬ right.isBlank ∧ p = ⟨left.strip, right.strip⟩ := by
  constructor
  · rintro ⟨hc, left', right', he, hp⟩
    rw [he] at hc
    obtain ⟨hl', hr'⟩ := not_mem_of_count_eq_one hc
    -- Cutting both sides of the equation at the dot takes the names apart.
    have hs := congrArg (splitOn dot) he
    rw [splitOn_append_cons hl hr, splitOn_append_cons hl' hr'] at hs
    obtain ⟨rfl, rfl⟩ : left = left' ∧ right = right' := by simpa using hs
    exact hp
  · intro h
    refine ⟨?_, left, right, rfl, h⟩
    rw [List.count_append, List.count_cons_self, List.count_eq_zero.2 hl, List.count_eq_zero.2 hr]

theorem pairOfPart_of_count_ne_one {part : Text} (h : part.count dot ≠ 1) :
    pairOfPart part = .error (.notDotted part) := by
  unfold pairOfPart
  split
  · next receiver member hs =>
    have hl := length_splitOn dot part
    rw [hs] at hl
    exact absurd (Nat.succ.inj hl).symm h
  · rfl

theorem pairOfEntry_texts (receiver member : Text) :
    pairOfEntry (.arr [.str receiver, .str member]) =
      if receiver.isBlank ∨ member.isBlank then
        .error (.blankName (.arr [.str receiver, .str member]))
      else .ok ⟨receiver.strip, member.strip⟩ := by
  simp [pairOfEntry]

/-- A stripped segment with a single dot is read as if its names stood alone. -/
theorem pairOfPart_strip (hl : dot ∉ left) (hr : dot ∉ right) :
    pairOfPart (left ++ dot :: right).strip =
      if left.isBlank ∨ right.isBlank then
        .error (.blankName (.arr [.str left.stripStart, .str right.stripEnd]))
      else .ok ⟨left.strip, right.strip⟩ := by
  have hl' : dot ∉ left.stripStart := fun h => hl ((stripStart_isSuffix left).subset h)
  have hr' : dot ∉ right.stripEnd := fun h => hr ((stripEnd_isPrefix right).subset h)
  rw [strip_append_cons not_isBlank_dot, pairOfPart, splitOn_append_cons hl' hr']
  simp only [pairOfEntry_texts, isBlank_stripStart, isBlank_stripEnd, strip_stripStart,
    strip_stripEnd]

theorem pairOfPart_strip_eq_ok_iff : pairOfPart segment.strip = .ok p ↔ Spells segment p := by
  by_cases hc : segment.count dot = 1
  · obtain ⟨left, right, rfl, hl, hr⟩ := exists_eq_append_cons hc
    rw [pairOfPart_strip hl hr, spells_append_cons hl hr, ← and_assoc, ← not_or]
    split
    · next hb => exact iff_of_false (by simp) fun h => h.1 hb
    · next hb => exact ⟨fun h => ⟨hb, (Except.ok.inj h).symm⟩, fun h => congrArg _ h.2.symm⟩
  · have hs : segment.strip.count dot ≠ 1 := by rwa [count_strip not_isBlank_dot]
    rw [pairOfPart_of_count_ne_one hs]
    simp [Spells, hc]

/-- The segment spells no pair, and the error says why: because of its dots, or of a name that is
blank. What it quotes is the segment without the blanks around it, or the two parts of that. -/
def Faults (segment : Text) (e : ConfigError) : Prop :=
  (∀ p, ¬ Spells segment p) ∧
    if segment.count dot = 1 then
      ∃ left right : Text, segment.strip = left ++ dot :: right ∧
        e.message = "Ban entry names must be non-empty strings, got [" ++ left.quoted ++ ", " ++
          right.quoted ++ "]"
    else
      e.message = "Invalid ban entry '" ++ segment.strip ++
        "' (expected object.function with exactly one dot)"

theorem faults_of_pairOfPart_strip {e : ConfigError} (h : pairOfPart segment.strip = .error e) :
    Faults segment e := by
  refine ⟨fun p hp => ?_, ?_⟩
  · cases h.symm.trans (pairOfPart_strip_eq_ok_iff.2 hp)
  · split
    · next hc =>
      obtain ⟨left, right, rfl, hl, hr⟩ := exists_eq_append_cons hc
      refine ⟨left.stripStart, stripEnd right, strip_append_cons not_isBlank_dot left right, ?_⟩
      rw [pairOfPart_strip hl hr] at h
      split at h
      · obtain rfl := Except.error.inj h
        have hm : ("Ban entry names must be non-empty strings, got [" : Text) =
            "Ban entry names must be non-empty strings, got " ++ "[" := rfl
        simp only [ConfigError.message, Json.shown, Json.shownItems, hm, List.append_assoc]
      · simp at h
    · next hc =>
      have hs : segment.strip.count dot ≠ 1 := by rwa [count_strip not_isBlank_dot]
      obtain rfl := Except.error.inj ((pairOfPart_of_count_ne_one hs).symm.trans h)
      rfl

/-! ## All segments -/

theorem partsOfArgument_eq (argument : Text) :
    partsOfArgument argument = (segments argument).map strip := by
  rw [partsOfArgument, segments, List.filter_map]
  congr 1
  apply List.filter_congr
  intro piece _
  simp [strip_eq_nil_iff]

theorem mapM_pairOfPart_eq (argument : Text) :
    (partsOfArgument argument).mapM pairOfPart =
      (segments argument).mapM fun segment => pairOfPart segment.strip := by
  rw [partsOfArgument_eq, List.mapM_map]
  rfl

theorem mapM_pairOfPart_eq_ok_iff {xs : List Text} {pairs : List BannedPair} :
    xs.mapM (fun segment => pairOfPart segment.strip) = .ok pairs ↔
      List.Forall₂ Spells xs pairs := by
  simp only [mapM_eq_ok_iff_forall₂, pairOfPart_strip_eq_ok_iff]

theorem pairsOfArgument_eq_ok_iff {pairs : List BannedPair} :
    pairsOfArgument argument = .ok pairs ↔
      segments argument ≠ [] ∧ List.Forall₂ Spells (segments argument) pairs := by
  rw [pairsOfArgument, mapM_pairOfPart_eq, bind_eq_ok_iff]
  constructor
  · rintro ⟨found, hf, h⟩
    split at h
    · simp at h
    · next hne =>
      obtain rfl := Except.ok.inj h
      have hs := mapM_pairOfPart_eq_ok_iff.1 hf
      refine ⟨fun hn => hne ?_, hs⟩
      rw [hn] at hs
      exact List.forall₂_nil_left_iff.1 hs
  · rintro ⟨hne, hs⟩
    refine ⟨pairs, mapM_pairOfPart_eq_ok_iff.2 hs, ?_⟩
    cases pairs with
    | nil => exact absurd (List.forall₂_nil_right_iff.1 hs) hne
    | cons => rfl

theorem exists_pairsOfArgument_iff :
    (∃ pairs, pairsOfArgument argument = .ok pairs) ↔
      segments argument ≠ [] ∧ ∀ segment ∈ segments argument, ∃ p, Spells segment p := by
  simp only [pairsOfArgument_eq_ok_iff, ← mapM_pairOfPart_eq_ok_iff, exists_and_left,
    exists_mapM_eq_ok_iff, pairOfPart_strip_eq_ok_iff]

theorem faults_of_pairsOfArgument {e : ConfigError} (h : pairsOfArgument argument = .error e) :
    segments argument = [] ∧ e = .noEntries ∨
      ∃ before bad after, segments argument = before ++ bad :: after ∧
        (∀ segment ∈ before, ∃ p, Spells segment p) ∧ Faults bad e := by
  rw [pairsOfArgument, mapM_pairOfPart_eq] at h
  rcases bind_eq_error_iff.1 h with hm | ⟨found, hm, h⟩
  · obtain ⟨before, bad, after, hs, hb, he⟩ := mapM_eq_error_iff.1 hm
    refine Or.inr ⟨before, bad, after, hs, fun segment hp => ?_, faults_of_pairOfPart_strip he⟩
    obtain ⟨p, hp⟩ := hb segment hp
    exact ⟨p, pairOfPart_strip_eq_ok_iff.1 hp⟩
  · cases found with
    | nil =>
      refine Or.inl ⟨?_, (Except.error.inj h).symm⟩
      exact List.map_eq_nil_iff.1 (mapM_eq_ok_iff.1 hm)
    | cons p pairs => cases h

theorem comma_not_mem_of_mem_segments (h : segment ∈ segments argument) : comma ∉ segment :=
  (of_mem_splitOn (List.mem_filter.1 h).1).2

theorem isName_strip {t : Text} (hb : ¬ t.isBlank) (hc : comma ∉ t) (hd : dot ∉ t) :
    t.strip.IsName where
  ne_nil := mt strip_eq_nil_iff.1 hb
  trimmed := trimmed_strip t
  comma := fun h => hc ((strip_isInfix t).subset h)
  dot := fun h => hd ((strip_isInfix t).subset h)

theorem isName_of_spells (hc : comma ∉ segment) (h : Spells segment p) :
    p.receiver.IsName ∧ p.member.IsName := by
  obtain ⟨hd, left, right, rfl, hl, hr, rfl⟩ := h
  obtain ⟨hdl, hdr⟩ := not_mem_of_count_eq_one hd
  have hcl : comma ∉ left := fun h => hc (List.mem_append_left _ h)
  have hcr : comma ∉ right := fun h => hc (List.mem_append_right _ (List.mem_cons_of_mem _ h))
  exact ⟨isName_strip hl hcl hdl, isName_strip hr hcr hdr⟩

/-- An argument, which counts as empty if it is missing, is cut at its commas. It gives pairs if
there is more than blanks between them and every segment spells a pair; then it gives these pairs,
in order, by proper names. Otherwise it is the first segment at fault that counts. -/
theorem pairsOfArgument_spells (text : Option Text) :
    let argument := text.getD []
    let pieces := splitOn comma argument
    let segments := pieces.filter fun piece => !piece.isBlank
    let result := pairsOfArgument argument
    (join [comma] pieces = argument ∧ ∀ piece ∈ pieces, comma ∉ piece) ∧
      ((∃ pairs, result = .ok pairs) ↔
        segments ≠ [] ∧ ∀ segment ∈ segments, ∃ p, Spells segment p) ∧
      (∀ pairs, result = .ok pairs → List.Forall₂ Spells segments pairs ∧
        ∀ p ∈ pairs, p.receiver.IsName ∧ p.member.IsName) ∧
      ∀ e, result = .error e → segments = [] ∧ e = .noEntries ∨
        ∃ before bad after, segments = before ++ bad :: after ∧
          (∀ segment ∈ before, ∃ p, Spells segment p) ∧ Faults bad e := by
  intro argument pieces segments result
  refine ⟨⟨join_splitOn _ _, fun piece h => (of_mem_splitOn h).2⟩, exists_pairsOfArgument_iff,
    fun pairs h => ?_, fun e h => faults_of_pairsOfArgument h⟩
  have hs := (pairsOfArgument_eq_ok_iff.1 h).2
  refine ⟨hs, fun p hp => ?_⟩
  obtain ⟨segment, hm, ho⟩ := exists_of_mem_of_mapM_eq_ok (mapM_pairOfPart_eq_ok_iff.2 hs) hp
  exact isName_of_spells (comma_not_mem_of_mem_segments hm) (pairOfPart_strip_eq_ok_iff.1 ho)

/-- Blanks around everything, and two segments that are blank. -/
theorem pairsOfArgument_spells_padded :
    let argument : Text := " a.b ,, c\t.\u3000d ,"
    let pairs : List BannedPair := [⟨"a", "b"⟩, ⟨"c", "d"⟩]
    pairsOfArgument argument = .ok pairs ∧
      List.Forall₂ Spells [" a.b ", " c\t.\u3000d "] pairs ∧
      ∀ p ∈ pairs, p.receiver.IsName ∧ p.member.IsName := by
  intro argument pairs
  have h : pairsOfArgument argument = .ok pairs := rfl
  obtain ⟨-, -, hok, -⟩ := pairsOfArgument_spells (some argument)
  exact ⟨h, hok pairs h⟩

end BanConfig

end BannedCalls
