import BannedCalls.Proofs.Ban.Accepted

/-!
# Values as pairs

A value makes a pair when it is a list, a text or an object of exactly two members that are both
names. Any other value is refused, for a reason that depends on how its members fail: there are
none to be had, there are too few or too many of them, or one of the two is no name.
-/

namespace BannedCalls

namespace Json

/-- A text that is not empty. -/
def IsName (v : Json) : Prop := ∃ t : Text, t ≠ [] ∧ v = .str t

/-- The value has exactly two members, both of them names: those of the pair. -/
inductive Names : Json → BannedPair → Prop
  | list {r m : Text} (hr : r ≠ []) (hm : m ≠ []) : Names (.arr [.str r, .str m]) ⟨r, m⟩
  | text (r m : CodePoint) : Names (.str [r, m]) ⟨[r], [m]⟩
  | object {r m : Text} (v w : Json) (hr : r ≠ []) (hm : m ≠ []) :
    Names (.obj [(r, v), (m, w)]) ⟨r, m⟩

/-- The value makes no pair, for the reason that the error gives. -/
inductive Refused : Json → PairError → Prop
  | scalar {v : Json} (hv : v.members? = none) : Refused v (.notSequence v.typeName)
  | tooFew {v : Json} {ms : List Json} (hv : v.members? = some ms) (hl : ms.length < 2) :
    Refused v (.tooFew ms.length)
  | tooMany {v : Json} {ms : List Json} (hv : v.members? = some ms) (hl : 2 < ms.length) :
    Refused v .tooMany
  | badName {v r m : Json} (hv : v.members? = some [r, m]) (hn : ¬ (r.IsName ∧ m.IsName)) :
    Refused v (.badName (.value v))

theorem Names.named {v : Json} {p : BannedPair} (h : v.Names p) : p.Named := by
  cases h with
  | list hr hm => exact ⟨hr, hm⟩
  | text r m => exact ⟨List.cons_ne_nil r [], List.cons_ne_nil m []⟩
  | object _ _ hr hm => exact ⟨hr, hm⟩

theorem names_of_members {v : Json} {p : BannedPair}
    (hv : v.members? = some [.str p.receiver, .str p.member]) (hn : p.Named) : v.Names p := by
  obtain ⟨r, m⟩ := p
  obtain ⟨hr, hm⟩ := hn
  cases v with
  | arr items =>
    obtain rfl : items = [.str r, .str m] := Option.some.inj hv
    exact .list hr hm
  | str t =>
    have ht : t.map (fun c => Json.str [c]) = [.str r, .str m] := Option.some.inj hv
    match t, ht with
    | [c, d], ht =>
      simp only [List.map_cons, List.map_nil, List.cons.injEq, Json.str.injEq, and_true] at ht
      obtain ⟨rfl, rfl⟩ := ht
      exact .text c d
  | obj members =>
    have ho : members.map (fun member => Json.str member.1) = [.str r, .str m] :=
      Option.some.inj hv
    match members, ho with
    | [(r', x), (m', y)], ho =>
      simp only [List.map_cons, List.map_nil, List.cons.injEq, Json.str.injEq, and_true] at ho
      obtain ⟨rfl, rfl⟩ := ho
      exact .object x y hr hm
  | null => cases hv
  | bool value => cases hv
  | int value => cases hv
  | real value => cases hv

theorem names_or_refused (v : Json) : (∃ p, v.Names p) ∨ ∃ e, v.Refused e := by
  cases hv : v.members? with
  | none => exact Or.inr ⟨_, .scalar hv⟩
  | some ms =>
    match ms, hv with
    | [], hv => exact Or.inr ⟨_, .tooFew hv Nat.two_pos⟩
    | [_], hv => exact Or.inr ⟨_, .tooFew hv Nat.one_lt_two⟩
    | [r, m], hv =>
      by_cases hn : r.IsName ∧ m.IsName
      · obtain ⟨⟨t, ht, rfl⟩, u, hu, rfl⟩ := hn
        exact Or.inl ⟨⟨t, u⟩, names_of_members hv ⟨ht, hu⟩⟩
      · exact Or.inr ⟨_, .badName hv hn⟩
    | _ :: _ :: _ :: rest, hv => exact Or.inr ⟨_, .tooMany hv (by simp)⟩

variable {v : Json} {p : BannedPair} {e : PairError}

theorem Names.pair_eq (h : v.Names p) : (Offer.value v).pair = .ok p := by
  refine Offer.pair_of_writes ?_ h.named
  cases h <;> rfl

theorem Refused.pair_eq (h : v.Refused e) : (Offer.value v).pair = .error e := by
  cases h with
  | scalar hv =>
    rw [Offer.pair, Offer.members, hv]
    rfl
  | @tooFew ms hv hl =>
    rw [Offer.pair, Offer.members, hv]
    rcases ms with _ | ⟨_, _ | ⟨_, rest⟩⟩
    · rfl
    · rfl
    · simp only [List.length_cons] at hl
      omega
  | @tooMany ms hv hl =>
    rw [Offer.pair, Offer.members, hv]
    rcases ms with _ | ⟨_, _ | ⟨_, _ | ⟨_, rest⟩⟩⟩
    · simp at hl
    · simp at hl
    · simp at hl
    · rfl
  | @badName r m hv hn =>
    rw [Offer.pair, Offer.members, hv]
    cases r with
    | str t =>
      cases m with
      | str u =>
        refine if_pos (Decidable.byContradiction fun hb => hn ?_)
        obtain ⟨ht, hu⟩ := not_or.1 hb
        exact ⟨⟨t, ht, rfl⟩, u, hu, rfl⟩
      | _ => rfl
    | _ => rfl

theorem pair_eq_ok_iff : (Offer.value v).pair = .ok p ↔ v.Names p := by
  refine ⟨fun h => ?_, Names.pair_eq⟩
  rcases names_or_refused v with ⟨q, hq⟩ | ⟨e, he⟩
  · obtain rfl := Except.ok.inj (hq.pair_eq.symm.trans h)
    exact hq
  · exact absurd (he.pair_eq.symm.trans h) nofun

theorem pair_eq_error_iff : (Offer.value v).pair = .error e ↔ v.Refused e := by
  refine ⟨fun h => ?_, Refused.pair_eq⟩
  rcases names_or_refused v with ⟨q, hq⟩ | ⟨e', he⟩
  · exact absurd (hq.pair_eq.symm.trans h) nofun
  · obtain rfl := Except.error.inj (he.pair_eq.symm.trans h)
    exact he

/-! ## Values one after the other -/

theorem mapM_pair_eq_ok_iff {members : List Json} {pairs : List BannedPair} :
    members.mapM (fun w => (Offer.value w).pair) = .ok pairs ↔
      List.Forall₂ Json.Names members pairs := by
  simp only [mapM_eq_ok_iff_forall₂, pair_eq_ok_iff]

theorem mapM_pair_eq_error_iff {members : List Json} {e : PairError} :
    members.mapM (fun w => (Offer.value w).pair) = .error e ↔
      ∃ before bad after, members = before ++ bad :: after ∧
        (∀ w ∈ before, ∃ p, w.Names p) ∧ bad.Refused e := by
  simp only [mapM_eq_error_iff, pair_eq_ok_iff, pair_eq_error_iff]

end Json

end BannedCalls
