import BannedCalls.Ban.Config
import BannedCalls.Proofs.FirstFailure

/-!
# Accepted pairs

A pair is named when neither of its names is empty. Every pair that a configuration file or an
argument yields is named, and a ban list takes any series of named pairs, however they are offered.
-/

namespace BannedCalls

def BannedPair.Named (p : BannedPair) : Prop := p.receiver ≠ [] ∧ p.member ≠ []

instance : DecidablePred BannedPair.Named := fun p =>
  inferInstanceAs (Decidable (p.receiver ≠ [] ∧ p.member ≠ []))

/-- The offer has the two names of the pair as its members. -/
def Offer.Writes (offer : Offer) (p : BannedPair) : Prop :=
  offer.members = .ok [.str p.receiver, .str p.member]

theorem Offer.pair_of_writes {offer : Offer} {p : BannedPair} (hw : offer.Writes p)
    (hn : p.Named) : offer.pair = .ok p := by
  have hw' : offer.members = .ok [.str p.receiver, .str p.member] := hw
  have hn' : ¬ (p.receiver = [] ∨ p.member = []) := not_or.2 hn
  rw [Offer.pair, hw']
  exact if_neg hn'

theorem Offer.map_pair_of_writes {offers : List Offer} {pairs : List BannedPair}
    (hw : offers.map Offer.members = pairs.map fun p => .ok [.str p.receiver, .str p.member])
    (hn : ∀ p ∈ pairs, p.Named) : offers.map Offer.pair = pairs.map .ok := by
  induction offers generalizing pairs with
  | nil =>
    have hp : pairs = [] := by simpa using hw.symm
    rw [hp]
    rfl
  | cons offer offers ih =>
    cases pairs with
    | nil => simp at hw
    | cons p pairs =>
      obtain ⟨ho, hw⟩ := List.cons.inj hw
      obtain ⟨hp, hn⟩ := List.forall_mem_cons.1 hn
      rw [List.map_cons, List.map_cons, Offer.pair_of_writes ho hp, ih hw hn]

namespace BanList

/-- A series of offers is taken whole, or is refused for the first that makes no pair. -/
theorem foldlM_add (list : BanList) (offers : List Offer) :
    offers.foldlM add list = (offers.mapM Offer.pair).map fun pairs => ⟨list.entries ++ pairs⟩ := by
  induction offers generalizing list with
  | nil => simp [pure, Except.pure, Except.map]
  | cons offer offers ih =>
    rw [List.foldlM_cons, List.mapM_cons, add]
    cases offer.pair with
    | error e => rfl
    | ok p =>
      apply (ih ⟨list.entries ++ [p]⟩).trans
      cases offers.mapM Offer.pair with
      | error e => rfl
      | ok pairs =>
        exact congrArg (Except.ok ∘ BanList.mk) (List.append_assoc list.entries [p] pairs)

theorem ofOffers_eq (offers : List Offer) :
    ofOffers offers = (offers.mapM Offer.pair).map BanList.mk := foldlM_add empty offers

theorem ofOffers_of_writes {offers : List Offer} {pairs : List BannedPair}
    (hw : offers.map Offer.members = pairs.map fun p => .ok [.str p.receiver, .str p.member])
    (hn : ∀ p ∈ pairs, p.Named) : ofOffers offers = .ok ⟨pairs⟩ := by
  rw [ofOffers_eq, mapM_eq_ok_iff.2 (Offer.map_pair_of_writes hw hn)]
  rfl

theorem ofOffers_offer {pairs : List BannedPair} (hn : ∀ p ∈ pairs, p.Named) :
    ofOffers (pairs.map BannedPair.offer) = .ok ⟨pairs⟩ := by
  refine ofOffers_of_writes ?_ hn
  rw [List.map_map]
  rfl

end BanList

namespace BanConfig

theorem named_of_pairOfEntry {entry : Json} {p : BannedPair} (h : pairOfEntry entry = .ok p) :
    p.Named := by
  unfold pairOfEntry at h
  split at h
  · split at h
    · split at h
      · simp at h
      · next r m hb =>
        obtain rfl := Except.ok.inj h
        simp only [Bool.or_eq_true, not_or] at hb
        exact ⟨mt Text.strip_eq_nil_iff.1 hb.1, mt Text.strip_eq_nil_iff.1 hb.2⟩
    · simp at h
  · simp at h

theorem named_of_mapM {α : Type} {f : α → Except ConfigError BannedPair}
    (hf : ∀ x p, f x = .ok p → p.Named) {xs : List α} {pairs : List BannedPair}
    (h : xs.mapM f = .ok pairs) : ∀ p ∈ pairs, p.Named := by
  intro p hp
  obtain ⟨x, -, hx⟩ := exists_of_mem_of_mapM_eq_ok h hp
  exact hf x p hx

theorem named_of_pairsOfOptions {options : Json} {pairs : List BannedPair}
    (h : pairsOfOptions options = .ok pairs) : ∀ p ∈ pairs, p.Named := by
  unfold pairsOfOptions at h
  split at h
  · obtain rfl := Except.ok.inj h
    simp
  · exact named_of_mapM (fun _ _ => named_of_pairOfEntry) h
  · exact named_of_mapM (fun _ _ => named_of_pairOfEntry) h
  · simp at h

theorem named_of_pairOfPart {part : Text} {p : BannedPair} (h : pairOfPart part = .ok p) :
    p.Named := by
  unfold pairOfPart at h
  split at h
  · exact named_of_pairOfEntry h
  · simp at h

theorem named_of_pairsOfArgument {argument : Text} {pairs : List BannedPair}
    (h : pairsOfArgument argument = .ok pairs) : ∀ p ∈ pairs, p.Named := by
  obtain ⟨found, hf, h⟩ := bind_eq_ok_iff.1 h
  have hn := named_of_mapM (fun _ _ => named_of_pairOfPart) hf
  split at h
  · simp at h
  · obtain rfl := Except.ok.inj h
    exact hn

theorem named_of_pairsOfDocument {path : Text} {document : Json} {pairs : List BannedPair}
    (h : pairsOfDocument path document = .ok pairs) : ∀ p ∈ pairs, p.Named := by
  unfold pairsOfDocument at h
  split at h
  · split at h
    · exact named_of_pairsOfOptions h
    · simp at h
  · exact named_of_pairsOfOptions h

theorem named_of_pairsOfFile {path : Text} {bytes : List UInt8} {pairs : List BannedPair}
    (h : pairsOfFile path bytes = .ok pairs) : ∀ p ∈ pairs, p.Named := by
  unfold pairsOfFile at h
  split at h
  · split at h
    · simp at h
    · next document _ =>
      cases hd : pairsOfDocument path document with
      | error e => simp [hd, mapError_error] at h
      | ok found =>
        obtain rfl := Except.ok.inj (hd ▸ h)
        exact named_of_pairsOfDocument hd
  · simp at h

theorem named_of_load {fs : FileSystem} {path : Text} {pairs : List BannedPair}
    (h : load fs path = .ok pairs) : ∀ p ∈ pairs, p.Named := by
  simp only [load] at h
  split at h
  · exact named_of_pairsOfFile h
  · simp at h

end BanConfig

end BannedCalls
