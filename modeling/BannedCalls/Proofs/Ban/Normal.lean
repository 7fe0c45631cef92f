import BannedCalls.Proofs.Ban.Accepted
import BannedCalls.Proofs.Ban.Messages
import BannedCalls.Proofs.Json.Faithful

/-!
# Normal pairs

A pair is normal if its names are stripped, not empty and unpaired. All pairs of options are: those
of a configuration, whatever its texts escape, and those of a scalar argument. As an entry of a
configuration, a normal pair stands for itself.
-/

namespace BannedCalls

open Text

structure BannedPair.Normal (p : BannedPair) : Prop where
  named : p.Named
  stripped : p.receiver.strip = p.receiver ∧ p.member.strip = p.member
  unpaired : p.receiver.Unpaired ∧ p.member.Unpaired

namespace BanConfig

variable {p : BannedPair} {pairs : List BannedPair} {path argument : Text}

theorem pairOfEntry_toJson (h : p.Normal) : pairOfEntry p.toJson = .ok p := by
  have hr : ¬ p.receiver.isBlank := by
    rw [← strip_eq_nil_iff, h.stripped.1]
    exact h.named.1
  have hm : ¬ p.member.isBlank := by
    rw [← strip_eq_nil_iff, h.stripped.2]
    exact h.named.2
  simp [pairOfEntry, BannedPair.toJson, hr, hm, h.stripped]

/-- The entry of a pair holds two texts that the names are stripped of. -/
theorem texts_of_pairOfEntry {entry : Json} (h : pairOfEntry entry = .ok p) :
    ∃ receiver member, entry = .arr [.str receiver, .str member] ∧
      p = ⟨receiver.strip, member.strip⟩ := by
  unfold pairOfEntry at h
  split at h
  · split at h
    · next receiver member =>
      split at h
      · simp at h
      · exact ⟨receiver, member, rfl, (Except.ok.inj h).symm⟩
    · simp at h
  · simp at h

theorem normal_of_pairOfEntry {receiver member : Text} (hr : receiver.Unpaired)
    (hm : member.Unpaired) (h : pairOfEntry (.arr [.str receiver, .str member]) = .ok p) :
    p.Normal := by
  obtain ⟨r, m, he, rfl⟩ := texts_of_pairOfEntry h
  obtain ⟨rfl, rfl⟩ : receiver = r ∧ member = m := by simpa using he
  exact ⟨named_of_pairOfEntry h, ⟨strip_strip _, strip_strip _⟩,
    hr.of_infix (strip_isInfix _), hm.of_infix (strip_isInfix _)⟩

theorem normal_of_faithful {entry : Json} (hf : entry.Faithful)
    (h : pairOfEntry entry = .ok p) : p.Normal := by
  obtain ⟨receiver, member, rfl, -⟩ := texts_of_pairOfEntry h
  cases hf with
  | arr hi =>
    obtain ⟨hr, hm⟩ := List.forall_mem_cons.1 hi
    cases hr with
    | str hr =>
      cases List.forall_mem_singleton.1 hm with
      | str hm => exact normal_of_pairOfEntry hr hm h

theorem normal_of_pairsOfOptions {options : Json} (hf : options.Faithful)
    (h : pairsOfOptions options = .ok pairs) : ∀ p ∈ pairs, p.Normal := by
  have hall {entries : List Json} (he : ∀ entry ∈ entries, entry.Faithful)
      (hp : entries.mapM pairOfEntry = .ok pairs) : ∀ p ∈ pairs, p.Normal := by
    intro p hm
    obtain ⟨entry, hi, hp⟩ := exists_of_mem_of_mapM_eq_ok hp hm
    exact normal_of_faithful (he entry hi) hp
  unfold pairsOfOptions at h
  split at h
  · obtain rfl := Except.ok.inj h
    simp
  · cases hf with
    | arr hi => exact hall (List.forall_mem_cons.1 hi).2 h
  · cases hf with
    | arr hi => exact hall hi h
  · simp at h

theorem normal_of_pairsOfDocument {document : Json} (hf : document.Faithful)
    (h : pairsOfDocument path document = .ok pairs) : ∀ p ∈ pairs, p.Normal := by
  unfold pairsOfDocument at h
  split at h
  · split at h
    · next members options hl =>
      obtain ⟨member, hm, rfl⟩ := Option.map_eq_some_iff.1 hl
      cases hf with
      | obj _ _ hv => exact normal_of_pairsOfOptions (hv _ (List.mem_of_find?_eq_some hm)) h
    · simp at h
  · exact normal_of_pairsOfOptions hf h

theorem normal_of_load {fs : FileSystem} (h : load fs path = .ok pairs) :
    ∀ p ∈ pairs, p.Normal := by
  simp only [load, pairsOfFile] at h
  split at h
  · split at h
    · split at h
      · simp at h
      · next document hr =>
        cases hd : pairsOfDocument (Path.shown path) document with
        | error e => simp [hd, mapError_error] at h
        | ok found =>
          obtain rfl := Except.ok.inj (hd ▸ h)
          exact normal_of_pairsOfDocument (Json.faithful_of_read hr) hd
    · simp at h
  · simp at h

theorem normal_of_pairsOfArgument (ha : argument.Scalar)
    (h : pairsOfArgument argument = .ok pairs) : ∀ p ∈ pairs, p.Normal := by
  obtain ⟨found, hf, h⟩ := bind_eq_ok_iff.1 h
  split at h
  · simp at h
  · obtain rfl := Except.ok.inj h
    intro p hp
    obtain ⟨part, hm, he⟩ := exists_of_mem_of_mapM_eq_ok hf hp
    have hs := (scalar_of_mem_partsOfArgument ha part hm).of_mem_splitOn '.'
    unfold pairOfPart at he
    split at he
    · next receiver member hl =>
      rw [hl] at hs
      obtain ⟨hr, hm⟩ := List.forall_mem_cons.1 hs
      exact normal_of_pairOfEntry hr.unpaired (List.forall_mem_singleton.1 hm).unpaired he
    · simp at he

end BanConfig

end BannedCalls
