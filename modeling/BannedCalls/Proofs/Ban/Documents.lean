import BannedCalls.Proofs.Ban.Normal

/-!
# Printed lists as configurations

A printed list of normal pairs is a configuration of just these pairs: as it is, behind the truth
value that switches it on, and as the `ban` member of an object, whatever else the object holds.
-/

namespace BannedCalls

/-- Where a printed list of pairs stands in a configuration. -/
inductive ListPlace
  | alone
  | switched
  | member (before after : List (Text × Json))

namespace ListPlace

def document (pairs : List BannedPair) : ListPlace → Json
  | alone => .arr (pairs.map BannedPair.toJson)
  | switched => .arr (.bool true :: pairs.map BannedPair.toJson)
  | member before after =>
    .obj (before ++ (("ban" : Text), Json.arr (pairs.map BannedPair.toJson)) :: after)

/-- No other member has the name of the list. -/
def Sole : ListPlace → Prop
  | alone | switched => True
  | member before after => ∀ m ∈ before ++ after, m.1 ≠ "ban"

end ListPlace

namespace BanConfig

variable {pairs : List BannedPair} {path : Text}

theorem faithful_toJson {p : BannedPair} (h : p.Normal) : p.toJson.Faithful := by
  refine .arr fun item hi => ?_
  rcases List.mem_pair.1 hi with rfl | rfl
  · exact .str h.unpaired.1
  · exact .str h.unpaired.2

theorem faithful_entries (h : ∀ p ∈ pairs, p.Normal) :
    ∀ entry ∈ pairs.map BannedPair.toJson, entry.Faithful := by
  intro entry he
  obtain ⟨p, hp, rfl⟩ := List.mem_map.1 he
  exact faithful_toJson (h p hp)

theorem mapM_pairOfEntry (h : ∀ p ∈ pairs, p.Normal) :
    (pairs.map BannedPair.toJson).mapM pairOfEntry = .ok pairs := by
  rw [mapM_eq_ok_iff, List.map_map]
  exact List.map_congr_left fun p hp => pairOfEntry_toJson (h p hp)

theorem pairsOfOptions_list (h : ∀ p ∈ pairs, p.Normal) :
    pairsOfOptions (.arr (pairs.map BannedPair.toJson)) = .ok pairs := by
  have hm := mapM_pairOfEntry h
  cases pairs with
  | nil => rfl
  | cons p pairs => exact hm

theorem joinPairs_ne_ban {name : Text} (h : name ≠ "ban") :
    Json.joinPairs name ≠ Json.joinPairs "ban" := by
  have hb : Json.joinPairs "ban" = "ban" := rfl
  intro he
  rw [hb] at he
  have ht : ("ban" : Text).Typable := by decide
  have hl : ∀ c ∈ ("ban" : Text), c.val < 0x10000 := fun c hc => (ht c hc).2.trans_lt (by decide)
  exact h (he ▸ (Json.joinPairs_of_lt (he ▸ hl)).symm)

/-- What a printed list is read as stands for its pairs, wherever it was put. -/
theorem pairsOfDocument_reread (h : ∀ p ∈ pairs, p.Normal) {place : ListPlace} (hs : place.Sole)
    (path : Text) : pairsOfDocument path (place.document pairs).reread = .ok pairs := by
  cases place with
  | alone =>
    rw [ListPlace.document, Json.reread_of_faithful (.arr (faithful_entries h))]
    exact pairsOfOptions_list h
  | switched =>
    have hf : (Json.arr (.bool true :: pairs.map BannedPair.toJson)).Faithful :=
      .arr (List.forall_mem_cons.2 ⟨.bool true, faithful_entries h⟩)
    rw [ListPlace.document, Json.reread_of_faithful hf]
    exact mapM_pairOfEntry h
  | member before after =>
    obtain ⟨members, hr, hl⟩ := @Json.lookup?_reread "ban" (.arr (pairs.map BannedPair.toJson))
      before after fun m hm => joinPairs_ne_ban (hs m (List.mem_append_right _ hm))
    have hl' : Json.lookup? "ban" members = some (.arr (pairs.map BannedPair.toJson)) := by
      rw [← Json.reread_of_faithful (.arr (faithful_entries h))]
      exact hl
    simp only [ListPlace.document, hr, pairsOfDocument, hl']
    exact pairsOfOptions_list h

theorem pairsOfFile_printed (h : ∀ p ∈ pairs, p.Normal) {place : ListPlace} (hs : place.Sole)
    (path : Text) :
    pairsOfFile path (Utf8.encode (place.document pairs).print) = .ok pairs := by
  have ht := Json.typable_print (place.document pairs)
  have hr := @Json.read_print (place.document pairs) [] (by simp)
  rw [List.append_nil] at hr
  simp only [pairsOfFile, Text.decode_encode_of_typable ht, Text.unifyNewlines_of_typable ht, hr,
    pairsOfDocument_reread h hs, mapError_ok]

end BanConfig

end BannedCalls
