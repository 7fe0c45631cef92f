import BannedCalls.Call.Shape

/-!
# Wrappers

What unwrapping does to a cursor, case by case, and the induction along its wrappers.
-/

namespace BannedCalls.Cursor

variable {info : CursorInfo}

/-- What is shown of a cursor may be assumed of its only child. -/
@[elab_as_elim]
theorem wrapper_induction {motive : Cursor → Prop}
    (node : ∀ info children, (∀ inner, children = [inner] → motive inner) →
      motive (node info children)) (c : Cursor) : motive c :=
  @Cursor.rec motive (fun children => ∀ inner, children = [inner] → motive inner) node
    (fun inner h => absurd h (List.cons_ne_nil inner []).symm)
    (fun _ _ hf _ _ h => (List.cons.inj h).1 ▸ hf) c

theorem unwrap_of_not_unexposed (h : info.kind ≠ .unexposedExpr) (children : List Cursor) :
    (node info children).unwrap = some (node info children, 0) := by
  unfold unwrap
  exact if_neg h

theorem unwrap_singleton (h : info.kind = .unexposedExpr) {inner : Cursor}
    (hs : inner.info.extent.sameOffsets info.extent) :
    (node info [inner]).unwrap = inner.unwrap.map fun found => (found.1, found.2 + 1) := by
  rw [unwrap, if_pos h]
  exact if_pos hs

theorem unwrap_singleton_of_not_sameOffsets (h : info.kind = .unexposedExpr) {inner : Cursor}
    (hs : ¬ inner.info.extent.sameOffsets info.extent) : (node info [inner]).unwrap = none := by
  rw [unwrap, if_pos h]
  exact if_neg hs

theorem unwrap_of_length_ne_one (h : info.kind = .unexposedExpr) {children : List Cursor}
    (hl : children.length ≠ 1) : (node info children).unwrap = none := by
  match children with
  | [] | _ :: _ :: _ =>
    unfold unwrap
    exact if_pos h
  | [_] => exact absurd rfl hl

/-- A wrapper that can be taken off has a single child, of the same extent. -/
theorem eq_singleton_of_unwrap (h : info.kind = .unexposedExpr) {children : List Cursor}
    {found : Cursor × Nat} (hu : (node info children).unwrap = some found) :
    ∃ inner, children = [inner] ∧ inner.info.extent.sameOffsets info.extent := by
  by_cases hl : children.length = 1
  · obtain ⟨inner, rfl⟩ := List.length_eq_one_iff.1 hl
    by_cases hs : inner.info.extent.sameOffsets info.extent
    · exact ⟨inner, rfl, hs⟩
    · simp [unwrap_singleton_of_not_sameOffsets h hs] at hu
  · simp [unwrap_of_length_ne_one h hl] at hu

/-- Of two cursors with the same data the first unwraps to what the second does, if that is true of
what they wrap. -/
theorem map_unwrap_congr {cs ds : List Cursor} (hl : ds.length = cs.length)
    (h : info.kind = .unexposedExpr → ∀ c d, cs = [c] → ds = [d] →
      d.info.extent.sameOffsets info.extent = c.info.extent.sameOffsets info.extent ∧
        d.unwrap.map (·.1.info) = c.unwrap.map (·.1.info)) :
    (node info ds).unwrap.map (·.1.info) = (node info cs).unwrap.map (·.1.info) := by
  by_cases hu : info.kind = .unexposedExpr
  · by_cases hc : cs.length = 1
    · obtain ⟨c, rfl⟩ := List.length_eq_one_iff.1 hc
      obtain ⟨d, rfl⟩ := List.length_eq_one_iff.1 (hl.trans hc)
      obtain ⟨hs, hm⟩ := h hu c d rfl rfl
      by_cases hw : c.info.extent.sameOffsets info.extent
      · rw [unwrap_singleton hu hw, unwrap_singleton hu (hs.trans hw), Option.map_map,
          Option.map_map]
        exact hm
      · rw [unwrap_singleton_of_not_sameOffsets hu hw,
          unwrap_singleton_of_not_sameOffsets hu (by rwa [hs])]
    · rw [unwrap_of_length_ne_one hu hc, unwrap_of_length_ne_one hu (by rwa [hl])]
  · rw [unwrap_of_not_unexposed hu, unwrap_of_not_unexposed hu]
    rfl

end BannedCalls.Cursor
