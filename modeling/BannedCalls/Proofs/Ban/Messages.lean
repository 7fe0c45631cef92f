import BannedCalls.Ban.Config
import BannedCalls.Proofs.FileSystem.Scalar
import BannedCalls.Proofs.FirstFailure
import BannedCalls.Proofs.Json.Line
import BannedCalls.Proofs.Text.Strip

/-!
# Messages about configurations

A message quotes what a configuration holds, so no surrogate half gets into it from there. It takes
over the path of the configuration, or a part of the argument, as it is.
-/

namespace BannedCalls

open Text

theorem Numeral.scalar_plain (x : Numeral) : x.plain.Scalar :=
  (x.typable_write (by decide) (by decide)).scalar

namespace Json

mutual

theorem scalar_shown : (j : Json) → j.shown.Scalar
  | null => scalar_ofString _
  | bool b => by cases b <;> exact scalar_ofString _
  | int n => (typable_ofInt n).scalar
  | real x => Numeral.scalar_plain _
  | str t => scalar_quoted t
  | arr items => by
    simp [shown, scalar_shownItems items]
  | obj members => by
    simp [shown, scalar_shownMembers members]

theorem scalar_shownItems : (items : List Json) → (shownItems items).Scalar
  | [] => scalar_nil
  | [item] => scalar_shown item
  | item :: next :: rest => by
    simp [shownItems, scalar_shown item, scalar_shownItems (next :: rest)]

theorem scalar_shownMembers : (members : List (Text × Json)) → (shownMembers members).Scalar
  | [] => scalar_nil
  | [(name, value)] => by
    simp [shownMembers, scalar_quoted name, scalar_shown value]
  | (name, value) :: next :: rest => by
    simp [shownMembers, scalar_quoted name, scalar_shown value, scalar_shownMembers (next :: rest)]

end

theorem ReadError.scalar_message (e : ReadError) : e.message.Scalar := by
  have hn (n : Nat) : (Text.ofNat n).Scalar := (typable_ofDigits _).scalar
  have hf : e.fault.message.Scalar := by
    cases e.fault <;> exact scalar_ofString _
  simp [message, hf, hn]

end Json

namespace ConfigError

/-- What a message takes over as it is. -/
def verbatim : ConfigError → List Text
  | notDotted part => [part]
  | fileMissing path | notJson path _ | noBanMember path => [Path.shown path]
  | _ => []

theorem scalar_message {e : ConfigError} (h : ∀ t ∈ e.verbatim, t.Scalar) : e.message.Scalar := by
  cases e with
  | notPair entry => simp [message, Json.scalar_shown]
  | blankName entry => simp [message, Json.scalar_shown]
  | notList | noEntries | noConfigValue | noBanValue => exact scalar_ofString _
  | notDotted part => simp [message, h part (by simp [verbatim])]
  | fileMissing path => simp [message, h _ (List.mem_singleton_self _)]
  | notJson path error =>
    simp [message, h _ (List.mem_singleton_self _), error.scalar_message]
  | noBanMember path => simp [message, h _ (List.mem_singleton_self _)]

end ConfigError

namespace BanConfig

open ConfigError

variable {e : ConfigError} {path argument : Text}

theorem verbatim_of_pairOfEntry {entry : Json} (h : pairOfEntry entry = .error e) :
    e.verbatim = [] := by
  unfold pairOfEntry at h
  repeat' split at h
  all_goals first
    | (obtain rfl := Except.error.inj h; rfl)
    | simp at h

theorem verbatim_of_mapM {entries : List Json} (h : entries.mapM pairOfEntry = .error e) :
    e.verbatim = [] := by
  obtain ⟨-, entry, -, -, -, he⟩ := mapM_eq_error_iff.1 h
  exact verbatim_of_pairOfEntry he

theorem verbatim_of_pairsOfOptions {options : Json} (h : pairsOfOptions options = .error e) :
    e.verbatim = [] := by
  unfold pairsOfOptions at h
  split at h
  · simp at h
  · exact verbatim_of_mapM h
  · exact verbatim_of_mapM h
  · obtain rfl := Except.error.inj h
    rfl

theorem verbatim_of_pairOfPart {part : Text} (h : pairOfPart part = .error e) :
    ∀ t ∈ e.verbatim, t = part := by
  unfold pairOfPart at h
  split at h
  · rw [verbatim_of_pairOfEntry h]
    simp
  · obtain rfl := Except.error.inj h
    simp [verbatim]

theorem scalar_of_mem_partsOfArgument (h : argument.Scalar) :
    ∀ part ∈ partsOfArgument argument, part.Scalar := by
  intro part hp
  obtain ⟨piece, hm, rfl⟩ := List.mem_map.1 (List.mem_filter.1 hp).1
  exact (h.of_mem_splitOn _ piece hm).of_subset (strip_isInfix piece).subset

theorem verbatim_of_pairsOfArgument (h : pairsOfArgument argument = .error e) :
    ∀ t ∈ e.verbatim, t ∈ partsOfArgument argument := by
  rcases bind_eq_error_iff.1 h with h | ⟨pairs, -, h⟩
  · obtain ⟨before, part, after, hs, -, hp⟩ := mapM_eq_error_iff.1 h
    intro t ht
    rw [verbatim_of_pairOfPart hp t ht, hs]
    simp
  · split at h
    · obtain rfl := Except.error.inj h
      simp [verbatim]
    · simp at h

theorem verbatim_of_pairsOfDocument {document : Json}
    (h : pairsOfDocument path document = .error e) : ∀ t ∈ e.verbatim, t = Path.shown path := by
  unfold pairsOfDocument at h
  split at h
  · split at h
    · rw [verbatim_of_pairsOfOptions h]
      simp
    · obtain rfl := Except.error.inj h
      simp [verbatim]
  · rw [verbatim_of_pairsOfOptions h]
    simp

theorem verbatim_of_pairsOfFile {bytes : List UInt8}
    (h : pairsOfFile path bytes = .error (.config e)) :
    ∀ t ∈ e.verbatim, t = Path.shown path := by
  unfold pairsOfFile at h
  split at h
  · split at h
    · obtain rfl := LoadError.config.inj (Except.error.inj h)
      simp [verbatim]
    · next document _ =>
      cases hd : pairsOfDocument path document with
      | ok pairs => simp [hd, mapError_ok] at h
      | error found =>
        obtain rfl : found = e := by simpa [hd, mapError_error] using h
        exact verbatim_of_pairsOfDocument hd
  · simp at h

theorem verbatim_of_load {fs : FileSystem} (h : load fs path = .error (.config e)) :
    ∀ t ∈ e.verbatim, t = Path.shown (Path.shown path) := by
  simp only [load] at h
  split at h
  · exact verbatim_of_pairsOfFile h
  · split at h
    · simp at h
    · obtain rfl := LoadError.config.inj (Except.error.inj h)
      simp [verbatim]

/-- Whatever a configuration file holds, what is said about it is scalar if its path is. -/
theorem scalar_message_of_load {fs : FileSystem} (hp : path.Scalar)
    (h : load fs path = .error (.config e)) : e.message.Scalar := by
  refine scalar_message fun t ht => ?_
  rw [verbatim_of_load h t ht]
  exact Path.scalar_shown (Path.scalar_shown hp)

theorem scalar_message_of_pairsOfArgument (ha : argument.Scalar)
    (h : pairsOfArgument argument = .error e) : e.message.Scalar :=
  scalar_message fun t ht =>
    scalar_of_mem_partsOfArgument ha t (verbatim_of_pairsOfArgument h t ht)

end BanConfig

end BannedCalls
