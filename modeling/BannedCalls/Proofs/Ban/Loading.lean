import BannedCalls.Ban.Config
import BannedCalls.Proofs.FirstFailure

/-!
# Loading configurations

Whatever a configuration holds, reading it gives pairs or a fault of the configuration. Two failures
come before that: a directory cannot be read, and a file that is no UTF-8 has no text.
-/

namespace BannedCalls

theorem FileSystem.contents?_of_isDirectory {fs : FileSystem} {path : Text}
    (h : fs.isDirectory path) : fs.contents? path = none := by
  simp only [isDirectory, isFile, Bool.and_eq_true, decide_eq_true_iff, Bool.not_eq_true',
    Bool.and_eq_false_iff, decide_eq_false_iff_not] at h
  obtain ⟨⟨hp, hf⟩, -⟩ := h
  rcases hf with hf | hf
  · exact absurd hp hf
  · exact Option.not_isSome_iff_eq_none.1 (Bool.eq_false_iff.1 hf)

namespace BanConfig

variable {fs : FileSystem} {path : Text} {bytes : List UInt8}

/-- The path of a configuration names a directory, or a file that is no UTF-8. -/
def Unreadable (fs : FileSystem) (path : Text) : Prop :=
  fs.isDirectory (Path.shown path) ∨
    ∃ bytes, fs.contents? (Path.shown path) = some bytes ∧ Utf8.decode bytes = none

/-- There are pairs, or there is a fault of the configuration. -/
def Settled {α : Type} (result : Except LoadError α) : Prop :=
  (∃ a, result = .ok a) ∨ ∃ e, result = .error (.config e)

theorem settled_error_iff {α : Type} {e : LoadError} :
    Settled (.error e : Except LoadError α) ↔ ∃ c, e = .config c := by
  simp [Settled]

theorem settled_mapError (result : Except ConfigError (List BannedPair)) :
    Settled (result.mapError .config) := by
  cases result with
  | error e => exact Or.inr ⟨e, rfl⟩
  | ok pairs => exact Or.inl ⟨pairs, rfl⟩

theorem pairsOfFile_of_not_utf8 (h : Utf8.decode bytes = none) :
    pairsOfFile path bytes = .error .notUtf8 := by
  simp [pairsOfFile, h]

theorem settled_pairsOfFile {text : Text} (h : Utf8.decode bytes = some text) :
    Settled (pairsOfFile path bytes) := by
  simp only [pairsOfFile, h]
  cases Json.read text.unifyNewlines with
  | error e => exact Or.inr ⟨_, rfl⟩
  | ok document => exact settled_mapError _

theorem load_of_directory (h : fs.isDirectory (Path.shown path)) :
    load fs path = .error .isDirectory := by
  simp [load, FileSystem.contents?_of_isDirectory h, h]

theorem load_of_not_utf8 (hc : fs.contents? (Path.shown path) = some bytes)
    (hd : Utf8.decode bytes = none) : load fs path = .error .notUtf8 := by
  simp [load, hc, pairsOfFile_of_not_utf8 hd]

theorem settled_load_iff : Settled (load fs path) ↔ ¬ Unreadable fs path := by
  constructor
  · rintro hs (hd | ⟨bytes, hc, hd⟩)
    · simp [Settled, load_of_directory hd] at hs
    · simp [Settled, load_of_not_utf8 hc hd] at hs
  · intro hu
    obtain ⟨hd, hc⟩ := not_or.1 hu
    cases hb : fs.contents? (Path.shown path) with
    | none =>
      refine Or.inr ⟨.fileMissing (Path.shown path), ?_⟩
      simp [load, hb, hd]
    | some bytes =>
      cases ht : Utf8.decode bytes with
      | none => exact absurd ⟨bytes, hb, ht⟩ hc
      | some text =>
        have hl : load fs path = pairsOfFile (Path.shown path) bytes := by simp [load, hb]
        rw [hl]
        exact settled_pairsOfFile ht

end BanConfig

end BannedCalls
