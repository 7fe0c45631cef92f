import BannedCalls.Proofs.Analysis.Cases

/-!
# Reports read back

The items and the timing of a report can be read back from its JSON, so nothing that text shows of
a report is missing there.
-/

namespace BannedCalls

namespace Json

def items? : Json → Option (List Json)
  | arr items => some items
  | _ => none

def real? : Json → Option Numeral
  | real x => some x
  | _ => none

end Json

/-- The item that an object describes. -/
def Item.ofJson : Json → Item
  | .obj members => ofMembers members
  | _ => ofMembers []

def Timing.ofJson? (value : Json) : Option Timing := do
  let number (name : Text) : Option Numeral := (value.member? name).bind Json.real?
  return {
    parse := ← number "parse"
    traversal := ← number "traversal"
    interpretation := ← number "interpretation"
    total := ← number "total" }

theorem Timing.ofJson?_toJson (t : Timing) : ofJson? t.toJson = some t := rfl

namespace Item

theorem ofJson_toJson_advised (severity source : Text) (rule : Option Text)
    (line column : Option Int) (span : Option (Int × Int)) (message suggestion : Text)
    (confidence : Numeral) :
    let i := advised severity source rule line column span message suggestion confidence
    ofJson i.toJson = i := by
  cases rule with
  | none =>
    cases span with
    | none => rfl
    | some place => rfl
  | some name =>
    cases span with
    | none => rfl
    | some place => rfl

theorem ofJson_toJson_limitedItem (line : Option Json) :
    ofJson (Report.limitedItem line).toJson = Report.limitedItem line := rfl

end Item

theorem Analysis.ofJson_toJson_gather {fs : FileSystem} {target : Text}
    {diagnostics : List Diagnostic} {findings : List Finding} {i : Item}
    (h : i ∈ gather (Report.diagnosticItems fs target diagnostics) findings) :
    Item.ofJson i.toJson = i := by
  rcases List.mem_append.1 h with h | h
  · rcases List.mem_append.1 h with h | h
    · obtain ⟨d, -, rfl⟩ := Report.mem_diagnosticItems h
      exact Item.ofJson_toJson_advised ..
    · obtain ⟨f, -, rfl⟩ := List.mem_map.1 h
      exact Item.ofJson_toJson_advised ..
  · split at h
    · obtain rfl := List.mem_singleton.1 h
      exact Item.ofJson_toJson_limitedItem _
    · simp at h

/-- The items of an analysis can be read back from their JSON. -/
theorem ofJson_toJson_of_entry {host : Host} {list : BanList} {path : Text} {timing : Timing}
    {r : FileReport} (h : host.entry list path timing = some r) :
    ∀ i ∈ r.items, Item.ofJson i.toJson = i := by
  unfold Host.entry at h
  split at h
  · obtain rfl := Option.some.inj h
    intro i hi
    obtain rfl := List.mem_singleton.1 hi
    exact Item.ofJson_toJson_advised ..
  · simp at h
  · obtain rfl := Option.some.inj h
    intro i hi
    exact Analysis.ofJson_toJson_gather ((Report.sort_perm _).mem_iff.1 hi)

end BannedCalls
