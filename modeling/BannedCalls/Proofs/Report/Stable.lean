import BannedCalls.Proofs.Report.Order
import Mathlib.Data.Prod.Basic
import Mathlib.Tactic.SplitIfs

/-!
# Sorting is stable

Sorting arranges items by their keys, which are compared as the quadruples of their parts are. Items
with one key keep their order: of the items with a given key the sorted report holds the same ones,
in the same order. What has no line stands behind all that has one, and in a line what has no column
behind all that has one.
-/

namespace BannedCalls

/-! ## Keys -/

/-- The integer by which a line or a column is ordered. -/
inductive Item.PlacedAt : Option Json → Int → Prop
  | integer (n : Int) : PlacedAt (some (.int n)) n
  | truth (b : Bool) : PlacedAt (some (.bool b)) b.toInt
  | missing : PlacedAt none 1000000000
  | other {value : Json} (hn : ∀ n, value ≠ .int n) (hb : ∀ b, value ≠ .bool b) :
      PlacedAt (some value) 1000000000

/-- The rank by which a severity is ordered. -/
inductive Entered.RankedAt : Entered → Nat → Prop
  | error : RankedAt (.given "error") 0
  | warning : RankedAt (.given "warning") 1
  | info : RankedAt (.given "info") 2
  | missing : RankedAt .missing 2
  | unknown {severity : Text} (he : severity ≠ "error") (hw : severity ≠ "warning")
      (hi : severity ≠ "info") : RankedAt (.given severity) 3
  | other (value : Json) : RankedAt (.other value) 3

/-- An item whose source, if there is one, is a text stands at a key. -/
structure Item.StandsAt (i : Item) (k : ReportKey) : Prop where
  line : PlacedAt i.line k.line
  column : PlacedAt i.column k.column
  severity : i.severity.RankedAt k.rank
  source : i.source = .given k.source ∨ i.source = .missing ∧ k.source = []

namespace Item

theorem placedAt_place? (value : Option Json) :
    PlacedAt value ((place? value).getD farAway) := by
  cases value with
  | none => exact .missing
  | some value =>
    cases value with
    | int n => exact .integer n
    | bool b => cases b <;> exact .truth _
    | null | real | str | arr | obj => exact .other (by simp) (by simp)

theorem rankedAt_rank (i : Item) : i.severity.RankedAt i.rank := by
  unfold rank
  cases i.severity with
  | missing => exact .missing
  | other value => exact .other value
  | given severity =>
    dsimp only
    split_ifs with he hw hi
    · exact he ▸ .error
    · exact hw ▸ .warning
    · exact hi ▸ .info
    · exact .unknown he hw hi

theorem standsAt_key {i : Item} (h : ∀ value, i.source ≠ .other value) : i.StandsAt i.key where
  line := placedAt_place? i.line
  column := placedAt_place? i.column
  severity := i.rankedAt_rank
  source := by
    unfold key
    cases hs : i.source with
    | missing => exact Or.inr ⟨rfl, rfl⟩
    | given source => exact Or.inl rfl
    | other value => exact absurd hs (h value)

end Item

namespace ReportKey

def parts (k : ReportKey) : Int × Int × Nat × Text := (k.line, k.column, k.rank, k.source)

/-- The order of quadruples in which the first part that differs decides. -/
def PartsLe : Int × Int × Nat × Text → Int × Int × Nat × Text → Prop :=
  Prod.Lex (· < ·) (Prod.Lex (· < ·) (Prod.Lex (· < ·) List.le))

theorem le_iff_partsLe {a b : ReportKey} : a.le b ↔ PartsLe a.parts b.parts := by
  simp only [le_iff, parts, PartsLe, Prod.lex_def]

theorem le_refl (k : ReportKey) : k.le k := (le_total k k).elim id id

end ReportKey

/-! ## Items with one key -/

namespace Report

/-- Placing an item leaves those with a given key in order, with the item in front if it has that
key. -/
theorem filter_place (k : ReportKey) (i : Item) (items : List Item) :
    (place i items).filter (·.key = k) = (i :: items).filter (·.key = k) := by
  induction items with
  | nil => rfl
  | cons next rest ih =>
    rw [place]
    split
    · rfl
    · next hn =>
      -- What has to stand in front of the item has another key.
      have hne : next.key ≠ i.key := by
        intro he
        exact hn (he ▸ ReportKey.le_refl _)
      rw [List.filter_cons, ih]
      by_cases hk : i.key = k
      · have hnk : next.key ≠ k := hk ▸ hne
        simp [hk, hnk]
      · simp [List.filter_cons, hk]

theorem filter_sort (k : ReportKey) (items : List Item) :
    (sort items).filter (·.key = k) = items.filter (·.key = k) := by
  induction items with
  | nil => rfl
  | cons i rest ih =>
    calc (sort (i :: rest)).filter (·.key = k) = (place i (sort rest)).filter (·.key = k) := rfl
      _ = (i :: sort rest).filter (·.key = k) := filter_place k i (sort rest)
      _ = (i :: rest).filter (·.key = k) := by rw [List.filter_cons, ih, List.filter_cons]

/-! ## Missing places -/

theorem line?_eq_none_of_le {i j : Item} (hj : j.Near) (h : i.key.le j.key)
    (hi : i.line? = none) : j.line? = none := by
  cases hl : j.line? with
  | none => rfl
  | some line =>
    have hle : i.key.line ≤ j.key.line := ReportKey.line_le_of_le h
    have hlt : line < Item.farAway := hj.1 line hl
    simp only [Item.key, hi, hl, Option.getD_none, Option.getD_some] at hle
    omega

theorem column?_eq_none_of_le {i j : Item} (hj : j.Near) (h : i.key.le j.key)
    (hl : i.line? = j.line?) (hi : i.column? = none) : j.column? = none := by
  cases hc : j.column? with
  | none => rfl
  | some column =>
    have hline : i.key.line = j.key.line := by rw [Item.key, Item.key, hl]
    have hle : i.key.column ≤ j.key.column := by
      rcases ReportKey.le_iff.1 h with h | ⟨-, h | ⟨h, -⟩⟩
      · exact absurd hline (Int.ne_of_lt h)
      · exact Int.le_of_lt h
      · exact Int.le_of_eq h
    have hlt : column < Item.farAway := hj.2 column hc
    simp only [Item.key, hi, hc, Option.getD_none, Option.getD_some] at hle
    omega

/-- A sorted report holds the items in the order of their keys, and those with one key in the order
in which they came. Sorting it again changes nothing. Where all that is there counts less than what
is missing, the items without a line come last, and last in a line those without a column. -/
theorem sort_stable (items : List Item) :
    (∀ i ∈ items, (∀ value, i.source ≠ .other value) → i.StandsAt i.key) ∧
    (sort items).Perm items ∧
    (sort items).Pairwise (fun i j => ReportKey.PartsLe i.key.parts j.key.parts) ∧
    (∀ k, (sort items).filter (·.key = k) = items.filter (·.key = k)) ∧
    sort (sort items) = sort items ∧
    ((∀ i ∈ items, i.Near) → (sort items).Pairwise fun i j =>
      (i.line? = none → j.line? = none) ∧
        (i.line? = j.line? → i.column? = none → j.column? = none)) := by
  have ho : (sort items).Pairwise fun i j => i.key.le j.key := ordered_sort items
  refine ⟨fun i _ h => Item.standsAt_key h, sort_perm items, ?_, fun k => filter_sort k items,
    sort_sort items, ?_⟩
  · exact ho.imp ReportKey.le_iff_partsLe.1
  · intro hn
    apply List.Pairwise.imp_of_mem _ ho
    intro i j _ hj h
    have hj' : j.Near := hn j ((sort_perm items).mem_iff.1 hj)
    exact ⟨line?_eq_none_of_le hj' h, column?_eq_none_of_le hj' h⟩

/-- A truth value for a line, null for another, no severity, and null for a severity. -/
theorem sort_stable_mixed :
    let item (severity : Entered) (line column : Option Json) (message : Text) : Item :=
      ⟨severity, .given "clang", .missing, line, column, none, some (.str message), []⟩
    let second := item (.given "info") (some (.bool true)) (some (.int 4)) "c"
    let items := [item .missing none none "a", item (.other .null) (some (.int 1)) none "b", second,
      item .missing (some (.int 1)) (some (.int 4)) "d",
      item (.given "error") (some .null) (some (.int 2)) "e"]
    (∀ i ∈ items, i.StandsAt i.key) ∧
    (sort items).map (·.message.bind Json.text?) =
      ["c", "d", "b", "e", "a"].map (some ∘ Text.ofString) ∧
    (sort items).filter (·.key = second.key) = items.filter (·.key = second.key) ∧
    (sort items).Pairwise fun i j => i.line? = none → j.line? = none := by
  intro item second items
  obtain ⟨hs, -, -, hk, -, hn⟩ := sort_stable items
  have hnear : ∀ i ∈ items, i.Near := by
    simp [items, second, item, Item.Near, Item.line?, Item.column?, Item.place?, Json.integer?,
      Item.farAway]
  have hsource : ∀ i ∈ items, ∀ value, i.source ≠ .other value := by
    simp [items, second, item]
  exact ⟨fun i hi => hs i hi (hsource i hi), by decide +kernel, hk second.key,
    (hn hnear).imp And.left⟩

end Report

end BannedCalls
