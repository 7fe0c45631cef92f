import BannedCalls.Proofs.Analysis.Findings
import BannedCalls.Proofs.Report.Order
import BannedCalls.Proofs.Report.Summary
import Mathlib.Data.List.Basic

/-!
# Reports that agree with themselves

The parts of a report are put together on two ways, one for a file that could not be parsed and one
for all others. Either way its summary counts its items, its items are in order, and an error stands
for a single item. Beyond that, the errors among the diagnostics decide what the rule may say.
-/

namespace BannedCalls

namespace FileReport

/-- The parts of a report agree with each other. -/
structure Consistent (r : FileReport) : Prop where
  summary : r.summary = Summary.ofItems r.items
  total : r.summary.total = r.items.length
  sorted : Report.sort r.items = r.items
  ok_iff : r.ok = false ↔ r.error ≠ none
  failed : ∀ message, r.error = some message →
    r.findings = [] ∧ ∃ i, r.items = [i] ∧ i.isError ∧ i.message = some (.str message)

/-- What a report holds from the rule when there are so many errors in its file: with errors, only
the warning that the rule was not asked; without, its findings. -/
structure Gated (r : FileReport) (errors : Nat) : Prop where
  summary : r.summary.error = errors
  blocked : 0 < errors → r.findings = [] ∧ r.items.countP (Item.isFrom "rule") = 0 ∧
    r.items.countP (Item.isFrom "runtime") = 1
  clean : errors = 0 → r.items.countP (Item.isFrom "runtime") = 0 ∧
    r.items.countP (Item.isFrom "rule") = r.findings.length ∧
    r.summary.byRule =
      if r.findings.length = 0 then [] else [(("ban" : Text), r.findings.length)]

end FileReport

theorem BanList.rule_of_mem_run {list : BanList} {ns : List Node} {f : Finding}
    (h : f ∈ list.engine.run ns) : f.rule = "ban" := by
  obtain ⟨shape, -, rfl⟩ := exists_shape_of_mem_run h
  rfl

namespace Analysis

variable {host : Host} {path : Text}

theorem consistent_failureReport (e : ParseError) (timing : Timing) :
    FileReport.Consistent { failureReport host ⟨[]⟩ path e with timing } where
  summary := rfl
  total := rfl
  sorted := rfl
  ok_iff := by simp [FileReport.ok, failureReport]
  failed := by
    rintro message hm
    obtain rfl := Option.some.inj hm
    exact ⟨rfl, _, rfl, rfl, rfl⟩

theorem consistent_successReport (items : List Item) (findings : List Finding) (timing : Timing) :
    (successReport host path items findings timing).Consistent where
  summary := rfl
  total := Summary.total_ofItems _
  sorted := Report.sort_sort _
  ok_iff := by simp [FileReport.ok, successReport]
  failed := by simp [successReport]

/-- The rules that the items of a report name are those of its findings. -/
theorem filterMap_rule?_gather (fs : FileSystem) (target : Text) (diagnostics : List Diagnostic)
    {findings : List Finding} (hr : ∀ f ∈ findings, f.rule = "ban") :
    (gather (Report.diagnosticItems fs target diagnostics) findings).filterMap Item.rule? =
      List.replicate findings.length ("ban" : Text) := by
  have hd : (Report.diagnosticItems fs target diagnostics).filterMap Item.rule? = [] := by
    rw [List.filterMap_eq_nil_iff]
    intro i hi
    obtain ⟨d, -, rfl⟩ := Report.mem_diagnosticItems hi
    rfl
  have hf : (findings.map Finding.toItem).filterMap Item.rule? =
      List.replicate findings.length ("ban" : Text) := by
    have hs : ∀ f ∈ findings, (Item.rule? ∘ Finding.toItem) f =
        (some ∘ fun _ => ("ban" : Text)) f := by
      intro f hm
      simp only [Function.comp_apply, Item.rule?, Finding.toItem, Item.advised, Option.elim_some,
        hr f hm]
      rfl
    rw [List.filterMap_map, List.filterMap_congr hs, List.filterMap_eq_map, List.map_const']
  have hl (line : Option Json) : [Report.limitedItem line].filterMap Item.rule? = [] := rfl
  rw [gather, List.filterMap_append, List.filterMap_append, hd, hf, List.nil_append]
  split
  · rw [hl, List.append_nil]
  · exact List.append_nil _

theorem byRule_successReport (diagnostics : List Diagnostic) {findings : List Finding}
    (hr : ∀ f ∈ findings, f.rule = "ban") (timing : Timing) :
    (successReport host path (host.diagnosticItems path diagnostics) findings
        timing).summary.byRule =
      if findings.length = 0 then [] else [(("ban" : Text), findings.length)] := by
  have hg := filterMap_rule?_gather host.fileSystem (host.fileSystem.realPath path) diagnostics hr
  have hs := (Report.sort_perm (gather (host.diagnosticItems path diagnostics) findings)).filterMap
    Item.rule?
  -- A permutation of copies of one name is the same copies.
  have hp := List.perm_replicate.1 (hs.trans (.of_eq hg))
  rw [successReport, Summary.byRule_ofItems, hp, Summary.foldl_count_replicate]

theorem countP_successReport (host : Host) (path : Text) (p : Item → Bool) (items : List Item)
    (findings : List Finding) (timing : Timing) :
    (successReport host path items findings timing).items.countP p =
      (gather items findings).countP p :=
  (Report.sort_perm _).countP_eq p

theorem gated_successReport {diagnostics : List Diagnostic} {findings : List Finding}
    (hr : ∀ f ∈ findings, f.rule = "ban")
    (hb : Report.isBlocked (host.diagnosticItems path diagnostics) → findings = [])
    (timing : Timing) :
    (successReport host path (host.diagnosticItems path diagnostics) findings timing).Gated
      (diagnostics.countP fun d => d.isAbout host.fileSystem (host.fileSystem.realPath path) &&
        (d.level = .error || d.level = .fatal)) := by
  have hs : ∀ i ∈ host.diagnosticItems path diagnostics, i.source = .given "clang" :=
    fun _ => Report.source_of_mem_diagnosticItems
  have hp := Report.isBlocked_iff_countP_pos (host.diagnosticItems path diagnostics)
  rw [← Report.countP_isError_diagnosticItems, ← Host.diagnosticItems]
  refine ⟨?_, ?_, ?_⟩
  · have he := countP_successReport host path Item.isError (host.diagnosticItems path diagnostics)
      findings timing
    rw [countP_isError_gather] at he
    exact (Summary.error_ofItems _).trans he
  · intro h
    obtain rfl := hb (hp.2 h)
    refine ⟨rfl, ?_, ?_⟩
    · rw [countP_successReport, countP_isFrom_rule_gather hs]
      rfl
    · rw [countP_successReport, countP_isFrom_runtime_gather hs, if_pos (hp.2 h)]
  · intro h
    have hi : ¬ Report.isBlocked (host.diagnosticItems path diagnostics) := by
      rw [hp]
      exact Nat.not_lt.2 (Nat.le_zero.2 h)
    have hl : (successReport host path (host.diagnosticItems path diagnostics) findings
        timing).findings.length = findings.length := List.length_map _
    refine ⟨?_, ?_, ?_⟩
    · rw [countP_successReport, countP_isFrom_runtime_gather hs, if_neg hi]
    · rw [countP_successReport, countP_isFrom_rule_gather hs, hl]
    · rw [hl, byRule_successReport diagnostics hr timing]

end Analysis

/-- An analysis with named pairs reports on every file, unless the front end parses it without a
tree. Whatever it reports agrees with itself, and with the errors among the diagnostics of the file
if it was parsed. -/
theorem analyze_consistent {offers : List Offer} {pairs : List BannedPair}
    (hw : offers.map Offer.members = pairs.map fun p => .ok [.str p.receiver, .str p.member])
    (hn : ∀ p ∈ pairs, p.Named) (host : Host) (path : Text) (traced : Bool) (clock : Clock) :
    let result := (analyze host offers traced clock path).report
    let target := host.fileSystem.realPath path
    ((∃ r, result = .ok r) ↔ host.HasTree path) ∧
      ∀ r, result = .ok r → r.Consistent ∧
        (r.ok ↔ ∃ unit, (host.parseFile path []).result = .ok unit) ∧
        ∀ unit, (host.parseFile path []).result = .ok unit →
          r.Gated (unit.diagnostics.countP fun d => d.isAbout host.fileSystem target &&
            (d.level = .error || d.level = .fatal)) := by
  intro result target
  have ho := BanList.ofOffers_of_writes hw hn
  refine ⟨⟨?_, fun ht => exists_report ho ht traced clock⟩, ?_⟩
  · rintro ⟨r, hr⟩
    obtain ⟨timing, he⟩ := exists_entry_of_report ho hr
    exact (isSome_entry_iff timing).1 (Option.isSome_of_mem he)
  · intro r hr
    obtain ⟨timing, he⟩ := exists_entry_of_report ho hr
    unfold Host.entry at he
    split at he
    · next e hp =>
      obtain rfl := Option.some.inj he
      refine ⟨Analysis.consistent_failureReport e timing, ?_, by simp [hp]⟩
      simp [hp, FileReport.ok, Analysis.failureReport]
    · simp at he
    · next root diagnostics hp =>
      obtain rfl := Option.some.inj he
      refine ⟨Analysis.consistent_successReport _ _ timing, ?_, ?_⟩
      · simp [hp, FileReport.ok, Analysis.successReport]
      · intro unit hu
        obtain rfl := Except.ok.inj (hp.symm.trans hu)
        apply Analysis.gated_successReport
        · intro f hf
          split at hf
          · simp at hf
          · exact BanList.rule_of_mem_run hf
        · intro hb
          exact if_pos hb

/-! ## A banned call behind errors -/

/-- Two errors about the file, one of them without a place, and one about its header. -/
def brokenDiagnostics : List Diagnostic :=
  [⟨.error, "expected ';'", some ⟨some "main.cpp", 3, 1⟩⟩,
    ⟨.error, "unknown type name", some ⟨some "h.h", 1, 1⟩⟩, ⟨.fatal, "too many errors", none⟩]

def brokenHost : Host :=
  { nestedHost with units := [("main.cpp", ⟨some nestedRoot, brokenDiagnostics⟩)] }

theorem analyze_consistent_broken :
    let pairs : List BannedPair := [⟨"a", "b"⟩]
    ∃ r, (analyze brokenHost (pairs.map BannedPair.offer) false ⟨[]⟩ "main.cpp").report = .ok r ∧
      r.Consistent ∧ r.ok ∧ r.Gated 2 := by
  intro pairs
  have hn : ∀ p ∈ pairs, p.Named := by decide
  have ht : brokenHost.HasTree "main.cpp" :=
    Host.hasTree_of_forall_units (by simp [brokenHost])
  have hp : (brokenHost.parseFile "main.cpp" []).result =
      .ok ⟨some nestedRoot, brokenDiagnostics⟩ := rfl
  obtain ⟨hx, hr⟩ := @analyze_consistent (pairs.map BannedPair.offer) pairs rfl hn brokenHost
    "main.cpp" false ⟨[]⟩
  obtain ⟨r, h⟩ := hx.2 ht
  obtain ⟨hc, ho, hg⟩ := hr r h
  have he : (brokenDiagnostics.countP fun d =>
      d.isAbout brokenHost.fileSystem (brokenHost.fileSystem.realPath "main.cpp") &&
        (d.level = .error || d.level = .fatal)) = 2 := by
    decide +kernel
  exact ⟨r, h, hc, ho.2 ⟨_, hp⟩, he ▸ hg _ hp⟩

end BannedCalls
