import BannedCalls.Proofs.Analysis.Consistency
import BannedCalls.Proofs.FileSystem.Scalar
import BannedCalls.Proofs.Json.Faithful

/-!
# Faithful reports

What a report takes from outside are paths, the texts of diagnostics, and the names of banned pairs;
all else in it is a number or one of the program's own texts. So its JSON is faithful.
-/

namespace BannedCalls

open Text

theorem faithful_text {t : Text} (h : t.Scalar) : (Json.str t).Faithful := .str h.unpaired

/-! ## Items -/

namespace Item

theorem faithful_advised {severity source : Text} {rule : Option Text} {message suggestion : Text}
    (hv : severity.Scalar) (ho : source.Scalar) (hr : ∀ name ∈ rule, name.Scalar)
    (hm : message.Unpaired) (hg : suggestion.Scalar) (line column : Option Int)
    (span : Option (Int × Int)) (confidence : Numeral) :
    (advised severity source rule line column span message suggestion
      confidence).toJson.Faithful := by
  have hint (n : Option Int) : (n.elim .null Json.int).Faithful := by
    cases n with
    | none => exact .null
    | some n => exact .int n
  have hrule : (rule.elim .null Json.str).Faithful := by
    cases rule with
    | none => exact .null
    | some name => exact faithful_text (hr name rfl)
  let before : List (String × Json) := [("severity", .str severity), ("source", .str source),
    ("rule", rule.elim .null .str), ("line", line.elim .null .int),
    ("column", column.elim .null .int)]
  let after : List (String × Json) := [("message", .str message), ("suggestion", .str suggestion),
    ("confidence", .real confidence)]
  have hb : ∀ f ∈ before, f.2.Faithful := by simp [before, faithful_text, hv, ho, hint, hrule]
  have ha : ∀ f ∈ after, f.2.Faithful := by
    simp [after, faithful_text, hg, Json.Faithful.str hm, Json.Faithful.real]
  cases span with
  | none =>
    have h := @Json.Faithful.record ["severity", "source", "rule", "line", "column", "message",
      "suggestion", "confidence"] (before ++ after) rfl (by decide)
      (List.forall_mem_append.2 ⟨hb, ha⟩)
    cases rule <;> exact h
  | some place =>
    let between : List (String × Json) := [("offset", .int place.1), ("width", .int place.2)]
    have hs : ∀ f ∈ between, f.2.Faithful := by simp [between, Json.Faithful.int]
    have h := @Json.Faithful.record ["severity", "source", "rule", "line", "column", "offset",
      "width", "message", "suggestion", "confidence"] (before ++ between ++ after) rfl (by decide)
      (List.forall_mem_append.2 ⟨List.forall_mem_append.2 ⟨hb, hs⟩, ha⟩)
    cases rule <;> exact h

theorem faithful_toJson_finding {f : Finding} (hr : f.rule = "ban") (hm : f.message.Unpaired) :
    f.toItem.toJson.Faithful :=
  faithful_advised (scalar_ofString _) (scalar_ofString _)
    (by simp [hr]) hm (scalar_ofString _) _ _ _ _

theorem faithful_toJson_diagnostic {d : Diagnostic} (h : d.text.Scalar) :
    d.toItem.toJson.Faithful := by
  have hv : d.level.severity.Scalar := by
    cases d.level <;> exact scalar_ofString _
  have ht : ∀ entry ∈ Hint.table, entry.2.suggestion.Scalar := by
    simp [Hint.table]
  have hg (message : Text) : (Hint.ofMessage message).suggestion.Scalar := by
    unfold Hint.ofMessage
    cases hf : Hint.table.find? fun entry => Text.includes entry.1 message with
    | none => exact scalar_ofString _
    | some entry => exact ht entry (List.mem_of_find?_eq_some hf)
  exact faithful_advised hv (scalar_ofString _) (by simp) h.unpaired (hg _) _ _ _ _

theorem limitedItem_eq_advised (line : Option Int) :
    ∃ message suggestion : Text, message.Scalar ∧ suggestion.Scalar ∧
      Report.limitedItem (line.map .int) = advised "warning" "runtime" none line none none message
        suggestion (.positional false 0 9 [7]) := by
  refine ⟨_, _, ?_, ?_, by cases line <;> rfl⟩ <;> simp

theorem faithful_toJson_limitedItem (line : Option Int) :
    (Report.limitedItem (line.map .int)).toJson.Faithful := by
  obtain ⟨message, suggestion, hm, hg, he⟩ := limitedItem_eq_advised line
  rw [he]
  exact faithful_advised (scalar_ofString _) (scalar_ofString _) (by simp) hm.unpaired hg _ _ _ _

end Item

/-! ## Findings -/

/-- A finding is about a pair of the list. -/
theorem BanList.exists_of_mem_run {list : BanList} {ns : List Node} {f : Finding}
    (h : f ∈ list.engine.run ns) : ∃ p ∈ list.entries,
      f.message = BanRule.messageStart ++ p.receiver ++ "." ++ p.member := by
  obtain ⟨shape, hp, rfl⟩ := exists_shape_of_mem_run h
  exact ⟨_, hp, rfl⟩

theorem BanList.unpaired_of_mem_run {list : BanList}
    (hl : ∀ p ∈ list.entries, p.receiver.Unpaired ∧ p.member.Unpaired) {ns : List Node}
    {f : Finding} (h : f ∈ list.engine.run ns) : f.message.Unpaired := by
  obtain ⟨p, hp, he⟩ := exists_of_mem_run h
  obtain ⟨hr, hm⟩ := hl p hp
  rw [he, List.append_assoc, List.append_assoc]
  exact (scalar_ofString _).append_unpaired (hr.append_cons (by decide) hm)

/-! ## Reports -/

/-- The texts of the surroundings that a report takes over, and those that resolving takes in. -/
structure Host.Scalar (host : Host) : Prop where
  fileSystem : host.fileSystem.Scalar
  diagnostics : ∀ entry ∈ host.units, ∀ d ∈ entry.2.diagnostics, d.text.Scalar

theorem Host.scalar_message_of_parseFile {host : Host} {path : Text} {extra : List Text}
    {e : ParseError} (hp : path.Scalar) (h : (host.parseFile path extra).result = .error e) :
    e.message.Scalar := by
  have he : e = .fileMissing path ∨ e = .notFile path ∨ e = .refused path := by
    unfold Host.parseFile Host.request at h
    split at h
    · exact Or.inl (Except.error.inj h).symm
    · split at h
      · exact Or.inr (Or.inl (Except.error.inj h).symm)
      · cases hu : host.unit? path with
        | none => exact Or.inr (Or.inr (by simpa [hu, eq_comm] using h))
        | some unit => simp [hu] at h
  rcases he with rfl | rfl | rfl <;>
    simp [ParseError.message, hp, Path.scalar_baseName hp]

theorem Summary.faithful_toJson {s : Summary} (hd : (s.byRule.map Prod.fst).Nodup)
    (hn : ∀ count ∈ s.byRule, count.1.Scalar) : s.toJson.Faithful := by
  have hr : (Json.obj (s.byRule.map fun count => (count.1, .int count.2))).Faithful := by
    refine .obj (by rwa [List.map_map]) (fun m hm => ?_) fun m hm => ?_
    · obtain ⟨count, hc, rfl⟩ := List.mem_map.1 hm
      exact (hn count hc).unpaired
    · obtain ⟨count, -, rfl⟩ := List.mem_map.1 hm
      exact .int _
  exact @Json.Faithful.record ["error", "warning", "info", "total", "by_rule"]
    [("error", .int s.error), ("warning", .int s.warning), ("info", .int s.info),
      ("total", .int s.total), ("by_rule", _)] rfl (by decide) (by simp [Json.Faithful.int, hr])

theorem Timing.faithful_toJson (t : Timing) : t.toJson.Faithful :=
  @Json.Faithful.record ["parse", "traversal", "interpretation", "total"]
    [("parse", .real t.parse), ("traversal", .real t.traversal),
      ("interpretation", .real t.interpretation), ("total", .real t.total)] rfl (by decide)
    (by simp [Json.Faithful.real])

theorem FileReport.faithful_toJson {r : FileReport} (hfile : r.file.Scalar)
    (hpath : r.path.Scalar) (herror : ∀ message ∈ r.error, message.Scalar)
    (hf : ∀ message ∈ r.findings, message.Unpaired) (hi : ∀ i ∈ r.items, i.toJson.Faithful)
    (hs : r.summary.toJson.Faithful) : r.toJson.Faithful := by
  have he : (r.error.elim .null Json.str).Faithful := by
    cases h : r.error with
    | none => exact .null
    | some message => exact faithful_text (herror message h)
  have hfs : (Json.arr (r.findings.map .str)).Faithful :=
    .list fun message hm => .str (hf message hm)
  have his : (Json.arr (r.items.map Item.toJson)).Faithful := .list hi
  exact @Json.Faithful.record
    ["file", "path", "ok", "error", "findings", "items", "summary", "timing_ms"]
    [("file", .str r.file), ("path", .str r.path), ("ok", .bool r.ok),
      ("error", r.error.elim .null .str), ("findings", .arr (r.findings.map .str)),
      ("items", .arr (r.items.map Item.toJson)), ("summary", r.summary.toJson),
      ("timing_ms", r.timing.toJson)] rfl (by decide)
    (by
      simp only [List.forall_mem_cons, faithful_text hfile, faithful_text hpath, he, hfs, his, hs,
        Json.Faithful.bool, r.timing.faithful_toJson, List.not_mem_nil, false_implies, true_and,
        implies_true])

namespace Analysis

variable {host : Host} {path : Text} {diagnostics : List Diagnostic} {findings : List Finding}

theorem faithful_toJson_gather (hd : ∀ d ∈ diagnostics, d.text.Scalar)
    (hf : ∀ f ∈ findings, f.rule = "ban" ∧ f.message.Unpaired) :
    ∀ i ∈ gather (host.diagnosticItems path diagnostics) findings, i.toJson.Faithful := by
  intro i hi
  rcases List.mem_append.1 hi with hi | hi
  · rcases List.mem_append.1 hi with hi | hi
    · obtain ⟨d, hm, rfl⟩ := Report.mem_diagnosticItems hi
      exact Item.faithful_toJson_diagnostic (hd d hm)
    · obtain ⟨f, hm, rfl⟩ := List.mem_map.1 hi
      exact Item.faithful_toJson_finding (hf f hm).1 (hf f hm).2
  · split at hi
    · obtain rfl := List.mem_singleton.1 hi
      exact Item.faithful_toJson_limitedItem _
    · simp at hi

theorem faithful_toJson_successReport (hh : host.fileSystem.Scalar) (hp : path.Scalar)
    (hd : ∀ d ∈ diagnostics, d.text.Scalar)
    (hf : ∀ f ∈ findings, f.rule = "ban" ∧ f.message.Unpaired) (timing : Timing) :
    (successReport host path (host.diagnosticItems path diagnostics) findings
      timing).toJson.Faithful := by
  refine FileReport.faithful_toJson (Path.scalar_baseName hp) (FileSystem.scalar_realPath hh hp)
    (by simp [successReport]) ?_ ?_ (Summary.faithful_toJson ?_ ?_)
  · intro message hm
    obtain ⟨f, hs, rfl⟩ := List.mem_map.1 hm
    exact (hf f hs).2
  · exact fun i hi => faithful_toJson_gather hd hf i ((Report.sort_perm _).mem_iff.1 hi)
  · rw [byRule_successReport diagnostics (fun f hm => (hf f hm).1)]
    split <;> simp
  · rw [byRule_successReport diagnostics (fun f hm => (hf f hm).1)]
    split <;> simp

theorem faithful_toJson_failureReport (hh : host.fileSystem.Scalar) (hp : path.Scalar)
    {e : ParseError} (he : e.message.Scalar) (timing : Timing) :
    (FileReport.toJson { failureReport host ⟨[]⟩ path e with timing }).Faithful := by
  have hm : (failureText path e).Scalar := by
    simp [failureText, Path.scalar_baseName hp, he]
  refine FileReport.faithful_toJson (Path.scalar_baseName hp) (FileSystem.scalar_realPath hh hp)
    ?_ (by simp [failureReport]) ?_ (Summary.faithful_toJson ?_ ?_)
  · simpa [failureReport] using hm
  · refine List.forall_mem_singleton.2 ?_
    exact Item.faithful_advised (scalar_ofString _) (scalar_ofString _) (by simp) hm.unpaired
      (by simp) _ _ _ _
  · simp [failureReport]
  · simp [failureReport]

end Analysis

/-- The JSON of a report is faithful, whatever diagnostics and findings there are. -/
theorem faithful_of_entry {host : Host} {list : BanList} {path : Text} {timing : Timing}
    {r : FileReport} (hh : host.Scalar) (hp : path.Scalar)
    (hl : ∀ p ∈ list.entries, p.receiver.Unpaired ∧ p.member.Unpaired)
    (h : host.entry list path timing = some r) : r.toJson.Faithful := by
  unfold Host.entry at h
  split at h
  · next e he =>
    obtain rfl := Option.some.inj h
    exact Analysis.faithful_toJson_failureReport hh.fileSystem hp
      (Host.scalar_message_of_parseFile hp he) timing
  · simp at h
  · next root diagnostics hu =>
    obtain rfl := Option.some.inj h
    have hd := hh.diagnostics _ (Host.mem_units_of_parseFile hu)
    refine Analysis.faithful_toJson_successReport hh.fileSystem hp hd (fun f hf => ?_) timing
    split at hf
    · simp at hf
    · exact ⟨BanList.rule_of_mem_run hf, BanList.unpaired_of_mem_run hl hf⟩

end BannedCalls
