import BannedCalls.Proofs.Analysis.Store
import BannedCalls.Proofs.CommandLine.Decoding

/-!
# The list that a run prints

The pairs that a run prints make a configuration that repeats the run: stored in a file at a fresh
path they are loaded as they are, and with that file as its only option the program comes to the
same results.
-/

namespace BannedCalls

def FileReport.retimed (timing : Timing) (r : FileReport) : FileReport := { r with timing }

/-- With its timing replaced, the report of an analysis is the entry of the file. -/
theorem retimed_analyze {host : Host} {offers : List Offer} {list : BanList}
    (ho : BanList.ofOffers offers = .ok list) (traced : Bool) (clock : Clock) (path : Text)
    (timing : Timing) :
    (analyze host offers traced clock path).report.toOption.map (FileReport.retimed timing) =
      host.entry list path timing := by
  obtain ⟨measured, hr⟩ := @analyze_report host _ _ ho traced clock path
  cases he : host.entry list path measured with
  | none =>
    have hn : host.entry list path timing = none := by
      rw [← Option.not_isSome_iff_eq_none, isSome_entry_iff, ← isSome_entry_iff measured, he]
      simp
    rw [hr, he, hn]
    rfl
  | some r =>
    rw [hr, he, entry_eq_of_entry he]
    rfl

namespace CommandLine

variable {host : Host} {s : Settings} {pairs : List BannedPair}

/-- Up to their timings, the reports of a batch are the entries of its files. -/
theorem retimed_batchOf (hp : s.pairs host.fileSystem = .ok pairs)
    (ht : ∀ path ∈ s.files, host.HasTree path) (clock : Clock) (timing : Timing) :
    ((batchOf host clock s pairs).reports.map (FileReport.retimed timing)).map some =
      s.files.map fun path => host.entry ⟨pairs⟩ path timing := by
  have ho := Settings.ofOffers_of_pairs hp
  have hr := congrArg
    (List.map fun report => (Except.toOption report).map (FileReport.retimed timing))
    (reports_batchOf hp ht clock)
  rw [List.map_map] at hr
  rw [List.map_map]
  refine Eq.trans hr (List.ext_getElem? fun i => ?_)
  simp only [List.getElem?_map, List.getElem?_mapIdx, Option.map_map, Function.comp_def,
    retimed_analyze ho]

/-- The words in front of an option and behind it are the files, if they are spelled like files. -/
theorem ofArguments_of_config {path : Text} (hp : path ∉ Settings.flags) {before after : List Text}
    (h : ∀ file ∈ before ++ after, file ∉ Settings.flags) :
    Settings.ofArguments (before ++ ("--config" : Text) :: path :: after) =
      ⟨false, false, [some path], [], before ++ after⟩ := by
  induction before with
  | nil =>
    obtain ⟨ht, hd, -, -⟩ := Settings.ne_of_not_mem_flags hp
    have ha : Settings.ofArguments after = ⟨false, false, [], [], after⟩ :=
      Settings.ofArguments_of_files h
    rw [List.nil_append, Settings.ofArguments_config_cons ht hd, ha]
    rfl
  | cons file before ih =>
    obtain ⟨hf, h⟩ := List.forall_mem_cons.1 h
    obtain ⟨ht, hd, hc, hb⟩ := Settings.ne_of_not_mem_flags hf
    rw [List.cons_append, Settings.ofArguments_file_cons ht hd hc hb, ih h]
    rfl

theorem exists_printMembers_concat (before : List (Text × Json)) (name : Text) (value : Json) :
    ∃ front, Json.printMembers (before ++ [(name, value)]) = front ++ value.print := by
  induction before with
  | nil => exact ⟨Json.printText name ++ ": ", rfl⟩
  | cons member before ih =>
    obtain ⟨front, hf⟩ := ih
    obtain ⟨next, rest, hn⟩ := List.exists_cons_of_ne_nil
      (List.append_ne_nil_of_right_ne_nil before (List.cons_ne_nil (name, value) []))
    rw [hn] at hf
    refine ⟨Json.printText member.1 ++ ": " ++ member.2.print ++ ", " ++ front, ?_⟩
    rw [List.cons_append, hn, Json.printMembers, hf, ← List.append_assoc]

/-- The list of pairs is printed last, as it stands alone. -/
theorem exists_print_payload (reports : List FileReport) (total : Numeral)
    (pairs : List BannedPair) : ∃ front, (payload reports total pairs).print =
      front ++ (Json.arr (pairs.map BannedPair.toJson)).print ++ "\x7d" := by
  obtain ⟨front, hf⟩ := exists_printMembers_concat [(("ok" : Text), .bool true),
    ("results", .arr (reports.map FileReport.toJson)), ("timing_ms", .obj [("total", .real total)])]
    "ban" (.arr (pairs.map BannedPair.toJson))
  refine ⟨"\x7b" ++ front, ?_⟩
  rw [List.append_assoc _ front, ← hf]
  rfl

/-! ## Running again -/

theorem hasTree_store {path : Text} {bytes : List UInt8} {files : List Text}
    (hf : host.fileSystem.Fresh path files) (ht : ∀ file ∈ files, host.HasTree file) :
    ∀ file ∈ files, (host.store path bytes).HasTree file := by
  intro file hm
  unfold Host.HasTree
  rw [Host.parseFile_store bytes hf hm]
  exact ht file hm

/-- The same pairs lead to the same reports beside a new file, up to their timings. -/
theorem retimed_batchOf_store {path : Text} {bytes : List UInt8}
    (hf : host.fileSystem.Fresh path s.files) (hp : s.pairs host.fileSystem = .ok pairs)
    (ht : ∀ file ∈ s.files, host.HasTree file) {s' : Settings} (hs : s'.files = s.files)
    (hp' : s'.pairs (host.store path bytes).fileSystem = .ok pairs) (clock clock' : Clock)
    (timing : Timing) :
    (batchOf (host.store path bytes) clock' s' pairs).reports.map (FileReport.retimed timing) =
      (batchOf host clock s pairs).reports.map (FileReport.retimed timing) := by
  have ht' : ∀ file ∈ s'.files, (host.store path bytes).HasTree file := by
    rw [hs]
    exact hasTree_store hf ht
  apply (List.map_inj_right fun _ _ => Option.some.inj).1
  rw [retimed_batchOf hp' ht', retimed_batchOf hp ht, hs]
  exact List.map_congr_left fun file hm => Host.entry_store bytes hf hm ⟨pairs⟩ timing

theorem load_store {fs : FileSystem} {path : Text} {files : List Text} (hf : fs.Fresh path files)
    {place : ListPlace} (hs : place.Sole) (hp : ∀ p ∈ pairs, p.Normal) :
    BanConfig.load (fs.store path (Utf8.encode (place.document pairs).print)) path =
      .ok pairs := by
  simp only [BanConfig.load, FileSystem.contents?_store_shown hf,
    BanConfig.pairsOfFile_printed hp hs]

theorem pairs_of_config {fs : FileSystem} {path : Text} {files : List Text}
    (h : BanConfig.load fs path = .ok pairs) :
    (⟨false, false, [some path], [], files⟩ : Settings).pairs fs = .ok pairs := by
  refine Settings.pairs_eq_ok_iff.2 ⟨[pairs], [], ?_, rfl, by simp⟩
  rw [mapM_eq_ok_iff]
  exact congrArg (fun r => [r]) h

end CommandLine

end BannedCalls
