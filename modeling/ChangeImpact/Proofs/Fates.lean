import ChangeImpact.Proofs.History
import ChangeImpact.Proofs.Omission

/-!
# Every file of a scan has one fate

A scan hands its files to the extractors, keeps some of the results out of the batch and leaves the others
to the store. What became of a file is listed in one of five places by three parts of the program, and
nothing but their order of work keeps a file from being listed twice or not at all.

* `newer_of_extractFile`, `newer_of_extractAll`: **a scan hands out versions that are newer than the
  graph,** so none of its results is outdated when it is merged.
* `mergeBatch_not_stale`, `rebuild_not_stale`: a batch of such results, for different files, is rejected
  for what it contains.
* `Reported.count_fates`: a file is listed once among the five fates, and nothing else is.
* `run_fates`: **every file of a scan has exactly one fate**, the gaps are the files of three of them, and
  no file is rejected for its version.
-/

namespace ChangeImpact

open Batch

/-! ## Newer versions -/

namespace Store

variable {s next : Store} {results : List ScanResult} {outcome : MergeOutcome}

/-- A version that is handed out is newer than the one committed for its file. -/
theorem committed_lt_reserve (s : Store) (f : String) : s.committed f < (s.reserve f).2 := by
  have hlatest := committed_le_latest s f
  change s.committed f < s.latest f + 1
  omega

/-- The rejections of a batch are those of its verdict. -/
theorem judge_of_mergeBatch (h : s.mergeBatch results = (next, .ok outcome)) :
    ∃ accepted, s.judge results = .ok (accepted, outcome.rejections) := by
  unfold mergeBatch at h
  rcases tryMerge_cases s results with ⟨fault, -, hm⟩ | ⟨rejections, hj, hm⟩ | ⟨_, _, fault, -, -, hm⟩ |
    ⟨accepted, rejections, database, hj, -, -, hm⟩
  · rw [hm] at h; cases h
  · rw [hm] at h
    obtain rfl := Except.ok.inj (Prod.mk.inj h).2
    exact ⟨[], hj⟩
  · rw [hm] at h; cases h
  · rw [hm] at h
    obtain rfl := Except.ok.inj (Prod.mk.inj h).2
    exact ⟨accepted, hj⟩

theorem mergeBatch_not_stale (hfiles : (results.map ScanResult.file).Nodup)
    (hnewer : ∀ r ∈ results, s.committed r.file < versionOf s.scans r)
    (h : s.mergeBatch results = (next, .ok outcome)) :
    ∀ x ∈ outcome.rejections, ∀ file version now, x.cause ≠ .stale file version now := by
  obtain ⟨accepted, hj⟩ := judge_of_mergeBatch h
  exact judge_not_stale hfiles hnewer hj

/-- In a rebuild the versions do not matter, because a result that is not newer loses its version. -/
theorem rebuild_not_stale (hfiles : (results.map ScanResult.file).Nodup)
    (h : s.rebuild results = (next, .ok outcome)) :
    ∀ x ∈ outcome.rejections, ∀ file version now, x.cause ≠ .stale file version now := by
  rcases rebuild_cases s results with ⟨fault, hm⟩ | ⟨database, hm⟩
  · rw [hm] at h; cases h
  · rw [hm] at h
    rw [← files_refreshed s results] at hfiles
    exact mergeBatch_not_stale hfiles (newer_of_mem_refreshed s database results) h

end Store

namespace Scan

variable {registry : Registry} {s next : Store} {token : Token} {files : Table Value}
  {fates : List (String × Fate)} {oneByOne rebuild : Bool} {report : ScanReport}

/-- **One file:** its version is handed out before it is extracted, and stays with its result. -/
theorem newer_of_extractFile {path : String} {content : Value} {r : ScanResult}
    (h : extractFile registry s token path content = (next, .ok (.extracted r))) :
    ∃ v, r.version = some v ∧ s.committed path < v := by
  unfold extractFile at h
  split at h
  · cases (Prod.mk.inj h).2
  · dsimp only at h
    split at h
    · cases (Prod.mk.inj h).2
    · cases (Prod.mk.inj h).2
    · have hr := Fate.extracted.inj (Except.ok.inj (Prod.mk.inj h).2)
      refine ⟨_, by rw [← hr], Store.committed_lt_reserve s path⟩

/-- **All files.** Extraction changes no committed version, so what was newer stays newer. -/
theorem newer_of_extractAll (h : extractAll registry oneByOne s token files = (next, .ok fates)) :
    ∀ f r, (f, r) ∈ resultsOf fates → ∃ v, r.version = some v ∧ s.committed f < v := by
  induction files generalizing s token fates with
  | nil =>
    obtain rfl := Except.ok.inj (Prod.mk.inj h).2
    intro f r hr
    cases hr
  | cons entry files ih =>
    obtain ⟨path, content⟩ := entry
    rcases hfile : extractFile registry s token path content with ⟨mid, fault | fate⟩
    · rw [extractAll_fault hfile] at h
      cases (Prod.mk.inj h).2
    · rw [extractAll_cons hfile] at h
      obtain ⟨hnext, hfates⟩ := Prod.mk.inj h
      obtain ⟨rest, hrest, rfl⟩ := map_eq_ok.1 hfates
      have hmid : ∀ f, mid.committed f = s.committed f := by
        obtain ⟨issued, ⟨-, hm⟩ | ⟨_, -, hm⟩ | ⟨-, _, -, hm⟩⟩ :=
          extractFile_cases registry s token path content
        all_goals
          rw [hm] at hfile
          obtain rfl := (Prod.mk.inj hfile).1
          exact fun _ => rfl
      have hlater := ih (Prod.ext hnext hrest)
      intro f r hr
      cases fate with
      | cancelled => exact hmid f ▸ hlater f r hr
      | unhandled => exact hmid f ▸ hlater f r hr
      | extracted q =>
        rcases List.mem_cons.1 hr with hr | hr
        · obtain ⟨rfl, rfl⟩ := Prod.mk.inj hr
          exact newer_of_extractFile hfile
        · exact hmid f ▸ hlater f r hr

/-- The results of a scan are for different files. -/
theorem Extracted.nodup_mergeable (h : Extracted registry token files fates) (hfiles : files.Ordered) :
    ((mergeable fates).map ScanResult.file).Nodup := by
  have hkeys := h.keys_perm.nodup_iff.2 hfiles.nodup
  have hresults := (List.nodup_append.1 (List.nodup_append.1 hkeys).1).1
  rw [h.files_mergeable]
  exact hresults.sublist (List.filter_sublist.map _)

/-- **No file of a scan is rejected for its version,** whether the graph is rebuilt or not. -/
theorem run_not_stale (hfiles : files.Ordered)
    (h : run registry s token oneByOne rebuild files = (next, .ok report)) :
    ∀ x ∈ report.rejections, ∀ file version now, x.cause ≠ .stale file version now := by
  obtain ⟨issued, ⟨fates, hall, hextracted⟩ | ⟨fault, hall, -⟩⟩ :=
    extractAll_cases registry oneByOne files s token
  · have hdifferent := hextracted.nodup_mergeable hfiles
    rw [run_of_extractAll hall rebuild] at h
    obtain ⟨hnext, hreport⟩ := Prod.mk.inj h
    obtain ⟨outcome, hout, rfl⟩ := map_eq_ok.1 hreport
    cases rebuild with
    | true =>
      have hm : ({ s with issued } : Store).rebuild (mergeable fates) = (next, .ok outcome) :=
        Prod.ext hnext hout
      exact Store.rebuild_not_stale hdifferent hm
    | false =>
      have hm : ({ s with issued } : Store).mergeBatch (mergeable fates) = (next, .ok outcome) :=
        Prod.ext hnext hout
      refine Store.mergeBatch_not_stale hdifferent (fun r hr => ?_) hm
      obtain ⟨entry, hentry, rfl⟩ := List.mem_map.1 hr
      have hresult := List.mem_of_mem_filter hentry
      obtain ⟨v, hv, hlt⟩ := newer_of_extractAll hall entry.1 entry.2 hresult
      obtain ⟨content, q, version, -, hextract, hq⟩ := hextracted.result hresult
      have hfile : entry.2.file = entry.1 := by
        rw [hq]
        exact (Registry.file_of_extract hextract : q.file = entry.1)
      rw [hfile]
      unfold versionOf
      rw [hv]
      exact hlt
  · unfold run at h
    rw [hall] at h
    cases (Prod.mk.inj h).2

/-! ## Fates -/

/-- **A file is listed once among the five fates,** and nothing else is listed. -/
theorem Reported.count_fates {first : Table Contribution} (hfiles : files.Ordered)
    (h : Reported registry token files first next report) (f : String) :
    report.merged.count f + report.excluded.count f +
        (report.rejections.map Rejection.file).count f + report.unhandled.count f +
        report.notScanned.count f =
      if files.contains f then 1 else 0 := by
  have hcount := h.listed.count_eq f
  simp only [List.count_append] at hcount
  have hkeys : files.keys.count f = if files.contains f then 1 else 0 := by
    split
    · rename_i hmem
      exact List.count_eq_one_of_mem hfiles.nodup (Table.contains_iff.1 hmem)
    · rename_i hnot
      exact List.count_eq_zero.2 fun hmem => hnot (Table.contains_iff.2 hmem)
  omega

/-- A gap is one of three things, each with its reason. -/
theorem mem_gaps_iff (report : ScanReport) (g : Gap) :
    g ∈ report.gaps ↔ (g.file ∈ report.excluded ∧ g.reason = "parse_error") ∨
      (∃ x ∈ report.rejections, x.file = g.file ∧ x.cause.name = g.reason) ∨
      (g.file ∈ report.notScanned ∧ g.reason = "cancelled") := by
  obtain ⟨f, reason⟩ := g
  unfold ScanReport.gaps
  rw [(sortByRank_perm _ _).mem_iff, List.mem_append, List.mem_append, or_assoc]
  simp only [List.mem_map, Gap.mk.injEq]
  constructor
  · rintro (⟨x, hx, rfl, rfl⟩ | hrejected | ⟨x, hx, rfl, rfl⟩)
    · exact .inl ⟨hx, rfl⟩
    · exact .inr (.inl hrejected)
    · exact .inr (.inr ⟨hx, rfl⟩)
  · rintro (⟨hf, rfl⟩ | hrejected | ⟨hf, rfl⟩)
    · exact .inl ⟨f, hf, rfl, rfl⟩
    · exact .inr (.inl hrejected)
    · exact .inr (.inr ⟨f, hf, rfl, rfl⟩)

/-- The files of the gaps, each as often as it is excluded, rejected or not scanned. -/
theorem files_gaps_perm (report : ScanReport) : (report.gaps.map Gap.file).Perm
    (report.excluded ++ report.rejections.map Rejection.file ++ report.notScanned) := by
  unfold ScanReport.gaps
  refine ((sortByRank_perm _ _).map Gap.file).trans (List.Perm.of_eq ?_)
  simp only [List.map_append, List.map_map]
  have hid : ∀ xs : List String, ∀ reason, xs.map (Gap.file ∘ fun f => ⟨f, reason⟩) = xs := by
    intro xs reason
    exact List.map_id xs
  rw [hid, hid]
  rfl

/-- A file is a gap for one reason. -/
theorem Reported.nodup_gaps {first : Table Contribution} (hfiles : files.Ordered)
    (h : Reported registry token files first next report) : (report.gaps.map Gap.file).Nodup := by
  rw [List.nodup_iff_count_le_one]
  intro f
  have hgaps := (files_gaps_perm report).count_eq f
  have hfates := h.count_fates hfiles f
  simp only [List.count_append] at hgaps
  split at hfates
  · omega
  · omega

/-- **Every file of a scan has exactly one fate.** Whatever the store, the extractors and the token are, and
whether files are scanned into the graph or the graph is rebuilt from them: if the scan returns, each file
occurs once among those that were merged, excluded, rejected, unhandled or not scanned, and no other file
does. It is listed for what the scan found in it. The gaps are exactly the excluded files, the rejected
ones, with the cause, and those that were not scanned, each file once. No file is rejected for its
version. -/
theorem run_fates (registry : Registry) (s : Store) (token : Token) (oneByOne rebuild : Bool)
    {files : Table Value} (hfiles : files.Ordered) {next : Store} {report : ScanReport}
    (h : run registry s token oneByOne rebuild files = (next, .ok report)) :
    (∀ f, report.merged.count f + report.excluded.count f +
        (report.rejections.map Rejection.file).count f + report.unhandled.count f +
        report.notScanned.count f = if files.contains f then 1 else 0) ∧
    Reported registry token files (if rebuild then [] else s.contributions) next report ∧
    (∀ g, g ∈ report.gaps ↔ (g.file ∈ report.excluded ∧ g.reason = "parse_error") ∨
      (∃ x ∈ report.rejections, x.file = g.file ∧ x.cause.name = g.reason) ∨
      (g.file ∈ report.notScanned ∧ g.reason = "cancelled")) ∧
    (report.gaps.map Gap.file).Nodup ∧
    ∀ x ∈ report.rejections, ∀ file version now, x.cause ≠ .stale file version now := by
  have hreported := run_eq_ok h
  exact ⟨hreported.count_fates hfiles, hreported, mem_gaps_iff report, hreported.nodup_gaps hfiles,
    run_not_stale hfiles h⟩

/-- An extractor for paths of one character: it finds an entity in one file, faults at another, and finds an
edge with a missing end in all others. -/
def varied : Extractor where
  name := "varied"
  roles := []
  patterns := ["?"]
  extract := fun _ path =>
    if path = "a" then .ok (.result { file := path, entities := [.bare "x"] })
    else if path = "b" then .error .unencodableText
    else .ok (.result { file := path, edges := [⟨.str "x", .str "ghost", .reference, .backward, .one⟩] })

/-- Five files, each with a fate of its own if the scan is cancelled before the last one. -/
def fiveFiles : Table Value :=
  [("a", .str ""), ("b", .str ""), ("c", .str ""), ("dd", .str ""), ("e", .str "")]

/-- What the extractor finds in the first files, with the versions of a first scan. -/
def findsX : ScanResult := { file := "a", entities := [.bare "x"], version := some 1 }

def faults : ScanResult := { varied.run (.str "") "b" with version := some 1 }

def dangles : ScanResult :=
  { file := "c", edges := [⟨.str "x", .str "ghost", .reference, .backward, .one⟩], version := some 1 }

theorem extractAll_fiveFiles : extractAll ⟨[varied]⟩ true {} ⟨some 4⟩ fiveFiles =
    ({ issued := [("a", 1), ("b", 1), ("c", 1), ("dd", 1)] },
      .ok [("a", .extracted findsX), ("b", .extracted faults), ("c", .extracted dangles),
        ("dd", .unhandled), ("e", .cancelled)]) := by
  have hhandled : ∀ path ∈ ["a", "b", "c"], varied.handles path = true := by decide +kernel
  have hother : varied.handles "dd" = false := by decide +kernel
  unfold fiveFiles
  simp only [extractAll, extractFile, Registry.extract_singleton, hhandled "a" (by decide),
    hhandled "b" (by decide), hhandled "c" (by decide), hother]
  rfl

/-- All five fates occur. -/
theorem run_fates_five : fiveFiles.Ordered ∧ ∃ next report,
    run ⟨[varied]⟩ {} ⟨some 4⟩ true false fiveFiles = (next, .ok report) ∧
    report.merged = ["a"] ∧ report.excluded = ["b"] ∧
    report.rejections = [⟨"c", .danglingEdge "x" "ghost" "ghost"⟩] ∧
    report.unhandled = ["dd"] ∧ report.notScanned = ["e"] ∧
    (∀ f, report.merged.count f + report.excluded.count f +
        (report.rejections.map Rejection.file).count f + report.unhandled.count f +
        report.notScanned.count f = if fiveFiles.contains f then 1 else 0) ∧
    ⟨"b", "parse_error"⟩ ∈ report.gaps ∧ ⟨"e", "cancelled"⟩ ∈ report.gaps := by
  have hfiles : fiveFiles.Ordered := by
    unfold Table.Ordered Text.Ascending
    decide +kernel
  have hmerge : (({ issued := [("a", 1), ("b", 1), ("c", 1), ("dd", 1)] } : Store).mergeBatch
      [findsX, dangles]).2 = .ok ⟨["a"], [⟨"c", .danglingEdge "x" "ghost" "ghost"⟩], 1⟩ := by
    have horder : inOrder [findsX, dangles] = [findsX, dangles] := inOrder_eq_self (by decide +kernel)
    unfold Store.mergeBatch Store.tryMerge Store.judge propose
    rw [horder]
    decide +kernel
  have hmergeable : mergeable [("a", .extracted findsX), ("b", .extracted faults),
      ("c", .extracted dangles), ("dd", .unhandled), ("e", .cancelled)] = [findsX, dangles] := rfl
  have hrun := run_of_extractAll extractAll_fiveFiles false
  rw [if_neg Bool.false_ne_true, hmergeable, hmerge] at hrun
  obtain ⟨hcounts, -, hgaps, -⟩ := run_fates ⟨[varied]⟩ {} ⟨some 4⟩ true false hfiles hrun
  refine ⟨hfiles, _, _, hrun, rfl, rfl, rfl, rfl, rfl, hcounts, ?_, ?_⟩
  · exact (hgaps _).2 (.inl ⟨List.mem_singleton_self _, rfl⟩)
  · exact (hgaps _).2 (.inr (.inr ⟨List.mem_singleton_self _, rfl⟩))

end Scan

end ChangeImpact
