import ChangeImpact.Engine
import ChangeImpact.Proofs.Scanning

/-!
# The gaps and the graph

The engine keeps a table of gaps beside the graph. A scan replaces the entries of the files that it looks
at, a rebuild starts the table anew, and a removal drops the entries of its file. The graph changes in
other ways, so that the two agree is a property of whole histories.

* `mem_reasons_record`, `mem_gaps`: what the table lists after a scan.
* `History`, `latest`: what was done with an engine, and the call that looked at a file last.
* `Reflected.of_run`: one scan, for the files that it looks at; `Reflected.keep`: for the others.
* `gaps_reflect`: **a file that was scanned is a gap just if its last scan skipped, excluded or rejected
  it, and otherwise the graph holds what that scan found in it.**
-/

namespace ChangeImpact

/-! ## The table of gaps -/

/-- A file is a gap of a scan if it was excluded, rejected or skipped. -/
theorem ScanReport.exists_gap {report : ScanReport} {f : String} :
    (∃ reason, ⟨f, reason⟩ ∈ report.gaps) ↔
      f ∈ report.excluded ∨ f ∈ report.rejections.map Rejection.file ∨ f ∈ report.notScanned := by
  unfold ScanReport.gaps
  constructor
  · rintro ⟨reason, h⟩
    rw [(sortByRank_perm _ _).mem_iff, List.mem_append, List.mem_append] at h
    rcases h with (h | h) | h
    · obtain ⟨x, hx, hgap⟩ := List.mem_map.1 h
      exact .inl ((Gap.mk.inj hgap).1 ▸ hx)
    · obtain ⟨x, hx, hgap⟩ := List.mem_map.1 h
      exact .inr (.inl (List.mem_map.2 ⟨x, hx, (Gap.mk.inj hgap).1⟩))
    · obtain ⟨x, hx, hgap⟩ := List.mem_map.1 h
      exact .inr (.inr ((Gap.mk.inj hgap).1 ▸ hx))
  · intro h
    simp only [(sortByRank_perm _ _).mem_iff, List.mem_append]
    rcases h with h | h | h
    · exact ⟨"parse_error", .inl (.inl (List.mem_map.2 ⟨f, h, rfl⟩))⟩
    · obtain ⟨x, hx, rfl⟩ := List.mem_map.1 h
      exact ⟨x.cause.name, .inl (.inr (List.mem_map.2 ⟨x, hx, rfl⟩))⟩
    · exact ⟨"cancelled", .inr (List.mem_map.2 ⟨f, h, rfl⟩)⟩

namespace ScanState

variable {s : ScanState} {f reason : String}

/-- The reasons for which a file is listed. -/
def reasons (s : ScanState) (f : String) : List String := (s.gapsByFile.get? f).getD []

theorem mem_gaps (h : s.gapsByFile.Ordered) : ⟨f, reason⟩ ∈ s.gaps ↔ reason ∈ s.reasons f := by
  unfold gaps reasons
  rw [(sortByRank_perm _ _).mem_iff, List.mem_flatMap]
  constructor
  · rintro ⟨entry, hentry, hmem⟩
    obtain ⟨x, hx, hgap⟩ := List.mem_map.1 hmem
    obtain ⟨rfl, rfl⟩ := Gap.mk.inj hgap
    rw [h.get?_eq_some_iff.2 hentry]; exact hx
  · intro hmem
    cases hget : s.gapsByFile.get? f with
    | none => rw [hget] at hmem; cases hmem
    | some found =>
      rw [hget] at hmem
      exact ⟨(f, found), Table.mem_of_get?_eq_some hget, List.mem_map.2 ⟨reason, hmem, rfl⟩⟩

theorem reasons_forget (s : ScanState) (g f : String) :
    (s.forget g).reasons f = if f = g then [] else s.reasons f := by
  unfold reasons forget
  simp only [Table.get?_erase]
  split <;> rfl

theorem mem_reasons_addGap {g : Gap} :
    reason ∈ (s.addGap g).reasons f ↔ reason ∈ s.reasons f ∨ g = ⟨f, reason⟩ := by
  obtain ⟨file, r⟩ := g
  simp only [addGap, Gap.mk.injEq]
  split
  · rename_i hlisted
    constructor
    · exact fun h => .inl h
    · rintro (h | ⟨rfl, rfl⟩)
      · exact h
      · exact List.contains_iff_mem.1 hlisted
  · unfold reasons
    simp only [Table.get?_insert]
    split
    · rename_i hfile
      subst hfile
      simp [eq_comm]
    · rename_i hfile
      simp [Ne.symm hfile]

theorem mem_reasons_addGaps (gaps : List Gap) :
    ∀ s : ScanState, reason ∈ (gaps.foldl addGap s).reasons f ↔
      reason ∈ s.reasons f ∨ ⟨f, reason⟩ ∈ gaps := by
  induction gaps with
  | nil => simp
  | cons g gaps ih =>
    intro s
    rw [List.foldl_cons, ih, mem_reasons_addGap, or_assoc, List.mem_cons, eq_comm]

theorem gapsByFile_addDiagnostics (diagnostics : List Diagnostic) :
    ∀ s : ScanState, (diagnostics.foldl addDiagnostic s).gapsByFile = s.gapsByFile := by
  induction diagnostics with
  | nil => exact fun _ => rfl
  | cons d diagnostics ih => exact fun s => ih (s.addDiagnostic d)

theorem reasons_forgetAll (files : List String) :
    ∀ s : ScanState, (files.foldl forget s).reasons f = if f ∈ files then [] else s.reasons f := by
  induction files with
  | nil => simp
  | cons g files ih =>
    intro s
    rw [List.foldl_cons, ih, reasons_forget]
    by_cases hg : f = g
    · simp [hg]
    · simp [hg]

/-- **What is listed after a scan:** its gaps, and what was listed of files that it did not look at. -/
theorem mem_reasons_record {files : List String} {report : ScanReport} :
    reason ∈ (s.record files report).reasons f ↔
      (reason ∈ s.reasons f ∧ (f ∈ files → f ∈ report.notScanned)) ∨ ⟨f, reason⟩ ∈ report.gaps := by
  unfold record
  have hforget := reasons_forgetAll (f := f) (files.filter fun g => !report.notScanned.contains g)
    { s with status := report.status }
  rw [mem_reasons_addGaps]
  unfold reasons at hforget ⊢
  rw [gapsByFile_addDiagnostics, hforget]
  have hlooked : f ∈ files.filter (fun g => !report.notScanned.contains g) ↔
      ¬ (f ∈ files → f ∈ report.notScanned) := by simp
  by_cases hkept : f ∈ files → f ∈ report.notScanned
  · rw [if_neg (fun hf => hlooked.1 hf hkept), and_iff_left hkept]
  · rw [if_pos (hlooked.2 hkept)]
    simp [hkept]

theorem ordered_forget (h : s.gapsByFile.Ordered) (g : String) : (s.forget g).gapsByFile.Ordered :=
  h.erase g

theorem ordered_addGap (h : s.gapsByFile.Ordered) (g : Gap) : (s.addGap g).gapsByFile.Ordered := by
  unfold addGap
  simp only
  split
  · exact h
  · exact h.insert _ _

theorem ordered_record (h : s.gapsByFile.Ordered) (files : List String) (report : ScanReport) :
    (s.record files report).gapsByFile.Ordered := by
  unfold record
  have hfold : ∀ {α : Type} (step : ScanState → α → ScanState),
      (∀ s a, s.gapsByFile.Ordered → (step s a).gapsByFile.Ordered) → ∀ (xs : List α) (s : ScanState),
      s.gapsByFile.Ordered → (xs.foldl step s).gapsByFile.Ordered := by
    intro α step hstep xs
    induction xs with
    | nil => exact fun _ hs => hs
    | cons x xs ih => exact fun s hs => ih _ (hstep s x hs)
  apply hfold addGap (fun s g hs => ordered_addGap hs g)
  rw [gapsByFile_addDiagnostics]
  exact hfold forget (fun s g hs => ordered_forget hs g) _ { s with status := report.status } h

end ScanState

/-! ## Histories -/

namespace Engine

/-- A call that returned normally, with what a scan was given and reported. -/
inductive Event where
  | scan (files : Table Value) (token : Token) (report : ScanReport)
  | rebuild (files : Table Value) (token : Token) (report : ScanReport)
  | remove (file : String)

/-- What was done with an engine, the newest call first. The files of a scan are given by path. -/
inductive History (start : Engine) : List Event → Engine → Prop
  | start : History start [] start
  | scan {events : List Event} {e next : Engine} {files : Table Value} {token : Token}
      {jobs : Option Int} {report : ScanReport} (h : History start events e) (hfiles : files.Ordered)
      (hscan : e.scan files token jobs = (next, .ok report)) :
      History start (.scan files token report :: events) next
  | rebuild {events : List Event} {e next : Engine} {files : Table Value} {token : Token}
      {jobs : Option Int} {report : ScanReport} (h : History start events e) (hfiles : files.Ordered)
      (hrebuild : e.rebuild files token jobs = (next, .ok report)) :
      History start (.rebuild files token report :: events) next
  | remove {events : List Event} {e next : Engine} {file : String} {removed : Bool}
      (h : History start events e) (hremove : e.removeFile file = (next, .ok removed)) :
      History start (.remove file :: events) next

/-- A scan that a file was passed to. -/
structure Look where
  files : Table Value
  token : Token
  report : ScanReport

/-- The last scan or rebuild that a file was passed to since it was removed and since the graph was
rebuilt. -/
def latest (f : String) : List Event → Option Look
  | [] => none
  | .scan files token report :: events =>
    if files.contains f then some ⟨files, token, report⟩ else latest f events
  | .rebuild files token report :: _ =>
    if files.contains f then some ⟨files, token, report⟩ else none
  | .remove file :: events => if file = f then none else latest f events

/-- The gaps and the graph say about a file what its last scan found. -/
structure Reflected (registry : Registry) (f : String) (look : Look) (e : Engine) : Prop where
  listed : (∃ reason, reason ∈ e.scanState.reasons f) ↔
    f ∈ Scan.skipped look.token look.files.keys ∨
    (∃ r, Scan.Holds registry look.files f r ∧ r.hasErrors = true) ∨
    f ∈ look.report.rejections.map Rejection.file
  content : (∀ reason, reason ∉ e.scanState.reasons f) → registry.extractorsFor f = [] ∨
    ∃ r c, Scan.Holds registry look.files f r ∧ e.store.contributions.get? f = some c ∧
      c.entities = keepFirst (fun a b => a.id == b.id) r.entities ∧
      c.edges = keepFirst ScanResult.sameKey r.edges

variable {registry : Registry} {f : String} {look : Look} {e next : Engine}

/-- Calls that do not concern a file leave it as it is. -/
theorem Reflected.keep (h : Reflected registry f look e)
    (hreasons : ∀ reason, reason ∈ next.scanState.reasons f ↔ reason ∈ e.scanState.reasons f)
    (hstore : next.store.contributions.get? f = e.store.contributions.get? f) :
    Reflected registry f look next := by
  refine ⟨?_, fun hnone => ?_⟩
  · simp only [hreasons]; exact h.listed
  · rw [hstore]
    exact h.content fun reason hmem => hnone reason ((hreasons reason).2 hmem)

/-- What an engine is after a scan or a rebuild that returned normally. -/
theorem runScan_eq_ok {files : Table Value} {token : Token} {jobs : Option Int} {rebuild : Bool}
    {report : ScanReport} (h : e.runScan files token jobs rebuild = (next, .ok report)) :
    next.registry = e.registry ∧
      next.scanState = (if rebuild then {} else e.scanState).record files.keys report ∧
      Scan.Reported e.registry token files (if rebuild then [] else e.store.contributions) next.store
        report := by
  unfold runScan at h
  rcases hrun : Scan.run e.registry e.store token (jobs.getD e.jobs ≤ 1) rebuild files with
    ⟨store, fault | report'⟩
  · simp only [hrun] at h
    cases h
  · simp only [hrun] at h
    obtain ⟨rfl, hreport⟩ := Prod.mk.inj h
    obtain rfl := Except.ok.inj hreport
    exact ⟨rfl, rfl, Scan.run_eq_ok hrun⟩

/-- A file that a report lists under some heading was passed to the scan. -/
theorem mem_keys_of_gap {token : Token} {files : Table Value} {first : Table Contribution} {store : Store}
    {report : ScanReport} (h : Scan.Reported registry token files first store report)
    {reason : String} (hgap : ⟨f, reason⟩ ∈ report.gaps) : f ∈ files.keys := by
  refine h.listed.mem_iff.1 ?_
  simp only [List.mem_append]
  rcases ScanReport.exists_gap.1 ⟨reason, hgap⟩ with hf | hf | hf
  · exact .inl (.inl (.inr hf))
  · exact .inl (.inl (.inl (.inr hf)))
  · exact .inr hf

/-- **One scan, for a file that it is given.** The entry of the file is replaced, unless the scan is
cancelled before it: then there is an entry for that. -/
theorem Reflected.of_run {files : Table Value} (hfiles : files.Ordered) {token : Token}
    {first : Table Contribution} {report : ScanReport} {before : ScanState}
    (h : Scan.Reported registry token files first next.store report)
    (hstate : next.scanState = before.record files.keys report) (hf : f ∈ files.keys) :
    Reflected registry f ⟨files, token, report⟩ next := by
  have hlisted : (∃ reason, reason ∈ next.scanState.reasons f) ↔
      ∃ reason, ⟨f, reason⟩ ∈ report.gaps := by
    simp only [hstate, ScanState.mem_reasons_record]
    constructor
    · rintro ⟨reason, ⟨-, hskipped⟩ | hgap⟩
      · exact ScanReport.exists_gap.2 (.inr (.inr (hskipped hf)))
      · exact ⟨reason, hgap⟩
    · rintro ⟨reason, hgap⟩
      exact ⟨reason, .inr hgap⟩
  refine ⟨?_, fun hnone => ?_⟩
  · rw [hlisted, ScanReport.exists_gap]
    constructor
    · rintro (hexcluded | hrejected | hskipped)
      · exact .inr (.inl (h.excluded f hexcluded))
      · exact .inr (.inr hrejected)
      · exact .inl (h.notScanned ▸ hskipped)
    · rintro (hskipped | ⟨r, hholds, herrors⟩ | hrejected)
      · exact .inr (.inr (h.notScanned ▸ hskipped))
      · -- a file with an error is not merged, and some extractor handles it
        rcases h.cases hf with hmerged | hrejected | hexcluded | hunhandled | hskipped
        · obtain ⟨q, hq, hclean, -⟩ := h.merged f hmerged
          rw [hholds.unique hfiles hq, hclean] at herrors; cases herrors
        · exact .inr (.inl hrejected)
        · exact .inl hexcluded
        · exact absurd (h.unhandled f hunhandled) hholds.handled
        · exact .inr (.inr hskipped)
      · exact .inr (.inl hrejected)
  · have hgap : ¬ (f ∈ report.excluded ∨ f ∈ report.rejections.map Rejection.file ∨
        f ∈ report.notScanned) := by
      rw [← ScanReport.exists_gap, ← hlisted]
      rintro ⟨reason, hmem⟩
      exact hnone reason hmem
    rcases h.cases hf with hmerged | hrejected | hexcluded | hunhandled | hskipped
    · obtain ⟨r, hholds, -, c, hc, hcontent⟩ := h.merged f hmerged
      exact .inr ⟨r, c, hholds, hc, hcontent⟩
    · exact absurd (.inr (.inl hrejected)) hgap
    · exact absurd (.inl hexcluded) hgap
    · exact .inl (h.unhandled f hunhandled)
    · exact absurd (.inr (.inr hskipped)) hgap

/-- A scan leaves the files alone that it is not given. -/
theorem Reflected.scan {files : Table Value} {token : Token} {report : ScanReport}
    (h : Reflected registry f look e)
    (hreported : Scan.Reported registry token files e.store.contributions next.store report)
    (hstate : next.scanState = e.scanState.record files.keys report) (hf : f ∉ files.keys) :
    Reflected registry f look next := by
  refine h.keep (fun reason => ?_) (hreported.others f fun hmerged => hf ?_)
  · rw [hstate, ScanState.mem_reasons_record]
    constructor
    · rintro (⟨hmem, -⟩ | hgap)
      · exact hmem
      · exact absurd (mem_keys_of_gap hreported hgap) hf
    · exact fun hmem => .inl ⟨hmem, fun hkey => absurd hkey hf⟩
  · obtain ⟨r, ⟨content, hmem, -⟩, -⟩ := hreported.merged f hmerged
    exact Table.mem_keys.2 ⟨content, hmem⟩

/-- A removal leaves the other files alone. -/
theorem Reflected.remove {file : String} {removed : Bool} (h : Reflected registry f look e)
    (hremove : e.removeFile file = (next, .ok removed)) (hf : file ≠ f) :
    Reflected registry f look next := by
  unfold removeFile at hremove
  obtain ⟨rfl, -⟩ := Prod.mk.inj hremove
  refine h.keep (fun reason => ?_) ?_
  · simp only [ScanState.reasons_forget, if_neg (Ne.symm hf)]
  · change (e.store.remove file).1.contributions.get? f = _
    rcases Store.remove_cases e.store file with hm | ⟨database, hm⟩
    · rw [hm]
    · rw [hm]
      exact (Table.get?_erase _ _ _).trans (if_neg (Ne.symm hf))

/-- **After every history the gaps and the graph agree.** -/
theorem History.reflected {start : Engine} (hstart : start.scanState = {}) {events : List Event}
    (h : History start events e) :
    e.registry = start.registry ∧ e.scanState.gapsByFile.Ordered ∧
      ∀ f look, latest f events = some look → Reflected start.registry f look e := by
  induction h with
  | start =>
    refine ⟨rfl, ?_, fun f look hlook => by cases hlook⟩
    rw [hstart]; exact Table.ordered_nil
  | @scan events e next files token jobs report _ hfiles hscan ih =>
    obtain ⟨hregistry, hordered, hlatest⟩ := ih
    obtain ⟨hsame, hstate, hreported⟩ := runScan_eq_ok hscan
    rw [hregistry] at hsame hreported
    refine ⟨hsame, by rw [hstate]; exact ScanState.ordered_record hordered _ _, fun f look hlook => ?_⟩
    rw [latest] at hlook
    split at hlook
    · rename_i hf
      obtain rfl := Option.some.inj hlook
      exact Reflected.of_run hfiles hreported hstate (Table.contains_iff.1 hf)
    · rename_i hf
      exact (hlatest f look hlook).scan hreported hstate fun hkey => hf (Table.contains_iff.2 hkey)
  | @rebuild events e next files token jobs report _ hfiles hrebuild ih =>
    obtain ⟨hregistry, -, -⟩ := ih
    obtain ⟨hsame, hstate, hreported⟩ := runScan_eq_ok hrebuild
    rw [hregistry] at hsame hreported
    refine ⟨hsame, by rw [hstate]; exact ScanState.ordered_record Table.ordered_nil _ _,
      fun f look hlook => ?_⟩
    rw [latest] at hlook
    split at hlook
    · rename_i hf
      obtain rfl := Option.some.inj hlook
      exact Reflected.of_run hfiles hreported hstate (Table.contains_iff.1 hf)
    · cases hlook
  | @remove events e next file removed _ hremove ih =>
    obtain ⟨hregistry, hordered, hlatest⟩ := ih
    have hnext : next = { e with store := (e.store.remove file).1
                                 scanState := e.scanState.forget file } :=
      (Prod.mk.inj hremove).1.symm
    refine ⟨by rw [hnext]; exact hregistry, by rw [hnext]; exact ScanState.ordered_forget hordered file,
      fun f look hlook => ?_⟩
    rw [latest] at hlook
    split at hlook
    · cases hlook
    · rename_i hf
      exact (hlatest f look hlook).remove hremove hf

/-- **A file that was scanned is a gap just if its last scan skipped, excluded or rejected it.** A new
engine is used in any way: files are scanned, the graph is rebuilt, files are removed, and scans are
cancelled at any point. Of the scans and rebuilds that a file was passed to, the last one counts, if the
file was not removed and the graph was not rebuilt without it since. The engine lists the file as a gap
just if that scan skipped it because it was cancelled, or found an error in it, or had it rejected. If it
is not listed, no extractor handles it, or its contribution to the graph is what the extractors found in
the content that it had then, each entity and each edge once. -/
theorem gaps_reflect (config : Config) (registry : Registry) (store : Store) {events : List Event}
    {e : Engine} (h : History { config, registry, store } events e) {f : String} {look : Look}
    (hlook : latest f events = some look) :
    ((∃ reason, ⟨f, reason⟩ ∈ e.scanState.gaps) ↔
      f ∈ Scan.skipped look.token look.files.keys ∨
      (∃ r, Scan.Holds registry look.files f r ∧ r.hasErrors = true) ∨
      f ∈ look.report.rejections.map Rejection.file) ∧
    ((∀ reason, ⟨f, reason⟩ ∉ e.scanState.gaps) → registry.extractorsFor f = [] ∨
      ∃ r c, Scan.Holds registry look.files f r ∧ e.store.contributions.get? f = some c ∧
        c.entities = keepFirst (fun a b => a.id == b.id) r.entities ∧
        c.edges = keepFirst ScanResult.sameKey r.edges) := by
  obtain ⟨-, hordered, hreflected⟩ := h.reflected rfl
  simp only [ScanState.mem_gaps hordered]
  exact ⟨(hreflected f look hlook).listed, (hreflected f look hlook).content⟩

/-- An engine whose extractor faults at one file. -/
def faultyEngine : Engine where
  config := default
  registry := ⟨[Scan.onBad (.error .unencodableText)]⟩
  store := {}

/-- Two files are scanned and the good one is removed: the bad one is still a gap. -/
theorem gaps_reflect_fault : ∃ report e,
    History faultyEngine [.remove "good", .scan Scan.badAndGood {} report] e ∧
    latest "bad" [.remove "good", .scan Scan.badAndGood {} report] =
      some ⟨Scan.badAndGood, {}, report⟩ ∧
    ∃ reason, ⟨"bad", reason⟩ ∈ e.scanState.gaps := by
  have hscan : ((faultyEngine.scan Scan.badAndGood {} (some 1)).2.map fun _ => ()) = .ok () := by
    decide +kernel
  obtain ⟨report, hreport, -⟩ := map_eq_ok.1 hscan
  have hremove : ((faultyEngine.scan Scan.badAndGood {} (some 1)).1.removeFile "good").2 = .ok true := by
    decide +kernel
  have hhistory : History faultyEngine [.remove "good", .scan Scan.badAndGood {} report] _ :=
    .remove (.scan .start Scan.badAndGood_ordered (Prod.ext rfl hreport)) (Prod.ext rfl hremove)
  have hlatest : latest "bad" [.remove "good", .scan Scan.badAndGood {} report] =
      some ⟨Scan.badAndGood, {}, report⟩ := rfl
  refine ⟨report, _, hhistory, hlatest, ?_⟩
  refine (gaps_reflect default _ {} hhistory hlatest).1.2 (.inr (.inl ⟨_, ⟨.str "", List.mem_cons_self,
    Scan.extract_onBad _ (by decide +kernel) _⟩, by decide +kernel⟩))

end Engine

end ChangeImpact
