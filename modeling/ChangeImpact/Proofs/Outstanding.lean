import ChangeImpact.Proofs.Conformance
import ChangeImpact.Proofs.Gaps

/-!
# The diagnostics that are outstanding

An engine keeps the diagnostics of its scans until the files are looked at again. It lists a diagnostic
under the file that the diagnostic names, and clears the list of a file that it looks at. Nothing ties the
two together: an extractor may report on another file than the one it was given.

* `ScanState.Filed`, `about_record`: what one scan does to the lists.
* `Engine.events`: the calls of a run that left something in the record, the newest first.
* `Engine.Listed.performAll`: **what is listed under a file was reported on it since its list was
  cleared.**
* `sinceCleared_eq_lastFound`: if all files report on themselves, that is what the last look at the file
  found.
* `Engine.diagnostics_replaced`: **so it is for every run just if no scan that returns finds anything about
  another file.** `Engine.stray_listed_twice` shows what else can happen.
-/

namespace ChangeImpact

/-- The entries with a key: one or none. -/
theorem Table.Ordered.filter_key {α : Type} {t : Table α} (ht : t.Ordered) (k : String) :
    t.filter (fun e => e.1 == k) = ((t.get? k).map (Prod.mk k)).toList := by
  induction t with
  | nil => rfl
  | cons e t ih =>
    obtain ⟨hlt, ht⟩ := Table.ordered_cons.1 ht
    rw [Table.get?_cons, List.filter_cons]
    by_cases he : e.1 = k
    · -- the keys are in order, so the key does not come again
      have hnone : Table.get? t k = none :=
        Table.get?_eq_none_iff.2 fun hk => Text.ne_of_lt (hlt k hk) he
      rw [ih ht, hnone]
      subst he
      simp
    · rw [ih ht]
      simp [he]

/-- Of lists whose diagnostics name their keys, those with one key hold what names it. -/
theorem filter_file_flatMap {α : Type} (key : α → String) {xs : List α} {g : α → List Diagnostic}
    (h : ∀ x ∈ xs, ∀ d ∈ g x, d.file = key x) (f : String) :
    (xs.flatMap g).filter (fun d => d.file == f) = (xs.filter fun x => key x == f).flatMap g := by
  induction xs with
  | nil => rfl
  | cons x xs ih =>
    obtain ⟨hx, hxs⟩ := List.forall_mem_cons.1 h
    rw [List.flatMap_cons, List.filter_append, ih hxs, List.filter_cons]
    by_cases hkey : key x = f
    · have hall : (g x).filter (fun d => d.file == f) = g x :=
        List.filter_eq_self.2 fun d hd => by simp [hx d hd, hkey]
      rw [hall, if_pos (by simpa using hkey), List.flatMap_cons]
    · have hnone : (g x).filter (fun d => d.file == f) = [] :=
        List.filter_eq_nil_iff.2 fun d hd => by simp [hx d hd, hkey]
      rw [hnone, if_neg (by simpa using hkey), List.nil_append]

/-- Diagnostics that agree file by file are the same. -/
theorem perm_of_filter_file {ds es : List Diagnostic}
    (h : ∀ f, ds.filter (fun d => d.file == f) = es.filter fun d => d.file == f) : ds.Perm es := by
  refine List.perm_iff_count.2 fun d => ?_
  have hcount := congrArg (List.count d) (h d.file)
  rwa [List.count_filter (by simp), List.count_filter (by simp)] at hcount

/-! ## The lists of the files -/

namespace ScanState

variable {s : ScanState}

/-- The diagnostics that are listed under a file. -/
def about (s : ScanState) (f : String) : List Diagnostic := (s.diagnosticsByFile.get? f).getD []

/-- Every diagnostic is listed under the file that it names. -/
structure Filed (s : ScanState) : Prop where
  ordered : s.diagnosticsByFile.Ordered
  file : ∀ entry ∈ s.diagnosticsByFile, ∀ d ∈ entry.2, d.file = entry.1

theorem Filed.filter_diagnostics (h : s.Filed) (f : String) :
    s.diagnostics.filter (fun d => d.file == f) = s.about f := by
  have hflat : s.diagnostics = s.diagnosticsByFile.flatMap (·.2) := List.flatMap_def.symm
  rw [hflat, filter_file_flatMap Prod.fst h.file, h.ordered.filter_key]
  unfold about
  cases s.diagnosticsByFile.get? f with
  | none => rfl
  | some ds => exact List.append_nil ds

theorem Filed.forget (h : s.Filed) (g : String) : (s.forget g).Filed where
  ordered := h.ordered.erase g
  file := fun entry hentry => h.file entry (List.mem_of_mem_filter hentry)

theorem Filed.addDiagnostic (h : s.Filed) (d : Diagnostic) : (s.addDiagnostic d).Filed where
  ordered := h.ordered.insert _ _
  file := by
    rintro ⟨f, ds⟩ hentry x hx
    have hget := (h.ordered.insert d.file _).get?_eq_some_iff.2 hentry
    rw [Table.get?_insert] at hget
    split at hget
    · rename_i hf
      obtain rfl := Option.some.inj hget
      rcases List.mem_append.1 hx with hx | hx
      · cases hold : s.diagnosticsByFile.get? d.file with
        | none => rw [hold] at hx; cases hx
        | some old =>
          rw [hold] at hx
          rw [hf]
          exact h.file _ (Table.mem_of_get?_eq_some hold) x hx
      · rw [List.mem_singleton.1 hx, hf]
    · exact h.file _ (Table.mem_of_get?_eq_some hget) x hx

theorem Filed.addGap (h : s.Filed) (g : Gap) : (s.addGap g).Filed := by
  unfold ScanState.addGap
  dsimp only
  split
  · exact h
  · exact ⟨h.ordered, h.file⟩

theorem Filed.record (h : s.Filed) (files : List String) (report : ScanReport) :
    (s.record files report).Filed := by
  unfold ScanState.record
  refine List.foldlRecOn report.gaps ScanState.addGap ?_ fun s hs g _ => hs.addGap g
  refine List.foldlRecOn report.diagnostics ScanState.addDiagnostic ?_ fun s hs d _ => hs.addDiagnostic d
  exact List.foldlRecOn _ ScanState.forget ⟨h.ordered, h.file⟩ fun s hs f _ => hs.forget f

theorem about_forget (s : ScanState) (g f : String) :
    (s.forget g).about f = if f = g then [] else s.about f := by
  unfold about forget
  simp only [Table.get?_erase]
  split <;> rfl

theorem about_forgetAll {f : String} (files : List String) :
    ∀ s : ScanState, (files.foldl forget s).about f = if f ∈ files then [] else s.about f := by
  induction files with
  | nil => simp
  | cons g files ih =>
    intro s
    rw [List.foldl_cons, ih, about_forget]
    by_cases hg : f = g
    · simp [hg]
    · simp [hg]

theorem about_addDiagnostics {f : String} (ds : List Diagnostic) :
    ∀ s : ScanState,
      (ds.foldl addDiagnostic s).about f = s.about f ++ ds.filter fun d => d.file == f := by
  induction ds with
  | nil => intro s; exact (List.append_nil _).symm
  | cons d ds ih =>
    intro s
    have hstep : (s.addDiagnostic d).about f = s.about f ++ if d.file = f then [d] else [] := by
      unfold about addDiagnostic
      simp only [Table.get?_insert]
      by_cases hf : f = d.file
      · simp [hf]
      · simp [hf, Ne.symm hf]
    rw [List.foldl_cons, ih, hstep, List.append_assoc, List.filter_cons]
    by_cases hf : d.file = f
    · simp [hf]
    · simp [hf]

theorem about_addGaps {f : String} (gaps : List Gap) (s : ScanState) :
    (gaps.foldl addGap s).about f = s.about f := by
  refine List.foldlRecOn (motive := fun t : ScanState => t.about f = s.about f) gaps addGap rfl ?_
  intro t ht g _
  unfold addGap
  dsimp only
  split
  · exact ht
  · exact ht

/-- **One scan:** the files that it looks at are cleared, and what it reports is added. -/
theorem about_record (s : ScanState) (files : List String) (report : ScanReport) (f : String) :
    (s.record files report).about f =
      (if f ∈ files ∧ f ∉ report.notScanned then [] else s.about f) ++
        report.diagnostics.filter fun d => d.file == f := by
  unfold record
  rw [about_addGaps, about_addDiagnostics, about_forgetAll]
  simp [about]

end ScanState

/-! ## What a scan looks at -/

/-- The diagnostics that the extraction of a file gives. -/
def Registry.diagnosticsIn (registry : Registry) (entry : String × Value) : List Diagnostic :=
  match registry.extract entry.2 entry.1 with
  | .ok (some r) => r.diagnostics
  | _ => []

/-- The diagnostics of files. -/
def Registry.found (registry : Registry) (files : Table Value) : List Diagnostic :=
  files.flatMap registry.diagnosticsIn

namespace Scan

variable {registry : Registry} {s next : Store} {token : Token} {files : Table Value}
  {fates : List (String × Fate)} {oneByOne rebuild : Bool} {report : ScanReport}

/-- The files that a scan looks at before it is cancelled. -/
def lookedAt (token : Token) (files : Table Value) : Table Value :=
  match token.left with
  | none => files
  | some n => files.take n

theorem lookedAt_sublist (token : Token) (files : Table Value) : (lookedAt token files).Sublist files := by
  unfold lookedAt
  split
  · exact List.Sublist.refl files
  · exact List.take_sublist _ files

theorem ordered_lookedAt (hfiles : files.Ordered) (token : Token) : (lookedAt token files).Ordered :=
  List.Pairwise.sublist ((lookedAt_sublist token files).map _) hfiles

theorem keys_lookedAt_append (token : Token) (files : Table Value) :
    (lookedAt token files).keys ++ skipped token files.keys = files.keys := by
  obtain ⟨left⟩ := token
  cases left with
  | none => exact List.append_nil _
  | some n =>
    change (files.take n).map (·.1) ++ (files.map (·.1)).drop n = files.map (·.1)
    rw [← List.map_drop, ← List.map_append, List.take_append_drop]

/-- A file is looked at if it is given and not skipped. -/
theorem mem_keys_lookedAt (hfiles : files.Ordered) {f : String} :
    f ∈ (lookedAt token files).keys ↔ f ∈ files.keys ∧ f ∉ skipped token files.keys := by
  have hsplit := keys_lookedAt_append token files
  have hnodup : ((lookedAt token files).keys ++ skipped token files.keys).Nodup := by
    rw [hsplit]
    exact Text.Ascending.nodup hfiles
  have hdisjoint := (List.nodup_append.1 hnodup).2.2
  have hmem : f ∈ files.keys ↔ f ∈ (lookedAt token files).keys ∨ f ∈ skipped token files.keys := by
    rw [← List.mem_append, hsplit]
  rw [hmem]
  constructor
  · exact fun hf => ⟨.inl hf, fun hskipped => hdisjoint f hf f hskipped rfl⟩
  · rintro ⟨hf | hf, hnot⟩
    · exact hf
    · exact absurd hf hnot

theorem lookedAt_cons (token : Token) (entry : String × Value) (files : Table Value) :
    lookedAt token (entry :: files) =
      if token.stops then lookedAt token.next files else entry :: lookedAt token.next files := by
  obtain ⟨left⟩ := token
  cases left with
  | none => rfl
  | some n =>
    cases n with
    | zero => rfl
    | succ n => rfl

/-- The results of a scan hold the diagnostics of the files that it looked at. -/
theorem Extracted.diagnostics (h : Extracted registry token files fates) :
    ((resultsOf fates).flatMap fun r => r.2.diagnostics) = registry.found (lookedAt token files) := by
  induction h with
  | @nil token =>
    unfold lookedAt
    split
    · rfl
    · rw [List.take_nil]; rfl
  | @skip token path content files fates hstop _ ih =>
    rw [lookedAt_cons, if_pos hstop]
    exact ih
  | @look token path content files fate fates hgo hyields _ ih =>
    rw [lookedAt_cons, if_neg (by simp [hgo])]
    unfold Registry.found at ih ⊢
    rw [List.flatMap_cons, ← ih]
    unfold Registry.diagnosticsIn
    cases hyields with
    | unhandled hnone => rw [Registry.extract_of_extractorsFor hnone]; rfl
    | extracted version hextract => rw [hextract]; rfl

/-- **A scan reports the diagnostics of the files that it looked at.** -/
theorem diagnostics_of_run (h : run registry s token oneByOne rebuild files = (next, .ok report)) :
    report.diagnostics = registry.found (lookedAt token files) := by
  obtain ⟨issued, ⟨fates, hall, hextracted⟩ | ⟨f, hall, -⟩⟩ :=
    extractAll_cases registry oneByOne files s token
  · rw [run_of_extractAll hall rebuild] at h
    obtain ⟨outcome, -, rfl⟩ := map_eq_ok.1 (Prod.mk.inj h).2
    exact hextracted.diagnostics
  · unfold run at h
    rw [hall] at h; cases h

end Scan

/-- No scan that returns finds anything about another file than the one that it is looking at. -/
def Registry.ReportsOwn (registry : Registry) : Prop :=
  ∀ (s next : Store) (token : Token) (oneByOne rebuild : Bool) (files : Table Value)
    (report : ScanReport), files.Ordered →
    Scan.run registry s token oneByOne rebuild files = (next, .ok report) →
    ∀ entry ∈ Scan.lookedAt token files, ∀ d ∈ registry.diagnosticsIn entry, d.file = entry.1

/-- A file has the diagnostics of all extractors that handle it. -/
theorem Registry.diagnostics_of_extract {registry : Registry} {content : Value} {path : String}
    {r : ScanResult} (h : registry.extract content path = .ok (some r)) :
    r.diagnostics = (registry.extractorsFor path).flatMap fun x => (x.run content path).diagnostics := by
  unfold Registry.extract at h
  split at h
  · cases h
  · rename_i x hone
    cases h
    rw [hone]
    exact (List.append_nil _).symm
  · rw [bind_eq_ok] at h
    obtain ⟨q, hq, h⟩ := h
    cases h
    unfold ScanResult.combine at hq
    dsimp only at hq
    rw [bind_eq_ok] at hq
    obtain ⟨-, -, hq⟩ := hq
    rw [← Except.ok.inj hq]
    exact List.flatMap_map _ _ _

/-- If the results of every extractor name their file, so do the diagnostics of a file. -/
theorem Registry.reportsOwn_of_extractors {registry : Registry}
    (h : ∀ x ∈ registry.extractors, ∀ content path r, x.extract content path = .ok (.result r) →
      ∀ d ∈ r.diagnostics, d.file = path) : registry.ReportsOwn := by
  intro s next token oneByOne rebuild files report _ _ entry _ d hd
  obtain ⟨path, content⟩ := entry
  have hrun : ∀ x ∈ registry.extractorsFor path, ∀ d ∈ (x.run content path).diagnostics,
      d.file = path := by
    intro x hx
    unfold Extractor.run
    split
    · exact List.forall_mem_singleton.2 rfl
    · exact List.forall_mem_singleton.2 rfl
    · rename_i r hr
      exact h x (mem_extractors_of_extractorsFor hx) content path r hr
  unfold diagnosticsIn at hd
  split at hd
  · rename_i r hr
    rw [diagnostics_of_extract hr] at hd
    obtain ⟨x, hx, hd⟩ := List.mem_flatMap.1 hd
    exact hrun x hx d hd
  · cases hd

/-- The bundled extractors report on the files that they look at. -/
theorem Registry.reportsOwn_bundled (patterns : List (String × List String)) :
    (bundled patterns).ReportsOwn :=
  reportsOwn_of_extractors fun _ hx _ _ _ hr d hd => ((valid_of_bundled hx hr).diagnostics d hd).file

/-! ## Runs -/

namespace Engine

variable {registry : Registry} {e : Engine} {f : String} {past : List Event}

/-- The files that a call is given. -/
def Call.files : Call → Table Value
  | .scan files _ _ => files
  | .rebuild files _ _ => files
  | .remove _ => []
  | .snapshot => []

/-- What a call leaves in the record. A scan or a rebuild that fails leaves nothing, but a removal clears
the list of its file whether it fails or not. -/
def eventOf (e : Engine) : Call → Option Event
  | .scan files token jobs => (e.scan files token jobs).2.toOption.map (.scan files token)
  | .rebuild files token jobs => (e.rebuild files token jobs).2.toOption.map (.rebuild files token)
  | .remove file => some (.remove file)
  | .snapshot => none

/-- What the calls of a run leave in the record, the newest first. -/
def events (e : Engine) : List Call → List Event
  | [] => []
  | call :: calls => (e.perform call).events calls ++ (e.eventOf call).toList

/-- The files that an event looked at. -/
def Event.looked : Event → Table Value
  | .scan files token _ => Scan.lookedAt token files
  | .rebuild files token _ => Scan.lookedAt token files
  | .remove _ => []

/-- An event clears the list of a file if it looks at the file or removes it, and a rebuild clears all. -/
def Event.clears (f : String) : Event → Bool
  | .scan files token _ => (Scan.lookedAt token files).contains f
  | .rebuild .. => true
  | .remove file => file == f

/-- The event of a scan or a rebuild that returns. -/
def Event.ofRun (rebuild : Bool) (files : Table Value) (token : Token) (report : ScanReport) : Event :=
  if rebuild then .rebuild files token report else .scan files token report

theorem Event.looked_ofRun (rebuild : Bool) (files : Table Value) (token : Token) (report : ScanReport) :
    (Event.ofRun rebuild files token report).looked = Scan.lookedAt token files := by
  cases rebuild with
  | true => rfl
  | false => rfl

/-- What was reported on a file since its list was cleared. -/
def sinceCleared (registry : Registry) (f : String) : List Event → List Diagnostic
  | [] => []
  | event :: past =>
    (if event.clears f then [] else sinceCleared registry f past) ++
      (registry.found event.looked).filter fun d => d.file == f

/-- What the last look at a file found, if the file was not removed since and the graph was not rebuilt
without it. -/
def lastFound (registry : Registry) (f : String) : List Event → List Diagnostic
  | [] => []
  | event :: past =>
    ((event.looked.get? f).map fun content => registry.diagnosticsIn (f, content)).getD
      (if event.clears f then [] else lastFound registry f past)

/-- What the last looks at all files found, file by file. -/
def lastFindings (registry : Registry) (events : List Event) : List Diagnostic :=
  (distinctTexts (events.flatMap fun event => event.looked.keys)).flatMap fun f =>
    lastFound registry f events

/-- The engine lists under each file what was reported on it since its list was cleared. -/
structure Listed (e : Engine) (past : List Event) : Prop where
  filed : e.scanState.Filed
  about : ∀ f, e.scanState.about f = sinceCleared e.registry f past

/-- A scan or a rebuild fails and leaves the lists as they are, or it returns and its report goes into
them. -/
theorem runScan_cases (e : Engine) (files : Table Value) (token : Token) (jobs : Option Int)
    (rebuild : Bool) :
    (∃ store fault, e.runScan files token jobs rebuild = ({ e with store }, .error fault)) ∨
    ∃ next report, e.runScan files token jobs rebuild = (next, .ok report) ∧
      next.registry = e.registry ∧
      next.scanState = (if rebuild then {} else e.scanState).record files.keys report ∧
      Scan.run e.registry e.store token (jobs.getD e.jobs ≤ 1) rebuild files =
        (next.store, .ok report) := by
  unfold runScan
  rcases hrun : Scan.run e.registry e.store token (jobs.getD e.jobs ≤ 1) rebuild files with
    ⟨store, fault | report⟩
  · simp only [hrun]
    exact .inl ⟨store, fault, rfl⟩
  · simp only [hrun]
    exact .inr ⟨_, report, rfl, rfl, rfl, rfl⟩

/-- What a scan or a rebuild makes of the list of a file. -/
theorem about_of_run {next : Engine} {before : ScanState} {s : Store} {token : Token}
    {oneByOne rebuild : Bool} {files : Table Value} {report : ScanReport} (hfiles : files.Ordered)
    (hrun : Scan.run registry s token oneByOne rebuild files = (next.store, .ok report))
    (hstate : next.scanState = before.record files.keys report) (f : String) :
    next.scanState.about f =
      (if (Scan.lookedAt token files).contains f then [] else before.about f) ++
        (registry.found (Scan.lookedAt token files)).filter fun d => d.file == f := by
  have hlooked : (f ∈ files.keys ∧ f ∉ report.notScanned) ↔
      (Scan.lookedAt token files).contains f = true := by
    rw [(Scan.run_eq_ok hrun).notScanned, ← Scan.mem_keys_lookedAt hfiles, Table.contains_iff]
  rw [hstate, ScanState.about_record, Scan.diagnostics_of_run hrun]
  simp only [hlooked]

theorem registry_perform (e : Engine) (call : Call) : (e.perform call).registry = e.registry := by
  have hscan : ∀ files token jobs rebuild,
      (e.runScan files token jobs rebuild).1.registry = e.registry := by
    intro files token jobs rebuild
    rcases runScan_cases e files token jobs rebuild with ⟨store, fault, h⟩ | ⟨next, report, h, hsame, -⟩
    · rw [h]
    · rw [h]; exact hsame
  cases call with
  | scan files token jobs => exact hscan files token jobs false
  | rebuild files token jobs => exact hscan files token jobs true
  | remove file => rfl
  | snapshot => rfl

/-- One scan or rebuild. -/
theorem Listed.runScan (h : e.Listed past) {files : Table Value} (hfiles : files.Ordered) (token : Token)
    (jobs : Option Int) (rebuild : Bool) :
    (e.runScan files token jobs rebuild).1.Listed
      (((e.runScan files token jobs rebuild).2.toOption.map (Event.ofRun rebuild files token)).toList ++
        past) := by
  rcases runScan_cases e files token jobs rebuild with
    ⟨store, fault, hrun⟩ | ⟨next, report, hrun, hregistry, hstate, hok⟩
  · rw [hrun]
    exact ⟨h.filed, h.about⟩
  · rw [hrun]
    cases rebuild with
    | true =>
      have hempty : ({} : ScanState).Filed := ⟨Table.ordered_nil, List.forall_mem_nil _⟩
      refine ⟨by rw [hstate]; exact hempty.record _ _, fun f => ?_⟩
      -- there is nothing to clear in the state that a rebuild starts from
      rw [about_of_run hfiles hok hstate f, hregistry]
      have hnone : (if (Scan.lookedAt token files).contains f then []
          else ScanState.about {} f : List Diagnostic) = [] := ite_self _
      exact congrArg (· ++ _) hnone
    | false =>
      refine ⟨by rw [hstate]; exact h.filed.record _ _, fun f => ?_⟩
      rw [about_of_run hfiles hok hstate f, hregistry]
      simp only [Bool.false_eq_true, if_false, h.about f]
      rfl

/-- **One call.** -/
theorem Listed.perform (h : e.Listed past) {call : Call} (hfiles : call.files.Ordered) :
    (e.perform call).Listed ((e.eventOf call).toList ++ past) := by
  cases call with
  | scan files token jobs => exact h.runScan hfiles token jobs false
  | rebuild files token jobs => exact h.runScan hfiles token jobs true
  | remove file =>
    refine ⟨h.filed.forget file, fun f => ?_⟩
    change (e.scanState.forget file).about f =
      (if (file == f) = true then [] else sinceCleared e.registry f past) ++ []
    rw [ScanState.about_forget, h.about f, List.append_nil]
    by_cases hf : f = file
    · simp [hf]
    · simp [hf, Ne.symm hf]
  | snapshot => exact ⟨h.filed, h.about⟩

/-- **What is listed under a file was reported on it since its list was cleared,** whichever calls were
made and failed. -/
theorem Listed.performAll {calls : List Call} :
    ∀ {e : Engine} {past : List Event}, e.Listed past → (∀ call ∈ calls, call.files.Ordered) →
      (e.performAll calls).Listed (e.events calls ++ past) ∧
        (e.performAll calls).registry = e.registry := by
  induction calls with
  | nil => exact fun h _ => ⟨h, rfl⟩
  | cons call calls ih =>
    intro e past h hcalls
    obtain ⟨hcall, hcalls⟩ := List.forall_mem_cons.1 hcalls
    obtain ⟨hlisted, hregistry⟩ := ih (h.perform hcall) hcalls
    refine ⟨?_, hregistry.trans (registry_perform e call)⟩
    rw [events, List.append_assoc]
    exact hlisted

/-! ## Files that report on themselves -/

/-- The files that were looked at report on themselves. -/
structure Event.Own (registry : Registry) (event : Event) : Prop where
  ordered : event.looked.Ordered
  file : ∀ entry ∈ event.looked, ∀ d ∈ registry.diagnosticsIn entry, d.file = entry.1

/-- Of what was found in files that report on themselves, what names a file was found in it. -/
theorem filter_found {files : Table Value} (hfiles : files.Ordered)
    (h : ∀ entry ∈ files, ∀ d ∈ registry.diagnosticsIn entry, d.file = entry.1) (f : String) :
    ((registry.found files).filter fun d => d.file == f) =
      ((files.get? f).map fun content => registry.diagnosticsIn (f, content)).getD [] := by
  unfold Registry.found
  rw [filter_file_flatMap Prod.fst h, hfiles.filter_key]
  cases files.get? f with
  | none => rfl
  | some content => exact List.append_nil _

theorem Event.clears_of_looked {event : Event} (h : f ∈ event.looked.keys) : event.clears f = true := by
  cases event with
  | scan files token report => exact Table.contains_iff.2 h
  | rebuild files token report => rfl
  | remove file => cases h

/-- **What was reported on a file since its list was cleared is what the last look at it found.** -/
theorem sinceCleared_eq_lastFound (f : String) (h : ∀ event ∈ past, event.Own registry) :
    sinceCleared registry f past = lastFound registry f past := by
  induction past with
  | nil => rfl
  | cons event past ih =>
    obtain ⟨hevent, hpast⟩ := List.forall_mem_cons.1 h
    rw [sinceCleared, lastFound, ih hpast, filter_found hevent.ordered hevent.file]
    cases hget : event.looked.get? f with
    | none => exact List.append_nil _
    | some content =>
      have hkey : f ∈ event.looked.keys := Table.mem_keys.2 ⟨content, Table.mem_of_get?_eq_some hget⟩
      rw [if_pos (Event.clears_of_looked hkey)]
      rfl

theorem file_of_mem_lastFound (h : ∀ event ∈ past, event.Own registry) {d : Diagnostic}
    (hd : d ∈ lastFound registry f past) : d.file = f := by
  induction past with
  | nil => cases hd
  | cons event past ih =>
    obtain ⟨hevent, hpast⟩ := List.forall_mem_cons.1 h
    rw [lastFound] at hd
    cases hget : event.looked.get? f with
    | some content =>
      rw [hget] at hd
      exact hevent.file (f, content) (Table.mem_of_get?_eq_some hget) d hd
    | none =>
      rw [hget, Option.map_none, Option.getD_none] at hd
      split at hd
      · cases hd
      · exact ih hpast hd

/-- Nothing was found in a file that was never looked at. -/
theorem lastFound_of_not_looked (h : ∀ event ∈ past, f ∉ event.looked.keys) :
    lastFound registry f past = [] := by
  induction past with
  | nil => rfl
  | cons event past ih =>
    obtain ⟨hevent, hpast⟩ := List.forall_mem_cons.1 h
    rw [lastFound, Table.get?_eq_none_iff.2 hevent, ih hpast, Option.map_none, Option.getD_none, ite_self]

/-- Of the findings of all files, those that name a file were found in it. -/
theorem filter_lastFindings (h : ∀ event ∈ past, event.Own registry) (f : String) :
    ((lastFindings registry past).filter fun d => d.file == f) = lastFound registry f past := by
  have hown : ∀ g ∈ distinctTexts (past.flatMap fun event => event.looked.keys),
      ∀ d ∈ lastFound registry g past, d.file = g := fun g _ d hd => file_of_mem_lastFound h hd
  have hnodup := (distinctTexts_ascending (past.flatMap fun event => event.looked.keys)).nodup
  unfold lastFindings
  rw [filter_file_flatMap (fun g => g) hown, List.filter_beq]
  by_cases hf : f ∈ distinctTexts (past.flatMap fun event => event.looked.keys)
  · rw [List.count_eq_one_of_mem hnodup hf]
    exact List.append_nil _
  · rw [List.count_eq_zero_of_not_mem hf]
    rw [mem_distinctTexts, List.mem_flatMap] at hf
    exact (lastFound_of_not_looked fun event hevent hkey => hf ⟨event, hevent, hkey⟩).symm

theorem own_of_runScan (hregistry : e.registry.ReportsOwn) {files : Table Value} (hfiles : files.Ordered)
    {token : Token} {jobs : Option Int} (rebuild : Bool) {event : Event}
    (hevent : (e.runScan files token jobs rebuild).2.toOption.map (Event.ofRun rebuild files token) =
      some event) : event.Own e.registry := by
  rcases runScan_cases e files token jobs rebuild with
    ⟨store, fault, hrun⟩ | ⟨next, report, hrun, -, -, hok⟩
  · rw [hrun] at hevent
    cases hevent
  · rw [hrun] at hevent
    obtain rfl := Option.some.inj hevent
    have hlooked := Event.looked_ofRun rebuild files token report
    refine ⟨by rw [hlooked]; exact Scan.ordered_lookedAt hfiles token, ?_⟩
    rw [hlooked]
    exact hregistry _ _ token _ rebuild files report hfiles hok

/-- If no scan that returns finds anything about another file, so it is with all that is recorded. -/
theorem own_of_mem_eventOf (hregistry : e.registry.ReportsOwn) {call : Call}
    (hfiles : call.files.Ordered) : ∀ event ∈ e.eventOf call, event.Own e.registry := by
  intro event hevent
  cases call with
  | scan files token jobs => exact own_of_runScan hregistry hfiles false hevent
  | rebuild files token jobs => exact own_of_runScan hregistry hfiles true hevent
  | remove file =>
    cases hevent
    exact ⟨Table.ordered_nil, List.forall_mem_nil _⟩
  | snapshot => cases hevent

theorem own_of_mem_events {calls : List Call} :
    ∀ {e : Engine}, e.registry.ReportsOwn → (∀ call ∈ calls, call.files.Ordered) →
      ∀ event ∈ e.events calls, event.Own e.registry := by
  induction calls with
  | nil => exact fun _ _ => List.forall_mem_nil _
  | cons call calls ih =>
    intro e hregistry hcalls
    obtain ⟨hcall, hcalls⟩ := List.forall_mem_cons.1 hcalls
    have hsame := registry_perform e call
    rw [events, List.forall_mem_append]
    refine ⟨?_, fun event hevent => own_of_mem_eventOf hregistry hcall event (Option.mem_toList.1 hevent)⟩
    rw [← hsame]
    exact ih (hsame ▸ hregistry) hcalls

/-! ## Files that report on others -/

variable {start : Engine} {calls : List Call}

/-- **What an engine lists about a file after some calls.** -/
theorem filter_diagnostics_performAll (hstart : start.scanState = {})
    (hcalls : ∀ call ∈ calls, call.files.Ordered) (f : String) :
    ((start.performAll calls).scanState.diagnostics.filter fun d => d.file == f) =
      sinceCleared start.registry f (start.events calls) := by
  have hempty : start.Listed [] := by
    refine ⟨?_, fun f => ?_⟩
    · rw [hstart]; exact ⟨Table.ordered_nil, List.forall_mem_nil _⟩
    · rw [hstart]; rfl
  obtain ⟨hlisted, hregistry⟩ := hempty.performAll hcalls
  rw [hlisted.filed.filter_diagnostics, hlisted.about, hregistry, List.append_nil]

theorem events_remove (calls : List Call) (p : String) :
    ∀ e : Engine, e.events (calls ++ [.remove p]) = .remove p :: e.events calls := by
  induction calls with
  | nil => exact fun _ => rfl
  | cons call calls ih =>
    intro e
    rw [List.cons_append, events, ih]
    rfl

/-- A removal keeps the diagnostics that name another file. -/
theorem count_diagnostics_remove (hstart : start.scanState = {})
    (hcalls : ∀ call ∈ calls, call.files.Ordered) {d : Diagnostic} {p : String} (hne : d.file ≠ p) :
    (start.performAll (calls ++ [.remove p])).scanState.diagnostics.count d =
      (start.performAll calls).scanState.diagnostics.count d := by
  have hremoved : ∀ call ∈ calls ++ [Call.remove p], call.files.Ordered :=
    List.forall_mem_append.2 ⟨hcalls, List.forall_mem_singleton.2 Table.ordered_nil⟩
  have hkept : sinceCleared start.registry d.file (.remove p :: start.events calls) =
      sinceCleared start.registry d.file (start.events calls) := by
    have hother : ¬ (p == d.file) = true := fun heq => hne (eq_of_beq heq).symm
    exact (List.append_nil _).trans (if_neg hother)
  have hsame := filter_diagnostics_performAll hstart hremoved d.file
  rw [events_remove, hkept, ← filter_diagnostics_performAll hstart hcalls] at hsame
  have hcount := congrArg (List.count d) hsame
  rwa [List.count_filter (by simp), List.count_filter (by simp)] at hcount

/-- What was found in a file is dropped with the file, and nothing else is. -/
theorem lastFindings_remove (registry : Registry) {past : List Event} {p : String}
    (hp : p ∈ past.flatMap fun event => event.looked.keys) :
    (lastFindings registry past).Perm
      (lastFound registry p past ++ lastFindings registry (.remove p :: past)) := by
  let ps := distinctTexts (past.flatMap fun event => event.looked.keys)
  have hnodup : ps.Nodup := (distinctTexts_ascending _).nodup
  have hperm : ps.Perm (p :: ps.erase p) := List.perm_cons_erase (mem_distinctTexts.2 hp)
  have hkept : ((ps.erase p).flatMap fun f => lastFound registry f (.remove p :: past)) =
      (ps.erase p).flatMap fun f => lastFound registry f past := by
    refine List.flatMap_congr fun f hf => ?_
    have hne : ¬ (p == f) = true := fun heq => hnodup.not_mem_erase (eq_of_beq heq ▸ hf)
    exact if_neg hne
  have hdropped : lastFound registry p (.remove p :: past) = [] := if_pos (beq_self_eq_true p)
  have hbefore := hperm.flatMap_right fun f => lastFound registry f past
  have hafter := hperm.flatMap_right fun f => lastFound registry f (.remove p :: past)
  rw [List.flatMap_cons] at hbefore
  rw [List.flatMap_cons, hdropped, List.nil_append, hkept] at hafter
  exact hbefore.trans (hafter.symm.append_left _)

/-- If the lists are right before and after a file is removed, what was found in the file names it: else it
would be listed under another file, and stay. -/
theorem file_of_found (hstart : start.scanState = {}) (hcalls : ∀ call ∈ calls, call.files.Ordered)
    {p : String} (hp : p ∈ (start.events calls).flatMap fun event => event.looked.keys)
    (hbefore : (start.performAll calls).scanState.diagnostics.Perm
      (lastFindings start.registry (start.events calls)))
    (hafter : (start.performAll (calls ++ [.remove p])).scanState.diagnostics.Perm
      (lastFindings start.registry (start.events (calls ++ [.remove p]))))
    {d : Diagnostic} (hd : d ∈ lastFound start.registry p (start.events calls)) : d.file = p := by
  by_contra hne
  have hlisted := count_diagnostics_remove hstart hcalls hne
  have hdropped := (lastFindings_remove start.registry hp).count_eq d
  rw [events_remove] at hafter
  rw [hbefore.count_eq, hafter.count_eq] at hlisted
  rw [List.count_append, hlisted] at hdropped
  have hpos := List.count_pos_iff.2 hd
  omega

/-- A scan or a rebuild as a call, with one worker or two. -/
def callOf (rebuild oneByOne : Bool) (files : Table Value) (token : Token) : Call :=
  let jobs := some (if oneByOne then 1 else 2)
  if rebuild then .rebuild files token jobs else .scan files token jobs

theorem files_callOf (rebuild oneByOne : Bool) (files : Table Value) (token : Token) :
    (callOf rebuild oneByOne files token).files = files := by
  unfold callOf
  cases rebuild with
  | true => rfl
  | false => rfl

theorem eventOf_callOf {next : Store} {token : Token} {oneByOne rebuild : Bool} {files : Table Value}
    {report : ScanReport}
    (h : Scan.run e.registry e.store token oneByOne rebuild files = (next, .ok report)) :
    e.eventOf (callOf rebuild oneByOne files token) = some (Event.ofRun rebuild files token report) := by
  have hjobs : decide ((some (if oneByOne then 1 else 2) : Option Int).getD e.jobs ≤ 1) = oneByOne := by
    cases oneByOne with
    | true => rfl
    | false => rfl
  have hrun : (e.runScan files token (some (if oneByOne then 1 else 2)) rebuild).2 = .ok report := by
    unfold runScan
    dsimp only
    rw [hjobs, h]
  have hevent : e.eventOf (callOf rebuild oneByOne files token) =
      (e.runScan files token (some (if oneByOne then 1 else 2)) rebuild).2.toOption.map
        (Event.ofRun rebuild files token) := by
    cases rebuild with
    | true => rfl
    | false => rfl
  rw [hevent, hrun]
  rfl

/-- If the lists are right after every run, no scan that returns finds anything about another file. -/
theorem reportsOwn_of_perm (h : ∀ (config : Config) (store : Store) (calls : List Call),
      (∀ call ∈ calls, call.files.Ordered) →
      (performAll { config, registry, store } calls).scanState.diagnostics.Perm
        (lastFindings registry (events { config, registry, store } calls))) :
    registry.ReportsOwn := by
  intro s next token oneByOne rebuild files report hfiles hrun entry hentry d hd
  let start : Engine := { config := default, registry, store := s }
  let calls := [callOf rebuild oneByOne files token]
  let event := Event.ofRun rebuild files token report
  have hevents : start.events calls = [event] := by
    change [] ++ (start.eventOf _).toList = _
    rw [eventOf_callOf (e := start) hrun]
    rfl
  have hcalls : ∀ call ∈ calls, call.files.Ordered :=
    List.forall_mem_singleton.2 (by rw [files_callOf]; exact hfiles)
  have hget : event.looked.get? entry.1 = some entry.2 := by
    rw [Event.looked_ofRun]
    exact (Scan.ordered_lookedAt hfiles token).get?_eq_some_iff.2 hentry
  have hstart : start.scanState = {} := rfl
  refine file_of_found hstart hcalls ?_ (h default s calls hcalls) (h default s _ ?_) ?_
  · rw [hevents]
    exact List.mem_flatMap.2 ⟨event, List.mem_singleton_self _,
      Table.mem_keys.2 ⟨_, Table.mem_of_get?_eq_some hget⟩⟩
  · exact List.forall_mem_append.2 ⟨hcalls, List.forall_mem_singleton.2 Table.ordered_nil⟩
  · rw [hevents, lastFound, hget]
    exact hd

/-- **Diagnostics are replaced with their file, unless they name another one.** A new engine is used in any
way: files are scanned, the graph is rebuilt, files are removed, and calls fail. Whatever the extractors do,
the engine lists about a file what was reported on it since the file was looked at or removed, or the graph
rebuilt. These are the diagnostics that the last look at each file found, for every engine and every run,
just if no scan that returns finds anything about another file than the one it is looking at. -/
theorem diagnostics_replaced (registry : Registry) :
    (∀ (config : Config) (store : Store) (calls : List Call), (∀ call ∈ calls, call.files.Ordered) →
      ∀ f, ((performAll { config, registry, store } calls).scanState.diagnostics.filter
          fun d => d.file == f) =
        sinceCleared registry f (events { config, registry, store } calls)) ∧
    ((∀ (config : Config) (store : Store) (calls : List Call), (∀ call ∈ calls, call.files.Ordered) →
      (performAll { config, registry, store } calls).scanState.diagnostics.Perm
        (lastFindings registry (events { config, registry, store } calls))) ↔ registry.ReportsOwn) := by
  refine ⟨fun config store calls hcalls => filter_diagnostics_performAll rfl hcalls,
    reportsOwn_of_perm, fun hown config store calls hcalls => perm_of_filter_file fun f => ?_⟩
  have hevents : ∀ event ∈ events { config, registry, store } calls, event.Own registry :=
    own_of_mem_events (e := { config, registry, store }) hown hcalls
  rw [filter_diagnostics_performAll rfl hcalls, filter_lastFindings hevents]
  exact sinceCleared_eq_lastFound f hevents

/-- A manifest that is no mapping is scanned twice by the bundled extractors. -/
def unreadableTwice : List Call :=
  [.scan [("a.impact.yml", .str "[]")] {} (some 1), .scan [("a.impact.yml", .str "[]")] {} (some 1)]

/-- The bundled extractors report on the files that they look at, so what is listed about the manifest is
what the second scan found in it. -/
theorem diagnostics_replaced_bundled :
    (Registry.bundled []).ReportsOwn ∧
    (performAll { config := default, registry := .bundled [], store := {} }
        unreadableTwice).scanState.diagnostics.Perm
      (lastFindings (.bundled [])
        (events { config := default, registry := .bundled [], store := {} } unreadableTwice)) := by
  refine ⟨Registry.reportsOwn_bundled [], ?_⟩
  refine (diagnostics_replaced (.bundled [])).2.2 (Registry.reportsOwn_bundled []) default {} _ ?_
  have hone : Table.Ordered [("a.impact.yml", Value.str "[]")] := List.pairwise_singleton _ _
  exact List.forall_mem_cons.2 ⟨hone, List.forall_mem_singleton.2 hone⟩

/-- A warning about another file than the one that is looked at. -/
def strayWarning : Diagnostic := { file := "b", message := "m", severity := Diagnostic.warningSeverity }

/-- An engine whose extractor finds that warning in every file. -/
def strayEngine : Engine where
  config := default
  registry := ⟨[⟨"stray", [], ["a"],
    fun _ path => .ok (.result { file := path, diagnostics := [strayWarning] })⟩]⟩
  store := {}

/-- A file is scanned twice and its warning is listed twice, but the last look at it found one. -/
theorem stray_listed_twice :
    let calls : List Call := [.scan [("a", .str "")] {} (some 1), .scan [("a", .str "")] {} (some 1)]
    (strayEngine.performAll calls).scanState.diagnostics = [strayWarning, strayWarning] ∧
      lastFindings strayEngine.registry (strayEngine.events calls) = [strayWarning] := by
  decide +kernel

end Engine

end ChangeImpact
