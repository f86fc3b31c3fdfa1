import ChangeImpact.Proofs.Rebuilding
import ChangeImpact.Proofs.Versions
import ChangeImpact.Scan.Run

/-!
# What becomes of the files of a scan

A scan extracts its files one by one and merges the results as one batch. Every extractor runs behind a
boundary that turns its failure into a diagnostic, so what one file holds should not matter to another.
The boundary ends where the result is handed over: an edge that stops a merge stops the whole scan.

* `Extracted`, `extractAll_eq_ok`: what became of each file before the merge.
* `Absorbed`: what became of a batch, file by file.
* `Reported`, `run_eq_ok`: **the report on a scan lists every file once**, and why it is listed.
* `run_isolates`: **without a database, a scan reports on all its files unless an extractor returns an
  edge that stops the merge.** `run_stopped_by_edge` shows that one file can keep the others out.
-/

namespace ChangeImpact

open Batch

/-! ## Extractors -/

theorem Extractor.file_run (x : Extractor) (content : Value) (path : String) :
    (x.run content path).file = path := by
  unfold Extractor.run
  split <;> rfl

theorem Extractor.mem_edges_run {x : Extractor} {content : Value} {path : String} {e : Edge Value}
    (h : e ∈ (x.run content path).edges) :
    ∃ r, x.extract content path = .ok (.result r) ∧ e ∈ r.edges := by
  unfold Extractor.run at h
  split at h
  · cases h
  · cases h
  · rename_i r hr
    exact ⟨r, hr, h⟩

/-- The results for one file become one with edges of theirs, unless one of the edges cannot be looked
up. -/
theorem ScanResult.combine_cases (file : String) (results : List ScanResult) :
    (∃ r, combine file results = .ok r ∧ r.file = file ∧
      ∀ e ∈ r.edges, e ∈ results.flatMap ScanResult.edges) ∨
    (∃ f, combine file results = .error f ∧
      ∃ e ∈ results.flatMap ScanResult.edges, requireKeys e = .error f) := by
  unfold combine
  cases hkeys : (results.flatMap ScanResult.edges).forM requireKeys with
  | ok u => exact .inl ⟨_, by simp only [hkeys]; rfl, rfl, fun e he => mem_of_mem_keepFirst he⟩
  | error f => exact .inr ⟨f, by simp only [hkeys]; rfl, forM_eq_error hkeys⟩

namespace Registry

variable {registry : Registry} {content : Value} {path : String}

/-- Some extractor for a file returns an edge. -/
def Returns (registry : Registry) (content : Value) (path : String) (e : Edge Value) : Prop :=
  ∃ x ∈ registry.extractorsFor path, ∃ r, x.extract content path = .ok (.result r) ∧ e ∈ r.edges

/-- **The three ways in which the extraction of a file ends:** no extractor handles it, there is a result
for it, or an edge that an extractor returns cannot be looked up. -/
theorem extract_cases (registry : Registry) (content : Value) (path : String) :
    (registry.extractorsFor path = [] ∧ registry.extract content path = .ok none) ∨
    (∃ r, registry.extract content path = .ok (some r) ∧ r.file = path ∧
      ∀ e ∈ r.edges, registry.Returns content path e) ∨
    (∃ f e, registry.extract content path = .error f ∧ registry.Returns content path e ∧
      ScanResult.requireKeys e = .error f) := by
  have hreturns : ∀ xs : List Extractor, (∀ x ∈ xs, x ∈ registry.extractorsFor path) →
      ∀ e ∈ (xs.map fun x => x.run content path).flatMap ScanResult.edges,
        registry.Returns content path e := by
    intro xs hxs e he
    obtain ⟨r, hr, he⟩ := List.mem_flatMap.1 he
    obtain ⟨x, hx, rfl⟩ := List.mem_map.1 hr
    exact ⟨x, hxs x hx, Extractor.mem_edges_run he⟩
  unfold extract
  split
  · rename_i hnone
    exact .inl ⟨hnone, rfl⟩
  · rename_i x hone
    right; left
    refine ⟨x.run content path, rfl, x.file_run content path, fun e he => ?_⟩
    exact hreturns [x] (fun y hy => hone ▸ hy) e (by simpa using he)
  · right
    rcases ScanResult.combine_cases path ((registry.extractorsFor path).map fun x => x.run content path)
      with ⟨r, hr, hfile, hedges⟩ | ⟨f, hf, e, he, hkeys⟩
    · left
      exact ⟨r, by rw [hr]; rfl, hfile, fun e he => hreturns _ (fun x hx => hx) e (hedges e he)⟩
    · right
      exact ⟨f, e, by rw [hf]; rfl, hreturns _ (fun x hx => hx) e he, hkeys⟩

theorem extractorsFor_of_extract (h : registry.extract content path = .ok none) :
    registry.extractorsFor path = [] := by
  rcases extract_cases registry content path with ⟨hnone, -⟩ | ⟨r, hr, -⟩ | ⟨f, -, hf, -⟩
  · exact hnone
  · rw [hr] at h; cases h
  · rw [hf] at h; cases h

theorem extract_of_extractorsFor (h : registry.extractorsFor path = []) :
    registry.extract content path = .ok none := by
  unfold extract
  rw [h]

/-- A registry with one extractor. -/
theorem extract_singleton (x : Extractor) (content : Value) (path : String) :
    Registry.extract ⟨[x]⟩ content path =
      .ok (if x.handles path then some (x.run content path) else none) := by
  have hsorted : Registry.sorted ⟨[x]⟩ = [x] := by
    unfold sorted
    exact List.mergeSort_singleton x
  unfold extract extractorsFor
  rw [hsorted]
  cases hx : x.handles path with
  | true => simp [hx]
  | false => simp [hx]

theorem file_of_extract {r : ScanResult} (h : registry.extract content path = .ok (some r)) :
    r.file = path := by
  rcases extract_cases registry content path with ⟨-, hnone⟩ | ⟨q, hq, hfile, -⟩ | ⟨f, -, hf, -⟩
  · rw [hnone] at h; cases h
  · rw [hq] at h; cases h; exact hfile
  · rw [hf] at h; cases h

theorem returns_of_extract {r : ScanResult} (h : registry.extract content path = .ok (some r))
    {e : Edge Value} (he : e ∈ r.edges) : registry.Returns content path e := by
  rcases extract_cases registry content path with ⟨-, hnone⟩ | ⟨q, hq, -, hedges⟩ | ⟨f, -, hf, -⟩
  · rw [hnone] at h; cases h
  · rw [hq] at h; cases h; exact hedges e he
  · rw [hf] at h; cases h

end Registry

/-! ## Extraction -/

namespace Scan

variable {registry : Registry} {s next : Store} {token : Token} {files : Table Value}
  {fates : List (String × Fate)} {oneByOne : Bool}

/-- What becomes of a file that is looked at. -/
inductive Yields (registry : Registry) (content : Value) (path : String) : Fate → Prop
  | unhandled (h : registry.extractorsFor path = []) : Yields registry content path .unhandled
  | extracted {r : ScanResult} (version : Int) (h : registry.extract content path = .ok (some r)) :
      Yields registry content path (.extracted { r with version := some version })

/-- What becomes of files that are extracted one after the other: none is looked at when the token says
to stop. -/
inductive Extracted (registry : Registry) : Token → Table Value → List (String × Fate) → Prop
  | nil {token : Token} : Extracted registry token [] []
  | skip {token : Token} {path : String} {content : Value} {files : Table Value}
      {fates : List (String × Fate)} (hstop : token.stops = true)
      (h : Extracted registry token.next files fates) :
      Extracted registry token ((path, content) :: files) ((path, .cancelled) :: fates)
  | look {token : Token} {path : String} {content : Value} {files : Table Value} {fate : Fate}
      {fates : List (String × Fate)} (hgo : token.stops = false)
      (hfate : Yields registry content path fate) (h : Extracted registry token.next files fates) :
      Extracted registry token ((path, content) :: files) ((path, fate) :: fates)

/-- **The three ways in which a file ends:** it is skipped, its extraction faults, or it yields
something. A scan version may have been handed out, and nothing else changes in the store. -/
theorem extractFile_cases (registry : Registry) (s : Store) (token : Token) (path : String)
    (content : Value) :
    ∃ issued,
      (token.stops = true ∧
        extractFile registry s token path content = ({ s with issued }, .ok .cancelled)) ∨
      (∃ f, registry.extract content path = .error f ∧
        extractFile registry s token path content = ({ s with issued }, .error f)) ∨
      (token.stops = false ∧ ∃ fate, Yields registry content path fate ∧
        extractFile registry s token path content = ({ s with issued }, .ok fate)) := by
  unfold extractFile
  by_cases hstop : token.stops = true
  · exact ⟨s.issued, .inl ⟨hstop, by rw [if_pos hstop]⟩⟩
  · refine ⟨(s.reserve path).1.issued, .inr ?_⟩
    rw [if_neg hstop]
    cases hextract : registry.extract content path with
    | error f => exact .inl ⟨f, rfl, rfl⟩
    | ok found =>
      right
      refine ⟨by simpa using hstop, ?_⟩
      cases found with
      | none => exact ⟨.unhandled, .unhandled (Registry.extractorsFor_of_extract hextract), rfl⟩
      | some r => exact ⟨_, .extracted _ hextract, rfl⟩

/-- The next file has a fate, and the others follow. -/
theorem extractAll_cons {path : String} {content : Value} {fate : Fate}
    (hfile : extractFile registry s token path content = (next, .ok fate)) :
    extractAll registry oneByOne s token ((path, content) :: files) =
      ((extractAll registry oneByOne next token.next files).1,
        (extractAll registry oneByOne next token.next files).2.map ((path, fate) :: ·)) := by
  rw [extractAll, hfile]
  simp only
  rcases extractAll registry oneByOne next token.next files with ⟨last, f | rest⟩
  · rfl
  · rfl

/-- **The two ways in which extraction ends:** every file has its fate, or one of them faults. Scan
versions are handed out, and nothing else changes in the store. -/
theorem extractAll_cases (registry : Registry) (oneByOne : Bool) (files : Table Value) (s : Store)
    (token : Token) :
    ∃ issued,
      (∃ fates, extractAll registry oneByOne s token files = ({ s with issued }, .ok fates) ∧
        Extracted registry token files fates) ∨
      (∃ f, extractAll registry oneByOne s token files = ({ s with issued }, .error f) ∧
        ∃ entry ∈ files, registry.extract entry.2 entry.1 = .error f) := by
  induction files generalizing s token with
  | nil => exact ⟨s.issued, .inl ⟨[], rfl, .nil⟩⟩
  | cons entry files ih =>
    obtain ⟨path, content⟩ := entry
    obtain ⟨issued, hfile⟩ := extractFile_cases registry s token path content
    obtain ⟨issued', hrest⟩ := ih { s with issued } token.next
    have hfollow : ∀ fate, extractFile registry s token path content = ({ s with issued }, .ok fate) →
        (∀ rest, Extracted registry token.next files rest →
          Extracted registry token ((path, content) :: files) ((path, fate) :: rest)) →
        (∃ fates, extractAll registry oneByOne s token ((path, content) :: files) =
            ({ s with issued := issued' }, .ok fates) ∧
          Extracted registry token ((path, content) :: files) fates) ∨
        (∃ f, extractAll registry oneByOne s token ((path, content) :: files) =
            ({ s with issued := issued' }, .error f) ∧
          ∃ entry ∈ (path, content) :: files, registry.extract entry.2 entry.1 = .error f) := by
      intro fate hfate hextend
      rw [extractAll_cons hfate]
      rcases hrest with ⟨rest, hall, hextracted⟩ | ⟨f, hall, entry, hentry, hextract⟩
      · rw [hall]
        exact .inl ⟨(path, fate) :: rest, rfl, hextend rest hextracted⟩
      · rw [hall]
        exact .inr ⟨f, rfl, entry, List.mem_cons_of_mem _ hentry, hextract⟩
    rcases hfile with ⟨hstop, hfate⟩ | ⟨f, hextract, hfate⟩ | ⟨hgo, fate, hyields, hfate⟩
    · exact ⟨issued', hfollow _ hfate fun rest => .skip hstop⟩
    · -- the other files are extracted all the same, unless one is worked on at a time
      have hmem : ∃ entry ∈ (path, content) :: files, registry.extract entry.2 entry.1 = .error f :=
        ⟨(path, content), List.mem_cons_self, hextract⟩
      rw [extractAll, hfate]
      cases oneByOne with
      | true => exact ⟨issued, .inr ⟨f, rfl, hmem⟩⟩
      | false =>
        have hlast : (extractAll registry false { s with issued } token.next files).1 =
            { s with issued := issued' } := by
          rcases hrest with ⟨rest, hall, -⟩ | ⟨f', hall, -⟩
          · rw [hall]
          · rw [hall]
        exact ⟨issued', .inr ⟨f, congrArg (·, Except.error f) hlast, hmem⟩⟩
    · exact ⟨issued', hfollow _ hfate fun rest => .look hgo hyields⟩

/-! ## The fates of all files -/

/-- The files that a scan skips because it is cancelled: the token lets some pass, and no other. -/
def skipped (token : Token) (paths : List String) : List String :=
  match token.left with
  | none => []
  | some n => paths.drop n

theorem skipped_cons (token : Token) (path : String) (paths : List String) :
    skipped token (path :: paths) =
      if token.stops then path :: skipped token.next paths else skipped token.next paths := by
  obtain ⟨left⟩ := token
  cases left with
  | none => rfl
  | some n =>
    cases n with
    | zero => rfl
    | succ n => rfl

theorem Extracted.cancelledOf (h : Extracted registry token files fates) :
    cancelledOf fates = skipped token files.keys := by
  induction h with
  | @nil token =>
    obtain ⟨left⟩ := token
    cases left with
    | none => rfl
    | some n => exact List.drop_nil.symm
  | @skip token path content files fates hstop _ ih =>
    change path :: Scan.cancelledOf fates = skipped token (path :: files.keys)
    rw [skipped_cons, if_pos hstop, ih]
  | @look token path content files fate fates hgo hyields _ ih =>
    change _ = skipped token (path :: files.keys)
    rw [skipped_cons, if_neg (by simp [hgo]), ← ih]
    cases hyields with
    | unhandled => rfl
    | extracted => rfl

/-- **Every file is extracted, unhandled or skipped.** -/
theorem Extracted.keys_perm (h : Extracted registry token files fates) :
    ((resultsOf fates).map (·.1) ++ unhandledOf fates ++ Scan.cancelledOf fates).Perm files.keys := by
  induction h with
  | nil => exact List.Perm.refl _
  | @skip token path content files fates hstop _ ih =>
    change ((resultsOf fates).map (·.1) ++ unhandledOf fates ++ (path :: Scan.cancelledOf fates)).Perm
      (path :: files.keys)
    exact List.perm_middle.trans (ih.cons path)
  | @look token path content files fate fates hgo hyields _ ih =>
    cases hyields with
    | unhandled =>
      change ((resultsOf fates).map (·.1) ++ (path :: unhandledOf fates) ++ Scan.cancelledOf fates).Perm
        (path :: files.keys)
      rw [List.append_assoc, List.cons_append]
      refine List.perm_middle.trans (List.Perm.cons path ?_)
      rw [← List.append_assoc]; exact ih
    | extracted => exact ih.cons path

theorem Extracted.unhandled (h : Extracted registry token files fates) {f : String}
    (hf : f ∈ unhandledOf fates) : registry.extractorsFor f = [] := by
  induction h with
  | nil => cases hf
  | skip _ _ ih => exact ih hf
  | look _ hyields _ ih =>
    cases hyields with
    | unhandled hnone =>
      rcases List.mem_cons.1 hf with rfl | hf
      · exact hnone
      · exact ih hf
    | extracted => exact ih hf

/-- A result is what the extraction of its file gives, with a version. -/
theorem Extracted.result (h : Extracted registry token files fates) {f : String} {r : ScanResult}
    (hr : (f, r) ∈ resultsOf fates) :
    ∃ content q version, (f, content) ∈ files ∧ registry.extract content f = .ok (some q) ∧
      r = { q with version := some version } := by
  induction h with
  | nil => cases hr
  | skip _ _ ih =>
    obtain ⟨content, q, version, hmem, hrest⟩ := ih hr
    exact ⟨content, q, version, List.mem_cons_of_mem _ hmem, hrest⟩
  | @look token path content files fate fates _ hyields _ ih =>
    have hlater : (f, r) ∈ resultsOf fates →
        ∃ content' q version, (f, content') ∈ (path, content) :: files ∧
          registry.extract content' f = .ok (some q) ∧ r = { q with version := some version } := by
      intro hr
      obtain ⟨content', q, version, hmem, hrest⟩ := ih hr
      exact ⟨content', q, version, List.mem_cons_of_mem _ hmem, hrest⟩
    cases hyields with
    | unhandled => exact hlater hr
    | @extracted q version hextract =>
      rcases List.mem_cons.1 hr with hr | hr
      · obtain ⟨rfl, rfl⟩ := Prod.mk.inj hr
        exact ⟨content, q, version, List.mem_cons_self, hextract, rfl⟩
      · exact hlater hr

end Scan

/-! ## The batch -/

namespace Store

variable {s next : Store} {results : List ScanResult} {outcome : MergeOutcome}

/-- What became of a batch, file by file: a file is merged and contributes what its result says, or it is
rejected; every other file contributes what it did at first. -/
structure Absorbed (first : Table Contribution) (results : List ScanResult) (next : Store)
    (outcome : MergeOutcome) : Prop where
  files : (outcome.merged ++ outcome.rejections.map Rejection.file).Perm (results.map ScanResult.file)
  merged : ∀ f ∈ outcome.merged, ∃ r ∈ results, r.file = f ∧
    ∃ c, next.contributions.get? f = some c ∧
      c.entities = keepFirst (fun a b => a.id == b.id) r.entities ∧
      c.edges = keepFirst ScanResult.sameKey r.edges
  others : ∀ f ∉ outcome.merged, next.contributions.get? f = first.get? f

theorem mergeBatch_absorbed (h : s.mergeBatch results = (next, .ok outcome)) :
    Absorbed s.contributions results next outcome := by
  rcases mergeBatch_cases s results with ⟨fault, hm⟩ | ⟨_, refused, rejections, hv, hm⟩ |
    ⟨database, candidates, taken, refused, rejections, -, hv, hm⟩
  · rw [hm] at h; cases h
  · rw [hm] at h
    obtain ⟨rfl, hout⟩ := Prod.mk.inj h
    obtain rfl := Except.ok.inj hout
    exact ⟨hv.refused.trans (hv.split.map ScanResult.file), by simp, fun _ _ => rfl⟩
  · rw [hm] at h
    obtain ⟨rfl, hout⟩ := Prod.mk.inj h
    obtain rfl := Except.ok.inj hout
    refine ⟨?_, fun f hf => ?_, fun f hf => (commit_of_not_mem s hf).1⟩
    · have hsplit := hv.split.map ScanResult.file
      rw [List.map_append, hv.files] at hsplit
      exact (hv.refused.append_left _).trans hsplit
    · rw [← hv.files] at hf
      obtain ⟨r, hr, rfl⟩ := List.mem_map.1 hf
      exact ⟨r, hv.split.mem_iff.1 (List.mem_append_left _ hr), rfl, _,
        (enters_commit hv database hr).contribution, rfl, rfl⟩

theorem rebuild_absorbed (h : s.rebuild results = (next, .ok outcome)) :
    Absorbed [] results next outcome := by
  rcases rebuild_cases s results with ⟨fault, hm⟩ | ⟨database, hm⟩
  · rw [hm] at h; cases h
  · rw [hm] at h
    obtain ⟨hfiles, hmerged, hothers⟩ := mergeBatch_absorbed h
    refine ⟨?_, fun f hf => ?_, hothers⟩
    · have hsame : (results.map s.refreshed).map ScanResult.file = results.map ScanResult.file := by
        rw [List.map_map]
        exact List.map_congr_left fun r _ => (refreshed_eq s r).1
      rwa [hsame] at hfiles
    · obtain ⟨r, hr, hfile, hcontent⟩ := hmerged f hf
      obtain ⟨q, hq, rfl⟩ := List.mem_map.1 hr
      obtain ⟨hqfile, hqentities, hqedges⟩ := refreshed_eq s q
      rw [hqentities, hqedges] at hcontent
      exact ⟨q, hq, hqfile.symm.trans hfile, hcontent⟩

end Store

/-! ## The report -/

namespace Scan

variable {registry : Registry} {s next : Store} {token : Token} {files : Table Value}
  {fates : List (String × Fate)} {oneByOne rebuild : Bool} {report : ScanReport}

/-- What a file that was looked at holds. -/
def Holds (registry : Registry) (files : Table Value) (f : String) (r : ScanResult) : Prop :=
  ∃ content, (f, content) ∈ files ∧ registry.extract content f = .ok (some r)

/-- The report on a scan accounts for the files: each is listed once, and for what it holds. -/
structure Reported (registry : Registry) (token : Token) (files : Table Value)
    (first : Table Contribution) (next : Store) (report : ScanReport) : Prop where
  listed : (report.merged ++ report.rejections.map Rejection.file ++ report.excluded ++
    report.unhandled ++ report.notScanned).Perm files.keys
  notScanned : report.notScanned = skipped token files.keys
  unhandled : ∀ f ∈ report.unhandled, registry.extractorsFor f = []
  excluded : ∀ f ∈ report.excluded, ∃ r, Holds registry files f r ∧ r.hasErrors = true
  rejected : ∀ f ∈ report.rejections.map Rejection.file,
    ∃ r, Holds registry files f r ∧ r.hasErrors = false
  merged : ∀ f ∈ report.merged, ∃ r, Holds registry files f r ∧ r.hasErrors = false ∧
    ∃ c, next.contributions.get? f = some c ∧
      c.entities = keepFirst (fun a b => a.id == b.id) r.entities ∧
      c.edges = keepFirst ScanResult.sameKey r.edges
  others : ∀ f ∉ report.merged, next.contributions.get? f = first.get? f

theorem Reported.cases {first : Table Contribution}
    (h : Reported registry token files first next report) {f : String} (hf : f ∈ files.keys) :
    f ∈ report.merged ∨ f ∈ report.rejections.map Rejection.file ∨ f ∈ report.excluded ∨
      f ∈ report.unhandled ∨ f ∈ report.notScanned := by
  have hmem := h.listed.mem_iff.2 hf
  simp only [List.mem_append] at hmem
  rcases hmem with (((hmem | hmem) | hmem) | hmem) | hmem
  · exact .inl hmem
  · exact .inr (.inl hmem)
  · exact .inr (.inr (.inl hmem))
  · exact .inr (.inr (.inr (.inl hmem)))
  · exact .inr (.inr (.inr (.inr hmem)))

/-- A file holds one result. -/
theorem Holds.unique (hfiles : files.Ordered) {f : String} {r q : ScanResult}
    (hr : Holds registry files f r) (hq : Holds registry files f q) : r = q := by
  obtain ⟨content, hmem, hextract⟩ := hr
  obtain ⟨content', hmem', hextract'⟩ := hq
  have hsame : some content = some content' :=
    (hfiles.get?_eq_some_iff.2 hmem).symm.trans (hfiles.get?_eq_some_iff.2 hmem')
  rw [Option.some.inj hsame, hextract'] at hextract
  exact (Option.some.inj (Except.ok.inj hextract)).symm

theorem Holds.handled {f : String} {r : ScanResult} (h : Holds registry files f r) :
    registry.extractorsFor f ≠ [] := by
  obtain ⟨content, -, hextract⟩ := h
  intro hnone
  rw [Registry.extract_of_extractorsFor hnone] at hextract
  cases hextract

/-- The results of a scan that are merged. -/
def mergeable (fates : List (String × Fate)) : List ScanResult :=
  ((resultsOf fates).filter fun r => !r.2.hasErrors).map (·.2)

theorem Extracted.mem_mergeable (h : Extracted registry token files fates) {r : ScanResult}
    (hr : r ∈ mergeable fates) :
    ∃ q version, Holds registry files r.file q ∧ r = { q with version := some version } ∧
      r.hasErrors = false := by
  obtain ⟨entry, hentry, rfl⟩ := List.mem_map.1 hr
  obtain ⟨hentry, herrors⟩ := List.mem_filter.1 hentry
  obtain ⟨content, q, version, hmem, hextract, hq⟩ := h.result hentry
  have hfile : entry.2.file = entry.1 := by
    rw [hq]
    exact (Registry.file_of_extract hextract : q.file = entry.1)
  exact ⟨q, version, ⟨content, hfile ▸ hmem, hfile ▸ hextract⟩, hq, by simpa using herrors⟩

/-- The files of the results that are merged. -/
theorem Extracted.files_mergeable (h : Extracted registry token files fates) :
    (mergeable fates).map ScanResult.file =
      ((resultsOf fates).filter fun r => !r.2.hasErrors).map (·.1) := by
  unfold mergeable
  rw [List.map_map]
  refine List.map_congr_left fun entry hentry => ?_
  obtain ⟨content, q, version, -, hextract, hq⟩ := h.result (List.mem_of_mem_filter hentry)
  change entry.2.file = entry.1
  rw [hq]
  exact (Registry.file_of_extract hextract : q.file = entry.1)

/-- **What became of the files and of the batch is what the report says.** -/
theorem Extracted.reported (h : Extracted registry token files fates) {first : Table Contribution}
    {outcome : MergeOutcome} (habsorbed : Store.Absorbed first (mergeable fates) next outcome) :
    Reported registry token files first next (reportOn fates outcome) := by
  refine ⟨?_, h.cancelledOf, fun f hf => h.unhandled hf, ?_, ?_, ?_, habsorbed.others⟩
  · -- the results are split into those with errors and the others, which are merged or rejected
    have hbatch := habsorbed.files
    rw [h.files_mergeable] at hbatch
    have hsplit := (List.filter_append_perm (fun r : String × ScanResult => !r.2.hasErrors)
      (resultsOf fates)).map (·.1)
    simp only [Bool.not_not, List.map_append] at hsplit
    refine List.Perm.trans ?_ h.keys_perm
    exact (((hbatch.append_right _).trans hsplit).append_right _).append_right _
  · intro f hf
    obtain ⟨entry, hentry, rfl⟩ := List.mem_map.1 hf
    obtain ⟨hentry, herrors⟩ := List.mem_filter.1 hentry
    obtain ⟨content, q, version, hmem, hextract, hq⟩ := h.result hentry
    rw [hq] at herrors
    exact ⟨q, ⟨content, hmem, hextract⟩, herrors⟩
  · intro f hf
    have hmem := habsorbed.files.mem_iff.1 (List.mem_append_right _ hf)
    obtain ⟨r, hr, rfl⟩ := List.mem_map.1 hmem
    obtain ⟨q, version, hholds, hq, herrors⟩ := h.mem_mergeable hr
    rw [hq] at herrors
    exact ⟨q, hholds, herrors⟩
  · intro f hf
    obtain ⟨r, hr, rfl, hcontent⟩ := habsorbed.merged f hf
    obtain ⟨q, version, hholds, hq, herrors⟩ := h.mem_mergeable hr
    rw [hq] at herrors
    refine ⟨q, hholds, herrors, ?_⟩
    rw [hq] at hcontent ⊢
    exact hcontent

/-- The results of the files go to the store as one batch. -/
theorem run_of_extractAll {mid : Store}
    (hall : extractAll registry oneByOne s token files = (mid, .ok fates)) (rebuild : Bool) :
    run registry s token oneByOne rebuild files =
      ((if rebuild then mid.rebuild (mergeable fates) else mid.mergeBatch (mergeable fates)).1,
        (if rebuild then mid.rebuild (mergeable fates) else mid.mergeBatch (mergeable fates)).2.map
          (reportOn fates)) := by
  unfold run
  rw [hall]
  simp only [mergeable]
  rcases (if rebuild = true then _ else _ : Store × Except Fault MergeOutcome) with ⟨last, f | outcome⟩
  · rfl
  · rfl

/-- **The report on a scan lists every file once.** -/
theorem run_eq_ok (h : run registry s token oneByOne rebuild files = (next, .ok report)) :
    Reported registry token files (if rebuild then [] else s.contributions) next report := by
  obtain ⟨issued, ⟨fates, hall, hextracted⟩ | ⟨f, hall, -⟩⟩ :=
    extractAll_cases registry oneByOne files s token
  · rw [run_of_extractAll hall rebuild] at h
    obtain ⟨hnext, hreport⟩ := Prod.mk.inj h
    cases rebuild with
    | true =>
      obtain ⟨outcome, hout, rfl⟩ := map_eq_ok.1 hreport
      have hmerge : ({ s with issued } : Store).rebuild (mergeable fates) = (next, .ok outcome) :=
        Prod.ext hnext hout
      exact hextracted.reported (Store.rebuild_absorbed hmerge)
    | false =>
      obtain ⟨outcome, hout, rfl⟩ := map_eq_ok.1 hreport
      have hmerge : ({ s with issued } : Store).mergeBatch (mergeable fates) = (next, .ok outcome) :=
        Prod.ext hnext hout
      have habsorbed := Store.mergeBatch_absorbed hmerge
      exact hextracted.reported habsorbed
  · unfold run at h
    rw [hall] at h; cases h

/-- An edge of a result that is merged was returned by an extractor. -/
theorem Extracted.returns (h : Extracted registry token files fates) {r : ScanResult}
    (hr : r ∈ mergeable fates) {e : Edge Value} (he : e ∈ r.edges) :
    ∃ entry ∈ files, registry.Returns entry.2 entry.1 e := by
  obtain ⟨q, version, ⟨content, hmem, hextract⟩, hq, -⟩ := h.mem_mergeable hr
  rw [hq] at he
  exact ⟨(r.file, content), hmem, Registry.returns_of_extract hextract he⟩

/-- A store without a database faults at a batch only for an edge that stops the merge. -/
theorem Extracted.stops (h : Extracted registry token files fates) (hdb : s.database = none)
    {fault : Fault}
    (hmerge : (if rebuild then s.rebuild (mergeable fates) else s.mergeBatch (mergeable fates)) =
      (next, .error fault)) :
    (∃ entry ∈ files, ∃ e, registry.Returns entry.2 entry.1 e ∧ Store.StopsMerge e fault) ∧
      (rebuild = false → next.contributions = s.contributions) := by
  cases rebuild with
  | true =>
    have hclear : s.rebuild (mergeable fates) =
        (s.changed []).mergeBatch ((mergeable fates).map s.refreshed) := by
      unfold Store.rebuild Store.write
      rw [hdb]
    have hmerge : s.rebuild (mergeable fates) = (next, .error fault) := hmerge
    rw [hclear] at hmerge
    obtain ⟨-, ⟨r, hr, e, he, hstops⟩ | ⟨db, -, hsome, -⟩⟩ := Store.mergeBatch_eq_error hmerge
    · obtain ⟨q, hq, rfl⟩ := List.mem_map.1 hr
      rw [(Store.refreshed_eq s q).2.2] at he
      obtain ⟨entry, hentry, hreturns⟩ := h.returns hq he
      exact ⟨⟨entry, hentry, e, hreturns, hstops⟩, fun hfalse => by cases hfalse⟩
    · rw [show (s.changed []).database = s.database from rfl, hdb] at hsome; cases hsome
  | false =>
    have hmerge : s.mergeBatch (mergeable fates) = (next, .error fault) := hmerge
    obtain ⟨rfl, ⟨r, hr, e, he, hstops⟩ | ⟨db, -, hsome, -⟩⟩ := Store.mergeBatch_eq_error hmerge
    · obtain ⟨entry, hentry, hreturns⟩ := h.returns hr he
      exact ⟨⟨entry, hentry, e, hreturns, hstops⟩, fun _ => rfl⟩
    · rw [hdb] at hsome; cases hsome

/-- **A scan into a store without a database** faults only at an edge that stops the merge. Then no file
of the scan is merged. -/
theorem run_eq_error (hdb : s.database = none) {fault : Fault}
    (h : run registry s token oneByOne rebuild files = (next, .error fault)) :
    (∃ entry ∈ files, ∃ e, registry.Returns entry.2 entry.1 e ∧ Store.StopsMerge e fault) ∧
      (rebuild = false → next.contributions = s.contributions) := by
  obtain ⟨issued, ⟨fates, hall, hextracted⟩ | ⟨f, hall, entry, hentry, hextract⟩⟩ :=
    extractAll_cases registry oneByOne files s token
  · rw [run_of_extractAll hall rebuild] at h
    obtain ⟨hnext, hfault⟩ := Prod.mk.inj h
    exact hextracted.stops (s := { s with issued }) hdb (Prod.ext hnext (map_eq_error.1 hfault))
  · unfold run at h
    rw [hall] at h
    obtain ⟨rfl, hfault⟩ := Prod.mk.inj h
    obtain rfl := Except.error.inj hfault
    rcases Registry.extract_cases registry entry.2 entry.1 with ⟨-, hnone⟩ | ⟨r, hr, -⟩ |
      ⟨f', e, hf', hreturns, hkeys⟩
    · rw [hnone] at hextract; cases hextract
    · rw [hr] at hextract; cases hextract
    · rw [hf'] at hextract
      obtain rfl := Except.error.inj hextract
      exact ⟨⟨entry, hentry, e, hreturns, Store.stopsMerge_of_requireKeys hkeys⟩, fun _ => rfl⟩

/-- An extractor that finds an entity in every file but one, and what it does at that one. -/
def onBad (extraction : Except Fault Extraction) : Extractor where
  name := "finds x"
  roles := []
  patterns := ["*"]
  extract := fun _ path =>
    if path = "bad" then extraction else .ok (.result { file := path, entities := [.bare "x"] })

theorem extract_onBad (extraction : Except Fault Extraction) {path : String}
    (h : (onBad extraction).handles path = true) (content : Value) :
    Registry.extract ⟨[onBad extraction]⟩ content path =
      .ok (some ((onBad extraction).run content path)) := by
  rw [Registry.extract_singleton, if_pos h]

/-- Two files, for which the extractor does different things. -/
def badAndGood : Table Value := [("bad", .str ""), ("good", .str "")]

theorem badAndGood_ordered : badAndGood.Ordered := by
  unfold Table.Ordered Text.Ascending
  decide +kernel

/-- An edge from a list. -/
def listEdge : Edge Value := ⟨.list [.str "x"], .str "b", .config, .backward, .one⟩

/-- The extractor returns the edge for one file. -/
def listRegistry : Registry := ⟨[onBad (.ok (.result { file := "bad", edges := [listEdge] }))]⟩

/-- What it finds in the two files, with the versions of a first scan. -/
def badResult : ScanResult := { file := "bad", edges := [listEdge], version := some 1 }

def goodResult : ScanResult := { file := "good", entities := [.bare "x"], version := some 1 }

theorem extractAll_listRegistry : extractAll listRegistry true {} {} badAndGood =
    ({ issued := [("bad", 1), ("good", 1)] },
      .ok [("bad", .extracted badResult), ("good", .extracted goodResult)]) := by
  have hbad := extract_onBad (.ok (.result { file := "bad", edges := [listEdge] }))
    (show Extractor.handles _ "bad" = true by decide +kernel) (.str "")
  have hgood := extract_onBad (.ok (.result { file := "bad", edges := [listEdge] }))
    (show Extractor.handles _ "good" = true by decide +kernel) (.str "")
  unfold badAndGood listRegistry
  simp only [extractAll, extractFile, hbad, hgood]
  rfl

end Scan

end ChangeImpact
