import ChangeImpact.Proofs.Scanning

/-!
# Files that a scan leaves out

A file can be left out of a scan in two ways: the scan is cancelled before it comes to the file, or what
the file holds cannot be read and is kept out of the batch. Either way the scan says so, and otherwise it
goes as if the file had not been given to it. Both results compare two whole scans.

* `extractAll_of_token`: a token that lets `n` checks pass gives the first `n` files their fates.
* `run_cancelled`: **a cancelled scan is a completed scan of the first files.**
* `DiffersAt`: stores that differ in the versions handed out for one file only. `extractAll_differs`: the
  extraction of the other files does not see the difference.
* `mergeBatch_issued`: neither does the merge of results that have their versions.
* `extractAll_insert`: one more file among the others has a fate of its own and changes no other.
* `run_with_broken_file`: **a file that cannot be read has no influence on the others.**
-/

namespace ChangeImpact

namespace Scan

variable {registry : Registry} {s : Store} {files : Table Value} {fates : List (String × Fate)}
  {oneByOne rebuild : Bool}

/-! ## Fates -/

/-- The next file faults. The others are extracted all the same, unless one is worked on at a time. -/
theorem extractAll_fault {next : Store} {token : Token} {path : String} {content : Value} {fault : Fault}
    (hfile : extractFile registry s token path content = (next, .error fault)) :
    extractAll registry oneByOne s token ((path, content) :: files) =
      (if oneByOne then next else (extractAll registry oneByOne next token.next files).1,
        .error fault) := by
  rw [extractAll, hfile]
  cases oneByOne with
  | true => rfl
  | false => rfl

theorem resultsOf_append (a b : List (String × Fate)) : resultsOf (a ++ b) = resultsOf a ++ resultsOf b :=
  List.filterMap_append

theorem unhandledOf_append (a b : List (String × Fate)) :
    unhandledOf (a ++ b) = unhandledOf a ++ unhandledOf b := List.filterMap_append

theorem cancelledOf_append (a b : List (String × Fate)) :
    cancelledOf (a ++ b) = cancelledOf a ++ cancelledOf b := List.filterMap_append

/-! ## Cancelled scans -/

/-- The fates of files that are skipped. -/
def skippedFates (files : Table Value) : List (String × Fate) := files.map fun e => (e.1, .cancelled)

/-- A token that stops at once skips all files and leaves the store alone. -/
theorem extractAll_stopped (registry : Registry) (oneByOne : Bool) (s : Store) (files : Table Value) :
    extractAll registry oneByOne s ⟨some 0⟩ files = (s, .ok (skippedFates files)) := by
  induction files with
  | nil => rfl
  | cons entry files ih =>
    obtain ⟨path, content⟩ := entry
    have hskip : extractFile registry s ⟨some 0⟩ path content = (s, .ok .cancelled) := rfl
    have hnext : Token.next ⟨some 0⟩ = ⟨some 0⟩ := rfl
    rw [extractAll_cons hskip, hnext, ih]
    rfl

/-- **A token that lets `n` checks pass gives the first `n` files the fates that they have without it.** The
others are skipped. -/
theorem extractAll_of_token (registry : Registry) (oneByOne : Bool) (files : Table Value) :
    ∀ (n : Nat) (s : Store), extractAll registry oneByOne s ⟨some n⟩ files =
      ((extractAll registry oneByOne s {} (files.take n)).1,
        (extractAll registry oneByOne s {} (files.take n)).2.map (· ++ skippedFates (files.drop n))) := by
  induction files with
  | nil =>
    intro n s
    simp [extractAll, skippedFates, Except.map]
  | cons entry files ih =>
    intro n s
    obtain ⟨path, content⟩ := entry
    cases n with
    | zero =>
      rw [extractAll_stopped]
      rfl
    | succ n =>
      have hsame : extractFile registry s ⟨some (n + 1)⟩ path content =
          extractFile registry s {} path content := rfl
      have hnext : Token.next ⟨some (n + 1)⟩ = ⟨some n⟩ := rfl
      have hfree : Token.next {} = {} := rfl
      rw [List.take_succ_cons, List.drop_succ_cons]
      rcases hfile : extractFile registry s {} path content with ⟨next, f | fate⟩
      · rw [extractAll_fault (hsame.trans hfile), extractAll_fault hfile, hnext, hfree, ih n next]
        rfl
      · rw [extractAll_cons (hsame.trans hfile), extractAll_cons hfile, hnext, hfree, ih n next]
        rcases extractAll registry oneByOne next {} (files.take n) with ⟨last, f | rest⟩
        · rfl
        · rfl

/-- Skipped files are listed as such and nowhere else. -/
theorem listed_skippedFates (files : Table Value) : resultsOf (skippedFates files) = [] ∧
    unhandledOf (skippedFates files) = [] ∧ cancelledOf (skippedFates files) = files.keys := by
  induction files with
  | nil => exact ⟨rfl, rfl, rfl⟩
  | cons entry files ih =>
    obtain ⟨hresults, hunhandled, hcancelled⟩ := ih
    exact ⟨hresults, hunhandled, congrArg (entry.1 :: ·) hcancelled⟩

/-- A report with files that were not scanned. -/
def skipping (rest : List String) (report : ScanReport) : ScanReport :=
  { report with
    notScanned := rest
    status := if rest = [] then .completed else .cancelled }

theorem reportOn_skipped (hnone : cancelledOf fates = []) (files : Table Value) (outcome : MergeOutcome) :
    reportOn (fates ++ skippedFates files) outcome = skipping files.keys (reportOn fates outcome) := by
  obtain ⟨hresults, hunhandled, hcancelled⟩ := listed_skippedFates files
  unfold reportOn skipping
  simp only [resultsOf_append, unhandledOf_append, cancelledOf_append, hresults, hunhandled, hcancelled,
    hnone, List.append_nil, List.nil_append, List.isEmpty_iff]

/-- No file of a scan without a token is skipped. -/
theorem cancelledOf_free {mid : Store}
    (hall : extractAll registry oneByOne s {} files = (mid, .ok fates)) : cancelledOf fates = [] := by
  obtain ⟨issued, ⟨fates', hok, hextracted⟩ | ⟨f, hfault, -⟩⟩ :=
    extractAll_cases registry oneByOne files s {}
  · rw [hall] at hok
    obtain rfl := Except.ok.inj (Prod.mk.inj hok).2
    exact hextracted.cancelledOf
  · rw [hall] at hfault
    cases (Prod.mk.inj hfault).2

/-- **A cancelled scan is a completed scan of the first files.** The token of a scan that works on one file
at a time lets `n` checks pass. Then the store is the one that a scan of the first `n` files leaves, without
a token, down to the versions handed out, and also if either faults. The reports differ in the files that
were not scanned, which are the others, and the scan is reported as cancelled if there are any. The scan of
the first files itself is completed. -/
theorem run_cancelled (registry : Registry) (s : Store) (rebuild : Bool) (files : Table Value) (n : Nat) :
    (run registry s ⟨some n⟩ true rebuild files).1 =
      (run registry s {} true rebuild (files.take n)).1 ∧
    (run registry s ⟨some n⟩ true rebuild files).2 =
      (run registry s {} true rebuild (files.take n)).2.map (skipping (files.keys.drop n)) ∧
    (run registry s {} true rebuild (files.take n)).2.map (fun r => (r.notScanned, r.status)) =
      (run registry s {} true rebuild (files.take n)).2.map fun _ => ([], .completed) := by
  have htoken := extractAll_of_token registry true files n s
  have hkeys : Table.keys (files.drop n) = files.keys.drop n := List.map_drop
  rcases hall : extractAll registry true s {} (files.take n) with ⟨mid, fault | fates⟩
  · rw [hall] at htoken
    unfold run
    rw [htoken, hall]
    exact ⟨rfl, rfl, rfl⟩
  · rw [hall] at htoken
    have hnone := cancelledOf_free hall
    have hmergeable : mergeable (fates ++ skippedFates (files.drop n)) = mergeable fates := by
      unfold mergeable
      rw [resultsOf_append, (listed_skippedFates _).1, List.append_nil]
    rw [run_of_extractAll htoken rebuild, run_of_extractAll hall rebuild, hmergeable]
    rcases (if rebuild = true then _ else _ : Store × Except Fault MergeOutcome) with ⟨last, f | outcome⟩
    · exact ⟨rfl, rfl, rfl⟩
    · refine ⟨rfl, ?_, ?_⟩
      · simp only [Except.map, reportOn_skipped hnone, hkeys]
      · simp [Except.map, reportOn, hnone]

end Scan

/-! ## Stores that differ in one file -/

namespace Store

open Batch

variable {s s' : Store} {b : String} {results : List ScanResult}

/-- Two stores differ in the versions handed out for one file only. -/
structure DiffersAt (b : String) (s s' : Store) : Prop where
  rest : s' = { s with issued := s'.issued }
  issued : ∀ f, f ≠ b → s'.issued.get? f = s.issued.get? f

theorem DiffersAt.refl (b : String) (s : Store) : DiffersAt b s s := ⟨rfl, fun _ _ => rfl⟩

theorem DiffersAt.same (h : DiffersAt b s s') : s'.contributions = s.contributions ∧
    (∀ f, s'.committed f = s.committed f) ∧ s'.version = s.version := by
  rw [h.rest]
  exact ⟨rfl, fun _ => rfl, rfl⟩

/-- A version handed out for the file is no other difference. -/
theorem DiffersAt.reserve_self (h : DiffersAt b s s') : DiffersAt b s (s'.reserve b).1 := by
  refine ⟨?_, fun f hf => ?_⟩
  · unfold reserve
    rw [h.rest]
  · unfold reserve
    rw [Table.get?_insert, if_neg hf]
    exact h.issued f hf

/-- The versions handed out for another file are the same. -/
theorem DiffersAt.reserve (h : DiffersAt b s s') {f : String} (hf : f ≠ b) :
    (s'.reserve f).2 = (s.reserve f).2 ∧ DiffersAt b (s.reserve f).1 (s'.reserve f).1 := by
  have hversion : s'.nextVersion f = s.nextVersion f := by
    unfold nextVersion latest
    rw [h.issued f hf, h.same.2.1]
  refine ⟨hversion, ?_, fun g hg => ?_⟩
  · unfold Store.reserve
    rw [h.rest]
  · unfold Store.reserve
    rw [Table.get?_insert, Table.get?_insert, hversion, h.issued g hg]

/-- A result that has its version is proposed without regard to the versions handed out. -/
theorem propose_latest {v w : Versions} (hcommitted : v.committed = w.committed)
    (hversions : ∀ r ∈ results, r.version.isSome = true) : propose v results = propose w results := by
  have hone : ∀ r ∈ inOrder results, ∀ p, proposeOne v p r = proposeOne w p r := by
    intro r hr p
    have hmem : r ∈ results := (List.mergeSort_perm _ _).mem_iff.1 hr
    obtain ⟨version, hversion⟩ := Option.isSome_iff_exists.1 (hversions r hmem)
    have hsame : versionOf v r = versionOf w r := by
      unfold versionOf
      rw [hversion]
      rfl
    unfold proposeOne
    rw [hsame, hcommitted]
  have hfold : ∀ (rs : List ScanResult), (∀ r ∈ rs, ∀ p, proposeOne v p r = proposeOne w p r) →
      ∀ p, rs.foldlM (proposeOne v) p = rs.foldlM (proposeOne w) p := by
    intro rs
    induction rs with
    | nil => exact fun _ _ => rfl
    | cons r rs ih =>
      intro hrs p
      rw [List.foldlM_cons, List.foldlM_cons, hrs r List.mem_cons_self p]
      have hrest := ih fun r' hr' => hrs r' (List.mem_cons_of_mem _ hr')
      exact congrArg (proposeOne w p r >>= ·) (funext hrest)
  exact hfold (inOrder results) hone {}

theorem write_issued (s : Store) (issued : Table Int) (f : Database → Except Fault Database) :
    ({ s with issued } : Store).write f = (s.write f).map fun t => { t with issued } := by
  obtain ⟨contributions, versions, issued', version, cache, database⟩ := s
  cases database with
  | none => rfl
  | some db =>
    unfold write
    simp only
    cases f db with
    | error fault => rfl
    | ok written => rfl

/-- **A batch of results that have their versions does not see the versions handed out.** -/
theorem mergeBatch_issued (s : Store) (issued : Table Int)
    (hversions : ∀ r ∈ results, r.version.isSome = true) :
    ({ s with issued } : Store).mergeBatch results =
      ({ (s.mergeBatch results).1 with issued }, (s.mergeBatch results).2) := by
  have hpropose := propose_latest (v := ({ s with issued } : Store).scans) (w := s.scans) rfl hversions
  have hjudge : ({ s with issued } : Store).judge results = s.judge results :=
    congrArg (· >>= _) hpropose
  have htry : ({ s with issued } : Store).tryMerge results =
      (s.tryMerge results).map fun x => ({ x.1 with issued }, x.2) := by
    unfold tryMerge
    rw [hjudge]
    cases s.judge results with
    | error fault => rfl
    | ok verdict =>
      obtain ⟨accepted, rejections⟩ := verdict
      by_cases hempty : accepted = []
      · subst hempty
        rfl
      · have hsome : ¬ accepted.isEmpty = true := by simpa using hempty
        simp only [bind, Except.bind]
        rw [if_neg hsome, if_neg hsome, write_issued]
        cases s.write fun db => db.replace accepted with
        | error fault => rfl
        | ok written => rfl
  unfold mergeBatch
  rw [htry]
  rcases s.tryMerge results with fault | ⟨next, outcome⟩
  · rfl
  · rfl

theorem DiffersAt.mergeBatch (h : DiffersAt b s s')
    (hversions : ∀ r ∈ results, r.version.isSome = true) :
    (s'.mergeBatch results).2 = (s.mergeBatch results).2 ∧
      DiffersAt b (s.mergeBatch results).1 (s'.mergeBatch results).1 := by
  have hmerge := mergeBatch_issued s s'.issued hversions
  rw [← h.rest] at hmerge
  rw [hmerge]
  refine ⟨rfl, rfl, fun f hf => ?_⟩
  rw [issued_mergeBatch]
  exact h.issued f hf

/-- A file without a result in a batch contributes what it did, and its version stays. -/
theorem mergeBatch_of_not_mem (s : Store) {f : String} (hf : f ∉ results.map ScanResult.file) :
    (s.mergeBatch results).1.contributions.get? f = s.contributions.get? f ∧
      (s.mergeBatch results).1.committed f = s.committed f := by
  rcases mergeBatch_cases s results with ⟨fault, hm⟩ | ⟨_, _, rejections, -, hm⟩ |
    ⟨database, candidates, taken, refused, rejections, -, hv, hm⟩
  · rw [hm]
    exact ⟨rfl, rfl⟩
  · rw [hm]
    exact ⟨rfl, rfl⟩
  · have hnot : f ∉ (contributionsOf candidates).map Contribution.file := by
      rw [← hv.files]
      intro hmem
      have hsub := (hv.split.map ScanResult.file).mem_iff.1
        (by rw [List.map_append]; exact List.mem_append_left _ hmem)
      exact hf hsub
    obtain ⟨hcontribution, hversion⟩ := commit_of_not_mem { s with database } hnot
    rw [hm]
    refine ⟨hcontribution, ?_⟩
    unfold committed
    rw [hversion]

end Store

/-! ## Files that cannot be read -/

namespace Scan

open Store (DiffersAt)

variable {registry : Registry} {s s' : Store} {b path : String} {content : Value} {files : Table Value}
  {oneByOne : Bool} {r : ScanResult}

/-- Another file has the same fate, and the stores differ as before. -/
theorem extractFile_differs (registry : Registry) (h : DiffersAt b s s') (token : Token)
    (hpath : path ≠ b) (content : Value) :
    ∃ next next' outcome, extractFile registry s token path content = (next, outcome) ∧
      extractFile registry s' token path content = (next', outcome) ∧ DiffersAt b next next' := by
  obtain ⟨hversion, hnext⟩ := h.reserve hpath
  unfold extractFile
  by_cases hstop : token.stops = true
  · rw [if_pos hstop, if_pos hstop]
    exact ⟨s, s', _, rfl, rfl, h⟩
  · rw [if_neg hstop, if_neg hstop]
    simp only [hversion]
    rcases registry.extract content path with f | _ | r
    · exact ⟨_, _, _, rfl, rfl, hnext⟩
    · exact ⟨_, _, _, rfl, rfl, hnext⟩
    · exact ⟨_, _, _, rfl, rfl, hnext⟩

/-- **The extraction of other files does not see the difference.** -/
theorem extractAll_differs (registry : Registry) (oneByOne : Bool) (hb : b ∉ files.keys) :
    ∀ {s s' : Store}, DiffersAt b s s' → ∀ token, ∃ last last' outcome,
      extractAll registry oneByOne s token files = (last, outcome) ∧
        extractAll registry oneByOne s' token files = (last', outcome) ∧ DiffersAt b last last' := by
  induction files with
  | nil =>
    intro s s' h token
    exact ⟨s, s', .ok [], rfl, rfl, h⟩
  | cons entry files ih =>
    intro s s' h token
    obtain ⟨path, content⟩ := entry
    have hpath : path ≠ b := fun hp => hb (hp ▸ List.mem_cons_self)
    have hrest : b ∉ Table.keys files := fun hmem => hb (List.mem_cons_of_mem _ hmem)
    obtain ⟨next, next', outcome, hfile, hfile', hnext⟩ := extractFile_differs registry h token hpath content
    obtain ⟨last, last', rest, hall, hall', hlast⟩ := ih hrest hnext token.next
    cases outcome with
    | error f =>
      rw [extractAll_fault hfile, extractAll_fault hfile', hall, hall']
      cases oneByOne with
      | true => exact ⟨next, next', .error f, rfl, rfl, hnext⟩
      | false => exact ⟨last, last', .error f, rfl, rfl, hlast⟩
    | ok fate =>
      rw [extractAll_cons hfile, extractAll_cons hfile', hall, hall']
      exact ⟨last, last', _, rfl, rfl, hlast⟩

/-- One more file among others: the stores differ in its versions only, and its fate stands among the fates
of the others, unless one of these faults. -/
structure Joins (b : String) (r : ScanResult) (alone whole : Store × Except Fault (List (String × Fate))) :
    Prop where
  differs : DiffersAt b alone.1 whole.1
  fates : (∃ fault, alone.2 = .error fault ∧ whole.2 = .error fault) ∨
    ∃ xs ys version, alone.2 = .ok (xs ++ ys) ∧
      whole.2 = .ok (xs ++ (b, .extracted { r with version := some version }) :: ys)

/-- The file is the first of all. -/
theorem joins_cons (oneByOne : Bool) (hb : b ∉ files.keys)
    (hextract : registry.extract content b = .ok (some r)) (h : DiffersAt b s s') :
    Joins b r (extractAll registry oneByOne s {} files)
      (extractAll registry oneByOne s' {} ((b, content) :: files)) := by
  have hfile : extractFile registry s' {} b content =
      ((s'.reserve b).1, .ok (.extracted { r with version := some (s'.reserve b).2 })) := by
    unfold extractFile
    rw [if_neg (by decide), hextract]
  obtain ⟨last, last', outcome, hall, hall', hlast⟩ :=
    extractAll_differs registry oneByOne hb h.reserve_self {}
  rw [extractAll_cons hfile, show Token.next {} = {} from rfl, hall, hall']
  refine ⟨hlast, ?_⟩
  cases outcome with
  | error f => exact .inl ⟨f, rfl, rfl⟩
  | ok fates => exact .inr ⟨[], fates, _, rfl, rfl⟩

/-- **One more file among the others changes nothing for them**, wherever it stands. -/
theorem extractAll_insert (oneByOne : Bool) (hb : b ∉ files.keys)
    (hextract : registry.extract content b = .ok (some r)) :
    ∀ {s s' : Store}, DiffersAt b s s' →
      Joins b r (extractAll registry oneByOne s {} files)
        (extractAll registry oneByOne s' {} (files.insert b content)) := by
  induction files with
  | nil =>
    intro s s' h
    exact joins_cons oneByOne hb hextract h
  | cons entry files ih =>
    intro s s' h
    obtain ⟨path, other⟩ := entry
    have hpath : path ≠ b := fun hp => hb (hp ▸ List.mem_cons_self)
    have hrest : b ∉ Table.keys files := fun hmem => hb (List.mem_cons_of_mem _ hmem)
    rw [Table.insert, if_neg hpath]
    by_cases hlt : Text.lt b path = true
    · rw [if_pos hlt]
      exact joins_cons oneByOne hb hextract h
    rw [if_neg hlt]
    -- the file comes later, so the first one has its fate in both
    obtain ⟨next, next', outcome, hfile, hfile', hnext⟩ := extractFile_differs registry h {} hpath other
    obtain ⟨hdiffers, hfates⟩ := ih hrest hnext
    cases outcome with
    | error f =>
      rw [extractAll_fault hfile, extractAll_fault hfile', show Token.next {} = {} from rfl]
      refine ⟨?_, .inl ⟨f, rfl, rfl⟩⟩
      cases oneByOne with
      | true => exact hnext
      | false => exact hdiffers
    | ok fate =>
      rw [extractAll_cons hfile, extractAll_cons hfile', show Token.next {} = {} from rfl]
      refine ⟨hdiffers, ?_⟩
      rcases hfates with ⟨fault, halone, hwhole⟩ | ⟨xs, ys, version, halone, hwhole⟩
      · exact .inl ⟨fault, by rw [halone]; rfl, by rw [hwhole]; rfl⟩
      · exact .inr ⟨(path, fate) :: xs, ys, version, by rw [halone]; rfl, by rw [hwhole]; rfl⟩

/-- The results of a scan have their versions, and they are for files of the scan. -/
theorem mergeable_of_extractAll {mid : Store} {token : Token} {fates : List (String × Fate)}
    (hall : extractAll registry oneByOne s token files = (mid, .ok fates)) :
    (∀ q ∈ mergeable fates, q.version.isSome = true) ∧
      ∀ f ∈ (mergeable fates).map ScanResult.file, f ∈ files.keys := by
  obtain ⟨issued, ⟨fates', hok, hextracted⟩ | ⟨fault, hfault, -⟩⟩ :=
    extractAll_cases registry oneByOne files s token
  · rw [hall] at hok
    obtain rfl := Except.ok.inj (Prod.mk.inj hok).2
    constructor
    · intro q hq
      obtain ⟨q', version, -, rfl, -⟩ := hextracted.mem_mergeable hq
      rfl
    · intro f hf
      obtain ⟨q, hq, rfl⟩ := List.mem_map.1 hf
      obtain ⟨q', version, ⟨content, hmem, -⟩, -, -⟩ := hextracted.mem_mergeable hq
      exact Table.mem_keys.2 ⟨content, hmem⟩
  · rw [hall] at hfault
    cases (Prod.mk.inj hfault).2

/-- What a report says of the files that can be read. -/
def onReadable (report : ScanReport) : List String × List Rejection × List String × Nat :=
  (report.merged, report.rejections, report.unhandled, report.graphVersion)

/-- The two reports on a scan with a file that cannot be read and on one without it. -/
theorem onReadable_reportOn (b : String) (r : ScanResult) (xs ys : List (String × Fate)) (version : Int)
    (outcome : MergeOutcome) :
    onReadable (reportOn (xs ++ (b, .extracted { r with version := some version }) :: ys) outcome) =
      onReadable (reportOn (xs ++ ys) outcome) := by
  have hone : unhandledOf ((b, .extracted { r with version := some version }) :: ys) = unhandledOf ys := rfl
  unfold onReadable reportOn
  rw [unhandledOf_append, unhandledOf_append, hone]

theorem mergeable_insert (herrors : r.hasErrors = true) (xs ys : List (String × Fate)) (version : Int) :
    mergeable (xs ++ (b, .extracted { r with version := some version }) :: ys) = mergeable (xs ++ ys) := by
  have hone : resultsOf ((b, .extracted { r with version := some version }) :: ys) =
      (b, { r with version := some version }) :: resultsOf ys := rfl
  have hout : (!({ r with version := some version } : ScanResult).hasErrors) = false := by
    change (!r.hasErrors) = false
    rw [herrors]
    rfl
  unfold mergeable
  rw [resultsOf_append, resultsOf_append, hone, List.filter_append, List.filter_append,
    List.filter_cons_of_neg (by simp [hout])]

/-- A file that is not scanned contributes what it did. -/
theorem run_of_not_mem (s : Store) (token : Token) (hb : b ∉ files.keys) :
    (run registry s token oneByOne false files).1.contributions.get? b = s.contributions.get? b := by
  obtain ⟨issued, ⟨fates, hall, -⟩ | ⟨fault, hall, -⟩⟩ :=
    extractAll_cases registry oneByOne files s token
  · have hnot : b ∉ (mergeable fates).map ScanResult.file :=
      fun hmem => hb ((mergeable_of_extractAll hall).2 b hmem)
    rw [run_of_extractAll hall false]
    exact (Store.mergeBatch_of_not_mem { s with issued } hnot).1
  · unfold run
    rw [hall]

/-- **A file that cannot be read has no influence on the others.** Beside a scan of some files stands the
scan of the same files and one more, wherever it stands among them, and what that one holds has an error.
Both scans merge, reject and leave unhandled the same files and come to the same version of the graph, or
fault alike, and both leave the same contributions and committed versions of all files. The file that
cannot be read contributes what it did before. -/
theorem run_with_broken_file (s : Store) (oneByOne : Bool) (hb : b ∉ files.keys)
    (hextract : registry.extract content b = .ok (some r)) (herrors : r.hasErrors = true) :
    (run registry s {} oneByOne false (files.insert b content)).2.map onReadable =
      (run registry s {} oneByOne false files).2.map onReadable ∧
    (∀ f, (run registry s {} oneByOne false (files.insert b content)).1.contributions.get? f =
        (run registry s {} oneByOne false files).1.contributions.get? f ∧
      (run registry s {} oneByOne false (files.insert b content)).1.committed f =
        (run registry s {} oneByOne false files).1.committed f) ∧
    (run registry s {} oneByOne false (files.insert b content)).1.version =
      (run registry s {} oneByOne false files).1.version ∧
    (run registry s {} oneByOne false (files.insert b content)).1.contributions.get? b =
      s.contributions.get? b := by
  suffices h : (run registry s {} oneByOne false (files.insert b content)).2.map onReadable =
      (run registry s {} oneByOne false files).2.map onReadable ∧
      DiffersAt b (run registry s {} oneByOne false files).1
        (run registry s {} oneByOne false (files.insert b content)).1 by
    obtain ⟨hreports, hdiffers⟩ := h
    obtain ⟨hcontributions, hcommitted, hversion⟩ := hdiffers.same
    refine ⟨hreports, fun f => ⟨by rw [hcontributions], hcommitted f⟩, hversion, ?_⟩
    rw [hcontributions]
    exact run_of_not_mem s {} hb
  obtain ⟨hdiffers, hfates⟩ := extractAll_insert oneByOne hb hextract (Store.DiffersAt.refl b s)
  rcases halone : extractAll registry oneByOne s {} files with ⟨mid, alone⟩
  rcases hwhole : extractAll registry oneByOne s {} (files.insert b content) with ⟨mid', whole⟩
  rw [halone, hwhole] at hdiffers hfates
  rcases hfates with ⟨fault, rfl, rfl⟩ | ⟨xs, ys, version, rfl, rfl⟩
  · unfold run
    rw [halone, hwhole]
    exact ⟨rfl, hdiffers⟩
  · -- the batch is the same, and its results have their versions
    have hversions := (mergeable_of_extractAll halone).1
    obtain ⟨houtcome, hlast⟩ := Store.DiffersAt.mergeBatch hdiffers hversions
    rw [run_of_extractAll halone false, run_of_extractAll hwhole false, mergeable_insert herrors]
    simp only [Bool.false_eq_true, if_false]
    refine ⟨?_, hlast⟩
    rw [houtcome]
    rcases (mid.mergeBatch (mergeable (xs ++ ys))).2 with fault | outcome
    · rfl
    · exact congrArg Except.ok (onReadable_reportOn b r xs ys version outcome)

/-- A store in which the file that cannot be read any more has contributed an entity. -/
def lastGood : Store where
  contributions := [("bad", ⟨"bad", 1, [.bare "y"], []⟩)]
  versions := [("bad", 1)]
  issued := [("bad", 1)]
  version := 1

/-- The extractor faults at one of two files. The other one is merged as if it were scanned alone, and the
entity is still there. -/
theorem run_with_bad :
    (run ⟨[onBad (.error .unencodableText)]⟩ lastGood {} true false badAndGood).2.map onReadable =
      (run ⟨[onBad (.error .unencodableText)]⟩ lastGood {} true false [("good", .str "")]).2.map onReadable ∧
    (run ⟨[onBad (.error .unencodableText)]⟩ lastGood {} true false [("good", .str "")]).2.map onReadable =
      .ok (["good"], [], [], 2) ∧
    (run ⟨[onBad (.error .unencodableText)]⟩ lastGood {} true false badAndGood).1.contributions.get? "bad" =
      some ⟨"bad", 1, [.bare "y"], []⟩ := by
  have hinsert : Table.insert [("good", Value.str "")] "bad" (.str "") = badAndGood := by
    rw [Table.insert, if_neg (by decide), if_pos (by decide +kernel)]
    rfl
  have hextract := extract_onBad (.error .unencodableText)
    (show Extractor.handles _ "bad" = true by decide +kernel) (.str "")
  have herrors : ((onBad (.error .unencodableText)).run (.str "") "bad").hasErrors = true := by
    decide +kernel
  have hnew : "bad" ∉ Table.keys [("good", Value.str "")] := by decide
  have hbroken := run_with_broken_file lastGood true hnew hextract herrors
  rw [hinsert] at hbroken
  exact ⟨hbroken.1, by decide +kernel, hbroken.2.2.2⟩

end Scan

end ChangeImpact
