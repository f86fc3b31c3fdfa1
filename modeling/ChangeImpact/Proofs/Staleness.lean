import ChangeImpact.Engine
import ChangeImpact.Proofs.History

/-!
# Which results are called stale

Of several results for one file a batch keeps the one that it looks at last. It looks at them by the version
they were scanned as, where a result without one comes with the zeros, and calls all others stale; but a
result without a version gets the next one of its file, which is above all that were handed out or
committed. The two orders are not the same.

* `refusal?`: why a result is refused, from what is looked at after it.
* `foldlM_skip`, `foldlM_refusals`: **the refusals of a batch, result by result.**
* `calledStale_iff`: which results are called stale.
* `mergeBatch_calls_stale`: **only stale results are called stale, but for those without a version that
  precede a result with an old one.**
-/

namespace ChangeImpact

namespace Batch

variable {v : Versions} {p q : Proposal} {r : ScanResult} {results before after later : List ScanResult}

/-! ## Refusals -/

/-- Why a result is refused when the results `later` are looked at after it: it is not newer than the
graph, it declares an id under two identities, or the next result for its file takes its place. -/
def refusal? (v : Versions) (r : ScanResult) (later : List ScanResult) : Option MergeFault :=
  if versionOf v r ≤ v.committed r.file then
    some (.stale r.file (versionOf v r) (v.committed r.file))
  else
    match entitiesOf r with
    | .error cause => some cause
    | .ok _ => (later.find? fun q => q.file == r.file).map fun q =>
        .stale r.file (r.version.getD 0) (versionOf v q)

/-- The refusals of results that are looked at one after the other. -/
def refusals (v : Versions) : List ScanResult → List Rejection
  | [] => []
  | r :: later => (refusal? v r later).toList.map (Rejection.mk r.file) ++ refusals v later

theorem refusal?_of_le (h : versionOf v r ≤ v.committed r.file) (later : List ScanResult) :
    refusal? v r later = some (.stale r.file (versionOf v r) (v.committed r.file)) := if_pos h

theorem refusal?_of_error (h : v.committed r.file < versionOf v r) {cause : MergeFault}
    (hcause : entitiesOf r = .error cause) (later : List ScanResult) :
    refusal? v r later = some cause := by
  unfold refusal?
  rw [if_neg (not_le.2 h), hcause]

theorem refusal?_of_ok (h : v.committed r.file < versionOf v r) {es : List Entity}
    (hes : entitiesOf r = .ok es) (later : List ScanResult) :
    refusal? v r later = (later.find? fun q => q.file == r.file).map fun q =>
      .stale r.file (r.version.getD 0) (versionOf v q) := by
  unfold refusal?
  rw [if_neg (not_le.2 h), hes]

/-- A result is refused as stale. -/
def CalledStale (v : Versions) (r : ScanResult) (later : List ScanResult) : Prop :=
  ∃ cause, refusal? v r later = some cause ∧ cause.name = "StaleScanError"

/-- **Which results are called stale:** those that are not newer than the graph, and those without an id
under two identities that are not the last of their file. -/
theorem calledStale_iff (v : Versions) (r : ScanResult) (later : List ScanResult) :
    CalledStale v r later ↔
      versionOf v r ≤ v.committed r.file ∨
        (∃ es, entitiesOf r = .ok es) ∧ ∃ q ∈ later, q.file = r.file := by
  unfold CalledStale
  rcases lt_or_ge (v.committed r.file) (versionOf v r) with hnew | hold
  · cases hentities : entitiesOf r with
    | error cause =>
      obtain ⟨id, existing, incoming, rfl⟩ := entitiesOf_eq_error hentities
      rw [refusal?_of_error hnew hentities]
      simp [MergeFault.name, hnew]
    | ok es =>
      rw [refusal?_of_ok hnew hentities]
      cases hfind : later.find? fun q => q.file == r.file with
      | none =>
        have hnone : ∀ q ∈ later, q.file ≠ r.file := by simpa using hfind
        simpa [hnew] using hnone
      | some q =>
        have hfile : q.file = r.file := by simpa using List.find?_some hfind
        have hmem := List.mem_of_find?_eq_some hfind
        exact ⟨fun _ => .inr ⟨⟨es, rfl⟩, q, hmem, hfile⟩, fun _ => ⟨_, rfl, rfl⟩⟩
  · rw [refusal?_of_le hold]
    exact ⟨fun _ => .inl hold, fun _ => ⟨_, rfl, rfl⟩⟩

/-! ## Looking at results in order -/

/-- Looking at a result depends on the proposal only after the candidate of its file gave way. -/
theorem proposeOne_congr
    (h : supersede p r.file (versionOf v r) = supersede q r.file (versionOf v r)) :
    proposeOne v p r = proposeOne v q r := by
  unfold proposeOne
  simp only [h]

/-- A candidate that gives way to the next result for its file leaves the rejection only. -/
theorem supersede_insert (hfree : r.file ∉ p.candidates.keys) (version : Int) :
    supersede { p with candidates := p.candidates.insert r.file (candidateOf v r) } r.file version =
      p.refuse r.file (.stale r.file (r.version.getD 0) version) := by
  have hget : (p.candidates.insert r.file (candidateOf v r)).get? r.file = some (candidateOf v r) := by
    rw [Table.get?_insert, if_pos rfl]
  unfold supersede Proposal.refuse
  simp only [hget, Table.erase_insert hfree]
  rfl

/-- Where files come in order, the results for one file come together. -/
theorem next_of_same_file
    (hfiles : (r :: later).Pairwise fun a b => Text.le a.file b.file = true)
    {x : ScanResult} (hx : x ∈ later) (hfile : x.file = r.file) :
    ∃ n rest, later = n :: rest ∧ n.file = r.file := by
  cases later with
  | nil => cases hx
  | cons n rest =>
    obtain ⟨hr, hn⟩ := List.pairwise_cons.1 hfiles
    have hle : Text.le n.file r.file = true := by
      rcases List.mem_cons.1 hx with rfl | hx
      · exact Text.le_iff_lt_or_eq.2 (.inr hfile)
      · exact hfile ▸ (List.pairwise_cons.1 hn).1 x hx
    exact ⟨n, rest, rfl, Text.le_antisymm hle (hr n List.mem_cons_self)⟩

/-- **A result is judged by what comes after it.** The rest of the batch goes on as from a proposal that has
no candidate for the files to come and in which the refusal of the result, if any, is noted already. -/
theorem foldlM_skip
    (hfiles : (r :: later).Pairwise fun a b => Text.le a.file b.file = true)
    (hfree : ∀ x ∈ r :: later, x.file ∉ p.candidates.keys) (h : proposeOne v p r = .ok q) :
    ∃ p', later.foldlM (proposeOne v) q = later.foldlM (proposeOne v) p' ∧
      (∀ x ∈ later, x.file ∉ p'.candidates.keys) ∧
      p'.rejections = p.rejections ++ (refusal? v r later).toList.map (Rejection.mk r.file) := by
  have hr : r.file ∉ p.candidates.keys := hfree r List.mem_cons_self
  have hlater : ∀ x ∈ later, x.file ∉ p.candidates.keys := fun x hx =>
    hfree x (List.mem_cons_of_mem _ hx)
  rcases proposeOne_cases v p r with ⟨hold, hc⟩ | ⟨hnew, cause, hcause, hc⟩ | ⟨hnew, ⟨es, hes⟩, -, hc⟩ |
    ⟨f, hc, -⟩
  · rw [hc, supersede_of_not_mem hr] at h
    cases h
    exact ⟨_, rfl, hlater, by rw [refusal?_of_le hold]; rfl⟩
  · rw [hc, supersede_of_not_mem hr] at h
    cases h
    exact ⟨_, rfl, hlater, by rw [refusal?_of_error hnew hcause]; rfl⟩
  · rw [hc, supersede_of_not_mem hr] at h
    cases h
    rw [refusal?_of_ok hnew hes]
    by_cases hlast : ∃ x ∈ later, x.file = r.file
    · -- the next result for the file comes at once and finds the candidate
      obtain ⟨x, hx, hfile⟩ := hlast
      obtain ⟨n, rest, rfl, hn⟩ := next_of_same_file hfiles hx hfile
      refine ⟨p.refuse r.file (.stale r.file (r.version.getD 0) (versionOf v n)), ?_, hlater, ?_⟩
      · have hone : proposeOne v
            { p with candidates := p.candidates.insert r.file (candidateOf v r) } n =
            proposeOne v (p.refuse r.file (.stale r.file (r.version.getD 0) (versionOf v n))) n := by
          apply proposeOne_congr
          rw [hn, supersede_insert hr, supersede_of_not_mem]
          exact hr
        rw [List.foldlM_cons, List.foldlM_cons, hone]
      · rw [List.find?_cons_of_pos (by simpa using hn)]
        rfl
    · refine ⟨_, rfl, fun x hx hkey => ?_, ?_⟩
      · rcases Table.mem_keys_insert.1 hkey with hfile | hkey
        · exact hlast ⟨x, hx, hfile⟩
        · exact hlater x hx hkey
      · have hnone : later.find? (fun x => x.file == r.file) = none :=
          List.find?_eq_none.2 fun x hx hfile => hlast ⟨x, hx, by simpa using hfile⟩
        rw [hnone]
        simp
  · rw [hc] at h
    cases h

/-- **The refusals of results that come in the order of their files**, after a proposal without a candidate
for any of them. -/
theorem foldlM_refusals (hfiles : results.Pairwise fun a b => Text.le a.file b.file = true)
    (hfree : ∀ x ∈ results, x.file ∉ p.candidates.keys)
    (h : results.foldlM (proposeOne v) p = .ok q) :
    q.rejections = p.rejections ++ refusals v results := by
  induction results generalizing p with
  | nil =>
    obtain rfl : p = q := Except.ok.inj h
    rw [refusals, List.append_nil]
  | cons r later ih =>
    rw [List.foldlM_cons] at h
    obtain ⟨p₁, hone, h⟩ := bind_eq_ok.1 h
    obtain ⟨p', hskip, hfree', hrejections⟩ := foldlM_skip hfiles hfree hone
    rw [hskip] at h
    rw [ih (List.pairwise_cons.1 hfiles).2 hfree' h, hrejections, refusals, List.append_assoc]

theorem rejections_of_propose (h : propose v results = .ok p) :
    p.rejections = refusals v (inOrder results) := by
  have hrun := foldlM_refusals (inOrder_files results) (fun x _ => by simp [Table.keys]) h
  simpa using hrun

/-! ## Versions -/

/-- The result is not newer than the graph, or among some others there is one for its file that is not
older. -/
def Outdone (v : Versions) (r : ScanResult) (others : List ScanResult) : Prop :=
  versionOf v r ≤ v.committed r.file ∨
    ∃ q ∈ others, q.file = r.file ∧ versionOf v r ≤ versionOf v q

/-- A result without a version that gives way to one with a version that its file had already. -/
structure Misjudged (v : Versions) (before : List ScanResult) (r : ScanResult) (after : List ScanResult) :
    Prop where
  unversioned : r.version = none
  entities : ∃ es, entitiesOf r = .ok es
  followed : ∃ q ∈ after, q.file = r.file
  /-- The result is the newest of its file. -/
  newest : ∀ q ∈ before ++ after, q.file = r.file → ∃ k, q.version = some k ∧ k ≤ v.latest r.file

theorem versionOf_none (h : r.version = none) : versionOf v r = v.latest r.file + 1 := by
  unfold versionOf
  rw [h]
  rfl

/-- A result that is newer than one looked at after it has no version of its own. -/
theorem unversioned_of_newer {x : ScanResult} (hlatest : 0 ≤ v.latest r.file) (hfile : x.file = r.file)
    (hscanned : r.version.getD 0 ≤ x.version.getD 0) (hnewer : versionOf v x < versionOf v r) :
    r.version = none := by
  cases hr : r.version with
  | none => rfl
  | some k =>
    rw [hr] at hscanned
    rw [Store.versionOf_eq hr] at hnewer
    cases hx : x.version with
    | none =>
      rw [hx] at hscanned
      rw [versionOf_none hx, hfile] at hnewer
      simp only [Option.getD] at hscanned
      omega
    | some m =>
      rw [hx] at hscanned
      rw [Store.versionOf_eq hx] at hnewer
      simp only [Option.getD] at hscanned
      omega

/-- The results that are older than one without a version are those with a version that the file had
already. -/
theorem versionOf_lt_iff {x : ScanResult} (hr : r.version = none) (hfile : x.file = r.file) :
    versionOf v x < versionOf v r ↔ ∃ k, x.version = some k ∧ k ≤ v.latest r.file := by
  rw [versionOf_none hr]
  cases hx : x.version with
  | none => simp [versionOf_none hx, hfile]
  | some k => simp [Store.versionOf_eq hx]

/-- **The results that are called stale and are not** are those that are misjudged. -/
theorem misjudged_iff (hcommitted : v.committed r.file ≤ v.latest r.file) (hlatest : 0 ≤ v.latest r.file)
    (hsorted : (before ++ r :: after).Pairwise fun a b => Text.lt a.file b.file = true ∨
      a.file = b.file ∧ a.version.getD 0 ≤ b.version.getD 0) :
    CalledStale v r after ∧ ¬ Outdone v r (before ++ after) ↔ Misjudged v before r after := by
  rw [calledStale_iff]
  constructor
  · rintro ⟨hold | ⟨hentities, x, hx, hfile⟩, hnot⟩
    · exact absurd (.inl hold) hnot
    · have hnewer : ∀ q ∈ before ++ after, q.file = r.file → versionOf v q < versionOf v r :=
        fun q hq hqr => not_le.1 fun hle => hnot (.inr ⟨q, hq, hqr, hle⟩)
      have hscanned : r.version.getD 0 ≤ x.version.getD 0 := by
        have hafter := (List.pairwise_cons.1 (List.pairwise_append.1 hsorted).2.1).1 x hx
        rcases hafter with hlt | ⟨-, hle⟩
        · exact absurd (hfile ▸ hlt) (Text.lt_irrefl _)
        · exact hle
      have hversion := unversioned_of_newer hlatest hfile hscanned
        (hnewer x (List.mem_append_right _ hx) hfile)
      exact ⟨hversion, hentities, ⟨x, hx, hfile⟩, fun q hq hqr =>
        (versionOf_lt_iff hversion hqr).1 (hnewer q hq hqr)⟩
  · intro h
    refine ⟨.inr ⟨h.entities, h.followed⟩, ?_⟩
    rintro (hold | ⟨q, hq, hfile, hle⟩)
    · rw [versionOf_none h.unversioned] at hold
      omega
    · have hlt := (versionOf_lt_iff h.unversioned hfile).2 (h.newest q hq hfile)
      exact absurd hle (not_le.2 hlt)

end Batch

namespace Store

open Batch

variable {s start next : Store} {results : List ScanResult} {outcome : MergeOutcome}

/-- The rejections of a batch are those of the verdict on it. -/
theorem exists_judge_of_mergeBatch (h : s.mergeBatch results = (next, .ok outcome)) :
    ∃ accepted, s.judge results = .ok (accepted, outcome.rejections) := by
  unfold mergeBatch at h
  rcases tryMerge_cases s results with ⟨f, -, hm⟩ | ⟨rejections, hj, hm⟩ | ⟨_, _, f, -, -, hm⟩ |
    ⟨accepted, rejections, database, hj, -, -, hm⟩
  · rw [hm] at h
    cases h
  · rw [hm] at h
    cases h
    exact ⟨[], hj⟩
  · rw [hm] at h
    cases h
  · rw [hm] at h
    cases h
    exact ⟨accepted, hj⟩

/-- No version below zero is the latest one of a file. -/
theorem zero_le_latest {database : Option Database} (hopen : Engine.openStore database = .ok start)
    (ops : List Op) (f : String) : 0 ≤ (start.run ops).latest f := by
  have hissued : start.issued = [] := by
    cases database with
    | none =>
      rw [← Except.ok.inj hopen]
    | some db =>
      obtain ⟨contributions, -, h⟩ := bind_eq_ok.1 hopen
      obtain ⟨versions, -, h⟩ := bind_eq_ok.1 h
      rw [← Except.ok.inj h]
  have hstart : 0 ≤ start.latest f := by
    unfold latest
    rw [hissued]
    exact le_max_left _ _
  exact hstart.trans (latest_le_run f ops start)

/-- **Only stale results are called stale, but for results without a version.** In every store that was
opened and worked on, a batch rejects the results that are refused in the order of files and scanned
versions, and after that only files that do not fit the graph. A result is called stale though it is newer
than the graph and than all other results for its file exactly if it has no version, all the others have
versions that the file had already, and one of them is looked at after it. -/
theorem mergeBatch_calls_stale {database : Option Database}
    (hopen : Engine.openStore database = .ok start) (ops : List Op)
    (h : (start.run ops).mergeBatch results = (next, .ok outcome)) :
    (∃ late, outcome.rejections = refusals (start.run ops).scans (inOrder results) ++ late ∧
      ∀ x ∈ late, x.cause.name ≠ "StaleScanError") ∧
    ∀ before r after, inOrder results = before ++ r :: after →
      (CalledStale (start.run ops).scans r after ∧
          ¬ Outdone (start.run ops).scans r (before ++ after) ↔
        Misjudged (start.run ops).scans before r after) := by
  constructor
  · obtain ⟨accepted, hj⟩ := exists_judge_of_mergeBatch h
    obtain ⟨p, late, hp, hsettled, -, hrejections⟩ := judge_steps hj
    refine ⟨late, by rw [hrejections, rejections_of_propose hp], fun x hx hname => ?_⟩
    obtain ⟨out, -, hround⟩ := hsettled.stage x.misfit (List.mem_map_of_mem hx)
    have hcause := cause_of_round hround
    cases hx : x.cause with
    | stale file version now => exact hcause file version now hx
    | duplicateId id existing incoming owner => simp [hx, MergeFault.name] at hname
    | danglingEdge source target missing => simp [hx, MergeFault.name] at hname
  · intro before r after hsplit
    have hsorted := inOrder_pairwise results
    rw [hsplit] at hsorted
    exact misjudged_iff (committed_le_latest _ _) (zero_le_latest hopen ops _) hsorted

/-- A store with one scan of `a.py`. -/
def storeOfOneScan : Store := run {} [.merge { file := "a.py", entities := [.bare "x"] }]

/-- The next scan of `a.py`, which reserved no version. -/
def nextScan : ScanResult := { file := "a.py", entities := [.bare "y"] }

/-- The first scan of `a.py` once more. -/
def firstScan : ScanResult := { file := "a.py", entities := [.bare "x"], version := some 1 }

theorem inOrder_scans : inOrder [nextScan, firstScan] = [nextScan, firstScan] :=
  inOrder_eq_self (by decide +kernel)

theorem mergeBatch_scans : (storeOfOneScan.mergeBatch [nextScan, firstScan]).2 =
    .ok ⟨[], [⟨"a.py", .stale "a.py" 0 1⟩, ⟨"a.py", .stale "a.py" 1 1⟩], 1⟩ := by
  unfold mergeBatch tryMerge judge propose
  rw [inOrder_scans]
  decide +kernel

/-- The next scan of a file is called stale because of one that is older than it and stale itself. -/
theorem misjudged_nextScan :
    (storeOfOneScan.mergeBatch [nextScan, firstScan]).2 =
      .ok ⟨[], [⟨"a.py", .stale "a.py" 0 1⟩, ⟨"a.py", .stale "a.py" 1 1⟩], 1⟩ ∧
    Misjudged storeOfOneScan.scans [] nextScan [firstScan] ∧
    CalledStale storeOfOneScan.scans nextScan [firstScan] ∧
    ¬ Outdone storeOfOneScan.scans nextScan [firstScan] := by
  have hmisjudged : Misjudged storeOfOneScan.scans [] nextScan [firstScan] := by
    refine ⟨rfl, ⟨[.bare "y"], rfl⟩, ⟨firstScan, List.mem_singleton_self _, rfl⟩, ?_⟩
    intro q hq _
    rw [List.nil_append, List.mem_singleton] at hq
    subst hq
    exact ⟨1, rfl, by decide +kernel⟩
  have hopen : Engine.openStore none = .ok {} := rfl
  have hverdict := mergeBatch_calls_stale hopen [.merge { file := "a.py", entities := [.bare "x"] }]
    (Prod.ext rfl mergeBatch_scans)
  exact ⟨mergeBatch_scans, hmisjudged, (hverdict.2 [] nextScan [firstScan] inOrder_scans).2 hmisjudged⟩

/-- **A result that is newer than the graph and than the only other one is called stale,** and nothing is
merged. -/
theorem newest_called_stale :
    (storeOfOneScan.mergeBatch [nextScan, firstScan]).2 =
      .ok ⟨[], [⟨"a.py", .stale "a.py" 0 1⟩, ⟨"a.py", .stale "a.py" 1 1⟩], 1⟩ ∧
    storeOfOneScan.committed "a.py" = 1 ∧
    versionOf storeOfOneScan.scans nextScan = 2 ∧ versionOf storeOfOneScan.scans firstScan = 1 :=
  ⟨mergeBatch_scans, by decide +kernel, by decide +kernel, by decide +kernel⟩

end Store

end ChangeImpact
