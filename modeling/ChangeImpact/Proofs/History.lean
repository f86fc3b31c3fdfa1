import ChangeImpact.Proofs.Capacity
import ChangeImpact.Proofs.Rebuilding

/-!
# Rebuilding apart from the past

A rebuild drops all contributions but not the versions of the files, so the past of a store can only act
through versions. Results whose version is not newer than the graph lose it first, and so every result is
newer when it is merged; after that versions decide nothing but whether a database can store them.

* `versionOf_refreshed`: the version with which a rebuild merges a result.
* `judge_not_stale`: **results that are all newer than the graph are rejected for what they contain.**
* `judge_rebuild`: two rebuilds from the same results come to the same verdict.
* `rebuild_of_history`: **what a rebuild leaves does not depend on the past of the store,** as long as the
  database can take the versions.
-/

namespace ChangeImpact

namespace Batch

variable {r : ScanResult}

/-- Looking at a result adds a rejection only for an id that the result declares twice. -/
theorem cause_of_lookAt {p q : Table Contribution × List Rejection} (h : lookAt p r = .ok q)
    {x : Rejection} (hx : x ∈ q.2) :
    x ∈ p.2 ∨ ∃ id existing incoming, x.cause = .duplicateId id existing incoming r.file := by
  unfold lookAt at h
  split at h
  · rename_i cause hcause
    rw [← Except.ok.inj h] at hx
    rcases List.mem_append.1 hx with hx | hx
    · exact .inl hx
    · rw [List.mem_singleton.1 hx]
      exact .inr (entitiesOf_eq_error hcause)
  · obtain ⟨edges, -, h⟩ := bind_eq_ok.1 h
    rw [← Except.ok.inj h] at hx
    exact .inl hx

/-- A round rejects no file for its version. -/
theorem cause_of_round {current : Table Contribution} {accepted : Table Candidate} {x : Rejection}
    (h : x.misfit ∈ round current accepted) (file : String) (version now : Int) :
    x.cause ≠ .stale file version now := by
  intro hstale
  rcases mem_round h with hconflict | ⟨c, -, -, hdangling⟩
  · obtain ⟨before, c, after, cause, -, hm, seen, hseen, -⟩ := mem_enroll _ _ hconflict
    obtain rfl : x.cause = cause := Except.ok.inj (Misfit.mk.inj hm).2
    obtain ⟨e, -, identity, owner, -, -, hcause⟩ := conflict?_eq_some hseen
    cases hstale.symm.trans hcause
  · obtain ⟨before, e, after, y, -, -, hreport, -⟩ := dangling?_eq_some hdangling
    cases hstale.symm.trans (danglingReport_eq_ok hreport).2

end Batch

namespace Store

open Batch

variable {s t : Store} {results : List ScanResult} {accepted : List Contribution}
  {rejections : List Rejection}

/-- **Results that are all newer than the graph are rejected for what they contain,** never for their
version. -/
theorem judge_not_stale (hfiles : (results.map ScanResult.file).Nodup)
    (hnewer : ∀ r ∈ results, s.scans.committed r.file < versionOf s.scans r)
    (hj : s.judge results = .ok (accepted, rejections)) :
    ∀ x ∈ rejections, ∀ file version now, x.cause ≠ .stale file version now := by
  obtain ⟨p, late, hp, hsettled, -, rfl⟩ := judge_steps hj
  intro x hx
  rcases List.mem_append.1 hx with hx | hx
  · have hlook := propose_eq hfiles hnewer
    rw [hp] at hlook
    have hkeeps := foldlM_keeps
      (fun _ q => ∀ x ∈ q.2, ∀ file version now, x.cause ≠ .stale file version now)
      (fun _ q r q' hq hone x hx file version now hstale => by
        rcases cause_of_lookAt hone hx with hx | ⟨id, existing, incoming, hcause⟩
        · exact hq x hx file version now hstale
        · cases hstale.symm.trans hcause)
      _ [] ([], []) _ (by simp) hlook.symm
    exact hkeeps x hx
  · obtain ⟨out, -, hround⟩ := hsettled.stage x.misfit (List.mem_map_of_mem hx)
    exact cause_of_round hround

/-! ## Refreshed results -/

theorem unversioned_refreshed (s : Store) (r : ScanResult) :
    (s.refreshed r).unversioned = r.unversioned := by
  unfold refreshed
  split
  · split <;> rfl
  · rfl

/-- **The version with which a rebuild merges a result:** its own if that is newer than the graph, and the
next one of the file otherwise. -/
theorem versionOf_refreshed (s : Store) (r : ScanResult) :
    (∃ v, r.version = some v ∧ s.committed r.file < v ∧ versionOf s.scans (s.refreshed r) = v) ∨
    ((∀ v, r.version = some v → v ≤ s.committed r.file) ∧
      versionOf s.scans (s.refreshed r) = s.nextVersion r.file) := by
  unfold refreshed
  split
  · rename_i v hv
    split
    · rename_i hlt
      exact .inl ⟨v, hv, hlt, by unfold versionOf; rw [hv]; rfl⟩
    · rename_i hle
      refine .inr ⟨fun w hw => ?_, rfl⟩
      obtain rfl := Option.some.inj (hv.symm.trans hw)
      exact not_lt.1 hle
  · rename_i hv
    refine .inr ⟨fun w hw => ?_, by unfold versionOf; rw [hv]; rfl⟩
    cases hv.symm.trans hw

theorem newer_refreshed (s : Store) (r : ScanResult) :
    s.committed r.file < versionOf s.scans (s.refreshed r) := by
  rcases versionOf_refreshed s r with ⟨v, -, hlt, hv⟩ | ⟨-, hv⟩
  · rw [hv]; exact hlt
  · rw [hv]; exact Int.lt_add_one_of_le (committed_le_latest s r.file)

theorem files_refreshed (s : Store) (results : List ScanResult) :
    (results.map s.refreshed).map ScanResult.file = results.map ScanResult.file := by
  rw [List.map_map]
  exact List.map_congr_left fun r _ => (refreshed_eq s r).1

/-- **A rebuild merges results only that are newer than the graph.** -/
theorem newer_of_mem_refreshed (s : Store) (database : Option Database) (results : List ScanResult) :
    ∀ q ∈ results.map s.refreshed,
      (s.cleared database).scans.committed q.file < versionOf (s.cleared database).scans q := by
  intro q hq
  obtain ⟨r, -, rfl⟩ := List.mem_map.1 hq
  exact (refreshed_eq s r).1 ▸ newer_refreshed s r

/-- A version that can be stored after some history can be stored in a new store: there a result keeps its
version, or it gets the first one. -/
theorem isStorable_created (path : Option String) {r : ScanResult}
    (h : Database.isStorable (versionOf s.scans (s.refreshed r)) = true) :
    Database.isStorable (versionOf (created path).scans ((created path).refreshed r)) = true := by
  have hzero : (created path).committed r.file = 0 := rfl
  have hone : (created path).nextVersion r.file = 1 := rfl
  rcases versionOf_refreshed (created path) r with ⟨v, hv, hpos, hnew⟩ | ⟨-, hnew⟩
  · rw [hnew]
    rw [hzero] at hpos
    rcases versionOf_refreshed s r with ⟨w, hw, -, hold⟩ | ⟨hle, hold⟩
    · obtain rfl := Option.some.inj (hv.symm.trans hw)
      exact hold ▸ h
    · -- the version was dropped for being older, so it is smaller than the one that can be stored
      have hcommitted := hle v hv
      have hlatest := committed_le_latest s r.file
      rw [hold] at h
      unfold nextVersion at h
      simp only [Database.isStorable, Bool.and_eq_true, decide_eq_true_eq] at h ⊢
      omega
  · rw [hnew, hone]
    decide

/-! ## Rebuilds -/

/-- **Two rebuilds from the same results come to the same verdict,** apart from versions. -/
theorem judge_rebuild (s t : Store) (database database' : Option Database)
    (hfiles : (results.map ScanResult.file).Nodup) :
    ((t.cleared database').judge (results.map t.refreshed)).map verdictContents =
      ((s.cleared database).judge (results.map s.refreshed)).map verdictContents := by
  have hlook : ∀ (s : Store) (database : Option Database),
      (propose (s.cleared database).scans (results.map s.refreshed)).map Proposal.contents =
        (inOrder (results.map ScanResult.unversioned)).foldlM lookAt ([], []) := by
    intro s database
    have hcontent : (results.map s.refreshed).map ScanResult.unversioned =
        results.map ScanResult.unversioned := by
      rw [List.map_map]
      exact List.map_congr_left fun r _ => unversioned_refreshed s r
    rw [propose_eq (files_refreshed s results ▸ hfiles) (newer_of_mem_refreshed s database results),
      hcontent]
  refine judge_replay Table.ordered_nil Table.ordered_nil ?_ fun _ _ _ _ => rfl
  rw [hlook, hlook]

/-- What a rebuild accepts is admitted as it is in a new store, unless there is a version that cannot be
stored. -/
theorem admits_rebuild (path : Option String) {database database' : Option Database}
    (hdb : database = none ↔ database' = none) (hfiles : (results.map ScanResult.file).Nodup)
    {accepted' : List Contribution} {rejections' : List Rejection}
    (hj : (s.cleared database).judge (results.map s.refreshed) = .ok (accepted, rejections))
    (hj' : ((created path).cleared database').judge (results.map (created path).refreshed) =
      .ok (accepted', rejections'))
    (h : accepted'.map Contribution.unversioned = accepted.map Contribution.unversioned) :
    (s.cleared database).admits accepted = ((created path).cleared database').admits accepted' ∨
      (database ≠ none ∧ (s.cleared database).admits accepted = .error (.overflow .storedInt) ∧
        ∃ r ∈ results, Database.isStorable (versionOf s.scans (s.refreshed r)) = false) := by
  have hstorable : ∀ c ∈ accepted, ∀ d ∈ accepted', c.file = d.file →
      Database.isStorable c.version = true → Database.isStorable d.version = true := by
    intro c hc d hd hfile hversion
    obtain ⟨q, hq, rfl⟩ := exists_result_of_judge hj hc
    obtain ⟨q', hq', rfl⟩ := exists_result_of_judge hj' hd
    obtain ⟨r, hr, rfl⟩ := List.mem_map.1 hq
    obtain ⟨r', hr', rfl⟩ := List.mem_map.1 hq'
    have hsame : r.file = r'.file := by
      rw [← (refreshed_eq s r).1, ← (refreshed_eq (created path) r').1]
      exact hfile
    obtain rfl := List.inj_on_of_nodup_map hfiles hr hr' hsame
    exact isStorable_created path hversion
  rcases admits_replay (s := s.cleared database) (t := (created path).cleared database') hdb h.symm
    hstorable with hok | ⟨hsome, hover, c, hc, hversion⟩
  · exact .inl hok
  · obtain ⟨q, hq, rfl⟩ := exists_result_of_judge hj hc
    obtain ⟨r, hr, rfl⟩ := List.mem_map.1 hq
    exact .inr ⟨hsome, hover, r, hr, hversion⟩

/-- The past of a store: `a` came with version 5, and `c` declared `z`. -/
def agedOps : List Op :=
  [.merge { file := "a", version := some 5, entities := [.bare "x"] },
    .merge { file := "c", entities := [.bare "z"] }, .reserve "a"]

/-- A result for `a` with an old version, and a file with an edge to `z`. -/
def agedScans : List ScanResult :=
  [{ file := "a", version := some 3, entities := [.bare "y"] },
    { file := "b", edges := [⟨.str "z", .str "z", .reference, .backward, .one⟩] }]

end Store

end ChangeImpact
