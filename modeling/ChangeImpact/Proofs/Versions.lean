import ChangeImpact.Proofs.Coherence

/-!
# Scan versions only grow

Scans of one file may overlap: each reserves a version before it starts and is merged when it is done,
in any order. The highest version handed out and the committed version of a file are kept apart, and a
removal drops what the file contributes but neither of them.

* `Enters`, `Stays`: a result becomes what its file contributes, or the version of a file stays.
* `step_file`: **what one operation does to a file:** a result for it enters, or its version stays.
* `reservedFor`, `committedFor`: the versions of a file along a run.
* `Outdated`: a version that no merge accepts any more.
* `run_versions`: **versions grow along every run**, and a version below a committed one stays
  outdated.
-/

namespace ChangeImpact.Store

open Batch

/-- The files that a batch merged. -/
def mergedFiles : Except Fault MergeOutcome → List String
  | .ok outcome => outcome.merged
  | .error _ => []

/-- The files of which an operation merges a result. -/
def merged (s : Store) : Op → List String
  | .merge r =>
    match (s.merge r).2 with
    | .ok _ => [r.file]
    | .error _ => []
  | .mergeBatch results => mergedFiles (s.mergeBatch results).2
  | .rebuild results => mergedFiles (s.rebuild results).2
  | .remove _ | .reserve _ | .snapshot => []

/-- The results that an operation tries to merge: a rebuild gives new versions to old results. -/
def offered (s : Store) : Op → List ScanResult
  | .rebuild results => results.map s.refreshed
  | op => op.results

/-- A result becomes what its file contributes. It is newer than what was committed for the file. -/
structure Enters (s : Store) (r : ScanResult) (next : Store) : Prop where
  newer : s.committed r.file < versionOf s.scans r
  contribution : next.contributions.get? r.file = some (contentOf s.scans r)
  version : next.versions.get? r.file = some (versionOf s.scans r)

/-- The version of a file stays, and the file contributes what it contributed before or nothing. -/
structure Stays (s : Store) (f : String) (next : Store) : Prop where
  version : next.versions.get? f = s.versions.get? f
  contribution : ∀ c, next.contributions.get? f = some c → s.contributions.get? f = some c

theorem Stays.refl (s : Store) (f : String) : Stays s f s := ⟨rfl, fun _ hc => hc⟩

variable {s next : Store} {r : ScanResult} {results : List ScanResult} {f : String} {op : Op}

theorem Enters.committed (h : Enters s r next) : next.committed r.file = versionOf s.scans r := by
  unfold Store.committed
  rw [h.version]; rfl

/-! ## Merging -/

/-- **The three ways in which a batch ends:** with a fault, with nothing accepted, or with a commit. -/
theorem mergeBatch_cases (s : Store) (results : List ScanResult) :
    (∃ fault, s.mergeBatch results = (s, .error fault)) ∨
    (∃ candidates refused rejections, Verdict s results candidates [] refused rejections ∧
      s.mergeBatch results = (s, .ok ⟨[], rejections, s.version⟩)) ∨
    (∃ database candidates taken refused rejections, taken ≠ [] ∧
      Verdict s results candidates taken refused rejections ∧
      s.mergeBatch results = ((({ s with database } : Store).commit (contributionsOf candidates)),
        .ok ⟨(contributionsOf candidates).map Contribution.file, rejections, s.version + 1⟩)) := by
  unfold mergeBatch
  rcases tryMerge_cases s results with ⟨fault, -, hm⟩ | ⟨rejections, hj, hm⟩ | ⟨_, _, fault, -, -, hm⟩ |
    ⟨accepted, rejections, database, hj, hne, -, hm⟩
  · rw [hm]; exact .inl ⟨fault, rfl⟩
  · rw [hm]
    obtain ⟨candidates, taken, refused, hnil, hv⟩ := judge_eq_ok hj
    obtain rfl : taken = [] := List.map_eq_nil_iff.1 (hv.contents.symm.trans hnil.symm)
    exact .inr (.inl ⟨candidates, refused, rejections, hv, rfl⟩)
  · rw [hm]; exact .inl ⟨fault, rfl⟩
  · rw [hm]
    obtain ⟨candidates, taken, refused, rfl, hv⟩ := judge_eq_ok hj
    refine .inr (.inr ⟨database, candidates, taken, refused, rejections, ?_, hv, rfl⟩)
    rintro rfl
    exact hne hv.contents

/-- A commit lets the taken results enter. -/
theorem enters_commit {candidates : Table Candidate} {taken refused : List ScanResult}
    {rejections : List Rejection} (hv : Verdict s results candidates taken refused rejections)
    (database : Option Database) (hr : r ∈ taken) :
    Enters s r (({ s with database } : Store).commit (contributionsOf candidates)) := by
  obtain ⟨hcontribution, hversion⟩ :=
    commit_of_mem s hv.keyed.ascending_files.nodup (hv.content_mem hr)
  exact ⟨(hv.eligible r hr).newer, hcontribution, hversion⟩

/-- **What a batch does to a file:** one of its results for the file enters, or the file stays. -/
theorem mergeBatch_file (s : Store) (results : List ScanResult) (f : String) :
    (f ∉ mergedFiles (s.mergeBatch results).2 ∧ Stays s f (s.mergeBatch results).1) ∨
    (f ∈ mergedFiles (s.mergeBatch results).2 ∧
      ∃ r ∈ results, r.file = f ∧ Enters s r (s.mergeBatch results).1) := by
  rcases mergeBatch_cases s results with ⟨fault, hm⟩ | ⟨_, _, rejections, -, hm⟩ |
    ⟨database, candidates, taken, refused, rejections, -, hv, hm⟩
  · rw [hm]; exact .inl ⟨List.not_mem_nil, Stays.refl s f⟩
  · rw [hm]; exact .inl ⟨List.not_mem_nil, Stays.refl s f⟩
  · rw [hm]
    by_cases hf : f ∈ (contributionsOf candidates).map Contribution.file
    · right
      refine ⟨hf, ?_⟩
      rw [← hv.files] at hf
      obtain ⟨r, hr, rfl⟩ := List.mem_map.1 hf
      have hresult : r ∈ results := hv.split.mem_iff.1 (List.mem_append_left _ hr)
      exact ⟨r, hresult, rfl, enters_commit hv database hr⟩
    · obtain ⟨hcontribution, hversion⟩ := commit_of_not_mem s hf
      exact .inl ⟨hf, hversion, fun c hc => hcontribution ▸ hc⟩

/-- One result is rejected and nothing changes, or it is merged as a batch of its own. -/
theorem merge_cases (s : Store) (r : ScanResult) :
    (∃ fault, s.merge r = (s, .error fault)) ∨
    (mergedFiles (s.mergeBatch [r]).2 = [r.file] ∧
      s.merge r = ((s.mergeBatch [r]).1, .ok ((s.mergeBatch [r]).1.committed r.file))) := by
  unfold merge
  rcases mergeBatch_cases s [r] with ⟨fault, hm⟩ | ⟨_, refused, rejections, hv, hm⟩ |
    ⟨database, candidates, taken, refused, rejections, hne, hv, hm⟩
  · rw [hm]; exact .inl ⟨fault, rfl⟩
  · rw [hm]
    rcases hv.single with ⟨-, x, rfl⟩ | ⟨htaken, -, -⟩
    · exact .inl ⟨_, rfl⟩
    · cases htaken
  · rw [hm]
    rcases hv.single with ⟨htaken, -⟩ | ⟨rfl, -, rfl⟩
    · exact absurd htaken hne
    · refine .inr ⟨?_, rfl⟩
      show (contributionsOf candidates).map Contribution.file = [r.file]
      rw [← hv.files]; rfl

/-! ## One operation -/

theorem merge_file (s : Store) (r : ScanResult) (f : String) :
    (f ∉ s.merged (.merge r) ∧ Stays s f (s.merge r).1) ∨
    (f ∈ s.merged (.merge r) ∧ ∃ x ∈ [r], x.file = f ∧ Enters s x (s.merge r).1) := by
  simp only [merged]
  rcases merge_cases s r with ⟨fault, hm⟩ | ⟨hfiles, hm⟩
  · rw [hm]; exact .inl ⟨List.not_mem_nil, Stays.refl s f⟩
  · rw [hm]
    rcases mergeBatch_file s [r] f with ⟨hf, hstays⟩ | ⟨hf, hr⟩
    · exact .inl ⟨hfiles ▸ hf, hstays⟩
    · exact .inr ⟨hfiles ▸ hf, hr⟩

theorem remove_stays (s : Store) (file f : String) : Stays s f (s.remove file).1 := by
  rcases remove_cases s file with hm | ⟨database, hm⟩
  · rw [hm]; exact Stays.refl s f
  · rw [hm]; exact ⟨rfl, fun c => Table.get?_of_get?_erase⟩

theorem rebuild_file (s : Store) (results : List ScanResult) (f : String) :
    (f ∉ mergedFiles (s.rebuild results).2 ∧ Stays s f (s.rebuild results).1) ∨
    (f ∈ mergedFiles (s.rebuild results).2 ∧
      ∃ r ∈ results.map s.refreshed, r.file = f ∧ Enters s r (s.rebuild results).1) := by
  rcases rebuild_cases s results with ⟨fault, hm⟩ | ⟨database, hm⟩
  · rw [hm]; exact .inl ⟨List.not_mem_nil, Stays.refl s f⟩
  · rw [hm]
    -- the batch is merged without any contributions, but the committed versions are there
    rcases mergeBatch_file (({ s with database } : Store).changed []) (results.map s.refreshed) f with
      ⟨hf, hstays⟩ | ⟨hf, r, hr, hrf, henters⟩
    · exact .inl ⟨hf, hstays.version, fun c hc => by cases hstays.contribution c hc⟩
    · exact .inr ⟨hf, r, hr, hrf, henters.newer, henters.contribution, henters.version⟩

theorem snapshot_stays (s : Store) (f : String) : Stays s f s.snapshot.1 := by
  rw [snapshot_keeps]
  exact ⟨rfl, fun _ hc => hc⟩

/-- **What an operation does to a file:** a result for it enters, or its version stays and it
contributes what it contributed before or nothing. -/
theorem step_file (s : Store) (op : Op) (f : String) :
    (f ∉ s.merged op ∧ Stays s f (s.step op)) ∨
    (f ∈ s.merged op ∧ ∃ r ∈ s.offered op, r.file = f ∧ Enters s r (s.step op)) := by
  cases op with
  | merge r => exact merge_file s r f
  | mergeBatch results => exact mergeBatch_file s results f
  | remove file => exact .inl ⟨List.not_mem_nil, remove_stays s file f⟩
  | rebuild results => exact rebuild_file s results f
  | reserve file => exact .inl ⟨List.not_mem_nil, rfl, fun _ hc => hc⟩
  | snapshot => exact .inl ⟨List.not_mem_nil, snapshot_stays s f⟩

theorem issued_mergeBatch (s : Store) (results : List ScanResult) :
    (s.mergeBatch results).1.issued = s.issued := by
  rcases mergeBatch_cases s results with ⟨fault, hm⟩ | ⟨_, _, _, -, hm⟩ | ⟨_, _, _, _, _, -, -, hm⟩
  · rw [hm]
  · rw [hm]
  · rw [hm]; rfl

/-- Only a reservation hands out versions. -/
theorem issued_step (hop : ∀ g, op ≠ .reserve g) : (s.step op).issued = s.issued := by
  cases op with
  | merge r =>
    rcases merge_cases s r with ⟨fault, hm⟩ | ⟨-, hm⟩
    · simp only [step, hm]
    · simp only [step, hm]; exact issued_mergeBatch s [r]
  | mergeBatch results => exact issued_mergeBatch s results
  | remove file =>
    rw [step]
    rcases remove_cases s file with hm | ⟨database, hm⟩
    · rw [hm]
    · rw [hm]; rfl
  | rebuild results =>
    rw [step]
    rcases rebuild_cases s results with ⟨fault, hm⟩ | ⟨database, hm⟩
    · rw [hm]
    · rw [hm]; exact issued_mergeBatch _ _
  | reserve file => exact absurd rfl (hop file)
  | snapshot => rw [step, snapshot_keeps]

theorem committed_lt_step (h : f ∈ s.merged op) : s.committed f < (s.step op).committed f := by
  rcases step_file s op f with ⟨hf, -⟩ | ⟨-, r, -, rfl, henters⟩
  · exact absurd h hf
  · rw [henters.committed]; exact henters.newer

theorem committed_le_step (s : Store) (op : Op) (f : String) :
    s.committed f ≤ (s.step op).committed f := by
  rcases step_file s op f with ⟨-, hstays⟩ | ⟨hf, -⟩
  · unfold Store.committed
    rw [hstays.version]
  · exact (committed_lt_step hf).le

theorem committed_le_latest (s : Store) (f : String) : s.committed f ≤ s.latest f := le_max_right _ _

/-- A reservation makes the version that it hands out the latest one of its file. -/
theorem latest_reserve (s : Store) (f g : String) :
    (s.reserve g).1.latest f = if f = g then (s.reserve g).2 else s.latest f := by
  show max (((s.issued.insert g (s.nextVersion g)).get? f).getD 0) (s.committed f) = _
  rw [Table.get?_insert]
  split
  · rename_i hfg
    subst hfg
    have hcommitted := committed_le_latest s f
    show max (s.latest f + 1) (s.committed f) = s.latest f + 1
    omega
  · rfl

theorem latest_lt_reserve (s : Store) (f : String) : s.latest f < (s.reserve f).2 := by
  show s.latest f < s.latest f + 1
  omega

theorem latest_le_step (s : Store) (op : Op) (f : String) : s.latest f ≤ (s.step op).latest f := by
  by_cases hop : ∃ g, op = .reserve g
  · obtain ⟨g, rfl⟩ := hop
    rw [step, latest_reserve]
    split
    · rename_i hfg
      subst hfg
      exact (latest_lt_reserve s f).le
    · exact le_rfl
  · have hissued : (s.step op).issued = s.issued := issued_step fun g hg => hop ⟨g, hg⟩
    have hcommitted := committed_le_step s op f
    unfold latest
    rw [hissued]
    omega

/-! ## Runs -/

/-- The version that an operation hands out for a file. -/
def reserved? (s : Store) (f : String) : Op → Option Int
  | .reserve g => if g = f then some (s.reserve g).2 else none
  | _ => none

/-- The version that an operation commits for a file. -/
def committed? (s : Store) (f : String) (op : Op) : Option Int :=
  if f ∈ s.merged op then some ((s.step op).committed f) else none

/-- The versions handed out for a file along a run. -/
def reservedFor (s : Store) (f : String) : List Op → List Int
  | [] => []
  | op :: ops => (s.reserved? f op).toList ++ reservedFor (s.step op) f ops

/-- The versions committed for a file along a run. -/
def committedFor (s : Store) (f : String) : List Op → List Int
  | [] => []
  | op :: ops => (s.committed? f op).toList ++ committedFor (s.step op) f ops

theorem run_append (s : Store) (ops more : List Op) : s.run (ops ++ more) = (s.run ops).run more :=
  List.foldl_append

theorem committed_le_run (f : String) (ops : List Op) :
    ∀ s : Store, s.committed f ≤ (s.run ops).committed f := by
  induction ops with
  | nil => exact fun s => le_rfl
  | cons op ops ih => exact fun s => (committed_le_step s op f).trans (ih (s.step op))

theorem latest_le_run (f : String) (ops : List Op) : ∀ s : Store, s.latest f ≤ (s.run ops).latest f := by
  induction ops with
  | nil => exact fun s => le_rfl
  | cons op ops ih => exact fun s => (latest_le_step s op f).trans (ih (s.step op))

theorem le_latest_of_reserved? {v : Int} (h : s.reserved? f op = some v) : v ≤ (s.step op).latest f := by
  unfold reserved? at h
  split at h
  · split at h
    · rename_i g hg
      subst hg
      rw [step, latest_reserve, if_pos rfl, ← Option.some.inj h]
    · cases h
  · cases h

theorem committed?_eq_some {v : Int} (h : s.committed? f op = some v) :
    f ∈ s.merged op ∧ (s.step op).committed f = v := by
  unfold committed? at h
  split at h
  · rename_i hf
    exact ⟨hf, Option.some.inj h⟩
  · cases h

/-- Every version that was handed out is at most the highest version. -/
theorem le_latest_of_mem_reservedFor {v : Int} (ops : List Op) :
    ∀ {s : Store}, v ∈ reservedFor s f ops → v ≤ (s.run ops).latest f := by
  induction ops with
  | nil => exact fun h => absurd h List.not_mem_nil
  | cons op ops ih =>
    intro s h
    rcases List.mem_append.1 h with h | h
    · exact (le_latest_of_reserved? (Option.mem_toList.1 h)).trans (latest_le_run f ops _)
    · exact ih h

/-- Every version that was committed is above the one committed before the run, and at most the one
committed after it. -/
theorem bounds_of_mem_committedFor {v : Int} (ops : List Op) :
    ∀ {s : Store}, v ∈ committedFor s f ops → s.committed f < v ∧ v ≤ (s.run ops).committed f := by
  induction ops with
  | nil => exact fun h => absurd h List.not_mem_nil
  | cons op ops ih =>
    intro s h
    rcases List.mem_append.1 h with h | h
    · obtain ⟨hf, rfl⟩ := committed?_eq_some (Option.mem_toList.1 h)
      exact ⟨committed_lt_step hf, committed_le_run f ops _⟩
    · obtain ⟨hlt, hle⟩ := ih h
      exact ⟨(committed_le_step s op f).trans_lt hlt, hle⟩

/-- Along a run, every committed version is above all that were committed before. -/
theorem committedFor_increasing (f : String) (ops : List Op) :
    ∀ s : Store, (s.committed f :: committedFor s f ops).Pairwise (· < ·) := by
  induction ops with
  | nil => exact fun s => List.pairwise_singleton _ _
  | cons op ops ih =>
    intro s
    rw [List.pairwise_cons]
    refine ⟨fun v hv => (bounds_of_mem_committedFor _ hv).1, ?_⟩
    rw [committedFor]
    cases hc : s.committed? f op with
    | none => exact (ih (s.step op)).of_cons
    | some v =>
      obtain ⟨-, rfl⟩ := committed?_eq_some hc
      exact ih (s.step op)

/-! ## Outdated versions -/

/-- No merge accepts a result for a file with a given version: alone it is rejected as stale and nothing
changes, and in a batch it is among the rejected results. -/
structure Outdated (s : Store) (f : String) (v : Int) : Prop where
  merge : ∀ r : ScanResult, r.file = f → r.version = some v →
    s.merge r = (s, .error (.merge (.stale f v (s.committed f))))
  mergeBatch : ∀ results next outcome, s.mergeBatch results = (next, .ok outcome) →
    ∃ taken refused : List ScanResult, (taken ++ refused).Perm results ∧
      taken.map ScanResult.file = outcome.merged ∧
      (outcome.rejections.map Rejection.file).Perm (refused.map ScanResult.file) ∧
      ∀ r ∈ taken, r.file = f → r.version ≠ some v

/-- A result that carries a version is merged with it. -/
theorem versionOf_eq {versions : Versions} {v : Int} (h : r.version = some v) :
    versionOf versions r = v := by
  unfold versionOf
  rw [h]; rfl

theorem merge_stale {v : Int} (hfile : r.file = f) (hversion : r.version = some v)
    (hv : v ≤ s.committed f) : s.merge r = (s, .error (.merge (.stale f v (s.committed f)))) := by
  have hpropose : propose s.scans [r] = .ok ⟨[], [⟨f, .stale f v (s.committed f)⟩]⟩ := by
    rw [propose_singleton]
    unfold proposeOne
    simp only [versionOf_eq hversion, hfile]
    rw [if_pos (show v ≤ s.scans.committed f from hv)]
    rfl
  exact merge_of_refused hpropose

theorem outdated_of_le_committed {v : Int} (hv : v ≤ s.committed f) : Outdated s f v := by
  refine ⟨fun r hfile hversion => merge_stale hfile hversion hv, ?_⟩
  intro results next outcome hm
  rcases mergeBatch_cases s results with ⟨fault, h⟩ | ⟨_, refused, rejections, hverdict, h⟩ |
    ⟨database, candidates, taken, refused, rejections, -, hverdict, h⟩
  · rw [h] at hm; cases hm
  · rw [h] at hm
    cases hm
    exact ⟨[], refused, hverdict.split, rfl, hverdict.refused, fun r hr => absurd hr List.not_mem_nil⟩
  · rw [h] at hm
    cases hm
    refine ⟨taken, refused, hverdict.split, hverdict.files, hverdict.refused,
      fun r hr hfile hversion => ?_⟩
    have hnewer : s.committed r.file < versionOf s.scans r := (hverdict.eligible r hr).newer
    rw [versionOf_eq hversion, hfile] at hnewer
    omega

/-- A result does not carry a version below the one that it is merged with. -/
theorem version_ne_of_lt {v : Int} (h : v < versionOf s.scans r) : r.version ≠ some v := by
  intro hv
  rw [versionOf_eq hv] at h
  exact lt_irrefl v h

/-- A merge that is no rebuild lets one of its results enter as it is. -/
theorem exists_enters (hop : ∀ results, op ≠ .rebuild results) (hf : f ∈ s.merged op) :
    ∃ r ∈ op.results, r.file = f ∧ Enters s r (s.step op) := by
  rcases step_file s op f with ⟨hnot, -⟩ | ⟨-, hr⟩
  · exact absurd hf hnot
  · cases op with
    | rebuild results => exact absurd rfl (hop results)
    | _ => exact hr

/-- What a file contributes after a run was there before it, or comes from a result that the run was
given and that did not carry a version up to the one committed before. -/
theorem contribution_run (f : String) (ops : List Op) :
    ∀ {s : Store}, (∀ op ∈ ops, ∀ results, op ≠ .rebuild results) → ∀ {c : Contribution},
      (s.run ops).contributions.get? f = some c → s.contributions.get? f = some c ∨
        s.committed f < c.version ∧ ∃ op ∈ ops, ∃ r ∈ op.results, r.file = f ∧
          (∀ v, r.version = some v → v = c.version) ∧
          c.entities = keepFirst (fun a b => a.id == b.id) r.entities ∧
          c.edges = keepFirst ScanResult.sameKey r.edges := by
  induction ops with
  | nil => exact fun _ _ hc => .inl hc
  | cons op ops ih =>
    intro s hops c hc
    have hop := hops op List.mem_cons_self
    rcases ih (fun o ho => hops o (List.mem_cons_of_mem _ ho)) hc with hc | ⟨hlt, o, ho, hr⟩
    · -- no later operation touched it, so it is what this one left
      rcases step_file s op f with ⟨-, hstays⟩ | ⟨hf, -⟩
      · exact .inl (hstays.contribution c hc)
      · obtain ⟨r, hr, rfl, henters⟩ := exists_enters hop hf
        rw [henters.contribution] at hc
        obtain rfl := Option.some.inj hc
        exact .inr ⟨henters.newer, op, List.mem_cons_self, r, hr, rfl,
          fun v hv => (versionOf_eq hv).symm, rfl, rfl⟩
    · exact .inr ⟨(committed_le_step s op f).trans_lt hlt, o, List.mem_cons_of_mem _ ho, hr⟩

/-- **Versions grow along every run.** A reservation gives a version above all that were handed out or
committed for the file before it. The committed version never decreases and increases with each merge,
also when the file was removed in between. Once a version is committed, all versions below it are
outdated for good: as long as the graph is not rebuilt, which gives old results new versions, the file
never contributes what a scan with such a version found. -/
theorem run_versions (s : Store) (f : String) (ops : List Op) :
    (∀ v, v ≤ s.latest f ∨ v ∈ reservedFor s f ops ∨ v ∈ committedFor s f ops →
      v < ((s.run ops).reserve f).2) ∧
    (s.committed f :: committedFor s f ops).Pairwise (· < ·) ∧
    (∀ op, (s.run ops).committed f ≤ (s.run (ops ++ [op])).committed f ∧
      (f ∈ (s.run ops).merged op → (s.run ops).committed f < (s.run (ops ++ [op])).committed f)) ∧
    (∀ op more v₁, f ∈ (s.run ops).merged op → v₁ < (s.run (ops ++ [op])).committed f →
      (∀ o ∈ op :: more, ∀ results, o ≠ .rebuild results) →
        Outdated (s.run (ops ++ op :: more)) f v₁ ∧
        ∀ c, (s.run (ops ++ op :: more)).contributions.get? f = some c →
          (s.run (ops ++ [op])).committed f ≤ c.version ∧
          ∃ o ∈ op :: more, ∃ r ∈ o.results, r.file = f ∧ r.version ≠ some v₁ ∧
            c.entities = keepFirst (fun a b => a.id == b.id) r.entities ∧
            c.edges = keepFirst ScanResult.sameKey r.edges) := by
  refine ⟨fun v hv => ?_, committedFor_increasing f ops s, fun op => ?_,
    fun op more v₁ hop hlt hops => ?_⟩
  · refine lt_of_le_of_lt ?_ (latest_lt_reserve _ f)
    rcases hv with hv | hv | hv
    · exact hv.trans (latest_le_run f ops s)
    · exact le_latest_of_mem_reservedFor ops hv
    · exact (bounds_of_mem_committedFor ops hv).2.trans (committed_le_latest _ f)
  · rw [run_append]
    exact ⟨committed_le_step _ op f, committed_lt_step⟩
  · rw [run_append] at hlt ⊢
    rw [run_append]
    change v₁ < ((s.run ops).step op).committed f at hlt
    change Outdated (((s.run ops).step op).run more) f v₁ ∧
      ∀ c, (((s.run ops).step op).run more).contributions.get? f = some c →
        ((s.run ops).step op).committed f ≤ c.version ∧ _
    refine ⟨outdated_of_le_committed (hlt.le.trans (committed_le_run f more _)), fun c hc => ?_⟩
    obtain ⟨r, hr, rfl, henters⟩ : ∃ r ∈ op.results, r.file = f ∧ Enters (s.run ops) r _ :=
      exists_enters (hops op List.mem_cons_self) hop
    rcases contribution_run r.file more (fun o ho => hops o (List.mem_cons_of_mem _ ho)) hc with
      hc | ⟨hnewer, o, ho, q, hq, hfile, hversion, hcontent⟩
    · -- nothing came after the result that was merged then
      rw [henters.contribution] at hc
      obtain rfl := Option.some.inj hc
      rw [henters.committed] at hlt ⊢
      exact ⟨le_rfl, op, List.mem_cons_self, r, hr, rfl, version_ne_of_lt hlt, rfl, rfl⟩
    · -- what came after it is newer still
      refine ⟨hnewer.le, o, List.mem_cons_of_mem _ ho, q, hq, hfile, fun hv => ?_, hcontent⟩
      have := hversion v₁ hv
      omega

/-- What a scan of `a` found that reserved a version. -/
def scanOfA (version : Int) : ScanResult :=
  { file := "a", entities := [.bare "x"], version := some version }

/-- Of two scans that overlap, the second is merged first, and the file is removed after that: the first
one is rejected all the same, and the next scan gets a third version. -/
theorem overlapping_scans :
    reservedFor (empty none) "a" [.reserve "a", .reserve "a"] = [1, 2] ∧
    "a" ∈ ((empty none).run [.reserve "a", .reserve "a"]).merged (.merge (scanOfA 2)) ∧
    Outdated ((empty none).run [.reserve "a", .reserve "a", .merge (scanOfA 2), .remove "a"]) "a" 1 ∧
    2 < (((empty none).run [.reserve "a", .reserve "a"]).reserve "a").2 := by
  have hreserved : reservedFor (empty none) "a" [.reserve "a", .reserve "a"] = [1, 2] := by
    decide +kernel
  have hmerged : "a" ∈ ((empty none).run [.reserve "a", .reserve "a"]).merged (.merge (scanOfA 2)) := by
    decide +kernel
  have hcommitted : 1 < ((empty none).run ([.reserve "a", .reserve "a"] ++
      [.merge (scanOfA 2)])).committed "a" := by
    decide +kernel
  obtain ⟨habove, -, -, houtdated⟩ := run_versions (empty none) "a" [.reserve "a", .reserve "a"]
  refine ⟨hreserved, hmerged, (houtdated (.merge (scanOfA 2)) [.remove "a"] 1 hmerged hcommitted ?_).1,
    habove 2 (.inr (.inl (by rw [hreserved]; decide)))⟩
  simp

end ChangeImpact.Store
