import ChangeImpact.Proofs.Accounting
import ChangeImpact.Proofs.Blame

/-!
# Batches apart from versions

A scan version decides whether a result is newer than the graph. Nothing else about a batch depends on
it: which results declare an id twice, which of them the rounds reject and why, and what the graph shows
in the end are questions of what the results contain. So a batch can be judged again, with other versions
and on another store, as long as the two stores agree on the files that the batch does not replace.

* `Contribution.unversioned`, `Table.unversioned`: what is contributed, apart from versions.
* `propose_eq`: results for different files that are all newer than the graph are looked at apart from
  their versions.
* `round_replay`, `settle_replay`: **the rounds are replayed** on a store that agrees with the first one
  outside the files that are accepted in the end.
* `judge_replay`: **the verdict is the same,** apart from versions.
* `SameGraph`: snapshots that differ in versions only.
-/

namespace ChangeImpact

/-- What a file contributes, apart from the version. -/
def Contribution.unversioned (c : Contribution) : Contribution := { c with version := 0 }

/-- What a scan found, apart from the version. -/
def ScanResult.unversioned (r : ScanResult) : ScanResult := { r with version := none }

theorem Contribution.unversioned_inj {c d : Contribution} :
    c.unversioned = d.unversioned ↔ c.file = d.file ∧ c.entities = d.entities ∧ c.edges = d.edges := by
  unfold Contribution.unversioned
  simp

theorem files_of_unversioned {cs ds : List Contribution}
    (h : cs.map Contribution.unversioned = ds.map Contribution.unversioned) :
    cs.map Contribution.file = ds.map Contribution.file := by
  have hfiles := congrArg (List.map Contribution.file) h
  rwa [List.map_map, List.map_map] at hfiles

namespace Table

variable {α β : Type}

theorem keys_image (g : String → α → β) (t : Table α) : (t.image g).keys = t.keys := map_image _ g t

theorem filter_image (g : String → α → β) (p : String → Bool) (t : Table α) :
    (t.image g).filter (fun e => p e.1) = Table.image g (t.filter fun e => p e.1) := List.filter_map

theorem image_insert (g : String → α → β) (t : Table α) (k : String) (v : α) :
    (t.insert k v).image g = (t.image g).insert k (g k v) := by
  induction t with
  | nil => rfl
  | cons e t ih =>
    change Table.image g (Table.insert (e :: t) k v) =
      Table.insert ((e.1, g e.1 e.2) :: Table.image g t) k (g k v)
    rw [insert, insert]
    split
    · rfl
    · split
      · rfl
      · exact congrArg _ ih

/-- What all files contribute, apart from versions. -/
def unversioned (t : Table Contribution) : Table Contribution := t.image fun _ c => c.unversioned

theorem Ordered.unversioned_ext {t u : Table Contribution} (ht : t.Ordered) (hu : u.Ordered)
    (h : ∀ f, (t.get? f).map Contribution.unversioned = (u.get? f).map Contribution.unversioned) :
    t.unversioned = u.unversioned := by
  unfold unversioned
  refine (ht.image _).ext (hu.image _) fun f => ?_
  rw [get?_image, get?_image]
  exact h f

theorem unversioned_foldl_insert (cs : List Contribution) (t : Table Contribution) :
    unversioned (cs.foldl (fun t c => t.insert c.file c) t) =
      (cs.map Contribution.unversioned).foldl (fun t c => t.insert c.file c) t.unversioned := by
  induction cs generalizing t with
  | nil => rfl
  | cons c cs ih =>
    have hinsert : (t.insert c.file c).unversioned = t.unversioned.insert c.file c.unversioned :=
      image_insert _ t c.file c
    rw [List.foldl_cons, ih, hinsert, List.map_cons, List.foldl_cons]
    rfl

end Table

namespace Batch

variable {current current' : Table Contribution} {accepted accepted' : Table Candidate}

/-- What some candidates contribute, apart from versions. -/
def contentsOf (accepted : Table Candidate) : Table Contribution :=
  accepted.image fun _ c => c.contribution.unversioned

theorem keys_contentsOf (accepted : Table Candidate) : (contentsOf accepted).keys = accepted.keys :=
  Table.keys_image _ accepted

theorem values_contentsOf (accepted : Table Candidate) :
    (contentsOf accepted).values = (contributionsOf accepted).map Contribution.unversioned := by
  unfold contentsOf contributionsOf Table.values
  rw [Table.map_image, List.map_map, List.map_map]
  rfl

theorem contentsOf_without (accepted : Table Candidate) (files : List String) :
    contentsOf (without accepted files) = (contentsOf accepted).filter fun e => !files.contains e.1 :=
  (Table.filter_image _ (fun f => !files.contains f) accepted).symm

/-! ## Rounds -/

theorem enroll_unversioned (ids : Known) (cs : List Contribution) :
    enroll ids (cs.map Contribution.unversioned) = enroll ids cs := by
  induction cs generalizing ids with
  | nil => rfl
  | cons c cs ih =>
    have hconflict : conflict? ids c.unversioned = conflict? ids c := rfl
    have hknown : known c.unversioned = known c := rfl
    rw [List.map_cons, enroll, enroll, hconflict, hknown, ih, ih]
    rfl

/-- What is known from the other files depends on what these contribute, apart from versions. -/
theorem background_replay (ho : current.Ordered) (ho' : current'.Ordered)
    (hkeys : accepted.keys = accepted'.keys)
    (h : ∀ f, f ∉ accepted.keys → (current.get? f).map Contribution.unversioned =
      (current'.get? f).map Contribution.unversioned) :
    background current accepted = background current' accepted' := by
  have hflat : ∀ (t : Table Contribution) (a : Table Candidate), background t a =
      (Table.unversioned (t.filter fun c => !a.contains c.1)).flatMap fun c => known c.2 := by
    intro t a
    unfold background Table.unversioned Table.image
    rw [List.flatMap_map]
    rfl
  have hcontains : ∀ f, accepted.contains f = accepted'.contains f := by
    intro f
    rw [Bool.eq_iff_iff, Table.contains_iff, Table.contains_iff, hkeys]
  rw [hflat, hflat]
  congr 1
  refine (ho.filter _).unversioned_ext (ho'.filter _) fun f => ?_
  rw [Table.get?_filter_keys (fun f => !accepted.contains f),
    Table.get?_filter_keys (fun f => !accepted'.contains f), ← hcontains]
  split
  · rename_i hf
    refine h f fun hmem => ?_
    rw [Table.contains_iff.2 hmem] at hf
    cases hf
  · rfl

/-- **A round rejects the same files for the same reasons** if the candidates and the other files
contribute the same, apart from versions. -/
theorem round_replay (hb : background current accepted = background current' accepted')
    (hc : contentsOf accepted = contentsOf accepted') :
    round current' accepted' = round current accepted := by
  have hcs : (contributionsOf accepted).map Contribution.unversioned =
      (contributionsOf accepted').map Contribution.unversioned := by
    rw [← values_contentsOf, ← values_contentsOf, hc]
  have henrolled : enrolled current' accepted' = enrolled current accepted := by
    unfold enrolled
    rw [← enroll_unversioned _ (contributionsOf accepted'), ← hcs, enroll_unversioned, hb]
  have hdangling : ∀ (names : List String) (cs : List Contribution),
      (cs.filterMap fun c => (dangling? names c).map fun report => (⟨c.file, report⟩ : Misfit)) =
        (cs.map Contribution.unversioned).filterMap fun c =>
          (dangling? names c).map fun report => ⟨c.file, report⟩ := by
    intro names cs
    rw [List.filterMap_map]
    rfl
  rw [round_eq, round_eq, henrolled, hdangling _ (contributionsOf accepted'), ← hcs, ← hdangling]

theorem keys_settleFrom (fuel : Nat) :
    ∀ (accepted : Table Candidate) (misfits : List Misfit) {f : String},
      f ∈ (settleFrom current fuel accepted misfits).1.keys → f ∈ accepted.keys := by
  induction fuel with
  | zero => exact fun _ _ _ hf => hf
  | succ fuel ih =>
    intro accepted misfits f hf
    rw [settleFrom] at hf
    split at hf
    · exact hf
    · exact (Table.keys_filter_sublist _ accepted).subset (ih _ _ hf)

/-- **The rounds are replayed one by one.** The files that have no candidate any more in some round have
none in the end either, so they are among the files on which the two graphs agree. -/
theorem settleFrom_replay (ho : current.Ordered) (ho' : current'.Ordered) (fuel : Nat) :
    ∀ (accepted accepted' : Table Candidate) (misfits : List Misfit),
      contentsOf accepted = contentsOf accepted' →
      (∀ f, f ∉ (settleFrom current fuel accepted misfits).1.keys →
        (current.get? f).map Contribution.unversioned =
          (current'.get? f).map Contribution.unversioned) →
      contentsOf (settleFrom current' fuel accepted' misfits).1 =
          contentsOf (settleFrom current fuel accepted misfits).1 ∧
        (settleFrom current' fuel accepted' misfits).2 = (settleFrom current fuel accepted misfits).2 := by
  induction fuel with
  | zero => exact fun accepted accepted' misfits hc _ => ⟨hc.symm, rfl⟩
  | succ fuel ih =>
    intro accepted accepted' misfits hc hagree
    have hkeys : accepted.keys = accepted'.keys := by
      rw [← keys_contentsOf, hc, keys_contentsOf]
    have hround : round current' accepted' = round current accepted := by
      refine round_replay (background_replay ho ho' hkeys fun f hf => hagree f fun hmem => ?_) hc
      exact hf (keys_settleFrom _ _ _ hmem)
    rw [settleFrom] at hagree ⊢
    rw [settleFrom, hround]
    cases hr : round current accepted with
    | nil => exact ⟨hc.symm, rfl⟩
    | cons x xs =>
      simp only [hr] at hagree
      refine ih _ _ _ ?_ hagree
      rw [← without, ← without, contentsOf_without, contentsOf_without, hc]

theorem settle_replay (ho : current.Ordered) (ho' : current'.Ordered)
    (hc : contentsOf accepted = contentsOf accepted')
    (hagree : ∀ f, f ∉ (settle current accepted).1.keys →
      (current.get? f).map Contribution.unversioned = (current'.get? f).map Contribution.unversioned) :
    contentsOf (settle current' accepted').1 = contentsOf (settle current accepted).1 ∧
      (settle current' accepted').2 = (settle current accepted).2 := by
  have hlength : accepted'.length = accepted.length := by
    have := congrArg List.length hc
    simpa [contentsOf, Table.image] using this.symm
  unfold settle at hagree ⊢
  rw [hlength]
  exact settleFrom_replay ho ho' _ _ _ _ hc hagree

/-! ## Proposals -/

variable {v : Versions} {p : Proposal} {r : ScanResult} {results : List ScanResult}

/-- The candidates of a proposal, apart from versions, and its rejections. -/
def Proposal.contents (p : Proposal) : Table Contribution × List Rejection :=
  (contentsOf p.candidates, p.rejections)

/-- What a result for a new file adds, if it is newer than the graph. -/
def lookAt (p : Table Contribution × List Rejection) (r : ScanResult) :
    Except Fault (Table Contribution × List Rejection) :=
  match entitiesOf r with
  | .error cause => .ok (p.1, p.2 ++ [⟨r.file, cause⟩])
  | .ok entities => do
    let edges ← edgesOf r
    return (p.1.insert r.file ⟨r.file, 0, entities, edges⟩, p.2)

theorem proposeOne_eq (hfile : r.file ∉ p.candidates.keys)
    (hnewer : v.committed r.file < versionOf v r) :
    (proposeOne v p r).map Proposal.contents = lookAt p.contents r := by
  unfold proposeOne lookAt
  simp only [supersede_of_not_mem hfile, if_neg (not_le.2 hnewer)]
  cases entitiesOf r with
  | error cause => rfl
  | ok entities =>
    cases edgesOf r with
    | error f => rfl
    | ok edges => exact congrArg (fun t => Except.ok (t, p.rejections)) (Table.image_insert _ _ _ _)

theorem keys_lookAt {p q : Table Contribution × List Rejection} (h : lookAt p r = .ok q) {f : String}
    (hf : f ∈ q.1.keys) : f = r.file ∨ f ∈ p.1.keys := by
  unfold lookAt at h
  split at h
  · rw [← Except.ok.inj h] at hf
    exact .inr hf
  · obtain ⟨edges, -, h⟩ := bind_eq_ok.1 h
    rw [← Except.ok.inj h] at hf
    exact Table.mem_keys_insert.1 hf

/-- Results for different new files, all of them newer than the graph, one after the other. -/
theorem foldlM_proposeOne (results : List ScanResult) :
    ∀ p : Proposal, (results.map ScanResult.file).Nodup →
      (∀ r ∈ results, r.file ∉ p.candidates.keys) →
      (∀ r ∈ results, v.committed r.file < versionOf v r) →
      (results.foldlM (proposeOne v) p).map Proposal.contents = results.foldlM lookAt p.contents := by
  induction results with
  | nil => exact fun _ _ _ _ => rfl
  | cons r results ih =>
    intro p hnodup hfiles hnewer
    rw [List.map_cons, List.nodup_cons] at hnodup
    have hone := proposeOne_eq (hfiles r List.mem_cons_self) (hnewer r List.mem_cons_self)
    rw [List.foldlM_cons, List.foldlM_cons, ← hone]
    cases hq : proposeOne v p r with
    | error f => rfl
    | ok q =>
      rw [hq] at hone
      refine ih q hnodup.2 (fun x hx hkey => ?_) fun x hx => hnewer x (List.mem_cons_of_mem _ hx)
      -- the only new key is the file of the first result
      rw [← keys_contentsOf] at hkey
      rcases keys_lookAt hone.symm hkey with hfile | hkey
      · exact hnodup.1 (hfile ▸ List.mem_map_of_mem hx)
      · exact hfiles x (List.mem_cons_of_mem _ hx) ((keys_contentsOf p.candidates) ▸ hkey)

/-- Results for different files are looked at in the order of the files. -/
theorem inOrder_ascending (hfiles : (results.map ScanResult.file).Nodup) :
    (inOrder results).Pairwise fun a b => Text.lt a.file b.file = true := by
  have hperm : (inOrder results).Perm results := List.mergeSort_perm _ _
  have hnodup := (hperm.map ScanResult.file).nodup_iff.2 hfiles
  rw [List.Nodup, List.pairwise_map] at hnodup
  exact ((inOrder_files results).and hnodup).imp fun h => Text.lt_iff_le_ne.2 h

/-- The order of results for different files does not depend on their versions. -/
theorem inOrder_unversioned (hfiles : (results.map ScanResult.file).Nodup) :
    (inOrder results).map ScanResult.unversioned = inOrder (results.map ScanResult.unversioned) := by
  have hfiles' : ((results.map ScanResult.unversioned).map ScanResult.file).Nodup := by
    rw [List.map_map]; exact hfiles
  have hperm : ((inOrder results).map ScanResult.unversioned).Perm
      (inOrder (results.map ScanResult.unversioned)) :=
    ((List.mergeSort_perm _ _).map _).trans (List.mergeSort_perm _ _).symm
  refine hperm.eq_of_pairwise (fun a b _ _ hab hba => absurd hba (Text.lt_asymm hab)) ?_
    (inOrder_ascending hfiles')
  rw [List.pairwise_map]
  exact inOrder_ascending hfiles

/-- **Results for different files, all of them newer than the graph, are looked at apart from their
versions.** -/
theorem propose_eq (hfiles : (results.map ScanResult.file).Nodup)
    (hnewer : ∀ r ∈ results, v.committed r.file < versionOf v r) :
    (propose v results).map Proposal.contents =
      (inOrder (results.map ScanResult.unversioned)).foldlM lookAt ([], []) := by
  have hperm : (inOrder results).Perm results := List.mergeSort_perm _ _
  unfold propose
  rw [foldlM_proposeOne (inOrder results) {} ((hperm.map _).nodup_iff.2 hfiles)
    (fun r _ => by simp [Table.keys]) fun r hr => hnewer r (hperm.mem_iff.1 hr),
    ← inOrder_unversioned hfiles, List.foldlM_map]
  rfl

end Batch

namespace Store

open Batch

variable {s t : Store} {results results' : List ScanResult}

/-! ## Verdicts -/

/-- A verdict apart from versions. -/
def verdictContents (x : List Contribution × List Rejection) : List Contribution × List Rejection :=
  (x.1.map Contribution.unversioned, x.2)

/-- **The verdict on two batches is the same, apart from versions,** if they propose the same and the two
stores agree on the files that the first batch does not replace. -/
theorem judge_replay (hs : s.contributions.Ordered) (ht : t.contributions.Ordered)
    (hp : (propose s.scans results).map Proposal.contents =
      (propose t.scans results').map Proposal.contents)
    (hagree : ∀ p, propose s.scans results = .ok p →
      ∀ f, f ∉ (settle s.contributions p.candidates).1.keys →
        (s.contributions.get? f).map Contribution.unversioned =
          (t.contributions.get? f).map Contribution.unversioned) :
    (t.judge results').map verdictContents = (s.judge results).map verdictContents := by
  unfold judge
  change (propose t.scans results' >>= _).map _ = (propose s.scans results >>= _).map _
  cases hps : propose s.scans results with
  | error f =>
    rw [hps] at hp
    rw [map_eq_error.1 hp.symm]
    rfl
  | ok p =>
    rw [hps] at hp
    obtain ⟨p', hp', hcontents⟩ := map_eq_ok.1 hp.symm
    obtain ⟨hcandidates, hrejections⟩ := Prod.mk.inj hcontents
    obtain ⟨hsettled, hmisfits⟩ := settle_replay hs ht hcandidates.symm (hagree p hps)
    rw [hp']
    simp only [bind, Except.bind]
    rw [hmisfits, hrejections]
    cases (settle s.contributions p.candidates).2.mapM Misfit.rejection with
    | error f => rfl
    | ok late =>
      refine congrArg (fun cs => Except.ok (cs, p.rejections ++ late)) ?_
      change (contributionsOf _).map Contribution.unversioned = (contributionsOf _).map _
      rw [← values_contentsOf, ← values_contentsOf, hsettled]

/-- Commits of the same contents to stores with the same contents. -/
theorem commit_unversioned (hst : s.contributions.unversioned = t.contributions.unversioned)
    {cs ds : List Contribution}
    (h : cs.map Contribution.unversioned = ds.map Contribution.unversioned) :
    (s.commit cs).contributions.unversioned = (t.commit ds).contributions.unversioned := by
  change Table.unversioned (cs.foldl _ _) = Table.unversioned (ds.foldl _ _)
  rw [Table.unversioned_foldl_insert, Table.unversioned_foldl_insert, hst, h]

end Store

/-! ## Snapshots -/

/-- The entities, edges and owners of a snapshot depend on what is contributed, apart from versions. -/
theorem Snapshot.build_unversioned {cs cs' : List Contribution} {version version' : Nat}
    {view view' : Snapshot} (hcs : cs.map Contribution.unversioned = cs'.map Contribution.unversioned)
    (h : build version cs = .ok view) (h' : build version' cs' = .ok view') :
    view.entities = view'.entities ∧ view.edges = view'.edges ∧ view.owners = view'.owners := by
  have hdeclared : ∀ cs : List Contribution,
      declarations (cs.map Contribution.unversioned) = declarations cs := by
    intro cs
    unfold declarations
    rw [List.flatMap_map]
    rfl
  have hedges : ∀ cs : List Contribution,
      (cs.map Contribution.unversioned).flatMap Contribution.edges = cs.flatMap Contribution.edges := by
    intro cs
    rw [List.flatMap_map]
    rfl
  unfold build at h h'
  rw [← hdeclared cs', ← hedges cs', ← hcs, hdeclared, hedges] at h'
  obtain ⟨ts, hts, h⟩ := bind_eq_ok.1 h
  obtain ⟨ts', hts', h'⟩ := bind_eq_ok.1 h'
  obtain rfl := Except.ok.inj (hts.symm.trans hts')
  rw [← Except.ok.inj h, ← Except.ok.inj h']
  exact ⟨rfl, rfl, rfl⟩

/-- Two stores show the same graph: the same entities, edges and owners. -/
def Store.SameGraph (s t : Store) : Prop :=
  ∃ view view', s.snapshot.2 = .ok view ∧ t.snapshot.2 = .ok view' ∧
    view.entities = view'.entities ∧ view.edges = view'.edges ∧ view.owners = view'.owners

/-- Stores in which all files contribute the same, apart from versions, show the same graph. -/
theorem Store.Coherent.sameGraph {s t : Store} (hs : s.Coherent) (ht : t.Coherent)
    (h : s.contributions.unversioned = t.contributions.unversioned) : s.SameGraph t := by
  obtain ⟨view, hview, hbuild⟩ := hs.exists_snapshot
  obtain ⟨view', hview', hbuild'⟩ := ht.exists_snapshot
  refine ⟨view, view', hview, hview', Snapshot.build_unversioned ?_ hbuild hbuild'⟩
  have hvalues : ∀ t : Table Contribution,
      t.values.map Contribution.unversioned = t.unversioned.values := by
    intro t
    unfold Table.unversioned Table.values
    rw [Table.map_image, List.map_map]
    rfl
  rw [hvalues, hvalues, h]

end ChangeImpact
