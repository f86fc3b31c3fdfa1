import ChangeImpact.Proofs.Merging

/-!
# Every reachable store is coherent

A store is changed by operations, each of which can succeed, be rejected or fault. `Coherent` is the
invariant of all of them: no id has two identities, no contribution repeats an id or an edge, every
contribution has the committed version of its file, and the snapshot that is kept is the current one.

* `Op`, `step`, `run`: the operations on a store and what they leave behind.
* `coherent_commit`: **a settled batch may be committed.** The last round of `Batch.settle` was about
  exactly the graph that the commit makes.
* `step_coherent`, `run_coherent`: each operation, and so each run, keeps a store coherent.
-/

namespace ChangeImpact

theorem EdgeKey.beq_iff {a b : EdgeKey String} : (a == b) = true ↔ a = b := by
  cases a; cases b
  simp [BEq.beq, instBEqEdgeKey.beq]

/-- Edges between texts have the same key when the texts, the dimension and the direction agree. -/
theorem sameKey_str {t u : Edge String} :
    ScanResult.sameKey (t.map .str) (u.map .str) = true ↔ t.key = u.key := by
  rw [← EdgeKey.beq_iff]; rfl

namespace Store

open Batch

/-- An operation on a store. -/
inductive Op where
  | merge (r : ScanResult)
  | mergeBatch (results : List ScanResult)
  | remove (file : String)
  | rebuild (results : List ScanResult)
  | reserve (file : String)
  | snapshot

/-- The results that an operation is given. -/
def Op.results : Op → List ScanResult
  | .merge r => [r]
  | .mergeBatch results | .rebuild results => results
  | .remove _ | .reserve _ | .snapshot => []

/-- The store that an operation leaves behind, whether it succeeds or not. -/
def step (s : Store) : Op → Store
  | .merge r => (s.merge r).1
  | .mergeBatch results => (s.mergeBatch results).1
  | .remove file => (s.remove file).1
  | .rebuild results => (s.rebuild results).1
  | .reserve file => (s.reserve file).1
  | .snapshot => s.snapshot.1

/-- The store after some operations. -/
def run (s : Store) (ops : List Op) : Store := ops.foldl step s

/-- A store that nothing was merged into, with or without a database. -/
def empty (database : Option Database) : Store := { database }

/-- The invariant of all operations. -/
structure Coherent (s : Store) : Prop where
  ordered : s.contributions.Ordered
  versions_ordered : s.versions.Ordered
  file : ∀ f c, s.contributions.get? f = some c → c.file = f
  /-- No id has two identities, in one file or in two. -/
  identity : ∀ f g c d, s.contributions.get? f = some c → s.contributions.get? g = some d →
    ∀ a ∈ c.entities, ∀ b ∈ d.entities, a.id = b.id → a.identity = b.identity
  entity_ids : ∀ f c, s.contributions.get? f = some c → (c.entities.map Entity.id).Nodup
  edge_texts : ∀ f c, s.contributions.get? f = some c → ∀ e ∈ c.edges, ∃ t : Edge String, e = t.map .str
  edge_keys : ∀ f c, s.contributions.get? f = some c →
    c.edges.Pairwise fun a b => ScanResult.sameKey a b = false
  version : ∀ f c, s.contributions.get? f = some c → s.versions.get? f = some c.version
  cached : ∀ view, s.cache = some view → s.buildSnapshot = .ok view

variable {s t : Store} {results : List ScanResult}

theorem coherent_empty (database : Option Database) : (empty database).Coherent where
  ordered := Table.ordered_nil
  versions_ordered := Table.ordered_nil
  file := fun _ _ h => by cases h
  identity := fun _ _ _ _ h => by cases h
  entity_ids := fun _ _ h => by cases h
  edge_texts := fun _ _ h => by cases h
  edge_keys := fun _ _ h => by cases h
  version := fun _ _ h => by cases h
  cached := fun _ h => by cases h

/-- What an operation does to anything but contributions, versions and the kept snapshot does not
matter. -/
theorem Coherent.frame (h : s.Coherent) (hc : t.contributions = s.contributions)
    (hv : t.versions = s.versions) (hcache : ∀ view, t.cache = some view → t.buildSnapshot = .ok view) :
    t.Coherent where
  ordered := hc ▸ h.ordered
  versions_ordered := hv ▸ h.versions_ordered
  file := hc ▸ h.file
  identity := hc ▸ h.identity
  entity_ids := hc ▸ h.entity_ids
  edge_texts := hc ▸ h.edge_texts
  edge_keys := hc ▸ h.edge_keys
  version := by rw [hc, hv]; exact h.version
  cached := hcache

/-- A coherent store stays coherent when contributions are dropped. -/
theorem Coherent.drop (h : s.Coherent) {contributions : Table Contribution} (ho : contributions.Ordered)
    (hsub : ∀ f c, contributions.get? f = some c → s.contributions.get? f = some c) :
    (s.changed contributions).Coherent where
  ordered := ho
  versions_ordered := h.versions_ordered
  file := fun f c hc => h.file f c (hsub f c hc)
  identity := fun f g c d hc hd => h.identity f g c d (hsub f c hc) (hsub g d hd)
  entity_ids := fun f c hc => h.entity_ids f c (hsub f c hc)
  edge_texts := fun f c hc => h.edge_texts f c (hsub f c hc)
  edge_keys := fun f c hc => h.edge_keys f c (hsub f c hc)
  version := fun f c hc => h.version f c (hsub f c hc)
  cached := fun _ hc => by cases hc

/-! ## Commits -/

theorem mem_background {current : Table Contribution} {candidates : Table Candidate}
    {a : String × Identity × String} :
    a ∈ background current candidates ↔
      ∃ x ∈ current, x.1 ∉ candidates.keys ∧ ∃ e ∈ x.2.entities, (e.id, e.identity, x.2.file) = a := by
  unfold background
  rw [List.mem_flatMap]
  constructor
  · rintro ⟨x, hx, ha⟩
    rw [List.mem_filter, Bool.not_eq_true', ← Bool.not_eq_true, Table.contains_iff] at hx
    exact ⟨x, hx.1, hx.2, mem_known.1 ha⟩
  · rintro ⟨x, hx, hk, ha⟩
    refine ⟨x, ?_, mem_known.2 ha⟩
    rw [List.mem_filter, Bool.not_eq_true', ← Bool.not_eq_true, Table.contains_iff]
    exact ⟨hx, hk⟩

/-- What a file without a candidate declares is known. -/
theorem mem_knownWith_of_get? {current : Table Contribution} {candidates : Table Candidate} {f : String}
    {c : Contribution} (hc : current.get? f = some c) (hf : f ∉ candidates.keys) {e : Entity}
    (he : e ∈ c.entities) : (e.id, e.identity, c.file) ∈ knownWith current candidates :=
  List.mem_append_left _ (mem_background.2 ⟨(f, c), Table.mem_of_get?_eq_some hc, hf, e, he, rfl⟩)

theorem Coherent.background_consistent (h : s.Coherent) (candidates : Table Candidate) :
    Consistent (background s.contributions candidates) := by
  intro a ha b hb hab
  obtain ⟨x, hx, -, e, he, rfl⟩ := mem_background.1 ha
  obtain ⟨y, hy, -, e', he', rfl⟩ := mem_background.1 hb
  exact h.identity x.1 y.1 x.2 y.2 (h.ordered.get?_eq_some_iff.2 hx) (h.ordered.get?_eq_some_iff.2 hy)
    e he e' he' hab

/-- Everything that the store declares after a commit was known in the last round. -/
theorem mem_knownWith_of_commit {candidates : Table Candidate} (hk : Keyed candidates) {f : String}
    {c : Contribution} (hc : (s.commit (contributionsOf candidates)).contributions.get? f = some c)
    {e : Entity} (he : e ∈ c.entities) :
    (e.id, e.identity, c.file) ∈ knownWith s.contributions candidates := by
  rcases get?_commit_eq_some hk.ascending_files.nodup hc with ⟨hmem, -⟩ | ⟨hf, hget⟩
  · exact mem_knownWith_of_mem _ hmem he
  · rw [hk.files] at hf
    exact mem_knownWith_of_get? hget hf he

/-- **A settled batch may be committed.** -/
theorem coherent_commit (h : s.Coherent) {candidates : Table Candidate}
    {taken refused : List ScanResult} {rejections : List Rejection}
    (hv : Verdict s results candidates taken refused rejections) :
    (s.commit (contributionsOf candidates)).Coherent := by
  have hn := hv.keyed.ascending_files.nodup
  obtain ⟨hconflicts, hends⟩ := round_eq_nil hv.settled
  have hcontent : ∀ c ∈ contributionsOf candidates, ∃ r ∈ taken, contentOf s.scans r = c := fun c hc =>
    List.mem_map.1 (hv.contents ▸ hc)
  have hids : ∀ c ∈ contributionsOf candidates, (c.entities.map Entity.id).Nodup := fun c hc => by
    obtain ⟨r, -, rfl⟩ := hcontent c hc
    exact nodup_map_keepFirst Entity.id r.entities
  have hconsistent : Consistent (knownWith s.contributions candidates) :=
    enroll_consistent _ _ (h.background_consistent candidates) hids hconflicts
  refine ⟨h.ordered.foldl_insert _ _ _, h.versions_ordered.foldl_insert _ _ _, ?_, ?_, ?_, ?_, ?_, ?_,
    fun _ hc => by cases hc⟩
  · intro f c hc
    rcases get?_commit_eq_some hn hc with ⟨-, hf⟩ | ⟨-, hget⟩
    · exact hf
    · exact h.file f c hget
  · intro f g c d hc hd a ha b hb hab
    exact hconsistent _ (mem_knownWith_of_commit hv.keyed hc ha) _
      (mem_knownWith_of_commit hv.keyed hd hb) hab
  · intro f c hc
    rcases get?_commit_eq_some hn hc with ⟨hmem, -⟩ | ⟨-, hget⟩
    · exact hids c hmem
    · exact h.entity_ids f c hget
  · intro f c hc
    rcases get?_commit_eq_some hn hc with ⟨hmem, -⟩ | ⟨-, hget⟩
    · intro e he
      obtain ⟨t, ht, -⟩ := hends c hmem e he
      exact ⟨t, ht⟩
    · exact h.edge_texts f c hget
  · intro f c hc
    rcases get?_commit_eq_some hn hc with ⟨hmem, -⟩ | ⟨-, hget⟩
    · obtain ⟨r, -, rfl⟩ := hcontent c hmem
      exact keepFirst_pairwise _ r.edges
    · exact h.edge_keys f c hget
  · intro f c hc
    rcases get?_commit_eq_some hn hc with ⟨hmem, rfl⟩ | ⟨hf, hget⟩
    · exact (commit_of_mem s hn hmem).2
    · rw [(commit_of_not_mem s hf).2]; exact h.version f c hget

/-! ## Operations and runs -/

theorem Coherent.withDatabase (h : s.Coherent) (database : Option Database) :
    ({ s with database } : Store).Coherent := h.frame rfl rfl h.cached

theorem mergeBatch_coherent (h : s.Coherent) (results : List ScanResult) :
    (s.mergeBatch results).1.Coherent := by
  unfold mergeBatch
  rcases tryMerge_cases s results with ⟨f, -, hm⟩ | ⟨rejections, -, hm⟩ | ⟨_, _, f, -, -, hm⟩ |
    ⟨accepted, rejections, database, hj, -, -, hm⟩
  · rw [hm]; exact h
  · rw [hm]; exact h
  · rw [hm]; exact h
  · rw [hm]
    obtain ⟨candidates, taken, refused, rfl, hv⟩ := judge_eq_ok hj
    exact (coherent_commit h hv).withDatabase database

theorem merge_coherent (h : s.Coherent) (r : ScanResult) : (s.merge r).1.Coherent := by
  have hb := mergeBatch_coherent h [r]
  unfold merge
  split
  · rename_i next f heq
    rw [heq] at hb; exact hb
  · rename_i next outcome heq
    rw [heq] at hb
    split <;> exact hb

/-- A removal changes nothing, or it drops the contribution of its file. -/
theorem remove_cases (s : Store) (file : String) :
    (s.remove file).1 = s ∨ ∃ database,
      (s.remove file).1 = ({ s with database } : Store).changed (s.contributions.erase file) := by
  unfold remove
  split
  · exact .inl rfl
  · split
    · exact .inl rfl
    · rename_i written hw
      obtain ⟨database, rfl⟩ := write_eq_ok hw
      exact .inr ⟨database, rfl⟩

theorem remove_coherent (h : s.Coherent) (file : String) : (s.remove file).1.Coherent := by
  rcases remove_cases s file with hm | ⟨database, hm⟩
  · rw [hm]; exact h
  · rw [hm]
    exact (h.withDatabase database).drop (h.ordered.erase file) fun f c => Table.get?_of_get?_erase

/-- A rebuild changes nothing, or it drops all contributions and merges a batch. -/
theorem rebuild_cases (s : Store) (results : List ScanResult) :
    (∃ fault, s.rebuild results = (s, .error fault)) ∨ ∃ database,
      s.rebuild results =
        (({ s with database } : Store).changed []).mergeBatch (results.map s.refreshed) := by
  unfold rebuild
  split
  · exact .inl ⟨_, rfl⟩
  · rename_i written hw
    obtain ⟨database, rfl⟩ := write_eq_ok hw
    exact .inr ⟨database, rfl⟩

theorem rebuild_coherent (h : s.Coherent) (results : List ScanResult) :
    (s.rebuild results).1.Coherent := by
  rcases rebuild_cases s results with ⟨fault, hm⟩ | ⟨database, hm⟩
  · rw [hm]; exact h
  · rw [hm]
    apply mergeBatch_coherent
    exact (h.withDatabase database).drop Table.ordered_nil fun f c hc => by cases hc

/-- Asking for the snapshot changes at most which one is kept. -/
theorem snapshot_keeps (s : Store) : s.snapshot.1 = { s with cache := s.snapshot.1.cache } := by
  unfold snapshot
  split
  · rfl
  · split <;> rfl

theorem snapshot_coherent (h : s.Coherent) : s.snapshot.1.Coherent := by
  unfold snapshot
  split
  · exact h
  · split
    · rename_i view hview
      refine h.frame rfl rfl fun view' hv => ?_
      rw [← Option.some.inj hv]; exact hview
    · exact h

/-- Every operation keeps a store coherent. -/
theorem step_coherent (h : s.Coherent) (op : Op) : (s.step op).Coherent := by
  cases op with
  | merge r => exact merge_coherent h r
  | mergeBatch results => exact mergeBatch_coherent h results
  | remove file => exact remove_coherent h file
  | rebuild results => exact rebuild_coherent h results
  | reserve file => exact h.frame rfl rfl h.cached
  | snapshot => exact snapshot_coherent h

theorem Coherent.run (h : s.Coherent) (ops : List Op) : (s.run ops).Coherent := by
  induction ops generalizing s with
  | nil => exact h
  | cons op ops ih => exact ih (step_coherent h op)

/-- **Every reachable store is coherent.** -/
theorem run_coherent (database : Option Database) (ops : List Op) :
    ((empty database).run ops).Coherent := (coherent_empty database).run ops

/-- The keys of the edges of a contribution are different. -/
theorem Coherent.edge_keys_nodup (h : s.Coherent) {f : String} {c : Contribution}
    (hc : s.contributions.get? f = some c) : (c.edges.map Edge.key).Nodup := by
  rw [List.Nodup, List.pairwise_map]
  refine List.Pairwise.imp_of_mem ?_ (h.edge_keys f c hc)
  intro a b ha hb hab hkey
  obtain ⟨t, rfl⟩ := h.edge_texts f c hc a ha
  obtain ⟨u, rfl⟩ := h.edge_texts f c hc b hb
  have htu : t.key = u.key := by
    simp only [Edge.key, Edge.map, EdgeKey.mk.injEq, Value.str.injEq] at hkey ⊢
    exact hkey
  rw [sameKey_str.2 htu] at hab; cases hab

/-- **After every run** of operations on a store that was empty at first, two declarations of one id
agree in kind and language whatever files they stand in, no contribution repeats an id or the key of an
edge (as a key or by value), and the version of each contribution is the one committed for its file. -/
theorem run_contributions (database : Option Database) (ops : List Op) :
    (∀ f g c d, ((empty database).run ops).contributions.get? f = some c →
      ((empty database).run ops).contributions.get? g = some d →
      ∀ a ∈ c.entities, ∀ b ∈ d.entities, a.id = b.id → a.identity = b.identity) ∧
    (∀ f c, ((empty database).run ops).contributions.get? f = some c →
      (c.entities.map Entity.id).Nodup ∧ (c.edges.map Edge.key).Nodup ∧
        c.edges.Pairwise fun a b => (a.key == b.key) = false) ∧
    (∀ f c, ((empty database).run ops).contributions.get? f = some c →
      c.version = ((empty database).run ops).committed f) := by
  have h := run_coherent database ops
  refine ⟨h.identity, fun f c hc => ⟨h.entity_ids f c hc, h.edge_keys_nodup hc, h.edge_keys f c hc⟩, ?_⟩
  intro f c hc
  unfold committed
  rw [h.version f c hc]; rfl

end Store

end ChangeImpact
