import ChangeImpact.Engine
import ChangeImpact.Proofs.Analysis
import ChangeImpact.Proofs.Contracts
import ChangeImpact.Proofs.Extraction
import ChangeImpact.Proofs.Views

/-!
# The reports of an engine

An engine reports on what its files contributed, and on what it derives from that. Nothing checks a report
before it is handed out, so that reports obey their schema is a property of all that was done with the
engine before: of the database it was opened on, of the files it was given, and of every call that
failed.

* `Store.Presentable`, `Engine.Presentable`: what an engine keeps can be presented.
* `Engine.Presentable.perform`: one call keeps it so; `Engine.presentable_create`: so it is in the
  beginning.
* `Traversal.knows_of_mem_walk`: the chains of an analysis are made of edges of the graph and of contracts.
* `Engine.report_obeys_schema_iff`: **a report obeys the schema just if no entity has a negative line.**
-/

namespace ChangeImpact

/-! ## Tables -/

namespace Table

variable {α β : Type} {P : α → Prop}

theorem forall_mem_insert {t : Table α} {k : String} {v : α} (ht : ∀ e ∈ t, P e.2) (hv : P v) :
    ∀ e ∈ t.insert k v, P e.2 := by
  induction t with
  | nil => exact List.forall_mem_singleton.2 hv
  | cons f t ih =>
    obtain ⟨j, w⟩ := f
    obtain ⟨hw, hrest⟩ := List.forall_mem_cons.1 ht
    rw [insert]
    split_ifs
    · exact List.forall_mem_cons.2 ⟨hv, hrest⟩
    · exact List.forall_mem_cons.2 ⟨hv, ht⟩
    · exact List.forall_mem_cons.2 ⟨hw, ih hrest⟩

theorem forall_mem_foldl_insert (key : β → String) (value : β → α) {t : Table α} {bs : List β}
    (hbs : ∀ b ∈ bs, P (value b)) (ht : ∀ e ∈ t, P e.2) :
    ∀ e ∈ bs.foldl (fun t b => t.insert (key b) (value b)) t, P e.2 :=
  List.foldlRecOn (motive := fun t : Table α => ∀ e ∈ t, P e.2) bs _ ht
    fun _ ht b hb => forall_mem_insert ht (hbs b hb)

/-- What is listed under a key is listed in the table. -/
theorem exists_of_mem_getD {t : Table (List α)} {k : String} {a : α} (h : a ∈ (t.get? k).getD []) :
    ∃ e ∈ t, a ∈ e.2 := by
  cases hget : t.get? k with
  | none => rw [hget] at h; cases h
  | some as =>
    rw [hget] at h
    exact ⟨(k, as), mem_of_get?_eq_some hget, h⟩

end Table

/-! ## Contributions and snapshots -/

/-- What a file contributes can be presented. -/
structure Contribution.Presentable (c : Contribution) : Prop where
  ids : ∀ e ∈ c.entities, e.id ≠ ""
  confidences : ∀ e ∈ c.edges, Edge.isConfidence e.confidence = true

theorem ScanResult.Presentable.contentOf {r : ScanResult} (h : r.Presentable) (v : Batch.Versions) :
    (Batch.contentOf v r).Presentable where
  ids := fun e he => h.ids e (mem_of_mem_keepFirst he)
  confidences := fun e he => h.confidences e (mem_of_mem_keepFirst he)

theorem Snapshot.presentable_build {version : Nat} {cs : List Contribution} {view : Snapshot}
    (hcs : ∀ c ∈ cs, c.Presentable) (h : build version cs = .ok view) : view.Presentable where
  ids := fun e he => by
    obtain ⟨c, hc, hec, -⟩ := exists_owner h he
    exact (hcs c hc).ids e hec
  confidences := fun t ht => by
    obtain ⟨⟨c, hc, htc⟩, -⟩ := (mem_edges_build h).1 ht
    exact (hcs c hc).confidences _ htc

namespace Database

theorem corrupt_eq_ok {α : Type} {db : Database} {x : Except Fault α} {a : α}
    (h : db.corrupt x = .ok a) : x = .ok a := by
  unfold corrupt at h
  split at h
  · exact h
  · split at h <;> cases h

theorem exists_of_mem_decodeRows {α : Type} {decode : Value → Except Fault α}
    {rows : Table (List Document)} {table : Table (List α)} (h : decodeRows decode rows = .ok table)
    {entry : String × List α} (hentry : entry ∈ table) {a : α} (ha : a ∈ entry.2) :
    ∃ v, decode v = .ok a := by
  obtain ⟨row, -, hrow⟩ := (mem_of_mapM_eq_ok h entry).1 hentry
  simp only [bind_eq_ok] at hrow
  obtain ⟨decoded, hdecoded, hrow⟩ := hrow
  obtain rfl := Except.ok.inj hrow
  obtain ⟨document, -, hdocument⟩ := (mem_of_mapM_eq_ok hdecoded a).1 ha
  simp only [bind_eq_ok] at hdocument
  obtain ⟨v, -, hv⟩ := hdocument
  exact ⟨v, hv⟩

/-- **Rows that decode are contributions that can be presented,** whatever was written to the
database. -/
theorem presentable_contributions {db : Database} {cs : List Contribution}
    (h : db.contributions = .ok cs) : ∀ c ∈ cs, c.Presentable := by
  unfold contributions at h
  simp only [bind_eq_ok] at h
  obtain ⟨files, -, entityRows, -, edgeRows, -, entities, hentities, edges, hedges, h⟩ := h
  rw [← Except.ok.inj h, List.forall_mem_map]
  refine fun row _ => ⟨fun e he => ?_, fun e he => ?_⟩
  · obtain ⟨entry, hentry, he⟩ := Table.exists_of_mem_getD he
    obtain ⟨v, hv⟩ := exists_of_mem_decodeRows (corrupt_eq_ok hentities) hentry he
    exact (Entity.valid_of_ofRecord hv).id
  · obtain ⟨entry, hentry, he⟩ := Table.exists_of_mem_getD he
    obtain ⟨v, hv⟩ := exists_of_mem_decodeRows (corrupt_eq_ok hedges) hentry he
    exact (Edge.valid_of_ofRecord hv).confidence

end Database

namespace Store

variable {s : Store} {results : List ScanResult}

/-- What a store keeps can be presented. -/
structure Presentable (s : Store) : Prop where
  contributions : ∀ entry ∈ s.contributions, entry.2.Presentable
  cache : ∀ view, s.cache = some view → view.Presentable

theorem Presentable.buildSnapshot (h : s.Presentable) {view : Snapshot}
    (hview : s.buildSnapshot = .ok view) : view.Presentable :=
  Snapshot.presentable_build (List.forall_mem_map.2 h.contributions) hview

theorem Presentable.snapshot (h : s.Presentable) :
    s.snapshot.1.Presentable ∧ ∀ view, s.snapshot.2 = .ok view → view.Presentable := by
  unfold Store.snapshot
  split
  · rename_i view hcache
    refine ⟨h, fun view' hview => ?_⟩
    rw [← Except.ok.inj hview]
    exact h.cache view hcache
  · split
    · rename_i view hview
      have hbuilt := h.buildSnapshot hview
      exact ⟨⟨h.contributions, fun view' hcache => Option.some.inj hcache ▸ hbuilt⟩,
        fun view' hview' => Except.ok.inj hview' ▸ hbuilt⟩
    · exact ⟨h, nofun⟩

/-- A store with some of the contributions, after a change. -/
theorem Presentable.changed (h : s.Presentable) (database : Option Database)
    {contributions : Table Contribution} (hsub : ∀ entry ∈ contributions, entry ∈ s.contributions) :
    (({ s with database } : Store).changed contributions).Presentable where
  contributions := fun entry hentry => h.contributions entry (hsub entry hentry)
  cache := nofun

theorem Presentable.mergeBatch (h : s.Presentable) (hr : ∀ r ∈ results, r.Presentable) :
    (s.mergeBatch results).1.Presentable := by
  rcases mergeBatch_cases s results with ⟨fault, hm⟩ | ⟨_, _, _, -, hm⟩ |
    ⟨database, candidates, taken, refused, rejections, -, hv, hm⟩
  · rw [hm]; exact h
  · rw [hm]; exact h
  · rw [hm]
    have haccepted : ∀ c ∈ Batch.contributionsOf candidates, c.Presentable := by
      rw [hv.contents]
      refine List.forall_mem_map.2 fun r htaken => ?_
      have hresult : r ∈ results := hv.split.mem_iff.1 (List.mem_append_left _ htaken)
      exact (hr r hresult).contentOf s.scans
    exact ⟨Table.forall_mem_foldl_insert Contribution.file id haccepted h.contributions, nofun⟩

theorem Presentable.remove (h : s.Presentable) (file : String) : (s.remove file).1.Presentable := by
  rcases remove_cases s file with hm | ⟨database, hm⟩
  · rw [hm]; exact h
  · rw [hm]
    exact h.changed database fun entry => List.mem_of_mem_filter

theorem presentable_refreshed {r : ScanResult} (h : r.Presentable) : (s.refreshed r).Presentable := by
  obtain ⟨hids, hconfidences, hdiagnostics⟩ := h
  unfold refreshed
  split
  · split
    · exact ⟨hids, hconfidences, hdiagnostics⟩
    · exact ⟨hids, hconfidences, hdiagnostics⟩
  · exact ⟨hids, hconfidences, hdiagnostics⟩

theorem Presentable.rebuild (h : s.Presentable) (hr : ∀ r ∈ results, r.Presentable) :
    (s.rebuild results).1.Presentable := by
  rcases rebuild_cases s results with ⟨fault, hm⟩ | ⟨database, hm⟩
  · rw [hm]; exact h
  · rw [hm]
    have hempty : (({ s with database } : Store).changed []).Presentable :=
      h.changed database (List.forall_mem_nil _)
    exact hempty.mergeBatch (List.forall_mem_map.2 fun r hmem => presentable_refreshed (hr r hmem))

theorem presentable_restore {db : Database} (h : restore db = .ok s) : s.Presentable := by
  unfold restore at h
  simp only [bind_eq_ok] at h
  obtain ⟨cs, hcs, versions, -, h⟩ := h
  rw [← Except.ok.inj h]
  refine ⟨List.forall_mem_map.2 (Database.presentable_contributions hcs), fun view hview => ?_⟩
  cases hview

end Store

/-! ## Scans -/

namespace ScanState

variable {s : ScanState}

/-- The diagnostics that are listed can be presented. -/
def Presentable (s : ScanState) : Prop := ∀ entry ∈ s.diagnosticsByFile, ∀ d ∈ entry.2, d.Presentable

theorem Presentable.diagnostics (h : s.Presentable) : ∀ d ∈ s.diagnostics, d.Presentable := by
  intro d hd
  obtain ⟨ds, hds, hd⟩ := List.mem_flatten.1 hd
  obtain ⟨entry, hentry, rfl⟩ := List.mem_map.1 hds
  exact h entry hentry d hd

theorem Presentable.forget (h : s.Presentable) (file : String) : (s.forget file).Presentable :=
  fun entry hentry => h entry (List.mem_of_mem_filter hentry)

theorem Presentable.addDiagnostic (h : s.Presentable) {d : Diagnostic} (hd : d.Presentable) :
    (s.addDiagnostic d).Presentable := by
  have hbefore : ∀ x ∈ (s.diagnosticsByFile.get? d.file).getD [], x.Presentable := by
    intro x hx
    obtain ⟨entry, hentry, hx⟩ := Table.exists_of_mem_getD hx
    exact h entry hentry x hx
  exact Table.forall_mem_insert (P := fun ds : List Diagnostic => ∀ x ∈ ds, x.Presentable) h
    (List.forall_mem_append.2 ⟨hbefore, List.forall_mem_singleton.2 hd⟩)

theorem Presentable.addGap (h : s.Presentable) (g : Gap) : (s.addGap g).Presentable := by
  unfold ScanState.addGap
  dsimp only
  split
  · exact h
  · exact h

/-- **One scan:** the diagnostics of its files are replaced. -/
theorem Presentable.record (h : s.Presentable) {report : ScanReport}
    (hreport : ∀ d ∈ report.diagnostics, d.Presentable) (files : List String) :
    (s.record files report).Presentable := by
  unfold ScanState.record
  refine List.foldlRecOn report.gaps ScanState.addGap ?_ fun s hs g _ => hs.addGap g
  refine List.foldlRecOn report.diagnostics ScanState.addDiagnostic ?_ fun s hs d hd =>
    hs.addDiagnostic (hreport d hd)
  exact List.foldlRecOn _ ScanState.forget h fun s hs f _ => hs.forget f

end ScanState

namespace Scan

variable {registry : Registry} {s : Store} {token : Token} {files : Table Value}
  {fates : List (String × Fate)}

/-- What the extraction of files gives can be presented. -/
theorem Extracted.presentable (h : Extracted registry token files fates) (hregistry : registry.Presents) :
    ∀ entry ∈ resultsOf fates, entry.2.Presentable := by
  intro entry hentry
  obtain ⟨content, q, version, -, hextract, hq⟩ := h.result hentry
  obtain ⟨hids, hconfidences, hdiagnostics⟩ := hregistry.extract hextract
  rw [hq]
  exact ⟨hids, hconfidences, hdiagnostics⟩

/-- **One scan or rebuild,** whether it fails or not. -/
theorem presentable_run (hregistry : registry.Presents) (hs : s.Presentable) (token : Token)
    (oneByOne rebuild : Bool) (files : Table Value) :
    (run registry s token oneByOne rebuild files).1.Presentable ∧
      ∀ report, (run registry s token oneByOne rebuild files).2 = .ok report →
        ∀ d ∈ report.diagnostics, d.Presentable := by
  obtain ⟨issued, ⟨fates, hall, hextracted⟩ | ⟨f, hall, -⟩⟩ :=
    extractAll_cases registry oneByOne files s token
  · -- the files are all extracted, so what is merged and what is reported are their results
    have hresults := hextracted.presentable hregistry
    have hmergeable : ∀ r ∈ mergeable fates, r.Presentable :=
      List.forall_mem_map.2 fun entry hentry => hresults entry (List.mem_of_mem_filter hentry)
    have hmid : ({ s with issued } : Store).Presentable := ⟨hs.contributions, hs.cache⟩
    rw [run_of_extractAll hall rebuild]
    refine ⟨?_, fun report hreport => ?_⟩
    · cases rebuild with
      | true => exact hmid.rebuild hmergeable
      | false => exact hmid.mergeBatch hmergeable
    · obtain ⟨outcome, -, rfl⟩ := map_eq_ok.1 hreport
      intro d hd
      obtain ⟨entry, hentry, hd⟩ := List.mem_flatMap.1 hd
      exact (hresults entry hentry).diagnostics d hd
  · -- an extraction faults, and only versions have been issued
    unfold run
    rw [hall]
    exact ⟨⟨hs.contributions, hs.cache⟩, nofun⟩

end Scan

/-! ## Engines -/

namespace Engine

variable {e : Engine}

/-- What can be done with an engine. -/
inductive Call where
  | scan (files : Table Value) (token : Token) (jobs : Option Int)
  | rebuild (files : Table Value) (token : Token) (jobs : Option Int)
  | remove (file : String)
  | snapshot

/-- The engine that a call leaves behind, also when the call fails. -/
def perform (e : Engine) : Call → Engine
  | .scan files token jobs => (e.scan files token jobs).1
  | .rebuild files token jobs => (e.rebuild files token jobs).1
  | .remove file => (e.removeFile file).1
  | .snapshot => e.snapshot.1

def performAll (e : Engine) (calls : List Call) : Engine := calls.foldl perform e

/-- What an engine finds and keeps can be presented. -/
structure Presentable (e : Engine) : Prop where
  registry : e.registry.Presents
  store : e.store.Presentable
  scanState : e.scanState.Presentable

theorem Presentable.runScan (h : e.Presentable) (files : Table Value) (token : Token)
    (jobs : Option Int) (rebuild : Bool) : (e.runScan files token jobs rebuild).1.Presentable := by
  have hrun := Scan.presentable_run h.registry h.store token (jobs.getD e.jobs ≤ 1) rebuild files
  unfold Engine.runScan
  rcases hout : Scan.run e.registry e.store token (jobs.getD e.jobs ≤ 1) rebuild files with
    ⟨store, fault | report⟩
  · rw [hout] at hrun
    simp only [hout]
    exact ⟨h.registry, hrun.1, h.scanState⟩
  · rw [hout] at hrun
    simp only [hout]
    -- a rebuild forgets what earlier scans have listed
    have hbefore : (if rebuild then {} else e.scanState : ScanState).Presentable := by
      cases rebuild with
      | true => exact List.forall_mem_nil _
      | false => exact h.scanState
    exact ⟨h.registry, hrun.1, hbefore.record (hrun.2 report rfl) files.keys⟩

/-- **One call.** -/
theorem Presentable.perform (h : e.Presentable) (call : Call) : (e.perform call).Presentable := by
  cases call with
  | scan files token jobs => exact h.runScan files token jobs false
  | rebuild files token jobs => exact h.runScan files token jobs true
  | remove file => exact ⟨h.registry, h.store.remove file, h.scanState.forget file⟩
  | snapshot => exact ⟨h.registry, h.store.snapshot.1, h.scanState⟩

/-- **All calls.** -/
theorem Presentable.performAll (h : e.Presentable) (calls : List Call) :
    (e.performAll calls).Presentable :=
  List.foldlRecOn calls Engine.perform h fun _ he call _ => he.perform call

/-- A new engine, on any database. -/
theorem presentable_create {config : Config} {registry : Registry} {database : Option Database}
    (hregistry : registry.Presents) (h : create config registry database = .ok e) : e.Presentable := by
  unfold create at h
  rw [bind_eq_ok] at h
  obtain ⟨store, hstore, h⟩ := h
  have hkept : store.Presentable := by
    cases database with
    | none =>
      rw [← Except.ok.inj hstore]
      exact ⟨List.forall_mem_nil _, nofun⟩
    | some db => exact Store.presentable_restore hstore
  rw [← Except.ok.inj h]
  exact ⟨hregistry, hkept, List.forall_mem_nil _⟩

end Engine

/-! ## Contracts -/

theorem MatchBasis.isConfidence_confidence (b : MatchBasis) :
    Edge.isConfidence b.confidence = true := by
  cases b <;> decide +kernel

namespace Contract

theorem confidence_of_pathPair {config : Config} {side : Layer} {orphans : List Family} {path : String}
    {p : ContractPair} (h : pathPair? config side orphans path = some p) :
    p.confidence = MatchBasis.routePath.confidence := by
  unfold pathPair? at h
  split at h
  · split at h
    · rw [← Option.some.inj h]
    · cases h
  · cases h

/-- Every pair is as sure as its basis. -/
theorem isConfidence_of_check {config : Config} {s : Snapshot} {declared : Value}
    {report : ConsistencyReport} (h : check config s declared false = .ok report) :
    ∀ p ∈ report.pairs, Edge.isConfidence p.confidence = true := by
  obtain ⟨side, ms, -, rfl⟩ := check_eq_ok h
  intro p hp
  rcases mem_pairs_reportOn.1 hp with hp | hp
  · obtain ⟨f, -, b, -, m, -, rfl⟩ := mem_matched.1 hp
    exact MatchBasis.isConfidence_confidence _
  · obtain ⟨path, hpath⟩ := mem_onPaths.1 hp
    rw [confidence_of_pathPair hpath]
    exact MatchBasis.isConfidence_confidence _

end Contract

/-! ## Impacts -/

theorem Hit.mem_of_mem_keepLowest {gs : List Hit} {g h : Hit} (hg : g ∈ keepLowest gs h) :
    g ∈ gs ∨ g = h := by
  induction gs with
  | nil => exact .inr (List.mem_singleton.1 hg)
  | cons k gs ih =>
    rw [keepLowest] at hg
    split at hg
    · rcases List.mem_cons.1 hg with rfl | hg
      · split
        · exact .inr rfl
        · exact .inl List.mem_cons_self
      · exact .inl (List.mem_cons_of_mem _ hg)
    · rcases List.mem_cons.1 hg with rfl | hg
      · exact .inl List.mem_cons_self
      · exact (ih hg).imp_left (List.mem_cons_of_mem _)

namespace Traversal

variable {t : Traversal} {visited : List String} {frontier : List Reached}

/-- An edge of the snapshot or a derived one. -/
def Knows (t : Traversal) (e : Edge String) : Prop := e ∈ t.snapshot.edges ∨ e ∈ t.derived

/-- A hit comes from the frontier over one edge. -/
theorem knows_of_mem_nextHits {h : Hit} (hh : h ∈ t.nextHits visited frontier) :
    h.parent ∈ frontier ∧ t.Knows h.edge := by
  have hkept : ∀ g ∈ t.nextHits visited frontier, g ∈ frontier.flatMap (t.hitsFrom visited) := by
    refine List.foldlRecOn (motive := fun gs => ∀ g ∈ gs, g ∈ frontier.flatMap (t.hitsFrom visited))
      _ Hit.keepLowest (List.forall_mem_nil _) fun gs hgs x hx g hg => ?_
    rcases Hit.mem_of_mem_keepLowest hg with hg | rfl
    · exact hgs g hg
    · exact hx
  obtain ⟨r, hr, hfrom⟩ := List.mem_flatMap.1 (hkept h hh)
  obtain ⟨e, he, rfl⟩ := List.mem_map.1 (List.mem_of_mem_filter hfrom)
  refine ⟨hr, ?_⟩
  rcases List.mem_append.1 (List.mem_of_mem_filter he) with he | he
  · exact .inl (Snapshot.mem_edges_of_mem_neighbors he).1
  · exact .inr (List.mem_of_mem_filter he)

/-- **The chains of a walk are made of edges of the snapshot and of derived ones.** The invariant is that
the chains to the frontier are. -/
theorem knows_of_mem_walkFrom (limit : Option Nat) (fuel : Nat) :
    ∀ (depth : Nat) (token : Token) (visited : List String) (frontier : List Reached),
      (∀ r ∈ frontier, ∀ e ∈ r.chain, t.Knows e) →
      ∀ hits ∈ (t.walkFrom limit fuel depth token visited frontier).layers, ∀ h ∈ hits,
        ∀ e ∈ h.reached.chain, t.Knows e := by
  induction fuel with
  | zero => exact fun _ _ _ _ _ hits h => absurd h List.not_mem_nil
  | succ fuel ih =>
    intro depth token visited frontier hfrontier hits hlayer
    have hnext : ∀ h ∈ t.nextHits visited frontier, ∀ e ∈ h.reached.chain, t.Knows e := by
      intro h hh
      obtain ⟨hparent, hedge⟩ := knows_of_mem_nextHits hh
      exact List.forall_mem_append.2 ⟨hfrontier h.parent hparent, List.forall_mem_singleton.2 hedge⟩
    rw [walkFrom] at hlayer
    split at hlayer
    · cases hlayer
    split at hlayer
    · cases hlayer
    rcases List.mem_cons.1 hlayer with rfl | hlayer
    · exact hnext
    · refine ih _ _ _ _ (fun r hr => ?_) hits hlayer
      rw [(sortByRank_perm _ _).mem_iff] at hr
      obtain ⟨h, hh, rfl⟩ := List.mem_map.1 hr
      exact hnext h hh

theorem knows_of_mem_walk (t : Traversal) (limit : Option Nat) (token : Token) (roots : List String) :
    ∀ hits ∈ (t.walk limit token roots).layers, ∀ h ∈ hits, ∀ e ∈ h.reached.chain, t.Knows e := by
  refine knows_of_mem_walkFrom limit _ _ _ _ _ (List.forall_mem_map.2 fun root _ e he => ?_)
  cases he

end Traversal

namespace Impact

/-- An item has the chain of a hit. -/
theorem exists_hit_of_mem_itemsFrom {s : Snapshot} {depth : Nat} {layers : List (List Hit)} {i : ImpactItem}
    (h : i ∈ itemsFrom s depth layers) : ∃ hits ∈ layers, ∃ x ∈ hits, i.chain = x.reached.chain := by
  induction layers generalizing depth with
  | nil => cases h
  | cons hits layers ih =>
    rcases List.mem_append.1 h with h | h
    · obtain ⟨x, hx, rfl⟩ := List.mem_map.1 ((itemsOf_perm s depth hits).mem_iff.1 h)
      exact ⟨hits, List.mem_cons_self, x, hx, rfl⟩
    · obtain ⟨later, hlater, hx⟩ := ih h
      exact ⟨later, List.mem_cons_of_mem _ hlater, hx⟩

/-- **What an analysis lists can be presented.** -/
theorem presentable_of_analyze {config : Config} {s : Snapshot} {pairs : List ContractPair} {r : Request}
    {token next : Token} {result : ImpactResult} (hs : s.Presentable)
    (hpairs : ∀ p ∈ pairs, Edge.isConfidence p.confidence = true)
    (h : analyze config s pairs r token = .ok (result, next)) :
    ∀ i ∈ result.impacted, i.Presentable := by
  unfold analyze at h
  simp only [bind_eq_ok] at h
  obtain ⟨changes, -, dimensions, -, direction, -, limit, -, h⟩ := h
  obtain ⟨rfl, -⟩ := Prod.mk.inj (Except.ok.inj h)
  -- a derived edge is as sure as the pair it is derived from
  have hknown : ∀ e, (traversalOf config s pairs dimensions direction).Knows e →
      Edge.isConfidence e.confidence = true := by
    rintro e (he | he)
    · exact hs.confidences e he
    · obtain ⟨p, hp, he⟩ := List.mem_flatMap.1 (List.mem_of_mem_filter he)
      have hsame : e.confidence = p.confidence := by
        rcases List.mem_pair.1 he with rfl | rfl <;> rfl
      rw [hsame]
      exact hpairs p hp
  intro i hi
  have hlayer := lt_layer_of_mem_itemsFrom hi
  obtain ⟨hits, hhits, hit, hhit, hchain⟩ := exists_hit_of_mem_itemsFrom hi
  have hused := Traversal.knows_of_mem_walk _ _ _ _ hits hhits hit hhit
  rw [← hchain] at hused
  refine ⟨hlayer, ?_, fun e he => hknown e (hused e he)⟩
  rw [hchain]
  exact List.append_ne_nil_of_right_ne_nil _ (List.cons_ne_nil _ _)

end Impact

/-! ## Reports -/

namespace Engine

theorem presentable_of_analyzeAll {e : Engine} {s : Snapshot} {consistency : ConsistencyReport}
    {template : Impact.Request} (hs : s.Presentable)
    (hpairs : ∀ p ∈ consistency.pairs, Edge.isConfidence p.confidence = true) (sets : List Value) :
    ∀ {token : Token} {results : List (ImpactResult × ChangePlan)},
      e.analyzeAll s consistency template token sets = .ok results →
      ∀ r ∈ results, ∀ i ∈ r.1.impacted, i.Presentable := by
  induction sets with
  | nil =>
    intro token results h
    rw [← Except.ok.inj h]
    exact List.forall_mem_nil _
  | cons changes sets ih =>
    intro token results h
    rw [analyzeAll] at h
    simp only [bind_eq_ok] at h
    obtain ⟨⟨impact, next⟩, himpact, plan, -, rest, hrest, h⟩ := h
    rw [← Except.ok.inj h]
    exact List.forall_mem_cons.2 ⟨Impact.presentable_of_analyze hs hpairs himpact, ih hrest⟩

/-- What a report is made of. -/
theorem report_eq_ok {e : Engine} {s : Snapshot} {changeSets dimensions maxDepth document : Value}
    {token : Token} (h : e.report s changeSets dimensions maxDepth token = .ok document) :
    ∃ consistency sets results, e.check s = .ok consistency ∧
      e.analyzeAll s consistency { changes := .null, dimensions, maxDepth } token sets = .ok results ∧
      document = Report.build s (some consistency) (results.map (·.1)) (results.map (·.2))
        (some e.scanState.outstanding)
        (Report.statusFrom (results.map (·.1)) (some e.scanState.outstanding)) := by
  unfold report at h
  simp only [bind_eq_ok] at h
  obtain ⟨consistency, hcheck, sets, -, results, hresults, h⟩ := h
  exact ⟨consistency, sets, results, hcheck, hresults, (Except.ok.inj h).symm⟩

/-- **A report obeys the schema just if no entity has a negative line.** An engine with the bundled
extractors is opened on any database or on none, under any configuration, and used in any way: files are
scanned, the graph is rebuilt, files are removed, and any of it may be cancelled or fail. Whatever change
sets it is then asked about, within whatever dimensions and depth: if it reports on its graph at all, the
report passes the check of the schema just if the lines of all entities are at least zero. -/
theorem report_obeys_schema_iff (config : Config) (patterns : List (String × List String))
    (database : Option Database) {start : Engine}
    (hstart : create config (Registry.bundled patterns) database = .ok start) (calls : List Call)
    {view : Snapshot} (hview : (start.performAll calls).snapshot.2 = .ok view)
    (changeSets dimensions maxDepth : Value) (token : Token) {document : Value}
    (h : (start.performAll calls).report view changeSets dimensions maxDepth token = .ok document) :
    Report.validate document = [] ↔
      ∀ e ∈ view.entities, 0 ≤ e.location.startLine ∧ 0 ≤ e.location.endLine := by
  have hstarted := presentable_create (Registry.presents_bundled patterns) hstart
  have hengine := hstarted.performAll calls
  have hs : view.Presentable := hengine.store.snapshot.2 view hview
  obtain ⟨consistency, sets, results, hcheck, hresults, rfl⟩ := report_eq_ok h
  have hpairs := Contract.isConfidence_of_check hcheck
  have himpacts := presentable_of_analyzeAll hs hpairs sets hresults
  exact Report.validate_build hs hpairs (List.forall_mem_map.2 himpacts) hengine.scanState.diagnostics

/-- A configuration with limits for plans. -/
def limitedConfig : Config :=
  { (default : Config) with
    planThresholds := [(.str "full_sync_max_impacted", .int 10), (.str "refactor_min_impacted", .int 40),
      (.str "refactor_mismatch_ratio", .int 1)] }

/-- A database with a key that stands before the first line of its file, and depends on itself. -/
def misplacedKey : Database where
  path := "graph.db"
  files := some [("app.yml", ⟨1, true⟩)]
  entities := some [("app.yml", [.value (Entity.toRecord
    { Entity.bare "key" with kind := .configKey, location := { file := "app.yml", startLine := -1 } })])]
  edges := some [("app.yml", [.value (Edge.toRecord ⟨.str "key", .str "key", .config, .backward, .one⟩)])]

/-- A scan that is cancelled at once, and a removal of a file that there is not. -/
def idleCalls : List Call :=
  [.scan [("other.config.yml", .str "x: 1")] ⟨some 0⟩ none, .remove "absent.yml"]

/-- The report on the misplaced key and its change is handed out, and breaks the schema. -/
theorem report_of_misplacedKey : ∃ start view document,
    create limitedConfig (Registry.bundled []) (some misplacedKey) = .ok start ∧
    (start.performAll idleCalls).snapshot.2 = .ok view ∧
    (start.performAll idleCalls).report view (.list [.texts ["key"]]) .null .null {} = .ok document ∧
    view.entities.map (fun e => e.location.startLine) = [-1] ∧ Report.validate document ≠ [] := by
  have hlines : (do
      let start ← create limitedConfig (Registry.bundled []) (some misplacedKey)
      let view ← (start.performAll idleCalls).snapshot.2
      let _ ← (start.performAll idleCalls).report view (.list [.texts ["key"]]) .null .null {}
      return view.entities.map fun e : Entity => e.location.startLine) = .ok [-1] := by
    decide +kernel
  simp only [bind_eq_ok] at hlines
  obtain ⟨start, hstart, view, hview, document, hdocument, hlines⟩ := hlines
  have hlines := Except.ok.inj hlines
  refine ⟨start, view, document, hstart, hview, hdocument, hlines, fun hvalid => ?_⟩
  have hall := (report_obeys_schema_iff limitedConfig [] _ hstart idleCalls hview _ _ _ _ hdocument).1 hvalid
  obtain ⟨e, he, hline⟩ : ∃ e ∈ view.entities, e.location.startLine = -1 := by
    rw [← List.mem_map, hlines]
    exact List.mem_singleton_self _
  have hnonneg := (hall e he).1
  omega

end Engine

end ChangeImpact
