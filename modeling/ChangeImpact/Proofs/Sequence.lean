import ChangeImpact.Proofs.Accounting
import ChangeImpact.Proofs.Closure
import ChangeImpact.Proofs.Storage

/-!
# A batch and its results one after the other

Results for new files can be merged one at a time, each into the graph that those before it made, or all
at once. Merging one at a time asks for more: the order must be such that no edge is merged before its
ends. If it succeeds in some order, the graph in the end answers for the whole batch: it holds what each
result contributes, no id has two identities in it, and all edges have their ends in it.

* `InTurn`: merging one at a time, with success each time.
* `merge_eq_ok`: what a merge that succeeds says about its result.
* `Absorbs`: **what the store holds after some results**; `Absorbs.cons` is one more result and
  `InTurn.absorbs` a whole sequence.
* `mergeBatch_of_inTurn`: **a batch leaves what its results leave one after the other.**
-/

namespace ChangeImpact

/-! ## Writing to the database -/

namespace Database

variable {db db' : Database} {fault : String → StorageFault} {c : Contribution}

/-- All tables exist. -/
structure Complete (db : Database) : Prop where
  files : ∃ t, db.files = some t
  entities : ∃ t, db.entities = some t
  edges : ∃ t, db.edges = some t

/-- A contribution that a database with all tables can hold. -/
structure Insertable (c : Contribution) : Prop where
  file : requireEncodable c.file = .ok ()
  version : isStorable c.version = true
  entities : ∃ rows, c.entities.mapM (fun e => Document.ofValue e.toRecord) = .ok rows
  ids : (c.entities.forM fun e => requireEncodable e.id) = .ok ()
  edges : ∃ rows, c.edges.mapM (fun e => Document.ofValue e.toRecord) = .ok rows

theorem exists_write (hdb : db.Complete) (hc : Insertable c) (fault : String → StorageFault) :
    ∃ db', db.write fault c = .ok db' ∧ db'.Complete := by
  obtain ⟨files, hfiles⟩ := hdb.files
  obtain ⟨entities, hentities⟩ := hdb.entities
  obtain ⟨edges, hedges⟩ := hdb.edges
  obtain ⟨entityRows, hentityRows⟩ := hc.entities
  obtain ⟨edgeRows, hedgeRows⟩ := hc.edges
  unfold write
  rw [hfiles, hentities, hedges, hc.file, hc.version, hentityRows, hc.ids, hedgeRows]
  exact ⟨_, rfl, ⟨_, rfl⟩, ⟨_, rfl⟩, ⟨_, rfl⟩⟩

theorem insertable_of_write (h : db.write fault c = .ok db') :
    db.Complete ∧ Insertable c ∧ db'.Complete := by
  unfold write at h
  obtain ⟨entities, hentities, h⟩ := bind_eq_ok.1 h
  obtain ⟨⟨⟩, hfile, h⟩ := bind_eq_ok.1 h
  obtain ⟨edges, hedges, h⟩ := bind_eq_ok.1 h
  obtain ⟨files, hfiles, h⟩ := bind_eq_ok.1 h
  dsimp only at h
  split at h
  · cases h
  rename_i hversion
  obtain ⟨entityRows, hentityRows, h⟩ := bind_eq_ok.1 h
  obtain ⟨⟨⟩, hids, h⟩ := bind_eq_ok.1 h
  obtain ⟨edgeRows, hedgeRows, h⟩ := bind_eq_ok.1 h
  obtain rfl := Except.ok.inj h
  exact ⟨⟨⟨_, require_eq_ok hfiles⟩, ⟨_, require_eq_ok hentities⟩, ⟨_, require_eq_ok hedges⟩⟩,
    ⟨hfile, by simpa using hversion, ⟨_, hentityRows⟩, hids, ⟨_, hedgeRows⟩⟩,
    ⟨_, rfl⟩, ⟨_, rfl⟩, ⟨_, rfl⟩⟩

/-- Several contributions are written as each of them would be. -/
theorem exists_replace {cs : List Contribution} (hdb : db.Complete) (hcs : ∀ c ∈ cs, Insertable c) :
    ∃ db', db.replace cs = .ok db' := by
  unfold replace
  generalize StorageFault.persist (cs.map Contribution.file) = fault
  induction cs generalizing db with
  | nil => exact ⟨db, rfl⟩
  | cons c cs ih =>
    obtain ⟨next, hwrite, hnext⟩ := exists_write hdb (hcs c List.mem_cons_self) fault
    rw [List.foldlM_cons, hwrite]
    exact ih hnext fun d hd => hcs d (List.mem_cons_of_mem _ hd)

theorem insertable_of_replace (h : db.replace [c] = .ok db') :
    db.Complete ∧ Insertable c ∧ db'.Complete := by
  unfold replace at h
  rw [List.foldlM_cons] at h
  obtain ⟨next, hwrite, h⟩ := bind_eq_ok.1 h
  obtain rfl := Except.ok.inj h
  exact insertable_of_write hwrite

end Database

namespace Batch

variable {v w : Versions} {r : ScanResult}

/-- The content of a result depends on the latest version of its file only. -/
theorem contentOf_congr (h : v.latest r.file = w.latest r.file) : contentOf v r = contentOf w r := by
  unfold contentOf versionOf
  rw [h]

theorem exists_kept_of_addEntities {file : String} {kept es out : List Entity}
    (h : addEntities file kept es = .ok out) :
    ∀ e, e ∈ kept ∨ e ∈ es → ∃ k ∈ out, k.id = e.id ∧ k.identity = e.identity := by
  fun_induction addEntities file kept es with
  | case1 kept =>
    intro e he
    obtain rfl := Except.ok.inj h
    exact ⟨e, he.resolve_right List.not_mem_nil, rfl, rfl⟩
  | case2 kept x xs hk ih =>
    intro e he
    refine ih h e ?_
    rw [List.mem_append, List.mem_singleton]
    rcases he with he | he
    · exact .inl (.inl he)
    · rcases List.mem_cons.1 he with rfl | he
      · exact .inl (.inr rfl)
      · exact .inr he
  | case3 kept x xs k hk hid ih =>
    intro e he
    rcases he with he | he
    · exact ih h e (.inl he)
    · rcases List.mem_cons.1 he with rfl | he
      · -- the entity that was kept for its id stands for it
        have hke : k.id = e.id := by simpa using List.find?_some hk
        obtain ⟨k', hk', hk'id, hk'identity⟩ := ih h k (.inl (List.mem_of_find?_eq_some hk))
        exact ⟨k', hk', hk'id.trans hke, hk'identity.trans hid⟩
      · exact ih h e (.inr he)
  | case4 kept x xs k hk hid => cases h

/-- For every entity of a result that can be a candidate, one of the same identity is kept. -/
theorem exists_kept (h : Eligible v r) {e : Entity} (he : e ∈ r.entities) :
    ∃ k ∈ (contentOf w r).entities, k.id = e.id ∧ k.identity = e.identity := by
  obtain ⟨es, hes⟩ := h.entities
  obtain rfl := entitiesOf_eq hes
  exact exists_kept_of_addEntities hes e (.inr he)

end Batch

namespace Store

open Batch

variable {s t last : Store} {r : ScanResult} {results : List ScanResult}

/-- Merging results one at a time, with success each time. -/
inductive InTurn : Store → List ScanResult → Store → Prop
  | nil (s : Store) : InTurn s [] s
  | cons {s t last : Store} {r : ScanResult} {results : List ScanResult} {version : Int}
      (merged : s.merge r = (t, .ok version)) (rest : InTurn t results last) :
      InTurn s (r :: results) last

/-! ## One merge -/

/-- **A merge that succeeds** had a verdict without rejections, and the database took the content of its
result. -/
theorem merge_eq_ok {version : Int} (h : s.merge r = (t, .ok version)) :
    ∃ database candidates, Verdict s [r] candidates [r] [] [] ∧
      s.write (fun db => db.replace [contentOf s.scans r]) = .ok { s with database } ∧
      t = ({ s with database } : Store).commit [contentOf s.scans r] := by
  unfold merge mergeBatch at h
  rcases tryMerge_cases s [r] with ⟨f, -, hm⟩ | ⟨rejections, hj, hm⟩ | ⟨_, _, f, -, -, hm⟩ |
    ⟨accepted, rejections, database, hj, hne, hw, hm⟩
  · rw [hm] at h; cases h
  · rw [hm] at h
    obtain ⟨candidates, taken, refused, hnil, hv⟩ := judge_eq_ok hj
    rcases hv.single with ⟨-, x, rfl⟩ | ⟨rfl, -, -⟩
    · cases h
    · cases hnil.trans hv.contents
  · rw [hm] at h; cases h
  · rw [hm] at h
    obtain ⟨candidates, taken, refused, rfl, hv⟩ := judge_eq_ok hj
    rcases hv.single with ⟨-, x, rfl⟩ | ⟨rfl, rfl, rfl⟩
    · cases h
    · have hcontent : contributionsOf candidates = [contentOf s.scans r] := hv.contents
      rw [hcontent] at h hw
      exact ⟨database, candidates, hv, hw, (Prod.mk.inj h).1.symm⟩

/-- A write goes to the database that the store has. -/
theorem write_of_database {f : Database → Except Fault Database} {database : Option Database}
    {db : Database} (hdb : s.database = some db) (h : s.write f = .ok { s with database }) :
    ∃ db', f db = .ok db' ∧ database = some db' := by
  unfold write at h
  rw [hdb] at h
  obtain ⟨db', hf, h⟩ := bind_eq_ok.1 h
  have hdatabase := congrArg Store.database (Except.ok.inj h)
  exact ⟨db', hf, hdatabase.symm⟩

/-- A merge leaves the scan versions of all other files. -/
theorem latest_commit {accepted : List Contribution} {database : Option Database} {f : String}
    (hf : f ∉ accepted.map Contribution.file) :
    (({ s with database } : Store).commit accepted).latest f = s.latest f := by
  have hversions := (commit_of_not_mem s hf).2
  unfold latest committed
  exact congrArg (fun v => max ((s.issued.get? f).getD 0) (Option.getD v 0)) hversions

/-! ## Merging in turn -/

/-- **What a store holds after some results for new files were merged into it:** the content of each of
them and nothing else that is new. The results were fit to be merged: they had their ends in the end,
and the database could hold them. -/
structure Absorbs (s : Store) (results : List ScanResult) (last : Store) : Prop where
  coherent : last.Coherent
  contribution : ∀ r ∈ results, last.contributions.get? r.file = some (contentOf s.scans r)
  others : ∀ f, f ∉ results.map ScanResult.file →
    last.contributions.get? f = s.contributions.get? f ∧ last.versions.get? f = s.versions.get? f
  eligible : ∀ r ∈ results, Eligible s.scans r
  ends : ∀ r ∈ results, ∀ e ∈ r.edges, ∃ t : Edge String, e = t.map .str ∧
    last.DeclaresId t.source ∧ last.DeclaresId t.target
  stored : ∀ db, s.database = some db → ∀ r ∈ results,
    db.Complete ∧ Database.Insertable (contentOf s.scans r)

/-- Results for new files without versions. -/
structure New (s : Store) (results : List ScanResult) : Prop where
  files : (results.map ScanResult.file).Nodup
  versions : ∀ r ∈ results, r.version = none
  fresh : ∀ r ∈ results, s.contributions.get? r.file = none

/-- None of the results is for a file of the store. -/
theorem New.not_mem (h : s.New results) {f : String} {c : Contribution}
    (hc : s.contributions.get? f = some c) : f ∉ results.map ScanResult.file := by
  intro hmem
  obtain ⟨q, hq, rfl⟩ := List.mem_map.1 hmem
  rw [h.fresh q hq] at hc
  cases hc

/-- What the store had before new files were merged it still has after that. -/
theorem Absorbs.keeps (h : s.Absorbs results last) (hnew : s.New results) {f : String}
    {c : Contribution} (hc : s.contributions.get? f = some c) : last.contributions.get? f = some c := by
  rw [(h.others f (hnew.not_mem hc)).1]
  exact hc

theorem Absorbs.declaresId (h : s.Absorbs results last) (hnew : s.New results) {id : String}
    (hid : s.DeclaresId id) : last.DeclaresId id := by
  obtain ⟨f, c, hc, hentity⟩ := hid
  exact ⟨f, c, h.keeps hnew hc, hentity⟩

/-- The others are for other files than the first one. -/
theorem New.not_mem_head (h : s.New (r :: results)) {q : ScanResult} (hq : q ∈ results) :
    q.file ∉ [contentOf s.scans r].map Contribution.file := by
  intro hmem
  have hqr : q.file = r.file := List.mem_singleton.1 hmem
  exact (List.nodup_cons.1 h.files).1 (hqr ▸ List.mem_map_of_mem hq)

/-- The other results are still new after one of them was merged. -/
theorem New.after (h : s.New (r :: results)) (database : Option Database) :
    (({ s with database } : Store).commit [contentOf s.scans r]).New results where
  files := (List.nodup_cons.1 h.files).2
  versions := fun q hq => h.versions q (List.mem_cons_of_mem _ hq)
  fresh := fun q hq =>
    (commit_of_not_mem s (h.not_mem_head hq)).1.trans (h.fresh q (List.mem_cons_of_mem _ hq))

/-- Both ends of every edge of a result are declared once it is merged. -/
theorem declaresId_of_verdict (hs : s.Coherent) {candidates : Table Candidate}
    (hv : Verdict s [r] candidates [r] [] []) (database : Option Database) {e : Edge Value}
    (he : e ∈ r.edges) : ∃ u : Edge String, e = u.map .str ∧
      (({ s with database } : Store).commit [contentOf s.scans r]).DeclaresId u.source ∧
      (({ s with database } : Store).commit [contentOf s.scans r]).DeclaresId u.target := by
  have hcontent : contributionsOf candidates = [contentOf s.scans r] := hv.contents
  have hdeclared : ∀ id, id ∈ (knownWith s.contributions candidates).map (·.1) →
      (({ s with database } : Store).commit [contentOf s.scans r]).DeclaresId id := by
    intro id hid
    have := declared_of_knownWith hs hv.keyed hid
    rw [hcontent] at this
    exact this
  refine ends_of_kept (fun d hd => ?_) he
  obtain ⟨u, hu, hsource, htarget⟩ := (round_eq_nil hv.settled).2 _ (hv.content_mem (by simp)) d hd
  exact ⟨u, hu, hdeclared _ hsource, hdeclared _ htarget⟩

/-- **One more result:** it is merged first, and the others are merged into what that leaves. -/
theorem Absorbs.cons (hs : s.Coherent) (hnew : s.New (r :: results)) {version : Int}
    (hm : s.merge r = (t, .ok version)) (h : t.New results → t.Absorbs results last) :
    s.Absorbs (r :: results) last := by
  obtain ⟨database, candidates, hv, hw, rfl⟩ := merge_eq_ok hm
  have h := h (hnew.after database)
  -- the merge of `r` does not change what the others contribute
  have hcontent : ∀ q ∈ results,
      contentOf (({ s with database } : Store).commit [contentOf s.scans r]).scans q =
        contentOf s.scans q := fun q hq => contentOf_congr (latest_commit (hnew.not_mem_head hq))
  constructor
  case coherent =>
    exact h.coherent
  case contribution =>
    intro q hq
    rcases List.mem_cons.1 hq with rfl | hq
    · rw [(h.others _ (List.nodup_cons.1 hnew.files).1).1]
      exact (commit_of_mem s (by simp) (List.mem_singleton_self _)).1
    · rw [h.contribution q hq, hcontent q hq]
  case others =>
    intro f hf
    rw [List.map_cons, List.mem_cons, not_or] at hf
    obtain ⟨hcontribution, hversion⟩ := h.others f hf.2
    have hf' : f ∉ [contentOf s.scans r].map Contribution.file :=
      fun hmem => hf.1 (List.mem_singleton.1 hmem)
    obtain ⟨hcontribution', hversion'⟩ := commit_of_not_mem s hf'
    exact ⟨hcontribution.trans hcontribution', hversion.trans hversion'⟩
  case eligible =>
    intro q hq
    rcases List.mem_cons.1 hq with rfl | hq
    · exact hv.eligible q (by simp)
    · exact eligible_of_version_none (hnew.versions q (List.mem_cons_of_mem _ hq)) (h.eligible q hq)
  case ends =>
    intro q hq e he
    rcases List.mem_cons.1 hq with rfl | hq
    · obtain ⟨u, hu, hsource, htarget⟩ := declaresId_of_verdict hs hv database he
      have hafter := hnew.after database
      exact ⟨u, hu, h.declaresId hafter hsource, h.declaresId hafter htarget⟩
    · exact h.ends q hq e he
  case stored =>
    intro db hdb q hq
    obtain ⟨db', hreplace, hdb'⟩ := write_of_database hdb hw
    obtain ⟨hcomplete, hinsertable, -⟩ := Database.insertable_of_replace hreplace
    rcases List.mem_cons.1 hq with rfl | hq
    · exact ⟨hcomplete, hinsertable⟩
    · have hstored := h.stored db' hdb' q hq
      rw [hcontent q hq] at hstored
      exact ⟨hcomplete, hstored.2⟩

/-- **Merging in turn absorbs all results.** -/
theorem InTurn.absorbs (h : InTurn s results last) (hs : s.Coherent) (hnew : s.New results) :
    s.Absorbs results last := by
  induction h with
  | nil s => exact ⟨hs, by simp, fun f _ => ⟨rfl, rfl⟩, by simp, by simp, by simp⟩
  | @cons s t last r results version hm _ ih =>
    have ht : t.Coherent := by
      have := merge_coherent hs r
      rwa [hm] at this
    exact Absorbs.cons hs hnew hm (ih ht)

/-! ## The batch -/

/-- An entity of the store or of a result has its id and its identity in the store in the end. -/
theorem Absorbs.declared (h : s.Absorbs results last) (hnew : s.New results) {e : Entity}
    (he : s.Declared results e) : ∃ f c, last.contributions.get? f = some c ∧
      ∃ k ∈ c.entities, k.id = e.id ∧ k.identity = e.identity := by
  rcases he with ⟨f, c, hc, he⟩ | ⟨r, hr, he⟩
  · exact ⟨f, c, h.keeps hnew hc, e, he, rfl, rfl⟩
  · obtain ⟨k, hk, hid, hidentity⟩ := exists_kept (h.eligible r hr) he
    exact ⟨r.file, _, h.contribution r hr, k, hk, hid, hidentity⟩

/-- The results are an undisputed batch. -/
theorem Absorbs.undisputed (h : s.Absorbs results last) (hnew : s.New results) :
    s.Undisputed results where
  files := hnew.files
  fresh := hnew.fresh
  newer := fun r hr => (h.eligible r hr).newer
  identity := by
    intro a b ha hb hab
    obtain ⟨f, c, hc, k, hk, hkid, hkidentity⟩ := h.declared hnew ha
    obtain ⟨g, d, hd, l, hl, hlid, hlidentity⟩ := h.declared hnew hb
    rw [← hkidentity, ← hlidentity]
    exact h.coherent.identity f g c d hc hd k hk l hl (by rw [hkid, hlid, hab])

/-- Together the files of the results are closed. -/
theorem Absorbs.closed (h : s.Absorbs results last) :
    {f | f ∈ results.map ScanResult.file} ∈ s.closedSets results := by
  have hprovides : ∀ id, last.DeclaresId id →
      s.Provides results {f | f ∈ results.map ScanResult.file} id := by
    rintro id ⟨f, c, hc, e, he, rfl⟩
    by_cases hf : f ∈ results.map ScanResult.file
    · obtain ⟨r, hr, rfl⟩ := List.mem_map.1 hf
      rw [h.contribution r hr] at hc
      obtain rfl := Option.some.inj hc
      exact .inr ⟨r, hr, hf, e, mem_of_mem_keepFirst he, rfl⟩
    · rw [(h.others f hf).1] at hc
      exact .inl ⟨f, c, hc, e, he, rfl⟩
  refine ⟨fun f hf => hf, fun r hr _ e he => ?_⟩
  obtain ⟨u, hu, hsource, htarget⟩ := h.ends r hr e he
  exact ⟨u, hu, hprovides _ hsource, hprovides _ htarget⟩

theorem New.perm {batch : List ScanResult} (h : s.New results) (hperm : batch.Perm results) :
    s.New batch where
  files := (hperm.map _).nodup_iff.2 h.files
  versions := fun r hr => h.versions r (hperm.mem_iff.1 hr)
  fresh := fun r hr => h.fresh r (hperm.mem_iff.1 hr)

/-- The order of the results does not matter for what the store holds. -/
theorem Absorbs.perm {batch : List ScanResult} (h : s.Absorbs results last)
    (hperm : batch.Perm results) : s.Absorbs batch last where
  coherent := h.coherent
  contribution := fun r hr => h.contribution r (hperm.mem_iff.1 hr)
  others := fun f hf => h.others f fun hmem => hf ((hperm.map _).mem_iff.2 hmem)
  eligible := fun r hr => h.eligible r (hperm.mem_iff.1 hr)
  ends := fun r hr => h.ends r (hperm.mem_iff.1 hr)
  stored := fun db hdb r hr => h.stored db hdb r (hperm.mem_iff.1 hr)

/-- The database takes the contents of some of the results together. -/
theorem Absorbs.exists_replace (h : s.Absorbs results last) {db : Database}
    (hdb : s.database = some db) {cs : List Contribution}
    (hcs : ∀ c ∈ cs, ∃ r ∈ results, c = contentOf s.scans r) : ∃ db', db.replace cs = .ok db' := by
  cases cs with
  | nil => exact ⟨db, rfl⟩
  | cons c cs =>
    obtain ⟨r, hr, -⟩ := hcs c List.mem_cons_self
    refine Database.exists_replace (h.stored db hdb r hr).1 fun d hd => ?_
    obtain ⟨q, hq, rfl⟩ := hcs d hd
    exact (h.stored db hdb q hq).2

/-- **A batch that accepts all files agrees with the store that absorbed its results,** file by file. -/
theorem Absorbs.agrees (h : s.Absorbs results last) (hnew : s.New results) {next : Store}
    {outcome : MergeOutcome} (hacc : Accounted s results next outcome) (hnext : next.Coherent)
    (hall : ∀ r ∈ results, r.file ∈ outcome.merged) :
    outcome.rejections = [] ∧ outcome.merged.Perm (results.map ScanResult.file) ∧
      next.contributions = last.contributions ∧ next.versions = last.versions := by
  obtain ⟨taken, refused, hsplit, hmerged, hrefused, hentered⟩ := hacc.split
  -- a result that was refused would be for the file of one that was taken
  have hnone : refused = [] := by
    refine List.eq_nil_iff_forall_not_mem.2 fun q hq => ?_
    have hfiles : ((taken ++ refused).map ScanResult.file).Nodup :=
      (hsplit.map _).nodup_iff.2 hnew.files
    rw [List.map_append, List.nodup_append] at hfiles
    have hqtaken : q.file ∈ taken.map ScanResult.file := by
      rw [hmerged]
      exact hall q (hsplit.mem_iff.1 (List.mem_append_right _ hq))
    exact hfiles.2.2 _ hqtaken _ (List.mem_map_of_mem hq) rfl
  rw [hnone, List.append_nil] at hsplit
  have hperm : outcome.merged.Perm (results.map ScanResult.file) := by
    rw [← hmerged]; exact hsplit.map _
  have hcontributions : next.contributions = last.contributions := by
    refine hnext.ordered.ext h.coherent.ordered fun f => ?_
    by_cases hf : f ∈ results.map ScanResult.file
    · obtain ⟨r, hr, rfl⟩ := List.mem_map.1 hf
      rw [(hentered r (hsplit.mem_iff.2 hr)).2, h.contribution r hr]
    · rw [(hacc.others f fun hmem => hf (hperm.mem_iff.1 hmem)).1, (h.others f hf).1]
  refine ⟨?_, hperm, hcontributions, ?_⟩
  · rw [hnone] at hrefused
    exact List.map_eq_nil_iff.1 hrefused.eq_nil
  · refine hnext.versions_ordered.ext h.coherent.versions_ordered fun f => ?_
    by_cases hf : f ∈ results.map ScanResult.file
    · obtain ⟨r, hr, rfl⟩ := List.mem_map.1 hf
      have hlast := h.contribution r hr
      rw [hnext.version _ _ (hcontributions ▸ hlast), h.coherent.version _ _ hlast]
    · rw [(hacc.others f fun hmem => hf (hperm.mem_iff.1 hmem)).2, (h.others f hf).2]

/-- A batch whose results a store has absorbed one after the other is accepted as a whole. -/
theorem Absorbs.mergeBatch (h : s.Absorbs results last) (hs : s.Coherent) (hnew : s.New results) :
    ∃ next outcome, s.mergeBatch results = (next, .ok outcome) ∧ Accounted s results next outcome ∧
      ∀ r ∈ results, r.file ∈ outcome.merged := by
  have hall : ∀ accepted rejections, s.judge results = .ok (accepted, rejections) →
      ∀ r ∈ results, r.file ∈ accepted.map Contribution.file := by
    intro accepted rejections hj r hr
    exact ((h.undisputed hnew).judge_greatest hs hj).2 h.closed (List.mem_map_of_mem hr)
  unfold Store.mergeBatch
  rcases tryMerge_cases s results with ⟨f, hj, -⟩ | ⟨rejections, hj, hm⟩ |
    ⟨accepted, rejections, f, hj, hw, -⟩ | ⟨accepted, rejections, database, hj, -, -, hm⟩
  · -- all edges are between texts
    obtain ⟨r, hr, e, he, hstops⟩ := judge_eq_error hj
    obtain ⟨u, hu, -⟩ := h.ends r hr e he
    exact absurd hu (hstops.1 u)
  · rw [hm]
    exact ⟨_, _, rfl, accounted_nothing hs hj, hall _ _ hj⟩
  · -- the database took each of the contributions
    obtain ⟨db, hdb, hreplace⟩ := write_eq_error hw
    obtain ⟨candidates, taken, refused, rfl, hv⟩ := judge_eq_ok hj
    have hcontents : ∀ c ∈ contributionsOf candidates, ∃ r ∈ results, c = contentOf s.scans r := by
      intro c hc
      rw [hv.contents] at hc
      obtain ⟨r, hr, rfl⟩ := List.mem_map.1 hc
      exact ⟨r, hv.split.mem_iff.1 (List.mem_append_left _ hr), rfl⟩
    obtain ⟨db', hok⟩ := h.exists_replace hdb hcontents
    rw [hok] at hreplace
    cases hreplace
  · rw [hm]
    have hmerged := hall _ _ hj
    obtain ⟨candidates, taken, refused, rfl, hv⟩ := judge_eq_ok hj
    exact ⟨_, _, rfl, accounted_commit hs hv database _, hmerged⟩

/-- Stores with the same contributions have the same snapshot, up to its version. -/
theorem snapshot_congr (hs : s.Coherent) (ht : t.Coherent) (h : s.contributions = t.contributions) :
    ∃ view view', s.snapshot.2 = .ok view ∧ t.snapshot.2 = .ok view' ∧
      view.entities = view'.entities ∧ view.edges = view'.edges ∧ view.owners = view'.owners ∧
      view.files = view'.files := by
  obtain ⟨view, hview, hbuild⟩ := hs.exists_snapshot
  obtain ⟨view', hview', hbuild'⟩ := ht.exists_snapshot
  unfold buildSnapshot at hbuild hbuild'
  rw [← h] at hbuild'
  have hsame := Snapshot.build_congr hbuild hbuild'
  refine ⟨view, view', hview, hview', ?_⟩
  rw [hsame]
  exact ⟨rfl, rfl, rfl, rfl⟩

/-- **A batch leaves what its results leave one after the other.** Results for new files without versions
that can be merged one at a time, in some order, are all accepted as a batch in any order, and the batch
leaves the same contributions, the same committed versions and the same graph. -/
theorem mergeBatch_of_inTurn (database : Option Database) (ops : List Op)
    {results batch : List ScanResult} {last : Store} (hnew : ((empty database).run ops).New results)
    (hturn : InTurn ((empty database).run ops) results last) (hperm : batch.Perm results) :
    ∃ next outcome, ((empty database).run ops).mergeBatch batch = (next, .ok outcome) ∧
      outcome.rejections = [] ∧ outcome.merged.Perm (batch.map ScanResult.file) ∧
      next.contributions = last.contributions ∧ next.versions = last.versions ∧
      ∃ view view', next.snapshot.2 = .ok view ∧ last.snapshot.2 = .ok view' ∧
        view.entities = view'.entities ∧ view.edges = view'.edges ∧ view.owners = view'.owners ∧
        view.files = view'.files := by
  have hs := run_coherent database ops
  generalize (empty database).run ops = s at hnew hturn hs
  have habsorbs := (hturn.absorbs hs hnew).perm hperm
  have hbatch := hnew.perm hperm
  obtain ⟨next, outcome, hm, hacc, hall⟩ := habsorbs.mergeBatch hs hbatch
  have hnext : next.Coherent := by
    have := mergeBatch_coherent hs batch
    rwa [hm] at this
  obtain ⟨hrejections, hmerged, hcontributions, hversions⟩ :=
    habsorbs.agrees hbatch hacc hnext hall
  exact ⟨next, outcome, hm, hrejections, hmerged, hcontributions, hversions,
    snapshot_congr hnext habsorbs.coherent hcontributions⟩

/-- A file that needs `y`, and a file that needs that one. -/
def chain : List ScanResult := [linked "b" "b1" ["y"], linked "a" "a1" ["b1"]]

/-- In the order of their needs the two files can be merged one after the other. -/
theorem chain_batch : storeOfY.New chain ∧
    ∃ last, InTurn storeOfY chain last ∧
      ∃ next outcome, storeOfY.mergeBatch chain.reverse = (next, .ok outcome) ∧
        outcome.rejections = [] ∧ next.contributions = last.contributions := by
  have hnew : storeOfY.New chain := ⟨by decide, by decide, by decide +kernel⟩
  have hfirst : (storeOfY.merge (linked "b" "b1" ["y"])).2 = .ok 1 := by decide +kernel
  have hsecond : ((storeOfY.merge (linked "b" "b1" ["y"])).1.merge (linked "a" "a1" ["b1"])).2 = .ok 1 := by
    decide +kernel
  have hturn : InTurn storeOfY chain _ := .cons (Prod.ext rfl hfirst) (.cons (Prod.ext rfl hsecond) (.nil _))
  obtain ⟨next, outcome, hm, hrejections, -, hcontributions, -⟩ :=
    mergeBatch_of_inTurn none _ hnew hturn chain.reverse_perm
  exact ⟨hnew, _, hturn, next, outcome, hm, hrejections, hcontributions⟩

end Store

end ChangeImpact
