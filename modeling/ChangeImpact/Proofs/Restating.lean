import ChangeImpact.Proofs.Closure
import ChangeImpact.Proofs.History

/-!
# Rebuilding a graph from itself

The graph of a store grows file by file, and a file that is scanned again may drop an id that other files
have edges to. These edges stay, suspended, until the id returns. A rebuild from what all files contribute
looks at the same entities and edges in one batch. There is no conflict among them, so it accepts the
largest closed set of the files, and these are all files just if nothing is suspended.

* `Store.Unsuspended`: no edge has an end that is not declared.
* `Store.Restates`: one result for each contribution.
* `Restates.judge`: **the verdict accepts all files just if nothing is suspended.**
* `rebuild_restating`: **incremental and full builds agree exactly when nothing is suspended.**
-/

namespace ChangeImpact

/-- What a file contributes to the graph. -/
def Contribution.findings (c : Contribution) : String × List Entity × List (Edge Value) :=
  (c.file, c.entities, c.edges)

/-- What was found in a file. -/
def ScanResult.findings (r : ScanResult) : String × List Entity × List (Edge Value) :=
  (r.file, r.entities, r.edges)

namespace Store

open Batch

variable {s : Store} {results : List ScanResult} {r : ScanResult}

/-- No edge of a contribution has an end that no contribution declares. -/
def Unsuspended (s : Store) : Prop :=
  ∀ f c, s.contributions.get? f = some c → ∀ e ∈ c.edges, ∃ t : Edge String, e = t.map .str ∧
    s.DeclaresId t.source ∧ s.DeclaresId t.target

/-- One result for each contribution, with its entities and edges, in any order. -/
def Restates (s : Store) (results : List ScanResult) : Prop :=
  (results.map ScanResult.findings).Perm (s.contributions.values.map Contribution.findings)

/-- A result with what a file contributes already contributes the same again, because a contribution has no
id and no edge twice. -/
theorem Coherent.unversioned_contentOf (hs : s.Coherent) {f : String} {c : Contribution}
    (hc : s.contributions.get? f = some c) (hr : r.findings = c.findings) (v : Versions) :
    (contentOf v r).unversioned = c.unversioned := by
  simp only [ScanResult.findings, Contribution.findings, Prod.mk.injEq] at hr
  obtain ⟨hfile, hentities, hedges⟩ := hr
  refine Contribution.unversioned_inj.2 ⟨hfile, ?_, ?_⟩
  · change keepFirst _ r.entities = c.entities
    rw [hentities]
    have hids := hs.entity_ids _ _ hc
    rw [List.Nodup, List.pairwise_map] at hids
    exact keepFirst_eq_self (hids.imp fun hne => by simpa using hne)
  · change keepFirst _ r.edges = c.edges
    rw [hedges]
    exact keepFirst_eq_self (hs.edge_keys _ _ hc)

theorem coherent_cleared (hs : s.Coherent) (database : Option Database) :
    (s.cleared database).Coherent :=
  (hs.withDatabase database).drop Table.ordered_nil fun f c hc => by cases hc

namespace Restates

/-- Each result is one of a contribution. -/
theorem contribution (h : s.Restates results) (hs : s.Coherent) (hr : r ∈ results) :
    ∃ c, s.contributions.get? r.file = some c ∧ c.entities = r.entities ∧ c.edges = r.edges := by
  have hmem := h.mem_iff.1 (List.mem_map_of_mem hr)
  obtain ⟨c, hc, hcr⟩ := List.mem_map.1 hmem
  obtain ⟨f, hf⟩ := hs.mem_values.1 hc
  simp only [Contribution.findings, ScanResult.findings, Prod.mk.injEq] at hcr
  obtain ⟨hfile, hentities, hedges⟩ := hcr
  have hkey : f = r.file := (hs.file f c hf).symm.trans hfile
  exact ⟨c, hkey ▸ hf, hentities, hedges⟩

/-- Each contribution has a result. -/
theorem result (h : s.Restates results) (hs : s.Coherent) {f : String} {c : Contribution}
    (hc : s.contributions.get? f = some c) :
    ∃ r ∈ results, r.file = f ∧ r.entities = c.entities ∧ r.edges = c.edges := by
  have hmem := h.mem_iff.2 (List.mem_map_of_mem (hs.mem_values.2 ⟨f, hc⟩))
  obtain ⟨r, hr, hcr⟩ := List.mem_map.1 hmem
  simp only [Contribution.findings, ScanResult.findings, Prod.mk.injEq] at hcr
  obtain ⟨hfile, hentities, hedges⟩ := hcr
  exact ⟨r, hr, hfile.trans (hs.file f c hc), hentities, hedges⟩

theorem files (h : s.Restates results) (hs : s.Coherent) : (results.map ScanResult.file).Nodup := by
  have hperm := h.map Prod.fst
  rw [List.map_map, List.map_map] at hperm
  refine hperm.nodup_iff.2 ?_
  change (s.contributions.values.map Contribution.file).Nodup
  rw [hs.files_values]
  exact hs.ordered.nodup

/-- The results declare the ids that the store declares. -/
theorem declaresId (h : s.Restates results) (hs : s.Coherent) {id : String} :
    s.DeclaresId id ↔ ∃ r ∈ results, ∃ e ∈ r.entities, e.id = id := by
  constructor
  · rintro ⟨f, c, hc, e, he, rfl⟩
    obtain ⟨r, hr, -, hentities, -⟩ := h.result hs hc
    exact ⟨r, hr, e, hentities ▸ he, rfl⟩
  · rintro ⟨r, hr, e, he, rfl⟩
    obtain ⟨c, hc, hentities, -⟩ := h.contribution hs hr
    exact ⟨r.file, c, hc, e, hentities ▸ he, rfl⟩

/-- A result contributes again what is in the graph. -/
theorem content (h : s.Restates results) (hs : s.Coherent) (hr : r ∈ results) (v : Versions) :
    ∃ c, s.contributions.get? r.file = some c ∧
      (contentOf v (s.refreshed r)).unversioned = c.unversioned := by
  obtain ⟨c, hc, hentities, hedges⟩ := h.contribution hs hr
  obtain ⟨hfile, hentities', hedges'⟩ := refreshed_eq s r
  refine ⟨c, hc, hs.unversioned_contentOf hc ?_ v⟩
  unfold ScanResult.findings Contribution.findings
  rw [hfile, hentities', hedges', hs.file _ _ hc, hentities, hedges]

/-! ## The verdict -/

variable (database : Option Database)

theorem mem_refreshed {q : ScanResult} (hq : q ∈ results.map s.refreshed) :
    ∃ r ∈ results, q.file = r.file ∧ q.entities = r.entities ∧ q.edges = r.edges := by
  obtain ⟨r, hr, rfl⟩ := List.mem_map.1 hq
  exact ⟨r, hr, refreshed_eq s r⟩

/-- The contributions of a coherent store have nothing to dispute among them. -/
theorem undisputed (h : s.Restates results) (hs : s.Coherent) :
    (s.cleared database).Undisputed (results.map s.refreshed) where
  files := files_refreshed s results ▸ h.files hs
  fresh _ _ := rfl
  newer := newer_of_mem_refreshed s database results
  identity a b ha hb hid := by
    have hdeclared : ∀ e, (s.cleared database).Declared (results.map s.refreshed) e →
        ∃ f c, s.contributions.get? f = some c ∧ e ∈ c.entities := by
      rintro e (⟨f, c, hc, -⟩ | ⟨q, hq, he⟩)
      · cases hc
      · obtain ⟨r, hr, -, hentities, -⟩ := mem_refreshed hq
        obtain ⟨c, hc, hc', -⟩ := h.contribution hs hr
        exact ⟨r.file, c, hc, by rw [hc', ← hentities]; exact he⟩
    obtain ⟨f, c, hc, hac⟩ := hdeclared a ha
    obtain ⟨g, d, hd, hbd⟩ := hdeclared b hb
    exact hs.identity f g c d hc hd a hac b hbd hid

/-- There is a verdict, because all edges are between texts. -/
theorem exists_judge (h : s.Restates results) (hs : s.Coherent) :
    ∃ accepted rejections,
      (s.cleared database).judge (results.map s.refreshed) = .ok (accepted, rejections) := by
  cases hj : (s.cleared database).judge (results.map s.refreshed) with
  | ok verdict => exact ⟨verdict.1, verdict.2, rfl⟩
  | error f =>
    obtain ⟨q, hq, e, he, hstops, -⟩ := judge_eq_error hj
    obtain ⟨r, hr, -, -, hedges⟩ := mem_refreshed hq
    obtain ⟨c, hc, -, hc'⟩ := h.contribution hs hr
    obtain ⟨t, ht⟩ := hs.edge_texts _ _ hc e (by rw [hc', ← hedges]; exact he)
    exact absurd ht (hstops t)

/-- All files together are closed just if nothing is suspended. -/
theorem closed_iff (h : s.Restates results) (hs : s.Coherent) {files : Set String}
    (hfiles : ∀ r ∈ results, r.file ∈ files) :
    (s.cleared database).Closed (results.map s.refreshed) files ↔ s.Unsuspended := by
  have hprovides : ∀ id, (s.cleared database).Provides (results.map s.refreshed) files id ↔
      s.DeclaresId id := by
    intro id
    rw [h.declaresId hs]
    constructor
    · rintro (⟨f, c, hc, -⟩ | ⟨q, hq, -, e, he, rfl⟩)
      · cases hc
      · obtain ⟨r, hr, -, hentities, -⟩ := mem_refreshed hq
        exact ⟨r, hr, e, hentities ▸ he, rfl⟩
    · rintro ⟨r, hr, e, he, rfl⟩
      obtain ⟨hfile, hentities, -⟩ := refreshed_eq s r
      exact .inr ⟨_, List.mem_map_of_mem hr, hfile ▸ hfiles r hr, e, hentities ▸ he, rfl⟩
  constructor
  · intro hclosed f c hc e he
    obtain ⟨r, hr, -, -, hedges⟩ := h.result hs hc
    obtain ⟨hfile, -, hedges'⟩ := refreshed_eq s r
    obtain ⟨t, ht, hsource, htarget⟩ := hclosed _ (List.mem_map_of_mem hr) (hfile ▸ hfiles r hr) e
      (by rw [hedges', hedges]; exact he)
    exact ⟨t, ht, (hprovides _).1 hsource, (hprovides _).1 htarget⟩
  · intro hends q hq _ e he
    obtain ⟨r, hr, -, -, hedges⟩ := mem_refreshed hq
    obtain ⟨c, hc, -, hc'⟩ := h.contribution hs hr
    obtain ⟨t, ht, hsource, htarget⟩ := hends _ c hc e (by rw [hc', ← hedges]; exact he)
    exact ⟨t, ht, (hprovides _).2 hsource, (hprovides _).2 htarget⟩

/-- **The verdict accepts all files just if nothing is suspended.** -/
theorem accepts_iff (h : s.Restates results) (hs : s.Coherent) {accepted : List Contribution}
    {rejections : List Rejection}
    (hj : (s.cleared database).judge (results.map s.refreshed) = .ok (accepted, rejections)) :
    (∀ f ∈ s.contributions.keys, f ∈ accepted.map Contribution.file) ↔ s.Unsuspended := by
  have hgreatest := (h.undisputed database hs).judge_greatest (coherent_cleared hs database) hj
  constructor
  · intro hall
    refine (h.closed_iff database hs fun r hr => ?_).1 hgreatest.1.2
    obtain ⟨c, hc, -⟩ := h.contribution hs hr
    exact hall _ (List.mem_map_of_mem (Table.mem_of_get?_eq_some hc))
  · intro hends f hf
    obtain ⟨⟨f, c⟩, hmem, rfl⟩ := List.mem_map.1 hf
    have hc : s.contributions.get? f = some c := hs.ordered.get?_eq_some_iff.2 hmem
    obtain ⟨r, hr, rfl, -⟩ := h.result hs hc
    have hbatch : ∀ r ∈ results,
        r.file ∈ {f | f ∈ (results.map s.refreshed).map ScanResult.file} := by
      intro r hr
      rw [files_refreshed]
      exact List.mem_map_of_mem hr
    have hclosed := (h.closed_iff database hs hbatch).2 hends
    exact hgreatest.2 ⟨fun _ hf => hf, hclosed⟩ (hbatch r hr)

/-- The database took all that the results contribute before, so it takes it again if it can store the
versions. -/
theorem admits_cleared (h : s.Restates results) (hs : s.Coherent) (hb : s.Backed)
    (hdb : database = none ↔ s.database = none) {accepted : List Contribution}
    {rejections : List Rejection}
    (hj : (s.cleared database).judge (results.map s.refreshed) = .ok (accepted, rejections)) :
    (s.cleared database).admits accepted = .ok () ∨
      (database ≠ none ∧ (s.cleared database).admits accepted = .error (.overflow .storedInt) ∧
        ∃ r ∈ results, Database.isStorable (versionOf s.scans (s.refreshed r)) = false) := by
  unfold admits
  cases hsome : database with
  | none => exact .inl rfl
  | some db =>
    have htaken : ∀ c ∈ accepted, ∃ d, c.unversioned = d.unversioned ∧ Database.admits d = .ok () := by
      intro c hc
      obtain ⟨q, hq, rfl⟩ := exists_result_of_judge hj hc
      obtain ⟨r, hr, rfl⟩ := List.mem_map.1 hq
      obtain ⟨d, hd, hcontent⟩ := h.content hs hr (s.cleared database).scans
      exact ⟨d, hcontent, hb.admitted (mt hdb.2 (by rw [hsome]; simp)) _ d hd⟩
    rcases Database.forM_admits_again htaken with ⟨-, hok⟩ | ⟨⟨c, hc, hversion⟩, hoverflow⟩
    · exact .inl hok
    · obtain ⟨q, hq, rfl⟩ := exists_result_of_judge hj hc
      obtain ⟨r, hr, rfl⟩ := List.mem_map.1 hq
      exact .inr ⟨by simp, hoverflow, r, hr, hversion⟩

/-- A rebuild that accepts all files leaves what they contributed before. -/
theorem commit_cleared (h : s.Restates results) (hs : s.Coherent) {accepted : List Contribution}
    {rejections : List Rejection}
    (hj : (s.cleared database).judge (results.map s.refreshed) = .ok (accepted, rejections))
    (hall : ∀ f ∈ s.contributions.keys, f ∈ accepted.map Contribution.file) :
    ((s.cleared database).commit accepted).contributions.unversioned =
      s.contributions.unversioned := by
  obtain ⟨candidates, taken, refused, haccepted, hverdict⟩ := judge_eq_ok hj
  have hnodup : (accepted.map Contribution.file).Nodup :=
    haccepted ▸ hverdict.keyed.ascending_files.nodup
  refine Table.Ordered.unversioned_ext ?_ hs.ordered fun f => ?_
  · exact Table.Ordered.foldl_insert Contribution.file id accepted Table.ordered_nil
  by_cases hf : f ∈ accepted.map Contribution.file
  · obtain ⟨c, hc, rfl⟩ := List.mem_map.1 hf
    rw [(commit_of_mem _ hnodup hc).1]
    obtain ⟨q, hq, rfl⟩ := exists_result_of_judge hj hc
    obtain ⟨r, hr, rfl⟩ := List.mem_map.1 hq
    obtain ⟨d, hd, hcontent⟩ := h.content hs hr (s.cleared database).scans
    have hfile : (contentOf (s.cleared database).scans (s.refreshed r)).file = r.file :=
      (refreshed_eq s r).1
    rw [hfile, hd, Option.map_some, Option.map_some, hcontent]
  · have hnone : s.contributions.get? f = none := Table.get?_eq_none_iff.2 fun hkey => hf (hall f hkey)
    rw [(commit_of_not_mem _ hf).1, hnone]
    rfl

end Restates

/-- What all files contribute, as results. -/
def restated (s : Store) : List ScanResult :=
  s.contributions.values.map fun c => { file := c.file, entities := c.entities, edges := c.edges }

theorem restates_restated (s : Store) : s.Restates s.restated := by
  unfold Restates restated
  rw [List.map_map]
  exact .refl _

/-- The file `a` declares `x`, with an edge to `y`, which `z` declares. -/
def linkedOps : List Op := [.merge { file := "z", entities := [.bare "y"] }, .merge userOfY]

/-- Then `z` drops `y`, and the edge of `a` is suspended. -/
def suspendedOps : List Op := linkedOps ++ [.merge { file := "z" }]

/-- A store on a database in which a file has the last version that can be stored. -/
def exhausted : Store :=
  (created (some "graph.db")).run [.merge { file := "a.py", version := some (2 ^ 63 - 1) }]

end Store

end ChangeImpact
