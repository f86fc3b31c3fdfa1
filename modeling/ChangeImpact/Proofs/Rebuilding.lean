import ChangeImpact.Proofs.Accounting
import ChangeImpact.Proofs.Storage

/-!
# What a rebuild leaves behind when it faults

A merge writes to the database before it changes the store, so one that faults changes nothing. A rebuild
takes two steps that are written separately: it drops everything that the graph holds, in the database
and in the store, and then merges its results. A fault of the second step does not undo the first.

* `Emptied`, `emptied_of_clear`: what is left after the first step.
* `mergeBatch_eq_error`: a merge that faults changes nothing, and why it faults.
* `rebuild_fault`: **a rebuild that faults changes nothing or loses everything.**
* `rebuild_loses_graph`: the second case, with a value that no database takes.
-/

namespace ChangeImpact

namespace Database

variable {db cleared : Database}

/-- No file of a database that was cleared is active. -/
theorem contributions_of_clear (h : db.clear = .ok cleared) : cleared.contributions = .ok [] := by
  obtain ⟨files, -, rfl⟩ := clear_eq_ok h
  have hinactive : ((files.map fun r => (r.1, { r.2 with active := false })).filter
      fun r : String × FileRow => r.2.active) = [] := by
    rw [List.filter_eq_nil_iff]
    intro r hr
    obtain ⟨x, -, rfl⟩ := List.mem_map.1 hr
    simp
  change Except.ok (List.map _ (List.filter (fun r : String × FileRow => r.2.active) _)) = _
  rw [hinactive]
  rfl

end Database

namespace Snapshot

/-- The snapshot of no contributions holds nothing. -/
theorem exists_build_nil (version : Nat) :
    ∃ view, build version [] = .ok view ∧ view.entities = [] ∧ view.edges = [] := by
  have hbuild : ∃ view, build version [] = .ok view := exists_build version (by simp)
  obtain ⟨view, hview⟩ := hbuild
  refine ⟨view, hview, List.eq_nil_iff_forall_not_mem.2 fun e he => ?_,
    List.eq_nil_iff_forall_not_mem.2 fun e he => ?_⟩
  · obtain ⟨c, hc, -⟩ := (mem_ids_build hview).1 (mem_ids.2 ⟨e, he, rfl⟩)
    cases hc
  · obtain ⟨⟨c, hc, -⟩, -⟩ := (mem_edges_build hview).1 he
    cases hc

end Snapshot

namespace Store

open Batch

variable {s next : Store} {db cleared : Database} {results : List ScanResult} {fault : Fault}

/-- A store that holds nothing any more, nor does its database. Only the scan versions are left, and the
loss counts as a change of the graph. -/
structure Emptied (s next : Store) : Prop where
  contributions : next.contributions = []
  view : ∃ view, next.snapshot.2 = .ok view ∧ view.entities = [] ∧ view.edges = []
  rows : ∃ db, next.database = some db ∧ db.contributions = .ok []
  versions : next.versions = s.versions
  issued : next.issued = s.issued
  version : next.version = s.version + 1

/-- **The first step of a rebuild** empties the store and its database. -/
theorem emptied_of_clear (s : Store) (h : db.clear = .ok cleared) :
    Emptied s (({ s with database := some cleared } : Store).changed []) := by
  obtain ⟨view, hview, hentities, hedges⟩ := Snapshot.exists_build_nil (s.version + 1)
  refine ⟨rfl, ⟨view, ?_, hentities, hedges⟩, ⟨cleared, rfl, Database.contributions_of_clear h⟩, rfl, rfl,
    rfl⟩
  have hbuild : (({ s with database := some cleared } : Store).changed []).buildSnapshot = .ok view := hview
  unfold snapshot
  simp only [changed] at hbuild ⊢
  rw [hbuild]

/-- A merge that faults changes nothing. It faults at an edge that stops the merge, or because the
database does not take what was accepted. -/
theorem mergeBatch_eq_error (h : s.mergeBatch results = (next, .error fault)) :
    next = s ∧ ((∃ r ∈ results, ∃ e ∈ r.edges, StopsMerge e fault) ∨
      ∃ db accepted, s.database = some db ∧ accepted ≠ [] ∧ db.replace accepted = .error fault) := by
  unfold mergeBatch at h
  rcases tryMerge_cases s results with ⟨f, hj, hm⟩ | ⟨_, -, hm⟩ | ⟨accepted, _, f, hj, hw, hm⟩ |
    ⟨_, _, _, -, -, -, hm⟩
  · rw [hm] at h
    cases h
    exact ⟨rfl, .inl (judge_eq_error hj)⟩
  · rw [hm] at h; cases h
  · rw [hm] at h
    cases h
    obtain ⟨db, hdb, hreplace⟩ := write_eq_error hw
    refine ⟨rfl, .inr ⟨db, accepted, hdb, ?_, hreplace⟩⟩
    -- there is always room for nothing
    rintro rfl
    cases hreplace
  · rw [hm] at h; cases h

/-- A rebuild may drop the version of a result, and nothing else of it. -/
theorem refreshed_eq (s : Store) (r : ScanResult) :
    (s.refreshed r).file = r.file ∧ (s.refreshed r).entities = r.entities ∧
      (s.refreshed r).edges = r.edges := by
  unfold refreshed
  split
  · split <;> exact ⟨rfl, rfl, rfl⟩
  · exact ⟨rfl, rfl, rfl⟩

/-- **A rebuild that faults changes nothing or loses everything.** If the database cannot be cleared,
nothing changes, in the store or in the database. Otherwise the fault is one of the merge that follows,
and by then both are empty: so a rebuild that faults leaves the contributions as they were just if the
database could not be cleared or there was nothing to lose. -/
theorem rebuild_fault (hdb : s.database = some db) (h : s.rebuild results = (next, .error fault)) :
    ((db.clear = .error fault ∧ next = s) ∨
      ∃ cleared, db.clear = .ok cleared ∧ next.database = some cleared ∧ Emptied s next ∧
        ((∃ r ∈ results, ∃ e ∈ r.edges, StopsMerge e fault) ∨
          ∃ accepted, accepted ≠ [] ∧ cleared.replace accepted = .error fault)) ∧
    (next.contributions = s.contributions ↔ db.clear = .error fault ∨ s.contributions = []) := by
  unfold rebuild write at h
  rw [hdb] at h
  cases hclear : db.clear with
  | error f =>
    simp only [hclear, bind, Except.bind] at h
    cases h
    exact ⟨.inl ⟨rfl, rfl⟩, by simp⟩
  | ok cleared =>
    simp only [hclear, bind, Except.bind, pure, Except.pure] at h
    obtain ⟨rfl, hwhy⟩ := mergeBatch_eq_error h
    have hempty := emptied_of_clear s hclear
    refine ⟨.inr ⟨cleared, rfl, rfl, hempty, ?_⟩, ?_⟩
    · rcases hwhy with ⟨r, hr, e, he, hstops⟩ | ⟨db', accepted, hdb', hne, hreplace⟩
      · obtain ⟨q, hq, rfl⟩ := List.mem_map.1 hr
        rw [(refreshed_eq s q).2.2] at he
        exact .inl ⟨q, hq, e, he, hstops⟩
      · obtain rfl : cleared = db' := Option.some.inj hdb'
        exact .inr ⟨accepted, hne, hreplace⟩
    · rw [hempty.contributions]
      simp [eq_comm]

/-- A store on a database, with one file that declares one entity. -/
def storedGraph : Store :=
  (empty (some { path := "graph.db" })).run [.merge { file := "a", entities := [.bare "x"] }]

/-- A new scan of the file, with a date in its metadata. -/
def datedScan : ScanResult :=
  { file := "a", entities := [{ Entity.bare "x" with metadata := [(.str "since", .date ⟨2020, 1, 1⟩)] }] }

/-- The date is no part of a document, so the merge faults when all is lost already. -/
theorem rebuild_fault_datedScan :
    (storedGraph.rebuild [datedScan]).2 = .error (.type (.notEncodable "date")) ∧
    Emptied storedGraph (storedGraph.rebuild [datedScan]).1 := by
  have hfault : (storedGraph.rebuild [datedScan]).2 = .error (.type (.notEncodable "date")) := by
    decide +kernel
  have hdb : storedGraph.database.isSome = true := by decide +kernel
  obtain ⟨db, hdb⟩ := Option.isSome_iff_exists.1 hdb
  obtain ⟨⟨-, hsame⟩ | ⟨cleared, -, -, hempty, -⟩, -⟩ := rebuild_fault hdb (Prod.ext rfl hfault)
  · have hkeys : (storedGraph.rebuild [datedScan]).1.contributions.keys ≠
        storedGraph.contributions.keys := by decide +kernel
    exact absurd (congrArg (fun s => s.contributions.keys) hsame) hkeys
  · exact ⟨hfault, hempty⟩

/-- The files whose contributions a store would find in its database. -/
def activeFiles (s : Store) : Option (List String) := do
  let db ← s.database
  let contributions ← db.contributions.toOption
  return contributions.map Contribution.file

/-- The file contributes to the graph and is active in the database. After a rebuild that faults it does
not and is not. -/
theorem rebuild_loses_graph :
    (storedGraph.rebuild [datedScan]).2 = .error (.type (.notEncodable "date")) ∧
    storedGraph.contributions.keys = ["a"] ∧ activeFiles storedGraph = some ["a"] ∧
    (storedGraph.rebuild [datedScan]).1.contributions.keys = [] ∧
    activeFiles (storedGraph.rebuild [datedScan]).1 = some [] := by
  decide +kernel

end Store

end ChangeImpact
