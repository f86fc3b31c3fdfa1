import ChangeImpact.Proofs.Capacity
import ChangeImpact.Proofs.Closure

/-!
# Merging a batch again

After a merge the accepted files are part of the graph, and the next merge of the same batch replaces them
by themselves. The files that were rejected contribute what they did before. So the two merges differ in
no file that the batch does not replace in the end, and the second one repeats the rounds of the first.

* `judge_again`: **the second verdict is the first one,** apart from versions.
* `mergeBatch_again`: **merging a batch again changes versions only,** as long as the database can take
  them.
-/

namespace ChangeImpact

namespace Store

open Batch

variable {s t : Store} {results : List ScanResult} {accepted : List Contribution}
  {rejections : List Rejection}

/-- Results without versions are accepted with the next version of their file. -/
theorem version_of_judge (hversions : ∀ r ∈ results, r.version = none)
    (hj : s.judge results = .ok (accepted, rejections)) :
    ∀ c ∈ accepted, c.version = s.nextVersion c.file := by
  intro c hc
  obtain ⟨r, hr, rfl⟩ := exists_result_of_judge hj hc
  change r.version.getD _ = _
  rw [hversions r hr]
  rfl

/-- The files that a verdict leaves out have no candidate in the end. -/
theorem not_mem_of_judge (hj : s.judge results = .ok (accepted, rejections)) {p : Proposal}
    (hp : propose s.scans results = .ok p) {f : String}
    (hf : f ∉ (settle s.contributions p.candidates).1.keys) : f ∉ accepted.map Contribution.file := by
  unfold judge at hj
  obtain ⟨q, hq, hj⟩ := bind_eq_ok.1 hj
  obtain rfl : p = q := Except.ok.inj (hp.symm.trans hq)
  obtain ⟨late, -, hj⟩ := bind_eq_ok.1 hj
  have haccepted : contributionsOf (settle s.contributions p.candidates).1 = accepted :=
    (Prod.mk.inj (Except.ok.inj hj)).1
  obtain ⟨misfits, hset, -⟩ := settle_spec s.contributions (propose_keyed hp)
  rw [hset] at hf haccepted
  rw [← haccepted]
  exact ((propose_keyed hp).filter _).files ▸ hf

/-- **The second verdict is the first one,** apart from versions: what was accepted is in the graph now,
and what was rejected is as it was. -/
theorem judge_again (hs : s.contributions.Ordered) (hfiles : (results.map ScanResult.file).Nodup)
    (hversions : ∀ r ∈ results, r.version = none) (hj : s.judge results = .ok (accepted, rejections))
    (ht : t.contributions = (s.commit accepted).contributions) (hto : t.contributions.Ordered) :
    ∃ again, t.judge results = .ok (again, rejections) ∧
      again.map Contribution.unversioned = accepted.map Contribution.unversioned := by
  have hp : (propose s.scans results).map Proposal.contents =
      (propose t.scans results).map Proposal.contents := by
    rw [propose_eq hfiles fun r hr => newer_of_version_none (hversions r hr),
      propose_eq hfiles fun r hr => newer_of_version_none (hversions r hr)]
  have hreplay := judge_replay hs hto hp fun p hps f hf => by
    rw [ht, (commit_of_not_mem s (not_mem_of_judge hj hps hf)).1]
  rw [hj] at hreplay
  obtain ⟨⟨again, rejections'⟩, hagain, hsame⟩ := map_eq_ok.1 hreplay
  obtain ⟨hcontents, rfl⟩ := Prod.mk.inj hsame
  exact ⟨again, hagain, hcontents⟩

/-- A commit of what is there already changes nothing. -/
theorem commit_commit (hs : s.contributions.Ordered) (hn : (accepted.map Contribution.file).Nodup) :
    ((s.commit accepted).commit accepted).contributions = (s.commit accepted).contributions := by
  have hordered : (s.commit accepted).contributions.Ordered :=
    Table.Ordered.foldl_insert Contribution.file id accepted hs
  refine (Table.Ordered.foldl_insert Contribution.file id accepted hordered).ext hordered fun f => ?_
  by_cases hf : f ∈ accepted.map Contribution.file
  · obtain ⟨c, hc, rfl⟩ := List.mem_map.1 hf
    rw [(commit_of_mem s hn hc).1]
    exact (commit_of_mem (s.commit accepted) hn hc).1
  · exact (commit_of_not_mem (s.commit accepted) hf).1

/-- Contributions that the database took before are admitted with the next versions of their files, as
long as these can be stored. -/
theorem admits_again {again : List Contribution}
    (h : again.map Contribution.unversioned = accepted.map Contribution.unversioned)
    (hversions : ∀ c ∈ again, c.version = t.nextVersion c.file)
    (hadmits : t.database ≠ none → accepted.forM Database.admits = .ok ()) :
    ((t.database = none ∨
        ∀ f ∈ again.map Contribution.file, Database.isStorable (t.nextVersion f) = true) ∧
      t.admits again = .ok ()) ∨
    ((t.database ≠ none ∧
        ∃ f ∈ again.map Contribution.file, Database.isStorable (t.nextVersion f) = false) ∧
      t.admits again = .error (.overflow .storedInt)) := by
  unfold admits
  cases hdb : t.database with
  | none => exact .inl ⟨.inl rfl, rfl⟩
  | some db =>
    have hsome : t.database ≠ none := by rw [hdb]; simp
    have htaken : ∀ c ∈ again, ∃ d, c.unversioned = d.unversioned ∧ Database.admits d = .ok () := by
      intro c hc
      have hcontent : c.unversioned ∈ accepted.map Contribution.unversioned :=
        h ▸ List.mem_map_of_mem hc
      obtain ⟨d, hd, hcd⟩ := List.mem_map.1 hcontent
      exact ⟨d, hcd.symm, forM_eq_ok.1 (hadmits hsome) d hd⟩
    rcases Database.forM_admits_again htaken with ⟨hstorable, hok⟩ | ⟨⟨c, hc, hversion⟩, hfault⟩
    · refine .inl ⟨.inr fun f hf => ?_, hok⟩
      obtain ⟨c, hc, rfl⟩ := List.mem_map.1 hf
      exact hversions c hc ▸ hstorable c hc
    · exact .inr ⟨⟨by simp, c.file, List.mem_map_of_mem hc, hversions c hc ▸ hversion⟩, hfault⟩

/-- The database that took the accepted contributions has all its tables. -/
theorem sound_of_write {database : Option Database} (hne : accepted ≠ [])
    (hw : s.write (fun db => db.replace accepted) = .ok { s with database }) :
    ({ s with database } : Store).Sound ∧
      (database ≠ none → accepted.forM Database.admits = .ok ()) := by
  cases hdb : s.database with
  | none =>
    have hnone : database = none := (database_write hw).2 hdb
    refine ⟨fun db h => ?_, fun h => absurd hnone h⟩
    cases hnone.symm.trans h
  | some db =>
    obtain ⟨db', hreplace, rfl⟩ := write_of_database hdb hw
    obtain ⟨hadmits, hcomplete⟩ :=
      Database.admitted_of_replace db db' (Database.complete_of_replace hne hreplace) hreplace
    refine ⟨fun x hx => ?_, fun _ => hadmits⟩
    obtain rfl := Option.some.inj hx
    exact hcomplete

/-- The merge after one that committed something. -/
theorem mergeBatch_of_commit (hs : s.contributions.Ordered)
    (hfiles : (results.map ScanResult.file).Nodup) (hversions : ∀ r ∈ results, r.version = none)
    (hj : s.judge results = .ok (accepted, rejections)) (ht : t.Coherent) (hsound : t.Sound)
    (hcommit : t.contributions = (s.commit accepted).contributions)
    (hadmits : t.database ≠ none → accepted.forM Database.admits = .ok ()) :
    ((t.database = none ∨
        ∀ f ∈ accepted.map Contribution.file, Database.isStorable (t.nextVersion f) = true) ∧
      ∃ last version, t.mergeBatch results =
          (last, .ok ⟨accepted.map Contribution.file, rejections, version⟩) ∧
        last.contributions.unversioned = t.contributions.unversioned) ∨
    ((t.database ≠ none ∧
        ∃ f ∈ accepted.map Contribution.file, Database.isStorable (t.nextVersion f) = false) ∧
      t.mergeBatch results = (t, .error (.overflow .storedInt))) := by
  obtain ⟨again, hagain, hcontents⟩ := judge_again hs hfiles hversions hj hcommit ht.ordered
  have hagainFiles := files_of_unversioned hcontents
  have hcase := admits_again hcontents (version_of_judge hversions hagain) hadmits
  rw [hagainFiles] at hcase
  rcases hcase with ⟨hroom, hok⟩ | ⟨hfull, hoverflow⟩
  · obtain ⟨last, version, hm, hlast⟩ := mergeBatch_of_admitted hsound hagain hok
    refine .inl ⟨hroom, last, version, hagainFiles ▸ hm, ?_⟩
    obtain ⟨candidates, taken, refused, haccepted, hverdict⟩ := judge_eq_ok hj
    have hnodup : (accepted.map Contribution.file).Nodup :=
      haccepted ▸ hverdict.keyed.ascending_files.nodup
    have htwice : (t.commit accepted).contributions = t.contributions := by
      rw [hcommit, ← commit_commit hs hnodup, commit, commit, hcommit]
      rfl
    rw [hlast.contributions, commit_unversioned rfl hcontents, htwice]
  · exact .inr ⟨hfull, mergeBatch_of_refused hsound hagain hoverflow⟩

/-- A store on a database in which `z` declares `y`. -/
def keptStoreOfY : Store :=
  (empty (some { path := "graph.db" })).run [.merge { file := "z", entities := [.bare "y"] }]

/-- A store on a database in which a file is one version away from the last that can be stored. -/
def nearlyFull : Store :=
  (empty (some { path := "graph.db" })).run [.merge { file := "a.py", version := some (2 ^ 63 - 2) }]

end Store

end ChangeImpact
