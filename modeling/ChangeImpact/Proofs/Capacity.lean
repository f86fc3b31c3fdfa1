import ChangeImpact.Proofs.Contents
import ChangeImpact.Proofs.Sequence

/-!
# What a database takes

A database with all its tables looks at each contribution by itself before it writes it. Of the version it
asks one thing, that it is an integer of 64 bits, and all else that it asks is about the content. So a
content that was written once can be written again, unless the versions of its file have come to an end.

* `Database.admits`, `replace_of_complete`: **a batch is written just if each contribution is admitted.**
* `forM_admits_replay`: contents that are the same are admitted alike, up to their versions.
* `database_run`: a store keeps its database, and one without a database gets none.
* `mergeBatch_spec`: how a merge ends, by its verdict and by what the database admits.
* `Store.Backed`, `Backed.run`: **after every run the database has its tables and admits what is stored.**
* `Backed.rebuild`: a rebuild merges its results into the empty graph.
-/

namespace ChangeImpact

namespace Database

variable {db db' : Database} {c d : Contribution} {cs ds : List Contribution}

/-- What a database asks of the entities and edges of a contribution. -/
def admitsContent (c : Contribution) : Except Fault Unit := do
  let _ ← c.entities.mapM fun e => Document.ofValue e.toRecord
  c.entities.forM fun e => requireEncodable e.id
  let _ ← c.edges.mapM fun e => Document.ofValue e.toRecord

/-- What a database with all its tables asks of a contribution. -/
def admits (c : Contribution) : Except Fault Unit := do
  requireEncodable c.file
  if !isStorable c.version then .error (.overflow .storedInt)
  admitsContent c

/-- A contribution is written just if it is admitted. -/
theorem write_of_complete (hdb : db.Complete) (fault : String → StorageFault) (c : Contribution) :
    (admits c = .ok () ∧ ∃ db', db.write fault c = .ok db' ∧ db'.Complete) ∨
      ∃ f, admits c = .error f ∧ db.write fault c = .error f := by
  obtain ⟨files, hfiles⟩ := hdb.files
  obtain ⟨entities, hentities⟩ := hdb.entities
  obtain ⟨edges, hedges⟩ := hdb.edges
  unfold write admits admitsContent
  rw [hfiles, hentities, hedges]
  simp only [require, bind, Except.bind, pure, Except.pure]
  cases requireEncodable c.file with
  | error f => exact .inr ⟨f, rfl, rfl⟩
  | ok u =>
    cases isStorable c.version with
    | false => exact .inr ⟨_, rfl, rfl⟩
    | true =>
      simp only [Bool.not_true, Bool.false_eq_true, if_false]
      cases c.entities.mapM fun e => Document.ofValue e.toRecord with
      | error f => exact .inr ⟨f, rfl, rfl⟩
      | ok entityRows =>
        dsimp only
        cases c.entities.forM fun e => requireEncodable e.id with
        | error f => exact .inr ⟨f, rfl, rfl⟩
        | ok u =>
          dsimp only
          cases c.edges.mapM fun e => Document.ofValue e.toRecord with
          | error f => exact .inr ⟨f, rfl, rfl⟩
          | ok edgeRows => exact .inl ⟨rfl, _, rfl, ⟨_, rfl⟩, ⟨_, rfl⟩, ⟨_, rfl⟩⟩

/-- **A batch is written just if each of its contributions is admitted.** -/
theorem replace_of_complete (hdb : db.Complete) (cs : List Contribution) :
    (cs.forM admits = .ok () ∧ ∃ db', db.replace cs = .ok db' ∧ db'.Complete) ∨
      ∃ f, cs.forM admits = .error f ∧ db.replace cs = .error f := by
  unfold replace
  generalize StorageFault.persist (cs.map Contribution.file) = fault
  induction cs generalizing db with
  | nil => exact .inl ⟨rfl, db, rfl, hdb⟩
  | cons c cs ih =>
    rw [List.forM, List.foldlM_cons]
    rcases write_of_complete hdb fault c with ⟨hadmits, next, hwrite, hnext⟩ | ⟨f, hadmits, hwrite⟩
    · rw [hadmits, hwrite]
      exact ih hnext
    · rw [hadmits, hwrite]
      exact .inr ⟨f, rfl, rfl⟩

theorem admitted_of_replace (db db' : Database) (hdb : db.Complete) (h : db.replace cs = .ok db') :
    cs.forM admits = .ok () ∧ db'.Complete := by
  rcases replace_of_complete hdb cs with ⟨hadmits, last, hlast, hcomplete⟩ | ⟨f, -, herror⟩
  · rw [hlast] at h
    obtain rfl := Except.ok.inj h
    exact ⟨hadmits, hcomplete⟩
  · rw [herror] at h
    cases h

/-- A database that took something has all its tables. -/
theorem complete_of_replace (hcs : cs ≠ []) (h : db.replace cs = .ok db') : db.Complete := by
  cases cs with
  | nil => exact absurd rfl hcs
  | cons c cs =>
    unfold replace at h
    rw [List.foldlM_cons] at h
    obtain ⟨next, hwrite, -⟩ := bind_eq_ok.1 h
    exact (insertable_of_write hwrite).1

theorem clear_of_complete (hdb : db.Complete) : ∃ db', db.clear = .ok db' ∧ db'.Complete := by
  obtain ⟨files, hfiles⟩ := hdb.files
  obtain ⟨entities, hentities⟩ := hdb.entities
  obtain ⟨edges, hedges⟩ := hdb.edges
  unfold clear
  rw [hfiles, hentities, hedges]
  exact ⟨_, rfl, ⟨_, rfl⟩, ⟨_, rfl⟩, ⟨_, rfl⟩⟩

theorem complete_delete {file : String} (h : db.delete file = .ok db') : db'.Complete := by
  obtain ⟨files, entities, edges, -, -, -, rfl⟩ := delete_eq_ok h
  exact ⟨⟨_, rfl⟩, ⟨_, rfl⟩, ⟨_, rfl⟩⟩

/-! ## Versions -/

theorem isStorable_of_admits (h : admits c = .ok ()) : isStorable c.version = true := by
  unfold admits at h
  obtain ⟨-, -, h⟩ := bind_eq_ok.1 h
  cases hv : isStorable c.version with
  | true => rfl
  | false =>
    rw [hv] at h
    cases h

/-- A content is admitted or not whatever its version, as long as the version can be stored. -/
theorem admits_replay (h : c.unversioned = d.unversioned)
    (hstorable : isStorable c.version = true → isStorable d.version = true) :
    admits c = admits d ∨
      (admits c = .error (.overflow .storedInt) ∧ isStorable c.version = false) := by
  obtain ⟨hfile, hentities, hedges⟩ := Contribution.unversioned_inj.1 h
  have hcontent : admitsContent c = admitsContent d := by
    unfold admitsContent
    rw [hentities, hedges]
  unfold admits
  rw [hfile, hcontent]
  cases requireEncodable d.file with
  | error f => exact .inl rfl
  | ok u =>
    cases hc : isStorable c.version with
    | true => exact .inl (by rw [hstorable hc])
    | false => exact .inr ⟨rfl, rfl⟩

/-- **The same contents are admitted alike,** unless there is a version that cannot be stored. -/
theorem forM_admits_replay (h : cs.map Contribution.unversioned = ds.map Contribution.unversioned)
    (hstorable : ∀ c ∈ cs, ∀ d ∈ ds, c.file = d.file →
      isStorable c.version = true → isStorable d.version = true) :
    cs.forM admits = ds.forM admits ∨
      (cs.forM admits = .error (.overflow .storedInt) ∧ ∃ c ∈ cs, isStorable c.version = false) := by
  induction cs generalizing ds with
  | nil =>
    rw [List.map_eq_nil_iff.1 h.symm]
    exact .inl rfl
  | cons c cs ih =>
    obtain ⟨d, ds, rfl, hd, hds⟩ := List.map_eq_cons_iff.1 h.symm
    have hfile : c.file = d.file := (Contribution.unversioned_inj.1 hd).1.symm
    rw [List.forM, List.forM]
    rcases admits_replay hd.symm
      (hstorable c List.mem_cons_self d List.mem_cons_self hfile) with hadmits | ⟨hadmits, hversion⟩
    · rw [hadmits]
      cases admits d with
      | error f => exact .inl rfl
      | ok u =>
        rcases ih hds.symm fun x hx y hy =>
          hstorable x (List.mem_cons_of_mem _ hx) y (List.mem_cons_of_mem _ hy) with
          hrest | ⟨hrest, x, hx, hversion⟩
        · exact .inl hrest
        · exact .inr ⟨hrest, x, List.mem_cons_of_mem _ hx, hversion⟩
    · rw [hadmits]
      exact .inr ⟨rfl, c, List.mem_cons_self, hversion⟩

/-- Contents that were admitted once are admitted again, just if their versions can be stored. -/
theorem forM_admits_again (h : ∀ c ∈ cs, ∃ d, c.unversioned = d.unversioned ∧ admits d = .ok ()) :
    ((∀ c ∈ cs, isStorable c.version = true) ∧ cs.forM admits = .ok ()) ∨
      ((∃ c ∈ cs, isStorable c.version = false) ∧ cs.forM admits = .error (.overflow .storedInt)) := by
  induction cs with
  | nil => exact .inl ⟨by simp, rfl⟩
  | cons c cs ih =>
    rw [List.forall_mem_cons] at h
    obtain ⟨⟨d, hcontent, hd⟩, hcs⟩ := h
    rw [List.forM]
    rcases admits_replay hcontent fun _ => isStorable_of_admits hd with hadmits | ⟨hadmits, hversion⟩
    · rw [hadmits, hd]
      rcases ih hcs with ⟨hstorable, hok⟩ | ⟨⟨x, hx, hversion⟩, hoverflow⟩
      · refine .inl ⟨List.forall_mem_cons.2 ⟨?_, hstorable⟩, hok⟩
        exact isStorable_of_admits (hadmits.trans hd)
      · exact .inr ⟨⟨x, List.mem_cons_of_mem _ hx, hversion⟩, hoverflow⟩
    · rw [hadmits]
      exact .inr ⟨⟨c, List.mem_cons_self, hversion⟩, rfl⟩

end Database

namespace Store

open Batch

variable {s t : Store} {results : List ScanResult}

/-! ## The database of a store -/

theorem database_write {f : Database → Except Fault Database} (h : s.write f = .ok t) :
    t.database = none ↔ s.database = none := by
  unfold write at h
  split at h
  · rw [← Except.ok.inj h]
  · rename_i db hsome
    obtain ⟨db', -, h⟩ := bind_eq_ok.1 h
    rw [← Except.ok.inj h, hsome]
    simp

theorem database_mergeBatch (s : Store) (results : List ScanResult) :
    (s.mergeBatch results).1.database = none ↔ s.database = none := by
  unfold mergeBatch
  rcases tryMerge_cases s results with ⟨f, -, hm⟩ | ⟨rejections, -, hm⟩ | ⟨_, _, f, -, -, hm⟩ |
    ⟨accepted, rejections, database, -, -, hw, hm⟩
  · rw [hm]
  · rw [hm]
  · rw [hm]
  · have hnone := database_write hw
    rw [hm]
    exact hnone

/-- No operation gives a database to a store or takes it away. -/
theorem database_step (s : Store) (op : Op) : (s.step op).database = none ↔ s.database = none := by
  unfold step
  cases op with
  | merge r =>
    dsimp only
    rcases merge_cases s r with ⟨fault, hm⟩ | ⟨-, hm⟩
    · rw [hm]
    · rw [hm]; exact database_mergeBatch s [r]
  | mergeBatch results => exact database_mergeBatch s results
  | remove file =>
    dsimp only
    unfold Store.remove
    split
    · rfl
    · split
      · rfl
      · rename_i hw
        have hnone := database_write hw
        exact hnone
  | rebuild results =>
    dsimp only
    unfold Store.rebuild
    split
    · rfl
    · rename_i written hw
      have hnone := database_write hw
      exact (database_mergeBatch _ _).trans hnone
  | reserve file => rfl
  | snapshot =>
    dsimp only
    rw [snapshot_keeps s]

theorem database_run (s : Store) (ops : List Op) :
    (s.run ops).database = none ↔ s.database = none := by
  induction ops generalizing s with
  | nil => rfl
  | cons op ops ih => exact (ih (s.step op)).trans (database_step s op)

/-- What the database of a store asks of some contributions. Without one, nothing is asked. -/
def admits (s : Store) (cs : List Contribution) : Except Fault Unit :=
  match s.database with
  | none => .ok ()
  | some _ => cs.forM Database.admits

/-- **The databases of two stores admit the same contents alike,** unless there is a version that the
first one cannot store. -/
theorem admits_replay (hdb : s.database = none ↔ t.database = none) {cs ds : List Contribution}
    (h : cs.map Contribution.unversioned = ds.map Contribution.unversioned)
    (hstorable : ∀ c ∈ cs, ∀ d ∈ ds, c.file = d.file →
      Database.isStorable c.version = true → Database.isStorable d.version = true) :
    s.admits cs = t.admits ds ∨
      (s.database ≠ none ∧ s.admits cs = .error (.overflow .storedInt) ∧
        ∃ c ∈ cs, Database.isStorable c.version = false) := by
  unfold admits
  cases hs : s.database with
  | none =>
    rw [hdb.1 hs]
    exact .inl rfl
  | some db =>
    obtain ⟨db', hdb'⟩ := Option.ne_none_iff_exists'.1 (mt hdb.2 (by rw [hs]; simp))
    rw [hdb']
    exact (Database.forM_admits_replay h hstorable).imp_right fun hover => ⟨by simp, hover⟩

/-- What is accepted stands for one of the results. -/
theorem exists_result_of_judge {accepted : List Contribution} {rejections : List Rejection}
    (hj : s.judge results = .ok (accepted, rejections)) {c : Contribution} (hc : c ∈ accepted) :
    ∃ r ∈ results, c = contentOf s.scans r := by
  obtain ⟨candidates, taken, refused, rfl, hverdict⟩ := judge_eq_ok hj
  rw [hverdict.contents] at hc
  obtain ⟨r, hr, rfl⟩ := List.mem_map.1 hc
  exact ⟨r, hverdict.split.mem_iff.1 (List.mem_append_left _ hr), rfl⟩

/-! ## Merging -/

/-- The database of a store, if there is one, has all its tables. -/
def Sound (s : Store) : Prop := ∀ db, s.database = some db → db.Complete

/-- What a merge leaves behind that commits some contributions. -/
structure Commits (s : Store) (accepted : List Contribution) (next : Store) : Prop where
  contributions : next.contributions = (s.commit accepted).contributions
  database : next.database = none ↔ s.database = none
  sound : next.Sound

theorem Sound.write (hdb : s.Sound) {f : Database → Except Fault Database}
    (hf : ∀ db db', db.Complete → f db = .ok db' → db'.Complete) (h : s.write f = .ok t) : t.Sound := by
  unfold Store.write at h
  split at h
  · exact Except.ok.inj h ▸ hdb
  · rename_i db hsome
    obtain ⟨db', hdb', h⟩ := bind_eq_ok.1 h
    obtain rfl := Except.ok.inj h
    intro x hx
    obtain rfl := Option.some.inj hx
    exact hf db _ (hdb db hsome) hdb'

/-- **How a merge ends:** without a verdict, with a contribution that the database does not admit, or with
a commit. -/
theorem mergeBatch_spec (hdb : s.Sound) (results : List ScanResult) :
    (∃ f, s.judge results = .error f ∧ s.mergeBatch results = (s, .error f)) ∨
    ∃ accepted rejections, s.judge results = .ok (accepted, rejections) ∧
      ((∃ f, s.admits accepted = .error f ∧ s.mergeBatch results = (s, .error f)) ∨
        (s.admits accepted = .ok () ∧ ∃ next version, s.mergeBatch results =
          (next, .ok ⟨accepted.map Contribution.file, rejections, version⟩) ∧
          s.Commits accepted next)) := by
  unfold mergeBatch
  rcases tryMerge_cases s results with ⟨f, hj, hm⟩ | ⟨rejections, hj, hm⟩ |
    ⟨accepted, rejections, f, hj, hw, hm⟩ | ⟨accepted, rejections, database, hj, -, hw, hm⟩
  · rw [hm]
    exact .inl ⟨f, hj, rfl⟩
  · rw [hm]
    refine .inr ⟨[], rejections, hj, .inr ⟨?_, s, _, rfl, rfl, Iff.rfl, hdb⟩⟩
    unfold admits
    split <;> rfl
  · rw [hm]
    refine .inr ⟨accepted, rejections, hj, .inl ⟨f, ?_, rfl⟩⟩
    obtain ⟨db, hsome, hreplace⟩ := write_eq_error hw
    unfold admits
    rw [hsome]
    rcases Database.replace_of_complete (hdb db hsome) accepted with ⟨-, db', hok, -⟩ | ⟨g, hg, herror⟩
    · rw [hok] at hreplace
      cases hreplace
    · rw [herror] at hreplace
      obtain rfl := Except.error.inj hreplace
      exact hg
  · rw [hm]
    have hnone := database_write hw
    have hsound := hdb.write (fun db db' hdb h => (Database.admitted_of_replace db db' hdb h).2) hw
    refine .inr ⟨accepted, rejections, hj, .inr ⟨?_, _, _, rfl, rfl, hnone, hsound⟩⟩
    unfold admits
    cases hsome : s.database with
    | none => rfl
    | some db =>
      unfold write at hw
      rw [hsome] at hw
      obtain ⟨db', hreplace, -⟩ := bind_eq_ok.1 hw
      exact (Database.admitted_of_replace db db' (hdb db hsome) hreplace).1

theorem mergeBatch_of_fault {f : Fault} (hj : s.judge results = .error f) :
    s.mergeBatch results = (s, .error f) := by
  unfold mergeBatch tryMerge
  rw [hj]
  rfl

section Verdict

variable {accepted : List Contribution} {rejections : List Rejection}

theorem mergeBatch_of_refused (hdb : s.Sound) (hj : s.judge results = .ok (accepted, rejections))
    {f : Fault} (h : s.admits accepted = .error f) : s.mergeBatch results = (s, .error f) := by
  rcases mergeBatch_spec hdb results with ⟨g, hg, -⟩ | ⟨accepted', rejections', hj', hend⟩
  · cases hj.symm.trans hg
  · obtain ⟨rfl, rfl⟩ := Prod.mk.inj (Except.ok.inj (hj.symm.trans hj'))
    rcases hend with ⟨g, hg, hm⟩ | ⟨hok, -⟩
    · rw [hm, Except.error.inj (h.symm.trans hg)]
    · cases h.symm.trans hok

theorem mergeBatch_of_admitted (hdb : s.Sound) (hj : s.judge results = .ok (accepted, rejections))
    (h : s.admits accepted = .ok ()) :
    ∃ next version, s.mergeBatch results =
        (next, .ok ⟨accepted.map Contribution.file, rejections, version⟩) ∧ s.Commits accepted next := by
  rcases mergeBatch_spec hdb results with ⟨g, hg, -⟩ | ⟨accepted', rejections', hj', hend⟩
  · cases hj.symm.trans hg
  · obtain ⟨rfl, rfl⟩ := Prod.mk.inj (Except.ok.inj (hj.symm.trans hj'))
    rcases hend with ⟨g, hg, -⟩ | ⟨-, hend⟩
    · cases h.symm.trans hg
    · exact hend

end Verdict

/-! ## Reachable stores -/

/-- A store that nothing was merged into, without a database or on a new one. -/
def created (path : Option String) : Store := empty (path.map fun path => { path })

/-- The database has its tables and admits what the store holds. -/
structure Backed (s : Store) : Prop where
  sound : s.Sound
  admitted : s.database ≠ none → ∀ f c, s.contributions.get? f = some c → Database.admits c = .ok ()

theorem backed_created (path : Option String) : (created path).Backed where
  sound db h := by
    obtain ⟨path, -, rfl⟩ := Option.map_eq_some_iff.1 h
    exact ⟨⟨_, rfl⟩, ⟨_, rfl⟩, ⟨_, rfl⟩⟩
  admitted _ f c h := by cases h

theorem Backed.mergeBatch (h : s.Backed) (results : List ScanResult) :
    (s.mergeBatch results).1.Backed := by
  rcases mergeBatch_spec h.sound results with ⟨f, -, hm⟩ | ⟨accepted, rejections, hj, hrest⟩
  · rw [hm]; exact h
  · rcases hrest with ⟨f, -, hm⟩ | ⟨hadmits, next, version, hm, hnext⟩
    · rw [hm]; exact h
    · rw [hm]
      refine ⟨hnext.sound, fun hsome f c hc => ?_⟩
      obtain ⟨db, hdb⟩ := Option.ne_none_iff_exists'.1 (mt hnext.database.2 hsome)
      unfold admits at hadmits
      rw [hdb] at hadmits
      rw [hnext.contributions] at hc
      obtain ⟨candidates, taken, refused, rfl, hverdict⟩ := judge_eq_ok hj
      rcases get?_commit_eq_some hverdict.keyed.ascending_files.nodup hc with ⟨hmem, -⟩ | ⟨-, hold⟩
      · exact forM_eq_ok.1 hadmits c hmem
      · exact h.admitted (by rw [hdb]; simp) f c hold

/-- A change of the database that leaves out contributions keeps the invariant. -/
theorem Backed.drop (h : s.Backed) {f : Database → Except Fault Database}
    (hf : ∀ db db', db.Complete → f db = .ok db' → db'.Complete) (hw : s.write f = .ok t)
    {contributions : Table Contribution}
    (hsub : ∀ file c, contributions.get? file = some c → s.contributions.get? file = some c) :
    (t.changed contributions).Backed := by
  have hsound := h.sound.write hf hw
  have hnone := database_write hw
  exact ⟨hsound, fun hsome file c hc => h.admitted (mt hnone.2 hsome) file c (hsub file c hc)⟩

theorem Backed.remove (h : s.Backed) (file : String) : (s.remove file).1.Backed := by
  unfold Store.remove
  split
  · exact h
  · split
    · exact h
    · rename_i written hw
      refine h.drop (fun _ _ _ => Database.complete_delete) hw fun f c hc => ?_
      obtain ⟨database, rfl⟩ := write_eq_ok hw
      rw [Table.get?_erase] at hc
      split at hc
      · cases hc
      · exact hc

/-- The store into which a rebuild merges its results. -/
def cleared (s : Store) (database : Option Database) : Store :=
  ({ s with database } : Store).changed []

/-- **A rebuild merges its results into the empty graph,** on a database that was cleared. -/
theorem Backed.rebuild (h : s.Backed) (results : List ScanResult) :
    ∃ database, (database = none ↔ s.database = none) ∧ (s.cleared database).Backed ∧
      s.rebuild results = (s.cleared database).mergeBatch (results.map s.refreshed) := by
  have hclear : ∀ db db' : Database, db.Complete → db.clear = .ok db' → db'.Complete := by
    intro db db' hdb hdb'
    obtain ⟨last, hlast, hcomplete⟩ := Database.clear_of_complete hdb
    rw [hlast] at hdb'
    exact Except.ok.inj hdb' ▸ hcomplete
  unfold Store.rebuild
  cases hw : s.write Database.clear with
  | error f =>
    obtain ⟨db, hdb, hf⟩ := write_eq_error hw
    obtain ⟨last, hlast, -⟩ := Database.clear_of_complete (h.sound db hdb)
    rw [hlast] at hf
    cases hf
  | ok written =>
    have hbacked : (written.changed []).Backed := h.drop hclear hw fun f c hc => by cases hc
    have hnone := database_write hw
    obtain ⟨database, rfl⟩ := write_eq_ok hw
    exact ⟨database, hnone, hbacked, rfl⟩

theorem Backed.step (h : s.Backed) (op : Op) : (s.step op).Backed := by
  cases op with
  | merge r =>
    unfold Store.step
    dsimp only
    rcases merge_cases s r with ⟨fault, hm⟩ | ⟨-, hm⟩
    · rw [hm]; exact h
    · rw [hm]; exact h.mergeBatch [r]
  | mergeBatch results => exact h.mergeBatch results
  | remove file => exact h.remove file
  | rebuild results =>
    obtain ⟨database, -, hbacked, hr⟩ := h.rebuild results
    unfold Store.step
    dsimp only
    rw [hr]
    exact hbacked.mergeBatch _
  | reserve file => exact ⟨h.sound, h.admitted⟩
  | snapshot =>
    unfold Store.step
    dsimp only
    rw [snapshot_keeps s]
    exact ⟨h.sound, h.admitted⟩

/-- **After every run, the database has its tables and admits what the store holds.** -/
theorem Backed.run (h : s.Backed) (ops : List Op) : (s.run ops).Backed := by
  induction ops generalizing s with
  | nil => exact h
  | cons op ops ih => exact ih (h.step op)

end Store

end ChangeImpact
