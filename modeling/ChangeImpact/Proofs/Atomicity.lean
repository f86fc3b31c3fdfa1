import ChangeImpact.Proofs.Rebuilding

/-!
# Failed writes leave no trace

A write to the database is a transaction: a list of statements, each of which puts or drops some rows, and
any of which can fault. By then the statements before it have changed rows that the store never sees, since
the transaction is rolled back as a whole and the store changes only after it.

* `Statement`, `perform`: what one statement does to the rows.
* `write_eq_perform`, `replace_eq_run`, `delete_eq_run`: **the writes are transactions**, statement by
  statement.
* `Transaction.run_eq_error_iff`: a transaction faults just at one of its statements.
* `failed_write_leaves_no_trace`: **a merge, a batch or a removal that faults changes nothing,** wherever it
  faults.
-/

namespace ChangeImpact

namespace Table

variable {α : Type}

theorem insert_insert (t : Table α) (k : String) (a b : α) : (t.insert k a).insert k b = t.insert k b := by
  induction t with
  | nil => simp [insert]
  | cons e t ih =>
    obtain ⟨key, v⟩ := e
    by_cases hk : key = k
    · simp [insert, hk]
    · by_cases hlt : Text.lt k key = true
      · simp [insert, hk, hlt]
      · simp only [insert, hk, hlt, if_false, Bool.false_eq_true]
        exact congrArg _ ih

end Table

namespace Database

/-! ## Statements -/

/-- The two tables of documents. -/
inductive Rows where
  | entities
  | edges

def Rows.name : Rows → String
  | .entities => "entities"
  | .edges => "edges"

def Rows.table (db : Database) : Rows → Option (Table (List Document))
  | .entities => db.entities
  | .edges => db.edges

def Rows.set (db : Database) (t : Table (List Document)) : Rows → Database
  | .entities => { db with entities := some t }
  | .edges => { db with edges := some t }

@[simp] theorem Rows.table_set (db : Database) (t : Table (List Document)) (rows : Rows) :
    rows.table (rows.set db t) = some t := by cases rows <;> rfl

@[simp] theorem Rows.set_set (db : Database) (t u : Table (List Document)) (rows : Rows) :
    rows.set (rows.set db t) u = rows.set db u := by cases rows <;> rfl

theorem Rows.set_of_table {db : Database} {t : Table (List Document)} {rows : Rows}
    (h : rows.table db = some t) : rows.set db t = db := by
  cases rows <;> rw [Rows.set, ← h] <;> rfl

/-- One statement of a transaction. -/
inductive Statement where
  /-- Makes room for the new rows of a file. -/
  | clear (rows : Rows) (file : String)
  /-- Drops the rows of a file. -/
  | drop (rows : Rows) (file : String)
  | putFile (file : String) (version : Int)
  /-- Marks a file as removed. -/
  | retire (file : String)
  /-- Makes the document of a record that is added later. -/
  | encode (record : Value)
  /-- Adds the document of a record to the rows of a file; entities are added under their ids. -/
  | add (rows : Rows) (file : String) (id : Option String) (record : Value)

/-- What a statement does to the rows. -/
def perform (fault : String → StorageFault) (db : Database) : Statement → Except Fault Database
  | .clear rows file => do
    let t ← require rows.name fault (rows.table db)
    requireEncodable file
    return rows.set db (t.insert file [])
  | .drop rows file => do
    let t ← require rows.name fault (rows.table db)
    requireEncodable file
    return rows.set db (t.erase file)
  | .putFile file version => do
    let files ← require "files" fault db.files
    if !isStorable version then .error (.overflow .storedInt)
    return { db with files := some (files.insert file ⟨version, true⟩) }
  | .retire file => do
    let files ← require "files" fault db.files
    return { db with
      files := some (files.map fun r => if r.1 = file then (r.1, { r.2 with active := false }) else r) }
  | .encode record => do
    let _ ← Document.ofValue record
    return db
  | .add rows file id record => do
    let t ← require rows.name fault (rows.table db)
    requireEncodable (id.getD "")
    let row ← Document.ofValue record
    return rows.set db (t.insert file ((t.get? file).getD [] ++ [row]))

/-- The statements that make room for the rows of a file and put its version. -/
def opening (c : Contribution) : List Statement :=
  [.clear .entities c.file, .clear .edges c.file, .putFile c.file c.version]

/-- The statements that add the rows of a file. All documents of a table are made before the first row is
added. -/
def adding (c : Contribution) : List Statement :=
  c.entities.map (fun e => .encode e.toRecord) ++
  c.entities.map (fun e => .add .entities c.file (some e.id) e.toRecord) ++
  c.edges.map (fun e => .encode e.toRecord) ++
  c.edges.map (fun e => .add .edges c.file none e.toRecord)

/-! ## Blocks of statements -/

section Blocks

variable {α : Type} (fault : String → StorageFault) (db : Database)

theorem foldlM_encode (record : α → Value) (xs : List α) :
    (xs.map fun x => Statement.encode (record x)).foldlM (perform fault) db =
      (xs.mapM fun x => Document.ofValue (record x)) >>= fun _ => .ok db := by
  induction xs with
  | nil => rfl
  | cons x xs ih =>
    rw [List.map_cons, List.foldlM_cons, List.mapM_cons]
    cases hx : Document.ofValue (record x) with
    | error f => simp only [perform, hx, bind, Except.bind]
    | ok d =>
      have hstep : perform fault db (.encode (record x)) = .ok db := by
        simp only [perform, hx, bind, Except.bind, pure, Except.pure]
      rw [hstep]
      simp only [bind, Except.bind] at ih ⊢
      rw [ih]
      cases xs.mapM fun x => Document.ofValue (record x) with
      | error f => rfl
      | ok ds => rfl

/-- Rows that have documents are added under their ids, up to the first that cannot be. -/
theorem foldlM_add (rows : Rows) (file : String) (id : α → Option String) (record : α → Value)
    (xs : List α) {ds : List Document} (hds : (xs.mapM fun x => Document.ofValue (record x)) = .ok ds)
    {t : Table (List Document)} {before : List Document}
    (hdb : rows.table db = some (t.insert file before)) :
    (xs.map fun x => Statement.add rows file (id x) (record x)).foldlM (perform fault) db =
      xs.forM (fun x => requireEncodable ((id x).getD "")) >>= fun _ =>
        .ok (rows.set db (t.insert file (before ++ ds))) := by
  -- each statement leaves the table with one more row, so the rows before are part of the induction
  induction xs generalizing db ds before with
  | nil =>
    obtain rfl : [] = ds := Except.ok.inj hds
    rw [List.append_nil, Rows.set_of_table hdb]
    rfl
  | cons x xs ih =>
    rw [List.mapM_cons] at hds
    obtain ⟨d, hd, hds⟩ := bind_eq_ok.1 hds
    obtain ⟨ds, hrest, hds⟩ := bind_eq_ok.1 hds
    obtain rfl := Except.ok.inj hds
    rw [List.map_cons, List.foldlM_cons, List.forM]
    cases hid : requireEncodable ((id x).getD "") with
    | error f => simp only [perform, hdb, hid, require, bind, Except.bind]
    | ok u =>
      have hstep : perform fault db (.add rows file (id x) (record x)) =
          .ok (rows.set db (t.insert file (before ++ [d]))) := by
        simp only [perform, hdb, hid, hd, require, bind, Except.bind, pure, Except.pure,
          Table.get?_insert, if_true, Option.getD_some, Table.insert_insert]
      rw [hstep]
      have hrows := ih _ hrest (Rows.table_set db (t.insert file (before ++ [d])) rows)
      rw [Rows.set_set, List.append_assoc, List.singleton_append] at hrows
      exact hrows

end Blocks

theorem foldlM_opening (fault : String → StorageFault) (db : Database) (c : Contribution) :
    (opening c).foldlM (perform fault) db =
      (do
        let entities ← require "entities" fault db.entities
        requireEncodable c.file
        let edges ← require "edges" fault db.edges
        let files ← require "files" fault db.files
        if !isStorable c.version then .error (.overflow .storedInt)
        return { db with
          files := some (files.insert c.file ⟨c.version, true⟩)
          entities := some (entities.insert c.file [])
          edges := some (edges.insert c.file []) }) := by
  obtain ⟨path, files, entities, edges⟩ := db
  simp only [opening, List.foldlM_cons, List.foldlM_nil, perform, Rows.name, Rows.table, Rows.set]
  cases entities with
  | none => rfl
  | some entities =>
    cases requireEncodable c.file with
    | error f => rfl
    | ok u =>
      cases edges with
      | none => rfl
      | some edges =>
        cases files with
        | none => rfl
        | some files => cases isStorable c.version <;> rfl

theorem foldlM_adding (fault : String → StorageFault) (c : Contribution) (db : Database)
    (entities edges : Table (List Document)) (hentities : db.entities = some (entities.insert c.file []))
    (hedges : db.edges = some (edges.insert c.file [])) :
    (adding c).foldlM (perform fault) db =
      (do
        let entityRows ← c.entities.mapM fun e => Document.ofValue e.toRecord
        c.entities.forM fun e => requireEncodable e.id
        let edgeRows ← c.edges.mapM fun e => Document.ofValue e.toRecord
        return { db with
          entities := some (entities.insert c.file entityRows)
          edges := some (edges.insert c.file edgeRows) }) := by
  unfold adding
  simp only [List.foldlM_append, foldlM_encode]
  cases hentityRows : c.entities.mapM fun e => Document.ofValue e.toRecord with
  | error f => rfl
  | ok entityRows =>
    have haddEntities := foldlM_add fault db .entities c.file (fun e => some e.id) Entity.toRecord
      c.entities hentityRows hentities
    simp only [bind, Except.bind] at haddEntities ⊢
    rw [haddEntities]
    simp only [Option.getD_some]
    cases c.entities.forM fun e => requireEncodable e.id with
    | error f => rfl
    | ok u =>
      cases hedgeRows : c.edges.mapM fun e => Document.ofValue e.toRecord with
      | error f => rfl
      | ok edgeRows =>
        have haddEdges := foldlM_add fault { db with entities := some (entities.insert c.file entityRows) }
          .edges c.file (fun _ => none) Edge.toRecord c.edges hedgeRows hedges
        -- edges have no ids, so nothing is asked of them but their documents
        have hids : (c.edges.forM fun _ => requireEncodable ((none : Option String).getD "")) = .ok () :=
          forM_eq_ok.2 fun _ _ => rfl
        rw [hids] at haddEdges
        exact haddEdges

/-- **Replacing the rows of a file** is performing its statements one by one. -/
theorem write_eq_perform (fault : String → StorageFault) (db : Database) (c : Contribution) :
    db.write fault c = (opening c ++ adding c).foldlM (perform fault) db := by
  rw [List.foldlM_append, foldlM_opening]
  unfold write
  -- the opening statements are the steps of the write up to the first document, in the same order
  cases hentities : require "entities" fault db.entities with
  | error f => rfl
  | ok entities =>
    cases hfile : requireEncodable c.file with
    | error f => rfl
    | ok u =>
      cases hedges : require "edges" fault db.edges with
      | error f => rfl
      | ok edges =>
        cases hfiles : require "files" fault db.files with
        | error f => rfl
        | ok files =>
          cases hversion : isStorable c.version with
          | false => rfl
          | true =>
            let opened : Database := { db with
              files := some (files.insert c.file ⟨c.version, true⟩)
              entities := some (entities.insert c.file [])
              edges := some (edges.insert c.file []) }
            exact (foldlM_adding fault c opened entities edges rfl rfl).symm

/-! ## Transactions -/

/-- Statements that are performed one after another, all or none. -/
structure Transaction where
  /-- What a missing table is reported as. -/
  fault : String → StorageFault
  statements : List Statement

namespace Transaction

/-- The transaction that replaces the rows of some files. -/
def replacing (cs : List Contribution) : Transaction where
  fault := .persist (cs.map Contribution.file)
  statements := cs.flatMap fun c => opening c ++ adding c

/-- The transaction that drops the rows of a file. -/
def deleting (file : String) : Transaction where
  fault := .delete file
  statements := [.drop .entities file, .drop .edges file, .retire file]

def run (t : Transaction) (db : Database) : Except Fault Database :=
  t.statements.foldlM (perform t.fault) db

/-- Statement number `k` faults. The statements before it have made `work` of the rows. -/
def FaultsAt (t : Transaction) (db : Database) (k : Nat) (work : Database) (fault : Fault) : Prop :=
  (t.statements.take k).foldlM (perform t.fault) db = .ok work ∧
    ∃ statement, t.statements[k]? = some statement ∧ perform t.fault work statement = .error fault

/-- **A transaction faults just at one of its statements.** -/
theorem run_eq_error_iff (t : Transaction) (db : Database) (fault : Fault) :
    t.run db = .error fault ↔ ∃ k work, t.FaultsAt db k work fault := by
  obtain ⟨report, statements⟩ := t
  unfold run FaultsAt
  dsimp only
  induction statements generalizing db with
  | nil => simp [pure, Except.pure]
  | cons statement statements ih =>
    rw [List.foldlM_cons, bind_eq_error]
    constructor
    · rintro (hfault | ⟨db', hdb', hfault⟩)
      · exact ⟨0, db, rfl, statement, rfl, hfault⟩
      · obtain ⟨k, work, hwork, hk⟩ := (ih db').1 hfault
        refine ⟨k + 1, work, ?_, hk⟩
        rw [List.take_succ_cons, List.foldlM_cons, hdb']
        exact hwork
    · rintro ⟨k, work, hwork, last, hk, hfault⟩
      cases k with
      | zero =>
        obtain rfl : db = work := Except.ok.inj hwork
        obtain rfl : statement = last := Option.some.inj hk
        exact .inl hfault
      | succ k =>
        rw [List.take_succ_cons, List.foldlM_cons] at hwork
        obtain ⟨db', hdb', hwork⟩ := bind_eq_ok.1 hwork
        exact .inr ⟨db', hdb', (ih db').2 ⟨k, work, hwork, last, hk, hfault⟩⟩

end Transaction

theorem replace_eq_run (db : Database) (cs : List Contribution) :
    db.replace cs = (Transaction.replacing cs).run db := by
  unfold replace Transaction.run Transaction.replacing
  dsimp only
  generalize StorageFault.persist (cs.map Contribution.file) = fault
  induction cs generalizing db with
  | nil => rfl
  | cons c cs ih =>
    rw [List.foldlM_cons, List.flatMap_cons, List.foldlM_append, ← write_eq_perform]
    exact congrArg _ (funext ih)

theorem delete_eq_run (db : Database) (file : String) :
    db.delete file = (Transaction.deleting file).run db := by
  unfold delete Transaction.run Transaction.deleting
  obtain ⟨path, files, entities, edges⟩ := db
  simp only [List.foldlM_cons, List.foldlM_nil, perform, Rows.name, Rows.table, Rows.set]
  cases entities with
  | none => rfl
  | some entities =>
    cases requireEncodable file with
    | error f => rfl
    | ok u =>
      cases edges with
      | none => rfl
      | some edges => cases files <;> rfl

end Database

namespace Store

open Database

variable {s next : Store} {results : List ScanResult} {r : ScanResult} {file : String} {fault : Fault}

/-! ## Operations that fault -/

/-- A transaction on the database of the store faults, at one of its statements. -/
def WriteFaults (s : Store) (t : Transaction) (fault : Fault) : Prop :=
  ∃ db k work, s.database = some db ∧ t.FaultsAt db k work fault

/-- There is no verdict on some results, or the database does not take what was accepted of them. -/
def BatchFaults (s : Store) (results : List ScanResult) (fault : Fault) : Prop :=
  s.judge results = .error fault ∨
    ∃ accepted rejections, s.judge results = .ok (accepted, rejections) ∧
      s.WriteFaults (.replacing accepted) fault

theorem write_run_eq_error_iff {f : Database → Except Fault Database} {t : Transaction}
    (ht : ∀ db, f db = t.run db) : s.write f = .error fault ↔ s.WriteFaults t fault := by
  constructor
  · intro h
    obtain ⟨db, hdb, hfault⟩ := write_eq_error h
    rw [ht, Transaction.run_eq_error_iff] at hfault
    obtain ⟨k, work, hk⟩ := hfault
    exact ⟨db, k, work, hdb, hk⟩
  · rintro ⟨db, k, work, hdb, hk⟩
    have hfault : f db = .error fault := (ht db).trans ((t.run_eq_error_iff db fault).2 ⟨k, work, hk⟩)
    unfold write
    rw [hdb]
    simp only [hfault, bind, Except.bind]

theorem batchFaults_iff_write {accepted : List Contribution} {rejections : List Rejection}
    (hj : s.judge results = .ok (accepted, rejections)) :
    s.BatchFaults results fault ↔ s.write (fun db => db.replace accepted) = .error fault := by
  rw [write_run_eq_error_iff fun db => replace_eq_run db accepted, BatchFaults, hj]
  constructor
  · rintro (hfault | ⟨_, _, hverdict, hfaults⟩)
    · cases hfault
    · cases hverdict
      exact hfaults
  · intro hfaults
    exact .inr ⟨accepted, rejections, rfl, hfaults⟩

/-- **A batch that faults changes nothing.** It faults because there is no verdict on it, or in the
transaction that writes what was accepted. -/
theorem mergeBatch_eq_error_iff :
    s.mergeBatch results = (next, .error fault) ↔ next = s ∧ s.BatchFaults results fault := by
  unfold mergeBatch
  rcases tryMerge_cases s results with ⟨f, hj, hm⟩ | ⟨rejections, hj, hm⟩ |
    ⟨accepted, rejections, f, hj, hw, hm⟩ | ⟨accepted, rejections, database, hj, -, hw, hm⟩
  · rw [hm, BatchFaults, hj]
    simp [eq_comm]
  · -- nothing was accepted, and writing nothing does not fault
    rw [hm, batchFaults_iff_write hj]
    have hw : s.write (fun db => db.replace []) ≠ .error fault := by
      intro hw
      obtain ⟨db, -, hreplace⟩ := write_eq_error hw
      cases hreplace
    simp [hw]
  · rw [hm, batchFaults_iff_write hj, hw]
    simp [eq_comm]
  · rw [hm, batchFaults_iff_write hj, hw]
    simp

/-- One result that is rejected leaves nothing to write. -/
theorem judge_of_rejected {outcome : MergeOutcome} (h : s.mergeBatch [r] = (next, .ok outcome))
    (hrejected : outcome.rejections ≠ []) :
    next = s ∧ ∃ x, s.judge [r] = .ok ([], [x]) ∧ outcome.rejections = [x] := by
  unfold mergeBatch at h
  rcases tryMerge_cases s [r] with ⟨f, -, hm⟩ | ⟨rejections, hj, hm⟩ | ⟨_, _, f, -, -, hm⟩ |
    ⟨accepted, rejections, database, hj, hne, -, hm⟩
  · rw [hm] at h
    cases h
  · rw [hm] at h
    cases h
    obtain ⟨candidates, taken, refused, hnil, hv⟩ := judge_eq_ok hj
    obtain rfl : taken = [] := List.map_eq_nil_iff.1 (hv.contents.symm.trans hnil.symm)
    rcases hv.single with ⟨-, x, rfl⟩ | ⟨htaken, -⟩
    · exact ⟨rfl, x, hj, rfl⟩
    · cases htaken
  · rw [hm] at h
    cases h
  · rw [hm] at h
    cases h
    obtain ⟨candidates, taken, refused, rfl, hv⟩ := judge_eq_ok hj
    rcases hv.single with ⟨rfl, -⟩ | ⟨-, -, rfl⟩
    · exact absurd hv.contents hne
    · exact absurd rfl hrejected

/-- **A merge that faults changes nothing.** It faults as a batch does, or because the one result is
rejected. -/
theorem merge_eq_error_iff :
    s.merge r = (next, .error fault) ↔ next = s ∧ (s.BatchFaults [r] fault ∨
      ∃ x, s.judge [r] = .ok ([], [x]) ∧ fault = .merge x.cause) := by
  constructor
  · intro h
    unfold merge at h
    split at h
    · rename_i m f hm
      cases h
      obtain ⟨rfl, hfaults⟩ := mergeBatch_eq_error_iff.1 hm
      exact ⟨rfl, .inl hfaults⟩
    · rename_i m outcome hm
      split at h
      · rename_i y ys hrejections
        cases h
        obtain ⟨rfl, x, hj, hx⟩ := judge_of_rejected hm (by simp [hrejections])
        obtain ⟨rfl, -⟩ := List.cons.inj (hrejections.symm.trans hx)
        exact ⟨rfl, .inr ⟨y, hj, rfl⟩⟩
      · cases h
  · rintro ⟨rfl, hfaults | ⟨x, hj, rfl⟩⟩
    · unfold merge
      rw [mergeBatch_eq_error_iff.2 ⟨rfl, hfaults⟩]
    · exact merge_of_judge hj

/-- **A removal that faults changes nothing.** It faults in the transaction that drops the rows of a file
that has a contribution. -/
theorem remove_eq_error_iff :
    s.remove file = (next, .error fault) ↔
      next = s ∧ file ∈ s.contributions.keys ∧ s.WriteFaults (.deleting file) fault := by
  rw [← write_run_eq_error_iff fun db => delete_eq_run db file, ← Table.contains_iff]
  unfold remove
  cases s.contributions.contains file with
  | false => simp
  | true =>
    cases hw : s.write fun db => db.delete file with
    | error f => simp [eq_comm]
    | ok written => simp

end Store

end ChangeImpact
