import ChangeImpact.Store.Database
import ChangeImpact.Proofs.Records
import ChangeImpact.Proofs.Table

/-!
# What a database holds

The tables of a database are the image of some contributions and committed versions: a row for every
file that ever had a version, and documents for the entities and edges of those that contribute. Every
write gives the image of what was written, and reading the image gives the contributions and versions.

* `Entity.Storable`, `ScanResult.Storable`: what a database keeps as it is.
* `Database.holding`: the image.
* `write_holding`, `replace_holding`, `delete_holding`, `clear_holding`: **writes to an image.**
* `contributions_holding`, `table_holding`, `versions_holding`: **reading an image.**
-/

namespace ChangeImpact

/-! ## What can be stored -/

/-- An entity that a database keeps as it is: it is valid, and its record, with all its texts and
metadata, is a value of the document format. -/
structure Entity.Storable (e : Entity) : Prop where
  valid : e.Valid
  json : e.toRecord.isJson = true

/-- An edge that a database keeps as it is. -/
structure Edge.Storable (e : Edge Value) : Prop where
  valid : e.Valid
  json : e.toRecord.isJson = true

/-- A contribution that a database keeps as it is. -/
structure Contribution.Storable (c : Contribution) : Prop where
  entities : ∀ e ∈ c.entities, e.Storable
  edges : ∀ e ∈ c.edges, e.Storable

/-- A scan result whose entities can be stored and whose edges are valid. What the ends of its edges are
does not matter, since only ids of entities are merged. -/
structure ScanResult.Storable (r : ScanResult) : Prop where
  entities : ∀ e ∈ r.entities, e.Storable
  edges : ∀ e ∈ r.edges, e.Valid

/-- The id of an entity that can be stored is read back as it is. -/
theorem Entity.Storable.isJson_id {e : Entity} (h : e.Storable) : (Value.str e.id).isJson = true :=
  ((Value.isJson_record.1 h.json).2 ("id", .str e.id) List.mem_cons_self).2

theorem Dimension.isJson_word (d : Dimension) : (Value.str d.word).isJson = true := by
  cases d <;> decide

theorem Direction.isJson_word (d : Direction) : (Value.str d.word).isJson = true := by
  cases d <;> decide

/-- The record of an edge is a value of the format if its ends are. -/
theorem Edge.isJson_toRecord {e : Edge Value} (hs : e.source.isJson = true)
    (ht : e.target.isJson = true) : e.toRecord.isJson = true := by
  refine Value.isJson_record.2 ⟨by simp, ?_⟩
  simp only [List.forall_mem_cons]
  exact ⟨⟨by decide, hs⟩, ⟨by decide, ht⟩, ⟨by decide, e.dimension.isJson_word⟩,
    ⟨by decide, e.direction.isJson_word⟩, ⟨by decide, rfl⟩, fun _ h => (List.not_mem_nil h).elim⟩

namespace Database

variable {path : String} {contributions : Table Contribution} {versions : Table Int}
  {db db' : Database} {fault : String → StorageFault} {c : Contribution}

/-! ## What a write does -/

theorem require_eq_ok {α : Type} {name : String} {t : Option α} {a : α}
    (h : require name fault t = .ok a) : t = some a := by
  cases t with
  | none => cases h
  | some b => rw [Except.ok.inj h]

/-- A file is written with its version, and with its entities and edges as documents. -/
theorem write_eq_ok (h : db.write fault c = .ok db') :
    ∃ files entities edges entityRows edgeRows, db.files = some files ∧ db.entities = some entities ∧
      db.edges = some edges ∧ c.entities.mapM (fun e => Document.ofValue e.toRecord) = .ok entityRows ∧
      c.edges.mapM (fun e => Document.ofValue e.toRecord) = .ok edgeRows ∧
      db' = { db with
        files := some (files.insert c.file ⟨c.version, true⟩)
        entities := some (entities.insert c.file entityRows)
        edges := some (edges.insert c.file edgeRows) } := by
  unfold write at h
  rw [bind_eq_ok] at h
  obtain ⟨entities, hentities, h⟩ := h
  rw [bind_eq_ok] at h
  obtain ⟨-, -, h⟩ := h
  rw [bind_eq_ok] at h
  obtain ⟨edges, hedges, h⟩ := h
  rw [bind_eq_ok] at h
  obtain ⟨files, hfiles, h⟩ := h
  dsimp only at h
  split at h
  · cases h
  rw [bind_eq_ok] at h
  obtain ⟨entityRows, hentityRows, h⟩ := h
  rw [bind_eq_ok] at h
  obtain ⟨-, -, h⟩ := h
  rw [bind_eq_ok] at h
  obtain ⟨edgeRows, hedgeRows, h⟩ := h
  exact ⟨files, entities, edges, entityRows, edgeRows, require_eq_ok hfiles, require_eq_ok hentities,
    require_eq_ok hedges, hentityRows, hedgeRows, (Except.ok.inj h).symm⟩

/-- A file is deleted with its rows, and its version stays. -/
theorem delete_eq_ok {file : String} (h : db.delete file = .ok db') :
    ∃ files entities edges, db.files = some files ∧ db.entities = some entities ∧
      db.edges = some edges ∧
      db' = { db with
        files := some (files.map fun r =>
          if r.1 = file then (r.1, { r.2 with active := false }) else r)
        entities := some (entities.erase file)
        edges := some (edges.erase file) } := by
  unfold delete at h
  rw [bind_eq_ok] at h
  obtain ⟨entities, hentities, h⟩ := h
  rw [bind_eq_ok] at h
  obtain ⟨-, -, h⟩ := h
  rw [bind_eq_ok] at h
  obtain ⟨edges, hedges, h⟩ := h
  rw [bind_eq_ok] at h
  obtain ⟨files, hfiles, h⟩ := h
  exact ⟨files, entities, edges, require_eq_ok hfiles, require_eq_ok hentities, require_eq_ok hedges,
    (Except.ok.inj h).symm⟩

/-- All rows are dropped, and the versions stay. -/
theorem clear_eq_ok (h : db.clear = .ok db') :
    ∃ files, db.files = some files ∧
      db' = { db with
        files := some (files.map fun r => (r.1, { r.2 with active := false }))
        entities := some []
        edges := some [] } := by
  unfold clear at h
  rw [bind_eq_ok] at h
  obtain ⟨-, -, h⟩ := h
  rw [bind_eq_ok] at h
  obtain ⟨-, -, h⟩ := h
  rw [bind_eq_ok] at h
  obtain ⟨files, hfiles, h⟩ := h
  exact ⟨files, require_eq_ok hfiles, (Except.ok.inj h).symm⟩

/-! ## The image of a store -/

/-- The database of a store with some contributions and committed versions. -/
def holding (path : String) (contributions : Table Contribution) (versions : Table Int) : Database where
  path
  files := some (versions.image fun f v => ⟨v, contributions.contains f⟩)
  entities := some (contributions.image fun _ c => c.entities.map fun e => .value e.toRecord)
  edges := some (contributions.image fun _ c => c.edges.map fun e => .value e.toRecord)

/-- Writing a contribution to the image gives the image with the contribution. -/
theorem write_holding (hc : contributions.Ordered) (hv : versions.Ordered) (hs : c.Storable)
    (h : (holding path contributions versions).write fault c = .ok db) :
    db = holding path (contributions.insert c.file c) (versions.insert c.file c.version) := by
  obtain ⟨files, entities, edges, entityRows, edgeRows, hfiles, hentities, hedges, hentityRows,
    hedgeRows, rfl⟩ := write_eq_ok h
  obtain rfl := Option.some.inj hfiles
  obtain rfl := Option.some.inj hentities
  obtain rfl := Option.some.inj hedges
  obtain rfl := Document.mapM_ofValue (fun e he => (hs.entities e he).json) hentityRows
  obtain rfl := Document.mapM_ofValue (fun e he => (hs.edges e he).json) hedgeRows
  -- the file is active now, and no other file is more or less active than before
  have hfiles : (versions.image fun f v => FileRow.mk v (contributions.contains f)).insert c.file
      ⟨c.version, true⟩ = (versions.insert c.file c.version).image fun f v =>
        ⟨v, (contributions.insert c.file c).contains f⟩ := by
    rw [← hv.insert_image (g := fun f v => FileRow.mk v (contributions.contains f))]
    · rw [Table.contains_insert, if_pos rfl]
    · intro j hj
      funext v
      rw [Table.contains_insert, if_neg hj]
  unfold holding
  rw [hfiles, ← hc.insert_image fun _ _ => rfl, ← hc.insert_image fun _ _ => rfl]

/-- Several contributions, written one after the other. -/
theorem replace_holding {accepted : List Contribution} (hc : contributions.Ordered)
    (hv : versions.Ordered) (hs : ∀ c ∈ accepted, c.Storable)
    (h : (holding path contributions versions).replace accepted = .ok db) :
    db = holding path (accepted.foldl (fun t c => t.insert c.file c) contributions)
      (accepted.foldl (fun t c => t.insert c.file c.version) versions) := by
  unfold replace at h
  -- the fault names all files of the batch, also those that are written already
  generalize StorageFault.persist (accepted.map Contribution.file) = fault at h
  induction accepted generalizing contributions versions with
  | nil => exact (Except.ok.inj h).symm
  | cons c cs ih =>
    rw [List.foldlM_cons, bind_eq_ok] at h
    obtain ⟨next, hnext, h⟩ := h
    obtain rfl := write_holding hc hv (hs c List.mem_cons_self) hnext
    exact ih (hc.insert _ _) (hv.insert _ _) (fun d hd => hs d (List.mem_cons_of_mem _ hd)) h

/-- Deleting a file from the image gives the image without its contribution. -/
theorem delete_holding {file : String}
    (h : (holding path contributions versions).delete file = .ok db) :
    db = holding path (contributions.erase file) versions := by
  obtain ⟨files, entities, edges, hfiles, hentities, hedges, rfl⟩ := delete_eq_ok h
  obtain rfl := Option.some.inj hfiles
  obtain rfl := Option.some.inj hentities
  obtain rfl := Option.some.inj hedges
  have hrows : (versions.image fun f v => FileRow.mk v (contributions.contains f)).map (fun r =>
      if r.1 = file then (r.1, { r.2 with active := false }) else r) =
        versions.image fun f v => ⟨v, (contributions.erase file).contains f⟩ := by
    rw [Table.map_image]
    refine List.map_congr_left fun e _ => ?_
    dsimp only
    rw [Table.contains_erase]
    split <;> rfl
  unfold holding
  rw [hrows, Table.erase_image, Table.erase_image]

/-- Clearing the image gives the image of the versions alone. -/
theorem clear_holding (h : (holding path contributions versions).clear = .ok db) :
    db = holding path [] versions := by
  obtain ⟨files, hfiles, rfl⟩ := clear_eq_ok h
  obtain rfl := Option.some.inj hfiles
  have hrows : (versions.image fun f v => FileRow.mk v (contributions.contains f)).map (fun r =>
      (r.1, { r.2 with active := false })) = versions.image fun _ v => ⟨v, false⟩ :=
    Table.map_image _ _ _
  unfold holding
  rw [hrows]
  rfl

/-! ## Reading the image -/

/-- Rows that were written for valid items decode to the items. -/
theorem decodeRows_image {α : Type} {record : α → Value} {decode : Value → Except Fault α}
    (items : Contribution → List α)
    (h : ∀ e ∈ contributions, ∀ x ∈ items e.2, decode (record x) = .ok x) :
    decodeRows decode (contributions.image fun _ c => (items c).map fun x => .value (record x)) =
      .ok (contributions.image fun _ c => items c) := by
  have hrows : (contributions.image fun _ c => (items c).map fun x => Document.value (record x)) =
      (contributions.image fun _ c => items c).map fun r =>
        (r.1, r.2.map fun x => Document.value (record x)) := by
    rw [Table.map_image]
    rfl
  unfold decodeRows
  rw [hrows]
  refine mapM_map_eq_ok fun r hr => ?_
  obtain ⟨e, he, rfl⟩ := List.mem_map.1 hr
  have hitems : ((items e.2).map fun x => Document.value (record x)).mapM
      (fun d => do decode (← d.read)) = .ok (items e.2) := mapM_map_eq_ok (h e he)
  dsimp only
  rw [hitems]
  rfl

theorem versions_holding (path : String) (contributions : Table Contribution) (versions : Table Int) :
    (holding path contributions versions).versions = .ok versions := by
  have hrows : (versions.image fun f v => FileRow.mk v (contributions.contains f)).map (fun r =>
      (r.1, r.2.version)) = versions := by
    rw [Table.map_image]
    exact List.map_id _
  unfold Database.versions holding
  exact congrArg Except.ok hrows

/-- What is read from the image for a file with a version. -/
def storedIn (contributions : Table Contribution) (file : String) (version : Int) : Contribution where
  file
  version
  entities := ((contributions.image fun _ c => c.entities).get? file).getD []
  edges := ((contributions.image fun _ c => c.edges).get? file).getD []

theorem contributions_holding (hc : contributions.Ordered)
    (hs : ∀ f c, contributions.get? f = some c → c.Storable) :
    (holding path contributions versions).contributions =
      .ok ((versions.filter fun e => contributions.contains e.1).map fun e =>
        storedIn contributions e.1 e.2) := by
  have hmem : ∀ e ∈ contributions, e.2.Storable := fun e he =>
    hs e.1 e.2 (hc.get?_eq_some_iff.2 he)
  have hentities := decodeRows_image Contribution.entities fun e (he : e ∈ contributions) x hx =>
    Entity.ofRecord_toRecord ((hmem e he).entities x hx).valid
  have hedges := decodeRows_image Contribution.edges fun e (he : e ∈ contributions) x hx =>
    Edge.ofRecord_toRecord ((hmem e he).edges x hx).valid
  unfold Database.contributions
  dsimp only [holding, require, bind, Except.bind]
  rw [hentities, hedges]
  refine congrArg Except.ok ?_
  dsimp only [Table.image]
  rw [List.filter_map, List.map_map]
  rfl

theorem storedIn_eq {f : String} (hc : contributions.get? f = some c) (hf : c.file = f) :
    storedIn contributions f c.version = c := by
  unfold storedIn
  rw [Table.get?_image, Table.get?_image, hc, ← hf]
  rfl

/-- The contributions that are read from the image, by file, are those of the store. -/
theorem table_holding (hc : contributions.Ordered) (hv : versions.Ordered)
    (hfile : ∀ f c, contributions.get? f = some c → c.file = f)
    (hversion : ∀ f c, contributions.get? f = some c → versions.get? f = some c.version) :
    ((versions.filter fun e => contributions.contains e.1).map fun e =>
      storedIn contributions e.1 e.2).map (fun c => (c.file, c)) = contributions := by
  have himage : ((versions.filter fun e => contributions.contains e.1).map fun e =>
      storedIn contributions e.1 e.2).map (fun c => (c.file, c)) =
      Table.image (storedIn contributions) (versions.filter fun e => contributions.contains e.1) :=
    List.map_map
  rw [himage]
  -- both tables are in order, so it is enough to compare them file by file
  refine ((hv.filter _).image _).ext hc fun f => ?_
  rw [Table.get?_image, Table.get?_filter_keys fun f => contributions.contains f]
  cases hget : contributions.get? f with
  | none =>
    have hnot : contributions.contains f = false := by unfold Table.contains; rw [hget]; rfl
    rw [hnot]; rfl
  | some c =>
    have hin : contributions.contains f = true := by unfold Table.contains; rw [hget]; rfl
    rw [if_pos hin, hversion f c hget, Option.map_some, storedIn_eq hget (hfile f c hget)]

end Database

end ChangeImpact
