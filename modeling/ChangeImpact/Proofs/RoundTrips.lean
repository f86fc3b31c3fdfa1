import ChangeImpact.Proofs.Extraction
import ChangeImpact.Proofs.Reordering

/-!
# Records come back

A decoder takes many records for one entity: names and types that are no texts, fields under other names,
values that are missing or vacant. What it makes of them is written as one record, and decoding that record
must change nothing any more.

* `RoundTrips`: what is written as a record decodes to an equal one.
* `Entity.Valid.roundTrips`, `Edge.Valid.roundTrips`: so it is for valid entities and edges.
* `records_round_trip`: **whatever a decoder or a manifest makes of its input, its record decodes to it.**
-/

namespace ChangeImpact

/-- The record of `a` is accepted and decodes to `a` itself, which is equal to itself by value. The latter
is no matter of course where a value may be no number. -/
def RoundTrips {α : Type} (encode : α → Value) (decode : Value → Except Fault α) (same : α → α → Bool)
    (a : α) : Prop :=
  decode (encode a) = .ok a ∧ same a a = true

namespace ShapeField

/-- A field with a name comes back. -/
theorem roundTrips {f : ShapeField} (h : f.name ≠ "") : RoundTrips toRecord ofRecord (· == ·) f :=
  ⟨ofRecord_toRecord h, beq_self_eq_true f⟩

end ShapeField

namespace Entity

theorem same_self (e : Entity) : e.same e = true := by
  simp [same, Value.same_self]

/-- A valid entity comes back. -/
theorem Valid.roundTrips {e : Entity} (h : e.Valid) : RoundTrips toRecord ofRecord same e :=
  ⟨ofRecord_toRecord h, e.same_self⟩

end Entity

namespace Edge

/-- Equality by value of edges whose ends are values. -/
def equal (a b : Edge Value) : Bool :=
  a.source.same b.source && a.target.same b.target && a.dimension == b.dimension &&
    a.direction == b.direction && a.confidence.same b.confidence

theorem equal_self (e : Edge Value) : e.equal e = true := by
  simp [equal, Value.same_self, Binary64.same]

/-- A valid edge comes back. -/
theorem Valid.roundTrips {e : Edge Value} (h : e.Valid) : RoundTrips toRecord ofRecord equal e :=
  ⟨ofRecord_toRecord h, e.equal_self⟩

end Edge

/-- All entities and edges of a result come back. -/
structure ScanResult.RoundTrips (r : ScanResult) : Prop where
  entities : ∀ e ∈ r.entities, ChangeImpact.RoundTrips Entity.toRecord Entity.ofRecord Entity.same e
  edges : ∀ e ∈ r.edges, ChangeImpact.RoundTrips Edge.toRecord Edge.ofRecord Edge.equal e

theorem ScanResult.Valid.roundTrips {path : String} {r : ScanResult} (h : r.Valid path) :
    r.RoundTrips where
  entities e he := (h.entities e he).roundTrips
  edges e he := (h.edges e he).roundTrips

/-- **Records come back.** Whatever record a decoder of fields, entities or edges accepts, the record of the
result decodes to the result. The same holds for all that is found in the mapping of a manifest, and so in
its text. -/
theorem records_round_trip :
    (∀ v f, ShapeField.ofRecord v = .ok f →
      RoundTrips ShapeField.toRecord ShapeField.ofRecord (· == ·) f) ∧
    (∀ v e, Entity.ofRecord v = .ok e → RoundTrips Entity.toRecord Entity.ofRecord Entity.same e) ∧
    (∀ v e, Edge.ofRecord v = .ok e → RoundTrips Edge.toRecord Edge.ofRecord Edge.equal e) ∧
    (∀ path document r, Manifest.ofDocument path document = .ok r → r.RoundTrips) ∧
    ∀ content path r, Manifest.extract content path = .ok r → r.RoundTrips := by
  refine ⟨fun v f h => ?_, fun v e h => ?_, fun v e h => ?_, fun path document r h => ?_,
    fun content path r h => ?_⟩
  · exact ShapeField.roundTrips (ShapeField.name_ne_empty_of_ofRecord h)
  · exact (Entity.valid_of_ofRecord h).roundTrips
  · exact (Edge.valid_of_ofRecord h).roundTrips
  · exact (Manifest.valid_ofDocument h).roundTrips
  · exact (Manifest.valid_of_extract h).roundTrips

/-- A field whose name is a truth value and whose type is under its other name and null. -/
def looseField : Value :=
  .record [("name", .bool true), ("field_type", .null), ("required", .str "")]

/-- A type without a name, with lines as texts, a file beside its location, and metadata that are no
number. -/
def looseEntity : Value :=
  .record [("id", .str "api.Order"), ("kind", .str "Type"), ("file", .null),
    ("location", .record [("start_line", .str " 12 "), ("end_line", .list [])]),
    ("layer", .str "backend"), ("shape", .list [looseField]),
    ("metadata", .map [(.null, .float .nan)])]

/-- An edge with its ends under their other names, and a confidence that is a text. -/
def looseEdge : Value :=
  .record [("source", .str "Order"), ("target", .float .one), ("dimension", .str "Reference"),
    ("confidence", .str "1.0")]

/-- A manifest with an entity that is named by its id, and an edge from it by that name. -/
def looseManifest : Entries :=
  [(.str "layer", .str "backend"), (.str "entities", .list [.record [("id", .str "Order"),
      ("kind", .str "Type"), ("lines", .list [.str "3", .bool true]), ("shape", .list [looseField]),
      ("metadata", .list [.pair (.null) (.float .nan)]), ("path", .list [])]]),
    (.str "edges", .list [.record [("from", .str "Order"), ("to", .float .one),
      ("dimension", .str "Config"), ("confidence", .bool false)]])]

theorem records_round_trip_loose : ∃ field entity edge found,
    ShapeField.ofRecord looseField = .ok field ∧
    RoundTrips ShapeField.toRecord ShapeField.ofRecord (· == ·) field ∧
    Entity.ofRecord looseEntity = .ok entity ∧
    (entity.name, entity.location, entity.shape) =
      ("api.Order", ⟨"None", 12, 0⟩, some [⟨"True", "None", false, ""⟩]) ∧
    RoundTrips Entity.toRecord Entity.ofRecord Entity.same entity ∧
    Edge.ofRecord looseEdge = .ok edge ∧ RoundTrips Edge.toRecord Edge.ofRecord Edge.equal edge ∧
    Manifest.ofDocument "web.impact.yml" looseManifest = .ok found ∧
    found.entities.map Entity.id = ["Order"] ∧ found.edges.length = 1 ∧ found.RoundTrips := by
  obtain ⟨hfields, hentities, hedges, hmanifests, -⟩ := records_round_trip
  have hparts : (Entity.ofRecord looseEntity).map (fun e => (e.name, e.location, e.shape)) =
      .ok ("api.Order", ⟨"None", 12, 0⟩, some [⟨"True", "None", false, ""⟩]) := by decide +kernel
  obtain ⟨entity, hentity, hparts⟩ := map_eq_ok.1 hparts
  have hfound : (Manifest.ofDocument "web.impact.yml" looseManifest).map
      (fun r => (r.entities.map Entity.id, r.edges.length)) = .ok (["Order"], 1) := by decide +kernel
  obtain ⟨found, hmanifest, hfound⟩ := map_eq_ok.1 hfound
  obtain ⟨hids, hlength⟩ := Prod.mk.inj hfound
  have hfield : ShapeField.ofRecord looseField = .ok ⟨"True", "None", false, ""⟩ := rfl
  obtain ⟨edge, hedge⟩ := exists_of_isOk (show (Edge.ofRecord looseEdge).isOk = true by decide +kernel)
  exact ⟨_, entity, edge, found, hfield, hfields _ _ hfield, hentity, hparts, hentities _ _ hentity, hedge,
    hedges _ _ hedge, hmanifest, hids, hlength, hmanifests _ _ _ hmanifest⟩

end ChangeImpact
