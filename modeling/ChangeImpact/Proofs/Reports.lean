import ChangeImpact.Proofs.Schemas
import ChangeImpact.Report.Basic

/-!
# Reports and their schema

Every part of a report writes its own record, and the schema of reports says what each of them looks like.
Here is what a part must satisfy for its record to be accepted. Most parts are accepted as they are; what
is left is asked of entities, edges, impacts and diagnostics.

* `Report.accepts_entity`: **the record of an entity is accepted just if its lines are not negative.**
* `Report.accepts_impact`: the record of an impact whose items have a layer and a chain.
* `Report.validate_build`: **a report obeys the schema just if no entity has a negative line.**
-/

namespace ChangeImpact

open Schema

/-! ## What is asked of the parts -/

/-- The ids of the entities are not empty, and the confidences of the edges are ones. -/
structure Snapshot.Presentable (s : Snapshot) : Prop where
  ids : ∀ e ∈ s.entities, e.id ≠ ""
  confidences : ∀ e ∈ s.edges, Edge.isConfidence e.confidence = true

/-- The item is beyond the changed entities, at the end of a chain of edges. -/
structure ImpactItem.Presentable (i : ImpactItem) : Prop where
  layer : 1 ≤ i.layer
  chain : i.chain ≠ []
  confidences : ∀ e ∈ i.chain, Edge.isConfidence e.confidence = true

/-- A diagnostic is an error or a warning. -/
def Diagnostic.Presentable (d : Diagnostic) : Prop :=
  d.severity = errorSeverity ∨ d.severity = warningSeverity

/-- The lines of an entity are not negative. -/
def Entity.HasLines (e : Entity) : Prop := 0 ≤ e.location.startLine ∧ 0 ≤ e.location.endLine

namespace Report

/-! ## Entities and edges -/

theorem word_mem_dimensionWords (d : Dimension) : d.word ∈ dimensionWords := by
  cases d <;> decide

theorem accepts_edge {e : Edge String} (h : Edge.isConfidence e.confidence = true) :
    Accepts edgeSchema (e.map Value.str).toRecord := by
  have hdimension := word_mem_dimensionWords e.dimension
  have hdirection : e.direction.word ∈ ["forward", "backward"] := by cases e.direction <;> decide
  have hconfidence := accepts_share h
  simp [edgeSchema, Edge.toRecord, Edge.map, accepts_closedObject, accepts_object, List.lookup,
    hdimension, hdirection, hconfidence]

theorem accepts_location {l : Location} :
    Accepts locationSchema l.toRecord ↔ 0 ≤ l.startLine ∧ 0 ≤ l.endLine := by
  simp [locationSchema, Location.toRecord, accepts_object, List.lookup]

theorem accepts_field (f : ShapeField) : Accepts fieldSchema f.toRecord := by
  have hrequired : Accepts [.type [.boolean]] (.bool f.required) := by
    simp [accepts_cons, Rule.Holds, ValueType.holds]
  simp [fieldSchema, ShapeField.toRecord, accepts_object, List.lookup, hrequired]

/-- **The record of an entity is accepted just if its lines are not negative.** Its id must not be
empty. -/
theorem accepts_entity {e : Entity} (h : e.id ≠ "") :
    Accepts entitySchema e.toRecord ↔ e.HasLines := by
  have hid : Accepts [.type [.string], .someText] (.str e.id) := by
    simp [accepts_cons, Rule.Holds, ValueType.holds, h]
  have hkind : e.kind.word ∈ ["Function", "Type", "ApiRoute", "ConfigKey", "Test", "DataSink"] := by
    cases e.kind <;> decide
  have hlayer : Accepts [.type [.string, .null],
      .oneOf [.str "frontend", .str "backend", .str "shared", .null]]
      (.text? (e.layer.map Layer.word)) := by
    rcases e.layer with - | layer
    · simp [Value.text?, accepts_cons, Rule.Holds, ValueType.holds, Value.same]
    · cases layer <;> simp [Value.text?, Layer.word, accepts_cons, Rule.Holds, ValueType.holds, Value.same]
  have hnone : Accepts [.type [.array, .null], .items fieldSchema] .null := by
    simp [accepts_cons, Rule.Holds, ValueType.holds]
  have hsome : ∀ fields : List ShapeField, Accepts [.type [.array, .null], .items fieldSchema]
      (.list (fields.map ShapeField.toRecord)) := by
    intro fields
    have hfields : Accepts (listOf fieldSchema) (.list (fields.map ShapeField.toRecord)) :=
      accepts_listOf.2 fun f _ => accepts_field f
    simpa [listOf, accepts_cons, Rule.Holds, ValueType.holds] using hfields
  rcases hshape : e.shape with - | fields
  · simp [entitySchema, Entity.toRecord, hshape, accepts_object, List.lookup, accepts_location, hid, hkind,
      hlayer, hnone, Entity.HasLines]
  · simp [entitySchema, Entity.toRecord, hshape, accepts_object, List.lookup, accepts_location, hid, hkind,
      hlayer, hsome, Entity.HasLines]

/-- The graph of a report. -/
theorem accepts_graph {s : Snapshot} (h : s.Presentable) :
    Accepts graphSchema (graphRecord s) ↔ ∀ e ∈ s.entities, e.HasLines := by
  have hentities : Accepts (listOf entitySchema) (.list (s.entities.map Entity.toRecord)) ↔
      ∀ e ∈ s.entities, e.HasLines := by
    rw [accepts_listOf]
    exact forall₂_congr fun e he => accepts_entity (h.ids e he)
  have hedges : Accepts (listOf edgeSchema) (.list (s.edges.map fun e => (e.map Value.str).toRecord)) :=
    accepts_listOf.2 fun e he => accepts_edge (h.confidences e he)
  simp [graphSchema, graphRecord, accepts_object, List.lookup, Value.nat, Snapshot.stats, hentities, hedges]

/-! ## Contracts -/

theorem accepts_mismatch (m : Mismatch) : Accepts mismatchSchema m.toRecord := by
  have hkind : m.kind.word ∈ ["MissingField", "ExtraField", "TypeMismatch", "ValidationMismatch",
      "RouteMismatch", "StatusCodeMismatch"] := by cases m.kind <;> decide
  simp [mismatchSchema, Mismatch.toRecord, accepts_object, List.lookup, hkind]

theorem accepts_pair {p : ContractPair} (h : Edge.isConfidence p.confidence = true) :
    Accepts pairSchema p.toRecord := by
  have hsort : p.sort.word ∈ ["route", "shape"] := by cases p.sort <;> decide
  have hbasis : p.basis.word ∈ ["route", "route_path", "mapping", "convention", "name"] := by
    cases p.basis <;> decide
  have hconfidence := accepts_share h
  have hmismatches : Accepts (listOf mismatchSchema) (.list (p.mismatches.map Mismatch.toRecord)) :=
    accepts_listOf.2 fun m _ => accepts_mismatch m
  simp [pairSchema, ContractPair.toRecord, accepts_object, List.lookup, hsort, hbasis, hconfidence,
    hmismatches]

theorem accepts_finding (f : Finding) : Accepts findingSchema f.toRecord := by
  have hseverity : f.severity ∈ ["info", "warn", "error"] := by cases f <;> simp [Finding.severity]
  have hdetails : Accepts mapping f.details := by cases f <;> simp [Finding.details]
  simp [findingSchema, Finding.toRecord, accepts_object, List.lookup, hseverity, hdetails]

theorem accepts_contracts {r : ConsistencyReport}
    (h : ∀ p ∈ r.pairs, Edge.isConfidence p.confidence = true) :
    Accepts contractsSchema (contractsRecord (some r)) := by
  have hpairs : Accepts (listOf pairSchema) (.list (r.pairs.map ContractPair.toRecord)) :=
    accepts_listOf.2 fun p hp => accepts_pair (h p hp)
  have hfindings : Accepts (listOf findingSchema) (.list (r.findings.map Finding.toRecord)) :=
    accepts_listOf.2 fun f _ => accepts_finding f
  simp [contractsSchema, contractsRecord, accepts_object, List.lookup, hpairs, hfindings]

/-! ## Impacts and plans -/

theorem accepts_status (s : Status) : Accepts statusSchema (.str s.word) := by
  have hword : s.word ∈ ["completed", "cancelled"] := by cases s <;> decide
  simp [statusSchema, hword]

theorem accepts_impacted {i : ImpactItem} (h : i.Presentable) :
    Accepts impactedSchema i.toRecord := by
  have hlayer := h.layer
  have hdimension := word_mem_dimensionWords i.dimension
  have hchain : Accepts (listOf edgeSchema) (.list (i.chain.map fun e => (e.map Value.str).toRecord)) :=
    accepts_listOf.2 fun e he => accepts_edge (h.confidences e he)
  have hsome : Accepts [.someItems] (.list (i.chain.map fun e => (e.map Value.str).toRecord)) := by
    simp [accepts_cons, Rule.Holds, h.chain]
  simp [impactedSchema, ImpactItem.toRecord, accepts_object, List.lookup, hlayer, hdimension, hchain, hsome]

/-- The record of an impact whose items have a layer and a chain. -/
theorem accepts_impact {r : ImpactResult} (h : ∀ i ∈ r.impacted, i.Presentable) :
    Accepts impactSchema r.toRecord := by
  have hchanges : Accepts [.type [.object], .values (word ["Added", "Removed", "Modified"])]
      r.changes.toRecord := by
    have hword : ∀ k : ChangeKind, k.word ∈ ["Added", "Removed", "Modified"] := by
      intro k
      cases k <;> decide
    unfold Changes.toRecord Table.toRecord
    rw [accepts_values_record, List.forall_mem_map]
    exact fun e _ => accepts_word.2 (hword e.2)
  have himpacted : Accepts (listOf impactedSchema) (.list (r.impacted.map ImpactItem.toRecord)) :=
    accepts_listOf.2 fun i hi => accepts_impacted (h i hi)
  have hdimensions : Accepts [.type [.object], .values textList]
      (.record (r.byDimension.map fun d => (d.1.word, .texts d.2))) := by
    rw [accepts_values_record, List.forall_mem_map]
    exact fun d _ => accepts_textList d.2
  have hstatus := accepts_status r.status
  simp [impactSchema, ImpactResult.toRecord, accepts_object, List.lookup, hchanges, himpacted,
    hdimensions, hstatus]

theorem accepts_section (s : PlanSection × List PlanStep) :
    Accepts sectionSchema
      (.record [("section", .str s.1.word), ("steps", .list (s.2.map PlanStep.toRecord))]) := by
  have hword : s.1.word ∈ ["Contract", "DataFlow", "Reference", "Test"] := by cases s.1 <;> decide
  have hsteps : Accepts (listOf mapping) (.list (s.2.map PlanStep.toRecord)) :=
    accepts_listOf.2 fun _ _ => accepts_mapping_record
  simp [sectionSchema, accepts_object, List.lookup, hword, hsteps]

theorem accepts_plan (p : ChangePlan) : Accepts planSchema p.toRecord := by
  have hstrategy : p.strategy.word ∈ ["full-sync", "progressive-compatibility", "refactor-flagged"] := by
    cases p.strategy <;> decide
  have hsections : Accepts (listOf sectionSchema) (.list (p.sections.map fun s =>
      .record [("section", .str s.1.word), ("steps", .list (s.2.map PlanStep.toRecord))])) :=
    accepts_listOf.2 fun s _ => accepts_section s
  simp [planSchema, ChangePlan.toRecord, accepts_object, List.lookup, Value.nat, hstrategy, hsections]

/-! ## What scans left open -/

theorem accepts_diagnostic {d : Diagnostic} (h : d.Presentable) :
    Accepts diagnosticSchema d.toRecord := by
  have hseverity : d.severity ∈ ["error", "warning"] := by
    rcases h with h | h
    · simp [h, Diagnostic.errorSeverity]
    · simp [h, Diagnostic.warningSeverity]
  have hnone : Accepts [.type [.integer, .null]] .null := by
    simp [accepts_cons, Rule.Holds, ValueType.holds]
  have hsome : ∀ n, Accepts [.type [.integer, .null]] (.int n) := by
    simp [accepts_cons, Rule.Holds, ValueType.holds]
  rcases hline : d.line with - | n
  · simp [diagnosticSchema, Diagnostic.toRecord, hline, accepts_object, List.lookup, hseverity, hnone]
  · simp [diagnosticSchema, Diagnostic.toRecord, hline, accepts_object, List.lookup, hseverity, hsome]

theorem accepts_gap (g : Gap) : Accepts gapSchema g.toRecord := by
  simp [gapSchema, Gap.toRecord, accepts_object, List.lookup]

/-! ## Whole reports -/

/-- **A report obeys the schema just if no entity has a negative line,** if its parts are presentable. -/
theorem validate_build {s : Snapshot} {consistency : ConsistencyReport} {impacts : List ImpactResult}
    {plans : List ChangePlan} {scan : Outstanding} {status : Status} (hs : s.Presentable)
    (hpairs : ∀ p ∈ consistency.pairs, Edge.isConfidence p.confidence = true)
    (himpacts : ∀ r ∈ impacts, ∀ i ∈ r.impacted, i.Presentable)
    (hscan : ∀ d ∈ scan.diagnostics, d.Presentable) :
    validate (build s (some consistency) impacts plans (some scan) status) = [] ↔
      ∀ e ∈ s.entities, e.HasLines := by
  have hversion : Accepts [.type [.string], .equals (.str reportVersion)] (.str reportVersion) := by
    simp [accepts_cons, Rule.Holds, ValueType.holds, Value.same]
  have hgraph := accepts_graph hs
  have hcontracts := accepts_contracts hpairs
  have himpact : Accepts (listOf impactSchema) (.list (impacts.map ImpactResult.toRecord)) :=
    accepts_listOf.2 fun r hr => accepts_impact (himpacts r hr)
  have hplans : Accepts (listOf planSchema) (.list (plans.map ChangePlan.toRecord)) :=
    accepts_listOf.2 fun p _ => accepts_plan p
  have hdiagnostics : Accepts (listOf diagnosticSchema)
      (.list (scan.diagnostics.map Diagnostic.toRecord)) :=
    accepts_listOf.2 fun d hd => accepts_diagnostic (hscan d hd)
  have hgaps : Accepts (listOf gapSchema) (.list (scan.gaps.map Gap.toRecord)) :=
    accepts_listOf.2 fun g _ => accepts_gap g
  unfold validate
  rw [check_eq_nil_iff]
  simp [schema, build, accepts_closedObject, accepts_object, List.lookup, hversion, accepts_status, hgraph,
    hcontracts, himpact, hplans, hdiagnostics, hgaps]

end Report

end ChangeImpact
