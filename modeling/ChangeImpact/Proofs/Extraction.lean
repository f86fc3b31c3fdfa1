import ChangeImpact.Extract.ConfigKeys
import ChangeImpact.Proofs.Records
import ChangeImpact.Proofs.Reports
import ChangeImpact.Proofs.Scanning

/-!
# What the bundled extractors find

A manifest decodes its entries with the decoders of entities and edges, and a configuration file has an
entity for each leaf, whose id begins with the path of the file. So whatever the files contain, what is
found in them is valid and can be presented: entities have ids, edges have confidences, and diagnostics are
errors or warnings about the file.

* `Manifest.valid_of_extract`, `ConfigKeys.valid_of_extract`: **the results of one extractor.**
* `Registry.valid_of_bundled`: **the results of the bundled extractors**, with any patterns.
* `Registry.Presents.extract`: the results of all extractors for a file, as one.
-/

namespace ChangeImpact

/-- What was found in a file can be presented. -/
structure ScanResult.Presentable (r : ScanResult) : Prop where
  ids : ∀ e ∈ r.entities, e.id ≠ ""
  confidences : ∀ e ∈ r.edges, Edge.isConfidence e.confidence = true
  diagnostics : ∀ d ∈ r.diagnostics, d.Presentable

/-- A diagnostic that can be presented and names the file it is about. -/
structure Diagnostic.Names (path : String) (d : Diagnostic) : Prop where
  presentable : d.Presentable
  file : d.file = path

/-- What was found in a file is valid, and what is said about the file names it. -/
structure ScanResult.Valid (path : String) (r : ScanResult) : Prop where
  entities : ∀ e ∈ r.entities, e.Valid
  edges : ∀ e ∈ r.edges, e.Valid
  diagnostics : ∀ d ∈ r.diagnostics, d.Names path

theorem ScanResult.Valid.ofDiagnostic {path : String} {d : Diagnostic} (h : d.Names path) :
    (ScanResult.ofDiagnostic d).Valid path where
  entities := List.forall_mem_nil _
  edges := List.forall_mem_nil _
  diagnostics := fun _ hd => List.mem_singleton.1 hd ▸ h

theorem ScanResult.Valid.presentable {path : String} {r : ScanResult} (h : r.Valid path) :
    r.Presentable where
  ids e he := (h.entities e he).id
  confidences e he := (h.edges e he).confidence
  diagnostics d hd := (h.diagnostics d hd).presentable

/-! ## Manifests -/

namespace Manifest

theorem shapeOf_eq_ok {name : String} {v : Value} {shape : Option (List ShapeField)}
    (h : shapeOf name v = .ok shape) : ∀ f ∈ shape.getD [], f.name ≠ "" := by
  unfold shapeOf at h
  split at h
  · rw [← Except.ok.inj h]
    exact List.forall_mem_nil _
  · rw [bind_eq_ok] at h
    obtain ⟨fields, hfields, h⟩ := h
    rw [← Except.ok.inj h]
    intro f hf
    obtain ⟨item, -, hitem⟩ := (mem_of_mapM_eq_ok hfields f).1 hf
    exact ShapeField.name_ne_empty_of_ofRecord hitem
  · cases h

/-- The entity of an entry is valid: whatever the entry leaves out, the last step is that of every
decoder. -/
theorem valid_of_entityOf {document : Entries} {path : String} {v : Value} {e : Entity}
    (h : entityOf document path v = .ok e) : e.Valid := by
  unfold entityOf at h
  split at h
  · dsimp only at h
    split at h
    · cases h
    simp only [bind_eq_ok] at h
    obtain ⟨kind, -, name, -, file, -, lines, -, metadata, -, shape, hshape, h⟩ := h
    -- the id is the canonical one or the entry's own
    split at h
    all_goals
      simp only [bind_eq_ok] at h
      obtain ⟨id, -, language, -, first, -, last, -, h⟩ := h
      exact Entity.valid_of_ofDraft (shapeOf_eq_ok hshape) h
  · cases h

theorem valid_of_edgeOf {ids : LocalIds} {v : Value} {e : Edge Value} (h : edgeOf ids v = .ok e) :
    e.Valid := by
  unfold edgeOf at h
  split at h
  · simp only [bind_eq_ok] at h
    obtain ⟨entry, -, resolved, -, h⟩ := h
    exact Edge.valid_of_ofRecord h
  · cases h

/-- What is listed was decoded, and the warnings are warnings. -/
theorem decodeAll_eq_ok {α : Type} {path what : String} {decode : Value → Except Fault α}
    {vs : List Value} : ∀ {index : Nat} {found : List α × List Diagnostic},
      decodeAll path what decode index vs = .ok found →
      (∀ a ∈ found.1, ∃ v ∈ vs, decode v = .ok a) ∧ ∀ d ∈ found.2, d.Names path := by
  induction vs with
  | nil =>
    intro index found h
    rw [← Except.ok.inj h]
    exact ⟨List.forall_mem_nil _, List.forall_mem_nil _⟩
  | cons v vs ih =>
    intro index found h
    rw [decodeAll] at h
    have hlater : ∀ {more : List α}, (∀ a ∈ more, ∃ w ∈ vs, decode w = .ok a) →
        ∀ a ∈ more, ∃ w ∈ v :: vs, decode w = .ok a := by
      intro more hmore a ha
      obtain ⟨w, hw, hdecode⟩ := hmore a ha
      exact ⟨w, List.mem_cons_of_mem _ hw, hdecode⟩
    split at h
    · rename_i a ha
      rw [bind_eq_ok] at h
      obtain ⟨⟨more, diagnostics⟩, hrest, h⟩ := h
      obtain ⟨hmore, hdiagnostics⟩ := ih hrest
      rw [← Except.ok.inj h]
      exact ⟨List.forall_mem_cons.2 ⟨⟨v, List.mem_cons_self, ha⟩, hlater hmore⟩, hdiagnostics⟩
    · dsimp only at h
      split at h
      · cases h
      rw [bind_eq_ok] at h
      obtain ⟨⟨more, diagnostics⟩, hrest, h⟩ := h
      obtain ⟨hmore, hdiagnostics⟩ := ih hrest
      rw [← Except.ok.inj h]
      exact ⟨hlater hmore, List.forall_mem_cons.2 ⟨⟨.inr rfl, rfl⟩, hdiagnostics⟩⟩

theorem names_sectionOf (document : Entries) (path name : String) :
    ∀ d ∈ (sectionOf document path name).2, d.Names path := by
  unfold sectionOf
  split
  · exact List.forall_mem_nil _
  · exact List.forall_mem_singleton.2 ⟨.inl rfl, rfl⟩

theorem valid_ofDocument {path : String} {document : Entries} {r : ScanResult}
    (h : ofDocument path document = .ok r) : r.Valid path := by
  unfold ofDocument at h
  simp only [bind_eq_ok] at h
  obtain ⟨⟨entities, entityWarnings⟩, hentities, ⟨edges, edgeWarnings⟩, hedges, h⟩ := h
  obtain ⟨hentity, hentityWarnings⟩ := decodeAll_eq_ok hentities
  obtain ⟨hedge, hedgeWarnings⟩ := decodeAll_eq_ok hedges
  rw [← Except.ok.inj h]
  refine ⟨fun e he => ?_, fun e he => ?_, ?_⟩
  · obtain ⟨v, -, hv⟩ := hentity e he
    exact valid_of_entityOf hv
  · obtain ⟨v, -, hv⟩ := hedge e he
    exact valid_of_edgeOf hv
  · simp only [List.forall_mem_append]
    exact ⟨⟨⟨names_sectionOf document path "entities", hentityWarnings⟩,
      names_sectionOf document path "edges"⟩, hedgeWarnings⟩

/-- **What is found in a manifest is valid.** -/
theorem valid_of_extract {content path : String} {r : ScanResult} (h : extract content path = .ok r) :
    r.Valid path := by
  unfold extract at h
  split at h
  · rw [bind_eq_ok] at h
    obtain ⟨⟨words, line⟩, -, h⟩ := h
    rw [← Except.ok.inj h]
    exact .ofDiagnostic ⟨.inl rfl, rfl⟩
  · split at h
    · exact valid_ofDocument h
    · rw [← Except.ok.inj h]
      exact .ofDiagnostic ⟨.inl rfl, rfl⟩

end Manifest

/-! ## Configuration files -/

namespace ConfigKeys

open Yaml (Node)

theorem entityId_ne_empty (file : String) (kind : EntityKind) (name : String) :
    entityId file kind name ≠ "" := by
  simp [entityId, String.append_eq_empty_iff]

/-- A leaf without a name, below a key that is empty, is named by its id. -/
theorem valid_leaf (file : String) (keys : List String) (key value : Node) :
    (leaf file keys key value).Valid where
  id := entityId_ne_empty _ _ _
  name := by
    unfold leaf
    dsimp only
    split
    · exact entityId_ne_empty _ _ _
    · rename_i hname
      simpa using hname
  shaped := nofun
  fields := List.forall_mem_nil _

/-- The leaves that are found below a value, and the warnings. -/
structure Found (file : String) (found : List Entity × List Diagnostic) : Prop where
  valid : ∀ e ∈ found.1, e.Valid
  diagnostics : ∀ d ∈ found.2, d.Names file

theorem found_leaf (file : String) (keys : List String) (key value : Node) :
    Found file ([leaf file keys key value], []) where
  valid := List.forall_mem_singleton.2 (valid_leaf file keys key value)
  diagnostics := List.forall_mem_nil _

mutual

theorem found_leaves {file : String} (keys : List String) (key : Node) :
    (value : Node) → ∀ {found}, leaves file keys key value = .ok found → Found file found
  | .mapping info entries, found, h => by
    rw [leaves] at h
    split at h
    · exact Except.ok.inj h ▸ found_leaf file keys key (.mapping info entries)
    · exact found_entriesLeaves keys entries h
  | .around .., found, h => by cases h
  | .scalar info text, found, h => Except.ok.inj h ▸ found_leaf file keys key (.scalar info text)
  | .sequence info items, found, h => Except.ok.inj h ▸ found_leaf file keys key (.sequence info items)
termination_by structural value => value

theorem found_entryLeaves {file : String} (keys : List String) :
    (entry : Node × Node) → ∀ {found}, entryLeaves file keys entry = .ok found → Found file found
  | (key, value), found, h => by
    cases key with
    | scalar info text => exact found_leaves _ _ value h
    | _ =>
      rw [← Except.ok.inj h]
      exact ⟨List.forall_mem_nil _, List.forall_mem_singleton.2 ⟨.inr rfl, rfl⟩⟩
termination_by structural entry => entry

theorem found_entriesLeaves {file : String} (keys : List String) :
    (entries : List (Node × Node)) → ∀ {found}, entriesLeaves file keys entries = .ok found → Found file found
  | [], found, h => by
    rw [← Except.ok.inj h]
    exact ⟨List.forall_mem_nil _, List.forall_mem_nil _⟩
  | e :: es, found, h => by
    rw [entriesLeaves] at h
    simp only [bind_eq_ok] at h
    obtain ⟨own, hown, more, hmore, h⟩ := h
    have hfirst := found_entryLeaves keys e hown
    have hrest := found_entriesLeaves keys es hmore
    rw [← Except.ok.inj h]
    exact ⟨List.forall_mem_append.2 ⟨hfirst.valid, hrest.valid⟩,
      List.forall_mem_append.2 ⟨hfirst.diagnostics, hrest.diagnostics⟩⟩
termination_by structural entries => entries

end

/-- **What is found in a configuration file is valid.** -/
theorem valid_of_extract {content path : String} {r : ScanResult} (h : extract content path = .ok r) :
    r.Valid path := by
  unfold extract at h
  split at h
  · rw [bind_eq_ok] at h
    obtain ⟨⟨words, line⟩, -, h⟩ := h
    rw [← Except.ok.inj h]
    exact .ofDiagnostic ⟨.inl rfl, rfl⟩
  · rw [← Except.ok.inj h]
    exact ⟨List.forall_mem_nil _, List.forall_mem_nil _, List.forall_mem_nil _⟩
  · rw [bind_eq_ok] at h
    obtain ⟨⟨entities, diagnostics⟩, hfound, h⟩ := h
    obtain ⟨hvalid, hdiagnostics⟩ := found_entriesLeaves [] _ hfound
    rw [← Except.ok.inj h]
    exact ⟨hvalid, List.forall_mem_nil _, hdiagnostics⟩
  · rw [← Except.ok.inj h]
    exact .ofDiagnostic ⟨.inl rfl, rfl⟩

end ConfigKeys

/-! ## Registries -/

/-- What the extractor returns can be presented. -/
def Extractor.Presents (x : Extractor) : Prop :=
  ∀ content path r, x.extract content path = .ok (.result r) → r.Presentable

/-- All registered extractors return what can be presented. -/
def Registry.Presents (registry : Registry) : Prop := ∀ x ∈ registry.extractors, x.Presents

/-- What an extractor that reads texts finds, it finds in some text. -/
theorem Extractor.exists_text {x : Extractor} {find : String → String → Except Fault ScanResult}
    (hx : x.extract = fun content path => do return .result (← find (← textOf content) path))
    {content : Value} {path : String} {r : ScanResult} (h : x.extract content path = .ok (.result r)) :
    ∃ text, find text path = .ok r := by
  simp only [hx, bind_eq_ok] at h
  obtain ⟨text, -, found, hfound, h⟩ := h
  cases h
  exact ⟨text, hfound⟩

/-- What the bundled extractors find is valid. -/
theorem Manifest.valid_of_extractor {content : Value} {path : String} {r : ScanResult}
    (h : Manifest.extractor.extract content path = .ok (.result r)) : r.Valid path := by
  obtain ⟨text, htext⟩ := Extractor.exists_text rfl h
  exact valid_of_extract htext

theorem ConfigKeys.valid_of_extractor {content : Value} {path : String} {r : ScanResult}
    (h : ConfigKeys.extractor.extract content path = .ok (.result r)) : r.Valid path := by
  obtain ⟨text, htext⟩ := Extractor.exists_text rfl h
  exact valid_of_extract htext

/-- A failure of an extractor is an error. -/
theorem Extractor.Presents.run {x : Extractor} (h : x.Presents) (content : Value) (path : String) :
    (x.run content path).Presentable := by
  unfold Extractor.run
  split
  · exact (ScanResult.Valid.ofDiagnostic ⟨.inl rfl, rfl⟩).presentable
  · exact (ScanResult.Valid.ofDiagnostic ⟨.inl rfl, rfl⟩).presentable
  · rename_i r hr
    obtain ⟨hids, hconfidences, hdiagnostics⟩ := h content path r hr
    exact ⟨hids, hconfidences, hdiagnostics⟩

theorem ScanResult.Presentable.combine {file : String} {results : List ScanResult} {r : ScanResult}
    (hresults : ∀ q ∈ results, q.Presentable) (h : ScanResult.combine file results = .ok r) :
    r.Presentable := by
  unfold ScanResult.combine at h
  dsimp only at h
  rw [bind_eq_ok] at h
  obtain ⟨-, -, h⟩ := h
  rw [← Except.ok.inj h]
  refine ⟨fun e he => ?_, fun e he => ?_, fun d hd => ?_⟩
  · obtain ⟨q, hq, he⟩ := List.mem_flatMap.1 (mem_of_mem_keepFirst he)
    exact (hresults q hq).ids e he
  · obtain ⟨q, hq, he⟩ := List.mem_flatMap.1 (mem_of_mem_keepFirst he)
    exact (hresults q hq).confidences e he
  · obtain ⟨q, hq, hd⟩ := List.mem_flatMap.1 hd
    exact (hresults q hq).diagnostics d hd

namespace Registry

variable {registry : Registry}

theorem mem_extractors_of_extractorsFor {path : String} {x : Extractor}
    (hx : x ∈ registry.extractorsFor path) : x ∈ registry.extractors :=
  (List.mergeSort_perm registry.extractors _).mem_iff.1 (List.mem_of_mem_filter hx)

/-- **What is found in a file can be presented,** if that holds for each extractor. -/
theorem Presents.extract (h : registry.Presents) {content : Value} {path : String} {r : ScanResult}
    (hr : registry.extract content path = .ok (some r)) : r.Presentable := by
  have hfor : ∀ x ∈ registry.extractorsFor path, (x.run content path).Presentable :=
    fun x hx => (h x (mem_extractors_of_extractorsFor hx)).run content path
  unfold Registry.extract at hr
  split at hr
  · cases hr
  · rename_i x hone
    cases hr
    exact hfor x (hone ▸ List.mem_singleton_self x)
  · rw [bind_eq_ok] at hr
    obtain ⟨q, hq, hr⟩ := hr
    cases hr
    exact .combine (List.forall_mem_map.2 hfor) hq

/-- **The bundled extractors find what is valid,** whatever files they are made to look at. -/
theorem valid_of_bundled {patterns : List (String × List String)} {x : Extractor}
    (hx : x ∈ (bundled patterns).extractors) {content : Value} {path : String} {r : ScanResult}
    (h : x.extract content path = .ok (.result r)) : r.Valid path := by
  -- the names differ, so both are registered, with patterns that matter to no extraction
  rcases List.mem_cons.1 hx with rfl | hx
  · exact Manifest.valid_of_extractor h
  · obtain rfl := List.mem_singleton.1 hx
    exact ConfigKeys.valid_of_extractor h

/-- The bundled extractors find what can be presented. -/
theorem presents_bundled (patterns : List (String × List String)) : (bundled patterns).Presents :=
  fun _ hx _ _ _ h => (valid_of_bundled hx h).presentable

end Registry

end ChangeImpact
