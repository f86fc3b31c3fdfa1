import ChangeImpact.Proofs.Documents
import ChangeImpact.Edge

/-!
# Records of entities and edges

An entity and an edge are written as records and decoded from records. What a decoder accepts is valid:
an entity has an id, a name and fields with names, and only types and routes have a shape; an edge has
two ends and a confidence between zero and one, which is one for a reference.

* `Value.text_ne_empty`: only vacant values have an empty text, so the names of decoded fields are not
  empty.
* `Entity.valid_of_ofRecord`, `Edge.valid_of_ofRecord`: what every decoded entity and edge satisfies.
* `Entity.ofRecord_toRecord`, `Edge.ofRecord_toRecord`: **decoding undoes writing** for valid entities
  and edges.
-/

namespace ChangeImpact

/-! ## Texts of values -/

theorem ofList_ne_empty {cs : List Char} (h : cs ≠ []) : String.ofList cs ≠ "" := by simpa using h

theorem intText_ne_empty (n : Int) : intText n ≠ "" := by
  unfold intText natText natDigits
  split
  · simp
  · exact ofList_ne_empty Nat.toDigits_ne_nil

namespace Binary64

theorem layout_ne_nil (digits : List Char) (lead : Int) : layout digits lead ≠ [] := by
  unfold layout exponentText
  dsimp only
  split_ifs <;> simp

theorem text_ne_empty (x : Binary64) : x.text ≠ "" := by
  cases x with
  | nan => decide
  | infinite s => cases s <;> decide
  | finite s m e =>
    unfold text
    refine ofList_ne_empty ?_
    split_ifs with hs hm
    · simp
    · simp
    · simp
    · exact layout_ne_nil _ _

end Binary64

namespace Value

variable {v : Value}

/-- No literal is empty, if none that stands for a value around it is. -/
theorem literalIn_ne_empty : ∀ (v : Value) (around : Open), (∀ o ∈ around, o.2 ≠ "") →
    literalIn around v ≠ ""
  | .null, _, _ => by simp [literalIn]
  | .bool b, _, _ => by cases b <;> simp [literalIn]
  | .int n, _, _ => intText_ne_empty n
  | .float x, _, _ => x.text_ne_empty
  | .str s, _, _ => ofList_ne_empty (by simp [Text.quoted])
  | .list items, _, _ => by simp [literalIn]
  | .pair a b, _, _ => by simp [literalIn]
  | .map entries, _, _ => by simp [literalIn]
  | .set items, _, _ => by unfold literalIn; split <;> simp
  | .bytes data, _, _ => ofList_ne_empty (by simp [Text.quotedBytes])
  | .date d, _, _ => by unfold literalIn Date.literal; simp
  | .datetime t, _, _ => by unfold literalIn DateTime.literal; simp
  | .named label content, around, h => by
    unfold literalIn
    split
    · rename_i text ht
      obtain ⟨o, ho, rfl⟩ := Option.map_eq_some_iff.1 ht
      exact h o (List.mem_of_find?_eq_some ho)
    · -- inside the content the label stands for dots
      refine literalIn_ne_empty content _ (List.forall_mem_cons.2 ⟨?_, h⟩)
      unfold dots
      split <;> simp
  | .again label, around, h => by
    unfold literalIn
    cases ht : Open.get? around label with
    | none => simp
    | some text =>
      obtain ⟨o, ho, rfl⟩ := Option.map_eq_some_iff.1 ht
      exact h o (List.mem_of_find?_eq_some ho)
termination_by structural v => v

/-- Only a vacant value has an empty text. -/
theorem text_ne_empty (h : v.isVacant = false) : v.text ≠ "" := by
  unfold text
  split
  · unfold isVacant at h
    simpa using h
  · simp [Date.text]
  · simp [DateTime.textWith]
  · exact literalIn_ne_empty _ [] fun _ h => by cases h

theorem ne_empty_of_toText {s : String} (h : v.isVacant = false) (ht : v.toText = .ok s) : s ≠ "" := by
  unfold toText at ht
  split at ht
  · rw [← Except.ok.inj ht]
    exact text_ne_empty h
  · cases ht

theorem isVacant_str {s : String} (h : s ≠ "") : (Value.str s).isVacant = false := by
  unfold isVacant; simpa using h

end Value

/-! ## Fields -/

namespace ShapeField

variable {f : ShapeField}

/-- A decoded field has a name. -/
theorem name_ne_empty_of_ofRecord {v : Value} (h : ofRecord v = .ok f) : f.name ≠ "" := by
  unfold ofRecord at h
  split at h
  · rename_i entries _
    dsimp only at h
    split at h
    · exact absurd h (bind_ne_ok fun _ => nofun)
    · rename_i hvacant
      rw [bind_eq_ok] at h
      obtain ⟨name, hname, h⟩ := h
      rw [bind_eq_ok] at h
      obtain ⟨type, -, h⟩ := h
      rw [bind_eq_ok] at h
      obtain ⟨source, -, h⟩ := h
      rw [← Except.ok.inj h]
      exact Value.ne_empty_of_toText (Bool.not_eq_true _ ▸ hvacant) hname
  · exact absurd h (bind_ne_ok fun _ => nofun)

/-- A field record decodes to its field. -/
theorem ofRecord_toRecord (h : f.name ≠ "") : ofRecord f.toRecord = .ok f := by
  obtain ⟨name, type, required, source⟩ := f
  have hname : (Entries.lookup [(.str "name", .str name), (.str "type", .str type),
      (.str "required", .bool required), (.str "source", .str source)] "name").isVacant = false :=
    Value.isVacant_str h
  unfold ofRecord toRecord Value.record
  dsimp only [Value.unfold, List.map]
  rw [hname]
  cases required <;> rfl

end ShapeField

/-! ## Entities -/

namespace Entity

variable {e : Entity} {record : Entries}

/-- What every decoded entity satisfies. -/
structure Valid (e : Entity) : Prop where
  id : e.id ≠ ""
  name : e.name ≠ ""
  shaped : e.shape.isSome = true → e.kind.mayHaveShape = true
  fields : ∀ f ∈ e.fields, f.name ≠ ""

theorem valid_of_ofDraft {d : Draft} (hfields : ∀ f ∈ d.shape.getD [], f.name ≠ "")
    (h : ofDraft d = .ok e) : e.Valid := by
  unfold ofDraft at h
  dsimp only at h
  split at h
  · rename_i s _
    split at h
    · cases h
    rename_i hs
    rw [bind_eq_ok] at h
    obtain ⟨id, hid, h⟩ := h
    obtain rfl := Except.ok.inj hid
    rw [bind_eq_ok] at h
    obtain ⟨kind, -, h⟩ := h
    rw [bind_eq_ok] at h
    obtain ⟨layer, -, h⟩ := h
    split at h
    · cases h
    rename_i hshape
    obtain rfl := Except.ok.inj h
    have hid : s ≠ "" := by simpa using hs
    refine ⟨hid, ?_, ?_, hfields⟩
    · dsimp only
      split
      · exact hid
      · rename_i hname
        simpa using hname
    · intro hsome
      simpa [hsome] using hshape
  · exact absurd h (bind_ne_ok fun _ => nofun)

theorem shapeOf_eq_ok {id v : Value} {shape : Option (List ShapeField)} (h : shapeOf id v = .ok shape) :
    ∀ f ∈ shape.getD [], f.name ≠ "" := by
  unfold shapeOf at h
  split at h
  · rw [← Except.ok.inj h]
    exact fun _ hf => by cases hf
  · rename_i items _
    rw [bind_eq_ok] at h
    obtain ⟨fields, hfields, h⟩ := h
    rw [← Except.ok.inj h]
    intro f hf
    obtain ⟨item, -, hitem⟩ := (mem_of_mapM_eq_ok hfields f).1 hf
    exact ShapeField.name_ne_empty_of_ofRecord hitem
  · exact absurd h (bind_ne_ok fun _ => nofun)

/-- A decoded entity is valid. -/
theorem valid_of_ofRecord {v : Value} (h : ofRecord v = .ok e) : e.Valid := by
  unfold ofRecord at h
  split at h
  · dsimp only at h
    split at h
    · rw [bind_eq_ok] at h
      obtain ⟨ends, -, h⟩ := h
      rw [bind_eq_ok] at h
      obtain ⟨location, -, h⟩ := h
      rw [bind_eq_ok] at h
      obtain ⟨shape, hshape, h⟩ := h
      rw [bind_eq_ok] at h
      obtain ⟨metadata, -, h⟩ := h
      rw [bind_eq_ok] at h
      obtain ⟨language, -, h⟩ := h
      rw [bind_eq_ok] at h
      obtain ⟨name, -, h⟩ := h
      exact valid_of_ofDraft (shapeOf_eq_ok hshape) h
    · exact absurd h (bind_ne_ok fun _ => nofun)
  · cases h

theorem kindOf_word (k : EntityKind) : kindOf (.str k.word) = .ok k := by cases k <;> rfl

theorem layerOf_text? (layer : Option Layer) :
    layerOf (.text? (layer.map Layer.word)) = .ok layer := by
  cases layer with
  | none => rfl
  | some l => cases l <;> rfl

theorem lineOf_int (n : Int) : lineOf (.int n) = .ok n := by
  unfold lineOf Value.isVacant
  by_cases h : n = 0
  · rw [h]; rfl
  · rw [if_neg (by simpa using h)]; rfl

theorem locationOf_eq {l : Location} (h : Entries.lookup record "location" = l.toRecord) :
    locationOf record = .ok l := by
  unfold locationOf
  rw [h]
  -- the lookups in the record of a location compute
  change (do
    let startLine ← lineOf (.int l.startLine)
    let endLine ← lineOf (.int l.endLine)
    return (⟨l.file, startLine, endLine⟩ : Location)) = .ok l
  rw [lineOf_int, lineOf_int]
  rfl

theorem metadataOf_map (id : Value) (metadata : Entries) :
    metadataOf id (.map metadata) = .ok metadata := by cases metadata <;> rfl

theorem shapeOf_fields (id : Value) {fields : List ShapeField} (h : ∀ f ∈ fields, f.name ≠ "") :
    shapeOf id (.list (fields.map ShapeField.toRecord)) = .ok (some fields) := by
  unfold shapeOf
  dsimp only [Value.unfold]
  rw [mapM_map_eq_ok fun f hf => ShapeField.ofRecord_toRecord (h f hf)]
  rfl

/-- Decoding a record whose parts are known. -/
theorem ofRecord_map {id kind : Value} {location : Location} {shape : Option (List ShapeField)}
    {metadata : Entries} {language name : String}
    (hid : Entries.lookup? record "id" = some id) (hkind : Entries.lookup? record "kind" = some kind)
    (hlocation : locationOf record = .ok location)
    (hshape : shapeOf id (Entries.lookup record "shape") = .ok shape)
    (hmetadata : metadataOf id (Entries.lookup record "metadata") = .ok metadata)
    (hlanguage : (Entries.lookupD record "language" (.str "unknown")).toText = .ok language)
    (hname : (Entries.lookupD record "name" (.str "")).toText = .ok name) :
    ofRecord (.map record) =
      ofDraft ⟨id, kind, language, location, name, Entries.lookup record "layer", shape, metadata⟩ := by
  unfold ofRecord
  dsimp only [Value.unfold]
  rw [hid, hkind, hlocation]
  dsimp only [bind, Except.bind]
  rw [hshape]
  dsimp only
  rw [hmetadata]
  dsimp only
  rw [hlanguage]
  dsimp only
  rw [hname]

theorem ofDraft_eq (h : e.Valid) :
    ofDraft ⟨.str e.id, .str e.kind.word, e.language, e.location, e.name,
      .text? (e.layer.map Layer.word), e.shape, e.metadata⟩ = .ok e := by
  have hid : e.id.isEmpty = false := by simpa using h.id
  have hname : e.name.isEmpty = false := by simpa using h.name
  have hshape : (e.shape.isSome && !e.kind.mayHaveShape) = false := by
    cases hs : e.shape.isSome with
    | false => rfl
    | true => rw [h.shaped hs]; rfl
  unfold ofDraft
  dsimp only
  rw [hid, kindOf_word, layerOf_text?, hname]
  dsimp only [bind, Except.bind]
  rw [hshape]
  rfl

/-- **An entity record decodes to its entity.** -/
theorem ofRecord_toRecord (h : e.Valid) : ofRecord e.toRecord = .ok e := by
  have hmetadata := metadataOf_map (.str e.id) e.metadata
  unfold toRecord Value.record
  split
  · rename_i fields hs
    have hfields : ∀ f ∈ fields, f.name ≠ "" := by
      have := h.fields
      unfold Entity.fields at this
      rw [hs] at this
      exact this
    have hshape := shapeOf_fields (.str e.id) hfields
    rw [ofRecord_map rfl rfl (locationOf_eq rfl) hshape hmetadata rfl rfl, ← hs]
    exact ofDraft_eq h
  · rename_i hs
    have hshape : shapeOf (.str e.id) .null = .ok none := rfl
    rw [ofRecord_map rfl rfl (locationOf_eq rfl) hshape hmetadata rfl rfl, ← hs]
    exact ofDraft_eq h

end Entity

/-! ## Edges -/

namespace Edge

variable {e : Edge Value}

/-- What every decoded edge satisfies. -/
structure Valid (e : Edge Value) : Prop where
  source : e.source.isVacant = false
  target : e.target.isVacant = false
  confidence : isConfidence e.confidence = true
  reference : e.dimension = .reference → e.confidence = .one

theorem valid_of_ofParts {source target dimension direction confidence : Value}
    (h : ofParts source target dimension direction confidence = .ok e) : e.Valid := by
  unfold ofParts at h
  dsimp only at h
  split at h
  · exact absurd h (bind_ne_ok fun _ => bind_ne_ok fun _ => nofun)
  rename_i hends
  rw [bind_eq_ok] at h
  obtain ⟨dim, -, h⟩ := h
  rw [bind_eq_ok] at h
  obtain ⟨dir, -, h⟩ := h
  rw [bind_eq_ok] at h
  obtain ⟨c, -, h⟩ := h
  split at h
  · exact absurd h (bind_ne_ok fun _ => bind_ne_ok fun _ => nofun)
  rename_i hrange
  split at h
  · exact absurd h (bind_ne_ok fun _ => bind_ne_ok fun _ => nofun)
  rename_i hreference
  obtain rfl := Except.ok.inj h
  rw [Bool.or_eq_true, not_or, Bool.not_eq_true, Bool.not_eq_true] at hends
  refine ⟨hends.1, hends.2, by simpa using hrange, ?_⟩
  intro hd
  simpa [show dim = .reference from hd] using hreference

/-- A decoded edge is valid. -/
theorem valid_of_ofRecord {v : Value} (h : ofRecord v = .ok e) : e.Valid := by
  unfold ofRecord at h
  split at h
  · split at h
    · exact absurd h (bind_ne_ok fun _ => nofun)
    · exact valid_of_ofParts h
  · cases h

theorem dimensionOf_word (d : Dimension) : dimensionOf (.str d.word) = .ok d := by cases d <;> rfl

theorem directionOf_word (d : Direction) : directionOf (.str d.word) = .ok d := by cases d <;> rfl

theorem ofParts_eq (h : e.Valid) :
    ofParts e.source e.target (.str e.dimension.word) (.str e.direction.word) (.float e.confidence) =
      .ok e := by
  have hreference : (e.dimension == .reference && e.confidence != .one) = false := by
    by_cases hd : e.dimension = .reference
    · rw [h.reference hd]; simp
    · simp [hd]
  have hconfidence : confidenceOf (.float e.confidence) = .ok e.confidence := rfl
  unfold ofParts
  rw [h.source, h.target, dimensionOf_word, directionOf_word, hconfidence]
  dsimp only [bind, Except.bind]
  rw [h.confidence, hreference]
  rfl

/-- **An edge record decodes to its edge.** -/
theorem ofRecord_toRecord (h : e.Valid) : ofRecord e.toRecord = .ok e := ofParts_eq h

end Edge

end ChangeImpact
