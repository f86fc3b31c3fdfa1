import ChangeImpact.Config.Decode
import ChangeImpact.Proofs.Sides

/-!
# What two shapes disagree about

A comparison takes the fields of the declared side in order and looks each of them up on the other side, where
the last field of a name counts. A second pass finds what only the other side has. When the other side is
declared the two lists change places, and so do the two passes.

* `ofKind_missing`, `ofKind_extra`: **a field that one side lacks** is reported once for each time it stands in
  the shape of the other, in the order of that shape.
* `ofKind_clash`: the fields of one name that disagree, as one list made from the declared shape.
* `between_mirrored`: **what one comparison calls missing the other calls extra**, in the same order, and they
  agree on all else up to the order.
* `between_of_equal_shapes`: **equal shapes agree** unless a field disagrees with a later one of its name.
-/

namespace ChangeImpact

namespace Mismatch

variable {config : Config} {side : Layer} {kind : MismatchKind} {a b : Entity} {f g : ShapeField}
  {m : Mismatch}

/-! ## Kinds -/

/-- The mismatches of a kind, in order. -/
def ofKind (kind : MismatchKind) (ms : List Mismatch) : List Mismatch := ms.filter fun m => m.kind == kind

theorem ofKind_append (ms ns : List Mismatch) : ofKind kind (ms ++ ns) = ofKind kind ms ++ ofKind kind ns :=
  List.filter_append ms ns

theorem ofKind_eq_self {ms : List Mismatch} (h : ∀ m ∈ ms, m.kind = kind) : ofKind kind ms = ms :=
  List.filter_eq_self.2 fun m hm => beq_iff_eq.2 (h m hm)

theorem ofKind_eq_nil {ms : List Mismatch} (h : ∀ m ∈ ms, m.kind ≠ kind) : ofKind kind ms = [] :=
  List.filter_eq_nil_iff.2 fun m hm heq => h m hm (beq_iff_eq.1 heq)

@[simp]
theorem kind_ofFields (side : Layer) (kind : MismatchKind) (name : String) (f g : Option ShapeField) :
    (ofFields side kind name f g).kind = kind := by
  unfold ofFields
  dsimp only
  split <;> rfl

@[simp]
theorem field_ofFields (side : Layer) (kind : MismatchKind) (name : String) (f g : Option ShapeField) :
    (ofFields side kind name f g).field = some name := by
  unfold ofFields
  dsimp only
  split <;> rfl

theorem kind_of_mem_ofStatusCodes (h : m ∈ ofStatusCodes a b) : m.kind = .statusCodeMismatch := by
  unfold ofStatusCodes at h
  dsimp only at h
  split at h
  · cases h
  · obtain ⟨code, -, rfl⟩ := List.mem_map.1 h
    rfl

/-! ## Fields that one side lacks -/

/-- The fields of a shape whose names another shape does not have. -/
def lacked (a b : Entity) : List ShapeField := a.fields.filter fun f => (b.field? f.name).isNone

/-- The mismatches about fields that only the counterpart has. -/
def extras (side : Layer) (declared counterpart : Entity) : List Mismatch :=
  (lacked counterpart declared).map fun f => ofFields side .extraField f.name none (some f)

theorem kind_of_mem_extras (h : m ∈ extras side a b) : m.kind = .extraField := by
  obtain ⟨f, -, rfl⟩ := List.mem_map.1 h
  exact kind_ofFields ..

theorem ofKind_ofShapes (config : Config) (side : Layer) (kind : MismatchKind) (a b : Entity) :
    ofKind kind (ofShapes config side a b) =
      a.fields.flatMap (fun f => ofKind kind (ofField config side b f)) ++ ofKind kind (extras side a b) := by
  unfold ofShapes
  rw [ofKind_append]
  congr 1
  exact List.filter_flatMap

theorem kind_of_mem_ofField (h : m ∈ ofField config side b f) :
    m.kind = .missingField ∨ m.kind = .typeMismatch ∨ m.kind = .validationMismatch := by
  unfold ofField at h
  split at h
  · rw [List.mem_singleton.1 h, kind_ofFields]
    exact .inl rfl
  · rcases List.mem_append.1 h with h | h <;> split at h <;> simp_all

/-- A declared field is missing if it is found nowhere on the other side. -/
theorem ofKind_missing_ofField (config : Config) (side : Layer) (b : Entity) (f : ShapeField) :
    ofKind .missingField (ofField config side b f) =
      if (b.field? f.name).isNone then [ofFields side .missingField f.name (some f) none] else [] := by
  unfold ofField
  cases b.field? f.name with
  | none => exact ofKind_eq_self fun m hm => by rw [List.mem_singleton.1 hm, kind_ofFields]
  | some g =>
    refine ofKind_eq_nil fun m hm => ?_
    rcases List.mem_append.1 hm with hm | hm <;> split at hm <;> simp_all

/-- **The missing fields** are those that the other side lacks. -/
theorem ofKind_missing (config : Config) (side : Layer) (a b : Entity) :
    ofKind .missingField (ofShapes config side a b) =
      (lacked a b).map fun f => ofFields side .missingField f.name (some f) none := by
  have hextras : ofKind .missingField (extras side a b) = [] :=
    ofKind_eq_nil fun m hm => by simp [kind_of_mem_extras hm]
  rw [ofKind_ofShapes, hextras, List.append_nil]
  unfold lacked
  induction a.fields with
  | nil => rfl
  | cons f fs ih =>
    rw [List.flatMap_cons, ih, ofKind_missing_ofField, List.filter_cons]
    split <;> rfl

/-- **The extra fields** are those that the declared side lacks. -/
theorem ofKind_extra (config : Config) (side : Layer) (a b : Entity) :
    ofKind .extraField (ofShapes config side a b) = extras side a b := by
  have hfields : ∀ f ∈ a.fields, ofKind .extraField (ofField config side b f) = [] := fun f _ =>
    ofKind_eq_nil fun m hm => by rcases kind_of_mem_ofField hm with h | h | h <;> simp [h]
  rw [ofKind_ofShapes, List.flatMap_eq_nil_iff.2 hfields, List.nil_append]
  exact ofKind_eq_self fun m hm => kind_of_mem_extras hm

/-- A field that one side lacks is reported from both sides in the order of the shape that has it. -/
theorem ofKind_extra_eq_turned {other : Layer} (h : other = .backend ↔ side ≠ .backend) :
    ofKind .extraField (ofShapes config side a b) =
      (ofKind .missingField (ofShapes config other b a)).map turned := by
  rw [ofKind_extra, ofKind_missing, List.map_map]
  refine List.map_congr_left fun f _ => ?_
  rw [Function.comp_apply, turned_ofFields h]
  rfl

/-! ## Fields that disagree -/

/-- Two fields disagree in the way that a kind of mismatch says. -/
def clashes (config : Config) (f g : ShapeField) : MismatchKind → Bool
  | .typeMismatch => !TypeName.compatible config f.type g.type
  | .validationMismatch => f.required != g.required
  | _ => false

theorem clashes_comm (h : kind = .typeMismatch → config.GroupsApart) (f g : ShapeField) :
    clashes config f g kind = clashes config g f kind := by
  cases kind with
  | typeMismatch => rw [clashes, clashes, TypeName.compatible_comm (h rfl)]
  | validationMismatch => exact bne_comm
  | _ => rfl

/-- What is reported of a field that disagrees with the field of its name on the other side. -/
def clash? (config : Config) (side : Layer) (kind : MismatchKind) (b : Entity) (f : ShapeField) :
    Option Mismatch :=
  (b.field? f.name).bind fun g =>
    if clashes config f g kind then some (ofFields side kind f.name (some f) (some g)) else none

theorem clash?_eq_some_iff : clash? config side kind b f = some m ↔
    ∃ g, b.field? f.name = some g ∧ clashes config f g kind = true ∧
      ofFields side kind f.name (some f) (some g) = m := by
  unfold clash?
  simp only [Option.bind_eq_some_iff, Option.ite_none_right_eq_some, Option.some.injEq]

theorem ofKind_clash_ofField (hkind : kind = .typeMismatch ∨ kind = .validationMismatch)
    (config : Config) (side : Layer) (b : Entity) (f : ShapeField) :
    ofKind kind (ofField config side b f) = (clash? config side kind b f).toList := by
  unfold ofField clash?
  cases b.field? f.name with
  | none =>
    refine ofKind_eq_nil fun m hm => ?_
    rw [List.mem_singleton.1 hm, kind_ofFields]
    rcases hkind with rfl | rfl <;> decide
  | some g =>
    rcases hkind with rfl | rfl <;> cases hcompatible : TypeName.compatible config f.type g.type <;>
      by_cases hrequired : f.required = g.required <;> simp [ofKind, clashes, hcompatible, hrequired]

/-- **The fields of one name that disagree**, in the order of the declared shape. -/
theorem ofKind_clash (hkind : kind = .typeMismatch ∨ kind = .validationMismatch) (config : Config)
    (side : Layer) (a b : Entity) :
    ofKind kind (ofShapes config side a b) = a.fields.filterMap (clash? config side kind b) := by
  have hextras : ofKind kind (extras side a b) = [] := by
    refine ofKind_eq_nil fun m hm => ?_
    rw [kind_of_mem_extras hm]
    rcases hkind with rfl | rfl <;> decide
  rw [ofKind_ofShapes, hextras, List.append_nil, List.filterMap_eq_flatMap_toList]
  exact List.flatMap_congr fun f _ => ofKind_clash_ofField hkind config side b f

/-- Where no name is repeated, no field is reported twice. -/
theorem nodup_clashes (h : (a.fields.map ShapeField.name).Nodup) :
    (a.fields.filterMap (clash? config side kind b)).Nodup := by
  refine List.pairwise_filterMap.2 ((List.pairwise_map.1 h).imp ?_)
  rintro f g hne m hm n hn rfl
  obtain ⟨f', -, -, hf⟩ := clash?_eq_some_iff.1 hm
  obtain ⟨g', -, -, hg⟩ := clash?_eq_some_iff.1 hn
  have hnames := congrArg Mismatch.field (hf.trans hg.symm)
  rw [field_ofFields, field_ofFields] at hnames
  exact hne (Option.some.inj hnames)

theorem ofFields_swap {other : Layer} (h : side = .backend ↔ other ≠ .backend) (kind : MismatchKind)
    (name : String) (f g : Option ShapeField) : ofFields side kind name f g = ofFields other kind name g f := by
  unfold ofFields
  by_cases hside : side = .backend
  · rw [if_pos hside, if_neg (h.1 hside)]
  · rw [if_neg hside, if_pos (not_not.1 (mt h.2 hside))]

/-- A field that disagrees is reported alike from both sides. -/
theorem mem_clashes_of_mem {other : Layer} (h : side = .backend ↔ other ≠ .backend)
    (hgroups : kind = .typeMismatch → config.GroupsApart)
    (ha : (a.fields.map ShapeField.name).Nodup) (hb : (b.fields.map ShapeField.name).Nodup)
    (hm : m ∈ a.fields.filterMap (clash? config side kind b)) :
    m ∈ b.fields.filterMap (clash? config other kind a) := by
  obtain ⟨f, hf, hclash⟩ := List.mem_filterMap.1 hm
  obtain ⟨g, hg, hclashes, rfl⟩ := clash?_eq_some_iff.1 hclash
  obtain ⟨hg, hname⟩ := (Entity.field?_eq_some_iff hb).1 hg
  refine List.mem_filterMap.2 ⟨g, hg, clash?_eq_some_iff.2 ⟨f, ?_, ?_, ?_⟩⟩
  · exact (Entity.field?_eq_some_iff ha).2 ⟨hf, hname.symm⟩
  · rw [clashes_comm hgroups, hclashes]
  · rw [hname, ofFields_swap h]

/-- **The fields that disagree are the same from both sides**, where no name is repeated. -/
theorem ofKind_clash_perm (hkind : kind = .typeMismatch ∨ kind = .validationMismatch)
    (hgroups : kind = .typeMismatch → config.GroupsApart)
    (ha : (a.fields.map ShapeField.name).Nodup) (hb : (b.fields.map ShapeField.name).Nodup) :
    (ofKind kind (ofShapes config .backend b a)).Perm (ofKind kind (ofShapes config .frontend a b)) := by
  rw [ofKind_clash hkind, ofKind_clash hkind]
  -- the two lists follow the orders of different shapes, but they have the same members, each once
  refine (List.perm_ext_iff_of_nodup (nodup_clashes hb) (nodup_clashes ha)).2 fun m => ⟨?_, ?_⟩
  · exact mem_clashes_of_mem (by decide) hgroups hb ha
  · exact mem_clashes_of_mem (by decide) hgroups ha hb

/-! ## Both comparisons -/

/-- Kinds other than status codes come from the shapes. -/
theorem ofKind_between (h : kind ≠ .statusCodeMismatch) (config : Config) (side : Layer) (a b : Entity) :
    ofKind kind (between config side a b) =
      if side = .backend then ofKind kind (ofShapes config side b a)
      else ofKind kind (ofShapes config side a b) := by
  have hcodes : ofKind kind (ofStatusCodes a b) = [] :=
    ofKind_eq_nil fun m hm heq => h (heq.symm.trans (kind_of_mem_ofStatusCodes hm))
  unfold between
  rw [ofKind_append, hcodes, List.append_nil]
  split <;> rfl

theorem ofKind_codes_between (config : Config) (side : Layer) (a b : Entity) :
    ofKind .statusCodeMismatch (between config side a b) = ofStatusCodes a b := by
  have hshapes : ∀ a b, ofKind .statusCodeMismatch (ofShapes config side a b) = [] := by
    intro a b
    rw [ofKind_ofShapes, List.append_eq_nil_iff, List.flatMap_eq_nil_iff]
    refine ⟨fun f _ => ofKind_eq_nil fun m hm => ?_, ofKind_eq_nil fun m hm => ?_⟩
    · rcases kind_of_mem_ofField hm with h | h | h <;> simp [h]
    · simp [kind_of_mem_extras hm]
  unfold between
  rw [ofKind_append, ofKind_eq_self fun m hm => kind_of_mem_ofStatusCodes hm]
  split <;> rw [hshapes, List.nil_append]

/-- **Which side is declared exchanges missing and extra fields and nothing else.** Whatever the two
entities are, the extra fields of one comparison are the missing fields of the other, in the same order and
with the same texts for both sides, and the mismatches about status codes are the same. If no name is
repeated in a shape, so are those about types and about what is required, up to the order; for types the
names of groups must be apart, as the keys of a mapping are. -/
theorem between_mirrored (config : Config) (a b : Entity) :
    ofKind .extraField (between config .backend a b) =
      (ofKind .missingField (between config .frontend a b)).map turned ∧
    ofKind .missingField (between config .backend a b) =
      (ofKind .extraField (between config .frontend a b)).map turned ∧
    ofKind .statusCodeMismatch (between config .backend a b) =
      ofKind .statusCodeMismatch (between config .frontend a b) ∧
    ((a.fields.map ShapeField.name).Nodup → (b.fields.map ShapeField.name).Nodup →
      (ofKind .validationMismatch (between config .backend a b)).Perm
        (ofKind .validationMismatch (between config .frontend a b)) ∧
      (config.GroupsApart → (ofKind .typeMismatch (between config .backend a b)).Perm
        (ofKind .typeMismatch (between config .frontend a b)))) := by
  refine ⟨?_, ?_, ?_, fun ha hb => ⟨?_, fun hgroups => ?_⟩⟩
  · rw [ofKind_between (by decide), ofKind_between (by decide), if_pos rfl, if_neg (by decide)]
    exact ofKind_extra_eq_turned (by decide)
  · have hextras : ofKind .extraField (ofShapes config .frontend a b) =
        (ofKind .missingField (ofShapes config .backend b a)).map turned :=
      ofKind_extra_eq_turned (by decide)
    rw [ofKind_between (by decide), ofKind_between (by decide), if_pos rfl, if_neg (by decide), hextras,
      List.map_map, Function.comp_def]
    simp only [turned_turned, List.map_id']
  · rw [ofKind_codes_between, ofKind_codes_between]
  · rw [ofKind_between (by decide), ofKind_between (by decide), if_pos rfl, if_neg (by decide)]
    exact ofKind_clash_perm (.inr rfl) (nofun) ha hb
  · rw [ofKind_between (by decide), ofKind_between (by decide), if_pos rfl, if_neg (by decide)]
    exact ofKind_clash_perm (.inl rfl) (fun _ => hgroups) ha hb

/-- A type of one side with some fields. -/
def typeWith (id : String) (layer : Layer) (fields : List ShapeField) : Entity :=
  { Entity.bare id with kind := .type, layer := some layer, shape := some fields }

/-- The frontend of an order, with a note that nobody else has. -/
def webOrder : Entity := typeWith "web.Order" .frontend
  [{ name := "note", type := "string" }, { name := "total", type := "string" },
    { name := "paid", type := "int", required := false }]

/-- The backend of the order, in another order and with a tax. -/
def apiOrder : Entity := typeWith "api.Order" .backend
  [{ name := "paid", type := "str" }, { name := "tax", type := "int" }, { name := "total", type := "int" }]

/-- The types of two fields differ, which the two sides report in different orders. -/
theorem between_mirrored_order :
    (webOrder.fields.map ShapeField.name).Nodup ∧ (apiOrder.fields.map ShapeField.name).Nodup ∧
    ChangePlan.typedConfig.GroupsApart ∧
    (ofKind .typeMismatch (between ChangePlan.typedConfig .backend webOrder apiOrder)).map Mismatch.field =
      [some "paid", some "total"] ∧
    (ofKind .typeMismatch (between ChangePlan.typedConfig .frontend webOrder apiOrder)).map Mismatch.field =
      [some "total", some "paid"] ∧
    (ofKind .typeMismatch (between ChangePlan.typedConfig .backend webOrder apiOrder)).Perm
      (ofKind .typeMismatch (between ChangePlan.typedConfig .frontend webOrder apiOrder)) := by
  have hweb : (webOrder.fields.map ShapeField.name).Nodup := by decide
  have hapi : (apiOrder.fields.map ShapeField.name).Nodup := by decide
  have hgroups : ChangePlan.typedConfig.GroupsApart := by
    unfold Config.GroupsApart Config.Apart
    decide
  refine ⟨hweb, hapi, hgroups, by decide +kernel, by decide +kernel, ?_⟩
  exact ((between_mirrored ChangePlan.typedConfig webOrder apiOrder).2.2.2 hweb hapi).2 hgroups

/-! ## Equal shapes -/

theorem compatible_self (config : Config) (name : String) : TypeName.compatible config name name = true := by
  unfold TypeName.compatible TypeName.agree
  rw [beq_self_eq_true, Bool.true_or]

/-- The field that a name leads to is the last one of that name. -/
theorem field?_eq_some_iff_append {e : Entity} {name : String} : e.field? name = some g ↔
    g.name = name ∧ ∃ before after, e.fields = before ++ g :: after ∧ ∀ f ∈ after, f.name ≠ name := by
  unfold Entity.field?
  rw [List.find?_eq_some_iff_append, beq_iff_eq]
  -- the lookup goes through the fields from the last one
  refine and_congr_right fun _ => ⟨?_, ?_⟩
  · rintro ⟨after, before, hfields, hafter⟩
    refine ⟨before.reverse, after.reverse, ?_, fun f hf => ?_⟩
    · rw [← List.reverse_reverse e.fields, hfields]
      simp
    · simpa using hafter f (List.mem_reverse.1 hf)
  · rintro ⟨before, after, hfields, hafter⟩
    refine ⟨after.reverse, before.reverse, ?_, fun f hf => ?_⟩
    · rw [hfields]
      simp
    · simpa using hafter f (List.mem_reverse.1 hf)

theorem exists_field? (h : f ∈ a.fields) : ∃ g, a.field? f.name = some g := by
  refine Option.ne_none_iff_exists'.1 fun hnone => ?_
  exact Entity.field?_eq_none_iff.1 hnone f h rfl

theorem ofField_eq_nil_iff : ofField config side b f = [] ↔
    ∃ g, b.field? f.name = some g ∧ TypeName.compatible config f.type g.type = true ∧
      f.required = g.required := by
  unfold ofField
  cases b.field? f.name with
  | none => simp
  | some g => simp

theorem ofStatusCodes_eq_nil (h : statusCodes a = statusCodes b) : ofStatusCodes a b = [] := by
  unfold ofStatusCodes
  dsimp only
  split
  · rfl
  · rw [List.map_eq_nil_iff, List.filter_eq_nil_iff, h]
    simp

/-- Every field agrees with the last one of its name, in its type and in whether it is required. -/
def AgreesWithLast (config : Config) (fields : List ShapeField) : Prop :=
  ∀ before g after, fields = before ++ g :: after → (∀ h ∈ after, h.name ≠ g.name) →
    ∀ f ∈ before, f.name = g.name →
      TypeName.compatible config f.type g.type = true ∧ f.required = g.required

theorem agreesWithLast_iff : AgreesWithLast config a.fields ↔
    ∀ f ∈ a.fields, ofField config side a f = [] := by
  simp only [ofField_eq_nil_iff]
  constructor
  · intro hlast f hf
    obtain ⟨g, hg⟩ := exists_field? hf
    obtain ⟨hname, before, after, hfields, hafter⟩ := field?_eq_some_iff_append.1 hg
    refine ⟨g, hg, ?_⟩
    -- the field stands before the last one of its name, or it is that one
    rw [hfields, List.mem_append, List.mem_cons] at hf
    rcases hf with hf | rfl | hf
    · exact hlast before g after hfields (hname ▸ hafter) f hf hname.symm
    · exact ⟨compatible_self config f.type, rfl⟩
    · exact absurd rfl (hafter f hf)
  · intro hall before g after hfields hafter f hf hname
    have hlast : a.field? f.name = some g :=
      field?_eq_some_iff_append.2 ⟨hname.symm, before, after, hfields, hname ▸ hafter⟩
    obtain ⟨h, hh, hagree⟩ := hall f (hfields ▸ List.mem_append_left _ hf)
    rw [hlast] at hh
    rwa [← Option.some.inj hh] at hagree

/-- Where no name is repeated, there is nothing to agree with. -/
theorem agreesWithLast_of_nodup {fields : List ShapeField} (h : (fields.map ShapeField.name).Nodup) :
    AgreesWithLast config fields := by
  rintro before g after rfl - f hf hname
  rw [List.map_append, List.nodup_append] at h
  exact absurd hname (h.2.2 f.name (List.mem_map_of_mem hf) g.name (by simp))

theorem field?_congr (h : a.fields = b.fields) : a.field? = b.field? := by
  funext name
  unfold Entity.field?
  rw [h]

theorem ofShapes_eq_nil_iff (h : a.fields = b.fields) :
    ofShapes config side a b = [] ↔ AgreesWithLast config a.fields := by
  -- every field is found under its name, so none is extra or missing
  have hextras : extras side a b = [] := by
    refine List.map_eq_nil_iff.2 (List.filter_eq_nil_iff.2 fun f hf => ?_)
    obtain ⟨g, hg⟩ := exists_field? (h ▸ hf : f ∈ a.fields)
    rw [hg]
    simp
  have hfields : ofField config side b = ofField config side a := by
    funext f
    unfold ofField
    rw [field?_congr h]
  have hsplit : ofShapes config side a b = a.fields.flatMap (ofField config side b) ++ extras side a b := rfl
  rw [hsplit, hextras, List.append_nil, List.flatMap_eq_nil_iff, hfields, ← agreesWithLast_iff]

/-- **Equal shapes agree unless a field disagrees with a later one of its name.** Whichever side is declared,
two entities with the same fields and the same status codes have no mismatch just if every field agrees with
the last one of its name, and so in any case if no name is repeated. -/
theorem between_of_equal_shapes (config : Config) (side : Layer) (hfields : a.fields = b.fields)
    (hcodes : statusCodes a = statusCodes b) :
    (between config side a b = [] ↔ AgreesWithLast config a.fields) ∧
      ((a.fields.map ShapeField.name).Nodup → between config side a b = []) := by
  have hiff : between config side a b = [] ↔ AgreesWithLast config a.fields := by
    unfold between
    rw [ofStatusCodes_eq_nil hcodes, List.append_nil]
    split
    · rw [ofShapes_eq_nil_iff hfields.symm, hfields]
    · exact ofShapes_eq_nil_iff hfields
  exact ⟨hiff, fun hnodup => hiff.2 (agreesWithLast_of_nodup hnodup)⟩

/-- A shape that has one of its fields twice, the second time with an optional type. -/
def twiceNamed : List ShapeField :=
  [{ name := "id", type := "string" }, { name := "at", type := "Date" }, { name := "id", type := "str | null" }]

/-- The two entries for one name agree, so nothing is reported. -/
theorem between_twiceNamed : ¬ (twiceNamed.map ShapeField.name).Nodup ∧
    between Config.default .backend (typeWith "web.Item" .frontend twiceNamed)
      (typeWith "api.Item" .backend twiceNamed) = [] := by
  have hlast : ∀ f ∈ twiceNamed,
      ofField Config.default .backend (typeWith "web.Item" .frontend twiceNamed) f = [] := by
    decide +kernel
  exact ⟨by decide, (between_of_equal_shapes _ _ rfl rfl).1.2 (agreesWithLast_iff.2 hlast)⟩

/-- A shape that has one of its fields twice, as a text and as a number. -/
def twoMinds : List ShapeField := [{ name := "id", type := "string" }, { name := "id", type := "number" }]

/-- A shape can disagree with itself: its first field is compared with the last one of the same name. -/
theorem equal_shapes_mismatch : twoMinds.mapM (fun f => ShapeField.ofRecord f.toRecord) = .ok twoMinds ∧
    between Config.default .frontend (typeWith "web.Item" .frontend twoMinds)
      (typeWith "api.Item" .backend twoMinds) =
        [⟨.typeMismatch, some "id", some "id: string (required)", some "id: number (required)"⟩] := by
  refine ⟨by rfl, ?_⟩
  decide +kernel

end Mismatch

end ChangeImpact
