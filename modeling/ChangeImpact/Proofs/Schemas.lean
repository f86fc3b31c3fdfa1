import ChangeImpact.Edge
import ChangeImpact.Proofs.Order
import ChangeImpact.Proofs.Table
import ChangeImpact.Report.Schema

/-!
# What a schema accepts

A schema is checked by listing violations with their places. Here is what its rules say of a value, without
any places, and what follows for the values that reports are made of: texts, words, numbers, lists and
records.

* `Rule.Holds`, `Schema.Accepts`: **the meaning of rules and schemas.**
* `Schema.check_eq_nil_iff`: **a value passes the check just if it is accepted.**
* `Schema.accepts_share`: a confidence is a number between zero and one, by exact comparison.
* `Schema.accepts_object`, `Schema.accepts_closedObject`: which records an object schema accepts.
-/

namespace ChangeImpact

open Schema

/-! ## Numbers -/

namespace Binary64

theorem one_eq : one = .finite false (2 ^ 52) (-52) := by decide +kernel

/-- Brought to one exponent, two dyadic numbers are what they were. -/
theorem align_scaled (m e n f : Int) :
    ((align m e n f).1 : ℚ) * 2 ^ min e f = m * 2 ^ e ∧
      ((align m e n f).2 : ℚ) * 2 ^ min e f = n * 2 ^ f := by
  have hshift : ∀ {a b : Int}, a ≤ b → (2 : ℚ) ^ (b - a).toNat * 2 ^ a = 2 ^ b := by
    intro a b hab
    rw [← zpow_natCast, Int.toNat_of_nonneg (by omega), ← zpow_add₀ two_ne_zero, sub_add_cancel]
  unfold align
  split
  · rename_i hle
    rw [min_eq_left hle]
    refine ⟨rfl, ?_⟩
    rw [Int.pow_eq, Int.cast_mul, Int.cast_pow, Int.cast_two, mul_assoc, hshift hle]
  · rename_i hle
    rw [min_eq_right (by omega)]
    refine ⟨?_, rfl⟩
    rw [Int.pow_eq, Int.cast_mul, Int.cast_pow, Int.cast_two, mul_assoc, hshift (by omega)]

/-- Positions stand to each other as the numbers at them do. -/
theorem Position.compare_at (m e n f : Int) :
    (Position.at m e).compare (.at n f) = Ord.compare ((m : ℚ) * 2 ^ e) ((n : ℚ) * 2 ^ f) := by
  obtain ⟨hleft, hright⟩ := align_scaled m e n f
  have hpos : (0 : ℚ) < 2 ^ min e f := zpow_pos two_pos _
  have hmono : StrictMono fun a : Int => (a : ℚ) * 2 ^ min e f :=
    fun a b hab => mul_lt_mul_of_pos_right (Int.cast_lt.2 hab) hpos
  rw [← hleft, ← hright, ← cmp_eq_compare]
  change Ord.compare (align m e n f).1 (align m e n f).2 = _
  rw [← cmp_eq_compare]
  exact (hmono.cmp_map_eq _ _).symm

theorem le_finite {s t : Bool} {m n : Nat} {e f : Int} : le (.finite s m e) (.finite t n f) = true ↔
    (signed s m : ℚ) * 2 ^ e ≤ (signed t n : ℚ) * 2 ^ f := by
  unfold le compare?
  simp only [position?, Position.compare_at]
  rw [← compare_le_iff_le]
  cases Ord.compare ((signed s m : ℚ) * 2 ^ e) ((signed t n : ℚ) * 2 ^ f) <;> simp

/-- A number between zero and one is finite, and that by its value. -/
theorem exists_of_isConfidence {x : Binary64} (h : Edge.isConfidence x = true) :
    ∃ s m e, x = .finite s m e ∧ 0 ≤ (signed s m : ℚ) * 2 ^ e ∧ (signed s m : ℚ) * 2 ^ e ≤ 1 := by
  obtain ⟨hzero, hone⟩ := Bool.and_eq_true_iff.1 h
  rw [one_eq] at hone
  cases x with
  | nan => cases hzero
  | infinite negative =>
    cases negative with
    | false => cases hone
    | true => cases hzero
  | finite s m e =>
    rw [zero, le_finite] at hzero
    rw [le_finite] at hone
    refine ⟨s, m, e, rfl, by simpa [signed] using hzero, hone.trans_eq ?_⟩
    norm_num [signed]

end Binary64

/-! ## Rules -/

/-- What a rule says of a value; a rule on values of another type says nothing. -/
def Rule.Holds : Rule → Value → Prop
  | .type types, v => ∃ t ∈ types, t.holds v = true
  | .oneOf options, v => ∃ x ∈ options, v.same x = true
  | .equals value, v => value.same v = true
  | .atLeast bound, v => stands v bound .lt = false
  | .atMost bound, v => stands v bound .gt = false
  | .someText, v => v ≠ .str ""
  | .someItems, v => v ≠ .list []
  | .fields rules, v => ∀ entries, v = .map entries → ∀ f ∈ rules, ∀ x,
      Entries.lookup? entries f.1 = some x → ∀ r ∈ f.2, r.Holds x
  | .required names, v => ∀ entries, v = .map entries → ∀ n ∈ names, Entries.hasName entries n = true
  | .only names, v => ∀ entries, v = .map entries → ∀ e ∈ entries, e.1.text ∈ names
  | .values rules, v => ∀ entries, v = .map entries → ∀ e ∈ entries, ∀ r ∈ rules, r.Holds e.2
  | .items rules, v => ∀ vs, v = .list vs → ∀ x ∈ vs, ∀ r ∈ rules, r.Holds x
termination_by r => sizeOf r
decreasing_by
  · rename_i hf _ hr
    have hfields := List.sizeOf_lt_of_mem hf
    have hrule := List.sizeOf_lt_of_mem hr
    cases f
    simp only [Prod.mk.sizeOf_spec, fields.sizeOf_spec] at hfields hrule ⊢
    omega
  · rename_i hr
    have hrule := List.sizeOf_lt_of_mem hr
    simp only [values.sizeOf_spec]
    omega
  · rename_i hr
    have hrule := List.sizeOf_lt_of_mem hr
    simp only [items.sizeOf_spec]
    omega

namespace Schema

/-- A value obeys all rules of a schema. -/
def Accepts (schema : Schema) (v : Value) : Prop := ∀ r ∈ schema, r.Holds v

@[simp] theorem reportIf_eq_nil {broken : Bool} {path : List String} {message : String} :
    reportIf broken path message = [] ↔ broken = false := by
  unfold reportIf
  cases broken <;> simp

theorem otherNames_eq_nil {names : List String} {entries : Entries} :
    otherNames names entries = [] ↔ ∀ e ∈ entries, e.1.text ∈ names := by
  unfold otherNames
  rw [List.eq_nil_iff_forall_not_mem]
  simp only [(sortTexts_perm _).mem_iff, List.mem_filter, List.mem_map]
  constructor
  · intro h e he
    by_contra hname
    exact h e.1.text ⟨⟨e, he, rfl⟩, by simpa using hname⟩
  · rintro h _ ⟨⟨e, he, rfl⟩, hname⟩
    simp [h e he] at hname

theorem forall_mem_zipIdx {P : Value → Prop} (vs : List Value) :
    (∀ x ∈ vs.zipIdx, P x.1) ↔ ∀ v ∈ vs, P v := by
  conv_rhs => rw [← List.zipIdx_map_fst 0 vs]
  rw [List.forall_mem_map]

mutual

-- The recursion is that of the check. A rule that nests is about values of one type, so the values of other
-- types, on which it says nothing, are split off first.

/-- **A rule is not violated just if it holds,** at whatever place. -/
theorem ruleViolations_eq_nil_iff (path : List String) :
    (r : Rule) → (v : Value) → (ruleViolations path r v = [] ↔ r.Holds v)
  | .type types, v => by simp [ruleViolations, Rule.Holds]
  | .oneOf options, v => by simp [ruleViolations, Rule.Holds]
  | .equals value, v => by simp [ruleViolations, Rule.Holds]
  | .atLeast bound, v => by simp [ruleViolations, Rule.Holds]
  | .atMost bound, v => by simp [ruleViolations, Rule.Holds]
  | .someText, v => by
    rcases em (∃ s, v = .str s) with ⟨s, rfl⟩ | hv
    · simp [ruleViolations, Rule.Holds]
    · simp [ruleViolations, Rule.Holds, not_exists.1 hv]
  | .someItems, v => by
    rcases em (∃ vs, v = .list vs) with ⟨vs, rfl⟩ | hv
    · simp [ruleViolations, Rule.Holds]
    · simp [ruleViolations, Rule.Holds, not_exists.1 hv]
  | .fields rules, v => by
    rcases em (∃ entries, v = .map entries) with ⟨entries, rfl⟩ | hv
    · have hfields := fieldsViolations_eq_nil_iff path rules entries
      simpa [ruleViolations, Rule.Holds] using hfields
    · simp [ruleViolations, Rule.Holds, not_exists.1 hv]
  | .required names, v => by
    rcases em (∃ entries, v = .map entries) with ⟨entries, rfl⟩ | hv
    · simp [ruleViolations, Rule.Holds]
    · simp [ruleViolations, Rule.Holds, not_exists.1 hv]
  | .only names, v => by
    rcases em (∃ entries, v = .map entries) with ⟨entries, rfl⟩ | hv
    · simp [ruleViolations, Rule.Holds, otherNames_eq_nil]
    · simp [ruleViolations, Rule.Holds, not_exists.1 hv]
  | .values rules, v => by
    rcases em (∃ entries, v = .map entries) with ⟨entries, rfl⟩ | hv
    · have hentry : ∀ e : Value × Value, violations (path ++ [e.1.text]) rules e.2 = [] ↔
          ∀ r ∈ rules, r.Holds e.2 := fun e => violations_eq_nil_iff (path ++ [e.1.text]) rules e.2
      simp [ruleViolations, Rule.Holds, hentry]
    · simp [ruleViolations, Rule.Holds, not_exists.1 hv]
  | .items rules, v => by
    rcases em (∃ vs, v = .list vs) with ⟨vs, rfl⟩ | hv
    · have hitem : ∀ x : Value × Nat, violations (path ++ [natText x.2]) rules x.1 = [] ↔
          ∀ r ∈ rules, r.Holds x.1 := fun x => violations_eq_nil_iff (path ++ [natText x.2]) rules x.1
      simp only [ruleViolations, Rule.Holds, List.flatMap_eq_nil_iff, hitem, Value.list.injEq,
        forall_eq']
      exact forall_mem_zipIdx (P := fun x => ∀ r ∈ rules, r.Holds x) vs
    · simp [ruleViolations, Rule.Holds, not_exists.1 hv]
termination_by structural r => r

theorem violations_eq_nil_iff (path : List String) :
    (rules : List Rule) → (v : Value) → (violations path rules v = [] ↔ ∀ r ∈ rules, r.Holds v)
  | [], v => by simp [violations]
  | r :: rs, v => by
    rw [violations, List.append_eq_nil_iff, ruleViolations_eq_nil_iff path r v,
      violations_eq_nil_iff path rs v, List.forall_mem_cons]
termination_by structural rs => rs

theorem fieldViolations_eq_nil_iff (path : List String) :
    (f : String × List Rule) → (entries : Entries) → (fieldViolations path f entries = [] ↔
      ∀ x, Entries.lookup? entries f.1 = some x → ∀ r ∈ f.2, r.Holds x)
  | (name, rules), entries => by
    rw [fieldViolations]
    cases Entries.lookup? entries name with
    | none => simp
    | some x => simpa using violations_eq_nil_iff (path ++ [name]) rules x
termination_by structural f => f

theorem fieldsViolations_eq_nil_iff (path : List String) :
    (fs : List (String × List Rule)) → (entries : Entries) → (fieldsViolations path fs entries = [] ↔
      ∀ f ∈ fs, ∀ x, Entries.lookup? entries f.1 = some x → ∀ r ∈ f.2, r.Holds x)
  | [], entries => by simp [fieldsViolations]
  | f :: fs, entries => by
    rw [fieldsViolations, List.append_eq_nil_iff, fieldViolations_eq_nil_iff path f entries,
      fieldsViolations_eq_nil_iff path fs entries, List.forall_mem_cons]
termination_by structural fs => fs

end

/-- **A value passes the check just if it is accepted.** -/
theorem check_eq_nil_iff {schema : Schema} {v : Value} : schema.check v = [] ↔ schema.Accepts v := by
  have hperm := sortByRank_perm Violation.path (violations [] schema v)
  unfold check Accepts
  rw [List.map_eq_nil_iff, ← violations_eq_nil_iff [] schema v]
  constructor
  · intro h
    rw [h] at hperm
    exact hperm.symm.eq_nil
  · intro h
    rw [h] at hperm ⊢
    exact hperm.eq_nil

/-! ## Schemas -/

section Accepts

variable {a b : Schema} {v : Value}

@[simp] theorem accepts_nil : Accepts [] v := fun _ h => by cases h

theorem accepts_cons {r : Rule} : Accepts (r :: a) v ↔ r.Holds v ∧ Accepts a v :=
  List.forall_mem_cons

@[simp] theorem accepts_append : Accepts (a ++ b) v ↔ Accepts a v ∧ Accepts b v :=
  List.forall_mem_append

@[simp] theorem accepts_text (s : String) : Accepts text (.str s) := by
  simp [text, accepts_cons, Rule.Holds, ValueType.holds]

@[simp] theorem accepts_text? (s : Option String) : Accepts text? (.text? s) := by
  cases s <;> simp [text?, Value.text?, accepts_cons, Rule.Holds, ValueType.holds]

/-- A list is accepted just if its items are. -/
theorem accepts_listOf {α : Type} {f : α → Value} {xs : List α} :
    Accepts (listOf a) (.list (xs.map f)) ↔ ∀ x ∈ xs, Accepts a (f x) := by
  simp [listOf, Rule.Holds, ValueType.holds, Accepts]

@[simp] theorem accepts_textList (xs : List String) : Accepts textList (.texts xs) := by
  have hitems : Accepts (listOf text) (.texts xs) := accepts_listOf.2 fun x _ => accepts_text x
  exact hitems

@[simp] theorem accepts_word {words : List String} {s : String} :
    Accepts (word words) (.str s) ↔ s ∈ words := by
  simp [word, accepts_cons, Rule.Holds, ValueType.holds, Value.same]

@[simp] theorem accepts_count {bound n : Int} : Accepts (count bound) (.int n) ↔ bound ≤ n := by
  simp [count, accepts_cons, Rule.Holds, ValueType.holds, stands, Value.numeric?, Value.Numeric.compare?,
    Int.compare_eq_lt]

@[simp] theorem accepts_mapping (entries : Entries) : Accepts mapping (.map entries) := by
  simp [mapping, accepts_cons, Rule.Holds, ValueType.holds]

theorem stands_finite {s : Bool} {m : Nat} {e bound : Int} {way : Ordering} :
    stands (.float (.finite s m e)) bound way = true ↔
      Ord.compare ((Binary64.signed s m : ℚ) * 2 ^ e) bound = way := by
  simp [stands, Value.numeric?, Value.Numeric.compare?, Binary64.position?, Binary64.Position.ofInt,
    Binary64.Position.compare_at]

/-- A confidence is a share. -/
theorem accepts_share {x : Binary64} (h : Edge.isConfidence x = true) : Accepts share (.float x) := by
  obtain ⟨s, m, e, rfl, hzero, hone⟩ := Binary64.exists_of_isConfidence h
  have hleast : stands (.float (.finite s m e)) 0 .lt = false := by
    rw [← Bool.not_eq_true, stands_finite, compare_lt_iff_lt, Int.cast_zero]
    exact not_lt.2 hzero
  have hmost : stands (.float (.finite s m e)) 1 .gt = false := by
    rw [← Bool.not_eq_true, stands_finite, compare_gt_iff_gt, Int.cast_one]
    exact not_lt.2 hone
  simp [share, accepts_cons, Rule.Holds, ValueType.holds, hleast, hmost]

/-! ## Records -/

theorem lookup?_record (entries : List (String × Value)) (name : String) :
    Entries.lookup? (entries.map fun f => (.str f.1, f.2)) name = entries.lookup name := by
  unfold Entries.lookup? Entries.get?
  induction entries with
  | nil => rfl
  | cons e entries ih =>
    obtain ⟨k, v⟩ := e
    have hkey : (Value.str k).same (.str name) = (name == k) := by
      rw [Value.same, Bool.beq_comm]
    rw [List.map_cons, List.find?_cons, List.lookup_cons, hkey]
    cases name == k with
    | true => rfl
    | false => exact ih

section Records

variable {fields : List (String × Schema)} {names : List String} {entries : List (String × Value)}

/-- The entries that a record has as a mapping. -/
theorem forall_map_eq_record {P : Entries → Prop} :
    (∀ es, Value.record entries = .map es → P es) ↔ P (entries.map fun f => (.str f.1, f.2)) := by
  constructor
  · intro h
    exact h _ rfl
  · rintro h _ hes
    obtain rfl := Value.map.inj hes
    exact h

theorem holds_object_record : (Rule.type [.object]).Holds (.record entries) := by
  simp [Rule.Holds, Value.record, ValueType.holds]

theorem holds_fields_record : (Rule.fields fields).Holds (.record entries) ↔
    ∀ f ∈ fields, ∀ v, entries.lookup f.1 = some v → Accepts f.2 v := by
  rw [Rule.Holds, forall_map_eq_record]
  simp only [lookup?_record]
  rfl

theorem holds_required_record : (Rule.required names).Holds (.record entries) ↔
    ∀ n ∈ names, (entries.lookup n).isSome = true := by
  rw [Rule.Holds, forall_map_eq_record]
  simp only [Entries.hasName, lookup?_record]

theorem holds_only_record : (Rule.only names).Holds (.record entries) ↔ ∀ e ∈ entries, e.1 ∈ names := by
  rw [Rule.Holds, forall_map_eq_record, List.forall_mem_map]
  rfl

@[simp] theorem accepts_mapping_record : Accepts mapping (.record entries) := accepts_mapping _

/-- Rules on all values of a record. -/
theorem accepts_values_record : Accepts [.type [.object], .values a] (.record entries) ↔
    ∀ e ∈ entries, Accepts a e.2 := by
  rw [accepts_cons, accepts_cons]
  simp only [accepts_nil, and_true, holds_object_record, true_and]
  rw [Rule.Holds, forall_map_eq_record, List.forall_mem_map]
  rfl

/-- **An object schema accepts a record** that has the required names, if the values of all its names are
accepted. -/
theorem accepts_object : Accepts (object fields names) (.record entries) ↔
    (∀ n ∈ names, (entries.lookup n).isSome = true) ∧
      ∀ f ∈ fields, ∀ v, entries.lookup f.1 = some v → Accepts f.2 v := by
  rw [object, accepts_cons, accepts_cons, accepts_cons, holds_fields_record, holds_required_record]
  simp [holds_object_record, and_comm]

/-- A closed one asks in addition that there are no other names. -/
theorem accepts_closedObject : Accepts (closedObject fields names) (.record entries) ↔
    Accepts (object fields names) (.record entries) ∧ ∀ e ∈ entries, e.1 ∈ fields.map Prod.fst := by
  rw [closedObject, accepts_append, accepts_cons, holds_only_record]
  simp

end Records

end Accepts

end Schema

end ChangeImpact
