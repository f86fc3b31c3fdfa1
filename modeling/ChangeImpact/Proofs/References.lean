import ChangeImpact.Config.Decode
import ChangeImpact.Contract.Family
import ChangeImpact.Proofs.Records

/-!
# Types that refer to each other

A type of the frontend may name the type of the backend that it belongs to, by its contract name or through the
mapping table. The naming rules of the backend may strip that name. A name from the table is stripped as the name of
the backend type is, so the two types meet; a contract name is taken as it is.

* `conventional_eq_self_iff`: the naming rules leave a name if none of their texts can be stripped from it.
* `reference_joins_iff`: **a reference joins two types exactly if it comes from the table or the rules leave the
  name.**
* `reference_misses`: a contract name that the rules would strip joins nothing.
-/

namespace ChangeImpact.Placement

variable {config : Config} {f b : Entity} {name : List Char}

/-! ## Naming rules -/

/-- A text that is stripped from the start of a name. -/
def StripsStart (name p : List Char) : Prop := p ≠ [] ∧ p <+: name ∧ p.length < name.length

/-- A text that is stripped from the end of a name. -/
def StripsEnd (name p : List Char) : Prop := p ≠ [] ∧ Text.endsWith name p = true ∧ p.length < name.length

/-- Of some texts the first that can be stripped is stripped, and if there is none the name stays. -/
theorem strip_cases {strip : List (List Char) → List Char} {Strips : List Char → Prop}
    {test : List Char → Bool} {cut : List Char → List Char} (hnil : strip [] = name)
    (hcons : ∀ p ps, strip (p :: ps) = if test p then cut p else strip ps)
    (htest : ∀ p, test p = true ↔ Strips p) (hcut : ∀ p, Strips p → (cut p).length < name.length)
    (ps : List (List Char)) :
    ((∀ p ∈ ps, ¬ Strips p) ∧ strip ps = name) ∨
      ((∃ p ∈ ps, Strips p) ∧ (strip ps).length < name.length) := by
  induction ps with
  | nil => exact .inl ⟨by simp, hnil⟩
  | cons p ps ih =>
    rw [hcons]
    by_cases hp : Strips p
    · rw [if_pos ((htest p).2 hp)]
      exact .inr ⟨⟨p, List.mem_cons_self, hp⟩, hcut p hp⟩
    · rw [if_neg fun h => hp ((htest p).1 h)]
      rcases ih with ⟨hnone, heq⟩ | ⟨⟨q, hq, hstrips⟩, hlt⟩
      · exact .inl ⟨List.forall_mem_cons.2 ⟨hp, hnone⟩, heq⟩
      · exact .inr ⟨⟨q, List.mem_cons_of_mem _ hq, hstrips⟩, hlt⟩

theorem stripStart_cases (name : List Char) (ps : List (List Char)) :
    ((∀ p ∈ ps, ¬ StripsStart name p) ∧ stripStart name ps = name) ∨
      ((∃ p ∈ ps, StripsStart name p) ∧ (stripStart name ps).length < name.length) := by
  refine strip_cases rfl (fun p ps => rfl) (fun p => by simp [StripsStart, and_assoc]) (fun p hp => ?_) ps
  obtain ⟨hne, -, hlt⟩ := hp
  have hpos : 0 < p.length := List.length_pos_iff.2 hne
  show (name.drop p.length).length < name.length
  rw [List.length_drop]
  omega

theorem stripEnd_cases (name : List Char) (ps : List (List Char)) :
    ((∀ p ∈ ps, ¬ StripsEnd name p) ∧ stripEnd name ps = name) ∨
      ((∃ p ∈ ps, StripsEnd name p) ∧ (stripEnd name ps).length < name.length) := by
  refine strip_cases rfl (fun p ps => rfl) (fun p => by simp [StripsEnd, and_assoc]) (fun p hp => ?_) ps
  obtain ⟨hne, -, hlt⟩ := hp
  have hpos : 0 < p.length := List.length_pos_iff.2 hne
  show (name.take (name.length - p.length)).length < name.length
  rw [List.length_take]
  omega

/-- The naming rules of a layer have nothing to strip from a name. -/
structure Untouched (config : Config) (layer : Layer) (name : String) : Prop where
  start : ∀ p ∈ config.strippedPrefixes layer, ¬ StripsStart name.toList p.toList
  ending : ∀ p ∈ config.strippedSuffixes layer, ¬ StripsEnd name.toList p.toList

/-- **What the naming rules do not touch, they leave.** -/
theorem conventional_eq_self_iff {layer : Layer} {name : String} :
    conventional config layer name = name ↔ Untouched config layer name := by
  have hname : conventional config layer name = name ↔ stripEnd (stripStart name.toList
      ((config.strippedPrefixes layer).map String.toList))
      ((config.strippedSuffixes layer).map String.toList) = name.toList := by
    unfold conventional
    rw [← String.toList_inj, String.toList_ofList]
  have huntouched : Untouched config layer name ↔
      (∀ p ∈ (config.strippedPrefixes layer).map String.toList, ¬ StripsStart name.toList p) ∧
        ∀ p ∈ (config.strippedSuffixes layer).map String.toList, ¬ StripsEnd name.toList p := by
    rw [List.forall_mem_map, List.forall_mem_map]
    exact ⟨fun h => ⟨h.start, h.ending⟩, fun h => ⟨h.1, h.2⟩⟩
  rw [hname, huntouched]
  generalize (config.strippedPrefixes layer).map String.toList = ps
  generalize (config.strippedSuffixes layer).map String.toList = ss
  rcases stripStart_cases name.toList ps with ⟨hnone, heq⟩ | ⟨⟨p, hp, hstrips⟩, hlt⟩
  · rw [heq]
    rcases stripEnd_cases name.toList ss with ⟨hnone', heq'⟩ | ⟨⟨p, hp, hstrips⟩, hlt⟩
    · exact iff_of_true heq' ⟨hnone, hnone'⟩
    · refine iff_of_false (fun h => ?_) fun h => h.2 p hp hstrips
      rw [h] at hlt
      exact lt_irrefl _ hlt
  · -- what was cut off at the start does not come back at the end
    refine iff_of_false (fun h => ?_) fun h => h.1 p hp hstrips
    have hle : (stripEnd (stripStart name.toList ps) ss).length ≤ (stripStart name.toList ps).length := by
      rcases stripEnd_cases (stripStart name.toList ps) ss with ⟨-, heq⟩ | ⟨-, hlt⟩
      · rw [heq]
      · exact hlt.le
    rw [h] at hle
    omega

/-! ## References -/

/-- A type names another type: by its contract name, or without one through the mapping table. -/
inductive Refers (config : Config) (f b : Entity) : Prop
  | contractName (named : f.detail "contract_name" = .str b.name)
  | mapping (unnamed : (f.detail "contract_name").isVacant = true)
      (mapped : config.mapping? f.name = some b.name)

/-- The key of a type with a contract name. -/
theorem shapeKey_of_contractName {name : String} (h : f.detail "contract_name" = .str name) (hne : name ≠ "") :
    shapeKey config f = .ok (name, .mapping) := by
  unfold shapeKey
  simp only [h, Value.isVacant_str hne]
  rfl

/-- The key of a frontend type that the table maps. -/
theorem shapeKey_of_mapping {name : String} (hlayer : f.layer = some .frontend)
    (hvacant : (f.detail "contract_name").isVacant = true) (hmapped : config.mapping? f.name = some name) :
    shapeKey config f = .ok (conventional config .backend name, .mapping) := by
  unfold shapeKey
  simp only [hvacant, hlayer, hmapped]
  rfl

/-- The key of a backend type without a contract name. -/
theorem shapeKey_of_backend (hlayer : b.layer = some .backend)
    (hvacant : (b.detail "contract_name").isVacant = true) :
    ∃ basis, shapeKey config b = .ok (conventional config .backend b.name, basis) := by
  unfold shapeKey
  simp only [hvacant, hlayer]
  exact ⟨_, rfl⟩

/-- **A reference joins two types exactly if it comes from the table or the naming rules leave the name.** A name
from the table is stripped by the rules of the backend, as the name of the backend type is. A contract name is not,
so it misses a backend type whose name they strip. -/
theorem reference_joins_iff (hf : f.layer = some .frontend) (hb : b.layer = some .backend) (hvalid : b.Valid)
    (hvacant : (b.detail "contract_name").isVacant = true) (h : Refers config f b) :
    ∃ key key' basis, shapeKey config f = .ok (key, .mapping) ∧ shapeKey config b = .ok (key', basis) ∧
      (key = key' ↔ (f.detail "contract_name").isVacant = true ∨ Untouched config .backend b.name) := by
  obtain ⟨basis, hkey⟩ : ∃ basis, shapeKey config b = .ok (conventional config .backend b.name, basis) :=
    shapeKey_of_backend hb hvacant
  cases h with
  | contractName named =>
    refine ⟨_, _, basis, shapeKey_of_contractName named hvalid.name, hkey, ?_⟩
    rw [named, Value.isVacant_str hvalid.name, ← conventional_eq_self_iff]
    simp [eq_comm]
  | mapping unnamed mapped =>
    exact ⟨_, _, basis, shapeKey_of_mapping hf unnamed mapped, hkey, iff_of_true rfl (.inl unnamed)⟩

/-- Settings that map one type and strip two endings from the names of the backend. -/
def settings : Value := .record [("contracts", .record [
  ("mappings", .record [("UserInput", .str "UpdateUserDTO")]),
  ("naming_rules", .record [("backend", .record [("strip_suffixes", .texts ["DTO", "Request"])])])])]

/-- The configuration of these settings. -/
def rules : Config :=
  { Config.default with
    contracts := [
      (.str "mappings", .record [("UserInput", .str "UpdateUserDTO")]),
      (.str "naming_rules", .record [
        ("frontend", .record [("strip_prefixes", .list []), ("strip_suffixes", .list [])]),
        ("backend", .record [("strip_prefixes", .list []), ("strip_suffixes", .texts ["DTO", "Request"])])]),
      (.str "route_prefixes", .list []),
      (.str "declared_side", .str "frontend")] }

theorem ofValue_settings : Config.ofValue settings = .ok rules := by rfl

/-- A type with one field. -/
def typeNamed (id name : String) (layer : Layer) (metadata : Entries) : Entity where
  id := id
  kind := .type
  language := "unknown"
  location := ⟨"", 0, 0⟩
  name := name
  layer := some layer
  shape := some [{ name := "email", type := "string" }]
  metadata := metadata

/-- The type of the backend. -/
def updateUser : Entity := typeNamed "api.UpdateUserDTO" "UpdateUserDTO" .backend []

theorem valid_updateUser : updateUser.Valid :=
  ⟨by decide, by decide, fun _ => rfl, by decide⟩

/-- The table joins a type with one whose name the rules strip. -/
theorem reference_joins_updateUser :
    Refers rules (typeNamed "web.UserInput" "UserInput" .frontend []) updateUser ∧
    ¬ Untouched rules .backend updateUser.name ∧
    ∃ key basis, shapeKey rules (typeNamed "web.UserInput" "UserInput" .frontend []) = .ok (key, .mapping) ∧
      shapeKey rules updateUser = .ok (key, basis) := by
  have hrefers : Refers rules (typeNamed "web.UserInput" "UserInput" .frontend []) updateUser :=
    .mapping rfl rfl
  have htouched : ¬ Untouched rules .backend updateUser.name := by
    rw [← conventional_eq_self_iff]
    decide +kernel
  obtain ⟨key, key', basis, hkey, hkey', hiff⟩ := reference_joins_iff rfl rfl valid_updateUser rfl hrefers
  obtain rfl := hiff.2 (.inl rfl)
  exact ⟨hrefers, htouched, key, basis, hkey, hkey'⟩

/-- A contract name misses the type whose name it is, because only the name of the type is stripped. -/
theorem reference_misses : Config.ofValue settings = .ok rules ∧
    Refers rules (typeNamed "web.Form" "Form" .frontend [(.str "contract_name", .str "UpdateUserDTO")])
      updateUser ∧
    shapeKey rules (typeNamed "web.Form" "Form" .frontend [(.str "contract_name", .str "UpdateUserDTO")]) =
      .ok ("UpdateUserDTO", .mapping) ∧
    shapeKey rules updateUser = .ok ("UpdateUser", .convention) :=
  ⟨ofValue_settings, .contractName rfl, rfl, rfl⟩

end ChangeImpact.Placement
