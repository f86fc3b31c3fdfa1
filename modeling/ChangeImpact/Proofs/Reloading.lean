import ChangeImpact.Config.File
import ChangeImpact.Proofs.Overlay
import ChangeImpact.Proofs.Validation

/-!
# A configuration that is loaded again

A configuration keeps its sections as they are after the defaults have been filled in. So nothing is left to
fill in when it is loaded again, at whatever depth its entries were given, and what replaced a default as a
whole replaces it once more.

* `Fills`: a way to put a section over its default that has nothing left to do the second time.
* `lookup_mergeOver`, `lookup_mergeOver_types`, `lookup_mergeOver_contracts`: how each section is put over
  its default.
* `Settles`: **a section that is loaded again is the same section**, and in another order it is the same in
  that order.
* `ofValue_toRecord`: **a configuration is a fixed point of loading**, and loading what was saved gives an
  equal one if the text is read as what was written.
-/

namespace ChangeImpact.Config

open Value Entries

variable {data data' : Entries} {name : String} {v w : Value}

/-! ## The defaults -/

theorem outline_nil : Outline (.map []) := .map ⟨nofun, List.nodup_nil⟩ nofun

theorem outline_record_iff {fields : List (String × Value)} : Outline (.record fields) ↔
    (fields.map Prod.fst).Nodup ∧ ∀ f ∈ fields, Outline f.2 := by
  have hkeys : (fields.map fun f => (Value.str f.1, f.2)).map Prod.fst =
      (fields.map Prod.fst).map Value.str := by
    rw [List.map_map, List.map_map]
    rfl
  constructor
  · intro h
    have hnodup := h.worded.nodup
    rw [hkeys] at hnodup
    exact ⟨hnodup.of_map, fun f hf => h.parts _ (List.mem_map_of_mem hf)⟩
  · rintro ⟨hnodup, hparts⟩
    refine .map ⟨fun e he => ?_, hkeys ▸ hnodup.map fun _ _ => Value.str.inj⟩ fun e he => ?_
    · obtain ⟨f, -, rfl⟩ := List.mem_map.1 he
      exact ⟨f.1, rfl⟩
    · obtain ⟨f, hf, rfl⟩ := List.mem_map.1 he
      exact hparts f hf

theorem outline_defaults : Outline (.map defaults) := by
  refine .map ⟨by simp [defaults], by simp [defaults]⟩ ?_
  simp [defaults, Value.texts, outline_record_iff, outline_nil, Outline.leaf]

theorem mem_defaults (h : (lookup? defaults name).isSome = true) :
    (.str name, lookup defaults name) ∈ defaults := by
  obtain ⟨v, hv⟩ := Option.isSome_iff_exists.1 h
  have hlookup : lookup defaults name = v := by
    rw [lookup, hv]
    rfl
  rw [hlookup]
  exact mem_of_lookup? hv

theorem outline_default (h : (lookup? defaults name).isSome = true) : Outline (lookup defaults name) :=
  outline_defaults.parts _ (mem_defaults h)

/-! ## Sections over their defaults -/

/-- A way to put a section over its default that has nothing left to do the second time. -/
structure Fills (fill : Value → Value) (base : Value) : Prop where
  again : ∀ (given : Option Value) {es : Entries}, ((given.map fill).getD base).unfold = .map es →
    fill (.map es) = .map es
  reordered : ∀ {v w : Value}, Reordered v w → Reordered (fill v) (fill w)

theorem fills_id (base : Value) : Fills id base := ⟨fun _ _ _ => rfl, id⟩

theorem fills_onMap {f : Entries → Entries} {base : Entries} (hnil : f [] = base)
    (htwice : ∀ es, f (f es) = f es)
    (hreordered : ∀ {xs ys}, Reordered (.map xs) (.map ys) → Reordered (.map (f xs)) (.map (f ys))) :
    Fills (onMap f) (.map base) := by
  refine ⟨fun given es h => ?_, onMap_reordered hreordered⟩
  have hes : ∃ xs, es = f xs := by
    cases given with
    | none => exact ⟨[], (Value.map.inj h).symm.trans hnil.symm⟩
    | some v =>
      have hopen : (onMap f v).unfold = .map es := h
      by_cases hv : ∃ xs, v.unfold = .map xs
      · obtain ⟨xs, hv⟩ := hv
        rw [onMap_map hv] at hopen
        exact ⟨xs, (Value.map.inj hopen).symm⟩
      · -- what is no mapping was not made one
        rw [onMap_other f fun xs hxs => hv ⟨xs, hxs⟩] at hopen
        exact absurd ⟨es, hopen⟩ hv
  obtain ⟨xs, rfl⟩ := hes
  rw [onMap_map rfl, htwice]

theorem fills_merge {base : Entries} (hbase : Outline (.map base)) :
    Fills (mergeValue · (.map base)) (.map base) := by
  have hmerge : (mergeValue · (.map base)) = onMap (mergeEntries base) :=
    funext fun v => mergeValue_map v base
  rw [hmerge]
  exact fills_onMap (mergeEntries_nil base) (mergeEntries_mergeEntries hbase) (mergeValue_reordered hbase)

theorem fills_replacing {base : Entries} {b : Value} (hbase : Outline (.map base))
    (hb : (.str name, b) ∈ base) : Fills (onMap (replacing base name)) (.map base) :=
  fills_onMap (replacing_nil base name) (replacing_replacing hbase hb) (replacing_reordered hbase hb)

/-! ## Where the sections come from -/

theorem lookup?_mergeEntries_defaults (h : (lookup? defaults name).isSome = true) (data : Entries) :
    lookup? (mergeEntries defaults data) name =
      some (((lookup? data name).map (mergeValue · (lookup defaults name))).getD (lookup defaults name)) :=
  outline_defaults.worded.lookup?_mergeEntries data (mem_defaults h)

theorem lookup?_replaceWhole {merged : Entries} {key : String} (hne : name ≠ key) :
    lookup? (replaceWhole merged data key) name = lookup? merged name := by
  unfold replaceWhole
  split
  · rw [lookup?_putName, if_neg hne]
  · rfl

theorem lookup?_mergeOver (hne : name ≠ "contracts") (data : Entries) : lookup? (mergeOver data) name =
    lookup? (replaceWhole (mergeEntries defaults data) data "type_equivalence") name := by
  unfold mergeOver
  dsimp only
  split
  · rw [lookup?_putName, if_neg hne]
  · rfl

/-- A section that is merged over its default. -/
theorem lookup_mergeOver (h : (lookup? defaults name).isSome = true) (htypes : name ≠ "type_equivalence")
    (hcontracts : name ≠ "contracts") (data : Entries) : lookup (mergeOver data) name =
      ((lookup? data name).map (mergeValue · (lookup defaults name))).getD (lookup defaults name) := by
  rw [lookup, lookup?_mergeOver hcontracts, lookup?_replaceWhole htypes, lookup?_mergeEntries_defaults h]
  rfl

/-- The section that replaces its default. -/
theorem lookup_mergeOver_types (data : Entries) : lookup (mergeOver data) "type_equivalence" =
    ((lookup? data "type_equivalence").map id).getD (lookup defaults "type_equivalence") := by
  rw [lookup, lookup?_mergeOver (by decide)]
  unfold replaceWhole
  cases hgiven : lookup? data "type_equivalence" with
  | none =>
    rw [lookup?_mergeEntries_defaults rfl, hgiven]
    rfl
  | some v =>
    rw [lookup?_putName, if_pos rfl]
    rfl

/-- The section with an entry that replaces its default. -/
theorem lookup_mergeOver_contracts (data : Entries) : lookup (mergeOver data) "contracts" =
    ((lookup? data "contracts").map
      (onMap (replacing (entriesOf (lookup defaults "contracts")) "mappings"))).getD
        (lookup defaults "contracts") := by
  have hmerged : lookup (replaceWhole (mergeEntries defaults data) data "type_equivalence") "contracts" =
      ((lookup? data "contracts").map (mergeValue · (lookup defaults "contracts"))).getD
        (lookup defaults "contracts") := by
    rw [lookup, lookup?_replaceWhole (by decide), lookup?_mergeEntries_defaults rfl]
    rfl
  unfold mergeOver
  dsimp only
  -- the entry is replaced only where both what is given and what comes of it are mappings
  cases hgiven : lookup? data "contracts" with
  | none =>
    have hnull : lookup data "contracts" = .null := by
      rw [lookup, hgiven]
      rfl
    rw [hgiven] at hmerged
    rw [hnull]
    exact hmerged
  | some v =>
    have hgiven' : lookup data "contracts" = v := by
      rw [lookup, hgiven]
      rfl
    rw [hgiven, Option.map_some, Option.getD_some] at hmerged
    have hcontracts : mergeValue v (lookup defaults "contracts") =
        onMap (mergeEntries (entriesOf (lookup defaults "contracts"))) v := mergeValue_map v _
    rw [hcontracts] at hmerged
    rw [hgiven', Option.map_some, Option.getD_some]
    by_cases hv : ∃ given, v.unfold = .map given
    · obtain ⟨given, hv⟩ := hv
      rw [hmerged, hv, onMap_map hv, onMap_map hv]
      dsimp only
      rw [lookup, lookup?_putName, if_pos rfl]
      rfl
    · have hother : ∀ es, v.unfold ≠ .map es := fun es hes => hv ⟨es, hes⟩
      rw [onMap_other _ hother] at hmerged ⊢
      split
      · rename_i given contracts hes _
        exact absurd hes (hother given)
      · exact hmerged

/-- A section that is loaded again is the same, and in another order the same in that order. -/
structure Settles (name : String) (check : Value → Except Fault Entries) : Prop where
  again : ∀ {data data' es}, check (sectionOf (mergeOver data) name) = .ok es →
    lookup? data' name = some (.map es) → check (sectionOf (mergeOver data') name) = .ok es
  reordered : ∀ {data data' es}, Reordered (.map data) (.map data') →
    check (sectionOf (mergeOver data) name) = .ok es →
    ∃ ds, check (sectionOf (mergeOver data') name) = .ok ds ∧ Reordered (.map es) (.map ds)

theorem sectionOf_eq (merged : Entries) (name : String) :
    sectionOf merged name = lookup merged name ∨ sectionOf merged name = lookup defaults name := by
  unfold sectionOf
  split
  · exact .inr rfl
  · exact .inl rfl

theorem sectionOf_reordered {merged merged' : Entries}
    (h : Reordered (lookup merged name) (lookup merged' name)) :
    Reordered (sectionOf merged name) (sectionOf merged' name) := by
  unfold sectionOf
  generalize lookup merged name = v, lookup merged' name = w at h ⊢
  cases h with
  | refl => exact .refl _
  | list hlength hitems => exact .list hlength hitems
  | map hdistinct hkeys hvalues => exact .map hdistinct hkeys hvalues

theorem settles_of {check : Value → Except Fault Entries} {Holds : Entries → Prop} {fill : Value → Value}
    (hcheck : Judges check Holds) (hfill : Fills fill (lookup defaults name))
    (hlookup : ∀ data, lookup (mergeOver data) name =
      ((lookup? data name).map fill).getD (lookup defaults name)) : Settles name check := by
  refine ⟨fun {data data' es} h hdata' => ?_, fun {data data' es} hdata h => ?_⟩
  · have hopen := (hcheck.eq_ok_iff.1 h).1
    -- null stands for the default, which is a section to which nothing was given
    have hagain : fill (.map es) = .map es := by
      rcases sectionOf_eq (mergeOver data) name with hsection | hsection
      · rw [hsection, hlookup] at hopen
        exact hfill.again _ hopen
      · rw [hsection] at hopen
        exact hfill.again none hopen
    have hsection : sectionOf (mergeOver data') name = .map es := by
      unfold sectionOf
      rw [hlookup, hdata', Option.map_some, hagain]
      rfl
    rw [hsection]
    exact hcheck.again h
  · refine hcheck.reordered (sectionOf_reordered ?_) h
    rw [hlookup, hlookup]
    exact getD_reordered (hdata.lookup? name) hfill.reordered _

/-- A section that is merged over a default, which is a mapping. -/
theorem settles_merged {check : Value → Except Fault Entries} {Holds : Entries → Prop} {base : Entries}
    (hcheck : Judges check Holds) (hbase : lookup? defaults name = some (.map base))
    (htypes : name ≠ "type_equivalence") (hcontracts : name ≠ "contracts") : Settles name check := by
  have hsome : (lookup? defaults name).isSome = true := by
    rw [hbase]
    rfl
  have hdefault : lookup defaults name = .map base := by
    rw [lookup, hbase]
    rfl
  refine settles_of hcheck ?_ (lookup_mergeOver hsome htypes hcontracts)
  rw [hdefault]
  exact fills_merge (hdefault ▸ outline_default hsome)

theorem settles_types : Settles "type_equivalence" checkTypeEquivalence :=
  settles_of judges_types (fills_id _) lookup_mergeOver_types

theorem settles_thresholds : Settles "confidence_thresholds" checkThresholds :=
  settles_merged judges_thresholds rfl (by decide) (by decide)

theorem settles_plan : Settles "plan_thresholds" checkPlan :=
  settles_merged judges_plan rfl (by decide) (by decide)

theorem settles_scan : Settles "scan" checkScan := settles_merged judges_scan rfl (by decide) (by decide)

theorem settles_contracts : Settles "contracts" checkContracts := by
  have hmap : lookup defaults "contracts" = .map (entriesOf (lookup defaults "contracts")) := rfl
  have houtline : Outline (lookup defaults "contracts") := outline_default rfl
  rw [hmap] at houtline
  exact settles_of judges_contracts (fills_replacing houtline List.mem_cons_self) lookup_mergeOver_contracts

/-! ## The whole configuration -/

theorem checkCritical_eq_ok {n : Int} : checkCritical v = .ok n ↔ v = .int n ∧ 1 ≤ n := by
  have hother : ∀ u : Value, (do fail (.badCriticalThreshold (← u.toLiteral)) : Except Fault Int) ≠ .ok n :=
    fun _ => bind_ne_ok fun _ => fail_ne_ok
  unfold checkCritical
  cases v with
  | int m =>
    dsimp only
    split
    · rename_i hm
      rw [Except.ok.injEq, Value.int.injEq]
      exact ⟨fun h => ⟨h, h ▸ hm⟩, fun h => h.1⟩
    · rename_i hm
      refine ⟨fun h => absurd h (hother _), fun h => absurd h.2 ?_⟩
      rw [← Value.int.inj h.1]
      exact hm
  | _ => exact ⟨fun h => absurd h (hother _), fun h => by cases h.1⟩

theorem lookup_mergeOver_critical (data : Entries) : lookup (mergeOver data) "critical_dependents_threshold" =
    ((lookup? data "critical_dependents_threshold").map id).getD (.int 5) := by
  rw [lookup_mergeOver rfl (by decide) (by decide)]
  cases lookup? data "critical_dependents_threshold" with
  | none => rfl
  | some v => rfl

theorem ofSections_eq_ok {merged : Entries} {c : Config} : ofSections merged = .ok c ↔
    checkTypeEquivalence (sectionOf merged "type_equivalence") = .ok c.typeEquivalence ∧
    checkThresholds (sectionOf merged "confidence_thresholds") = .ok c.confidenceThresholds ∧
    checkPlan (sectionOf merged "plan_thresholds") = .ok c.planThresholds ∧
    checkContracts (sectionOf merged "contracts") = .ok c.contracts ∧
    checkScan (sectionOf merged "scan") = .ok c.scan ∧
    checkCritical (lookup merged "critical_dependents_threshold") = .ok c.criticalThreshold := by
  unfold ofSections
  simp only [bind_eq_ok, pure_eq_ok]
  constructor
  · rintro ⟨types, htypes, thresholds, hthresholds, plan, hplan, contracts, hcontracts, critical, hcritical,
      scan, hscan, rfl⟩
    exact ⟨htypes, hthresholds, hplan, hcontracts, hscan, hcritical⟩
  · rintro ⟨htypes, hthresholds, hplan, hcontracts, hscan, hcritical⟩
    exact ⟨_, htypes, _, hthresholds, _, hplan, _, hcontracts, _, hcritical, _, hscan, rfl⟩

/-- Every key is the name of a section. -/
theorem checkKeys_eq_ok : checkKeys data = .ok () ↔ ∀ e ∈ data, e.1 ∈ defaults.map Prod.fst := by
  have hknown : (∀ e ∈ data, e.1 ∈ defaults.map Prod.fst) ↔
      data.filter (fun e => (get? defaults e.1).isNone) = [] := by
    rw [List.filter_eq_nil_iff]
    simp only [outline_defaults.worded.isNone_get?, not_not]
  rw [hknown]
  unfold checkKeys
  dsimp only
  cases data.filter fun e => (get? defaults e.1).isNone with
  | nil => exact ⟨fun _ => rfl, fun _ => rfl⟩
  | cons e es =>
    refine ⟨fun h => ?_, nofun⟩
    split at h
    · cases h
    · cases h

theorem ofValue_eq_ok {c : Config} : ofValue v = .ok c ↔ ∃ data, v.unfold = .map data ∧
    (∀ e ∈ data, e.1 ∈ defaults.map Prod.fst) ∧ ofSections (mergeOver data) = .ok c := by
  unfold ofValue
  simp only [bind_eq_ok, requireMapping_eq_ok, ← checkKeys_eq_ok]
  constructor
  · rintro ⟨data, hdata, _, hkeys, hc⟩
    exact ⟨data, hdata, hkeys, hc⟩
  · rintro ⟨data, hdata, hkeys, hc⟩
    exact ⟨data, hdata, (), hkeys, hc⟩

theorem toRecord_eq (c : Config) : c.toRecord = .map (entriesOf c.toRecord) := rfl

theorem keys_toRecord (c : Config) : (entriesOf c.toRecord).map Prod.fst = defaults.map Prod.fst := rfl

theorem distinct_toRecord (c : Config) : (entriesOf c.toRecord).Distinct := by
  unfold Distinct
  rw [keys_toRecord]
  simp [defaults, Unlike, Value.same_str]

/-- **What was loaded is loaded again as it is.** -/
theorem ofValue_again {c : Config} (h : ofValue v = .ok c) : ofValue c.toRecord = .ok c := by
  obtain ⟨data, -, -, hc⟩ := ofValue_eq_ok.1 h
  obtain ⟨htypes, hthresholds, hplan, hcontracts, hscan, hcritical⟩ := ofSections_eq_ok.1 hc
  refine ofValue_eq_ok.2 ⟨entriesOf c.toRecord, rfl, fun e he => ?_, ofSections_eq_ok.2
    ⟨settles_types.again htypes rfl, settles_thresholds.again hthresholds rfl, settles_plan.again hplan rfl,
      settles_contracts.again hcontracts rfl, settles_scan.again hscan rfl, ?_⟩⟩
  · rw [← keys_toRecord c]
    exact List.mem_map_of_mem he
  · rw [lookup_mergeOver_critical]
    exact checkCritical_eq_ok.2 ⟨rfl, (checkCritical_eq_ok.1 hcritical).2⟩

/-- **What was loaded is loaded in another order with its sections in another order.** -/
theorem ofValue_reordered {c : Config} (h : ofValue v = .ok c) (hvw : Reordered v w) :
    ∃ c', ofValue w = .ok c' ∧ Reordered c.toRecord c'.toRecord := by
  obtain ⟨data, hdata, hkeys, hc⟩ := ofValue_eq_ok.1 h
  obtain ⟨data', hdata', hmap⟩ := hvw.unfold_map hdata
  obtain ⟨htypes, hthresholds, hplan, hcontracts, hscan, hcritical⟩ := ofSections_eq_ok.1 hc
  obtain ⟨types, htypes', htypes⟩ := settles_types.reordered hmap htypes
  obtain ⟨thresholds, hthresholds', hthresholds⟩ := settles_thresholds.reordered hmap hthresholds
  obtain ⟨plan, hplan', hplan⟩ := settles_plan.reordered hmap hplan
  obtain ⟨contracts, hcontracts', hcontracts⟩ := settles_contracts.reordered hmap hcontracts
  obtain ⟨scan, hscan', hscan⟩ := settles_scan.reordered hmap hscan
  -- the least number of dependents is no mapping, so it has no order
  have hcritical' : checkCritical (lookup (mergeOver data') "critical_dependents_threshold") =
      .ok c.criticalThreshold := by
    obtain ⟨hint, hleast⟩ := checkCritical_eq_ok.1 hcritical
    have hlookup : Reordered (lookup (mergeOver data) "critical_dependents_threshold")
        (lookup (mergeOver data') "critical_dependents_threshold") := by
      rw [lookup_mergeOver_critical, lookup_mergeOver_critical]
      exact getD_reordered (hmap.lookup? _) id _
    rw [hint] at hlookup
    have hcount : isIntegerFrom 1 (.int c.criticalThreshold) = true := decide_eq_true hleast
    exact checkCritical_eq_ok.2 ⟨hlookup.eq_of_scalar (fun _ => rfl) (fun _ => rfl) hcount, hleast⟩
  refine ⟨⟨types, thresholds, plan, contracts, scan, c.criticalThreshold⟩, ofValue_eq_ok.2 ⟨data', hdata',
    fun e he => ?_, ofSections_eq_ok.2 ⟨htypes', hthresholds', hplan', hcontracts', hscan', hcritical'⟩⟩, ?_⟩
  · obtain ⟨d, hd, hkey, -⟩ := hmap.exists_entry he
    rw [← hkey]
    exact hkeys d hd
  · -- both records have the same names in the same order
    refine .map (distinct_toRecord c) (List.Perm.refl _) ?_
    simp [htypes, hthresholds, hplan, hcontracts, hscan, Reordered.refl]

/-- A mapping with entries is not vacant in any order. -/
theorem not_vacant_of_reordered {es : Entries} (h : Reordered (.map es) w) (hes : es ≠ []) :
    w.isVacant = false := by
  obtain ⟨ds, rfl⟩ := h.exists_map
  cases ds with
  | nil =>
    have hsame := h.same
    rw [Value.same, Bool.and_eq_true, beq_iff_eq] at hsame
    exact absurd (List.eq_nil_of_length_eq_zero hsame.1) hes
  | cons => rfl

theorem load_bytes {path : String} {bytes : List UInt8} (hpath : checkPath path = .ok ())
    (htext : valueOf bytes = .ok w) (hw : w.isVacant = false) :
    load path (.bytes bytes) = ofValue w := by
  unfold load
  rw [hpath]
  dsimp only [bind, Except.bind]
  rw [htext]
  dsimp only
  rw [hw]
  rfl

/-- **A configuration is a fixed point of loading.** What was loaded from any mapping, and so has the defaults
filled in, is accepted again and gives the same configuration, section by section. So a file that it was saved
to gives an equal configuration if its text is read as what was written, in whatever order of entries. -/
theorem ofValue_toRecord {c : Config} (h : ofValue v = .ok c) : ofValue c.toRecord = .ok c ∧
    ∀ path w, checkPath path = .ok () → valueOf (Text.bytes c.save) = .ok w → Reordered c.toRecord w →
      ∃ c', load path (.bytes (Text.bytes c.save)) = .ok c' ∧ c.same c' = true := by
  have hagain := ofValue_again h
  refine ⟨hagain, fun path w hpath htext hw => ?_⟩
  obtain ⟨c', hc', hreordered⟩ := ofValue_reordered hagain hw
  rw [toRecord_eq] at hw
  have hvacant : w.isVacant = false := not_vacant_of_reordered hw (List.cons_ne_nil _ _)
  exact ⟨c', (load_bytes hpath htext hvacant).trans hc', hreordered.same⟩

/-- Settings for some sections, one of them vacant: groups and mappings of their own, an entry deep inside a
rule, and a key that nobody asks for. -/
def partialSettings : Value := .record [
  ("type_equivalence", .record [("money", .texts ["Money", "Decimal"])]),
  ("scan", .null),
  ("contracts", .record [
    ("owner", .str "web"),
    ("naming_rules", .record [("frontend", .record [("strip_suffixes", .texts ["Dto"])])]),
    ("mappings", .record [("UserDto", .str "User")])]),
  ("critical_dependents_threshold", .int 2)]

/-- What these settings come to. -/
def tuned : Config where
  typeEquivalence := [(.str "money", .texts ["Money", "Decimal"])]
  confidenceThresholds := entriesOf (lookup defaults "confidence_thresholds")
  planThresholds := entriesOf (lookup defaults "plan_thresholds")
  contracts := [
    (.str "mappings", .record [("UserDto", .str "User")]),
    (.str "naming_rules", .record [
      ("frontend", .record [("strip_prefixes", .list []), ("strip_suffixes", .texts ["Dto"])]),
      ("backend", .record [("strip_prefixes", .list []), ("strip_suffixes", .list [])])]),
    (.str "route_prefixes", .list []),
    (.str "declared_side", .str "frontend"),
    (.str "owner", .str "web")]
  scan := entriesOf (lookup defaults "scan")
  criticalThreshold := 2

/-- They are loaded again as they are, also from a text that is read with its keys in order. -/
theorem tuned_loaded_again : ofValue partialSettings = .ok tuned ∧ ofValue tuned.toRecord = .ok tuned ∧
    (valueOf (Text.bytes tuned.save) = .ok (Yaml.inOrder tuned.toRecord) →
      ∃ c', load "blastradius.yml" (.bytes (Text.bytes tuned.save)) = .ok c' ∧ tuned.same c' = true) := by
  have hloaded : ofValue partialSettings = .ok tuned := rfl
  have hreload := ofValue_toRecord hloaded
  refine ⟨hloaded, hreload.1, fun htext => hreload.2 _ _ (by decide +kernel) htext ?_⟩
  exact reordered_inOrder _ (by decide +kernel)

end ChangeImpact.Config
