import ChangeImpact.Proofs.Reloading
import ChangeImpact.Yaml.Content

/-!
# How a configuration is refused

A partial configuration is merged over the defaults, and its sections are judged in turn. A section that is
malformed is refused with a fault of configuration, whose message names the place and often the value there.
Two kinds of values are refused with other faults: a mapping with a key that is no text, since unknown keys
are listed by name, and a value with an integer that is too long to be written in a message.

* `Config.writable_mergeOver`: what is merged over the defaults can be written if all that is given can.
* `Config.refuses_ofSections`: **the faults of sections.**
* `Config.checkKeys_cases`: the faults of keys.
* `Config.ofValue_refuses`: **what becomes of any value.** `ofValue_other_faults` shows the faults that are
  not of configuration.
-/

namespace ChangeImpact

/-! ## Parts of values that can be written -/

namespace Value

variable {v : Value} {es : Entries}

theorem allEntriesWritable_iff : allEntriesWritable es = true ↔
    ∀ e ∈ es, e.1.isWritable = true ∧ e.2.isWritable = true := by
  induction es with
  | nil => exact ⟨fun _ _ h => (List.not_mem_nil h).elim, fun _ => rfl⟩
  | cons e es ih =>
    obtain ⟨k, x⟩ := e
    unfold allEntriesWritable entryWritable
    rw [Bool.and_eq_true, Bool.and_eq_true, ih, List.forall_mem_cons]

theorem isWritable_map_iff :
    (Value.map es).isWritable = true ↔ ∀ e ∈ es, e.1.isWritable = true ∧ e.2.isWritable = true := by
  rw [isWritable, allEntriesWritable_iff]

-- the number is not to be computed when the cases are compared
attribute [local irreducible] writableBound

mutual

/-- A value that stands where its label was can be written if all of it can. -/
theorem isWritable_tie {label : Nat} {whole : Value} (hwhole : whole.isWritable = true) :
    (v : Value) → v.isWritable = true → (tie label whole v).isWritable = true
  | .again l, h => by
    unfold tie
    split
    · exact hwhole
    · exact h
  | .named l content, h => by
    unfold isWritable at h
    unfold tie isWritable
    split
    · exact h
    · exact isWritable_tie hwhole content h
  | .list items, h | .set items, h => by
    unfold isWritable at h
    unfold tie isWritable
    exact allWritable_tieItems hwhole items h
  | .pair a b, h => by
    unfold isWritable at h
    rw [Bool.and_eq_true] at h
    unfold tie isWritable
    rw [isWritable_tie hwhole a h.1, isWritable_tie hwhole b h.2]
    rfl
  | .map entries, h => by
    unfold isWritable at h
    unfold tie isWritable
    exact allEntriesWritable_tieEntries hwhole entries h
  | .null, h | .bool _, h | .int _, h | .float _, h | .str _, h | .bytes _, h | .date _, h
  | .datetime _, h => by
    unfold tie
    exact h
termination_by structural v => v

theorem allWritable_tieItems {label : Nat} {whole : Value} (hwhole : whole.isWritable = true) :
    (vs : List Value) → allWritable vs = true → allWritable (tieItems label whole vs) = true
  | [], h => h
  | v :: vs, h => by
    unfold allWritable at h
    rw [Bool.and_eq_true] at h
    unfold tieItems allWritable
    rw [isWritable_tie hwhole v h.1, allWritable_tieItems hwhole vs h.2]
    rfl
termination_by structural vs => vs

theorem entryWritable_tieEntry {label : Nat} {whole : Value} (hwhole : whole.isWritable = true) :
    (e : Value × Value) → entryWritable e = true → entryWritable (tieEntry label whole e) = true
  | (k, v), h => by
    unfold entryWritable at h
    rw [Bool.and_eq_true] at h
    unfold tieEntry entryWritable
    rw [isWritable_tie hwhole k h.1, isWritable_tie hwhole v h.2]
    rfl
termination_by structural e => e

theorem allEntriesWritable_tieEntries {label : Nat} {whole : Value} (hwhole : whole.isWritable = true) :
    (es : List (Value × Value)) → allEntriesWritable es = true →
      allEntriesWritable (tieEntries label whole es) = true
  | [], h => h
  | e :: es, h => by
    unfold allEntriesWritable at h
    rw [Bool.and_eq_true] at h
    unfold tieEntries allEntriesWritable
    rw [entryWritable_tieEntry hwhole e h.1, allEntriesWritable_tieEntries hwhole es h.2]
    rfl
termination_by structural es => es

end

theorem isWritable_unfold (h : v.isWritable = true) : v.unfold.isWritable = true := by
  cases v with
  | named label content => exact isWritable_tie h content h
  | _ => exact h

end Value

namespace Config

open Entries Value

variable {v : Value} {es given base data : Entries} {name : String}

/-- Entries whose keys and values can be written. -/
abbrev Writable (es : Entries) : Prop := ∀ e ∈ es, e.1.isWritable = true ∧ e.2.isWritable = true

theorem writable_of_unfold (hv : v.isWritable = true) (hes : v.unfold = .map es) : Writable es :=
  isWritable_map_iff.1 (hes ▸ isWritable_unfold hv)

theorem isWritable_of_get? {k : Value} (h : Writable es) (hv : get? es k = some v) : v.isWritable = true := by
  obtain ⟨e, he, rfl⟩ := Option.map_eq_some_iff.1 hv
  exact (h e (List.mem_of_find?_eq_some he)).2

theorem isWritable_lookupD (h : Writable es) (hv : v.isWritable = true) :
    (lookupD es name v).isWritable = true := by
  unfold lookupD
  cases hlookup : lookup? es name with
  | none => exact hv
  | some w => exact isWritable_of_get? h hlookup

theorem isWritable_lookup (h : Writable es) (name : String) : (lookup es name).isWritable = true :=
  isWritable_lookupD h rfl

theorem writable_putName (h : Writable es) (hv : v.isWritable = true) : Writable (putName es name v) := by
  induction es with
  | nil => exact List.forall_mem_singleton.2 ⟨rfl, hv⟩
  | cons e es ih =>
    obtain ⟨he, hes⟩ := List.forall_mem_cons.1 h
    rw [putName_cons]
    split
    · exact List.forall_mem_cons.2 ⟨⟨he.1, hv⟩, hes⟩
    · exact List.forall_mem_cons.2 ⟨he, ih hes⟩

/-- What is merged over a base can be written if both can. -/
theorem isWritable_mergeValue {b : Value} (hb : Outline b) (hbase : b.isWritable = true) :
    ∀ v : Value, v.isWritable = true → (mergeValue v b).isWritable = true := by
  induction hb with
  | leaf h =>
    intro v hv
    rwa [mergeValue_leaf h]
  | map _ _ ih =>
    intro v hv
    rw [mergeValue_map]
    unfold onMap
    split
    · rename_i base given hgiven
      have hgiven := writable_of_unfold hv hgiven
      have hbase := isWritable_map_iff.1 hbase
      refine isWritable_map_iff.2 fun e he => ?_
      rw [mergeEntries_eq, List.mem_append, List.mem_map] at he
      -- an entry of the base, with or without a value given over it, or a new one
      rcases he with ⟨d, hd, rfl⟩ | he
      · rw [mergeEntry_eq]
        refine ⟨(hbase d hd).1, ?_⟩
        unfold overlay
        cases hget : get? given d.1 with
        | none => exact (hbase d hd).2
        | some w => exact ih d hd (hbase d hd).2 w (isWritable_of_get? hgiven hget)
      · exact hgiven e (List.mem_of_mem_filter he)
    · exact hv

theorem writable_defaults : Writable defaults := isWritable_map_iff.1 (by decide +kernel)

theorem writable_replaceWhole {merged : Entries} (hmerged : Writable merged) (hdata : Writable data) :
    Writable (replaceWhole merged data name) := by
  unfold replaceWhole
  split
  · rename_i v hv
    exact writable_putName hmerged (isWritable_of_get? hdata hv)
  · exact hmerged

/-- What is given over the defaults is written where it was given. -/
theorem writable_mergeOver (h : Writable data) : Writable (mergeOver data) := by
  have hentries : Writable (mergeEntries defaults data) := by
    have hmerged := isWritable_mergeValue outline_defaults (isWritable_map_iff.2 writable_defaults) (.map data)
      (isWritable_map_iff.2 h)
    rw [mergeValue_map, onMap_map rfl] at hmerged
    exact isWritable_map_iff.1 hmerged
  have hmerged : Writable (replaceWhole (mergeEntries defaults data) data "type_equivalence") :=
    writable_replaceWhole hentries h
  unfold mergeOver
  dsimp only
  split
  · rename_i given contracts hgiven hcontracts
    have hcontracts : Writable contracts := isWritable_map_iff.1 (hcontracts ▸ isWritable_lookup hmerged _)
    have hgiven : Writable given := writable_of_unfold (isWritable_lookup h _) hgiven
    exact writable_putName hmerged (isWritable_map_iff.2 (writable_replaceWhole hcontracts hgiven))
  · exact hmerged

theorem isWritable_sectionOf {merged : Entries} (h : Writable merged) (name : String) :
    (sectionOf merged name).isWritable = true := by
  unfold sectionOf
  split
  · exact isWritable_lookup writable_defaults name
  · exact isWritable_lookup h name

/-! ## Faults of sections -/

section

variable {α β : Type} {P : Prop} {w : Value} {place : String} {cause : ConfigFault}

/-- The faults of a computation are those of configuration, and a value that cannot be written under a
condition. -/
abbrev Refuses (P : Prop) (x : Except Fault α) : Prop :=
  Faults (fun f => (∃ cause, f = .config cause) ∨ f = .value .unwritable ∧ P) x

theorem refuses_fail : Refuses P (fail cause : Except Fault α) := .error (.inl ⟨cause, rfl⟩)

theorem refuses_fail_bind {f : α → Except Fault β} : Refuses P ((fail cause : Except Fault α) >>= f) :=
  .bind refuses_fail fun _ h => absurd h fail_ne_ok

theorem refuses_toText (h : ¬ P → w.isWritable = true) : Refuses P w.toText := by
  unfold Value.toText
  split
  · exact .ok _
  · rename_i hw
    exact .error (.inr ⟨rfl, not_imp_comm.1 h hw⟩)

theorem refuses_toLiteral (h : ¬ P → w.isWritable = true) : Refuses P w.toLiteral := by
  unfold Value.toLiteral
  split
  · exact .ok _
  · rename_i hw
    exact .error (.inr ⟨rfl, not_imp_comm.1 h hw⟩)

theorem refuses_requireMapping : Refuses P (requireMapping place v) := by
  unfold requireMapping
  split
  · exact .ok _
  · exact refuses_fail

theorem refuses_requireTexts : Refuses P (requireTexts place v) := by
  unfold requireTexts
  split
  · split
    · exact .ok _
    · exact refuses_fail
  · exact refuses_fail

theorem mem_addNames {group : Value} {names : List String} : ∀ {groups found : List (String × Value)},
    addNames group groups names = .ok found → ∀ g ∈ found, g ∈ groups ∨ g.2 = group := by
  induction names with
  | nil =>
    intro groups found h g hg
    rw [addNames, Except.ok.injEq] at h
    exact .inl (h ▸ hg)
  | cons name names ih =>
    intro groups found h g hg
    rw [addNames] at h
    split at h
    · split at h
      · exact ih h g hg
      · obtain ⟨_, -, h⟩ := bind_eq_ok.1 h
        obtain ⟨_, -, h⟩ := bind_eq_ok.1 h
        exact absurd h fail_ne_ok
    · rcases ih h g hg with hg | hg
      · rcases List.mem_append.1 hg with hg | hg
        · exact .inl hg
        · exact .inr (List.mem_singleton.1 hg ▸ rfl)
      · exact .inr hg

theorem refuses_addNames {group : Value} (hgroup : ¬ P → group.isWritable = true) (names : List String) :
    ∀ {groups : List (String × Value)}, (¬ P → ∀ g ∈ groups, g.2.isWritable = true) →
      Refuses P (addNames group groups names) := by
  induction names with
  | nil => exact fun _ => .ok _
  | cons name names ih =>
    intro groups hgroups
    rw [addNames]
    split
    · rename_i g hg
      split
      · exact ih hgroups
      · exact .bind (refuses_toText fun hP => hgroups hP g (List.mem_of_find?_eq_some hg)) fun _ _ =>
          .bind (refuses_toText hgroup) fun _ _ => refuses_fail
    · refine ih fun hP g hg => ?_
      rcases List.mem_append.1 hg with hg | hg
      · exact hgroups hP g hg
      · exact List.mem_singleton.1 hg ▸ hgroup hP

theorem refuses_checkGroups {es : Entries} : ∀ {groups : List (String × Value)}, (¬ P → Writable es) →
    (¬ P → ∀ g ∈ groups, g.2.isWritable = true) → Refuses P (checkGroups groups es) := by
  induction es with
  | nil => exact fun _ _ => .ok _
  | cons e es ih =>
    obtain ⟨group, names⟩ := e
    intro groups hes hgroups
    have hgroup : ¬ P → group.isWritable = true := fun hP => (hes hP _ List.mem_cons_self).1
    rw [checkGroups]
    refine .bind (refuses_toText hgroup) fun _ _ => .bind refuses_requireTexts fun names _ =>
      .bind (refuses_addNames hgroup names hgroups) fun found hfound => ?_
    -- a message on a later group names one of the groups before it
    refine ih (fun hP => (List.forall_mem_cons.1 (hes hP)).2) fun hP g hg => ?_
    rcases mem_addNames hfound g hg with hg | hg
    · exact hgroups hP g hg
    · exact hg ▸ hgroup hP

theorem writable_of_requireMapping (hv : ¬ P → v.isWritable = true) (h : requireMapping place v = .ok es) :
    ¬ P → Writable es := fun hP => writable_of_unfold (hv hP) (requireMapping_eq_ok.1 h)

theorem refuses_checkTypeEquivalence (hv : ¬ P → v.isWritable = true) : Refuses P (checkTypeEquivalence v) :=
  .bind refuses_requireMapping fun _ hes =>
    .bind (refuses_checkGroups (writable_of_requireMapping hv hes) nofun) fun _ _ => .ok _

theorem refuses_checkThreshold {e : Value × Value} (hkey : ¬ P → e.1.isWritable = true)
    (hvalue : ¬ P → e.2.isWritable = true) : Refuses P (checkThreshold e) := by
  unfold checkThreshold
  dsimp only
  split
  · exact .bind (refuses_toText hkey) fun _ _ => refuses_fail_bind
  split
  · exact .bind (refuses_toText hkey) fun _ _ => .bind (refuses_toLiteral hvalue) fun _ _ => refuses_fail
  · exact .ok _

theorem refuses_checkThresholds (hv : ¬ P → v.isWritable = true) : Refuses P (checkThresholds v) :=
  .bind refuses_requireMapping fun _ hes => .bind (.forM fun e he =>
    refuses_checkThreshold (fun hP => (writable_of_requireMapping hv hes hP e he).1)
      fun hP => (writable_of_requireMapping hv hes hP e he).2) fun _ _ => .ok _

theorem refuses_checkCount (hes : ¬ P → Writable es) (key : String) : Refuses P (checkCount es key) := by
  unfold checkCount
  dsimp only
  split
  · exact .bind (refuses_toLiteral fun hP => isWritable_lookup (hes hP) key) fun _ _ => refuses_fail
  · exact .ok _

theorem refuses_checkPlan (hv : ¬ P → v.isWritable = true) : Refuses P (checkPlan v) := by
  unfold checkPlan
  refine .bind refuses_requireMapping fun es hes => ?_
  have hes := writable_of_requireMapping hv hes
  refine .bind (refuses_checkCount hes _) fun _ _ => .bind (refuses_checkCount hes _) fun _ _ => ?_
  dsimp only
  split
  · exact .bind (refuses_toLiteral fun hP => isWritable_lookup (hes hP) _) fun _ _ => refuses_fail_bind
  · exact .ok _

theorem refuses_checkRule {e : Value × Value} (hkey : ¬ P → e.1.isWritable = true) :
    Refuses P (checkRule e) := by
  unfold checkRule
  refine .bind (refuses_toText hkey) fun layer _ => ?_
  have hrule : ∀ keys : List String, Refuses P (do
      let rule ← requireMapping ("contracts.naming_rules." ++ layer) e.2
      for key in keys do
        let _ ← requireTexts ("contracts.naming_rules." ++ layer ++ "." ++ key)
          (lookupD rule key (.list []))) :=
    fun keys => .bind refuses_requireMapping fun _ _ => .bind (.forIn (fun _ _ _ =>
      .bind refuses_requireTexts fun _ _ => .ok _) _) fun _ _ => .ok _
  split
  · exact hrule _
  · exact hrule _
  · exact refuses_fail

theorem refuses_checkContracts (hv : ¬ P → v.isWritable = true) : Refuses P (checkContracts v) := by
  unfold checkContracts
  refine .bind refuses_requireMapping fun es hes => .bind refuses_requireMapping fun mappings _ => ?_
  have hes := writable_of_requireMapping hv hes
  dsimp only
  split
  · exact refuses_fail_bind
  refine .bind refuses_requireMapping fun rules hrules => ?_
  have hrules := writable_of_requireMapping (fun hP => isWritable_lookupD (hes hP) rfl) hrules
  refine .bind (.forM fun e he => refuses_checkRule fun hP => (hrules hP e he).1) fun _ _ =>
    .bind refuses_requireTexts fun _ _ => ?_
  split
  · exact refuses_fail_bind
  · exact .ok _

theorem refuses_checkCritical (hv : ¬ P → v.isWritable = true) : Refuses P (checkCritical v) := by
  unfold checkCritical
  split
  · split
    · exact .ok _
    · exact .bind (refuses_toLiteral hv) fun _ _ => refuses_fail
  · exact .bind (refuses_toLiteral hv) fun _ _ => refuses_fail

theorem refuses_checkScan (hv : ¬ P → v.isWritable = true) : Refuses P (checkScan v) := by
  unfold checkScan
  refine .bind refuses_requireMapping fun es hes => ?_
  have hes := writable_of_requireMapping hv hes
  have hone : (Value.int 1).isWritable = true := by decide +kernel
  dsimp only
  split
  · exact .bind (refuses_toLiteral fun hP => isWritable_lookupD (hes hP) hone) fun _ _ => refuses_fail_bind
  refine .bind refuses_requireMapping fun patterns hpatterns => ?_
  have hpatterns := writable_of_requireMapping (fun hP => isWritable_lookupD (hes hP) rfl) hpatterns
  exact .bind (.forIn (fun e he _ => .bind (refuses_toText fun hP => (hpatterns hP e he).1) fun _ _ =>
    .bind refuses_requireTexts fun _ _ => .ok _) _) fun _ _ => .ok _

/-- **The faults of sections.** -/
theorem refuses_ofSections {merged : Entries} (h : ¬ P → Writable merged) : Refuses P (ofSections merged) := by
  have hsection (name : String) : ¬ P → (sectionOf merged name).isWritable = true :=
    fun hP => isWritable_sectionOf (h hP) name
  exact .bind (refuses_checkTypeEquivalence (hsection _)) fun _ _ =>
    .bind (refuses_checkThresholds (hsection _)) fun _ _ => .bind (refuses_checkPlan (hsection _)) fun _ _ =>
    .bind (refuses_checkContracts (hsection _)) fun _ _ =>
    .bind (refuses_checkCritical fun hP => isWritable_lookup (h hP) _) fun _ _ =>
    .bind (refuses_checkScan (hsection _)) fun _ _ => .ok _

end

/-! ## Keys that are no texts -/

/-- A mapping that has a key which is no text. -/
def HasOtherKey (v : Value) : Prop := ∃ data, v.unfold = .map data ∧ ∃ e ∈ data, isText e.1 = false

theorem isNone_get?_defaults {k : Value} (hk : isText k = false) : (get? defaults k).isNone = true := by
  rw [outline_defaults.worded.isNone_get?]
  intro hmem
  obtain ⟨e, he, rfl⟩ := List.mem_map.1 hmem
  obtain ⟨name, hname⟩ := outline_defaults.worded.names e he
  rw [hname] at hk
  cases hk

/-- Keys that no section has cannot be listed if one of them is no text. -/
theorem checkKeys_cases (data : Entries) :
    ((∃ e ∈ data, isText e.1 = false) ∧ ∃ typeName, checkKeys data = .error (.type (.notText typeName))) ∨
    ((∀ e ∈ data, isText e.1 = true) ∧
      (checkKeys data = .ok () ∨ ∃ cause, checkKeys data = .error (.config cause))) := by
  unfold checkKeys
  dsimp only
  split
  · rename_i e he
    obtain ⟨hdata, -⟩ := List.mem_filter.1 (List.mem_of_find?_eq_some he)
    exact .inl ⟨⟨e, hdata, by simpa using List.find?_some he⟩, _, rfl⟩
  · rename_i hnone
    refine .inr ⟨fun e he => ?_, ?_⟩
    · -- no section has a key that is no text, so that it would have been found
      by_contra htext
      rw [Bool.not_eq_true] at htext
      have hknown := List.find?_eq_none.1 hnone e (List.mem_filter.2 ⟨he, isNone_get?_defaults htext⟩)
      rw [htext] at hknown
      exact hknown rfl
    · split
      · exact .inr ⟨_, rfl⟩
      · exact .inl rfl

theorem ofValue_of_map (h : v.unfold = .map data) :
    ofValue v = checkKeys data >>= fun _ => ofSections (mergeOver data) := by
  rw [ofValue, requireMapping_eq_ok.2 h]
  rfl

theorem ofValue_of_not_map (h : ∀ data, v.unfold ≠ .map data) :
    ofValue v = .error (.config (.notMapping "configuration" v.typeName)) := by
  unfold ofValue requireMapping
  split
  · rename_i data hdata
    exact absurd hdata (h data)
  · rfl

theorem ofSections_cases (h : v.unfold = .map data) :
    (∃ c, ofSections (mergeOver data) = .ok c) ∨
      (∃ cause, ofSections (mergeOver data) = .error (.config cause)) ∨
      v.isWritable = false ∧ ofSections (mergeOver data) = .error (.value .unwritable) := by
  have hmerged : ¬ v.isWritable = false → Writable (mergeOver data) := fun hwritable =>
    writable_mergeOver (writable_of_unfold (Bool.not_eq_false _ ▸ hwritable) h)
  cases hsections : ofSections (mergeOver data) with
  | ok c => exact .inl ⟨c, rfl⟩
  | error f =>
    rcases refuses_ofSections hmerged f hsections with ⟨cause, rfl⟩ | ⟨rfl, hlong⟩
    · exact .inr (.inl ⟨cause, rfl⟩)
    · exact .inr (.inr ⟨hlong, rfl⟩)

/-- **How a configuration is refused.** A value with a key that is no text has a fault of its own. Every other
value makes a configuration or has a fault of configuration, unless it has an integer that is too long to be
written in a message. -/
theorem ofValue_refuses (v : Value) :
    (HasOtherKey v ∧ ∃ typeName, ofValue v = .error (.type (.notText typeName))) ∨
    (¬ HasOtherKey v ∧ ((∃ c, ofValue v = .ok c) ∨ (∃ cause, ofValue v = .error (.config cause)) ∨
      v.isWritable = false ∧ ofValue v = .error (.value .unwritable))) := by
  by_cases hmap : ∃ data, v.unfold = .map data
  · obtain ⟨data, hdata⟩ := hmap
    rw [ofValue_of_map hdata]
    rcases checkKeys_cases data with ⟨hother, typeName, hkeys⟩ | ⟨htexts, hkeys⟩
    · exact .inl ⟨⟨data, hdata, hother⟩, typeName, by rw [hkeys]; rfl⟩
    refine .inr ⟨?_, ?_⟩
    · rintro ⟨data', hdata', e, he, htext⟩
      obtain rfl := Value.map.inj (hdata.symm.trans hdata')
      rw [htexts e he] at htext
      cases htext
    · rcases hkeys with hkeys | ⟨cause, hkeys⟩
      · rw [hkeys]
        exact ofSections_cases hdata
      · exact .inr (.inl ⟨cause, by rw [hkeys]; rfl⟩)
  · have hother := ofValue_of_not_map fun data hdata => hmap ⟨data, hdata⟩
    exact .inr ⟨fun ⟨data, hdata, _⟩ => hmap ⟨data, hdata⟩, .inr (.inl ⟨_, hother⟩)⟩

/-- A file with a number as its key, and a count that is too long to be written. -/
theorem ofValue_other_faults :
    (Yaml.load "1: x".toList).toOption.map (fun v => fault? (ofValue v)) =
      some (some (.type (.notText "int"))) ∧
    ofValue (.record [("plan_thresholds", .record [("full_sync_max_impacted", .int (-(10 ^ 4300)))])]) =
      .error (.value .unwritable) :=
  ⟨by decide +kernel, eq_error_of_fault? (by decide +kernel)⟩

end Config
end ChangeImpact
