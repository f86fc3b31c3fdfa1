import ChangeImpact.Proofs.Pairing
import ChangeImpact.Proofs.Snapshot

/-!
# Every contract is matched or reported

A check reports pairs and findings. A contract entity is in the family of its key, and what becomes of
the family decides what becomes of the entity: a family with several backend members is a duplicate,
one with both sides is matched, and one with a single side is an orphan unless it is matched with the
other orphan on its path.

* `Distinct.naming_duplicates`, `Distinct.naming_orphans`: the findings that name an entity.
* `Distinct.classifies`: **what becomes of a family decides what becomes of its members.**
* `check_classifies`: **a contract is in a pair, or in one finding on orphans, or in one on duplicates.**
-/

namespace ChangeImpact

/-- The findings of a rule that name an entity. -/
def ConsistencyReport.naming (r : ConsistencyReport) (rule id : String) : List Finding :=
  (r.findingsOf rule).filter fun f => f.ids.contains id

/-- What a report says of a contract entity: it is in a pair, or in one finding on orphans, or in one
finding on duplicates, and nothing else of these three. -/
inductive ConsistencyReport.Classifies (r : ConsistencyReport) (id : String) : Prop
  | paired (pairs : r.pairsFor id ≠ []) (orphans : r.naming "OrphanContract" id = [])
      (duplicates : r.naming "DuplicateRoute" id = [])
  | orphan (pairs : r.pairsFor id = []) (orphans : (r.naming "OrphanContract" id).length = 1)
      (duplicates : r.naming "DuplicateRoute" id = [])
  | duplicate (pairs : r.pairsFor id = []) (orphans : r.naming "OrphanContract" id = [])
      (duplicates : (r.naming "DuplicateRoute" id).length = 1)

namespace Contract

variable {config : Config} {side : Layer} {version : Nat} {ms : List Member} {fams : List Family}
  {unrouted : List Entity} {f : Family} {p : ContractPair} {id : String}

/-! ## Findings -/

/-- The orphans that are not matched by path. -/
def isLeft (config : Config) (side : Layer) (fams : List Family) (f : Family) : Bool :=
  f.isOrphan && !isPathPaired config side (orphansOf fams) f

@[simp] theorem rule_duplicateOf : (duplicateOf f).rule = "DuplicateRoute" := rfl

@[simp] theorem rule_orphanOf : (orphanOf f).rule = "OrphanContract" := rfl

@[simp] theorem rule_unroutedOf (e : Entity) : (unroutedOf e).rule = "UnroutedContract" := rfl

theorem findings_reportOn_perm (config : Config) (side : Layer) (version : Nat) (fams : List Family)
    (unrouted : List Entity) :
    (reportOn config side version fams unrouted).findings.Perm
      ((fams.filter Family.isDuplicate).map duplicateOf ++
        (fams.filter (isLeft config side fams)).map orphanOf ++ unrouted.map unroutedOf) := by
  refine (sortByRank_perm _ _).trans ?_
  rw [List.filter_filter]
  have hleft : isLeft config side fams = fun f =>
      !isPathPaired config side (fams.filter Family.isOrphan) f && f.isOrphan :=
    funext fun f => Bool.and_comm _ _
  rw [hleft]

theorem findingsOf_duplicates (config : Config) (side : Layer) (version : Nat) (fams : List Family)
    (unrouted : List Entity) :
    ((reportOn config side version fams unrouted).findingsOf "DuplicateRoute").Perm
      ((fams.filter Family.isDuplicate).map duplicateOf) := by
  refine ((findings_reportOn_perm config side version fams unrouted).filter _).trans ?_
  simp [List.filter_map, Function.comp_def]

theorem findingsOf_orphans (config : Config) (side : Layer) (version : Nat) (fams : List Family)
    (unrouted : List Entity) :
    ((reportOn config side version fams unrouted).findingsOf "OrphanContract").Perm
      ((fams.filter (isLeft config side fams)).map orphanOf) := by
  refine ((findings_reportOn_perm config side version fams unrouted).filter _).trans ?_
  simp [List.filter_map, Function.comp_def]

theorem findingsOf_unrouted (config : Config) (side : Layer) (version : Nat) (fams : List Family)
    (unrouted : List Entity) :
    ((reportOn config side version fams unrouted).findingsOf "UnroutedContract").Perm
      (unrouted.map unroutedOf) := by
  refine ((findings_reportOn_perm config side version fams unrouted).filter _).trans ?_
  simp [List.filter_map, Function.comp_def]

theorem mem_duplicateOf : id ∈ (duplicateOf f).ids ↔ f.Names id := by
  unfold duplicateOf Finding.ids Family.Names
  rw [List.mem_append, or_comm]

theorem mem_orphanOf (h : f.isOrphan = true) : id ∈ (orphanOf f).ids ↔ f.Names id := by
  unfold orphanOf Finding.ids Family.Names
  rcases Family.isOrphan_iff.1 h with ⟨hfront, -⟩ | hback
  · simp [hfront, mem_idsOf]
  · by_cases hfront : f.frontend = [] <;> simp [hfront, hback, mem_idsOf]

/-- Of the findings of a rule on chosen families, the one on the family of an entity names it, if that
family is chosen. -/
theorem Distinct.naming_eq (hn : Distinct ms) (hf : f ∈ families ms) (hid : f.Names id)
    {r : ConsistencyReport} {rule : String} {chosen : Family → Bool} {finding : Family → Finding}
    (hfindings : (r.findingsOf rule).Perm (((families ms).filter chosen).map finding))
    (hids : ∀ g, chosen g = true → (id ∈ (finding g).ids ↔ g.Names id)) :
    r.naming rule id = if chosen f then [finding f] else [] := by
  have hperm := hfindings.filter fun x => x.ids.contains id
  rw [List.filter_map, List.filter_filter] at hperm
  by_cases hchosen : chosen f = true
  · rw [if_pos hchosen]
    rw [filter_eq_singleton (nodup_keys_families ms) hf, List.map_singleton] at hperm
    · exact List.perm_singleton.1 hperm
    intro g hg
    rw [← hn.names_iff hf hid hg, Bool.and_eq_true, Function.comp_apply, List.contains_iff_mem]
    constructor
    · rintro ⟨hgid, hg'⟩
      exact (hids g hg').1 hgid
    · intro hgid
      obtain rfl := hn.eq_of_names hg hf hgid hid
      exact ⟨(hids g hchosen).2 hgid, hchosen⟩
  · -- a chosen family that names the entity would be its own
    rw [if_neg hchosen]
    refine (hperm.trans (.of_eq ?_)).eq_nil
    rw [List.map_eq_nil_iff, List.filter_eq_nil_iff]
    intro g hg hboth
    rw [Bool.and_eq_true, Function.comp_apply, List.contains_iff_mem] at hboth
    obtain ⟨hgid, hg'⟩ := hboth
    obtain rfl := hn.eq_of_names hg hf ((hids g hg').1 hgid) hid
    exact hchosen hg'

/-- The findings on duplicates that name an entity. -/
theorem Distinct.naming_duplicates (hn : Distinct ms) (hf : f ∈ families ms) (hid : f.Names id) :
    (reportOn config side version (families ms) unrouted).naming "DuplicateRoute" id =
      if f.isDuplicate then [duplicateOf f] else [] :=
  hn.naming_eq hf hid (findingsOf_duplicates _ _ _ _ _) fun _ _ => mem_duplicateOf

/-- The findings on orphans that name an entity. -/
theorem Distinct.naming_orphans (hn : Distinct ms) (hf : f ∈ families ms) (hid : f.Names id) :
    (reportOn config side version (families ms) unrouted).naming "OrphanContract" id =
      if isLeft config side (families ms) f then [orphanOf f] else [] :=
  hn.naming_eq hf hid (findingsOf_orphans _ _ _ _ _) fun _ h => mem_orphanOf (Bool.and_eq_true_iff.1 h).1

theorem isLeft_iff : isLeft config side fams f = true ↔
    f.isOrphan = true ∧ ¬ isPathPaired config side (orphansOf fams) f = true := by
  unfold isLeft
  rw [Bool.and_eq_true, Bool.not_eq_true', Bool.not_eq_true]

/-- **What becomes of a family decides what becomes of its members.** -/
theorem Distinct.classifies (hn : Distinct ms) (hf : f ∈ families ms) (hid : f.Names id) :
    (reportOn config side version (families ms) unrouted).Classifies id := by
  have hnone : ¬ (f.IsMatched ∨
      f.isOrphan = true ∧ isPathPaired config side (orphansOf (families ms)) f = true) →
      (reportOn config side version (families ms) unrouted).pairsFor id = [] :=
    fun h => not_not.1 (mt (hn.pairsFor_ne_nil hf hid).1 h)
  rcases f.kinds with hduplicate | horphan | hmatched
  · have hnot : ¬ f.isOrphan = true := Family.not_orphan_of_duplicate hduplicate
    refine .duplicate (hnone ?_) ?_ ?_
    · rintro (h | ⟨h, -⟩)
      · exact h.not_duplicate hduplicate
      · exact hnot h
    · rw [hn.naming_orphans hf hid, if_neg fun h => hnot (isLeft_iff.1 h).1]
    · rw [hn.naming_duplicates hf hid, if_pos hduplicate]; rfl
  · have hnot : ¬ f.isDuplicate = true := fun h => Family.not_orphan_of_duplicate h horphan
    by_cases hpaired : isPathPaired config side (orphansOf (families ms)) f = true
    · refine .paired ((hn.pairsFor_ne_nil hf hid).2 (.inr ⟨horphan, hpaired⟩)) ?_ ?_
      · rw [hn.naming_orphans hf hid, if_neg fun h => (isLeft_iff.1 h).2 hpaired]
      · rw [hn.naming_duplicates hf hid, if_neg hnot]
    · refine .orphan (hnone ?_) ?_ ?_
      · rintro (h | ⟨-, h⟩)
        · exact h.not_orphan horphan
        · exact hpaired h
      · rw [hn.naming_orphans hf hid, if_pos (isLeft_iff.2 ⟨horphan, hpaired⟩)]; rfl
      · rw [hn.naming_duplicates hf hid, if_neg hnot]
  · refine .paired ((hn.pairsFor_ne_nil hf hid).2 (.inl hmatched)) ?_ ?_
    · rw [hn.naming_orphans hf hid, if_neg fun h => hmatched.not_orphan (isLeft_iff.1 h).1]
    · rw [hn.naming_duplicates hf hid, if_neg hmatched.not_duplicate]

/-! ## Which entities a report is about -/

theorem exists_names_of_pair (hp : p ∈ (reportOn config side version fams unrouted).pairs) :
    (∃ f ∈ fams, p.frontend ∈ idsOf f.frontend) ∧ ∃ f ∈ fams, p.backend ∈ idsOf f.backend := by
  rcases mem_pairs_reportOn.1 hp with hp | hp
  · obtain ⟨f, hf, -, hfront, hback⟩ := names_of_matched hp
    exact ⟨⟨f, hf, hfront⟩, f, hf, hback⟩
  · obtain ⟨path, hpair⟩ := mem_onPaths.1 hp
    obtain ⟨⟨f, hf, -, -, hfront⟩, b, hb, -, -, hback⟩ := names_of_pathPair hpair
    exact ⟨⟨f, (mem_orphansOf.1 hf).1, hfront⟩, b, (mem_orphansOf.1 hb).1, hback⟩

theorem exists_names_of_joins (hp : p ∈ (reportOn config side version fams unrouted).pairs)
    (hjoins : Joins p id) : ∃ f ∈ fams, f.Names id := by
  obtain ⟨⟨f, hf, hfront⟩, b, hb, hback⟩ := exists_names_of_pair hp
  rcases hjoins with rfl | rfl
  · exact ⟨f, hf, .inl hfront⟩
  · exact ⟨b, hb, .inr hback⟩

/-- A finding names members of a family, or it is about a route without a path. -/
theorem exists_names_of_finding {x : Finding}
    (hx : x ∈ (reportOn config side version fams unrouted).findings) (hid : id ∈ x.ids) :
    (x.rule ≠ "UnroutedContract" ∧ ∃ f ∈ fams, f.Names id) ∨
      (x.rule = "UnroutedContract" ∧ ∃ e ∈ unrouted, e.id = id) := by
  rw [(findings_reportOn_perm config side version fams unrouted).mem_iff, List.mem_append,
    List.mem_append, List.mem_map, List.mem_map, List.mem_map] at hx
  rcases hx with (⟨f, hf, rfl⟩ | ⟨f, hf, rfl⟩) | ⟨e, he, rfl⟩
  · exact .inl ⟨by simp, f, (List.mem_filter.1 hf).1, mem_duplicateOf.1 hid⟩
  · obtain ⟨hf, hleft⟩ := List.mem_filter.1 hf
    exact .inl ⟨by simp, f, hf, (mem_orphanOf (isLeft_iff.1 hleft).1).1 hid⟩
  · exact .inr ⟨rfl, e, he, (List.mem_singleton.1 hid).symm⟩

theorem naming_eq_nil {r : ConsistencyReport} {rule : String}
    (h : ∀ x ∈ r.findings, x.rule = rule → id ∉ x.ids) : r.naming rule id = [] := by
  unfold ConsistencyReport.naming ConsistencyReport.findingsOf
  rw [List.filter_eq_nil_iff]
  intro x hx
  obtain ⟨hx, hrule⟩ := List.mem_filter.1 hx
  rw [List.contains_iff_mem]
  exact h x hx (beq_iff_eq.1 hrule)

theorem naming_unrouted {e : Entity} (hn : (unrouted.map Entity.id).Nodup) (he : e ∈ unrouted) :
    (reportOn config side version fams unrouted).naming "UnroutedContract" e.id = [unroutedOf e] := by
  have hperm := (findingsOf_unrouted config side version fams unrouted).filter fun x => x.ids.contains e.id
  rw [List.filter_map, filter_eq_singleton hn he, List.map_singleton] at hperm
  · exact List.perm_singleton.1 hperm
  · intro x _
    rw [Function.comp_apply, List.contains_iff_mem]
    exact List.mem_singleton.trans eq_comm

/-- An entity that is the frontend of all its pairs is in one at most. -/
theorem Distinct.length_pairsFor_le (hn : Distinct ms)
    (hfront : ∀ p ∈ (reportOn config side version (families ms) unrouted).pairs, Joins p id →
      p.frontend = id) :
    ((reportOn config side version (families ms) unrouted).pairsFor id).length ≤ 1 := by
  set r := reportOn config side version (families ms) unrouted with hr
  -- the frontends of its pairs are different, and all of them are the entity
  have hnodup : ((r.pairsFor id).map ContractPair.frontend).Nodup :=
    hn.nodup_frontends.sublist (List.filter_sublist.map _)
  have hall : ∀ x ∈ (r.pairsFor id).map ContractPair.frontend, x = id := by
    intro x hx
    obtain ⟨p, hp, rfl⟩ := List.mem_map.1 hx
    obtain ⟨hp, hjoins⟩ := mem_pairsFor.1 hp
    exact hfront p hp hjoins
  rw [List.eq_replicate_of_mem hall, List.nodup_replicate, List.length_map] at hnodup
  exact hnodup

theorem not_isContract_of_isUnrouted {e : Entity} (h : isUnrouted e = true) : ¬ isContract e = true := by
  unfold isUnrouted at h
  unfold isContract
  simp only [Bool.and_eq_true, beq_iff_eq] at h
  simp [h.1.2, h.2]

/-! ## The report on a list of entities -/

section Entities

variable {entities : List Entity} {e : Entity}

/-- The report on some entities with their places. -/
def reportOf (config : Config) (side : Layer) (version : Nat) (entities : List Entity)
    (ms : List Member) : ConsistencyReport :=
  reportOn config side version (families ms) (entities.filter isUnrouted)

theorem eq_of_id (hids : (entities.map Entity.id).Nodup) {e' : Entity} (he' : e' ∈ entities)
    (he : e ∈ entities) (h : e'.id = e.id) : e' = e := List.inj_on_of_nodup_map hids he' he h

theorem not_names_of_isUnrouted (hids : (entities.map Entity.id).Nodup)
    (hms : members config entities = .ok ms) (he : e ∈ entities) (hunrouted : isUnrouted e = true) :
    ¬ ∃ f ∈ families ms, f.Names e.id := by
  intro hnames
  obtain ⟨e', he', hcontract, hid⟩ := (exists_names_iff hms).1 hnames
  rw [eq_of_id hids he' he hid] at hcontract
  exact not_isContract_of_isUnrouted hunrouted hcontract

/-- A contract entity is in no finding on routes without a path. -/
theorem naming_unrouted_of_isContract (hids : (entities.map Entity.id).Nodup) (he : e ∈ entities)
    (hcontract : isContract e = true) :
    (reportOf config side version entities ms).naming "UnroutedContract" e.id = [] := by
  refine naming_eq_nil fun x hx hrule hid => ?_
  rcases exists_names_of_finding hx hid with ⟨hne, -⟩ | ⟨-, e', he', hid'⟩
  · exact hne hrule
  · obtain ⟨he', hunrouted⟩ := List.mem_filter.1 he'
    rw [eq_of_id hids he' he hid'] at hunrouted
    exact not_isContract_of_isUnrouted hunrouted hcontract

/-- A route without a path is in no finding of another rule. -/
theorem naming_of_isUnrouted (hids : (entities.map Entity.id).Nodup)
    (hms : members config entities = .ok ms) (he : e ∈ entities) (hunrouted : isUnrouted e = true)
    {rule : String} (hne : rule ≠ "UnroutedContract") :
    (reportOf config side version entities ms).naming rule e.id = [] := by
  refine naming_eq_nil fun x hx hrule hid => ?_
  rcases exists_names_of_finding hx hid with ⟨-, hnames⟩ | ⟨hrule', -⟩
  · exact not_names_of_isUnrouted hids hms he hunrouted hnames
  · exact hne (hrule.symm.trans hrule')

theorem pairsFor_of_isUnrouted (hids : (entities.map Entity.id).Nodup)
    (hms : members config entities = .ok ms) (he : e ∈ entities) (hunrouted : isUnrouted e = true) :
    (reportOf config side version entities ms).pairsFor e.id = [] := by
  by_contra hpairs
  obtain ⟨p, hp, hjoins⟩ := pairsFor_ne_nil_iff.1 hpairs
  exact not_names_of_isUnrouted hids hms he hunrouted (exists_names_of_joins hp hjoins)

/-- A frontend entity is the frontend of all its pairs. -/
theorem frontend_eq_of_joins (hids : (entities.map Entity.id).Nodup)
    (hms : members config entities = .ok ms) (he : e ∈ entities) (hlayer : e.layer = some .frontend)
    (hp : p ∈ (reportOf config side version entities ms).pairs) (hjoins : Joins p e.id) :
    p.frontend = e.id := by
  refine hjoins.resolve_right fun hback => ?_
  obtain ⟨-, f, hf, hmem⟩ := exists_names_of_pair hp
  obtain ⟨m, hm, hmid⟩ := mem_idsOf.1 hmem
  obtain ⟨hm, -, hbackend⟩ := (mem_backend hf).1 hm
  rw [eq_of_id hids (entity_mem hms hm).1 he (hmid.trans hback), hlayer] at hbackend
  cases hbackend

/-- Only contract entities and routes without a path are reported on. -/
theorem exists_entity_of_reported (hms : members config entities = .ok ms)
    (h : (reportOf config side version entities ms).pairsFor id ≠ [] ∨
      ∃ x ∈ (reportOf config side version entities ms).findings, id ∈ x.ids) :
    ∃ e ∈ entities, e.id = id ∧ (isContract e = true ∨ isUnrouted e = true) := by
  have hcontract : (∃ f ∈ families ms, f.Names id) →
      ∃ e ∈ entities, e.id = id ∧ (isContract e = true ∨ isUnrouted e = true) := by
    intro hnames
    obtain ⟨e, he, hcontract, rfl⟩ := (exists_names_iff hms).1 hnames
    exact ⟨e, he, rfl, .inl hcontract⟩
  rcases h with hpairs | ⟨x, hx, hid⟩
  · obtain ⟨p, hp, hjoins⟩ := pairsFor_ne_nil_iff.1 hpairs
    exact hcontract (exists_names_of_joins hp hjoins)
  · rcases exists_names_of_finding hx hid with ⟨-, hnames⟩ | ⟨-, e, he, rfl⟩
    · exact hcontract hnames
    · obtain ⟨he, hunrouted⟩ := List.mem_filter.1 he
      exact ⟨e, he, rfl, .inr hunrouted⟩

end Entities

/-! ## Checks -/

variable {s : Snapshot} {declared : Value} {report : ConsistencyReport}

theorem check_eq_ok (h : check config s declared false = .ok report) :
    ∃ side ms, members config s.entities = .ok ms ∧
      report = reportOf config side s.version s.entities ms := by
  unfold check at h
  rw [bind_eq_ok] at h
  obtain ⟨side, -, h⟩ := h
  rw [bind_eq_ok] at h
  obtain ⟨ms, hms, h⟩ := h
  refine ⟨side, ms, hms, ?_⟩
  dsimp only at h
  split at h
  · exact (Except.ok.inj h).symm
  · cases h

/-- A check returns if every contract has a place and all status codes can be written. -/
theorem exists_check (hside : sideOf config declared = .ok side)
    (hms : members config s.entities = .ok ms)
    (hcodes : ∀ e ∈ s.entities, (e.detail "status_codes").isWritable = true) :
    ∃ report, check config s declared false = .ok report := by
  have hpairs : ∀ p, hasWritableCodes s p = true := by
    intro p
    unfold hasWritableCodes
    rw [Bool.or_eq_true, List.all_eq_true]
    refine .inr fun id _ => ?_
    cases he : s.entity? id with
    | none => rfl
    | some e => exact hcodes e (List.mem_of_find?_eq_some he)
  refine ⟨reportOf config side s.version s.entities ms, ?_⟩
  unfold check
  rw [hside, hms]
  exact if_pos (List.all_eq_true.2 fun p _ => hpairs p)

/-- **A check accounts for every contract.** A contract entity is in a pair, or in one finding on
orphans, or in one on duplicates; a frontend entity is in one pair at most; a route without a path is in
one finding that says so; and nothing else is reported on. -/
theorem check_classifies (hids : s.ids.Nodup) (h : check config s declared false = .ok report) :
    (∀ e ∈ s.entities, isContract e = true →
      report.Classifies e.id ∧ report.naming "UnroutedContract" e.id = []) ∧
    (∀ e ∈ s.entities, e.layer = some .frontend → (report.pairsFor e.id).length ≤ 1) ∧
    (∀ e ∈ s.entities, isUnrouted e = true →
      (report.naming "UnroutedContract" e.id).length = 1 ∧ report.pairsFor e.id = [] ∧
        report.naming "OrphanContract" e.id = [] ∧ report.naming "DuplicateRoute" e.id = []) ∧
    (∀ id, report.pairsFor id ≠ [] ∨ (∃ x ∈ report.findings, id ∈ x.ids) →
      ∃ e ∈ s.entities, e.id = id ∧ (isContract e = true ∨ isUnrouted e = true)) := by
  obtain ⟨side, ms, hms, rfl⟩ := check_eq_ok h
  have hn : Distinct ms := distinct_of_members hids hms
  refine ⟨fun e he hcontract => ⟨?_, naming_unrouted_of_isContract hids he hcontract⟩,
    fun e he hlayer => ?_, fun e he hunrouted => ⟨?_, ?_⟩, fun id => exists_entity_of_reported hms⟩
  · obtain ⟨f, hf, hid⟩ := (exists_names_iff hms).2 ⟨e, he, hcontract, rfl⟩
    exact hn.classifies hf hid
  · exact hn.length_pairsFor_le fun p hp => frontend_eq_of_joins hids hms he hlayer hp
  · have hn' : ((s.entities.filter isUnrouted).map Entity.id).Nodup :=
      hids.sublist (List.filter_sublist.map _)
    unfold reportOf
    rw [naming_unrouted hn' (List.mem_filter.2 ⟨he, hunrouted⟩)]
    rfl
  · exact ⟨pairsFor_of_isUnrouted hids hms he hunrouted,
      naming_of_isUnrouted hids hms he hunrouted (by decide),
      naming_of_isUnrouted hids hms he hunrouted (by decide)⟩

/-- A route with a method and a path, without a path if that is empty. -/
def routeAt (id : String) (layer : Layer) (method path : String) : Entity :=
  { Entity.bare id with
    kind := .apiRoute
    layer := some layer
    metadata := [(.str "method", .str method), (.str "path", .str path)] }

/-- A snapshot with a pair by key, a pair by path, a duplicate, an orphan and a route without a path. -/
def storefront : Snapshot where
  version := 1
  entities := [
    routeAt "api.cart" .backend "GET" "/cart", routeAt "api.list" .backend "GET" "/list",
    routeAt "api.list.old" .backend "GET" "/list", routeAt "api.save" .backend "POST" "/save",
    routeAt "web.cart" .frontend "GET" "/cart", routeAt "web.help" .frontend "GET" "/help",
    routeAt "web.lost" .frontend "GET" "", routeAt "web.save" .frontend "PUT" "/save",
    Entity.bare "web.util"]
  edges := []
  files := []
  owners := []

theorem check_storefront : storefront.ids.Nodup ∧
    ∃ report, check default storefront .null false = .ok report ∧
      (∀ e ∈ storefront.entities, e.id ≠ "web.lost" → e.id ≠ "web.util" → report.Classifies e.id) ∧
      (report.pairsFor "web.save").length ≤ 1 ∧
      (report.naming "UnroutedContract" "web.lost").length = 1 ∧
      report.pairsFor "web.util" = [] := by
  have hids : storefront.ids.Nodup := by decide
  have hmembers : (members default storefront.entities).isOk = true := by decide +kernel
  obtain ⟨ms, hms⟩ := exists_of_isOk hmembers
  have hside : sideOf default .null = .ok .frontend := by decide
  obtain ⟨report, h⟩ := exists_check hside hms (by decide)
  obtain ⟨hcontracts, hfront, hunrouted, hother⟩ := check_classifies hids h
  refine ⟨hids, report, h, fun e he hlost hutil => (hcontracts e he ?_).1, ?_, ?_, ?_⟩
  · revert e
    decide
  · exact hfront (routeAt "web.save" .frontend "PUT" "/save") (by simp [storefront]) rfl
  · exact (hunrouted (routeAt "web.lost" .frontend "GET" "") (by simp [storefront]) (by decide)).1
  · by_contra hpairs
    obtain ⟨e, he, hid, hkind⟩ := hother "web.util" (.inl hpairs)
    revert e
    decide

end Contract

end ChangeImpact
