import ChangeImpact.Proofs.Legibility

/-!
# Strict checks

A lenient check goes through all families and reports each duplicate. A strict one stops at the first
duplicate, and compares no more than the pairs of the families before it. Where the lenient check returns,
those pairs can be compared too, so what a strict check does can be read off the report.

* `backendsOf`: the backend contracts of a family, without the members of a check.
* `families_strict`: **families are in the order of their keys**, so the first duplicate is the smallest.
* `strict_check_agrees`: **a strict check fails at the smallest duplicate, or returns the same report.**
-/

namespace ChangeImpact

theorem FamilyKey.rank_injective : Function.Injective FamilyKey.rank := by
  rintro ⟨sort, key⟩ ⟨sort', key'⟩ h
  cases sort <;> cases sort' <;> simp_all [rank, FamilySort.word]

namespace Contract

variable {config : Config} {s : Snapshot} {declared : Value} {side : Layer} {version : Nat}
  {ms : List Member} {fams : List Family} {unrouted : List Entity} {f : Family} {p : ContractPair}
  {report : ConsistencyReport}

/-! ## The backend contracts of a family -/

/-- The backend contracts whose place is in a family. -/
def backendsOf (config : Config) (s : Snapshot) (family : FamilyKey) : List Entity :=
  s.entities.filter fun e => isContract e && e.layer == some .backend &&
    (Placement.of config e).toOption.map Placement.family == some family

/-- Their ids, in order. -/
def backendIds (config : Config) (s : Snapshot) (family : FamilyKey) : List String :=
  sortTexts ((backendsOf config s family).map Entity.id)

/-- A family has several backend contracts, and no smaller family has. -/
structure IsFirstDuplicate (config : Config) (s : Snapshot) (family : FamilyKey) : Prop where
  several : 1 < (backendsOf config s family).length
  least : ∀ other, 1 < (backendsOf config s other).length → other ≠ family →
    rankLt family.rank other.rank = true

/-- The backend contracts of a family are its members on the backend. -/
theorem backendsOf_eq (hms : members config s.entities = .ok ms) (family : FamilyKey) :
    backendsOf config s family =
      (ms.filter fun m => m.place.family == family && m.entity.layer == some .backend).map
        Member.entity := by
  have hsplit : backendsOf config s family = (ms.map Member.entity).filter fun e =>
      (Placement.of config e).toOption.map Placement.family == some family &&
        e.layer == some .backend := by
    unfold backendsOf
    rw [members_eq_ok hms, List.filter_filter]
    refine List.filter_congr fun e _ => ?_
    rw [Bool.and_comm, Bool.and_comm (isContract e), Bool.and_assoc]
  rw [hsplit, List.filter_map]
  refine congrArg _ (List.filter_congr fun m hm => ?_)
  rw [Function.comp_apply, place_of_mem hms hm]
  rfl

theorem backend_perm (hms : members config s.entities = .ok ms) (hf : f ∈ families ms) :
    (f.backend.map Member.entity).Perm (backendsOf config s f.key) := by
  rw [eq_familyOf hf, backendsOf_eq hms]
  exact (sortByRank_perm _ _).map _

theorem idsOf_backend (hms : members config s.entities = .ok ms) (hf : f ∈ families ms) :
    idsOf f.backend = backendIds config s f.key := by
  unfold idsOf backendIds
  refine sortTexts_congr ?_
  rw [show f.backend.map (fun m => m.entity.id) = (f.backend.map Member.entity).map Entity.id by
    rw [List.map_map]; rfl]
  exact (backend_perm hms hf).map _

theorem isDuplicate_iff_backends (hms : members config s.entities = .ok ms) (hf : f ∈ families ms) :
    f.isDuplicate = true ↔ 1 < (backendsOf config s f.key).length := by
  rw [Family.isDuplicate_iff, ← (backend_perm hms hf).length_eq, List.length_map]

/-- A family with backend contracts is one of the families of the check. -/
theorem exists_family_of_backends (hms : members config s.entities = .ok ms) {family : FamilyKey}
    (h : 0 < (backendsOf config s family).length) : ∃ f ∈ families ms, f.key = family := by
  rw [backendsOf_eq hms, List.length_map, List.length_pos_iff_exists_mem] at h
  obtain ⟨m, hm⟩ := h
  rw [List.mem_filter, Bool.and_eq_true, beq_iff_eq] at hm
  exact ⟨_, mem_families.2 ⟨m, hm.1, rfl⟩, hm.2.1⟩

/-! ## The first duplicate -/

/-- **Families are in the order of their keys.** -/
theorem families_strict (ms : List Member) :
    (families ms).Pairwise fun f g => rankLt f.key.rank g.key.rank = true := by
  unfold families
  rw [List.pairwise_map]
  exact sortByRank_strict ((nodup_keepFirst _).map FamilyKey.rank_injective)

/-- The duplicate that is found first is the smallest. -/
theorem isFirstDuplicate_of_find (hms : members config s.entities = .ok ms)
    (hf : (families ms).find? Family.isDuplicate = some f) : IsFirstDuplicate config s f.key := by
  have hmem : f ∈ families ms := List.mem_of_find?_eq_some hf
  obtain ⟨hdup, before, after, hsplit, hbefore⟩ := List.find?_eq_some_iff_append.1 hf
  refine ⟨(isDuplicate_iff_backends hms hmem).1 hdup, fun other hseveral hne => ?_⟩
  obtain ⟨g, hg, rfl⟩ := exists_family_of_backends hms (Nat.zero_lt_of_lt hseveral)
  have hgdup : g.isDuplicate = true := (isDuplicate_iff_backends hms hg).2 hseveral
  -- another duplicate comes later, since none comes before
  have hafter : g ∈ after := by
    rw [hsplit, List.mem_append, List.mem_cons] at hg
    rcases hg with hg | rfl | hg
    · exact absurd hgdup (by simpa using hbefore g hg)
    · exact absurd rfl hne
    · exact hg
  have hstrict := families_strict ms
  rw [hsplit] at hstrict
  exact List.rel_of_pairwise_cons (List.pairwise_append.1 hstrict).2.1 hafter

/-! ## Strict and lenient checks -/

theorem strict_check_of_find (hside : sideOf config declared = .ok side)
    (hms : members config s.entities = .ok ms)
    (hf : (families ms).find? Family.isDuplicate = some f) :
    check config s declared true =
      .error (if (pairsBefore config side (families ms)).all (hasWritableCodes s) then
        .duplicateRoute f.key.key (idsOf f.backend) else .value .unwritable) := by
  unfold check
  rw [hside, hms]
  simp only [bind, Except.bind, hf]

theorem strict_check_of_none (hside : sideOf config declared = .ok side)
    (hms : members config s.entities = .ok ms)
    (hf : (families ms).find? Family.isDuplicate = none) :
    check config s declared true = check config s declared false := by
  unfold check
  rw [hside, hms]
  simp only [bind, Except.bind, hf]

/-- What a strict check compares is compared by a lenient one. -/
theorem mem_pairs_of_mem_pairsBefore (h : p ∈ pairsBefore config side fams) :
    p ∈ (reportOn config side version fams unrouted).pairs := by
  refine mem_pairs_reportOn.2 (.inl ?_)
  unfold pairsBefore at h
  obtain ⟨f, hf, hp⟩ := List.mem_flatMap.1 h
  have hfilter : f ∈ fams.filter fun f => !f.isDuplicate :=
    List.mem_filter.2 ⟨(List.takeWhile_sublist _).subset hf,
      List.mem_takeWhile_imp (p := fun f : Family => !f.isDuplicate) hf⟩
  exact List.mem_flatMap.2 ⟨f, hfilter, hp⟩

theorem lenient_check_eq_ok (h : check config s declared false = .ok report) :
    ∃ side ms, sideOf config declared = .ok side ∧ members config s.entities = .ok ms ∧
      report = reportOf config side s.version s.entities ms ∧
      ∀ p ∈ report.pairs, hasWritableCodes s p = true := by
  have h' := h
  unfold check at h'
  obtain ⟨side, hside, h'⟩ := bind_eq_ok.1 h'
  obtain ⟨ms, hms, -⟩ := bind_eq_ok.1 h'
  rw [check_of_members hside hms] at h
  split at h
  · rename_i hcodes
    obtain rfl := Except.ok.inj h
    exact ⟨side, ms, hside, hms, rfl, List.all_eq_true.1 hcodes⟩
  · cases h

theorem exists_duplicate_iff (entities : List Entity) :
    (∃ x ∈ (reportOf config side version entities ms).findings, x.rule = "DuplicateRoute") ↔
      ∃ f ∈ families ms, f.isDuplicate = true := by
  have hperm := findingsOf_duplicates config side version (families ms) (entities.filter isUnrouted)
  constructor
  · rintro ⟨x, hx, hrule⟩
    have hx' := hperm.mem_iff.1 (List.mem_filter.2 ⟨hx, beq_iff_eq.2 hrule⟩)
    obtain ⟨f, hf, -⟩ := List.mem_map.1 hx'
    exact ⟨f, List.mem_filter.1 hf⟩
  · rintro ⟨f, hf, hdup⟩
    have hx := hperm.mem_iff.2 (List.mem_map_of_mem (List.mem_filter.2 ⟨hf, hdup⟩))
    exact ⟨_, (List.mem_filter.1 hx).1, rfl⟩

/-- **Strict and lenient checks agree.** Where a lenient check returns, a strict one fails with a duplicate
if and only if the report has a finding on duplicates. It then names the smallest family with several
backend contracts and all of these in order; otherwise it returns the same report. -/
theorem strict_check_agrees (h : check config s declared false = .ok report) :
    ((∃ key ids, check config s declared true = .error (.duplicateRoute key ids)) ↔
      ∃ x ∈ report.findings, x.rule = "DuplicateRoute") ∧
    ((∃ x ∈ report.findings, x.rule = "DuplicateRoute") →
      ∃ family, IsFirstDuplicate config s family ∧
        check config s declared true =
          .error (.duplicateRoute family.key (backendIds config s family))) ∧
    ((∀ x ∈ report.findings, x.rule ≠ "DuplicateRoute") →
      check config s declared true = .ok report) := by
  obtain ⟨side, ms, hside, hms, hreport, hcodes⟩ := lenient_check_eq_ok h
  have hfound : (∃ x ∈ report.findings, x.rule = "DuplicateRoute") ↔
      ∃ f ∈ families ms, f.isDuplicate = true := by
    rw [hreport]
    exact exists_duplicate_iff s.entities
  cases hf : (families ms).find? Family.isDuplicate with
  | none =>
    -- without a duplicate both checks go on to the last family
    have hstrict : check config s declared true = .ok report := by
      rw [strict_check_of_none hside hms hf, h]
    have hnone : ¬ ∃ x ∈ report.findings, x.rule = "DuplicateRoute" := by
      rw [hfound]
      rintro ⟨f, hmem, hdup⟩
      exact List.find?_eq_none.1 hf f hmem hdup
    refine ⟨⟨?_, fun hx => absurd hx hnone⟩, fun hx => absurd hx hnone, fun _ => hstrict⟩
    rintro ⟨key, ids, herror⟩
    rw [hstrict] at herror
    cases herror
  | some f =>
    have hmem : f ∈ families ms := List.mem_of_find?_eq_some hf
    have hx : ∃ x ∈ report.findings, x.rule = "DuplicateRoute" :=
      hfound.2 ⟨f, hmem, List.find?_some hf⟩
    -- the pairs before the duplicate are pairs of the report, so nothing stops the check earlier
    have hbefore : (pairsBefore config side (families ms)).all (hasWritableCodes s) = true := by
      refine List.all_eq_true.2 fun p hp => hcodes p ?_
      rw [hreport]
      exact mem_pairs_of_mem_pairsBefore hp
    have hstrict : check config s declared true =
        .error (.duplicateRoute f.key.key (backendIds config s f.key)) := by
      rw [strict_check_of_find hside hms hf, if_pos hbefore, idsOf_backend hms hmem]
    refine ⟨⟨fun _ => hx, fun _ => ⟨_, _, hstrict⟩⟩,
      fun _ => ⟨f.key, isFirstDuplicate_of_find hms hf, hstrict⟩, fun hnone => ?_⟩
    obtain ⟨x, hx, hrule⟩ := hx
    exact absurd hrule (hnone x hx)

/-- A snapshot with a pair before two duplicates, the second of which comes first among the entities. -/
def rivals : Snapshot where
  version := 1
  entities := [
    routeAt "api.order" .backend "POST" "/order", routeAt "api.order.old" .backend "POST" "/order",
    routeAt "api.list.old" .backend "GET" "/list", routeAt "api.list" .backend "GET" "/list",
    routeAt "web.cart" .frontend "GET" "/cart", routeAt "api.cart" .backend "GET" "/cart"]
  edges := []
  files := []
  owners := []

/-- The duplicate of `rivals` that comes first. -/
def rivalKey : FamilyKey := ⟨.route, "GET /list"⟩

theorem eq_rivalKey {family : FamilyKey} (h : IsFirstDuplicate default rivals family) :
    family = rivalKey := by
  by_contra hne
  have hlt : rankLt family.rank rivalKey.rank = true :=
    h.least rivalKey (by decide +kernel) (Ne.symm hne)
  have hkeys : ∀ e ∈ rivals.entities, (Placement.of default e).toOption.map Placement.family ∈
      [some ⟨.route, "GET /cart"⟩, some rivalKey, some ⟨.route, "POST /order"⟩] := by decide +kernel
  obtain ⟨e, he⟩ := List.length_pos_iff_exists_mem.1 (Nat.zero_lt_of_lt h.several)
  rw [backendsOf, List.mem_filter, Bool.and_eq_true, beq_iff_eq] at he
  have hkey := hkeys e he.1
  rw [he.2.2] at hkey
  simp only [List.mem_cons, Option.some.injEq, List.not_mem_nil, or_false] at hkey
  rcases hkey with rfl | rfl | rfl
  · exact absurd h.several (by decide +kernel)
  · exact hne rfl
  · exact absurd hlt (by decide +kernel)

theorem strict_check_rivals : ∃ report, check default rivals .null false = .ok report ∧
    (∃ x ∈ report.findings, x.rule = "DuplicateRoute") ∧
    check default rivals .null true =
      .error (.duplicateRoute "GET /list" (backendIds default rivals rivalKey)) := by
  obtain ⟨ms, hms⟩ := exists_of_isOk (show (members default rivals.entities).isOk = true by decide +kernel)
  obtain ⟨report, h⟩ := exists_check (show sideOf default .null = .ok .frontend by decide) hms (by decide)
  obtain ⟨side, ms, -, hms, rfl, -⟩ := lenient_check_eq_ok h
  have hseveral : 1 < (backendsOf default rivals rivalKey).length := by decide +kernel
  obtain ⟨f, hf, hkey⟩ := exists_family_of_backends hms (Nat.zero_lt_of_lt hseveral)
  have hx : ∃ x ∈ (reportOf default side rivals.version rivals.entities ms).findings,
      x.rule = "DuplicateRoute" :=
    (exists_duplicate_iff _).2 ⟨f, hf, (isDuplicate_iff_backends hms hf).2 (hkey ▸ hseveral)⟩
  obtain ⟨family, hfirst, hstrict⟩ := (strict_check_agrees h).2.1 hx
  rw [eq_rivalKey hfirst] at hstrict
  exact ⟨_, h, hx, hstrict⟩

end Contract

end ChangeImpact
