import ChangeImpact.Contract.Check
import ChangeImpact.Proofs.Distinct
import ChangeImpact.Proofs.Faulting

/-!
# Contract families

The members of a check are the contract entities, each with its place, and its families are the members
by key. So every member is in one family and on one side of it.

* `members_eq_ok`: the members are the contract entities.
* `mem_families`, `mem_frontend`, `mem_backend`: **what a family holds.**
* `exists_names_iff`: the families of a check hold the contract entities.
* `Distinct.eq_of_names`: families share no ids.
* `Family.kinds`: a family is a duplicate, an orphan or matched.
-/

namespace ChangeImpact

/-- What one key alone satisfies is one element. -/
theorem filter_eq_singleton {α κ : Type} {key : α → κ} {p : α → Bool} {a : α} {xs : List α}
    (hn : (xs.map key).Nodup) (ha : a ∈ xs) (hp : ∀ x ∈ xs, p x = true ↔ key x = key a) :
    xs.filter p = [a] := by
  induction xs with
  | nil => cases ha
  | cons x xs ih =>
    rw [List.map_cons, List.nodup_cons] at hn
    have hp' : ∀ y ∈ xs, p y = true ↔ key y = key a := fun y hy => hp y (List.mem_cons_of_mem _ hy)
    rcases List.mem_cons.1 ha with rfl | ha
    · -- the key of the first element does not occur again
      have hnone : xs.filter p = [] := List.filter_eq_nil_iff.2 fun y hy hpy =>
        hn.1 (List.mem_map.2 ⟨y, hy, (hp' y hy).1 hpy⟩)
      rw [List.filter_cons_of_pos ((hp a List.mem_cons_self).2 rfl), hnone]
    · have hx : ¬ p x = true := fun hpx =>
        hn.1 (List.mem_map.2 ⟨a, ha, ((hp x List.mem_cons_self).1 hpx).symm⟩)
      rw [List.filter_cons_of_neg hx, ih hn.2 ha hp']

namespace Contract

variable {config : Config} {entities : List Entity} {ms : List Member} {f g : Family} {m n : Member}
  {id : String}

theorem mem_idsOf {members : List Member} : id ∈ idsOf members ↔ ∃ m ∈ members, m.entity.id = id := by
  unfold idsOf
  rw [(sortTexts_perm _).mem_iff, List.mem_map]

/-- The members are the contract entities, in order. -/
theorem members_eq_ok (h : members config entities = .ok ms) :
    ms.map Member.entity = entities.filter isContract := by
  unfold members at h
  have hall := forall₂_of_mapM_eq_ok h
  clear h
  generalize entities.filter isContract = contracts at hall
  induction hall with
  | nil => rfl
  | cons hm _ ih =>
    rw [bind_eq_ok] at hm
    obtain ⟨place, -, hm⟩ := hm
    rw [List.map_cons, ih, ← Except.ok.inj hm]

theorem entity_mem (h : members config entities = .ok ms) (hm : m ∈ ms) :
    m.entity ∈ entities ∧ isContract m.entity = true :=
  List.mem_filter.1 (members_eq_ok h ▸ List.mem_map_of_mem hm)

theorem mem_membersOf {key : FamilyKey} {side : Layer} :
    m ∈ membersOf ms key side ↔ m ∈ ms ∧ m.place.family = key ∧ m.entity.layer = some side := by
  unfold membersOf
  rw [(sortByRank_perm _ _).mem_iff, List.mem_filter, Bool.and_eq_true, beq_iff_eq, beq_iff_eq]

/-! ## What a family holds -/

/-- The family of some members with a key. -/
def familyOf (ms : List Member) (key : FamilyKey) : Family :=
  ⟨key, membersOf ms key .frontend, membersOf ms key .backend⟩

/-- **The families** are those of the members' keys. -/
theorem mem_families : f ∈ families ms ↔ ∃ m ∈ ms, f = familyOf ms m.place.family := by
  unfold families
  rw [List.mem_map]
  simp only [(sortByRank_perm _ _).mem_iff, mem_keepFirst, List.mem_map]
  constructor
  · rintro ⟨key, ⟨m, hm, rfl⟩, rfl⟩
    exact ⟨m, hm, rfl⟩
  · rintro ⟨m, hm, rfl⟩
    exact ⟨_, ⟨m, hm, rfl⟩, rfl⟩

theorem eq_familyOf (hf : f ∈ families ms) : f = familyOf ms f.key := by
  obtain ⟨m, -, rfl⟩ := mem_families.1 hf
  rfl

theorem nodup_keys_families (ms : List Member) : ((families ms).map Family.key).Nodup := by
  unfold families
  rw [List.map_map]
  have hkeys : (Family.key ∘ fun key => (⟨key, membersOf ms key .frontend,
      membersOf ms key .backend⟩ : Family)) = id := rfl
  rw [hkeys, List.map_id]
  exact (sortByRank_perm _ _).nodup_iff.2 (nodup_keepFirst _)

theorem mem_frontend (hf : f ∈ families ms) :
    m ∈ f.frontend ↔ m ∈ ms ∧ m.place.family = f.key ∧ m.entity.layer = some .frontend := by
  conv_lhs => rw [eq_familyOf hf]
  exact mem_membersOf

theorem mem_backend (hf : f ∈ families ms) :
    m ∈ f.backend ↔ m ∈ ms ∧ m.place.family = f.key ∧ m.entity.layer = some .backend := by
  conv_lhs => rw [eq_familyOf hf]
  exact mem_membersOf

/-- One of the members of a family has an id. -/
def Family.Names (f : Family) (id : String) : Prop := id ∈ idsOf f.frontend ∨ id ∈ idsOf f.backend

theorem exists_member_of_names (hf : f ∈ families ms) (h : f.Names id) :
    ∃ m ∈ ms, m.place.family = f.key ∧ m.entity.id = id := by
  rcases h with h | h
  · obtain ⟨m, hm, hid⟩ := mem_idsOf.1 h
    obtain ⟨hm, hkey, -⟩ := (mem_frontend hf).1 hm
    exact ⟨m, hm, hkey, hid⟩
  · obtain ⟨m, hm, hid⟩ := mem_idsOf.1 h
    obtain ⟨hm, hkey, -⟩ := (mem_backend hf).1 hm
    exact ⟨m, hm, hkey, hid⟩

/-- The ids of some members are different. -/
def Distinct (ms : List Member) : Prop := (ms.map fun m => m.entity.id).Nodup

/-- **Families share no ids.** -/
theorem Distinct.eq_of_names (hn : Distinct ms) (hf : f ∈ families ms) (hg : g ∈ families ms)
    (hfid : f.Names id) (hgid : g.Names id) : f = g := by
  obtain ⟨m, hm, hmf, hmid⟩ := exists_member_of_names hf hfid
  obtain ⟨n, hn', hng, hnid⟩ := exists_member_of_names hg hgid
  -- both families hold the one member with this id, and a family is given by the key of any member
  have hmn : m = n := List.inj_on_of_nodup_map hn hm hn' (hmid.trans hnid.symm)
  rw [eq_familyOf hf, eq_familyOf hg, ← hmf, ← hng, hmn]

/-- Of the families, the one that holds an entity is known by its key. -/
theorem Distinct.names_iff (hn : Distinct ms) (hf : f ∈ families ms) (hid : f.Names id)
    (hg : g ∈ families ms) : g.Names id ↔ g.key = f.key := by
  constructor
  · intro hgid
    rw [hn.eq_of_names hg hf hgid hid]
  · intro hkey
    rwa [List.inj_on_of_nodup_map (nodup_keys_families ms) hg hf hkey]

theorem hasSide_iff {e : Entity} :
    hasSide e = true ↔ e.layer = some .frontend ∨ e.layer = some .backend := by
  unfold hasSide
  rw [Bool.or_eq_true, beq_iff_eq, beq_iff_eq]

theorem exists_layer {e : Entity} (h : hasSide e = true) : ∃ layer, e.layer = some layer :=
  (hasSide_iff.1 h).elim (fun hlayer => ⟨_, hlayer⟩) fun hlayer => ⟨_, hlayer⟩

/-- A member with a side is in the family of its key. -/
theorem exists_family (hm : m ∈ ms) (hside : hasSide m.entity = true) :
    ∃ f ∈ families ms, f.Names m.entity.id := by
  have hf : familyOf ms m.place.family ∈ families ms := mem_families.2 ⟨m, hm, rfl⟩
  refine ⟨_, hf, ?_⟩
  rcases hasSide_iff.1 hside with hside | hside
  · exact .inl (mem_idsOf.2 ⟨m, (mem_frontend hf).2 ⟨hm, rfl, hside⟩, rfl⟩)
  · exact .inr (mem_idsOf.2 ⟨m, (mem_backend hf).2 ⟨hm, rfl, hside⟩, rfl⟩)

theorem hasSide_of_isContract {e : Entity} (h : isContract e = true) : hasSide e = true :=
  (Bool.and_eq_true_iff.1 h).1

/-- The families of a check hold the contract entities. -/
theorem exists_names_iff (h : members config entities = .ok ms) :
    (∃ f ∈ families ms, f.Names id) ↔ ∃ e ∈ entities, isContract e = true ∧ e.id = id := by
  constructor
  · rintro ⟨f, hf, hid⟩
    obtain ⟨m, hm, -, rfl⟩ := exists_member_of_names hf hid
    obtain ⟨he, hcontract⟩ := entity_mem h hm
    exact ⟨m.entity, he, hcontract, rfl⟩
  · rintro ⟨e, he, hcontract, rfl⟩
    have hmem : e ∈ ms.map Member.entity := members_eq_ok h ▸ List.mem_filter.2 ⟨he, hcontract⟩
    obtain ⟨m, hm, rfl⟩ := List.mem_map.1 hmem
    exact exists_family hm (hasSide_of_isContract hcontract)

/-- Entities with different ids are members with different ids. -/
theorem distinct_of_members (hn : (entities.map Entity.id).Nodup) (h : members config entities = .ok ms) :
    Distinct ms := by
  have hids : ms.map (fun m => m.entity.id) = (entities.filter isContract).map Entity.id := by
    rw [← members_eq_ok h, List.map_map]; rfl
  unfold Distinct
  rw [hids]
  exact hn.sublist (List.filter_sublist.map _)

theorem Distinct.nodup_frontend (hn : Distinct ms) (hf : f ∈ families ms) :
    (f.frontend.map fun m => m.entity.id).Nodup := by
  rw [eq_familyOf hf]
  unfold familyOf membersOf
  refine ((sortByRank_perm _ _).map _).nodup_iff.2 ?_
  exact hn.sublist (List.filter_sublist.map _)

/-! ## Kinds of families -/

/-- A family with one backend member and some frontend members. -/
def Family.IsMatched (f : Family) : Prop := f.frontend ≠ [] ∧ ∃ b, f.backend = [b]

theorem Family.isDuplicate_iff : f.isDuplicate = true ↔ 1 < f.backend.length := by
  unfold isDuplicate; simp

/-- An orphan has no members on one of its sides. -/
theorem Family.isOrphan_iff :
    f.isOrphan = true ↔ f.frontend = [] ∧ f.backend.length ≤ 1 ∨ f.backend = [] := by
  unfold isOrphan
  rw [Bool.and_eq_true, Bool.not_eq_true', ← Bool.not_eq_true, isDuplicate_iff, Bool.or_eq_true,
    List.isEmpty_iff, List.isEmpty_iff, Nat.not_lt]
  constructor
  · rintro ⟨hlen, h | h⟩
    · exact .inl ⟨h, hlen⟩
    · exact .inr h
  · rintro (⟨h, hlen⟩ | h)
    · exact ⟨hlen, .inl h⟩
    · exact ⟨by rw [h]; exact Nat.zero_le _, .inr h⟩

/-- A family is a duplicate, an orphan or matched. -/
theorem Family.kinds (f : Family) : f.isDuplicate = true ∨ f.isOrphan = true ∨ f.IsMatched := by
  rw [isDuplicate_iff, isOrphan_iff]
  cases hb : f.backend with
  | nil => exact .inr (.inl (.inr rfl))
  | cons b bs =>
    cases bs with
    | cons b' bs => exact .inl (by simp)
    | nil =>
      by_cases hfront : f.frontend = []
      · exact .inr (.inl (.inl ⟨hfront, le_rfl⟩))
      · exact .inr (.inr ⟨hfront, b, hb⟩)

/-- The members of an orphan are all on its side. -/
theorem Family.side_of_names (h : f.isOrphan = true) (hid : f.Names id) :
    f.side = .frontend ∧ id ∈ idsOf f.frontend ∨ f.side = .backend ∧ id ∈ idsOf f.backend := by
  unfold Family.side
  by_cases hempty : f.frontend = []
  · have hnot : id ∉ idsOf f.frontend := by rw [hempty]; simp [mem_idsOf]
    exact .inr ⟨by rw [hempty]; rfl, hid.resolve_left hnot⟩
  · have hback : f.backend = [] := (isOrphan_iff.1 h).resolve_left fun hside => hempty hside.1
    have hnot : id ∉ idsOf f.backend := by rw [hback]; simp [mem_idsOf]
    exact .inl ⟨if_neg (by simpa using hempty), hid.resolve_right hnot⟩

theorem Family.IsMatched.not_orphan (h : f.IsMatched) : ¬ f.isOrphan = true := by
  obtain ⟨hfront, b, hback⟩ := h
  rw [isOrphan_iff, hback]
  simp [hfront]

theorem Family.IsMatched.not_duplicate (h : f.IsMatched) : ¬ f.isDuplicate = true := by
  obtain ⟨-, b, hback⟩ := h
  rw [isDuplicate_iff, hback]
  simp

theorem Family.not_orphan_of_duplicate (h : f.isDuplicate = true) : ¬ f.isOrphan = true := by
  unfold isOrphan
  simp [h]

end Contract

end ChangeImpact
