import ChangeImpact.Plan.Basic
import ChangeImpact.Proofs.Contracts

/-!
# Either side may be called declared

A check compares the two sides of every contract and calls one of them declared. What the declared side
alone has is missing on the other, and what the other alone has is extra, so the two reports differ in these
words. A plan rests on which side lacks what, and that does not depend on the words.

* `Mismatch.turned`: a mismatch as the other report puts it.
* `Mismatch.mem_between_turned`: **the two reports on a pair say the same**, up to the words.
* `Contract.pairs_mirror`: the pairs of the two reports correspond one by one.
* `Strategy.classify_mirror`: corresponding facts lead to the same strategy for the same reasons.
* `plan_of_either_side`: **the plan is the same**, whichever side is called declared.
-/

namespace ChangeImpact

/-! ## Type names -/

/-- The names of two groups of types are not equal, in either order. -/
def Config.Apart (g h : Value × Value) : Prop :=
  (g.1.same h.1 && !g.1.isNan) = false ∧ (h.1.same g.1 && !h.1.isNan) = false

instance : Std.Symm Config.Apart := ⟨fun _ _ h => ⟨h.2, h.1⟩⟩

/-- No two groups of types have equal names, as no two keys of a mapping are equal. -/
def Config.GroupsApart (c : Config) : Prop := c.typeEquivalence.Pairwise Config.Apart

namespace TypeName

variable {config : Config}

theorem mem_of_typeGroup? {name : String} {group : Value} (h : config.typeGroup? name = some group) :
    ∃ entry ∈ config.typeEquivalence, entry.1 = group := by
  unfold Config.typeGroup? at h
  split at h
  · cases h
  · cases h
  · rename_i found rest _ hfind
    exact ⟨_, List.mem_of_find?_eq_some hfind, Option.some.inj h⟩

theorem agree_comm (hgroups : config.GroupsApart) (a b : String) :
    agree config a b = agree config b a := by
  unfold agree
  rw [Bool.beq_comm]
  cases hg : config.typeGroup? a with
  | none => cases config.typeGroup? b <;> rfl
  | some g =>
    cases hh : config.typeGroup? b with
    | none => rfl
    | some h =>
      obtain ⟨x, hx, rfl⟩ := mem_of_typeGroup? hg
      obtain ⟨y, hy, rfl⟩ := mem_of_typeGroup? hh
      by_cases hxy : x = y
      · rw [hxy]
      · -- names of different groups are not equal in either order
        have hapart := hgroups.forall hx hy hxy
        dsimp only
        rw [hapart.1, hapart.2]

theorem compatible_comm (hgroups : config.GroupsApart) (a b : String) :
    compatible config a b = compatible config b a := agree_comm hgroups _ _

end TypeName

/-! ## Fields -/

namespace Entity

variable {e : Entity} {f : ShapeField} {name : String}

theorem field?_eq_none_iff : e.field? name = none ↔ ∀ f ∈ e.fields, f.name ≠ name := by
  unfold field?
  simp

/-- Where no name is repeated, a field is found by its name. -/
theorem field?_eq_some_iff (h : (e.fields.map ShapeField.name).Nodup) :
    e.field? name = some f ↔ f ∈ e.fields ∧ f.name = name := by
  unfold field?
  constructor
  · intro hf
    exact ⟨List.mem_reverse.1 (List.mem_of_find?_eq_some hf), by simpa using List.find?_some hf⟩
  · rintro ⟨hf, rfl⟩
    cases hfind : e.fields.reverse.find? fun g => g.name == f.name with
    | none => simp at hfind; exact absurd rfl (hfind f hf)
    | some g =>
      have hg : g ∈ e.fields := List.mem_reverse.1 (List.mem_of_find?_eq_some hfind)
      have hname : g.name = f.name := by simpa using List.find?_some hfind
      rw [List.inj_on_of_nodup_map h hg hf hname]

end Entity

/-! ## Mismatches -/

/-- The word for a mismatch when the other side is declared. -/
def MismatchKind.turned : MismatchKind → MismatchKind
  | .missingField => .extraField
  | .extraField => .missingField
  | kind => kind

@[simp] theorem MismatchKind.turned_turned (k : MismatchKind) : k.turned.turned = k := by cases k <;> rfl

theorem MismatchKind.turned_eq_self {k : MismatchKind} (h : k.isAdditive = false) : k.turned = k := by
  cases k <;> simp [turned, isAdditive] at h ⊢

theorem MismatchKind.not_isAdditive_of_isBreaking {k : MismatchKind} (h : k.isBreaking = true) :
    k.isAdditive = false := by
  cases k <;> simp [isBreaking, isAdditive] at h ⊢

namespace Mismatch

/-- A mismatch as it is put when the other side is declared. -/
def turned (m : Mismatch) : Mismatch := { m with kind := m.kind.turned }

@[simp] theorem turned_turned (m : Mismatch) : m.turned.turned = m := by
  simp [turned]

theorem turned_eq_iff {m n : Mismatch} : m.turned = n ↔ m = n.turned := by
  constructor
  · rintro rfl
    exact (turned_turned m).symm
  · rintro rfl
    exact turned_turned n

variable {config : Config} {side other : Layer} {a b : Entity} {m : Mismatch}

/-- A field and the field of the same name on the other side disagree about their types or about whether
they are required. -/
def Differs (config : Config) (side : Layer) (f g : ShapeField) (m : Mismatch) : Prop :=
  (TypeName.compatible config f.type g.type = false ∧
      m = ofFields side .typeMismatch f.name (some f) (some g)) ∨
    (f.required ≠ g.required ∧ m = ofFields side .validationMismatch f.name (some f) (some g))

theorem mem_ofField (hb : (b.fields.map ShapeField.name).Nodup) {f : ShapeField} :
    m ∈ ofField config side b f ↔
      (b.field? f.name = none ∧ m = ofFields side .missingField f.name (some f) none) ∨
      ∃ g ∈ b.fields, g.name = f.name ∧ Differs config side f g m := by
  unfold ofField
  cases hfind : b.field? f.name with
  | none =>
    have hother : ¬ ∃ g ∈ b.fields, g.name = f.name ∧ Differs config side f g m := by
      rintro ⟨g, hg, hname, -⟩
      exact Entity.field?_eq_none_iff.1 hfind g hg hname
    simp [hother]
  | some g =>
    obtain ⟨hg, hname⟩ := (Entity.field?_eq_some_iff hb).1 hfind
    have hdiffers : (∃ h ∈ b.fields, h.name = f.name ∧ Differs config side f h m) ↔
        Differs config side f g m := by
      constructor
      · rintro ⟨h, hh, hname', hdiffers⟩
        rwa [List.inj_on_of_nodup_map hb hg hh (hname.trans hname'.symm)]
      · intro hdiffers
        exact ⟨g, hg, hname, hdiffers⟩
    rw [hdiffers]
    unfold Differs
    simp only [List.mem_append, reduceCtorEq, false_and, false_or]
    refine or_congr ?_ ?_
    · cases TypeName.compatible config f.type g.type <;> simp
    · by_cases hrequired : f.required = g.required <;> simp [hrequired]

/-- **The disagreements of two shapes** that repeat no field name. -/
theorem mem_ofShapes (hb : (b.fields.map ShapeField.name).Nodup) :
    m ∈ ofShapes config side a b ↔
      (∃ f ∈ a.fields, b.field? f.name = none ∧
        m = ofFields side .missingField f.name (some f) none) ∨
      (∃ g ∈ b.fields, a.field? g.name = none ∧
        m = ofFields side .extraField g.name none (some g)) ∨
      (∃ f ∈ a.fields, ∃ g ∈ b.fields, g.name = f.name ∧ Differs config side f g m) := by
  unfold ofShapes
  simp only [List.mem_append, List.mem_flatMap, List.mem_map, List.mem_filter,
    Option.isNone_iff_eq_none, mem_ofField hb]
  constructor
  · rintro (⟨f, hf, hmissing | hdiffers⟩ | ⟨g, ⟨hg, hnone⟩, rfl⟩)
    · exact .inl ⟨f, hf, hmissing⟩
    · exact .inr (.inr ⟨f, hf, hdiffers⟩)
    · exact .inr (.inl ⟨g, hg, hnone, rfl⟩)
  · rintro (⟨f, hf, hmissing⟩ | ⟨g, hg, hnone, rfl⟩ | ⟨f, hf, hdiffers⟩)
    · exact .inl ⟨f, hf, .inl hmissing⟩
    · exact .inr ⟨g, ⟨hg, hnone⟩, rfl⟩
    · exact .inl ⟨f, hf, .inr hdiffers⟩

theorem turned_ofFields (h : side = .backend ↔ other ≠ .backend) (kind : MismatchKind) (name : String)
    (f g : Option ShapeField) :
    (ofFields side kind name f g).turned = ofFields other kind.turned name g f := by
  unfold ofFields turned
  by_cases hside : side = .backend
  · rw [if_pos hside, if_neg (h.1 hside)]
  · rw [if_neg hside, if_pos (not_not.1 (mt h.2 hside))]

/-- What one shape says of another, the other says of it. -/
theorem turned_mem_ofShapes (hgroups : config.GroupsApart) (h : side = .backend ↔ other ≠ .backend)
    (ha : (a.fields.map ShapeField.name).Nodup) (hb : (b.fields.map ShapeField.name).Nodup)
    (hm : m ∈ ofShapes config side a b) : m.turned ∈ ofShapes config other b a := by
  rw [mem_ofShapes ha]
  rcases (mem_ofShapes hb).1 hm with ⟨f, hf, hnone, rfl⟩ | ⟨g, hg, hnone, rfl⟩ |
    ⟨f, hf, g, hg, hname, hdiffers⟩
  · exact .inr (.inl ⟨f, hf, hnone, turned_ofFields h _ _ _ _⟩)
  · exact .inl ⟨g, hg, hnone, turned_ofFields h _ _ _ _⟩
  · refine .inr (.inr ⟨g, hg, f, hf, hname.symm, ?_⟩)
    rcases hdiffers with ⟨htype, rfl⟩ | ⟨hrequired, rfl⟩
    · refine .inl ⟨?_, ?_⟩
      · rw [TypeName.compatible_comm hgroups, htype]
      · rw [turned_ofFields h, hname]
        rfl
    · refine .inr ⟨hrequired.symm, ?_⟩
      rw [turned_ofFields h, hname]
      rfl

theorem turned_of_mem_ofStatusCodes (h : m ∈ ofStatusCodes a b) : m.turned = m := by
  unfold ofStatusCodes at h
  dsimp only at h
  split at h
  · cases h
  · obtain ⟨code, -, rfl⟩ := List.mem_map.1 h
    rfl

/-- **The two reports on a pair say the same.** -/
theorem mem_between_turned (hgroups : config.GroupsApart) (ha : (a.fields.map ShapeField.name).Nodup)
    (hb : (b.fields.map ShapeField.name).Nodup) :
    m ∈ between config .frontend a b ↔ m.turned ∈ between config .backend a b := by
  unfold between
  rw [if_neg (by decide), if_pos rfl, List.mem_append, List.mem_append]
  constructor
  · rintro (hm | hm)
    · exact .inl (turned_mem_ofShapes hgroups (by decide) ha hb hm)
    · exact .inr ((turned_of_mem_ofStatusCodes hm).symm ▸ hm)
  · rintro (hm | hm)
    · have hback : m.turned.turned ∈ ofShapes config .frontend a b :=
        turned_mem_ofShapes hgroups (by decide) hb ha hm
      rw [turned_turned] at hback
      exact .inl hback
    · have hsame : m = m.turned := (turned_turned m).symm.trans (turned_of_mem_ofStatusCodes hm)
      exact .inr (hsame.symm ▸ hm)

end Mismatch

/-! ## Pairs -/

/-- Two pairs that differ only in how their mismatches are put. -/
structure ContractPair.Mirrors (p q : ContractPair) : Prop where
  same : q = { p with mismatches := q.mismatches }
  mismatches : ∀ m, m ∈ p.mismatches ↔ m.turned ∈ q.mismatches

/-- Sorting keeps corresponding elements together, if they have the same ranks. -/
theorem forall₂_sortByRank {α β : Type} {R : α → β → Prop} {rank : α → List String}
    {rank' : β → List String} (hrank : ∀ a b, R a b → rank a = rank' b) {xs : List α} {ys : List β}
    (h : List.Forall₂ R xs ys) : List.Forall₂ R (sortByRank rank xs) (sortByRank rank' ys) := by
  obtain ⟨hlength, hR⟩ := List.forall₂_iff_zip.1 h
  have hmem : ∀ z ∈ xs.zip ys, R z.1 z.2 := fun z hz => hR hz
  -- both lists are sorted as the list of corresponding elements is
  have hxs : (sortByRank (fun z => rank z.1) (xs.zip ys)).map Prod.fst = sortByRank rank xs := by
    unfold sortByRank
    rw [List.map_mergeSort, List.map_fst_zip hlength.le]
    exact fun _ _ _ _ => rfl
  have hys : (sortByRank (fun z => rank z.1) (xs.zip ys)).map Prod.snd = sortByRank rank' ys := by
    unfold sortByRank
    rw [List.map_mergeSort, List.map_snd_zip hlength.ge]
    intro z hz w hw
    dsimp only
    rw [hrank _ _ (hmem z hz), hrank _ _ (hmem w hw)]
  rw [← hxs, ← hys, List.forall₂_map_left_iff, List.forall₂_map_right_iff, List.forall₂_same]
  exact fun z hz => hmem z ((sortByRank_perm _ _).mem_iff.1 hz)

namespace Contract

variable {config : Config} {fams orphans : List Family}

/-- No member of some families repeats a field name. -/
def PlainFields (fams : List Family) : Prop :=
  ∀ f ∈ fams, ∀ m, m ∈ f.frontend ∨ m ∈ f.backend → (m.entity.fields.map ShapeField.name).Nodup

theorem pairs_mirror_family (hgroups : config.GroupsApart) (hfields : PlainFields fams) {f : Family}
    (hf : f ∈ fams) :
    List.Forall₂ ContractPair.Mirrors (f.pairs config .frontend) (f.pairs config .backend) := by
  unfold Family.pairs
  split
  · rename_i b hb
    rw [List.forall₂_map_left_iff, List.forall₂_map_right_iff, List.forall₂_same]
    intro m hm
    refine ⟨rfl, fun x => Mismatch.mem_between_turned hgroups (hfields f hf m (.inl hm)) ?_⟩
    exact hfields f hf b (.inr (hb ▸ List.mem_singleton_self b))
  · exact .nil

theorem pathPair?_mirror (hgroups : config.GroupsApart) (hfields : PlainFields orphans) (path : String) :
    Option.Rel ContractPair.Mirrors (pathPair? config .frontend orphans path)
      (pathPair? config .backend orphans path) := by
  unfold pathPair?
  split
  · rename_i f b hf hb
    split
    · rename_i m n hm hn
      -- the mismatch of the routes comes first in both reports, and is put alike
      have hforphan : f ∈ orphans := (mem_onPath.1 (hf ▸ List.mem_singleton_self f)).1
      have hborphan : b ∈ orphans := (mem_onPath.1 (hb ▸ List.mem_singleton_self b)).1
      refine .some ⟨rfl, fun x => ?_⟩
      have hbetween : x ∈ Mismatch.between config .frontend m.entity n.entity ↔
          x.turned ∈ Mismatch.between config .backend m.entity n.entity :=
        Mismatch.mem_between_turned hgroups (hfields f hforphan m (.inl (hm ▸ List.mem_singleton_self m)))
          (hfields b hborphan n (.inr (hn ▸ List.mem_singleton_self n)))
      rw [List.mem_cons, List.mem_cons, hbetween, Mismatch.turned_eq_iff]
      rfl
    · exact .none
  · exact .none

theorem pairs_mirror_families (hgroups : config.GroupsApart) (hfields : PlainFields fams)
    {gs : List Family} (hgs : ∀ f ∈ gs, f ∈ fams) :
    List.Forall₂ ContractPair.Mirrors (gs.flatMap (Family.pairs config .frontend))
      (gs.flatMap (Family.pairs config .backend)) := by
  refine List.rel_flatMap (R := fun f g => f = g ∧ f ∈ fams) (List.forall₂_same.2 ?_) ?_
  · exact fun f hf => ⟨rfl, hgs f hf⟩
  · rintro f _ ⟨rfl, hf⟩
    exact pairs_mirror_family hgroups hfields hf

/-- **The pairs of the two reports** correspond one by one. -/
theorem pairs_mirror (hgroups : config.GroupsApart) (hfields : PlainFields fams) (version : Nat)
    (unrouted : List Entity) :
    List.Forall₂ ContractPair.Mirrors (reportOn config .frontend version fams unrouted).pairs
      (reportOn config .backend version fams unrouted).pairs := by
  have hmatched : List.Forall₂ ContractPair.Mirrors (matched config .frontend fams)
      (matched config .backend fams) :=
    pairs_mirror_families hgroups hfields fun f => List.mem_of_mem_filter
  have horphans : PlainFields (orphansOf fams) := fun f hf => hfields f (List.mem_of_mem_filter hf)
  have honPaths : List.Forall₂ ContractPair.Mirrors (onPaths config .frontend (orphansOf fams))
      (onPaths config .backend (orphansOf fams)) := by
    unfold onPaths
    refine List.rel_filterMap (R := Eq) ?_ (List.forall₂_same.2 fun _ _ => rfl)
    rintro path _ rfl
    exact pathPair?_mirror hgroups horphans path
  refine forall₂_sortByRank ?_ (List.rel_append hmatched honPaths)
  intro p q hpq
  rw [hpq.same]
  rfl

theorem plainFields_families {entities : List Entity} {ms : List Member}
    (hms : members config entities = .ok ms)
    (hfields : ∀ e ∈ entities, (e.fields.map ShapeField.name).Nodup) : PlainFields (families ms) := by
  rintro f hf m (hm | hm)
  · exact hfields _ (entity_mem hms ((mem_frontend hf).1 hm).1).1
  · exact hfields _ (entity_mem hms ((mem_backend hf).1 hm).1).1

/-- The codes of corresponding pairs are those of the same entities. -/
theorem all_hasWritableCodes_mirror {s : Snapshot} {ps qs : List ContractPair}
    (h : List.Forall₂ ContractPair.Mirrors ps qs) :
    ps.all (hasWritableCodes s) = qs.all (hasWritableCodes s) := by
  induction h with
  | nil => rfl
  | @cons p q ps qs hpq _ ih =>
    have hhead : hasWritableCodes s p = hasWritableCodes s q := by rw [hpq.same]; rfl
    rw [List.all_cons, List.all_cons, hhead, ih]

/-- **The two checks of a snapshot** stop alike, or their pairs correspond one by one. -/
theorem check_mirror (hgroups : config.GroupsApart) {s : Snapshot}
    (hfields : ∀ e ∈ s.entities, (e.fields.map ShapeField.name).Nodup) (strict : Bool) :
    (∃ fault, check config s (.str "frontend") strict = .error fault ∧
      check config s (.str "backend") strict = .error fault) ∨
    ∃ r q, check config s (.str "frontend") strict = .ok r ∧ check config s (.str "backend") strict = .ok q ∧
      List.Forall₂ ContractPair.Mirrors r.pairs q.pairs := by
  have hfrontend : sideOf config (.str "frontend") = .ok .frontend := rfl
  have hbackend : sideOf config (.str "backend") = .ok .backend := rfl
  unfold check
  rw [hfrontend, hbackend]
  cases hms : members config s.entities with
  | error fault => exact .inl ⟨fault, rfl, rfl⟩
  | ok ms =>
    have hplain := plainFields_families hms hfields
    have hpairs := pairs_mirror hgroups hplain s.version (s.entities.filter isUnrouted)
    have hcodes := all_hasWritableCodes_mirror hpairs (s := s)
    have hbefore : (pairsBefore config .frontend (families ms)).all (hasWritableCodes s) =
        (pairsBefore config .backend (families ms)).all (hasWritableCodes s) :=
      all_hasWritableCodes_mirror
        (pairs_mirror_families hgroups hplain fun f hf => (List.takeWhile_subset _) hf)
    simp only [bind, Except.bind]
    split
    · rw [hbefore]
      exact .inl ⟨_, rfl, rfl⟩
    · rw [hcodes]
      split
      · exact .inr ⟨_, _, rfl, rfl, hpairs⟩
      · exact .inl ⟨_, rfl, rfl⟩

end Contract

/-! ## Plans -/

/-- Two sets of facts that differ only in how mismatches are put. -/
structure PlanFacts.Mirrors (f g : PlanFacts) : Prop where
  same : g = { f with kinds := g.kinds }
  kinds : ∀ k, k ∈ f.kinds ↔ k.turned ∈ g.kinds

namespace PlanFacts

variable {f g : PlanFacts}

theorem Mirrors.any_eq (h : f.Mirrors g) {p : MismatchKind → Bool} (hp : ∀ k, p k.turned = p k) :
    f.kinds.any p = g.kinds.any p := by
  rw [Bool.eq_iff_iff, List.any_eq_true, List.any_eq_true]
  constructor
  · rintro ⟨k, hk, hpk⟩
    exact ⟨k.turned, (h.kinds k).1 hk, (hp k).trans hpk⟩
  · rintro ⟨k, hk, hpk⟩
    refine ⟨k.turned, (h.kinds _).2 ?_, (hp k).trans hpk⟩
    rwa [MismatchKind.turned_turned]

/-- The words of kinds that are put alike in both reports. -/
theorem Mirrors.kindWords_eq (h : f.Mirrors g) {p : MismatchKind → Bool}
    (hp : ∀ k, p k = true → k.turned = k) : f.kindWords p = g.kindWords p := by
  have hmem : ∀ k, p k = true → (k ∈ f.kinds ↔ k ∈ g.kinds) := by
    intro k hk
    rw [h.kinds k, hp k hk]
  unfold kindWords
  refine (distinctTexts_ascending _).eq_of_mem_iff (distinctTexts_ascending _) fun word => ?_
  simp only [mem_distinctTexts, List.mem_map, List.mem_filter]
  exact exists_congr fun k => and_congr_left fun _ => and_congr_left fun hk => hmem k hk

end PlanFacts

/-- **Corresponding facts lead to the same strategy,** for the same reasons. -/
theorem Strategy.classify_mirror (limits : PlanLimits) {f g : PlanFacts} (h : f.Mirrors g) :
    classify limits f = classify limits g := by
  have hsize : f.sizeReasons limits = g.sizeReasons limits := by rw [h.same]; rfl
  have hfits : f.fitsFullSync limits = g.fitsFullSync limits := by rw [h.same]; rfl
  have himpacted : f.impacted = g.impacted := by rw [h.same]
  have hremoval : f.hasRemoval = g.hasRemoval := by rw [h.same]
  have hfields : f.removedFields = g.removedFields := by rw [h.same]
  have hbreaking : f.hasBreaking = g.hasBreaking := h.any_eq fun k => by cases k <;> rfl
  have hadditive : f.isAdditive = g.isAdditive := by
    unfold PlanFacts.isAdditive
    rw [hremoval, hfields, List.all_eq_not_any_not, List.all_eq_not_any_not,
      h.any_eq fun k => by cases k <;> rfl]
  have hreasons : f.changeReasons = g.changeReasons := by
    have hbreakingWords : f.kindWords MismatchKind.isBreaking = g.kindWords MismatchKind.isBreaking :=
      h.kindWords_eq fun k hk =>
        MismatchKind.turned_eq_self (MismatchKind.not_isAdditive_of_isBreaking hk)
    have hotherWords : f.kindWords (fun k => !k.isAdditive && !k.isBreaking) =
        g.kindWords fun k => !k.isAdditive && !k.isBreaking :=
      h.kindWords_eq fun k hk => MismatchKind.turned_eq_self (by simpa using (Bool.and_eq_true_iff.1 hk).1)
    unfold PlanFacts.changeReasons
    rw [hremoval, hfields, hbreakingWords, hotherWords]
  unfold classify
  rw [hsize, hfits, himpacted, hbreaking, hadditive, hreasons]

namespace ChangePlan

variable {impact : ImpactResult} {ps qs : List ContractPair}

/-- The side that lacks a field is the same in both reports. -/
theorem lackingSide?_turned {p q : ContractPair} (h : p.Mirrors q) (m : Mismatch) :
    lackingSide? .backend q m.turned = lackingSide? .frontend p m := by
  rw [h.same]
  unfold lackingSide? Mismatch.turned
  cases m.kind <;> rfl

theorem removedField?_turned {p q : ContractPair} (h : p.Mirrors q) (changes : Changes) (m : Mismatch) :
    removedField? .backend changes q m.turned = removedField? .frontend changes p m := by
  unfold removedField?
  rw [lackingSide?_turned h]
  rfl

theorem removedFields_mirror (h : List.Forall₂ ContractPair.Mirrors ps qs) (changes : Changes) :
    removedFields .frontend changes ps = removedFields .backend changes qs := by
  unfold removedFields
  refine (distinctTexts_ascending _).eq_of_mem_iff (distinctTexts_ascending _) fun name => ?_
  rw [mem_distinctTexts, mem_distinctTexts]
  induction h with
  | nil => rfl
  | @cons p q ps qs hpq _ ih =>
    have hhead : name ∈ p.mismatches.filterMap (removedField? .frontend changes p) ↔
        name ∈ q.mismatches.filterMap (removedField? .backend changes q) := by
      rw [List.mem_filterMap, List.mem_filterMap]
      constructor
      · rintro ⟨m, hm, hname⟩
        exact ⟨m.turned, (hpq.mismatches m).1 hm, (removedField?_turned hpq changes m).trans hname⟩
      · rintro ⟨m, hm, hname⟩
        rw [← m.turned_turned] at hm hname
        exact ⟨m.turned, (hpq.mismatches _).2 hm, (removedField?_turned hpq changes _).symm.trans hname⟩
    rw [List.flatMap_cons, List.flatMap_cons, List.mem_append, List.mem_append, hhead, ih]

theorem isEmpty_mismatches {p q : ContractPair} (h : p.Mirrors q) :
    p.mismatches.isEmpty = q.mismatches.isEmpty := by
  rw [Bool.eq_iff_iff, List.isEmpty_iff, List.isEmpty_iff, List.eq_nil_iff_forall_not_mem,
    List.eq_nil_iff_forall_not_mem]
  constructor
  · intro hnone m hm
    refine hnone m.turned ((h.mismatches _).2 ?_)
    rwa [Mismatch.turned_turned]
  · intro hnone m hm
    exact hnone m.turned ((h.mismatches m).1 hm)

theorem affected_mirror (h : List.Forall₂ ContractPair.Mirrors ps qs) :
    (affectedPairsOf ps).length = (affectedPairsOf qs).length := by
  unfold affectedPairsOf
  refine (List.rel_filter ?_ h).length_eq
  intro p q hpq
  dsimp only
  rw [isEmpty_mismatches hpq]

theorem mem_kinds_mirror (h : List.Forall₂ ContractPair.Mirrors ps qs) (k : MismatchKind) :
    k ∈ (ps.flatMap fun p => p.mismatches.map Mismatch.kind) ↔
      k.turned ∈ qs.flatMap fun p => p.mismatches.map Mismatch.kind := by
  induction h with
  | nil => simp
  | @cons p q ps qs hpq _ ih =>
    have hhead : k ∈ p.mismatches.map Mismatch.kind ↔ k.turned ∈ q.mismatches.map Mismatch.kind := by
      rw [List.mem_map, List.mem_map]
      constructor
      · rintro ⟨m, hm, rfl⟩
        exact ⟨m.turned, (hpq.mismatches m).1 hm, rfl⟩
      · rintro ⟨m, hm, hk⟩
        rw [← m.turned_turned] at hm
        refine ⟨m.turned, (hpq.mismatches _).2 hm, ?_⟩
        rw [Mismatch.turned, hk, MismatchKind.turned_turned]
    rw [List.flatMap_cons, List.flatMap_cons, List.mem_append, List.mem_append, hhead, ih]

theorem factsOf_mirror (h : List.Forall₂ ContractPair.Mirrors ps qs) (impact : ImpactResult) :
    (factsOf impact ps .frontend).Mirrors (factsOf impact qs .backend) := by
  refine ⟨?_, mem_kinds_mirror h⟩
  unfold factsOf
  rw [h.length_eq, affected_mirror h, removedFields_mirror h]

theorem pairsTouching_mirror (h : List.Forall₂ ContractPair.Mirrors ps qs) (impact : ImpactResult) :
    List.Forall₂ ContractPair.Mirrors (pairsTouching impact ps) (pairsTouching impact qs) := by
  unfold pairsTouching
  refine List.rel_filter ?_ h
  intro p q hpq
  dsimp only
  rw [hpq.same]
  rfl

/-- **The plans that follow from the two reports** differ only in the words for mismatches. -/
theorem generate_mirror (h : List.Forall₂ ContractPair.Mirrors ps qs) (config : Config)
    (impact : ImpactResult) :
    (∃ fault, generate config impact ps .frontend = .error fault ∧
      generate config impact qs .backend = .error fault) ∨
    ∃ p q, generate config impact ps .frontend = .ok p ∧ generate config impact qs .backend = .ok q ∧
      q = { p with mismatchWords := q.mismatchWords } := by
  have htouching := pairsTouching_mirror h impact
  have hfacts := factsOf_mirror htouching impact
  unfold generate
  cases PlanLimits.ofEntries config.planThresholds with
  | error fault => exact .inl ⟨fault, rfl, rfl⟩
  | ok limits =>
    have hclassify := Strategy.classify_mirror limits hfacts
    cases hstrategy : Strategy.classify limits (factsOf impact (pairsTouching impact qs) .backend) with
    | error fault =>
      rw [hstrategy] at hclassify
      left
      refine ⟨fault, ?_, ?_⟩
      · simp only [bind, Except.bind, hclassify]
      · simp only [bind, Except.bind, hstrategy]
    | ok choice =>
      rw [hstrategy] at hclassify
      right
      simp only [bind, Except.bind, hclassify, hstrategy]
      refine ⟨_, _, rfl, rfl, ?_⟩
      simp only [htouching.length_eq, affected_mirror htouching]

/-- **The plan does not depend on which side is called declared.** The groups of types are a mapping, so
their names are apart, and no shape repeats a field name. Then the check that calls the frontend declared
and the one that calls the backend declared stop with the same fault or both return. In the second case the
plans that follow for any impact fault alike, or they have the same strategy and reasons, the same sections
and the same counts: they differ at most in whether a field is called missing or extra. -/
theorem plan_of_either_side (config : Config) (s : Snapshot) (strict : Bool)
    (hgroups : config.GroupsApart)
    (hfields : ∀ e ∈ s.entities, (e.fields.map ShapeField.name).Nodup) :
    (∃ fault, Contract.check config s (.str "frontend") strict = .error fault ∧
      Contract.check config s (.str "backend") strict = .error fault) ∨
    ∃ r q, Contract.check config s (.str "frontend") strict = .ok r ∧
      Contract.check config s (.str "backend") strict = .ok q ∧
      ∀ impact,
        (∃ fault, generate config impact r.pairs .frontend = .error fault ∧
          generate config impact q.pairs .backend = .error fault) ∨
        ∃ p p', generate config impact r.pairs .frontend = .ok p ∧
          generate config impact q.pairs .backend = .ok p' ∧
          p'.strategy = p.strategy ∧ p'.reasons = p.reasons ∧ p'.sections = p.sections ∧
          p'.impactedCount = p.impactedCount ∧ p'.relevantPairs = p.relevantPairs ∧
          p'.affectedPairs = p.affectedPairs := by
  rcases Contract.check_mirror hgroups hfields strict with hfault | ⟨r, q, hr, hq, hpairs⟩
  · exact .inl hfault
  · refine .inr ⟨r, q, hr, hq, fun impact => ?_⟩
    rcases generate_mirror hpairs config impact with hfault | ⟨p, p', hp, hp', hsame⟩
    · exact .inl hfault
    · refine .inr ⟨p, p', hp, hp', ?_⟩
      rw [hsame]
      exact ⟨rfl, rfl, rfl, rfl, rfl, rfl⟩

/-- A configuration with two groups of types and the usual limits. -/
def typedConfig : Config :=
  { (default : Config) with
    typeEquivalence := [(.str "text", .texts ["string", "str"]), (.str "number", .texts ["number", "int"])]
    planThresholds := [(.str "full_sync_max_impacted", .int 0), (.str "refactor_min_impacted", .int 40),
      (.str "refactor_mismatch_ratio", .int 1)] }

/-- The two sides of an order: each has a field that the other lacks, and a total in a type of its own. -/
def orderSides : Snapshot where
  version := 1
  entities := [
    { Entity.bare "api.Order" with
      kind := .type
      layer := some .backend
      name := "Order"
      shape := some [{ name := "total", type := "int" }, { name := "tax", type := "int" }] },
    { Entity.bare "web.Order" with
      kind := .type
      layer := some .frontend
      name := "Order"
      shape := some [{ name := "note", type := "string" }, { name := "total", type := "string" }] }]
  edges := []
  files := []
  owners := []

/-- The frontend of the order was changed, and it lacks the tax whichever side is called declared. -/
theorem plan_of_orderSides :
    typedConfig.GroupsApart ∧ (∀ e ∈ orderSides.entities, (e.fields.map ShapeField.name).Nodup) ∧
    ∃ r q p p', Contract.check typedConfig orderSides (.str "frontend") false = .ok r ∧
      Contract.check typedConfig orderSides (.str "backend") false = .ok q ∧
      generate typedConfig { changes := [("web.Order", .modified)] } r.pairs .frontend = .ok p ∧
      generate typedConfig { changes := [("web.Order", .modified)] } q.pairs .backend = .ok p' ∧
      p.reasons = ["breaking mismatches present: TypeMismatch",
        "change set removes contract fields: web.Order.tax"] ∧
      p'.strategy = p.strategy ∧ p'.reasons = p.reasons ∧ p'.affectedPairs = p.affectedPairs := by
  have hgroups : typedConfig.GroupsApart := by
    unfold Config.GroupsApart Config.Apart
    decide
  have hfields : ∀ e ∈ orderSides.entities, (e.fields.map ShapeField.name).Nodup := by decide
  have hplan : ((Contract.check typedConfig orderSides (.str "frontend") false).toOption.bind fun r =>
      (generate typedConfig { changes := [("web.Order", .modified)] } r.pairs .frontend).toOption.map
        reasons) = some ["breaking mismatches present: TypeMismatch",
          "change set removes contract fields: web.Order.tax"] := by
    decide +kernel
  refine ⟨hgroups, hfields, ?_⟩
  rcases plan_of_either_side typedConfig orderSides false hgroups hfields with
    ⟨fault, hfault, -⟩ | ⟨r, q, hr, hq, hplans⟩
  · rw [hfault] at hplan
    cases hplan
  · simp only [hr, Except.toOption, Option.bind_some] at hplan
    rcases hplans { changes := [("web.Order", .modified)] } with
      ⟨fault, hfault, -⟩ | ⟨p, p', hp, hp', hstrategy, hreasons, -, -, -, haffected⟩
    · rw [hfault] at hplan
      cases hplan
    · rw [hp] at hplan
      exact ⟨r, q, p, p', hr, hq, hp, hp', Option.some.inj hplan, hstrategy, hreasons, haffected⟩

end ChangePlan

end ChangeImpact
