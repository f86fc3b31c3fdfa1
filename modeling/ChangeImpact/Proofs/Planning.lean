import ChangeImpact.Plan.Basic
import ChangeImpact.Proofs.Distinct
import ChangeImpact.Proofs.Faulting

/-!
# A plan lists every impacted entity

Configuration keys wait for their readers in a table of their own, which placing an item, the changed
entities and the readers that were never placed all draw from. Whoever takes a key away from the table
puts it into a section.

* `placeAll_cons`: placing takes one item at a time and never runs out of fuel.
* `placeAll_perm`, `placeFor_perm`: **what is placed and what still waits** is together what there was
  to place.
* `placeFor_parents_eq_nil`: in the end nothing waits.
* `steps_perm_impacted`: **the steps of a plan are the impacted entities**, each as often as it was
  impacted.
-/

namespace ChangeImpact

namespace PlanOrder

variable {s : PlanSection} {work : List Pending} {anchored : List ImpactItem}

/-! ## What waits for a reader -/

/-- The ids of items that are to be placed. -/
def pendingIds (work : List Pending) : List String := work.map fun p => p.item.id

/-- The ids of items that wait. -/
def itemIds (items : List ImpactItem) : List String := items.map ImpactItem.id

theorem pendingIds_append (v w : List Pending) :
    pendingIds (v ++ w) = pendingIds v ++ pendingIds w := List.map_append

theorem pendingIds_waitingFor_perm (reader : String) (anchored : List ImpactItem) :
    (pendingIds (waitingFor reader anchored)).Perm
      (itemIds (anchored.filter fun i => i.parent == reader)) := by
  unfold pendingIds waitingFor itemIds
  rw [List.map_map]
  exact (sortByRank_perm _ _).map _

/-- The table is split between those that wait for a reader and the others. -/
theorem waitingFor_others_perm (reader : String) (anchored : List ImpactItem) :
    (pendingIds (waitingFor reader anchored) ++ itemIds (others reader anchored)).Perm
      (itemIds anchored) := by
  refine ((pendingIds_waitingFor_perm reader anchored).append_right _).trans ?_
  have hsplit := (List.filter_append_perm (fun i => i.parent == reader) anchored).map ImpactItem.id
  rw [List.map_append] at hsplit
  exact hsplit

theorem length_waitingFor_add_others (reader : String) (anchored : List ImpactItem) :
    (waitingFor reader anchored).length + (others reader anchored).length = anchored.length := by
  have h := (waitingFor_others_perm reader anchored).length_eq
  simpa [pendingIds, itemIds] using h

theorem mem_others {reader : String} {i : ImpactItem} :
    i ∈ others reader anchored ↔ i ∈ anchored ∧ i.parent ≠ reader := by
  unfold others
  rw [List.mem_filter, bne_iff_ne]

/-! ## Placing -/

@[simp]
theorem placeAll_nil (s : PlanSection) (anchored : List ImpactItem) :
    placeAll s [] anchored = ([], anchored) := by
  unfold placeAll
  cases anchored <;> rfl

/-- **One item is placed at a time**, and those that wait for it are next. The fuel that is left is
again the number of all items, so it never runs out. -/
theorem placeAll_cons (s : PlanSection) (p : Pending) (work : List Pending)
    (anchored : List ImpactItem) :
    placeAll s (p :: work) anchored =
      (p.step s ::
        (placeAll s (waitingFor p.item.id anchored ++ work) (others p.item.id anchored)).1,
       (placeAll s (waitingFor p.item.id anchored ++ work) (others p.item.id anchored)).2) := by
  have hfuel : (p :: work).length + anchored.length =
      ((waitingFor p.item.id anchored ++ work).length + (others p.item.id anchored).length) + 1 := by
    have := length_waitingFor_add_others p.item.id anchored
    simp only [List.length_cons, List.length_append]
    omega
  unfold placeAll
  rw [hfuel, place]

/-- Induction along the placing of items. -/
theorem placeAll_induction {motive : List Pending → List ImpactItem → Prop}
    (nil : ∀ anchored, motive [] anchored)
    (cons : ∀ p work anchored,
      motive (waitingFor p.item.id anchored ++ work) (others p.item.id anchored) →
        motive (p :: work) anchored)
    (work : List Pending) (anchored : List ImpactItem) : motive work anchored := by
  -- an item that was placed is gone, and those that wait for it only change from one list to the other
  induction hn : work.length + anchored.length generalizing work anchored with
  | zero =>
    obtain rfl : work = [] := List.length_eq_zero_iff.1 (by omega)
    exact nil anchored
  | succ n ih =>
    cases work with
    | nil => exact nil anchored
    | cons p work =>
      apply cons
      apply ih
      have := length_waitingFor_add_others p.item.id anchored
      simp only [List.length_cons, List.length_append] at hn ⊢
      omega

/-- **What is placed and what still waits** is what there was to place and what waited. -/
theorem placeAll_perm (s : PlanSection) (work : List Pending) (anchored : List ImpactItem) :
    ((placeAll s work anchored).1.map PlanStep.id ++ itemIds (placeAll s work anchored).2).Perm
      (pendingIds work ++ itemIds anchored) := by
  induction work, anchored using placeAll_induction with
  | nil anchored => rw [placeAll_nil]; exact List.Perm.refl _
  | cons p work anchored ih =>
    rw [placeAll_cons]
    -- those that wait for the item are moved from the table to the work
    have hsplit : (pendingIds (waitingFor p.item.id anchored ++ work) ++
        itemIds (others p.item.id anchored)).Perm (pendingIds work ++ itemIds anchored) := by
      rw [pendingIds_append]
      refine (List.perm_append_comm.append_right _).trans ?_
      rw [List.append_assoc]
      exact (waitingFor_others_perm p.item.id anchored).append_left _
    exact (ih.trans hsplit).cons p.item.id

theorem mem_of_mem_placeAll {i : ImpactItem} :
    i ∈ (placeAll s work anchored).2 → i ∈ anchored := by
  induction work, anchored using placeAll_induction with
  | nil anchored => rw [placeAll_nil]; exact id
  | cons p work anchored ih =>
    rw [placeAll_cons]
    exact fun hi => (mem_others.1 (ih hi)).1

/-! ## Reader by reader -/

theorem placeFor_cons (s : PlanSection) (reader : String) (readers : List String)
    (anchored : List ImpactItem) :
    placeFor s (reader :: readers) anchored =
      ((placeAll s (waitingFor reader anchored) (others reader anchored)).1 ++
        (placeFor s readers (placeAll s (waitingFor reader anchored) (others reader anchored)).2).1,
       (placeFor s readers (placeAll s (waitingFor reader anchored) (others reader anchored)).2).2) :=
  rfl

theorem placeFor_perm (s : PlanSection) (readers : List String) :
    ∀ anchored : List ImpactItem,
      ((placeFor s readers anchored).1.map PlanStep.id ++ itemIds (placeFor s readers anchored).2).Perm
        (itemIds anchored) := by
  induction readers with
  | nil => exact fun anchored => List.Perm.refl _
  | cons reader readers ih =>
    intro anchored
    rw [placeFor_cons, List.map_append, List.append_assoc]
    exact ((ih _).append_left _).trans
      ((placeAll_perm s _ _).trans (waitingFor_others_perm reader anchored))

/-- After some readers had their turn, what still waits does not wait for any of them. -/
theorem parent_not_mem_of_mem_placeFor {i : ImpactItem} (readers : List String) :
    ∀ {anchored : List ImpactItem}, i ∈ (placeFor s readers anchored).2 →
      i ∈ anchored ∧ i.parent ∉ readers := by
  induction readers with
  | nil => exact fun hi => ⟨hi, List.not_mem_nil⟩
  | cons reader readers ih =>
    intro anchored hi
    rw [placeFor_cons] at hi
    -- what waits for this reader left the table first, and nothing comes back to it
    obtain ⟨hleft, hreaders⟩ := ih hi
    obtain ⟨hi, hne⟩ := mem_others.1 (mem_of_mem_placeAll hleft)
    exact ⟨hi, fun hmem => (List.mem_cons.1 hmem).elim hne hreaders⟩

/-- **In the end nothing waits:** the readers that close the plan are those of all items left. -/
theorem placeFor_parents_eq_nil (s : PlanSection) (anchored : List ImpactItem) :
    (placeFor s (distinctTexts (anchored.map ImpactItem.parent)) anchored).2 = [] := by
  rw [List.eq_nil_iff_forall_not_mem]
  intro i hi
  obtain ⟨hi, hparent⟩ := parent_not_mem_of_mem_placeFor _ hi
  rw [mem_distinctTexts] at hparent
  exact hparent (List.mem_map_of_mem hi)

/-! ## Sections -/

theorem pendingIds_freeItems_perm (s : PlanSection) (items : List ImpactItem) :
    (pendingIds (freeItems s items)).Perm
      (itemIds ((items.filter fun i => !isAnchored i).filter fun i => sectionOf i == s)) := by
  unfold pendingIds freeItems itemIds
  rw [List.map_map, List.filter_filter]
  have hand : (fun i => sectionOf i == s && !isAnchored i) = fun i => !isAnchored i && sectionOf i == s :=
    funext fun i => Bool.and_comm _ _
  rw [hand]
  exact (List.mergeSort_perm _ _).map _

/-- Every item waits for a reader or belongs to one of the four sections. -/
theorem items_perm (items : List ImpactItem) :
    (itemIds (items.filter isAnchored) ++ (pendingIds (freeItems .contract items) ++
      (pendingIds (freeItems .dataFlow items) ++ (pendingIds (freeItems .reference items) ++
        pendingIds (freeItems .test items))))).Perm (itemIds items) := by
  have hsections : ∀ i ∈ items.filter fun i => !isAnchored i,
      sectionOf i ∈ [PlanSection.contract, .dataFlow, .reference, .test] := fun i _ => by
    cases sectionOf i <;> decide
  have hfree := (flatMap_filter_perm sectionOf (by decide) hsections).map ImpactItem.id
  simp only [List.flatMap_cons, List.flatMap_nil, List.append_nil, List.map_append] at hfree
  have hall := (List.filter_append_perm isAnchored items).map ImpactItem.id
  rw [List.map_append] at hall
  refine List.Perm.trans (List.Perm.append_left _ ?_) hall
  refine List.Perm.trans ?_ hfree
  exact (pendingIds_freeItems_perm _ _).append ((pendingIds_freeItems_perm _ _).append
    ((pendingIds_freeItems_perm _ _).append (pendingIds_freeItems_perm _ _)))

/-- The ids of all steps, section by section. -/
theorem ids_sections_perm (r : ImpactResult) :
    (((sections r).flatMap (·.2)).map PlanStep.id).Perm r.ids := by
  have hitems := items_perm r.impacted
  have hcontract := placeAll_perm .contract (freeItems .contract r.impacted)
    (r.impacted.filter isAnchored)
  unfold sections
  simp only
  set afterContract := placeAll .contract (freeItems .contract r.impacted)
    (r.impacted.filter isAnchored)
  have hdataFlow := placeAll_perm .dataFlow (freeItems .dataFlow r.impacted) afterContract.2
  set afterDataFlow := placeAll .dataFlow (freeItems .dataFlow r.impacted) afterContract.2
  have hopening := placeFor_perm .reference r.changes.keys afterDataFlow.2
  set afterOpening := placeFor .reference r.changes.keys afterDataFlow.2
  have hreference := placeAll_perm .reference (freeItems .reference r.impacted) afterOpening.2
  set afterReference := placeAll .reference (freeItems .reference r.impacted) afterOpening.2
  have htest := placeAll_perm .test (freeItems .test r.impacted) afterReference.2
  set afterTest := placeAll .test (freeItems .test r.impacted) afterReference.2
  have hunread := placeFor_perm .reference (distinctTexts (afterTest.2.map ImpactItem.parent))
    afterTest.2
  rw [placeFor_parents_eq_nil] at hunread
  -- each stage conserves its ids, so the counts of an id over all stages add up
  rw [List.perm_iff_count] at *
  intro id
  have h₀ := hitems id
  have h₁ := hcontract id
  have h₂ := hdataFlow id
  have h₃ := hopening id
  have h₄ := hreference id
  have h₅ := htest id
  have h₆ := hunread id
  simp only [List.count_append, List.flatMap_cons, List.flatMap_nil, List.map_append, List.append_nil,
    itemIds, List.map_nil] at h₀ h₁ h₂ h₃ h₄ h₅ h₆ ⊢
  unfold ImpactResult.ids
  omega

end PlanOrder

namespace ChangePlan

theorem sections_generate {config : Config} {r : ImpactResult} {pairs : List ContractPair} {side : Layer}
    {plan : ChangePlan} (h : generate config r pairs side = .ok plan) :
    plan.sections = PlanOrder.sections r := by
  unfold generate at h
  simp only [bind_eq_ok] at h
  obtain ⟨limits, -, choice, -, h⟩ := h
  rw [← Except.ok.inj h]

/-- **The steps of a plan are the impacted entities**, each as often as it was impacted, whatever
result of an analysis is ordered: ids may be repeated, and configuration keys may wait for themselves,
for each other or for readers that nobody knows. -/
theorem steps_perm_impacted (r : ImpactResult) :
    (((PlanOrder.sections r).flatMap (·.2)).map PlanStep.id).Perm r.ids ∧
      ∀ config pairs side plan, generate config r pairs side = .ok plan →
        (plan.steps.map PlanStep.id).Perm r.ids := by
  refine ⟨PlanOrder.ids_sections_perm r, fun config pairs side plan h => ?_⟩
  unfold steps
  rw [sections_generate h]
  exact PlanOrder.ids_sections_perm r

/-- An item of layer one under the root of a change. -/
def itemUnder (parent id : String) (kind : EntityKind) (dimension : Dimension) : ImpactItem :=
  ⟨id, 1, dimension, "root", parent, [], some kind⟩

/-- An entity that is impacted twice and reads the key `e`, a key that waits for itself, two keys that
wait for each other, and a key whose reader nobody knows. -/
def tangled : ImpactResult where
  changes := [("root", .modified)]
  impacted := [itemUnder "root" "a" .function .reference, itemUnder "own" "own" .configKey .config,
    itemUnder "c" "b" .configKey .config, itemUnder "b" "c" .configKey .config,
    itemUnder "nobody" "d" .configKey .config, itemUnder "root" "a" .function .dataFlow,
    itemUnder "a" "e" .configKey .config]

/-- Limits that are far above the size of the result. -/
def widePlanLimits : Config :=
  ⟨[], [], [(.str "full_sync_max_impacted", .int 10), (.str "refactor_min_impacted", .int 40),
    (.str "refactor_mismatch_ratio", .int 1)], [], [], 5⟩

theorem steps_tangled : ∃ plan, generate widePlanLimits tangled [] .frontend = .ok plan ∧
    (plan.steps.map PlanStep.id).Perm ["a", "own", "b", "c", "d", "a", "e"] := by
  have hok : (generate widePlanLimits tangled [] .frontend).isOk = true := by decide +kernel
  obtain ⟨plan, hplan⟩ := exists_of_isOk hok
  exact ⟨plan, hplan, (steps_perm_impacted tangled).2 _ _ _ _ hplan⟩

end ChangePlan

end ChangeImpact
