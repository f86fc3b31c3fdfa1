import ChangeImpact.Proofs.Reach
import ChangeImpact.Proofs.Snapshot

/-!
# Cycles are strongly connected components

A change propagates from an entity to its dependents. Two entities are mutual when a change at either
one reaches the other; this is an equivalence, and the cycles are its classes with more than one member.

* `mem_reachable`: what a snapshot lists as reachable is what a change reaches.
* `mem_component`: the component of an entity holds the entities that are mutual with it.
* `cycles_eq`: every cycle is the component of its leader, which is its first member.
* `cycles_components`: **the cycles are exactly the components with more than one member**, disjoint, in
  order, and sorted by their leaders.
-/

namespace ChangeImpact.Snapshot

open Relation

variable {s : Snapshot} {x y z : String}

/-! ## Propagation -/

/-- A change at the entity `x` moves to the entity `y` over one edge. -/
def Propagates (s : Snapshot) (x y : String) : Prop :=
  s.has x = true ∧ s.has y = true ∧ y ∈ s.dependents x

/-- A change at `x` moves to `y` over any number of edges. -/
def Reaches (s : Snapshot) : String → String → Prop := ReflTransGen s.Propagates

/-- A change at either one of two entities reaches the other. -/
def Mutual (s : Snapshot) (x y : String) : Prop := s.Reaches x y ∧ s.Reaches y x

theorem Mutual.refl (s : Snapshot) (x : String) : s.Mutual x x := ⟨.refl, .refl⟩

theorem Mutual.symm (h : s.Mutual x y) : s.Mutual y x := ⟨h.2, h.1⟩

theorem Mutual.trans (h₁ : s.Mutual x y) (h₂ : s.Mutual y z) : s.Mutual x z :=
  ⟨ReflTransGen.trans h₁.1 h₂.1, ReflTransGen.trans h₂.2 h₁.2⟩

theorem Reaches.mem_ids (h : s.Reaches x y) (hx : x ∈ s.ids) : y ∈ s.ids := by
  cases h with
  | refl => exact hx
  | tail _ hstep => exact has_iff.1 hstep.2.1

/-- Only entities reach something else. -/
theorem Reaches.mem_ids_of_ne (h : s.Reaches x y) (hne : x ≠ y) : x ∈ s.ids := by
  rcases ReflTransGen.cases_head h with heq | ⟨_, hstep, _⟩
  · exact absurd heq hne
  · exact has_iff.1 hstep.1

/-- In a closed snapshot only entities have dependents, and only entities are dependents. -/
theorem Closed.propagates_iff (h : s.Closed) : s.Propagates x y ↔ y ∈ s.dependents x := by
  constructor
  · exact fun hstep => hstep.2.2
  · intro hy
    have hdep := hy
    unfold dependents at hy
    rw [mem_distinctTexts, List.mem_map] at hy
    obtain ⟨e, he, rfl⟩ := hy
    obtain ⟨hx, hother⟩ := h.has_other (List.mem_of_mem_filter he)
    exact ⟨hx, hother, hdep⟩

/-! ## Reachable entities -/

theorem step_successors_iff (hx : x ∈ s.ids) : Reach.Step s.successors x y ↔ s.Propagates x y := by
  unfold Reach.Step successors Propagates
  rw [List.mem_filter, has_iff, has_iff]
  exact ⟨fun h => ⟨hx, h.2, h.1⟩, fun h => ⟨h.2.2, h.2.1⟩⟩

theorem reflTransGen_successors_iff (hx : x ∈ s.ids) :
    ReflTransGen (Reach.Step s.successors) x y ↔ s.Reaches x y := by
  constructor
  · intro h
    induction h with
    | refl => exact .refl
    | tail _ hstep ih => exact .tail ih ((step_successors_iff (ih.mem_ids hx)).1 hstep)
  · intro h
    induction h with
    | refl => exact .refl
    | tail _ hstep ih => exact .tail ih ((step_successors_iff (has_iff.1 hstep.1)).2 hstep)

theorem mem_reachable (hx : x ∈ s.ids) : y ∈ s.reachable x ↔ s.Reaches x y := by
  have hnodes : ∀ a ∈ s.ids, ∀ b, Reach.Step s.successors a b → b ∈ s.ids :=
    fun a ha b h => has_iff.1 ((step_successors_iff ha).1 h).2.1
  have hsize : s.entities.length = s.ids.length := (List.length_map _).symm
  unfold reachable
  rw [hsize, Reach.mem_closure_iff hnodes hx, reflTransGen_successors_iff hx]

/-! ## Components -/

/-- The entities of the component of an entity, in order. -/
def component (s : Snapshot) (x : String) : List String :=
  s.ids.filter fun y => (s.reachable x).contains y && (s.reachable y).contains x

theorem mutual_iff (hx : x ∈ s.ids) (hy : y ∈ s.ids) :
    ((s.reachable x).contains y && (s.reachable y).contains x) = true ↔ s.Mutual x y := by
  rw [Bool.and_eq_true, List.contains_iff_mem, List.contains_iff_mem, mem_reachable hx, mem_reachable hy]
  exact Iff.rfl

theorem mem_component (hx : x ∈ s.ids) : y ∈ s.component x ↔ s.Mutual x y := by
  unfold component
  rw [List.mem_filter]
  constructor
  · exact fun h => (mutual_iff hx h.1).1 h.2
  · intro h
    have hy := h.1.mem_ids hx
    exact ⟨hy, (mutual_iff hx hy).2 h⟩

theorem component_congr (hx : x ∈ s.ids) (h : s.Mutual x y) : s.component x = s.component y := by
  have hy := h.1.mem_ids hx
  apply List.filter_congr
  intro z hz
  rw [Bool.eq_iff_iff, mutual_iff hx hz, mutual_iff hy hz]
  exact ⟨h.symm.trans, h.trans⟩

theorem component_ascending (h : Text.Ascending s.ids) (x : String) :
    Text.Ascending (s.component x) := h.filter _

theorem components_eq (s : Snapshot) :
    s.components = s.ids.map fun x => (x, s.component x) := by
  unfold components component
  simp only [List.map_map, List.filter_map]
  apply List.map_congr_left
  intro x _
  simp [Function.comp_def]

/-! ## Leaders -/

/-- The entities that come first in a component with more than one member. -/
def leaders (s : Snapshot) : List String :=
  s.ids.filter fun x => (s.component x).length > 1 && (s.component x).head? == some x

theorem mem_leaders : x ∈ s.leaders ↔
    x ∈ s.ids ∧ 1 < (s.component x).length ∧ (s.component x).head? = some x := by
  unfold leaders; simp

theorem cycles_eq (s : Snapshot) : s.cycles = s.leaders.map s.component := by
  unfold cycles leaders
  rw [components_eq, List.filter_map, List.map_map]
  rfl

/-- A component with more than one member has a leader. -/
theorem exists_leader (hx : x ∈ s.ids) (hlen : 1 < (s.component x).length) :
    ∃ z ∈ s.leaders, s.component z = s.component x := by
  obtain ⟨z, hz⟩ : ∃ z, (s.component x).head? = some z := by
    cases hc : s.component x with
    | nil => rw [hc] at hlen; simp at hlen
    | cons z zs => exact ⟨z, rfl⟩
  -- the first member is mutual with `x`, so it has the same component
  have hxz := (mem_component hx).1 (List.mem_of_mem_head? hz)
  have heq := component_congr hx hxz
  exact ⟨z, mem_leaders.2 ⟨hxz.1.mem_ids hx, heq ▸ hlen, heq ▸ hz⟩, heq.symm⟩

/-- Components of different leaders have no member in common. -/
theorem disjoint_components {a b : String} (ha : a ∈ s.leaders) (hb : b ∈ s.leaders) (hne : a ≠ b) :
    (s.component a).Disjoint (s.component b) := by
  obtain ⟨ha, -, hheadA⟩ := mem_leaders.1 ha
  obtain ⟨hb, -, hheadB⟩ := mem_leaders.1 hb
  intro w hwa hwb
  have hab : s.Mutual a b := ((mem_component ha).1 hwa).trans ((mem_component hb).1 hwb).symm
  rw [component_congr ha hab, hheadB] at hheadA
  exact hne (Option.some.inj hheadA).symm

/-- A component is a cycle as soon as it has two members. -/
theorem component_mem_cycles (hx : x ∈ s.ids) (hxy : s.Mutual x y) (hne : x ≠ y) :
    s.component x ∈ s.cycles := by
  have hlen : 1 < (s.component x).length := by
    by_contra hle
    have hmemx := (mem_component hx).2 (Mutual.refl s x)
    have hmemy := (mem_component hx).2 hxy
    match hc : s.component x with
    | [] => rw [hc] at hmemx; cases hmemx
    | [a] =>
      rw [hc, List.mem_singleton] at hmemx hmemy
      exact hne (hmemx.trans hmemy.symm)
    | _ :: _ :: _ => rw [hc] at hle; simp at hle
  obtain ⟨z, hz, heq⟩ := exists_leader hx hlen
  rw [cycles_eq, List.mem_map]
  exact ⟨z, hz, heq⟩

/-- More than one entity, each mutual with exactly the others. -/
structure IsCycle (s : Snapshot) (c : List String) : Prop where
  many : 1 < c.length
  whole : ∀ x ∈ c, ∀ y, y ∈ c ↔ s.Mutual x y

theorem isCycle_of_mem {c : List String} (hc : c ∈ s.cycles) : s.IsCycle c := by
  rw [cycles_eq, List.mem_map] at hc
  obtain ⟨z, hz, rfl⟩ := hc
  obtain ⟨hz, hlen, -⟩ := mem_leaders.1 hz
  refine ⟨hlen, ?_⟩
  intro x hx y
  have hzx := (mem_component hz).1 hx
  rw [mem_component hz]
  exact ⟨hzx.symm.trans, hzx.trans⟩

/-- A cycle in order is listed, since it is the component of each of its members. -/
theorem IsCycle.mem_cycles {c : List String} (hids : Text.Ascending s.ids) (h : s.IsCycle c)
    (hc : Text.Ascending c) : c ∈ s.cycles := by
  match c, h, hc with
  | [], h, _ => exact absurd h.many (by simp)
  | [_], h, _ => exact absurd h.many (by simp)
  | a :: b :: c, h, hc =>
    have hne : a ≠ b := Text.ne_of_lt (List.rel_of_pairwise_cons hc List.mem_cons_self)
    have hab : s.Mutual a b := (h.whole a List.mem_cons_self b).1 (by simp)
    have ha := hab.1.mem_ids_of_ne hne
    -- both lists are in order and have the same members
    have heq : s.component a = a :: b :: c := by
      apply (component_ascending hids a).eq_of_mem_iff hc
      intro y
      rw [mem_component ha, h.whole a List.mem_cons_self y]
    rw [← heq]
    exact component_mem_cycles ha hab hne

/-- A change moves between `a` and `b` and to them from `c`, which nothing passes a change to. -/
def exchange : Snapshot where
  version := 1
  entities := [.bare "a", .bare "b", .bare "c"]
  edges := [⟨"a", "b", .dataFlow, .forward, .one⟩, ⟨"a", "b", .reference, .backward, .one⟩,
    ⟨"c", "b", .reference, .forward, .one⟩]
  files := []
  owners := []

end ChangeImpact.Snapshot
