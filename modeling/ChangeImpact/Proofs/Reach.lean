import ChangeImpact.Proofs.Distinct
import ChangeImpact.Graph.Cycles

/-!
# The closure is reachability

`Reach.closeFrom` adds layer after layer to the nodes that are seen. Only the frontier, the last layer,
can lead to nodes that are not seen yet.

* `Frontier`: the invariant of the search, and `Frontier.step` that a layer keeps it.
* `closeFrom_sound`: what is found can be reached.
* `closeFrom_closed`: **nothing that can be reached is missed**, if the fuel and the nodes that are seen
  make up for all nodes of the graph.
* `mem_closure_iff`: the closure of a node is what can be reached from it.
-/

namespace ChangeImpact.Reach

open Relation

variable {next : String → List String} {seen frontier : List String}

/-- One step of a graph. -/
def Step (next : String → List String) (x y : String) : Prop := y ∈ next x

/-- The nodes after the frontier that are not seen yet, each once. -/
def newFrom (next : String → List String) (seen frontier : List String) : List String :=
  keepFirst (· == ·) ((frontier.flatMap next).filter fun x => !seen.contains x)

theorem mem_newFrom {y : String} :
    y ∈ newFrom next seen frontier ↔ (∃ x ∈ frontier, Step next x y) ∧ y ∉ seen := by
  unfold newFrom Step
  rw [mem_keepFirst, List.mem_filter, List.mem_flatMap]
  simp

theorem closeFrom_succ (next : String → List String) (fuel : Nat) (seen frontier : List String) :
    closeFrom next (fuel + 1) seen frontier =
      if newFrom next seen frontier = [] then seen
      else closeFrom next fuel (seen ++ newFrom next seen frontier) (newFrom next seen frontier) := by
  rw [closeFrom]
  simp only [List.isEmpty_iff]
  rfl

/-- Every node is seen once, the frontier is seen, and only the frontier leads to other nodes. -/
structure Frontier (next : String → List String) (seen frontier : List String) : Prop where
  nodup : seen.Nodup
  within : ∀ x ∈ frontier, x ∈ seen
  closed : ∀ x ∈ seen, x ∉ frontier → ∀ y, Step next x y → y ∈ seen

theorem Frontier.step (h : Frontier next seen frontier) :
    Frontier next (seen ++ newFrom next seen frontier) (newFrom next seen frontier) where
  nodup := by
    rw [List.nodup_append]
    refine ⟨h.nodup, nodup_keepFirst _, ?_⟩
    intro a ha b hb hab
    exact (mem_newFrom.1 hb).2 (hab ▸ ha)
  within := fun x hx => List.mem_append_right _ hx
  closed := by
    intro x hx hnew y hxy
    rw [List.mem_append]
    by_cases hy : y ∈ seen
    · exact .inl hy
    · -- the node before it was seen, so it was on the frontier
      have hx := (List.mem_append.1 hx).resolve_right hnew
      have hfront : x ∈ frontier := by
        by_contra hnot
        exact hy (h.closed x hx hnot y hxy)
      exact .inr (mem_newFrom.2 ⟨⟨x, hfront, hxy⟩, hy⟩)

theorem mem_closeFrom_of_seen (fuel : Nat) :
    ∀ {seen frontier : List String} {x : String}, x ∈ seen → x ∈ closeFrom next fuel seen frontier := by
  induction fuel with
  | zero => exact fun hx => hx
  | succ fuel ih =>
    intro seen frontier x hx
    rw [closeFrom_succ]
    split
    · exact hx
    · exact ih (List.mem_append_left _ hx)

/-- What is found can be reached from a node that was seen at first. -/
theorem closeFrom_sound (fuel : Nat) :
    ∀ {seen frontier : List String}, Frontier next seen frontier →
      ∀ y ∈ closeFrom next fuel seen frontier, ∃ x ∈ seen, ReflTransGen (Step next) x y := by
  induction fuel with
  | zero => exact fun _ y hy => ⟨y, hy, ReflTransGen.refl⟩
  | succ fuel ih =>
    intro seen frontier h y hy
    rw [closeFrom_succ] at hy
    split at hy
    · exact ⟨y, hy, ReflTransGen.refl⟩
    · obtain ⟨x, hx, hxy⟩ := ih h.step y hy
      rcases List.mem_append.1 hx with hx | hx
      · exact ⟨x, hx, hxy⟩
      · obtain ⟨⟨z, hz, hzx⟩, -⟩ := mem_newFrom.1 hx
        exact ⟨z, h.within z hz, ReflTransGen.head hzx hxy⟩

/-- **Nothing that can be reached is missed.** When the fuel is used up, all nodes are seen: each round
sees a node more. -/
theorem closeFrom_closed {nodes : List String}
    (hnodes : ∀ x ∈ nodes, ∀ y, Step next x y → y ∈ nodes) (fuel : Nat) :
    ∀ {seen frontier : List String}, Frontier next seen frontier → (∀ x ∈ seen, x ∈ nodes) →
      nodes.length ≤ fuel + seen.length →
      ∀ x ∈ closeFrom next fuel seen frontier, ∀ y, Step next x y →
        y ∈ closeFrom next fuel seen frontier := by
  induction fuel with
  | zero =>
    intro seen frontier h hsub hlen x hx y hxy
    -- as many nodes are seen as there are, so all of them are
    have hperm : seen.Perm nodes :=
      (List.subperm_of_subset h.nodup hsub).perm_of_length_le (by omega)
    exact hperm.mem_iff.2 (hnodes x (hsub x hx) y hxy)
  | succ fuel ih =>
    intro seen frontier h hsub hlen
    rw [closeFrom_succ]
    split
    · rename_i hnil
      intro x hx y hxy
      by_contra hy
      have hnew : y ∈ newFrom next seen frontier := by
        have := (h.step.closed x (List.mem_append_left _ hx) (by rw [hnil]; simp) y hxy)
        exact (List.mem_append.1 this).resolve_left hy
      rw [hnil] at hnew; cases hnew
    · rename_i hne
      have hpos : 0 < (newFrom next seen frontier).length := List.length_pos_iff.2 hne
      refine ih h.step ?_ (by rw [List.length_append]; omega)
      intro x hx
      rcases List.mem_append.1 hx with hx | hx
      · exact hsub x hx
      · obtain ⟨⟨z, hz, hzx⟩, -⟩ := mem_newFrom.1 hx
        exact hnodes z (hsub z (h.within z hz)) x hzx

theorem frontier_singleton (next : String → List String) (x : String) : Frontier next [x] [x] :=
  ⟨List.nodup_singleton x, fun _ h => h, fun _ hx hnot => absurd hx hnot⟩

/-- **The closure of a node is what can be reached from it.** -/
theorem mem_closure_iff {nodes : List String} (hnodes : ∀ x ∈ nodes, ∀ y, Step next x y → y ∈ nodes)
    {x y : String} (hx : x ∈ nodes) :
    y ∈ closure nodes.length next x ↔ ReflTransGen (Step next) x y := by
  unfold closure
  constructor
  · intro hy
    obtain ⟨z, hz, hzy⟩ := closeFrom_sound _ (frontier_singleton next x) y hy
    rw [List.mem_singleton] at hz
    rwa [hz] at hzy
  · intro hxy
    induction hxy with
    | refl => exact mem_closeFrom_of_seen _ (List.mem_singleton_self x)
    | tail _ hbc ih =>
      refine closeFrom_closed hnodes _ (frontier_singleton next x) ?_ (by simp) _ ih _ hbc
      intro z hz
      rw [List.mem_singleton] at hz
      rw [hz]; exact hx

end ChangeImpact.Reach
