import ChangeImpact.Proofs.Snapshot
import ChangeImpact.Impact.Traversal

/-!
# Layers are distances

A walk visits the entities in layers. The entities at distance `k` from the roots make up layer `k`, no
matter how many edges lead to an entity and which of them the walk remembers.

* `IsDistance`: the least number of steps from one of the roots.
* `Traversal.Step`: one step of a walk, over an edge that it may follow.
* `Traversal.mem_nextHits`: a layer holds what one step from the frontier leads to and was not visited.
* `Layered.advance`: **a layer keeps the invariant** that all nearer entities are visited and that the
  frontier has the last distance.
* `Traversal.Layered.nextHits`, `Traversal.records_walkFrom`: one layer of a walk, and all of them.
* `Traversal.records_walk`: the layers of a walk that was not cancelled are the distances up to the
  limit.
-/

namespace ChangeImpact

/-! ## Distance -/

section Distance

variable {step : String → String → Prop} {roots : List String} {x y : String} {j k : Nat}

/-- An entity is `k` steps away from one of the roots, on some way. -/
def ReachesIn (step : String → String → Prop) (roots : List String) : Nat → String → Prop
  | 0, y => y ∈ roots
  | k + 1, y => ∃ x, ReachesIn step roots k x ∧ step x y

/-- An entity is `k` steps away from one of the roots, and no fewer from any. -/
structure IsDistance (step : String → String → Prop) (roots : List String) (k : Nat) (y : String) :
    Prop where
  reaches : ReachesIn step roots k y
  least : ∀ j < k, ¬ ReachesIn step roots j y

theorem IsDistance.unique (hj : IsDistance step roots j y) (hk : IsDistance step roots k y) : j = k := by
  rcases Nat.lt_trichotomy j k with h | h | h
  · exact absurd hj.reaches (hk.least j h)
  · exact h
  · exact absurd hk.reaches (hj.least k h)

theorem ReachesIn.closed {nodes : List String} (hroots : ∀ x ∈ roots, x ∈ nodes)
    (hstep : ∀ x ∈ nodes, ∀ y, step x y → y ∈ nodes) :
    ∀ {k : Nat} {y : String}, ReachesIn step roots k y → y ∈ nodes := by
  intro k
  induction k with
  | zero => exact fun {y} h => hroots y h
  | succ k ih =>
    rintro y ⟨x, hx, hxy⟩
    exact hstep x (ih hx) y hxy

/-- The entity before the last step of a shortest way has the distance before. -/
theorem IsDistance.pred (h : IsDistance step roots (k + 1) y) :
    ∃ x, IsDistance step roots k x ∧ step x y := by
  obtain ⟨x, hx, hxy⟩ := h.reaches
  refine ⟨x, ⟨hx, fun j hj hxj => ?_⟩, hxy⟩
  exact h.least (j + 1) (by omega) ⟨x, hxj, hxy⟩

theorem IsDistance.exists_of_le (h : IsDistance step roots k y) (hjk : j ≤ k) :
    ∃ x, IsDistance step roots j x := by
  induction k generalizing y with
  | zero => exact ⟨y, Nat.le_zero.1 hjk ▸ h⟩
  | succ k ih =>
    rcases Nat.eq_or_lt_of_le hjk with rfl | hlt
    · exact ⟨y, h⟩
    · obtain ⟨x, hx, -⟩ := h.pred
      exact ih hx (by omega)

/-- The state of a search that has come to a depth: all entities up to there are visited, each once, and
the frontier has those at that distance. -/
structure Layered (step : String → String → Prop) (roots : List String) (depth : Nat)
    (visited frontier : List String) : Prop where
  nodup : visited.Nodup
  visited : ∀ y, y ∈ visited ↔ ∃ j ≤ depth, ReachesIn step roots j y
  frontier : ∀ y, y ∈ frontier ↔ IsDistance step roots depth y

variable {depth : Nat} {visited frontier : List String}

theorem layered_roots (hroots : roots.Nodup) : Layered step roots 0 roots roots where
  nodup := hroots
  visited := by
    intro y
    constructor
    · exact fun hy => ⟨0, Nat.le_refl 0, hy⟩
    · rintro ⟨j, hj, hy⟩
      rw [Nat.le_zero.1 hj] at hy
      exact hy
  frontier := fun y => ⟨fun hy => ⟨hy, fun j hj => absurd hj (Nat.not_lt_zero j)⟩, fun h => h.reaches⟩

/-- What a step from the frontier leads to and is not visited has the next distance. -/
theorem Layered.isDistance_succ (h : Layered step roots depth visited frontier) :
    IsDistance step roots (depth + 1) y ↔ (∃ x ∈ frontier, step x y) ∧ y ∉ visited := by
  constructor
  · intro hy
    obtain ⟨x, hx, hxy⟩ := hy.pred
    refine ⟨⟨x, (h.frontier x).2 hx, hxy⟩, fun hvis => ?_⟩
    obtain ⟨j, hj, hyj⟩ := (h.visited y).1 hvis
    exact hy.least j (by omega) hyj
  · rintro ⟨⟨x, hx, hxy⟩, hnew⟩
    refine ⟨⟨x, ((h.frontier x).1 hx).reaches, hxy⟩, fun j hj hyj => hnew ?_⟩
    exact (h.visited y).2 ⟨j, by omega, hyj⟩

/-- **A layer keeps the invariant.** -/
theorem Layered.advance (h : Layered step roots depth visited frontier) {layer next : List String}
    (hnodup : layer.Nodup) (hlayer : ∀ y, y ∈ layer ↔ (∃ x ∈ frontier, step x y) ∧ y ∉ visited)
    (hnext : ∀ y, y ∈ next ↔ y ∈ layer) :
    Layered step roots (depth + 1) (visited ++ layer) next where
  nodup := by
    rw [List.nodup_append]
    refine ⟨h.nodup, hnodup, ?_⟩
    rintro a ha b hb rfl
    exact ((hlayer a).1 hb).2 ha
  visited := by
    intro y
    rw [List.mem_append, h.visited, hlayer, ← h.isDistance_succ]
    constructor
    · rintro (⟨j, hj, hy⟩ | hy)
      · exact ⟨j, by omega, hy⟩
      · exact ⟨depth + 1, Nat.le_refl _, hy.reaches⟩
    · rintro ⟨j, hj, hy⟩
      by_cases hnear : ∃ i ≤ depth, ReachesIn step roots i y
      · exact .inl hnear
      · -- not reached earlier, so this is the distance
        have hjd : j = depth + 1 := by
          by_contra hne
          exact hnear ⟨j, by omega, hy⟩
        subst hjd
        exact .inr ⟨hy, fun i hi hyi => hnear ⟨i, by omega, hyi⟩⟩
  frontier := by
    intro y
    rw [hnext, hlayer, h.isDistance_succ]

/-- Nothing lies beyond a frontier that is empty, or beyond a search that has visited all entities. -/
theorem Layered.not_beyond (h : Layered step roots depth visited frontier) {nodes : List String}
    (hnodes : ∀ j z, ReachesIn step roots j z → z ∈ nodes)
    (hend : frontier = [] ∨ nodes.length ≤ visited.length) (hk : depth < k) :
    ¬ IsDistance step roots k y := by
  intro hy
  rcases hend with hnil | hlen
  · obtain ⟨x, hx⟩ := hy.exists_of_le (Nat.le_of_lt hk)
    have := (h.frontier x).2 hx
    rw [hnil] at this
    cases this
  · -- as many entities are visited as there are, so all of them are
    have hsub : ∀ z ∈ visited, z ∈ nodes := by
      intro z hz
      obtain ⟨j, -, hzj⟩ := (h.visited z).1 hz
      exact hnodes j z hzj
    have hperm := (List.subperm_of_subset h.nodup hsub).perm_of_length_le hlen
    obtain ⟨j, hj, hyj⟩ := (h.visited y).1 (hperm.mem_iff.2 (hnodes k y hy.reaches))
    exact hy.least j (by omega) hyj

end Distance

/-! ## Hits -/

namespace Hit

theorem map_id_keepLowest (gs : List Hit) (h : Hit) :
    (keepLowest gs h).map Hit.id =
      if h.id ∈ gs.map Hit.id then gs.map Hit.id else gs.map Hit.id ++ [h.id] := by
  induction gs with
  | nil => simp [keepLowest]
  | cons g gs ih =>
    rw [keepLowest]
    by_cases hid : g.id = h.id
    · have hkept : (if h.precedes g then h else g).id = g.id := by split <;> simp [hid]
      simp [hid, hkept]
    · rw [if_neg hid, List.map_cons, ih, List.map_cons]
      simp only [List.mem_cons, Ne.symm hid, false_or]
      split <;> simp

/-- The hits that are kept are for the entities of all hits, each once. -/
theorem map_id_foldl_keepLowest (hs gs : List Hit) :
    (hs.foldl keepLowest gs).map Hit.id = addNew (· == ·) (gs.map Hit.id) (hs.map Hit.id) := by
  induction hs generalizing gs with
  | nil => rfl
  | cons h hs ih =>
    rw [List.foldl_cons, ih, map_id_keepLowest, List.map_cons, addNew]
    simp only [List.any_beq', List.contains_iff_mem]
    split <;> rfl

end Hit

namespace Traversal

variable {t : Traversal} {x y : String} {e : Edge String} {visited : List String}
  {frontier : List Reached}

/-! ## Steps -/

/-- An edge of the snapshot at an entity, or a derived edge that starts there. -/
def Offers (t : Traversal) (x : String) (e : Edge String) : Prop :=
  e ∈ t.snapshot.edges ∧ (e.source = x ∨ e.target = x) ∨ e ∈ t.derived ∧ e.source = x

/-- The dimension of an edge is wanted, its confidence is not below the threshold of its dimension, and
a change moves across it from the entity if the direction is forward, and does not if it is backward. -/
structure Allows (t : Traversal) (x : String) (e : Edge String) : Prop where
  dimension : e.dimension ∈ t.dimensions
  confidence : ¬ e.confidence.lt (t.threshold e.dimension) = true
  direction : ∀ d, t.direction = some d → (e.propagatesFrom x = true ↔ d = .forward)

/-- One step of a walk from one entity to another. -/
def Step (t : Traversal) (x y : String) : Prop := ∃ e, t.Offers x e ∧ t.Allows x e ∧ e.other x = y

theorem mayFollow_iff : t.mayFollow x e = true ↔ t.Allows x e := by
  unfold mayFollow
  rw [Bool.and_eq_true, Bool.and_eq_true, List.contains_iff_mem, Bool.not_eq_true', ← Bool.not_eq_true]
  constructor
  · rintro ⟨⟨hdim, hconf⟩, hdir⟩
    refine ⟨hdim, hconf, fun d hd => ?_⟩
    rw [hd] at hdir
    cases d <;> simpa using hdir
  · rintro ⟨hdim, hconf, hdir⟩
    refine ⟨⟨hdim, hconf⟩, ?_⟩
    split
    · rfl
    · exact (hdir _ ‹_›).2 rfl
    · rw [Bool.not_eq_true', ← Bool.not_eq_true, hdir _ ‹_›]
      decide

/-- Loops lead nowhere. -/
theorem other_eq_of_loop (hx : e.source = x ∨ e.target = x) (h : e.source = e.target) :
    e.other x = x := by
  unfold Edge.other
  split <;> grind

/-- The edges that may be followed from an entity to another one. -/
theorem mem_edgesFrom (hne : e.other x ≠ x) :
    e ∈ t.edgesFrom x ↔ t.Offers x e ∧ t.Allows x e := by
  unfold edgesFrom Offers
  rw [List.mem_filter, mayFollow_iff, List.mem_append, List.mem_filter, beq_iff_eq]
  refine and_congr_left fun _ => or_congr_left ?_
  constructor
  · exact Snapshot.mem_edges_of_mem_neighbors
  · -- only loops can be left out, and they lead nowhere
    rintro ⟨he, hx⟩
    exact Snapshot.mem_neighbors_of_ne he hx fun hloop => hne (other_eq_of_loop hx hloop)

theorem mem_hitsFrom {r : Reached} :
    y ∈ (t.hitsFrom visited r).map Hit.id ↔ t.Step r.id y ∧ y ≠ r.id ∧ y ∉ visited := by
  unfold hitsFrom Step
  simp only [List.mem_map, List.mem_filter, Bool.and_eq_true, bne_iff_ne, ne_eq, Bool.not_eq_true',
    ← Bool.not_eq_true, List.contains_iff_mem]
  constructor
  · rintro ⟨_, ⟨⟨e, he, rfl⟩, hne, hnew⟩, rfl⟩
    obtain ⟨hoffers, hallows⟩ := (mem_edgesFrom hne).1 he
    exact ⟨⟨e, hoffers, hallows, rfl⟩, hne, hnew⟩
  · rintro ⟨⟨e, hoffers, hallows, rfl⟩, hne, hnew⟩
    exact ⟨_, ⟨⟨e, (mem_edgesFrom hne).2 ⟨hoffers, hallows⟩, rfl⟩, hne, hnew⟩, rfl⟩

theorem nodup_nextHits (t : Traversal) (visited : List String) (frontier : List Reached) :
    ((t.nextHits visited frontier).map Hit.id).Nodup := by
  unfold nextHits
  rw [Hit.map_id_foldl_keepLowest]
  exact nodup_keepFirst _

/-- **A layer holds what one step from the frontier leads to and was not visited.** -/
theorem mem_nextHits (hfrontier : ∀ r ∈ frontier, r.id ∈ visited) :
    y ∈ (t.nextHits visited frontier).map Hit.id ↔
      (∃ x ∈ frontier.map Reached.id, t.Step x y) ∧ y ∉ visited := by
  unfold nextHits
  rw [Hit.map_id_foldl_keepLowest]
  show y ∈ keepFirst (· == ·) _ ↔ _
  rw [mem_keepFirst, List.map_flatMap, List.mem_flatMap]
  constructor
  · rintro ⟨r, hr, hy⟩
    obtain ⟨hstep, -, hnew⟩ := mem_hitsFrom.1 hy
    exact ⟨⟨r.id, List.mem_map_of_mem hr, hstep⟩, hnew⟩
  · rintro ⟨⟨x, hx, hstep⟩, hnew⟩
    obtain ⟨r, hr, rfl⟩ := List.mem_map.1 hx
    refine ⟨r, hr, mem_hitsFrom.2 ⟨hstep, ?_, hnew⟩⟩
    rintro rfl
    exact hnew (hfrontier r hr)

/-! ## Walks -/

/-- A token without a number does not stop a walk. -/
theorem status_walkFrom {token : Token} (htoken : token.left = none) (limit : Option Nat) (fuel : Nat) :
    ∀ (depth : Nat) (visited : List String) (frontier : List Reached),
      (t.walkFrom limit fuel depth token visited frontier).status = .completed := by
  have hnext : token.next = token := by
    unfold Token.next
    rw [htoken]
    exact congrArg Token.mk htoken.symm
  induction fuel with
  | zero => exact fun _ _ _ => rfl
  | succ fuel ih =>
    intro depth visited frontier
    rw [walkFrom]
    have hstops : token.stops = false := by unfold Token.stops; rw [htoken]; rfl
    simp only [hstops, Bool.false_eq_true, if_false, hnext]
    split
    · rfl
    · exact ih _ _ _

theorem nodup_layers_walkFrom (limit : Option Nat) (fuel : Nat) :
    ∀ (depth : Nat) (token : Token) (visited : List String) (frontier : List Reached),
      ∀ hits ∈ (t.walkFrom limit fuel depth token visited frontier).layers,
        (hits.map Hit.id).Nodup := by
  induction fuel with
  | zero => exact fun _ _ _ _ hits h => absurd h List.not_mem_nil
  | succ fuel ih =>
    intro depth token visited frontier hits h
    rw [walkFrom] at h
    split at h
    · cases h
    · split at h
      · cases h
      · rcases List.mem_cons.1 h with rfl | h
        · exact nodup_nextHits t visited frontier
        · exact ih _ _ _ _ hits h

variable {roots nodes : List String} {limit : Option Nat} {depth : Nat} {layers : List (List Hit)}

/-- The entities of the layer after `n` others, none beyond the last one. -/
def layerIds (layers : List (List Hit)) (n : Nat) : List String := (layers.getD n []).map Hit.id

/-- The layers after a depth are the distances after it, up to the limit. -/
def Records (t : Traversal) (roots : List String) (limit : Option Nat) (depth : Nat)
    (layers : List (List Hit)) : Prop :=
  ∀ n y, y ∈ layerIds layers n ↔
    IsDistance t.Step roots (depth + n + 1) y ∧ ∀ d, limit = some d → depth + n + 1 ≤ d

theorem records_nil (h : ∀ n y, IsDistance t.Step roots (depth + n + 1) y →
    ∃ d, limit = some d ∧ d ≤ depth) : Records t roots limit depth [] := by
  intro n y
  constructor
  · exact fun hy => absurd hy List.not_mem_nil
  · rintro ⟨hy, hnear⟩
    obtain ⟨d, hd, hle⟩ := h n y hy
    have := hnear d hd
    omega

theorem records_cons {hits : List Hit} (hlimit : ∀ d, limit = some d → depth < d)
    (hhits : ∀ y, y ∈ hits.map Hit.id ↔ IsDistance t.Step roots (depth + 1) y)
    (hrest : Records t roots limit (depth + 1) layers) :
    Records t roots limit depth (hits :: layers) := by
  intro n y
  cases n with
  | zero => exact (hhits y).trans (and_iff_left hlimit).symm
  | succ n =>
    rw [show depth + (n + 1) + 1 = depth + 1 + n + 1 by omega]
    exact hrest n y

/-- One layer of a walk: the hits have the next distance, and the search goes on from them. -/
theorem Layered.nextHits (h : Layered t.Step roots depth visited (frontier.map Reached.id)) :
    (∀ y, y ∈ (t.nextHits visited frontier).map Hit.id ↔ IsDistance t.Step roots (depth + 1) y) ∧
      Layered t.Step roots (depth + 1) (visited ++ (t.nextHits visited frontier).map Hit.id)
        ((sortByRank (fun x => [x.id]) ((t.nextHits visited frontier).map Hit.reached)).map
          Reached.id) := by
  have hvisited : ∀ r ∈ frontier, r.id ∈ visited := by
    intro r hr
    have hdist := (h.frontier r.id).1 (List.mem_map_of_mem hr)
    exact (h.visited r.id).2 ⟨depth, Nat.le_refl _, hdist.reaches⟩
  have hlayer : ∀ y, y ∈ (t.nextHits visited frontier).map Hit.id ↔
      (∃ x ∈ frontier.map Reached.id, t.Step x y) ∧ y ∉ visited := fun y => mem_nextHits hvisited
  refine ⟨fun y => (hlayer y).trans h.isDistance_succ.symm,
    h.advance (nodup_nextHits t visited frontier) hlayer fun y => ?_⟩
  rw [((sortByRank_perm _ _).map Reached.id).mem_iff, List.map_map]
  rfl

/-- **The layers of a walk from a depth on are the distances up to the limit.** Each layer visits one
more entity or is the last, so the fuel suffices. -/
theorem records_walkFrom (hnodes : ∀ j z, ReachesIn t.Step roots j z → z ∈ nodes)
    (limit : Option Nat) (fuel : Nat) :
    ∀ {depth : Nat} {token : Token} {visited : List String} {frontier : List Reached},
      Layered t.Step roots depth visited (frontier.map Reached.id) →
      (frontier = [] ∨ nodes.length ≤ fuel + visited.length) →
      (t.walkFrom limit fuel depth token visited frontier).status = .completed →
      Records t roots limit depth (t.walkFrom limit fuel depth token visited frontier).layers := by
  induction fuel with
  | zero =>
    intro depth token visited frontier h hend _
    have hend : frontier.map Reached.id = [] ∨ nodes.length ≤ visited.length := by simpa using hend
    exact records_nil fun n y hy => absurd hy (h.not_beyond hnodes hend (by omega))
  | succ fuel ih =>
    intro depth token visited frontier h hend
    rw [walkFrom]
    by_cases hnil : frontier = []
    · subst hnil
      exact fun _ => records_nil fun n y hy => absurd hy (h.not_beyond hnodes (.inl rfl) (by omega))
    by_cases hlimit : ∃ d, limit = some d ∧ d ≤ depth
    · obtain ⟨d, rfl, hd⟩ := hlimit
      rw [if_pos (by simp [hd])]
      exact fun _ => records_nil fun _ _ _ => ⟨d, rfl, hd⟩
    have hlimit : ∀ d, limit = some d → depth < d := fun d hd =>
      Nat.lt_of_not_le fun hle => hlimit ⟨d, hd, hle⟩
    have hgo : ¬ (frontier.isEmpty || limit.any (· ≤ depth)) = true := by
      rcases limit with _ | d
      · simp [hnil]
      · simpa [hnil] using hlimit d rfl
    rw [if_neg hgo]
    split
    · exact fun hcancelled => nomatch hcancelled
    · -- one more layer, and the rest by the induction hypothesis
      obtain ⟨hhits, hnext⟩ := Layered.nextHits h
      intro hstatus
      refine records_cons hlimit hhits (ih hnext ?_ hstatus)
      rcases t.nextHits visited frontier with _ | ⟨g, gs⟩
      · exact .inl (by simp [sortByRank])
      · have := hend.resolve_left hnil
        refine .inr ?_
        rw [List.length_append, List.length_map, List.length_cons]
        omega

/-- The layers of a walk from entities of the snapshot that was not cancelled are the distances from
them, up to the limit. -/
theorem records_walk (hroots : roots.Nodup) (hids : ∀ x ∈ roots, x ∈ t.snapshot.ids)
    (hstep : ∀ x y, t.Step x y → y ∈ t.snapshot.ids) {token : Token}
    (hstatus : (t.walk limit token roots).status = .completed) :
    Records t roots limit 0 (t.walk limit token roots).layers := by
  have hmap : (roots.map fun r => (⟨r, r, []⟩ : Reached)).map Reached.id = roots := by
    simp [Function.comp_def]
  have hstart : Layered t.Step roots 0 roots
      ((roots.map fun r => (⟨r, r, []⟩ : Reached)).map Reached.id) := by
    rw [hmap]
    exact layered_roots hroots
  have hnodes : ∀ j z, ReachesIn t.Step roots j z → z ∈ t.snapshot.ids :=
    fun j z hz => hz.closed hids fun x _ y => hstep x y
  have hfuel : t.snapshot.ids.length ≤ t.size + roots.length := by
    unfold Snapshot.ids size
    rw [List.length_map]
    omega
  exact records_walkFrom hnodes limit _ hstart (.inr hfuel) hstatus

end Traversal

end ChangeImpact
