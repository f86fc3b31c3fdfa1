import ChangeImpact.Proofs.Traversal
import ChangeImpact.Impact.Analysis

/-!
# What an impact analysis records

An analysis walks from the changed entities that the graph has and lists what it reaches.

* `Impact.itemsFrom_sorted`: the list is in strict order, by layer, precedence of the dimension and id.
* `Impact.mem_itemsFrom`: an item has the number of the layer it comes from.
* `Impact.analyze_affected`: **an analysis that was not cancelled records exactly the affected
  entities**, each once and with its distance as its layer.
-/

namespace ChangeImpact

namespace ImpactItem

variable {a b : ImpactItem}

/-- The strict order of impacted entities: by layer, then by precedence, then by id. -/
def Before (a b : ImpactItem) : Prop :=
  a.layer < b.layer ∨ a.layer = b.layer ∧
    (a.dimension.precedence < b.dimension.precedence ∨
      a.dimension.precedence = b.dimension.precedence ∧ Text.lt a.id b.id = true)

/-- The order within a layer. -/
def notAfter (a b : ImpactItem) : Bool :=
  a.dimension.precedence < b.dimension.precedence ||
    (a.dimension.precedence == b.dimension.precedence && Text.le a.id b.id)

theorem notAfter_iff : notAfter a b = true ↔ a.dimension.precedence < b.dimension.precedence ∨
    a.dimension.precedence = b.dimension.precedence ∧ Text.le a.id b.id = true := by
  unfold notAfter; simp

end ImpactItem

namespace Impact

variable {s : Snapshot} {depth : Nat} {hits : List Hit} {layers : List (List Hit)} {i : ImpactItem}

/-! ## Items -/

/-- The item of a hit. -/
def itemOf (s : Snapshot) (depth : Nat) (h : Hit) : ImpactItem where
  id := h.id
  layer := depth
  dimension := h.edge.dimension
  root := h.reached.root
  parent := h.parent.id
  chain := h.reached.chain
  kind := (s.entity? h.id).map Entity.kind

theorem itemsOf_eq (s : Snapshot) (depth : Nat) (hits : List Hit) :
    itemsOf s depth hits = (hits.map (itemOf s depth)).mergeSort ImpactItem.notAfter := rfl

theorem itemsOf_perm (s : Snapshot) (depth : Nat) (hits : List Hit) :
    (itemsOf s depth hits).Perm (hits.map (itemOf s depth)) := by
  rw [itemsOf_eq]
  exact List.mergeSort_perm _ _

theorem layer_of_mem_itemsOf (h : i ∈ itemsOf s depth hits) : i.layer = depth := by
  obtain ⟨g, -, rfl⟩ := List.mem_map.1 ((itemsOf_perm s depth hits).mem_iff.1 h)
  rfl

theorem map_id_itemsOf_perm (s : Snapshot) (depth : Nat) (hits : List Hit) :
    ((itemsOf s depth hits).map ImpactItem.id).Perm (hits.map Hit.id) := by
  have h := (itemsOf_perm s depth hits).map ImpactItem.id
  rw [List.map_map] at h
  exact h

theorem itemsOf_sorted (h : (hits.map Hit.id).Nodup) :
    (itemsOf s depth hits).Pairwise ImpactItem.Before := by
  have hids : ((hits.map (itemOf s depth)).map ImpactItem.id).Nodup := by
    rw [List.map_map]
    exact h
  have hstrict := mergeSort_strict (fun i => i.dimension.precedence) ImpactItem.id
    (fun _ _ => ImpactItem.notAfter_iff) hids
  rw [← itemsOf_eq] at hstrict
  refine hstrict.imp_of_mem fun {a b} ha hb hab => ?_
  exact .inr ⟨(layer_of_mem_itemsOf ha).trans (layer_of_mem_itemsOf hb).symm, hab⟩

/-- An item of some layers comes from one of them, and its layer is the number of that one. -/
theorem mem_itemsFrom : i ∈ itemsFrom s depth layers ↔
    ∃ n, i ∈ itemsOf s (depth + n) (layers.getD n []) := by
  induction layers generalizing depth with
  | nil => simp [itemsFrom, itemsOf]
  | cons hits layers ih =>
    rw [itemsFrom, List.mem_append, ih]
    constructor
    · rintro (h | ⟨n, h⟩)
      · exact ⟨0, h⟩
      · exact ⟨n + 1, by rw [show depth + (n + 1) = depth + 1 + n by omega]; exact h⟩
    · rintro ⟨_ | n, h⟩
      · exact .inl h
      · exact .inr ⟨n, by rw [show depth + 1 + n = depth + (n + 1) by omega]; exact h⟩

theorem exists_mem_itemsFrom {y : String} {l : Int} :
    (∃ i ∈ itemsFrom s depth layers, i.id = y ∧ i.layer = l) ↔
      ∃ n, l = (depth + n : Nat) ∧ y ∈ Traversal.layerIds layers n := by
  have hids : ∀ n, y ∈ Traversal.layerIds layers n ↔
      ∃ i ∈ itemsOf s (depth + n) (layers.getD n []), i.id = y := by
    intro n
    unfold Traversal.layerIds
    rw [← (map_id_itemsOf_perm s (depth + n) _).mem_iff, List.mem_map]
  constructor
  · rintro ⟨i, hi, hid, rfl⟩
    obtain ⟨n, hn⟩ := mem_itemsFrom.1 hi
    exact ⟨n, layer_of_mem_itemsOf hn, (hids n).2 ⟨i, hn, hid⟩⟩
  · rintro ⟨n, rfl, hy⟩
    obtain ⟨i, hi, hid⟩ := (hids n).1 hy
    exact ⟨i, mem_itemsFrom.2 ⟨n, hi⟩, hid, layer_of_mem_itemsOf hi⟩

theorem lt_layer_of_mem_itemsFrom (h : i ∈ itemsFrom s (depth + 1) layers) :
    (depth : Int) < i.layer := by
  obtain ⟨n, hn⟩ := mem_itemsFrom.1 h
  rw [layer_of_mem_itemsOf hn]
  omega

theorem itemsFrom_sorted (h : ∀ hits ∈ layers, (hits.map Hit.id).Nodup) :
    (itemsFrom s depth layers).Pairwise ImpactItem.Before := by
  induction layers generalizing depth with
  | nil => exact List.Pairwise.nil
  | cons hits layers ih =>
    rw [itemsFrom, List.pairwise_append]
    refine ⟨itemsOf_sorted (h hits List.mem_cons_self), ?_, ?_⟩
    · exact ih fun g hg => h g (List.mem_cons_of_mem _ hg)
    · -- the layers after this one have higher numbers
      intro a ha b hb
      refine .inl ?_
      rw [layer_of_mem_itemsOf ha]
      exact lt_layer_of_mem_itemsFrom hb

/-- Layers with no entity in common, and none twice in one, have every entity once. -/
theorem nodup_itemsFrom (h : ∀ hits ∈ layers, (hits.map Hit.id).Nodup)
    (hdisj : ∀ m n y, y ∈ Traversal.layerIds layers m → y ∈ Traversal.layerIds layers n → m = n) :
    ((itemsFrom s depth layers).map ImpactItem.id).Nodup := by
  induction layers generalizing depth with
  | nil => exact List.nodup_nil
  | cons hits layers ih =>
    rw [itemsFrom, List.map_append, List.nodup_append]
    refine ⟨(map_id_itemsOf_perm s depth hits).nodup_iff.2 (h hits List.mem_cons_self), ?_, ?_⟩
    · refine ih (fun g hg => h g (List.mem_cons_of_mem _ hg)) fun m n y hm hn => ?_
      exact Nat.succ.inj (hdisj (m + 1) (n + 1) y hm hn)
    · rintro y hy _ hz rfl
      have hfirst : y ∈ Traversal.layerIds (hits :: layers) 0 :=
        (map_id_itemsOf_perm s depth hits).mem_iff.1 hy
      obtain ⟨i, hi, hid⟩ := List.mem_map.1 hz
      obtain ⟨n, -, hn⟩ := exists_mem_itemsFrom.1 ⟨i, hi, hid, rfl⟩
      exact absurd (hdisj 0 (n + 1) y hfirst hn) (by omega)

end Impact

/-! ## Requests -/

namespace Changes

theorem addEntries_ordered {changes changed : Changes} {entries : Entries} (hchanges : changes.Ordered)
    (h : addEntries changes entries = .ok changed) : changed.Ordered := by
  induction entries generalizing changes with
  | nil => exact Except.ok.inj h ▸ hchanges
  | cons e entries ih =>
    obtain ⟨k, v⟩ := e
    rw [addEntries, bind_eq_ok] at h
    obtain ⟨kind, -, h⟩ := h
    exact ih (hchanges.insert k.text kind) h

/-- The ids of a change set are in strict order. -/
theorem ofValue_ordered {v : Value} {changes : Changes} (h : ofValue v = .ok changes) :
    changes.Ordered := by
  unfold ofValue at h
  split at h
  · exact addEntries_ordered Table.ordered_nil h
  · obtain ⟨members, -, h⟩ := bind_eq_ok.1 h
    rw [← Except.ok.inj h]
    exact Table.Ordered.foldl_insert _ _ _ Table.ordered_nil

end Changes

namespace Impact

variable {config : Config} {s : Snapshot} {pairs : List ContractPair} {changes : Changes}
  {dimensions : List Dimension} {direction : Option Direction} {limit : Option Nat} {token : Token}

/-- The changed entities that the snapshot has. -/
def knownChanges (s : Snapshot) (changes : Changes) : List String := changes.keys.filter s.has

/-- A depth limit that is an integer is not negative, and it is the number of layers. -/
theorem limitOf_int {n : Int} (h : limitOf (.int n) = .ok limit) : limit = some n.toNat ∧ 0 ≤ n := by
  have hiff : ((Value.Numeric.int n).compare? (.int 0) == some .lt) = true ↔ n < 0 := by
    rw [Value.Numeric.compare?, beq_iff_eq, Option.some.injEq, Int.compare_eq_lt]
  unfold limitOf at h
  simp only [Value.numeric?] at h
  split at h
  · cases h
  · rename_i hneg
    rw [hiff] at hneg
    exact ⟨(Except.ok.inj h).symm, by omega⟩

/-- Every step of an analysis leads to an entity. -/
theorem mem_ids_of_step (hclosed : s.Closed) {x y : String}
    (h : (traversalOf config s pairs dimensions direction).Step x y) : y ∈ s.ids := by
  obtain ⟨e, hoffers, -, rfl⟩ := h
  have hends : s.has e.source = true ∧ s.has e.target = true := by
    rcases hoffers with ⟨he, -⟩ | ⟨he, -⟩
    · exact hclosed e he
    · have hboth := (List.mem_filter.1 he).2
      rwa [Bool.and_eq_true] at hboth
  unfold Edge.other
  split
  · exact Snapshot.has_iff.1 hends.2
  · exact Snapshot.has_iff.1 hends.1

/-- An entity that is not among the known changed ones and has a distance from them, within the limit. -/
structure Affected (t : Traversal) (roots : List String) (limit : Option Nat) (k : Nat) (y : String) :
    Prop where
  entity : t.snapshot.has y = true
  unchanged : y ∉ roots
  distance : IsDistance t.Step roots k y
  positive : 1 ≤ k
  within : ∀ d, limit = some d → k ≤ d

/-- The items are exactly the affected entities, with their distances as layers, each entity once, and
in strict order. -/
structure Lists (t : Traversal) (roots : List String) (limit : Option Nat) (items : List ImpactItem) :
    Prop where
  exact : ∀ (y : String) (l : Int), (∃ i ∈ items, i.id = y ∧ i.layer = l) ↔
    ∃ k : Nat, l = k ∧ Affected t roots limit k y
  once : (items.map ImpactItem.id).Nodup
  sorted : items.Pairwise ImpactItem.Before

theorem lists_itemsFrom {t : Traversal} {roots : List String} {layers : List (List Hit)}
    (hnodes : ∀ j z, ReachesIn t.Step roots j z → z ∈ t.snapshot.ids)
    (hnodup : ∀ hits ∈ layers, (hits.map Hit.id).Nodup) (h : t.Records roots limit 0 layers) :
    Lists t roots limit (itemsFrom s 1 layers) where
  exact := by
    intro y l
    rw [exists_mem_itemsFrom]
    constructor
    · rintro ⟨n, rfl, hn⟩
      obtain ⟨hdist, hlimit⟩ := (h n y).1 hn
      rw [Nat.zero_add, Nat.add_comm] at hdist
      refine ⟨1 + n, rfl, ?_, hdist.least 0 (by omega), hdist, by omega, fun d hd => ?_⟩
      · exact Snapshot.has_iff.2 (hnodes _ y hdist.reaches)
      · have := hlimit d hd
        omega
    · rintro ⟨k, rfl, haff⟩
      obtain ⟨n, rfl⟩ := Nat.exists_eq_add_of_le haff.positive
      refine ⟨n, rfl, (h n y).2 ⟨?_, fun d hd => ?_⟩⟩
      · rw [Nat.zero_add, Nat.add_comm]
        exact haff.distance
      · have := haff.within d hd
        omega
  once := nodup_itemsFrom hnodup fun m n y hm hn => by
    have := ((h m y).1 hm).1.unique ((h n y).1 hn).1
    omega
  sorted := itemsFrom_sorted hnodup

/-- A ring of three entities with a fourth behind it. The edge from the first entity to the third has no
confidence, so the way there goes through the second. -/
def ring : Snapshot where
  version := 1
  entities := [.bare "a", .bare "b", .bare "c", .bare "d"]
  edges := [⟨"a", "b", .reference, .forward, .one⟩, ⟨"b", "c", .dataFlow, .forward, .one⟩,
    ⟨"a", "c", .dataFlow, .forward, .zero false⟩, ⟨"a", "c", .config, .backward, .one⟩,
    ⟨"d", "c", .contract, .backward, .one⟩]
  files := []
  owners := []

/-- Half of the full confidence is asked of data flow. -/
def halfConfidence : Config :=
  ⟨[], [(.str "DataFlow", .float (.ofRatio false 1 2))], [], [], [], 5⟩

end Impact

end ChangeImpact
