import ChangeImpact.Proofs.Cutoff

/-!
# What the chain of an impacted entity says

Every impacted entity keeps a chain of edges. It is one way from a changed entity to it, of as many edges as
its layer says, and it continues the chain of the entity before the last edge. That edge is the best one into
the entity from the layer before, by the precedence of its dimension, then by where it comes from, then by
the edge itself.

* `Traversal.Lower`: the order of the ways into an entity.
* `Hit.lowest_foldl`: of the ways to one entity none is lower than the one that is kept.
* `Traversal.GrowsFrom`: **what a layer says about the one before it**, with `growsFrom_nextHits` for one
  step and `traced_walkFrom` for all steps, whether or not the walk was limited or cancelled.
* `Traversal.Traced.way`: the chains of a walk are ways, by induction over the layers.
* `Impact.analyze_explains`: **every chain of an analysis explains its item.**
-/

namespace ChangeImpact

namespace Traversal

/-! ## The order of ways -/

/-- What a step over an edge from an entity is compared by: the precedence of the dimension, the entity and
the key of the edge. -/
def wayRank (x : String) (e : Edge String) : Nat × List String :=
  (e.dimension.precedence, [x, e.source, e.target, e.dimension.word, e.direction.word])

/-- Of lower rank, first by the precedence. -/
def Lower (a b : Nat × List String) : Prop := a.1 < b.1 ∨ a.1 = b.1 ∧ rankLt a.2 b.2 = true

theorem Lower.irrefl (a : Nat × List String) : ¬ Lower a a := by
  rintro (h | ⟨-, h⟩)
  · exact Nat.lt_irrefl _ h
  · exact lt_irrefl _ (rankLt_iff.1 h)

theorem Lower.trans {a b c : Nat × List String} (hab : Lower a b) (hbc : Lower b c) : Lower a c := by
  rcases hab with hab | ⟨hab, hrank⟩ <;> rcases hbc with hbc | ⟨hbc, hrank'⟩
  · exact .inl (by omega)
  · exact .inl (by omega)
  · exact .inl (by omega)
  · exact .inr ⟨hab.trans hbc, rankLt_iff.2 (lt_trans (rankLt_iff.1 hrank) (rankLt_iff.1 hrank'))⟩

end Traversal

namespace Hit

open Traversal

/-- What a hit is compared by. -/
def way (h : Hit) : Nat × List String := wayRank h.parent.id h.edge

theorem precedes_iff {g h : Hit} : g.precedes h = true ↔ Lower g.way h.way := by
  unfold precedes
  rw [Bool.or_eq_true, Bool.and_eq_true, decide_eq_true_iff, beq_iff_eq]
  rfl

/-- Of the hits seen so far one is kept for each entity, and none for the entity is lower. -/
structure Lowest (seen kept : List Hit) : Prop where
  once : (kept.map Hit.id).Nodup
  covers : ∀ g ∈ seen, g.id ∈ kept.map Hit.id
  least : ∀ h ∈ kept, h ∈ seen ∧ ∀ g ∈ seen, g.id = h.id → ¬ Lower g.way h.way

/-- What is kept was kept before and is not higher than the new hit, or it is the new hit and lower than
what was kept before. -/
theorem mem_keepLowest {kept : List Hit} {k h : Hit} (hnodup : (kept.map Hit.id).Nodup)
    (hk : k ∈ keepLowest kept h) :
    k ∈ kept ∧ (k.id = h.id → ¬ Lower h.way k.way) ∨
      k = h ∧ ∀ g ∈ kept, g.id = h.id → Lower h.way g.way := by
  induction kept with
  | nil => exact .inr ⟨List.mem_singleton.1 hk, List.forall_mem_nil _⟩
  | cons g kept ih =>
    rw [List.map_cons, List.nodup_cons] at hnodup
    rw [Hit.keepLowest] at hk
    by_cases hid : g.id = h.id
    · have hother : ∀ f ∈ kept, f.id ≠ h.id := fun f hf heq =>
        hnodup.1 (hid.trans heq.symm ▸ List.mem_map_of_mem hf)
      rw [if_pos hid] at hk
      rcases List.mem_cons.1 hk with rfl | hk
      · by_cases hlower : h.precedes g = true
        · rw [if_pos hlower]
          refine .inr ⟨rfl, List.forall_mem_cons.2 ⟨fun _ => precedes_iff.1 hlower, fun f hf heq => ?_⟩⟩
          exact absurd heq (hother f hf)
        · rw [if_neg hlower]
          exact .inl ⟨List.mem_cons_self, fun _ hway => hlower (precedes_iff.2 hway)⟩
      · exact .inl ⟨List.mem_cons_of_mem _ hk, fun heq => absurd heq (hother k hk)⟩
    · rw [if_neg hid] at hk
      rcases List.mem_cons.1 hk with rfl | hk
      · exact .inl ⟨List.mem_cons_self, fun heq => absurd heq hid⟩
      · refine (ih hnodup.2 hk).imp (fun hold => ⟨List.mem_cons_of_mem _ hold.1, hold.2⟩) fun hnew => ?_
        exact ⟨hnew.1, List.forall_mem_cons.2 ⟨fun heq => absurd heq hid, hnew.2⟩⟩

/-- One more hit is seen. -/
theorem Lowest.keepLowest {seen kept : List Hit} (hkept : Lowest seen kept) (h : Hit) :
    Lowest (seen ++ [h]) (Hit.keepLowest kept h) where
  once := by
    rw [map_id_keepLowest]
    split
    · exact hkept.once
    · exact List.nodup_append.2 ⟨hkept.once, List.nodup_singleton _, by simp_all⟩
  covers := by
    intro g hg
    rw [map_id_keepLowest]
    rcases List.mem_append.1 hg with hg | hg
    · have := hkept.covers g hg
      split <;> simp_all
    · obtain rfl := List.mem_singleton.1 hg
      split <;> simp_all
  least := by
    intro k hk
    rcases mem_keepLowest hkept.once hk with ⟨hold, hnot⟩ | ⟨rfl, hlower⟩
    · obtain ⟨hseen, hleast⟩ := hkept.least k hold
      refine ⟨List.mem_append_left _ hseen, List.forall_mem_append.2 ⟨hleast, ?_⟩⟩
      exact List.forall_mem_singleton.2 fun heq => hnot heq.symm
    · refine ⟨List.mem_append_right _ (List.mem_singleton_self k), List.forall_mem_append.2 ⟨?_, ?_⟩⟩
      · -- what is lower than the new hit is lower than the one it took the place of
        intro g hg heq hway
        obtain ⟨f, hf, hid⟩ := List.mem_map.1 (hkept.covers g hg)
        exact (hkept.least f hf).2 g hg hid.symm (hway.trans (hlower f hf (hid.trans heq)))
      · exact List.forall_mem_singleton.2 fun _ => Lower.irrefl _

/-- Of the ways to one entity none is lower than the one that is kept. -/
theorem lowest_foldl (hs : List Hit) : ∀ {seen kept : List Hit}, Lowest seen kept →
    Lowest (seen ++ hs) (hs.foldl Hit.keepLowest kept) := by
  induction hs with
  | nil =>
    intro seen kept h
    rw [List.append_nil]
    exact h
  | cons h hs ih =>
    intro seen kept hkept
    rw [List.append_cons]
    exact ih (hkept.keepLowest h)

end Hit

namespace Traversal

variable {t : Traversal} {roots visited : List String} {frontier : List Reached} {depth : Nat}

/-! ## Layers -/

/-- An edge that a walk may follow from one entity to another. -/
structure Follows (t : Traversal) (x : String) (e : Edge String) (y : String) : Prop where
  offers : t.Offers x e
  allows : t.Allows x e
  other : e.other x = y

/-- A hit comes from the frontier over an edge, and no edge from the frontier to its entity is lower. -/
structure GrowsFrom (t : Traversal) (frontier : List Reached) (h : Hit) : Prop where
  parent : h.parent ∈ frontier
  follows : t.Follows h.parent.id h.edge h.id
  least : ∀ r ∈ frontier, ∀ e, t.Follows r.id e h.id → ¬ Lower (wayRank r.id e) h.way

/-- **A layer grows from the frontier.** -/
theorem growsFrom_nextHits (hfrontier : ∀ r ∈ frontier, r.id ∈ visited) {h : Hit}
    (hh : h ∈ t.nextHits visited frontier) : t.GrowsFrom frontier h := by
  have hnone : Hit.Lowest [] [] := ⟨List.nodup_nil, List.forall_mem_nil _, List.forall_mem_nil _⟩
  have hlowest : Hit.Lowest (frontier.flatMap (t.hitsFrom visited)) (t.nextHits visited frontier) :=
    Hit.lowest_foldl _ hnone
  obtain ⟨hseen, hleast⟩ := hlowest.least h hh
  obtain ⟨r, hr, hfrom⟩ := List.mem_flatMap.1 hseen
  unfold hitsFrom at hfrom
  rw [List.mem_filter, Bool.and_eq_true, bne_iff_ne, Bool.not_eq_true', ← Bool.not_eq_true,
    List.contains_iff_mem] at hfrom
  obtain ⟨hway, hne, hnew⟩ := hfrom
  obtain ⟨e, he, rfl⟩ := List.mem_map.1 hway
  obtain ⟨hoffers, hallows⟩ := (mem_edgesFrom hne).1 he
  refine ⟨hr, ⟨hoffers, hallows, rfl⟩, fun q hq f hf => ?_⟩
  -- the edge is one of those that were compared, since it leads to an entity that is not visited
  have hneq : f.other q.id ≠ q.id := fun heq => hnew (by
    rw [← hf.other, heq]
    exact hfrontier q hq)
  refine hleast ⟨f.other q.id, q, f⟩ (List.mem_flatMap.2 ⟨q, hq, ?_⟩) hf.other
  unfold hitsFrom
  rw [List.mem_filter, Bool.and_eq_true, bne_iff_ne, Bool.not_eq_true', ← Bool.not_eq_true,
    List.contains_iff_mem]
  refine ⟨List.mem_map.2 ⟨f, (mem_edgesFrom hneq).2 ⟨hf.offers, hf.allows⟩, rfl⟩, hneq, ?_⟩
  rw [hf.other]
  exact hnew

/-- What the layer after `n` others grows from. -/
def frontierAt (frontier : List Reached) (layers : List (List Hit)) : Nat → List Reached
  | 0 => frontier
  | n + 1 => (layers.getD n []).map Hit.reached

/-- Every layer has the next distance, and grows from the one before. -/
def Traced (t : Traversal) (roots : List String) (depth : Nat) (frontier : List Reached)
    (layers : List (List Hit)) : Prop :=
  ∀ n, ∀ h ∈ layers.getD n [],
    IsDistance t.Step roots (depth + n + 1) h.id ∧ t.GrowsFrom (frontierAt frontier layers n) h

theorem traced_nil : t.Traced roots depth frontier [] := fun _ _ h => absurd h List.not_mem_nil

theorem GrowsFrom.of_mem_iff {frontier' : List Reached} {h : Hit} (hgrows : t.GrowsFrom frontier h)
    (hmem : ∀ r, r ∈ frontier ↔ r ∈ frontier') : t.GrowsFrom frontier' h :=
  ⟨(hmem _).1 hgrows.parent, hgrows.follows, fun r hr => hgrows.least r ((hmem r).2 hr)⟩

/-- **Every walk is traced**, to whatever layer it comes. -/
theorem traced_walkFrom (limit : Option Nat) (fuel : Nat) :
    ∀ {depth : Nat} {token : Token} {visited : List String} {frontier : List Reached},
      Layered t.Step roots depth visited (frontier.map Reached.id) →
      t.Traced roots depth frontier (t.walkFrom limit fuel depth token visited frontier).layers := by
  induction fuel with
  | zero => exact fun _ => traced_nil
  | succ fuel ih =>
    intro depth token visited frontier h
    rw [walkFrom]
    split
    · exact traced_nil
    split
    · exact traced_nil
    obtain ⟨hhits, hnext⟩ := Layered.nextHits h
    have hvisited : ∀ r ∈ frontier, r.id ∈ visited := fun r hr =>
      (h.visited r.id).2 ⟨depth, Nat.le_refl _, ((h.frontier r.id).1 (List.mem_map_of_mem hr)).reaches⟩
    have hrest : t.Traced roots (depth + 1) _ (t.walkFrom limit fuel (depth + 1) token.next _ _).layers :=
      ih hnext
    intro n g hg
    cases n with
    | zero => exact ⟨(hhits g.id).1 (List.mem_map_of_mem hg), growsFrom_nextHits hvisited hg⟩
    | succ n =>
      obtain ⟨hdistance, hgrows⟩ := hrest n g hg
      refine ⟨by rwa [show depth + (n + 1) + 1 = depth + 1 + n + 1 by omega], ?_⟩
      -- the next step starts from this layer in order, which has the same members
      cases n with
      | zero => exact hgrows.of_mem_iff fun r => (sortByRank_perm _ _).mem_iff
      | succ n => exact hgrows

/-! ## Ways -/

/-- Edges that a walk may follow one after the other, from one entity to another. -/
inductive Path (t : Traversal) (x : String) : List (Edge String) → String → Prop
  | start : Path t x [] x
  | go {edges : List (Edge String)} {e : Edge String} {y z : String} (before : Path t x edges y)
      (last : t.Follows y e z) : Path t x (edges ++ [e]) z

/-- What is reached after some layers, by a chain of as many edges from one of the roots. -/
structure IsWay (t : Traversal) (roots : List String) (k : Nat) (r : Reached) : Prop where
  root : r.root ∈ roots
  length : r.chain.length = k
  path : t.Path r.root r.chain r.id

/-- **The chains of a walk are ways.** -/
theorem Traced.way {layers : List (List Hit)} (h : t.Traced roots depth frontier layers)
    (hfrontier : ∀ r ∈ frontier, t.IsWay roots depth r) :
    ∀ n, ∀ g ∈ layers.getD n [], t.IsWay roots (depth + n + 1) g.reached := by
  have hgrow : ∀ {k : Nat} {rs : List Reached} {g : Hit}, (∀ r ∈ rs, t.IsWay roots k r) →
      t.GrowsFrom rs g → t.IsWay roots (k + 1) g.reached := by
    intro k rs g hrs hg
    obtain ⟨hroot, hlength, hpath⟩ := hrs g.parent hg.parent
    exact ⟨hroot, by simp [Hit.reached, hlength], .go hpath hg.follows⟩
  intro n
  induction n with
  | zero => exact fun g hg => hgrow hfrontier (h 0 g hg).2
  | succ n ih =>
    refine fun g hg => hgrow (fun r hr => ?_) (h (n + 1) g hg).2
    obtain ⟨f, hf, rfl⟩ := List.mem_map.1 hr
    exact ih f hf

end Traversal

namespace Impact

open Traversal

variable {config : Config} {s : Snapshot} {pairs : List ContractPair} {changes : Changes}
  {dimensions : List Dimension} {direction : Option Direction} {limit : Option Nat}
  {t : Traversal} {roots : List String} {layers : List (List Hit)} {i : ImpactItem}

/-! ## Items -/

/-- An entity of a layer of a result. Layer zero has the roots. -/
def AtLayer (roots : List String) (r : ImpactResult) : Nat → String → Prop
  | 0, x => x ∈ roots
  | k + 1, x => ∃ i ∈ r.impacted, i.id = x ∧ i.layer = (k + 1 : Nat)

/-- **The chain of an item explains it.** It is a way from one of the roots of as many edges as the layer
says. Without its last edge it is the chain of the parent, from the same root. The last edge has the dimension
of the item and comes from the parent, and no edge from the layer before to the item has a lower rank. -/
structure Explains (t : Traversal) (roots : List String) (r : ImpactResult) (i : ImpactItem) : Prop where
  root : i.root ∈ roots
  length : (i.chain.length : Int) = i.layer
  path : t.Path i.root i.chain i.id
  parent_root : i.parent ∈ roots → i.root = i.parent ∧ i.chain.dropLast = []
  parent_item : i.parent ∉ roots → ∃ p, r.get? i.parent = some p ∧ p.layer + 1 = i.layer ∧
    p.root = i.root ∧ p.chain = i.chain.dropLast
  last : ∃ e k, i.chain.getLast? = some e ∧ e.dimension = i.dimension ∧ i.layer = (k + 1 : Nat) ∧
    AtLayer roots r k i.parent ∧ t.Follows i.parent e i.id ∧
    ∀ x f, AtLayer roots r k x → t.Follows x f i.id → ¬ Lower (wayRank x f) (wayRank i.parent e)

theorem mem_itemsFrom_iff : i ∈ itemsFrom s 1 layers ↔
    ∃ n, ∃ h ∈ layers.getD n [], i = itemOf s (1 + n) h := by
  rw [mem_itemsFrom]
  refine exists_congr fun n => ?_
  rw [(itemsOf_perm s _ _).mem_iff, List.mem_map]
  exact exists_congr fun h => and_congr_right fun _ => eq_comm

/-- A root is reached over no edge. -/
def atRoot (x : String) : Reached := ⟨x, x, []⟩

/-- The entities of a layer are those that the next one grows from. -/
theorem atLayer_iff {r : ImpactResult} (hr : r.impacted = itemsFrom s 1 layers) (k : Nat) (x : String) :
    AtLayer roots r k x ↔ ∃ q ∈ frontierAt (roots.map atRoot) layers k, q.id = x := by
  cases k with
  | zero =>
    unfold AtLayer frontierAt
    simp [atRoot]
  | succ k =>
    unfold AtLayer frontierAt
    rw [hr]
    constructor
    · rintro ⟨i, hi, rfl, hlayer⟩
      obtain ⟨n, h, hh, rfl⟩ := mem_itemsFrom_iff.1 hi
      have hn : n = k := by
        have : ((1 + n : Nat) : Int) = (k + 1 : Nat) := hlayer
        omega
      exact ⟨h.reached, List.mem_map_of_mem (hn ▸ hh), rfl⟩
    · rintro ⟨q, hq, rfl⟩
      obtain ⟨h, hh, rfl⟩ := List.mem_map.1 hq
      exact ⟨itemOf s (1 + k) h, mem_itemsFrom_iff.2 ⟨k, h, hh, rfl⟩, rfl, by simp [itemOf, Nat.add_comm]⟩

/-- The item of a hit is found under its id. -/
theorem get?_of_mem {r : ImpactResult} (hr : r.impacted = itemsFrom s 1 layers)
    (hids : (r.impacted.map ImpactItem.id).Nodup) {n : Nat} {h : Hit} (hh : h ∈ layers.getD n []) :
    r.get? h.id = some (itemOf s (1 + n) h) := by
  have hmem : itemOf s (1 + n) h ∈ r.impacted := hr ▸ mem_itemsFrom_iff.2 ⟨n, h, hh, rfl⟩
  unfold ImpactResult.get?
  cases hfind : r.impacted.find? fun i => i.id == h.id with
  | none => exact absurd (beq_self_eq_true h.id) (List.find?_eq_none.1 hfind _ hmem)
  | some p =>
    have hid : p.id = h.id := by simpa using List.find?_some hfind
    rw [List.inj_on_of_nodup_map hids (List.mem_of_find?_eq_some hfind) hmem hid]

/-- The entity before the last edge: a root before the first layer, else the item of a hit. -/
theorem parent_cases (htraced : t.Traced roots 0 (roots.map atRoot) layers) {n : Nat} {h : Hit}
    (hh : h ∈ layers.getD n []) :
    (n = 0 ∧ h.parent.id ∈ roots ∧ h.parent = atRoot h.parent.id) ∨
      ∃ m, n = m + 1 ∧ h.parent.id ∉ roots ∧ ∃ g ∈ layers.getD m [], h.parent = g.reached := by
  have hparent := (htraced n h hh).2.parent
  cases n with
  | zero =>
    obtain ⟨x, hx, hroot⟩ := List.mem_map.1 hparent
    rw [← hroot]
    exact .inl ⟨rfl, hx, rfl⟩
  | succ m =>
    obtain ⟨g, hg, hreached⟩ := List.mem_map.1 hparent
    refine .inr ⟨m, rfl, fun hroot => ?_, g, hg, hreached.symm⟩
    -- the parent is some steps away from the roots, and a root is none
    rw [← hreached] at hroot
    exact (htraced m g hg).1.least 0 (by omega) hroot

/-- An entity has one distance, so it is in one layer only. -/
theorem nodup_ids_of_traced {frontier : List Reached} (hnodup : ∀ hits ∈ layers, (hits.map Hit.id).Nodup)
    (htraced : t.Traced roots 0 frontier layers) : ((itemsFrom s 1 layers).map ImpactItem.id).Nodup := by
  refine nodup_itemsFrom hnodup fun m n y hm hn => ?_
  obtain ⟨g, hg, hy⟩ := List.mem_map.1 hm
  obtain ⟨h, hh, rfl⟩ := List.mem_map.1 hn
  have hdistance := (htraced m g hg).1
  rw [hy] at hdistance
  have := hdistance.unique (htraced n h hh).1
  omega

/-- What is recorded of a traced walk is explained by its chains. -/
theorem explains_itemsFrom {r : ImpactResult} (hr : r.impacted = itemsFrom s 1 layers)
    (hnodup : ∀ hits ∈ layers, (hits.map Hit.id).Nodup)
    (htraced : t.Traced roots 0 (roots.map atRoot) layers) : ∀ i ∈ r.impacted, Explains t roots r i := by
  have hids : (r.impacted.map ImpactItem.id).Nodup := by
    rw [hr]
    exact nodup_ids_of_traced hnodup htraced
  have hstart : ∀ q ∈ roots.map atRoot, t.IsWay roots 0 q :=
    List.forall_mem_map.2 fun x hx => ⟨hx, rfl, .start⟩
  intro i hi
  rw [hr] at hi
  obtain ⟨n, h, hh, rfl⟩ := mem_itemsFrom_iff.1 hi
  have hway := htraced.way hstart n h hh
  have hgrows := (htraced n h hh).2
  have hdrop : h.reached.chain.dropLast = h.parent.chain := List.dropLast_concat
  refine ⟨hway.root, ?_, hway.path, fun hroot => ?_, fun hroot => ?_, h.edge, n, List.getLast?_concat, rfl, ?_,
    ?_, hgrows.follows, fun x f hx hf => ?_⟩
  · change (h.reached.chain.length : Int) = (1 + n : Nat)
    rw [hway.length]
    omega
  · obtain ⟨-, -, hparent⟩ | ⟨m, -, hnot, -⟩ := parent_cases htraced hh
    · change h.parent.root = h.parent.id ∧ h.reached.chain.dropLast = []
      rw [hdrop, hparent]
      exact ⟨rfl, rfl⟩
    · exact absurd hroot hnot
  · obtain ⟨-, hin, -⟩ | ⟨m, rfl, -, g, hg, hparent⟩ := parent_cases htraced hh
    · exact absurd hin hroot
    · change ∃ p, r.get? h.parent.id = some p ∧ _ ∧ p.root = h.parent.root ∧ p.chain = h.reached.chain.dropLast
      rw [hdrop, hparent]
      exact ⟨_, get?_of_mem hr hids hg, rfl, rfl, rfl⟩
  · exact congrArg Nat.cast (Nat.add_comm 1 n)
  · exact (atLayer_iff hr n _).2 ⟨h.parent, hgrows.parent, rfl⟩
  · obtain ⟨q, hq, rfl⟩ := (atLayer_iff hr n x).1 hx
    exact hgrows.least q hq f hf

/-- **Every chain of an analysis explains its item**, also where the analysis was limited or cancelled. The
chain leads from a known changed entity over edges that the analysis may follow. -/
theorem analyze_explains (config : Config) (s : Snapshot) (pairs : List ContractPair) (token : Token)
    {r : Request} (hchanges : Changes.ofValue r.changes = .ok changes)
    (hdimensions : dimensionsOf r.dimensions = .ok dimensions)
    (hdirection : Snapshot.directionOf r.direction = .ok direction)
    (hlimit : limitOf r.maxDepth = .ok limit) :
    ∃ result next, analyze config s pairs r token = .ok (result, next) ∧
      ∀ i ∈ result.impacted, Explains (traversalOf config s pairs dimensions direction)
        (knownChanges s changes) result i := by
  have hroots : (knownChanges s changes).Nodup :=
    (Text.Ascending.nodup (Changes.ofValue_ordered hchanges)).filter _
  have hmap : ((knownChanges s changes).map atRoot).map Reached.id = knownChanges s changes := by
    simp [Function.comp_def, atRoot]
  refine ⟨_, _, analyze_eq_ok.2 ⟨changes, dimensions, direction, limit, hchanges, hdimensions, hdirection,
    hlimit, rfl, rfl⟩, explains_itemsFrom rfl (nodup_layers_walkFrom _ _ _ _ _ _) ?_⟩
  refine traced_walkFrom _ _ ?_
  rw [hmap]
  exact layered_roots hroots

/-- Two entities with edges to a third, and two edges from there to a fourth. -/
def funnel : Snapshot where
  version := 1
  entities := [.bare "a", .bare "b", .bare "c", .bare "d"]
  edges := [⟨"a", "c", .config, .forward, .one⟩, ⟨"b", "c", .reference, .forward, .one⟩,
    ⟨"c", "d", .config, .forward, .one⟩, ⟨"d", "c", .dataFlow, .backward, .one⟩]
  files := []
  owners := []

/-- Both changed, the chains to the third and the fourth start at `b`, over its stronger edge. -/
theorem analyze_explains_funnel : ∃ result next,
    analyze halfConfidence funnel [] { changes := .texts ["a", "b"] } {} = .ok (result, next) ∧
    result.impacted.map (fun i => (i.id, i.root, i.parent, i.chain.map Edge.dimension)) =
      [("c", "b", "b", [.reference]), ("d", "b", "c", [.reference, .dataFlow])] ∧
    ∀ i ∈ result.impacted, Explains (traversalOf halfConfidence funnel [] Dimension.byPrecedence none)
      ["a", "b"] result i := by
  have hchanges : Changes.ofValue (.texts ["a", "b"]) = .ok [("a", .modified), ("b", .modified)] := rfl
  have hroots : knownChanges funnel [("a", .modified), ("b", .modified)] = ["a", "b"] := by decide
  obtain ⟨result, next, hrun, hall⟩ := analyze_explains halfConfidence funnel [] {}
    (r := { changes := .texts ["a", "b"] }) hchanges rfl rfl rfl
  have hitems : (analyze halfConfidence funnel [] { changes := .texts ["a", "b"] } {}).map
      (fun r => r.1.impacted.map fun i => (i.id, i.root, i.parent, i.chain.map Edge.dimension)) =
      .ok [("c", "b", "b", [.reference]), ("d", "b", "c", [.reference, .dataFlow])] := by
    decide +kernel
  rw [hrun] at hitems
  rw [hroots] at hall
  exact ⟨result, next, hrun, Except.ok.inj hitems, hall⟩

end Impact

end ChangeImpact
