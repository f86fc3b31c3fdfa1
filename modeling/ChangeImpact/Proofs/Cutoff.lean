import ChangeImpact.Proofs.Analysis

/-!
# Walks that end early

A walk can be limited in depth, and a token can cancel it between two layers. Either way whole layers are
left out at the end, and what stands in the layers before them does not depend on where the walk ends.

* `Traversal.layers_of_limit`, `Traversal.layers_of_token`: **the layers of a walk that ends early are the
  first ones of the free walk.**
* `Traversal.frontier_eq_nil`, `Traversal.status_of_token`: a walk has enough fuel, and it is cancelled just
  if there is a layer to go on from when the token stops it, and the limit did not end it before.
* `Impact.itemsFrom_take`: the items of the first layers are those with low layers.
* `Impact.analyze_cut_short`: **limits and cancellation only cut whole layers off an analysis.**
-/

namespace ChangeImpact

namespace Traversal

variable {t : Traversal} {roots nodes visited : List String} {frontier : List Reached}

/-! ## Layers -/

/-- A depth limit takes the layers up to it, whatever the token does. -/
theorem layers_of_limit (d fuel : Nat) :
    ∀ (depth : Nat) (token : Token) (visited : List String) (frontier : List Reached),
      (t.walkFrom (some d) fuel depth token visited frontier).layers =
        (t.walkFrom none fuel depth token visited frontier).layers.take (d - depth) := by
  induction fuel with
  | zero =>
    intro depth token visited frontier
    exact List.take_nil.symm
  | succ fuel ih =>
    intro depth token visited frontier
    rw [walkFrom, walkFrom]
    by_cases hnil : frontier.isEmpty = true
    · simp [hnil]
    by_cases hd : d ≤ depth
    · have hzero : d - depth = 0 := by omega
      simp [hd, hzero]
    have hone : d - depth = d - (depth + 1) + 1 := by omega
    by_cases hstop : token.stops = true
    · simp [hnil, hd, hstop]
    · simp [hnil, hd, hstop, hone, ih]

/-- A token takes as many layers as it lets checks pass. -/
theorem layers_of_token (fuel : Nat) :
    ∀ (n depth : Nat) (visited : List String) (frontier : List Reached),
      (t.walkFrom none fuel depth ⟨some n⟩ visited frontier).layers =
        (t.walkFrom none fuel depth {} visited frontier).layers.take n := by
  induction fuel with
  | zero =>
    intro n depth visited frontier
    exact List.take_nil.symm
  | succ fuel ih =>
    intro n depth visited frontier
    have hfree : Token.stops {} = false := rfl
    have hnext : Token.next {} = {} := rfl
    rw [walkFrom, walkFrom]
    by_cases hnil : frontier.isEmpty = true
    · simp [hnil]
    cases n with
    | zero =>
      have hstop : Token.stops ⟨some 0⟩ = true := rfl
      simp [hnil, hstop]
    | succ n =>
      have hgo : Token.stops ⟨some (n + 1)⟩ = false := rfl
      have hless : Token.next ⟨some (n + 1)⟩ = ⟨some n⟩ := rfl
      simp [hnil, hgo, hless, hfree, hnext, ih]

/-! ## Status -/

/-- There is something to go on from after `n` layers: the frontier itself when there are none. -/
def Populated (frontier : List Reached) (layers : List (List Hit)) : Nat → Prop
  | 0 => frontier ≠ []
  | n + 1 => layers.getD n [] ≠ []

/-- What one step leads to is an end of an edge. -/
theorem mem_ends_of_step {x y : String} (h : t.Step x y) :
    y ∈ (t.snapshot.edges ++ t.derived).flatMap fun e => [e.source, e.target] := by
  obtain ⟨e, hoffers, -, rfl⟩ := h
  have hmem : e ∈ t.snapshot.edges ++ t.derived := by
    rcases hoffers with ⟨he, -⟩ | ⟨he, -⟩
    · exact List.mem_append_left _ he
    · exact List.mem_append_right _ he
  refine List.mem_flatMap.2 ⟨e, hmem, ?_⟩
  unfold Edge.other
  split <;> simp

/-- **When the fuel runs out, there is nothing to go on from.** What was visited before the frontier is no
more than the fuel that was used, so all is visited at the end. -/
theorem frontier_eq_nil {depth : Nat}
    (hnodes : ∀ j z, ReachesIn t.Step roots j z → z ∈ nodes)
    (h : Layered t.Step roots depth visited (frontier.map Reached.id))
    (hfuel : nodes.length + frontier.length ≤ visited.length) : frontier = [] := by
  have hsub : ∀ z ∈ visited, z ∈ nodes := by
    intro z hz
    obtain ⟨j, -, hzj⟩ := (h.visited z).1 hz
    exact hnodes j z hzj
  have hle : visited.length ≤ nodes.length := (List.subperm_of_subset h.nodup hsub).length_le
  have hzero : frontier.length = 0 := by omega
  exact List.length_eq_zero_iff.1 hzero

/-- **A walk is cancelled just if the token stops it before a layer that it would go on from**, and the
limit does not end it first. -/
theorem status_of_token (hnodes : ∀ j z, ReachesIn t.Step roots j z → z ∈ nodes)
    (limit : Option Nat) (fuel : Nat) :
    ∀ {n depth : Nat} {visited : List String} {frontier : List Reached},
      Layered t.Step roots depth visited (frontier.map Reached.id) →
      nodes.length + frontier.length ≤ fuel + visited.length →
      ((t.walkFrom limit fuel depth ⟨some n⟩ visited frontier).status = .cancelled ↔
        Populated frontier (t.walkFrom none fuel depth {} visited frontier).layers n ∧
          ∀ d, limit = some d → depth + n < d) := by
  induction fuel with
  | zero =>
    intro n depth visited frontier h hfuel
    have hnil : frontier = [] := frontier_eq_nil hnodes h (by omega)
    subst hnil
    cases n with
    | zero => simp [walkFrom, Populated]
    | succ n => simp [walkFrom, Populated]
  | succ fuel ih =>
    intro n depth visited frontier h hfuel
    by_cases hnil : frontier = []
    · subst hnil
      cases n with
      | zero => simp [walkFrom, Populated]
      | succ n => simp [walkFrom, Populated]
    by_cases hlimit : ∃ d, limit = some d ∧ d ≤ depth
    · obtain ⟨d, rfl, hd⟩ := hlimit
      have hnot : ¬ ∀ d', some d = some d' → depth + n < d' := fun hall => by
        have := hall d rfl
        omega
      rw [walkFrom, if_pos (by simp [hd])]
      constructor
      · intro hcancelled
        cases hcancelled
      · intro hboth
        exact absurd hboth.2 hnot
    have hbelow : ∀ d, limit = some d → depth < d := fun d hd =>
      Nat.lt_of_not_le fun hle => hlimit ⟨d, hd, hle⟩
    have hgo : ¬ (frontier.isEmpty || limit.any (· ≤ depth)) = true := by
      rcases limit with _ | d
      · simp [hnil]
      · simpa [hnil] using hbelow d rfl
    have hfree : ¬ (frontier.isEmpty || (none : Option Nat).any (· ≤ depth)) = true := by simp [hnil]
    rw [walkFrom, if_neg hgo, walkFrom, if_neg hfree]
    cases n with
    | zero => simpa [Token.stops, Populated, hnil] using hbelow
    | succ n =>
      -- one layer on, the token lets one check less pass
      obtain ⟨-, hnext⟩ := Layered.nextHits h
      set hits := t.nextHits visited frontier with hhits
      have hlength : (sortByRank (fun x => [x.id]) (hits.map Hit.reached)).length = hits.length := by
        rw [(sortByRank_perm _ _).length_eq, List.length_map]
      have hpos : 0 < frontier.length := List.length_pos_iff.2 hnil
      have hfuel' : nodes.length + (sortByRank (fun x => [x.id]) (hits.map Hit.reached)).length ≤
          fuel + (visited ++ hits.map Hit.id).length := by
        rw [hlength, List.length_append, List.length_map]
        omega
      have hrest := ih (n := n) hnext hfuel'
      have hstep : ∀ layers, Populated (sortByRank (fun x => [x.id]) (hits.map Hit.reached)) layers n ↔
          Populated frontier (hits :: layers) (n + 1) := by
        intro layers
        cases n with
        | zero =>
          have hempty : sortByRank (fun x => [x.id]) (hits.map Hit.reached) = [] ↔ hits = [] := by
            rw [← List.length_eq_zero_iff, hlength, List.length_eq_zero_iff]
          simp [Populated, hempty]
        | succ n => rfl
      have hdepth : (∀ d, limit = some d → depth + 1 + n < d) ↔
          ∀ d, limit = some d → depth + (n + 1) < d := by
        rw [show depth + 1 + n = depth + (n + 1) by omega]
      rw [hstep, hdepth] at hrest
      exact hrest

end Traversal

namespace Impact

variable {config : Config} {s : Snapshot} {pairs : List ContractPair} {changes : Changes}
  {dimensions : List Dimension} {direction : Option Direction}

/-! ## Items -/

/-- The items up to a layer. -/
def upTo (n : Nat) (items : List ImpactItem) : List ImpactItem := items.filter fun i => i.layer ≤ (n : Int)

/-- The items of the first layers are those that have no higher layer. -/
theorem itemsFrom_take (s : Snapshot) (layers : List (List Hit)) :
    ∀ depth n : Nat, itemsFrom s (depth + 1) (layers.take n) =
      upTo (depth + n) (itemsFrom s (depth + 1) layers) := by
  induction layers with
  | nil =>
    intro depth n
    rw [List.take_nil]
    rfl
  | cons hits layers ih =>
    intro depth n
    cases n with
    | zero =>
      have hnone : upTo (depth + 0) (itemsFrom s (depth + 1) (hits :: layers)) = [] := by
        refine List.filter_eq_nil_iff.2 fun i hi => ?_
        have := lt_layer_of_mem_itemsFrom hi
        simp only [decide_eq_true_eq]
        omega
      rw [hnone]
      rfl
    | succ n =>
      have hfirst : upTo (depth + (n + 1)) (itemsOf s (depth + 1) hits) = itemsOf s (depth + 1) hits := by
        refine List.filter_eq_self.2 fun i hi => ?_
        have := layer_of_mem_itemsOf hi
        simp only [decide_eq_true_eq]
        omega
      have hrest := ih (depth + 1) n
      rw [show depth + 1 + n = depth + (n + 1) by omega] at hrest
      rw [List.take_succ_cons, itemsFrom, itemsFrom, hrest]
      conv_lhs => rw [← hfirst]
      exact (List.filter_append _ _).symm

/-- A layer of an analysis has an entity; layer zero has the changed ones that are known. -/
def HasLayer (s : Snapshot) (r : ImpactResult) : Nat → Prop
  | 0 => ∃ id ∈ r.changes.keys, s.has id = true
  | n + 1 => ∃ i ∈ r.impacted, i.layer = (n + 1 : Nat)

/-- The free analysis, without a limit and a token. -/
def freely (config : Config) (s : Snapshot) (pairs : List ContractPair) (changes : Changes)
    (dimensions : List Dimension) (direction : Option Direction) : ImpactResult :=
  (analyzeChanges config s pairs changes dimensions direction none {}).1

theorem impacted_of_limit (n : Nat) :
    (analyzeChanges config s pairs changes dimensions direction (some n) {}).1.impacted =
      upTo n (freely config s pairs changes dimensions direction).impacted := by
  unfold freely analyzeChanges Traversal.walk
  simp only [Traversal.layers_of_limit, Nat.sub_zero]
  rw [itemsFrom_take s _ 0 n, Nat.zero_add]

theorem impacted_of_token (limit : Option Nat) (n : Nat) :
    (analyzeChanges config s pairs changes dimensions direction limit ⟨some n⟩).1.impacted =
      limit.elim id upTo (upTo n (freely config s pairs changes dimensions direction).impacted) := by
  unfold freely analyzeChanges Traversal.walk
  cases limit with
  | none =>
    simp only [Traversal.layers_of_token]
    rw [itemsFrom_take s _ 0 n, Nat.zero_add]
    rfl
  | some d =>
    simp only [Traversal.layers_of_limit, Traversal.layers_of_token, Nat.sub_zero]
    rw [itemsFrom_take s _ 0 d, itemsFrom_take s _ 0 n, Nat.zero_add, Nat.zero_add]
    rfl

theorem hasLayer_iff (n : Nat) :
    HasLayer s (freely config s pairs changes dimensions direction) n ↔
      Traversal.Populated ((knownChanges s changes).map fun r => ⟨r, r, []⟩)
        ((traversalOf config s pairs dimensions direction).walk none {}
          (knownChanges s changes)).layers n := by
  cases n with
  | zero =>
    unfold HasLayer Traversal.Populated knownChanges
    rw [ne_eq, List.map_eq_nil_iff, List.filter_eq_nil_iff]
    push Not
    rfl
  | succ n =>
    unfold HasLayer Traversal.Populated
    change (∃ i ∈ itemsFrom s 1 ((traversalOf config s pairs dimensions direction).walk none {}
      (knownChanges s changes)).layers, i.layer = (n + 1 : Nat)) ↔ _
    set layers := ((traversalOf config s pairs dimensions direction).walk none {}
      (knownChanges s changes)).layers
    constructor
    · rintro ⟨i, hi, hlayer⟩
      obtain ⟨m, hm⟩ := mem_itemsFrom.1 hi
      have hmn : m = n := by
        have := layer_of_mem_itemsOf hm
        omega
      subst hmn
      obtain ⟨h, hh, -⟩ := List.mem_map.1 ((itemsOf_perm s _ _).mem_iff.1 hm)
      exact List.ne_nil_of_mem hh
    · intro hne
      obtain ⟨h, hh⟩ := List.exists_mem_of_ne_nil _ hne
      have hmem : itemOf s (1 + n) h ∈ itemsOf s (1 + n) (layers.getD n []) :=
        (itemsOf_perm s _ _).mem_iff.2 (List.mem_map_of_mem hh)
      refine ⟨itemOf s (1 + n) h, mem_itemsFrom.2 ⟨n, hmem⟩, ?_⟩
      rw [layer_of_mem_itemsOf hmem, Nat.add_comm]

theorem cancelled_iff (hchanges : changes.Ordered) (limit : Option Nat) (n : Nat) :
    (analyzeChanges config s pairs changes dimensions direction limit ⟨some n⟩).1.status = .cancelled ↔
      HasLayer s (freely config s pairs changes dimensions direction) n ∧
        ∀ d, limit = some d → n < d := by
  rw [hasLayer_iff]
  set t := traversalOf config s pairs dimensions direction with ht
  have hroots : (knownChanges s changes).Nodup := (Text.Ascending.nodup hchanges).filter _
  have hmap : ((knownChanges s changes).map fun r => (⟨r, r, []⟩ : Reached)).map Reached.id =
      knownChanges s changes := by simp [Function.comp_def]
  have hstart : Layered t.Step (knownChanges s changes) 0 (knownChanges s changes)
      (((knownChanges s changes).map fun r => (⟨r, r, []⟩ : Reached)).map Reached.id) := by
    rw [hmap]
    exact layered_roots hroots
  -- the changed entities are in the snapshot, and a step leads to an end of an edge
  have hnodes : ∀ j z, ReachesIn t.Step (knownChanges s changes) j z →
      z ∈ s.ids ++ (s.edges ++ t.derived).flatMap fun e => [e.source, e.target] := by
    intro j z hz
    cases j with
    | zero => exact List.mem_append_left _ (Snapshot.has_iff.1 (List.mem_filter.1 hz).2)
    | succ j =>
      obtain ⟨x, -, hstep⟩ := hz
      exact List.mem_append_right _ (Traversal.mem_ends_of_step hstep)
  have hsize : (s.ids ++ (s.edges ++ t.derived).flatMap fun e => [e.source, e.target]).length =
      t.size := by
    unfold Traversal.size Snapshot.ids
    simp [ht, traversalOf, List.length_flatMap]
    omega
  have hfuel : (s.ids ++ (s.edges ++ t.derived).flatMap fun e => [e.source, e.target]).length +
      ((knownChanges s changes).map fun r => (⟨r, r, []⟩ : Reached)).length ≤
        t.size + (knownChanges s changes).length := by
    rw [hsize, List.length_map]
  have hstatus := Traversal.status_of_token hnodes limit t.size (n := n) hstart hfuel
  rw [Nat.zero_add] at hstatus
  exact hstatus

/-- A natural number is a depth limit. -/
theorem limitOf_nat (n : Nat) : limitOf (.int n) = .ok (some n) := by
  have hnonneg : ((Value.Numeric.int n).compare? (.int 0) == some .lt) = false := by
    rw [Value.Numeric.compare?, beq_eq_false_iff_ne, ne_eq, Option.some.injEq, Int.compare_eq_lt]
    omega
  unfold limitOf
  simp only [Value.numeric?, hnonneg]
  rfl

/-- What an analysis comes to, once its request is understood. -/
theorem analyze_eq_ok {r : Request} {token : Token} {result : ImpactResult} {next : Token} :
    analyze config s pairs r token = .ok (result, next) ↔ ∃ changes dimensions direction limit,
      Changes.ofValue r.changes = .ok changes ∧ dimensionsOf r.dimensions = .ok dimensions ∧
      Snapshot.directionOf r.direction = .ok direction ∧ limitOf r.maxDepth = .ok limit ∧
      { (analyzeChanges config s pairs changes dimensions direction limit token).1 with
        maxDepth := r.maxDepth } = result ∧
      (analyzeChanges config s pairs changes dimensions direction limit token).2 = next := by
  unfold analyze
  simp only [bind_eq_ok]
  constructor
  · rintro ⟨changes, hchanges, dimensions, hdimensions, direction, hdirection, limit, hlimit, hok⟩
    obtain ⟨hresult, hnext⟩ := Prod.mk.inj (Except.ok.inj hok)
    exact ⟨changes, dimensions, direction, limit, hchanges, hdimensions, hdirection, hlimit, hresult, hnext⟩
  · rintro ⟨changes, dimensions, direction, limit, hchanges, hdimensions, hdirection, hlimit, rfl, rfl⟩
    exact ⟨changes, hchanges, dimensions, hdimensions, direction, hdirection, limit, hlimit, rfl⟩

/-- **Limits and cancellation only cut whole layers off an analysis.** Beside the free analysis stand the
one with a depth limit, the one with a token that lets `n` checks pass, and the one with both. What is left
of the list are its items up to a layer, each with the root, the parent and the chain that it has in the
free analysis. An analysis with a token is reported as cancelled just if the free one has a layer `n`, and
no limit of at most `n` ends it first. -/
theorem analyze_cut_short {r : Request} {full : ImpactResult} {last : Token}
    (hfull : analyze config s pairs { r with maxDepth := .null } {} = .ok (full, last)) (n : Nat) :
    (∃ cut next, analyze config s pairs { r with maxDepth := .int n } {} = .ok (cut, next) ∧
      cut.impacted = upTo n full.impacted ∧ cut.status = .completed) ∧
    (∃ cut next, analyze config s pairs { r with maxDepth := .null } ⟨some n⟩ = .ok (cut, next) ∧
      cut.impacted = upTo n full.impacted ∧ (cut.status = .cancelled ↔ HasLayer s full n)) ∧
    ∀ depth limit, limitOf depth = .ok limit →
      ∃ cut next, analyze config s pairs { r with maxDepth := depth } ⟨some n⟩ = .ok (cut, next) ∧
        cut.impacted = limit.elim id upTo (upTo n full.impacted) ∧
        (cut.status = .cancelled ↔ HasLayer s full n ∧ ∀ d, limit = some d → n < d) := by
  obtain ⟨changes, dimensions, direction, limit, hchanges, hdimensions, hdirection, hnull, rfl, -⟩ :=
    analyze_eq_ok.1 hfull
  obtain rfl := Except.ok.inj hnull
  have hordered : changes.Ordered := Changes.ofValue_ordered hchanges
  have htoken : ∀ depth limit, limitOf depth = .ok limit →
      ∃ cut next, analyze config s pairs { r with maxDepth := depth } ⟨some n⟩ = .ok (cut, next) ∧
        cut.impacted = limit.elim id upTo
          (upTo n (freely config s pairs changes dimensions direction).impacted) ∧
        (cut.status = .cancelled ↔
          HasLayer s (freely config s pairs changes dimensions direction) n ∧
            ∀ d, limit = some d → n < d) := by
    intro depth limit hlimit
    refine ⟨_, _, analyze_eq_ok.2 ⟨changes, dimensions, direction, limit, hchanges, hdimensions,
      hdirection, hlimit, rfl, rfl⟩, ?_, ?_⟩
    · exact impacted_of_token limit n
    · exact cancelled_iff hordered limit n
  refine ⟨?_, ?_, htoken⟩
  · refine ⟨_, _, analyze_eq_ok.2 ⟨changes, dimensions, direction, some n, hchanges, hdimensions,
      hdirection, limitOf_nat n, rfl, rfl⟩, impacted_of_limit n, ?_⟩
    exact Traversal.status_walkFrom rfl _ _ _ _ _
  · obtain ⟨cut, next, hcut, himpacted, hstatus⟩ := htoken .null none rfl
    exact ⟨cut, next, hcut, himpacted, hstatus.trans (and_iff_left fun d hd => by cases hd)⟩

/-- The ring, from `a` and from an id that it does not have. -/
def ringRequest : Request := { changes := .texts ["a", "e"], direction := .str "forward" }

/-- The ring has three layers. A token that lets two checks pass leaves `b` and `c` and reports that the
analysis was cancelled, but not if the analysis is limited to two layers anyway. -/
theorem analyze_cut_short_ring : ∃ full last cut next limited rest,
    analyze halfConfidence ring [] { ringRequest with maxDepth := .null } {} = .ok (full, last) ∧
    full.impacted.map (fun i => (i.id, i.layer)) = [("b", 1), ("c", 2), ("d", 3)] ∧
    analyze halfConfidence ring [] { ringRequest with maxDepth := .null } ⟨some 2⟩ = .ok (cut, next) ∧
    cut.impacted = upTo 2 full.impacted ∧ cut.status = .cancelled ∧
    analyze halfConfidence ring [] { ringRequest with maxDepth := .int 2 } ⟨some 2⟩ =
      .ok (limited, rest) ∧
    limited.impacted = upTo 2 (upTo 2 full.impacted) ∧ limited.status ≠ .cancelled := by
  have hitems : (analyze halfConfidence ring [] { ringRequest with maxDepth := .null } {}).map
      (fun r => r.1.impacted.map fun i => (i.id, i.layer)) = .ok [("b", 1), ("c", 2), ("d", 3)] := by
    decide +kernel
  obtain ⟨⟨full, last⟩, hfull, hlist⟩ := map_eq_ok.1 hitems
  obtain ⟨-, ⟨cut, next, hcut, himpacted, hstatus⟩, hboth⟩ := analyze_cut_short hfull 2
  obtain ⟨limited, rest, hlimited, hrest, hended⟩ := hboth (.int 2) (some 2) (limitOf_nat 2)
  refine ⟨full, last, cut, next, limited, rest, hfull, hlist, hcut, himpacted, hstatus.2 ?_, hlimited, hrest,
    fun hcancelled => ?_⟩
  · -- the second layer holds `c`
    have hmem : ("c", (2 : Int)) ∈ full.impacted.map fun i => (i.id, i.layer) := by
      rw [show full.impacted.map (fun i => (i.id, i.layer)) = _ from hlist]
      decide
    obtain ⟨i, hi, heq⟩ := List.mem_map.1 hmem
    exact ⟨i, hi, (Prod.mk.inj heq).2⟩
  · have := (hended.1 hcancelled).2 2 rfl
    omega

end Impact

end ChangeImpact
