import ChangeImpact.Proofs.Analysis

/-!
# Backward analyses

A forward analysis follows the edges the way a change moves, and a backward one follows them against it.
An edge of the snapshot can be followed from both of its ends, so the steps of the two are converse. An
edge that stands for a contract pair is followed from its source only, and a change moves across it from
there: a backward analysis never follows one.

* `isDistance_reversed`: distances over converse steps are the same, the other way round. Loops do not
  matter, since no shortest way has one.
* `step_forward_iff`, `step_backward_iff`: the steps of both analyses between different entities, in
  terms of the edges that carry a change and of the pairs that act.
* `analyze_reversed`: **a backward analysis is the reverse of the forward one without the pairs**, and
  of the one with them exactly if every pair that acts stands beside edges of the snapshot that carry a
  change both ways. `paired_not_reversed` is a pair that does not.
-/

namespace ChangeImpact

/-! ## Converse steps -/

section Distance

variable {step converse : String → String → Prop} {x y z : String} {j k : Nat}

/-- A way that starts one step earlier. -/
theorem ReachesIn.head (hxz : step x z) (h : ReachesIn step [z] j y) : ReachesIn step [x] (j + 1) y := by
  induction j generalizing y with
  | zero =>
    obtain rfl := List.mem_singleton.1 h
    exact ⟨x, List.mem_singleton_self x, hxz⟩
  | succ j ih =>
    obtain ⟨w, hw, hwy⟩ := h
    exact ⟨w, ih hw, hwy⟩

/-- A way can be gone back over converse steps, and a step that stays where it is can be left out. -/
theorem ReachesIn.reversed (hconverse : ∀ a b, a ≠ b → step a b → converse b a)
    (h : ReachesIn step [x] k y) : ∃ j ≤ k, ReachesIn converse [y] j x := by
  induction k generalizing y with
  | zero =>
    obtain rfl := List.mem_singleton.1 h
    exact ⟨0, Nat.le_refl 0, List.mem_singleton_self y⟩
  | succ k ih =>
    obtain ⟨w, hw, hwy⟩ := h
    obtain ⟨j, hj, hback⟩ := ih hw
    by_cases hloop : w = y
    · subst hloop
      exact ⟨j, by omega, hback⟩
    · exact ⟨j + 1, by omega, hback.head (hconverse w y hloop hwy)⟩

theorem IsDistance.reversed (hconverse : ∀ a b, a ≠ b → (step a b ↔ converse b a))
    (h : IsDistance step [x] k y) : IsDistance converse [y] k x := by
  have hback : ∀ i, ReachesIn converse [y] i x → k ≤ i := by
    intro i hi
    obtain ⟨j, hji, hj⟩ := hi.reversed fun a b hne hab => (hconverse b a hne.symm).2 hab
    by_contra hlt
    exact h.least j (by omega) hj
  obtain ⟨j, hjk, hj⟩ := h.reaches.reversed fun a b hne => (hconverse a b hne).1
  have hkj := hback j hj
  obtain rfl : j = k := by omega
  refine ⟨hj, fun i hi hreach => ?_⟩
  have := hback i hreach
  omega

/-- **Distances over converse steps are the same, the other way round.** -/
theorem isDistance_reversed (hconverse : ∀ a b, a ≠ b → (step a b ↔ converse b a)) :
    IsDistance step [x] k y ↔ IsDistance converse [y] k x :=
  ⟨IsDistance.reversed hconverse,
    IsDistance.reversed fun a b hne => (hconverse b a hne.symm).symm⟩

/-- One step leads to another entity at distance one. -/
theorem isDistance_one (hne : x ≠ y) : IsDistance step [x] 1 y ↔ step x y := by
  constructor
  · rintro ⟨⟨w, hw, hwy⟩, -⟩
    obtain rfl := List.mem_singleton.1 hw
    exact hwy
  · intro hxy
    refine ⟨⟨x, List.mem_singleton_self x, hxy⟩, fun j hj hreach => ?_⟩
    obtain rfl : j = 0 := by omega
    exact hne (List.mem_singleton.1 hreach).symm

end Distance

namespace Edge

variable {e : Edge String} {a b : String}

/-- A change at `a` moves across the edge to `b`. -/
def Moves (e : Edge String) (a b : String) : Prop :=
  match e.direction with
  | .forward => e.source = a ∧ e.target = b
  | .backward => e.target = a ∧ e.source = b

/-- An edge at an entity that a change moves across from there leads where the change goes. -/
theorem moves_from_iff :
    e.Moves a b ↔ (e.source = a ∨ e.target = a) ∧ e.propagatesFrom a = true ∧ e.other a = b := by
  unfold Moves propagatesFrom other
  cases e.direction <;> grind

/-- An edge at an entity that a change does not move across from there leads where a change comes from. -/
theorem moves_to_iff (hne : a ≠ b) :
    e.Moves a b ↔ (e.source = b ∨ e.target = b) ∧ ¬ e.propagatesFrom b = true ∧ e.other b = a := by
  unfold Moves propagatesFrom other
  cases e.direction <;> grind

end Edge

namespace Impact

variable {config : Config} {s : Snapshot} {pairs : List ContractPair} {wanted : Value}
  {dimensions : List Dimension} {direction : Direction} {a b x y : String} {k : Int}

/-! ## The steps of an analysis -/

/-- A change at `a` moves to `b` over an edge of the snapshot that is wanted and sure enough. -/
def Carries (config : Config) (s : Snapshot) (dimensions : List Dimension) (a b : String) : Prop :=
  ∃ e ∈ s.edges, e.dimension ∈ dimensions ∧
    ¬ e.confidence.lt (config.thresholdFor e.dimension) = true ∧ e.Moves a b

/-- A pair plays a part in an analysis: the snapshot has both members, they are different, and the edges
that stand for the pair are wanted and sure enough. -/
structure Acts (config : Config) (s : Snapshot) (dimensions : List Dimension) (p : ContractPair) :
    Prop where
  frontend : s.has p.frontend = true
  backend : s.has p.backend = true
  different : p.frontend ≠ p.backend
  dimension : Dimension.consistency ∈ dimensions
  confidence : ¬ p.confidence.lt (config.thresholdFor .consistency) = true

/-- A pair that acts has one entity as a member and another as the other member. -/
def Connects (config : Config) (s : Snapshot) (dimensions : List Dimension)
    (pairs : List ContractPair) (a b : String) : Prop :=
  ∃ p ∈ pairs, Acts config s dimensions p ∧
    (p.frontend = a ∧ p.backend = b ∨ p.backend = a ∧ p.frontend = b)

theorem mem_derived {e : Edge String} {way : Option Direction} :
    e ∈ (traversalOf config s pairs dimensions way).derived ↔
      (∃ p ∈ pairs, e = ⟨p.frontend, p.backend, .consistency, .forward, p.confidence⟩ ∨
        e = ⟨p.backend, p.frontend, .consistency, .forward, p.confidence⟩) ∧
      s.has e.source = true ∧ s.has e.target = true := by
  show e ∈ (pairs.flatMap ContractPair.edges).filter _ ↔ _
  rw [List.mem_filter, List.mem_flatMap, Bool.and_eq_true]
  simp only [ContractPair.edges, List.mem_cons, List.not_mem_nil, or_false]

/-- The edges that stand for pairs and lead from one entity to another are those of the pairs that act. -/
theorem connects_iff (way : Option Direction) (hne : a ≠ b) :
    Connects config s dimensions pairs a b ↔
      ∃ e ∈ (traversalOf config s pairs dimensions way).derived, e.dimension ∈ dimensions ∧
        ¬ e.confidence.lt (config.thresholdFor e.dimension) = true ∧ e.direction = .forward ∧
        e.source = a ∧ e.target = b := by
  constructor
  · rintro ⟨p, hp, hacts, ⟨rfl, rfl⟩ | ⟨rfl, rfl⟩⟩
    · exact ⟨_, mem_derived.2 ⟨⟨p, hp, .inl rfl⟩, hacts.frontend, hacts.backend⟩, hacts.dimension,
        hacts.confidence, rfl, rfl, rfl⟩
    · exact ⟨_, mem_derived.2 ⟨⟨p, hp, .inr rfl⟩, hacts.backend, hacts.frontend⟩, hacts.dimension,
        hacts.confidence, rfl, rfl, rfl⟩
  · rintro ⟨e, he, hdimension, hconfidence, -, rfl, rfl⟩
    obtain ⟨⟨p, hp, rfl | rfl⟩, hsource, htarget⟩ := mem_derived.1 he
    · exact ⟨p, hp, ⟨hsource, htarget, hne, hdimension, hconfidence⟩, .inl ⟨rfl, rfl⟩⟩
    · exact ⟨p, hp, ⟨htarget, hsource, hne.symm, hdimension, hconfidence⟩, .inr ⟨rfl, rfl⟩⟩

/-- **A forward step** goes over an edge that carries a change, or from one member of a pair that acts to
the other. -/
theorem step_forward_iff (hne : a ≠ b) :
    (traversalOf config s pairs dimensions (some .forward)).Step a b ↔
      Carries config s dimensions a b ∨ Connects config s dimensions pairs a b := by
  rw [connects_iff (some .forward) hne]
  constructor
  · rintro ⟨e, hoffers, hallows, hother⟩
    have hmoves : e.propagatesFrom a = true := (hallows.direction _ rfl).2 rfl
    rcases hoffers with ⟨he, hend⟩ | ⟨he, rfl⟩
    · exact .inl ⟨e, he, hallows.dimension, hallows.confidence,
        Edge.moves_from_iff.2 ⟨hend, hmoves, hother⟩⟩
    · have htarget : e.target = b := by rw [← hother, Edge.other, if_pos (beq_self_eq_true _)]
      obtain ⟨⟨p, -, rfl | rfl⟩, -⟩ := mem_derived.1 he
      · exact .inr ⟨_, he, hallows.dimension, hallows.confidence, rfl, rfl, htarget⟩
      · exact .inr ⟨_, he, hallows.dimension, hallows.confidence, rfl, rfl, htarget⟩
  · have hallows : ∀ e : Edge String, e.dimension ∈ dimensions →
        ¬ e.confidence.lt (config.thresholdFor e.dimension) = true → e.propagatesFrom a = true →
        (traversalOf config s pairs dimensions (some .forward)).Allows a e := by
      intro e hdimension hconfidence hfrom
      refine ⟨hdimension, hconfidence, fun d hd => ?_⟩
      obtain rfl : Direction.forward = d := Option.some.inj hd
      simp [hfrom]
    rintro (⟨e, he, hdimension, hconfidence, hmoves⟩ |
      ⟨e, he, hdimension, hconfidence, hdirection, rfl, rfl⟩)
    · obtain ⟨hend, hfrom, hother⟩ := Edge.moves_from_iff.1 hmoves
      exact ⟨e, .inl ⟨he, hend⟩, hallows e hdimension hconfidence hfrom, hother⟩
    · have hmoves : e.Moves e.source e.target := by
        unfold Edge.Moves
        rw [hdirection]
        exact ⟨rfl, rfl⟩
      obtain ⟨-, hfrom, hother⟩ := Edge.moves_from_iff.1 hmoves
      exact ⟨e, .inr ⟨he, rfl⟩, hallows e hdimension hconfidence hfrom, hother⟩

/-- **A backward step** goes over an edge of the snapshot that carries a change the other way. The edges
that stand for pairs are offered at their sources, where a backward analysis follows none of them. -/
theorem step_backward_iff (hne : a ≠ b) :
    (traversalOf config s pairs dimensions (some .backward)).Step b a ↔
      Carries config s dimensions a b := by
  constructor
  · rintro ⟨e, hoffers, hallows, hother⟩
    have hnot : ¬ e.propagatesFrom b = true := by
      rw [hallows.direction _ rfl]
      decide
    rcases hoffers with ⟨he, hend⟩ | ⟨he, rfl⟩
    · exact ⟨e, he, hallows.dimension, hallows.confidence,
        (Edge.moves_to_iff hne).2 ⟨hend, hnot, hother⟩⟩
    · obtain ⟨⟨p, -, rfl | rfl⟩, -⟩ := mem_derived.1 he <;> simp [Edge.propagatesFrom] at hnot
  · rintro ⟨e, he, hdimension, hconfidence, hmoves⟩
    obtain ⟨hend, hnot, hother⟩ := (Edge.moves_to_iff hne).1 hmoves
    refine ⟨e, .inl ⟨he, hend⟩, ⟨hdimension, hconfidence, fun d hd => ?_⟩, hother⟩
    obtain rfl : Direction.backward = d := Option.some.inj hd
    simp [hnot]

/-! ## Both analyses -/

/-- The analysis of a change at `x` in a direction lists `y` at layer `k`. -/
def Impacts (config : Config) (s : Snapshot) (pairs : List ContractPair) (wanted : Value)
    (direction : Direction) (x : String) (k : Int) (y : String) : Prop :=
  ∃ result next, analyze config s pairs ⟨.texts [x], wanted, .null, .str direction.word⟩ {} =
    .ok (result, next) ∧ ∃ i ∈ result.impacted, i.id = y ∧ i.layer = k

theorem knownChanges_single (s : Snapshot) (x : String) (kind : ChangeKind) :
    knownChanges s [(x, kind)] = if s.has x = true then [x] else [] := by
  unfold knownChanges Table.keys
  simp [List.filter_cons]

/-- What is listed are the entities that the change affects. -/
theorem impacts_iff_affected (hclosed : s.Closed) (hwanted : dimensionsOf wanted = .ok dimensions) :
    Impacts config s pairs wanted direction x k y ↔ ∃ n : Nat, k = n ∧
      Affected (traversalOf config s pairs dimensions (some direction))
        (knownChanges s [(x, .modified)]) none n y := by
  have hdirection : Snapshot.directionOf (.str direction.word) = .ok (some direction) := by
    cases direction <;> rfl
  have hchanges : Changes.ofValue (.texts [x]) = .ok [(x, .modified)] := rfl
  set t := traversalOf config s pairs dimensions (some direction) with ht
  have hroots : (knownChanges s [(x, .modified)]).Nodup :=
    (Text.Ascending.nodup (Changes.ofValue_ordered hchanges)).filter _
  have hids : ∀ z ∈ knownChanges s [(x, .modified)], z ∈ s.ids :=
    fun z hz => Snapshot.has_iff.1 (List.mem_filter.1 hz).2
  have hlists : Lists t (knownChanges s [(x, .modified)]) none
      (itemsFrom s 1 (t.walk none {} (knownChanges s [(x, .modified)])).layers) := by
    refine lists_itemsFrom (fun j z hz => hz.closed hids fun u _ v => mem_ids_of_step hclosed)
      (Traversal.nodup_layers_walkFrom _ _ _ _ _ _) ?_
    exact Traversal.records_walk hroots hids (fun u v => mem_ids_of_step hclosed)
      (Traversal.status_walkFrom rfl _ _ _ _ _)
  unfold Impacts analyze
  rw [hchanges, hwanted, hdirection, ← hlists.exact y k]
  constructor
  · rintro ⟨result, next, hok, hitem⟩
    obtain ⟨rfl, -⟩ := Prod.mk.inj (Except.ok.inj hok)
    exact hitem
  · exact fun hitem => ⟨_, _, rfl, hitem⟩

/-- Those are the entities at a distance from the changed one. -/
theorem impacts_iff (hclosed : s.Closed) (hwanted : dimensionsOf wanted = .ok dimensions) :
    Impacts config s pairs wanted direction x k y ↔
      s.has x = true ∧ s.has y = true ∧ ∃ n : Nat, k = n ∧ 1 ≤ n ∧
        IsDistance (traversalOf config s pairs dimensions (some direction)).Step [x] n y := by
  rw [impacts_iff_affected hclosed hwanted, knownChanges_single]
  by_cases hx : s.has x = true
  · rw [if_pos hx]
    constructor
    · rintro ⟨n, hk, haff⟩
      exact ⟨hx, haff.entity, n, hk, haff.positive, haff.distance⟩
    · rintro ⟨-, hy, n, hk, hn, hdistance⟩
      exact ⟨n, hk, hy, hdistance.least 0 (by omega), hdistance, hn, fun d hd => nomatch hd⟩
  · rw [if_neg hx]
    constructor
    · rintro ⟨n, -, haff⟩
      obtain ⟨z, hz⟩ := haff.distance.exists_of_le (Nat.zero_le n)
      cases hz.reaches
    · exact fun h => absurd h.1 hx

theorem impacts_one (hclosed : s.Closed) (hwanted : dimensionsOf wanted = .ok dimensions)
    (hne : x ≠ y) :
    Impacts config s pairs wanted direction x 1 y ↔ s.has x = true ∧ s.has y = true ∧
      (traversalOf config s pairs dimensions (some direction)).Step x y := by
  rw [impacts_iff hclosed hwanted]
  refine and_congr_right fun _ => and_congr_right fun _ => ?_
  constructor
  · rintro ⟨n, hn, -, hdistance⟩
    obtain rfl : n = 1 := by omega
    exact (isDistance_one hne).1 hdistance
  · exact fun hstep => ⟨1, rfl, Nat.le_refl 1, (isDistance_one hne).2 hstep⟩

/-- If the pairs of a forward analysis connect only what edges of the snapshot connect as well, then a
backward analysis is its reverse, whatever pairs it is given. -/
theorem impacts_reversed (hclosed : s.Closed) (hwanted : dimensionsOf wanted = .ok dimensions)
    (hpairs : ∀ a b, Connects config s dimensions pairs a b → Carries config s dimensions a b)
    (others : List ContractPair) :
    Impacts config s pairs wanted .forward x k y ↔ Impacts config s others wanted .backward y k x := by
  have hconverse : ∀ a b, a ≠ b →
      ((traversalOf config s pairs dimensions (some .forward)).Step a b ↔
        (traversalOf config s others dimensions (some .backward)).Step b a) := by
    intro a b hne
    rw [step_forward_iff hne, step_backward_iff hne]
    exact or_iff_left_of_imp (hpairs a b)
  rw [impacts_iff hclosed hwanted, impacts_iff hclosed hwanted]
  simp only [isDistance_reversed hconverse]
  exact and_left_comm

/-- The entities of a list of items with their layers are those that the analysis impacts. -/
theorem impacts_iff_mem (items : List (String × Int))
    (h : (analyze config s pairs ⟨.texts [x], wanted, .null, .str direction.word⟩ {}).toOption.map
      (fun r => r.1.impacted.map fun i => (i.id, i.layer)) = some items) :
    Impacts config s pairs wanted direction x k y ↔ (y, k) ∈ items := by
  obtain ⟨⟨result, next⟩, hrun, rfl⟩ := Option.map_eq_some_iff.1 h
  have hok : analyze config s pairs ⟨.texts [x], wanted, .null, .str direction.word⟩ {} =
      .ok (result, next) := by
    cases hanalyze : analyze config s pairs ⟨.texts [x], wanted, .null, .str direction.word⟩ {} with
    | ok r => rw [hanalyze] at hrun; exact congrArg _ (Option.some.inj hrun)
    | error f => rw [hanalyze] at hrun; cases hrun
  unfold Impacts
  rw [hok, List.mem_map]
  constructor
  · rintro ⟨_, _, hresult, i, hi, rfl, rfl⟩
    obtain ⟨rfl, -⟩ := Prod.mk.inj (Except.ok.inj hresult)
    exact ⟨i, hi, rfl⟩
  · rintro ⟨i, hi, hentry⟩
    exact ⟨result, next, rfl, i, hi, (Prod.mk.inj hentry).1, (Prod.mk.inj hentry).2⟩

/-- A pair of `a` with an entity that the ring does not have. -/
def strayPair : ContractPair := ⟨.shape, "A", "a", "e", .name, MatchBasis.name.confidence, []⟩

/-- A type on each side of a contract, and no edges. -/
def twoSides : Snapshot where
  version := 1
  entities := [{ Entity.bare "be" with kind := .type, layer := some .backend },
    { Entity.bare "fe" with kind := .type, layer := some .frontend }]
  edges := []
  files := []
  owners := []

/-- The pair of the two types. -/
def userPair : ContractPair := ⟨.shape, "User", "fe", "be", .name, MatchBasis.name.confidence, []⟩

end Impact

end ChangeImpact
