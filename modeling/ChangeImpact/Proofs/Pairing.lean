import ChangeImpact.Proofs.Families

/-!
# The pairs of a report

A pair joins a frontend and a backend entity. Either they are in one family, which has no other backend
member, or they are the only routes without a counterpart on one path.

* `mem_matched`, `mem_onPaths`: where the pairs come from.
* `Distinct.pairsFor_ne_nil`: **an entity is in a pair exactly if its family is matched**, by key or by
  path.
* `Distinct.nodup_frontends`: no frontend entity is in two pairs.
-/

namespace ChangeImpact

namespace Contract

variable {config : Config} {side : Layer} {version : Nat} {ms : List Member} {fams : List Family}
  {orphans : List Family} {unrouted : List Entity} {f : Family} {p : ContractPair} {id path : String}

/-! ## Pairs -/

/-- The pairs of the families that are matched by key. -/
def matched (config : Config) (side : Layer) (fams : List Family) : List ContractPair :=
  (fams.filter fun f => !f.isDuplicate).flatMap (Family.pairs config side)

/-- The orphans among some families. -/
def orphansOf (fams : List Family) : List Family := fams.filter Family.isOrphan

/-- The pairs of the orphans that are matched by path. -/
def onPaths (config : Config) (side : Layer) (orphans : List Family) : List ContractPair :=
  (orphanPaths orphans).filterMap (pathPair? config side orphans)

theorem pairs_reportOn_perm (config : Config) (side : Layer) (version : Nat) (fams : List Family)
    (unrouted : List Entity) :
    (reportOn config side version fams unrouted).pairs.Perm
      (matched config side fams ++ onPaths config side (orphansOf fams)) := sortByRank_perm _ _

/-- **Pairs by key** are those of the matched families. -/
theorem mem_matched : p ∈ matched config side fams ↔
    ∃ f ∈ fams, ∃ b, f.backend = [b] ∧ ∃ m ∈ f.frontend, pairOf config side f m b = p := by
  unfold matched
  rw [List.mem_flatMap]
  constructor
  · rintro ⟨f, hf, hp⟩
    unfold Family.pairs at hp
    split at hp
    · rename_i b hb
      obtain ⟨m, hm, rfl⟩ := List.mem_map.1 hp
      exact ⟨f, List.mem_of_mem_filter hf, b, hb, m, hm, rfl⟩
    · cases hp
  · rintro ⟨f, hf, b, hb, m, hm, rfl⟩
    have hsingle : f.isDuplicate = false := by unfold Family.isDuplicate; rw [hb]; rfl
    refine ⟨f, List.mem_filter.2 ⟨hf, by rw [hsingle]; rfl⟩, ?_⟩
    unfold Family.pairs
    rw [hb]
    exact List.mem_map_of_mem hm

theorem mem_onPath {s : Layer} :
    f ∈ onPath orphans path s ↔ f ∈ orphans ∧ f.key.sort = .route ∧ f.key.path = path ∧ f.side = s := by
  unfold onPath
  rw [List.mem_filter, Bool.and_eq_true, Bool.and_eq_true, beq_iff_eq, beq_iff_eq, beq_iff_eq, and_assoc]

/-- The two routes that are alone on a path. -/
structure Alone (orphans : List Family) (path : String) (f b : Family) (m n : Member) : Prop where
  frontends : onPath orphans path .frontend = [f]
  backends : onPath orphans path .backend = [b]
  frontend : f.frontend = [m]
  backend : b.backend = [n]

/-- The pair of two routes that are alone on a path, with their methods as the first mismatch. -/
def pathPair (config : Config) (side : Layer) (path mf mb : String) (f b : Entity) : ContractPair :=
  { sort := .route, key := path, frontend := f.id, backend := b.id
    basis := .routePath, confidence := MatchBasis.routePath.confidence
    mismatches := { kind := .routeMismatch, frontend := some mf, backend := some mb } ::
      Mismatch.between config side f b }

theorem pathPair?_eq_some_iff : pathPair? config side orphans path = some p ↔
    ∃ f b m n, Alone orphans path f b m n ∧
      p = pathPair config side path f.key.method b.key.method m.entity n.entity := by
  constructor
  · intro h
    unfold pathPair? at h
    split at h
    · rename_i f b hf hb
      split at h
      · rename_i m n hm hn
        exact ⟨f, b, m, n, ⟨hf, hb, hm, hn⟩, (Option.some.inj h).symm⟩
      · cases h
    · cases h
  · rintro ⟨f, b, m, n, halone, rfl⟩
    unfold pathPair?
    rw [halone.frontends, halone.backends]
    dsimp only
    rw [halone.frontend, halone.backend]
    rfl

theorem pathPair?_eq_some (h : pathPair? config side orphans path = some p) :
    ∃ f b m n, Alone orphans path f b m n ∧ p.frontend = m.entity.id ∧ p.backend = n.entity.id := by
  obtain ⟨f, b, m, n, halone, rfl⟩ := pathPair?_eq_some_iff.1 h
  exact ⟨f, b, m, n, halone, rfl, rfl⟩

theorem Alone.frontend_mem {b : Family} {m n : Member} (h : Alone orphans path f b m n) :
    f ∈ orphans ∧ f.key.sort = .route ∧ f.key.path = path ∧ f.side = .frontend :=
  mem_onPath.1 (by rw [h.frontends]; exact List.mem_singleton_self f)

theorem Alone.backend_mem {b : Family} {m n : Member} (h : Alone orphans path f b m n) :
    b ∈ orphans ∧ b.key.sort = .route ∧ b.key.path = path ∧ b.side = .backend :=
  mem_onPath.1 (by rw [h.backends]; exact List.mem_singleton_self b)

theorem mem_orphanPaths :
    path ∈ orphanPaths orphans ↔ ∃ f ∈ orphans, f.key.sort = .route ∧ f.key.path = path := by
  unfold orphanPaths
  rw [mem_distinctTexts, List.mem_map]
  simp only [List.mem_filter, beq_iff_eq, and_assoc]

/-- **Pairs by path** are those of two routes that are alone on their path. -/
theorem mem_onPaths : p ∈ onPaths config side orphans ↔
    ∃ path, pathPair? config side orphans path = some p := by
  unfold onPaths
  rw [List.mem_filterMap]
  constructor
  · rintro ⟨path, -, h⟩
    exact ⟨path, h⟩
  · rintro ⟨path, h⟩
    obtain ⟨f, b, m, n, halone, -⟩ := pathPair?_eq_some h
    obtain ⟨hf, hsort, hpath, -⟩ := halone.frontend_mem
    exact ⟨path, mem_orphanPaths.2 ⟨f, hf, hsort, hpath⟩, h⟩

theorem isPathPaired_iff : isPathPaired config side orphans f = true ↔
    f.key.sort = .route ∧ ∃ p, pathPair? config side orphans f.key.path = some p := by
  unfold isPathPaired
  rw [Bool.and_eq_true, beq_iff_eq, Option.isSome_iff_exists]

/-! ## Which entities are in pairs -/

/-- The entity is on one of the two sides of a pair. -/
def Joins (p : ContractPair) (id : String) : Prop := p.frontend = id ∨ p.backend = id

/-- Both ends of a pair by key are named by one matched family. -/
theorem names_of_matched (hp : p ∈ matched config side fams) :
    ∃ f ∈ fams, f.IsMatched ∧ p.frontend ∈ idsOf f.frontend ∧ p.backend ∈ idsOf f.backend := by
  obtain ⟨f, hf, b, hb, m, hm, rfl⟩ := mem_matched.1 hp
  refine ⟨f, hf, ⟨List.ne_nil_of_mem hm, b, hb⟩, mem_idsOf.2 ⟨m, hm, rfl⟩, ?_⟩
  rw [hb]
  exact mem_idsOf.2 ⟨b, List.mem_singleton_self b, rfl⟩

/-- Each end of a pair by path is named by an orphan on that path. -/
theorem names_of_pathPair (h : pathPair? config side orphans path = some p) :
    (∃ f ∈ orphans, f.key.sort = .route ∧ f.key.path = path ∧ p.frontend ∈ idsOf f.frontend) ∧
      ∃ b ∈ orphans, b.key.sort = .route ∧ b.key.path = path ∧ p.backend ∈ idsOf b.backend := by
  obtain ⟨f, b, m, n, halone, hfront, hback⟩ := pathPair?_eq_some h
  obtain ⟨hf, hfsort, hfpath, -⟩ := halone.frontend_mem
  obtain ⟨hb, hbsort, hbpath, -⟩ := halone.backend_mem
  refine ⟨⟨f, hf, hfsort, hfpath, ?_⟩, b, hb, hbsort, hbpath, ?_⟩
  · rw [halone.frontend, hfront]
    exact mem_idsOf.2 ⟨m, List.mem_singleton_self m, rfl⟩
  · rw [halone.backend, hback]
    exact mem_idsOf.2 ⟨n, List.mem_singleton_self n, rfl⟩

/-- The members of a matched family are in pairs. -/
theorem exists_pair_of_matched (hf : f ∈ fams) (hmatched : f.IsMatched) (hid : f.Names id) :
    ∃ p ∈ matched config side fams, Joins p id := by
  obtain ⟨hne, b, hb⟩ := hmatched
  rcases hid with hid | hid
  · obtain ⟨m, hm, rfl⟩ := mem_idsOf.1 hid
    exact ⟨_, mem_matched.2 ⟨f, hf, b, hb, m, hm, rfl⟩, .inl rfl⟩
  · obtain ⟨m, hm⟩ := List.exists_mem_of_ne_nil _ hne
    rw [hb] at hid
    obtain ⟨n, hn, rfl⟩ := mem_idsOf.1 hid
    obtain rfl := List.mem_singleton.1 hn
    exact ⟨_, mem_matched.2 ⟨f, hf, n, hb, m, hm, rfl⟩, .inr rfl⟩

theorem mem_idsOf_singleton {m : Member} : id ∈ idsOf [m] ↔ m.entity.id = id := by
  rw [mem_idsOf]
  simp

/-- The members of an orphan that is matched by path are in that pair. -/
theorem exists_pair_of_pathPaired (hf : f ∈ orphans) (horphan : f.isOrphan = true)
    (hpaired : isPathPaired config side orphans f = true) (hid : f.Names id) :
    ∃ p ∈ onPaths config side orphans, Joins p id := by
  obtain ⟨hsort, p, hp⟩ := isPathPaired_iff.1 hpaired
  refine ⟨p, mem_onPaths.2 ⟨_, hp⟩, ?_⟩
  obtain ⟨g, b, m, n, halone, hfront, hback⟩ := pathPair?_eq_some hp
  -- on its side the orphan is the only route of the path, so it is one of the two that are alone
  rcases Family.side_of_names horphan hid with ⟨hside, hid⟩ | ⟨hside, hid⟩
  · have hmem : f ∈ onPath orphans f.key.path .frontend := mem_onPath.2 ⟨hf, hsort, rfl, hside⟩
    rw [halone.frontends, List.mem_singleton] at hmem
    rw [hmem, halone.frontend, mem_idsOf_singleton] at hid
    exact .inl (hfront.trans hid)
  · have hmem : f ∈ onPath orphans f.key.path .backend := mem_onPath.2 ⟨hf, hsort, rfl, hside⟩
    rw [halone.backends, List.mem_singleton] at hmem
    rw [hmem, halone.backend, mem_idsOf_singleton] at hid
    exact .inr (hback.trans hid)

/-- Conversely, what is in a pair by key is in a matched family. -/
theorem exists_matched_of_joins (hp : p ∈ matched config side fams) (hjoins : Joins p id) :
    ∃ f ∈ fams, f.IsMatched ∧ f.Names id := by
  obtain ⟨f, hf, hmatched, hfront, hback⟩ := names_of_matched hp
  refine ⟨f, hf, hmatched, ?_⟩
  rcases hjoins with rfl | rfl
  · exact .inl hfront
  · exact .inr hback

/-- What is in a pair by path is in an orphan that is matched by path. -/
theorem exists_pathPaired_of_joins (hp : p ∈ onPaths config side orphans) (hjoins : Joins p id) :
    ∃ f ∈ orphans, isPathPaired config side orphans f = true ∧ f.Names id := by
  obtain ⟨path, hpair⟩ := mem_onPaths.1 hp
  obtain ⟨⟨f, hf, hfsort, hfpath, hfront⟩, b, hb, hbsort, hbpath, hback⟩ := names_of_pathPair hpair
  rcases hjoins with rfl | rfl
  · exact ⟨f, hf, isPathPaired_iff.2 ⟨hfsort, p, hfpath ▸ hpair⟩, .inl hfront⟩
  · exact ⟨b, hb, isPathPaired_iff.2 ⟨hbsort, p, hbpath ▸ hpair⟩, .inr hback⟩

theorem mem_orphansOf : f ∈ orphansOf fams ↔ f ∈ fams ∧ f.isOrphan = true := by
  unfold orphansOf
  exact List.mem_filter

theorem mem_pairs_reportOn : p ∈ (reportOn config side version fams unrouted).pairs ↔
    p ∈ matched config side fams ∨ p ∈ onPaths config side (orphansOf fams) := by
  rw [(pairs_reportOn_perm config side version fams unrouted).mem_iff, List.mem_append]

theorem mem_pairsFor {r : ConsistencyReport} : p ∈ r.pairsFor id ↔ p ∈ r.pairs ∧ Joins p id := by
  unfold ConsistencyReport.pairsFor ContractPair.touches Joins
  rw [List.mem_filter, Bool.or_eq_true]
  simp only [List.contains_iff_mem, List.mem_singleton]

theorem pairsFor_ne_nil_iff {r : ConsistencyReport} :
    r.pairsFor id ≠ [] ↔ ∃ p ∈ r.pairs, Joins p id := by
  constructor
  · intro h
    obtain ⟨p, hp⟩ := List.exists_mem_of_ne_nil _ h
    exact ⟨p, mem_pairsFor.1 hp⟩
  · rintro ⟨p, hp⟩
    exact List.ne_nil_of_mem (mem_pairsFor.2 hp)

/-- **An entity is in a pair exactly if its family is matched**, by key or by path. -/
theorem Distinct.pairsFor_ne_nil (hn : Distinct ms) (hf : f ∈ families ms) (hid : f.Names id) :
    (reportOn config side version (families ms) unrouted).pairsFor id ≠ [] ↔
      f.IsMatched ∨
        f.isOrphan = true ∧ isPathPaired config side (orphansOf (families ms)) f = true := by
  rw [pairsFor_ne_nil_iff]
  simp only [mem_pairs_reportOn]
  constructor
  · -- the pair comes from a family that has the entity, and there is only one such family
    rintro ⟨p, hp | hp, hjoins⟩
    · obtain ⟨g, hg, hmatched, hgid⟩ := exists_matched_of_joins hp hjoins
      exact .inl (hn.eq_of_names hf hg hid hgid ▸ hmatched)
    · obtain ⟨g, hg, hpaired, hgid⟩ := exists_pathPaired_of_joins hp hjoins
      obtain ⟨hg, horphan⟩ := mem_orphansOf.1 hg
      rw [hn.eq_of_names hf hg hid hgid]
      exact .inr ⟨horphan, hpaired⟩
  · rintro (hmatched | ⟨horphan, hpaired⟩)
    · obtain ⟨p, hp, hjoins⟩ := exists_pair_of_matched hf hmatched hid
      exact ⟨p, .inl hp, hjoins⟩
    · obtain ⟨p, hp, hjoins⟩ :=
        exists_pair_of_pathPaired (mem_orphansOf.2 ⟨hf, horphan⟩) horphan hpaired hid
      exact ⟨p, .inr hp, hjoins⟩

/-! ## Frontend entities -/

theorem names_of_mem_frontends (hp : p ∈ f.pairs config side) : p.frontend ∈ idsOf f.frontend := by
  unfold Family.pairs at hp
  split at hp
  · obtain ⟨m, hm, rfl⟩ := List.mem_map.1 hp
    exact mem_idsOf.2 ⟨m, hm, rfl⟩
  · cases hp

theorem Distinct.nodup_pairs (hn : Distinct ms) (hf : f ∈ families ms) :
    ((f.pairs config side).map ContractPair.frontend).Nodup := by
  unfold Family.pairs
  split
  · rw [List.map_map]
    exact hn.nodup_frontend hf
  · exact List.nodup_nil

theorem Distinct.nodup_matched (hn : Distinct ms) :
    ((matched config side (families ms)).map ContractPair.frontend).Nodup := by
  unfold matched
  rw [List.map_flatMap, List.nodup_flatMap]
  refine ⟨fun f hf => hn.nodup_pairs (List.mem_of_mem_filter hf), ?_⟩
  have hfams : (families ms).Nodup := (nodup_keys_families ms).of_map
  -- two families with one frontend entity would be the same
  refine (hfams.filter _).imp_of_mem fun {f g} hf hg hne id hfid hgid => hne ?_
  obtain ⟨p, hp, rfl⟩ := List.mem_map.1 hfid
  obtain ⟨q, hq, hid⟩ := List.mem_map.1 hgid
  exact hn.eq_of_names (List.mem_of_mem_filter hf) (List.mem_of_mem_filter hg)
    (.inl (names_of_mem_frontends hp)) (.inl (hid ▸ names_of_mem_frontends hq))

theorem Distinct.nodup_onPaths (hn : Distinct ms) :
    ((onPaths config side (orphansOf (families ms))).map ContractPair.frontend).Nodup := by
  unfold onPaths
  rw [List.map_filterMap]
  refine (distinctTexts_ascending _).nodup.filterMap ?_
  intro path path' id h h'
  obtain ⟨p, hp, hpid⟩ := Option.map_eq_some_iff.1 h
  obtain ⟨q, hq, hqid⟩ := Option.map_eq_some_iff.1 h'
  obtain ⟨⟨f, hf, -, rfl, hfid⟩, -⟩ := names_of_pathPair hp
  obtain ⟨⟨g, hg, -, rfl, hgid⟩, -⟩ := names_of_pathPair hq
  rw [hn.eq_of_names (mem_orphansOf.1 hf).1 (mem_orphansOf.1 hg).1 (.inl (hpid ▸ hfid))
    (.inl (hqid ▸ hgid))]

/-- **No frontend entity is in two pairs.** -/
theorem Distinct.nodup_frontends (hn : Distinct ms) :
    ((reportOn config side version (families ms) unrouted).pairs.map ContractPair.frontend).Nodup := by
  rw [((pairs_reportOn_perm config side version _ unrouted).map _).nodup_iff, List.map_append]
  refine List.Nodup.append hn.nodup_matched hn.nodup_onPaths fun id hmatched honPath => ?_
  obtain ⟨p, hp, rfl⟩ := List.mem_map.1 hmatched
  obtain ⟨q, hq, hid⟩ := List.mem_map.1 honPath
  obtain ⟨f, hf, hmatched, hfid, -⟩ := names_of_matched hp
  obtain ⟨path, hpair⟩ := mem_onPaths.1 hq
  obtain ⟨⟨g, hg, -, -, hgid⟩, -⟩ := names_of_pathPair hpair
  obtain ⟨hg, horphan⟩ := mem_orphansOf.1 hg
  -- a family is matched by key or it is an orphan
  have hfg : f = g := hn.eq_of_names hf hg (.inl hfid) (.inl (hid ▸ hgid))
  exact hmatched.not_orphan (hfg ▸ horphan)

end Contract

end ChangeImpact
