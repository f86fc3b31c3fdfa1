import ChangeImpact.Proofs.Legibility

/-!
# Which entities are paired

Whether two contracts are paired depends on all others with their key or on their path. A check sees them in
families, and finds the method and the path of a route by cutting the key of its family again. Here the pairs
are described by the entities themselves, their methods and their normal paths.

* `FamilyKey.method_ofRoute`, `FamilyKey.path_ofRoute`: a key is cut where it was joined.
* `SharesKey`, `AloneOnPath`: the two grounds for a pair.
* `Distinct.mem_matched_iff`, `Readable.mem_onPaths_iff`: **the pairs by key and by path.**
* `check_pairs_exactly`: **a report has these pairs and no others**, each once and in order.
* `crowded_pairs`: duplicates do not keep two routes from being alone on a path.
-/

namespace ChangeImpact

namespace Text

/-! ## Capital letters -/

theorem ofNat_ne_space {n : Nat} (h : n ≠ 0x20) : Char.ofNat n ≠ ' ' := by
  intro heq
  have hcode : (Char.ofNat n).toNat = 0x20 := by rw [heq]; rfl
  unfold Char.ofNat at hcode
  split at hcode
  · exact h hcode
  · cases hcode

/-- What a run moves a code point to lies above the space, as for all runs of capital letters. -/
theorem lookup_upperRuns_ne_space {n m : Nat} (h : Casing.Run.lookup Casing.upperRuns n = some m) :
    m ≠ 0x20 := by
  have hruns : ∀ r ∈ Casing.upperRuns, 0x20 < (r.first : Int) + r.offset := by decide +kernel
  unfold Casing.Run.lookup at h
  obtain ⟨r, hr, rfl⟩ := Option.map_eq_some_iff.1 h
  have hfirst := List.find?_some hr
  simp only [Bool.and_eq_true, decide_eq_true_eq] at hfirst
  have := hruns r (List.mem_of_find?_eq_some hr)
  omega

/-- No capital form has a space in it but that of the space. -/
theorem space_not_mem_upperChar {c : Char} (h : c ≠ ' ') : ' ' ∉ upperChar c := by
  have hexpansions : ∀ e ∈ Casing.upperExpansions, ∀ n ∈ e.2, n ≠ 0x20 := by decide +kernel
  unfold upperChar
  split
  · rw [List.mem_singleton]
    split
    · rename_i hsmall
      rw [Bool.and_eq_true, decide_eq_true_eq, decide_eq_true_eq] at hsmall
      exact (ofNat_ne_space (by omega)).symm
    · exact h.symm
  split
  · rename_i e he
    intro hmem
    obtain ⟨n, hn, hspace⟩ := List.mem_map.1 hmem
    exact ofNat_ne_space (hexpansions e (List.mem_of_find?_eq_some he) n hn) hspace
  · rw [List.mem_singleton]
    cases hrun : Casing.Run.lookup Casing.upperRuns c.toNat with
    | none => exact h.symm
    | some m => exact (ofNat_ne_space (lookup_upperRuns_ne_space hrun)).symm

theorem space_not_mem_upper {cs : List Char} (h : ' ' ∉ cs) : ' ' ∉ upper cs := by
  unfold upper
  rw [List.mem_flatMap]
  rintro ⟨c, hc, hspace⟩
  exact space_not_mem_upperChar (fun heq => h (heq ▸ hc)) hspace

end Text

/-! ## Routes -/

namespace FamilyKey

/-- The family of the routes with a method and a normal path. -/
def ofRoute (method path : String) : FamilyKey := ⟨.route, method ++ " " ++ path⟩

theorem toList_ofRoute (method path : String) :
    (ofRoute method path).key.toList = method.toList ++ ' ' :: path.toList := by
  simp [ofRoute]

variable {method : String}

/-- A key is cut where it was joined, if the method has no space. -/
theorem method_ofRoute (path : String) (h : ' ' ∉ method.toList) : (ofRoute method path).method = method := by
  have hall : ∀ c ∈ method.toList, (c != ' ') = true := fun c hc =>
    bne_iff_ne.2 fun heq => h (heq ▸ hc)
  unfold FamilyKey.method Text.beforeFirst
  rw [toList_ofRoute, List.takeWhile_append_of_pos hall]
  simp

theorem path_ofRoute (path : String) (h : ' ' ∉ method.toList) : (ofRoute method path).path = path := by
  have hall : ∀ c ∈ method.toList, (c != ' ') = true := fun c hc =>
    bne_iff_ne.2 fun heq => h (heq ▸ hc)
  unfold FamilyKey.path Text.afterFirst
  rw [toList_ofRoute, List.dropWhile_append_of_pos hall]
  simp

theorem ofRoute_injective {method' path path' : String} (h : ' ' ∉ method.toList) (h' : ' ' ∉ method'.toList)
    (heq : ofRoute method path = ofRoute method' path') : method = method' ∧ path = path' := by
  constructor
  · rw [← method_ofRoute path h, heq, method_ofRoute path' h']
  · rw [← path_ofRoute path h, heq, path_ofRoute path' h']

end FamilyKey

namespace Contract

variable {config : Config} {s : Snapshot} {side : Layer} {e : Entity} {method path : String}
  {ms : List Member} {m : Member} {p : ContractPair}

/-- The method of a route, `GET` when it has none. -/
def methodOf (e : Entity) : String :=
  if (e.detail "method").isVacant then "GET"
  else String.ofList (Text.upper (e.detail "method").text.toList)

/-- The method of a route is written without a space. -/
def Spaceless (e : Entity) : Prop := ' ' ∉ (e.detail "method").text.toList

theorem Spaceless.methodOf (h : Spaceless e) : ' ' ∉ (methodOf e).toList := by
  unfold Contract.methodOf
  split
  · decide
  · rw [String.toList_ofList]
    exact Text.space_not_mem_upper h

/-- The key of a route is its method and its normal path. -/
theorem routeKey_eq_ok {key : String} (hpath : (e.detail "path").isVacant = false)
    (h : Placement.routeKey config e = .ok key) : ∃ path,
      Route.ofValue config.routePrefixes (e.detail "path") = .ok path ∧
        key = methodOf e ++ " " ++ path := by
  -- with a method and without one, the path is looked at in the same way
  have hend : ∀ word, (Route.ofValue config.routePrefixes (e.detail "path") >>= fun path =>
      pure (word ++ " " ++ path)) = Except.ok key → ∃ path,
        Route.ofValue config.routePrefixes (e.detail "path") = .ok path ∧ key = word ++ " " ++ path := by
    intro word hword
    obtain ⟨path, hnormal, hword⟩ := bind_eq_ok.1 hword
    exact ⟨path, hnormal, (Except.ok.inj hword).symm⟩
  unfold Placement.routeKey at h
  rw [lookup?_of_not_vacant hpath] at h
  dsimp only at h
  unfold methodOf
  by_cases hvacant : (e.detail "method").isVacant = true
  · rw [if_pos hvacant] at h ⊢
    exact hend _ h
  · rw [if_neg hvacant] at h ⊢
    obtain ⟨text, htext, h⟩ := bind_eq_ok.1 h
    rcases toText_cases (e.detail "method") with ⟨-, ht⟩ | ⟨-, ht⟩
    · rw [ht] at htext
      obtain rfl := Except.ok.inj htext
      exact hend _ h
    · rw [ht] at htext
      cases htext

/-- The place of a route is given by its method and its normal path. -/
theorem place_of_route {place : Placement} (hcontract : isContract e = true) (hkind : e.kind = .apiRoute)
    (h : Placement.of config e = .ok place) : ∃ path,
      Route.ofValue config.routePrefixes (e.detail "path") = .ok path ∧
        place = ⟨.ofRoute (methodOf e) path, .route⟩ := by
  unfold Placement.of at h
  rw [if_pos hkind, bind_eq_ok] at h
  obtain ⟨key, hkey, h⟩ := h
  obtain ⟨path, hnormal, rfl⟩ := routeKey_eq_ok (path_of_isContract hcontract hkind) hkey
  exact ⟨path, hnormal, (Except.ok.inj h).symm⟩

/-! ## Members -/

/-- A contract of a snapshot on one side, with its place. -/
structure Placed (config : Config) (s : Snapshot) (side : Layer) (e : Entity) (place : Placement) :
    Prop where
  mem : e ∈ s.entities
  contract : isContract e = true
  layer : e.layer = some side
  place : Placement.of config e = .ok place

/-- A route of a snapshot on one side, with its method and its normal path. -/
structure IsRoute (config : Config) (s : Snapshot) (side : Layer) (method path : String) (e : Entity) :
    Prop where
  mem : e ∈ s.entities
  contract : isContract e = true
  layer : e.layer = some side
  kind : e.kind = .apiRoute
  method : methodOf e = method
  path : Route.ofValue config.routePrefixes (e.detail "path") = .ok path

/-- The contracts with their places are the members of the check. -/
theorem placed_iff (hms : members config s.entities = .ok ms) {place : Placement} :
    Placed config s side e place ↔ ∃ m ∈ ms, m.entity = e ∧ m.place = place ∧ e.layer = some side := by
  constructor
  · intro h
    have hmem : e ∈ ms.map Member.entity := members_eq_ok hms ▸ List.mem_filter.2 ⟨h.mem, h.contract⟩
    obtain ⟨m, hm, rfl⟩ := List.mem_map.1 hmem
    have hplace := h.place
    rw [place_of_mem hms hm] at hplace
    exact ⟨m, hm, rfl, Except.ok.inj hplace, h.layer⟩
  · rintro ⟨m, hm, rfl, rfl, hlayer⟩
    obtain ⟨hmem, hcontract⟩ := entity_mem hms hm
    exact ⟨hmem, hcontract, hlayer, place_of_mem hms hm⟩

/-- The methods of all contract routes are written without a space. -/
def AllSpaceless (s : Snapshot) : Prop :=
  ∀ e ∈ s.entities, isContract e = true → e.kind = .apiRoute → Spaceless e

/-- The members of a check of a snapshot where every key of a route can be cut into its method and its path
again. -/
structure Readable (config : Config) (s : Snapshot) (ms : List Member) : Prop where
  members : members config s.entities = .ok ms
  distinct : Distinct ms
  spaceless : AllSpaceless s

namespace Readable

variable (h : Readable config s ms)

include h

/-- A member that is a route has the family of its method and its path. -/
theorem place_eq (hm : m ∈ ms) (hkind : m.entity.kind = .apiRoute) : ∃ path,
    ' ' ∉ (methodOf m.entity).toList ∧
      Route.ofValue config.routePrefixes (m.entity.detail "path") = .ok path ∧
      m.place.family = .ofRoute (methodOf m.entity) path := by
  obtain ⟨hmem, hcontract⟩ := entity_mem h.members hm
  obtain ⟨path, hpath, hplace⟩ := place_of_route hcontract hkind (place_of_mem h.members hm)
  exact ⟨path, (h.spaceless _ hmem hcontract hkind).methodOf, hpath, by rw [hplace]⟩

/-- The routes with a method and a path are the members of one family. -/
theorem isRoute_iff (hmethod : ' ' ∉ method.toList) : IsRoute config s side method path e ↔
    ∃ m ∈ membersOf ms (.ofRoute method path) side, m.entity = e := by
  simp only [mem_membersOf]
  constructor
  · intro hroute
    have hmem : e ∈ ms.map Member.entity :=
      members_eq_ok h.members ▸ List.mem_filter.2 ⟨hroute.mem, hroute.contract⟩
    obtain ⟨m, hm, rfl⟩ := List.mem_map.1 hmem
    obtain ⟨path', -, hpath, hfamily⟩ := h.place_eq hm hroute.kind
    rw [hroute.path] at hpath
    rw [hroute.method, ← Except.ok.inj hpath] at hfamily
    exact ⟨m, ⟨hm, hfamily, hroute.layer⟩, rfl⟩
  · rintro ⟨m, ⟨hm, hfamily, hlayer⟩, rfl⟩
    obtain ⟨hmem, hcontract⟩ := entity_mem h.members hm
    have hkind : m.entity.kind = .apiRoute :=
      kind_of_place (place_of_mem h.members hm) (by rw [hfamily]; rfl)
    obtain ⟨path', hspaceless, hpath, hfamily'⟩ := h.place_eq hm hkind
    obtain ⟨hmethods, rfl⟩ := FamilyKey.ofRoute_injective hspaceless hmethod (hfamily'.symm.trans hfamily)
    exact ⟨hmem, hcontract, hlayer, hkind, hmethods, hpath⟩

theorem membersOf_eq_nil_iff (hmethod : ' ' ∉ method.toList) :
    membersOf ms (.ofRoute method path) side = [] ↔ ∀ e, ¬ IsRoute config s side method path e := by
  simp only [h.isRoute_iff hmethod, List.eq_nil_iff_forall_not_mem]
  exact ⟨fun hnone e ⟨m, hm, _⟩ => hnone m hm, fun hnone m hm => hnone m.entity ⟨m, hm, rfl⟩⟩

end Readable

/-! ## Pairs by key -/

theorem eq_singleton_iff {α : Type} {xs : List α} {a : α} (h : xs.Nodup) :
    xs = [a] ↔ a ∈ xs ∧ ∀ x ∈ xs, x = a := by
  constructor
  · rintro rfl
    exact ⟨List.mem_singleton_self a, fun x => List.mem_singleton.1⟩
  · rintro ⟨ha, hall⟩
    have hone : xs.length ≤ 1 := by
      rw [List.eq_replicate_of_mem hall, List.nodup_replicate] at h
      exact h
    obtain ⟨x, rfl⟩ := List.length_eq_one_iff.1 (le_antisymm hone (List.length_pos_of_mem ha))
    rw [hall x (List.mem_singleton_self x)]

/-- Two contracts of one family on the two sides, where the backend has no other. -/
structure SharesKey (config : Config) (s : Snapshot) (f b : Entity) (pf pb : Placement) : Prop where
  frontend : Placed config s .frontend f pf
  backend : Placed config s .backend b pb
  family : pf.family = pb.family
  only : ∀ b' place, Placed config s .backend b' place → place.family = pb.family → b' = b

/-- The pair of two contracts of one family. Routes are matched as routes, types on the stronger of the two
grounds on which they belong to the family. -/
def keyPair (config : Config) (side : Layer) (f b : Entity) (pf pb : Placement) : ContractPair :=
  let basis := match pb.family.sort with
    | .route => .route
    | .shape => pf.basis.stronger pb.basis
  { sort := pb.family.sort, key := pb.family.key, frontend := f.id, backend := b.id
    basis, confidence := basis.confidence, mismatches := Mismatch.between config side f b }

theorem pairOf_eq_keyPair {fam : Family} {n : Member} (h : fam.key = n.place.family) :
    pairOf config side fam m n = keyPair config side m.entity n.entity m.place n.place := by
  obtain ⟨key, frontend, backend⟩ := fam
  obtain rfl : key = n.place.family := h
  unfold pairOf keyPair
  cases n.place.family.sort <;> rfl

theorem Distinct.nodup_membersOf (hn : Distinct ms) (key : FamilyKey) (side : Layer) :
    (membersOf ms key side).Nodup := by
  refine List.Nodup.of_map (fun m => m.entity.id) ?_
  unfold membersOf
  refine ((sortByRank_perm _ _).map _).nodup_iff.2 ?_
  exact hn.sublist (List.filter_sublist.map _)

/-- **The pairs by key.** -/
theorem Distinct.mem_matched_iff (hn : Distinct ms) (hms : members config s.entities = .ok ms) :
    p ∈ matched config side (families ms) ↔
      ∃ f b pf pb, SharesKey config s f b pf pb ∧ p = keyPair config side f b pf pb := by
  rw [mem_matched]
  constructor
  · rintro ⟨fam, hfam, n, hback, m, hfront, rfl⟩
    have hmem : n ∈ fam.backend := hback ▸ List.mem_singleton_self n
    obtain ⟨hm, hmkey, hmlayer⟩ := (mem_frontend hfam).1 hfront
    obtain ⟨hn', hnkey, hnlayer⟩ := (mem_backend hfam).1 hmem
    refine ⟨m.entity, n.entity, m.place, n.place, ⟨(placed_iff hms).2 ⟨m, hm, rfl, rfl, hmlayer⟩,
      (placed_iff hms).2 ⟨n, hn', rfl, rfl, hnlayer⟩, hmkey.trans hnkey.symm, ?_⟩, ?_⟩
    · intro b' place hb' hfamily
      obtain ⟨n', hmem', rfl, rfl, hlayer⟩ := (placed_iff hms).1 hb'
      have hin : n' ∈ fam.backend := (mem_backend hfam).2 ⟨hmem', hfamily.trans hnkey, hlayer⟩
      rw [hback, List.mem_singleton] at hin
      rw [hin]
    · exact pairOf_eq_keyPair hnkey.symm
  · rintro ⟨f, b, pf, pb, h, rfl⟩
    obtain ⟨m, hm, rfl, rfl, hmlayer⟩ := (placed_iff hms).1 h.frontend
    obtain ⟨n, hn', rfl, rfl, hnlayer⟩ := (placed_iff hms).1 h.backend
    refine ⟨familyOf ms n.place.family, mem_families.2 ⟨n, hn', rfl⟩, n, ?_, m,
      mem_membersOf.2 ⟨hm, h.family, hmlayer⟩, pairOf_eq_keyPair rfl⟩
    refine (eq_singleton_iff (hn.nodup_membersOf _ _)).2 ⟨mem_membersOf.2 ⟨hn', rfl, hnlayer⟩, ?_⟩
    intro n' hmem
    obtain ⟨hmem, hfamily, hlayer⟩ := mem_membersOf.1 hmem
    have hsame := h.only n'.entity n'.place ((placed_iff hms).2 ⟨n', hmem, rfl, rfl, hlayer⟩) hfamily
    exact List.inj_on_of_nodup_map hn hmem hn' (congrArg Entity.id hsame)

/-! ## Pairs by path -/

/-- The only route on its side with its method and path. -/
structure IsSole (config : Config) (s : Snapshot) (side : Layer) (method path : String) (e : Entity) :
    Prop where
  route : IsRoute config s side method path e
  sole : ∀ e', IsRoute config s side method path e' → e' = e

/-- There are routes with a method and a path, all of them on one side. -/
structure OnlyOn (config : Config) (s : Snapshot) (side : Layer) (method path : String) : Prop where
  some : ∃ e, IsRoute config s side method path e
  all : ∀ other e, IsRoute config s other method path e → other = side

/-- A frontend and a backend route that are alone on a path, with different methods: each is the only route
with its method, no frontend route of another method lacks a backend one, and no backend route of another
method lacks a frontend one, unless several share that method and are duplicates. -/
structure AloneOnPath (config : Config) (s : Snapshot) (path mf mb : String) (f b : Entity) : Prop where
  differ : mf ≠ mb
  frontend : IsSole config s .frontend mf path f
  backend : IsSole config s .backend mb path b
  onlyFrontend : OnlyOn config s .frontend mf path
  onlyBackend : OnlyOn config s .backend mb path
  noFrontend : ∀ method, OnlyOn config s .frontend method path → method = mf
  noBackend : ∀ method e, OnlyOn config s .backend method path → IsSole config s .backend method path e →
    method = mb

theorem method_familyOf (h : ' ' ∉ method.toList) :
    (familyOf ms (.ofRoute method path)).key.method = method := FamilyKey.method_ofRoute path h

/-- An orphan on the frontend. -/
theorem Family.orphan_frontend_iff {f : Family} :
    f.isOrphan = true ∧ f.side = .frontend ↔ f.frontend ≠ [] ∧ f.backend = [] := by
  rw [isOrphan_iff]
  unfold Family.side
  by_cases hfront : f.frontend = []
  · simp [hfront]
  · simp [hfront]

/-- An orphan on the backend. -/
theorem Family.orphan_backend_iff {f : Family} :
    f.isOrphan = true ∧ f.side = .backend ↔ f.frontend = [] ∧ f.backend.length ≤ 1 := by
  rw [isOrphan_iff]
  unfold Family.side
  by_cases hfront : f.frontend = []
  · simp only [hfront, List.isEmpty_nil, if_true, true_and, and_true]
    exact ⟨fun h => h.elim id fun hnil => by simp [hnil], .inl⟩
  · simp [hfront]

theorem IsRoute.sides (h : IsRoute config s side method path e) : side = .frontend ∨ side = .backend := by
  have hside := hasSide_iff.1 (hasSide_of_isContract h.contract)
  simpa [h.layer] using hside

theorem IsRoute.spaceless (h : IsRoute config s side method path e) (hspaceless : AllSpaceless s) :
    ' ' ∉ method.toList := h.method ▸ (hspaceless e h.mem h.contract h.kind).methodOf

namespace Readable

variable (h : Readable config s ms)

include h

/-- The only route with its method and path is the only member of its family on its side. -/
theorem isSole_iff (hmethod : ' ' ∉ method.toList) : IsSole config s side method path e ↔
    ∃ m, membersOf ms (.ofRoute method path) side = [m] ∧ m.entity = e := by
  constructor
  · intro hsole
    obtain ⟨m, hm, rfl⟩ := (h.isRoute_iff hmethod).1 hsole.route
    refine ⟨m, (eq_singleton_iff (h.distinct.nodup_membersOf _ _)).2 ⟨hm, fun m' hm' => ?_⟩, rfl⟩
    have hsame := hsole.sole m'.entity ((h.isRoute_iff hmethod).2 ⟨m', hm', rfl⟩)
    exact List.inj_on_of_nodup_map h.distinct (mem_membersOf.1 hm').1 (mem_membersOf.1 hm).1
      (congrArg Entity.id hsame)
  · rintro ⟨m, hm, rfl⟩
    refine ⟨(h.isRoute_iff hmethod).2 ⟨m, hm ▸ List.mem_singleton_self m, rfl⟩, fun e' he' => ?_⟩
    obtain ⟨m', hm', rfl⟩ := (h.isRoute_iff hmethod).1 he'
    rw [hm, List.mem_singleton] at hm'
    rw [hm']

/-- The families of routes on a path are given by their methods. -/
theorem mem_families_iff {fam : Family} :
    fam ∈ families ms ∧ fam.key.sort = .route ∧ fam.key.path = path ↔
      ∃ method, ' ' ∉ method.toList ∧ fam = familyOf ms (.ofRoute method path) ∧
        ∃ side e, IsRoute config s side method path e := by
  constructor
  · rintro ⟨hfam, hsort, rfl⟩
    obtain ⟨m, hm, rfl⟩ := mem_families.1 hfam
    have hkind := kind_of_place (place_of_mem h.members hm) hsort
    obtain ⟨path, hspaceless, -, hfamily⟩ := h.place_eq hm hkind
    have hpath : (familyOf ms m.place.family).key.path = path := by
      change m.place.family.path = path
      rw [hfamily, FamilyKey.path_ofRoute _ hspaceless]
    obtain ⟨side, hlayer⟩ := exists_layer (hasSide_of_isContract (entity_mem h.members hm).2)
    rw [hpath]
    exact ⟨_, hspaceless, by rw [hfamily], side, m.entity, (h.isRoute_iff hspaceless).2
      ⟨m, mem_membersOf.2 ⟨hm, hfamily, hlayer⟩, rfl⟩⟩
  · rintro ⟨method, hspaceless, rfl, side, e, hroute⟩
    obtain ⟨m, hm, rfl⟩ := (h.isRoute_iff hspaceless).1 hroute
    obtain ⟨hm, hfamily, -⟩ := mem_membersOf.1 hm
    exact ⟨mem_families.2 ⟨m, hm, by rw [hfamily]⟩, rfl, FamilyKey.path_ofRoute _ hspaceless⟩

/-- **The frontend orphans on a path** are the methods with frontend routes only. -/
theorem mem_onPath_frontend {fam : Family} : fam ∈ onPath (orphansOf (families ms)) path .frontend ↔
    ∃ method, ' ' ∉ method.toList ∧ fam = familyOf ms (.ofRoute method path) ∧
      OnlyOn config s .frontend method path := by
  rw [mem_onPath, mem_orphansOf]
  constructor
  · rintro ⟨⟨hfam, horphan⟩, hsort, hpath, hside⟩
    obtain ⟨hfront, hback⟩ := Family.orphan_frontend_iff.1 ⟨horphan, hside⟩
    obtain ⟨method, hspaceless, rfl, -⟩ := h.mem_families_iff.1 ⟨hfam, hsort, hpath⟩
    have hsome : ∃ e, IsRoute config s .frontend method path e :=
      not_forall_not.1 fun hnone => hfront ((h.membersOf_eq_nil_iff hspaceless).2 hnone)
    refine ⟨method, hspaceless, rfl, hsome, fun other e hroute => hroute.sides.resolve_right ?_⟩
    rintro rfl
    exact (h.membersOf_eq_nil_iff hspaceless).1 hback e hroute
  · rintro ⟨method, hspaceless, rfl, ⟨e, hroute⟩, hall⟩
    obtain ⟨hfam, hsort, hpath⟩ := h.mem_families_iff.2 ⟨method, hspaceless, rfl, _, e, hroute⟩
    have hsides := Family.orphan_frontend_iff (f := familyOf ms (.ofRoute method path)).2
      ⟨fun hnil => (h.membersOf_eq_nil_iff hspaceless).1 hnil e hroute,
        (h.membersOf_eq_nil_iff hspaceless).2 fun e' he' => (nomatch hall _ e' he')⟩
    exact ⟨⟨hfam, hsides.1⟩, hsort, hpath, hsides.2⟩

/-- **The backend orphans on a path** are the methods with one route, on the backend. -/
theorem mem_onPath_backend {fam : Family} : fam ∈ onPath (orphansOf (families ms)) path .backend ↔
    ∃ method, ' ' ∉ method.toList ∧ fam = familyOf ms (.ofRoute method path) ∧
      OnlyOn config s .backend method path ∧ ∃ e, IsSole config s .backend method path e := by
  rw [mem_onPath, mem_orphansOf]
  constructor
  · rintro ⟨⟨hfam, horphan⟩, hsort, hpath, hside⟩
    obtain ⟨hfront, hback⟩ := Family.orphan_backend_iff.1 ⟨horphan, hside⟩
    obtain ⟨method, hspaceless, rfl, other, e, hroute⟩ := h.mem_families_iff.1 ⟨hfam, hsort, hpath⟩
    have hnone := (h.membersOf_eq_nil_iff hspaceless).1 hfront
    have hall : ∀ other e, IsRoute config s other method path e → other = .backend := by
      intro other e hroute
      refine hroute.sides.resolve_left ?_
      rintro rfl
      exact hnone e hroute
    -- an orphan on the backend has at most one member there, and this family has one
    obtain rfl := hall other e hroute
    obtain ⟨m, hm, -⟩ := (h.isRoute_iff hspaceless).1 hroute
    obtain ⟨n, hn⟩ := List.length_eq_one_iff.1 (le_antisymm hback (List.length_pos_of_mem hm))
    exact ⟨method, hspaceless, rfl, ⟨⟨e, hroute⟩, hall⟩, n.entity, (h.isSole_iff hspaceless).2 ⟨n, hn, rfl⟩⟩
  · rintro ⟨method, hspaceless, rfl, honly, e, hsole⟩
    obtain ⟨hfam, hsort, hpath⟩ := h.mem_families_iff.2 ⟨method, hspaceless, rfl, _, e, hsole.route⟩
    obtain ⟨m, hm, -⟩ := (h.isSole_iff hspaceless).1 hsole
    have hsides := Family.orphan_backend_iff (f := familyOf ms (.ofRoute method path)).2
      ⟨(h.membersOf_eq_nil_iff hspaceless).2 fun e' he' => (nomatch honly.all _ e' he'),
        (congrArg List.length hm).le⟩
    exact ⟨⟨hfam, hsides.1⟩, hsort, hpath, hsides.2⟩

/-- **The pairs by path.** -/
theorem mem_onPaths_iff : p ∈ onPaths config side (orphansOf (families ms)) ↔
    ∃ path mf mb f b, AloneOnPath config s path mf mb f b ∧ p = pathPair config side path mf mb f b := by
  rw [mem_onPaths]
  refine exists_congr fun path => ?_
  have hnodup : ∀ side, (onPath (orphansOf (families ms)) path side).Nodup := fun side =>
    ((nodup_keys_families ms).of_map.filter _).filter _
  rw [pathPair?_eq_some_iff]
  constructor
  · rintro ⟨ff, fb, m, n, ⟨hff, hfb, hm, hn⟩, rfl⟩
    obtain ⟨hff, hfronts⟩ := (eq_singleton_iff (hnodup .frontend)).1 hff
    obtain ⟨hfb, hbacks⟩ := (eq_singleton_iff (hnodup .backend)).1 hfb
    obtain ⟨mf, hmf, rfl, hfront⟩ := h.mem_onPath_frontend.1 hff
    obtain ⟨mb, hmb, rfl, hback, -⟩ := h.mem_onPath_backend.1 hfb
    refine ⟨mf, mb, m.entity, n.entity, ⟨?_, (h.isSole_iff hmf).2 ⟨m, hm, rfl⟩,
      (h.isSole_iff hmb).2 ⟨n, hn, rfl⟩, hfront, hback, fun method honly => ?_,
      fun method e honly hsole => ?_⟩, ?_⟩
    · -- the routes with one method and path cannot all be on both sides
      rintro rfl
      obtain ⟨e, he⟩ := hfront.some
      exact nomatch hback.all _ e he
    · obtain ⟨e, he⟩ := honly.some
      have hspaceless := he.spaceless h.spaceless
      have hkey := congrArg Family.key
        (hfronts _ (h.mem_onPath_frontend.2 ⟨method, hspaceless, rfl, honly⟩))
      exact (FamilyKey.ofRoute_injective hspaceless hmf hkey).1
    · have hspaceless := hsole.route.spaceless h.spaceless
      have hkey := congrArg Family.key
        (hbacks _ (h.mem_onPath_backend.2 ⟨method, hspaceless, rfl, honly, e, hsole⟩))
      exact (FamilyKey.ofRoute_injective hspaceless hmb hkey).1
    · rw [method_familyOf hmf, method_familyOf hmb]
  · rintro ⟨mf, mb, f, b, halone, rfl⟩
    have hmf := halone.frontend.route.spaceless h.spaceless
    have hmb := halone.backend.route.spaceless h.spaceless
    obtain ⟨m, hm, rfl⟩ := (h.isSole_iff hmf).1 halone.frontend
    obtain ⟨n, hn, rfl⟩ := (h.isSole_iff hmb).1 halone.backend
    refine ⟨familyOf ms (.ofRoute mf path), familyOf ms (.ofRoute mb path), m, n,
      ⟨(eq_singleton_iff (hnodup _)).2 ⟨?_, fun fam hfam => ?_⟩,
        (eq_singleton_iff (hnodup _)).2 ⟨?_, fun fam hfam => ?_⟩, hm, hn⟩, ?_⟩
    · exact h.mem_onPath_frontend.2 ⟨mf, hmf, rfl, halone.onlyFrontend⟩
    · obtain ⟨method, -, rfl, honly⟩ := h.mem_onPath_frontend.1 hfam
      rw [halone.noFrontend method honly]
    · exact h.mem_onPath_backend.2 ⟨mb, hmb, rfl, halone.onlyBackend, _, halone.backend⟩
    · obtain ⟨method, -, rfl, honly, e, hsole⟩ := h.mem_onPath_backend.1 hfam
      rw [halone.noBackend method e honly hsole]
    · rw [method_familyOf hmf, method_familyOf hmb]

end Readable

/-! ## Reports -/

variable {declared : Value} {strict : Bool} {report : ConsistencyReport}

/-- The pairs of a report are in strict order, and no two of them have the same ends. -/
theorem Distinct.pairs_ordered (hn : Distinct ms) {version : Nat} {unrouted : List Entity} :
    (reportOn config side version (families ms) unrouted).pairs.Pairwise
        (fun p q => rankLt p.rank q.rank = true) ∧
      ((reportOn config side version (families ms) unrouted).pairs.map fun p =>
        (p.frontend, p.backend)).Nodup := by
  have hfronts : ((reportOn config side version (families ms) unrouted).pairs.map
      ContractPair.frontend).Nodup := hn.nodup_frontends
  constructor
  · -- no frontend is in two pairs, and it is the third part of a rank
    have hall := ((sortByRank_perm _ _).map ContractPair.frontend).nodup_iff.1 hfronts
    refine sortByRank_strict (List.Nodup.of_map (fun rank => rank.getD 2 "") ?_)
    rw [List.map_map]
    exact hall
  · refine List.Nodup.of_map Prod.fst ?_
    rw [List.map_map]
    exact hfronts

/-- A check that returns, strict or not, reports on the members. -/
theorem reportOf_of_check (hside : sideOf config declared = .ok side)
    (h : check config s declared strict = .ok report) :
    ∃ ms, members config s.entities = .ok ms ∧ report = reportOf config side s.version s.entities ms := by
  unfold check at h
  rw [bind_eq_ok] at h
  obtain ⟨side', hside', h⟩ := h
  rw [hside] at hside'
  obtain rfl := Except.ok.inj hside'
  rw [bind_eq_ok] at h
  obtain ⟨ms, hms, h⟩ := h
  refine ⟨ms, hms, ?_⟩
  dsimp only at h
  split at h
  · cases h
  · split at h
    · exact (Except.ok.inj h).symm
    · cases h

/-- **Which entities are paired.** Where no contract route has a method with a space, a report has a pair for
every frontend contract and the only backend contract of its family, a pair for every two routes that are
alone on a path, and no others. Every pair stands once, in the order of sort, key, frontend and backend. The
check returns where the metadata of the contracts can be read. -/
theorem check_pairs_exactly (hids : s.ids.Nodup) (hside : sideOf config declared = .ok side)
    (hspaceless : AllSpaceless s) :
    ((∀ e ∈ s.entities, isContract e = true → Legible e ∧
        (e.kind = .apiRoute → (e.detail "status_codes").isWritable = true)) →
      ∃ report, check config s declared false = .ok report) ∧
    ∀ strict report, check config s declared strict = .ok report →
      (∀ p, p ∈ report.pairs ↔
        (∃ f b pf pb, SharesKey config s f b pf pb ∧ p = keyPair config side f b pf pb) ∨
        ∃ path mf mb f b, AloneOnPath config s path mf mb f b ∧
          p = pathPair config side path mf mb f b) ∧
      report.pairs.Pairwise (fun p q => rankLt p.rank q.rank = true) ∧
      (report.pairs.map fun p => (p.frontend, p.backend)).Nodup := by
  refine ⟨fun hall => ?_, fun strict report h => ?_⟩
  · cases h : check config s declared false with
    | ok report => exact ⟨report, rfl⟩
    | error fault =>
      obtain ⟨e, he, hcontract, hbreaks⟩ := breaks_of_check hids hside h
      obtain ⟨hlegible, hcodes⟩ := hall e he hcontract
      exact absurd hbreaks (hlegible.not_breaks hcodes)
  · obtain ⟨ms, hms, rfl⟩ := reportOf_of_check hside h
    have hreadable : Readable config s ms := ⟨hms, distinct_of_members hids hms, hspaceless⟩
    refine ⟨fun p => ?_, hreadable.distinct.pairs_ordered⟩
    unfold reportOf
    rw [mem_pairs_reportOn, hreadable.distinct.mem_matched_iff hms, hreadable.mem_onPaths_iff]

/-- Two routes with different methods are alone on a path if all others there are duplicates on the
backend. -/
theorem aloneOnPath_of_routes {mf mb : String} {f b : Entity} (hdiffer : mf ≠ mb)
    (hf : IsRoute config s .frontend mf path f) (hb : IsRoute config s .backend mb path b)
    (hothers : ∀ other method e, IsRoute config s other method path e → e = f ∨ e = b ∨
      other = .backend ∧ method ≠ mf ∧ method ≠ mb ∧ ∃ e' ≠ e, IsRoute config s .backend method path e') :
    AloneOnPath config s path mf mb f b := by
  -- what is told apart by side and method is one of the two, or a duplicate
  have hside {other method} {e : Entity} (he : IsRoute config s other method path e) :
      (other = .frontend ∧ method = mf ∧ e = f) ∨ other = .backend ∧ (method = mb ∧ e = b ∨
        method ≠ mf ∧ method ≠ mb ∧ ∃ e' ≠ e, IsRoute config s .backend method path e') := by
    rcases hothers other method e he with rfl | rfl | ⟨hback, hothers⟩
    · exact .inl ⟨Option.some.inj (he.layer.symm.trans hf.layer), he.method.symm.trans hf.method, rfl⟩
    · exact .inr ⟨Option.some.inj (he.layer.symm.trans hb.layer),
        .inl ⟨he.method.symm.trans hb.method, rfl⟩⟩
    · exact .inr ⟨hback, .inr hothers⟩
  refine ⟨hdiffer, ⟨hf, fun e he => ?_⟩, ⟨hb, fun e he => ?_⟩, ⟨⟨f, hf⟩, fun other e he => ?_⟩,
    ⟨⟨b, hb⟩, fun other e he => ?_⟩, fun method honly => ?_, fun method e honly hsole => ?_⟩
  · rcases hside he with ⟨-, -, rfl⟩ | ⟨hback, -⟩
    · rfl
    · cases hback
  · rcases hside he with ⟨hfront, -⟩ | ⟨-, ⟨-, rfl⟩ | ⟨-, hne, -⟩⟩
    · cases hfront
    · rfl
    · exact absurd rfl hne
  · rcases hside he with ⟨rfl, -⟩ | ⟨-, ⟨hmethod, -⟩ | ⟨hne, -⟩⟩
    · rfl
    · exact absurd hmethod hdiffer
    · exact absurd rfl hne
  · rcases hside he with ⟨-, hmethod, -⟩ | ⟨rfl, -⟩
    · exact absurd hmethod.symm hdiffer
    · rfl
  · obtain ⟨e, he⟩ := honly.some
    rcases hside he with ⟨-, hmethod, -⟩ | ⟨hback, -⟩
    · exact hmethod
    · cases hback
  · rcases hside hsole.route with ⟨hfront, -⟩ | ⟨-, ⟨hmethod, -⟩ | ⟨-, -, e', hne, he'⟩⟩
    · cases hfront
    · exact hmethod
    · exact absurd (hsole.sole e' he') hne

theorem storefront_ids : storefront.ids.Nodup := by decide

theorem storefront_alone : AloneOnPath default storefront "/save" "PUT" "POST"
    (routeAt "web.save" .frontend "PUT" "/save") (routeAt "api.save" .backend "POST" "/save") := by
  have hat : ∀ e ∈ storefront.entities, e.kind = .apiRoute →
      Route.ofValue (default : Config).routePrefixes (e.detail "path") = .ok "/save" →
      e.id = "web.save" ∨ e.id = "api.save" := by decide +kernel
  have hweb : routeAt "web.save" .frontend "PUT" "/save" ∈ storefront.entities := by simp [storefront]
  have hapi : routeAt "api.save" .backend "POST" "/save" ∈ storefront.entities := by simp [storefront]
  refine aloneOnPath_of_routes (by decide) ⟨hweb, by decide, rfl, rfl, by decide, by decide +kernel⟩
    ⟨hapi, by decide, rfl, rfl, by decide, by decide +kernel⟩ fun other method e he => ?_
  rcases hat e he.mem he.kind he.path with hid | hid
  · exact .inl (eq_of_id storefront_ids he.mem hweb hid)
  · exact .inr (.inl (eq_of_id storefront_ids he.mem hapi hid))

theorem storefront_shares : SharesKey default storefront (routeAt "web.cart" .frontend "GET" "/cart")
    (routeAt "api.cart" .backend "GET" "/cart") ⟨.ofRoute "GET" "/cart", .route⟩
    ⟨.ofRoute "GET" "/cart", .route⟩ := by
  have hat : ∀ e ∈ storefront.entities, e.layer = some .backend →
      (Placement.of default e).map Placement.family = .ok (.ofRoute "GET" "/cart") → e.id = "api.cart" := by
    decide +kernel
  have hapi : routeAt "api.cart" .backend "GET" "/cart" ∈ storefront.entities := by simp [storefront]
  refine ⟨⟨by simp [storefront], by decide, rfl, by decide +kernel⟩,
    ⟨hapi, by decide, rfl, by decide +kernel⟩, rfl, fun b' place hb' hfamily => ?_⟩
  exact eq_of_id storefront_ids hb'.mem hapi
    (hat b' hb'.mem hb'.layer (map_eq_ok.2 ⟨place, hb'.place, hfamily⟩))

/-- In the storefront one pair shares a key, and one is alone on its path. -/
theorem storefront_pairs : AllSpaceless storefront ∧ ∃ report,
    check default storefront .null false = .ok report ∧
    keyPair default .frontend (routeAt "web.cart" .frontend "GET" "/cart")
      (routeAt "api.cart" .backend "GET" "/cart") ⟨.ofRoute "GET" "/cart", .route⟩
      ⟨.ofRoute "GET" "/cart", .route⟩ ∈ report.pairs ∧
    pathPair default .frontend "/save" "PUT" "POST" (routeAt "web.save" .frontend "PUT" "/save")
      (routeAt "api.save" .backend "POST" "/save") ∈ report.pairs ∧
    report.pairs.Pairwise fun p q => rankLt p.rank q.rank = true := by
  have hspaceless : AllSpaceless storefront := by
    unfold AllSpaceless Spaceless
    decide
  have hside : sideOf default .null = .ok .frontend := by decide
  obtain ⟨hreturns, hexact⟩ := check_pairs_exactly storefront_ids hside hspaceless
  obtain ⟨report, h⟩ := hreturns fun e he hcontract => by
    simp only [storefront, List.mem_cons, List.not_mem_nil, or_false] at he
    rcases he with rfl | rfl | rfl | rfl | rfl | rfl | rfl | rfl | rfl
    iterate 8 exact ⟨legible_routeAt .., fun _ => rfl⟩
    cases hcontract
  obtain ⟨hpairs, hsorted, -⟩ := hexact false report h
  exact ⟨hspaceless, report, h, (hpairs _).2 (.inl ⟨_, _, _, _, storefront_shares, rfl⟩),
    (hpairs _).2 (.inr ⟨_, _, _, _, _, storefront_alone, rfl⟩), hsorted⟩

/-- A frontend and a backend route on one path, and two more backend routes there with a third method. -/
def crowded : Snapshot where
  version := 1
  entities := [
    routeAt "api.post" .backend "POST" "/p", routeAt "api.put" .backend "PUT" "/p",
    routeAt "api.put.old" .backend "PUT" "/p", routeAt "web.get" .frontend "GET" "/p"]
  edges := []
  files := []
  owners := []

theorem isRoute_crowded (he : e ∈ crowded.entities) (hlayer : e.layer = some side)
    (hmethod : methodOf e = method) : IsRoute default crowded side method "/p" e := by
  have hall : ∀ e ∈ crowded.entities, isContract e = true ∧ e.kind = .apiRoute ∧
      Route.ofValue (default : Config).routePrefixes (e.detail "path") = .ok "/p" := by decide +kernel
  obtain ⟨hcontract, hkind, hpath⟩ := hall e he
  exact ⟨he, hcontract, hlayer, hkind, hmethod, hpath⟩

theorem isRoute_put : IsRoute default crowded .backend "PUT" "/p" (routeAt "api.put" .backend "PUT" "/p") :=
  isRoute_crowded (by simp [crowded]) rfl (by decide)

theorem crowded_alone : AloneOnPath default crowded "/p" "GET" "POST"
    (routeAt "web.get" .frontend "GET" "/p") (routeAt "api.post" .backend "POST" "/p") := by
  have hold : IsRoute default crowded .backend "PUT" "/p" (routeAt "api.put.old" .backend "PUT" "/p") :=
    isRoute_crowded (by simp [crowded]) rfl (by decide)
  refine aloneOnPath_of_routes (by decide) (isRoute_crowded (by simp [crowded]) rfl (by decide))
    (isRoute_crowded (by simp [crowded]) rfl (by decide)) fun other method e he => ?_
  have hmem := he.mem
  have hlayer := he.layer
  have hmethod := he.method
  simp only [crowded, List.mem_cons, List.not_mem_nil, or_false] at hmem
  rcases hmem with rfl | rfl | rfl | rfl
  · exact .inr (.inl rfl)
  · -- each of the two duplicates has the other beside it
    rw [isRoute_put.method] at hmethod
    rw [← hmethod]
    exact .inr (.inr ⟨(Option.some.inj hlayer).symm, by decide, by decide, _,
      fun heq => absurd (congrArg Entity.id heq) (by decide), hold⟩)
  · rw [hold.method] at hmethod
    rw [← hmethod]
    exact .inr (.inr ⟨(Option.some.inj hlayer).symm, by decide, by decide, _,
      fun heq => absurd (congrArg Entity.id heq) (by decide), isRoute_put⟩)
  · exact .inl rfl

/-- **Duplicates do not keep two routes from being alone on a path**: the two are paired although with a third
method there are backend routes only. -/
theorem crowded_pairs : AllSpaceless crowded ∧ OnlyOn default crowded .backend "PUT" "/p" ∧
    ∃ report, check default crowded .null false = .ok report ∧
      pathPair default .frontend "/p" "GET" "POST" (routeAt "web.get" .frontend "GET" "/p")
        (routeAt "api.post" .backend "POST" "/p") ∈ report.pairs := by
  have hspaceless : AllSpaceless crowded := by
    unfold AllSpaceless Spaceless
    decide
  have hbackend : ∀ e ∈ crowded.entities, methodOf e = "PUT" → e.layer = some .backend := by decide
  obtain ⟨ms, hms⟩ := exists_of_isOk (show (members default crowded.entities).isOk = true by decide +kernel)
  have hside : sideOf default .null = .ok .frontend := by decide
  obtain ⟨report, h⟩ := exists_check hside hms (by decide)
  obtain ⟨ms, hms, rfl⟩ := reportOf_of_check hside h
  have hreadable : Readable default crowded ms := ⟨hms, distinct_of_members (by decide) hms, hspaceless⟩
  refine ⟨hspaceless, ⟨⟨_, isRoute_put⟩, fun other e he => ?_⟩, _, h, ?_⟩
  · exact Option.some.inj (he.layer.symm.trans (hbackend e he.mem he.method))
  · exact mem_pairs_reportOn.2 (.inr (hreadable.mem_onPaths_iff.2 ⟨_, _, _, _, _, crowded_alone, rfl⟩))

end Contract

end ChangeImpact
