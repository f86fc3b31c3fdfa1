import ChangeImpact.Config.Decode
import ChangeImpact.Proofs.Coherence
import ChangeImpact.Proofs.Contracts

/-!
# When a check returns

The metadata of an entity are what its record says, and they are read as texts only when a check gives
the entity its place. A method, a contract name and status codes are written as texts, which only an
integer of too many digits prevents. A path is trimmed, which only a text can be: a path that is a
number or a list ends the whole check.

* `Legible`: what the place of a contract entity needs.
* `place_cases`: **an entity has a place, or its metadata say why not.**
* `check_returns`: **a check returns unless the metadata of a contract break it.**
* `check_stopped_by_path`: a record that decodes and merges can break a check.
-/

namespace ChangeImpact

namespace Value

theorem isWritable_of_isVacant {v : Value} (h : v.isVacant = true) : v.isWritable = true := by
  induction v using Value.isVacant.induct with
  | case3 n =>
    have hn : n = 0 := by simpa [isVacant] using h
    rw [hn]
    decide +kernel
  | case6 xs =>
    have hxs : xs = [] := by simpa [isVacant] using h
    rw [hxs]; rfl
  | case7 es =>
    have hes : es = [] := by simpa [isVacant] using h
    rw [hes]; rfl
  | case8 xs =>
    have hxs : xs = [] := by simpa [isVacant] using h
    rw [hxs]; rfl
  | case10 _ content ih => exact ih h
  | _ => first | rfl | cases h

/-- The fault of trimming a value that is no text. -/
def trimFault (v : Value) : Fault :=
  match v with
  | .bytes _ => .type (.notMatchable v.typeName)
  | _ => .noMember v.qualifiedTypeName "strip"

/-- A text is trimmed, and nothing else that is not vacant. -/
theorem toTrimmed_cases {v : Value} (h : v.isVacant = false) :
    (∃ s, v = .str s ∧ v.toTrimmed = .ok (Text.trim s.toList)) ∨
      ((∀ s, v ≠ .str s) ∧ v.toTrimmed = .error v.trimFault) := by
  unfold toTrimmed trimFault
  rw [h]
  cases v with
  | str s => exact .inl ⟨s, rfl, rfl⟩
  | _ => exact .inr ⟨fun s hs => (nomatch hs), rfl⟩

end Value

namespace Contract

variable {config : Config} {e : Entity} {fault : Fault} {s : Snapshot} {declared : Value} {side : Layer}

/-- The metadata that the place of an entity is read from can be read: the path of a route is a text,
and its method can be written, as can the contract name of a type. -/
structure Legible (e : Entity) : Prop where
  path : e.kind = .apiRoute → ∃ s, e.detail "path" = .str s
  method : e.kind = .apiRoute → (e.detail "method").isWritable = true
  contractName : e.kind ≠ .apiRoute → (e.detail "contract_name").isWritable = true

/-- What in the metadata of a contract ends a check, and the fault that it means. -/
inductive Breaks (e : Entity) : Fault → Prop
  | path (route : e.kind = .apiRoute) (noText : ∀ s, e.detail "path" ≠ .str s) :
      Breaks e (e.detail "path").trimFault
  | method (route : e.kind = .apiRoute) (unwritable : (e.detail "method").isWritable = false) :
      Breaks e (.value .unwritable)
  | contractName (type : e.kind ≠ .apiRoute)
      (unwritable : (e.detail "contract_name").isWritable = false) : Breaks e (.value .unwritable)
  | codes (route : e.kind = .apiRoute) (unwritable : (e.detail "status_codes").isWritable = false) :
      Breaks e (.value .unwritable)

/-- Legible metadata break a check by the status codes only. -/
theorem Legible.not_breaks (h : Legible e)
    (hcodes : e.kind = .apiRoute → (e.detail "status_codes").isWritable = true) : ¬ Breaks e fault := by
  intro hbreaks
  cases hbreaks with
  | path hroute hno =>
    obtain ⟨s, hs⟩ := h.path hroute
    exact hno s hs
  | method hroute hw => rw [h.method hroute] at hw; cases hw
  | contractName htype hw => rw [h.contractName htype] at hw; cases hw
  | codes hroute hw => rw [hcodes hroute] at hw; cases hw

/-! ## Places -/

theorem toText_cases (v : Value) : (v.isWritable = true ∧ v.toText = .ok v.text) ∨
    (v.isWritable = false ∧ v.toText = .error (.value .unwritable)) := by
  unfold Value.toText
  cases v.isWritable with
  | true => exact .inl ⟨rfl, rfl⟩
  | false => exact .inr ⟨rfl, rfl⟩

/-- The metadata have what is not vacant. -/
theorem lookup?_of_not_vacant {key : String} (h : (e.detail key).isVacant = false) :
    Entries.lookup? e.metadata key = some (e.detail key) := by
  unfold Entity.detail Entries.lookup at h ⊢
  cases hl : Entries.lookup? e.metadata key with
  | none => rw [hl] at h; cases h
  | some v => rfl

/-- A path that is a text has a normal form. -/
theorem ofValue_cases (prefixes : List String) {path : Value} (hpath : path.isVacant = false) :
    (∃ s, path = .str s ∧ ∃ normal, Route.ofValue prefixes path = .ok normal) ∨
      ((∀ s, path ≠ .str s) ∧ Route.ofValue prefixes path = .error path.trimFault) := by
  unfold Route.ofValue
  rcases Value.toTrimmed_cases hpath with ⟨s, hs, htrim⟩ | ⟨hno, htrim⟩
  · exact .inl ⟨s, hs, _, by rw [htrim]; rfl⟩
  · exact .inr ⟨hno, by rw [htrim]; rfl⟩

/-- A route with a path has a key, or its method or its path say why not. -/
theorem routeKey_cases (config : Config) (hkind : e.kind = .apiRoute)
    (hpath : (e.detail "path").isVacant = false) :
    (Legible e ∧ ∃ key, Placement.routeKey config e = .ok key) ∨
      ∃ fault, Breaks e fault ∧ Placement.routeKey config e = .error fault := by
  have hlegible : (e.detail "method").isWritable = true → (∃ s, e.detail "path" = .str s) → Legible e :=
    fun hw hs => ⟨fun _ => hs, fun _ => hw, fun hother => absurd hkind hother⟩
  unfold Placement.routeKey
  rw [lookup?_of_not_vacant hpath]
  dsimp only
  -- the method is looked at before the path, and a vacant one is not written
  by_cases hvacant : (e.detail "method").isVacant = true
  · have hw := Value.isWritable_of_isVacant hvacant
    rw [if_pos hvacant]
    rcases ofValue_cases config.routePrefixes hpath with ⟨s, hs, normal, h⟩ | ⟨hno, h⟩
    · exact .inl ⟨hlegible hw ⟨s, hs⟩, _, by rw [h]; rfl⟩
    · exact .inr ⟨_, .path hkind hno, by rw [h]; rfl⟩
  · rw [if_neg hvacant]
    rcases toText_cases (e.detail "method") with ⟨hw, ht⟩ | ⟨hw, ht⟩
    · rw [ht]
      rcases ofValue_cases config.routePrefixes hpath with ⟨s, hs, normal, h⟩ | ⟨hno, h⟩
      · exact .inl ⟨hlegible hw ⟨s, hs⟩, _, by rw [h]; rfl⟩
      · exact .inr ⟨_, .path hkind hno, by rw [h]; rfl⟩
    · exact .inr ⟨_, .method hkind hw, by rw [ht]; rfl⟩

/-- A type on a side has a key, or its contract name says why not. -/
theorem shapeKey_cases (config : Config) (hkind : e.kind ≠ .apiRoute) (hside : hasSide e = true) :
    (Legible e ∧ ∃ key, Placement.shapeKey config e = .ok key) ∨
      ∃ fault, Breaks e fault ∧ Placement.shapeKey config e = .error fault := by
  have hlegible : (e.detail "contract_name").isWritable = true → Legible e := fun hw =>
    ⟨fun hroute => absurd hroute hkind, fun hroute => absurd hroute hkind, fun _ => hw⟩
  unfold Placement.shapeKey
  dsimp only
  by_cases hvacant : (e.detail "contract_name").isVacant = true
  · refine .inl ⟨hlegible (Value.isWritable_of_isVacant hvacant), ?_⟩
    -- the naming rules are those of a layer, and an entity on a side has one
    obtain ⟨layer, hlayer⟩ := exists_layer hside
    rw [if_neg (by simp [hvacant]), hlayer]
    split
    · exact ⟨_, rfl⟩
    · exact ⟨_, rfl⟩
    · contradiction
  · rw [if_pos (by simpa using hvacant)]
    rcases toText_cases (e.detail "contract_name") with ⟨hw, ht⟩ | ⟨hw, ht⟩
    · exact .inl ⟨hlegible hw, _, by rw [ht]; rfl⟩
    · exact .inr ⟨_, .contractName hkind hw, by rw [ht]; rfl⟩

/-- A route without a path is no contract. -/
theorem path_of_isContract (hcontract : isContract e = true) (hkind : e.kind = .apiRoute) :
    (e.detail "path").isVacant = false := by
  have hside := hasSide_of_isContract hcontract
  unfold isContract at hcontract
  simpa [hside, hkind] using hcontract

/-- **An entity has a place, or its metadata say why not.** -/
theorem place_cases (config : Config) (hcontract : isContract e = true) :
    (Legible e ∧ ∃ place, Placement.of config e = .ok place) ∨
      ∃ fault, Breaks e fault ∧ Placement.of config e = .error fault := by
  have hside : hasSide e = true := hasSide_of_isContract hcontract
  unfold Placement.of
  by_cases hkind : e.kind = .apiRoute
  · rw [if_pos hkind]
    rcases routeKey_cases config hkind (path_of_isContract hcontract hkind) with ⟨hl, key, hkey⟩ | ⟨fault, hb, hkey⟩
    · exact .inl ⟨hl, _, by rw [hkey]; rfl⟩
    · exact .inr ⟨fault, hb, by rw [hkey]; rfl⟩
  · rw [if_neg hkind]
    rcases shapeKey_cases config hkind hside with ⟨hl, key, hkey⟩ | ⟨fault, hb, hkey⟩
    · exact .inl ⟨hl, _, by rw [hkey]; rfl⟩
    · exact .inr ⟨fault, hb, by rw [hkey]; rfl⟩

/-! ## Checks -/

theorem place_of_mem {entities : List Entity} {ms : List Member} {m : Member}
    (hms : members config entities = .ok ms) (hm : m ∈ ms) :
    Placement.of config m.entity = .ok m.place := by
  unfold members at hms
  obtain ⟨e, -, he⟩ := (mem_of_mapM_eq_ok hms m).1 hm
  obtain ⟨place, hplace, he⟩ := bind_eq_ok.1 he
  obtain rfl := Except.ok.inj he
  exact hplace

/-- Only routes are in the families of routes. -/
theorem kind_of_place {place : Placement} (h : Placement.of config e = .ok place)
    (hsort : place.family.sort = .route) : e.kind = .apiRoute := by
  by_contra hkind
  unfold Placement.of at h
  rw [if_neg hkind] at h
  obtain ⟨key, -, h⟩ := bind_eq_ok.1 h
  rw [← Except.ok.inj h] at hsort
  cases hsort

/-- The ends of a pair of routes are contracts that are routes. -/
theorem route_of_joins {entities : List Entity} {ms : List Member} {version : Nat} {p : ContractPair}
    (hids : (entities.map Entity.id).Nodup) (hms : members config entities = .ok ms)
    (hp : p ∈ (reportOf config side version entities ms).pairs) (hsort : p.sort = .route)
    (he : e ∈ entities) (hjoins : Joins p e.id) : isContract e = true ∧ e.kind = .apiRoute := by
  -- a pair by key has the sort of its family, and only routes are paired by path
  have hnames : ∃ f ∈ families ms, f.key.sort = .route ∧ f.Names e.id := by
    rcases mem_pairs_reportOn.1 hp with hp | hp
    · obtain ⟨f, hf, b, hb, m, hm, rfl⟩ := mem_matched.1 hp
      refine ⟨f, hf, hsort, ?_⟩
      rcases hjoins with hid | hid
      · exact .inl (mem_idsOf.2 ⟨m, hm, hid⟩)
      · exact .inr (mem_idsOf.2 ⟨b, by rw [hb]; exact List.mem_singleton_self b, hid⟩)
    · obtain ⟨path, hpair⟩ := mem_onPaths.1 hp
      obtain ⟨⟨f, hf, hfsort, -, hfront⟩, b, hb, hbsort, -, hback⟩ := names_of_pathPair hpair
      rcases hjoins with hid | hid
      · exact ⟨f, (mem_orphansOf.1 hf).1, hfsort, .inl (hid ▸ hfront)⟩
      · exact ⟨b, (mem_orphansOf.1 hb).1, hbsort, .inr (hid ▸ hback)⟩
  obtain ⟨f, hf, hfsort, hid⟩ := hnames
  obtain ⟨m, hm, hkey, hmid⟩ := exists_member_of_names hf hid
  obtain ⟨hmem, hcontract⟩ := entity_mem hms hm
  have hplace := place_of_mem hms hm
  rw [eq_of_id hids hmem he hmid] at hcontract hplace
  exact ⟨hcontract, kind_of_place hplace (by rw [hkey, hfsort])⟩

/-- Status codes are looked at in pairs of routes, at both ends. -/
theorem hasWritableCodes_iff {p : ContractPair} (hids : s.ids.Nodup) : hasWritableCodes s p = true ↔
    (p.sort = .route → ∀ e ∈ s.entities, Joins p e.id → (e.detail "status_codes").isWritable = true) := by
  unfold hasWritableCodes
  rw [Bool.or_eq_true, beq_iff_eq, List.all_eq_true]
  have hsort : p.sort = .shape ↔ ¬ p.sort = .route := by cases p.sort <;> simp
  rw [hsort, ← imp_iff_not_or]
  refine imp_congr_right fun _ => ⟨fun h e he hjoins => ?_, fun h id hid => ?_⟩
  · -- an id names one entity only
    have hfound : s.entity? e.id = some e := by
      cases hf : s.entity? e.id with
      | none => simpa using List.find?_eq_none.1 hf e he
      | some e' =>
        have hid : e'.id = e.id := by simpa using List.find?_some hf
        rw [eq_of_id hids (List.mem_of_find?_eq_some hf) he hid]
    have hid : e.id ∈ [p.frontend, p.backend] := by
      rcases hjoins with hj | hj <;> simp [hj]
    simpa [hfound] using h e.id hid
  · cases hf : s.entity? id with
    | none => rfl
    | some e =>
      have heid : e.id = id := by simpa using List.find?_some hf
      refine h e (List.mem_of_find?_eq_some hf) ?_
      rw [heid]
      rcases List.mem_cons.1 hid with rfl | hid
      · exact .inl rfl
      · exact .inr (List.mem_singleton.1 hid).symm

/-- Contracts have places if and only if they are legible. -/
theorem members_cases (config : Config) (entities : List Entity) :
    ((∀ e ∈ entities, isContract e = true → Legible e) ∧ ∃ ms, members config entities = .ok ms) ∨
      ∃ fault, (∃ e ∈ entities, isContract e = true ∧ Breaks e fault) ∧
        members config entities = .error fault := by
  cases hms : members config entities with
  | error fault =>
    obtain ⟨e, he, hfault⟩ := mapM_eq_error hms
    obtain ⟨he, hcontract⟩ := List.mem_filter.1 he
    rcases place_cases config hcontract with ⟨-, place, hplace⟩ | ⟨fault', hbreaks, hplace⟩
    · rw [hplace] at hfault; cases hfault
    · rw [hplace] at hfault
      obtain rfl : fault' = fault := Except.error.inj hfault
      exact .inr ⟨fault', ⟨e, he, hcontract, hbreaks⟩, rfl⟩
  | ok ms =>
    refine .inl ⟨fun e he hcontract => ?_, ms, rfl⟩
    have hmem : e ∈ ms.map Member.entity := members_eq_ok hms ▸ List.mem_filter.2 ⟨he, hcontract⟩
    obtain ⟨m, hm, rfl⟩ := List.mem_map.1 hmem
    rcases place_cases config hcontract with ⟨hlegible, -⟩ | ⟨fault, -, hplace⟩
    · exact hlegible
    · rw [place_of_mem hms hm] at hplace; cases hplace

/-- A check whose contracts have places looks at the status codes last. -/
theorem check_of_members {ms : List Member} (hside : sideOf config declared = .ok side)
    (hms : members config s.entities = .ok ms) : check config s declared false =
      if (reportOf config side s.version s.entities ms).pairs.all (hasWritableCodes s) then
        .ok (reportOf config side s.version s.entities ms)
      else .error (.value .unwritable) := by
  unfold check
  rw [hside, hms]
  rfl

/-- A fault of a check is that of a contract without a place, or it is about the status codes of a route
in a pair. -/
theorem breaks_of_check (hids : s.ids.Nodup) (hside : sideOf config declared = .ok side)
    (h : check config s declared false = .error fault) :
    ∃ e ∈ s.entities, isContract e = true ∧ Breaks e fault := by
  rcases members_cases config s.entities with ⟨-, ms, hms⟩ | ⟨fault', hbreaks, hms⟩
  · rw [check_of_members hside hms] at h
    split at h
    · cases h
    · rename_i hcodes
      obtain rfl := Except.error.inj h
      simp only [List.all_eq_true, hasWritableCodes_iff hids, not_forall] at hcodes
      obtain ⟨p, hp, hsort, e, he, hjoins, hw⟩ := hcodes
      obtain ⟨hcontract, hkind⟩ := route_of_joins hids hms hp hsort he hjoins
      exact ⟨e, he, hcontract, .codes hkind (by simpa using hw)⟩
  · unfold check at h
    rw [hside, hms] at h
    exact Except.error.inj h ▸ hbreaks

/-- **A check returns unless the metadata of a contract break it.** It returns when all contracts are
legible and the status codes of routes can be written. It does not return otherwise, except that the
status codes of routes in no pair are not looked at. Its fault is one that the metadata of a contract
mean. -/
theorem check_returns (hids : s.ids.Nodup) (hside : sideOf config declared = .ok side) :
    ((∀ e ∈ s.entities, isContract e = true → Legible e ∧
        (e.kind = .apiRoute → (e.detail "status_codes").isWritable = true)) →
      ∃ report, check config s declared false = .ok report) ∧
    (∀ report, check config s declared false = .ok report →
      (∀ e ∈ s.entities, isContract e = true → Legible e) ∧
      ∀ p ∈ report.pairs, p.sort = .route → ∀ e ∈ s.entities, Joins p e.id →
        (e.detail "status_codes").isWritable = true) ∧
    ∀ fault, check config s declared false = .error fault →
      ∃ e ∈ s.entities, isContract e = true ∧ Breaks e fault := by
  refine ⟨fun hall => ?_, fun report h => ?_, fun fault => breaks_of_check hids hside⟩
  · cases h : check config s declared false with
    | ok report => exact ⟨report, rfl⟩
    | error fault =>
      obtain ⟨e, he, hcontract, hbreaks⟩ := breaks_of_check hids hside h
      obtain ⟨hlegible, hcodes⟩ := hall e he hcontract
      exact absurd hbreaks (hlegible.not_breaks hcodes)
  · rcases members_cases config s.entities with ⟨hlegible, ms, hms⟩ | ⟨fault, -, hms⟩
    · refine ⟨hlegible, fun p hp => ?_⟩
      rw [check_of_members hside hms] at h
      split at h
      · rename_i hcodes
        obtain rfl := Except.ok.inj h
        exact (hasWritableCodes_iff hids).1 (List.all_eq_true.1 hcodes p hp)
      · cases h
    · unfold check at h
      rw [hside, hms] at h
      cases h

theorem legible_routeAt (id : String) (layer : Layer) (method path : String) :
    Legible (routeAt id layer method path) where
  path _ := ⟨path, rfl⟩
  method _ := rfl
  contractName hkind := absurd rfl hkind

theorem storefront_returns : storefront.ids.Nodup ∧ sideOf default .null = .ok .frontend ∧
    ∃ report, check default storefront .null false = .ok report := by
  have hids : storefront.ids.Nodup := by decide
  have hside : sideOf default .null = .ok .frontend := by decide
  refine ⟨hids, hside, (check_returns hids hside).1 fun e he hcontract => ?_⟩
  simp only [storefront, List.mem_cons, List.not_mem_nil, or_false] at he
  rcases he with rfl | rfl | rfl | rfl | rfl | rfl | rfl | rfl | rfl
  iterate 8 exact ⟨legible_routeAt .., fun _ => rfl⟩
  · cases hcontract

/-- A route whose path is a number. -/
def numberedRoute : Entity :=
  { Entity.bare "web.five" with
    kind := .apiRoute
    layer := some .frontend
    metadata := [(.str "path", .int 5)] }

/-- A record that decodes and merges can break every check: here the path of a route is a number. -/
theorem check_stopped_by_path : Entity.ofRecord numberedRoute.toRecord = .ok numberedRoute ∧
    ∃ s, ((Store.empty none).run
        [.merge { file := "web/api.ts", entities := [numberedRoute] }]).snapshot.2 = .ok s ∧
      check Config.default s .null false = .error (.noMember "int" "strip") := by
  have hsnapshot : ((Store.empty none).run
      [.merge { file := "web/api.ts", entities := [numberedRoute] }]).snapshot.2.isOk = true := by
    decide +kernel
  obtain ⟨s, hs⟩ := exists_of_isOk hsnapshot
  refine ⟨rfl, s, hs, ?_⟩
  have hcheck : (((Store.empty none).run
      [.merge { file := "web/api.ts", entities := [numberedRoute] }]).snapshot.2 >>= fun s =>
        check Config.default s .null false) = .error (.noMember "int" "strip") := by decide +kernel
  rw [hs] at hcheck
  exact hcheck

end Contract

end ChangeImpact
