import ChangeImpact.Proofs.Faulting
import ChangeImpact.Proofs.Table
import ChangeImpact.Graph.Snapshot

/-!
# What a snapshot holds

A snapshot that is built from contributions is well formed: its ids are in strict order, and both ends
of every edge are among them.

* `mem_ids_build`, `mem_edges_build`: **the entities and edges of a built snapshot** are those that the
  contributions declare, an edge only if both of its ends are declared.
* `build_wellFormed`: built snapshots are well formed.
* `exists_build`: contributions whose edges have texts as ends have a snapshot.
* `mem_edges_of_mem_neighbors`, `mem_neighbors_of_ne`: the edges at an entity.
-/

namespace ChangeImpact

/-- An entity with nothing but an id, for graphs of which only the shape matters. -/
def Entity.bare (id : String) : Entity where
  id
  kind := .function
  language := ""
  location := ⟨"", 0, 0⟩
  name := id
  layer := none
  shape := none
  metadata := []

namespace Snapshot

variable {s : Snapshot} {ids : List String} {view : Snapshot} {version : Nat}
  {cs : List Contribution}

theorem mem_ids {id : String} : id ∈ s.ids ↔ ∃ e ∈ s.entities, e.id = id := by
  unfold Snapshot.ids; exact List.mem_map

theorem has_iff {id : String} : s.has id = true ↔ id ∈ s.ids := by
  unfold has entity?
  rw [List.find?_isSome, mem_ids]
  simp

/-- The snapshot has the ends of all its edges. -/
def Closed (s : Snapshot) : Prop := ∀ e ∈ s.edges, s.has e.source = true ∧ s.has e.target = true

/-- The ids of a snapshot are in strict order, and it has the ends of all its edges. -/
structure WellFormed (s : Snapshot) : Prop where
  ascending : Text.Ascending s.ids
  closed : s.Closed

/-! ## The ids -/

theorem mem_declarations {d : Entity × String} :
    d ∈ declarations cs ↔ ∃ c ∈ cs, ∃ e ∈ c.entities, (e, c.file) = d := by
  unfold declarations
  simp only [List.mem_flatMap, List.mem_map]

theorem definitions_ascending (declared : List (Entity × String)) :
    Text.Ascending ((definitions declared).map Entity.id) := by
  unfold definitions
  have hperm := sortByRank_perm (fun e : Entity => [e.id])
    (keepFirst (fun a b => a.id == b.id) (declared.map (·.1)))
  have hnd := (hperm.map Entity.id).nodup_iff.2 (nodup_map_keepFirst Entity.id (declared.map (·.1)))
  have hsorted := sortByRank_sorted Entity.id
    (keepFirst (fun a b => a.id == b.id) (declared.map (·.1)))
  unfold Text.Ascending
  rw [List.pairwise_map]
  rw [List.Nodup, List.pairwise_map] at hnd
  exact (hsorted.and hnd).imp fun h => Text.lt_iff_le_ne.2 h

theorem mem_definitions_ids {declared : List (Entity × String)} {id : String} :
    id ∈ (definitions declared).map Entity.id ↔ ∃ d ∈ declared, d.1.id = id := by
  unfold definitions
  rw [((sortByRank_perm _ _).map Entity.id).mem_iff, mem_map_keepFirst Entity.id]
  simp

/-! ## The edges -/

theorem requireKey_str (a : String) : (Value.str a).requireKey = .ok () := rfl

theorem declaredId?_str (ids : List String) (a : String) :
    declaredId? ids (.str a) = .ok (if a ∈ ids then some a else none) := by
  unfold declaredId?
  rw [requireKey_str]
  by_cases h : a ∈ ids <;> simp [h, bind, Except.bind, pure, Except.pure]

theorem declaredId?_eq_some {x : Value} {a : String} (h : declaredId? ids x = .ok (some a)) :
    x = .str a ∧ a ∈ ids := by
  unfold declaredId? at h
  rw [bind_eq_ok] at h
  obtain ⟨-, -, h⟩ := h
  have h := Except.ok.inj h
  split at h
  · rename_i b
    split at h
    · rename_i hb
      obtain rfl := Option.some.inj h
      exact ⟨rfl, by simpa using hb⟩
    · cases h
  · cases h

/-- An edge between texts can be judged, and is visible if both of them are declared. -/
theorem visible?_str (ids : List String) (t : Edge String) :
    visible? ids (t.map .str) = .ok (if t.source ∈ ids ∧ t.target ∈ ids then some t else none) := by
  unfold visible?
  simp only [Edge.map, declaredId?_str]
  by_cases hs : t.source ∈ ids <;> by_cases ht : t.target ∈ ids <;>
    simp [hs, ht, bind, Except.bind, pure, Except.pure]

theorem visible?_eq_some {e : Edge Value} {t : Edge String} (h : visible? ids e = .ok (some t)) :
    e = t.map .str ∧ t.source ∈ ids ∧ t.target ∈ ids := by
  unfold visible? at h
  rw [bind_eq_ok] at h
  obtain ⟨a, ha, h⟩ := h
  cases a with
  | none => cases h
  | some a =>
    simp only [bind_eq_ok] at h
    obtain ⟨b, hb, h⟩ := h
    cases b with
    | none => cases h
    | some b =>
      obtain rfl := Option.some.inj (Except.ok.inj h)
      obtain ⟨hsource, ha⟩ := declaredId?_eq_some ha
      obtain ⟨htarget, hb⟩ := declaredId?_eq_some hb
      refine ⟨?_, ha, hb⟩
      cases e
      simp_all [Edge.map]

theorem mem_visibleEdges {es : List (Edge Value)} {ts : List (Edge String)}
    (h : visibleEdges ids es = .ok ts) {t : Edge String} :
    t ∈ ts ↔ t.map .str ∈ es ∧ t.source ∈ ids ∧ t.target ∈ ids := by
  unfold visibleEdges at h
  rw [bind_eq_ok] at h
  obtain ⟨found, hfound, h⟩ := h
  rw [← Except.ok.inj h, List.mem_filterMap]
  simp only [id, exists_eq_right, mem_of_mapM_eq_ok hfound]
  constructor
  · rintro ⟨e, he, hv⟩
    obtain ⟨rfl, hs, ht⟩ := visible?_eq_some hv
    exact ⟨he, hs, ht⟩
  · rintro ⟨he, hs, ht⟩
    exact ⟨_, he, by rw [visible?_str, if_pos ⟨hs, ht⟩]⟩

/-! ## Building -/

theorem build_eq_ok (h : build version cs = .ok view) :
    view.version = version ∧ view.entities = definitions (declarations cs) ∧
      visibleEdges view.ids (cs.flatMap Contribution.edges) = .ok view.edges := by
  unfold build at h
  rw [bind_eq_ok] at h
  obtain ⟨ts, hts, h⟩ := h
  obtain rfl := Except.ok.inj h
  exact ⟨rfl, rfl, hts⟩

/-- Snapshots of the same contributions differ in their versions only. -/
theorem build_congr {version' : Nat} {view' : Snapshot} (h : build version cs = .ok view)
    (h' : build version' cs = .ok view') : view' = { view with version := version' } := by
  unfold build at h h'
  rw [bind_eq_ok] at h h'
  obtain ⟨ts, hts, h⟩ := h
  obtain ⟨ts', hts', h'⟩ := h'
  obtain rfl := Except.ok.inj h
  obtain rfl := Except.ok.inj (hts.symm.trans hts')
  exact (Except.ok.inj h').symm

/-- **The entities of a built snapshot** are the declared ones. -/
theorem mem_ids_build (h : build version cs = .ok view) {id : String} :
    id ∈ view.ids ↔ ∃ c ∈ cs, ∃ e ∈ c.entities, e.id = id := by
  unfold ids
  rw [(build_eq_ok h).2.1, mem_definitions_ids]
  constructor
  · rintro ⟨d, hd, rfl⟩
    obtain ⟨c, hc, e, he, rfl⟩ := mem_declarations.1 hd
    exact ⟨c, hc, e, he, rfl⟩
  · rintro ⟨c, hc, e, he, rfl⟩
    exact ⟨(e, c.file), mem_declarations.2 ⟨c, hc, e, he, rfl⟩, rfl⟩

/-- **The edges of a built snapshot** are those of the contributions that have both ends declared. -/
theorem mem_edges_build (h : build version cs = .ok view) {t : Edge String} :
    t ∈ view.edges ↔ (∃ c ∈ cs, t.map .str ∈ c.edges) ∧ t.source ∈ view.ids ∧ t.target ∈ view.ids := by
  rw [mem_visibleEdges (build_eq_ok h).2.2, List.mem_flatMap]

theorem build_wellFormed (h : build version cs = .ok view) : view.WellFormed where
  ascending := by
    unfold ids
    rw [(build_eq_ok h).2.1]; exact definitions_ascending _
  closed := fun t ht => by
    have := (mem_edges_build h).1 ht
    exact ⟨has_iff.2 this.2.1, has_iff.2 this.2.2⟩

/-- Contributions whose edges have texts as ends have a snapshot. -/
theorem exists_build (version : Nat) (h : ∀ c ∈ cs, ∀ e ∈ c.edges, ∃ t : Edge String, e = t.map .str) :
    ∃ view, build version cs = .ok view := by
  have hvis : ∀ ids, ∃ ts, visibleEdges ids (cs.flatMap Contribution.edges) = .ok ts := fun ids => by
    obtain ⟨found, hfound⟩ :
        ∃ found, (cs.flatMap Contribution.edges).mapM (visible? ids) = .ok found := by
      apply exists_mapM_eq_ok
      intro e he
      obtain ⟨c, hc, he⟩ := List.mem_flatMap.1 he
      obtain ⟨t, rfl⟩ := h c hc e he
      exact ⟨_, visible?_str ids t⟩
    exact ⟨found.filterMap id, by unfold visibleEdges; rw [hfound]; rfl⟩
  unfold build
  obtain ⟨ts, hts⟩ := hvis ((definitions (declarations cs)).map Entity.id)
  simp only [hts]
  exact ⟨_, rfl⟩

/-! ## The edges at an entity -/

theorem mem_of_mem_addOnce {listed es : List (Edge String)} {e : Edge String}
    (h : e ∈ addOnce listed es) : e ∈ listed ∨ e ∈ es := by
  fun_induction addOnce listed es with
  | case1 listed => exact .inl h
  | case2 listed d es hd ih => exact (ih h).imp id (List.mem_cons_of_mem _)
  | case3 listed d es hd ih =>
    rcases ih h with h | h
    · rcases List.mem_append.1 h with h | h
      · exact .inl h
      · rw [List.mem_singleton] at h
        exact .inr (h ▸ List.mem_cons_self)
    · exact .inr (List.mem_cons_of_mem _ h)

/-- Only loops are listed once; everything else is listed as often as it occurs. -/
theorem mem_addOnce_of_ne {listed es : List (Edge String)} {e : Edge String}
    (h : e ∈ listed ∨ e ∈ es) (hne : e.source ≠ e.target) : e ∈ addOnce listed es := by
  fun_induction addOnce listed es with
  | case1 listed => exact h.resolve_right List.not_mem_nil
  | case2 listed d es hd ih =>
    apply ih
    refine h.imp id fun h => (List.mem_cons.1 h).resolve_left ?_
    rintro rfl
    simp [hne] at hd
  | case3 listed d es hd ih =>
    apply ih
    rcases h with h | h
    · exact .inl (List.mem_append_left _ h)
    · rcases List.mem_cons.1 h with rfl | h
      · exact .inl (List.mem_append_right _ (List.mem_singleton_self _))
      · exact .inr h

theorem neighbors_eq (s : Snapshot) (x : String) :
    s.neighbors x = addOnce [] (s.outgoing x ++ s.incoming x) := by
  unfold neighbors; simp

theorem mem_outgoing_append_incoming {x : String} {e : Edge String} :
    e ∈ s.outgoing x ++ s.incoming x ↔ e ∈ s.edges ∧ (e.source = x ∨ e.target = x) := by
  unfold outgoing incoming
  rw [List.mem_append, List.mem_filter, List.mem_filter, beq_iff_eq, beq_iff_eq, ← and_or_left]

theorem mem_edges_of_mem_neighbors {x : String} {e : Edge String} (h : e ∈ s.neighbors x) :
    e ∈ s.edges ∧ (e.source = x ∨ e.target = x) := by
  rw [neighbors_eq] at h
  exact mem_outgoing_append_incoming.1 ((mem_of_mem_addOnce h).resolve_left List.not_mem_nil)

theorem mem_neighbors_of_ne {x : String} {e : Edge String} (he : e ∈ s.edges)
    (hx : e.source = x ∨ e.target = x) (hne : e.source ≠ e.target) : e ∈ s.neighbors x := by
  rw [neighbors_eq]
  exact mem_addOnce_of_ne (.inr (mem_outgoing_append_incoming.2 ⟨he, hx⟩)) hne

/-- A closed snapshot has the other end of every edge that it lists at an entity. -/
theorem Closed.has_other (h : s.Closed) {x : String} {e : Edge String} (he : e ∈ s.neighbors x) :
    s.has x = true ∧ s.has (e.other x) = true := by
  obtain ⟨he, hx⟩ := mem_edges_of_mem_neighbors he
  obtain ⟨hs, ht⟩ := h e he
  refine ⟨by rcases hx with rfl | rfl <;> assumption, ?_⟩
  unfold Edge.other
  split <;> assumption

end Snapshot

end ChangeImpact
