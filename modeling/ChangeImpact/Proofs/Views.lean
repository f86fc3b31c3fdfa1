import ChangeImpact.Proofs.Accounting
import ChangeImpact.Proofs.Closure

/-!
# What a snapshot shows of a store

A store keeps the last snapshot and a counter. Every change of the contributions drops the one and raises
the other, so a snapshot always shows the current contributions, and its version says which these were.

* `Snapshot.visibleEdges_eq`, `Snapshot.ownersOf_eq`, `Snapshot.exists_owner`: what is in a snapshot that
  is built from contributions, and in which order.
* `Store.Shows`, `Coherent.shows`: **what a snapshot shows of a store.**
* `step_advances`, `run_advances`: **the counter rises with every change of the contributions.**
* `run_snapshot`: both, for every store that can be reached.
-/

namespace ChangeImpact

namespace Snapshot

open Batch

variable {view : Snapshot} {version : Nat} {cs : List Contribution} {ids : List String}

/-! ## Edges -/

/-- Both ends of an edge are among some ids. -/
def between (ids : List String) (e : Edge Value) : Bool := isNamed ids e.source && isNamed ids e.target

theorem between_str (ids : List String) (t : Edge String) :
    between ids (t.map .str) = true ↔ t.source ∈ ids ∧ t.target ∈ ids := by
  unfold between
  rw [Bool.and_eq_true, isNamed_iff, isNamed_iff]
  simp [Edge.map]

theorem between_of_visible?_eq_none {e : Edge Value} (h : visible? ids e = .ok none) :
    between ids e = false := by
  by_contra hbetween
  unfold between at hbetween
  rw [Bool.not_eq_false, Bool.and_eq_true] at hbetween
  have hmissing : missing? ids e = none := by
    rw [missing?_eq, hbetween.1, hbetween.2]
    rfl
  obtain ⟨t, rfl, hsource, htarget⟩ := missing?_eq_none hmissing
  rw [visible?_str, if_pos ⟨hsource, htarget⟩] at h
  cases h

/-- **The visible edges** are those with both ends among the ids, in order. -/
theorem visibleEdges_eq {es : List (Edge Value)} {ts : List (Edge String)}
    (h : visibleEdges ids es = .ok ts) : ts.map (Edge.map .str) = es.filter (between ids) := by
  unfold visibleEdges at h
  obtain ⟨found, hfound, hts⟩ := bind_eq_ok.1 h
  rw [← Except.ok.inj hts]
  have hall := forall₂_of_mapM_eq_ok hfound
  clear hfound hts h
  induction hall with
  | nil => rfl
  | @cons e o es found he _ ih =>
    cases o with
    | none =>
      rw [List.filter_cons_of_neg (by rw [between_of_visible?_eq_none he]; simp), ← ih]
      rfl
    | some t =>
      obtain ⟨rfl, hends⟩ := visible?_eq_some he
      rw [List.filter_cons_of_pos ((between_str ids t).2 hends), ← ih]
      rfl

/-! ## Owners -/

/-- The contribution declares an id. -/
def declares (id : String) (c : Contribution) : Bool := c.entities.any fun e => e.id == id

theorem declares_iff {id : String} {c : Contribution} :
    declares id c = true ↔ ∃ e ∈ c.entities, e.id = id := by
  unfold declares
  simp

/-- A file that declares no id twice owns an id once, if it declares it. -/
theorem ownersOf_file {es : List Entity} (h : (es.map Entity.id).Nodup) (file id : String) :
    ownersOf (es.map fun e => (e, file)) id = if es.any (fun e => e.id == id) then [file] else [] := by
  unfold ownersOf
  induction es with
  | nil => rfl
  | cons e es ih =>
    rw [List.map_cons, List.nodup_cons] at h
    rw [List.map_cons]
    by_cases he : e.id = id
    · have hrest : (es.map fun e => (e, file)).filter (fun d => d.1.id == id) = [] := by
        rw [List.filter_eq_nil_iff]
        intro d hd hdid
        obtain ⟨x, hx, rfl⟩ := List.mem_map.1 hd
        have hxe : x.id = e.id := (beq_iff_eq.1 hdid).trans he.symm
        exact h.1 (hxe ▸ List.mem_map_of_mem hx)
      rw [List.filter_cons_of_pos (by simpa using he), hrest]
      simp [he]
    · rw [List.filter_cons_of_neg (by simpa using he), ih h.2]
      simp [he]

/-- **The owners of an id** are the files that declare it, in the order of the contributions. -/
theorem ownersOf_eq (h : ∀ c ∈ cs, (c.entities.map Entity.id).Nodup) (id : String) :
    ownersOf (declarations cs) id = (cs.filter (declares id)).map Contribution.file := by
  induction cs with
  | nil => rfl
  | cons c cs ih =>
    rw [List.forall_mem_cons] at h
    have hsplit : ownersOf (declarations (c :: cs)) id =
        ownersOf (c.entities.map fun e => (e, c.file)) id ++ ownersOf (declarations cs) id := by
      unfold ownersOf declarations
      rw [List.flatMap_cons, List.filter_append, List.map_append]
    rw [hsplit, ownersOf_file h.1, ih h.2, ← declares]
    by_cases hc : declares id c = true
    · rw [if_pos hc, List.filter_cons_of_pos hc]
      rfl
    · rw [if_neg hc, List.filter_cons_of_neg hc]
      rfl

theorem get?_image_ids {α : Type} (g : String → α) (ids : List String) (id : String) :
    Table.get? (ids.map fun id => (id, g id)) id = if id ∈ ids then some (g id) else none := by
  induction ids with
  | nil => rfl
  | cons i ids ih =>
    rw [List.map_cons, Table.get?_cons, ih]
    by_cases h : i = id
    · simp [h]
    · simp [h, Ne.symm h]

theorem ownersOfId_build (h : build version cs = .ok view) (id : String) :
    view.ownersOfId id = ownersOf (declarations cs) id := by
  have howners : view.owners = view.ids.map fun id => (id, ownersOf (declarations cs) id) := by
    unfold build at h
    obtain ⟨ts, -, h⟩ := bind_eq_ok.1 h
    rw [← Except.ok.inj h]
    rfl
  unfold ownersOfId
  rw [howners, get?_image_ids]
  split
  · rfl
  · rename_i hid
    have hnone : (declarations cs).filter (fun d => d.1.id == id) = [] := by
      rw [List.filter_eq_nil_iff]
      intro d hd hdid
      obtain ⟨c, hc, e, he, rfl⟩ := mem_declarations.1 hd
      exact hid ((mem_ids_build h).2 ⟨c, hc, e, he, beq_iff_eq.1 hdid⟩)
    unfold ownersOf
    rw [hnone]
    rfl

/-- **The definition of an id** is that of its first owner. -/
theorem exists_owner (h : build version cs = .ok view) {e : Entity} (he : e ∈ view.entities) :
    ∃ c ∈ cs, e ∈ c.entities ∧ ∃ rest, view.ownersOfId e.id = c.file :: rest := by
  rw [(build_eq_ok h).2.1, definitions, (sortByRank_perm _ _).mem_iff] at he
  have hfind := find?_of_mem_keepFirst Entity.id he
  rw [List.find?_map] at hfind
  obtain ⟨d, hd, rfl⟩ := Option.map_eq_some_iff.1 hfind
  obtain ⟨c, hc, e, hec, rfl⟩ := mem_declarations.1 (List.mem_of_find?_eq_some hd)
  refine ⟨c, hc, hec, ?_⟩
  obtain ⟨rest, hrest⟩ := List.head?_eq_some_iff.1 (List.head?_filter.trans hd)
  refine ⟨rest.map Prod.snd, ?_⟩
  rw [ownersOfId_build h, ownersOf]
  exact congrArg (List.map Prod.snd) hrest

end Snapshot

namespace Store

variable {s : Store} {view : Snapshot}

/-- A file of the store declares an id. -/
def FileDeclares (s : Store) (file id : String) : Prop :=
  ∃ c, s.contributions.get? file = some c ∧ ∃ e ∈ c.entities, e.id = id

/-- **What a snapshot shows of a store.** -/
structure Shows (s : Store) (view : Snapshot) : Prop where
  version : view.version = s.version
  /-- The ids are in order, each of them once. -/
  ids_ascending : Text.Ascending view.ids
  mem_ids : ∀ id, id ∈ view.ids ↔ s.DeclaresId id
  owners_ascending : ∀ id, Text.Ascending (view.ownersOfId id)
  mem_owners : ∀ id file, file ∈ view.ownersOfId id ↔ s.FileDeclares file id
  /-- An entity is defined as in its first owner. -/
  definition : ∀ e ∈ view.entities, ∃ file others c, view.ownersOfId e.id = file :: others ∧
    s.contributions.get? file = some c ∧ e ∈ c.entities
  ends : ∀ e ∈ view.edges, e.source ∈ view.ids ∧ e.target ∈ view.ids
  /-- The edges are those of the contributions with both ends declared, file by file in path order. -/
  edges : s.contributions.Ordered ∧ view.edges.map (Edge.map .str) =
    (s.contributions.values.flatMap Contribution.edges).filter (Snapshot.between view.ids)

/-- **The snapshot that is built from a coherent store shows it.** -/
theorem Coherent.shows (h : s.Coherent) (hview : s.buildSnapshot = .ok view) : s.Shows view := by
  have hids : ∀ c ∈ s.contributions.values, (c.entities.map Entity.id).Nodup := by
    intro c hc
    obtain ⟨f, hf⟩ := h.mem_values.1 hc
    exact h.entity_ids f c hf
  have howners : ∀ id, view.ownersOfId id =
      (s.contributions.values.filter (Snapshot.declares id)).map Contribution.file := fun id =>
    (Snapshot.ownersOfId_build hview id).trans (Snapshot.ownersOf_eq hids id)
  have hget : ∀ c ∈ s.contributions.values, s.contributions.get? c.file = some c := by
    intro c hc
    obtain ⟨f, hf⟩ := h.mem_values.1 hc
    rw [h.file f c hf]
    exact hf
  constructor
  case version => exact (Snapshot.build_eq_ok hview).1
  case ids_ascending => exact (Snapshot.build_wellFormed hview).ascending
  case mem_ids =>
    intro id
    rw [Snapshot.mem_ids_build hview]
    constructor
    · rintro ⟨c, hc, hid⟩
      exact ⟨c.file, c, hget c hc, hid⟩
    · rintro ⟨f, c, hc, hid⟩
      exact ⟨c, h.mem_values.2 ⟨f, hc⟩, hid⟩
  case owners_ascending =>
    intro id
    rw [howners]
    have hsub : ((s.contributions.values.filter (Snapshot.declares id)).map Contribution.file).Sublist
        s.contributions.keys := h.files_values ▸ List.filter_sublist.map Contribution.file
    exact h.ordered.sublist hsub
  case mem_owners =>
    intro id file
    rw [howners, List.mem_map]
    constructor
    · rintro ⟨c, hc, rfl⟩
      obtain ⟨hmem, hdeclares⟩ := List.mem_filter.1 hc
      exact ⟨c, hget c hmem, Snapshot.declares_iff.1 hdeclares⟩
    · rintro ⟨c, hc, hid⟩
      refine ⟨c, List.mem_filter.2 ⟨h.mem_values.2 ⟨file, hc⟩, ?_⟩, h.file file c hc⟩
      exact Snapshot.declares_iff.2 hid
  case definition =>
    intro e he
    obtain ⟨c, hc, hec, others, howner⟩ := Snapshot.exists_owner hview he
    exact ⟨c.file, others, c, howner, hget c hc, hec⟩
  case ends =>
    intro e he
    exact ((Snapshot.mem_edges_build hview).1 he).2
  case edges => exact ⟨h.ordered, Snapshot.visibleEdges_eq (Snapshot.build_eq_ok hview).2.2⟩

/-! ## Versions of the graph -/

/-- The graph is as it was, or its version is higher. -/
def Advances (s next : Store) : Prop :=
  (next.contributions = s.contributions ∧ next.version = s.version) ∨ s.version < next.version

theorem Advances.refl (s : Store) : s.Advances s := .inl ⟨rfl, rfl⟩

theorem Advances.trans {s t u : Store} (h : s.Advances t) (h' : t.Advances u) : s.Advances u := by
  rcases h with ⟨hc, hv⟩ | hlt <;> rcases h' with ⟨hc', hv'⟩ | hlt'
  · exact .inl ⟨hc'.trans hc, hv'.trans hv⟩
  · exact .inr (hv ▸ hlt')
  · exact .inr (hv'.symm ▸ hlt)
  · exact .inr (hlt.trans hlt')

theorem mergeBatch_advances (s : Store) (results : List ScanResult) :
    s.Advances (s.mergeBatch results).1 := by
  rcases mergeBatch_cases s results with ⟨fault, hm⟩ | ⟨_, refused, rejections, -, hm⟩ |
    ⟨database, candidates, taken, refused, rejections, -, -, hm⟩
  · rw [hm]; exact .refl s
  · rw [hm]; exact .refl s
  · rw [hm]; exact .inr (Nat.lt_succ_self s.version)

/-- **Every operation leaves the graph as it was or raises its version,** also one that fails. -/
theorem step_advances (s : Store) (op : Op) : s.Advances (s.step op) := by
  unfold step
  cases op with
  | merge r =>
    dsimp only
    rcases merge_cases s r with ⟨fault, hm⟩ | ⟨-, hm⟩
    · rw [hm]; exact .refl s
    · rw [hm]; exact mergeBatch_advances s [r]
  | mergeBatch results => exact mergeBatch_advances s results
  | remove file =>
    dsimp only
    rcases remove_cases s file with hm | ⟨database, hm⟩
    · rw [hm]; exact .refl s
    · rw [hm]; exact .inr (Nat.lt_succ_self s.version)
  | rebuild results =>
    dsimp only
    rcases rebuild_cases s results with ⟨fault, hm⟩ | ⟨database, hm⟩
    · rw [hm]; exact .refl s
    · -- the contributions are dropped first, under a version of its own
      rw [hm]
      have hdropped : s.Advances (({ s with database } : Store).changed []) :=
        .inr (Nat.lt_succ_self s.version)
      exact hdropped.trans (mergeBatch_advances _ _)
  | reserve file => exact .refl s
  | snapshot =>
    dsimp only
    rw [snapshot_keeps s]
    exact .inl ⟨rfl, rfl⟩

theorem run_advances (s : Store) (ops : List Op) : s.Advances (s.run ops) := by
  induction ops generalizing s with
  | nil => exact .refl s
  | cons op ops ih => exact (step_advances s op).trans (ih (s.step op))

end Store

end ChangeImpact
