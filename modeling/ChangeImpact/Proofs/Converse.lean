import ChangeImpact.Proofs.Coherence
import ChangeImpact.Proofs.Reversal

/-!
# Dependents and dependencies

The two are read off the same edges at an entity: the dependents over those that a change moves across
from there, and the dependencies over all others. At a loop a change moves from the entity to itself, so
it is not one of the others, and nothing ever depends on itself by what it lists as its dependencies.

* `exists_key_of_mem_addOnce`: of edges that are listed once, one with the same key is listed.
* `mem_dependents`, `mem_dependencies`: **both in terms of the edges that a change moves across.**
* `converse_iff`: **the two are converse just if no loop is in the way.** `loop_not_converse` is a graph
  with one.
-/

namespace ChangeImpact

/-- Where a change moves across an edge depends on its key. -/
theorem Edge.Moves.of_key {d e : Edge String} {a b : String} (h : e.Moves a b) (hkey : d.key = e.key) :
    d.Moves a b := by
  obtain ⟨hsource, htarget, -, hdirection⟩ := EdgeKey.mk.inj hkey
  unfold Edge.Moves at h ⊢
  rwa [hsource, htarget, hdirection]

/-- Across a loop a change moves from its entity to itself, whatever the direction. -/
theorem Edge.moves_self_iff {e : Edge String} {a : String} :
    e.Moves a a ↔ e.source = a ∧ e.target = a := by
  unfold Edge.Moves
  cases e.direction with
  | forward => rfl
  | backward => exact and_comm

namespace Snapshot

variable {s : Snapshot} {a b x : String}

/-- An edge that is left out has the key of one that is listed. -/
theorem exists_key_of_mem_addOnce {listed es : List (Edge String)} {e : Edge String}
    (h : e ∈ listed ∨ e ∈ es) : ∃ d ∈ addOnce listed es, d.key = e.key := by
  fun_induction addOnce listed es generalizing e with
  | case1 listed => exact ⟨e, h.resolve_right List.not_mem_nil, rfl⟩
  | case2 listed d es hd ih =>
    rcases h with h | h
    · exact ih (.inl h)
    · rcases List.mem_cons.1 h with rfl | h
      · -- a loop is left out for an edge before it that equals it
        obtain ⟨-, hlisted⟩ := Bool.and_eq_true_iff.1 hd
        obtain ⟨g, hg, hsame⟩ := List.any_eq_true.1 hlisted
        obtain ⟨d, hd, hkey⟩ := ih (.inl hg)
        have hkeys : e.key = g.key := EdgeKey.beq_iff.1 (Bool.and_eq_true_iff.1 hsame).1
        exact ⟨d, hd, hkey.trans hkeys.symm⟩
      · exact ih (.inr h)
  | case3 listed d es hd ih =>
    apply ih
    rcases h with h | h
    · exact .inl (List.mem_append_left _ h)
    · rcases List.mem_cons.1 h with rfl | h
      · exact .inl (List.mem_append_right _ (List.mem_singleton_self _))
      · exact .inr h

/-- Every edge at an entity is listed there, as itself or as a loop with the same key. -/
theorem exists_key_of_mem_edges {e : Edge String} (he : e ∈ s.edges)
    (hx : e.source = x ∨ e.target = x) : ∃ d ∈ s.neighbors x, d.key = e.key := by
  rw [neighbors_eq]
  exact exists_key_of_mem_addOnce (.inr (mem_outgoing_append_incoming.2 ⟨he, hx⟩))

/-- **The dependents of an entity** are where a change at it moves over one edge. -/
theorem mem_dependents : b ∈ s.dependents a ↔ ∃ e ∈ s.edges, e.Moves a b := by
  unfold dependents
  rw [mem_distinctTexts, List.mem_map]
  constructor
  · rintro ⟨e, he, hother⟩
    obtain ⟨hlisted, hfrom⟩ := List.mem_filter.1 he
    obtain ⟨hedge, hend⟩ := mem_edges_of_mem_neighbors hlisted
    exact ⟨e, hedge, Edge.moves_from_iff.2 ⟨hend, hfrom, hother⟩⟩
  · rintro ⟨e, he, hmoves⟩
    obtain ⟨d, hd, hkey⟩ := exists_key_of_mem_edges he (Edge.moves_from_iff.1 hmoves).1
    obtain ⟨-, hfrom, hother⟩ := Edge.moves_from_iff.1 (hmoves.of_key hkey)
    exact ⟨d, List.mem_filter.2 ⟨hd, hfrom⟩, hother⟩

/-- An edge that a change does not move across from an entity leads to another one. -/
theorem ne_other_of_not_propagatesFrom {e : Edge String} (hx : e.source = x ∨ e.target = x)
    (hnot : ¬ e.propagatesFrom x = true) : e.other x ≠ x := by
  intro hloop
  by_cases hends : e.source = e.target
  · have hmoves : e.Moves x x := Edge.moves_self_iff.2 (by rcases hx with rfl | rfl <;> simp [hends])
    exact hnot (Edge.moves_from_iff.1 hmoves).2.1
  · unfold Edge.other at hloop
    split at hloop <;> grind

/-- **The dependencies of an entity** are from where a change moves to it over one edge, except itself. -/
theorem mem_dependencies : a ∈ s.dependencies b ↔ a ≠ b ∧ ∃ e ∈ s.edges, e.Moves a b := by
  unfold dependencies
  rw [mem_distinctTexts, List.mem_map]
  constructor
  · rintro ⟨e, he, rfl⟩
    obtain ⟨hlisted, hnot⟩ := List.mem_filter.1 he
    obtain ⟨hedge, hend⟩ := mem_edges_of_mem_neighbors hlisted
    have hnot : ¬ e.propagatesFrom b = true := by simpa using hnot
    have hne := ne_other_of_not_propagatesFrom hend hnot
    exact ⟨hne, e, hedge, (Edge.moves_to_iff hne).2 ⟨hend, hnot, rfl⟩⟩
  · rintro ⟨hne, e, he, hmoves⟩
    obtain ⟨d, hd, hkey⟩ := exists_key_of_mem_edges he ((Edge.moves_to_iff hne).1 hmoves).1
    obtain ⟨-, hnot, hother⟩ := (Edge.moves_to_iff hne).1 (hmoves.of_key hkey)
    exact ⟨d, List.mem_filter.2 ⟨hd, by simpa using hnot⟩, hother⟩

/-- **Dependents and dependencies are converse just if no loop is in the way.** For every snapshot, with
parallel and opposite edges, and any two entities: one is a dependent of the other if and only if the
other is one of its dependencies, unless they are the same entity and there is a loop at it. Then it is a
dependent of itself, and it is not among its own dependencies. -/
theorem converse_iff (s : Snapshot) (a b : String) :
    ((b ∈ s.dependents a ↔ a ∈ s.dependencies b) ↔
      ¬ (a = b ∧ ∃ e ∈ s.edges, e.source = a ∧ e.target = a)) ∧
    ((∃ e ∈ s.edges, e.source = a ∧ e.target = a) → a ∈ s.dependents a ∧ a ∉ s.dependencies a) := by
  have hloop : (∃ e ∈ s.edges, e.source = a ∧ e.target = a) ↔ a ∈ s.dependents a := by
    simp only [mem_dependents, Edge.moves_self_iff]
  have hself : a ∉ s.dependencies a := fun h => (mem_dependencies.1 h).1 rfl
  refine ⟨?_, fun h => ⟨hloop.1 h, hself⟩⟩
  rw [hloop]
  by_cases hab : a = b
  · subst hab
    simp [hself]
  · have hconverse : b ∈ s.dependents a ↔ a ∈ s.dependencies b := by
      rw [mem_dependents, mem_dependencies, and_iff_right hab]
    simp [hconverse, hab]

/-- A function that calls itself is one of its dependents and none of its dependencies. -/
theorem loop_not_converse : ∃ view, ((Store.empty none).run [.merge
      { file := "a.py", entities := [.bare "a"],
        edges := [⟨.str "a", .str "a", .reference, .backward, .one⟩] }]).snapshot.2 = .ok view ∧
    "a" ∈ view.dependents "a" ∧ "a" ∉ view.dependencies "a" := by
  have hlists : (((Store.empty none).run [.merge
      { file := "a.py", entities := [.bare "a"],
        edges := [⟨.str "a", .str "a", .reference, .backward, .one⟩] }]).snapshot.2.map
      fun view => (view.dependents "a", view.dependencies "a")) = .ok (["a"], []) := by
    decide +kernel
  obtain ⟨view, hview, hlists⟩ := map_eq_ok.1 hlists
  obtain ⟨hdependents, hdependencies⟩ := Prod.mk.inj hlists
  refine ⟨view, hview, ?_, ?_⟩
  · rw [hdependents]; exact List.mem_singleton_self _
  · rw [hdependencies]; exact List.not_mem_nil

end Snapshot

end ChangeImpact
