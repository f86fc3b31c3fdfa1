import ChangeImpact.Proofs.Restating
import ChangeImpact.Proofs.Views

/-!
# The footprint of an update

A merge or a removal replaces what one file contributes. A snapshot is put together from all files, so the
update may show elsewhere too: an edge of another file is hidden when the last declaration of one of its
ends goes, and shown again when that comes back. Nothing else of the other files changes.

* `SameBeyond`: two stores that differ in one file at most.
* `SameBeyond.ownersOfId_eq`, `SameBeyond.entity?_eq`: an id that the file declares in neither store is
  shown alike.
* `SameBeyond.exists_exclusive_end`: **an edge of another file is hidden only together with an end that the
  file alone declared.**
* `footprint_of_update`: both, for every merge into and every removal from a store that can be reached.
-/

namespace ChangeImpact.Store

variable {s t : Store} {view later : Snapshot} {f g id : String} {c : Contribution}

/-! ## What a snapshot shows of one id and of one edge -/

theorem Shows.mem_ids_of_fileDeclares (hv : s.Shows view) (h : s.FileDeclares g id) : id ∈ view.ids := by
  obtain ⟨c, hc, he⟩ := h
  exact (hv.mem_ids id).2 ⟨g, c, hc, he⟩

/-- **The entity of an id** is the one that its first owner declares. -/
theorem Shows.entity?_eq_some (hv : s.Shows view) (hs : s.Coherent) {e : Entity} :
    view.entity? id = some e ↔ ∃ file others c, view.ownersOfId id = file :: others ∧
      s.contributions.get? file = some c ∧ e ∈ c.entities ∧ e.id = id := by
  have hfound : ∀ e, view.entity? id = some e → ∃ file others c,
      view.ownersOfId id = file :: others ∧ s.contributions.get? file = some c ∧ e ∈ c.entities ∧
        e.id = id := by
    intro e he
    obtain rfl : e.id = id := by simpa using List.find?_some he
    obtain ⟨file, others, c, howners, hc, hmem⟩ := hv.definition e (List.mem_of_find?_eq_some he)
    exact ⟨file, others, c, howners, hc, hmem, rfl⟩
  refine ⟨hfound e, ?_⟩
  rintro ⟨file, others, c, howners, hc, hmem, hid⟩
  have hhas : view.has id = true :=
    Snapshot.has_iff.2 (hv.mem_ids_of_fileDeclares ⟨c, hc, e, hmem, hid⟩)
  obtain ⟨e', he'⟩ := Option.isSome_iff_exists.1 hhas
  obtain ⟨file', others', c', howners', hc', hmem', hid'⟩ := hfound e' he'
  -- the first owner is one file, and it declares the id once
  obtain ⟨rfl, rfl⟩ := List.cons.inj (howners'.symm.trans howners)
  obtain rfl := Option.some.inj (hc'.symm.trans hc)
  obtain rfl : e' = e := List.inj_on_of_nodup_map (hs.entity_ids _ _ hc) hmem' hmem (hid'.trans hid.symm)
  exact he'

/-- An edge of a file is shown when both of its ends are. -/
theorem Coherent.mem_edges_iff (hs : s.Coherent) (hview : s.buildSnapshot = .ok view)
    (hc : s.contributions.get? g = some c) {e : Edge String} (he : e.map .str ∈ c.edges) :
    e ∈ view.edges ↔ e.source ∈ view.ids ∧ e.target ∈ view.ids := by
  rw [Snapshot.mem_edges_build hview]
  exact and_iff_right ⟨c, hs.mem_values.2 ⟨g, hc⟩, he⟩

/-! ## Stores that differ in one file -/

/-- All files but one have the same contribution and the same committed version in two stores. -/
structure SameBeyond (f : String) (s t : Store) : Prop where
  contributions : ∀ g, g ≠ f → t.contributions.get? g = s.contributions.get? g
  versions : ∀ g, g ≠ f → t.versions.get? g = s.versions.get? g

namespace SameBeyond

theorem refl (f : String) (s : Store) : SameBeyond f s s := ⟨fun _ _ => rfl, fun _ _ => rfl⟩

theorem symm (h : SameBeyond f s t) : SameBeyond f t s :=
  ⟨fun g hg => (h.contributions g hg).symm, fun g hg => (h.versions g hg).symm⟩

theorem fileDeclares_iff (h : SameBeyond f s t) (hg : g ≠ f) :
    t.FileDeclares g id ↔ s.FileDeclares g id := by
  unfold FileDeclares
  rw [h.contributions g hg]

/-- An id that the file declares in neither store has the same owners in both. -/
theorem ownersOfId_eq (h : SameBeyond f s t) (hv : s.Shows view) (hl : t.Shows later)
    (hid : ¬ s.FileDeclares f id) (hid' : ¬ t.FileDeclares f id) :
    later.ownersOfId id = view.ownersOfId id := by
  refine (hl.owners_ascending id).eq_of_mem_iff (hv.owners_ascending id) fun g => ?_
  rw [hl.mem_owners, hv.mem_owners]
  by_cases hg : g = f
  · subst hg
    exact iff_of_false hid' hid
  · exact h.fileDeclares_iff hg

/-- An id that the file declares in neither store is the same entity in both, or in neither. -/
theorem entity?_eq (h : SameBeyond f s t) (hs : s.Coherent) (ht : t.Coherent) (hv : s.Shows view)
    (hl : t.Shows later) (hid : ¬ s.FileDeclares f id) (hid' : ¬ t.FileDeclares f id) :
    later.entity? id = view.entity? id := by
  ext e
  rw [hl.entity?_eq_some ht, hv.entity?_eq_some hs, h.ownersOfId_eq hv hl hid hid']
  -- the first owner is not the file, so its contribution is the same
  refine exists_congr fun g => exists_congr fun others => exists_congr fun c =>
    and_congr_right fun howners => ?_
  have hg : g ≠ f := by
    rintro rfl
    exact hid ((hv.mem_owners id g).1 (howners ▸ List.mem_cons_self))
  rw [h.contributions g hg]

/-- An id that is gone had no owner but the file. -/
theorem ownersOfId_eq_singleton (h : SameBeyond f s t) (hv : s.Shows view) (hl : t.Shows later)
    (hid : id ∈ view.ids) (hgone : id ∉ later.ids) : view.ownersOfId id = [f] := by
  -- another owner would declare it still
  have howner : ∀ g, s.FileDeclares g id → g = f := by
    intro g hg
    by_contra hne
    exact hgone (hl.mem_ids_of_fileDeclares ((h.fileDeclares_iff hne).2 hg))
  obtain ⟨g, c, hc, he⟩ := (hv.mem_ids id).1 hid
  obtain rfl := howner g ⟨c, hc, he⟩
  refine (hv.owners_ascending id).eq_of_mem_iff (List.pairwise_singleton _ _) fun g' => ?_
  rw [hv.mem_owners, List.mem_singleton]
  constructor
  · exact howner g'
  · rintro rfl
    exact ⟨c, hc, he⟩

/-- **An edge of another file is hidden** only together with one of its ends, and the file alone declared
that end. -/
theorem exists_exclusive_end (h : SameBeyond f s t) (hs : s.Coherent) (ht : t.Coherent)
    (hview : s.buildSnapshot = .ok view) (hlater : t.buildSnapshot = .ok later) (hg : g ≠ f)
    (hc : s.contributions.get? g = some c) {e : Edge String} (he : e.map .str ∈ c.edges)
    (hshown : e ∈ view.edges) (hhidden : e ∉ later.edges) :
    ∃ x, (x = e.source ∨ x = e.target) ∧ view.ownersOfId x = [f] ∧ x ∉ later.ids := by
  have hv := hs.shows hview
  have hl := ht.shows hlater
  obtain ⟨hsource, htarget⟩ := (hs.mem_edges_iff hview hc he).1 hshown
  have hc' : t.contributions.get? g = some c := (h.contributions g hg).trans hc
  by_cases hs' : e.source ∈ later.ids
  · have ht' : e.target ∉ later.ids := fun ht' =>
      hhidden ((ht.mem_edges_iff hlater hc' he).2 ⟨hs', ht'⟩)
    exact ⟨e.target, .inr rfl, h.ownersOfId_eq_singleton hv hl htarget ht', ht'⟩
  · exact ⟨e.source, .inl rfl, h.ownersOfId_eq_singleton hv hl hsource hs', hs'⟩

end SameBeyond

/-! ## Updates -/

theorem sameBeyond_merge (s : Store) (r : ScanResult) : SameBeyond r.file s (s.merge r).1 := by
  rcases merge_cases s r with ⟨fault, hm⟩ | ⟨hfiles, hm⟩
  · rw [hm]
    exact .refl r.file s
  · rw [hm]
    rcases mergeBatch_cases s [r] with ⟨fault, hb⟩ | ⟨_, _, _, -, hb⟩ |
      ⟨database, candidates, _, _, rejections, -, -, hb⟩
    · rw [hb]
      exact .refl r.file s
    · rw [hb]
      exact .refl r.file s
    · -- what is committed is the contribution of the one file that was merged
      rw [hb] at hfiles ⊢
      have hother : ∀ g, g ≠ r.file → g ∉ (Batch.contributionsOf candidates).map Contribution.file := by
        intro g hg hmem
        rw [show (Batch.contributionsOf candidates).map Contribution.file = [r.file] from hfiles] at hmem
        exact hg (List.mem_singleton.1 hmem)
      exact ⟨fun g hg => (commit_of_not_mem _ (hother g hg)).1,
        fun g hg => (commit_of_not_mem _ (hother g hg)).2⟩

theorem sameBeyond_remove (s : Store) (f : String) : SameBeyond f s (s.remove f).1 := by
  rcases remove_cases s f with hm | ⟨database, hm⟩
  · rw [hm]
    exact .refl f s
  · rw [hm]
    refine ⟨fun g hg => ?_, fun _ _ => rfl⟩
    exact (Table.get?_erase s.contributions f g).trans (if_neg hg)

/-- A merge that succeeds brings in its result. -/
theorem enters_of_merge {r : ScanResult} {version : Int} (h : (s.merge r).2 = .ok version) :
    Enters s r (s.merge r).1 ∧ (s.merge r).1.committed r.file = version := by
  have hmerged : r.file ∈ s.merged (.merge r) := by
    simp only [merged, h, List.mem_singleton]
  rcases merge_cases s r with ⟨fault, hm⟩ | ⟨-, hm⟩
  · rw [hm] at h
    cases h
  rcases merge_file s r r.file with ⟨hnot, -⟩ | ⟨-, x, hx, -, henters⟩
  · exact absurd hmerged hnot
  · obtain rfl := List.mem_singleton.1 hx
    refine ⟨henters, ?_⟩
    rw [hm] at h ⊢
    exact Except.ok.inj h

/-- **What an update of one file can change of a store and its snapshot.** -/
structure Footprint (f : String) (s next : Store) : Prop where
  beyond : SameBeyond f s next
  /-- Both stores have a snapshot, and the two differ only where the file declares something. -/
  shown : ∃ view later, s.snapshot.2 = .ok view ∧ next.snapshot.2 = .ok later ∧
    (∀ id, ¬ s.FileDeclares f id → ¬ next.FileDeclares f id →
      later.entity? id = view.entity? id ∧ later.ownersOfId id = view.ownersOfId id) ∧
    (∀ g c, g ≠ f → s.contributions.get? g = some c → ∀ e ∈ c.edges, ∃ u : Edge String,
      e = u.map .str ∧
      (u ∈ view.edges → u ∉ later.edges →
        ∃ x, (x = u.source ∨ x = u.target) ∧ view.ownersOfId x = [f] ∧ x ∉ later.ids) ∧
      (u ∉ view.edges → u ∈ later.edges →
        ∃ x, (x = u.source ∨ x = u.target) ∧ later.ownersOfId x = [f] ∧ x ∉ view.ids))

theorem SameBeyond.footprint (h : SameBeyond f s t) (hs : s.Coherent) (ht : t.Coherent) :
    Footprint f s t := by
  obtain ⟨view, hview, hbuild⟩ := hs.exists_snapshot
  obtain ⟨later, hlater, hbuild'⟩ := ht.exists_snapshot
  have hv := hs.shows hbuild
  have hl := ht.shows hbuild'
  refine ⟨h, view, later, hview, hlater, fun id hid hid' => ?_, fun g c hg hc e he => ?_⟩
  · exact ⟨h.entity?_eq hs ht hv hl hid hid', h.ownersOfId_eq hv hl hid hid'⟩
  · obtain ⟨u, rfl⟩ := hs.edge_texts g c hc e he
    have hc' : t.contributions.get? g = some c := (h.contributions g hg).trans hc
    refine ⟨u, rfl, fun hshown hhidden => ?_, fun hhidden hshown => ?_⟩
    · exact h.exists_exclusive_end hs ht hbuild hbuild' hg hc he hshown hhidden
    · exact h.symm.exists_exclusive_end ht hs hbuild' hbuild hg hc' he hshown hhidden

/-- **An update of one file stays in its footprint.** In every store that can be reached, merging a result
or removing a file leaves the contribution and the committed version of every other file. An id that the
file declares neither before nor after keeps its presence, its definition and its owners. An edge of
another file is hidden only if the file was the one owner of an end that is gone, and shown again only if
it is now the one owner of an end that was missing. A merge that succeeds puts its result in place of what
the file contributed before, and a removal that succeeds leaves it without a contribution. -/
theorem footprint_of_update (database : Option Database) (ops : List Op) :
    (∀ r, Footprint r.file ((empty database).run ops) (((empty database).run ops).merge r).1 ∧
      ∀ version, (((empty database).run ops).merge r).2 = .ok version →
        Enters ((empty database).run ops) r (((empty database).run ops).merge r).1 ∧
        (((empty database).run ops).merge r).1.committed r.file = version) ∧
    (∀ f, Footprint f ((empty database).run ops) (((empty database).run ops).remove f).1 ∧
      ∀ found, (((empty database).run ops).remove f).2 = .ok found →
        (((empty database).run ops).remove f).1.contributions.get? f = none) := by
  have hs := run_coherent database ops
  set s := (empty database).run ops
  refine ⟨fun r => ⟨(sameBeyond_merge s r).footprint hs (merge_coherent hs r), fun _ => enters_of_merge⟩,
    fun f => ⟨(sameBeyond_remove s f).footprint hs (remove_coherent hs f), fun found hfound => ?_⟩⟩
  unfold remove at hfound ⊢
  split
  · rename_i habsent
    rw [Bool.not_eq_true', ← Bool.not_eq_true, Table.contains_iff] at habsent
    exact Table.get?_eq_none_iff.2 habsent
  · rename_i hpresent
    rw [if_neg hpresent] at hfound
    split at hfound
    · cases hfound
    · exact (Table.get?_erase _ f f).trans (if_pos rfl)

/-- A file takes back the one declaration of `y`, or is removed, while the edge of another file ends
there. -/
theorem footprint_of_lost_end :
    (((empty none).run linkedOps).merge { file := "z" }).2 = .ok 2 ∧
    Footprint "z" ((empty none).run linkedOps) (((empty none).run linkedOps).merge { file := "z" }).1 ∧
    (((empty none).run linkedOps).merge { file := "z" }).1.committed "z" = 2 ∧
    (((empty none).run linkedOps).remove "z").2 = .ok true ∧
    Footprint "z" ((empty none).run linkedOps) (((empty none).run linkedOps).remove "z").1 ∧
    (((empty none).run linkedOps).remove "z").1.contributions.get? "z" = none := by
  have hmerged : (((empty none).run linkedOps).merge { file := "z" }).2 = .ok 2 := by decide +kernel
  have hremoved : (((empty none).run linkedOps).remove "z").2 = .ok true := by decide +kernel
  obtain ⟨hmerge, hremove⟩ := footprint_of_update none linkedOps
  obtain ⟨hreplaced, henters⟩ := hmerge { file := "z" }
  obtain ⟨hretracted, hgone⟩ := hremove "z"
  exact ⟨hmerged, hreplaced, (henters 2 hmerged).2, hremoved, hretracted, hgone true hremoved⟩

end ChangeImpact.Store
