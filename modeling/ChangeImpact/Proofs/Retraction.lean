import ChangeImpact.Proofs.Restating

/-!
# Putting a file back

When a file is removed, the edges of other files to its entities are hidden, and so are its own edges. They
are not lost: the contributions of the other files stay as they are. So what a file contributed can be
merged again, and all edges come back. The file may have had edges that were hidden before it was removed,
because another file dropped an id. Edges of a contribution may be hidden, but the edges of a result must
have their ends, so a file with such an edge cannot be put back as it was.

* `Store.retracted`, `Backed.remove_eq`: what a removal leaves behind.
* `Retraction`: a result with what the file contributed.
* `Retraction.closed_iff`: **the file needs nothing else just if no edge of it was hidden.**
* `merge_of_shown`, `merge_of_hidden`, `merge_of_outdated`: how the merge ends.
* `merge_retracted`: **a file can be put back just if none of its edges was hidden, and then the graph is the
  same as before.**
-/

namespace ChangeImpact

open Batch

namespace Database

/-- A file with a name that can be written is deleted. -/
theorem exists_delete {db : Database} (hdb : db.Complete) {file : String}
    (hfile : requireEncodable file = .ok ()) : ∃ db', db.delete file = .ok db' := by
  obtain ⟨files, hfiles⟩ := hdb.files
  obtain ⟨entities, hentities⟩ := hdb.entities
  obtain ⟨edges, hedges⟩ := hdb.edges
  unfold delete
  rw [hfiles, hentities, hedges, hfile]
  exact ⟨_, rfl⟩

theorem requireEncodable_of_admits {c : Contribution} (h : admits c = .ok ()) :
    requireEncodable c.file = .ok () := by
  unfold admits at h
  obtain ⟨⟨⟩, hfile, -⟩ := bind_eq_ok.1 h
  exact hfile

end Database

/-- What a file contributes, as a result without a version. -/
def Contribution.again (c : Contribution) : ScanResult where
  file := c.file
  entities := c.entities
  edges := c.edges

/-- No edge of a contribution is hidden in a graph. -/
def Contribution.Shown (c : Contribution) (view : Snapshot) : Prop :=
  ∀ e ∈ c.edges, ∃ t ∈ view.edges, e = t.map .str

namespace Store

variable {s : Store} {f : String} {c : Contribution} {r : ScanResult} {view : Snapshot}

/-- The store without what a file contributed. -/
def retracted (s : Store) (f : String) (database : Option Database) : Store :=
  ({ s with database } : Store).changed (s.contributions.erase f)

theorem get?_retracted (s : Store) (f : String) (database : Option Database) (g : String) :
    (s.retracted f database).contributions.get? g = if g = f then none else s.contributions.get? g :=
  Table.get?_erase _ _ _

theorem coherent_retracted (hs : s.Coherent) (f : String) (database : Option Database) :
    (s.retracted f database).Coherent :=
  (hs.withDatabase database).drop (hs.ordered.erase f) fun _ _ => Table.get?_of_get?_erase

/-- **A file that contributes is removed,** on a database as well. -/
theorem Backed.remove_eq (hb : s.Backed) (hs : s.Coherent) (hc : s.contributions.get? f = some c) :
    ∃ database, (database = none ↔ s.database = none) ∧ (s.retracted f database).Backed ∧
      s.remove f = (s.retracted f database, .ok true) := by
  have hcontains : s.contributions.contains f = true :=
    Table.contains_iff.2 (Table.mem_keys.2 ⟨c, Table.mem_of_get?_eq_some hc⟩)
  have hbacked := hb.remove f
  unfold Store.remove at hbacked ⊢
  rw [hcontains] at hbacked ⊢
  cases hw : s.write fun db => db.delete f with
  | error fault =>
    obtain ⟨db, hdb, hdelete⟩ := write_eq_error hw
    have hadmits := hb.admitted (by rw [hdb]; simp) f c hc
    have hfile := Database.requireEncodable_of_admits hadmits
    rw [hs.file f c hc] at hfile
    obtain ⟨db', hok⟩ := Database.exists_delete (hb.sound db hdb) hfile
    rw [hok] at hdelete
    cases hdelete
  | ok written =>
    rw [hw] at hbacked
    have hnone := database_write hw
    obtain ⟨database, rfl⟩ := write_eq_ok hw
    exact ⟨database, hnone, hbacked, rfl⟩

/-! ## The same content again -/

/-- A result with what a file of a coherent store contributes, and the graph that the store shows. -/
structure Retraction (s : Store) (f : String) (c : Contribution) (r : ScanResult) (view : Snapshot) :
    Prop where
  coherent : s.Coherent
  contribution : s.contributions.get? f = some c
  findings : r.findings = c.findings
  view : s.buildSnapshot = .ok view

namespace Retraction

variable (h : Retraction s f c r view) (database : Option Database)

include h

theorem fields : r.file = f ∧ r.entities = c.entities ∧ r.edges = c.edges := by
  have hr := h.findings
  simp only [ScanResult.findings, Contribution.findings, Prod.mk.injEq] at hr
  exact ⟨hr.1.trans (h.coherent.file f c h.contribution), hr.2⟩

/-- The entities of the result are among those of the store. -/
theorem declared {e : Entity} (he : (s.retracted f database).Declared [r] e) :
    ∃ g d, s.contributions.get? g = some d ∧ e ∈ d.entities := by
  rcases he with ⟨g, d, hd, he⟩ | ⟨q, hq, he⟩
  · exact ⟨g, d, Table.get?_of_get?_erase hd, he⟩
  · obtain rfl := List.mem_singleton.1 hq
    exact ⟨f, c, h.contribution, h.fields.2.1 ▸ he⟩

/-- There is nothing to dispute about a file that is put back, if its version is newer. -/
theorem undisputed (hnewer : s.committed f < versionOf s.scans r) :
    (s.retracted f database).Undisputed [r] where
  files := List.nodup_singleton _
  fresh := List.forall_mem_singleton.2 (by rw [get?_retracted, if_pos h.fields.1])
  newer := List.forall_mem_singleton.2 (h.fields.1 ▸ hnewer)
  identity a b ha hb hid := by
    obtain ⟨g, d, hd, had⟩ := h.declared database ha
    obtain ⟨g', d', hd', hbd⟩ := h.declared database hb
    exact h.coherent.identity g g' d d' hd hd' a had b hbd hid

/-- The store and the result together declare what the store declared before. -/
theorem provides_iff {files : Set String} (hf : f ∈ files) {id : String} :
    (s.retracted f database).Provides [r] files id ↔ s.DeclaresId id := by
  obtain ⟨hfile, hentities, -⟩ := h.fields
  constructor
  · rintro (⟨g, d, hd, hid⟩ | ⟨q, hq, -, hid⟩)
    · exact ⟨g, d, Table.get?_of_get?_erase hd, hid⟩
    · obtain rfl := List.mem_singleton.1 hq
      exact ⟨f, c, h.contribution, hentities ▸ hid⟩
  · rintro ⟨g, d, hd, hid⟩
    by_cases hg : g = f
    · subst hg
      obtain rfl := Option.some.inj (hd.symm.trans h.contribution)
      exact .inr ⟨r, List.mem_singleton_self r, hfile ▸ hf, hentities ▸ hid⟩
    · exact .inl ⟨g, d, by rw [get?_retracted, if_neg hg]; exact hd, hid⟩

/-- An edge of the file is in the graph just if its ends are declared. -/
theorem shown_iff : c.Shown view ↔
    ∀ e ∈ c.edges, ∃ t : Edge String, e = t.map .str ∧ s.DeclaresId t.source ∧ s.DeclaresId t.target := by
  have hids : ∀ id, id ∈ view.ids ↔ s.DeclaresId id := fun id =>
    Snapshot.has_iff.symm.trans (h.coherent.has_snapshot h.view)
  have hmem : c ∈ s.contributions.values := h.coherent.mem_values.2 ⟨f, h.contribution⟩
  constructor
  · intro hshown e he
    obtain ⟨t, ht, rfl⟩ := hshown e he
    obtain ⟨-, hsource, htarget⟩ := (Snapshot.mem_edges_build h.view).1 ht
    exact ⟨t, rfl, (hids _).1 hsource, (hids _).1 htarget⟩
  · intro hends e he
    obtain ⟨t, rfl, hsource, htarget⟩ := hends e he
    exact ⟨t, (Snapshot.mem_edges_build h.view).2 ⟨⟨c, hmem, he⟩, (hids _).2 hsource, (hids _).2 htarget⟩,
      rfl⟩

/-- **The file needs nothing else just if no edge of it was hidden.** -/
theorem closed_iff {files : Set String} (hf : f ∈ files) :
    (s.retracted f database).Closed [r] files ↔ c.Shown view := by
  obtain ⟨hfile, -, hedges⟩ := h.fields
  rw [h.shown_iff]
  unfold Store.Closed
  simp only [List.forall_mem_singleton, h.provides_iff database hf, hedges, hfile]
  exact ⟨fun hclosed => hclosed hf, fun hends _ => hends⟩

theorem eligible (hnewer : s.committed f < versionOf s.scans r) :
    Eligible (s.retracted f database).scans r where
  newer := h.fields.1 ▸ hnewer
  entities := by
    refine exists_addEntities fun a ha b hb hid => ?_
    rw [List.nil_append, h.fields.2.1] at ha hb
    exact h.coherent.identity f f c c h.contribution h.contribution a ha b hb hid
  keys e he := by
    obtain ⟨t, rfl⟩ := h.coherent.edge_texts f c h.contribution e (h.fields.2.2 ▸ he)
    rfl

/-! ## How the merge ends -/

/-- A result that is not newer is stale. -/
theorem merge_of_outdated (hold : ¬ s.committed f < versionOf s.scans r) :
    ∃ v, (s.retracted f database).merge r =
      (s.retracted f database, .error (.merge (.stale f v (s.committed f)))) := by
  obtain ⟨hfile, -, -⟩ := h.fields
  cases hversion : r.version with
  | none => exact absurd (hfile ▸ newer_of_version_none hversion) hold
  | some v =>
    rw [versionOf_eq hversion] at hold
    exact ⟨v, merge_stale hfile hversion (not_lt.1 hold)⟩

/-- A file with an edge that was hidden is rejected for an edge. -/
theorem merge_of_hidden (hnewer : s.committed f < versionOf s.scans r) (hhidden : ¬ c.Shown view) :
    ∃ source target missing, (s.retracted f database).merge r =
      (s.retracted f database, .error (.merge (.danglingEdge source target missing))) := by
  have heligible := h.eligible database hnewer
  have hcoherent := coherent_retracted h.coherent f database
  have hundisputed := h.undisputed database hnewer
  have hpropose := propose_alone heligible
  have hcontent := h.coherent.unversioned_contentOf h.contribution h.findings
    (s.retracted f database).scans
  have hedges := (Contribution.unversioned_inj.1 hcontent).2.2
  have hconsistent := hundisputed.consistent hcoherent hpropose []
  rw [without_nil] at hconsistent
  -- an edge whose ends are not both declared is not between ids that are known in the round
  rw [h.shown_iff] at hhidden
  push Not at hhidden
  obtain ⟨e, he, hundeclared⟩ := hhidden
  have hmissing : missing? ((knownWith (s.retracted f database).contributions
      ((s.retracted f database).alone r)).map (·.1)) e ≠ none := by
    intro hnone
    obtain ⟨t, rfl, hsource, htarget⟩ := missing?_eq_none hnone
    rw [← without_nil ((s.retracted f database).alone r)] at hsource htarget
    have hnames : ∀ id, (s.retracted f database).Provides [r] {g | g ∉ ([] : List String)} id →
        s.DeclaresId id := fun id => (h.provides_iff database List.not_mem_nil).1
    exact hundeclared t rfl (hnames _ ((hundisputed.mem_names hcoherent hpropose).1 hsource))
      (hnames _ ((hundisputed.mem_names hcoherent hpropose).1 htarget))
  have hwritable : ∀ d ∈ c.edges, (d.source.isWritable && d.target.isWritable) = true := by
    intro d hd
    obtain ⟨t, rfl⟩ := h.coherent.edge_texts f c h.contribution d hd
    rfl
  obtain ⟨before, after, hsplit⟩ := List.append_of_mem he
  obtain ⟨source, target, missing, hreport⟩ := exists_report after
    (fun d hd => hwritable d (by rw [hsplit]; exact List.mem_append_left _ hd)) (hwritable e he) hmissing
  rw [← hsplit, ← hedges] at hreport
  exact ⟨source, target, missing, merge_of_dangling heligible (enroll_of_consistent _ _ hconsistent) hreport⟩

/-- If no edge was hidden, the verdict is to take the file. -/
theorem judge_of_shown (hnewer : s.committed f < versionOf s.scans r) (hshown : c.Shown view) :
    (s.retracted f database).judge [r] = .ok ([contentOf (s.retracted f database).scans r], []) := by
  obtain ⟨hfile, -, hedges⟩ := h.fields
  cases hj : (s.retracted f database).judge [r] with
  | error fault =>
    -- only an edge that is not between texts keeps a batch from its verdict
    obtain ⟨q, hq, e, he, hstops, -⟩ := judge_eq_error hj
    obtain rfl := List.mem_singleton.1 hq
    obtain ⟨t, ht⟩ := h.coherent.edge_texts f c h.contribution e (hedges ▸ he)
    exact absurd ht (hstops t)
  | ok verdict =>
    obtain ⟨accepted, rejections⟩ := verdict
    have hgreatest := (h.undisputed database hnewer).judge_greatest
      (coherent_retracted h.coherent f database) hj
    have hclosed : {f} ∈ (s.retracted f database).closedSets [r] := by
      refine ⟨fun g hg => ?_, (h.closed_iff database (Set.mem_singleton f)).2 hshown⟩
      rw [Set.mem_singleton_iff.1 hg, ← hfile]
      exact List.mem_singleton_self _
    have haccepted : f ∈ accepted.map Contribution.file := hgreatest.2 hclosed (Set.mem_singleton f)
    obtain ⟨candidates, taken, refused, rfl, hverdict⟩ := judge_eq_ok hj
    rw [← hverdict.files] at haccepted
    rcases hverdict.single with ⟨rfl, -⟩ | ⟨rfl, -, rfl⟩
    · cases haccepted
    · rw [hverdict.contents]
      rfl

/-- What the file contributed was admitted before, so it is admitted again if its version can be stored. -/
theorem admits_again (hb : s.Backed) (hdb : database = none ↔ s.database = none) :
    (s.retracted f database).admits [contentOf (s.retracted f database).scans r] =
      if database = none ∨ Database.isStorable (versionOf s.scans r) = true then .ok ()
      else .error (.overflow .storedInt) := by
  unfold Store.admits
  cases hsome : database with
  | none => exact (if_pos (.inl rfl)).symm
  | some db =>
    have hadmitted := hb.admitted (mt hdb.2 (by rw [hsome]; simp)) f c h.contribution
    have hcontent := h.coherent.unversioned_contentOf h.contribution h.findings
      (s.retracted f (some db)).scans
    have htaken : ∀ d ∈ [contentOf (s.retracted f (some db)).scans r],
        ∃ d', d.unversioned = d'.unversioned ∧ Database.admits d' = .ok () :=
      List.forall_mem_singleton.2 ⟨c, hcontent, hadmitted⟩
    rcases Database.forM_admits_again htaken with ⟨hstorable, hok⟩ | ⟨⟨d, hd, hversion⟩, hoverflow⟩
    · rw [List.forall_mem_singleton] at hstorable
      exact hok.trans (if_pos (.inr hstorable)).symm
    · obtain rfl := List.mem_singleton.1 hd
      refine hoverflow.trans (if_neg ?_).symm
      rintro (hnone | hstorable)
      · cases hnone
      · exact absurd (hstorable.symm.trans hversion) (by simp)

/-- With the file put back, all files contribute what they did before. -/
theorem commit_retracted :
    ((s.retracted f database).commit
      [contentOf (s.retracted f database).scans r]).contributions.unversioned =
        s.contributions.unversioned := by
  refine Table.Ordered.unversioned_ext ?_ h.coherent.ordered fun g => ?_
  · exact (h.coherent.ordered.erase f).insert _ _
  have hfile : (contentOf (s.retracted f database).scans r).file = f := h.fields.1
  by_cases hg : g = f
  · subst hg
    have hnodup : ([contentOf (s.retracted g database).scans r].map Contribution.file).Nodup :=
      List.nodup_singleton _
    have hget := (commit_of_mem (s.retracted g database) hnodup (List.mem_singleton_self _)).1
    rw [hfile] at hget
    rw [hget, h.contribution, Option.map_some, Option.map_some,
      h.coherent.unversioned_contentOf h.contribution h.findings]
  · have hother : g ∉ [contentOf (s.retracted f database).scans r].map Contribution.file :=
      fun hmem => hg ((List.mem_singleton.1 hmem).trans hfile)
    rw [(commit_of_not_mem _ hother).1, get?_retracted, if_neg hg]

/-- **If no edge was hidden, the file is put back,** unless the version cannot be stored. -/
theorem merge_of_shown (hb : s.Backed) (hdb : database = none ↔ s.database = none)
    (hbacked : (s.retracted f database).Backed) (hnewer : s.committed f < versionOf s.scans r)
    (hshown : c.Shown view) :
    ((database = none ∨ Database.isStorable (versionOf s.scans r) = true) ∧
      ∃ next v, (s.retracted f database).merge r = (next, .ok v) ∧ s.SameGraph next) ∨
    (¬ (database = none ∨ Database.isStorable (versionOf s.scans r) = true) ∧
      (s.retracted f database).merge r = (s.retracted f database, .error (.overflow .storedInt))) := by
  have hj := h.judge_of_shown database hnewer hshown
  have hadmits := h.admits_again database hb hdb
  by_cases hstorable : database = none ∨ Database.isStorable (versionOf s.scans r) = true
  · rw [if_pos hstorable] at hadmits
    obtain ⟨next, version, hm, hnext⟩ := mergeBatch_of_admitted hbacked.sound hj hadmits
    have hcoherent := mergeBatch_coherent (coherent_retracted h.coherent f database) [r]
    rw [hm] at hcoherent
    refine .inl ⟨hstorable, next, next.committed r.file, ?_, h.coherent.sameGraph hcoherent ?_⟩
    · unfold merge
      rw [hm]
    · rw [hnext.contributions]
      exact (h.commit_retracted database).symm
  · rw [if_neg hstorable] at hadmits
    refine .inr ⟨hstorable, ?_⟩
    unfold merge
    rw [mergeBatch_of_refused hbacked.sound hj hadmits]

end Retraction

end Store

end ChangeImpact
