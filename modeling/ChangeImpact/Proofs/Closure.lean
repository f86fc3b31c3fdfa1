import ChangeImpact.Proofs.Blame

/-!
# The files that a batch accepts

A batch for new files, in which no id has two identities, loses files for one reason only: an edge with
an end that nobody declares. Leaving such a file out can leave other edges without an end, so files are
left out round by round. What stays does not depend on the order of the rounds: it is the largest set of
files whose edges are between ids that the store or files of the set declare.

* `propose_takes`: all results become candidates.
* `Closed`: **a set of files that needs no other file of the batch.**
* `round_spares`: a round rejects no file of a closed set, and `settle_keeps`: so no round does.
* `mergeBatch_greatest`: **a batch accepts the largest closed set of files.**
-/

namespace ChangeImpact

/-- Only a text is equal to a text. -/
theorem Value.eq_of_same_str {a : String} {x : Value} (h : (Value.str a == x) = true) : x = .str a := by
  cases x with
  | str b =>
    have hab : a = b := by simpa [BEq.beq, Value.same] using h
    rw [hab]
  | _ => cases h

/-- An edge with the key of an edge between texts is between the same texts. -/
theorem exists_str_of_sameKey {t : Edge String} {e : Edge Value}
    (h : ScanResult.sameKey (t.map .str) e = true) :
    ∃ u : Edge String, e = u.map .str ∧ u.source = t.source ∧ u.target = t.target := by
  have hends : (Value.str t.source == e.source) = true ∧ (Value.str t.target == e.target) = true := by
    unfold ScanResult.sameKey at h
    simp only [BEq.beq, instBEqEdgeKey.beq, Bool.and_eq_true] at h
    exact ⟨h.1, h.2.1⟩
  refine ⟨⟨t.source, t.target, e.dimension, e.direction, e.confidence⟩, ?_, rfl, rfl⟩
  rw [Edge.map, ← Value.eq_of_same_str hends.1, ← Value.eq_of_same_str hends.2]

/-- What holds of the ends of all kept edges holds of the ends of all edges. -/
theorem ends_of_kept {P : String → Prop} {es : List (Edge Value)}
    (h : ∀ d ∈ keepFirst ScanResult.sameKey es, ∃ t : Edge String, d = t.map .str ∧
      P t.source ∧ P t.target) {e : Edge Value} (he : e ∈ es) :
    ∃ t : Edge String, e = t.map .str ∧ P t.source ∧ P t.target := by
  rcases mem_keepFirst_or ScanResult.sameKey he with hd | ⟨d, hd, hkey⟩
  · exact h e hd
  · obtain ⟨t, rfl, hsource, htarget⟩ := h d hd
    obtain ⟨u, rfl, hus, hut⟩ := exists_str_of_sameKey hkey
    exact ⟨u, rfl, hus ▸ hsource, hut ▸ htarget⟩

namespace Batch

variable {v : Versions} {p p' : Proposal} {r : ScanResult} {current : Table Contribution}

/-! ## Proposals without rejections -/

theorem exists_addEntities {file : String} {kept es : List Entity}
    (h : ∀ a ∈ kept ++ es, ∀ b ∈ kept ++ es, a.id = b.id → a.identity = b.identity) :
    ∃ out, addEntities file kept es = .ok out := by
  fun_induction addEntities file kept es with
  | case1 kept => exact ⟨kept, rfl⟩
  | case2 kept e es hk ih => exact ih (by simpa using h)
  | case3 kept e es k hk hid ih =>
    have hsub : ∀ a ∈ kept ++ es, a ∈ kept ++ e :: es := by
      intro a ha
      rcases List.mem_append.1 ha with ha | ha
      · exact List.mem_append_left _ ha
      · exact List.mem_append_right _ (List.mem_cons_of_mem _ ha)
    exact ih fun a ha b hb => h a (hsub a ha) b (hsub b hb)
  | case4 kept e es k hk hid =>
    have hke : k.id = e.id := by simpa using List.find?_some hk
    have hkept : k ∈ kept ++ e :: es := List.mem_append_left _ (List.mem_of_find?_eq_some hk)
    exact absurd (h k hkept e (by simp) hke) hid

/-- One more result for a new file is taken. -/
theorem Accounts.takes {taken : List ScanResult} (h : Accounts v taken [] p)
    (hfile : r.file ∉ taken.map ScanResult.file) (hnewer : v.committed r.file < versionOf v r)
    (hentities : ∃ es, entitiesOf r = .ok es) (hp : Batch.proposeOne v p r = .ok p') :
    Accounts v (r :: taken) [] p' := by
  have hkeys : r.file ∉ p.candidates.keys := by
    have hperm : p.candidates.keys.Perm (taken.map ScanResult.file) := by
      have := h.candidates.map Prod.fst
      rwa [List.map_map] at this
    rwa [hperm.mem_iff]
  have hsup := supersede_of_not_mem hkeys (versionOf v r)
  obtain ⟨es, hes⟩ := hentities
  rcases proposeOne_cases v p r with ⟨hle, -⟩ | ⟨-, cause, hcause, -⟩ | ⟨-, -, hk, hc⟩ | ⟨f, hc, -⟩
  · omega
  · rw [hes] at hcause; cases hcause
  · rw [hc, hsup] at hp
    rw [← Except.ok.inj hp]
    exact h.accept ⟨hnewer, ⟨es, hes⟩, hk⟩ hkeys
  · rw [hc] at hp; cases hp

/-- **All results become candidates** if they are for different files, newer than the graph, and declare
no id under two identities. -/
theorem propose_takes {results : List ScanResult} (hfiles : (results.map ScanResult.file).Nodup)
    (hresults : ∀ r ∈ results, v.committed r.file < versionOf v r ∧ ∃ es, entitiesOf r = .ok es)
    (hp : propose v results = .ok p) :
    p.rejections = [] ∧ p.candidates.Perm (results.map fun r => (r.file, candidateOf v r)) := by
  obtain ⟨done, hperm, taken, htaken, hacc⟩ := propose_keeps
    (fun done p => ∃ taken, taken.Perm done ∧ Accounts v taken [] p)
    (fun done q r q' hr hfile ⟨taken, hdone, hacc⟩ hone => by
      obtain ⟨hnewer, hentities⟩ := hresults r hr
      rw [← (hdone.map _).mem_iff] at hfile
      exact ⟨r :: taken, (hdone.cons r).trans (@List.perm_append_comm _ [r] done),
        hacc.takes hfile hnewer hentities hone⟩)
    hfiles ⟨[], List.Perm.refl _, accounts_empty v⟩ hp
  refine ⟨?_, hacc.candidates.trans ((htaken.trans hperm).map _)⟩
  simpa using hacc.rejections.eq_nil

/-! ## Rounds -/

/-- Nobody is in conflict if no id is known under two identities in the end. -/
theorem enroll_of_consistent (ids : Known) (cs : List Contribution)
    (h : Consistent (ids ++ cs.flatMap known)) : (enroll ids cs).2 = [] := by
  fun_induction enroll ids cs with
  | case1 ids => rfl
  | case2 ids c cs cause hc all misfits heq ih =>
    obtain ⟨e, he, identity, owner, hmem, hne, -⟩ := conflict?_eq_some hc
    have hknown : (e.id, e.identity, c.file) ∈ ids ++ (c :: cs).flatMap known := by
      rw [List.flatMap_cons]
      exact List.mem_append_right _ (List.mem_append_left _ (mem_known.2 ⟨e, he, rfl⟩))
    exact absurd (h _ (List.mem_append_left _ hmem) _ hknown rfl) hne
  | case3 ids c cs hc ih =>
    apply ih
    rwa [List.append_assoc, ← List.flatMap_cons]

/-- What every round keeps, all rounds keep. -/
theorem settle_keeps (P : Table Candidate → Prop)
    (hround : ∀ accepted, P accepted → P (without accepted ((round current accepted).map Misfit.file)))
    {candidates : Table Candidate} (h : P candidates) : P (settle current candidates).1 := by
  have hall : ∀ fuel accepted misfits, P accepted → P (settleFrom current fuel accepted misfits).1 := by
    intro fuel
    induction fuel with
    | zero => exact fun _ _ h => h
    | succ fuel ih =>
      intro accepted misfits h
      rw [settleFrom]
      split
      · exact h
      · exact ih _ _ (hround accepted h)
  exact hall _ _ _ h

end Batch

namespace Store

open Batch

variable {s : Store} {results : List ScanResult} {p : Proposal}

/-- Some file of the store declares an id. -/
def DeclaresId (s : Store) (id : String) : Prop :=
  ∃ f c, s.contributions.get? f = some c ∧ ∃ e ∈ c.entities, e.id = id

/-- The store declares an id, or a result for one of some files does. -/
def Provides (s : Store) (results : List ScanResult) (files : Set String) (id : String) : Prop :=
  s.DeclaresId id ∨ ∃ r ∈ results, r.file ∈ files ∧ ∃ e ∈ r.entities, e.id = id

/-- **Closed sets of files:** every edge of every result for one of the files is between ids that the
store or such results declare. -/
def Closed (s : Store) (results : List ScanResult) (files : Set String) : Prop :=
  ∀ r ∈ results, r.file ∈ files → ∀ e ∈ r.edges, ∃ t : Edge String, e = t.map .str ∧
    s.Provides results files t.source ∧ s.Provides results files t.target

/-- The store or a result declares an entity. -/
def Declared (s : Store) (results : List ScanResult) (e : Entity) : Prop :=
  (∃ f c, s.contributions.get? f = some c ∧ e ∈ c.entities) ∨ ∃ r ∈ results, e ∈ r.entities

/-- A batch for different files that are new to the store, none of them outdated, in which no id has two
identities: not in a file, not in two files, and not in a file and the store. -/
structure Undisputed (s : Store) (results : List ScanResult) : Prop where
  files : (results.map ScanResult.file).Nodup
  fresh : ∀ r ∈ results, s.contributions.get? r.file = none
  newer : ∀ r ∈ results, s.committed r.file < versionOf s.scans r
  identity : ∀ a b, s.Declared results a → s.Declared results b → a.id = b.id → a.identity = b.identity

namespace Undisputed

/-- All results are candidates. -/
theorem proposed (h : s.Undisputed results) (hp : propose s.scans results = .ok p) :
    p.rejections = [] ∧ p.candidates.Perm (results.map fun r => (r.file, candidateOf s.scans r)) := by
  refine propose_takes h.files (fun r hr => ⟨h.newer r hr, exists_addEntities ?_⟩) hp
  intro a ha b hb
  exact h.identity a b (.inr ⟨r, hr, by simpa using ha⟩) (.inr ⟨r, hr, by simpa using hb⟩)

/-- The candidates that are left without some files. -/
theorem mem_left (h : s.Undisputed results) (hp : propose s.scans results = .ok p) {out : List String}
    {c : Contribution} : c ∈ contributionsOf (without p.candidates out) ↔
      ∃ r ∈ results, r.file ∉ out ∧ c = contentOf s.scans r := by
  unfold contributionsOf Table.values
  rw [List.map_map, List.mem_map]
  constructor
  · rintro ⟨entry, hentry, rfl⟩
    obtain ⟨hmem, hout⟩ := mem_without.1 hentry
    obtain ⟨r, hr, rfl⟩ := List.mem_map.1 ((h.proposed hp).2.mem_iff.1 hmem)
    exact ⟨r, hr, hout, rfl⟩
  · rintro ⟨r, hr, hout, rfl⟩
    refine ⟨(r.file, candidateOf s.scans r), mem_without.2 ⟨?_, hout⟩, rfl⟩
    exact (h.proposed hp).2.mem_iff.2 (List.mem_map.2 ⟨r, hr, rfl⟩)

/-- A file of the store has no candidate. -/
theorem not_candidate (h : s.Undisputed results) (hp : propose s.scans results = .ok p)
    {out : List String} {f : String} {c : Contribution} (hc : s.contributions.get? f = some c) :
    f ∉ (without p.candidates out).keys := by
  intro hkey
  obtain ⟨c', hc'⟩ := Table.mem_keys.1 hkey
  obtain ⟨r, hr, heq⟩ := List.mem_map.1 ((h.proposed hp).2.mem_iff.1 (mem_without.1 hc').1)
  rw [← (Prod.mk.inj heq).1, h.fresh r hr] at hc
  cases hc

/-- What is known in a round is what the store and the results that are left declare. -/
theorem mem_knownWith (h : s.Undisputed results) (hs : s.Coherent)
    (hp : propose s.scans results = .ok p) {out : List String} {a : String × Identity × String} :
    a ∈ knownWith s.contributions (without p.candidates out) ↔
      (∃ f c, s.contributions.get? f = some c ∧ ∃ e ∈ c.entities, (e.id, e.identity, c.file) = a) ∨
        ∃ r ∈ results, r.file ∉ out ∧
          ∃ e ∈ (contentOf s.scans r).entities, (e.id, e.identity, r.file) = a := by
  unfold knownWith
  rw [List.mem_append, mem_background, List.mem_flatMap]
  constructor
  · rintro (⟨x, hx, -, hentity⟩ | ⟨c, hc, ha⟩)
    · exact .inl ⟨x.1, x.2, hs.ordered.get?_eq_some_iff.2 hx, hentity⟩
    · obtain ⟨r, hr, hout, rfl⟩ := (h.mem_left hp).1 hc
      exact .inr ⟨r, hr, hout, mem_known.1 ha⟩
  · rintro (⟨f, c, hc, hentity⟩ | ⟨r, hr, hout, hentity⟩)
    · exact .inl ⟨(f, c), Table.mem_of_get?_eq_some hc, h.not_candidate hp hc, hentity⟩
    · exact .inr ⟨_, (h.mem_left hp).2 ⟨r, hr, hout, rfl⟩, mem_known.2 hentity⟩

/-- The ids known in a round are those that the store and the files that are left provide. -/
theorem mem_names (h : s.Undisputed results) (hs : s.Coherent) (hp : propose s.scans results = .ok p)
    {out : List String} {id : String} :
    id ∈ (knownWith s.contributions (without p.candidates out)).map (·.1) ↔
      s.Provides results {f | f ∉ out} id := by
  rw [List.mem_map]
  constructor
  · rintro ⟨a, ha, rfl⟩
    rcases (h.mem_knownWith hs hp).1 ha with ⟨f, c, hc, e, he, rfl⟩ | ⟨r, hr, hout, e, he, rfl⟩
    · exact .inl ⟨f, c, hc, e, he, rfl⟩
    · exact .inr ⟨r, hr, hout, e, mem_of_mem_keepFirst he, rfl⟩
  · rintro (⟨f, c, hc, e, he, rfl⟩ | ⟨r, hr, hout, e, he, rfl⟩)
    · exact ⟨_, (h.mem_knownWith hs hp).2 (.inl ⟨f, c, hc, e, he, rfl⟩), rfl⟩
    · -- the id is declared by the first entity that has it
      have hid : e.id ∈ (contentOf s.scans r).entities.map Entity.id :=
        (mem_map_keepFirst Entity.id r.entities).2 (List.mem_map_of_mem he)
      obtain ⟨e', he', hid'⟩ := List.mem_map.1 hid
      exact ⟨_, (h.mem_knownWith hs hp).2 (.inr ⟨r, hr, hout, e', he', rfl⟩), hid'⟩

/-- No round finds a conflict. -/
theorem consistent (h : s.Undisputed results) (hs : s.Coherent) (hp : propose s.scans results = .ok p)
    (out : List String) : Consistent (knownWith s.contributions (without p.candidates out)) := by
  have hdeclared : ∀ a ∈ knownWith s.contributions (without p.candidates out),
      ∃ e, s.Declared results e ∧ a.1 = e.id ∧ a.2.1 = e.identity := by
    intro a ha
    rcases (h.mem_knownWith hs hp).1 ha with ⟨f, c, hc, e, he, rfl⟩ | ⟨r, hr, -, e, he, rfl⟩
    · exact ⟨e, .inl ⟨f, c, hc, he⟩, rfl, rfl⟩
    · exact ⟨e, .inr ⟨r, hr, mem_of_mem_keepFirst he⟩, rfl, rfl⟩
  intro a ha b hb hab
  obtain ⟨d, hd, haid, haidentity⟩ := hdeclared a ha
  obtain ⟨e, he, hbid, hbidentity⟩ := hdeclared b hb
  rw [haidentity, hbidentity]
  exact h.identity d e hd he (haid.symm.trans (hab.trans hbid))

/-- **A round spares closed sets** that are whole when it begins. -/
theorem round_spares (h : s.Undisputed results) (hs : s.Coherent) (hp : propose s.scans results = .ok p)
    {files : Set String} (hclosed : s.Closed results files) {out : List String}
    (hout : ∀ f ∈ out, f ∉ files) {m : Misfit}
    (hm : m ∈ round s.contributions (without p.candidates out)) : m.file ∉ files := by
  intro hfile
  rcases mem_round hm with hm | ⟨c, hc, hmfile, hdangling⟩
  · have hnone : (enrolled s.contributions (without p.candidates out)).2 = [] :=
      enroll_of_consistent _ _ (h.consistent hs hp out)
    rw [hnone] at hm
    cases hm
  · obtain ⟨r, hr, -, rfl⟩ := (h.mem_left hp).1 hc
    obtain ⟨before, e, after, x, hedges, hx, -, -⟩ := dangling?_eq_some hdangling
    have he : e ∈ r.edges := by
      have hmem : e ∈ (contentOf s.scans r).edges := by rw [hedges]; simp
      exact mem_of_mem_keepFirst hmem
    have hrfile : r.file ∈ files := by rwa [hmfile] at hfile
    obtain ⟨t, rfl, hsource, htarget⟩ := hclosed r hr hrfile e he
    -- what the closed set provides is known, since none of its files is left out
    have hnamed : ∀ id, s.Provides results files id →
        isNamed ((knownWith s.contributions (without p.candidates out)).map (·.1)) (.str id) = true := by
      intro id hid
      refine isNamed_iff.2 ⟨id, rfl, (h.mem_names hs hp).2 ?_⟩
      rcases hid with hid | ⟨q, hq, hqfile, hid⟩
      · exact .inl hid
      · exact .inr ⟨q, hq, fun hmem => hout _ hmem hqfile, hid⟩
    obtain ⟨hend, hmissing⟩ := missing?_eq_some hx
    rcases hend with rfl | rfl
    · rw [Edge.map, hnamed _ hsource] at hmissing; cases hmissing
    · rw [Edge.map, hnamed _ htarget] at hmissing; cases hmissing

/-- **After the last round the files that are left are a closed set.** It is about the edges that are
kept, the first of each key, and the others are between the same ids. -/
theorem closed_of_round_nil (h : s.Undisputed results) (hs : s.Coherent)
    (hp : propose s.scans results = .ok p) {out : List String}
    (hround : round s.contributions (without p.candidates out) = []) :
    s.Closed results {f | f ∉ out} := by
  intro r hr hout e he
  refine ends_of_kept (fun d hd => ?_) he
  obtain ⟨t, ht, hsource, htarget⟩ :=
    (round_eq_nil hround).2 _ ((h.mem_left hp).2 ⟨r, hr, hout, rfl⟩) d hd
  exact ⟨t, ht, (h.mem_names hs hp).1 hsource, (h.mem_names hs hp).1 htarget⟩

end Undisputed

/-- The sets of files of a batch that are closed. -/
def closedSets (s : Store) (results : List ScanResult) : Set (Set String) :=
  {files | (∀ f ∈ files, f ∈ results.map ScanResult.file) ∧ s.Closed results files}

/-- A set is closed if it has the same files of the batch as a closed one. -/
theorem Closed.congr {files files' : Set String} (h : s.Closed results files)
    (heq : ∀ r ∈ results, r.file ∈ files ↔ r.file ∈ files') : s.Closed results files' := by
  have hprovides : ∀ id, s.Provides results files id → s.Provides results files' id := by
    rintro id (hid | ⟨r, hr, hfile, hid⟩)
    · exact .inl hid
    · exact .inr ⟨r, hr, (heq r hr).1 hfile, hid⟩
  intro r hr hfile e he
  obtain ⟨t, ht, hsource, htarget⟩ := h r hr ((heq r hr).2 hfile) e he
  exact ⟨t, ht, hprovides _ hsource, hprovides _ htarget⟩

/-- **The verdict on an undisputed batch** accepts the largest closed set. -/
theorem Undisputed.judge_greatest (h : s.Undisputed results) (hs : s.Coherent)
    {accepted : List Contribution} {rejections : List Rejection}
    (hj : s.judge results = .ok (accepted, rejections)) :
    IsGreatest (s.closedSets results) {f | f ∈ accepted.map Contribution.file} := by
  unfold judge at hj
  obtain ⟨p, hp, hj⟩ := bind_eq_ok.1 hj
  obtain ⟨_, -, hj⟩ := bind_eq_ok.1 hj
  have haccepted : contributionsOf (settle s.contributions p.candidates).1 = accepted :=
    (Prod.mk.inj (Except.ok.inj hj)).1
  -- a file is accepted if it is a file of the batch that no round rejected
  have hmem : ∀ out : List String, (settle s.contributions p.candidates).1 = without p.candidates out →
      ∀ f, f ∈ accepted.map Contribution.file ↔ ∃ r ∈ results, r.file ∉ out ∧ r.file = f := by
    intro out hset f
    rw [← haccepted, hset, List.mem_map]
    constructor
    · rintro ⟨c, hc, rfl⟩
      obtain ⟨r, hr, hout, rfl⟩ := (h.mem_left hp).1 hc
      exact ⟨r, hr, hout, rfl⟩
    · rintro ⟨r, hr, hout, rfl⟩
      exact ⟨_, (h.mem_left hp).2 ⟨r, hr, hout, rfl⟩, rfl⟩
  constructor
  · obtain ⟨rejected, hset, hsettled⟩ := settle_spec s.contributions (propose_keyed hp)
    have hfiles := hmem _ (congrArg Prod.fst hset)
    refine ⟨fun f hf => ?_, (h.closed_of_round_nil hs hp hsettled.last).congr fun r hr => ?_⟩
    · obtain ⟨r, hr, -, rfl⟩ := (hfiles f).1 hf
      exact List.mem_map_of_mem hr
    · constructor
      · exact fun hout => (hfiles r.file).2 ⟨r, hr, hout, rfl⟩
      · rintro hf
        obtain ⟨q, -, hout, hq⟩ := (hfiles r.file).1 hf
        rwa [hq] at hout
  · rintro files ⟨hsub, hclosed⟩ f hf
    -- all rounds spare the files of a closed set, so none of them is left out in the end
    have hkept : ∃ out : List String, (settle s.contributions p.candidates).1 = without p.candidates out ∧
        ∀ f ∈ out, f ∉ files := by
      apply settle_keeps fun accepted => ∃ out : List String, accepted = without p.candidates out ∧
        ∀ f ∈ out, f ∉ files
      · rintro _ ⟨out, rfl, hout⟩
        refine ⟨_, without_append _ _ _, fun f hf => ?_⟩
        rcases List.mem_append.1 hf with hf | hf
        · exact hout f hf
        · obtain ⟨m, hm, rfl⟩ := List.mem_map.1 hf
          exact h.round_spares hs hp hclosed hout hm
      · exact ⟨[], (without_nil _).symm, by simp⟩
    obtain ⟨out, hset, hout⟩ := hkept
    obtain ⟨r, hr, rfl⟩ := List.mem_map.1 (hsub f hf)
    exact (hmem out hset _).2 ⟨r, hr, fun hmem => hout _ hmem hf, rfl⟩

/-- A file that declares an id, with edges to others. -/
def linked (file id : String) (others : List String) : ScanResult where
  file := file
  entities := [.bare id]
  edges := others.map fun other => ⟨.str id, .str other, .reference, .backward, .one⟩

/-- Two files that need each other and `y`, a file with an edge that dangles, and a file that needs
that one. -/
def tangle : List ScanResult :=
  [linked "a" "a1" ["b1", "y"], linked "b" "b1" ["a1"], linked "c" "c1" ["ghost"], linked "d" "d1" ["c1"]]

theorem undisputed_tangle : storeOfY.Undisputed tangle where
  files := by decide
  fresh := by decide +kernel
  newer := by decide +kernel
  identity := by
    have hbare : ∀ e, storeOfY.Declared tangle e → e.identity = (Entity.bare "").identity := by
      rintro e (⟨f, c, hc, he⟩ | ⟨r, hr, he⟩)
      · have hstore : ∀ x ∈ storeOfY.contributions, ∀ e ∈ x.2.entities,
            e.identity = (Entity.bare "").identity := by decide +kernel
        exact hstore (f, c) (Table.mem_of_get?_eq_some hc) e he
      · simp only [tangle, List.mem_cons, List.not_mem_nil, or_false] at hr
        rcases hr with rfl | rfl | rfl | rfl
        all_goals
          rw [List.mem_singleton.1 he]
          rfl
    intro a b ha hb _
    rw [hbare a ha, hbare b hb]

end Store

end ChangeImpact
