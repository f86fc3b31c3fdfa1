import ChangeImpact.Proofs.Versions

/-!
# Who is to blame for a rejection

The rounds of a batch never take a rejection back. A file that is rejected in a later round takes away
the entities that it brought, and what it contributed before returns. So an earlier rejection can rest
on entities that the graph does not hold in the end, or on the absence of entities that it does hold.

* `propose_fresh`: results for different files are refused at first sight only for what they declare
  themselves.
* `Rounds`: a batch, the files that its rounds reject and the graph that results.
* `conflict_again`, `dangling_again`: why a result that is merged alone is rejected.
* `Rounds.conflict`, `Rounds.dangling`: what becomes of the causes for which a round rejects a file.
* `mergeBatch_justified`: **a rejection holds in the graph that results, or it rests on another file that
  is rejected as well.** `rejected_then_merged` shows that the second case arises.
-/

namespace ChangeImpact

open Batch

/-! ## Reports on edges that dangle -/

namespace Batch

theorem toText_eq_ok {x : Value} {t : String} (h : x.toText = .ok t) :
    x.isWritable = true ∧ x.text = t := by
  unfold Value.toText at h
  split at h
  · rename_i hw
    exact ⟨hw, Except.ok.inj h⟩
  · cases h

/-- Both ends of an edge that is reported can be written. -/
theorem danglingReport_eq_ok {e : Edge Value} {x : Value} {cause : MergeFault}
    (h : danglingReport e x = .ok cause) :
    (e.source.isWritable && e.target.isWritable) = true ∧
      cause = .danglingEdge e.source.text e.target.text x.text := by
  unfold danglingReport at h
  obtain ⟨source, hs, h⟩ := bind_eq_ok.1 h
  obtain ⟨target, ht, h⟩ := bind_eq_ok.1 h
  obtain ⟨missing, hm, h⟩ := bind_eq_ok.1 h
  obtain ⟨hsw, rfl⟩ := toText_eq_ok hs
  obtain ⟨htw, rfl⟩ := toText_eq_ok ht
  obtain ⟨-, rfl⟩ := toText_eq_ok hm
  exact ⟨by rw [hsw, htw]; rfl, (Except.ok.inj h).symm⟩

theorem exists_danglingReport {e : Edge Value} {x : Value} (hx : x = e.source ∨ x = e.target)
    (hw : (e.source.isWritable && e.target.isWritable) = true) :
    ∃ source target missing, danglingReport e x = .ok (.danglingEdge source target missing) := by
  cases h : danglingReport e x with
  | ok cause => exact ⟨_, _, _, congrArg _ (danglingReport_eq_ok h).2⟩
  | error f =>
    have hfalse := (danglingReport_eq_error hx h).2
    rw [hw] at hfalse; cases hfalse

/-- If an edge dangles that can be written, and so can all edges before it, then there is a report. -/
theorem exists_report {names : List String} {before : List (Edge Value)} {e : Edge Value}
    (after : List (Edge Value))
    (hbefore : ∀ d ∈ before, (d.source.isWritable && d.target.isWritable) = true)
    (he : (e.source.isWritable && e.target.isWritable) = true) (hmissing : missing? names e ≠ none) :
    ∃ source target missing, (before ++ e :: after).findSome?
      (fun d => (missing? names d).map (danglingReport d)) =
        some (.ok (.danglingEdge source target missing)) := by
  induction before with
  | nil =>
    obtain ⟨x, hx⟩ := Option.ne_none_iff_exists'.1 hmissing
    obtain ⟨source, target, missing, hreport⟩ := exists_danglingReport (missing?_eq_some hx).1 he
    refine ⟨source, target, missing, ?_⟩
    rw [List.nil_append, List.findSome?_cons, hx, Option.map_some, hreport]
  | cons d before ih =>
    rw [List.cons_append, List.findSome?_cons]
    cases hd : missing? names d with
    | none => exact ih fun d' hd' => hbefore d' (List.mem_cons_of_mem _ hd')
    | some x =>
      obtain ⟨source, target, missing, hreport⟩ :=
        exists_danglingReport (missing?_eq_some hd).1 (hbefore d List.mem_cons_self)
      exact ⟨source, target, missing, by rw [Option.map_some, hreport]⟩

/-- A conflict names an entity, the other identity under which its id is known, and the owner. -/
theorem conflict?_eq_some {ids : Known} {c : Contribution} {cause : MergeFault}
    (h : conflict? ids c = some cause) :
    ∃ e ∈ c.entities, ∃ identity owner, (e.id, identity, owner) ∈ ids ∧ identity ≠ e.identity ∧
      cause = .duplicateId e.id identity e.identity owner := by
  obtain ⟨e, he, hcause⟩ := List.exists_of_findSome?_eq_some h
  cases hl : ids.lookup e.id with
  | none => simp [hl] at hcause
  | some entry =>
    obtain ⟨identity, owner⟩ := entry
    obtain ⟨l₁, l₂, hsplit, -⟩ := List.lookup_eq_some_iff.1 hl
    simp only [hl] at hcause
    split at hcause
    · cases hcause
    · rename_i hne
      refine ⟨e, he, identity, owner, ?_, hne, (Option.some.inj hcause).symm⟩
      rw [hsplit]
      exact List.mem_append_right _ List.mem_cons_self

/-! ## Results for different files -/

/-- The results that were looked at so far are for different files and carry no version: none of them
is outdated or gives way to another, so those that are refused declare an id twice. -/
structure Fresh (done : List ScanResult) (p : Proposal) : Prop where
  keys : ∀ f ∈ p.candidates.keys, f ∈ done.map ScanResult.file
  rejections : ∀ x ∈ p.rejections, ∃ r ∈ done, r.file = x.file ∧ entitiesOf r = .error x.cause

theorem supersede_of_not_mem {p : Proposal} {f : String} (hf : f ∉ p.candidates.keys) (version : Int) :
    supersede p f version = p := by
  unfold supersede
  rw [Table.get?_eq_none_iff.2 hf]

theorem Fresh.proposeOne {v : Versions} (hv : ∀ f, v.committed f ≤ v.latest f)
    {done : List ScanResult} {p p' : Proposal} {r : ScanResult} (h : Fresh done p)
    (hfile : r.file ∉ done.map ScanResult.file) (hversion : r.version = none)
    (hp : Batch.proposeOne v p r = .ok p') : Fresh (done ++ [r]) p' := by
  have hsup := supersede_of_not_mem (fun hf => hfile (h.keys _ hf)) (versionOf v r)
  have hkeys : ∀ f ∈ p.candidates.keys, f ∈ (done ++ [r]).map ScanResult.file := fun f hf => by
    rw [List.map_append]; exact List.mem_append_left _ (h.keys f hf)
  have hrejections : ∀ x ∈ p.rejections, ∃ q ∈ done ++ [r], q.file = x.file ∧
      entitiesOf q = .error x.cause := fun x hx => by
    obtain ⟨q, hq, hrest⟩ := h.rejections x hx
    exact ⟨q, List.mem_append_left _ hq, hrest⟩
  rcases proposeOne_cases v p r with ⟨hle, -⟩ | ⟨-, cause, hcause, hc⟩ | ⟨-, -, -, hc⟩ | ⟨f, hc, -⟩
  · have := hv r.file
    unfold versionOf at hle
    rw [hversion, Option.getD_none] at hle
    omega
  · rw [hc, hsup] at hp
    rw [← Except.ok.inj hp]
    refine ⟨hkeys, fun x hx => ?_⟩
    rcases List.mem_append.1 hx with hx | hx
    · exact hrejections x hx
    · obtain rfl := List.mem_singleton.1 hx
      exact ⟨r, by simp, rfl, hcause⟩
  · rw [hc, hsup] at hp
    rw [← Except.ok.inj hp]
    refine ⟨fun f hf => ?_, hrejections⟩
    rcases Table.mem_keys_insert.1 hf with rfl | hf
    · simp
    · exact hkeys f hf
  · rw [hc] at hp; cases hp

/-- **Results for different files without versions are refused only for what they declare themselves.** -/
theorem propose_fresh {v : Versions} (hv : ∀ f, v.committed f ≤ v.latest f) {results : List ScanResult}
    (hfiles : (results.map ScanResult.file).Nodup) (hversions : ∀ r ∈ results, r.version = none)
    {p : Proposal} (hp : propose v results = .ok p) :
    ∀ x ∈ p.rejections, ∃ r ∈ results, r.file = x.file ∧ entitiesOf r = .error x.cause := by
  obtain ⟨done, hperm, hfresh⟩ := propose_keeps Fresh
    (fun done q r q' hr hfile hq hone => hq.proposeOne hv hfile (hversions r hr) hone) hfiles
    ⟨by simp [Table.keys], by simp⟩ hp
  intro x hx
  obtain ⟨r, hr, hrest⟩ := hfresh.rejections x hx
  exact ⟨r, hperm.mem_iff.1 hr, hrest⟩

end Batch

namespace Store

variable {s next : Store} {r : ScanResult} {results : List ScanResult}

/-! ## A result that is merged alone -/

/-- The candidates of a batch of one result. -/
def alone (s : Store) (r : ScanResult) : Table Candidate := [(r.file, candidateOf s.scans r)]

/-- The result is rejected when it is merged alone, for what it declares or for an edge. -/
def RejectsAlone (s : Store) (r : ScanResult) : Prop :=
  ∃ cause, s.merge r = (s, .error (.merge cause)) ∧
    ∀ file version current, cause ≠ .stale file version current

/-- A result without a version gets the next one, so it is newer than the graph. -/
theorem newer_of_version_none (hversion : r.version = none) :
    s.scans.committed r.file < versionOf s.scans r := by
  unfold versionOf
  rw [hversion, Option.getD_none]
  exact Int.lt_add_one_of_le (committed_le_latest s r.file)

theorem eligible_of_version_none (hversion : r.version = none) {v : Versions} (h : Eligible v r) :
    Eligible s.scans r := ⟨newer_of_version_none hversion, h.entities, h.keys⟩

theorem propose_alone (h : Eligible s.scans r) : propose s.scans [r] = .ok ⟨s.alone r, []⟩ := by
  rw [propose_singleton]
  obtain ⟨es, hes⟩ := h.entities
  rcases proposeOne_cases s.scans {} r with ⟨hle, -⟩ | ⟨-, cause, hcause, -⟩ | ⟨-, -, -, hc⟩ |
    ⟨f, -, e, he, hkeys⟩
  · exact absurd h.newer (not_lt.2 hle)
  · rw [hes] at hcause; cases hcause
  · exact hc
  · rw [h.keys e he] at hkeys; cases hkeys

/-- A candidate that does not fit is rejected in the first round. -/
theorem merge_of_round (h : Eligible s.scans r) {cause : MergeFault}
    (hround : round s.contributions (s.alone r) = [⟨r.file, .ok cause⟩]) :
    s.merge r = (s, .error (.merge cause)) := by
  have hsettle : settle s.contributions (s.alone r) = ([], [⟨r.file, .ok cause⟩]) := by
    change settleFrom s.contributions (0 + 1) (s.alone r) [] = _
    rw [settleFrom, hround]
    simp [settleFrom, alone]
  have hjudge : s.judge [r] = .ok ([], [⟨r.file, cause⟩]) := by
    unfold judge
    change (propose s.scans [r] >>= _) = _
    rw [propose_alone h]
    simp only [bind, Except.bind, hsettle]
    rfl
  exact merge_of_judge hjudge

theorem rejectsAlone_of_entities (hversion : r.version = none) {cause : MergeFault}
    (h : entitiesOf r = .error cause) : s.RejectsAlone r := by
  have hpropose : propose s.scans [r] = .ok ⟨[], [⟨r.file, cause⟩]⟩ := by
    rw [propose_singleton]
    unfold proposeOne
    simp only [h]
    rw [if_neg (not_le.2 (newer_of_version_none hversion))]
    rfl
  obtain ⟨id, existing, incoming, rfl⟩ := entitiesOf_eq_error h
  exact ⟨_, merge_of_refused hpropose, fun _ _ _ hstale => by cases hstale⟩

theorem contributionsOf_alone (s : Store) (r : ScanResult) :
    contributionsOf (s.alone r) = [contentOf s.scans r] := rfl

/-- A result that is in no conflict with the graph is in none at all. -/
theorem enrolled_alone
    (h : conflict? (background s.contributions (s.alone r)) (contentOf s.scans r) = none) :
    (enrolled s.contributions (s.alone r)).2 = [] := by
  unfold enrolled
  rw [contributionsOf_alone, enroll, h]
  rfl

theorem rejectsAlone_of_conflict (he : Eligible s.scans r) {cause : MergeFault}
    (h : conflict? (background s.contributions (s.alone r)) (contentOf s.scans r) = some cause) :
    s.RejectsAlone r := by
  have henrolled : (enrolled s.contributions (s.alone r)).2 = [⟨r.file, .ok cause⟩] := by
    unfold enrolled
    rw [contributionsOf_alone, enroll, h]
    rfl
  have hround : round s.contributions (s.alone r) = [⟨r.file, .ok cause⟩] := by
    rw [round_eq, henrolled]
    rfl
  obtain ⟨e, -, identity, owner, -, -, rfl⟩ := conflict?_eq_some h
  exact ⟨_, merge_of_round he hround, fun _ _ _ hstale => by cases hstale⟩

/-- A result that is in no conflict is rejected for its first edge that dangles. -/
theorem merge_of_dangling (he : Eligible s.scans r) {source target missing : String}
    (hnil : (enrolled s.contributions (s.alone r)).2 = [])
    (hd : dangling? ((knownWith s.contributions (s.alone r)).map (·.1)) (contentOf s.scans r) =
      some (.ok (.danglingEdge source target missing))) :
    s.merge r = (s, .error (.merge (.danglingEdge source target missing))) := by
  have hall : (enrolled s.contributions (s.alone r)).1 = knownWith s.contributions (s.alone r) :=
    enroll_of_no_conflict _ _ hnil
  have hround : round s.contributions (s.alone r) =
      [⟨r.file, .ok (.danglingEdge source target missing)⟩] := by
    rw [round_eq, hnil, hall, contributionsOf_alone, List.isEmpty_nil, Bool.not_true,
      if_neg (by simp), List.filterMap_cons, hd]
    rfl
  exact merge_of_round he hround

theorem rejectsAlone_of_dangling (he : Eligible s.scans r) {source target missing : String}
    (h : conflict? (background s.contributions (s.alone r)) (contentOf s.scans r) = none)
    (hd : dangling? ((knownWith s.contributions (s.alone r)).map (·.1)) (contentOf s.scans r) =
      some (.ok (.danglingEdge source target missing))) :
    s.RejectsAlone r := by
  exact ⟨_, merge_of_dangling he (enrolled_alone h) hd, fun _ _ _ hstale => by cases hstale⟩

/-- What a file contributes to a store declares an id under an identity. -/
def Declares (s : Store) (file id : String) (identity : Identity) : Prop :=
  ∃ c, s.contributions.get? file = some c ∧ ∃ e ∈ c.entities, e.id = id ∧ e.identity = identity

theorem mem_background_alone (h : s.Coherent) {a : String × Identity × String} :
    a ∈ background s.contributions (s.alone r) ↔
      a.2.2 ≠ r.file ∧ s.Declares a.2.2 a.1 a.2.1 := by
  have hkeys : (s.alone r).keys = [r.file] := rfl
  rw [mem_background, hkeys]
  constructor
  · rintro ⟨x, hx, hne, e, he, rfl⟩
    have hget := h.ordered.get?_eq_some_iff.2 hx
    have hfile := h.file _ _ hget
    rw [List.mem_singleton, ← hfile] at hne
    exact ⟨hne, x.2, hfile ▸ hget, e, he, rfl, rfl⟩
  · rintro ⟨hne, c, hc, e, he, hid, hidentity⟩
    refine ⟨(a.2.2, c), Table.mem_of_get?_eq_some hc, by simpa using hne, e, he, ?_⟩
    rw [hid, hidentity, h.file _ _ hc]

/-- **A conflict with another file of the graph** is met again. -/
theorem conflict_again (h : s.Coherent) (he : Eligible s.scans r) {file : String} {identity : Identity}
    {e : Entity} (hmem : e ∈ (contentOf s.scans r).entities) (hfile : file ≠ r.file)
    (hdeclares : s.Declares file e.id identity) (hne : identity ≠ e.identity) : s.RejectsAlone r := by
  cases hc : conflict? (background s.contributions (s.alone r)) (contentOf s.scans r) with
  | some cause => exact rejectsAlone_of_conflict he hc
  | none =>
    have hbackground : (e.id, identity, file) ∈ background s.contributions (s.alone r) :=
      (mem_background_alone h).2 ⟨hfile, hdeclares⟩
    exact absurd (identity_of_no_conflict (h.background_consistent _) hc hmem hbackground rfl) hne

/-- **An edge that dangles in the graph with the result** is met again, if it and all edges before it can
be put in words. -/
theorem dangling_again (he : Eligible s.scans r) {before after : List (Edge Value)} {e : Edge Value}
    (hedges : (contentOf s.scans r).edges = before ++ e :: after)
    (hbefore : ∀ d ∈ before, (d.source.isWritable && d.target.isWritable) = true)
    (hw : (e.source.isWritable && e.target.isWritable) = true)
    (hmissing : missing? ((knownWith s.contributions (s.alone r)).map (·.1)) e ≠ none) :
    s.RejectsAlone r := by
  cases hc : conflict? (background s.contributions (s.alone r)) (contentOf s.scans r) with
  | some cause => exact rejectsAlone_of_conflict he hc
  | none =>
    obtain ⟨source, target, missing, hreport⟩ := exists_report after hbefore hw hmissing
    rw [← hedges] at hreport
    exact rejectsAlone_of_dangling he hc hreport

/-! ## The rounds of a batch and the graph that results -/

/-- A batch for a coherent store: what is proposed, what the rounds reject after that, and the store with
the contributions that are left. -/
structure Rounds (s : Store) (results : List ScanResult) (p : Proposal) (late : List Rejection)
    (next : Store) : Prop where
  before : s.Coherent
  after : next.Coherent
  proposed : propose s.scans results = .ok p
  settled : Settled s.contributions p.candidates (late.map Rejection.misfit)
  contributions : next.contributions =
    (s.commit (contributionsOf (without p.candidates (late.map Rejection.file)))).contributions

theorem exists_rounds (h : s.Coherent) {outcome : MergeOutcome}
    (hm : s.mergeBatch results = (next, .ok outcome)) :
    ∃ p late, Rounds s results p late next ∧ outcome.rejections = p.rejections ++ late := by
  have hnext : next.Coherent := by
    have := mergeBatch_coherent h results
    rwa [hm] at this
  unfold mergeBatch at hm
  rcases tryMerge_cases s results with ⟨f, -, ht⟩ | ⟨rejections, hj, ht⟩ | ⟨_, _, f, -, -, ht⟩ |
    ⟨accepted, rejections, database, hj, -, -, ht⟩
  · rw [ht] at hm; cases hm
  · rw [ht] at hm
    obtain ⟨rfl, hout⟩ := Prod.mk.inj hm
    obtain ⟨p, late, hp, hsettled, hnil, hrejections⟩ := judge_steps hj
    refine ⟨p, late, ⟨h, h, hp, hsettled, by rw [← hnil]; rfl⟩, ?_⟩
    rw [← Except.ok.inj hout, hrejections]
  · rw [ht] at hm; cases hm
  · rw [ht] at hm
    obtain ⟨rfl, hout⟩ := Prod.mk.inj hm
    obtain ⟨p, late, hp, hsettled, rfl, hrejections⟩ := judge_steps hj
    refine ⟨p, late, ⟨h, hnext, hp, hsettled, rfl⟩, ?_⟩
    rw [← Except.ok.inj hout, hrejections]

/-- The cause of a rejection rests on a result that the graph does not take in. -/
inductive RestsOn (graph : Store) (other : ScanResult) : MergeFault → Prop
  /-- The result declares an id under the identity that was in the way, and in the graph its file does
  not. -/
  | declared {id : String} {existing incoming : Identity}
      (hresult : ∃ e ∈ other.entities, e.id = id ∧ e.identity = existing)
      (hgraph : ¬ graph.Declares other.file id existing) :
      RestsOn graph other (.duplicateId id existing incoming other.file)
  /-- The result does not declare the id that was missing, and in the graph its file does. -/
  | dropped {source target missing : String} (hresult : ∀ e ∈ other.entities, e.id ≠ missing)
      (hgraph : ∃ identity, graph.Declares other.file missing identity) :
      RestsOn graph other (.danglingEdge source target missing)

/-- A rejection is justified: the result is rejected again when it is merged alone, or the cause rests on
another result of the batch whose file is rejected as well. -/
def Justified (graph : Store) (results : List ScanResult) (rejected : List String) (r : ScanResult)
    (cause : MergeFault) : Prop :=
  graph.RejectsAlone r ∨ ∃ other ∈ results, other.file ≠ r.file ∧ other.file ∈ rejected ∧
    graph.RestsOn other cause

namespace Rounds

variable {p : Proposal} {late : List Rejection} {out : List String}

/-- The contributions of the candidates that are left in some round are for different files. -/
theorem nodup_files (h : Rounds s results p late next) (out : List String) :
    ((contributionsOf (without p.candidates out)).map Contribution.file).Nodup :=
  ((propose_keyed h.proposed).filter _).ascending_files.nodup

theorem files (h : Rounds s results p late next) (out : List String) :
    (contributionsOf (without p.candidates out)).map Contribution.file =
      (without p.candidates out).keys := ((propose_keyed h.proposed).filter _).files

/-- A candidate that no round rejects is in the graph. -/
theorem get?_of_mem (h : Rounds s results p late next) {c : Contribution}
    (hc : c ∈ contributionsOf (without p.candidates out)) (hfile : c.file ∉ late.map Rejection.file) :
    next.contributions.get? c.file = some c := by
  have hmem : c ∈ contributionsOf (without p.candidates (late.map Rejection.file)) := by
    unfold contributionsOf Table.values at hc ⊢
    rw [List.map_map] at hc ⊢
    obtain ⟨entry, hentry, rfl⟩ := List.mem_map.1 hc
    have hkey := (propose_keyed h.proposed).2 entry (mem_without.1 hentry).1
    exact List.mem_map_of_mem (mem_without.2 ⟨(mem_without.1 hentry).1, hkey ▸ hfile⟩)
  rw [h.contributions]
  exact (commit_of_mem s (h.nodup_files _) hmem).1

/-- A file that has no candidate in some round contributes what it did before. -/
theorem get?_of_not_mem (h : Rounds s results p late next)
    (hout : ∀ f ∈ out, f ∈ late.map Rejection.file) {f : String}
    (hf : f ∉ (without p.candidates out).keys) :
    next.contributions.get? f = s.contributions.get? f := by
  rw [h.contributions]
  refine (commit_of_not_mem s ?_).1
  rw [h.files]
  intro hmem
  obtain ⟨c, hc⟩ := Table.mem_keys.1 hmem
  obtain ⟨hc, hnot⟩ := mem_without.1 hc
  exact hf (Table.mem_keys.2 ⟨c, mem_without.2 ⟨hc, fun hmem => hnot (hout f hmem)⟩⟩)

/-- **What becomes of a conflict.** The other declaration is in the graph, or its file is rejected as
well. -/
theorem conflict (h : Rounds s results p late next) (hversions : ∀ r ∈ results, r.version = none)
    (hout : ∀ f ∈ out, f ∈ late.map Rejection.file) {x : Rejection}
    (hx : x.misfit ∈ (enrolled s.contributions (without p.candidates out)).2) :
    ∃ r ∈ results, r.file = x.file ∧ Justified next results (late.map Rejection.file) r x.cause := by
  obtain ⟨before, c, after, cause, hsplit, hm, seen, hconflict, hseen⟩ := mem_enroll _ _ hx
  obtain ⟨hfile, hcause⟩ := Misfit.mk.inj hm
  obtain rfl : x.cause = cause := Except.ok.inj hcause
  obtain ⟨e, he, identity, owner, howner, hne, hcause⟩ := conflict?_eq_some hconflict
  have hc : c ∈ contributionsOf (without p.candidates out) := by rw [hsplit]; simp
  obtain ⟨-, r, hr, rfl, heligible⟩ := exists_result_of_mem h.proposed hc
  have heligible' : Eligible next.scans r := eligible_of_version_none (hversions r hr) heligible
  refine ⟨r, hr, hfile.symm, ?_⟩
  rcases hseen _ howner with hbackground | ⟨b, hb, hknown⟩
  · -- the owner keeps what it contributed before
    obtain ⟨y, hy, hkey, e', he', hentry⟩ := mem_background.1 hbackground
    simp only [Prod.mk.injEq] at hentry
    have hget : next.contributions.get? y.1 = some y.2 := by
      rw [h.get?_of_not_mem hout hkey]
      exact h.before.ordered.get?_eq_some_iff.2 hy
    have hother : y.1 ≠ r.file := by
      rintro heq
      apply hkey
      rw [heq, ← h.files]
      exact List.mem_map_of_mem hc
    exact .inl (conflict_again h.after heligible' he hother
      ⟨y.2, hget, e', he', hentry.1, hentry.2.1⟩ hne)
  · -- the owner is a candidate of the same round
    obtain ⟨e', he', hentry⟩ := mem_known.1 hknown
    simp only [Prod.mk.injEq] at hentry
    have hbmem : b ∈ contributionsOf (without p.candidates out) := by
      rw [hsplit]; exact List.mem_append_left _ hb
    obtain ⟨-, other, hother, rfl, -⟩ := exists_result_of_mem h.proposed hbmem
    have hdifferent : other.file ≠ r.file := by
      have hnodup := h.nodup_files out
      rw [hsplit, List.map_append, List.map_cons, List.nodup_append] at hnodup
      exact hnodup.2.2 _ (List.mem_map_of_mem hb) _ List.mem_cons_self
    by_cases hdeclares : next.Declares other.file e.id identity
    · exact .inl (conflict_again h.after heligible' he hdifferent hdeclares hne)
    · by_cases hrejected : other.file ∈ late.map Rejection.file
      · refine .inr ⟨other, hother, hdifferent, hrejected, ?_⟩
        rw [hcause, ← hentry.2.2]
        exact .declared ⟨e', mem_of_mem_keepFirst he', hentry.1, hentry.2.1⟩ hdeclares
      · exact absurd ⟨_, h.get?_of_mem hbmem hrejected, e', he', hentry.1, hentry.2.1⟩ hdeclares

/-- **An id that was unknown in some round and is declared in the graph** is declared by a file that is
rejected: it falls back to what it contributed before, and its result does not declare the id. -/
theorem returned (h : Rounds s results p late next) (hout : ∀ f ∈ out, f ∈ late.map Rejection.file)
    {id file : String} {identity : Identity}
    (hid : id ∉ (knownWith s.contributions (without p.candidates out)).map (·.1))
    (hdeclares : next.Declares file id identity) :
    ∃ other ∈ results, other.file = file ∧ file ∈ late.map Rejection.file ∧
      ∀ e ∈ other.entities, e.id ≠ id := by
  obtain ⟨c, hc, e, he, heid, -⟩ := hdeclares
  have hcandidate : ∀ b ∈ contributionsOf (without p.candidates out), ∀ k ∈ b.entities, k.id ≠ id :=
    fun b hb k hk hkid => hid (List.mem_map.2 ⟨_, mem_knownWith_of_mem _ hb hk, hkid⟩)
  by_cases hkey : file ∈ (without p.candidates out).keys
  · rw [← h.files] at hkey
    obtain ⟨b, hb, rfl⟩ := List.mem_map.1 hkey
    obtain ⟨-, other, hother, rfl, -⟩ := exists_result_of_mem h.proposed hb
    refine ⟨other, hother, rfl, ?_, fun k hk hkid => ?_⟩
    · by_contra hkept
      rw [h.get?_of_mem hb hkept] at hc
      obtain rfl := Option.some.inj hc
      exact hcandidate _ hb e he heid
    · have hmem : k.id ∈ (contentOf s.scans other).entities.map Entity.id :=
        (mem_map_keepFirst Entity.id other.entities).2 (List.mem_map_of_mem hk)
      obtain ⟨k', hk', hkk'⟩ := List.mem_map.1 hmem
      exact hcandidate _ hb k' hk' (hkk'.trans hkid)
  · -- the contribution of a file without a candidate was known
    rw [h.get?_of_not_mem hout hkey] at hc
    exact absurd (List.mem_map.2 ⟨_, mem_knownWith_of_get? hc hkey he, heid⟩) hid

/-- **What becomes of an edge that dangles.** The missing end is not in the graph, or it is there because
its file is rejected as well and falls back to what it contributed before. -/
theorem dangling (h : Rounds s results p late next) (hversions : ∀ r ∈ results, r.version = none)
    (hout : ∀ f ∈ out, f ∈ late.map Rejection.file) {x : Rejection} {c : Contribution}
    (hc : c ∈ contributionsOf (without p.candidates out)) (hfile : x.file = c.file)
    (hx : dangling? ((knownWith s.contributions (without p.candidates out)).map (·.1)) c =
      some (.ok x.cause)) :
    ∃ r ∈ results, r.file = x.file ∧ Justified next results (late.map Rejection.file) r x.cause := by
  obtain ⟨before, e, after, missing, hedges, hmissing, hreport, hbefore⟩ := dangling?_eq_some hx
  obtain ⟨hwritable, hcause⟩ := danglingReport_eq_ok hreport
  obtain ⟨-, r, hr, rfl, heligible⟩ := exists_result_of_mem h.proposed hc
  have heligible' : Eligible next.scans r := eligible_of_version_none (hversions r hr) heligible
  refine ⟨r, hr, hfile.symm, ?_⟩
  by_cases hagain : missing? ((knownWith next.contributions (next.alone r)).map (·.1)) e = none
  · -- both ends are texts that are declared now
    obtain ⟨hend, hunnamed⟩ := missing?_eq_some hmissing
    obtain ⟨m, rfl, hm⟩ : ∃ m, missing = .str m ∧
        m ∈ (knownWith next.contributions (next.alone r)).map (·.1) := by
      obtain ⟨t, rfl, hsource, htarget⟩ := missing?_eq_none hagain
      rcases hend with rfl | rfl
      · exact ⟨t.source, rfl, hsource⟩
      · exact ⟨t.target, rfl, htarget⟩
    have hnot : m ∉ (knownWith s.contributions (without p.candidates out)).map (·.1) := by
      intro hmem
      rw [isNamed_iff.2 ⟨m, rfl, hmem⟩] at hunnamed; cases hunnamed
    obtain ⟨⟨m, identity, file⟩, ha, rfl⟩ := List.mem_map.1 hm
    rcases List.mem_append.1 ha with ha | ha
    · obtain ⟨hdifferent, hdeclares⟩ := (mem_background_alone h.after).1 ha
      obtain ⟨other, hother, rfl, hrejected, hdropped⟩ := h.returned hout hnot hdeclares
      refine .inr ⟨other, hother, hdifferent, hrejected, ?_⟩
      rw [hcause]
      exact .dropped hdropped ⟨identity, hdeclares⟩
    · -- the result itself declares the end, and did so in the batch
      rw [contributionsOf_alone, List.flatMap_singleton] at ha
      obtain ⟨e', he', hentry⟩ := mem_known.1 ha
      exact absurd (List.mem_map.2 ⟨_, mem_knownWith_of_mem _ hc he', (Prod.mk.inj hentry).1⟩) hnot
  · refine .inl (dangling_again heligible' hedges (fun d hd => ?_) hwritable hagain)
    obtain ⟨t, rfl, -⟩ := missing?_eq_none (hbefore d hd)
    rfl

end Rounds

/-- **A rejection holds in the graph that results, or it rests on another file that is rejected as
well.** A batch of results for different files, which carry no versions, is merged into a reachable
store. Each result that is rejected is rejected again if it is merged alone into the store that the batch
leaves, unless the cause names an id that another rejected file declares under the other identity in its
result and not in the graph, or an end that another rejected file declares in the graph and not in its
result. -/
theorem mergeBatch_justified (database : Option Database) (ops : List Op) (results : List ScanResult)
    (hfiles : (results.map ScanResult.file).Nodup) (hversions : ∀ r ∈ results, r.version = none)
    {next : Store} {outcome : MergeOutcome}
    (h : ((empty database).run ops).mergeBatch results = (next, .ok outcome)) :
    ∀ x ∈ outcome.rejections, ∃ r ∈ results, r.file = x.file ∧
      Justified next results (outcome.rejections.map Rejection.file) r x.cause := by
  obtain ⟨p, late, hrounds, hrejections⟩ := exists_rounds (run_coherent database ops) h
  intro x hx
  rw [hrejections] at hx ⊢
  rcases List.mem_append.1 hx with hx | hx
  · obtain ⟨r, hr, hfile, hentities⟩ :=
      propose_fresh (committed_le_latest _) hfiles hversions hrounds.proposed x hx
    exact ⟨r, hr, hfile, .inl (rejectsAlone_of_entities (hversions r hr) hentities)⟩
  · obtain ⟨out, hout, hround⟩ := hrounds.settled.stage _ (List.mem_map_of_mem hx)
    rw [map_file_misfit] at hout
    have hjustified : ∃ r ∈ results, r.file = x.file ∧
        Justified next results (late.map Rejection.file) r x.cause := by
      rcases mem_round hround with hconflict | ⟨c, hc, hfile, hdangling⟩
      · exact hrounds.conflict hversions hout hconflict
      · exact hrounds.dangling hversions hout hc hfile hdangling
    obtain ⟨r, hr, hfile, hrejects | ⟨other, hother, hdifferent, hrejected, hrests⟩⟩ := hjustified
    · exact ⟨r, hr, hfile, .inl hrejects⟩
    · refine ⟨r, hr, hfile, .inr ⟨other, hother, hdifferent, ?_, hrests⟩⟩
      rw [List.map_append]
      exact List.mem_append_right _ hrejected

/-- A store in which `z` declares `y`. -/
def storeOfY : Store := (empty none).run [.merge { file := "z", entities := [.bare "y"] }]

/-- A file that declares `x`, with an edge to `y`. -/
def userOfY : ScanResult :=
  { file := "a", entities := [.bare "x"], edges := [⟨.str "x", .str "y", .reference, .backward, .one⟩] }

/-- A result for `z` with nothing but an edge that dangles. -/
def onlyGhosts : ScanResult :=
  { file := "z", edges := [⟨.str "ghost", .str "ghost", .reference, .backward, .one⟩] }

/-- The edge of `a` dangles in the batch, because `z` does not declare `y` any more. As `z` is rejected as
well, `y` is declared in the end. -/
theorem fallback_justified :
    (storeOfY.mergeBatch [userOfY, onlyGhosts]).2 = .ok ⟨[],
      [⟨"a", .danglingEdge "x" "y" "y"⟩, ⟨"z", .danglingEdge "ghost" "ghost" "ghost"⟩], 1⟩ ∧
    ∃ r ∈ [userOfY, onlyGhosts], r.file = "a" ∧
      Justified (storeOfY.mergeBatch [userOfY, onlyGhosts]).1 [userOfY, onlyGhosts] ["a", "z"] r
        (.danglingEdge "x" "y" "y") := by
  have horder : inOrder [userOfY, onlyGhosts] = [userOfY, onlyGhosts] :=
    inOrder_eq_self (by decide +kernel)
  have hmerge : (storeOfY.mergeBatch [userOfY, onlyGhosts]).2 = .ok ⟨[],
      [⟨"a", .danglingEdge "x" "y" "y"⟩, ⟨"z", .danglingEdge "ghost" "ghost" "ghost"⟩], 1⟩ := by
    unfold mergeBatch tryMerge judge propose
    rw [horder]
    decide +kernel
  exact ⟨hmerge, mergeBatch_justified none _ [userOfY, onlyGhosts] (by decide)
    (by simp [userOfY, onlyGhosts]) (Prod.ext rfl hmerge) _ List.mem_cons_self⟩

/-- A file that declares `X` as a function, with an edge that dangles. -/
def functionX : ScanResult :=
  { file := "a.py", entities := [.bare "X"],
    edges := [⟨.str "X", .str "ghost", .reference, .backward, .one⟩] }

/-- A file that declares `X` as a type. -/
def typeX : ScanResult := { file := "b.py", entities := [{ Entity.bare "X" with kind := .type }] }

/-- `b.py` is rejected for the identity that `a.py` gives to `X`, and then `a.py` is rejected for its edge.
Merged alone into the graph that results, `b.py` is accepted. -/
theorem rejected_then_merged :
    (empty none).mergeBatch [functionX, typeX] = (empty none, .ok ⟨[],
      [⟨"b.py", .duplicateId "X" ⟨.function, ""⟩ ⟨.type, ""⟩ "a.py"⟩,
        ⟨"a.py", .danglingEdge "X" "ghost" "ghost"⟩], 0⟩) ∧
    ((empty none).merge typeX).2 = .ok 1 := by
  have horder : inOrder [functionX, typeX] = [functionX, typeX] := inOrder_eq_self (by decide +kernel)
  refine ⟨?_, by decide +kernel⟩
  unfold mergeBatch tryMerge judge propose
  rw [horder]
  rfl

end Store

end ChangeImpact
