import ChangeImpact.Proofs.Settling
import ChangeImpact.Proofs.Snapshot
import ChangeImpact.Store.Basic

/-!
# How a merge ends

A merge judges its results, writes the accepted contributions to the database and commits them.

* `judge_eq_ok`: **the verdict on a batch.** The results split into those that are accepted, which
  contribute their content, and those that are rejected, one rejection for each.
* `tryMerge_cases`: the four ways in which a merge ends.
* `commit_of_mem`, `commit_of_not_mem`: what a store holds after a commit.
-/

namespace ChangeImpact

/-- A list that is a permutation of an image is the image of a permutation. -/
theorem exists_perm_of_perm_map {α β : Type} {f : α → β} {ys : List β} {xs : List α}
    (h : ys.Perm (xs.map f)) : ∃ zs : List α, zs.Perm xs ∧ ys = zs.map f := by
  have hf : List.Forall₂ (fun b a => b = f a) (xs.map f) xs := by
    rw [List.forall₂_map_left_iff, List.forall₂_same]
    exact fun x _ => rfl
  obtain ⟨zs, hzs, hperm⟩ := List.perm_comp_forall₂ h hf
  refine ⟨zs, hperm, ?_⟩
  clear hperm hf h
  induction hzs with
  | nil => rfl
  | cons hb _ ih => rw [List.map_cons, hb, ih]

/-- Of results for different files, those for some of the files, each once. -/
theorem filter_files_perm {taken : List ScanResult} {files : List String}
    (htaken : (taken.map ScanResult.file).Nodup) (hfiles : files.Nodup)
    (hsub : ∀ f ∈ files, f ∈ taken.map ScanResult.file) :
    ((taken.filter fun r => files.contains r.file).map ScanResult.file).Perm files := by
  have hmap : (taken.filter fun r => files.contains r.file).map ScanResult.file =
      (taken.map ScanResult.file).filter fun f => files.contains f := by
    rw [List.filter_map]; rfl
  rw [hmap, List.perm_ext_iff_of_nodup (htaken.filter _) hfiles]
  intro f
  rw [List.mem_filter, List.contains_iff_mem]
  exact ⟨fun hf => hf.2, fun hf => ⟨hsub f hf, hf⟩⟩

namespace Store

open Batch

variable {s : Store} {results : List ScanResult} {accepted : List Contribution}
  {rejections : List Rejection}

/-- What a store knows about scan versions. -/
def scans (s : Store) : Versions := ⟨s.committed, s.latest⟩

/-- The verdict on a batch: which results are taken and which are refused. -/
structure Verdict (s : Store) (results : List ScanResult) (candidates : Table Candidate)
    (taken refused : List ScanResult) (rejections : List Rejection) : Prop where
  keyed : Keyed candidates
  settled : round s.contributions candidates = []
  split : (taken ++ refused).Perm results
  contents : contributionsOf candidates = taken.map (contentOf s.scans)
  eligible : ∀ r ∈ taken, Eligible s.scans r
  refused : (rejections.map Rejection.file).Perm (refused.map ScanResult.file)

section Verdict

variable {candidates : Table Candidate} {taken refused : List ScanResult}

/-- The files that are merged are those of the taken results. -/
theorem Verdict.files (hv : Verdict s results candidates taken refused rejections) :
    taken.map ScanResult.file = (contributionsOf candidates).map Contribution.file := by
  rw [hv.contents, List.map_map]; rfl

/-- A taken result contributes its content. -/
theorem Verdict.content_mem (hv : Verdict s results candidates taken refused rejections)
    {r : ScanResult} (hr : r ∈ taken) : contentOf s.scans r ∈ contributionsOf candidates := by
  rw [hv.contents]; exact List.mem_map_of_mem hr

/-- A batch of one result rejects it or takes it. -/
theorem Verdict.single {r : ScanResult} (hv : Verdict s [r] candidates taken refused rejections) :
    (taken = [] ∧ ∃ x, rejections = [x]) ∨ (taken = [r] ∧ refused = [] ∧ rejections = []) := by
  have hlen : rejections.length = refused.length := by simpa using hv.refused.length_eq
  have hsplit : taken.length + refused.length = 1 := by simpa using hv.split.length_eq
  cases taken with
  | nil =>
    rw [List.length_nil] at hsplit
    exact .inl ⟨rfl, List.length_eq_one_iff.1 (by omega)⟩
  | cons q qs =>
    rw [List.length_cons] at hsplit
    obtain rfl : refused = [] := List.length_eq_zero_iff.1 (by omega)
    obtain rfl : rejections = [] := List.length_eq_zero_iff.1 hlen
    exact .inr ⟨by simpa using hv.split, rfl, rfl⟩

end Verdict

/-- Each proposed candidate stands for a result. -/
theorem propose_keyed {p : Proposal} (h : propose s.scans results = .ok p) : Keyed p.candidates := by
  obtain ⟨taken, refused, -, hacc⟩ := propose_accounts h
  refine ⟨hacc.ordered, fun e he => ?_⟩
  obtain ⟨r, -, rfl⟩ := List.mem_map.1 (hacc.candidates.mem_iff.1 he)
  rfl

/-- The steps to a verdict: the rejections are those of the proposal and then those of the rounds. -/
theorem judge_steps (h : s.judge results = .ok (accepted, rejections)) :
    ∃ p late, propose s.scans results = .ok p ∧
      Settled s.contributions p.candidates (late.map Rejection.misfit) ∧
      accepted = contributionsOf (without p.candidates (late.map Rejection.file)) ∧
      rejections = p.rejections ++ late := by
  unfold judge at h
  rw [bind_eq_ok] at h
  obtain ⟨p, hp, h⟩ := h
  obtain ⟨misfits, hset, hsettled⟩ := settle_spec s.contributions (propose_keyed hp)
  rw [hset] at h
  obtain ⟨late, hlate, h⟩ := bind_eq_ok.1 h
  obtain rfl := mapM_rejection_eq_ok hlate
  obtain ⟨haccepted, hrejections⟩ := Prod.mk.inj (Except.ok.inj h)
  rw [map_file_misfit] at haccepted
  exact ⟨p, late, hp, hsettled, haccepted.symm, hrejections.symm⟩

/-- **The verdict on a batch.** -/
theorem judge_eq_ok (h : s.judge results = .ok (accepted, rejections)) :
    ∃ candidates taken refused, accepted = contributionsOf candidates ∧
      Verdict s results candidates taken refused rejections := by
  obtain ⟨p, late, hp, hsettled, haccepted, rfl⟩ := judge_steps h
  obtain ⟨taken, refused, hperm, hacc⟩ := propose_accounts hp
  obtain ⟨hnd, hmem, hround, -⟩ := hsettled
  rw [map_file_misfit] at hnd hmem hround
  set out := late.map Rejection.file with hout
  -- the taken results whose files are not rejected later, in path order
  have hleft : (without p.candidates out).Perm
      ((taken.filter fun r => !out.contains r.file).map fun r => (r.file, candidateOf s.scans r)) := by
    have := hacc.candidates.filter fun c => !out.contains c.1
    rw [List.filter_map] at this
    exact this
  obtain ⟨kept, hkept, hcand⟩ := exists_perm_of_perm_map hleft
  have hfiles : (taken.map ScanResult.file).Perm p.candidates.keys := by
    have := hacc.candidates.map Prod.fst
    rw [List.map_map] at this
    exact this.symm
  -- the files of the other taken results are the files that are rejected later
  have hlate : ((taken.filter fun r => out.contains r.file).map ScanResult.file).Perm out :=
    filter_files_perm (hfiles.nodup_iff.2 hacc.ordered.nodup) hnd fun f hf =>
      hfiles.mem_iff.2 (hmem f hf)
  refine ⟨without p.candidates out, kept, refused ++ taken.filter fun r => out.contains r.file,
    haccepted, ⟨(propose_keyed hp).filter _, hround, ?_, ?_, ?_, ?_⟩⟩
  · have h₁ := List.filter_append_perm (fun r : ScanResult => out.contains r.file) taken
    have h₂ : (kept ++ (refused ++ taken.filter fun r => out.contains r.file)).Perm
        (refused ++ ((taken.filter fun r => out.contains r.file) ++ kept)) := by
      rw [← List.append_assoc refused]; exact List.perm_append_comm
    have h₃ := (h₁.symm.trans ((hkept.symm.append_left _))).symm
    exact h₂.trans ((h₃.append_left refused).trans (List.perm_append_comm.trans hperm))
  · unfold contributionsOf Table.values
    rw [hcand, List.map_map, List.map_map]
    rfl
  · intro r hr
    exact hacc.eligible r (List.mem_of_mem_filter (hkept.mem_iff.1 hr))
  · rw [List.map_append, List.map_append]
    exact hacc.rejections.append hlate.symm

/-- An edge that stops a whole merge: it is no edge between texts, and an end cannot be looked up, or the
edge dangles and cannot be put in words. -/
def StopsMerge (e : Edge Value) (f : Fault) : Prop :=
  (∀ t : Edge String, e ≠ t.map .str) ∧
    (ScanResult.requireKeys e = .error f ∨
      f = .value .unwritable ∧ (e.source.isWritable && e.target.isWritable) = false)

theorem stopsMerge_of_requireKeys {e : Edge Value} {f : Fault}
    (h : ScanResult.requireKeys e = .error f) : StopsMerge e f := by
  refine ⟨?_, .inl h⟩
  rintro t rfl
  cases h

theorem stopsMerge_of_dangling {names : List String} {e : Edge Value} {x : Value} {f : Fault}
    (hx : missing? names e = some x) (h : danglingReport e x = .error f) : StopsMerge e f := by
  obtain ⟨hf, hw⟩ := danglingReport_eq_error (missing?_eq_some hx).1 h
  refine ⟨?_, .inr ⟨hf, hw⟩⟩
  rintro t rfl
  cases hw

/-- Of the candidates that are left after some rounds, each contributes what its result says. -/
theorem exists_result_of_mem {p : Proposal} (hp : propose s.scans results = .ok p) {out : List String}
    {c : Contribution} (hc : c ∈ contributionsOf (without p.candidates out)) :
    c.file ∉ out ∧ ∃ r ∈ results, c = contentOf s.scans r ∧ Eligible s.scans r := by
  obtain ⟨taken, refused, hperm, hacc⟩ := propose_accounts hp
  unfold contributionsOf Table.values at hc
  rw [List.map_map] at hc
  obtain ⟨entry, hentry, rfl⟩ := List.mem_map.1 hc
  obtain ⟨hmem, hout⟩ := mem_without.1 hentry
  obtain ⟨r, hr, rfl⟩ := List.mem_map.1 (hacc.candidates.mem_iff.1 hmem)
  exact ⟨hout, r, hperm.mem_iff.1 (List.mem_append_left _ hr), rfl, hacc.eligible r hr⟩

/-- A verdict is missing only if some edge cannot be looked up or put in words. -/
theorem judge_eq_error {f : Fault} (h : s.judge results = .error f) :
    ∃ r ∈ results, ∃ e ∈ r.edges, StopsMerge e f := by
  unfold judge at h
  rw [bind_eq_error] at h
  rcases h with h | ⟨p, hp, h⟩
  · obtain ⟨r, hr, e, he, hkeys⟩ := propose_eq_error h
    exact ⟨r, hr, e, he, stopsMerge_of_requireKeys hkeys⟩
  · obtain ⟨misfits, hset, hsettled⟩ := settle_spec s.contributions (propose_keyed hp)
    rw [hset] at h
    rcases bind_eq_error.1 h with h | ⟨_, -, h⟩
    · obtain ⟨m, hm, hreport⟩ := mapM_eq_error h
      have hreport : m.report = .error f := by
        rcases bind_eq_error.1 hreport with hreport | ⟨_, -, hreport⟩
        · exact hreport
        · cases hreport
      obtain ⟨out, -, hround⟩ := hsettled.stage m hm
      rcases mem_round hround with hm | ⟨c, hc, -, hdangling⟩
      · obtain ⟨_, _, _, cause, -, rfl, -⟩ := mem_enroll _ _ hm
        cases hreport
      · rw [hreport] at hdangling
        obtain ⟨before, e, after, x, hedges, hx, hfault, -⟩ := dangling?_eq_some hdangling
        obtain ⟨-, r, hr, rfl, -⟩ := exists_result_of_mem hp hc
        have he : e ∈ (contentOf s.scans r).edges := by rw [hedges]; simp
        exact ⟨r, hr, e, mem_of_mem_keepFirst he, stopsMerge_of_dangling hx hfault⟩
    · cases h

/-- A write to the database changes nothing else. -/
theorem write_eq_ok {t : Store} {f : Database → Except Fault Database} (h : s.write f = .ok t) :
    ∃ database, t = { s with database } := by
  unfold write at h
  split at h
  · exact ⟨s.database, (Except.ok.inj h).symm⟩
  · rw [bind_eq_ok] at h
    obtain ⟨db, -, h⟩ := h
    exact ⟨some db, (Except.ok.inj h).symm⟩

theorem write_eq_error {fault : Fault} {f : Database → Except Fault Database}
    (h : s.write f = .error fault) : ∃ db, s.database = some db ∧ f db = .error fault := by
  unfold write at h
  split at h
  · cases h
  · rename_i db hdb
    rw [bind_eq_error] at h
    rcases h with h | ⟨_, _, h⟩
    · exact ⟨db, hdb, h⟩
    · cases h

/-- **The four ways in which a merge ends:** without a verdict, with nothing accepted, with a database
that does not take the accepted contributions, or with a commit. -/
theorem tryMerge_cases (s : Store) (results : List ScanResult) :
    (∃ f, s.judge results = .error f ∧ s.tryMerge results = .error f) ∨
    (∃ rejections, s.judge results = .ok ([], rejections) ∧
      s.tryMerge results = .ok (s, ⟨[], rejections, s.version⟩)) ∨
    (∃ accepted rejections f, s.judge results = .ok (accepted, rejections) ∧
      s.write (fun db => db.replace accepted) = .error f ∧ s.tryMerge results = .error f) ∨
    (∃ accepted rejections database, s.judge results = .ok (accepted, rejections) ∧ accepted ≠ [] ∧
      s.write (fun db => db.replace accepted) = .ok { s with database } ∧
      s.tryMerge results = .ok ((({ s with database } : Store).commit accepted),
        ⟨accepted.map Contribution.file, rejections, s.version + 1⟩)) := by
  unfold tryMerge
  cases hj : s.judge results with
  | error f => exact .inl ⟨f, rfl, rfl⟩
  | ok verdict =>
    obtain ⟨accepted, rejections⟩ := verdict
    right
    simp only [bind, Except.bind]
    by_cases hempty : accepted = []
    · left
      subst hempty
      exact ⟨rejections, rfl, rfl⟩
    · right
      rw [if_neg (by simpa using hempty)]
      cases hw : s.write fun db => db.replace accepted with
      | error f => exact .inl ⟨accepted, rejections, f, rfl, hw, rfl⟩
      | ok written =>
        obtain ⟨database, rfl⟩ := write_eq_ok hw
        exact .inr ⟨accepted, rejections, database, rfl, hempty, hw, rfl⟩

/-- A result that is rejected from a batch of its own is not merged. -/
theorem merge_of_judge {r : ScanResult} {x : Rejection} (h : s.judge [r] = .ok ([], [x])) :
    s.merge r = (s, .error (.merge x.cause)) := by
  unfold merge mergeBatch tryMerge
  rw [h]
  rfl

/-- A result that does not become a candidate is not merged. -/
theorem merge_of_refused {r : ScanResult} {x : Rejection} (h : propose s.scans [r] = .ok ⟨[], [x]⟩) :
    s.merge r = (s, .error (.merge x.cause)) := by
  refine merge_of_judge ?_
  unfold judge
  change (propose s.scans [r] >>= _) = _
  rw [h]
  rfl

/-! ## Commits -/

/-- A commit sets the contribution and the version of every accepted file. -/
theorem commit_of_mem (s : Store) (hn : (accepted.map Contribution.file).Nodup) {c : Contribution}
    (hc : c ∈ accepted) :
    (s.commit accepted).contributions.get? c.file = some c ∧
      (s.commit accepted).versions.get? c.file = some c.version :=
  ⟨Table.get?_foldl_insert_of_mem Contribution.file id hn hc s.contributions,
    Table.get?_foldl_insert_of_mem Contribution.file Contribution.version hn hc s.versions⟩

/-- A commit leaves all other files as they are. -/
theorem commit_of_not_mem (s : Store) {f : String} (hf : f ∉ accepted.map Contribution.file) :
    (s.commit accepted).contributions.get? f = s.contributions.get? f ∧
      (s.commit accepted).versions.get? f = s.versions.get? f := by
  have hne : ∀ c ∈ accepted, c.file ≠ f := fun c hc hcf => hf (List.mem_map.2 ⟨c, hc, hcf⟩)
  exact ⟨Table.get?_foldl_insert_of_not_mem Contribution.file id hne s.contributions,
    Table.get?_foldl_insert_of_not_mem Contribution.file Contribution.version hne s.versions⟩

theorem get?_commit_eq_some (hn : (accepted.map Contribution.file).Nodup) {f : String}
    {c : Contribution} (h : (s.commit accepted).contributions.get? f = some c) :
    (c ∈ accepted ∧ c.file = f) ∨
      (f ∉ accepted.map Contribution.file ∧ s.contributions.get? f = some c) := by
  by_cases hf : f ∈ accepted.map Contribution.file
  · obtain ⟨d, hd, rfl⟩ := List.mem_map.1 hf
    rw [(commit_of_mem s hn hd).1] at h
    obtain rfl := Option.some.inj h
    exact .inl ⟨hd, rfl⟩
  · rw [(commit_of_not_mem s hf).1] at h
    exact .inr ⟨hf, h⟩

end Store

end ChangeImpact
