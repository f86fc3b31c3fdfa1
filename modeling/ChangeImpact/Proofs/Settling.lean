import ChangeImpact.Proofs.Proposal

/-!
# Which candidates fit together

`Batch.settle` rejects candidates round by round. The rounds end with candidates of which a further
round rejects none, so everything about the result is said by that one last round.

* `Settled`, `settle_spec`: **the last round rejects nobody**, and every candidate is accepted or
  rejected once.
* `round_eq_nil`: what a round without rejections says about the ids and the edges of the graph that
  the candidates would make.
* `mem_round`: why a round rejects a file, and `mapM_rejection_eq_ok`, `danglingReport_eq_error`: when
  that can be reported.
* `Consistent`: no id is known under two identities.
-/

namespace ChangeImpact

/-- The misfit that a rejection reports. -/
def Rejection.misfit (x : Rejection) : Misfit := ⟨x.file, .ok x.cause⟩

namespace Batch

variable {current : Table Contribution} {accepted : Table Candidate} {ids : Known}
  {c : Contribution}

/-- Each candidate stands under the file that it contributes to. -/
def Keyed (accepted : Table Candidate) : Prop :=
  accepted.Ordered ∧ ∀ e ∈ accepted, e.2.contribution.file = e.1

/-- The contributions of some candidates, in path order. -/
def contributionsOf (accepted : Table Candidate) : List Contribution :=
  accepted.values.map Candidate.contribution

theorem Keyed.files (h : Keyed accepted) :
    (contributionsOf accepted).map Contribution.file = accepted.keys := by
  unfold contributionsOf Table.values Table.keys
  rw [List.map_map, List.map_map]
  exact List.map_congr_left h.2

theorem Keyed.ascending_files (h : Keyed accepted) :
    Text.Ascending ((contributionsOf accepted).map Contribution.file) := h.files ▸ h.1

theorem Keyed.filter (h : Keyed accepted) (p : String × Candidate → Bool) : Keyed (accepted.filter p) :=
  ⟨h.1.filter p, fun e he => h.2 e (List.mem_of_mem_filter he)⟩

/-! ## One round -/

theorem enroll_files_sublist (ids : Known) (cs : List Contribution) :
    ((enroll ids cs).2.map Misfit.file).Sublist (cs.map Contribution.file) := by
  fun_induction enroll ids cs with
  | case1 ids => exact List.Sublist.refl _
  | case2 ids c cs cause hc all misfits heq ih =>
    rw [heq] at ih
    exact ih.cons_cons _
  | case3 ids c cs hc ih => exact ih.cons _

/-- The ids known in a round, and the candidates in conflict with them. -/
def enrolled (current : Table Contribution) (accepted : Table Candidate) : Known × List Misfit :=
  enroll (background current accepted) (contributionsOf accepted)

theorem round_eq (current : Table Contribution) (accepted : Table Candidate) :
    round current accepted =
      if !(enrolled current accepted).2.isEmpty then (enrolled current accepted).2
      else (contributionsOf accepted).filterMap fun c =>
        (dangling? ((enrolled current accepted).1.map (·.1)) c).map fun report => ⟨c.file, report⟩ := rfl

theorem filterMap_files_sublist (judge : Contribution → Option (Except Fault MergeFault))
    (cs : List Contribution) :
    ((cs.filterMap fun c => (judge c).map fun report => (⟨c.file, report⟩ : Misfit)).map
      Misfit.file).Sublist (cs.map Contribution.file) := by
  induction cs with
  | nil => exact List.Sublist.refl _
  | cons c cs ih =>
    rw [List.filterMap_cons]
    cases judge c with
    | none => exact ih.cons _
    | some report => exact ih.cons_cons _

/-- A round rejects candidates, each at most once. -/
theorem round_files_sublist (h : Keyed accepted) :
    ((round current accepted).map Misfit.file).Sublist accepted.keys := by
  rw [← h.files, round_eq]
  split
  · exact enroll_files_sublist _ _
  · exact filterMap_files_sublist _ _

theorem round_nil (current : Table Contribution) : round current [] = [] := by
  simp [round, Table.values, enroll]

/-- The accepted candidates without those of some files. -/
def without (accepted : Table Candidate) (files : List String) : Table Candidate :=
  accepted.filter fun c => !files.contains c.1

theorem mem_without {accepted : Table Candidate} {files : List String} {e : String × Candidate} :
    e ∈ without accepted files ↔ e ∈ accepted ∧ e.1 ∉ files := by
  unfold without
  rw [List.mem_filter]; simp

theorem without_nil (accepted : Table Candidate) : without accepted [] = accepted := by
  unfold without; simp

theorem without_append (accepted : Table Candidate) (fs gs : List String) :
    without (without accepted fs) gs = without accepted (fs ++ gs) := by
  unfold without
  rw [List.filter_filter]
  apply List.filter_congr
  intro e _
  by_cases h₁ : e.1 ∈ fs <;> by_cases h₂ : e.1 ∈ gs <;> simp [h₁, h₂]

/-- Leaving out a file that has a candidate leaves fewer candidates. -/
theorem length_without_lt {files : List String} {f : String} (hf : f ∈ files) (hk : f ∈ accepted.keys) :
    (without accepted files).length < accepted.length := by
  obtain ⟨c, hc⟩ := Table.mem_keys.1 hk
  unfold without
  apply List.length_filter_lt_length_iff_exists.2
  exact ⟨(f, c), hc, by simpa using hf⟩

/-! ## All rounds -/

/-- What the rounds make of some candidates: those of the rejected files are left out. -/
structure Settled (current : Table Contribution) (candidates : Table Candidate)
    (rejected : List Misfit) : Prop where
  nodup : (rejected.map Misfit.file).Nodup
  keys : ∀ f ∈ rejected.map Misfit.file, f ∈ candidates.keys
  last : round current (without candidates (rejected.map Misfit.file)) = []
  /-- Each file is rejected in a round that came after the rejections of some others. -/
  stage : ∀ m ∈ rejected, ∃ out : List String, (∀ f ∈ out, f ∈ rejected.map Misfit.file) ∧
    m ∈ round current (without candidates out)

/-- The rounds after one that rejects some files. -/
theorem Settled.after (hk : Keyed accepted) {rejected : List Misfit}
    (h : Settled current (without accepted ((round current accepted).map Misfit.file)) rejected) :
    Settled current accepted (round current accepted ++ rejected) := by
  have hsub : ((round current accepted).map Misfit.file).Sublist accepted.keys :=
    round_files_sublist hk
  have hkeys : ∀ f ∈ rejected.map Misfit.file,
      f ∈ accepted.keys ∧ f ∉ (round current accepted).map Misfit.file := fun f hf => by
    obtain ⟨c, hc⟩ := Table.mem_keys.1 (h.keys f hf)
    have hc := mem_without.1 hc
    exact ⟨Table.mem_keys.2 ⟨c, hc.1⟩, hc.2⟩
  refine ⟨?_, ?_, ?_, ?_⟩
  · rw [List.map_append, List.nodup_append]
    refine ⟨hk.1.nodup.sublist hsub, h.nodup, ?_⟩
    intro a ha b hb hab
    exact (hkeys b hb).2 (hab ▸ ha)
  · rw [List.map_append]
    intro f hf
    rcases List.mem_append.1 hf with hf | hf
    · exact hsub.subset hf
    · exact (hkeys f hf).1
  · rw [List.map_append, ← without_append]; exact h.last
  · intro m hm
    rcases List.mem_append.1 hm with hm | hm
    · exact ⟨[], by simp, by rw [without_nil]; exact hm⟩
    · obtain ⟨out, hout, hround⟩ := h.stage m hm
      refine ⟨(round current accepted).map Misfit.file ++ out, ?_, by rw [← without_append]; exact hround⟩
      rw [List.map_append]
      intro f hf
      rcases List.mem_append.1 hf with hf | hf
      · exact List.mem_append_left _ hf
      · exact List.mem_append_right _ (hout f hf)

/-- **Settling ends in a round without rejections.** The fuel suffices because every round before the
last one leaves fewer candidates. -/
theorem settleFrom_spec (current : Table Contribution) (fuel : Nat) :
    ∀ (accepted : Table Candidate) (misfits : List Misfit), Keyed accepted →
      accepted.length ≤ fuel →
      ∃ rejected : List Misfit,
        settleFrom current fuel accepted misfits =
          (without accepted (rejected.map Misfit.file), misfits ++ rejected) ∧
        Settled current accepted rejected := by
  induction fuel with
  | zero =>
    intro accepted misfits hk hlen
    obtain rfl : accepted = [] := List.length_eq_zero_iff.1 (Nat.le_zero.1 hlen)
    exact ⟨[], by simp [settleFrom, without], by simp, by simp, round_nil current, by simp⟩
  | succ fuel ih =>
    intro accepted misfits hk hlen
    rw [settleFrom]
    cases hr : round current accepted with
    | nil =>
      exact ⟨[], by simp [without_nil], by simp, by simp, by simpa [without_nil] using hr, by simp⟩
    | cons x xs =>
      have hx : x.file ∈ (x :: xs).map Misfit.file := by simp
      have hkey : x.file ∈ accepted.keys := (round_files_sublist hk).subset (hr ▸ hx)
      have hlt := length_without_lt hx hkey
      obtain ⟨rejected, hset, hsettled⟩ :=
        ih (without accepted ((x :: xs).map Misfit.file)) (misfits ++ x :: xs) (hk.filter _) (by omega)
      rw [← hr] at hsettled
      refine ⟨x :: xs ++ rejected, ?_, hr ▸ hsettled.after hk⟩
      rw [List.map_append, ← without_append, ← List.append_assoc]
      exact hset

theorem settle_spec (current : Table Contribution) {candidates : Table Candidate}
    (hk : Keyed candidates) :
    ∃ rejected : List Misfit,
      settle current candidates = (without candidates (rejected.map Misfit.file), rejected) ∧
      Settled current candidates rejected :=
  settleFrom_spec current _ _ [] hk le_rfl

/-! ## What the last round says -/

/-- No id is known under two identities. -/
def Consistent (ids : Known) : Prop := ∀ a ∈ ids, ∀ b ∈ ids, a.1 = b.1 → a.2.1 = b.2.1

theorem mem_known {a : String × Identity × String} :
    a ∈ known c ↔ ∃ e ∈ c.entities, (e.id, e.identity, c.file) = a := by
  unfold known; exact List.mem_map

/-- A contribution without a conflict agrees with everything known about its ids. The conflict is
looked for at the first entry of an id only, and consistency extends it to all of them. -/
theorem identity_of_no_conflict (hi : Consistent ids) (h : conflict? ids c = none) {e : Entity}
    (he : e ∈ c.entities) {a : String × Identity × String} (ha : a ∈ ids) (hid : a.1 = e.id) :
    a.2.1 = e.identity := by
  have hnone := List.findSome?_eq_none_iff.1 h e he
  have hsome : (ids.lookup e.id).isSome := List.lookup_isSome_iff.2 ⟨a, ha, by simp [hid]⟩
  obtain ⟨⟨identity, owner⟩, hl⟩ := Option.isSome_iff_exists.1 hsome
  simp only [hl] at hnone
  have hidentity : identity = e.identity := by
    by_contra hne
    simp [hne] at hnone
  obtain ⟨l₁, l₂, hsplit, -⟩ := List.lookup_eq_some_iff.1 hl
  have hmem : (e.id, identity, owner) ∈ ids := by
    rw [hsplit]; exact List.mem_append_right _ List.mem_cons_self
  rw [hi a ha _ hmem hid, hidentity]

theorem Consistent.append_known (hi : Consistent ids) (h : conflict? ids c = none)
    (hn : (c.entities.map Entity.id).Nodup) : Consistent (ids ++ known c) := by
  intro a ha b hb hab
  rcases List.mem_append.1 ha with ha | ha <;> rcases List.mem_append.1 hb with hb | hb
  · exact hi a ha b hb hab
  · obtain ⟨e, he, rfl⟩ := mem_known.1 hb
    exact identity_of_no_conflict hi h he ha hab
  · obtain ⟨e, he, rfl⟩ := mem_known.1 ha
    exact (identity_of_no_conflict hi h he hb hab.symm).symm
  · obtain ⟨e, he, rfl⟩ := mem_known.1 ha
    obtain ⟨e', he', rfl⟩ := mem_known.1 hb
    rw [List.inj_on_of_nodup_map hn he he' hab]

/-- If nobody is in conflict, everybody is enrolled. -/
theorem enroll_of_no_conflict (ids : Known) (cs : List Contribution) (h : (enroll ids cs).2 = []) :
    (enroll ids cs).1 = ids ++ cs.flatMap known := by
  fun_induction enroll ids cs with
  | case1 ids => simp
  | case2 ids c cs cause hc all misfits heq ih => cases h
  | case3 ids c cs hc ih => rw [ih h, List.flatMap_cons, List.append_assoc]

theorem enroll_consistent (ids : Known) (cs : List Contribution) (hi : Consistent ids)
    (hn : ∀ c ∈ cs, (c.entities.map Entity.id).Nodup) (h : (enroll ids cs).2 = []) :
    Consistent (ids ++ cs.flatMap known) := by
  fun_induction enroll ids cs with
  | case1 ids => simpa using hi
  | case2 ids c cs cause hc all misfits heq ih => cases h
  | case3 ids c cs hc ih =>
    rw [List.flatMap_cons, ← List.append_assoc]
    refine ih ?_ (fun d hd => hn d (List.mem_cons_of_mem _ hd)) h
    exact hi.append_known hc (hn c List.mem_cons_self)

/-- The value is one of some names. -/
def isNamed (names : List String) : Value → Bool
  | .str s => names.contains s
  | _ => false

theorem isNamed_iff {names : List String} {x : Value} :
    isNamed names x = true ↔ ∃ a, x = .str a ∧ a ∈ names := by
  cases x <;> simp [isNamed]

theorem missing?_eq (names : List String) (e : Edge Value) :
    missing? names e = if !isNamed names e.source then some e.source
      else if !isNamed names e.target then some e.target else none := rfl

/-- An edge of which no end is missing is an edge between some of the names. -/
theorem missing?_eq_none {names : List String} {e : Edge Value} (h : missing? names e = none) :
    ∃ t : Edge String, e = t.map .str ∧ t.source ∈ names ∧ t.target ∈ names := by
  rw [missing?_eq] at h
  split at h
  · cases h
  · rename_i hs
    split at h
    · cases h
    · rename_i ht
      rw [Bool.not_eq_true', Bool.not_eq_false, isNamed_iff] at hs ht
      obtain ⟨a, hsource, ha⟩ := hs
      obtain ⟨b, htarget, hb⟩ := ht
      refine ⟨⟨a, b, e.dimension, e.direction, e.confidence⟩, ?_, ha, hb⟩
      rw [Edge.map, ← hsource, ← htarget]

/-- Everything known when some candidates are accepted. -/
def knownWith (current : Table Contribution) (accepted : Table Candidate) : Known :=
  background current accepted ++ (contributionsOf accepted).flatMap known

/-- What a candidate declares is known. -/
theorem mem_knownWith_of_mem (current : Table Contribution) (hc : c ∈ contributionsOf accepted)
    {e : Entity} (he : e ∈ c.entities) : (e.id, e.identity, c.file) ∈ knownWith current accepted :=
  List.mem_append_right _ (List.mem_flatMap.2 ⟨c, hc, mem_known.2 ⟨e, he, rfl⟩⟩)

/-- **A round without rejections** finds no conflict, and finds both ends of every edge of a candidate
among the ids that are known with the candidates. -/
theorem round_eq_nil (h : round current accepted = []) :
    (enrolled current accepted).2 = [] ∧
      ∀ c ∈ contributionsOf accepted, ∀ e ∈ c.edges, ∃ t : Edge String, e = t.map .str ∧
        t.source ∈ (knownWith current accepted).map (·.1) ∧
        t.target ∈ (knownWith current accepted).map (·.1) := by
  rw [round_eq] at h
  split at h
  · rename_i hne
    rw [h] at hne; cases hne
  · rename_i hempty
    have hnil : (enrolled current accepted).2 = [] := by simpa using hempty
    refine ⟨hnil, ?_⟩
    intro c hc e he
    rw [List.filterMap_eq_nil_iff] at h
    have hd : dangling? ((enrolled current accepted).1.map (·.1)) c = none := by simpa using h c hc
    have hm := List.findSome?_eq_none_iff.1 hd e he
    have hall : (enrolled current accepted).1 = knownWith current accepted :=
      enroll_of_no_conflict _ _ hnil
    rw [hall] at hm
    exact missing?_eq_none (by simpa using hm)

/-! ## Why a file is rejected -/

/-- **A round rejects a file** for a conflict with what is known already, or, if there is no conflict,
for an edge that dangles. -/
theorem mem_round {m : Misfit} (h : m ∈ round current accepted) :
    m ∈ (enrolled current accepted).2 ∨
      ∃ c ∈ contributionsOf accepted, m.file = c.file ∧
        dangling? ((knownWith current accepted).map (·.1)) c = some m.report := by
  rw [round_eq] at h
  split at h
  · exact .inl h
  · rename_i hempty
    right
    have hnil : (enrolled current accepted).2 = [] := by simpa using hempty
    have hall : (enrolled current accepted).1 = knownWith current accepted :=
      enroll_of_no_conflict _ _ hnil
    obtain ⟨c, hc, hm⟩ := List.mem_filterMap.1 h
    obtain ⟨report, hreport, rfl⟩ := Option.map_eq_some_iff.1 hm
    exact ⟨c, hc, rfl, hall ▸ hreport⟩

/-- A conflict is with an id that was known before, or that a contribution before this one declares. -/
theorem mem_enroll {m : Misfit} (ids : Known) (cs : List Contribution) (h : m ∈ (enroll ids cs).2) :
    ∃ before c after cause, cs = before ++ c :: after ∧ m = ⟨c.file, .ok cause⟩ ∧
      ∃ seen, conflict? seen c = some cause ∧ ∀ a ∈ seen, a ∈ ids ∨ ∃ b ∈ before, a ∈ known b := by
  fun_induction enroll ids cs with
  | case1 ids => cases h
  | case2 ids c cs cause hc all misfits heq ih =>
    rcases List.mem_cons.1 h with rfl | h
    · exact ⟨[], c, cs, cause, rfl, rfl, ids, hc, fun a ha => .inl ha⟩
    · rw [heq] at ih
      obtain ⟨before, d, after, cause', rfl, hm, seen, hd, hseen⟩ := ih h
      refine ⟨c :: before, d, after, cause', rfl, hm, seen, hd, fun a ha => ?_⟩
      rcases hseen a ha with ha | ⟨b, hb, ha⟩
      · exact .inl ha
      · exact .inr ⟨b, List.mem_cons_of_mem _ hb, ha⟩
  | case3 ids c cs hc ih =>
    obtain ⟨before, d, after, cause', rfl, hm, seen, hd, hseen⟩ := ih h
    refine ⟨c :: before, d, after, cause', rfl, hm, seen, hd, fun a ha => ?_⟩
    rcases hseen a ha with ha | ⟨b, hb, ha⟩
    · rcases List.mem_append.1 ha with ha | ha
      · exact .inl ha
      · exact .inr ⟨c, List.mem_cons_self, ha⟩
    · exact .inr ⟨b, List.mem_cons_of_mem _ hb, ha⟩

/-- What is reported on the first edge that dangles. -/
theorem dangling?_eq_some {names : List String} {report : Except Fault MergeFault}
    (h : dangling? names c = some report) :
    ∃ before e after x, c.edges = before ++ e :: after ∧ missing? names e = some x ∧
      danglingReport e x = report ∧ ∀ d ∈ before, missing? names d = none := by
  obtain ⟨before, e, after, hedges, he, hbefore⟩ := List.findSome?_eq_some_iff.1 h
  obtain ⟨x, hx, hreport⟩ := Option.map_eq_some_iff.1 he
  exact ⟨before, e, after, x, hedges, hx, hreport, fun d hd => by simpa using hbefore d hd⟩

/-- The missing end of an edge is its source or its target, and it is none of the names. -/
theorem missing?_eq_some {names : List String} {e : Edge Value} {x : Value}
    (h : missing? names e = some x) : (x = e.source ∨ x = e.target) ∧ isNamed names x = false := by
  rw [missing?_eq] at h
  split at h
  · rename_i hs
    obtain rfl := Option.some.inj h
    exact ⟨.inl rfl, by simpa using hs⟩
  · split at h
    · rename_i ht
      obtain rfl := Option.some.inj h
      exact ⟨.inr rfl, by simpa using ht⟩
    · cases h

/-- An edge is put in words unless an end holds an integer that is too long to be written. -/
theorem danglingReport_eq_error {e : Edge Value} {x : Value} {f : Fault}
    (hx : x = e.source ∨ x = e.target) (h : danglingReport e x = .error f) :
    f = .value .unwritable ∧ (e.source.isWritable && e.target.isWritable) = false := by
  have htext : ∀ y : Value, y.toText = .error f → f = .value .unwritable ∧ y.isWritable = false := by
    intro y hy
    unfold Value.toText at hy
    split at hy
    · cases hy
    · rename_i hw
      exact ⟨(Except.error.inj hy).symm, by simpa using hw⟩
  unfold danglingReport at h
  rw [bind_eq_error] at h
  rcases h with h | ⟨_, -, h⟩
  · obtain ⟨hf, hw⟩ := htext _ h
    exact ⟨hf, by rw [hw, Bool.false_and]⟩
  rw [bind_eq_error] at h
  rcases h with h | ⟨_, -, h⟩
  · obtain ⟨hf, hw⟩ := htext _ h
    exact ⟨hf, by rw [hw, Bool.and_false]⟩
  rw [bind_eq_error] at h
  rcases h with h | ⟨_, -, h⟩
  · obtain ⟨hf, hw⟩ := htext _ h
    rcases hx with rfl | rfl
    · exact ⟨hf, by rw [hw, Bool.false_and]⟩
    · exact ⟨hf, by rw [hw, Bool.and_false]⟩
  · cases h

/-- Misfits that can all be reported are those of their rejections. -/
theorem mapM_rejection_eq_ok {misfits : List Misfit} {late : List Rejection}
    (h : misfits.mapM Misfit.rejection = .ok late) : misfits = late.map Rejection.misfit := by
  have hall := forall₂_of_mapM_eq_ok h
  clear h
  induction hall with
  | nil => rfl
  | cons hm _ ih =>
    obtain ⟨cause, hcause, hx⟩ := bind_eq_ok.1 hm
    rw [ih, List.map_cons, ← Except.ok.inj hx, Rejection.misfit, ← hcause]

theorem map_file_misfit (late : List Rejection) :
    (late.map Rejection.misfit).map Misfit.file = late.map Rejection.file := List.map_map

end Batch

end ChangeImpact
