import ChangeImpact.Proofs.Faulting
import ChangeImpact.Proofs.Table
import ChangeImpact.Store.Batch

/-!
# Which results become candidates

`Batch.propose` looks at the results of a batch one by one.

* `proposeOne_cases`: what one result does to the candidates and rejections before it.
* `proposeOne_accounts`, `propose_accounts`: **every result is taken as a candidate or refused**, one
  result after the other and so in the whole batch.
* `propose_keeps`: what a batch for different files keeps, result by result.
* `propose_eq_error`: the only fault is an edge that cannot be looked up.
* `inOrder_pairwise`: the order in which results are looked at.
-/

namespace ChangeImpact.Batch

variable {v : Versions} {p p' : Proposal} {r : ScanResult}

/-- What a result contributes: the first entity of each id and the first edge of each key. -/
def contentOf (v : Versions) (r : ScanResult) : Contribution :=
  { file := r.file
    version := versionOf v r
    entities := keepFirst (fun a b => a.id == b.id) r.entities
    edges := keepFirst ScanResult.sameKey r.edges }

/-- The candidate that a result stands for. -/
def candidateOf (v : Versions) (r : ScanResult) : Candidate := ⟨r.version, contentOf v r⟩

theorem addEntities_eq {file : String} {kept es out : List Entity}
    (h : addEntities file kept es = .ok out) : out = addNew (fun a b => a.id == b.id) kept es := by
  fun_induction addEntities file kept es with
  | case1 kept => rw [addNew]; exact (Except.ok.inj h).symm
  | case2 kept e es hk ih =>
    rw [addNew, if_neg (by simpa using hk)]; exact ih h
  | case3 kept e es k hk hid ih =>
    have hke := List.find?_some hk
    have hany : kept.any (fun a => a.id == e.id) = true :=
      List.any_eq_true.2 ⟨k, List.mem_of_find?_eq_some hk, hke⟩
    rw [addNew, if_pos hany]; exact ih h
  | case4 kept e es k hk hid => cases h

theorem entitiesOf_eq {es : List Entity} (h : entitiesOf r = .ok es) :
    es = keepFirst (fun a b => a.id == b.id) r.entities := addEntities_eq h

theorem addEntities_eq_error {file : String} {kept es : List Entity} {cause : MergeFault}
    (h : addEntities file kept es = .error cause) :
    ∃ id existing incoming, cause = .duplicateId id existing incoming file := by
  fun_induction addEntities file kept es with
  | case1 kept => cases h
  | case2 kept e es hk ih => exact ih h
  | case3 kept e es k hk hid ih => exact ih h
  | case4 kept e es k hk hid => exact ⟨_, _, _, (Except.error.inj h).symm⟩

/-- The entities of a result are refused only for an id under two identities. -/
theorem entitiesOf_eq_error {cause : MergeFault} (h : entitiesOf r = .error cause) :
    ∃ id existing incoming, cause = .duplicateId id existing incoming r.file := addEntities_eq_error h

theorem edgesOf_cases (r : ScanResult) :
    (edgesOf r = .ok (keepFirst ScanResult.sameKey r.edges) ∧
        ∀ e ∈ r.edges, ScanResult.requireKeys e = .ok ()) ∨
      ∃ f, edgesOf r = .error f ∧ ∃ e ∈ r.edges, ScanResult.requireKeys e = .error f := by
  unfold edgesOf
  cases h : r.edges.forM ScanResult.requireKeys with
  | ok u => exact .inl ⟨rfl, forM_eq_ok.1 h⟩
  | error f => exact .inr ⟨f, rfl, forM_eq_error h⟩

/-- The proposal with one more rejection. -/
def Proposal.refuse (p : Proposal) (file : String) (cause : MergeFault) : Proposal :=
  { p with rejections := p.rejections ++ [⟨file, cause⟩] }

/-- **What one result does.** It is refused, because it is not newer than the graph or declares an id
under two identities, or it becomes the candidate of its file; an earlier candidate gives way to it in
each case. Only an edge that cannot be looked up is a fault. -/
theorem proposeOne_cases (v : Versions) (p : Proposal) (r : ScanResult) :
    (versionOf v r ≤ v.committed r.file ∧
      proposeOne v p r = .ok ((supersede p r.file (versionOf v r)).refuse r.file
        (.stale r.file (versionOf v r) (v.committed r.file)))) ∨
    (v.committed r.file < versionOf v r ∧ ∃ cause, entitiesOf r = .error cause ∧
      proposeOne v p r = .ok ((supersede p r.file (versionOf v r)).refuse r.file cause)) ∨
    (v.committed r.file < versionOf v r ∧ (∃ es, entitiesOf r = .ok es) ∧
      (∀ e ∈ r.edges, ScanResult.requireKeys e = .ok ()) ∧
      proposeOne v p r = .ok { supersede p r.file (versionOf v r) with
        candidates := (supersede p r.file (versionOf v r)).candidates.insert r.file
          (candidateOf v r) }) ∨
    (∃ f, proposeOne v p r = .error f ∧ ∃ e ∈ r.edges, ScanResult.requireKeys e = .error f) := by
  unfold proposeOne
  by_cases hv : versionOf v r ≤ v.committed r.file
  · left
    exact ⟨hv, by simp only [if_pos hv]; rfl⟩
  · right
    simp only [if_neg hv]
    rw [not_le] at hv
    cases he : entitiesOf r with
    | error cause => exact .inl ⟨hv, cause, rfl, rfl⟩
    | ok es =>
      right
      rcases edgesOf_cases r with ⟨hed, hk⟩ | ⟨f, hed, hk⟩
      · left
        refine ⟨hv, ⟨es, rfl⟩, hk, ?_⟩
        simp only [hed, entitiesOf_eq he]
        rfl
      · right
        exact ⟨f, by simp only [hed]; rfl, hk⟩

/-- A result that may become a candidate: it is newer than the graph, declares no id under two
identities, and all its edges can be looked up. -/
structure Eligible (v : Versions) (r : ScanResult) : Prop where
  newer : v.committed r.file < versionOf v r
  entities : ∃ es, entitiesOf r = .ok es
  keys : ∀ e ∈ r.edges, ScanResult.requireKeys e = .ok ()

/-- A proposal stands for some results that were taken as candidates and some that were refused. -/
structure Accounts (v : Versions) (taken refused : List ScanResult) (p : Proposal) : Prop where
  ordered : p.candidates.Ordered
  candidates : p.candidates.Perm (taken.map fun r => (r.file, candidateOf v r))
  eligible : ∀ r ∈ taken, Eligible v r
  rejections : (p.rejections.map Rejection.file).Perm (refused.map ScanResult.file)

theorem accounts_empty (v : Versions) : Accounts v [] [] {} :=
  ⟨Table.ordered_nil, by simp, by simp, by simp⟩

theorem Accounts.refuse {taken refused : List ScanResult} (h : Accounts v taken refused p)
    (r : ScanResult) (cause : MergeFault) :
    Accounts v taken (refused ++ [r]) (p.refuse r.file cause) := by
  refine ⟨h.ordered, h.candidates, h.eligible, ?_⟩
  simp only [Proposal.refuse, List.map_append, List.map_cons, List.map_nil]
  exact h.rejections.append (List.Perm.refl _)

/-- A candidate that gives way moves from the taken results to the refused ones. -/
theorem Accounts.supersede {taken refused : List ScanResult} (h : Accounts v taken refused p)
    (file : String) (version : Int) :
    ∃ taken' refused', (taken' ++ refused').Perm (taken ++ refused) ∧
      Accounts v taken' refused' (supersede p file version) ∧
      file ∉ (Batch.supersede p file version).candidates.keys := by
  unfold Batch.supersede
  cases hc : p.candidates.get? file with
  | none => exact ⟨taken, refused, List.Perm.refl _, h, Table.get?_eq_none_iff.1 hc⟩
  | some c =>
    have hmem := h.candidates.mem_iff.1 (Table.mem_of_get?_eq_some hc)
    obtain ⟨r, hr, hrc⟩ := List.mem_map.1 hmem
    obtain ⟨rfl, rfl⟩ := Prod.mk.inj hrc
    obtain ⟨as, bs, rfl⟩ := List.append_of_mem hr
    refine ⟨as ++ bs, refused ++ [r], ?_, ⟨h.ordered.erase _, ?_, ?_, ?_⟩, ?_⟩
    · have h₁ : (as ++ bs ++ (refused ++ [r])).Perm (r :: (as ++ bs ++ refused)) := by
        rw [← List.append_assoc]; exact List.perm_append_comm
      have h₂ : (r :: (as ++ bs ++ refused)).Perm (as ++ r :: bs ++ refused) := by
        simpa using (@List.perm_middle _ r as (bs ++ refused)).symm
      exact h₁.trans h₂
    · -- both sides are what is left of the candidates without the one that gives way
      have h₁ := (Table.perm_cons_erase h.ordered hc).symm.trans h.candidates
      rw [List.map_append, List.map_cons] at h₁
      rw [List.map_append]
      exact (h₁.trans List.perm_middle).cons_inv
    · intro r' hr'
      apply h.eligible
      rcases List.mem_append.1 hr' with hr' | hr'
      · exact List.mem_append_left _ hr'
      · exact List.mem_append_right _ (List.mem_cons_of_mem _ hr')
    · simp only [List.map_append, List.map_cons, List.map_nil]
      exact h.rejections.append (List.Perm.refl _)
    · rw [← Table.get?_eq_none_iff, Table.get?_erase, if_pos rfl]

theorem Accounts.accept {taken refused : List ScanResult} (h : Accounts v taken refused p)
    (hr : Eligible v r) (hfile : r.file ∉ p.candidates.keys) :
    Accounts v (r :: taken) refused
      { p with candidates := p.candidates.insert r.file (candidateOf v r) } := by
  refine ⟨h.ordered.insert _ _, ?_, ?_, h.rejections⟩
  · exact (Table.insert_perm hfile _).trans (h.candidates.cons _)
  · intro r' hr'
    rcases List.mem_cons.1 hr' with rfl | hr'
    · exact hr
    · exact h.eligible r' hr'

/-- One more result is taken or refused. -/
theorem proposeOne_accounts {done : List ScanResult}
    (h : ∃ taken refused, (taken ++ refused).Perm done ∧ Accounts v taken refused p)
    (hp : proposeOne v p r = .ok p') :
    ∃ taken refused, (taken ++ refused).Perm (done ++ [r]) ∧ Accounts v taken refused p' := by
  obtain ⟨taken, refused, hdone, hacc⟩ := h
  obtain ⟨taken', refused', hperm, hsup, hfile⟩ := hacc.supersede r.file (versionOf v r)
  have hdone' := hperm.trans hdone
  have hrefuse : ∀ cause, proposeOne v p r =
        .ok ((supersede p r.file (versionOf v r)).refuse r.file cause) →
      ∃ taken refused, (taken ++ refused).Perm (done ++ [r]) ∧ Accounts v taken refused p' := by
    intro cause hc
    rw [hc] at hp
    rw [← Except.ok.inj hp]
    refine ⟨taken', refused' ++ [r], ?_, hsup.refuse r cause⟩
    rw [← List.append_assoc]; exact hdone'.append (List.Perm.refl _)
  rcases proposeOne_cases v p r with ⟨-, hc⟩ | ⟨-, cause, -, hc⟩ | ⟨hv, he, hk, hc⟩ | ⟨f, hc, -⟩
  · exact hrefuse _ hc
  · exact hrefuse _ hc
  · rw [hc] at hp
    rw [← Except.ok.inj hp]
    refine ⟨r :: taken', refused', ?_, hsup.accept ⟨hv, he, hk⟩ hfile⟩
    exact (hdone'.cons r).trans (@List.perm_append_comm _ [r] done)
  · rw [hc] at hp; cases hp

/-- **Every result of a batch is taken as the candidate of its file or refused.** -/
theorem propose_accounts {results : List ScanResult} (h : propose v results = .ok p) :
    ∃ taken refused, (taken ++ refused).Perm results ∧ Accounts v taken refused p := by
  have hkeep := foldlM_keeps
    (fun done p => ∃ taken refused, (taken ++ refused).Perm done ∧ Accounts v taken refused p)
    (fun done b x b' hb hx => proposeOne_accounts hb hx) (inOrder results) [] {} p
    ⟨[], [], List.Perm.refl _, accounts_empty v⟩ h
  obtain ⟨taken, refused, hperm, hacc⟩ := hkeep
  exact ⟨taken, refused, hperm.trans (List.mergeSort_perm _ _), hacc⟩

/-- What every result for a new file keeps, a batch for different files keeps. -/
theorem propose_keeps {results : List ScanResult} (P : List ScanResult → Proposal → Prop)
    (hstep : ∀ done p r p', r ∈ results → r.file ∉ done.map ScanResult.file → P done p →
      proposeOne v p r = .ok p' → P (done ++ [r]) p')
    (hfiles : (results.map ScanResult.file).Nodup) (h₀ : P [] {}) (h : propose v results = .ok p) :
    ∃ done, done.Perm results ∧ P done p := by
  have hperm : (inOrder results).Perm results := List.mergeSort_perm _ _
  have hkeep := foldlM_keeps
    (fun done p => (done.map ScanResult.file).Nodup → (∀ r ∈ done, r ∈ results) → P done p)
    (fun done b x b' hb hx hnodup hsub => by
      rw [List.map_append, List.nodup_append] at hnodup
      refine hstep done b x b' (hsub x (by simp)) ?_
        (hb hnodup.1 fun r hr => hsub r (List.mem_append_left _ hr)) hx
      exact fun hmem => hnodup.2.2 _ hmem x.file (by simp) rfl)
    (inOrder results) [] {} p (fun _ _ => h₀) h
  exact ⟨_, hperm, hkeep ((hperm.map _).nodup_iff.2 hfiles) fun r hr => hperm.mem_iff.1 hr⟩

/-- Looking at a batch faults only at an edge that cannot be looked up. -/
theorem propose_eq_error {results : List ScanResult} {f : Fault} (h : propose v results = .error f) :
    ∃ r ∈ results, ∃ e ∈ r.edges, ScanResult.requireKeys e = .error f := by
  obtain ⟨r, hr, q, hq⟩ := foldlM_eq_error _ _ h
  refine ⟨r, (List.mergeSort_perm _ _).mem_iff.1 hr, ?_⟩
  rcases proposeOne_cases v q r with ⟨-, hc⟩ | ⟨-, cause, -, hc⟩ | ⟨-, -, -, hc⟩ | ⟨f', hc, hk⟩
  · rw [hc] at hq; cases hq
  · rw [hc] at hq; cases hq
  · rw [hc] at hq; cases hq
  · rw [hc] at hq
    cases hq
    exact hk

/-- Results that are in order are looked at as they come. -/
theorem inOrder_eq_self {results : List ScanResult} (h : results.Pairwise fun a b =>
    (Text.lt a.file b.file || (a.file == b.file && a.version.getD 0 ≤ b.version.getD 0)) = true) :
    inOrder results = results := List.mergeSort_of_pairwise h

/-- Results are looked at by file, those for one file by the version they were scanned as, where none
counts as zero. -/
theorem inOrder_pairwise (results : List ScanResult) :
    (inOrder results).Pairwise fun a b => Text.lt a.file b.file = true ∨
      a.file = b.file ∧ a.version.getD 0 ≤ b.version.getD 0 := by
  refine (List.pairwise_mergeSort ?_ ?_ results).imp fun {a b} h => ?_
  · intro a b c hab hbc
    simp only [Bool.or_eq_true, Bool.and_eq_true, beq_iff_eq, decide_eq_true_eq] at hab hbc ⊢
    rcases hab with hab | ⟨hab, hv⟩ <;> rcases hbc with hbc | ⟨hbc, hw⟩
    · exact .inl (Text.lt_trans hab hbc)
    · exact .inl (hbc ▸ hab)
    · exact .inl (hab ▸ hbc)
    · exact .inr ⟨hab.trans hbc, hv.trans hw⟩
  · intro a b
    simp only [Bool.or_eq_true, Bool.and_eq_true, beq_iff_eq, decide_eq_true_eq]
    rcases Text.lt_or_eq_or_lt a.file b.file with h | h | h
    · exact .inl (.inl h)
    · rcases Int.le_total (a.version.getD 0) (b.version.getD 0) with hv | hv
      · exact .inl (.inr ⟨h, hv⟩)
      · exact .inr (.inr ⟨h.symm, hv⟩)
    · exact .inr (.inl h)
  · simpa only [Bool.or_eq_true, Bool.and_eq_true, beq_iff_eq, decide_eq_true_eq] using h

/-- The files come in order. -/
theorem inOrder_files (results : List ScanResult) :
    (inOrder results).Pairwise fun a b => Text.le a.file b.file = true :=
  (inOrder_pairwise results).imp fun h => Text.le_iff_lt_or_eq.2 (h.imp_right And.left)

/-- A batch of one result. -/
theorem propose_singleton (v : Versions) (r : ScanResult) : propose v [r] = proposeOne v {} r := by
  unfold propose inOrder
  rw [List.mergeSort_singleton, List.foldlM_cons]
  cases proposeOne v {} r <;> rfl

end ChangeImpact.Batch
