import ChangeImpact.Proofs.Chains
import ChangeImpact.Proofs.Planning

/-!
# Configuration keys follow their readers

A configuration key is reached from the entity that reads it, which may be a changed entity, an impacted
one, or another key. Placing goes depth first: a key comes right after its reader and is followed by the
keys that it leads to. The sections are filled one after the other, and all of them draw from one table of
waiting keys, so where a key ends up depends on what the sections before it took.

* `ReadFrom`: the chain of readers from a key back to an entity.
* `Serves`: **what one stage of the plan does to the table of waiting keys**, with `serves_placeAll`,
  `serves_placeFor` and `Serves.append`.
* `Run`: stages one after the other, and by induction what they do together.
* `Rooted`: what placing needs of a result, which `Impact.rooted_of_analyze` gives.
* `analyze_plan_follows_readers`: **in a plan for the result of an analysis every key follows its reader.**
-/

namespace ChangeImpact

/-- The order of the steps of a section: by layer, then by id. -/
def PlanStep.Before (a b : PlanStep) : Prop :=
  a.layer < b.layer ∨ a.layer = b.layer ∧ Text.lt a.id b.id = true

namespace PlanOrder

variable {s : PlanSection} {work : List Pending} {keys keys' rest : List ImpactItem} {i j : ImpactItem}
  {x : String} {readers : List String} {steps : List PlanStep} {t : PlanStep} {p : Pending}

/-! ## Chains of readers -/

/-- The step of a configuration key that names its reader. -/
def keyStep (s : PlanSection) (i : ImpactItem) : PlanStep := Pending.step s ⟨i, some i.parent⟩

/-- A key that an entity reads, or that is read by such a key. -/
inductive ReadFrom (keys : List ImpactItem) (x : String) : ImpactItem → Prop
  | direct {i : ImpactItem} (key : i ∈ keys) (reader : i.parent = x) : ReadFrom keys x i
  | through {i j : ImpactItem} (before : ReadFrom keys x j) (key : i ∈ keys) (reader : i.parent = j.id) :
      ReadFrom keys x i

theorem ReadFrom.mem (h : ReadFrom keys x i) : i ∈ keys := by
  cases h with
  | direct key _ => exact key
  | through _ key _ => exact key

theorem ReadFrom.mono (hsub : ∀ i ∈ keys, i ∈ keys') (h : ReadFrom keys x i) : ReadFrom keys' x i := by
  induction h with
  | direct key reader => exact .direct (hsub _ key) reader
  | through _ key reader ih => exact .through ih (hsub _ key) reader

theorem ReadFrom.trans (hj : ReadFrom keys x j) (hi : ReadFrom keys j.id i) : ReadFrom keys x i := by
  induction hi with
  | direct key reader => exact .through hj key reader
  | through _ key reader ih => exact .through ih key reader

/-- A key comes after its reader, and between the two are only keys that are read from the same reader. -/
def FollowsReader (s : PlanSection) (keys : List ImpactItem) (steps : List PlanStep) (i : ImpactItem) :
    Prop :=
  ∃ before t between after, steps = before ++ t :: (between ++ keyStep s i :: after) ∧ t.id = i.parent ∧
    ∀ u ∈ between, ∃ j, ReadFrom keys i.parent j ∧ u = keyStep s j

theorem FollowsReader.mono (hsub : ∀ i ∈ keys, i ∈ keys') (h : FollowsReader s keys steps i) :
    FollowsReader s keys' steps i := by
  obtain ⟨before, t, between, after, hsteps, hid, hbetween⟩ := h
  refine ⟨before, t, between, after, hsteps, hid, fun u hu => ?_⟩
  obtain ⟨j, hj, rfl⟩ := hbetween u hu
  exact ⟨j, hj.mono hsub, rfl⟩

theorem FollowsReader.append_left (more : List PlanStep) (h : FollowsReader s keys steps i) :
    FollowsReader s keys (more ++ steps) i := by
  obtain ⟨before, t, between, after, rfl, hid, hbetween⟩ := h
  exact ⟨more ++ before, t, between, after, by rw [List.append_assoc], hid, hbetween⟩

theorem FollowsReader.append_right (more : List PlanStep) (h : FollowsReader s keys steps i) :
    FollowsReader s keys (steps ++ more) i := by
  obtain ⟨before, t, between, after, rfl, hid, hbetween⟩ := h
  exact ⟨before, t, between, after ++ more, by simp, hid, hbetween⟩

/-! ## Placing items -/

theorem mem_waitingFor : p ∈ waitingFor x keys ↔ ∃ i ∈ keys, i.parent = x ∧ p = ⟨i, some x⟩ := by
  unfold waitingFor
  rw [List.mem_map]
  simp only [(sortByRank_perm _ _).mem_iff, List.mem_filter, beq_iff_eq]
  constructor
  · rintro ⟨i, ⟨hi, hparent⟩, rfl⟩
    exact ⟨i, hi, hparent, rfl⟩
  · rintro ⟨i, hi, hparent, rfl⟩
    exact ⟨i, ⟨hi, hparent⟩, rfl⟩

/-- What is placed for a key that waits for a reader is read from that reader. -/
theorem readFrom_of_waiting (hp : p ∈ waitingFor x keys)
    (ht : t = p.step s ∨ ∃ i, ReadFrom (others x keys) p.item.id i ∧ t = keyStep s i) :
    ∃ i, ReadFrom keys x i ∧ t = keyStep s i := by
  obtain ⟨j, hj, hparent, rfl⟩ := mem_waitingFor.1 hp
  have hread : ReadFrom keys x j := .direct hj hparent
  rcases ht with rfl | ⟨i, hi, rfl⟩
  · exact ⟨j, hread, by rw [keyStep, hparent]⟩
  · exact ⟨i, hread.trans (hi.mono fun k hk => (mem_others.1 hk).1), rfl⟩

theorem filter_waitingFor {q : String → Bool} (hq : ∀ i ∈ keys, q i.id = false) (x : String) :
    (waitingFor x keys).filter (fun p => q p.item.id) = [] := by
  rw [List.filter_eq_nil_iff]
  intro p hp
  obtain ⟨i, hi, -, rfl⟩ := mem_waitingFor.1 hp
  simp [hq i hi]

/-- The first items of a list are placed first, and the others draw from what is left. -/
theorem placeAll_append (s : PlanSection) (w : List Pending) (v : List Pending) (keys : List ImpactItem) :
    placeAll s (v ++ w) keys =
      ((placeAll s v keys).1 ++ (placeAll s w (placeAll s v keys).2).1,
        (placeAll s w (placeAll s v keys).2).2) := by
  induction v, keys using placeAll_induction with
  | nil keys => simp
  | cons p v keys ih =>
    -- the keys that wait for `p` join the first items, so the induction is along the placing
    rw [List.cons_append, placeAll_cons, placeAll_cons, ← List.append_assoc, ih]
    rfl

theorem step_mem_placeAll (hp : p ∈ work) : p.step s ∈ (placeAll s work keys).1 := by
  obtain ⟨v, w, rfl⟩ := List.append_of_mem hp
  rw [placeAll_append, placeAll_cons]
  exact List.mem_append_right _ List.mem_cons_self

/-- What is placed is one of the items, or a key that is read from one of them. -/
theorem mem_placeAll (ht : t ∈ (placeAll s work keys).1) :
    ∃ p ∈ work, t = p.step s ∨ ∃ i, ReadFrom keys p.item.id i ∧ t = keyStep s i := by
  induction work, keys using placeAll_induction with
  | nil keys => simp at ht
  | cons p work keys ih =>
    rw [placeAll_cons] at ht
    rcases List.mem_cons.1 ht with rfl | ht
    · exact ⟨p, List.mem_cons_self, .inl rfl⟩
    obtain ⟨q, hq, hcase⟩ := ih ht
    rcases List.mem_append.1 hq with hq | hq
    · -- the item of `q` is a key that `p` reads, so what is read from it is read from `p`
      exact ⟨p, List.mem_cons_self, .inr (readFrom_of_waiting hq hcase)⟩
    · refine ⟨q, List.mem_cons_of_mem _ hq, hcase.imp_right ?_⟩
      rintro ⟨i, hi, rfl⟩
      exact ⟨i, hi.mono fun k hk => (mem_others.1 hk).1, rfl⟩

/-- A key waits on exactly if its reader was not placed. -/
theorem mem_left_placeAll : i ∈ (placeAll s work keys).2 ↔
    i ∈ keys ∧ i.parent ∉ (placeAll s work keys).1.map PlanStep.id := by
  induction work, keys using placeAll_induction with
  | nil keys => simp
  | cons p work keys ih =>
    rw [placeAll_cons, ih, mem_others, List.map_cons, List.mem_cons, not_or, and_assoc]
    rfl

/-- A key that does not wait on was placed. -/
theorem placed_or_left (hi : i ∈ keys) :
    i ∈ (placeAll s work keys).2 ∨ keyStep s i ∈ (placeAll s work keys).1 := by
  induction work, keys using placeAll_induction with
  | nil keys => exact .inl (by simpa using hi)
  | cons p work keys ih =>
    rw [placeAll_cons]
    by_cases hparent : i.parent = p.item.id
    · have hwaits : (⟨i, some p.item.id⟩ : Pending) ∈ waitingFor p.item.id keys ++ work :=
        List.mem_append_left _ (mem_waitingFor.2 ⟨i, hi, hparent, rfl⟩)
      refine .inr (List.mem_cons_of_mem _ ?_)
      rw [keyStep, hparent]
      exact step_mem_placeAll hwaits
    · exact (ih (mem_others.2 ⟨hi, hparent⟩)).imp_right (List.mem_cons_of_mem _)

/-- A key whose reader is placed follows it. -/
theorem follows_placeAll (hi : i ∈ keys) (hparent : i.parent ∈ (placeAll s work keys).1.map PlanStep.id) :
    FollowsReader s keys (placeAll s work keys).1 i := by
  induction work, keys using placeAll_induction with
  | nil keys => simp at hparent
  | cons p work keys ih =>
    rw [placeAll_cons] at hparent ⊢
    by_cases hp : i.parent = p.item.id
    · -- the keys that wait for `p` are placed next; those before `i` are read from `p`, with all below them
      obtain ⟨v, w, hsplit⟩ := List.append_of_mem (mem_waitingFor.2 ⟨i, hi, hp, rfl⟩)
      have hsteps : ∃ after, (placeAll s (waitingFor p.item.id keys ++ work) (others p.item.id keys)).1 =
          (placeAll s v (others p.item.id keys)).1 ++ keyStep s i :: after := by
        rw [hsplit, List.append_assoc, placeAll_append, List.cons_append, placeAll_cons, keyStep, hp]
        exact ⟨_, rfl⟩
      obtain ⟨after, hsteps⟩ := hsteps
      refine ⟨[], p.step s, _, after, congrArg _ hsteps, hp.symm, fun u hu => ?_⟩
      obtain ⟨q, hq, hcase⟩ := mem_placeAll hu
      rw [hp]
      exact readFrom_of_waiting (hsplit ▸ List.mem_append_left _ hq) hcase
    · have hrest := (List.mem_cons.1 hparent).resolve_left hp
      have hfollows := ih (mem_others.2 ⟨hi, hp⟩) hrest
      exact (hfollows.mono fun k hk => (mem_others.1 hk).1).append_left [p.step s]

/-- Steps other than keys are those of the items, in their order. -/
theorem filter_placeAll {q : String → Bool} (hq : ∀ i ∈ keys, q i.id = false) :
    (placeAll s work keys).1.filter (fun t => q t.id) =
      (work.filter fun p => q p.item.id).map (Pending.step s) := by
  induction work, keys using placeAll_induction with
  | nil keys => simp
  | cons p work keys ih =>
    -- what joins the items are keys, and they are filtered out
    have hrest := ih fun i hi => hq i (mem_others.1 hi).1
    rw [List.filter_append, filter_waitingFor hq, List.nil_append] at hrest
    rw [placeAll_cons, List.filter_cons, List.filter_cons, hrest]
    change (if q p.item.id = true then _ else _) = _
    split <;> rfl

/-! ## Stages -/

/-- Some steps of a section, with the items and the readers that they were placed for. -/
structure Stage where
  plannedIn : PlanSection
  readers : List String
  work : List Pending
  steps : List PlanStep

def Stage.ids (g : Stage) : List String := g.steps.map PlanStep.id

/-- **What a stage does to the table of keys.** A key waits on exactly if its reader is neither among those of
the stage nor placed by it, and otherwise it is placed. It follows its reader if that is placed. The items of
the stage are placed, and apart from keys nothing else is. -/
structure Serves (g : Stage) (keys rest : List ImpactItem) : Prop where
  left : ∀ i, i ∈ rest ↔ i ∈ keys ∧ i.parent ∉ g.readers ∧ i.parent ∉ g.ids
  kept : ∀ i ∈ keys, i ∈ rest ∨ keyStep g.plannedIn i ∈ g.steps
  follows : ∀ i ∈ keys, i.parent ∉ g.readers → i.parent ∈ g.ids →
    FollowsReader g.plannedIn keys g.steps i
  placed : ∀ p ∈ g.work, p.step g.plannedIn ∈ g.steps
  plain : ∀ q : String → Bool, (∀ i ∈ keys, q i.id = false) →
    g.steps.filter (fun t => q t.id) = (g.work.filter fun p => q p.item.id).map (Pending.step g.plannedIn)

theorem Serves.subset {g : Stage} (h : Serves g keys rest) : ∀ i ∈ rest, i ∈ keys :=
  fun i hi => ((h.left i).1 hi).1

theorem serves_placeAll (s : PlanSection) (work : List Pending) (keys : List ImpactItem) :
    Serves ⟨s, [], work, (placeAll s work keys).1⟩ keys (placeAll s work keys).2 where
  left i := by
    rw [mem_left_placeAll]
    simp [Stage.ids]
  kept _ hi := placed_or_left hi
  follows _ hi _ hparent := follows_placeAll hi hparent
  placed _ hp := step_mem_placeAll hp
  plain _ hq := filter_placeAll hq

/-- Two stages of one section are one. -/
theorem Serves.append {readers' : List String} {work' : List Pending} {steps' : List PlanStep}
    {middle : List ImpactItem} (h : Serves ⟨s, readers, work, steps⟩ keys middle)
    (h' : Serves ⟨s, readers', work', steps'⟩ middle rest) :
    Serves ⟨s, readers ++ readers', work ++ work', steps ++ steps'⟩ keys rest where
  left i := by
    rw [h'.left, h.left]
    simp only [Stage.ids, List.map_append, List.mem_append, not_or]
    tauto
  kept i hi := by
    rcases h.kept i hi with hi | hi
    · exact (h'.kept i hi).imp_right (List.mem_append_right _)
    · exact .inr (List.mem_append_left _ hi)
  follows i hi hreaders hparent := by
    rw [List.mem_append, not_or] at hreaders
    by_cases hfirst : i.parent ∈ steps.map PlanStep.id
    · exact (h.follows i hi hreaders.1 hfirst).append_right steps'
    · -- a key whose reader was not placed yet still waits
      have hmiddle : i ∈ middle := (h.left i).2 ⟨hi, hreaders.1, hfirst⟩
      have hsecond : i.parent ∈ steps'.map PlanStep.id := by
        rw [Stage.ids, List.map_append, List.mem_append] at hparent
        exact hparent.resolve_left hfirst
      exact ((h'.follows i hmiddle hreaders.2 hsecond).mono h.subset).append_left steps
  placed p hp := by
    rcases List.mem_append.1 hp with hp | hp
    · exact List.mem_append_left _ (h.placed p hp)
    · exact List.mem_append_right _ (h'.placed p hp)
  plain q hq := by
    rw [List.filter_append, List.filter_append, List.map_append, h.plain q hq,
      h'.plain q fun i hi => hq i (h.subset i hi)]

/-- The keys that wait for one reader, with all that are read from them. -/
theorem serves_reader (s : PlanSection) (x : String) (keys : List ImpactItem) :
    Serves ⟨s, [x], [], (placeAll s (waitingFor x keys) (others x keys)).1⟩ keys
      (placeAll s (waitingFor x keys) (others x keys)).2 where
  left i := by
    rw [mem_left_placeAll, mem_others, List.mem_singleton, and_assoc]
    rfl
  kept i hi := by
    by_cases hparent : i.parent = x
    · have hwaits : (⟨i, some x⟩ : Pending) ∈ waitingFor x keys := mem_waitingFor.2 ⟨i, hi, hparent, rfl⟩
      refine .inr ?_
      rw [keyStep, hparent]
      exact step_mem_placeAll hwaits
    · exact placed_or_left (mem_others.2 ⟨hi, hparent⟩)
  follows i hi hreaders hparent := by
    have hothers : i ∈ others x keys := mem_others.2 ⟨hi, List.mem_singleton.not.1 hreaders⟩
    exact (follows_placeAll hothers hparent).mono fun j hj => (mem_others.1 hj).1
  placed p hp := absurd hp List.not_mem_nil
  plain q hq := by
    rw [filter_placeAll fun i hi => hq i (mem_others.1 hi).1, filter_waitingFor hq]
    rfl

theorem serves_placeFor (s : PlanSection) (readers : List String) : ∀ keys : List ImpactItem,
    Serves ⟨s, readers, [], (placeFor s readers keys).1⟩ keys (placeFor s readers keys).2 := by
  induction readers with
  | nil =>
    intro keys
    have h := serves_placeAll s [] keys
    rw [placeAll_nil] at h
    exact h
  | cons x readers ih =>
    intro keys
    rw [placeFor_cons]
    exact (serves_reader s x keys).append (ih _)

/-- What is placed for some readers is read from one of them. -/
theorem mem_placeFor (ht : t ∈ (placeFor s readers keys).1) :
    ∃ x ∈ readers, ∃ i, ReadFrom keys x i ∧ t = keyStep s i := by
  induction readers generalizing keys with
  | nil => cases ht
  | cons x readers ih =>
    rw [placeFor_cons] at ht
    rcases List.mem_append.1 ht with ht | ht
    · obtain ⟨p, hp, hcase⟩ := mem_placeAll ht
      exact ⟨x, List.mem_cons_self, readFrom_of_waiting hp hcase⟩
    · obtain ⟨y, hy, i, hi, rfl⟩ := ih ht
      exact ⟨y, List.mem_cons_of_mem _ hy, i, hi.mono (serves_reader s x keys).subset, rfl⟩

/-! ## Stages one after the other -/

/-- Stages that draw from one table in turn. -/
inductive Run : List Stage → List ImpactItem → List ImpactItem → Prop
  | done (keys : List ImpactItem) : Run [] keys keys
  | next {g : Stage} {gs : List Stage} {keys middle rest : List ImpactItem} (stage : Serves g keys middle)
      (others : Run gs middle rest) : Run (g :: gs) keys rest

namespace Run

variable {gs : List Stage}

theorem left (h : Run gs keys rest) (i : ImpactItem) :
    i ∈ rest ↔ i ∈ keys ∧ ∀ g ∈ gs, i.parent ∉ g.readers ∧ i.parent ∉ g.ids := by
  induction h with
  | done keys => simp
  | next stage _ ih => rw [ih, stage.left, List.forall_mem_cons, and_assoc]

theorem kept (h : Run gs keys rest) (hi : i ∈ keys) :
    i ∈ rest ∨ ∃ g ∈ gs, keyStep g.plannedIn i ∈ g.steps := by
  induction h with
  | done keys => exact .inl hi
  | next stage _ ih =>
    rcases stage.kept i hi with hi | hi
    · refine (ih hi).imp_right ?_
      rintro ⟨g, hg, hplaced⟩
      exact ⟨g, List.mem_cons_of_mem _ hg, hplaced⟩
    · exact .inr ⟨_, List.mem_cons_self, hi⟩

/-- A key follows its reader in the first stage that places the reader. -/
theorem follows (h : Run gs keys rest) (hi : i ∈ keys) (hreaders : ∀ g ∈ gs, i.parent ∉ g.readers)
    (hparent : ∃ g ∈ gs, i.parent ∈ g.ids) : ∃ g ∈ gs, FollowsReader g.plannedIn keys g.steps i := by
  induction h with
  | done keys => simp at hparent
  | @next g gs keys middle rest stage _ ih =>
    rw [List.forall_mem_cons] at hreaders
    by_cases hplaced : i.parent ∈ g.ids
    · exact ⟨g, List.mem_cons_self, stage.follows i hi hreaders.1 hplaced⟩
    · have hmiddle : i ∈ middle := (stage.left i).2 ⟨hi, hreaders.1, hplaced⟩
      obtain ⟨g', hg', hin⟩ := hparent
      have hlater : g' ∈ gs := (List.mem_cons.1 hg').resolve_left fun heq => hplaced (heq ▸ hin)
      obtain ⟨f, hf, hfollows⟩ := ih hmiddle hreaders.2 ⟨g', hlater, hin⟩
      exact ⟨f, List.mem_cons_of_mem _ hf, hfollows.mono stage.subset⟩

theorem placed (h : Run gs keys rest) : ∀ g ∈ gs, ∀ p ∈ g.work, p.step g.plannedIn ∈ g.steps := by
  induction h with
  | done keys => exact List.forall_mem_nil _
  | next stage _ ih => exact List.forall_mem_cons.2 ⟨stage.placed, ih⟩

theorem plain (h : Run gs keys rest) {q : String → Bool} (hq : ∀ i ∈ keys, q i.id = false) :
    ∀ g ∈ gs, g.steps.filter (fun t => q t.id) =
      (g.work.filter fun p => q p.item.id).map (Pending.step g.plannedIn) := by
  induction h with
  | done keys => exact List.forall_mem_nil _
  | next stage _ ih =>
    exact List.forall_mem_cons.2 ⟨stage.plain q hq, ih fun i hi => hq i (stage.subset i hi)⟩

end Run

/-! ## The sections of a plan -/

variable {r : ImpactResult}

/-- The configuration keys of a result that are placed after their readers. -/
def keysOf (r : ImpactResult) : List ImpactItem := r.impacted.filter isAnchored

/-- The steps of the contract section, and the keys that wait after it. -/
def afterContract (r : ImpactResult) : List PlanStep × List ImpactItem :=
  placeAll .contract (freeItems .contract r.impacted) (keysOf r)

/-- The steps of the data flow section, and the keys that wait after it. -/
def afterDataFlow (r : ImpactResult) : List PlanStep × List ImpactItem :=
  placeAll .dataFlow (freeItems .dataFlow r.impacted) (afterContract r).2

/-- The steps for the keys that changed entities read, and the keys that wait after them. -/
def afterOpening (r : ImpactResult) : List PlanStep × List ImpactItem :=
  placeFor .reference r.changes.keys (afterDataFlow r).2

/-- The other steps of the reference section, and the keys that wait after it. -/
def afterReference (r : ImpactResult) : List PlanStep × List ImpactItem :=
  placeAll .reference (freeItems .reference r.impacted) (afterOpening r).2

/-- The steps of the test section, and the keys that wait after it. -/
def afterTest (r : ImpactResult) : List PlanStep × List ImpactItem :=
  placeAll .test (freeItems .test r.impacted) (afterReference r).2

/-- The keys that wait after all sections. Only these are left for the readers that were not placed. -/
def unread (r : ImpactResult) : List ImpactItem := (afterTest r).2

theorem sections_eq (r : ImpactResult) : sections r =
    [(.contract, (afterContract r).1), (.dataFlow, (afterDataFlow r).1),
      (.reference, (afterOpening r).1 ++ (afterReference r).1 ++
        (placeFor .reference (distinctTexts ((unread r).map ImpactItem.parent)) (unread r)).1),
      (.test, (afterTest r).1)] := rfl

/-- A section as a stage. -/
def stageOf (r : ImpactResult) : PlanSection → Stage
  | .contract => ⟨.contract, [], freeItems .contract r.impacted, (afterContract r).1⟩
  | .dataFlow => ⟨.dataFlow, [], freeItems .dataFlow r.impacted, (afterDataFlow r).1⟩
  | .reference => ⟨.reference, r.changes.keys, freeItems .reference r.impacted,
      (afterOpening r).1 ++ (afterReference r).1⟩
  | .test => ⟨.test, [], freeItems .test r.impacted, (afterTest r).1⟩

def stages (r : ImpactResult) : List Stage :=
  [stageOf r .contract, stageOf r .dataFlow, stageOf r .reference, stageOf r .test]

theorem mem_stages {g : Stage} : g ∈ stages r ↔ ∃ s, stageOf r s = g := by
  constructor
  · intro hg
    simp only [stages, List.mem_cons, List.not_mem_nil, or_false] at hg
    rcases hg with rfl | rfl | rfl | rfl <;> exact ⟨_, rfl⟩
  · rintro ⟨s, rfl⟩
    cases s <;> simp [stages]

theorem plannedIn_stageOf (r : ImpactResult) (s : PlanSection) : (stageOf r s).plannedIn = s := by
  cases s <;> rfl

theorem work_stageOf (r : ImpactResult) (s : PlanSection) :
    (stageOf r s).work = freeItems s r.impacted := by cases s <;> rfl

/-- The changed entities are the readers of the reference section, and no other section has readers. -/
theorem exists_reader_iff : (∃ g ∈ stages r, x ∈ g.readers) ↔ x ∈ r.changes.keys := by
  simp [stages, stageOf]

/-- **The sections are filled in turn.** -/
theorem run_stages (r : ImpactResult) : Run (stages r) (keysOf r) (unread r) := by
  -- the keys that open the reference section and the references after them are one stage
  have hreference := (serves_placeFor .reference r.changes.keys (afterDataFlow r).2).append
    (serves_placeAll .reference (freeItems .reference r.impacted) (afterOpening r).2)
  rw [List.append_nil, List.nil_append] at hreference
  exact .next (serves_placeAll _ _ _) (.next (serves_placeAll _ _ _)
    (.next hreference (.next (serves_placeAll _ _ _) (.done _))))

/-- The steps of a section. -/
def stepsIn (plan : List (PlanSection × List PlanStep)) (s : PlanSection) : List PlanStep :=
  (plan.filter fun g => g.1 == s).flatMap (·.2)

/-- If nothing waits in the end, the sections are the stages. -/
theorem sections_eq_stages (h : unread r = []) :
    sections r = (stages r).map fun g => (g.plannedIn, g.steps) := by
  have hnone : (placeFor .reference (distinctTexts ((unread r).map ImpactItem.parent)) (unread r)).1 = [] := by
    rw [List.eq_nil_iff_forall_not_mem]
    intro t ht
    obtain ⟨x, -, i, hi, -⟩ := mem_placeFor ht
    rw [h] at hi
    exact List.not_mem_nil hi.mem
  rw [sections_eq, hnone, List.append_nil]
  rfl

theorem stepsIn_sections (h : unread r = []) (s : PlanSection) :
    stepsIn (sections r) s = (stageOf r s).steps := by
  rw [sections_eq_stages h]
  cases s <;> exact List.append_nil _

theorem mem_keysOf : i ∈ keysOf r ↔ i ∈ r.impacted ∧ isAnchored i = true := List.mem_filter

theorem mem_freeItems {items : List ImpactItem} : p ∈ freeItems s items ↔
    ∃ i ∈ items, isAnchored i = false ∧ sectionOf i = s ∧ p = ⟨i, none⟩ := by
  unfold freeItems
  rw [List.mem_map]
  simp only [List.mem_mergeSort, List.mem_filter, Bool.and_eq_true, Bool.not_eq_true', beq_iff_eq]
  constructor
  · rintro ⟨i, ⟨hi, hfree, hs⟩, rfl⟩
    exact ⟨i, hi, hfree, hs, rfl⟩
  · rintro ⟨i, hi, hfree, hs, rfl⟩
    exact ⟨i, ⟨hi, hfree, hs⟩, rfl⟩

/-- Every item that does not wait for a reader is placed. -/
theorem exists_stage_of_free (hi : i ∈ r.impacted) (hfree : isAnchored i = false) :
    ∃ g ∈ stages r, i.id ∈ g.ids := by
  have hg : stageOf r (sectionOf i) ∈ stages r := mem_stages.2 ⟨_, rfl⟩
  have hp : (⟨i, none⟩ : Pending) ∈ (stageOf r (sectionOf i)).work := by
    rw [work_stageOf]
    exact mem_freeItems.2 ⟨i, hi, hfree, rfl, rfl⟩
  exact ⟨_, hg, List.mem_map_of_mem (f := PlanStep.id) ((run_stages r).placed _ hg _ hp)⟩

/-! ## Results with readers -/

/-- Every entity is impacted once and was not changed, and what it was reached from was changed or is
impacted in a lower layer. -/
structure Rooted (r : ImpactResult) : Prop where
  once : r.ids.Nodup
  unchanged : ∀ i ∈ r.impacted, i.id ∉ r.changes.keys
  parent : ∀ i ∈ r.impacted, i.parent ∈ r.changes.keys ∨
    ∃ p ∈ r.impacted, p.id = i.parent ∧ p.layer < i.layer

/-- **No key is left over.** Of those that are, one is in the lowest layer, and its reader would be placed. -/
theorem Rooted.unread_eq_nil (h : Rooted r) : unread r = [] := by
  by_contra hne
  have hnonempty : (unread r).toFinset.Nonempty := by
    rw [List.toFinset_nonempty_iff]
    exact hne
  obtain ⟨i, hi, hlowest⟩ := Finset.exists_min_image _ ImpactItem.layer hnonempty
  rw [List.mem_toFinset] at hi
  obtain ⟨hkey, hstages⟩ := ((run_stages r).left i).1 hi
  -- the reader is no changed entity, since the reference section would have served it
  have hunchanged : i.parent ∉ r.changes.keys := by
    rw [← exists_reader_iff]
    rintro ⟨g, hg, hreader⟩
    exact (hstages g hg).1 hreader
  obtain ⟨p, hp, hid, hlayer⟩ := (h.parent i (mem_keysOf.1 hkey).1).resolve_left hunchanged
  have hplaced : p ∈ unread r ∨ ∃ g ∈ stages r, p.id ∈ g.ids := by
    cases hanchored : isAnchored p with
    | false => exact .inr (exists_stage_of_free hp hanchored)
    | true =>
      refine ((run_stages r).kept (mem_keysOf.2 ⟨hp, hanchored⟩)).imp_right ?_
      rintro ⟨g, hg, hstep⟩
      exact ⟨g, hg, List.mem_map_of_mem (f := PlanStep.id) hstep⟩
  rcases hplaced with hp | ⟨g, hg, hin⟩
  · have := hlowest p (List.mem_toFinset.2 hp)
    omega
  · exact (hstages g hg).2 (hid ▸ hin)

/-- A key whose reader was not changed follows it in one of the sections. -/
theorem Rooted.follows (h : Rooted r) (hi : i ∈ keysOf r) (hparent : i.parent ∉ r.changes.keys) :
    ∃ s, FollowsReader s (keysOf r) (stageOf r s).steps i := by
  have hreaders : ∀ g ∈ stages r, i.parent ∉ g.readers :=
    fun g hg hreader => hparent (exists_reader_iff.1 ⟨g, hg, hreader⟩)
  have hplaced : ∃ g ∈ stages r, i.parent ∈ g.ids := by
    by_contra hnone
    have hunread : i ∈ unread r := ((run_stages r).left i).2
      ⟨hi, fun g hg => ⟨hreaders g hg, fun hin => hnone ⟨g, hg, hin⟩⟩⟩
    rw [h.unread_eq_nil] at hunread
    exact List.not_mem_nil hunread
  obtain ⟨g, hg, hfollows⟩ := (run_stages r).follows hi hreaders hplaced
  obtain ⟨s, rfl⟩ := mem_stages.1 hg
  rw [plannedIn_stageOf] at hfollows
  exact ⟨s, hfollows⟩

theorem mem_of_mem_stepsIn {plan : List (PlanSection × List PlanStep)} (ht : t ∈ stepsIn plan s) :
    t ∈ plan.flatMap (·.2) := by
  obtain ⟨g, hg, ht⟩ := List.mem_flatMap.1 ht
  exact List.mem_flatMap.2 ⟨g, List.mem_of_mem_filter hg, ht⟩

/-- No changed entity is placed. -/
theorem Rooted.not_placed (h : Rooted r) (hx : x ∈ r.changes.keys) (s : PlanSection) :
    x ∉ (stageOf r s).ids := by
  intro hin
  obtain ⟨t, ht, rfl⟩ := List.mem_map.1 hin
  rw [← stepsIn_sections h.unread_eq_nil] at ht
  have hid : t.id ∈ r.ids :=
    (ids_sections_perm r).mem_iff.1 (List.mem_map_of_mem (mem_of_mem_stepsIn ht))
  obtain ⟨i, hi, hid⟩ := List.mem_map.1 hid
  exact h.unchanged i hi (hid ▸ hx)

/-- A key that a changed entity reads is in the opening. -/
theorem Rooted.mem_opening (h : Rooted r) (hi : i ∈ keysOf r) (hparent : i.parent ∈ r.changes.keys) :
    keyStep .reference i ∈ (afterOpening r).1 := by
  -- it still waits then, since the sections before place no changed entity
  have hcontract : i ∈ (afterContract r).2 := mem_left_placeAll.2 ⟨hi, h.not_placed hparent .contract⟩
  have hdataFlow : i ∈ (afterDataFlow r).2 :=
    mem_left_placeAll.2 ⟨hcontract, h.not_placed hparent .dataFlow⟩
  have hserves := serves_placeFor .reference r.changes.keys (afterDataFlow r).2
  refine (hserves.kept i hdataFlow).resolve_left fun hleft => ?_
  exact ((hserves.left i).1 hleft).2.1 hparent

theorem mem_keysOf_of_mem_afterDataFlow (hi : i ∈ (afterDataFlow r).2) : i ∈ keysOf r :=
  mem_of_mem_placeAll (mem_of_mem_placeAll hi)

/-! ## The order of the other steps -/

/-- The order of free items. -/
def notAfter (a b : ImpactItem) : Bool := a.layer < b.layer || (a.layer == b.layer && Text.le a.id b.id)

theorem notAfter_iff {a b : ImpactItem} : notAfter a b = true ↔
    a.layer < b.layer ∨ a.layer = b.layer ∧ Text.le a.id b.id = true := by
  unfold notAfter
  simp

/-- The free items of a section are placed in strict order. -/
theorem freeItems_sorted (h : r.ids.Nodup) (s : PlanSection) :
    ((freeItems s r.impacted).map (Pending.step s)).Pairwise PlanStep.Before := by
  set own := r.impacted.filter fun i => !isAnchored i && sectionOf i == s
  have hids : (own.map ImpactItem.id).Nodup := h.sublist (List.filter_sublist.map _)
  have hfree : freeItems s r.impacted = (own.mergeSort notAfter).map (⟨·, none⟩) := rfl
  rw [hfree, List.map_map, List.pairwise_map]
  exact mergeSort_strict ImpactItem.layer ImpactItem.id (fun _ _ => notAfter_iff) hids

/-- The step of a configuration key that is placed after its reader. -/
def isKeyStep (r : ImpactResult) (t : PlanStep) : Bool := (keysOf r).any fun i => i.id == t.id

theorem Rooted.sorted (h : Rooted r) (s : PlanSection) :
    ((stageOf r s).steps.filter fun t => !isKeyStep r t).Pairwise PlanStep.Before := by
  have hkeys : ∀ i ∈ keysOf r, (!(keysOf r).any fun j => j.id == i.id) = false := by
    intro i hi
    rw [Bool.not_eq_false', List.any_eq_true]
    exact ⟨i, hi, beq_self_eq_true i.id⟩
  have hplain := (run_stages r).plain (q := fun x => !(keysOf r).any fun j => j.id == x) hkeys
    (stageOf r s) (mem_stages.2 ⟨s, rfl⟩)
  unfold isKeyStep
  rw [hplain, work_stageOf, plannedIn_stageOf]
  exact (freeItems_sorted h.once s).sublist (List.filter_sublist.map _)

/-! ## Keys in plans -/

/-- **Keys follow their readers in a plan.** Keys that changed entities read, with those that are read from
them, open the reference section. Any other key comes after its reader in the reader's section, and between
the two are only keys that are read from the same reader. The other steps of a section are in order. -/
structure FollowsReaders (r : ImpactResult) (plan : List (PlanSection × List PlanStep)) : Prop where
  once : ((plan.flatMap (·.2)).map PlanStep.id).Nodup
  opening : ∃ block others, stepsIn plan .reference = block ++ others ∧
    (∀ t ∈ block, ∃ x ∈ r.changes.keys, ∃ i, ReadFrom (keysOf r) x i ∧ t = keyStep .reference i) ∧
    ∀ i ∈ keysOf r, i.parent ∈ r.changes.keys → keyStep .reference i ∈ block
  follows : ∀ i ∈ keysOf r, i.parent ∉ r.changes.keys →
    ∃ s, FollowsReader s (keysOf r) (stepsIn plan s) i
  sorted : ∀ s, ((stepsIn plan s).filter fun t => !isKeyStep r t).Pairwise PlanStep.Before

theorem Rooted.followsReaders (h : Rooted r) : FollowsReaders r (sections r) where
  once := (ids_sections_perm r).nodup_iff.2 h.once
  opening := by
    refine ⟨_, _, stepsIn_sections h.unread_eq_nil .reference, fun t ht => ?_, fun i => h.mem_opening⟩
    obtain ⟨x, hx, i, hi, rfl⟩ := mem_placeFor ht
    exact ⟨x, hx, i, hi.mono fun j => mem_keysOf_of_mem_afterDataFlow, rfl⟩
  follows i hi hparent := by
    obtain ⟨s, hfollows⟩ := h.follows hi hparent
    rw [← stepsIn_sections h.unread_eq_nil] at hfollows
    exact ⟨s, hfollows⟩
  sorted s := by
    rw [stepsIn_sections h.unread_eq_nil]
    exact h.sorted s

end PlanOrder

namespace Impact

open PlanOrder Traversal

variable {config : Config} {s : Snapshot} {pairs : List ContractPair} {request : Request}
  {token next : Token} {r : ImpactResult}

/-- **An analysis of a closed snapshot has readers for its keys**, also where it was limited or cancelled. -/
theorem rooted_of_analyze (hclosed : s.Closed)
    (h : analyze config s pairs request token = .ok (r, next)) : Rooted r := by
  obtain ⟨changes, dimensions, direction, limit, hchanges, -, -, -, rfl, -⟩ := analyze_eq_ok.1 h
  set t := traversalOf config s pairs dimensions direction with ht
  set layers := (t.walk limit token (knownChanges s changes)).layers with hlayers
  have hroots : (knownChanges s changes).Nodup :=
    (Text.Ascending.nodup (Changes.ofValue_ordered hchanges)).filter _
  have hmap : ((knownChanges s changes).map atRoot).map Reached.id = knownChanges s changes := by
    simp [Function.comp_def, atRoot]
  have htraced : t.Traced (knownChanges s changes) 0 ((knownChanges s changes).map atRoot) layers := by
    refine traced_walkFrom _ _ ?_
    rw [hmap]
    exact layered_roots hroots
  refine ⟨nodup_ids_of_traced (nodup_layers_walkFrom _ _ _ _ _ _) htraced, fun i hi hchanged => ?_,
    fun i hi => ?_⟩
  · obtain ⟨n, g, hg, rfl⟩ := mem_itemsFrom_iff.1 hi
    -- what is reached is an entity, and a changed entity is a root
    have hentity : g.id ∈ s.ids := by
      have hfollows := (htraced n g hg).2.follows
      exact mem_ids_of_step hclosed ⟨_, hfollows.offers, hfollows.allows, hfollows.other⟩
    have hroot : g.id ∈ knownChanges s changes :=
      List.mem_filter.2 ⟨hchanged, Snapshot.has_iff.2 hentity⟩
    exact (htraced n g hg).1.least 0 (by omega) hroot
  · obtain ⟨n, g, hg, rfl⟩ := mem_itemsFrom_iff.1 hi
    obtain ⟨-, hroot, -⟩ | ⟨m, rfl, -, f, hf, hparent⟩ := parent_cases htraced hg
    · exact .inl (List.mem_of_mem_filter hroot)
    · refine .inr ⟨itemOf s (1 + m) f, mem_itemsFrom_iff.2 ⟨m, f, hf, rfl⟩, ?_, ?_⟩
      · exact (congrArg Reached.id hparent).symm
      · change ((1 + m : Nat) : Int) < (1 + (m + 1) : Nat)
        omega

/-- **In a plan for the result of an analysis every key follows its reader**, whether or not the analysis was
limited or cancelled. No key is left for the readers that were not placed, so they add no steps to those of the
stages. -/
theorem analyze_plan_follows_readers (hclosed : s.Closed)
    (h : analyze config s pairs request token = .ok (r, next)) :
    FollowsReaders r (sections r) ∧
      unread r = [] ∧ sections r = ((stages r).map fun g => (g.plannedIn, g.steps)) ∧
      ∀ config' pairs' side plan, ChangePlan.generate config' r pairs' side = .ok plan →
        FollowsReaders r plan.sections := by
  have hrooted : Rooted r := rooted_of_analyze hclosed h
  refine ⟨hrooted.followsReaders, hrooted.unread_eq_nil, sections_eq_stages hrooted.unread_eq_nil,
    fun config' pairs' side plan hplan => ?_⟩
  rw [ChangePlan.sections_generate hplan]
  exact hrooted.followsReaders

/-- A changed entity that reads a key, which reads another; then a function that reads a key, and behind that a
test that reads one. -/
def relay : Snapshot where
  version := 1
  entities := [.bare "app", { Entity.bare "env" with kind := .configKey },
    { Entity.bare "env.host" with kind := .configKey }, .bare "call",
    { Entity.bare "call.limit" with kind := .configKey }, { Entity.bare "check" with kind := .test },
    { Entity.bare "check.seed" with kind := .configKey }]
  edges := [⟨"app", "env", .config, .forward, .one⟩, ⟨"env", "env.host", .config, .forward, .one⟩,
    ⟨"env.host", "call", .dataFlow, .forward, .one⟩, ⟨"call", "call.limit", .config, .forward, .one⟩,
    ⟨"call.limit", "check", .reference, .forward, .one⟩, ⟨"check", "check.seed", .config, .forward, .one⟩]
  files := []
  owners := []

theorem relay_plan_follows_readers : relay.Closed ∧ ∃ r next,
    analyze halfConfidence relay [] ⟨.texts ["app"], .null, .int 6, .null⟩ {} = .ok (r, next) ∧
    (sections r).map (fun g => (g.1, g.2.map PlanStep.id)) =
      [(.contract, []), (.dataFlow, ["call", "call.limit"]), (.reference, ["env", "env.host"]),
        (.test, ["check", "check.seed"])] ∧
    FollowsReaders r (sections r) ∧ unread r = [] := by
  have hclosed : relay.Closed := by unfold Snapshot.Closed; decide
  have hplan : (analyze halfConfidence relay [] ⟨.texts ["app"], .null, .int 6, .null⟩ {}).map (fun r =>
      (sections r.1).map fun g => (g.1, g.2.map PlanStep.id)) =
      .ok [(.contract, []), (.dataFlow, ["call", "call.limit"]), (.reference, ["env", "env.host"]),
        (.test, ["check", "check.seed"])] := by decide +kernel
  obtain ⟨⟨r, next⟩, hrun, hsections⟩ := map_eq_ok.1 hplan
  obtain ⟨hfollows, hunread, -⟩ := analyze_plan_follows_readers hclosed hrun
  exact ⟨hclosed, r, next, hrun, hsections, hfollows, hunread⟩

end Impact

end ChangeImpact
