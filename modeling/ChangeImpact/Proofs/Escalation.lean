import ChangeImpact.Proofs.Schemas
import ChangeImpact.Proofs.Sides

/-!
# Strategies only escalate

A strategy is chosen by a cascade of questions: whether the change is too large, whether it is small enough
to be made at once, whether it only adds. The limits of the first two are configured apart from each other,
so that a change may well be both. Still, whatever is added to a change, the strategy does not get milder.

* `Strategy.chosen`: the strategy apart from the reasons for it, and `classify_eq_ok`: **what is returned is
  the chosen strategy, with a reason.**
* `exists_classify`: a strategy is returned if the limits are numbers that can be written.
* `PlanFacts.Extends`: facts of a change to which something was added.
* `Strategy.chosen_mono`: **more facts never lead to a milder strategy.**
* `classify_escalates`: both, for all limits.
-/

namespace ChangeImpact

/-! ## Numbers and limits -/

namespace Binary64.Position

variable {a b : Int} {p : Position}

theorem compare_ofInt_mono (hab : a ≤ b) (h : (ofInt a).compare p = .gt) : (ofInt b).compare p = .gt := by
  cases p with
  | below => rfl
  | above => cases h
  | «at» n e =>
    unfold ofInt at h ⊢
    rw [compare_at, compare_gt_iff_gt] at h ⊢
    refine lt_of_lt_of_le h ?_
    simpa using hab

theorem compare_ofInt_anti (hab : a ≤ b) (h : p.compare (ofInt b) = .gt) : p.compare (ofInt a) = .gt := by
  cases p with
  | below => cases h
  | above => rfl
  | «at» n e =>
    unfold ofInt at h ⊢
    rw [compare_at, compare_gt_iff_gt] at h ⊢
    refine lt_of_le_of_lt ?_ h
    simpa using hab

end Binary64.Position

namespace Value.Numeric

open Binary64 (Position)

variable {a b : Int} {n : Numeric}

/-- A count above a limit stays above it when it grows. -/
theorem exceeds_mono (hab : a ≤ b) (h : (int a).exceeds n = true) : (int b).exceeds n = true := by
  unfold exceeds at h ⊢
  rw [beq_iff_eq] at h ⊢
  cases n with
  | int m =>
    simp only [compare?, Option.some.injEq, Int.compare_eq_gt] at h ⊢
    omega
  | float y =>
    simp only [compare?, Option.map_eq_some_iff] at h ⊢
    obtain ⟨p, hp, hgt⟩ := h
    exact ⟨p, hp, Position.compare_ofInt_mono hab hgt⟩

/-- A limit above a count stays above it when the count shrinks. -/
theorem exceeds_anti (hab : a ≤ b) (h : n.exceeds (int b) = true) : n.exceeds (int a) = true := by
  unfold exceeds at h ⊢
  rw [beq_iff_eq] at h ⊢
  cases n with
  | int m =>
    simp only [compare?, Option.some.injEq, Int.compare_eq_gt] at h ⊢
    omega
  | float y =>
    simp only [compare?, Option.map_eq_some_iff] at h ⊢
    obtain ⟨p, hp, hgt⟩ := h
    exact ⟨p, hp, Position.compare_ofInt_anti hab hgt⟩

end Value.Numeric

namespace PlanLimits

/-- Limits that are numbers and can be written, in any order. -/
structure Usable (limits : PlanLimits) : Prop where
  fullSyncMax : limits.fullSyncMax.numeric?.isSome = true
  fullSyncWritable : limits.fullSyncMax.isWritable = true
  refactorMin : limits.refactorMin.numeric?.isSome = true
  refactorWritable : limits.refactorMin.isWritable = true
  mismatchRatio : ∃ n text, limits.mismatchRatio.numeric? = some n ∧ n.percent = .ok text

theorem numberOf_eq_ok {word : String} {v : Value} {n : Value.Numeric} :
    numberOf word v = .ok n ↔ v.numeric? = some n := by
  unfold numberOf
  cases v.numeric? with
  | none => simp
  | some m => simp

end PlanLimits

/-! ## What is chosen, and why -/

namespace PlanFacts

variable {f g : PlanFacts} {limits : PlanLimits} {share : Binary64}

/-- Too many entities are impacted, or too many pairs have mismatches. -/
def isLarge (limits : PlanLimits) (share : Binary64) (f : PlanFacts) : Bool :=
  limits.refactorMin.numeric?.any (Value.Numeric.int f.impacted).exceeds ||
    limits.mismatchRatio.numeric?.any (Value.Numeric.float share).exceeds

/-- Few enough entities are impacted to change them all at once. -/
def isSmall (limits : PlanLimits) (f : PlanFacts) : Bool :=
  limits.fullSyncMax.numeric?.any fun n => n.exceeds (.int f.impacted)

section Reasons

variable {word : String} {limit : Value} {n : Value.Numeric} {passes : Value.Numeric → Bool}
  {text : Value.Numeric → Except Fault String} {write : String → String} {reasons : List String}

/-- A reason is given just if a limit is passed. -/
theorem isEmpty_of_limitReason
    (h : (do
      let n ← PlanLimits.numberOf word limit
      if (!passes n) = true then pure [] else do
        let t ← text n
        pure [write t]) = .ok reasons) : reasons.isEmpty = !limit.numeric?.any passes := by
  obtain ⟨n, hn, h⟩ := bind_eq_ok.1 h
  rw [PlanLimits.numberOf_eq_ok.1 hn, Option.any_some]
  split at h
  · rename_i hpasses
    rw [← Except.ok.inj h, hpasses]
    rfl
  · rename_i hpasses
    obtain ⟨t, -, h⟩ := bind_eq_ok.1 h
    rw [← Except.ok.inj h, eq_comm]
    simpa using hpasses

/-- A limit that is a number is compared, and written if it is passed. -/
theorem exists_limitReason (hn : limit.numeric? = some n) (htext : ∃ t, text n = .ok t) :
    ∃ reasons, (do
      let n ← PlanLimits.numberOf word limit
      if (!passes n) = true then pure [] else do
        let t ← text n
        pure [write t]) = .ok reasons := by
  obtain ⟨t, ht⟩ := htext
  rw [PlanLimits.numberOf_eq_ok.2 hn]
  simp only [bind, Except.bind, pure, Except.pure, ht]
  split <;> exact ⟨_, rfl⟩

end Reasons

theorem sizeReasons_eq_ok {reasons : List String} (h : f.sizeReasons limits = .ok reasons) :
    ∃ share, f.ratio = .ok share ∧ reasons.isEmpty = !f.isLarge limits share := by
  unfold sizeReasons at h
  simp only [bind_eq_ok] at h
  obtain ⟨share, hshare, counts, hcounts, ratios, hratios, h⟩ := h
  have hcount := isEmpty_of_limitReason hcounts
  have hratio := isEmpty_of_limitReason hratios
  refine ⟨share, hshare, ?_⟩
  rw [← Except.ok.inj h, isLarge, Bool.not_or, ← hcount, ← hratio, Bool.eq_iff_iff]
  simp

theorem fitsFullSync_eq_ok {fits : Bool} (h : f.fitsFullSync limits = .ok fits) :
    fits = f.isSmall limits := by
  obtain ⟨n, hn, h⟩ := bind_eq_ok.1 h
  rw [← Except.ok.inj h, isSmall, PlanLimits.numberOf_eq_ok.1 hn, Option.any_some]

/-- Limits that can be used are compared and written without a fault. -/
theorem exists_sizeReasons (hlimits : limits.Usable) (hshare : f.ratio = .ok share) :
    ∃ reasons, f.sizeReasons limits = .ok reasons := by
  obtain ⟨n, hn⟩ := Option.isSome_iff_exists.1 hlimits.refactorMin
  obtain ⟨m, text, hm, htext⟩ := hlimits.mismatchRatio
  obtain ⟨counts, hcounts⟩ : ∃ reasons, f.countReason limits.refactorMin = .ok reasons :=
    exists_limitReason hn ⟨_, if_pos hlimits.refactorWritable⟩
  obtain ⟨ratios, hratios⟩ : ∃ reasons, f.ratioReason share limits.mismatchRatio = .ok reasons :=
    exists_limitReason hm ⟨text, htext⟩
  refine ⟨counts ++ ratios, ?_⟩
  simp only [sizeReasons, hshare, hcounts, bind, Except.bind, hratios, pure, Except.pure]

theorem listReason_ne_nil {text word : String} {words : List String} (h : word ∈ words) :
    listReason text words ≠ [] := by
  unfold listReason
  rw [if_neg fun hempty => List.ne_nil_of_mem h (List.isEmpty_iff.1 hempty)]
  exact List.cons_ne_nil _ _

theorem word_mem_kindWords {p : MismatchKind → Bool} {k : MismatchKind} (hk : k ∈ f.kinds)
    (hp : p k = true) : k.word ∈ f.kindWords p :=
  mem_distinctTexts.2 (List.mem_map_of_mem (List.mem_filter.2 ⟨hk, hp⟩))

/-- What is not additive is so for a reason: something is removed, or there is a mismatch of another kind. -/
theorem changeReasons_ne_nil (h : f.isAdditive = false) : f.changeReasons ≠ [] := by
  intro hnil
  simp only [changeReasons, List.append_eq_nil_iff] at hnil
  obtain ⟨⟨⟨hbreaking, hremoval⟩, hfields⟩, hother⟩ := hnil
  simp only [isAdditive, Bool.and_eq_false_iff, Bool.not_eq_false', List.all_eq_false] at h
  rcases h with (h | h) | ⟨k, hk, hadditive⟩
  · rw [if_pos h] at hremoval
    cases hremoval
  · obtain ⟨name, hname⟩ := List.exists_mem_of_ne_nil _ (by simpa using h)
    exact listReason_ne_nil ((sortTexts_perm _).mem_iff.2 hname) hfields
  · cases hkind : k.isBreaking with
    | true => exact listReason_ne_nil (word_mem_kindWords hk hkind) hbreaking
    | false => exact listReason_ne_nil (word_mem_kindWords hk (by simp [hkind, hadditive])) hother

end PlanFacts

namespace Strategy

variable {f g : PlanFacts} {limits : PlanLimits} {share : Binary64} {s t : Strategy}
  {reasons : List String}

/-- The strategy apart from the reasons for it. -/
def chosen (limits : PlanLimits) (share : Binary64) (f : PlanFacts) : Strategy :=
  if f.isLarge limits share then .refactor
  else if f.isSmall limits && !f.hasBreaking then .fullSync
  else if f.isAdditive then .progressive
  else .refactor

/-- **What is returned is the chosen strategy, and there is a reason for it.** -/
theorem classify_eq_ok (h : classify limits f = .ok (s, reasons)) :
    ∃ share, f.ratio = .ok share ∧ s = chosen limits share f ∧ reasons ≠ [] := by
  obtain ⟨size, hsize, h⟩ := bind_eq_ok.1 h
  obtain ⟨share, hshare, hlarge⟩ := PlanFacts.sizeReasons_eq_ok hsize
  refine ⟨share, hshare, ?_⟩
  unfold chosen
  rw [hlarge, Bool.not_not] at h
  split at h
  · rename_i hlarge'
    obtain ⟨rfl, rfl⟩ := Prod.mk.inj (Except.ok.inj h)
    rw [hlarge', Bool.not_true] at hlarge
    exact ⟨(if_pos hlarge').symm, fun hnil => by rw [hnil] at hlarge; cases hlarge⟩
  rename_i hlarge'
  rw [if_neg hlarge']
  obtain ⟨fits, hfits, h⟩ := bind_eq_ok.1 h
  rw [PlanFacts.fitsFullSync_eq_ok hfits] at h
  split at h
  · rename_i hsmall
    obtain ⟨text, -, h⟩ := bind_eq_ok.1 h
    obtain ⟨rfl, rfl⟩ := Prod.mk.inj (Except.ok.inj h)
    exact ⟨(if_pos hsmall).symm, List.cons_ne_nil _ _⟩
  rename_i hsmall
  rw [if_neg hsmall]
  split at h
  · rename_i hadditive
    obtain ⟨rfl, rfl⟩ := Prod.mk.inj (Except.ok.inj h)
    exact ⟨(if_pos hadditive).symm, List.cons_ne_nil _ _⟩
  · rename_i hadditive
    obtain ⟨rfl, rfl⟩ := Prod.mk.inj (Except.ok.inj h)
    exact ⟨(if_neg hadditive).symm, PlanFacts.changeReasons_ne_nil (by simpa using hadditive)⟩

/-- A strategy is returned if the limits are numbers that can be written. -/
theorem exists_classify (hlimits : limits.Usable) (hshare : f.ratio = .ok share) :
    ∃ s reasons, classify limits f = .ok (s, reasons) := by
  obtain ⟨size, hsize⟩ := PlanFacts.exists_sizeReasons hlimits hshare
  obtain ⟨n, hn⟩ := Option.isSome_iff_exists.1 hlimits.fullSyncMax
  have hfits : f.fitsFullSync limits = .ok (n.exceeds (.int f.impacted)) := by
    rw [PlanFacts.fitsFullSync, PlanLimits.numberOf_eq_ok.2 hn]
    rfl
  have htext : limits.fullSyncMax.toText = .ok limits.fullSyncMax.text :=
    if_pos hlimits.fullSyncWritable
  unfold classify
  simp only [hsize, hfits, htext, bind, Except.bind, pure, Except.pure]
  split
  · exact ⟨_, _, rfl⟩
  split
  · exact ⟨_, _, rfl⟩
  split <;> exact ⟨_, _, rfl⟩

end Strategy

/-! ## More facts -/

/-- Something may have been added to a change: impacted entities, mismatches, removals. The contract pairs are
as many as before. -/
structure PlanFacts.Extends (f g : PlanFacts) : Prop where
  impacted : f.impacted ≤ g.impacted
  relevant : f.relevant = g.relevant
  affected : f.affected = g.affected
  kinds : f.kinds ⊆ g.kinds
  hasRemoval : f.hasRemoval = true → g.hasRemoval = true
  removedFields : f.removedFields ⊆ g.removedFields

namespace PlanFacts.Extends

variable {f g : PlanFacts} {limits : PlanLimits} {share : Binary64}

theorem ratio_eq (h : f.Extends g) : f.ratio = g.ratio := by
  unfold ratio
  rw [h.relevant, h.affected]

theorem isLarge (h : f.Extends g) (hf : f.isLarge limits share = true) : g.isLarge limits share = true := by
  simp only [PlanFacts.isLarge, Bool.or_eq_true, Option.any_eq_true] at hf ⊢
  rcases hf with ⟨n, hn, hexceeds⟩ | hf
  · exact .inl ⟨n, hn, Value.Numeric.exceeds_mono h.impacted hexceeds⟩
  · exact .inr hf

theorem isSmall (h : f.Extends g) (hg : g.isSmall limits = true) : f.isSmall limits = true := by
  simp only [PlanFacts.isSmall, Option.any_eq_true] at hg ⊢
  obtain ⟨n, hn, hexceeds⟩ := hg
  exact ⟨n, hn, Value.Numeric.exceeds_anti h.impacted hexceeds⟩

theorem hasBreaking (h : f.Extends g) (hg : g.hasBreaking = false) : f.hasBreaking = false := by
  simp only [PlanFacts.hasBreaking, List.any_eq_false] at hg ⊢
  exact fun k hk => hg k (h.kinds hk)

theorem isAdditive (h : f.Extends g) (hg : g.isAdditive = true) : f.isAdditive = true := by
  simp only [PlanFacts.isAdditive, Bool.and_eq_true, Bool.not_eq_true', List.isEmpty_iff,
    List.all_eq_true] at hg ⊢
  obtain ⟨⟨hremoval, hfields⟩, hkinds⟩ := hg
  refine ⟨⟨?_, List.subset_nil.1 (hfields ▸ h.removedFields)⟩, fun k hk => hkinds k (h.kinds hk)⟩
  cases hf : f.hasRemoval with
  | false => rfl
  | true => exact (h.hasRemoval hf).symm.trans hremoval

end PlanFacts.Extends

namespace Strategy

variable {f g : PlanFacts} {limits : PlanLimits} {share : Binary64}

/-- How much a strategy asks for. -/
def rank : Strategy → Nat
  | .fullSync => 0
  | .progressive => 1
  | .refactor => 2

instance : LE Strategy := ⟨fun s t => s.rank ≤ t.rank⟩

instance (s t : Strategy) : Decidable (s ≤ t) := inferInstanceAs (Decidable (s.rank ≤ t.rank))

theorem le_refactor (s : Strategy) : s ≤ .refactor := by cases s <;> decide

theorem fullSync_le (s : Strategy) : .fullSync ≤ s := Nat.zero_le s.rank

/-- **More facts never lead to a milder strategy.** -/
theorem chosen_mono (h : f.Extends g) : chosen limits share f ≤ chosen limits share g := by
  unfold chosen
  by_cases hlarge : g.isLarge limits share = true
  · rw [if_pos hlarge]
    exact le_refactor _
  rw [if_neg hlarge, if_neg (mt h.isLarge hlarge)]
  by_cases hsmall : (f.isSmall limits && !f.hasBreaking) = true
  · rw [if_pos hsmall]
    exact fullSync_le _
  -- what is not small, or breaks something, stays so
  have hsmall' : ¬ (g.isSmall limits && !g.hasBreaking) = true := by
    simp only [Bool.and_eq_true, Bool.not_eq_true'] at hsmall ⊢
    exact fun hg => hsmall ⟨h.isSmall hg.1, h.hasBreaking hg.2⟩
  rw [if_neg hsmall, if_neg hsmall']
  by_cases hadditive : g.isAdditive = true
  · rw [if_pos hadditive, if_pos (h.isAdditive hadditive)]
    exact Nat.le_refl _
  · rw [if_neg hadditive]
    exact le_refactor _

/-- **Strategies only escalate, and there is always a reason:** for all limits, in whatever order they are
configured, facts to which something was added lead to a strategy that is not milder. -/
theorem classify_escalates (limits : PlanLimits) {f g : PlanFacts} (h : f.Extends g) :
    (∀ s reasons t others, classify limits f = .ok (s, reasons) → classify limits g = .ok (t, others) →
      s ≤ t ∧ reasons ≠ [] ∧ others ≠ []) ∧
    (limits.Usable → (∃ share, f.ratio = .ok share) →
      ∃ s reasons t others, classify limits f = .ok (s, reasons) ∧ classify limits g = .ok (t, others)) := by
  constructor
  · intro s reasons t others hf hg
    obtain ⟨share, hshare, rfl, hreasons⟩ := classify_eq_ok hf
    obtain ⟨share', hshare', rfl, hothers⟩ := classify_eq_ok hg
    rw [← h.ratio_eq, hshare] at hshare'
    obtain rfl := Except.ok.inj hshare'
    exact ⟨chosen_mono h, hreasons, hothers⟩
  · rintro hlimits ⟨share, hshare⟩
    obtain ⟨s, reasons, hf⟩ := exists_classify hlimits hshare
    obtain ⟨t, others, hg⟩ := exists_classify hlimits (h.ratio_eq ▸ hshare)
    exact ⟨s, reasons, t, others, hf, hg⟩

/-- Limits that overlap: a change may be small and too large at once. -/
def overlappingLimits : PlanLimits := ⟨.int 100, .int 40, .float (.ofRatio false 1 2)⟩

/-- A small change. -/
def smallChange : PlanFacts := ⟨20, 3, 1, [.missingField], false, []⟩

/-- The same change after a type was changed and a field was removed. -/
def grownChange : PlanFacts := ⟨30, 3, 1, [.typeMismatch, .missingField], true, ["User.email"]⟩

theorem grown_escalates : smallChange.Extends grownChange ∧ overlappingLimits.Usable ∧
    ∃ s reasons t others, classify overlappingLimits smallChange = .ok (s, reasons) ∧
      classify overlappingLimits grownChange = .ok (t, others) ∧ s ≤ t ∧ reasons ≠ [] ∧ others ≠ [] := by
  have hextends : smallChange.Extends grownChange :=
    ⟨by decide, rfl, rfl, by decide, nofun, List.nil_subset _⟩
  have husable : overlappingLimits.Usable :=
    ⟨rfl, by decide +kernel, rfl, by decide +kernel, _, _, rfl, rfl⟩
  have hratio : ∃ share, smallChange.ratio = .ok share := exists_of_isOk (by decide +kernel)
  obtain ⟨hmono, hreturns⟩ := classify_escalates overlappingLimits hextends
  obtain ⟨s, reasons, t, others, hf, hg⟩ := hreturns husable hratio
  exact ⟨hextends, husable, s, reasons, t, others, hf, hg, hmono s reasons t others hf hg⟩

end Strategy

end ChangeImpact
