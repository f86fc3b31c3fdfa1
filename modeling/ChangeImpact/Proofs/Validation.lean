import ChangeImpact.Config.Decode
import ChangeImpact.Proofs.Reordering

/-!
# What a section must hold

A section of a configuration is accepted if it is a mapping and its entries pass the checks of the section.
Nothing that is checked depends on the order of entries, although the groups of type names are gone through
one by one and the first name with two groups ends the check.

* `requireMapping_eq_ok`, `requireTexts_eq_ok`: what can be opened as a mapping or as a list of texts.
* `checkGroups_eq_ok_iff`: groups are accepted if no name belongs to two of them, whatever their order.
* `Judges`: a check that accepts the mappings whose entries satisfy a predicate, in any order, and
  `Judges.reordered`: **so it accepts what it accepts in another order as well.**
* `judges_types`, `judges_thresholds`, `judges_plan`, `judges_contracts`, `judges_scan`: **what each section
  must hold.**
-/

namespace ChangeImpact.Config

open Value

variable {place : String} {v w : Value} {es ds : Entries}

/-! ## Mappings and lists of texts -/

theorem fail_ne_ok {α : Type} {cause : ConfigFault} {a : α} : (fail cause : Except Fault α) ≠ .ok a :=
  nofun

theorem requireMapping_eq_ok : requireMapping place v = .ok es ↔ v.unfold = .map es := by
  unfold requireMapping
  split
  · rename_i entries hv
    rw [hv, Except.ok.injEq, Value.map.injEq]
  · rename_i hv
    exact ⟨fun h => absurd h fail_ne_ok, fun h => absurd h (hv es)⟩

/-- A list of texts. -/
def isTexts (v : Value) : Bool :=
  match v.unfold with
  | .list items => items.all isText
  | _ => false

theorem requireTexts_eq_ok {names : List String} :
    requireTexts place v = .ok names ↔ isTexts v = true ∧ names = textsOf v := by
  unfold requireTexts isTexts
  cases v.unfold with
  | list items =>
    dsimp only
    by_cases hall : items.all isText = true
    · rw [if_pos hall, Except.ok.injEq, eq_comm, and_iff_right hall]
    · rw [if_neg hall]
      exact ⟨fun h => absurd h fail_ne_ok, fun h => absurd h.1 hall⟩
  | _ => exact ⟨fun h => absurd h fail_ne_ok, fun h => by cases h.1⟩

theorem exists_requireTexts_eq_ok : (∃ names, requireTexts place v = .ok names) ↔ isTexts v = true := by
  simp only [requireTexts_eq_ok]
  exact ⟨fun ⟨_, h, _⟩ => h, fun h => ⟨_, h, rfl⟩⟩

/-- A list of texts has no order of entries. -/
theorem eq_of_isTexts (h : Reordered v w) (hv : isTexts v = true) : w = v := by
  cases h with
  | refl => rfl
  | map => cases hv
  | @list xs ys hlength hitems =>
    have htexts : ∀ x ∈ xs, isText x = true := List.all_eq_true.1 hv
    rw [Value.list.injEq]
    refine List.ext_getElem hlength.symm fun i hy hx => ?_
    have hzip : (xs[i], ys[i]) ∈ xs.zip ys := by
      have hlt : i < (xs.zip ys).length := by rw [List.length_zip]; omega
      rw [← List.getElem_zip (h := hlt)]
      exact List.getElem_mem hlt
    exact (hitems _ hzip).eq_of_scalar (fun _ => rfl) (fun _ => rfl) (htexts _ (List.getElem_mem hx))

/-- A mapping all of whose entries satisfy a predicate. -/
def MapOf (P : Value × Value → Prop) (v : Value) : Prop := ∃ es, v.unfold = .map es ∧ ∀ e ∈ es, P e

/-- A predicate on entries that the order within the value does not touch. -/
def Lasting (P : Value × Value → Prop) : Prop :=
  ∀ ⦃k v w⦄, Reordered v w → P (k, v) → P (k, w)

theorem Lasting.entries {P : Value × Value → Prop} (hP : Lasting P) (h : Reordered (.map es) (.map ds))
    (hes : ∀ e ∈ es, P e) : ∀ d ∈ ds, P d := by
  intro d hd
  obtain ⟨e, he, hkey, hvalue⟩ := h.exists_entry hd
  have hkept : P (e.1, d.2) := hP hvalue (hes e he)
  rw [hkey] at hkept
  exact hkept

theorem Lasting.mapOf {P : Value × Value → Prop} (hP : Lasting P) (h : Reordered v w) (hv : MapOf P v) :
    MapOf P w := by
  obtain ⟨es, hes, hall⟩ := hv
  obtain ⟨ds, hds, hmap⟩ := h.unfold_map hes
  exact ⟨ds, hds, hP.entries hmap hall⟩

/-! ## Groups of type names -/

/-- A key that can be written, with a list of texts. -/
def Listing (e : Value × Value) : Prop := (∃ text, e.1.toText = .ok text) ∧ isTexts e.2 = true

theorem lasting_listing : Lasting Listing := fun _ _ _ h hv => by
  rw [eq_of_isTexts h hv.2]
  exact hv

/-- The names of groups, each with its group. -/
def groupings (es : Entries) : List (String × Value) :=
  es.flatMap fun e => (textsOf e.2).map fun name => (name, e.1)

/-- One name has one group, which is equal to itself. -/
def Agree (p q : String × Value) : Prop := p.1 = q.1 → p.2 = q.2 ∧ p.2.isNan = false

theorem Agree.symm {p q : String × Value} (h : Agree p q) : Agree q p := fun hname => by
  obtain ⟨hgroup, hnan⟩ := h hname.symm
  exact ⟨hgroup.symm, hgroup ▸ hnan⟩

/-- A table of groups in which each name is found as in the groupings so far. -/
def Indexes (groups done : List (String × Value)) : Prop :=
  ∀ name, groups.find? (fun g => g.1 == name) = done.find? fun g => g.1 == name

section Names

variable {groups done found : List (String × Value)} {group : Value} {name : String}

theorem Indexes.append_found {g : String × Value} (h : Indexes groups done)
    (hg : groups.find? (fun g => g.1 == name) = some g) : Indexes groups (done ++ [(name, group)]) := by
  intro n
  rw [List.find?_append, ← h n]
  by_cases hn : name = n
  · subst hn
    rw [hg]
    rfl
  · rw [List.find?_singleton, if_neg (by simpa using hn), Option.or_none]

theorem Indexes.append_new (h : Indexes groups done) :
    Indexes (groups ++ [(name, group)]) (done ++ [(name, group)]) := by
  intro n
  rw [List.find?_append, List.find?_append, h n]

theorem pairwise_concat {p : String × Value} (h : done.Pairwise Agree) (hp : ∀ q ∈ done, Agree q p) :
    (done ++ [p]).Pairwise Agree :=
  List.pairwise_append.2 ⟨h, List.pairwise_singleton _ _, fun q hq _ hr =>
    List.mem_singleton.1 hr ▸ hp q hq⟩

theorem exists_of_indexes {g : String × Value} (h : Indexes groups done)
    (hg : groups.find? (fun g => g.1 == name) = some g) : g ∈ done ∧ g.1 = name := by
  rw [h name] at hg
  exact ⟨List.mem_of_find?_eq_some hg, by simpa using List.find?_some hg⟩

/-- Names that are added without a fault agree with those before them. -/
theorem agree_of_addNames (names : List String) : ∀ {groups done : List (String × Value)},
    Indexes groups done → done.Pairwise Agree → (∀ p ∈ done, p.2.same group = true → p.2 = group) →
    addNames group groups names = .ok found →
    Indexes found (done ++ names.map fun name => (name, group)) ∧
      (done ++ names.map fun name => (name, group)).Pairwise Agree := by
  induction names with
  | nil =>
    intro groups done hindex hagree _ h
    rw [List.map_nil, List.append_nil, ← Except.ok.inj h]
    exact ⟨hindex, hagree⟩
  | cons name names ih =>
    intro groups done hindex hagree hown h
    have hown' : ∀ p ∈ done ++ [(name, group)], p.2.same group = true → p.2 = group := by
      intro p hp hsame
      rcases List.mem_append.1 hp with hp | hp
      · exact hown p hp hsame
      · rw [List.mem_singleton.1 hp]
    rw [List.map_cons, List.append_cons]
    unfold addNames at h
    split at h
    · rename_i g hg
      obtain ⟨hmem, hname⟩ := exists_of_indexes hindex hg
      split at h
      · rename_i hsame
        rw [Bool.and_eq_true, Bool.not_eq_true'] at hsame
        have hgroup : g.2 = group := hown g hmem hsame.1
        -- every earlier group of the name is the one that was found
        have hold : ∀ q ∈ done, Agree q (name, group) := by
          intro q hq hqname
          by_cases hqg : q = g
          · rw [hqg, hgroup]
            exact ⟨rfl, hsame.2⟩
          · have hsym : Std.Symm Agree := ⟨fun _ _ => Agree.symm⟩
            obtain ⟨hqgroup, hnan⟩ := hagree.forall hq hmem hqg (hqname.trans hname.symm)
            exact ⟨hqgroup.trans hgroup, hnan⟩
        exact ih (hindex.append_found hg) (pairwise_concat hagree hold) hown' h
      · obtain ⟨_, -, h⟩ := bind_eq_ok.1 h
        obtain ⟨_, -, h⟩ := bind_eq_ok.1 h
        exact absurd h fail_ne_ok
    · rename_i hg
      have hold : ∀ q ∈ done, Agree q (name, group) := by
        intro q hq hqname
        rw [hindex name] at hg
        have hne := List.find?_eq_none.1 hg q hq
        exact absurd (beq_iff_eq.2 hqname) hne
      exact ih hindex.append_new (pairwise_concat hagree hold) hown' h

/-- Names that agree with those before them are added without a fault. -/
theorem addNames_of_agree (names : List String) : ∀ {groups done : List (String × Value)},
    Indexes groups done → (done ++ names.map fun name => (name, group)).Pairwise Agree →
    ∃ found, addNames group groups names = .ok found := by
  induction names with
  | nil => exact fun {groups} _ _ _ => ⟨groups, rfl⟩
  | cons name names ih =>
    intro groups done hindex hagree
    rw [List.map_cons, List.append_cons] at hagree
    unfold addNames
    split
    · rename_i g hg
      obtain ⟨hmem, hname⟩ := exists_of_indexes hindex hg
      have hnew : Agree g (name, group) :=
        (List.pairwise_append.1 (List.pairwise_append.1 hagree).1).2.2 g hmem _ (List.mem_singleton.2 rfl)
      obtain ⟨hgroup, hnan⟩ := hnew hname
      have hgroup' : g.2 = group := hgroup
      rw [hgroup'] at hnan
      rw [hgroup', same_self, hnan]
      exact ih (hindex.append_found hg) hagree
    · exact ih hindex.append_new hagree

end Names

/-- **Groups are accepted if each can be written and no name belongs to two of them.** -/
theorem checkGroups_eq_ok_iff (es : Entries) : ∀ {groups done : List (String × Value)},
    Indexes groups done → done.Pairwise Agree →
    (∀ e ∈ es, ∀ p ∈ done, p.2.same e.1 = true → p.2 = e.1) → es.Distinct →
    (checkGroups groups es = .ok () ↔
      (∀ e ∈ es, Listing e) ∧ (done ++ groupings es).Pairwise Agree) := by
  induction es with
  | nil =>
    intro groups done _ hagree _ _
    simpa [checkGroups, groupings] using hagree
  | cons e es ih =>
    intro groups done hindex hagree hown hdistinct
    obtain ⟨group, value⟩ := e
    rw [Entries.Distinct, List.map_cons, List.pairwise_cons] at hdistinct
    have hown' : ∀ e ∈ es, ∀ p ∈ done ++ (textsOf value).map fun name => (name, group),
        p.2.same e.1 = true → p.2 = e.1 := by
      intro e he p hp hsame
      rcases List.mem_append.1 hp with hp | hp
      · exact hown e (List.mem_cons_of_mem _ he) p hp hsame
      · -- a group is not equal to any of those that follow
        obtain ⟨name, -, rfl⟩ := List.mem_map.1 hp
        have hunlike := hdistinct.1 e.1 (List.mem_map_of_mem he)
        rw [hunlike.1] at hsame
        cases hsame
    have hsplit : done ++ groupings ((group, value) :: es) =
        (done ++ (textsOf value).map fun name => (name, group)) ++ groupings es := by
      rw [groupings, List.flatMap_cons, List.append_assoc]
      rfl
    have hown₀ := hown (group, value) List.mem_cons_self
    rw [hsplit, List.forall_mem_cons]
    unfold checkGroups
    simp only [bind_eq_ok, requireTexts_eq_ok]
    constructor
    · rintro ⟨text, htext, names, ⟨htexts, rfl⟩, found, hfound, hrest⟩
      obtain ⟨hindex', hagree'⟩ := agree_of_addNames _ hindex hagree hown₀ hfound
      obtain ⟨hlisting, hall⟩ := (ih hindex' hagree' hown' hdistinct.2).1 hrest
      exact ⟨⟨⟨⟨text, htext⟩, htexts⟩, hlisting⟩, hall⟩
    · rintro ⟨⟨⟨⟨text, htext⟩, htexts⟩, hlisting⟩, hall⟩
      have hagree' := (List.pairwise_append.1 hall).1
      obtain ⟨found, hfound⟩ := addNames_of_agree _ hindex hagree'
      have hindex' := (agree_of_addNames _ hindex hagree hown₀ hfound).1
      exact ⟨text, htext, _, ⟨htexts, rfl⟩, found, hfound,
        (ih hindex' hagree' hown' hdistinct.2).2 ⟨hlisting, hall⟩⟩

theorem checkGroups_nil_iff (h : es.Distinct) : checkGroups [] es = .ok () ↔
    (∀ e ∈ es, Listing e) ∧ (groupings es).Pairwise Agree :=
  checkGroups_eq_ok_iff es (fun _ => rfl) List.Pairwise.nil (fun _ _ _ hp => by cases hp) h

/-- Entries with lists of texts are the same entries in any order. -/
theorem perm_of_reordered (h : Reordered (.map es) (.map ds)) (htexts : ∀ e ∈ es, isTexts e.2 = true) :
    es.Perm ds := by
  cases h with
  | refl => exact List.Perm.refl es
  | map hdistinct hkeys hvalues =>
    have heq : ∀ e ∈ es, ∀ d ∈ ds, e.1 = d.1 → e = d := fun e he d hd hkey =>
      Prod.ext hkey (eq_of_isTexts (hvalues e he d hd hkey) (htexts e he)).symm
    refine (List.perm_ext_iff_of_nodup (List.Nodup.of_map _ hdistinct.nodup)
      (List.Nodup.of_map _ (hdistinct.of_perm hkeys).nodup)).2 fun x => ⟨fun hx => ?_, fun hx => ?_⟩
    · obtain ⟨d, hd, hkey⟩ := List.mem_map.1 (hkeys.subset (List.mem_map_of_mem hx))
      rw [heq x hx d hd hkey.symm]
      exact hd
    · obtain ⟨e, he, hkey⟩ := List.mem_map.1 (hkeys.symm.subset (List.mem_map_of_mem hx))
      rw [← heq e he x hx hkey]
      exact he

theorem checkGroups_reordered (h : Reordered (.map es) (.map ds)) (hes : checkGroups [] es = .ok ()) :
    checkGroups [] ds = .ok () := by
  cases h with
  | refl => exact hes
  | map hdistinct hkeys hvalues =>
    obtain ⟨hlisting, hagree⟩ := (checkGroups_nil_iff hdistinct).1 hes
    have hreordered : Reordered (.map es) (.map ds) := .map hdistinct hkeys hvalues
    have hperm := perm_of_reordered hreordered fun e he => (hlisting e he).2
    have hagree' : (groupings ds).Pairwise Agree :=
      ((hperm.flatMap_right _).pairwise_iff Agree.symm).1 hagree
    exact (checkGroups_nil_iff (hdistinct.of_perm hkeys)).2
      ⟨fun d hd => hlisting d (hperm.symm.subset hd), hagree'⟩

/-! ## What each section must hold -/

/-- A check of a section: it accepts the mappings whose entries satisfy a predicate, in any order. -/
structure Judges (check : Value → Except Fault Entries) (Holds : Entries → Prop) : Prop where
  eq_ok_iff : ∀ {v es}, check v = .ok es ↔ v.unfold = .map es ∧ Holds es
  holds_reordered : ∀ {es ds}, Reordered (.map es) (.map ds) → Holds es → Holds ds

section Judges

variable {check : Value → Except Fault Entries} {Holds : Entries → Prop}

/-- What was accepted is accepted again. -/
theorem Judges.again (h : Judges check Holds) (hv : check v = .ok es) : check (.map es) = .ok es :=
  h.eq_ok_iff.2 ⟨rfl, (h.eq_ok_iff.1 hv).2⟩

/-- **What was accepted is accepted in another order.** -/
theorem Judges.reordered (h : Judges check Holds) (hvw : Reordered v w) (hv : check v = .ok es) :
    ∃ ds, check w = .ok ds ∧ Reordered (.map es) (.map ds) := by
  obtain ⟨hes, hholds⟩ := h.eq_ok_iff.1 hv
  obtain ⟨ds, hds, hmap⟩ := hvw.unfold_map hes
  exact ⟨ds, h.eq_ok_iff.2 ⟨hds, h.holds_reordered hmap hholds⟩, hmap⟩

/-- A check that opens a mapping, judges its entries and returns them. -/
theorem judges_of {body : Entries → Except Fault Entries}
    (hcheck : ∀ v, check v = requireMapping place v >>= body)
    (hbody : ∀ {es ds}, body es = .ok ds ↔ ds = es ∧ Holds es)
    (hreordered : ∀ {es ds}, Reordered (.map es) (.map ds) → Holds es → Holds ds) : Judges check Holds where
  eq_ok_iff {v es} := by
    rw [hcheck]
    simp only [bind_eq_ok, requireMapping_eq_ok, hbody]
    constructor
    · rintro ⟨ds, hds, rfl, hholds⟩
      exact ⟨hds, hholds⟩
    · rintro ⟨hes, hholds⟩
      exact ⟨es, hes, rfl, hholds⟩
  holds_reordered := hreordered

end Judges

theorem then_eq_ok {x : Except Fault Unit} : (x >>= fun _ => pure es) = .ok ds ↔ ds = es ∧ x = .ok () := by
  cases x with
  | error e => simp [bind, Except.bind]
  | ok u => simp [bind, Except.bind, pure, Except.pure, eq_comm]

theorem fail_bind_ne_ok {α β : Type} {cause : ConfigFault} {f : α → Except Fault β} {b : β} :
    (fail cause >>= f) ≠ .ok b := by
  rw [ne_eq, bind_eq_ok]
  exact fun ⟨_, h, _⟩ => fail_ne_ok h

/-- A step after a condition whose fault shows the value that fails it. -/
theorem demand_eq_ok {α β : Type} {b : Bool} {text : Except Fault α} {cause : α → ConfigFault}
    {next : Unit → Except Fault β} {r : β} :
    (if (!b) = true then text >>= fun t => fail (cause t) >>= next else next ()) = .ok r ↔
      b = true ∧ next () = .ok r :=
  guard_eq_ok (bind_ne_ok fun _ => fail_bind_ne_ok)

/-- A step after a condition with a fault of its own. -/
theorem insist_eq_ok {β : Type} {b : Bool} {cause : ConfigFault} {next : Unit → Except Fault β} {r : β} :
    (if (!b) = true then fail cause >>= next else next ()) = .ok r ↔ b = true ∧ next () = .ok r :=
  guard_eq_ok fail_bind_ne_ok

theorem pure_eq_ok {α : Type} {a b : α} : (pure a : Except Fault α) = .ok b ↔ b = a := by
  simp [pure, Except.pure, eq_comm]

theorem judges_types : Judges checkTypeEquivalence fun es => checkGroups [] es = .ok () :=
  judges_of (fun _ => rfl) then_eq_ok checkGroups_reordered

/-- A dimension with a number between zero and one. -/
def ThresholdHolds (e : Value × Value) : Prop :=
  (Vocabulary.ofValue? Dimension e.1).isSome = true ∧ isRatio e.2 = true

theorem checkThreshold_eq_ok {e : Value × Value} : checkThreshold e = .ok () ↔ ThresholdHolds e := by
  unfold checkThreshold ThresholdHolds
  cases Vocabulary.ofValue? Dimension e.1 with
  | none =>
    exact ⟨fun h => absurd h (bind_ne_ok fun _ => fail_bind_ne_ok), fun h => by cases h.1⟩
  | some d =>
    refine (guard_eq_ok (bind_ne_ok fun _ => bind_ne_ok fun _ => fail_ne_ok)).trans ?_
    simp [pure, Except.pure]

theorem lasting_threshold : Lasting ThresholdHolds := fun _ _ _ h hv => by
  rw [h.eq_of_scalar (fun _ => rfl) (fun _ => rfl) hv.2]
  exact hv

theorem judges_thresholds : Judges checkThresholds fun es => ∀ e ∈ es, ThresholdHolds e := by
  refine judges_of (fun _ => rfl) ?_ lasting_threshold.entries
  intro es ds
  rw [then_eq_ok, forM_eq_ok]
  simp only [checkThreshold_eq_ok]

/-- Two counts and a number between zero and one. -/
def PlanHolds (es : Entries) : Prop :=
  isIntegerFrom 0 (Entries.lookup es "full_sync_max_impacted") = true ∧
    isIntegerFrom 0 (Entries.lookup es "refactor_min_impacted") = true ∧
    isRatio (Entries.lookup es "refactor_mismatch_ratio") = true

theorem checkCount_eq_ok {key : String} {u : Unit} :
    checkCount es key = .ok u ↔ isIntegerFrom 0 (Entries.lookup es key) = true := by
  refine (guard_eq_ok (bind_ne_ok fun _ => fail_ne_ok)).trans ?_
  simp [pure, Except.pure]

theorem judges_plan : Judges checkPlan PlanHolds := by
  refine judges_of (fun _ => rfl) ?_ ?_
  · intro es ds
    simp only [bind_eq_ok, checkCount_eq_ok, demand_eq_ok, pure_eq_ok]
    constructor
    · rintro ⟨_, hsync, _, hrefactor, hratio, hds⟩
      exact ⟨hds, hsync, hrefactor, hratio⟩
    · rintro ⟨hds, hsync, hrefactor, hratio⟩
      exact ⟨(), hsync, (), hrefactor, hratio, hds⟩
  · rintro es ds h ⟨hsync, hrefactor, hratio⟩
    exact ⟨h.holds_lookupD (fun _ => rfl) (fun _ => rfl) hsync,
      h.holds_lookupD (fun _ => rfl) (fun _ => rfl) hrefactor,
      h.holds_lookupD (fun _ => rfl) (fun _ => rfl) hratio⟩

/-- A mapping that has lists of texts to strip, or none. -/
def Strips (v : Value) : Prop :=
  ∃ rule, v.unfold = .map rule ∧
    ∀ key ∈ ["strip_prefixes", "strip_suffixes"], isTexts (Entries.lookupD rule key (.list [])) = true

theorem strips_iff {layer : String} :
    (do
      let rule ← requireMapping ("contracts.naming_rules." ++ layer) v
      for key in ["strip_prefixes", "strip_suffixes"] do
        let _ ← requireTexts ("contracts.naming_rules." ++ layer ++ "." ++ key)
          (Entries.lookupD rule key (.list []))) = .ok () ↔ Strips v := by
  rw [bind_eq_ok]
  simp only [requireMapping_eq_ok]
  refine exists_congr fun rule => and_congr_right fun _ => ?_
  rw [bind_eq_ok]
  constructor
  · rintro ⟨_, h, -⟩ key hkey
    exact exists_requireTexts_eq_ok.1 (forIn_eq_ok.1 h key hkey)
  · intro h
    exact ⟨.unit, forIn_eq_ok.2 fun key hkey => exists_requireTexts_eq_ok.2 (h key hkey), rfl⟩

/-- A side with a rule for its names. -/
def RuleHolds (e : Value × Value) : Prop := isSide e.1 = true ∧ Strips e.2

theorem checkRule_eq_ok {e : Value × Value} : checkRule e = .ok () ↔ RuleHolds e := by
  obtain ⟨k, v⟩ := e
  unfold RuleHolds
  constructor
  · intro h
    obtain ⟨layer, -, h⟩ := bind_eq_ok.1 h
    split at h
    · rename_i hk
      exact ⟨hk ▸ rfl, strips_iff.1 h⟩
    · rename_i hk
      exact ⟨hk ▸ rfl, strips_iff.1 h⟩
    · exact absurd h fail_ne_ok
  · rintro ⟨hside, hrule⟩
    dsimp only at hside
    unfold isSide at hside
    split at hside
    · exact strips_iff.2 hrule
    · exact strips_iff.2 hrule
    · cases hside

theorem lasting_rule : Lasting RuleHolds := by
  rintro k v w h ⟨hside, rule, hrule, htexts⟩
  obtain ⟨rule', hrule', hmap⟩ := h.unfold_map hrule
  refine ⟨hside, rule', hrule', fun key hkey => ?_⟩
  rw [eq_of_isTexts (hmap.lookupD key _) (htexts key hkey)]
  exact htexts key hkey

/-- Texts for texts, rules for layers, a list of texts and a side. -/
def ContractsHold (es : Entries) : Prop :=
  MapOf (fun m => isText m.1 = true ∧ isText m.2 = true) (Entries.lookupD es "mappings" (.map [])) ∧
    MapOf RuleHolds (Entries.lookupD es "naming_rules" (.map [])) ∧
    isTexts (Entries.lookupD es "route_prefixes" (.list [])) = true ∧
    isSide (Entries.lookupD es "declared_side" (.str "frontend")) = true

theorem judges_contracts : Judges checkContracts ContractsHold := by
  refine judges_of (fun _ => rfl) ?_ ?_
  · intro es ds
    have hrules_iff : ∀ {rules : Entries} {u : Unit}, rules.forM checkRule = .ok u ↔
        ∀ r ∈ rules, RuleHolds r := by
      intro rules u
      refine forM_eq_ok.trans ?_
      simp only [checkRule_eq_ok]
    simp only [bind_eq_ok, requireMapping_eq_ok, requireTexts_eq_ok, insist_eq_ok, pure_eq_ok, hrules_iff,
      List.all_eq_true, Bool.and_eq_true]
    constructor
    · rintro ⟨mappings, hm, hmappings, rules, hr, _, hrules, _, ⟨hprefixes, -⟩, hside, hds⟩
      exact ⟨hds, ⟨mappings, hm, hmappings⟩, ⟨rules, hr, hrules⟩, hprefixes, hside⟩
    · rintro ⟨hds, ⟨mappings, hm, hmappings⟩, ⟨rules, hr, hrules⟩, hprefixes, hside⟩
      exact ⟨mappings, hm, hmappings, rules, hr, (), hrules, _, ⟨hprefixes, rfl⟩, hside, hds⟩
  · rintro es ds h ⟨hmappings, hrules, hprefixes, hside⟩
    have hlasting : Lasting fun m => isText m.1 = true ∧ isText m.2 = true := fun _ _ _ hvw hm => by
      rw [hvw.eq_of_scalar (fun _ => rfl) (fun _ => rfl) hm.2]
      exact hm
    refine ⟨hlasting.mapOf (h.lookupD _ _) hmappings, lasting_rule.mapOf (h.lookupD _ _) hrules, ?_,
      h.holds_lookupD (fun _ => rfl) (fun _ => rfl) hside⟩
    rw [eq_of_isTexts (h.lookupD _ _) hprefixes]
    exact hprefixes

/-- A count that is not zero, and lists of texts. -/
def ScanHolds (es : Entries) : Prop :=
  isIntegerFrom 1 (Entries.lookupD es "jobs" (.int 1)) = true ∧
    MapOf Listing (Entries.lookupD es "extractor_patterns" (.map []))

theorem patterns_eq_ok {u : PUnit} :
    (forIn es PUnit.unit fun (e : Value × Value) _ => do
      let _ ← requireTexts (place ++ (← e.1.toText)) e.2
      pure (ForInStep.yield PUnit.unit)) = .ok u ↔ ∀ e ∈ es, Listing e := by
  simp only [← bind_assoc]
  refine forIn_eq_ok.trans ?_
  simp only [bind_eq_ok, requireTexts_eq_ok, Listing]
  constructor
  · intro h e he
    obtain ⟨_, text, htext, htexts, -⟩ := h e he
    exact ⟨⟨text, htext⟩, htexts⟩
  · intro h e he
    obtain ⟨⟨text, htext⟩, htexts⟩ := h e he
    exact ⟨_, text, htext, htexts, rfl⟩

theorem judges_scan : Judges checkScan ScanHolds := by
  refine judges_of (fun _ => rfl) ?_ ?_
  · intro es ds
    simp only [bind_eq_ok, requireMapping_eq_ok, demand_eq_ok, patterns_eq_ok, pure_eq_ok]
    constructor
    · rintro ⟨hjobs, patterns, hp, _, hpatterns, hds⟩
      exact ⟨hds, hjobs, patterns, hp, hpatterns⟩
    · rintro ⟨hds, hjobs, patterns, hp, hpatterns⟩
      exact ⟨hjobs, patterns, hp, .unit, hpatterns, hds⟩
  · rintro es ds h ⟨hjobs, hpatterns⟩
    exact ⟨h.holds_lookupD (fun _ => rfl) (fun _ => rfl) hjobs,
      lasting_listing.mapOf (h.lookupD _ _) hpatterns⟩

end ChangeImpact.Config
