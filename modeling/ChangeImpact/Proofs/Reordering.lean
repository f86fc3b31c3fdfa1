import ChangeImpact.Proofs.Documents
import ChangeImpact.Yaml.Printing

/-!
# Values that differ in the order of entries

Two mappings with the same entries are equal in whatever order the entries stand, and so are values that
differ only in the order of the entries of mappings somewhere inside. A mapping that is written has its
keys sorted, so this is what may become of a value on its way through a file.

* `Value.same_self`: every value is equal to itself.
* `Entries.Distinct`: no two keys are equal, so a name leads to one entry (`lookup?_eq_some_iff`).
* `Value.Reordered`: **the same value with the entries of mappings in another order.**
* `Reordered.same`: such values are equal, and `Reordered.lookup?`: a name leads to such values.
* `Value.reordered_inOrder`: a value of the document format is written in another order at most.
-/

namespace ChangeImpact

namespace Value

/-! ## Equality -/

theorem same_str_iff {v : Value} {s : String} : v.same (.str s) = true ↔ v = .str s := by
  cases v <;> simp [same, denotes, numeric?]

theorem str_same_iff {v : Value} {s : String} : (Value.str s).same v = true ↔ v = .str s := by
  cases v with
  | str t =>
    rw [same, beq_iff_eq, Value.str.injEq]
    exact eq_comm
  | _ => simp [same]

theorem Numeric.same_int_self (n : Int) : (Numeric.int n).same (.int n) = true := by
  simp [Numeric.same, Numeric.compare?]

mutual

/-- **Every value is equal to itself.** -/
theorem same_self : ∀ v : Value, v.same v = true
  | .null => rfl
  | .bool b => Numeric.same_int_self _
  | .int n => Numeric.same_int_self n
  | .float x => by simp [same, denotes, numeric?, Numeric.same, Binary64.same]
  | .str s => by simp [same]
  | .list items => sameItems_self items
  | .pair a b => by simp [same, same_self a, same_self b]
  | .map entries => by simp [same, entriesWithin_of_subset entries fun e he => he]
  | .set items => by simp [same, itemsWithin_of_subset items fun v hv => hv]
  | .bytes b => by simp [same]
  | .date d => by simp [same]
  | .datetime t => by simp [same, DateTime.same]
  | .named l _ => by simp [same]
  | .again l => by simp [same]
termination_by structural v => v

theorem sameItems_self : ∀ vs : List Value, sameItems vs vs = true
  | [] => rfl
  | v :: vs => by simp [sameItems, same_self v, sameItems_self vs]
termination_by structural vs => vs

theorem itemsWithin_of_subset : ∀ (vs : List Value) {ws : List Value}, (∀ v ∈ vs, v ∈ ws) →
    itemsWithin vs ws = true
  | [], _, _ => rfl
  | v :: vs, ws, h => by
    have hv : ws.any (fun w => same v w) = true :=
      List.any_eq_true.2 ⟨v, h v List.mem_cons_self, same_self v⟩
    rw [itemsWithin, hv, itemsWithin_of_subset vs fun w hw => h w (List.mem_cons_of_mem _ hw)]
    rfl
termination_by structural vs => vs

theorem entryWithin_of_mem : ∀ (e : Value × Value) {ds : Entries}, e ∈ ds → entryWithin e ds = true
  | (k, v), ds, h => by
    refine List.any_eq_true.2 ⟨(k, v), h, ?_⟩
    rw [same_self k, same_self v]
    rfl
termination_by structural e => e

theorem entriesWithin_of_subset : ∀ (es : List (Value × Value)) {ds : Entries}, (∀ e ∈ es, e ∈ ds) →
    entriesWithin es ds = true
  | [], _, _ => rfl
  | e :: es, ds, h => by
    rw [entriesWithin, entryWithin_of_mem e (h e List.mem_cons_self),
      entriesWithin_of_subset es fun d hd => h d (List.mem_cons_of_mem _ hd)]
    rfl
termination_by structural es => es

end

theorem sameItems_of_zip {xs : List Value} : ∀ {ys : List Value}, xs.length = ys.length →
    (∀ p ∈ xs.zip ys, p.1.same p.2 = true) → sameItems xs ys = true := by
  induction xs with
  | nil =>
    intro ys hlength _
    rw [List.eq_nil_of_length_eq_zero hlength.symm]
    rfl
  | cons x xs ih =>
    intro ys hlength h
    cases ys with
    | nil => cases hlength
    | cons y ys =>
      rw [sameItems, h (x, y) List.mem_cons_self,
        ih (Nat.succ.inj hlength) fun p hp => h p (List.mem_cons_of_mem _ hp)]
      rfl

theorem entriesWithin_iff {xs ys : Entries} : entriesWithin xs ys = true ↔
    ∀ x ∈ xs, ∃ y ∈ ys, x.1.same y.1 = true ∧ x.2.same y.2 = true := by
  induction xs with
  | nil => simp [entriesWithin]
  | cons x xs ih =>
    obtain ⟨k, v⟩ := x
    rw [entriesWithin, Bool.and_eq_true, ih, List.forall_mem_cons, entryWithin, List.any_eq_true]
    simp only [Bool.and_eq_true]

/-- Neither value is equal to the other. -/
def Unlike (a b : Value) : Prop := a.same b = false ∧ b.same a = false

theorem Unlike.symm {a b : Value} (h : Unlike a b) : Unlike b a := ⟨h.2, h.1⟩

theorem Unlike.ne {a b : Value} (h : Unlike a b) : a ≠ b := by
  rintro rfl
  have hself := same_self a
  rw [h.1] at hself
  cases hself

end Value

namespace Entries

open Value

/-! ## Keys -/

/-- No two keys are equal. -/
def Distinct (es : Entries) : Prop := (es.map Prod.fst).Pairwise Unlike

variable {es : Entries} {name : String} {v : Value}

theorem Distinct.nodup (h : Distinct es) : (es.map Prod.fst).Nodup := h.imp Unlike.ne

theorem Distinct.of_perm {ds : Entries} (h : Distinct es)
    (hkeys : (es.map Prod.fst).Perm (ds.map Prod.fst)) : Distinct ds :=
  (hkeys.pairwise_iff Unlike.symm).1 h

/-- Entries with one key are one entry. -/
theorem eq_of_key_eq (h : (es.map Prod.fst).Nodup) {d e : Value × Value} (hd : d ∈ es) (he : e ∈ es)
    (hkey : d.1 = e.1) : d = e := List.inj_on_of_nodup_map h hd he hkey

theorem mem_of_lookup? (h : lookup? es name = some v) : (.str name, v) ∈ es := by
  unfold lookup? get? at h
  obtain ⟨e, he, rfl⟩ := Option.map_eq_some_iff.1 h
  have hsame : e.1.same (.str name) = true :=
    List.find?_some (p := fun e : Value × Value => e.1.same (.str name)) he
  rw [← same_str_iff.1 hsame]
  exact List.mem_of_find?_eq_some he

theorem lookup?_eq_none_iff : lookup? es name = none ↔ ∀ e ∈ es, e.1 ≠ .str name := by
  unfold lookup? get?
  rw [Option.map_eq_none_iff, List.find?_eq_none]
  simp only [same_str_iff]

theorem lookup?_eq_some_iff (h : (es.map Prod.fst).Nodup) :
    lookup? es name = some v ↔ (.str name, v) ∈ es := by
  refine ⟨mem_of_lookup?, fun hv => ?_⟩
  cases hfound : lookup? es name with
  | none => exact absurd rfl (lookup?_eq_none_iff.1 hfound _ hv)
  | some w =>
    have hw := eq_of_key_eq h (mem_of_lookup? hfound) hv rfl
    rw [(Prod.mk.inj hw).2]

end Entries

namespace Value

open Entries

/-! ## The same value in another order -/

/-- The same value with the entries of mappings in another order. -/
inductive Reordered : Value → Value → Prop
  | refl (v : Value) : Reordered v v
  | list {xs ys : List Value} (length : xs.length = ys.length)
      (items : ∀ p ∈ xs.zip ys, Reordered p.1 p.2) : Reordered (.list xs) (.list ys)
  | map {xs ys : Entries} (distinct : Entries.Distinct xs)
      (keys : (xs.map Prod.fst).Perm (ys.map Prod.fst))
      (values : ∀ x ∈ xs, ∀ y ∈ ys, x.1 = y.1 → Reordered x.2 y.2) : Reordered (.map xs) (.map ys)

namespace Reordered

variable {v w : Value} {xs ys : Entries}

/-- Values that differ in the order of entries only are equal. -/
theorem same (h : Reordered v w) : v.same w = true := by
  induction h with
  | refl v => exact same_self v
  | list hlength _ ih => exact sameItems_of_zip hlength ih
  | @map xs ys _ hkeys _ ih =>
    have hlength : xs.length = ys.length := by simpa using hkeys.length_eq
    have hwithin : entriesWithin xs ys = true := by
      refine entriesWithin_iff.2 fun x hx => ?_
      obtain ⟨y, hy, hkey⟩ := List.mem_map.1 (hkeys.subset (List.mem_map_of_mem hx))
      exact ⟨y, hy, hkey ▸ same_self _, ih x hx y hy hkey.symm⟩
    rw [Value.same, hlength, hwithin]
    simp

theorem unfold (h : Reordered v w) : Reordered v.unfold w.unfold := by
  cases h with
  | refl => exact .refl _
  | list hlength hitems => exact .list hlength hitems
  | map hdistinct hkeys hvalues => exact .map hdistinct hkeys hvalues

/-- Nothing but a mapping is a mapping in another order. -/
theorem exists_map (h : Reordered (.map xs) w) : ∃ ys, w = .map ys := by
  cases h with
  | refl => exact ⟨xs, rfl⟩
  | map => exact ⟨_, rfl⟩

/-- A mapping in another order, both opened. -/
theorem unfold_map (h : Reordered v w) (hv : v.unfold = .map xs) :
    ∃ ys, w.unfold = .map ys ∧ Reordered (.map xs) (.map ys) := by
  have hopen := h.unfold
  rw [hv] at hopen
  obtain ⟨ys, hys⟩ := hopen.exists_map
  rw [hys] at hopen
  exact ⟨ys, hys, hopen⟩

/-- What is neither a list nor a mapping has no order. -/
theorem eq_of_scalar {p : Value → Bool} (hlist : ∀ xs, p (.list xs) = false)
    (hmap : ∀ xs, p (.map xs) = false) (h : Reordered v w) (hp : p v = true) : w = v := by
  cases h with
  | refl => rfl
  | list => rw [hlist] at hp; cases hp
  | map => rw [hmap] at hp; cases hp

/-- Every entry was there before, in some order. -/
theorem exists_entry (h : Reordered (.map xs) (.map ys)) {y : Value × Value} (hy : y ∈ ys) :
    ∃ x ∈ xs, x.1 = y.1 ∧ Reordered x.2 y.2 := by
  cases h with
  | refl => exact ⟨y, hy, rfl, .refl _⟩
  | map _ hkeys hvalues =>
    obtain ⟨x, hx, hkey⟩ := List.mem_map.1 (hkeys.symm.subset (List.mem_map_of_mem hy))
    exact ⟨x, hx, hkey, hvalues x hx y hy hkey⟩

/-- A name leads to the same value in another order, or to nothing in both. -/
theorem lookup? (h : Reordered (.map xs) (.map ys)) (name : String) :
    Option.Rel Reordered (Entries.lookup? xs name) (Entries.lookup? ys name) := by
  cases h with
  | refl =>
    cases Entries.lookup? xs name with
    | none => exact .none
    | some v => exact .some (.refl v)
  | map hdistinct hkeys hvalues =>
    cases hx : Entries.lookup? xs name with
    | none =>
      have hy : Entries.lookup? ys name = none := by
        refine lookup?_eq_none_iff.2 fun y hy hkey => ?_
        obtain ⟨x, hxs, hxy⟩ := List.mem_map.1 (hkeys.symm.subset (List.mem_map_of_mem hy))
        exact lookup?_eq_none_iff.1 hx x hxs (hxy.trans hkey)
      rw [hy]
      exact .none
    | some v =>
      have hv := mem_of_lookup? hx
      obtain ⟨y, hy, hkey⟩ := List.mem_map.1 (hkeys.subset (List.mem_map_of_mem hv))
      obtain ⟨k, w⟩ := y
      obtain rfl : k = .str name := hkey
      rw [(lookup?_eq_some_iff (hdistinct.of_perm hkeys).nodup).2 hy]
      exact .some (hvalues _ hv _ hy rfl)

theorem lookupD (h : Reordered (.map xs) (.map ys)) (name : String) (d : Value) :
    Reordered (Entries.lookupD xs name d) (Entries.lookupD ys name d) := by
  have hrel := h.lookup? name
  unfold Entries.lookupD
  generalize Entries.lookup? xs name = a, Entries.lookup? ys name = b at hrel ⊢
  cases hrel with
  | none => exact .refl d
  | some hvw => exact hvw

/-- What holds of a value that has no order holds of it in another order of the entries around it. -/
theorem holds_lookupD {p : Value → Bool} (hlist : ∀ xs, p (.list xs) = false)
    (hmap : ∀ xs, p (.map xs) = false) (h : Reordered (.map xs) (.map ys)) {name : String} {d : Value}
    (hp : p (Entries.lookupD xs name d) = true) : p (Entries.lookupD ys name d) = true := by
  rw [(h.lookupD name d).eq_of_scalar hlist hmap hp]
  exact hp

end Reordered

/-! ## Writing in order -/

open Yaml

theorem itemsInOrder_eq_map (vs : List Value) : itemsInOrder vs = vs.map inOrder := by
  induction vs with
  | nil => rfl
  | cons v vs ih => rw [itemsInOrder, ih, List.map_cons]

theorem entriesInOrder_eq_map (es : Entries) : entriesInOrder es = es.map entryInOrder := by
  induction es with
  | nil => rfl
  | cons e es ih => rw [entriesInOrder, ih, List.map_cons]

theorem entryInOrder_eq (e : Value × Value) : entryInOrder e = (e.1, inOrder e.2) := by
  obtain ⟨k, v⟩ := e
  rfl

theorem sortedEntries_perm (es : Entries) : (sortedEntries es).Perm es := by
  unfold sortedEntries
  dsimp only
  split
  · exact List.mergeSort_perm _ _
  · exact List.Perm.refl es

theorem distinct_of_isJson {es : Entries} (h : (Value.map es).isJson = true) : es.Distinct := by
  obtain ⟨hnames, hentries⟩ := isJson_map.1 h
  have hnamed := named_of_allEntriesJson hentries
  refine List.pairwise_map.2 ((List.pairwise_map.1 hnames).imp_of_mem fun {d e} hd he hne => ?_)
  exact ⟨same_eq_false (hnamed d hd) (hnamed e he) hne,
    same_eq_false (hnamed e he) (hnamed d hd) hne.symm⟩

mutual

/-- **A value of the document format is written in another order at most.** -/
theorem reordered_inOrder : ∀ v : Value, v.isJson = true → Reordered v (inOrder v)
  | .list items, h => by
    have hitems := items_inOrder items h
    rw [inOrder, itemsInOrder_eq_map]
    refine .list (List.length_map _).symm fun p hp => ?_
    rw [← List.map_prod_left_eq_zip] at hp
    obtain ⟨v, hv, rfl⟩ := List.mem_map.1 hp
    exact hitems v hv
  | .map es, h => by
    have hvalues := values_inOrder es (isJson_map.1 h).2
    have hdistinct := distinct_of_isJson h
    have hperm := sortedEntries_perm (es.map entryInOrder)
    rw [inOrder, entriesInOrder_eq_map]
    refine .map hdistinct ?_ fun x hx y hy hkey => ?_
    · have hkeys : (es.map entryInOrder).map Prod.fst = es.map Prod.fst := by
        rw [List.map_map]
        refine List.map_congr_left fun e _ => ?_
        rw [Function.comp_apply, entryInOrder_eq]
      rw [← hkeys]
      exact (hperm.map Prod.fst).symm
    · obtain ⟨z, hz, rfl⟩ := List.mem_map.1 (hperm.subset hy)
      rw [entryInOrder_eq] at hkey ⊢
      obtain rfl := eq_of_key_eq hdistinct.nodup hx hz hkey
      exact hvalues x hx
  | .null, _ | .bool _, _ | .int _, _ | .float _, _ | .str _, _ => .refl _
  | .pair _ _, h | .set _, h | .bytes _, h | .date _, h | .datetime _, h | .named _ _, h
  | .again _, h => by cases h
termination_by structural v => v

theorem items_inOrder : ∀ vs : List Value, allJson vs = true → ∀ v ∈ vs, Reordered v (inOrder v)
  | [], _, _, hv => by cases hv
  | w :: vs, h, v, hv => by
    unfold allJson at h
    rw [Bool.and_eq_true] at h
    rcases List.mem_cons.1 hv with hvw | hv
    · rw [hvw]
      exact reordered_inOrder w h.1
    · exact items_inOrder vs h.2 v hv
termination_by structural vs => vs

theorem value_inOrder : ∀ e : Value × Value, entryJson e = true → Reordered e.2 (inOrder e.2)
  | (k, v), h => by
    unfold entryJson at h
    rw [Bool.and_eq_true] at h
    exact reordered_inOrder v h.2
termination_by structural e => e

theorem values_inOrder : ∀ es : List (Value × Value), allEntriesJson es = true → ∀ e ∈ es,
    Reordered e.2 (inOrder e.2)
  | [], _, _, he => by cases he
  | d :: es, h, e, he => by
    unfold allEntriesJson at h
    rw [Bool.and_eq_true] at h
    rcases List.mem_cons.1 he with hed | he
    · rw [hed]
      exact value_inOrder d h.1
    · exact values_inOrder es h.2 e he
termination_by structural es => es

end

end Value

end ChangeImpact
