import ChangeImpact.Proofs.Distinct

/-!
# Laws of tables

A table that is `Ordered` has its keys in strict order. Every table operation keeps that, and what a
table holds under a key after an operation is one equation for each operation.

* `get?_insert`, `get?_erase`, `get?_filter_keys`: the entries after an operation.
* `Ordered.insert`, `Ordered.erase`, `Ordered.filter`: the order after an operation.
* `erase_insert`: an entry that is set and erased again.
* `get?_eq_some_iff`: in an ordered table the entries are what can be looked up.
* `Ordered.ext`: ordered tables with the same entries are equal.
* `get?_image`, `erase_image`, `Ordered.insert_image`: operations on an image are images of operations.
* `get?_foldl_insert_of_mem`, `get?_foldl_insert_of_not_mem`: many entries set one by one.
-/

namespace ChangeImpact.Table

variable {α β : Type}

/-- The keys are in strict order. -/
def Ordered (t : Table α) : Prop := Text.Ascending t.keys

@[simp]
theorem get?_nil (k : String) : Table.get? ([] : Table α) k = none := rfl

theorem get?_cons (e : String × α) (t : Table α) (k : String) :
    Table.get? (e :: t) k = if e.1 = k then some e.2 else t.get? k := rfl

theorem ordered_nil : Ordered ([] : Table α) := List.Pairwise.nil

theorem ordered_cons {e : String × α} {t : Table α} :
    Ordered (e :: t) ↔ (∀ k ∈ t.keys, Text.lt e.1 k = true) ∧ t.Ordered := by
  unfold Ordered Text.Ascending keys
  rw [List.map_cons, List.pairwise_cons]

theorem mem_keys {t : Table α} {k : String} : k ∈ t.keys ↔ ∃ v, (k, v) ∈ t := by
  unfold keys; simp

theorem get?_eq_none_iff {t : Table α} {k : String} : t.get? k = none ↔ k ∉ t.keys := by
  induction t with
  | nil => simp [keys]
  | cons e t ih =>
    rw [get?_cons]
    by_cases h : e.1 = k
    · simp [h, keys]
    · rw [if_neg h, ih]
      simp only [keys, List.map_cons, List.mem_cons, not_or]
      exact ⟨fun hk => ⟨fun hek => h hek.symm, hk⟩, fun hk => hk.2⟩

theorem contains_iff {t : Table α} {k : String} : t.contains k = true ↔ k ∈ t.keys := by
  unfold contains
  rw [Option.isSome_iff_ne_none, ne_eq, get?_eq_none_iff, not_not]

theorem mem_of_get?_eq_some {t : Table α} {k : String} {v : α} (h : t.get? k = some v) :
    (k, v) ∈ t := by
  induction t with
  | nil => simp at h
  | cons e t ih =>
    rw [get?_cons] at h
    split at h
    · rename_i he
      rw [← he, ← Option.some.inj h]; exact List.mem_cons_self
    · exact List.mem_cons_of_mem _ (ih h)

/-- **In an ordered table the entries are what can be looked up.** -/
theorem Ordered.get?_eq_some_iff {t : Table α} (ht : t.Ordered) {k : String} {v : α} :
    t.get? k = some v ↔ (k, v) ∈ t := by
  refine ⟨mem_of_get?_eq_some, ?_⟩
  induction t with
  | nil => simp
  | cons e t ih =>
    intro h
    rw [ordered_cons] at ht
    rcases List.mem_cons.1 h with h | h
    · rw [get?_cons, ← h, if_pos rfl]
    · have hne : e.1 ≠ k := Text.ne_of_lt (ht.1 k (mem_keys.2 ⟨v, h⟩))
      rw [get?_cons, if_neg hne, ih ht.2 h]

theorem get?_insert (t : Table α) (k : String) (v : α) (j : String) :
    (t.insert k v).get? j = if j = k then some v else t.get? j := by
  induction t with
  | nil =>
    rw [insert, get?_cons]
    by_cases h : j = k
    · simp [h]
    · simp [h, Ne.symm h]
  | cons e t ih =>
    rw [insert]
    split
    · rename_i he
      rw [get?_cons, get?_cons]
      by_cases h : j = k
      · simp [h]
      · simp [h, Ne.symm h, he]
    · rename_i he
      split
      · rw [get?_cons]
        by_cases h : j = k
        · simp [h]
        · simp [h, Ne.symm h]
      · rw [get?_cons, get?_cons, ih]
        by_cases h : j = k
        · simp [h, he]
        · simp [h]

theorem mem_keys_insert {t : Table α} {k : String} {v : α} {j : String} :
    j ∈ (t.insert k v).keys ↔ j = k ∨ j ∈ t.keys := by
  rw [← contains_iff, ← contains_iff]
  unfold contains
  rw [get?_insert]
  by_cases h : j = k <;> simp [h]

theorem Ordered.insert {t : Table α} (ht : t.Ordered) (k : String) (v : α) : (t.insert k v).Ordered := by
  induction t with
  | nil => exact List.pairwise_singleton _ _
  | cons e t ih =>
    have ht' := ordered_cons.1 ht
    rw [Table.insert]
    split
    · rename_i he
      rw [ordered_cons]; exact ⟨fun j hj => he ▸ ht'.1 j hj, ht'.2⟩
    · rename_i he
      split
      · rename_i hlt
        rw [ordered_cons]
        refine ⟨?_, ht⟩
        intro j hj
        rcases List.mem_cons.1 hj with rfl | hj
        · exact hlt
        · exact Text.lt_trans hlt (ht'.1 j hj)
      · rename_i hlt
        rw [ordered_cons]
        refine ⟨?_, ih ht'.2⟩
        intro j hj
        rcases mem_keys_insert.1 hj with rfl | hj
        · -- the key is neither the first one nor before it, so it comes after it
          rcases Text.lt_or_eq_or_lt e.1 j with h | h | h
          · exact h
          · exact absurd h he
          · exact absurd h hlt
        · exact ht'.1 j hj

theorem keys_filter_sublist (p : String × α → Bool) (t : Table α) :
    (Table.keys (t.filter p)).Sublist t.keys := List.filter_sublist.map _

theorem Ordered.filter {t : Table α} (ht : t.Ordered) (p : String × α → Bool) :
    Ordered (t.filter p) := List.Pairwise.sublist (keys_filter_sublist p t) ht

theorem get?_filter_keys (p : String → Bool) (t : Table α) (j : String) :
    Table.get? (t.filter fun e => p e.1) j = if p j then t.get? j else none := by
  induction t with
  | nil => simp
  | cons e t ih =>
    by_cases he : p e.1 = true
    · rw [List.filter_cons_of_pos (by simpa using he), get?_cons, get?_cons, ih]
      by_cases h : e.1 = j
      · subst h; simp [he]
      · simp [h]
    · rw [List.filter_cons_of_neg (by simpa using he), get?_cons, ih]
      by_cases h : e.1 = j
      · subst h; simp [he]
      · simp [h]

theorem Ordered.erase {t : Table α} (ht : t.Ordered) (k : String) : (t.erase k).Ordered := ht.filter _

theorem get?_erase (t : Table α) (k j : String) :
    (t.erase k).get? j = if j = k then none else t.get? j := by
  unfold erase
  rw [get?_filter_keys (fun x => x != k) t j]
  by_cases h : j = k <;> simp [h]

/-- What is left after an erasure was there before it. -/
theorem get?_of_get?_erase {t : Table α} {k j : String} {v : α} (h : (t.erase k).get? j = some v) :
    t.get? j = some v := by
  rw [get?_erase] at h
  split at h
  · cases h
  · exact h

/-- A new key adds one entry. -/
theorem insert_perm {t : Table α} {k : String} (h : k ∉ t.keys) (v : α) :
    (t.insert k v).Perm ((k, v) :: t) := by
  induction t with
  | nil => exact List.Perm.refl _
  | cons e t ih =>
    simp only [keys, List.map_cons, List.mem_cons, not_or] at h
    rw [insert, if_neg (Ne.symm h.1)]
    split
    · exact List.Perm.refl _
    · exact ((ih h.2).cons _).trans (List.Perm.swap _ _ _)

theorem erase_eq_self {t : Table α} {k : String} (h : k ∉ t.keys) : t.erase k = t := by
  refine List.filter_eq_self.2 fun e he => ?_
  have hne : e.1 ≠ k := fun heq => h (heq ▸ List.mem_map_of_mem he)
  simpa using hne

/-- A new entry that is erased again leaves the table as it was. -/
theorem erase_insert {t : Table α} {k : String} (h : k ∉ t.keys) (v : α) :
    (t.insert k v).erase k = t := by
  induction t with
  | nil => simp [insert, erase]
  | cons e t ih =>
    have hkeys := h
    simp only [keys, List.map_cons, List.mem_cons, not_or] at h
    rw [insert, if_neg (Ne.symm h.1)]
    split
    · rw [erase, List.filter_cons_of_neg (by simp)]
      exact erase_eq_self hkeys
    · rw [erase, List.filter_cons_of_pos (by simpa using Ne.symm h.1)]
      exact congrArg (e :: ·) (ih h.2)

/-- Erasing a key of an ordered table drops one entry. -/
theorem perm_cons_erase {t : Table α} (ht : t.Ordered) {k : String} {v : α} (h : t.get? k = some v) :
    t.Perm ((k, v) :: t.erase k) := by
  induction t with
  | nil => simp at h
  | cons e t ih =>
    have ht' := ordered_cons.1 ht
    rw [get?_cons] at h
    split at h
    · rename_i he
      have hnot : k ∉ Table.keys t := fun hk => Text.ne_of_lt (ht'.1 k hk) he
      have hall : t.filter (fun x => x.1 != k) = t := erase_eq_self hnot
      rw [erase, List.filter_cons_of_neg (by simpa using he), hall, ← he, ← Option.some.inj h]
    · rename_i he
      rw [erase, List.filter_cons_of_pos (by simpa using he)]
      exact ((ih ht'.2 h).cons e).trans (List.Perm.swap _ _ _)

theorem contains_insert (t : Table α) (k : String) (v : α) (j : String) :
    (t.insert k v).contains j = if j = k then true else t.contains j := by
  unfold contains
  rw [get?_insert]
  split <;> rfl

theorem contains_erase (t : Table α) (k j : String) :
    (t.erase k).contains j = if j = k then false else t.contains j := by
  unfold contains
  rw [get?_erase]
  split <;> rfl

/-! ## Equal tables -/

theorem Ordered.pairwise {t : Table α} (ht : t.Ordered) :
    t.Pairwise fun a b => Text.lt a.1 b.1 = true := by
  unfold Ordered Text.Ascending keys at ht
  exact List.pairwise_map.1 ht

/-- Ordered tables with the same entry for every key are equal. -/
theorem Ordered.ext {t u : Table α} (ht : t.Ordered) (hu : u.Ordered)
    (h : ∀ k, t.get? k = u.get? k) : t = u := by
  have hmem : ∀ e, e ∈ t ↔ e ∈ u := fun e => by
    rw [← ht.get?_eq_some_iff, ← hu.get?_eq_some_iff, h]
  have htn : t.Nodup := ht.pairwise.imp fun hab heq => Text.ne_of_lt hab (congrArg Prod.fst heq)
  have hun : u.Nodup := hu.pairwise.imp fun hab heq => Text.ne_of_lt hab (congrArg Prod.fst heq)
  exact ((List.perm_ext_iff_of_nodup htn hun).2 hmem).eq_of_pairwise
    (fun a b _ _ hab hba => absurd hba (Text.lt_asymm hab)) ht.pairwise hu.pairwise

/-! ## Images -/

/-- A table of what becomes of each entry. -/
def image (g : String → α → β) (t : Table α) : Table β := t.map fun e => (e.1, g e.1 e.2)

theorem map_image {γ : Type} (f : String × β → γ) (g : String → α → β) (t : Table α) :
    (t.image g).map f = t.map fun e => f (e.1, g e.1 e.2) := List.map_map

theorem Ordered.image {t : Table α} (ht : t.Ordered) (g : String → α → β) : (t.image g).Ordered := by
  unfold Ordered keys at ht ⊢
  rw [map_image]
  exact ht

theorem get?_image (g : String → α → β) (t : Table α) (k : String) :
    (t.image g).get? k = (t.get? k).map (g k) := by
  induction t with
  | nil => rfl
  | cons e t ih =>
    unfold image
    rw [List.map_cons, get?_cons, get?_cons]
    split
    · rename_i h
      rw [← h]; rfl
    · exact ih

theorem erase_image (g : String → α → β) (t : Table α) (k : String) :
    (t.image g).erase k = (t.erase k).image g := by
  unfold image erase
  rw [List.filter_map]
  rfl

/-- An entry that is set may change what becomes of its own key only. -/
theorem Ordered.insert_image {t : Table α} (ht : t.Ordered) {g g' : String → α → β} {k : String}
    (h : ∀ j, j ≠ k → g' j = g j) (v : α) :
    (t.image g).insert k (g' k v) = (t.insert k v).image g' := by
  refine ((ht.image g).insert _ _).ext ((ht.insert _ _).image g') fun j => ?_
  rw [get?_insert, get?_image, get?_image, get?_insert]
  split
  · rename_i hj
    rw [hj]; rfl
  · rename_i hj
    rw [h j hj]

section Fold

variable (key : β → String) (value : β → α)

theorem Ordered.foldl_insert (bs : List β) :
    ∀ {t : Table α}, t.Ordered →
      Ordered (bs.foldl (fun t b => t.insert (key b) (value b)) t) := by
  induction bs with
  | nil => exact fun ht => ht
  | cons b bs ih => exact fun ht => ih (ht.insert (key b) (value b))

theorem get?_foldl_insert_of_not_mem {bs : List β} {k : String} (h : ∀ b ∈ bs, key b ≠ k) :
    ∀ t : Table α, Table.get? (bs.foldl (fun t b => t.insert (key b) (value b)) t) k = t.get? k := by
  induction bs with
  | nil => exact fun t => rfl
  | cons b bs ih =>
    intro t
    rw [List.foldl_cons, ih (fun c hc => h c (List.mem_cons_of_mem _ hc)), get?_insert,
      if_neg (h b List.mem_cons_self).symm]

theorem get?_foldl_insert_of_mem {bs : List β} (hn : (bs.map key).Nodup) {b : β} (hb : b ∈ bs) :
    ∀ t : Table α,
      Table.get? (bs.foldl (fun t b => t.insert (key b) (value b)) t) (key b) = some (value b) := by
  induction bs with
  | nil => simp at hb
  | cons c bs ih =>
    intro t
    rw [List.map_cons, List.nodup_cons] at hn
    rw [List.foldl_cons]
    rcases List.mem_cons.1 hb with rfl | hb
    · rw [get?_foldl_insert_of_not_mem, get?_insert, if_pos rfl]
      intro d hd hdb
      exact hn.1 (hdb ▸ List.mem_map_of_mem hd)
    · exact ih hn.2 hb _

end Fold

end ChangeImpact.Table
