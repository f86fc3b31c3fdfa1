import ChangeImpact.Proofs.Order

/-!
# First occurrences

`keepFirst` walks through a list and keeps what agrees with nothing kept before.

* `keepFirst_sublist`: it only drops elements.
* `keepFirst_pairwise`: no two kept elements agree.
* `mem_keepFirst_or`, `exists_mem_keepFirst`: what is dropped agrees with something kept.
* `nodup_map_keepFirst`, `mem_map_keepFirst`: by a key, each key is kept once.
* `keepFirst_eq_self`: where no two elements agree, nothing is dropped.
* `find?_of_mem_keepFirst`: by a key, what is kept is the first element with its key.
* `distinctTexts_ascending`, `mem_distinctTexts`: different texts in order.
* `flatMap_filter_perm`: elements taken key by key are all elements.
-/

namespace ChangeImpact

variable {α κ : Type} {agree : α → α → Bool}

/-- What was kept stays in front, and the rest keeps its order. -/
theorem addNew_eq_append (agree : α → α → Bool) (kept xs : List α) :
    ∃ new, addNew agree kept xs = kept ++ new ∧ new.Sublist xs := by
  fun_induction addNew agree kept xs with
  | case1 kept => exact ⟨[], by simp, List.nil_sublist _⟩
  | case2 kept x xs h ih =>
    obtain ⟨new, hnew, hsub⟩ := ih
    exact ⟨new, hnew, hsub.cons x⟩
  | case3 kept x xs h ih =>
    obtain ⟨new, hnew, hsub⟩ := ih
    exact ⟨x :: new, by rw [hnew]; simp, hsub.cons_cons x⟩

theorem keepFirst_sublist (agree : α → α → Bool) (xs : List α) : (keepFirst agree xs).Sublist xs := by
  obtain ⟨new, hnew, hsub⟩ := addNew_eq_append agree [] xs
  unfold keepFirst
  rw [hnew]; exact hsub

theorem mem_of_mem_keepFirst {x : α} {xs : List α} (h : x ∈ keepFirst agree xs) : x ∈ xs :=
  (keepFirst_sublist agree xs).subset h

theorem addNew_pairwise {kept : List α} (h : kept.Pairwise fun a b => agree a b = false)
    (xs : List α) : (addNew agree kept xs).Pairwise fun a b => agree a b = false := by
  fun_induction addNew agree kept xs with
  | case1 kept => exact h
  | case2 kept x xs hx ih => exact ih h
  | case3 kept x xs hx ih =>
    apply ih
    rw [List.pairwise_append]
    refine ⟨h, List.pairwise_singleton _ _, ?_⟩
    intro a ha b hb
    rw [List.mem_singleton] at hb
    subst hb
    simp only [List.any_eq_true, not_exists, not_and, Bool.not_eq_true] at hx
    exact hx a ha

/-- **No two kept elements agree.** -/
theorem keepFirst_pairwise (agree : α → α → Bool) (xs : List α) :
    (keepFirst agree xs).Pairwise fun a b => agree a b = false :=
  addNew_pairwise List.Pairwise.nil xs

/-- Elements of which no two agree are all kept. -/
theorem addNew_eq_self {kept xs : List α} (h : (kept ++ xs).Pairwise fun a b => agree a b = false) :
    addNew agree kept xs = kept ++ xs := by
  fun_induction addNew agree kept xs with
  | case1 kept => rw [List.append_nil]
  | case2 kept x xs hx ih =>
    obtain ⟨k, hk, hagree⟩ := List.any_eq_true.1 hx
    have hne := (List.pairwise_append.1 h).2.2 k hk x List.mem_cons_self
    cases hne.symm.trans hagree
  | case3 kept x xs hx ih =>
    rw [List.append_cons] at h
    rw [ih h, List.append_assoc]
    rfl

theorem keepFirst_eq_self {xs : List α} (h : xs.Pairwise fun a b => agree a b = false) :
    keepFirst agree xs = xs := addNew_eq_self h

theorem mem_addNew_or (agree : α → α → Bool) (kept xs : List α) :
    ∀ x, x ∈ kept ∨ x ∈ xs → x ∈ addNew agree kept xs ∨ ∃ k ∈ addNew agree kept xs, agree k x = true := by
  fun_induction addNew agree kept xs with
  | case1 kept =>
    intro x hx
    exact .inl (by simpa using hx)
  | case2 kept y ys hy ih =>
    intro x hx
    rcases hx with hx | hx
    · exact ih x (.inl hx)
    · rcases List.mem_cons.1 hx with rfl | hx
      · -- the element that `x` agrees with is kept already, so it stays
        obtain ⟨k, hk, hkx⟩ := List.any_eq_true.1 hy
        obtain ⟨new, hnew, -⟩ := addNew_eq_append agree kept ys
        exact .inr ⟨k, by rw [hnew]; exact List.mem_append_left _ hk, hkx⟩
      · exact ih x (.inr hx)
  | case3 kept y ys hy ih =>
    intro x hx
    apply ih
    rw [List.mem_append, List.mem_singleton]
    rcases hx with hx | hx
    · exact .inl (.inl hx)
    · rcases List.mem_cons.1 hx with rfl | hx
      · exact .inl (.inr rfl)
      · exact .inr hx

/-- Every element is kept or agrees with one that is. -/
theorem mem_keepFirst_or (agree : α → α → Bool) {x : α} {xs : List α} (h : x ∈ xs) :
    x ∈ keepFirst agree xs ∨ ∃ k ∈ keepFirst agree xs, agree k x = true :=
  mem_addNew_or agree [] xs x (.inr h)

/-- Every element agrees with one that is kept. -/
theorem exists_mem_keepFirst (hrefl : ∀ a, agree a a = true) {x : α} {xs : List α} (h : x ∈ xs) :
    ∃ k ∈ keepFirst agree xs, agree k x = true := by
  rcases mem_keepFirst_or agree h with hx | hx
  · exact ⟨x, hx, hrefl x⟩
  · exact hx

section Key

variable [DecidableEq κ] (key : α → κ)

/-- **By a key, each key is kept once.** -/
theorem nodup_map_keepFirst (xs : List α) :
    ((keepFirst (fun a b => key a == key b) xs).map key).Nodup := by
  rw [List.Nodup, List.pairwise_map]
  exact (keepFirst_pairwise _ xs).imp fun h => by simpa using h

theorem mem_map_keepFirst (xs : List α) {k : κ} :
    k ∈ (keepFirst (fun a b => key a == key b) xs).map key ↔ k ∈ xs.map key := by
  rw [List.mem_map, List.mem_map]
  constructor
  · rintro ⟨a, ha, rfl⟩
    exact ⟨a, mem_of_mem_keepFirst ha, rfl⟩
  · rintro ⟨a, ha, rfl⟩
    have hb : ∃ b ∈ keepFirst (fun a b => key a == key b) xs, (key b == key a) = true :=
      exists_mem_keepFirst (fun a => by simp) ha
    obtain ⟨b, hb, hba⟩ := hb
    exact ⟨b, hb, by simpa using hba⟩

end Key

theorem nodup_keepFirst [DecidableEq κ] (xs : List κ) : (keepFirst (· == ·) xs).Nodup := by
  have h := nodup_map_keepFirst id xs
  rwa [List.map_id] at h

@[simp]
theorem mem_keepFirst [DecidableEq κ] {xs : List κ} {k : κ} : k ∈ keepFirst (· == ·) xs ↔ k ∈ xs := by
  have h := mem_map_keepFirst id xs (k := k)
  rwa [List.map_id, List.map_id] at h

/-- An element is kept just if it is the first one with its key. -/
theorem find?_of_mem_addNew [DecidableEq κ] (key : α → κ) (kept xs : List α) {x : α}
    (h : x ∈ addNew (fun a b => key a == key b) kept xs) :
    x ∈ kept ∨ ((∀ k ∈ kept, key k ≠ key x) ∧ xs.find? (fun y => key y == key x) = some x) := by
  fun_induction addNew (fun a b => key a == key b) kept xs with
  | case1 kept => exact .inl h
  | case2 kept y xs hy ih =>
    refine (ih h).imp_right fun ⟨hkept, hfind⟩ => ⟨hkept, ?_⟩
    obtain ⟨k, hk, hagree⟩ := List.any_eq_true.1 hy
    have hne : key y ≠ key x := fun hyx => hkept k hk ((beq_iff_eq.1 hagree).trans hyx)
    rw [List.find?_cons_of_neg (by simpa using hne), hfind]
  | case3 kept y xs hy ih =>
    have hnew : ∀ k ∈ kept, key k ≠ key y := by simpa using hy
    rcases ih h with hmem | ⟨hkept, hfind⟩
    · rcases List.mem_append.1 hmem with hmem | hmem
      · exact .inl hmem
      · obtain rfl := List.mem_singleton.1 hmem
        exact .inr ⟨hnew, List.find?_cons_of_pos (by simp)⟩
    · rw [List.forall_mem_append] at hkept
      have hne : key y ≠ key x := hkept.2 y (List.mem_singleton_self y)
      exact .inr ⟨hkept.1, by rw [List.find?_cons_of_neg (by simpa using hne), hfind]⟩

theorem find?_of_mem_keepFirst [DecidableEq κ] (key : α → κ) {xs : List α} {x : α}
    (h : x ∈ keepFirst (fun a b => key a == key b) xs) :
    xs.find? (fun y => key y == key x) = some x :=
  ((find?_of_mem_addNew key [] xs h).resolve_left List.not_mem_nil).2

/-- Elements whose keys are among some different keys, taken key by key. -/
theorem flatMap_filter_perm [DecidableEq κ] (key : α → κ) {ks : List κ} (hn : ks.Nodup) :
    ∀ {xs : List α}, (∀ x ∈ xs, key x ∈ ks) →
      (ks.flatMap fun k => xs.filter fun x => key x == k).Perm xs := by
  induction ks with
  | nil =>
    intro xs h
    rw [List.eq_nil_iff_forall_not_mem.2 fun x hx => List.not_mem_nil (h x hx)]
    exact List.Perm.refl _
  | cons k ks ih =>
    intro xs h
    rw [List.nodup_cons] at hn
    -- the elements with other keys are those without the first key
    have hrest : (ks.flatMap fun j => xs.filter fun x => key x == j) =
        ks.flatMap fun j => (xs.filter fun x => !(key x == k)).filter fun x => key x == j := by
      apply List.flatMap_congr
      intro j hj
      rw [List.filter_filter]
      apply List.filter_congr
      intro x _
      by_cases hx : key x = j
      · have hne : key x ≠ k := fun hk => hn.1 (hk ▸ hx ▸ hj)
        simp [hx, hx ▸ hne]
      · simp [hx]
    have hkeys : ∀ x ∈ xs.filter fun x => !(key x == k), key x ∈ ks := fun x hx => by
      rw [List.mem_filter] at hx
      exact (List.mem_cons.1 (h x hx.1)).resolve_left (by simpa using hx.2)
    rw [List.flatMap_cons, hrest]
    exact ((ih hn.2 hkeys).append_left _).trans (List.filter_append_perm _ xs)

theorem distinctTexts_ascending (xs : List String) : Text.Ascending (distinctTexts xs) :=
  sortTexts_ascending (nodup_keepFirst xs)

@[simp]
theorem mem_distinctTexts {xs : List String} {a : String} : a ∈ distinctTexts xs ↔ a ∈ xs := by
  unfold distinctTexts
  rw [(sortTexts_perm _).mem_iff, mem_keepFirst]

end ChangeImpact
