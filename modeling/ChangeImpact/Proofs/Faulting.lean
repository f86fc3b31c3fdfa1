import Mathlib

/-!
# Computations that can fault

How a sequence of steps ends: with a result after every step had one, or with the fault of one of its
steps. These laws open the steps of an operation one at a time. `Faults` says which faults an operation can
have, step by step.
-/

namespace ChangeImpact

variable {ε α β : Type}

theorem bind_eq_ok {x : Except ε α} {f : α → Except ε β} {b : β} :
    (x >>= f) = .ok b ↔ ∃ a, x = .ok a ∧ f a = .ok b := by
  cases x with
  | error e => simp [bind, Except.bind]
  | ok a => simp [bind, Except.bind]

theorem bind_eq_error {x : Except ε α} {f : α → Except ε β} {e : ε} :
    (x >>= f) = .error e ↔ x = .error e ∨ ∃ a, x = .ok a ∧ f a = .error e := by
  cases x with
  | error e' => simp [bind, Except.bind]
  | ok a => simp [bind, Except.bind]

theorem map_eq_ok {x : Except ε α} {f : α → β} {b : β} : x.map f = .ok b ↔ ∃ a, x = .ok a ∧ f a = b := by
  cases x with
  | error e => simp [Except.map]
  | ok a => simp [Except.map]

theorem map_eq_error {x : Except ε α} {f : α → β} {e : ε} : x.map f = .error e ↔ x = .error e := by
  cases x with
  | error e' => simp [Except.map]
  | ok a => simp [Except.map]

/-- A step that is followed only by faults gives no result. -/
theorem bind_ne_ok {x : Except ε α} {f : α → Except ε β} {b : β} (h : ∀ a, f a ≠ .ok b) :
    x >>= f ≠ .ok b := fun hx => by
  obtain ⟨a, -, ha⟩ := bind_eq_ok.1 hx
  exact h a ha

theorem exists_of_isOk {x : Except ε α} (h : x.isOk = true) : ∃ a, x = .ok a := by
  cases x with
  | error e => cases h
  | ok a => exact ⟨a, rfl⟩

theorem forM_eq_ok {f : α → Except ε Unit} {xs : List α} :
    xs.forM f = .ok () ↔ ∀ x ∈ xs, f x = .ok () := by
  induction xs with
  | nil => simp [pure, Except.pure]
  | cons x xs ih =>
    rw [List.forM, bind_eq_ok]
    simp only [List.forall_mem_cons, ih]
    exact ⟨fun ⟨_, h₁, h₂⟩ => ⟨h₁, h₂⟩, fun h => ⟨(), h.1, h.2⟩⟩

theorem forM_eq_error {f : α → Except ε Unit} {xs : List α} {e : ε} (h : xs.forM f = .error e) :
    ∃ x ∈ xs, f x = .error e := by
  induction xs with
  | nil => simp [pure, Except.pure] at h
  | cons x xs ih =>
    rw [List.forM, bind_eq_error] at h
    rcases h with h | ⟨_, _, h⟩
    · exact ⟨x, List.mem_cons_self, h⟩
    · obtain ⟨y, hy, hfy⟩ := ih h
      exact ⟨y, List.mem_cons_of_mem _ hy, hfy⟩

/-- A step after a condition without which there is no result. -/
theorem guard_eq_ok {b : Bool} {bad good : Except ε α} {a : α} (hbad : bad ≠ .ok a) :
    (if (!b) = true then bad else good) = .ok a ↔ b = true ∧ good = .ok a := by
  cases b with
  | false => simpa using hbad
  | true => simp

/-- A loop ends with a result if every step in it does. -/
theorem forIn_eq_ok {f : α → Except ε β} {xs : List α} :
    (forIn xs PUnit.unit fun x _ => f x >>= fun _ => pure (.yield .unit)) = .ok .unit ↔
      ∀ x ∈ xs, ∃ b, f x = .ok b := by
  induction xs with
  | nil => simp [pure, Except.pure]
  | cons x xs ih =>
    rw [List.forIn_cons, List.forall_mem_cons, ← ih]
    cases f x with
    | error e => simp [bind, Except.bind]
    | ok b => simp [bind, Except.bind, pure, Except.pure]

/-- The results of a map that does not fault are those of its elements. -/
theorem mem_of_mapM_eq_ok {f : α → Except ε β} {xs : List α} :
    ∀ {ys : List β}, xs.mapM f = .ok ys → ∀ y, y ∈ ys ↔ ∃ x ∈ xs, f x = .ok y := by
  induction xs with
  | nil =>
    intro ys h y
    rw [List.mapM_nil] at h
    rw [← Except.ok.inj h]; simp
  | cons x xs ih =>
    intro ys h y
    rw [List.mapM_cons, bind_eq_ok] at h
    obtain ⟨z, hz, h⟩ := h
    rw [bind_eq_ok] at h
    obtain ⟨zs, hzs, h⟩ := h
    rw [← Except.ok.inj h, List.mem_cons, ih hzs]
    constructor
    · rintro (rfl | ⟨w, hw, hy⟩)
      · exact ⟨x, List.mem_cons_self, hz⟩
      · exact ⟨w, List.mem_cons_of_mem _ hw, hy⟩
    · rintro ⟨w, hw, hy⟩
      rcases List.mem_cons.1 hw with rfl | hw
      · rw [hz] at hy; exact .inl (Except.ok.inj hy).symm
      · exact .inr ⟨w, hw, hy⟩

/-- A map that does not fault gives one result for each element, in order. -/
theorem forall₂_of_mapM_eq_ok {f : α → Except ε β} {xs : List α} :
    ∀ {ys : List β}, xs.mapM f = .ok ys → List.Forall₂ (fun x y => f x = .ok y) xs ys := by
  induction xs with
  | nil =>
    intro ys h
    rw [List.mapM_nil] at h
    rw [← Except.ok.inj h]
    exact .nil
  | cons x xs ih =>
    intro ys h
    rw [List.mapM_cons, bind_eq_ok] at h
    obtain ⟨z, hz, h⟩ := h
    rw [bind_eq_ok] at h
    obtain ⟨zs, hzs, h⟩ := h
    rw [← Except.ok.inj h]
    exact .cons hz (ih hzs)

/-- A map faults only where one of its elements does. -/
theorem mapM_eq_error {f : α → Except ε β} {xs : List α} {e : ε} (h : xs.mapM f = .error e) :
    ∃ x ∈ xs, f x = .error e := by
  induction xs with
  | nil => cases h
  | cons x xs ih =>
    rw [List.mapM_cons, bind_eq_error] at h
    rcases h with h | ⟨_, -, h⟩
    · exact ⟨x, List.mem_cons_self, h⟩
    · rw [bind_eq_error] at h
      rcases h with h | ⟨_, -, h⟩
      · obtain ⟨y, hy, hfy⟩ := ih h
        exact ⟨y, List.mem_cons_of_mem _ hy, hfy⟩
      · cases h

/-- Decoding what was encoded, one by one. -/
theorem mapM_map_eq_ok {encode : α → β} {decode : β → Except ε α} {xs : List α}
    (h : ∀ x ∈ xs, decode (encode x) = .ok x) : (xs.map encode).mapM decode = .ok xs := by
  induction xs with
  | nil => rfl
  | cons x xs ih =>
    rw [List.map_cons, List.mapM_cons, h x List.mem_cons_self,
      ih fun y hy => h y (List.mem_cons_of_mem _ hy)]
    rfl

theorem exists_mapM_eq_ok {f : α → Except ε β} {xs : List α} (h : ∀ x ∈ xs, ∃ y, f x = .ok y) :
    ∃ ys, xs.mapM f = .ok ys := by
  induction xs with
  | nil => exact ⟨[], rfl⟩
  | cons x xs ih =>
    obtain ⟨y, hy⟩ := h x List.mem_cons_self
    obtain ⟨ys, hys⟩ := ih fun z hz => h z (List.mem_cons_of_mem _ hz)
    exact ⟨y :: ys, by rw [List.mapM_cons, hy, hys]; rfl⟩

/-- What every step of a fold keeps, the fold keeps. The steps taken so far are an argument of what
is kept. -/
theorem foldlM_keeps {step : β → α → Except ε β} (P : List α → β → Prop)
    (hstep : ∀ done b x b', P done b → step b x = .ok b' → P (done ++ [x]) b') (xs : List α) :
    ∀ (done : List α) (b b' : β), P done b → xs.foldlM step b = .ok b' → P (done ++ xs) b' := by
  induction xs with
  | nil =>
    intro done b b' hb h
    simp only [List.foldlM_nil, pure, Except.pure, Except.ok.injEq] at h
    rw [List.append_nil, ← h]; exact hb
  | cons x xs ih =>
    intro done b b' hb h
    rw [List.foldlM_cons, bind_eq_ok] at h
    obtain ⟨c, hc, h⟩ := h
    have := ih (done ++ [x]) c b' (hstep done b x c hb hc) h
    rwa [List.append_assoc, List.singleton_append] at this

/-- A fold faults only where one of its steps does. -/
theorem foldlM_eq_error {step : β → α → Except ε β} {e : ε} (xs : List α) :
    ∀ b : β, xs.foldlM step b = .error e → ∃ x ∈ xs, ∃ c, step c x = .error e := by
  induction xs with
  | nil => intro b h; simp [pure, Except.pure] at h
  | cons x xs ih =>
    intro b h
    rw [List.foldlM_cons, bind_eq_error] at h
    rcases h with h | ⟨c, _, h⟩
    · exact ⟨x, List.mem_cons_self, b, h⟩
    · obtain ⟨y, hy, c', hc'⟩ := ih c h
      exact ⟨y, List.mem_cons_of_mem _ hy, c', hc'⟩

/-! ## Kinds of faults -/

/-- Every fault of a computation is of a kind. -/
def Faults (P : ε → Prop) (x : Except ε α) : Prop := ∀ e, x = .error e → P e

namespace Faults

variable {P Q : ε → Prop} {x : Except ε α}

theorem ok (a : α) : Faults P (.ok a : Except ε α) := nofun

theorem error {e : ε} (h : P e) : Faults P (.error e : Except ε α) := by
  rintro _ ⟨⟩
  exact h

theorem mono (h : Faults P x) (hPQ : ∀ e, P e → Q e) : Faults Q x := fun e he => hPQ e (h e he)

theorem bind {f : α → Except ε β} (hx : Faults P x) (hf : ∀ a, x = .ok a → Faults P (f a)) :
    Faults P (x >>= f) := by
  intro e he
  rcases bind_eq_error.1 he with he | ⟨a, ha, he⟩
  · exact hx e he
  · exact hf a ha e he

theorem error_bind {e : ε} {f : α → Except ε β} (h : P e) : Faults P (Except.error e >>= f) := error h

theorem mapM {f : α → Except ε β} {xs : List α} (h : ∀ x ∈ xs, Faults P (f x)) : Faults P (xs.mapM f) := by
  intro e he
  obtain ⟨x, hx, hfault⟩ := mapM_eq_error he
  exact h x hx e hfault

theorem forM {f : α → Except ε Unit} {xs : List α} (h : ∀ x ∈ xs, Faults P (f x)) : Faults P (xs.forM f) := by
  intro e he
  obtain ⟨x, hx, hfault⟩ := forM_eq_error he
  exact h x hx e hfault

theorem forIn {body : α → β → Except ε (ForInStep β)} {xs : List α}
    (h : ∀ x ∈ xs, ∀ b, Faults P (body x b)) : ∀ init, Faults P (forIn xs init body) := by
  induction xs with
  | nil => exact fun init => .ok init
  | cons x xs ih =>
    obtain ⟨hx, hxs⟩ := List.forall_mem_cons.1 h
    intro init
    rw [List.forIn_cons]
    refine .bind (hx init) fun step _ => ?_
    cases step with
    | done b => exact .ok b
    | yield b => exact ih hxs b

end Faults

/-- The fault of a computation that has one. -/
def fault? : Except ε α → Option ε
  | .ok _ => none
  | .error e => some e

theorem eq_error_of_fault? {x : Except ε α} {e : ε} (h : fault? x = some e) : x = .error e := by
  cases x with
  | ok a => cases h
  | error e' => rw [Option.some.inj h]

end ChangeImpact
