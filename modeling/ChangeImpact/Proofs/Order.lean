import Mathlib
import ChangeImpact.Table

/-!
# The order of texts

Texts are compared by their code points, and different texts have different code points
(`codes_injective`), so `Text.lt` is a strict total order on texts and sorting has one result.

* `points_cons_cons`: the code points of a text, read from the front.
* `codes_injective`: **a text is determined by its code points.**
* `le_trans`, `le_total`, `le_antisymm`, `lt_iff_le_ne`: the laws of the order.
* `Ascending.eq_of_mem_iff`: texts have one strict order, which `sortTexts_ascending` gives.
-/

namespace ChangeImpact

namespace Text

theorem pointsFrom_append (read before : List Point) (cs : List Char) :
    pointsFrom (read ++ before) cs = before.reverse ++ pointsFrom read cs := by
  fun_induction pointsFrom read cs with
  | case1 read => simp [pointsFrom]
  | case2 read c => simp [pointsFrom]
  | case3 read c d cs hc ih => rw [pointsFrom, if_pos hc, ← List.cons_append, ih]
  | case4 read c d cs hc ih => rw [pointsFrom, if_neg hc, ← List.cons_append, ih]

theorem points_singleton (c : Char) : points [c] = [Point.last c] := rfl

theorem points_cons_cons (c d : Char) (cs : List Char) :
    points (c :: d :: cs) =
      if c = shift then Point.afterShift d :: points cs else .char c :: points (d :: cs) := by
  unfold points
  rw [pointsFrom]
  simp only [beq_iff_eq]
  split
  · exact pointsFrom_append [] [Point.afterShift d] cs
  · exact pointsFrom_append [] [Point.char c] (d :: cs)

theorem points_ne_nil (c : Char) (cs : List Char) : points (c :: cs) ≠ [] := by
  cases cs with
  | nil => simp [points_singleton]
  | cons d cs => rw [points_cons_cons]; split <;> simp

/-- A character is no half of a pair, and lies below the limit of code points. -/
theorem char_code_bounds (c : Char) :
    (c.toNat < 0xd800 ∨ 0xdfff < c.toNat) ∧ c.toNat < pointLimit := by
  have h := c.valid
  simp only [UInt32.isValidChar, Nat.isValidChar] at h
  unfold pointLimit Char.toNat
  omega

/-- What follows a shift is no character but the shift itself. -/
theorem code_afterShift (d : Char) :
    (d = shiftStandIn ∧ (Point.afterShift d).code = shift.toNat) ∨
      (d ≠ shiftStandIn ∧ 0xd800 ≤ (Point.afterShift d).code ∧ (Point.afterShift d).code ≤ 0xdfff ∧
        d.toNat = (Point.afterShift d).code + halfDistance) ∨
      (d ≠ shiftStandIn ∧ (Point.afterShift d).code = pointLimit + 1 + d.toNat) := by
  unfold Point.afterShift
  by_cases hd : d = shiftStandIn
  · left; simp [hd, Point.code]
  · right
    simp only [beq_iff_eq, hd, if_false]
    split
    · rename_i h
      left
      simp only [isHighHalf, isLowHalf, Bool.or_eq_true, Bool.and_eq_true, decide_eq_true_eq] at h
      refine ⟨hd, ?_⟩
      simp only [Point.code]
      omega
    · right; exact ⟨hd, rfl⟩

theorem code_afterShift_injective {d e : Char}
    (h : (Point.afterShift d).code = (Point.afterShift e).code) : d = e := by
  have hs : shift.toNat = 0xdffff := by decide
  have hl : pointLimit = 0x110000 := rfl
  have hde : d.toNat = e.toNat ∨ (d = shiftStandIn ∧ e = shiftStandIn) := by
    rcases code_afterShift d with hd | hd | hd <;> rcases code_afterShift e with he | he | he <;>
      first | exact .inr ⟨hd.1, he.1⟩ | omega
  rcases hde with hde | ⟨rfl, rfl⟩
  · exact Char.toNat_inj.1 hde
  · rfl

theorem code_afterShift_ne_char {c d : Char} (hc : c ≠ shift) : (Point.afterShift d).code ≠ c.toNat := by
  have hb := char_code_bounds c
  have hl : pointLimit = 0x110000 := rfl
  intro h
  rcases code_afterShift d with hd | hd | hd
  · exact hc (Char.toNat_inj.1 (h.symm.trans hd.2))
  · omega
  · omega

/-- A shift that ends a text is told apart from every other code point. -/
theorem code_last (c : Char) :
    (c = shift ∧ (Point.last c).code = pointLimit) ∨ (c ≠ shift ∧ (Point.last c).code = c.toNat) := by
  unfold Point.last
  by_cases hc : c = shift
  · left; simp [hc, Point.code]
  · right; simp [hc, Point.code]

theorem code_last_injective {c d : Char} (h : (Point.last c).code = (Point.last d).code) : c = d := by
  have hc' := char_code_bounds c
  have hd' := char_code_bounds d
  rcases code_last c with hc | hc <;> rcases code_last d with hd | hd
  · rw [hc.1, hd.1]
  · omega
  · omega
  · exact Char.toNat_inj.1 (by omega)

theorem code_last_ne_afterShift (c d : Char) : (Point.last c).code ≠ (Point.afterShift d).code := by
  have hs : shift.toNat = 0xdffff := by decide
  have hl : pointLimit = 0x110000 := rfl
  rcases code_last c with hc | hc
  · rcases code_afterShift d with hd | hd | hd <;> omega
  · rw [hc.2]; exact (code_afterShift_ne_char hc.1).symm

/-- The code points of two texts agree only if the texts do. The cases follow the way the points are
read: the first points agree, so both texts start with the same one or two characters. -/
theorem points_codes_injective :
    ∀ cs ds : List Char, (points cs).map Point.code = (points ds).map Point.code → cs = ds
  | [], [], _ => rfl
  | [], d :: ds, h => absurd (List.map_eq_nil_iff.1 h.symm) (points_ne_nil d ds)
  | c :: cs, [], h => absurd (List.map_eq_nil_iff.1 h) (points_ne_nil c cs)
  | [c], [d], h => by
    simp only [points_singleton, List.map_cons, List.map_nil, List.cons.injEq, and_true] at h
    rw [code_last_injective h]
  | [c], d :: e :: ds, h => by
    rw [points_singleton, points_cons_cons] at h
    split at h
    · simp only [List.map_cons, List.cons.injEq] at h
      exact absurd h.1 (code_last_ne_afterShift c e)
    · simp only [List.map_cons, List.cons.injEq, List.map_nil] at h
      exact absurd (List.map_eq_nil_iff.1 h.2.symm) (points_ne_nil e ds)
  | c :: e :: cs, [d], h => by
    rw [points_singleton, points_cons_cons] at h
    split at h
    · simp only [List.map_cons, List.cons.injEq] at h
      exact absurd h.1.symm (code_last_ne_afterShift d e)
    · simp only [List.map_cons, List.cons.injEq, List.map_nil] at h
      exact absurd (List.map_eq_nil_iff.1 h.2) (points_ne_nil e cs)
  | c :: e :: cs, d :: f :: ds, h => by
    rw [points_cons_cons, points_cons_cons] at h
    by_cases hc : c = shift <;> by_cases hd : d = shift <;>
      simp only [hc, hd, if_true, if_false, List.map_cons, List.cons.injEq] at h
    · rw [hc, hd, code_afterShift_injective h.1, points_codes_injective cs ds h.2]
    · exact absurd h.1 (code_afterShift_ne_char hd)
    · exact absurd h.1.symm (code_afterShift_ne_char hc)
    · rw [Char.toNat_inj.1 h.1, points_codes_injective (e :: cs) (f :: ds) h.2]

/-- **A text is determined by its code points.** -/
theorem codes_injective : Function.Injective codes := fun a b h =>
  String.toList_inj.1 (points_codes_injective a.toList b.toList h)

theorem le_iff_not_lt {a b : String} : le a b = true ↔ ¬ lt b a = true := by
  unfold le; simp

theorem lt_iff {a b : String} : lt a b = true ↔ codes a < codes b := by
  unfold lt; exact decide_eq_true_iff

theorem lt_irrefl (a : String) : ¬ lt a a = true := by
  rw [lt_iff]; exact List.lt_irrefl (codes a)

theorem lt_trans {a b c : String} (h₁ : lt a b = true) (h₂ : lt b c = true) : lt a c = true := by
  rw [lt_iff] at *; exact List.lt_trans h₁ h₂

theorem lt_or_eq_or_lt (a b : String) : lt a b = true ∨ a = b ∨ lt b a = true := by
  rw [lt_iff, lt_iff, ← codes_injective.eq_iff]; exact lt_trichotomy (codes a) (codes b)

theorem ne_of_lt {a b : String} (h : lt a b = true) : a ≠ b := by
  rintro rfl; exact lt_irrefl a h

theorem lt_asymm {a b : String} (h : lt a b = true) : ¬ lt b a = true :=
  fun h' => lt_irrefl a (lt_trans h h')

theorem le_iff_lt_or_eq {a b : String} : le a b = true ↔ lt a b = true ∨ a = b := by
  rw [le_iff_not_lt]
  constructor
  · intro h
    rcases lt_or_eq_or_lt a b with h' | h' | h'
    · exact .inl h'
    · exact .inr h'
    · exact absurd h' h
  · rintro (h | rfl)
    · exact lt_asymm h
    · exact lt_irrefl a

theorem le_trans {a b c : String} (h₁ : le a b = true) (h₂ : le b c = true) : le a c = true := by
  rw [le_iff_lt_or_eq] at *
  rcases h₁ with h₁ | rfl
  · rcases h₂ with h₂ | rfl
    · exact .inl (lt_trans h₁ h₂)
    · exact .inl h₁
  · exact h₂

theorem le_total (a b : String) : (le a b || le b a) = true := by
  rw [Bool.or_eq_true, le_iff_lt_or_eq, le_iff_lt_or_eq]
  rcases lt_or_eq_or_lt a b with h | h | h
  · exact .inl (.inl h)
  · exact .inl (.inr h)
  · exact .inr (.inl h)

theorem le_antisymm {a b : String} (hab : le a b = true) (hba : le b a = true) : a = b := by
  rcases le_iff_lt_or_eq.1 hab with hlt | heq
  · exact absurd hlt (le_iff_not_lt.1 hba)
  · exact heq

theorem lt_iff_le_ne {a b : String} : lt a b = true ↔ le a b = true ∧ a ≠ b := by
  rw [le_iff_lt_or_eq]
  exact ⟨fun h => ⟨.inl h, ne_of_lt h⟩, fun h => h.1.resolve_right h.2⟩

/-- Texts in strict order. -/
def Ascending (xs : List String) : Prop := xs.Pairwise fun a b => lt a b = true

theorem Ascending.nodup {xs : List String} (h : Ascending xs) : xs.Nodup := h.imp ne_of_lt

/-- **Texts have one strict order:** it is fixed by which texts there are. -/
theorem Ascending.eq_of_mem_iff {xs ys : List String} (hx : Ascending xs) (hy : Ascending ys)
    (h : ∀ a, a ∈ xs ↔ a ∈ ys) : xs = ys :=
  List.Perm.eq_of_pairwise (fun _ _ _ _ h₁ h₂ => absurd h₂ (lt_asymm h₁)) hx hy
    ((List.perm_ext_iff_of_nodup hx.nodup hy.nodup).2 h)

end Text

theorem sortTexts_perm (xs : List String) : (sortTexts xs).Perm xs := List.mergeSort_perm xs Text.le

theorem sortTexts_sorted (xs : List String) :
    (sortTexts xs).Pairwise fun a b => Text.le a b = true := by
  unfold sortTexts
  apply List.pairwise_mergeSort
  · intro a b c; exact Text.le_trans
  · exact Text.le_total

/-- Sorting does not see the order of its texts. -/
theorem sortTexts_congr {xs ys : List String} (h : xs.Perm ys) : sortTexts xs = sortTexts ys :=
  ((sortTexts_perm xs).trans (h.trans (sortTexts_perm ys).symm)).eq_of_pairwise
    (fun _ _ _ _ => Text.le_antisymm) (sortTexts_sorted xs) (sortTexts_sorted ys)

/-- Texts without repetition are sorted into strict order. -/
theorem sortTexts_ascending {xs : List String} (h : xs.Nodup) : Text.Ascending (sortTexts xs) := by
  have hn : (sortTexts xs).Nodup := (sortTexts_perm xs).nodup_iff.2 h
  exact ((sortTexts_sorted xs).and hn).imp fun h => Text.lt_iff_le_ne.2 h

theorem rankLt_iff {a b : List String} : rankLt a b = true ↔ a.map Text.codes < b.map Text.codes := by
  unfold rankLt
  exact decide_eq_true_iff

/-- Different ranks are in order, one way or the other. -/
theorem rankLt_of_ne {a b : List String} (hne : a ≠ b) (h : ¬ rankLt b a = true) : rankLt a b = true := by
  rw [rankLt_iff] at *
  have hcodes : a.map Text.codes ≠ b.map Text.codes := fun heq =>
    hne (Text.codes_injective.list_map heq)
  exact (lt_or_gt_of_ne hcodes).resolve_right h

/-- Ranks of one text are ordered as the texts. -/
theorem rankLt_singleton (a b : String) : rankLt [a] [b] = Text.lt a b := by
  unfold rankLt Text.lt
  rw [decide_eq_decide]
  simp [List.cons_lt_cons_iff]

theorem sortByRank_perm {α : Type} (rank : α → List String) (xs : List α) :
    (sortByRank rank xs).Perm xs :=
  List.mergeSort_perm xs _

/-- Elements with different ranks are sorted into strict order. -/
theorem sortByRank_strict {α : Type} {rank : α → List String} {xs : List α} (h : (xs.map rank).Nodup) :
    (sortByRank rank xs).Pairwise fun a b => rankLt (rank a) (rank b) = true := by
  have hsorted : (sortByRank rank xs).Pairwise fun a b => (!rankLt (rank b) (rank a)) = true := by
    unfold sortByRank
    apply List.pairwise_mergeSort
    · intro a b c hab hbc
      simp only [Bool.not_eq_true', ← Bool.not_eq_true, rankLt_iff, not_lt] at *
      exact hab.trans hbc
    · intro a b
      simp only [Bool.or_eq_true, Bool.not_eq_true', ← Bool.not_eq_true, rankLt_iff, not_lt]
      exact le_total _ _
  have hne : (sortByRank rank xs).Pairwise fun a b => rank a ≠ rank b :=
    List.pairwise_map.1 (((sortByRank_perm rank xs).map rank).nodup_iff.2 h)
  exact (hsorted.and hne).imp fun hab => rankLt_of_ne hab.2 (by simpa using hab.1)

/-- Elements sorted by one text each are in the order of these texts. -/
theorem sortByRank_sorted {α : Type} (key : α → String) (xs : List α) :
    (sortByRank (fun a => [key a]) xs).Pairwise fun a b => Text.le (key a) (key b) = true := by
  unfold sortByRank
  simp only [rankLt_singleton]
  apply List.pairwise_mergeSort
  · intro a b c; exact Text.le_trans
  · intro a b; exact Text.le_total _ _

/-- Elements sorted by a key, and where it is the same by a text that is different for all of them, are in
strict order. -/
theorem mergeSort_strict {α κ : Type} [LinearOrder κ] (key : α → κ) (text : α → String)
    {le : α → α → Bool} {xs : List α}
    (hle : ∀ a b, le a b = true ↔ key a < key b ∨ key a = key b ∧ Text.le (text a) (text b) = true)
    (h : (xs.map text).Nodup) :
    (xs.mergeSort le).Pairwise fun a b =>
      key a < key b ∨ key a = key b ∧ Text.lt (text a) (text b) = true := by
  have hsorted : (xs.mergeSort le).Pairwise fun a b => le a b = true := by
    apply List.pairwise_mergeSort
    · intro a b c hab hbc
      rw [hle] at *
      rcases hab with hab | ⟨hab, htext⟩ <;> rcases hbc with hbc | ⟨hbc, htext'⟩
      · exact .inl (hab.trans hbc)
      · exact .inl (hab.trans_eq hbc)
      · exact .inl (hab.trans_lt hbc)
      · exact .inr ⟨hab.trans hbc, Text.le_trans htext htext'⟩
    · intro a b
      rw [Bool.or_eq_true, hle, hle]
      rcases lt_trichotomy (key a) (key b) with hlt | heq | hlt
      · exact .inl (.inl hlt)
      · have htotal := Text.le_total (text a) (text b)
        rw [Bool.or_eq_true] at htotal
        exact htotal.imp (fun htext => .inr ⟨heq, htext⟩) fun htext => .inr ⟨heq.symm, htext⟩
      · exact .inr (.inl hlt)
  have hne : (xs.mergeSort le).Pairwise fun a b => text a ≠ text b :=
    List.pairwise_map.1 (((List.mergeSort_perm xs le).map text).nodup_iff.2 h)
  refine (hsorted.and hne).imp fun {a b} hab => ?_
  exact ((hle a b).1 hab.1).imp_right fun heq => ⟨heq.1, Text.lt_iff_le_ne.2 ⟨heq.2, hab.2⟩⟩

end ChangeImpact
