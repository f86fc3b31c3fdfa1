import ChangeImpact.Contract.TypeName
import ChangeImpact.Proofs.Segments
import Mathlib

/-!
# Alternatives of types

The name of a type may give alternatives, which are cut at bars, and blanks around an alternative do not matter.
Alternatives that can be told apart are found again when they are written.

* `Text.Tight`: texts without blanks at their ends.
* `Text.exists_last_part`, `Text.exists_first_part`: the ends of a text that is cut at a character.
* `alternatives`, `joined`: the alternatives of a type, and how they are written.
* `alternatives_joined_proper`: **proper alternatives are found again.**
* `alternatives_concat`, `first_leads`, `last_closes`: what stands at the ends of a type stands at the ends of
  its first and its last alternative.
-/

namespace ChangeImpact

namespace Text

variable {c : Char} {cs as bs : List Char}

/-! ## Blanks at the ends -/

/-- A text without blanks at its ends. -/
structure Tight (cs : List Char) : Prop where
  head : ∀ c ∈ cs.head?, isBlank c = false
  last : ∀ c ∈ cs.getLast?, isBlank c = false

theorem tight_append (has : ∀ c ∈ as.head?, isBlank c = false) (hbs : ∀ c ∈ bs.getLast?, isBlank c = false)
    (has' : as ≠ []) (hbs' : bs ≠ []) : Tight (as ++ bs) where
  head := by rwa [List.head?_append_of_ne_nil _ has']
  last := by rwa [List.getLast?_append_of_ne_nil _ hbs']

theorem dropWhile_of_head (h : ∀ c ∈ cs.head?, isBlank c = false) : cs.dropWhile isBlank = cs := by
  cases cs with
  | nil => rfl
  | cons c cs => exact List.dropWhile_cons_of_neg (by simp [h c rfl])

theorem dropWhileEnd_of_last (h : ∀ c ∈ cs.getLast?, isBlank c = false) : dropWhileEnd isBlank cs = cs := by
  rw [dropWhileEnd_eq_rdropWhile, List.rdropWhile_eq_self_iff]
  intro hne
  simp [h _ (List.getLast?_eq_getLast_of_ne_nil hne)]

theorem Tight.trim_eq (h : Tight cs) : trim cs = cs := by
  unfold trim trimWhile
  rw [dropWhile_of_head h.head, dropWhileEnd_of_last h.last]

theorem dropWhileEnd_leads (cs : List Char) : dropWhileEnd isBlank cs <+: cs := by
  rw [dropWhileEnd_eq_rdropWhile]
  exact List.rdropWhile_prefix _ _

theorem trim_sublist (cs : List Char) : (trim cs).Sublist cs :=
  (dropWhileEnd_leads _).sublist.trans (List.dropWhile_sublist _)

theorem mem_head?_of_leads {ds : List Char} (h : ds <+: cs) (hc : c ∈ ds.head?) : c ∈ cs.head? := by
  obtain ⟨rest, rfl⟩ := h
  exact List.mem_head?_append_of_mem_head? hc

theorem mem_getLast?_of_closes {ds : List Char} (h : ds <:+ cs) (hc : c ∈ ds.getLast?) : c ∈ cs.getLast? := by
  obtain ⟨rest, rfl⟩ := h
  exact List.mem_getLast?_append_of_mem_getLast? hc

theorem tight_trim (cs : List Char) : Tight (trim cs) := by
  unfold trim trimWhile
  constructor
  · intro c hc
    have hstart := List.head?_dropWhile_not isBlank cs
    rw [mem_head?_of_leads (dropWhileEnd_leads _) hc] at hstart
    simpa using hstart
  · intro c hc
    rw [dropWhileEnd_eq_rdropWhile] at hc
    have hne : List.rdropWhile isBlank (cs.dropWhile isBlank) ≠ [] := by
      intro hnil
      rw [hnil] at hc
      cases hc
    have hend := List.rdropWhile_last_not isBlank _ hne
    rw [List.getLast?_eq_getLast_of_ne_nil hne] at hc
    rw [← Option.some.inj hc]
    simpa using hend

theorem trim_cons_of_blank (hc : isBlank c = true) (cs : List Char) : trim (c :: cs) = trim cs := by
  unfold trim trimWhile
  rw [List.dropWhile_cons_of_pos hc]

theorem trim_concat_of_blank (hc : isBlank c = true) (cs : List Char) : trim (cs ++ [c]) = trim cs := by
  unfold trim trimWhile
  rw [List.dropWhile_append, List.dropWhile_cons_of_pos hc, dropWhileEnd_eq_rdropWhile]
  split
  · rename_i hempty
    rw [List.isEmpty_iff.1 hempty]
    rfl
  · exact List.rdropWhile_concat_pos _ _ _ hc

/-- What ignores a blank at either end ignores trimming. -/
theorem apply_trim {α : Type} {f : List Char → α} (hstart : ∀ c cs, isBlank c = true → f (c :: cs) = f cs)
    (hend : ∀ c cs, isBlank c = true → f (cs ++ [c]) = f cs) (cs : List Char) : f (trim cs) = f cs := by
  have hdropEnd : ∀ ds : List Char, f (dropWhileEnd isBlank ds) = f ds := by
    intro ds
    rw [dropWhileEnd_eq_rdropWhile]
    induction ds using List.reverseRecOn with
    | nil => rfl
    | append_singleton ds d ih =>
      rw [List.rdropWhile_concat]
      split
      · rename_i hd
        rw [ih, hend d ds hd]
      · rfl
  rw [trim, trimWhile, hdropEnd]
  induction cs with
  | nil => rfl
  | cons c cs ih =>
    rw [List.dropWhile_cons]
    split
    · rename_i hc
      rw [ih, hstart c cs hc]
    · rfl

theorem trim_append_blanks (hbs : ∀ c ∈ bs, isBlank c = true) : trim (as ++ bs) = trim as := by
  induction bs using List.reverseRecOn with
  | nil => rw [List.append_nil]
  | append_singleton bs b ih =>
    obtain ⟨hbs, hb⟩ := List.forall_mem_append.1 hbs
    rw [← List.append_assoc, trim_concat_of_blank (hb b List.mem_cons_self), ih hbs]

/-- A character after a text that does not end with a blank. -/
theorem trim_concat (hc : isBlank c = false) (h : ∀ d ∈ cs.getLast?, isBlank d = false) :
    trim (cs ++ [c]) = trim cs ++ [c] := by
  by_cases hne : cs = []
  · subst hne
    exact Tight.trim_eq ⟨by simpa using hc, by simpa using hc⟩
  have hrest : cs.dropWhile isBlank ≠ [] := fun hnil => by
    have := List.dropWhile_eq_nil_iff.1 hnil _ (List.getLast_mem hne)
    rw [h _ (List.getLast?_eq_getLast_of_ne_nil hne)] at this
    cases this
  have hlast : ∀ d ∈ (cs.dropWhile isBlank).getLast?, isBlank d = false :=
    fun d hd => h d (mem_getLast?_of_closes (List.dropWhile_suffix _) hd)
  unfold trim trimWhile
  rw [List.dropWhile_append, if_neg (by simpa using hrest), dropWhileEnd_of_last hlast,
    dropWhileEnd_append_cons hc]
  rfl

/-! ## The ends of a text that is cut -/

variable {mark : Char}

theorem splitAt_of_not_mem (h : mark ∉ cs) : splitAt mark cs = [cs] := by
  rw [splitAt_eq_splitOn, List.splitOn_eq_singleton h]

theorem length_splitAt (mark : Char) (cs : List Char) : (splitAt mark cs).length = cs.count mark + 1 := by
  rw [splitAt_eq_splitOn]
  induction cs with
  | nil => rfl
  | cons c cs ih =>
    rw [List.splitOn_cons_eq_if_modifyHead, List.count_cons]
    split <;> simp [ih]

/-- Another last part may stand behind all others. -/
theorem exists_last_part (mark : Char) (cs : List Char) : ∃ init pre last, cs = pre ++ last ∧ mark ∉ last ∧
    ∀ ds, mark ∉ ds → splitAt mark (pre ++ ds) = init ++ [ds] := by
  by_cases h : mark ∈ cs
  · obtain ⟨as, bs, hcs, has⟩ := List.eq_append_cons_of_mem (List.mem_reverse.2 h)
    refine ⟨splitAt mark bs.reverse, bs.reverse ++ [mark], as.reverse, ?_, by simpa using has, fun ds hds => ?_⟩
    · rw [← List.reverse_reverse cs, hcs]
      simp
    · rw [List.append_assoc, List.singleton_append, splitAt_append_mark, splitAt_of_not_mem hds]
  · exact ⟨[], [], cs, rfl, h, fun ds hds => splitAt_of_not_mem hds⟩

/-- Another first part may stand before all others. -/
theorem exists_first_part (mark : Char) (cs : List Char) :
    ∃ first post rest, cs = first ++ post ∧ mark ∉ first ∧
      ∀ ds, mark ∉ ds → splitAt mark (ds ++ post) = ds :: rest := by
  by_cases h : mark ∈ cs
  · obtain ⟨as, bs, rfl, has⟩ := List.eq_append_cons_of_mem h
    refine ⟨as, mark :: bs, splitAt mark bs, rfl, has, fun ds hds => ?_⟩
    rw [splitAt_append_mark, splitAt_of_not_mem hds]
    rfl
  · exact ⟨cs, [], [], (List.append_nil cs).symm, h, fun ds hds => by
      rw [List.append_nil, splitAt_of_not_mem hds]⟩

end Text

namespace TypeName

open Text

variable {c : Char} {cs m : List Char} {ms : List (List Char)}

/-! ## Alternatives -/

/-- The alternatives of a type, also those without values. -/
def alternatives (cs : List Char) : List (List Char) := (splitAt '|' cs).map trim

/-- An alternative with values. -/
def isPresent (m : List Char) : Bool := !absentNames.contains (String.ofList m) && !m.isEmpty

theorem present_eq (cs : List Char) : present cs = (alternatives cs).filter isPresent := rfl

/-- Alternatives as they are written. -/
def joined (ms : List (List Char)) : List Char := " | ".toList.intercalate ms

/-- An alternative that can be told apart from others. -/
structure Proper (m : List Char) : Prop where
  tight : Tight m
  ne_nil : m ≠ []
  noBar : '|' ∉ m

theorem alternatives_append_bar (as bs : List Char) :
    alternatives (as ++ '|' :: bs) = alternatives as ++ alternatives bs := by
  unfold alternatives
  rw [splitAt_append_mark, List.map_append]

theorem alternatives_of_noBar (h : '|' ∉ cs) : alternatives cs = [trim cs] := by
  unfold alternatives
  rw [splitAt_of_not_mem h]
  rfl

theorem exists_last_alternative (cs : List Char) : ∃ init pre last, cs = pre ++ last ∧ '|' ∉ last ∧
    ∀ ds, '|' ∉ ds → alternatives (pre ++ ds) = init ++ [trim ds] := by
  obtain ⟨init, pre, last, hcs, hlast, hsplit⟩ := exists_last_part '|' cs
  refine ⟨init.map trim, pre, last, hcs, hlast, fun ds hds => ?_⟩
  rw [alternatives, hsplit ds hds, List.map_append]
  rfl

theorem exists_first_alternative (cs : List Char) : ∃ first post rest, cs = first ++ post ∧ '|' ∉ first ∧
    ∀ ds, '|' ∉ ds → alternatives (ds ++ post) = trim ds :: rest := by
  obtain ⟨first, post, rest, hcs, hfirst, hsplit⟩ := exists_first_part '|' cs
  refine ⟨first, post, rest.map trim, hcs, hfirst, fun ds hds => ?_⟩
  rw [alternatives, hsplit ds hds]
  rfl

theorem ne_bar_of_isBlank (hc : isBlank c = true) : c ≠ '|' := by
  rintro rfl
  cases hc

/-- Blanks before and after a text do not matter. -/
theorem alternatives_cons_blank (hc : isBlank c = true) (cs : List Char) :
    alternatives (c :: cs) = alternatives cs := by
  obtain ⟨first, post, rest, rfl, hfirst, h⟩ := exists_first_alternative cs
  have hbar : '|' ∉ c :: first := by simp [hfirst, (ne_bar_of_isBlank hc).symm]
  rw [h first hfirst, ← List.cons_append, h _ hbar, trim_cons_of_blank hc]

theorem alternatives_concat_blank (hc : isBlank c = true) (cs : List Char) :
    alternatives (cs ++ [c]) = alternatives cs := by
  obtain ⟨init, pre, last, rfl, hlast, h⟩ := exists_last_alternative cs
  have hbar : '|' ∉ last ++ [c] := by simp [hlast, (ne_bar_of_isBlank hc).symm]
  rw [h last hlast, List.append_assoc, h _ hbar, trim_concat_of_blank hc]

theorem alternatives_trim (cs : List Char) : alternatives (trim cs) = alternatives cs :=
  apply_trim (fun _ cs hc => alternatives_cons_blank hc cs) (fun _ cs hc => alternatives_concat_blank hc cs) cs

/-- A character that is put behind a type is put behind its last alternative. -/
theorem alternatives_concat (h : Tight cs) (hc : isBlank c = false) (hbar : c ≠ '|') :
    ∃ init a, alternatives cs = init ++ [a] ∧ alternatives (cs ++ [c]) = init ++ [a ++ [c]] := by
  obtain ⟨init, pre, last, rfl, hlast, halternatives⟩ := exists_last_alternative cs
  have hblank : ∀ d ∈ last.getLast?, isBlank d = false :=
    fun d hd => h.last d (mem_getLast?_of_closes (List.suffix_append pre last) hd)
  refine ⟨init, trim last, halternatives last hlast, ?_⟩
  rw [List.append_assoc, halternatives _ (by simp [hlast, hbar.symm]), trim_concat hc hblank]

/-- The first alternative opens a type, and the last one closes it. -/
theorem first_leads {a : List Char} {rest : List (List Char)} (h : Tight cs)
    (ha : alternatives cs = a :: rest) : a <+: cs := by
  obtain ⟨first, post, rest', rfl, hfirst, halternatives⟩ := exists_first_alternative cs
  rw [halternatives first hfirst] at ha
  obtain rfl := (List.cons.inj ha).1
  have hstart : first.dropWhile isBlank = first :=
    dropWhile_of_head fun c hc => h.head c (mem_head?_of_leads (List.prefix_append first post) hc)
  rw [trim, trimWhile, hstart]
  exact (dropWhileEnd_leads first).trans (List.prefix_append first post)

theorem last_closes {a : List Char} {init : List (List Char)} (h : Tight cs)
    (ha : alternatives cs = init ++ [a]) : a <:+ cs := by
  obtain ⟨init', pre, last, rfl, hlast, halternatives⟩ := exists_last_alternative cs
  rw [halternatives last hlast] at ha
  obtain rfl := List.singleton_inj.1 (List.append_inj_right' ha rfl)
  have hcloses : last.dropWhile isBlank <:+ pre ++ last :=
    (List.dropWhile_suffix _).trans (List.suffix_append pre last)
  rw [trim, trimWhile, dropWhileEnd_of_last fun c hc => h.last c (mem_getLast?_of_closes hcloses hc)]
  exact hcloses

theorem first_of_wrapper (hcs : wrapper <+: cs) : ∃ a rest, alternatives cs = a :: rest ∧ wrapper <+: a := by
  obtain ⟨ds, rfl⟩ := hcs
  obtain ⟨first, post, rest, rfl, hfirst, halternatives⟩ := exists_first_alternative ds
  have hbar : '|' ∉ wrapper ++ first := List.not_mem_append (by decide) hfirst
  refine ⟨trim (wrapper ++ first), rest, by rw [← List.append_assoc, halternatives _ hbar], ?_⟩
  have hsplit : wrapper ++ first = "Optional".toList ++ '[' :: first := rfl
  have hstart : (wrapper ++ first).dropWhile isBlank = wrapper ++ first := rfl
  rw [trim, trimWhile, hstart, hsplit, dropWhileEnd_append_cons (by decide)]
  exact ⟨dropWhileEnd isBlank first, rfl⟩

theorem proper_of_mem_alternatives (h : m ∈ alternatives cs) (hne : m ≠ []) : Proper m := by
  obtain ⟨part, hpart, rfl⟩ := List.mem_map.1 h
  exact ⟨tight_trim part, hne, fun hbar => not_mem_of_mem_splitAt hpart ((trim_sublist part).subset hbar)⟩

theorem alternatives_ne_nil (cs : List Char) : alternatives cs ≠ [] := by
  simp [alternatives, splitAt_ne_nil]

theorem length_alternatives (cs : List Char) : (alternatives cs).length = cs.count '|' + 1 := by
  rw [alternatives, List.length_map, length_splitAt]

/-! ## Alternatives with values -/

theorem ne_nil_of_isPresent (h : isPresent m = true) : m ≠ [] := by
  rintro rfl
  simp [isPresent] at h

theorem proper_of_mem_present (h : m ∈ present cs) : Proper m := by
  obtain ⟨hm, hpresent⟩ := List.mem_filter.1 h
  exact proper_of_mem_alternatives hm (ne_nil_of_isPresent hpresent)

theorem isPresent_iff : isPresent m = true ↔ String.ofList m ∉ absentNames ∧ m ≠ [] := by
  simp [isPresent]

/-- No name of the type without values ends like a mark. -/
theorem isPresent_concat (hc : c = '?' ∨ c = ']') (m : List Char) : isPresent (m ++ [c]) = true := by
  have hnames : ∀ name ∈ absentNames, name.toList.getLast? ≠ some '?' ∧ name.toList.getLast? ≠ some ']' := by
    decide
  refine isPresent_iff.2 ⟨fun hmem => ?_, by simp⟩
  obtain ⟨hquestion, hbracket⟩ := hnames _ hmem
  rcases hc with rfl | rfl
  · exact hquestion (by simp)
  · exact hbracket (by simp)

/-! ## Written alternatives -/

theorem joined_cons (m : List Char) (hms : ms ≠ []) :
    joined (m :: ms) = (m ++ [' ']) ++ '|' :: ' ' :: joined ms := by
  unfold joined
  rw [List.intercalate_cons_of_ne_nil hms]
  simp

theorem alternatives_joined (hms : ms ≠ []) (hbar : ∀ m ∈ ms, '|' ∉ m) :
    alternatives (joined ms) = ms.map trim := by
  induction ms with
  | nil => exact absurd rfl hms
  | cons m ms ih =>
    obtain ⟨hm, hrest⟩ := List.forall_mem_cons.1 hbar
    by_cases hnil : ms = []
    · subst hnil
      rw [joined, List.intercalate_singleton, alternatives_of_noBar hm]
      rfl
    · rw [joined_cons m hnil, alternatives_append_bar, alternatives_concat_blank (by decide),
        alternatives_cons_blank (by decide), alternatives_of_noBar hm, ih hnil hrest]
      rfl

theorem map_trim_of_proper (h : ∀ m ∈ ms, Proper m) : ms.map trim = ms :=
  (List.map_congr_left fun m hm => (h m hm).tight.trim_eq).trans (List.map_id ms)

/-- **Proper alternatives are found again.** -/
theorem alternatives_joined_proper (hms : ms ≠ []) (h : ∀ m ∈ ms, Proper m) :
    alternatives (joined ms) = ms := by
  rw [alternatives_joined hms fun m hm => (h m hm).noBar, map_trim_of_proper h]

theorem joined_concat (ms : List (List Char)) (m w : List Char) :
    joined (ms ++ [m ++ w]) = joined (ms ++ [m]) ++ w := by
  induction ms with
  | nil => simp [joined]
  | cons a ms ih =>
    rw [List.cons_append, List.cons_append, joined_cons a (by simp), joined_cons a (by simp), ih]
    simp

theorem last_joined (ms : List (List Char)) (hm : m ≠ []) : (joined (ms ++ [m])).getLast? = m.getLast? := by
  have hsplit := joined_concat ms [] m
  rw [List.nil_append] at hsplit
  rw [hsplit, List.getLast?_append_of_ne_nil _ hm]

theorem joined_ne_nil (hms : ms ≠ []) (h : ∀ m ∈ ms, Proper m) : joined ms ≠ [] := by
  obtain ⟨m, ms, rfl⟩ := List.exists_cons_of_ne_nil hms
  by_cases hnil : ms = []
  · subst hnil
    rw [joined, List.intercalate_singleton]
    exact (h m List.mem_cons_self).ne_nil
  · rw [joined_cons m hnil]
    simp
theorem tight_joined (h : ∀ m ∈ ms, Proper m) : Tight (joined ms) := by
  induction ms with
  | nil => exact ⟨nofun, nofun⟩
  | cons m ms ih =>
    obtain ⟨hm, hrest⟩ := List.forall_mem_cons.1 h
    by_cases hnil : ms = []
    · subst hnil
      rw [joined, List.intercalate_singleton]
      exact hm.tight
    · have hlast : ∀ c ∈ ([' ', '|', ' '] ++ joined ms).getLast?, isBlank c = false := by
        rw [List.getLast?_append_of_ne_nil _ (joined_ne_nil hnil hrest)]
        exact (ih hrest).last
      rw [joined_cons m hnil, List.append_assoc]
      exact tight_append hm.tight.head hlast hm.ne_nil (by simp)

theorem count_joined (h : ∀ m ∈ ms, '|' ∉ m) : (joined ms).count '|' = ms.length - 1 := by
  induction ms with
  | nil => rfl
  | cons m ms ih =>
    obtain ⟨hm, hrest⟩ := List.forall_mem_cons.1 h
    have hcount := List.count_eq_zero.2 hm
    by_cases hnil : ms = []
    · subst hnil
      simpa [joined] using hcount
    · have hpos := List.length_pos_iff.2 hnil
      rw [joined_cons m hnil]
      simp [hcount, ih hrest]
      omega
end TypeName
end ChangeImpact
