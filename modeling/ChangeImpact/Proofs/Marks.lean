import ChangeImpact.Config.Decode
import ChangeImpact.Proofs.Alternatives

/-!
# Marks of optional types

A type is marked as optional by a wrapper, by alternatives without values, or by a question mark. Stripping
looks for each of them once, in this order: a wrapper around it all, then the alternatives, then a question
mark at the end. Marks can be put on each other in any order, and what stands in another order is left.

* `strip_eq`: stripping in three steps.
* `Marked`, `strip_strip_iff`: **a stripped type is stripped again exactly if it is still marked.**
* `Mark`, `marked`: types in marks, the first of them outermost. `Plain`: types without marks.
* `strip_marked_iff`: **which marks are stripped.**
* `marks_stripped_iff`: both, and what they mean for compatible types. `marks_left` shows what is left.
-/

namespace ChangeImpact
namespace TypeName

open Text

variable {c : Char} {cs m : List Char} {ms : List (List Char)}

/-! ## Question marks and wrappers -/

theorem dropMark_concat (cs : List Char) : dropMark (cs ++ ['?']) = trim cs := by
  simp [dropMark]

theorem dropMark_of_last (h : cs.getLast? ≠ some '?') : dropMark cs = cs := by
  unfold dropMark
  split
  · rename_i rest hrest
    rw [← List.reverse_reverse cs, hrest] at h
    simp at h
  · rfl

theorem dropMark_cases (cs : List Char) :
    (∃ ds, cs = ds ++ ['?'] ∧ dropMark cs = trim ds) ∨ (cs.getLast? ≠ some '?' ∧ dropMark cs = cs) := by
  by_cases h : cs.getLast? = some '?'
  · obtain ⟨ds, rfl⟩ := List.getLast?_eq_some_iff.1 h
    exact .inl ⟨ds, rfl, dropMark_concat ds⟩
  · exact .inr ⟨h, dropMark_of_last h⟩

theorem unwrap?_eq_some {body : List Char} :
    unwrap? cs = some body ↔ cs = wrapper ++ body ++ [']'] ∧ '\n' ∉ body := by
  unfold unwrap?
  constructor
  · intro h
    split at h
    · rename_i hopen
      obtain ⟨rest, rfl⟩ := List.isPrefixOf_iff_prefix.1 hopen
      rw [List.drop_left] at h
      split at h
      · rename_i b hb
        split at h
        · cases h
        · rename_i hline
          obtain rfl := Option.some.inj h
          rw [← List.reverse_reverse rest, hb]
          simpa using hline
      · cases h
    · cases h
  · rintro ⟨rfl, hline⟩
    have hopen : wrapper.isPrefixOf (wrapper ++ body ++ [']']) = true :=
      List.isPrefixOf_iff_prefix.2 ⟨body ++ [']'], by simp⟩
    rw [if_pos hopen, List.append_assoc, List.drop_left]
    simp [hline]

/-- What stripping looks at after a wrapper. -/
def unwrapped (cs : List Char) : List Char :=
  match unwrap? cs with
  | some body => trim body
  | none => cs

theorem unwrapped_of_none (h : unwrap? cs = none) : unwrapped cs = cs := by
  unfold unwrapped
  rw [h]

/-- A type without the alternatives that have no values. -/
def withoutAbsent (cs : List Char) : List Char :=
  if cs.contains '|' then joined (present cs) else cs

theorem strip_eq (cs : List Char) : strip cs = dropMark (withoutAbsent (unwrapped cs)) := rfl

/-! ## Stripping again -/

/-- The characters of a type that are neither blanks nor bars. -/
def letters (cs : List Char) : List Char := cs.filter fun c => !isBlank c && c != '|'

theorem letters_append (as bs : List Char) : letters (as ++ bs) = letters as ++ letters bs :=
  List.filter_append as bs

theorem letters_trim (cs : List Char) : letters (trim cs) = letters cs :=
  apply_trim (fun c cs hc => by simp [letters, hc]) (fun c cs hc => by simp [letters, hc]) cs

theorem letters_intercalate {sep : List Char} (hsep : letters sep = []) (parts : List (List Char)) :
    letters (sep.intercalate parts) = parts.flatMap letters := by
  induction parts with
  | nil => rfl
  | cons part parts ih =>
    by_cases hnil : parts = []
    · subst hnil
      simp
    · rw [List.intercalate_cons_of_ne_nil hnil, letters_append, letters_append, hsep, ih]
      simp

theorem letters_alternatives (cs : List Char) : (alternatives cs).flatMap letters = letters cs := by
  have hcut := letters_intercalate (by decide : letters ['|'] = []) (splitAt '|' cs)
  rw [intercalate_splitAt] at hcut
  rw [hcut, alternatives, List.flatMap_map]
  exact congrArg (List.flatMap · _) (funext letters_trim)

theorem letters_withoutAbsent (cs : List Char) :
    (letters (withoutAbsent cs)).length ≤ (letters cs).length := by
  unfold withoutAbsent
  split
  · rw [joined, letters_intercalate (by decide), ← letters_alternatives cs, present_eq]
    exact (List.filter_sublist.flatMap _).length_le
  · exact Nat.le_refl _

theorem dropMark_sublist (cs : List Char) : (dropMark cs).Sublist cs := by
  rcases dropMark_cases cs with ⟨ds, rfl, h⟩ | ⟨-, h⟩
  · rw [h]
    exact (trim_sublist ds).trans (List.sublist_append_left ds _)
  · rw [h]

theorem letters_strip (cs : List Char) : (letters (strip cs)).length ≤ (letters (unwrapped cs)).length :=
  calc (letters (strip cs)).length
      ≤ (letters (withoutAbsent (unwrapped cs))).length := ((dropMark_sublist _).filter _).length_le
    _ ≤ (letters (unwrapped cs)).length := letters_withoutAbsent _

/-- A mark of an optional type that a name shows. -/
inductive Marked (cs : List Char) : Prop
  | wrapper {body : List Char} (h : unwrap? cs = some body)
  | question (h : cs.getLast? = some '?')
  | alternative {m : List Char} (bar : '|' ∈ cs) (mem : m ∈ alternatives cs) (absent : isPresent m = false)

theorem strip_ne_self_of_unwrap {body : List Char} (h : unwrap? cs = some body) : strip cs ≠ cs := by
  intro hfix
  have hle := letters_strip cs
  obtain ⟨hcs, -⟩ := unwrap?_eq_some.1 h
  have hwrapper : (letters wrapper).length = 9 := by decide
  have hletters : (letters cs).length = 9 + (letters body).length + (letters [']']).length := by
    rw [hcs, letters_append, letters_append, List.length_append, List.length_append, hwrapper]
  rw [hfix, unwrapped, h] at hle
  dsimp only at hle
  rw [letters_trim] at hle
  omega

/-- Stripping changes what is marked: a wrapper or a question mark has letters, and an alternative has a bar. -/
theorem strip_ne_self (h : Marked cs) : strip cs ≠ cs := by
  intro hfix
  have hnone : unwrap? cs = none := by
    cases hbody : unwrap? cs with
    | none => rfl
    | some body => exact absurd hfix (strip_ne_self_of_unwrap hbody)
  rw [strip_eq, unwrapped_of_none hnone] at hfix
  cases h with
  | wrapper hbody =>
    rw [hnone] at hbody
    cases hbody
  | question hlast =>
    have hle := letters_withoutAbsent cs
    rcases dropMark_cases (withoutAbsent cs) with ⟨ds, hds, hdrop⟩ | ⟨hkept, hdrop⟩
    · have hmark : (letters ['?']).length = 1 := by decide
      rw [hds, letters_append, List.length_append, hmark, ← letters_trim ds, ← hdrop, hfix] at hle
      omega
    · rw [hdrop] at hfix
      rw [hfix] at hkept
      exact hkept hlast
  | alternative hbar hmem habsent =>
    -- there is one bar less than there are alternatives, and an alternative is lost
    have hshorter : (present cs).length < (alternatives cs).length := by
      rw [present_eq]
      exact List.length_filter_lt_length_iff_exists.2 ⟨_, hmem, by simp [habsent]⟩
    have hcount : cs.count '|' ≤ (joined (present cs)).count '|' := by
      have hsub := (dropMark_sublist (withoutAbsent cs)).count_le '|'
      rwa [hfix, withoutAbsent, if_pos (List.contains_iff_mem.2 hbar)] at hsub
    rw [count_joined fun m hm => (proper_of_mem_present hm).noBar] at hcount
    rw [length_alternatives] at hshorter
    have hpos := List.count_pos_iff.2 hbar
    omega

/-- A last alternative that lost its question mark is trimmed together with the type. -/
theorem trim_joined_concat (hms : ∀ m ∈ ms, Proper m) (hm : Proper (m ++ ['?'])) (hne : trim m ≠ []) :
    trim (joined (ms ++ [m])) = joined (ms ++ [trim m]) := by
  have hstart : m.dropWhile isBlank = m := dropWhile_of_head fun c hc =>
    hm.tight.head c (mem_head?_of_leads (List.prefix_append m ['?']) hc)
  have htrim : trim m = List.rdropWhile isBlank m := by
    rw [trim, trimWhile, hstart, dropWhileEnd_eq_rdropWhile]
  have hproper : ∀ a ∈ ms ++ [trim m], Proper a :=
    List.forall_mem_append.2 ⟨hms, List.forall_mem_singleton.2 ⟨tight_trim m, hne, fun hbar =>
      hm.noBar (List.mem_append_left _ ((trim_sublist m).subset hbar))⟩⟩
  calc trim (joined (ms ++ [m]))
      = trim (joined (ms ++ [trim m]) ++ List.rtakeWhile isBlank m) := by
        rw [← joined_concat, htrim, List.rdropWhile_append_rtakeWhile]
    _ = trim (joined (ms ++ [trim m])) := trim_append_blanks fun c hc => List.mem_rtakeWhile_imp hc
    _ = joined (ms ++ [trim m]) := (tight_joined hproper).trim_eq

/-- A question mark that is dropped from alternatives is dropped from the last of them. -/
theorem joined_alternatives_dropMark (hne : ms ≠ []) (hproper : ∀ m ∈ ms, Proper m)
    (hpresent : ∀ m ∈ alternatives (dropMark (joined ms)), isPresent m = true) :
    joined (alternatives (dropMark (joined ms))) = dropMark (joined ms) := by
  rcases dropMark_cases (joined ms) with ⟨ds, hds, hdrop⟩ | ⟨-, hdrop⟩
  · obtain ⟨init, last, rfl⟩ : ∃ init last, ms = init ++ [last] :=
      ⟨_, _, (List.dropLast_concat_getLast hne).symm⟩
    obtain ⟨hinit, hlast⟩ := List.forall_mem_append.1 hproper
    have hproperLast := hlast last List.mem_cons_self
    have hquestion : last.getLast? = some '?' := by
      rw [← last_joined init hproperLast.ne_nil, hds]
      simp
    obtain ⟨m, rfl⟩ := List.getLast?_eq_some_iff.1 hquestion
    -- blanks before the question mark are now at the end of the type
    rw [joined_concat] at hds
    obtain rfl := List.append_cancel_right hds
    have hnoBar : ∀ a ∈ init ++ [m], '|' ∉ a := List.forall_mem_append.2 ⟨fun a ha => (hinit a ha).noBar,
      List.forall_mem_singleton.2 fun hbar => hproperLast.noBar (List.mem_append_left _ hbar)⟩
    have halternatives : alternatives (trim (joined (init ++ [m]))) = init ++ [trim m] := by
      rw [alternatives_trim, alternatives_joined (by simp) hnoBar, List.map_append, map_trim_of_proper hinit]
      rfl
    rw [hdrop, halternatives] at hpresent ⊢
    have hne' := ne_nil_of_isPresent (hpresent (trim m) (by simp))
    exact (trim_joined_concat hinit hproperLast hne').symm
  · rw [hdrop, alternatives_joined_proper hne hproper]

/-- The alternatives of a stripped type that all have values stand as they are written. -/
theorem joined_alternatives_strip (hbar : '|' ∈ strip cs)
    (hpresent : ∀ m ∈ alternatives (strip cs), isPresent m = true) :
    joined (alternatives (strip cs)) = strip cs := by
  rw [strip_eq] at hbar hpresent ⊢
  have hjoined : withoutAbsent (unwrapped cs) = joined (present (unwrapped cs)) := by
    have hmem := (dropMark_sublist _).subset hbar
    unfold withoutAbsent at hmem ⊢
    split at hmem
    · rename_i hcontains
      rw [if_pos hcontains]
    · rename_i hcontains
      exact absurd (List.contains_iff_mem.2 hmem) hcontains
  rw [hjoined] at hbar hpresent ⊢
  refine joined_alternatives_dropMark (fun hnil => ?_) (fun m hm => proper_of_mem_present hm) hpresent
  rw [hnil] at hbar
  cases hbar

theorem tight_strip (h : Tight cs) : Tight (strip cs) := by
  have hunwrapped : Tight (unwrapped cs) := by
    unfold unwrapped
    split
    · exact tight_trim _
    · exact h
  have hwithout : Tight (withoutAbsent (unwrapped cs)) := by
    unfold withoutAbsent
    split
    · exact tight_joined fun m hm => proper_of_mem_present hm
    · exact hunwrapped
  rw [strip_eq]
  rcases dropMark_cases (withoutAbsent (unwrapped cs)) with ⟨ds, -, hdrop⟩ | ⟨-, hdrop⟩
  · rw [hdrop]
    exact tight_trim ds
  · rwa [hdrop]

/-- **A stripped type stays as it is exactly if it is not marked any more.** -/
theorem strip_strip_iff (cs : List Char) : strip (strip cs) = strip cs ↔ ¬ Marked (strip cs) := by
  refine ⟨fun hfix hmarked => strip_ne_self hmarked hfix, fun hplain => ?_⟩
  have hnone : unwrap? (strip cs) = none := by
    cases hbody : unwrap? (strip cs) with
    | none => rfl
    | some body => exact absurd (.wrapper hbody) hplain
  have hwithout : withoutAbsent (strip cs) = strip cs := by
    unfold withoutAbsent
    split
    · rename_i hcontains
      have hbar := List.contains_iff_mem.1 hcontains
      have hpresent : ∀ m ∈ alternatives (strip cs), isPresent m = true := fun m hm => by
        by_contra habsent
        exact hplain (.alternative hbar hm (by simpa using habsent))
      rw [present_eq, List.filter_eq_self.2 hpresent, joined_alternatives_strip hbar hpresent]
    · rfl
  rw [strip_eq (strip cs), unwrapped_of_none hnone, hwithout]
  exact dropMark_of_last fun hlast => hplain (.question hlast)

/-! ## Types in marks -/

/-- A mark of an optional type. -/
inductive Mark where
  /-- A question mark behind the type. -/
  | question
  /-- An alternative without values. -/
  | alternative (name : String) (absent : name ∈ absentNames)
  /-- A wrapper around the type. -/
  | wrapper

/-- A type with a mark on it. -/
def Mark.write : Mark → List Char → List Char
  | .question, cs => cs ++ ['?']
  | .alternative name _, cs => cs ++ ' ' :: '|' :: ' ' :: name.toList
  | .wrapper, cs => TypeName.wrapper ++ cs ++ [']']

/-- A type in marks, the first of them outermost. -/
def marked (marks : List Mark) (cs : List Char) : List Char := marks.foldr Mark.write cs

/-- A type without marks. -/
structure Plain (cs : List Char) : Prop where
  tight : Tight cs
  allPresent : ∀ m ∈ alternatives cs, isPresent m = true
  noQuestion : cs.getLast? ≠ some '?'
  noWrapper : ¬ (wrapper <+: cs ∧ cs.getLast? = some ']')

/-- Alternatives around at most one question mark. -/
def areStripped : List Mark → Bool
  | [] => true
  | .question :: marks => marks.isEmpty
  | .alternative .. :: marks => areStripped marks
  | .wrapper :: _ => false

/-- The marks that are stripped from a type: a wrapper if the type is on one line, then alternatives, then a
question mark, from the outside to the inside. -/
def Strips (cs : List Char) : List Mark → Prop
  | .wrapper :: marks => '\n' ∉ cs ∧ areStripped marks = true
  | marks => areStripped marks = true

theorem proper_of_absent {name : String} (h : name ∈ absentNames) : Proper name.toList := by
  simp only [absentNames, List.mem_cons, List.not_mem_nil, or_false] at h
  rcases h with rfl | rfl | rfl | rfl <;>
    exact ⟨⟨by rintro _ ⟨⟩; rfl, by rintro _ ⟨⟩; rfl⟩, by decide, by decide⟩

theorem isPresent_of_absent {name : String} (h : name ∈ absentNames) : isPresent name.toList = false := by
  simp [isPresent, h]

theorem tight_wrapper (h : Tight cs) (hne : cs ≠ []) : Tight (wrapper ++ cs) :=
  tight_append (by rintro _ ⟨⟩; rfl) h.last (by decide) hne

theorem tight_write (mark : Mark) (h : Tight cs) (hne : cs ≠ []) :
    Tight (mark.write cs) ∧ mark.write cs ≠ [] := by
  cases mark with
  | question => exact ⟨tight_append h.head (by rintro _ ⟨⟩; rfl) hne (by simp), by simp [Mark.write]⟩
  | alternative name absent =>
    have hname := proper_of_absent absent
    have hsplit : Mark.write (.alternative name absent) cs = cs ++ ([' ', '|', ' '] ++ name.toList) := by
      simp [Mark.write]
    rw [hsplit]
    refine ⟨tight_append h.head ?_ hne (by simp), by simp⟩
    rw [List.getLast?_append_of_ne_nil _ hname.ne_nil]
    exact hname.tight.last
  | wrapper =>
    have hwrapper := (tight_wrapper h hne).head
    exact ⟨tight_append hwrapper (by rintro _ ⟨⟩; rfl) (by simp [hne]) (by simp), by simp [Mark.write]⟩

section Plain

variable (h : Plain cs)

include h

theorem Plain.ne_nil : cs ≠ [] := by
  rintro rfl
  have := h.allPresent [] (by decide)
  cases this

theorem Plain.tight_marked (marks : List Mark) : Tight (marked marks cs) ∧ marked marks cs ≠ [] := by
  induction marks with
  | nil => exact ⟨h.tight, h.ne_nil⟩
  | cons mark marks ih => exact tight_write mark ih.1 ih.2

theorem Plain.proper : ∀ m ∈ alternatives cs, Proper m :=
  fun m hm => proper_of_mem_alternatives hm (ne_nil_of_isPresent (h.allPresent m hm))

theorem Plain.present_eq : present cs = alternatives cs :=
  List.filter_eq_self.2 h.allPresent

/-- No wrapper stands around the alternatives of a plain type, and no question mark behind them. -/
theorem Plain.not_enclosed {a b : List Char} (hfirst : (alternatives cs).head? = some a)
    (hlast : (alternatives cs).getLast? = some b) (hwrapper : wrapper <+: a) : b.getLast? ≠ some ']' := by
  obtain ⟨rest, hrest⟩ := List.head?_eq_some_iff.1 hfirst
  obtain ⟨init, hinit⟩ := List.getLast?_eq_some_iff.1 hlast
  intro hbracket
  exact h.noWrapper ⟨hwrapper.trans (first_leads h.tight hrest),
    mem_getLast?_of_closes (last_closes h.tight hinit) hbracket⟩

theorem Plain.last_ne_question {b : List Char} (hlast : (alternatives cs).getLast? = some b) :
    b.getLast? ≠ some '?' := by
  obtain ⟨init, hinit⟩ := List.getLast?_eq_some_iff.1 hlast
  exact fun hquestion => h.noQuestion (mem_getLast?_of_closes (last_closes h.tight hinit) hquestion)

/-- Alternatives that are written like those of a plain type are the same. -/
theorem Plain.eq_of_joined_eq (hms : ms ≠ []) (hproper : ∀ m ∈ ms, Proper m)
    (heq : joined ms = joined (alternatives cs)) : ms = alternatives cs := by
  rw [← alternatives_joined_proper hms hproper, heq,
    alternatives_joined_proper (alternatives_ne_nil cs) h.proper]

end Plain

theorem alternatives_alternative {name : String} (absent : name ∈ absentNames) (cs : List Char) :
    alternatives (Mark.write (.alternative name absent) cs) = alternatives cs ++ [name.toList] := by
  have hname := proper_of_absent absent
  have hsplit : Mark.write (.alternative name absent) cs = (cs ++ [' ']) ++ '|' :: ' ' :: name.toList := by
    simp [Mark.write]
  rw [hsplit, alternatives_append_bar, alternatives_concat_blank (by decide),
    alternatives_cons_blank (by decide), alternatives_of_noBar hname.noBar, hname.tight.trim_eq]

theorem present_alternative {name : String} (absent : name ∈ absentNames) (cs : List Char) :
    present (Mark.write (.alternative name absent) cs) = present cs := by
  rw [present_eq, alternatives_alternative, List.filter_append, present_eq]
  simp [isPresent_of_absent absent]

theorem isPresent_of_wrapper (h : wrapper <+: m) : isPresent m = true := by
  obtain ⟨rest, rfl⟩ := h
  have hnames : ∀ name ∈ absentNames, name.toList.head? ≠ some 'O' := by decide
  refine isPresent_iff.2 ⟨fun hmem => hnames _ hmem ?_, List.append_ne_nil_of_left_ne_nil (by decide) rest⟩
  rw [String.toList_ofList]
  rfl

/-- A question mark or a bracket is put behind the last alternative, which then has values. -/
theorem present_concat (h : Tight cs) (hc : c = '?' ∨ c = ']') :
    ∃ init a, alternatives cs = init ++ [a] ∧ alternatives (cs ++ [c]) = init ++ [a ++ [c]] ∧
      present (cs ++ [c]) = init.filter isPresent ++ [a ++ [c]] := by
  have hblank : isBlank c = false := by rcases hc with rfl | rfl <;> rfl
  have hbar : c ≠ '|' := by rcases hc with rfl | rfl <;> decide
  obtain ⟨init, a, ha, hconcat⟩ := alternatives_concat h hblank hbar
  refine ⟨init, a, ha, hconcat, ?_⟩
  rw [present_eq, hconcat, List.filter_append]
  simp [isPresent_concat hc a]

theorem proper_concat {init : List (List Char)} {a : List Char} (ha : alternatives cs = init ++ [a])
    (hne : a ≠ []) : ∀ m ∈ init.filter isPresent ++ [a], Proper m := by
  intro m hm
  rcases List.mem_append.1 hm with hm | hm
  · obtain ⟨hm, hpresent⟩ := List.mem_filter.1 hm
    exact proper_of_mem_alternatives (by rw [ha]; exact List.mem_append_left _ hm)
      (ne_nil_of_isPresent hpresent)
  · obtain rfl := List.mem_singleton.1 hm
    exact proper_of_mem_alternatives (by rw [ha]; simp) hne

/-- The last alternative of a type in marks shows the outermost mark, so the alternatives with values are not
those of the plain type, whether or not the last one has values. -/
theorem Plain.exists_last (h : Plain cs) (marks : List Mark) : ∃ init a,
    alternatives (marked marks cs) = init ++ [a] ∧ a ≠ [] ∧
      (init.filter isPresent ++ [a] = alternatives cs ↔ marks = []) := by
  cases marks with
  | nil =>
    obtain ⟨init, a, ha⟩ : ∃ init a, alternatives cs = init ++ [a] :=
      ⟨_, _, (List.dropLast_concat_getLast (alternatives_ne_nil cs)).symm⟩
    refine ⟨init, a, ha, (h.proper a (by rw [ha]; simp)).ne_nil, iff_of_true ?_ rfl⟩
    rw [ha, List.filter_eq_self.2 fun m hm => h.allPresent m (by rw [ha]; exact List.mem_append_left _ hm)]
  | cons mark marks =>
    have htight := (h.tight_marked marks).1
    cases mark with
    | question =>
      obtain ⟨init, a, -, hconcat, -⟩ := present_concat htight (.inl rfl)
      refine ⟨init, a ++ ['?'], hconcat, by simp, iff_of_false (fun heq => ?_) (List.cons_ne_nil _ _)⟩
      exact h.last_ne_question (by rw [← heq, List.getLast?_concat]) List.getLast?_concat
    | alternative name absent =>
      refine ⟨alternatives (marked marks cs), name.toList, alternatives_alternative absent _,
        (proper_of_absent absent).ne_nil, iff_of_false (fun heq => ?_) (List.cons_ne_nil _ _)⟩
      have := h.allPresent name.toList (by rw [← heq]; simp)
      rw [isPresent_of_absent absent] at this
      cases this
    | wrapper =>
      have hwrapped := tight_wrapper htight (h.tight_marked marks).2
      obtain ⟨init, a, -, hconcat, -⟩ := present_concat hwrapped (.inr rfl)
      have hopen : wrapper <+: wrapper ++ marked marks cs ++ [']'] := ⟨marked marks cs ++ [']'], by simp⟩
      obtain ⟨first, rest, hfirst, hwrapper⟩ := first_of_wrapper hopen
      refine ⟨init, a ++ [']'], hconcat, by simp, iff_of_false (fun heq => ?_) (List.cons_ne_nil _ _)⟩
      refine h.not_enclosed (a := first) (b := a ++ [']']) ?_ (by rw [← heq, List.getLast?_concat]) hwrapper
        List.getLast?_concat
      rw [← heq]
      rw [hconcat] at hfirst
      cases init with
      | nil => exact congrArg List.head? hfirst
      | cons m init =>
        obtain rfl := (List.cons.inj hfirst).1
        rw [List.filter_cons_of_pos (isPresent_of_wrapper hwrapper)]
        rfl

/-- The alternatives of a type in marks, stripped, are those of the plain type just if the marks can be
stripped without a wrapper. -/
theorem Plain.dropMark_marked_iff (h : Plain cs) (marks : List Mark) :
    dropMark (joined (present (marked marks cs))) = joined (alternatives cs) ↔ areStripped marks = true := by
  induction marks with
  | nil =>
    refine iff_of_true ?_ rfl
    obtain ⟨init, a, ha, hne, -⟩ := h.exists_last []
    have hcs : alternatives cs = init ++ [a] := ha
    change dropMark (joined (present cs)) = _
    rw [h.present_eq]
    refine dropMark_of_last ?_
    rw [hcs, last_joined init hne]
    exact h.last_ne_question (by rw [hcs, List.getLast?_concat])
  | cons mark marks ih =>
    have htight := (h.tight_marked marks).1
    cases mark with
    | alternative name absent =>
      change dropMark (joined (present (Mark.write (.alternative name absent) (marked marks cs)))) = _ ↔ _
      rw [present_alternative]
      exact ih
    | question =>
      -- the question mark is dropped from the last alternative, which shows the marks inside
      obtain ⟨init, a, ha, hne, hiff⟩ := h.exists_last marks
      obtain ⟨init', a', ha', -, hpresent⟩ := present_concat htight (.inl rfl)
      obtain ⟨rfl, hlast⟩ := List.append_inj' (ha.symm.trans ha') rfl
      obtain rfl := List.singleton_inj.1 hlast
      have hproper := proper_concat ha hne
      change dropMark (joined (present (marked marks cs ++ ['?']))) = _ ↔ marks.isEmpty = true
      rw [hpresent, joined_concat, dropMark_concat, (tight_joined hproper).trim_eq, List.isEmpty_iff, ← hiff]
      exact ⟨h.eq_of_joined_eq (by simp) hproper, fun heq => by rw [heq]⟩
    | wrapper =>
      -- the bracket at the end of the last alternative stays
      refine iff_of_false (fun heq => ?_) (by simp [areStripped])
      obtain ⟨init, a, ha, hne, hiff⟩ := h.exists_last (.wrapper :: marks)
      obtain ⟨init', a', -, ha', hpresent⟩ :=
        present_concat (tight_wrapper htight (h.tight_marked marks).2) (.inr rfl)
      obtain ⟨rfl, hlast⟩ := List.append_inj' (ha.symm.trans ha') rfl
      obtain rfl := List.singleton_inj.1 hlast
      have hkept : dropMark (joined (init.filter isPresent ++ [a' ++ [']']])) = _ :=
        dropMark_of_last (by rw [last_joined _ hne]; simp)
      change dropMark (joined (present (wrapper ++ marked marks cs ++ [']']))) = _ at heq
      rw [hpresent, hkept] at heq
      cases hiff.1 (h.eq_of_joined_eq (by simp) (proper_concat ha hne) heq)

/-! ## Which marks are stripped -/

theorem withoutAbsent_eq (h : Tight cs) (hpresent : '|' ∉ cs → isPresent cs = true) :
    withoutAbsent cs = joined (present cs) := by
  unfold withoutAbsent
  split
  · rfl
  · rename_i hcontains
    have hbar : '|' ∉ cs := fun hmem => hcontains (List.contains_iff_mem.2 hmem)
    rw [present_eq, alternatives_of_noBar hbar, h.trim_eq, List.filter_cons_of_pos (hpresent hbar)]
    simp [joined]

theorem Plain.withoutAbsent_marked (h : Plain cs) (marks : List Mark) :
    withoutAbsent (marked marks cs) = joined (present (marked marks cs)) := by
  refine withoutAbsent_eq (h.tight_marked marks).1 fun hbar => ?_
  cases marks with
  | nil =>
    have halternatives := alternatives_of_noBar hbar
    rw [(h.tight_marked []).1.trim_eq] at halternatives
    exact h.allPresent cs (by rw [show alternatives cs = [cs] from halternatives]; simp)
  | cons mark marks =>
    cases mark with
    | question => exact isPresent_concat (.inl rfl) _
    | wrapper => exact isPresent_concat (.inr rfl) _
    | alternative name absent => exact absurd (by simp [marked, Mark.write]) hbar

theorem newline_mem_marked (marks : List Mark) (cs : List Char) : '\n' ∈ marked marks cs ↔ '\n' ∈ cs := by
  induction marks with
  | nil => rfl
  | cons mark marks ih =>
    rw [← ih]
    cases mark with
    | question => simp [marked, Mark.write]
    | wrapper =>
      have hwrapper : '\n' ∉ wrapper := by decide
      simp [marked, Mark.write, hwrapper]
    | alternative name absent =>
      have hname : ∀ name ∈ absentNames, '\n' ∉ name.toList := by decide
      simp [marked, Mark.write, hname name absent]

/-- Only a wrapper that is outermost is opened, and only around one line. -/
theorem Plain.unwrapped_marked (h : Plain cs) (marks : List Mark) :
    (∃ rest, marks = .wrapper :: rest ∧ '\n' ∉ cs ∧ unwrapped (marked marks cs) = marked rest cs) ∨
    ((∀ rest, marks = .wrapper :: rest → '\n' ∈ cs) ∧ unwrapped (marked marks cs) = marked marks cs) := by
  unfold unwrapped
  cases hbody : unwrap? (marked marks cs) with
  | none =>
    refine .inr ⟨?_, rfl⟩
    rintro rest rfl
    by_contra hline
    have hsome : unwrap? (marked (.wrapper :: rest) cs) = some (marked rest cs) :=
      unwrap?_eq_some.2 ⟨rfl, mt (newline_mem_marked rest cs).1 hline⟩
    rw [hbody] at hsome
    cases hsome
  | some body =>
    obtain ⟨hcs, hline⟩ := unwrap?_eq_some.1 hbody
    have hlast : (marked marks cs).getLast? = some ']' := by rw [hcs]; simp
    cases marks with
    | nil => exact absurd ⟨⟨body ++ [']'], by rw [← List.append_assoc]; exact hcs.symm⟩, hlast⟩ h.noWrapper
    | cons mark marks =>
      cases mark with
      | question => simp [marked, Mark.write] at hlast
      | alternative name absent =>
        have hname : ∀ name ∈ absentNames, name.toList.getLast? ≠ some ']' := by decide
        have hsplit : marked (.alternative name absent :: marks) cs =
            (marked marks cs ++ [' ', '|', ' ']) ++ name.toList := by
          simp [marked, Mark.write]
        rw [hsplit, List.getLast?_append_of_ne_nil _ (proper_of_absent absent).ne_nil] at hlast
        exact absurd hlast (hname name absent)
      | wrapper =>
        have hrest : wrapper ++ marked marks cs ++ [']'] = wrapper ++ body ++ [']'] := hcs
        obtain rfl := List.append_cancel_left (List.append_cancel_right hrest)
        exact .inl ⟨marks, rfl, mt (newline_mem_marked marks cs).2 hline, (h.tight_marked marks).1.trim_eq⟩

/-- **Which marks are stripped from a type.** -/
theorem strip_marked_iff (h : Plain cs) (marks : List Mark) :
    strip (marked marks cs) = strip cs ↔ Strips cs marks := by
  have hstrip : ∀ marks, strip (marked marks cs) = joined (alternatives cs) ↔ Strips cs marks := by
    intro marks
    rw [strip_eq]
    rcases h.unwrapped_marked marks with ⟨rest, rfl, hline, hrest⟩ | ⟨hline, hmarks⟩
    · rw [hrest, h.withoutAbsent_marked, h.dropMark_marked_iff]
      exact (and_iff_right hline).symm
    · rw [hmarks, h.withoutAbsent_marked, h.dropMark_marked_iff]
      unfold Strips
      split
      · rename_i rest
        exact iff_of_false (by simp [areStripped]) fun hboth => hboth.1 (hline rest rfl)
      · rfl
  have hplain : strip cs = joined (alternatives cs) := (hstrip []).2 rfl
  rw [hplain, hstrip]

theorem required_ofList (h : Tight cs) : required (String.ofList cs) = String.ofList (strip cs) := by
  rw [required, String.toList_ofList, h.trim_eq]

theorem required_required (name : String) :
    required (required name) = String.ofList (strip (strip (trim name.toList))) :=
  required_ofList (tight_strip (tight_trim _))

/-- A configuration that has no groups of equivalent types. -/
def ungrouped : Config := ⟨[], [], [], [], [], 1⟩

theorem compatible_ungrouped {left right : String} :
    compatible ungrouped left right = true ↔ required left = required right := by
  unfold compatible agree
  simp [ungrouped, Config.typeGroup?]

/-- **What stripping leaves.** A stripped type is stripped again just if it is still marked, and a type in
marks compares like the plain type just if the marks are a wrapper around alternatives around a question
mark. -/
theorem marks_stripped_iff (name : String) (cs : List Char) (marks : List Mark) :
    (required (required name) = required name ↔ ¬ Marked (required name).toList) ∧
    (Plain cs → ((∀ config other, compatible config (String.ofList (marked marks cs)) other =
      compatible config (String.ofList cs) other) ↔ Strips cs marks)) := by
  constructor
  · rw [required_required, required, String.ofList_inj, String.toList_ofList]
    exact strip_strip_iff _
  · intro h
    have hmarked : required (String.ofList (marked marks cs)) = String.ofList (strip (marked marks cs)) :=
      required_ofList (h.tight_marked marks).1
    have hplain : required (String.ofList cs) = String.ofList (strip cs) := required_ofList h.tight
    rw [← strip_marked_iff h, ← String.ofList_inj, ← hmarked, ← hplain]
    constructor
    · -- without groups only equal types are compatible
      intro hall
      refine compatible_ungrouped.1 ?_
      rw [hall]
      exact compatible_ungrouped.2 rfl
    · intro heq config other
      unfold compatible
      rw [heq]

/-- A wrapper around an alternative around a question mark. -/
theorem marks_stripped_nested : Plain "string".toList ∧
    ∀ config other, compatible config "Optional[string? | null]" other = compatible config "string" other := by
  have hplain : Plain "string".toList :=
    ⟨⟨by rintro _ ⟨⟩; rfl, by rintro _ ⟨⟩; rfl⟩, by decide, by decide, by decide⟩
  have hstripped :=
    (marks_stripped_iff "string" _ [.wrapper, .alternative "null" (by decide), .question]).2 hplain
  exact ⟨hplain, hstripped.2 ⟨by decide, rfl⟩⟩

/-- Marks in another order are left: stripping is not idempotent, and a type in marks is not compatible with the
plain one. -/
theorem marks_left : required "string??" = "string?" ∧ required (required "string??") = "string" ∧
    compatible Config.default "Optional[string] | null" "string" = false := by
  decide +kernel

end TypeName
end ChangeImpact
