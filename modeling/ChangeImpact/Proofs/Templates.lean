import ChangeImpact.Proofs.Segments
import Mathlib.Data.List.Forall2

/-!
# Route templates

A route has many spellings: slashes may be repeated, letters may be capital, and a parameter has a style and a
name. What a spelling means is a template, a list of literals and parameters, and normalizing a path finds exactly
this.

* `isParameter_iff`: a segment is a parameter if one of the styles writes it.
* `Segment`, `WrittenPath`: the segments of templates, and the ways to write a path.
* `WrittenPath.ofValue_text`: **the normal form of a written path.**
* `WrittenPath.normal_form_iff_agree`: **two paths have one normal form exactly if they agree segment by
  segment**, and a normal form stays as it is.
-/

namespace ChangeImpact

namespace Text

/-! ## ASCII texts -/

/-- A property of all ASCII characters, looked up code by code. -/
theorem ascii_forall {P : Char → Prop} (h : ∀ n < 0x80, P (Char.ofNat n)) {c : Char} (hc : c.toNat < 0x80) :
    P c := by
  have := h c.toNat hc
  rwa [Char.ofNat_toNat] at this

theorem lowerChar_of_ascii {c : Char} (hc : c.toNat < 0x80) (before after : List Char) :
    lowerChar before c after = [c.toLower] := by
  have hletter : (if 0x41 ≤ c.toNat && c.toNat ≤ 0x5a then Char.ofNat (c.toNat + 0x20) else c) = c.toLower :=
    ascii_forall (P := fun c => (if 0x41 ≤ c.toNat && c.toNat ≤ 0x5a then Char.ofNat (c.toNat + 0x20) else c) =
      c.toLower) (by decide +kernel) hc
  unfold lowerChar
  rw [if_pos hc, hletter]

/-- The small form of an ASCII text. -/
theorem lower_of_ascii {cs : List Char} (h : ∀ c ∈ cs, c.toNat < 0x80) : lower cs = cs.map Char.toLower := by
  have hfrom : ∀ before, lowerFrom before cs = cs.map Char.toLower := by
    induction cs with
    | nil => exact fun _ => rfl
    | cons c cs ih =>
      intro before
      have htail := ih (fun d hd => h d (List.mem_cons_of_mem _ hd)) (c :: before)
      rw [lowerFrom, lowerChar_of_ascii (h c List.mem_cons_self), htail]
      rfl
  exact hfrom []

end Text

namespace Route

open Text

/-! ## Parameters -/

/-- The styles of writing a parameter: in braces, behind a colon, in angle brackets, in square brackets, and
in braces behind a dollar sign. -/
inductive Style where
  | brace
  | colon
  | angle
  | bracket
  | dollar
deriving DecidableEq, Repr

namespace Style

/-- A parameter with a name. -/
def spell (name : List Char) : Style → List Char
  | .brace => '\x7b' :: (name ++ ['\x7d'])
  | .colon => ':' :: name
  | .angle => '<' :: (name ++ ['>'])
  | .bracket => '[' :: (name ++ [']'])
  | .dollar => '$' :: '\x7b' :: (name ++ ['\x7d'])

/-- A name that a style can write. An angle bracket may hold a type and a name. -/
def admits (name : List Char) : Style → Bool
  | .brace | .dollar => !name.contains '\x7d'
  | .colon => !name.isEmpty
  | .angle => !name.isEmpty && !name.contains '>'
  | .bracket => !name.isEmpty && !name.contains ']'

end Style

theorem isEnclosed_iff {first last : Char} {least : Nat} {s : List Char} :
    isEnclosed first last least s = true ↔
      ∃ name, s = first :: (name ++ [last]) ∧ last ∉ name ∧ least ≤ name.length := by
  constructor
  · intro h
    cases s with
    | nil => cases h
    | cons c cs =>
      unfold isEnclosed at h
      rw [Bool.and_eq_true, beq_iff_eq] at h
      obtain ⟨rfl, h⟩ := h
      cases hcs : cs.reverse with
      | nil => rw [hcs] at h; cases h
      | cons d body =>
        rw [hcs] at h
        simp only [Bool.and_eq_true, beq_iff_eq, decide_eq_true_eq, Bool.not_eq_true'] at h
        obtain ⟨⟨rfl, hbody⟩, hleast⟩ := h
        have hback := List.reverse_eq_cons_iff.1 hcs
        refine ⟨body.reverse, by rw [hback], by simpa using hbody, by simpa using hleast⟩
  · rintro ⟨name, rfl, hlast, hleast⟩
    unfold isEnclosed
    simp [hlast, hleast]

theorem dropLineFeed_eq_self {s : List Char} (h : '\n' ∉ s) : dropLineFeed s = s := by
  unfold dropLineFeed
  split
  · rename_i rest hrev
    exact absurd (List.mem_reverse.1 (hrev ▸ List.mem_cons_self)) h
  · rfl

/-- **A segment is a parameter if a style writes it.** -/
theorem isParameter_iff {s : List Char} (h : '\n' ∉ s) :
    isParameter s = true ↔ ∃ (style : Style) (name : List Char),
      style.admits name = true ∧ s = style.spell name := by
  unfold isParameter
  split
  · rename_i c name
    exact ⟨fun _ => ⟨.colon, c :: name, rfl, rfl⟩, fun _ => rfl⟩
  · rename_i hcolon
    simp only [dropLineFeed_eq_self h, Bool.or_eq_true]
    constructor
    · rintro (((hs | hs) | hs) | hs)
      · obtain ⟨name, rfl, hname, -⟩ := isEnclosed_iff.1 hs
        exact ⟨.brace, name, by simpa [Style.admits] using hname, rfl⟩
      · obtain ⟨name, rfl, hname, hlength⟩ := isEnclosed_iff.1 hs
        have hne : name ≠ [] := List.length_pos_iff.1 hlength
        exact ⟨.angle, name, by simp [Style.admits, hname, hne], rfl⟩
      · obtain ⟨name, rfl, hname, hlength⟩ := isEnclosed_iff.1 hs
        have hne : name ≠ [] := List.length_pos_iff.1 hlength
        exact ⟨.bracket, name, by simp [Style.admits, hname, hne], rfl⟩
      · split at hs
        · obtain ⟨name, rfl, hname, -⟩ := isEnclosed_iff.1 hs
          exact ⟨.dollar, name, by simpa [Style.admits] using hname, rfl⟩
        · cases hs
    · rintro ⟨style, name, hadmits, rfl⟩
      cases style with
      | brace =>
        have hname : '\x7d' ∉ name := by simpa [Style.admits] using hadmits
        exact .inl (.inl (.inl (isEnclosed_iff.2 ⟨name, rfl, hname, Nat.zero_le _⟩)))
      | colon =>
        -- a name behind a colon was looked at first
        have hne : name ≠ [] := by simpa [Style.admits] using hadmits
        obtain ⟨c, name, rfl⟩ := List.exists_cons_of_ne_nil hne
        exact absurd rfl (hcolon c name)
      | angle =>
        have hname : name ≠ [] ∧ '>' ∉ name := by simpa [Style.admits] using hadmits
        exact .inl (.inl (.inr (isEnclosed_iff.2 ⟨name, rfl, hname.2, List.length_pos_iff.2 hname.1⟩)))
      | bracket =>
        have hname : name ≠ [] ∧ ']' ∉ name := by simpa [Style.admits] using hadmits
        exact .inl (.inr (isEnclosed_iff.2 ⟨name, rfl, hname.2, List.length_pos_iff.2 hname.1⟩))
      | dollar =>
        have hname : '\x7d' ∉ name := by simpa [Style.admits] using hadmits
        exact .inr (isEnclosed_iff.2 ⟨name, rfl, hname, Nat.zero_le _⟩)

/-! ## Segments in small letters -/

/-- A character that may stand in a segment: an ASCII character that is no blank and ends neither a segment nor
a path. -/
def isSegmentChar (c : Char) : Bool :=
  c.toNat < 0x80 && !isBlank c && c != '/' && c != '?' && c != '#'

theorem ascii_of_isSegmentChar {c : Char} (h : isSegmentChar c = true) : c.toNat < 0x80 := by
  simp only [isSegmentChar, Bool.and_eq_true, decide_eq_true_eq] at h
  exact h.1.1.1.1

/-- The small form of a character of a segment may stand there too. -/
theorem isSegmentChar_toLower {c : Char} (h : isSegmentChar c = true) : isSegmentChar c.toLower = true :=
  ascii_forall (P := fun c => isSegmentChar c = true → isSegmentChar c.toLower = true) (by decide +kernel)
    (ascii_of_isSegmentChar h) h

/-- A small form is its own small form. -/
theorem toLower_toLower {c : Char} (h : isSegmentChar c = true) : c.toLower.toLower = c.toLower :=
  ascii_forall (P := fun c => c.toLower.toLower = c.toLower) (by decide +kernel) (ascii_of_isSegmentChar h)

/-- The marks around the names of parameters. -/
def marks : List Char := ['\x7b', '\x7d', ':', '<', '>', '[', ']', '$']

/-- Small letters are no marks. -/
theorem toLower_eq_iff {c m : Char} (h : isSegmentChar c = true) (hm : m ∈ marks) : c.toLower = m ↔ c = m := by
  have hall := ascii_forall (P := fun c => (marks.all fun m => (c.toLower == m) == (c == m)) = true)
    (by decide +kernel) (ascii_of_isSegmentChar h)
  have hsame : (c.toLower == m) = (c == m) := eq_of_beq (List.all_eq_true.1 hall m hm)
  rw [← beq_iff_eq, hsame, beq_iff_eq]

theorem mem_map_toLower {m : Char} {cs : List Char} (h : ∀ c ∈ cs, isSegmentChar c = true) (hm : m ∈ marks) :
    m ∈ cs.map Char.toLower ↔ m ∈ cs := by
  rw [List.mem_map]
  constructor
  · rintro ⟨c, hc, heq⟩
    rw [toLower_eq_iff (h c hc) hm] at heq
    exact heq ▸ hc
  · intro hmem
    exact ⟨m, hmem, (toLower_eq_iff (h m hmem) hm).2 rfl⟩

namespace Style

variable {style : Style} {name : List Char}

theorem spell_ne_nil : style.spell name ≠ [] := by
  cases style <;> exact List.cons_ne_nil _ _

/-- A parameter holds its name and marks. -/
theorem mem_spell {c : Char} (h : c ∈ style.spell name) : c ∈ name ∨ c ∈ marks := by
  cases style <;> simp only [spell, List.mem_cons, List.mem_append, List.not_mem_nil, or_false] at h <;>
    simp only [marks, List.mem_cons, List.not_mem_nil, or_false] <;> tauto

theorem mem_spell_of_mem {c : Char} (h : c ∈ name) : c ∈ style.spell name := by
  cases style <;> simp [spell, h]

/-- A style writes a name in small letters as it writes the name. -/
theorem admits_map_toLower (h : ∀ c ∈ name, isSegmentChar c = true) :
    style.admits (name.map Char.toLower) = style.admits name := by
  have hcontains : ∀ m ∈ marks, (name.map Char.toLower).contains m = name.contains m := by
    intro m hm
    rw [Bool.eq_iff_iff, List.contains_iff_mem, List.contains_iff_mem, mem_map_toLower h hm]
  cases style <;> simp only [admits, List.isEmpty_map, hcontains '\x7d' (by decide), hcontains '>' (by decide),
    hcontains ']' (by decide)]

theorem map_toLower_spell : (style.spell name).map Char.toLower = style.spell (name.map Char.toLower) := by
  cases style <;> simp [spell]

theorem eq_of_map_toLower_eq_cons {m : Char} {cs rest : List Char} (h : ∀ c ∈ cs, isSegmentChar c = true)
    (hm : m ∈ marks) (heq : cs.map Char.toLower = m :: rest) :
    ∃ ds, cs = m :: ds ∧ ds.map Char.toLower = rest := by
  obtain ⟨c, ds, rfl, hc, hds⟩ := List.map_eq_cons_iff.1 heq
  rw [toLower_eq_iff (h c List.mem_cons_self) hm] at hc
  exact ⟨ds, by rw [hc], hds⟩

theorem eq_of_map_toLower_eq_concat {m : Char} {cs body : List Char} (h : ∀ c ∈ cs, isSegmentChar c = true)
    (hm : m ∈ marks) (heq : cs.map Char.toLower = body ++ [m]) :
    ∃ ds, cs = ds ++ [m] ∧ ds.map Char.toLower = body := by
  obtain ⟨ds, es, rfl, hds, hes⟩ := List.map_eq_append_iff.1 heq
  obtain ⟨rest, rfl, hrest⟩ := eq_of_map_toLower_eq_cons (fun c hc => h c (List.mem_append_right _ hc)) hm hes
  obtain rfl := List.map_eq_nil_iff.1 hrest
  exact ⟨ds, rfl, hds⟩

/-- What a style writes in small letters was written in that style. -/
theorem eq_spell_of_map_toLower {s small : List Char} (h : ∀ c ∈ s, isSegmentChar c = true)
    (heq : s.map Char.toLower = style.spell small) :
    ∃ name, s = style.spell name ∧ name.map Char.toLower = small := by
  cases style with
  | colon =>
    obtain ⟨name, rfl, hname⟩ := eq_of_map_toLower_eq_cons h (by decide) heq
    exact ⟨name, rfl, hname⟩
  | dollar =>
    obtain ⟨rest, rfl, hrest⟩ := eq_of_map_toLower_eq_cons h (by decide) heq
    have h₁ : ∀ c ∈ rest, isSegmentChar c = true := fun c hc => h c (List.mem_cons_of_mem _ hc)
    obtain ⟨body, rfl, hbody⟩ := eq_of_map_toLower_eq_cons h₁ (by decide) hrest
    have h₂ : ∀ c ∈ body, isSegmentChar c = true := fun c hc => h₁ c (List.mem_cons_of_mem _ hc)
    obtain ⟨name, rfl, hname⟩ := eq_of_map_toLower_eq_concat h₂ (by decide) hbody
    exact ⟨name, rfl, hname⟩
  | _ =>
    obtain ⟨body, rfl, hbody⟩ := eq_of_map_toLower_eq_cons h (by decide) heq
    have h₁ : ∀ c ∈ body, isSegmentChar c = true := fun c hc => h c (List.mem_cons_of_mem _ hc)
    obtain ⟨name, rfl, hname⟩ := eq_of_map_toLower_eq_concat h₁ (by decide) hbody
    exact ⟨name, rfl, hname⟩

end Style

theorem isSegmentChar_of_mem_small {s : List Char} (h : ∀ c ∈ s, isSegmentChar c = true) :
    ∀ c ∈ s.map Char.toLower, isSegmentChar c = true := by
  intro c hc
  obtain ⟨d, hd, rfl⟩ := List.mem_map.1 hc
  exact isSegmentChar_toLower (h d hd)

theorem lineFeed_not_mem {s : List Char} (h : ∀ c ∈ s, isSegmentChar c = true) : '\n' ∉ s :=
  fun hmem => absurd (h '\n' hmem) (by decide)

/-- Small letters make no parameter out of a segment that is none. -/
theorem isParameter_map_toLower {s : List Char} (h : ∀ c ∈ s, isSegmentChar c = true) :
    isParameter (s.map Char.toLower) = isParameter s := by
  have hsmall := lineFeed_not_mem (isSegmentChar_of_mem_small h)
  rw [Bool.eq_iff_iff, isParameter_iff hsmall, isParameter_iff (lineFeed_not_mem h)]
  constructor
  · rintro ⟨style, small, hadmits, heq⟩
    obtain ⟨name, rfl, rfl⟩ := Style.eq_spell_of_map_toLower h heq
    have hname : ∀ c ∈ name, isSegmentChar c = true := fun c hc => h c (Style.mem_spell_of_mem hc)
    exact ⟨style, name, (Style.admits_map_toLower hname).symm.trans hadmits, rfl⟩
  · rintro ⟨style, name, hadmits, rfl⟩
    have hname : ∀ c ∈ name, isSegmentChar c = true := fun c hc => h c (Style.mem_spell_of_mem hc)
    exact ⟨style, name.map Char.toLower, (Style.admits_map_toLower hname).trans hadmits,
      Style.map_toLower_spell⟩

/-! ## Written paths -/

/-- A segment of a template: a literal that no style of parameters writes, or a parameter. -/
inductive Segment where
  | literal (text : List Char) (nonempty : text ≠ []) (plain : ∀ c ∈ text, isSegmentChar c = true)
      (noParameter : ∀ (style : Style) (name : List Char), style.admits name = true → text ≠ style.spell name)
  | parameter (style : Style) (name : List Char) (plain : ∀ c ∈ name, isSegmentChar c = true)
      (admitted : style.admits name = true)

namespace Segment

/-- A segment as it is written. -/
def text : Segment → List Char
  | .literal text _ _ _ => text
  | .parameter style name _ _ => style.spell name

/-- Two segments that mean the same: both are parameters, or both are literals and differ at most in the case
of letters. -/
def Agrees : Segment → Segment → Prop
  | .parameter .., .parameter .. => True
  | .literal a _ _ _, .literal b _ _ _ => a.map Char.toLower = b.map Char.toLower
  | _, _ => False

theorem text_ne_nil (s : Segment) : s.text ≠ [] := by
  cases s with
  | literal text nonempty _ _ => exact nonempty
  | parameter style name _ _ => exact Style.spell_ne_nil

theorem isSegmentChar_of_mem {s : Segment} {c : Char} (h : c ∈ s.text) : isSegmentChar c = true := by
  cases s with
  | literal text _ plain _ => exact plain c h
  | parameter style name plain _ =>
    have hmarks : ∀ m ∈ marks, isSegmentChar m = true := List.all_eq_true.1 (by decide)
    rcases Style.mem_spell h with hc | hc
    · exact plain c hc
    · exact hmarks c hc

/-- No style writes the small letters of a literal. -/
theorem small_ne_spell {text : List Char} (plain : ∀ c ∈ text, isSegmentChar c = true)
    (noParameter : ∀ (style : Style) (name : List Char), style.admits name = true → text ≠ style.spell name)
    (style : Style) (small : List Char) (hadmits : style.admits small = true) :
    text.map Char.toLower ≠ style.spell small := by
  intro heq
  obtain ⟨name, rfl, rfl⟩ := Style.eq_spell_of_map_toLower plain heq
  have hname : ∀ c ∈ name, isSegmentChar c = true := fun c hc => plain c (Style.mem_spell_of_mem hc)
  exact noParameter style name ((Style.admits_map_toLower hname).symm.trans hadmits) rfl

/-- The normal form of a segment: a parameter without a name, a literal in small letters. -/
def normal : Segment → Segment
  | .parameter _ _ _ _ => .parameter .brace [] (by simp) rfl
  | .literal text nonempty plain noParameter =>
    .literal (text.map Char.toLower) (by simpa using nonempty) (isSegmentChar_of_mem_small plain)
      (small_ne_spell plain noParameter)

/-- **The normal form of a segment is found from its text.** -/
theorem anonymize_text (s : Segment) : anonymize (s.text.map Char.toLower) = s.normal.text := by
  have hplain : ∀ c ∈ s.text, isSegmentChar c = true := fun c hc => isSegmentChar_of_mem hc
  unfold anonymize
  rw [isParameter_map_toLower hplain]
  cases s with
  | literal text _ _ noParameter =>
    rw [if_neg]
    · rfl
    · intro h
      obtain ⟨style, name, hadmits, heq⟩ := (isParameter_iff (lineFeed_not_mem hplain)).1 h
      exact noParameter style name hadmits heq
  | parameter style name _ admitted =>
    rw [if_pos ((isParameter_iff (lineFeed_not_mem hplain)).2 ⟨style, name, admitted, rfl⟩)]
    rfl

theorem normal_normal_text (s : Segment) : s.normal.normal.text = s.normal.text := by
  cases s with
  | parameter => rfl
  | literal text _ plain _ =>
    show (text.map Char.toLower).map Char.toLower = text.map Char.toLower
    rw [List.map_map]
    exact List.map_congr_left fun c hc => toLower_toLower (plain c hc)

/-- Segments mean the same if they have one normal form. -/
theorem agrees_iff {s t : Segment} : Agrees s t ↔ s.normal.text = t.normal.text := by
  cases s with
  | parameter =>
    cases t with
    | parameter => exact iff_of_true trivial rfl
    | literal text _ plain noParameter =>
      exact iff_of_false id (small_ne_spell plain noParameter .brace [] rfl).symm
  | literal text _ plain noParameter =>
    cases t with
    | parameter => exact iff_of_false id (small_ne_spell plain noParameter .brace [] rfl)
    | literal => exact Iff.rfl

end Segment

/-- Parts of a path, each behind one slash and some more, with slashes at the end. -/
def spread (parts : List (Nat × List Char)) (trailing : Nat) : List Char :=
  (parts.flatMap fun p => List.replicate p.1 '/' ++ '/' :: p.2) ++ List.replicate trailing '/'

/-- A path as it is written: its segments, with the number of slashes before each one that are one too many, the
number of slashes at its end, and a query or a fragment. -/
structure WrittenPath where
  pieces : List (Nat × Segment)
  trailing : Nat
  tail : List Char
  /-- A path without segments is a slash at least. -/
  rooted : pieces = [] → 0 < trailing
  marked : ∀ c ∈ tail.head?, c = '?' ∨ c = '#'

theorem spread_cons (p : Nat × List Char) (parts : List (Nat × List Char)) (trailing : Nat) :
    spread (p :: parts) trailing = List.replicate p.1 '/' ++ '/' :: (p.2 ++ spread parts trailing) := by
  unfold spread
  simp

theorem map_toLower_spread (parts : List (Nat × List Char)) (trailing : Nat) :
    (spread parts trailing).map Char.toLower =
      spread (parts.map fun p => (p.1, p.2.map Char.toLower)) trailing := by
  induction parts with
  | nil => simp [spread]
  | cons p parts ih => rw [List.map_cons, spread_cons, spread_cons, ← ih]; simp

theorem mem_spread {parts : List (Nat × List Char)} {trailing : Nat} {c : Char}
    (h : c ∈ spread parts trailing) : c = '/' ∨ ∃ p ∈ parts, c ∈ p.2 := by
  unfold spread at h
  rcases List.mem_append.1 h with h | h
  · obtain ⟨p, hp, hc⟩ := List.mem_flatMap.1 h
    rcases List.mem_append.1 hc with hc | hc
    · exact .inl (List.eq_of_mem_replicate hc)
    · rcases List.mem_cons.1 hc with hc | hc
      · exact .inl hc
      · exact .inr ⟨p, hp, hc⟩
  · exact .inl (List.eq_of_mem_replicate h)

theorem segments_replicate (n : Nat) (cs : List Char) : segments (List.replicate n '/' ++ cs) = segments cs := by
  induction n with
  | zero => rfl
  | succ n ih => rw [List.replicate_succ, List.cons_append, segments_slash, ih]

theorem spread_cases (parts : List (Nat × List Char)) (trailing : Nat) :
    spread parts trailing = [] ∨ ∃ cs, spread parts trailing = '/' :: cs := by
  cases parts with
  | nil =>
    cases trailing with
    | zero => exact .inl rfl
    | succ n => exact .inr ⟨List.replicate n '/', rfl⟩
  | cons p parts =>
    right
    rw [spread_cons]
    cases p.1 with
    | zero => exact ⟨_, rfl⟩
    | succ n => exact ⟨_, rfl⟩

/-- **What is written between the slashes are the segments.** -/
theorem segments_spread {parts : List (Nat × List Char)} (h : ∀ p ∈ parts, p.2 ≠ [] ∧ '/' ∉ p.2)
    (trailing : Nat) : segments (spread parts trailing) = parts.map Prod.snd := by
  induction parts with
  | nil =>
    have := segments_replicate trailing []
    rw [List.append_nil] at this
    exact this
  | cons p parts ih =>
    obtain ⟨hne, hslash⟩ := h p List.mem_cons_self
    have htail := ih fun q hq => h q (List.mem_cons_of_mem _ hq)
    rw [spread_cons, segments_replicate, segments_slash, List.map_cons, ← htail]
    -- the segment ends with the path or before the next slash
    rcases spread_cases parts trailing with hrest | ⟨cs, hrest⟩
    · rw [hrest, List.append_nil, segments_of_not_mem hslash hne, segments_nil]
    · rw [hrest, segments_part_slash hslash hne, segments_slash]

/-- Parts behind single slashes. -/
theorem spread_single {parts : List (List Char)} (hne : parts ≠ []) :
    spread (parts.map fun t => (0, t)) 0 = '/' :: ['/'].intercalate parts := by
  induction parts with
  | nil => exact absurd rfl hne
  | cons t parts ih =>
    rw [List.map_cons, spread_cons]
    by_cases h : parts = []
    · subst h
      simp [spread]
    · rw [ih h, List.intercalate_cons_of_ne_nil h]
      simp

/-! ## Queries and fragments -/

/-- Blanks at the end of a text do not reach behind a character that is none. -/
theorem trim_append {path tail : List Char} (hpath : ∀ c ∈ path, isBlank c = false) (hne : path ≠ [])
    (htail : ∀ c ∈ tail.head?, c = '?' ∨ c = '#') :
    ∃ rest, trim (path ++ tail) = path ++ rest ∧ ∀ c ∈ rest.head?, c = '?' ∨ c = '#' := by
  obtain ⟨c, cs, rfl⟩ := List.exists_cons_of_ne_nil hne
  have hstart : (c :: cs ++ tail).dropWhile isBlank = c :: cs ++ tail :=
    List.dropWhile_cons_of_neg (by simp [hpath c List.mem_cons_self])
  unfold trim trimWhile
  rw [hstart]
  cases tail with
  | nil =>
    refine ⟨[], ?_, by simp⟩
    obtain ⟨init, d, hinit⟩ : ∃ init d, c :: cs = init ++ [d] :=
      ⟨_, _, (List.dropLast_concat_getLast (List.cons_ne_nil c cs)).symm⟩
    have hd : isBlank d = false := hpath d (by rw [hinit]; simp)
    rw [List.append_nil, hinit, dropWhileEnd_append_cons hd]
    rfl
  | cons m query =>
    have hm : m = '?' ∨ m = '#' := htail m rfl
    have hblank : isBlank m = false := by rcases hm with rfl | rfl <;> decide
    exact ⟨m :: dropWhileEnd isBlank query, dropWhileEnd_append_cons hblank (c :: cs) query,
      fun c hc => by rwa [← Option.some.inj hc]⟩

/-- A path is what stands before its query and its fragment. -/
theorem beforeFirst_append {path rest : List Char} (hpath : ∀ c ∈ path, c ≠ '?' ∧ c ≠ '#')
    (hrest : ∀ c ∈ rest.head?, c = '?' ∨ c = '#') :
    beforeFirst '#' (beforeFirst '?' (path ++ rest)) = path := by
  have hquery : beforeFirst '?' (path ++ rest) = path ++ rest.takeWhile (· != '?') :=
    List.takeWhile_append_of_pos fun c hc => by simpa using (hpath c hc).1
  have hfragment : ∀ more, beforeFirst '#' (path ++ more) = path ++ more.takeWhile (· != '#') :=
    fun more => List.takeWhile_append_of_pos fun c hc => by simpa using (hpath c hc).2
  rw [hquery, hfragment]
  cases rest with
  | nil => simp
  | cons m rest =>
    rcases hrest m rfl with rfl | rfl
    · simp
    · simp

namespace WrittenPath

/-- The segments of a written path. -/
def segments (w : WrittenPath) : List Segment := w.pieces.map Prod.snd

/-- What stands before a query or a fragment. -/
def path (w : WrittenPath) : List Char := spread (w.pieces.map fun p => (p.1, p.2.text)) w.trailing

/-- A path as it is written. -/
def text (w : WrittenPath) : String := String.ofList (w.path ++ w.tail)

variable (w : WrittenPath)

theorem isSegmentChar_of_mem_path {c : Char} (h : c ∈ w.path) : c = '/' ∨ isSegmentChar c = true := by
  rcases mem_spread h with hc | ⟨p, hp, hc⟩
  · exact .inl hc
  · obtain ⟨q, -, rfl⟩ := List.mem_map.1 hp
    exact .inr (Segment.isSegmentChar_of_mem hc)

theorem path_eq_cons : ∃ cs, w.path = '/' :: cs := by
  unfold path
  cases hpieces : w.pieces with
  | nil =>
    obtain ⟨n, hn⟩ := Nat.exists_eq_succ_of_ne_zero (w.rooted hpieces).ne'
    exact ⟨List.replicate n '/', by rw [hn]; rfl⟩
  | cons p pieces =>
    rcases spread_cases ((p :: pieces).map fun p => (p.1, p.2.text)) w.trailing with h | h
    · rw [List.map_cons, spread_cons] at h
      simp at h
    · exact h

/-- The segments of a written path in small letters. -/
theorem segments_small : Route.segments (w.path.map Char.toLower) =
    w.segments.map fun s => s.text.map Char.toLower := by
  unfold path segments
  rw [map_toLower_spread, List.map_map, segments_spread, List.map_map, List.map_map]
  · rfl
  · intro p hp
    obtain ⟨q, -, rfl⟩ := List.mem_map.1 hp
    have hplain := isSegmentChar_of_mem_small fun c hc => Segment.isSegmentChar_of_mem (s := q.2) hc
    exact ⟨by simpa using q.2.text_ne_nil, fun hslash => absurd (hplain '/' hslash) (by decide)⟩

/-- **The normal form of a written path** is joined from the normal forms of its segments. -/
theorem ofValue_text : ofValue [] (.str w.text) =
    .ok (String.ofList ('/' :: ['/'].intercalate (w.segments.map fun s => s.normal.text))) := by
  obtain ⟨cs, hpath⟩ := w.path_eq_cons
  have hchars : ∀ c ∈ w.path, c.toNat < 0x80 ∧ isBlank c = false ∧ c ≠ '?' ∧ c ≠ '#' := by
    intro c hc
    rcases w.isSegmentChar_of_mem_path hc with rfl | hplain
    · decide
    · simp only [isSegmentChar, Bool.and_eq_true, decide_eq_true_eq, Bool.not_eq_true', bne_iff_ne] at hplain
      exact ⟨hplain.1.1.1.1, hplain.1.1.1.2, hplain.1.2, hplain.2⟩
  obtain ⟨rest, htrim, hrest⟩ := trim_append (fun c hc => (hchars c hc).2.1) (by rw [hpath]; simp) w.marked
  have hcut : beforeFirst '#' (beforeFirst '?' (trim w.text.toList)) = w.path := by
    unfold text
    rw [String.toList_ofList, htrim]
    exact beforeFirst_append (fun c hc => (hchars c hc).2.2) hrest
  have hhost : dropHost (w.path.map Char.toLower) = w.path.map Char.toLower := by
    rw [hpath]; rfl
  have hnormal : (w.segments.map fun s => s.text.map Char.toLower).map anonymize =
      w.segments.map fun s => s.normal.text := by
    rw [List.map_map]
    exact List.map_congr_left fun s _ => s.anonymize_text
  rw [ofValue_str, normalize_eq, hcut, lower_of_ascii fun c hc => (hchars c hc).1, hhost, w.segments_small,
    List.map_nil, withoutLead_nil, hnormal]

/-- The normal form of a written path, as it is written. -/
def normal : WrittenPath where
  pieces := w.segments.map fun s => (0, s.normal)
  trailing := if w.segments.isEmpty then 1 else 0
  tail := []
  rooted h := by
    rw [List.map_eq_nil_iff] at h
    simp [h]
  marked := by simp

theorem text_normal :
    w.normal.text = String.ofList ('/' :: ['/'].intercalate (w.segments.map fun s => s.normal.text)) := by
  have hpath : w.normal.path = '/' :: ['/'].intercalate (w.segments.map fun s => s.normal.text) := by
    by_cases h : w.segments = []
    · simp [path, normal, h, spread]
    · have htrailing : w.normal.trailing = 0 := by simp [normal, h]
      have hparts : (w.normal.pieces.map fun p => (p.1, p.2.text)) =
          (w.segments.map fun s => s.normal.text).map fun t => (0, t) := by
        unfold normal
        rw [List.map_map, List.map_map]
        rfl
      unfold path
      rw [htrailing, hparts, spread_single (by simpa using h)]
  unfold text
  rw [hpath]
  exact congrArg String.ofList (List.append_nil _)

theorem normal_parts : ∀ t ∈ w.segments.map fun s => s.normal.text, t ≠ [] ∧ '/' ∉ t := by
  intro t ht
  obtain ⟨s, -, rfl⟩ := List.mem_map.1 ht
  exact ⟨s.normal.text_ne_nil, fun hslash => absurd (Segment.isSegmentChar_of_mem hslash) (by decide)⟩

/-- **Paths have one normal form exactly if they agree segment by segment:** they have as many segments,
parameters in the same places, and literals that differ at most in the case of letters. A normal form stays as it
is. -/
theorem normal_form_iff_agree (a b : WrittenPath) :
    (ofValue [] (.str a.text) = ofValue [] (.str b.text) ↔
      List.Forall₂ Segment.Agrees a.segments b.segments) ∧
    ∃ normal, ofValue [] (.str a.text) = .ok normal ∧ ofValue [] (.str normal) = .ok normal := by
  constructor
  · rw [ofValue_text, ofValue_text, Except.ok.injEq, String.ofList_inj, List.cons.injEq, eq_self, true_and]
    have hagree : List.Forall₂ Segment.Agrees a.segments b.segments ↔
        (a.segments.map fun s => s.normal.text) = b.segments.map fun s => s.normal.text := by
      rw [← List.forall₂_eq_eq_eq, List.forall₂_map_left_iff, List.forall₂_map_right_iff]
      exact ⟨fun h => h.imp fun _ _ => Segment.agrees_iff.1, fun h => h.imp fun _ _ => Segment.agrees_iff.2⟩
    rw [hagree]
    refine ⟨fun h => ?_, fun h => by rw [h]⟩
    rw [← segments_intercalate a.normal_parts, h, segments_intercalate b.normal_parts]
  · refine ⟨a.normal.text, by rw [ofValue_text, text_normal], ?_⟩
    have hsegments : (a.normal.segments.map fun s => s.normal.text) = a.segments.map fun s => s.normal.text := by
      unfold segments normal
      rw [List.map_map, List.map_map]
      exact List.map_congr_left fun s _ => s.normal_normal_text
    rw [ofValue_text, text_normal, hsegments]

-- how slashes, letters and parameters are written is lost, what is a parameter is not
example : (ofValue [] (.str "/Users/:id")).toOption = some "/users/\x7b\x7d" ∧
    (ofValue [] (.str "//users//[id]/?full=1")).toOption = some "/users/\x7b\x7d" ∧
    (ofValue [] (.str "/users/me")).toOption = some "/users/me" := by
  decide +kernel

end WrittenPath

end Route

end ChangeImpact
