import ChangeImpact.Contract.Route
import Mathlib.Data.List.DropRight

/-!
# Paths by their segments

A path is normalized as a text: runs of slashes are joined, slashes at the ends are cut off, and a prefix is
compared and cut off character by character. What comes out is a matter of the segments alone.

* `rooted_joinSlashes`: **a path is its segments with one slash before each.**
* `leads_iff`: a prefix leads a path if the segments of the path start with its own.
* `hostless_iff`: what a scheme and a host are.
* `normalize_by_segments`: **prefixes are removed by whole segments, and at most once.**
-/

namespace ChangeImpact

namespace Text

/-! ## Cutting and joining -/

variable {mark : Char} {cs : List Char}

/-- Cutting at a character is splitting on it. -/
theorem splitAt_eq_splitOn (mark : Char) (cs : List Char) : splitAt mark cs = cs.splitOn mark := by
  induction cs with
  | nil => rfl
  | cons c cs ih =>
    rw [splitAt, List.splitOn_cons_eq_if_modifyHead, ← ih]
    split
    · rfl
    · obtain ⟨part, parts, h⟩ : ∃ part parts, splitAt mark cs = part :: parts :=
        List.exists_cons_of_ne_nil (ih ▸ List.splitOn_ne_nil mark cs)
      rw [h]; rfl

theorem splitAt_ne_nil (mark : Char) (cs : List Char) : splitAt mark cs ≠ [] := by
  rw [splitAt_eq_splitOn]; exact List.splitOn_ne_nil mark cs

/-- What is cut at a mark is cut on both sides of it. -/
theorem splitAt_append_mark (mark : Char) (as bs : List Char) :
    splitAt mark (as ++ mark :: bs) = splitAt mark as ++ splitAt mark bs := by
  simp only [splitAt_eq_splitOn]
  exact List.splitOn_append_cons_self as bs

theorem intercalate_splitAt (mark : Char) (cs : List Char) : [mark].intercalate (splitAt mark cs) = cs := by
  rw [splitAt_eq_splitOn, List.intercalate_splitOn]

/-- The parts of a text that was joined from parts without the mark. -/
theorem splitAt_intercalate {parts : List (List Char)} (h : ∀ p ∈ parts, mark ∉ p) (hne : parts ≠ []) :
    splitAt mark ([mark].intercalate parts) = parts := by
  rw [splitAt_eq_splitOn, List.splitOn_intercalate mark h hne]

theorem not_mem_of_mem_splitAt {part : List Char} (h : part ∈ splitAt mark cs) : mark ∉ part := by
  induction cs generalizing part with
  | nil => simp_all [splitAt]
  | cons c cs ih =>
    rw [splitAt] at h
    split at h
    · rcases List.mem_cons.1 h with rfl | h
      · exact List.not_mem_nil
      · exact ih h
    · rename_i hc
      obtain ⟨p, ps, hps⟩ := List.exists_cons_of_ne_nil (splitAt_ne_nil mark cs)
      rw [hps] at h
      rcases List.mem_cons.1 h with rfl | h
      · have hp : mark ∉ p := ih (hps ▸ List.mem_cons_self)
        rw [List.mem_cons, not_or]
        exact ⟨fun heq => hc (by rw [heq]; exact beq_self_eq_true c), hp⟩
      · exact ih (hps ▸ List.mem_cons_of_mem _ h)

theorem dropWhileEnd_eq_rdropWhile (p : Char → Bool) (cs : List Char) :
    dropWhileEnd p cs = cs.rdropWhile p := rfl

/-- A character outside the class keeps all that stands before it. -/
theorem dropWhileEnd_append_cons {p : Char → Bool} {c : Char} (h : p c = false) (as bs : List Char) :
    dropWhileEnd p (as ++ c :: bs) = as ++ c :: dropWhileEnd p bs := by
  induction bs using List.reverseRecOn with
  | nil =>
    rw [dropWhileEnd_eq_rdropWhile, List.rdropWhile_concat_neg _ _ _ (by simp [h])]; rfl
  | append_singleton bs b ih =>
    rw [dropWhileEnd_eq_rdropWhile] at ih ⊢
    rw [dropWhileEnd_eq_rdropWhile, ← List.cons_append, ← List.append_assoc, List.rdropWhile_concat,
      List.rdropWhile_concat, ih]
    split
    · rfl
    · simp

/-- What is left at the end of a text keeps all that stands before it. -/
theorem dropWhileEnd_cons_of_ne_nil {p : Char → Bool} {cs : List Char} (c : Char)
    (h : dropWhileEnd p cs ≠ []) : dropWhileEnd p (c :: cs) = c :: dropWhileEnd p cs := by
  induction cs using List.reverseRecOn with
  | nil => exact absurd rfl h
  | append_singleton cs d ih =>
    rw [dropWhileEnd_eq_rdropWhile, dropWhileEnd_eq_rdropWhile, ← List.cons_append]
    rw [dropWhileEnd_eq_rdropWhile] at h
    by_cases hd : p d = true
    · rw [List.rdropWhile_concat_pos _ _ _ hd] at h ⊢
      rw [List.rdropWhile_concat_pos _ _ _ hd]
      exact ih h
    · rw [List.rdropWhile_concat_neg _ _ _ hd, List.rdropWhile_concat_neg _ _ _ hd]; rfl

theorem dropWhileEnd_cons_of_eq_nil {p : Char → Bool} {cs : List Char} (c : Char)
    (h : dropWhileEnd p cs = []) : dropWhileEnd p (c :: cs) = if p c then [] else [c] := by
  have hall : ∀ d ∈ cs, p d = true := List.rdropWhile_eq_nil_iff.1 h
  split
  · rename_i hc
    exact List.rdropWhile_eq_nil_iff.2 (List.forall_mem_cons.2 ⟨hc, hall⟩)
  · rename_i hc
    have := dropWhileEnd_append_cons (by simpa using hc) [] cs
    rw [List.nil_append, h] at this
    exact this

end Text

namespace Route

open Text

variable {c : Char} {cs as bs : List Char}

/-! ## Segments -/

theorem segments_nil : segments [] = [] := rfl

theorem segments_slash (cs : List Char) : segments ('/' :: cs) = segments cs := rfl

/-- The segments on both sides of a slash. -/
theorem segments_append_slash (as bs : List Char) :
    segments (as ++ '/' :: bs) = segments as ++ segments bs := by
  unfold segments
  rw [splitAt_append_mark, List.filter_append]

/-- A text without slashes is one segment. -/
theorem segments_of_not_mem (h : '/' ∉ cs) (hne : cs ≠ []) : segments cs = [cs] := by
  unfold segments
  rw [splitAt_eq_splitOn, List.splitOn_eq_singleton h]
  exact List.filter_cons_of_pos (by simpa using hne)

theorem segments_part_slash (h : '/' ∉ as) (hne : as ≠ []) (bs : List Char) :
    segments (as ++ '/' :: bs) = as :: segments bs := by
  rw [segments_append_slash, segments_of_not_mem h hne]; rfl

theorem mem_segments {s : List Char} (h : s ∈ segments cs) : s ≠ [] ∧ '/' ∉ s := by
  obtain ⟨hmem, hne⟩ := List.mem_filter.1 h
  exact ⟨by simpa using hne, not_mem_of_mem_splitAt hmem⟩

/-- The segments that joined segments have. -/
theorem segments_intercalate {parts : List (List Char)} (h : ∀ s ∈ parts, s ≠ [] ∧ '/' ∉ s) :
    segments (['/'].intercalate parts) = parts := by
  by_cases hne : parts = []
  · subst hne; rfl
  · unfold segments
    rw [splitAt_intercalate (fun s hs => (h s hs).2) hne, List.filter_eq_self]
    exact fun s hs => by simpa using (h s hs).1

theorem intercalate_segments_ne_nil (h : segments cs ≠ []) : ['/'].intercalate (segments cs) ≠ [] := by
  intro hnil
  apply h
  rw [← segments_intercalate fun s hs => mem_segments hs, hnil, segments_nil]

theorem segments_dropWhile (cs : List Char) : segments (cs.dropWhile (· == '/')) = segments cs := by
  induction cs with
  | nil => rfl
  | cons c cs ih =>
    rw [List.dropWhile_cons]
    split
    · rename_i hc
      rw [ih, beq_iff_eq.1 hc, segments_slash]
    · rfl

/-- A character that is no slash is the first of the first segment. -/
theorem segments_cons (hc : c ≠ '/') (cs : List Char) : ∃ part parts,
    splitAt '/' cs = part :: parts ∧
      segments (c :: cs) = (c :: part) :: parts.filter fun s => !s.isEmpty := by
  obtain ⟨part, parts, h⟩ := List.exists_cons_of_ne_nil (splitAt_ne_nil '/' cs)
  refine ⟨part, parts, h, ?_⟩
  unfold segments
  rw [splitAt, if_neg (by simpa using hc), h]
  rfl

/-! ## Single slashes -/

theorem joinSlashes_cons (hc : c ≠ '/') (cs : List Char) :
    joinSlashes (c :: cs) = c :: joinSlashes cs := by
  rw [joinSlashes, if_neg (by simp [hc])]

theorem dropWhile_joinSlashes (cs : List Char) :
    (joinSlashes cs).dropWhile (· == '/') = joinSlashes (cs.dropWhile (· == '/')) := by
  induction cs with
  | nil => rfl
  | cons c cs ih =>
    by_cases hc : c = '/'
    · subst hc
      rw [joinSlashes, List.dropWhile_cons_of_pos rfl]
      split
      · exact ih
      · rw [List.dropWhile_cons_of_pos rfl]; exact ih
    · rw [joinSlashes_cons hc, List.dropWhile_cons_of_neg (by simpa using hc),
        List.dropWhile_cons_of_neg (by simpa using hc), joinSlashes_cons hc]

/-- **Single slashes stand between the segments**, and before them if there is one in front. -/
theorem dropWhileEnd_joinSlashes (cs : List Char) : dropWhileEnd (· == '/') (joinSlashes cs) =
    if cs.head? = some '/' ∧ segments cs ≠ [] then '/' :: ['/'].intercalate (segments cs)
    else ['/'].intercalate (segments cs) := by
  induction cs with
  | nil => rfl
  | cons c cs ih =>
    by_cases hc : c = '/'
    · subst hc
      rw [joinSlashes, segments_slash]
      by_cases hhead : cs.head? = some '/'
      · rw [if_pos (by simp [hhead]), ih, hhead]; rfl
      · rw [if_neg fun h => hhead h.1] at ih
        rw [if_neg (by simp [hhead])]
        by_cases hs : segments cs = []
        · rw [hs] at ih
          rw [dropWhileEnd_cons_of_eq_nil _ ih, hs]; rfl
        · rw [dropWhileEnd_cons_of_ne_nil _ (ih ▸ intercalate_segments_ne_nil hs), ih,
            if_pos ⟨rfl, hs⟩]
    · rw [joinSlashes_cons hc, if_neg (by simp [hc])]
      cases cs with
      | nil =>
        rw [segments_of_not_mem (by simpa using Ne.symm hc) (List.cons_ne_nil c []),
          List.intercalate_singleton]
        exact dropWhileEnd_append_cons (by simpa using hc) [] []
      | cons d cs =>
        by_cases hd : d = '/'
        · -- the segment ends here
          subst hd
          have hsegments : segments (c :: '/' :: cs) = [c] :: segments cs :=
            segments_part_slash (by simpa using Ne.symm hc) (List.cons_ne_nil c []) cs
          rw [segments_slash] at ih
          rw [hsegments]
          by_cases hs : segments cs = []
          · rw [if_neg fun h => h.2 hs, hs] at ih
            rw [dropWhileEnd_cons_of_eq_nil _ ih, if_neg (by simpa using hc), hs, List.intercalate_singleton]
          · rw [if_pos ⟨rfl, hs⟩] at ih
            rw [dropWhileEnd_cons_of_ne_nil _ (ih ▸ List.cons_ne_nil _ _), ih,
              List.intercalate_cons_of_ne_nil hs]
            rfl
        · -- the segment goes on
          rw [if_neg (by simp [hd])] at ih
          obtain ⟨part, parts, hsplit, hseg⟩ := segments_cons hd cs
          obtain ⟨_, _, hsplit', hseg'⟩ := segments_cons hc (d :: cs)
          rw [splitAt, if_neg (by simpa using hd), hsplit] at hsplit'
          obtain ⟨rfl, rfl⟩ := List.cons.inj hsplit'
          rw [hseg, List.intercalate_cons_cons_left] at ih
          rw [dropWhileEnd_cons_of_ne_nil _ (ih ▸ List.cons_ne_nil _ _), ih, hseg',
            List.intercalate_cons_cons_left, List.intercalate_cons_cons_left]

/-- **The path of a text:** one slash before each of its segments. -/
theorem rooted_joinSlashes (cs : List Char) :
    rooted (joinSlashes cs) = '/' :: ['/'].intercalate (segments cs) := by
  have hhead : (cs.dropWhile (· == '/')).head? ≠ some '/' := by
    intro h
    have := List.head?_dropWhile_not (· == '/') cs
    rw [h] at this
    exact absurd this (by decide)
  unfold rooted trimWhile
  rw [dropWhile_joinSlashes, dropWhileEnd_joinSlashes, if_neg fun h => hhead h.1, segments_dropWhile]

/-! ## Prefixes -/

theorem intercalate_append {xs ys : List (List Char)} (hx : xs ≠ []) (hy : ys ≠ []) :
    ['/'].intercalate (xs ++ ys) = ['/'].intercalate xs ++ '/' :: ['/'].intercalate ys := by
  induction xs with
  | nil => exact absurd rfl hx
  | cons x xs ih =>
    by_cases h : xs = []
    · subst h
      rw [List.singleton_append, List.intercalate_cons_of_ne_nil hy, List.intercalate_singleton,
        List.append_assoc, List.singleton_append]
    · rw [List.cons_append, List.intercalate_cons_of_ne_nil (by simp [h]), ih h,
        List.intercalate_cons_of_ne_nil h, List.append_assoc, List.append_assoc, List.append_assoc]

/-- The text of a prefix: small letters, and no slashes at its ends. -/
def leadOf (p : List Char) : List Char := trimWhile (· == '/') (lower p)

variable {parts more : List (List Char)} {lead : List Char}

/-- Segments that start with those of a text, after which more may come. -/
theorem intercalate_lead (hmore : more ≠ []) :
    ['/'].intercalate (splitAt '/' lead ++ more) = lead ++ '/' :: ['/'].intercalate more := by
  rw [intercalate_append (splitAt_ne_nil '/' lead) hmore, intercalate_splitAt]

/-- **A prefix leads a path by whole segments.** -/
theorem leads_iff (h : ∀ s ∈ parts, s ≠ [] ∧ '/' ∉ s) (p : List Char) :
    leads ('/' :: ['/'].intercalate parts) p = true ↔
      leadOf p ≠ [] ∧ splitAt '/' (leadOf p) <+: parts := by
  have hleads : leads ('/' :: ['/'].intercalate parts) p = true ↔ leadOf p ≠ [] ∧
      (['/'].intercalate parts = leadOf p ∨ leadOf p ++ ['/'] <+: ['/'].intercalate parts) := by
    simp [leads, rooted, leadOf]
  rw [hleads]
  refine and_congr_right fun hne => ⟨?_, ?_⟩
  · have hparts : ['/'].intercalate parts ≠ [] → splitAt '/' (['/'].intercalate parts) = parts :=
      fun hj => splitAt_intercalate (fun s hs => (h s hs).2) (by rintro rfl; exact hj rfl)
    rintro (heq | ⟨rest, hrest⟩)
    · have hsplit := hparts (heq ▸ hne)
      rw [heq] at hsplit
      exact ⟨[], by rw [List.append_nil, hsplit]⟩
    · have hcut := splitAt_append_mark '/' (leadOf p) rest
      rw [← List.singleton_append, ← List.append_assoc, hrest, hparts (by rw [← hrest]; simp)] at hcut
      exact ⟨_, hcut.symm⟩
  · rintro ⟨more, rfl⟩
    by_cases hmore : more = []
    · left
      rw [hmore, List.append_nil, intercalate_splitAt]
    · right
      rw [intercalate_lead hmore]
      exact ⟨['/'].intercalate more, by simp⟩

/-- What stands behind a prefix is nothing, or the segments that come after its own. -/
theorem drop_lead (lead : List Char) (more : List (List Char)) :
    ('/' :: ['/'].intercalate (splitAt '/' lead ++ more)).drop ('/' :: lead).length =
      if more = [] then [] else '/' :: ['/'].intercalate more := by
  split
  · rename_i hmore
    rw [hmore, List.append_nil, intercalate_splitAt, List.drop_length]
  · rename_i hmore
    rw [intercalate_lead hmore, ← List.cons_append, List.drop_left]

/-- The segments of a path without those of the first prefix, if any, that they start with. -/
def withoutLead (prefixes : List (List Char)) (parts : List (List Char)) : List (List Char) :=
  ((prefixes.map leadOf).find? fun t => !t.isEmpty && (splitAt '/' t).isPrefixOf parts).elim parts
    fun t => parts.drop (splitAt '/' t).length

theorem withoutLead_nil (parts : List (List Char)) : withoutLead [] parts = parts := rfl

theorem segments_dropFirstPrefix (h : ∀ s ∈ parts, s ≠ [] ∧ '/' ∉ s) (prefixes : List (List Char)) :
    segments (dropFirstPrefix ('/' :: ['/'].intercalate parts) prefixes) = withoutLead prefixes parts := by
  induction prefixes with
  | nil => rw [dropFirstPrefix, segments_slash, segments_intercalate h, withoutLead_nil]
  | cons p ps ih =>
    rw [dropFirstPrefix]
    unfold withoutLead
    rw [List.map_cons]
    by_cases hp : leads ('/' :: ['/'].intercalate parts) p = true
    · rw [if_pos hp]
      rw [leads_iff h] at hp
      rw [List.find?_cons_of_pos (by simpa using hp)]
      obtain ⟨-, more, rfl⟩ := hp
      rw [show rooted (lower p) = '/' :: leadOf p from rfl, drop_lead, Option.elim_some, List.drop_left]
      by_cases hmore : more = []
      · rw [if_pos hmore, hmore]; rfl
      · rw [if_neg hmore]
        exact segments_intercalate fun s hs => h s (List.mem_append_right _ hs)
    · rw [if_neg hp, ih]
      rw [leads_iff h] at hp
      rw [List.find?_cons_of_neg (by simpa using hp)]
      rfl

/-! ## Hosts -/

/-- A text is a scheme, its mark, a host that is not empty and a rest, before which the host ends. -/
inductive Hosted : List Char → List Char → Prop
  | address {c : Char} {scheme host rest : List Char} (letter : c.isLower = true)
      (chars : ∀ d ∈ scheme, isSchemeChar d = true) (named : host ≠ []) (within : '/' ∉ host)
      (ends : rest = [] ∨ ∃ cs, rest = '/' :: cs) :
      Hosted (c :: scheme ++ ':' :: '/' :: '/' :: (host ++ rest)) rest

/-- A text without the scheme and the host that it may have. -/
def Hostless (cs rest : List Char) : Prop := Hosted cs rest ∨ (∀ r, ¬ Hosted cs r) ∧ rest = cs

theorem isSchemeChar_of_isLower (h : c.isLower = true) : isSchemeChar c = true := by
  simp [isSchemeChar, h]

theorem afterScheme?_append {scheme : List Char} (hc : c.isLower = true)
    (hs : ∀ d ∈ scheme, isSchemeChar d = true) (rest : List Char) :
    afterScheme? (c :: scheme ++ ':' :: '/' :: '/' :: rest) = some rest := by
  have hall : ∀ d ∈ c :: scheme, isSchemeChar d = true :=
    List.forall_mem_cons.2 ⟨isSchemeChar_of_isLower hc, hs⟩
  unfold afterScheme?
  dsimp only [List.cons_append]
  rw [if_pos hc, ← List.cons_append, List.dropWhile_append_of_pos hall]
  rfl

theorem afterScheme?_eq_some {rest : List Char} (h : afterScheme? cs = some rest) :
    ∃ c scheme, c.isLower = true ∧ (∀ d ∈ scheme, isSchemeChar d = true) ∧
      cs = c :: scheme ++ ':' :: '/' :: '/' :: rest := by
  unfold afterScheme? at h
  split at h
  · rename_i c cs
    split at h
    · rename_i hc
      split at h
      · rename_i after hdrop
        obtain rfl := Option.some.inj h
        rw [List.dropWhile_cons_of_pos (isSchemeChar_of_isLower hc)] at hdrop
        refine ⟨c, cs.takeWhile isSchemeChar, hc, fun d hd => List.mem_takeWhile_imp hd, ?_⟩
        rw [List.cons_append, ← hdrop, List.takeWhile_append_dropWhile]
      · cases h
    · cases h
  · cases h

theorem Hosted.dropHost_eq {rest : List Char} (h : Hosted cs rest) : dropHost cs = rest := by
  obtain ⟨letter, chars, named, within, ends⟩ := h
  rename_i c scheme host
  obtain ⟨d, host, rfl⟩ := List.exists_cons_of_ne_nil named
  have hd : d ≠ '/' := fun heq => within (heq ▸ List.mem_cons_self)
  have hhost : ∀ x ∈ d :: host, (x != '/') = true := fun x hx => by
    simpa using fun heq : x = '/' => within (heq ▸ hx)
  unfold dropHost
  rw [afterScheme?_append letter chars]
  split
  · rename_i heq
    exact absurd (List.cons.inj (Option.some.inj heq)).1 hd
  · rename_i heq; cases heq
  · rename_i heq; cases heq
  · rename_i after _ _ heq
    obtain rfl := Option.some.inj heq
    rw [List.dropWhile_append_of_pos hhost]
    rcases ends with rfl | ⟨cs, rfl⟩
    · rfl
    · rfl

theorem dropHost_of_not_hosted (h : ∀ rest, ¬ Hosted cs rest) : dropHost cs = cs := by
  unfold dropHost
  split
  · rfl
  · rfl
  · rfl
  · rename_i after hslash hnil hafter
    obtain ⟨c, scheme, hc, hs, rfl⟩ := afterScheme?_eq_some hafter
    refine absurd ?_ (h (after.dropWhile (· != '/')))
    have haddress : Hosted (c :: scheme ++ ':' :: '/' :: '/' ::
        (after.takeWhile (· != '/') ++ after.dropWhile (· != '/'))) (after.dropWhile (· != '/')) := by
      refine .address hc hs ?_ ?_ ?_
      · -- the host has a first character, which is no slash
        cases after with
        | nil => exact absurd rfl hnil
        | cons d after =>
          have hd : d ≠ '/' := by
            rintro rfl
            exact hslash after rfl
          rw [List.takeWhile_cons_of_pos (by simpa using hd)]
          exact List.cons_ne_nil _ _
      · exact fun hmem => absurd (List.mem_takeWhile_imp hmem) (by decide)
      · cases hrest : after.dropWhile (· != '/') with
        | nil => exact .inl rfl
        | cons d rest =>
          have := List.head?_dropWhile_not (· != '/') after
          rw [hrest] at this
          exact .inr ⟨rest, by simpa using this⟩
    rwa [List.takeWhile_append_dropWhile] at haddress

/-- What is left without scheme and host. -/
theorem hostless_iff {rest : List Char} : Hostless cs rest ↔ rest = dropHost cs := by
  unfold Hostless
  constructor
  · rintro (h | ⟨h, rfl⟩)
    · exact h.dropHost_eq.symm
    · exact (dropHost_of_not_hosted h).symm
  · rintro rfl
    by_cases h : ∃ r, Hosted cs r
    · obtain ⟨r, hr⟩ := h
      exact .inl (hr.dropHost_eq ▸ hr)
    · rw [not_exists] at h
      exact .inr ⟨h, dropHost_of_not_hosted h⟩

/-! ## Normal paths -/

/-- The address that a value holds when it is a text. -/
theorem toTrimmed_str (s : String) : (Value.str s).toTrimmed = .ok (trim s.toList) := by
  unfold Value.toTrimmed
  split
  · rename_i h
    have hs : s = "" := by simpa [Value.isVacant] using h
    rw [hs]; rfl
  · rfl

theorem ofValue_str (prefixes : List String) (path : String) : ofValue prefixes (.str path) =
    .ok (String.ofList (normalize (prefixes.map String.toList) (trim path.toList))) := by
  unfold ofValue
  rw [toTrimmed_str]
  rfl

/-- **Normalizing a path is a matter of its segments.** -/
theorem normalize_eq (prefixes : List (List Char)) (address : List Char) :
    normalize prefixes address = '/' :: ['/'].intercalate ((withoutLead prefixes
      (segments (dropHost (lower (beforeFirst '#' (beforeFirst '?' address)))))).map anonymize) := by
  unfold normalize pathOf
  dsimp only
  rw [rooted_joinSlashes, segments_dropFirstPrefix fun s hs => mem_segments hs]

/-- Prefixes behind the first that leads a path need not be read. -/
theorem readPrefixes_texts (path : List Char) (prefixes : List String) :
    ∃ read, readPrefixes path (prefixes.map .str) = .ok read ∧
      dropFirstPrefix path read = dropFirstPrefix path (prefixes.map String.toList) := by
  induction prefixes with
  | nil => exact ⟨[], rfl, rfl⟩
  | cons p ps ih =>
    rw [List.map_cons, readPrefixes, List.map_cons, dropFirstPrefix]
    by_cases hp : leads path p.toList = true
    · refine ⟨[p.toList], by rw [if_pos hp], ?_⟩
      rw [dropFirstPrefix, if_pos hp, if_pos hp]
    · obtain ⟨read, hread, hdrop⟩ := ih
      refine ⟨p.toList :: read, by rw [if_neg hp, hread]; rfl, ?_⟩
      rw [dropFirstPrefix, if_neg hp, if_neg hp, hdrop]

/-- Prefixes that are texts may come as a value or as they are. -/
theorem ofValues_texts (prefixes : List String) (v : Value) :
    ofValues (.texts prefixes) v = ofValue prefixes v := by
  unfold ofValues ofValue
  cases v.toTrimmed with
  | error fault => rfl
  | ok address =>
    obtain ⟨read, hread, hdrop⟩ := readPrefixes_texts (pathOf address) prefixes
    show (do
      let read ← readPrefixes (pathOf address) (prefixes.map .str)
      return String.ofList (normalize read address)) = _
    rw [hread]
    show Except.ok (String.ofList (normalize read address)) = .ok _
    unfold normalize
    rw [hdrop]

/-- **Prefixes are removed by whole segments, and at most once.** The normal form of a path is joined from
its segments in small letters, after blanks at its ends, query, fragment, scheme and host are removed: those of the
first prefix that leads them are dropped, and parameters lose their names. -/
theorem normalize_by_segments (prefixes : List String) (path : String) :
    ∃ rest, Hostless (lower (beforeFirst '#' (beforeFirst '?' (trim path.toList)))) rest ∧
      ofValue prefixes (.str path) = .ok (String.ofList ('/' :: ['/'].intercalate
        ((withoutLead (prefixes.map String.toList) (segments rest)).map anonymize))) ∧
      ofValues (.texts prefixes) (.str path) = ofValue prefixes (.str path) := by
  refine ⟨_, hostless_iff.2 rfl, ?_, ofValues_texts prefixes (.str path)⟩
  rw [ofValue_str, normalize_eq]

/-- A prefix with two slashes in a row has an empty part, so it leads no path. -/
example : withoutLead ["/api//v1".toList, "/API/".toList] ["api".toList, "v1".toList] = ["v1".toList] := by
  decide

end Route

end ChangeImpact
