import ChangeImpact.Proofs.Records
import Mathlib.Data.List.Infix

/-!
# Canonical ids

An id is a path, a kind and a name with `::` between them, and paths and names are any texts. A path may
end in a colon, which then runs into the separator, and a name may hold separators of its own. What keeps
ids apart is that the kind between the separators is never empty and has no colon.

* `before_separator`: a text before a separator ends in front of the kind or goes on beyond it.
* `LongerPath`, `entityId_eq_iff`: **ids collide only if a path goes on where another one has its kind.**
* `entityId_determines_parts`: **so ids of paths without `::` never collide.**
-/

namespace ChangeImpact

theorem EntityKind.word_injective : Function.Injective EntityKind.word := by
  intro a b h
  have ha := Entity.kindOf_word a
  rw [h, Entity.kindOf_word b] at ha
  exact (Except.ok.inj ha).symm

theorem EntityKind.colon_not_mem_word (k : EntityKind) : ':' ∉ k.word.toList := by
  cases k <;> decide

theorem EntityKind.toList_word_ne_nil (k : EntityKind) : k.word.toList ≠ [] := by
  cases k <;> decide

theorem toList_entityId (file : String) (kind : EntityKind) (name : String) :
    (entityId file kind name).toList =
      file.toList ++ ':' :: ':' :: (kind.word.toList ++ ':' :: ':' :: name.toList) := by
  simp [entityId]

namespace Text

variable {word word' as bs cs : List Char}

/-- A word without colons is all that stands before the first colon. -/
theorem word_before_colon (hword : ':' ∉ word) (h : word ++ ':' :: bs = as ++ ':' :: cs) :
    ∃ more, as = word ++ more ∧ ':' :: bs = more ++ ':' :: cs := by
  rcases List.append_eq_append_iff.1 h with ⟨more, rfl, hmore⟩ | ⟨more, rfl, hmore⟩
  · exact ⟨more, rfl, hmore⟩
  · -- the word would go on with the colon that follows the shorter text
    cases more with
    | nil => exact ⟨[], by simp, by simpa using hmore.symm⟩
    | cons c more =>
      obtain ⟨rfl, -⟩ := List.cons.inj hmore
      exact absurd (List.mem_append_right as List.mem_cons_self) hword

/-- Of two words without colons, each followed by a colon, neither goes on beyond the other. -/
theorem words_before_colon (hword : ':' ∉ word) (hword' : ':' ∉ word')
    (h : word ++ ':' :: bs = word' ++ ':' :: cs) : word = word' ∧ bs = cs := by
  obtain ⟨more, rfl, hmore⟩ := word_before_colon hword h
  cases more with
  | nil => simpa using hmore
  | cons c more =>
    obtain ⟨rfl, -⟩ := List.cons.inj hmore
    exact absurd (List.mem_append_right word List.mem_cons_self) hword'

/-- **A text before a separator** in a text that starts with a separator and a word: it is empty, or it goes
on beyond the word. It is not the first colon of the separator, since a word does not start with one. -/
theorem before_separator (hword : ':' ∉ word) (hne : word ≠ [])
    (h : ':' :: ':' :: (word ++ ':' :: ':' :: bs) = as ++ ':' :: ':' :: cs) :
    as = [] ∨ ∃ more, as = ':' :: ':' :: (word ++ more) ∧ ':' :: ':' :: bs = more ++ ':' :: ':' :: cs := by
  rcases as with _ | ⟨a, _ | ⟨b, as⟩⟩
  · exact .inl rfl
  · -- after one colon the separator has another one, and so the word would start with a colon
    obtain ⟨c, word, rfl⟩ := List.exists_cons_of_ne_nil hne
    simp only [List.cons_append, List.nil_append, List.cons.injEq] at h
    exact absurd (h.2.2.1 ▸ List.mem_cons_self) hword
  · simp only [List.cons_append, List.cons.injEq] at h
    obtain ⟨rfl, rfl, h⟩ := h
    obtain ⟨more, rfl, hmore⟩ := word_before_colon hword h
    exact .inr ⟨more, rfl, hmore⟩

end Text

/-- The id of a path, a kind and a name, read with a longer path: it takes in the separator and the kind, and
ends where the rest of the id has a separator and a kind again. -/
def LongerPath (file : String) (kind : EntityKind) (name : String) (file' : String) (kind' : EntityKind)
    (name' : String) : Prop :=
  ∃ more, file' = file ++ "::" ++ kind.word ++ more ∧
    "::" ++ name = more ++ "::" ++ kind'.word ++ "::" ++ name'

variable {f₁ f₂ n₁ n₂ : String} {k₁ k₂ : EntityKind}

/-- The longer path gives the same id. -/
theorem LongerPath.entityId_eq (h : LongerPath f₁ k₁ n₁ f₂ k₂ n₂) : entityId f₁ k₁ n₁ = entityId f₂ k₂ n₂ := by
  obtain ⟨more, rfl, hmore⟩ := h
  calc entityId f₁ k₁ n₁ = f₁ ++ "::" ++ k₁.word ++ ("::" ++ n₁) := String.append_assoc
    _ = entityId (f₁ ++ "::" ++ k₁.word ++ more) k₂ n₂ := by
      rw [hmore]
      simp only [entityId, String.append_assoc]

/-- The longer path has a separator in it. -/
theorem LongerPath.separator_infix (h : LongerPath f₁ k₁ n₁ f₂ k₂ n₂) : "::".toList <:+: f₂.toList := by
  obtain ⟨more, rfl, -⟩ := h
  exact ⟨f₁.toList, k₁.word.toList ++ more.toList, by simp⟩

/-- Equal ids, one of whose paths begins with the other, have the same parts or the longer path takes in the
kind of the shorter one. -/
theorem parts_eq_or_longerPath {more : List Char} (hpath : f₂.toList = f₁.toList ++ more)
    (h : entityId f₁ k₁ n₁ = entityId f₂ k₂ n₂) :
    (f₁ = f₂ ∧ k₁ = k₂ ∧ n₁ = n₂) ∨ LongerPath f₁ k₁ n₁ f₂ k₂ n₂ := by
  have htexts : ':' :: ':' :: (k₁.word.toList ++ ':' :: ':' :: n₁.toList) =
      more ++ ':' :: ':' :: (k₂.word.toList ++ ':' :: ':' :: n₂.toList) := by
    have hids := congrArg String.toList h
    rwa [toList_entityId, toList_entityId, hpath, List.append_assoc, List.append_cancel_left_eq] at hids
  rcases Text.before_separator k₁.colon_not_mem_word k₁.toList_word_ne_nil htexts with rfl | ⟨rest, rfl, hrest⟩
  · -- equal paths: the kinds are what stands before the next colon
    rw [List.append_nil] at hpath
    simp only [List.nil_append, List.cons.injEq, true_and] at htexts
    obtain ⟨hword, hrest⟩ := Text.words_before_colon k₁.colon_not_mem_word k₂.colon_not_mem_word htexts
    exact .inl ⟨(String.toList_inj.1 hpath).symm, EntityKind.word_injective (String.toList_inj.1 hword),
      String.toList_inj.1 (List.cons.inj hrest).2⟩
  · refine .inr ⟨String.ofList rest, String.toList_inj.1 ?_, String.toList_inj.1 ?_⟩
    · simp [hpath]
    · simpa using hrest

/-- **Which ids collide.** Two ids agree just if they have the same parts or one of them is the other one,
read with a longer path. -/
theorem entityId_eq_iff : entityId f₁ k₁ n₁ = entityId f₂ k₂ n₂ ↔
    (f₁ = f₂ ∧ k₁ = k₂ ∧ n₁ = n₂) ∨ LongerPath f₁ k₁ n₁ f₂ k₂ n₂ ∨ LongerPath f₂ k₂ n₂ f₁ k₁ n₁ := by
  constructor
  · intro h
    have htexts := congrArg String.toList h
    rw [toList_entityId, toList_entityId] at htexts
    rcases List.append_eq_append_iff.1 htexts with ⟨more, hpath, -⟩ | ⟨more, hpath, -⟩
    · exact (parts_eq_or_longerPath hpath h).imp_right .inl
    · rcases parts_eq_or_longerPath hpath h.symm with ⟨hfile, hkind, hname⟩ | hlonger
      · exact .inl ⟨hfile.symm, hkind.symm, hname.symm⟩
      · exact .inr (.inr hlonger)
  · rintro (⟨rfl, rfl, rfl⟩ | h | h)
    · rfl
    · exact h.entityId_eq
    · exact h.entityId_eq.symm

/-- **Ids of paths without a separator never collide.** For all kinds and names, and all paths that do not
contain `::`, an id determines the path, the kind and the name that it was made of. The names may contain
`::`, and the paths may end in a colon. -/
theorem entityId_determines_parts (h₁ : ¬ "::".toList <:+: f₁.toList) (h₂ : ¬ "::".toList <:+: f₂.toList) :
    entityId f₁ k₁ n₁ = entityId f₂ k₂ n₂ ↔ f₁ = f₂ ∧ k₁ = k₂ ∧ n₁ = n₂ := by
  rw [entityId_eq_iff, or_iff_left]
  rintro (hlonger | hlonger)
  · exact h₂ hlonger.separator_infix
  · exact h₁ hlonger.separator_infix

/-- A colon at the end of a path is not taken for one in front of the name. -/
theorem entityId_colon_stays :
    ¬ "::".toList <:+: "a:".toList ∧ ¬ "::".toList <:+: "a".toList ∧
      entityId "a:" .type "::Test::b" ≠ entityId "a" .type ":::Test::b" := by
  have hcolon : ¬ "::".toList <:+: "a:".toList := by decide
  have hplain : ¬ "::".toList <:+: "a".toList := by decide
  refine ⟨hcolon, hplain, fun h => ?_⟩
  obtain ⟨hfile, -, -⟩ := (entityId_determines_parts hcolon hplain).1 h
  exact absurd hfile (by decide)

-- a path that contains `::` can take in the kind of another id
example : entityId "a" .function "Type::b" = entityId "a::Function" .type "b" := by decide

end ChangeImpact
