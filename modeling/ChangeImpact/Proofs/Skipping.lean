import ChangeImpact.Extract.Manifest
import ChangeImpact.Proofs.Overlay

/-!
# Malformed entries of manifests

An entry of a manifest is decoded in many steps, and most of them can fail. A fault of the entry's own values
costs the entry only: it is skipped with a warning. Two faults are of another kind and are passed on, so that
the manifest has no result at all: a line that is infinite, and a confidence that is an integer too large for
a floating-point number.

* `Binary64.isFinite_ofInt_iff`: **the integers that have a nearest number.**
* `Manifest.faults_entityOf`, `Manifest.faults_edgeOf`: **the faults of an entry.**
* `Manifest.Accounted`: what becomes of entries one by one, and `decodeAll_cases`: all entries are accounted
  for, or one has a fault that is passed on.
* `Manifest.extract_accounts`: **every entry is found or skipped, or an entry stops the manifest.**
  `extract_stopped` shows that this happens.
-/

namespace ChangeImpact

/-! ## Integers and binary numbers -/

namespace Binary64

/-- A tie goes up at the end, since the significand behind the greatest one is even. -/
theorem roundDiv_eq_pow_iff {k half : Nat} (hhalf : 0 < half) (hk : k < 2 ^ 53 * (2 * half)) :
    roundDiv k (2 * half) = 2 ^ 53 ↔ (2 ^ 54 - 1) * half ≤ k := by
  have hdiv := Nat.div_add_mod k (2 * half)
  have hmod := Nat.mod_lt k (by omega : 0 < 2 * half)
  have hq : k / (2 * half) < 2 ^ 53 := Nat.div_lt_of_lt_mul (by linarith)
  unfold roundDiv
  dsimp only
  generalize k / (2 * half) = q at *
  generalize k % (2 * half) = r at *
  by_cases hlast : q = 2 ^ 53 - 1
  · -- the greatest significand is odd, so that half a unit goes up
    have hup : (2 ^ 54 - 1) * half ≤ k ↔ half ≤ r := by
      rw [hlast] at hdiv
      omega
    have hodd : q % 2 = 1 := by rw [hlast]; rfl
    rw [hup]
    split_ifs <;> omega
  · have hbelow : 2 * half * (q + 1) ≤ 2 * half * (2 ^ 53 - 1) := Nat.mul_le_mul_left _ (by omega)
    refine iff_of_false ?_ ?_
    · split_ifs <;> omega
    · rw [Nat.mul_add] at hbelow
      omega

theorem inUnits_natCast (num den j : Nat) : inUnits num den j = (num, den * 2 ^ j) := by
  simp [inUnits]

theorem inUnits_neg_natCast (num den j : Nat) : inUnits num den (-j) = (num * 2 ^ j, den) := by
  unfold inUnits
  split
  · obtain rfl : j = 0 := by omega
    simp
  · simp

theorem exponentFor_one {k : Nat} (hk : k ≠ 0) : exponentFor k 1 = (k.log2 : Int) - 52 := by
  have hlow := Nat.log2_self_le hk
  have hone : Nat.log2 1 = 0 := by decide
  unfold exponentFor minExponent
  rw [hone]
  by_cases hlarge : 52 ≤ k.log2
  · obtain ⟨j, hj⟩ := Nat.exists_eq_add_of_le hlarge
    have he : (k.log2 : Int) - (0 : Nat) - 52 = j := by omega
    rw [hj, Nat.pow_add] at hlow
    dsimp only
    rw [he, inUnits_natCast]
    dsimp only
    rw [Nat.one_mul, if_neg (by simpa using hlow)]
    omega
  · obtain ⟨j, hj⟩ := Nat.exists_eq_add_of_le (by omega : k.log2 ≤ 52)
    have he : (k.log2 : Int) - (0 : Nat) - 52 = -j := by omega
    have hmul := Nat.mul_le_mul_right (2 ^ j) hlow
    rw [← Nat.pow_add, ← hj] at hmul
    dsimp only
    rw [he, inUnits_neg_natCast]
    dsimp only
    rw [if_neg (by simpa using hmul)]
    omega

theorem div_le_roundDiv (num den : Nat) : num / den ≤ roundDiv num den := by
  unfold roundDiv
  dsimp only
  split_ifs <;> omega

/-- The significand that a quotient is rounded to, before a carry. -/
def significandFor (num den : Nat) : Nat :=
  roundDiv (inUnits num den (exponentFor num den)).1 (inUnits num den (exponentFor num den)).2

theorem significandFor_one {k j : Nat} (hne : k ≠ 0) (hk : k.log2 = 52 + j) :
    significandFor k 1 = roundDiv k (2 ^ j) := by
  have he : (k.log2 : Int) - 52 = j := by omega
  rw [significandFor, exponentFor_one hne, he, inUnits_natCast, Nat.one_mul]

theorem significandFor_one_ne_zero {k j : Nat} (hne : k ≠ 0) (hk : k.log2 = 52 + j) :
    significandFor k 1 ≠ 0 := by
  have hlow := Nat.log2_self_le hne
  rw [hk, Nat.pow_add] at hlow
  have hquotient := (Nat.le_div_iff_mul_le (Nat.two_pow_pos j)).2 hlow
  have hround := div_le_roundDiv k (2 ^ j)
  rw [significandFor_one hne hk]
  omega

/-- The significand and the exponent that a quotient is rounded to. -/
def rounded (num den : Nat) : Nat × Int :=
  if significandFor num den = 2 ^ 53 then (2 ^ 52, exponentFor num den + 1)
  else (significandFor num den, exponentFor num den)

theorem rounded_fst_ne_zero {num den : Nat} (h : significandFor num den ≠ 0) : (rounded num den).1 ≠ 0 := by
  unfold rounded
  split_ifs
  · exact (Nat.two_pow_pos 52).ne'
  · exact h

theorem rounded_snd (num den : Nat) :
    (rounded num den).2 = exponentFor num den + if significandFor num den = 2 ^ 53 then 1 else 0 := by
  unfold rounded
  split_ifs
  · rfl
  · exact (Int.add_zero _).symm

theorem ofRatio_eq {num den : Nat} (negative : Bool) (hnum : num ≠ 0) (hden : den ≠ 0) :
    ofRatio negative num den =
      if (rounded num den).1 = 0 then zero negative
      else if maxExponent < (rounded num den).2 then .infinite negative
      else .finite negative (rounded num den).1 (rounded num den).2 := by
  have hnonzero : ¬ ((decide (num = 0) || decide (den = 0)) = true) := by simp [hnum, hden]
  rw [ofRatio, if_neg hnonzero]
  rfl

theorem isFinite_ofRatio_iff {negative : Bool} {num den : Nat} (hnum : num ≠ 0) (hden : den ≠ 0) :
    (ofRatio negative num den).isFinite = true ↔
      (rounded num den).1 = 0 ∨ (rounded num den).2 ≤ maxExponent := by
  rw [ofRatio_eq negative hnum hden]
  split_ifs with hzero hlarge
  · exact iff_of_true rfl (.inl hzero)
  · exact iff_of_false Bool.false_ne_true (not_or.2 ⟨hzero, Int.not_le.2 hlarge⟩)
  · exact iff_of_true rfl (.inr (Int.not_lt.1 hlarge))

/-- The middle of the greatest number and the power of two behind it. -/
def overflowBound : Nat := (2 ^ 54 - 1) * 2 ^ 970

/-- **The integers that have a nearest number.** -/
theorem isFinite_ofInt_iff {n : Int} : (ofInt n).isFinite = true ↔ n.natAbs < overflowBound := by
  unfold ofInt overflowBound
  generalize n.natAbs = k
  -- the power stays a variable, so that nothing computes it
  have hpowers : ∀ i, 2 ^ (i + 970) = 2 ^ i * 2 ^ 970 := fun i => pow_add 2 i 970
  have hpos : 0 < 2 ^ 970 := pow_pos Nat.two_pos 970
  generalize 2 ^ 970 = half at hpowers hpos ⊢
  by_cases hk : k = 0
  · subst hk
    exact iff_of_true rfl (by omega)
  have hlow := Nat.log2_self_le hk
  have hhigh := @Nat.lt_log2_self k
  rw [isFinite_ofRatio_iff hk Nat.one_ne_zero, rounded_snd, exponentFor_one hk, maxExponent]
  by_cases hsmall : k.log2 ≤ 1022
  · -- even a carry leaves the exponent in range
    have hpow : 2 ^ (k.log2 + 1) ≤ 2 ^ (53 + 970) := pow_le_pow_right₀ one_le_two (by omega)
    rw [hpowers] at hpow
    refine iff_of_true (.inr ?_) (by omega)
    split_ifs <;> omega
  obtain ⟨j, hj⟩ := Nat.exists_eq_add_of_le (by omega : 52 ≤ k.log2)
  rw [or_iff_right (rounded_fst_ne_zero (significandFor_one_ne_zero hk hj))]
  by_cases hlast : j = 971
  · -- only a carry leads beyond the greatest exponent
    have hpow : 2 ^ j = 2 * half := by rw [hlast, hpowers 1, Nat.pow_one]
    have hbelow : k < 2 ^ 53 * (2 * half) := by
      rw [hj, Nat.add_right_comm, Nat.pow_add, hpow] at hhigh
      exact hhigh
    have hcarry := roundDiv_eq_pow_iff hpos hbelow
    rw [← hpow, ← significandFor_one hk hj] at hcarry
    split_ifs with h
    · exact iff_of_false (by omega) (Nat.not_lt.2 (hcarry.1 h))
    · exact iff_of_true (by omega) (Nat.lt_of_not_le (mt hcarry.2 h))
  · have hpow : 2 ^ (54 + 970) ≤ 2 ^ k.log2 := pow_le_pow_right₀ one_le_two (by omega)
    rw [hpowers] at hpow
    refine iff_of_false ?_ (by omega)
    split_ifs <;> omega

end Binary64

/-! ## Faults of entries -/

section

variable {α : Type} {x : Except Fault α} {c : OverflowFault} {P Q : Prop}

/-- The faults of a computation are those of a record's values. -/
abbrev RecordFaults (x : Except Fault α) : Prop := Faults (fun f => f.isRecordFault = true) x

/-- The faults of a computation are those of a record's values, and an overflow under a condition. -/
abbrev OverflowsIf (c : OverflowFault) (P : Prop) (x : Except Fault α) : Prop :=
  Faults (fun f => f.isRecordFault = true ∨ f = .overflow c ∧ P) x

theorem RecordFaults.or (h : RecordFaults x) : OverflowsIf c P x := h.mono fun _ => .inl

theorem OverflowsIf.imp (h : OverflowsIf c P x) (hPQ : P → Q) : OverflowsIf c Q x :=
  h.mono fun _ hf => hf.imp_right fun ⟨hf, hP⟩ => ⟨hf, hPQ hP⟩

end

namespace Value

/-- A number that is infinite. -/
def IsInfinite (v : Value) : Prop := ∃ negative, v.unfold = .float (.infinite negative)

/-- An integer that is too large for a floating-point number. -/
def IsHuge (v : Value) : Prop := ∃ n : Int, v.unfold = .int n ∧ Binary64.overflowBound ≤ n.natAbs

theorem recordFaults_toText (v : Value) : RecordFaults v.toText := by
  unfold toText
  split
  · exact .ok _
  · exact .error rfl

theorem recordFaults_toLiteral (v : Value) : RecordFaults v.toLiteral := by
  unfold toLiteral
  split
  · exact .ok _
  · exact .error rfl

theorem recordFaults_requireKey (v : Value) : RecordFaults v.requireKey := by
  unfold requireKey
  split
  · exact .ok _
  · exact .error rfl

theorem recordFaults_readInt (base : Nat) (cs : List Char) (literal : String) :
    RecordFaults (readInt base cs literal) := by
  unfold readInt
  dsimp only
  split
  · exact .error rfl
  · split
    · exact .ok _
    · exact .error rfl

theorem recordFaults_readFloat (cs : List Char) (literal : String) : RecordFaults (readFloat cs literal) := by
  unfold readFloat
  split
  · exact .ok _
  · exact .error rfl

/-- An integer cannot be made of a number that is infinite. -/
theorem faults_toInt (v : Value) : OverflowsIf .infinityToInt v.IsInfinite v.toInt := by
  unfold toInt
  split
  · exact .ok _
  · exact .ok _
  · exact .error (.inl rfl)
  · rename_i x hnan hv
    split
    · exact .ok _
    · rename_i htruncate
      refine .error (.inr ⟨rfl, ?_⟩)
      cases x with
      | nan => exact absurd rfl hnan
      | infinite negative => exact ⟨negative, hv⟩
      | finite => cases htruncate
  · exact (recordFaults_readInt _ _ _).or
  · exact (recordFaults_readInt _ _ _).or
  · exact .error (.inl rfl)

/-- A floating-point number cannot be made of an integer that is too large. -/
theorem faults_toFloat (v : Value) : OverflowsIf .intToFloat v.IsHuge v.toFloat := by
  unfold toFloat
  split
  · exact .ok _
  · rename_i n hv
    dsimp only
    split
    · exact .ok _
    · rename_i hfinite
      rw [Binary64.isFinite_ofInt_iff] at hfinite
      exact .error (.inr ⟨rfl, n, hv, Nat.le_of_not_lt hfinite⟩)
  · exact .ok _
  · exact (recordFaults_readFloat _ _).or
  · exact (recordFaults_readFloat _ _).or
  · exact .error (.inl rfl)

theorem recordFaults_toMembers (v : Value) : RecordFaults v.toMembers := by
  unfold toMembers
  split
  · exact .ok _
  · exact .error rfl

theorem recordFaults_toEntry (index : Nat) (v : Value) : RecordFaults (toEntry index v) := by
  unfold toEntry
  split
  · exact .error rfl
  · exact .bind (recordFaults_requireKey _) fun _ _ => .ok _
  · exact .error rfl

theorem recordFaults_addEntries (vs : List Value) : ∀ (index : Nat) (acc : Entries),
    RecordFaults (addEntries index acc vs) := by
  induction vs with
  | nil => exact fun _ _ => .ok _
  | cons v vs ih => exact fun _ _ => .bind (recordFaults_toEntry _ v) fun _ _ => ih _ _

theorem recordFaults_toEntries (v : Value) : RecordFaults v.toEntries := by
  unfold toEntries
  split
  · exact .ok _
  · exact .bind (recordFaults_toMembers v) fun _ _ => recordFaults_addEntries _ _ _

end Value

open Value

theorem recordFaults_decode (α : Type) [Vocabulary α] (v : Value) : RecordFaults (Vocabulary.decode α v) := by
  unfold Vocabulary.decode
  split
  · exact .ok _
  · exact .bind (recordFaults_toLiteral v) fun _ _ => .error rfl

theorem ShapeField.recordFaults_ofRecord (v : Value) : RecordFaults (ShapeField.ofRecord v) := by
  unfold ShapeField.ofRecord
  split
  · dsimp only
    split
    · exact .bind (recordFaults_toLiteral v) fun _ _ => .error_bind rfl
    · exact .bind (recordFaults_toText _) fun _ _ => .bind (recordFaults_toText _)
        fun _ _ => .bind (recordFaults_toText _) fun _ _ => .ok _
  · exact .bind (recordFaults_toLiteral v) fun _ _ => .error rfl

theorem Entity.recordFaults_kindOf (v : Value) : RecordFaults (Entity.kindOf v) := by
  unfold Entity.kindOf
  split
  · exact .ok _
  · exact .bind (recordFaults_toText v) fun _ _ => .error rfl

theorem Entity.recordFaults_layerOf (v : Value) : RecordFaults (Entity.layerOf v) := by
  unfold Entity.layerOf
  split
  · exact .ok _
  · split
    · exact .ok _
    · exact .bind (recordFaults_toText _) fun _ _ => .error rfl

theorem Entity.recordFaults_ofDraft (d : Entity.Draft) : RecordFaults (Entity.ofDraft d) := by
  unfold Entity.ofDraft
  dsimp only
  split
  · split
    · exact .error_bind rfl
    · refine .bind (.ok _) fun id _ => .bind (recordFaults_kindOf _) fun kind _ =>
        .bind (recordFaults_layerOf _) fun layer _ => ?_
      split
      · exact .error_bind rfl
      · exact .ok _
  · exact .bind (recordFaults_toLiteral _) fun _ _ => .error_bind rfl

namespace Edge

theorem recordFaults_dimensionOf (v : Value) : RecordFaults (dimensionOf v) := by
  unfold dimensionOf
  split
  · exact .ok _
  · exact .bind (recordFaults_toText v) fun _ _ => .error rfl

theorem recordFaults_directionOf (v : Value) : RecordFaults (directionOf v) := by
  unfold directionOf
  split
  · exact .ok _
  · exact .bind (recordFaults_toText v) fun _ _ => .error rfl

theorem faults_confidenceOf (v : Value) : OverflowsIf .intToFloat v.IsHuge (confidenceOf v) := by
  unfold confidenceOf
  split
  · exact .ok _
  · rename_i hoverflow
    exact .error (faults_toFloat v _ hoverflow)
  · exact .bind (recordFaults_toLiteral v).or fun _ _ => .error (.inl rfl)

theorem faults_ofParts (source target dimension direction confidence : Value) :
    OverflowsIf .intToFloat confidence.IsHuge (ofParts source target dimension direction confidence) := by
  unfold ofParts
  dsimp only
  split
  · exact .bind (recordFaults_toLiteral _).or fun _ _ => .bind (recordFaults_toLiteral _).or fun _ _ =>
      .error_bind (.inl rfl)
  refine .bind (recordFaults_dimensionOf _).or fun dim _ => .bind (recordFaults_directionOf _).or
    fun dir _ => .bind (faults_confidenceOf _) fun c _ => ?_
  split
  · exact .bind (recordFaults_toText _).or fun _ _ => .bind (recordFaults_toText _).or fun _ _ =>
      .error_bind (.inl rfl)
  split
  · exact .bind (recordFaults_toText _).or fun _ _ => .bind (recordFaults_toText _).or fun _ _ =>
      .error_bind (.inl rfl)
  · exact .ok _

theorem faults_ofRecord (record : Entries) :
    OverflowsIf .intToFloat (Entries.lookup record "confidence").IsHuge (ofRecord (.map record)) := by
  unfold ofRecord
  dsimp only [Value.unfold]
  split
  · exact .bind (recordFaults_toLiteral _).or fun _ _ => .error (.inl rfl)
  · refine (faults_ofParts _ _ _ _ _).imp fun hhuge => ?_
    -- a confidence that is left out is one
    unfold Entries.lookupD at hhuge
    unfold Entries.lookup
    cases hlookup : Entries.lookup? record "confidence" with
    | none =>
      rw [hlookup] at hhuge
      obtain ⟨n, hn, -⟩ := hhuge
      cases hn
    | some c =>
      rw [hlookup] at hhuge
      exact hhuge

end Edge

namespace Manifest

/-- An entry whose first or last line is infinite. -/
def HasInfiniteLine (v : Value) : Prop := ∃ entry first last, v.unfold = .map entry ∧
  (Entries.lookup entry "lines").unfold = .list [first, last] ∧ (first.IsInfinite ∨ last.IsInfinite)

/-- An entry whose confidence is an integer too large for a floating-point number. -/
def HasHugeConfidence (v : Value) : Prop := ∃ entry, v.unfold = .map entry ∧
  (Entries.lookup entry "confidence").IsHuge

theorem recordFaults_linesOf (name : String) (v : Value) : RecordFaults (linesOf name v) := by
  unfold linesOf
  split
  · exact .ok _
  · split
    · exact .ok _
    · exact .error rfl

theorem linesOf_eq_ok {name : String} {v first last : Value} (h : linesOf name v = .ok (first, last)) :
    (first = .int 0 ∧ last = .int 0) ∨ v.unfold = .list [first, last] := by
  unfold linesOf at h
  split at h
  · cases h
    exact .inl ⟨rfl, rfl⟩
  · split at h
    · rename_i a b hv
      cases h
      exact .inr hv
    · cases h

theorem recordFaults_metadataOf (entry : Entries) : RecordFaults (metadataOf entry) :=
  .bind (recordFaults_toEntries _) fun _ _ => .ok _

theorem recordFaults_shapeOf (name : String) (v : Value) : RecordFaults (shapeOf name v) := by
  unfold shapeOf
  split
  · exact .ok _
  · exact .bind (.mapM fun item _ => ShapeField.recordFaults_ofRecord item) fun _ _ => .ok _
  · exact .error rfl

theorem not_isInfinite_int (n : Int) : ¬ (Value.int n).IsInfinite := nofun

/-- **The faults of an entity's entry**: only a line that is infinite makes an entry more than a bad record. -/
theorem faults_entityOf (document : Entries) (path : String) (v : Value) :
    OverflowsIf .infinityToInt (HasInfiniteLine v) (entityOf document path v) := by
  unfold entityOf
  split
  · rename_i entry hentry
    dsimp only
    split
    · exact .error_bind (.inl rfl)
    refine .bind (recordFaults_decode _ _).or fun kind _ => .bind (recordFaults_toText _).or fun name _ =>
      .bind (recordFaults_toText _).or fun file _ =>
      .bind (recordFaults_linesOf _ _).or fun lines hlines => ?_
    obtain ⟨first, last⟩ := lines
    refine .bind (recordFaults_metadataOf _).or fun metadata _ =>
      .bind (recordFaults_shapeOf _ _).or fun shape _ => ?_
    -- lines that are left out are zero, so that an infinite one was given
    have hline {line : Value} (hmem : line = first ∨ line = last) :
        OverflowsIf .infinityToInt (HasInfiniteLine v) line.toInt := by
      refine (faults_toInt line).imp fun hinfinite => ?_
      rcases linesOf_eq_ok hlines with ⟨rfl, rfl⟩ | hlist
      · rcases hmem with rfl | rfl <;> exact absurd hinfinite (not_isInfinite_int 0)
      · rcases hmem with rfl | rfl
        · exact ⟨entry, _, _, hentry, hlist, .inl hinfinite⟩
        · exact ⟨entry, _, _, hentry, hlist, .inr hinfinite⟩
    -- the id is the canonical one or the entry's own
    split
    all_goals
      refine .bind ?_ fun id _ => .bind (recordFaults_toText _).or fun language _ =>
        .bind (hline (.inl rfl)) fun startLine _ => .bind (hline (.inr rfl)) fun endLine _ =>
        (Entity.recordFaults_ofDraft _).or
    · exact .ok _
    · exact (recordFaults_toText _).or
  · exact .error (.inl rfl)

theorem recordFaults_resolveEnd (ids : LocalIds) (entry : Entries) (name : String) :
    RecordFaults (resolveEnd ids entry name) := by
  refine .bind (recordFaults_requireKey _) fun _ _ => ?_
  split
  · split
    · exact .ok _
    · exact .ok _
  · exact .ok _

theorem lookup_of_resolveEnd {ids : LocalIds} {entry resolved : Entries} {name other : String}
    (h : resolveEnd ids entry name = .ok resolved) (hne : other ≠ name) :
    Entries.lookup resolved other = Entries.lookup entry other := by
  obtain ⟨-, -, h⟩ := bind_eq_ok.1 h
  split at h
  · split at h
    · cases h
      rw [Entries.lookup, Entries.lookup?_putName, if_neg hne]
      rfl
    · cases h
      rfl
  · cases h
    rfl

/-- **The faults of an edge's entry**: only a confidence that is too large makes an entry more than a bad
record. -/
theorem faults_edgeOf (ids : LocalIds) (v : Value) :
    OverflowsIf .intToFloat (HasHugeConfidence v) (edgeOf ids v) := by
  unfold edgeOf
  split
  · rename_i entry hentry
    refine .bind (recordFaults_resolveEnd _ _ _).or fun once honce =>
      .bind (recordFaults_resolveEnd _ _ _).or fun twice htwice => ?_
    -- only the ends of the record are other than those of the entry
    refine (Edge.faults_ofRecord twice).imp fun hhuge => ⟨entry, hentry, ?_⟩
    rwa [← lookup_of_resolveEnd honce (by decide), ← lookup_of_resolveEnd htwice (by decide)]
  · exact .error (.inl rfl)

/-! ## Entries one by one -/

/-- The warning about an entry that is skipped. -/
def skippedWarning (path what : String) (index : Nat) (f : Fault) : Diagnostic :=
  diagnostic path ("Skipped " ++ what ++ " #" ++ natText index ++ ": " ++ f.message) Diagnostic.warningSeverity

section Entries

variable {α : Type} {path what : String} {decode : Value → Except Fault α} {index : Nat} {vs : List Value}
  {found : List α} {warnings : List Diagnostic}

/-- What becomes of entries, in order: an entry is found, or it is skipped with a warning that gives its
index. -/
inductive Accounted (path what : String) (decode : Value → Except Fault α) :
    Nat → List Value → List α → List Diagnostic → Prop
  | nil {index : Nat} : Accounted path what decode index [] [] []
  | found {index : Nat} {v : Value} {vs : List Value} {a : α} {more : List α} {warnings : List Diagnostic}
      (decoded : decode v = .ok a) (rest : Accounted path what decode (index + 1) vs more warnings) :
      Accounted path what decode index (v :: vs) (a :: more) warnings
  | skipped {index : Nat} {v : Value} {vs : List Value} {f : Fault} {more : List α} {warnings : List Diagnostic}
      (fault : decode v = .error f) (record : f.isRecordFault = true)
      (rest : Accounted path what decode (index + 1) vs more warnings) :
      Accounted path what decode index (v :: vs) more (skippedWarning path what index f :: warnings)

theorem Accounted.decodeAll_eq (h : Accounted path what decode index vs found warnings) :
    decodeAll path what decode index vs = .ok (found, warnings) := by
  induction h with
  | nil => rfl
  | found decoded _ ih =>
    rw [decodeAll, decoded]
    dsimp only
    rw [ih]
    rfl
  | skipped fault record _ ih =>
    rw [decodeAll, fault]
    dsimp only
    rw [record, ih]
    rfl

/-- **All entries are accounted for, or one of them has a fault that is passed on.** -/
theorem decodeAll_cases (path what : String) (decode : Value → Except Fault α) (vs : List Value) : ∀ index,
    (∃ found warnings, Accounted path what decode index vs found warnings) ∨
    ∃ v ∈ vs, ∃ f, decode v = .error f ∧ f.isRecordFault = false ∧
      decodeAll path what decode index vs = .error f := by
  induction vs with
  | nil => exact fun index => .inl ⟨[], [], .nil⟩
  | cons v vs ih =>
    intro index
    -- a fault of a later entry is passed on whether this one is found or skipped
    have hlater {f : Fault} (hrest : decodeAll path what decode (index + 1) vs = .error f)
        (hv : ∀ g, decode v = .error g → g.isRecordFault = true) :
        decodeAll path what decode index (v :: vs) = .error f := by
      rw [decodeAll]
      cases hdecode : decode v with
      | ok a =>
        dsimp only
        rw [hrest]
        rfl
      | error g =>
        dsimp only
        rw [hv g hdecode, hrest]
        rfl
    cases hdecode : decode v with
    | ok a =>
      rcases ih (index + 1) with ⟨found, warnings, hrest⟩ | ⟨w, hw, f, hf, hpassed, hrest⟩
      · exact .inl ⟨a :: found, warnings, .found hdecode hrest⟩
      · exact .inr ⟨w, List.mem_cons_of_mem _ hw, f, hf, hpassed, hlater hrest (by simp [hdecode])⟩
    | error g =>
      cases hrecord : g.isRecordFault with
      | false =>
        refine .inr ⟨v, List.mem_cons_self, g, hdecode, hrecord, ?_⟩
        rw [decodeAll, hdecode]
        dsimp only
        rw [hrecord]
        rfl
      | true =>
        rcases ih (index + 1) with ⟨found, warnings, hrest⟩ | ⟨w, hw, f, hf, hpassed, hrest⟩
        · exact .inl ⟨found, _, .skipped hdecode hrecord hrest⟩
        · refine .inr ⟨w, List.mem_cons_of_mem _ hw, f, hf, hpassed, hlater hrest ?_⟩
          rw [hdecode]
          rintro _ ⟨⟩
          exact hrecord

variable (h : Accounted path what decode index vs found warnings)

include h

theorem Accounted.isRecordFault {v : Value} {f : Fault} (hv : v ∈ vs) (hf : decode v = .error f) :
    f.isRecordFault = true := by
  induction h with
  | nil => cases hv
  | found decoded _ ih =>
    rcases List.mem_cons.1 hv with rfl | hv
    · rw [decoded] at hf
      cases hf
    · exact ih hv
  | skipped fault record _ ih =>
    rcases List.mem_cons.1 hv with rfl | hv
    · rw [fault] at hf
      cases hf
      exact record
    · exact ih hv

theorem Accounted.length_add : found.length + warnings.length = vs.length := by
  induction h with
  | nil => rfl
  | found _ _ ih => simp only [List.length_cons]; omega
  | skipped _ _ _ ih => simp only [List.length_cons]; omega

theorem Accounted.severity {d : Diagnostic} (hd : d ∈ warnings) : d.severity = Diagnostic.warningSeverity := by
  induction h with
  | nil => cases hd
  | found _ _ ih => exact ih hd
  | skipped _ _ _ ih =>
    rcases List.mem_cons.1 hd with rfl | hd
    · rfl
    · exact ih hd

end Entries

/-! ## Manifests of lists -/

/-- A manifest whose entities and edges are lists. -/
structure Lists where
  document : Entries
  entities : List Value
  edges : List Value

/-- The lists of a text. -/
def lists? (content : String) : Option Lists := do
  let .map document := (← (Yaml.load content.toList).toOption).unfold | none
  let .list entities := (lookupOr document "entities" (.list [])).unfold | none
  let .list edges := (lookupOr document "edges" (.list [])).unfold | none
  return { document, entities, edges }

theorem of_lists? {content : String} {m : Lists} (h : lists? content = some m) :
    (∃ v, Yaml.load content.toList = .ok v ∧ v.unfold = .map m.document) ∧
    (lookupOr m.document "entities" (.list [])).unfold = .list m.entities ∧
    (lookupOr m.document "edges" (.list [])).unfold = .list m.edges := by
  unfold lists? at h
  cases hload : Yaml.load content.toList with
  | error failure =>
    rw [hload] at h
    cases h
  | ok v =>
    rw [hload] at h
    dsimp only [Except.toOption, Option.bind_eq_bind, Option.bind_some] at h
    split at h
    · rename_i document hdocument
      split at h
      · rename_i entities hentities
        split at h
        · rename_i edges hedges
          cases h
          exact ⟨⟨v, rfl, hdocument⟩, hentities, hedges⟩
        · cases h
      · cases h
    · cases h

theorem eq_nil_of_isVacant {v : Value} {document : Entries} (hv : v.isVacant = true)
    (hdocument : v.unfold = .map document) : document = [] := by
  cases v with
  | map es =>
    cases hdocument
    exact List.isEmpty_iff.1 hv
  | named label content =>
    cases content with
    | map es =>
      obtain rfl := List.isEmpty_iff.1 hv
      cases hdocument
      rfl
    | again => cases hv
    | _ => cases hdocument
  | _ => cases hdocument

theorem extract_of_load {content path : String} {v : Value} {document : Entries}
    (hload : Yaml.load content.toList = .ok v) (hdocument : v.unfold = .map document) :
    extract content path = ofDocument path document := by
  have hchosen : (if v.isVacant then .map [] else v.unfold) = .map document := by
    split
    · rename_i hvacant
      rw [eq_nil_of_isVacant hvacant hdocument]
    · exact hdocument
  unfold extract
  rw [hload]
  dsimp only
  rw [hchosen]

theorem sectionOf_of_list {document : Entries} {name : String} {items : List Value} (path : String)
    (h : (lookupOr document name (.list [])).unfold = .list items) :
    sectionOf document path name = (items, []) := by
  unfold sectionOf
  rw [h]

/-- The ids by which edges name the entities. -/
def idsOf (entities : List Entity) : LocalIds := entities.map fun e => (e.name, e.id)

/-- Every entry of a manifest is in the result or in a warning, in order, and there are no other
diagnostics. -/
structure Accounts (path : String) (m : Lists) (r : ScanResult) : Prop where
  file : r.file = path
  entries : ∃ entityWarnings edgeWarnings, r.diagnostics = entityWarnings ++ edgeWarnings ∧
    Accounted path "entity" (entityOf m.document path) 0 m.entities r.entities entityWarnings ∧
    Accounted path "edge" (edgeOf (idsOf r.entities)) 0 m.edges r.edges edgeWarnings
  count : r.entities.length + r.edges.length + r.diagnostics.length = m.entities.length + m.edges.length
  severity : ∀ d ∈ r.diagnostics, d.severity = Diagnostic.warningSeverity

/-- An entry stops the manifest: a line of an entity is infinite, or the confidence of an edge is too large. -/
inductive Stops (path : String) (m : Lists) : OverflowFault → Prop
  | line {v : Value} (mem : v ∈ m.entities) (line : HasInfiniteLine v)
      (fault : entityOf m.document path v = .error (.overflow .infinityToInt)) : Stops path m .infinityToInt
  | confidence {v : Value} {entities : List Entity} {warnings : List Diagnostic}
      (accounted : Accounted path "entity" (entityOf m.document path) 0 m.entities entities warnings)
      (mem : v ∈ m.edges) (confidence : HasHugeConfidence v)
      (fault : edgeOf (idsOf entities) v = .error (.overflow .intToFloat)) : Stops path m .intToFloat

theorem accounts_of_accounted {path : String} {m : Lists} {r : ScanResult}
    {entityWarnings edgeWarnings : List Diagnostic} (hfile : r.file = path)
    (hdiagnostics : r.diagnostics = entityWarnings ++ edgeWarnings)
    (hentities : Accounted path "entity" (entityOf m.document path) 0 m.entities r.entities entityWarnings)
    (hedges : Accounted path "edge" (edgeOf (idsOf r.entities)) 0 m.edges r.edges edgeWarnings) :
    Accounts path m r where
  file := hfile
  entries := ⟨entityWarnings, edgeWarnings, hdiagnostics, hentities, hedges⟩
  count := by
    have := hentities.length_add
    have := hedges.length_add
    rw [hdiagnostics, List.length_append]
    omega
  severity := by
    intro d hd
    rw [hdiagnostics] at hd
    rcases List.mem_append.1 hd with hd | hd
    · exact hentities.severity hd
    · exact hedges.severity hd

/-- Nothing stops a manifest all of whose entries are accounted for. -/
theorem Accounts.not_stops {path : String} {m : Lists} {r : ScanResult} (h : Accounts path m r)
    (f : OverflowFault) : ¬ Stops path m f := by
  obtain ⟨entityWarnings, edgeWarnings, -, hentities, hedges⟩ := h.entries
  intro hstops
  cases hstops with
  | line mem _ fault => cases hentities.isRecordFault mem fault
  | confidence accounted mem _ fault =>
    -- the entities that were found are the same
    have hsame := accounted.decodeAll_eq.symm.trans hentities.decodeAll_eq
    rw [(Prod.mk.inj (Except.ok.inj hsame)).1] at fault
    cases hedges.isRecordFault mem fault

theorem ofDocument_cases {path : String} {m : Lists}
    (hentities : (lookupOr m.document "entities" (.list [])).unfold = .list m.entities)
    (hedges : (lookupOr m.document "edges" (.list [])).unfold = .list m.edges) :
    (∃ r, ofDocument path m.document = .ok r ∧ Accounts path m r) ∨
    ∃ f, Stops path m f ∧ ofDocument path m.document = .error (.overflow f) := by
  unfold ofDocument
  rw [sectionOf_of_list path hentities, sectionOf_of_list path hedges]
  dsimp only
  rcases decodeAll_cases path "entity" (entityOf m.document path) m.entities 0 with
    ⟨entities, entityWarnings, haccounted⟩ | ⟨v, hv, f, hf, hpassed, hall⟩
  · rw [haccounted.decodeAll_eq]
    change (∃ r, (decodeAll path "edge" (edgeOf (idsOf entities)) 0 m.edges >>= _) = _ ∧ _) ∨
      ∃ f, _ ∧ (decodeAll path "edge" (edgeOf (idsOf entities)) 0 m.edges >>= _) = _
    rcases decodeAll_cases path "edge" (edgeOf (idsOf entities)) m.edges 0 with
      ⟨edges, edgeWarnings, hedgesAccounted⟩ | ⟨v, hv, f, hf, hpassed, hall⟩
    · rw [hedgesAccounted.decodeAll_eq]
      exact .inl ⟨_, rfl, accounts_of_accounted rfl (by simp) haccounted hedgesAccounted⟩
    · rcases faults_edgeOf _ v f hf with hrecord | ⟨rfl, hhuge⟩
      · rw [hrecord] at hpassed
        cases hpassed
      · rw [hall]
        exact .inr ⟨_, .confidence haccounted hv hhuge hf, rfl⟩
  · rcases faults_entityOf _ _ v f hf with hrecord | ⟨rfl, hinfinite⟩
    · rw [hrecord] at hpassed
      cases hpassed
    · rw [hall]
      exact .inr ⟨_, .line hv hinfinite hf, rfl⟩

/-- **An entry costs only itself, or it stops the manifest.** A manifest of lists has a result in which every
entry is found or skipped with a warning, unless a line is infinite or a confidence too large. -/
theorem extract_accounts {content : String} {m : Lists} (path : String) (h : lists? content = some m) :
    ((∀ f, ¬ Stops path m f) ∧ ∃ r, extract content path = .ok r ∧ Accounts path m r) ∨
    ∃ f, Stops path m f ∧ extract content path = .error (.overflow f) := by
  obtain ⟨⟨v, hload, hdocument⟩, hentities, hedges⟩ := of_lists? h
  rw [extract_of_load hload hdocument]
  rcases ofDocument_cases hentities hedges with ⟨r, hr, haccounts⟩ | hstops
  · exact .inl ⟨haccounts.not_stops, r, hr, haccounts⟩
  · exact .inr hstops

/-- A manifest with one entity that is well formed, and two malformed entries. -/
def mixedText : String := "\x7bentities: [\x7bname: a, kind: Test\x7d, 1], edges: [2]\x7d"

theorem extract_accounts_mixed : ∃ m r, lists? mixedText = some m ∧ extract mixedText "a.impact.yml" = .ok r ∧
    Accounts "a.impact.yml" m r ∧ r.entities.length = 1 ∧
    r.diagnostics.map Diagnostic.message = ["Skipped entity #1: entity must be a mapping, got int",
      "Skipped edge #0: edge must be a mapping, got int"] := by
  have hlists : (lists? mixedText).isSome = true := by decide +kernel
  have hfound : (extract mixedText "a.impact.yml").toOption.map (fun r => (r.entities.length,
      r.diagnostics.map Diagnostic.message)) = some (1, ["Skipped entity #1: entity must be a mapping, got int",
      "Skipped edge #0: edge must be a mapping, got int"]) := by decide +kernel
  obtain ⟨m, hm⟩ := Option.isSome_iff_exists.1 hlists
  rcases extract_accounts "a.impact.yml" hm with ⟨-, r, hr, haccounts⟩ | ⟨f, -, hf⟩
  · rw [hr] at hfound
    exact ⟨m, r, hm, hr, haccounts, Prod.mk.inj (Option.some.inj hfound)⟩
  · rw [hf] at hfound
    cases hfound

/-- A manifest with one entity that is well formed but for its lines. -/
def infiniteLineText : String := "entities: [\x7bname: a, kind: Function, lines: [.inf, 0]\x7d]"

/-- An edge that is well formed but for its confidence. -/
def hugeConfidence : Value := .record [("from", .str "a"), ("to", .str "a"), ("dimension", .str "Config"),
  ("confidence", .int (2 ^ 1024))]

/-- One entry can cost all others. -/
theorem extract_stopped : (lists? infiniteLineText).isSome = true ∧
    extract infiniteLineText "a.impact.yml" = .error (.overflow .infinityToInt) ∧
    edgeOf [] hugeConfidence = .error (.overflow .intToFloat) :=
  ⟨by decide +kernel, eq_error_of_fault? (by decide +kernel), eq_error_of_fault? (by decide +kernel)⟩

end Manifest

end ChangeImpact
