import ChangeImpact.Proofs.Order
import ChangeImpact.Proofs.RoundTrips
import ChangeImpact.Proofs.Storage

/-!
# What becomes of a value in storage

A document knows fewer values than a manifest: its keys are texts, it has lists for pairs, and two halves
of a pair that were written one after the other are one character when they are read. So a value can change
when it is stored. It changes once: what was read back is a value of the format, and comes back as it is.

* `Json.joined_joined`, `Value.isJson_of_reread`: what is read back is of the format.
* `Value.same_reread_iff`: **a value comes back equal if and only if it is of the format.**
* `Entity.reread_toRecord`: the entity that is read back, with its texts and metadata as they become.
* `Database.entity_comes_back_iff`: which of the entities that are found in files come back equal.
-/

namespace ChangeImpact

namespace Text

/-! ## Texts that are read back -/

namespace Point

/-- A code point that is read from a text: a character, half of a pair, or a shift without a meaning,
which counts above all code points. -/
def Read : Point → Prop
  | .char _ => True
  | .half n => (isHighHalf n || isLowHalf n) = true ∨ pointLimit ≤ n

/-- A code point as its text is read again: shifts without a meaning are all written alike. -/
def settled : Point → Point
  | .char c => .char c
  | .half n => if isHighHalf n || isLowHalf n then .half n else .half (pointLimit + 1)

/-- Two halves that form a pair. -/
def pairs : Point → Point → Bool
  | .half a, .half b => isHighHalf a && isLowHalf b
  | _, _ => false

theorem pairs_settled (p q : Point) : pairs p.settled q.settled = pairs p q := by
  have hlimit : isHighHalf (pointLimit + 1) = false ∧ isLowHalf (pointLimit + 1) = false := by decide
  cases p with
  | char c => rfl
  | half a =>
    cases q with
    | char d => rw [settled, settled]; split <;> rfl
    | half b =>
      by_cases ha : (isHighHalf a || isLowHalf a) = true <;>
        by_cases hb : (isHighHalf b || isLowHalf b) = true <;>
        simp_all [settled, pairs]

theorem read_afterShift (c : Char) : (afterShift c).Read := by
  unfold afterShift
  extract_lets n
  by_cases hc : (c == shiftStandIn) = true
  · rw [if_pos hc]
    trivial
  by_cases hn : (isHighHalf n || isLowHalf n) = true
  · rw [if_neg hc, if_pos hn]
    exact .inl hn
  · rw [if_neg hc, if_neg hn]
    exact .inr (by omega)

theorem read_last (c : Char) : (last c).Read := by
  unfold last
  split
  · exact .inr (Nat.le_refl _)
  · trivial

/-- A shift without a meaning is written with the null character. -/
theorem text_half {n : Nat} (h : pointLimit ≤ n) : (Point.half n).text = [shift, Char.ofNat 0] := by
  have hinvalid : ¬ (n + halfDistance).isValidChar := by
    unfold Nat.isValidChar pointLimit halfDistance at *
    omega
  have hnull : Char.ofNat (n + halfDistance) = Char.ofNat 0 := by
    unfold Char.ofNat
    rw [dif_neg hinvalid]
    rfl
  rw [text, hnull]

theorem afterShift_null : afterShift (Char.ofNat 0) = .half (pointLimit + 1) := by decide

theorem text_settled {p : Point} (h : p.Read) : p.settled.text = p.text := by
  cases p with
  | char c => rfl
  | half n =>
    rw [settled]
    split
    · rfl
    · rename_i hn
      rw [text_half (h.resolve_left hn), text_half (Nat.le_succ _)]

/-- The character that stands for a half after a shift is read as the half. -/
theorem afterShift_standIn {n : Nat} (h : (isHighHalf n || isLowHalf n) = true) :
    afterShift (Char.ofNat (n + halfDistance)) = .half n := by
  have hbounds : 0xd800 ≤ n ∧ n < 0xe000 := by
    simp only [isHighHalf, isLowHalf, Bool.or_eq_true, Bool.and_eq_true, decide_eq_true_eq] at h
    omega
  have hvalid : (n + halfDistance).isValidChar := by
    unfold Nat.isValidChar halfDistance
    omega
  have hcode : (Char.ofNat (n + halfDistance)).toNat = n + halfDistance := by
    rw [Char.ofNat, dif_pos hvalid]
    rfl
  have hstandIn : Char.ofNat (n + halfDistance) ≠ shiftStandIn := by
    intro heq
    have hcodes := congrArg Char.toNat heq
    rw [hcode, show shiftStandIn.toNat = 0xde000 by decide] at hcodes
    unfold halfDistance at hcodes
    omega
  unfold afterShift
  dsimp only
  rw [if_neg (by simpa using hstandIn), hcode, Nat.add_sub_cancel, if_pos h]

theorem text_ne_nil (p : Point) : p.text ≠ [] := by
  cases p with
  | char c => rw [text]; split <;> simp
  | half n => simp [text]

/-- What is written first is read first. -/
theorem points_text_append {p : Point} (h : p.Read) (cs : List Char) :
    points (p.text ++ cs) = p.settled :: points cs := by
  cases p with
  | char c =>
    rw [text, settled]
    split
    · rename_i hc
      obtain rfl : c = shift := by simpa using hc
      exact (points_cons_cons shift shiftStandIn cs).trans (if_pos rfl)
    · rename_i hc
      have hc : c ≠ shift := by simpa using hc
      cases cs with
      | nil => rw [List.append_nil, points_singleton, last, if_neg (by simpa using hc)]; rfl
      | cons d cs => exact (points_cons_cons c d cs).trans (if_neg hc)
  | half n =>
    rw [settled]
    split
    · rename_i hn
      rw [text, List.cons_append, List.cons_append, List.nil_append, points_cons_cons, if_pos rfl,
        afterShift_standIn hn]
    · rename_i hn
      rw [text_half (h.resolve_left hn), List.cons_append, List.cons_append, List.nil_append,
        points_cons_cons, if_pos rfl, afterShift_null]

end Point

theorem read_of_mem_points (cs : List Char) : ∀ p ∈ points cs, p.Read := by
  induction cs using List.twoStepInduction with
  | nil => intro p hp; cases hp
  | singleton c =>
    intro p hp
    rw [points_singleton, List.mem_singleton] at hp
    exact hp ▸ Point.read_last c
  | cons_cons c d cs ih ih' =>
    intro p hp
    rw [points_cons_cons] at hp
    split at hp
    · rcases List.mem_cons.1 hp with rfl | hp
      · exact Point.read_afterShift d
      · exact ih p hp
    · rcases List.mem_cons.1 hp with rfl | hp
      · trivial
      · exact ih' d p hp

theorem points_ofPoints {ps : List Point} (h : ∀ p ∈ ps, p.Read) :
    points (ofPoints ps) = ps.map Point.settled := by
  induction ps with
  | nil => rfl
  | cons p ps ih =>
    rw [List.forall_mem_cons] at h
    rw [ofPoints, List.flatMap_cons, Point.points_text_append h.1, List.map_cons]
    exact congrArg _ (ih h.2)

theorem ofPoints_settled {ps : List Point} (h : ∀ p ∈ ps, p.Read) :
    ofPoints (ps.map Point.settled) = ofPoints ps := by
  rw [ofPoints, List.flatMap_map, ofPoints]
  exact List.flatMap_congr fun p hp => Point.text_settled (h p hp)

/-- No two neighbours form a pair. -/
def Parted (ps : List Point) : Prop := ps.IsChain fun p q => p.pairs q = false

theorem mem_joinHalves {ps : List Point} {p : Point} (h : p ∈ joinHalves ps) :
    p ∈ ps ∨ ∃ c, p = .char c := by
  fun_induction joinHalves ps with
  | case1 a b ps hab ih =>
    rcases List.mem_cons.1 h with rfl | h
    · exact .inr ⟨_, rfl⟩
    · exact (ih h).imp_left fun hp => List.mem_cons_of_mem _ (List.mem_cons_of_mem _ hp)
  | case2 a b ps hab ih =>
    rcases List.mem_cons.1 h with rfl | h
    · exact .inl List.mem_cons_self
    · exact (ih h).imp_left (List.mem_cons_of_mem _)
  | case3 q ps _ ih =>
    rcases List.mem_cons.1 h with rfl | h
    · exact .inl List.mem_cons_self
    · exact (ih h).imp_left (List.mem_cons_of_mem _)
  | case4 => cases h

theorem head?_joinHalves {ps : List Point} {p : Point} (h : p ∈ (joinHalves ps).head?) :
    p ∈ ps.head? ∨ ∃ c, p = .char c := by
  fun_induction joinHalves ps with
  | case1 a b ps hab ih => exact .inr ⟨_, (Option.some.inj h).symm⟩
  | case2 a b ps hab ih => exact .inl h
  | case3 q ps _ ih => exact .inl h
  | case4 => cases h

theorem parted_joinHalves (ps : List Point) : Parted (joinHalves ps) := by
  have hchar (p : Point) (c : Char) : p.pairs (.char c) = false := by cases p <;> rfl
  fun_induction joinHalves ps with
  | case1 a b ps hab ih => exact ih.cons fun _ _ => rfl
  | case2 a b ps hab ih =>
    refine ih.cons fun q hq => ?_
    rcases head?_joinHalves hq with hq | ⟨c, rfl⟩
    · obtain rfl := Option.some.inj hq
      exact Bool.eq_false_iff.2 hab
    · exact hchar _ c
  | case3 p ps hnot ih =>
    refine ih.cons fun q hq => ?_
    rcases head?_joinHalves hq with hq | ⟨c, rfl⟩
    · -- were both of them halves, the first case would have applied
      cases p with
      | char c => rfl
      | half a =>
        cases q with
        | char d => rfl
        | half b =>
          obtain ⟨qs, rfl⟩ := List.head?_eq_some_iff.1 hq
          exact (hnot a b qs rfl rfl).elim
    · exact hchar _ c
  | case4 => exact .nil

theorem joinHalves_of_parted {ps : List Point} (h : Parted ps) : joinHalves ps = ps := by
  unfold Parted at h
  fun_induction joinHalves ps with
  | case1 a b ps hab ih =>
    have hpair := (List.isChain_cons.1 h).1 (.half b) rfl
    exact absurd hab (Bool.eq_false_iff.1 hpair)
  | case2 a b ps hab ih => rw [ih (List.isChain_cons.1 h).2]
  | case3 p ps _ ih => rw [ih (List.isChain_cons.1 h).2]
  | case4 => rfl

theorem Parted.settled {ps : List Point} (h : Parted ps) : Parted (ps.map Point.settled) := by
  refine (List.isChain_map _).2 (h.imp fun p q hpq => ?_)
  rw [Point.pairs_settled]
  exact hpq

end Text

namespace Json

open Text

theorem joined_of_not_hasHalf {s : String} (h : hasHalf s = false) : joined s = s := by
  unfold joined
  rw [h]
  rfl

/-- **A text that was read back is read back as it is.** -/
theorem joined_joined (s : String) : joined (joined s) = joined s := by
  by_cases hs : hasHalf s = true
  · have hread : ∀ p ∈ joinHalves (points s.toList), p.Read := by
      intro p hp
      rcases mem_joinHalves hp with hp | ⟨c, rfl⟩
      · exact read_of_mem_points _ p hp
      · trivial
    -- what is joined once has no pairs left, and reading its text again does not make any
    have hs : joined s = String.ofList (ofPoints (joinHalves (points s.toList))) := if_pos hs
    rw [hs]
    unfold joined
    split
    · rw [String.toList_ofList, points_ofPoints hread, joinHalves_of_parted (parted_joinHalves _).settled,
        ofPoints_settled hread]
    · rfl
  · have hs : joined s = s := joined_of_not_hasHalf (Bool.eq_false_iff.2 hs)
    rw [hs, hs]

theorem joined_ne_empty {s : String} (h : s ≠ "") : joined s ≠ "" := by
  unfold joined
  split
  · obtain ⟨c, cs, hs⟩ := List.exists_cons_of_ne_nil (l := s.toList) (by simpa using h)
    refine ofList_ne_empty fun hempty => ?_
    obtain ⟨p, ps, hps⟩ := List.exists_cons_of_ne_nil (points_ne_nil c cs)
    rw [hs, hps] at hempty
    have hjoin : joinHalves (p :: ps) ≠ [] := by
      unfold joinHalves
      split
      · split <;> simp
      · simp
      · simp_all
    obtain ⟨q, qs, hqs⟩ := List.exists_cons_of_ne_nil hjoin
    rw [hqs, ofPoints, List.flatMap_cons, List.append_eq_nil_iff] at hempty
    exact q.text_ne_nil hempty.1
  · exact h

end Json

namespace Value

open Entries

/-! ## Values that are read back -/

theorem isJson_map_cons {e : Value × Value} {es : Entries} : (Value.map (e :: es)).isJson = true ↔
    entryJson e = true ∧ keyName e ∉ es.map keyName ∧ (Value.map es).isJson = true := by
  rw [isJson_map, isJson_map, List.map_cons, List.nodup_cons, allEntriesJson, Bool.and_eq_true]
  tauto

theorem keyName_congr {d e : Value × Value} (h : d.1 = e.1) : keyName d = keyName e := by
  obtain ⟨k, v⟩ := d
  obtain ⟨l, w⟩ := e
  obtain rfl : k = l := h
  cases k <;> rfl

theorem keyName_of_mem_put {acc : Entries} {t : String} {v : Value} {n : Option String}
    (h : n ∈ (put acc (.str t) v).map keyName) : n = some t ∨ n ∈ acc.map keyName := by
  induction acc with
  | nil => exact .inl (List.mem_singleton.1 h)
  | cons e acc ih =>
    obtain ⟨k, w⟩ := e
    rw [put] at h
    split at h
    · rename_i hk
      obtain rfl := same_str_iff.1 hk
      exact .inr h
    · rcases List.mem_cons.1 h with h | h
      · exact .inr (h ▸ List.mem_cons_self)
      · exact (ih h).imp_right (List.mem_cons_of_mem _)

/-- A mapping of the format stays one when a text is put into it. -/
theorem isJson_put {acc : Entries} {t : String} {v : Value} (hacc : (Value.map acc).isJson = true)
    (hentry : entryJson (.str t, v) = true) : (Value.map (put acc (.str t) v)).isJson = true := by
  induction acc with
  | nil => exact isJson_map_cons.2 ⟨hentry, List.not_mem_nil, hacc⟩
  | cons e acc ih =>
    obtain ⟨he, hnew, hrest⟩ := isJson_map_cons.1 hacc
    obtain ⟨k, w⟩ := e
    rw [put]
    split
    · rename_i hk
      obtain rfl := same_str_iff.1 hk
      exact isJson_map_cons.2 ⟨hentry, hnew, hrest⟩
    · rename_i hk
      -- the first key is none of those after it, and it is not the text that is put
      refine isJson_map_cons.2 ⟨he, fun hmem => ?_, ih hrest⟩
      rcases keyName_of_mem_put hmem with hname | hmem
      · exact hk (same_str_iff.2 (keyName_eq_some hname))
      · exact hnew hmem

/-- Entries with texts as keys, of which the last with one key counts, are a mapping of the format. -/
theorem isJson_ofList {es : Entries} (h : allEntriesJson es = true) :
    (Value.map (ofList es)).isJson = true := by
  refine List.foldlRecOn es _ (motive := fun acc => (Value.map acc).isJson = true) rfl
    fun acc hacc e he => ?_
  have hentry := allEntriesJson_iff.1 h e he
  obtain ⟨t, ht⟩ := Option.isSome_iff_exists.1 (named_of_allEntriesJson h e he)
  obtain ⟨k, v⟩ := e
  obtain rfl : k = .str t := keyName_eq_some ht
  exact isJson_put hacc hentry

mutual

/-- **What is read back is a value of the format.** -/
theorem isJson_of_reread : ∀ (v : Value) {w : Value}, Json.reread v = .ok w → w.isJson = true
  | .null, _ => fun h => Except.ok.inj h ▸ rfl
  | .bool _, _ => fun h => Except.ok.inj h ▸ rfl
  | .float _, _ => fun h => Except.ok.inj h ▸ rfl
  | .int n, _ => by
    intro h
    unfold Json.reread at h
    split at h
    · exact Except.ok.inj h ▸ rfl
    · cases h
  | .str s, _ => fun h => Except.ok.inj h ▸ isJson_str.2 (Json.joined_joined s)
  | .list items, _ => by
    intro h
    unfold Json.reread at h
    rw [bind_eq_ok] at h
    obtain ⟨ws, hws, h⟩ := h
    rw [← Except.ok.inj h]
    exact allJson_of_reread items hws
  | .pair a b, _ => by
    intro h
    unfold Json.reread at h
    rw [bind_eq_ok] at h
    obtain ⟨x, hx, h⟩ := h
    rw [bind_eq_ok] at h
    obtain ⟨y, hy, h⟩ := h
    rw [← Except.ok.inj h]
    simp [isJson, allJson, isJson_of_reread a hx, isJson_of_reread b hy]
  | .map entries, _ => by
    intro h
    unfold Json.reread at h
    rw [bind_eq_ok] at h
    obtain ⟨ws, hws, h⟩ := h
    rw [← Except.ok.inj h]
    exact isJson_ofList (allEntriesJson_of_reread entries hws)
  | .named _ content, _ => isJson_of_reread content
  | .set _, _ | .bytes _, _ | .date _, _ | .datetime _, _ | .again _, _ => nofun
termination_by structural v => v

theorem allJson_of_reread : ∀ (vs : List Value) {ws : List Value}, Json.rereadItems vs = .ok ws →
    allJson ws = true
  | [], _, h => by
    rw [← Except.ok.inj h]
    rfl
  | v :: vs, _, h => by
    unfold Json.rereadItems at h
    rw [bind_eq_ok] at h
    obtain ⟨w, hw, h⟩ := h
    rw [bind_eq_ok] at h
    obtain ⟨ws, hws, h⟩ := h
    rw [← Except.ok.inj h, allJson, isJson_of_reread v hw, allJson_of_reread vs hws]
    rfl
termination_by structural vs => vs

theorem entryJson_of_reread : ∀ (e : Value × Value) {d : Value × Value}, Json.rereadEntry e = .ok d →
    entryJson d = true
  | (k, v), _, h => by
    unfold Json.rereadEntry at h
    rw [bind_eq_ok] at h
    obtain ⟨t, -, h⟩ := h
    rw [bind_eq_ok] at h
    obtain ⟨w, hw, h⟩ := h
    rw [← Except.ok.inj h, entryJson, isJson_of_reread v hw, isJson_str.2 (Json.joined_joined t)]
    rfl
termination_by structural e => e

theorem allEntriesJson_of_reread : ∀ (es : Entries) {ds : Entries}, Json.rereadEntries es = .ok ds →
    allEntriesJson ds = true
  | [], _, h => by
    rw [← Except.ok.inj h]
    rfl
  | e :: es, _, h => by
    unfold Json.rereadEntries at h
    rw [bind_eq_ok] at h
    obtain ⟨d, hd, h⟩ := h
    rw [bind_eq_ok] at h
    obtain ⟨ds, hds, h⟩ := h
    rw [← Except.ok.inj h, allEntriesJson, entryJson_of_reread e hd, allEntriesJson_of_reread es hds]
    rfl
termination_by structural es => es

end

/-- What denotes a number without being named is a truth value or a number. -/
theorem isJson_of_denotes {v : Value} {n : Numeric} (h : v.denotes n = true) : v.isJson = true := by
  cases v <;> first | rfl | cases h

/-- Mappings of one length, with the entries of one within the other and different names in the first: each
entry of the second is equal to one of the first. -/
theorem exists_entry_of_entriesWithin {xs ys : Entries} (hnames : (xs.map keyName).Nodup)
    (hnamed : Named xs) (hlength : xs.length = ys.length) (h : entriesWithin xs ys = true) :
    (ys.map keyName).Nodup ∧ ∀ y ∈ ys, ∃ x ∈ xs, x.1 = y.1 ∧ x.2.same y.2 = true := by
  have hpartner : ∀ x ∈ xs, ∃ y ∈ ys, x.1 = y.1 ∧ x.2.same y.2 = true := by
    intro x hx
    obtain ⟨y, hy, hkey, hvalue⟩ := entriesWithin_iff.1 h x hx
    obtain ⟨t, ht⟩ := Option.isSome_iff_exists.1 (hnamed x hx)
    rw [keyName_eq_some ht] at hkey ⊢
    exact ⟨y, hy, (str_same_iff.1 hkey).symm, hvalue⟩
  -- as many names as there are entries, all different: no name of the second is left over
  have hperm : (xs.map keyName).Perm (ys.map keyName) := by
    refine (hnames.subperm fun n hn => ?_).perm_of_length_le (by simp [hlength])
    obtain ⟨x, hx, rfl⟩ := List.mem_map.1 hn
    obtain ⟨y, hy, hkey, -⟩ := hpartner x hx
    exact List.mem_map.2 ⟨y, hy, (keyName_congr hkey).symm⟩
  have hnodup := hperm.nodup_iff.1 hnames
  refine ⟨hnodup, fun y hy => ?_⟩
  obtain ⟨x, hx, hxy⟩ := List.mem_map.1 (hperm.mem_iff.2 (List.mem_map_of_mem hy))
  obtain ⟨z, hz, hkey, hvalue⟩ := hpartner x hx
  obtain rfl := List.inj_on_of_nodup_map hnodup hz hy ((keyName_congr hkey).symm.trans hxy)
  exact ⟨x, hx, hkey, hvalue⟩

mutual

/-- What a value of the format is equal to is one too. -/
theorem isJson_of_same : ∀ (w : Value) {v : Value}, w.isJson = true → w.same v = true →
    v.isJson = true
  | .null, v, _, h => by cases v <;> first | rfl | cases h
  | .bool _, _, _, h | .int _, _, _, h | .float _, _, _, h => isJson_of_denotes h
  | .str s, _, hw, h => by
    rw [str_same_iff.1 h]
    exact hw
  | .list xs, v, hw, h => by
    cases v with
    | list ys => exact allJson_of_same xs hw h
    | _ => cases h
  | .map xs, v, hw, h => by
    cases v with
    | map ys =>
      obtain ⟨hnames, hentries⟩ := isJson_map.1 hw
      rw [same, Bool.and_eq_true, beq_iff_eq] at h
      obtain ⟨hnodup, hpartner⟩ :=
        exists_entry_of_entriesWithin hnames (named_of_allEntriesJson hentries) h.1 h.2
      refine isJson_map.2 ⟨hnodup, allEntriesJson_iff.2 fun y hy => ?_⟩
      obtain ⟨x, hx, hkey, hvalue⟩ := hpartner y hy
      exact entriesJson_of_same xs hentries x hx y hkey hvalue
    | _ => cases h
  | .pair _ _, _, hw, _ | .set _, _, hw, _ | .bytes _, _, hw, _ | .date _, _, hw, _
  | .datetime _, _, hw, _ | .named _ _, _, hw, _ | .again _, _, hw, _ => by cases hw
termination_by structural w => w

theorem allJson_of_same : ∀ (xs : List Value) {ys : List Value}, allJson xs = true →
    sameItems xs ys = true → allJson ys = true
  | [], ys, _, h => by
    rw [List.isEmpty_iff.1 h]
    rfl
  | x :: xs, ys, hx, h => by
    cases ys with
    | nil => cases h
    | cons y ys =>
      rw [allJson, Bool.and_eq_true] at hx
      rw [sameItems, Bool.and_eq_true] at h
      rw [allJson, isJson_of_same x hx.1 h.1, allJson_of_same xs hx.2 h.2]
      rfl
termination_by structural xs => xs

theorem entryJson_of_same : ∀ (x : Value × Value) {y : Value × Value}, entryJson x = true →
    x.1 = y.1 → x.2.same y.2 = true → entryJson y = true
  | (k, v), (l, w), hx, hkey, h => by
    obtain rfl : k = l := hkey
    rw [entryJson, Bool.and_eq_true, Bool.and_eq_true] at hx ⊢
    refine ⟨⟨?_, hx.1.2⟩, isJson_of_same v hx.2 h⟩
    rw [← keyName_congr (show (k, v).1 = (k, w).1 from rfl)]
    exact hx.1.1
termination_by structural x => x

theorem entriesJson_of_same : ∀ (xs : List (Value × Value)), allEntriesJson xs = true → ∀ x ∈ xs,
    ∀ y : Value × Value, x.1 = y.1 → x.2.same y.2 = true → entryJson y = true
  | [], _, _, hx => by cases hx
  | z :: xs, h, x, hx => by
    intro y hkey hsame
    rw [allEntriesJson, Bool.and_eq_true] at h
    rcases List.mem_cons.1 hx with hxz | hx
    · rw [hxz] at hkey hsame
      exact entryJson_of_same z h.1 hkey hsame
    · exact entriesJson_of_same xs h.2 x hx y hkey hsame
termination_by structural xs => xs

end

/-- **A value comes back equal if and only if it is one of the format**, and then it comes back itself. -/
theorem same_reread_iff {v w : Value} (h : Json.reread v = .ok w) :
    (w.same v = true ↔ v.isJson = true) ∧ (v.isJson = true → w = v) := by
  refine ⟨⟨isJson_of_same w (isJson_of_reread v h), fun hv => ?_⟩, fun hv => Json.reread_eq v hv h⟩
  rw [Json.reread_eq v hv h]
  exact same_self v

end Value

/-! ## Records that are read back -/

namespace Json

open Value

theorem rereadEntries_record {fields : List (String × Value)} : ∀ {ds : Entries},
    (∀ name ∈ fields.map (·.1), joined name = name) →
    rereadEntries (fields.map fun f => (.str f.1, f.2)) = .ok ds →
    ∃ values, List.Forall₂ (fun v x => reread v = .ok x) (fields.map (·.2)) values ∧
      ds = ((fields.map (·.1)).zip values).map fun f => (.str f.1, f.2) := by
  induction fields with
  | nil => exact fun _ h => ⟨[], .nil, (Except.ok.inj h).symm⟩
  | cons f fields ih =>
    intro ds hjoined h
    rw [List.map_cons, List.forall_mem_cons] at hjoined
    rw [List.map_cons, rereadEntries, bind_eq_ok] at h
    obtain ⟨d, hd, h⟩ := h
    rw [bind_eq_ok] at h
    obtain ⟨ds', hds, h⟩ := h
    obtain ⟨values, hvalues, rfl⟩ := ih hjoined.2 hds
    rw [rereadEntry, bind_eq_ok] at hd
    obtain ⟨name, hname, hd⟩ := hd
    rw [bind_eq_ok] at hd
    obtain ⟨x, hx, hd⟩ := hd
    refine ⟨x :: values, .cons hx hvalues, ?_⟩
    rw [← Except.ok.inj h, ← Except.ok.inj hd, ← Except.ok.inj hname, hjoined.1]
    rfl

/-- The parts of a record are read back one by one, under the same names. -/
theorem reread_record {fields : List (String × Value)} {w : Value} (hnames : (fields.map (·.1)).Nodup)
    (hjoined : ∀ name ∈ fields.map (·.1), joined name = name) (h : reread (.record fields) = .ok w) :
    ∃ values, List.Forall₂ (fun v x => reread v = .ok x) (fields.map (·.2)) values ∧
      w = .record ((fields.map (·.1)).zip values) := by
  unfold record reread at h
  rw [bind_eq_ok] at h
  obtain ⟨ds, hds, h⟩ := h
  obtain ⟨values, hvalues, rfl⟩ := rereadEntries_record hjoined hds
  refine ⟨values, hvalues, ?_⟩
  -- the names are different before and after, so no part takes the place of another
  have hlength : values.length = (fields.map (·.1)).length := by
    rw [← hvalues.length_eq, List.length_map, List.length_map]
  have hnamed : ((fields.map (·.1)).zip values).map (·.1) = fields.map (·.1) :=
    List.map_fst_zip hlength.ge
  have hkeys : (((fields.map (·.1)).zip values).map fun f => ((.str f.1, f.2) : Value × Value)).map
      keyName = (((fields.map (·.1)).zip values).map (·.1)).map some := by
    rw [List.map_map, List.map_map]
    rfl
  rw [← Except.ok.inj h, Entries.ofList_eq_self, record]
  · rw [hkeys, hnamed, List.nodup_map_iff (Option.some_injective _)]
    exact hnames
  · intro e he
    obtain ⟨f, -, rfl⟩ := List.mem_map.1 he
    rfl

end Json

namespace ShapeField

/-- A field as it is read back. -/
def reread (f : ShapeField) : ShapeField :=
  { f with name := Json.joined f.name, type := Json.joined f.type, source := Json.joined f.source }

theorem reread_toRecord {f : ShapeField} {w : Value} (h : Json.reread f.toRecord = .ok w) :
    w = f.reread.toRecord := by
  obtain ⟨values, hvalues, rfl⟩ := Json.reread_record (by simp) (by dsimp only [List.map]; decide) h
  simp only [List.map_cons, List.map_nil, List.forall₂_cons_left_iff, List.forall₂_nil_left_iff] at hvalues
  obtain ⟨_, _, hname, ⟨_, _, htype, ⟨_, _, hrequired, ⟨_, _, hsource, rfl, rfl⟩, rfl⟩, rfl⟩, rfl⟩ := hvalues
  rw [← Except.ok.inj hname, ← Except.ok.inj htype, ← Except.ok.inj hrequired, ← Except.ok.inj hsource]
  rfl

theorem rereadItems_toRecord (fields : List ShapeField) : ∀ {ws : List Value},
    Json.rereadItems (fields.map toRecord) = .ok ws → ws = (fields.map reread).map toRecord := by
  induction fields with
  | nil => exact fun h => (Except.ok.inj h).symm
  | cons f fields ih =>
    intro ws h
    rw [List.map_cons, Json.rereadItems, bind_eq_ok] at h
    obtain ⟨w, hw, h⟩ := h
    rw [bind_eq_ok] at h
    obtain ⟨ws', hws, h⟩ := h
    rw [← Except.ok.inj h, reread_toRecord hw, ih hws]
    rfl

end ShapeField

theorem Location.reread_toRecord {l : Location} {w : Value} (h : Json.reread l.toRecord = .ok w) :
    w = { l with file := Json.joined l.file : Location }.toRecord := by
  obtain ⟨values, hvalues, rfl⟩ := Json.reread_record (by simp) (by dsimp only [List.map]; decide) h
  simp only [List.map_cons, List.map_nil, List.forall₂_cons_left_iff, List.forall₂_nil_left_iff] at hvalues
  obtain ⟨_, _, hfile, ⟨_, _, hstart, ⟨_, _, hend, rfl, rfl⟩, rfl⟩, rfl⟩ := hvalues
  rw [← Except.ok.inj hfile, Json.reread_eq _ rfl hstart, Json.reread_eq _ rfl hend]
  rfl

theorem EntityKind.isJson_word (k : EntityKind) : (Value.str k.word).isJson = true := by
  cases k <;> decide

theorem Layer.isJson_text? (layer : Option Layer) : (Value.text? (layer.map Layer.word)).isJson = true := by
  rcases layer with _ | layer
  · rfl
  · cases layer <;> decide

namespace Entity

variable {e d : Entity} {w : Value} {metadata : Entries}

/-- An entity as it is read back with some metadata. -/
def reread (e : Entity) (metadata : Entries) : Entity :=
  { e with
    id := Json.joined e.id
    language := Json.joined e.language
    location := { e.location with file := Json.joined e.location.file }
    name := Json.joined e.name
    shape := e.shape.map fun fields => fields.map ShapeField.reread
    metadata }

theorem reread_toRecord (h : Json.reread e.toRecord = .ok w) : ∃ metadata,
    Json.reread (.map e.metadata) = .ok (.map metadata) ∧ w = (e.reread metadata).toRecord := by
  obtain ⟨values, hvalues, rfl⟩ := Json.reread_record (by simp) (by dsimp only [List.map]; decide) h
  simp only [List.map_cons, List.map_nil, List.forall₂_cons_left_iff, List.forall₂_nil_left_iff] at hvalues
  obtain ⟨_, _, hid, ⟨_, _, hkind, ⟨_, _, hlanguage, ⟨_, _, hname, ⟨_, _, hlocation, ⟨_, _, hlayer,
    ⟨_, _, hmetadata, ⟨_, _, hshape, rfl, rfl⟩, rfl⟩, rfl⟩, rfl⟩, rfl⟩, rfl⟩, rfl⟩, rfl⟩ := hvalues
  have hmap := hmetadata
  unfold Json.reread at hmap
  rw [bind_eq_ok] at hmap
  obtain ⟨entries, -, hmap⟩ := hmap
  obtain rfl := Except.ok.inj hmap
  refine ⟨_, hmetadata, ?_⟩
  rw [← Except.ok.inj hid, Json.reread_eq _ e.kind.isJson_word hkind, ← Except.ok.inj hlanguage,
    ← Except.ok.inj hname, Location.reread_toRecord hlocation,
    Json.reread_eq _ (Layer.isJson_text? e.layer) hlayer]
  unfold toRecord reread
  dsimp only
  cases hfields : e.shape with
  | none =>
    rw [hfields] at hshape
    rw [← Except.ok.inj hshape]
    rfl
  | some fields =>
    rw [hfields] at hshape
    dsimp only at hshape
    unfold Json.reread at hshape
    rw [bind_eq_ok] at hshape
    obtain ⟨ws, hws, hshape⟩ := hshape
    rw [← Except.ok.inj hshape, ShapeField.rereadItems_toRecord fields hws]
    rfl

theorem Valid.reread (h : e.Valid) (metadata : Entries) : (e.reread metadata).Valid where
  id := Json.joined_ne_empty h.id
  name := Json.joined_ne_empty h.name
  shaped hs := h.shaped (by simpa [Entity.reread] using hs)
  fields f hf := by
    obtain ⟨g, hg, rfl⟩ : ∃ g ∈ e.fields, g.reread = f := by
      unfold Entity.reread Entity.fields at hf
      cases hshape : e.shape with
      | none => simp [hshape] at hf
      | some fields => simpa [hshape, Entity.fields] using hf
    exact Json.joined_ne_empty (h.fields g hg)

/-- **A valid entity comes back equal if and only if its record is of the format**, and then it comes back
itself. -/
theorem Valid.same_reread_iff (h : e.Valid) (hw : Json.reread e.toRecord = .ok w)
    (hd : ofRecord w = .ok d) : (d.same e = true ↔ e.toRecord.isJson = true) ∧
      (e.toRecord.isJson = true → d = e) := by
  have hself : e.toRecord.isJson = true → d = e := by
    intro hjson
    rw [Json.reread_eq _ hjson hw, ofRecord_toRecord h] at hd
    exact (Except.ok.inj hd).symm
  refine ⟨⟨fun hsame => ?_, fun hjson => hself hjson ▸ d.same_self⟩, hself⟩
  obtain ⟨metadata, hmetadata, rfl⟩ := reread_toRecord hw
  rw [ofRecord_toRecord (h.reread metadata)] at hd
  obtain rfl := Except.ok.inj hd
  simp only [same, Bool.and_eq_true, beq_iff_eq] at hsame
  obtain ⟨⟨⟨⟨⟨⟨⟨hid, hkind⟩, hlanguage⟩, hlocation⟩, hname⟩, hlayer⟩, hshape⟩, hmap⟩ := hsame
  obtain ⟨hiff, heq⟩ := Value.same_reread_iff hmetadata
  have hmap := Value.map.inj (heq (hiff.1 hmap))
  -- all parts are those of the entity, so the record that was read back is its own
  have hrecord : e.reread metadata = e := by
    cases e
    simp_all [Entity.reread]
  rw [← hrecord]
  exact Value.isJson_of_reread _ hw

/-- Equality of entities that share no values: a value that is no number is equal only to itself, so an
entity with such metadata is equal to no other. -/
def equalApart (a b : Entity) : Bool :=
  a.same b && !(Value.map a.metadata).anyLeaf Value.isNan

/-- An entity that a manifest, given by its mapping or its text, or a file of configuration keys declares. -/
inductive Extracted : Entity → Prop
  | mapping {path : String} {document : Entries} {r : ScanResult} {e : Entity}
      (found : Manifest.ofDocument path document = .ok r) (mem : e ∈ r.entities) : Extracted e
  | manifest {content path : String} {r : ScanResult} {e : Entity}
      (found : Manifest.extract content path = .ok r) (mem : e ∈ r.entities) : Extracted e
  | keys {content path : String} {r : ScanResult} {e : Entity}
      (found : ConfigKeys.extract content path = .ok r) (mem : e ∈ r.entities) : Extracted e

theorem Extracted.valid (h : e.Extracted) : e.Valid := by
  cases h with
  | mapping found mem => exact (Manifest.valid_ofDocument found).entities e mem
  | manifest found mem => exact (Manifest.valid_of_extract found).entities e mem
  | keys found mem => exact (ConfigKeys.valid_of_extract found).entities e mem

/-- What a document of a valid entity decodes to. -/
theorem Valid.decode_document {row : Document} (h : e.Valid)
    (hrow : Document.ofValue e.toRecord = .ok row) : ∃ d, (row.read >>= ofRecord) = .ok d ∧
      d.id = Json.joined e.id ∧ d.Storable ∧ (d.equalApart e = true ↔
        e.toRecord.isJson = true ∧ (Value.map e.metadata).anyLeaf Value.isNan = false) := by
  unfold Document.ofValue at hrow
  rw [bind_eq_ok] at hrow
  obtain ⟨w, hw, hrow⟩ := hrow
  obtain rfl := Except.ok.inj hrow
  obtain ⟨metadata, -, hrecord⟩ := reread_toRecord hw
  have hvalid := h.reread metadata
  have hd : ofRecord w = .ok (e.reread metadata) := hrecord ▸ ofRecord_toRecord hvalid
  refine ⟨e.reread metadata, hd, rfl, ⟨hvalid, hrecord ▸ Value.isJson_of_reread _ hw⟩, ?_⟩
  obtain ⟨hiff, hself⟩ := h.same_reread_iff hw hd
  unfold equalApart
  rw [Bool.and_eq_true, hiff, Bool.not_eq_true']
  exact and_congr_right fun hjson => by rw [hself hjson]

end Entity

namespace Database

variable {db db' : Database} {fault : String → StorageFault} {c : Contribution} {e : Entity} {i : Nat}

/-- The document of an entity at its place among those of a file. -/
def HoldsEntity (db : Database) (file : String) (i : Nat) (row : Document) : Prop :=
  ∃ table rows, db.entities = some table ∧ table.get? file = some rows ∧ rows[i]? = some row

theorem holdsEntity_of_write (he : c.entities[i]? = some e) (h : db.write fault c = .ok db') :
    ∃ row, db'.HoldsEntity c.file i row ∧ Document.ofValue e.toRecord = .ok row := by
  obtain ⟨files, entities, edges, entityRows, edgeRows, -, -, -, hrows, -, rfl⟩ := write_eq_ok h
  have hall := forall₂_of_mapM_eq_ok hrows
  obtain ⟨hi, rfl⟩ := List.getElem?_eq_some_iff.1 he
  have hi' : i < entityRows.length := hall.length_eq ▸ hi
  refine ⟨entityRows[i], ⟨_, entityRows, rfl, ?_, List.getElem?_eq_getElem hi'⟩, hall.get hi hi'⟩
  rw [Table.get?_insert, if_pos rfl]

/-- The ids of what is written have no halves. -/
theorem hasHalf_of_write (he : e ∈ c.entities) (h : db.write fault c = .ok db') :
    Text.hasHalf e.id = false := by
  -- the ids are looked at after the tables, the version and the rows
  unfold write at h
  rw [bind_eq_ok] at h
  obtain ⟨_, -, h⟩ := h
  rw [bind_eq_ok] at h
  obtain ⟨_, -, h⟩ := h
  rw [bind_eq_ok] at h
  obtain ⟨_, -, h⟩ := h
  rw [bind_eq_ok] at h
  obtain ⟨_, -, h⟩ := h
  dsimp only at h
  split at h
  · cases h
  rw [bind_eq_ok] at h
  obtain ⟨_, -, h⟩ := h
  rw [bind_eq_ok] at h
  obtain ⟨_, hids, -⟩ := h
  have hid := forM_eq_ok.1 hids e he
  unfold requireEncodable at hid
  split at hid
  · cases hid
  · exact Bool.eq_false_iff.2 ‹_›

/-- **Which entities come back from a database.** What a manifest or a file of configuration keys declares
and a database accepts can always be read back, under its id, as an entity that the database keeps as it is
from then on. It is equal to what was written if and only if the record that was written is a value of the
document format, with different texts as the keys of every mapping, and has nothing in it that is no
number. -/
theorem entity_comes_back_iff (hfound : e.Extracted) (he : c.entities[i]? = some e)
    (hwrite : db.write fault c = .ok db') :
    ∃ row d, db'.HoldsEntity c.file i row ∧ (row.read >>= Entity.ofRecord) = .ok d ∧ d.id = e.id ∧
      d.Storable ∧ (d.equalApart e = true ↔
        e.toRecord.isJson = true ∧ (Value.map e.metadata).anyLeaf Value.isNan = false) := by
  obtain ⟨row, hholds, hrow⟩ := holdsEntity_of_write he hwrite
  obtain ⟨d, hd, hid, hstorable, hequal⟩ := hfound.valid.decode_document hrow
  have hhalf := hasHalf_of_write (List.mem_of_getElem? he) hwrite
  rw [Json.joined_of_not_hasHalf hhalf] at hid
  exact ⟨row, d, hholds, hd, hid, hstorable, hequal⟩

/-- A manifest of a function that has a port in its metadata, as a key of some kind. -/
def portManifest (port : Value) : Entries :=
  [(.str "entities", .list [.record [("id", .str "serve"), ("kind", .str "Function"),
    ("metadata", .record [("ports", .map [(port, .str "http")])])]])]

/-- The manifest is read and written to an empty database. -/
structure PortStored (port : Value) (r : ScanResult) (e : Entity) (db : Database) : Prop where
  found : Manifest.ofDocument "a.impact.yml" (portManifest port) = .ok r
  entities : r.entities = [e]
  written : write StorageFault.load { path := "" } ⟨"a.impact.yml", 1, r.entities, []⟩ = .ok db

theorem exists_portStored (port : Value) (json : Bool)
    (h : (Manifest.ofDocument "a.impact.yml" (portManifest port)).map (fun r =>
      (r.entities.map fun e => e.toRecord.isJson && !(Value.map e.metadata).anyLeaf Value.isNan,
        (write StorageFault.load { path := "" } ⟨"a.impact.yml", 1, r.entities, []⟩).isOk)) =
      .ok ([json], true)) :
    ∃ r e db, PortStored port r e db ∧
      (e.toRecord.isJson && !(Value.map e.metadata).anyLeaf Value.isNan) = json := by
  obtain ⟨r, hr, hparts⟩ := map_eq_ok.1 h
  obtain ⟨hjson, hok⟩ := Prod.mk.inj hparts
  obtain ⟨e, he, hjson⟩ := List.map_eq_singleton_iff.1 hjson
  obtain ⟨db, hdb⟩ := exists_of_isOk hok
  exact ⟨r, e, db, ⟨hr, he, hdb⟩, hjson⟩

/-- A port that is a text comes back. -/
theorem textPort_comes_back : ∃ r e db row d, PortStored (.str "80") r e db ∧
    db.HoldsEntity "a.impact.yml" 0 row ∧ (row.read >>= Entity.ofRecord) = .ok d ∧
    d.equalApart e = true := by
  obtain ⟨r, e, db, h, hjson⟩ := exists_portStored (.str "80") true (by decide +kernel)
  have hmem : e ∈ r.entities := h.entities ▸ List.mem_singleton_self e
  have hplace : r.entities[0]? = some e := h.entities ▸ rfl
  obtain ⟨row, d, hholds, hd, -, -, hequal⟩ := entity_comes_back_iff (.mapping h.found hmem) hplace h.written
  rw [Bool.and_eq_true, Bool.not_eq_true'] at hjson
  exact ⟨r, e, db, row, d, h, hholds, hd, hequal.2 hjson⟩

/-- **A port that is a number does not come back**: it is a text then. -/
theorem numberPort_changes : ∃ r e db row d, PortStored (.int 80) r e db ∧
    db.HoldsEntity "a.impact.yml" 0 row ∧ (row.read >>= Entity.ofRecord) = .ok d ∧
    d.equalApart e = false := by
  obtain ⟨r, e, db, h, hjson⟩ := exists_portStored (.int 80) false (by decide +kernel)
  have hmem : e ∈ r.entities := h.entities ▸ List.mem_singleton_self e
  have hplace : r.entities[0]? = some e := h.entities ▸ rfl
  obtain ⟨row, hholds, hrow⟩ := holdsEntity_of_write hplace h.written
  obtain ⟨d, hd, -, -, hequal⟩ := (Entity.Extracted.mapping h.found hmem).valid.decode_document hrow
  refine ⟨r, e, db, row, d, h, hholds, hd, Bool.eq_false_iff.2 fun hsame => ?_⟩
  obtain ⟨hrecord, hnan⟩ := hequal.1 hsame
  rw [hrecord, hnan] at hjson
  cases hjson

end Database

end ChangeImpact
