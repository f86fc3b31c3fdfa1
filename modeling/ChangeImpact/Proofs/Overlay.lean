import ChangeImpact.Config.Decode
import ChangeImpact.Proofs.Reordering

/-!
# Merging over a base

What is given is merged over a base: the entries of a mapping replace those of the base one by one, at any
depth, and new ones follow. Merging leaves nothing to do, so what was merged stays as it is when it is
merged over the base again. The same holds when one entry of the base is replaced as a whole.

* `Outline`: a base whose mappings have different texts as keys.
* `mergeValue_overlay`: **merging over a base a second time changes nothing.**
* `replacing_replacing`: nor does it with an entry that is replaced as a whole.
* `mergeValue_reordered`: **what is merged in another order differs in the order only**, and
  `replacing_reordered`: so it does with an entry that is replaced as a whole.
-/

namespace ChangeImpact

namespace Entries

open Value

/-! ## Setting the value of a name -/

variable {es : Entries} {name other : String} {v w : Value}

theorem lookup?_cons (e : Value × Value) (es : Entries) (name : String) :
    lookup? (e :: es) name = if e.1.same (.str name) = true then some e.2 else lookup? es name := by
  unfold lookup? get?
  rw [List.find?_cons]
  cases e.1.same (.str name) with
  | true => rfl
  | false => rfl

theorem putName_cons (e : Value × Value) (es : Entries) (name : String) (v : Value) :
    putName (e :: es) name v =
      if e.1.same (.str name) = true then (e.1, v) :: es else e :: putName es name v := by
  obtain ⟨k, x⟩ := e
  unfold putName
  rw [put]

theorem lookup?_putName :
    lookup? (putName es name v) other = if other = name then some v else lookup? es other := by
  induction es with
  | nil =>
    show lookup? [(.str name, v)] other = _
    rw [lookup?_cons]
    simp only [same_str_iff, Value.str.injEq, eq_comm (a := name)]
  | cons e es ih =>
    rw [putName_cons]
    by_cases hkey : e.1 = .str name
    · rw [if_pos (same_str_iff.2 hkey), lookup?_cons, lookup?_cons, hkey]
      simp only [same_str_iff, Value.str.injEq]
      by_cases hname : name = other
      · rw [if_pos hname, if_pos hname.symm]
      · rw [if_neg hname, if_neg (Ne.symm hname), if_neg hname]
    · rw [if_neg (mt same_str_iff.1 hkey), lookup?_cons, lookup?_cons, ih]
      by_cases hother : e.1 = .str other
      · have hne : other ≠ name := by
          rintro rfl
          exact hkey hother
        rw [if_pos (same_str_iff.2 hother), if_neg hne, if_pos (same_str_iff.2 hother)]
      · rw [if_neg (mt same_str_iff.1 hother), if_neg (mt same_str_iff.1 hother)]

theorem putName_of_lookup? (h : lookup? es name = some v) : putName es name v = es := by
  induction es with
  | nil => cases h
  | cons e es ih =>
    rw [lookup?_cons] at h
    rw [putName_cons]
    split at h
    · rename_i hkey
      rw [if_pos hkey, ← Option.some.inj h]
    · rename_i hkey
      rw [if_neg hkey, ih h]

theorem keys_putName (h : (lookup? es name).isSome = true) :
    (putName es name v).map Prod.fst = es.map Prod.fst := by
  induction es with
  | nil => cases h
  | cons e es ih =>
    rw [lookup?_cons] at h
    rw [putName_cons]
    split at h
    · rename_i hkey
      rw [if_pos hkey, List.map_cons, List.map_cons]
    · rename_i hkey
      rw [if_neg hkey, List.map_cons, List.map_cons, ih h]

/-- An entry after a value was set has the name and the value, or another key and was there before. -/
theorem mem_putName (hn : (es.map Prod.fst).Nodup) {e : Value × Value} (he : e ∈ putName es name v) :
    e = (.str name, v) ∨ e ∈ es ∧ e.1 ≠ .str name := by
  induction es with
  | nil => exact .inl (List.mem_singleton.1 he)
  | cons d es ih =>
    rw [List.map_cons, List.nodup_cons] at hn
    rw [putName_cons] at he
    by_cases hkey : d.1 = .str name
    · rw [if_pos (same_str_iff.2 hkey), hkey] at he
      rcases List.mem_cons.1 he with rfl | he
      · exact .inl rfl
      · refine .inr ⟨List.mem_cons_of_mem _ he, fun hname => hn.1 ?_⟩
        rw [hkey, ← hname]
        exact List.mem_map_of_mem he
    · rw [if_neg (mt same_str_iff.1 hkey)] at he
      rcases List.mem_cons.1 he with rfl | he
      · exact .inr ⟨List.mem_cons_self, hkey⟩
      · rcases ih hn.2 he with he | ⟨he, hne⟩
        · exact .inl he
        · exact .inr ⟨List.mem_cons_of_mem _ he, hne⟩

theorem putName_append {ds : Entries} (h : (lookup? es name).isSome = true) :
    putName (es ++ ds) name v = putName es name v ++ ds := by
  induction es with
  | nil => cases h
  | cons e es ih =>
    rw [lookup?_cons] at h
    rw [List.cons_append, putName_cons, putName_cons]
    split at h
    · rename_i hkey
      rw [if_pos hkey, if_pos hkey, List.cons_append]
    · rename_i hkey
      rw [if_neg hkey, if_neg hkey, ih h, List.cons_append]

/-- Entries with the same keys, none of them twice, and values that differ in the order of entries only. -/
structure Aligned (xs ys : Entries) : Prop where
  distinct : Distinct xs
  keys : (xs.map Prod.fst).Perm (ys.map Prod.fst)
  values : ∀ x ∈ xs, ∀ y ∈ ys, x.1 = y.1 → Reordered x.2 y.2

theorem eq_or_aligned {xs ys : Entries} (h : Reordered (.map xs) (.map ys)) : xs = ys ∨ Aligned xs ys := by
  cases h with
  | refl => exact .inl rfl
  | map hdistinct hkeys hvalues => exact .inr ⟨hdistinct, hkeys, hvalues⟩

namespace Aligned

variable {xs ys : Entries}

theorem reordered (h : Aligned xs ys) : Reordered (.map xs) (.map ys) := .map h.distinct h.keys h.values

theorem putName (h : Aligned xs ys) (hname : (Entries.lookup? xs name).isSome = true)
    (hvw : Reordered v w) : Aligned (xs.putName name v) (ys.putName name w) := by
  have hname' : (Entries.lookup? ys name).isSome = true := by
    have hrel := h.reordered.lookup? name
    generalize Entries.lookup? xs name = a, Entries.lookup? ys name = c at hrel hname ⊢
    cases hrel with
    | none => cases hname
    | some => rfl
  have hnodup := (h.distinct.of_perm h.keys).nodup
  refine ⟨?_, ?_, fun x hx y hy hkey => ?_⟩
  · unfold Distinct
    rw [keys_putName hname]
    exact h.distinct
  · rw [keys_putName hname, keys_putName hname']
    exact h.keys
  · rcases mem_putName h.distinct.nodup hx with rfl | ⟨hx, hxname⟩
    · rcases mem_putName hnodup hy with rfl | ⟨-, hyname⟩
      · exact hvw
      · exact absurd hkey.symm hyname
    · rcases mem_putName hnodup hy with rfl | ⟨hy, -⟩
      · exact absurd hkey hxname
      · exact h.values x hx y hy hkey

end Aligned

end Entries

namespace Config

open Value Entries

/-! ## Merging over a base -/

/-- Entries whose keys are texts, each there once. -/
structure Worded (es : Entries) : Prop where
  names : ∀ e ∈ es, ∃ name, e.1 = .str name
  nodup : (es.map Prod.fst).Nodup

/-- A base whose mappings have different texts as keys. -/
inductive Outline : Value → Prop
  | leaf {v : Value} (h : ∀ es, v ≠ .map es) : Outline v
  | map {es : Entries} (worded : Worded es) (parts : ∀ e ∈ es, Outline e.2) : Outline (.map es)

theorem Outline.worded {es : Entries} (h : Outline (.map es)) : Worded es := by
  cases h with
  | leaf hleaf => exact absurd rfl (hleaf es)
  | map hworded _ => exact hworded

theorem Outline.parts {es : Entries} (h : Outline (.map es)) : ∀ e ∈ es, Outline e.2 := by
  cases h with
  | leaf hleaf => exact absurd rfl (hleaf es)
  | map _ hparts => exact hparts

/-- A value that may be given over a base. -/
def overlay (given : Option Value) (base : Value) : Value := (given.map (mergeValue · base)).getD base

variable {base given ds xs ys : Entries} {b v w : Value} {name : String}

theorem mergeValue_leaf (h : ∀ es, b ≠ .map es) (v : Value) : mergeValue v b = v := by
  cases b with
  | map es => exact absurd rfl (h es)
  | _ => rfl

/-- A mapping with other entries in its place; anything else stays. -/
def onMap (f : Entries → Entries) (v : Value) : Value :=
  match v.unfold with
  | .map es => .map (f es)
  | _ => v

section OnMap

variable {f : Entries → Entries}

theorem onMap_map (h : v.unfold = .map given) : onMap f v = .map (f given) := by
  unfold onMap
  rw [h]

theorem onMap_other (f : Entries → Entries) (h : ∀ es, v.unfold ≠ .map es) : onMap f v = v := by
  unfold onMap
  split
  · rename_i es hes
    exact absurd hes (h es)
  · rfl

theorem onMap_onMap (hf : ∀ es, f (f es) = f es) (v : Value) : onMap f (onMap f v) = onMap f v := by
  by_cases hv : ∃ es, v.unfold = .map es
  · obtain ⟨es, hv⟩ := hv
    rw [onMap_map hv, onMap_map rfl, hf]
  · have hother := onMap_other f fun es hes => hv ⟨es, hes⟩
    rw [hother, hother]

theorem onMap_reordered
    (hf : ∀ {xs ys}, Reordered (.map xs) (.map ys) → Reordered (.map (f xs)) (.map (f ys)))
    (h : Reordered v w) : Reordered (onMap f v) (onMap f w) := by
  cases h with
  | refl => exact .refl _
  | list hlength hitems => exact .list hlength hitems
  | map hdistinct hkeys hvalues => exact hf (.map hdistinct hkeys hvalues)

end OnMap

theorem mergeValue_map (v : Value) (base : Entries) :
    mergeValue v (.map base) = onMap (mergeEntries base) v := by
  unfold mergeValue onMap
  rfl

theorem mergeEntry_eq (given : Entries) (e : Value × Value) :
    mergeEntry given e = (e.1, overlay (get? given e.1) e.2) := by
  obtain ⟨k, b⟩ := e
  unfold mergeEntry overlay
  cases get? given k with
  | none => rfl
  | some v => rfl

theorem mergeInPlace_eq_map (given base : Entries) :
    mergeInPlace given base = base.map (mergeEntry given) := by
  induction base with
  | nil => rfl
  | cons e es ih => rw [mergeInPlace, ih, List.map_cons]

theorem mergeEntries_eq (base given : Entries) :
    mergeEntries base given = base.map (mergeEntry given) ++ newEntries base given := by
  rw [mergeEntries, mergeInPlace_eq_map]

theorem mergeEntries_nil (base : Entries) : mergeEntries base [] = base := by
  have hkeep : ∀ e ∈ base, mergeEntry [] e = e := fun e _ => mergeEntry_eq [] e
  rw [mergeEntries_eq, List.map_congr_left hkeep, List.map_id']
  exact List.append_nil base

theorem map_fst_mergeEntry (given base : Entries) :
    (base.map (mergeEntry given)).map Prod.fst = base.map Prod.fst := by
  rw [List.map_map]
  refine List.map_congr_left fun e _ => ?_
  rw [Function.comp_apply, mergeEntry_eq]

namespace Worded

theorem isNone_get? (hbase : Worded base) {k : Value} :
    (get? base k).isNone = true ↔ k ∉ base.map Prod.fst := by
  unfold get?
  rw [Option.isNone_map, Option.isNone_iff_eq_none, List.find?_eq_none, List.mem_map]
  constructor
  · rintro h ⟨d, hd, hkey⟩
    exact h d hd (hkey ▸ same_self _)
  · intro h d hd hsame
    obtain ⟨name, hname⟩ := hbase.names d hd
    rw [hname, str_same_iff] at hsame
    exact h ⟨d, hd, hname.trans hsame.symm⟩

/-- A new entry has a key that the base does not have. -/
theorem mem_newEntries (hbase : Worded base) {e : Value × Value} :
    e ∈ newEntries base given ↔ e ∈ given ∧ e.1 ∉ base.map Prod.fst := by
  unfold newEntries
  rw [List.mem_filter, hbase.isNone_get?]

/-- The value of a key of the base, after merging. -/
theorem lookup?_mergeEntries (hbase : Worded base) (given : Entries) (hb : (.str name, b) ∈ base) :
    lookup? (mergeEntries base given) name = some (overlay (lookup? given name) b) := by
  have hfound : lookup? (base.map (mergeEntry given)) name = some (overlay (lookup? given name) b) := by
    refine (lookup?_eq_some_iff (map_fst_mergeEntry given base ▸ hbase.nodup)).2 ?_
    have hmem := List.mem_map_of_mem (f := mergeEntry given) hb
    rw [mergeEntry_eq] at hmem
    exact hmem
  unfold lookup? get? at hfound ⊢
  rw [mergeEntries_eq, List.find?_append, Option.map_or, hfound]
  rfl

/-- What is new stays new. -/
theorem newEntries_mergeEntries (hbase : Worded base) (given : Entries) :
    newEntries base (mergeEntries base given) = newEntries base given := by
  have hold : (base.map (mergeEntry given)).filter (fun e => (get? base e.1).isNone) = [] := by
    refine List.filter_eq_nil_iff.2 fun e he => ?_
    rw [hbase.isNone_get?, not_not, ← map_fst_mergeEntry given base]
    exact List.mem_map_of_mem he
  rw [mergeEntries_eq]
  unfold newEntries
  rw [List.filter_append, hold, List.nil_append, List.filter_filter]
  simp only [Bool.and_self]

end Worded

/-- **Merging over a base a second time changes nothing.** -/
theorem mergeValue_overlay (hb : Outline b) : ∀ given, mergeValue (overlay given b) b = overlay given b := by
  induction hb with
  | leaf h => exact fun given => mergeValue_leaf h _
  | @map base hbase hparts ih =>
    -- the entries of the base have their values from the first time
    have hplace : ∀ given, ∀ e ∈ base, mergeEntry (mergeEntries base given) e = mergeEntry given e := by
      intro given e he
      obtain ⟨name, hname⟩ := hbase.names e he
      have hvalue := hbase.lookup?_mergeEntries given (hname ▸ he : (.str name, e.2) ∈ base)
      unfold lookup? at hvalue
      rw [mergeEntry_eq, mergeEntry_eq, hname, hvalue]
      exact congrArg _ (ih e he _)
    have hentries : ∀ given, mergeEntries base (mergeEntries base given) = mergeEntries base given := by
      intro given
      rw [mergeEntries_eq base (mergeEntries base given), hbase.newEntries_mergeEntries,
        List.map_congr_left (hplace given), ← mergeEntries_eq]
    intro given
    cases given with
    | none =>
      have hself := hentries []
      rw [mergeEntries_nil] at hself
      exact congrArg Value.map hself
    | some v =>
      show mergeValue (mergeValue v (.map base)) (.map base) = mergeValue v (.map base)
      rw [mergeValue_map, mergeValue_map, onMap_onMap hentries]

theorem mergeEntries_mergeEntries (hbase : Outline (.map base)) (given : Entries) :
    mergeEntries base (mergeEntries base given) = mergeEntries base given :=
  Value.map.inj (mergeValue_overlay hbase (some (.map given)))

theorem unlike_str {k : Value} (h : k ≠ .str name) : Unlike (.str name) k :=
  ⟨Bool.eq_false_iff.2 fun hsame => h (str_same_iff.1 hsame),
    Bool.eq_false_iff.2 fun hsame => h (same_str_iff.1 hsame)⟩

theorem keys_mergeEntries (base given : Entries) : (mergeEntries base given).map Prod.fst =
    base.map Prod.fst ++ (given.map Prod.fst).filter fun k => (get? base k).isNone := by
  rw [mergeEntries_eq, List.map_append, map_fst_mergeEntry, newEntries, List.filter_map]
  rfl

theorem Worded.distinct_mergeEntries (hbase : Worded base) (h : Distinct xs) :
    Distinct (mergeEntries base xs) := by
  have hname : ∀ {a}, a ∈ base.map Prod.fst → ∃ name, a = .str name := by
    intro a ha
    obtain ⟨e, he, rfl⟩ := List.mem_map.1 ha
    exact hbase.names e he
  unfold Distinct
  rw [keys_mergeEntries]
  refine List.pairwise_append.2 ⟨hbase.nodup.imp_of_mem ?_, h.filter _, ?_⟩
  · intro a k ha _ hne
    obtain ⟨name, rfl⟩ := hname ha
    exact unlike_str hne.symm
  · intro a ha k hk
    obtain ⟨name, rfl⟩ := hname ha
    have hnew := hbase.isNone_get?.1 (List.mem_filter.1 hk).2
    refine unlike_str fun hkey => hnew ?_
    rw [hkey]
    exact ha

/-- What becomes of a value that may be given, or else of a default. -/
theorem getD_reordered {g g' : Option Value} {f : Value → Value} (hg : Option.Rel Reordered g g')
    (hf : ∀ {v w}, Reordered v w → Reordered (f v) (f w)) (d : Value) :
    Reordered ((g.map f).getD d) ((g'.map f).getD d) := by
  cases hg with
  | none => exact .refl d
  | some h => exact hf h

/-- Entries that are merged in another order stand in other places only if they are new. -/
theorem Worded.aligned (hbase : Worded base) (hparts : ∀ e ∈ base, ∀ {v w},
      Reordered v w → Reordered (mergeValue v e.2) (mergeValue w e.2)) (h : Aligned xs ys) :
    Aligned (mergeEntries base xs) (mergeEntries base ys) := by
  refine ⟨hbase.distinct_mergeEntries h.distinct, ?_, fun x hx y hy hkey => ?_⟩
  · rw [keys_mergeEntries, keys_mergeEntries]
    exact (h.keys.filter _).append_left _
  · rw [mergeEntries_eq] at hx hy
    have hold : ∀ {given e}, e ∈ base.map (mergeEntry given) → e.1 ∈ base.map Prod.fst := by
      intro given e he
      rw [← map_fst_mergeEntry given base]
      exact List.mem_map_of_mem he
    rcases List.mem_append.1 hx with hx | hx
    · rcases List.mem_append.1 hy with hy | hy
      · -- both values are merged over the same entry of the base
        obtain ⟨e, he, rfl⟩ := List.mem_map.1 hx
        obtain ⟨d, hd, rfl⟩ := List.mem_map.1 hy
        rw [mergeEntry_eq, mergeEntry_eq] at hkey ⊢
        obtain rfl := eq_of_key_eq hbase.nodup he hd hkey
        obtain ⟨name, hname⟩ := hbase.names e he
        rw [hname]
        exact getD_reordered (h.reordered.lookup? name) (hparts e he) e.2
      · exact absurd (hkey ▸ hold hx) (hbase.mem_newEntries.1 hy).2
    · obtain ⟨hx, hnew⟩ := hbase.mem_newEntries.1 hx
      rcases List.mem_append.1 hy with hy | hy
      · exact absurd (hkey ▸ hold hy) hnew
      · exact h.values x hx y (hbase.mem_newEntries.1 hy).1 hkey

/-- **What is merged in another order differs in the order only.** -/
theorem mergeValue_reordered (hb : Outline b) : ∀ {v w : Value}, Reordered v w →
    Reordered (mergeValue v b) (mergeValue w b) := by
  induction hb with
  | leaf h =>
    intro v w hvw
    rw [mergeValue_leaf h, mergeValue_leaf h]
    exact hvw
  | @map base hbase hparts ih =>
    intro v w hvw
    rw [mergeValue_map, mergeValue_map]
    refine onMap_reordered (fun {xs ys} h => ?_) hvw
    rcases eq_or_aligned h with rfl | haligned
    · exact .refl _
    · exact (hbase.aligned ih haligned).reordered

/-! ## Replacing an entry as a whole -/

/-- Entries merged over a base, with the value given for a name in place of the merged one. -/
def replacing (base : Entries) (name : String) (given : Entries) : Entries :=
  replaceWhole (mergeEntries base given) given name

theorem replacing_nil (base : Entries) (name : String) : replacing base name [] = base :=
  mergeEntries_nil base

theorem Worded.newEntries_putName (hbase : Worded base) (hb : (.str name, b) ∈ base) (given : Entries)
    (v : Value) : newEntries base (putName given name v) = newEntries base given := by
  have hknown : ∀ {k : Value}, k = .str name → ¬ (get? base k).isNone = true := by
    rintro _ rfl
    rw [hbase.isNone_get?, not_not]
    exact List.mem_map_of_mem hb
  unfold newEntries
  induction given with
  | nil => exact List.filter_cons_of_neg (hknown rfl)
  | cons e given ih =>
    rw [putName_cons]
    by_cases hkey : e.1 = .str name
    · rw [if_pos (same_str_iff.2 hkey), List.filter_cons, List.filter_cons]
      dsimp only
      rw [if_neg (hknown hkey), if_neg (hknown hkey)]
    · rw [if_neg (mt same_str_iff.1 hkey), List.filter_cons, List.filter_cons, ih]

theorem mergeEntry_putName (given : Entries) (v : Value) {e : Value × Value} {other : String}
    (he : e.1 = .str other) (hne : other ≠ name) :
    mergeEntry (putName given name v) e = mergeEntry given e := by
  have hlookup : lookup? (putName given name v) other = lookup? given other := by
    rw [lookup?_putName, if_neg hne]
  unfold lookup? at hlookup
  rw [mergeEntry_eq, mergeEntry_eq, he, hlookup]

theorem Worded.putName_map (hbase : Worded base) (given : Entries) (v : Value) :
    putName (base.map (mergeEntry (putName given name v))) name v =
      putName (base.map (mergeEntry given)) name v := by
  induction base with
  | nil => rfl
  | cons e base ih =>
    obtain ⟨hnew, hnodup⟩ := List.nodup_cons.1 hbase.nodup
    have hrest : Worded base := ⟨fun d hd => hbase.names d (List.mem_cons_of_mem _ hd), hnodup⟩
    obtain ⟨other, hother⟩ := hbase.names e List.mem_cons_self
    rw [List.map_cons, List.map_cons, putName_cons, putName_cons]
    by_cases hname : other = name
    · -- the name does not come again
      subst hname
      have hkeep : ∀ d ∈ base, mergeEntry (putName given other v) d = mergeEntry given d := by
        intro d hd
        obtain ⟨n, hn⟩ := hrest.names d hd
        refine mergeEntry_putName given v hn fun hno => hnew ?_
        rw [hother, ← hno, ← hn]
        exact List.mem_map_of_mem hd
      rw [List.map_congr_left hkeep, mergeEntry_eq, mergeEntry_eq, hother, if_pos (same_self _),
        if_pos (same_self _)]
    · have hkey : ¬ (mergeEntry given e).1.same (.str name) = true := by
        rw [mergeEntry_eq, same_str_iff, hother, Value.str.injEq]
        exact hname
      rw [mergeEntry_putName given v hother hname, if_neg hkey, if_neg hkey, ih hrest]

/-- A value that is set afterwards may as well have been given. -/
theorem Worded.putName_mergeEntries (hbase : Worded base) (hb : (.str name, b) ∈ base) (given : Entries)
    (v : Value) : putName (mergeEntries base (putName given name v)) name v =
      putName (mergeEntries base given) name v := by
  have hsome : ∀ given, (lookup? (base.map (mergeEntry given)) name).isSome = true := by
    intro given
    by_contra hnone
    rw [Bool.not_eq_true, Option.isSome_eq_false_iff, Option.isNone_iff_eq_none, lookup?_eq_none_iff] at hnone
    have hmem := List.mem_map_of_mem (f := mergeEntry given) hb
    rw [mergeEntry_eq] at hmem
    exact hnone _ hmem rfl
  rw [mergeEntries_eq, mergeEntries_eq, putName_append (hsome _), putName_append (hsome _),
    hbase.putName_map, hbase.newEntries_putName hb]

theorem Worded.exists_lookup?_replacing (hbase : Worded base) (hb : (.str name, b) ∈ base)
    (given : Entries) : ∃ v, replacing base name given = putName (mergeEntries base given) name v ∧
      lookup? (replacing base name given) name = some v := by
  unfold replacing replaceWhole
  cases hgiven : lookup? given name with
  | none =>
    have hfound := hbase.lookup?_mergeEntries given hb
    exact ⟨_, (putName_of_lookup? hfound).symm, hfound⟩
  | some v =>
    refine ⟨v, rfl, ?_⟩
    rw [lookup?_putName, if_pos rfl]

theorem replacing_replacing (hbase : Outline (.map base)) (hb : (.str name, b) ∈ base) (given : Entries) :
    replacing base name (replacing base name given) = replacing base name given := by
  obtain ⟨v, hput, hlookup⟩ := hbase.worded.exists_lookup?_replacing hb given
  calc replacing base name (replacing base name given)
      = putName (mergeEntries base (replacing base name given)) name v := by
        rw [replacing, replaceWhole, hlookup]
    _ = putName (mergeEntries base (mergeEntries base given)) name v := by
        rw [hput, hbase.worded.putName_mergeEntries hb]
    _ = replacing base name given := by rw [mergeEntries_mergeEntries hbase, hput]

theorem replacing_reordered (hbase : Outline (.map base)) (hb : (.str name, b) ∈ base)
    (h : Reordered (.map xs) (.map ys)) :
    Reordered (.map (replacing base name xs)) (.map (replacing base name ys)) := by
  rcases eq_or_aligned h with rfl | haligned
  · exact .refl _
  · have hmerged := hbase.worded.aligned (fun e he => mergeValue_reordered (hbase.parts e he)) haligned
    have hname : (lookup? (mergeEntries base xs) name).isSome = true := by
      rw [hbase.worded.lookup?_mergeEntries xs hb]
      rfl
    have hrel := h.lookup? name
    unfold replacing replaceWhole
    generalize lookup? xs name = g, lookup? ys name = g' at hrel ⊢
    cases hrel with
    | none => exact hmerged.reordered
    | some hvw => exact (hmerged.putName hname hvw).reordered

end Config

end ChangeImpact
