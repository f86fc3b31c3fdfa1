import ChangeImpact.Json.Document
import ChangeImpact.Proofs.Faulting

/-!
# Documents that are read back as they were written

A value of the document format is made of null, truth values, numbers, texts, lists and mappings whose
keys are different texts. Such a value comes back from a document as it is, if it can be written at all.

* `Value.isJson`: the values of the format. A text is one of them if its halves do not join.
* `Entries.ofList_eq_self`: entries with different texts as keys stay as they are.
* `Json.reread_eq`: **a value of the format is read back as itself.**
-/

namespace ChangeImpact

namespace Value

/-- The text that is the key of an entry, if it is one. -/
def keyName : Value × Value → Option String
  | (.str s, _) => some s
  | _ => none

mutual

/-- A value of the document format. -/
def isJson : Value → Bool
  | .null | .bool _ | .int _ | .float _ => true
  | .str s => Json.joined s == s
  | .list items => allJson items
  | .map entries => decide (entries.map keyName).Nodup && allEntriesJson entries
  | _ => false
termination_by structural v => v

def allJson : List Value → Bool
  | [] => true
  | v :: vs => isJson v && allJson vs
termination_by structural vs => vs

/-- An entry with a text as its key. -/
def entryJson : Value × Value → Bool
  | (k, v) => (keyName (k, v)).isSome && isJson k && isJson v
termination_by structural e => e

def allEntriesJson : List (Value × Value) → Bool
  | [] => true
  | e :: es => entryJson e && allEntriesJson es
termination_by structural es => es

end

theorem isJson_str {s : String} : (Value.str s).isJson = true ↔ Json.joined s = s := by
  unfold isJson
  exact beq_iff_eq

theorem isJson_map {entries : Entries} : (Value.map entries).isJson = true ↔
    (entries.map keyName).Nodup ∧ allEntriesJson entries = true := by
  unfold isJson
  rw [Bool.and_eq_true, decide_eq_true_iff]

theorem allEntriesJson_iff {entries : Entries} :
    allEntriesJson entries = true ↔ ∀ e ∈ entries, entryJson e = true := by
  induction entries with
  | nil => exact ⟨fun _ _ h => (List.not_mem_nil h).elim, fun _ => rfl⟩
  | cons e es ih =>
    unfold allEntriesJson
    rw [Bool.and_eq_true, ih, List.forall_mem_cons]

/-- A record is a value of the format if its names are different and all its parts are. -/
theorem isJson_record {fields : List (String × Value)} : (record fields).isJson = true ↔
    (fields.map (·.1)).Nodup ∧ ∀ f ∈ fields, (str f.1).isJson = true ∧ f.2.isJson = true := by
  have hnames : (fields.map fun f => ((str f.1, f.2) : Value × Value)).map keyName =
      (fields.map (·.1)).map some := by
    rw [List.map_map, List.map_map]
    rfl
  unfold record
  rw [isJson_map, allEntriesJson_iff, hnames, List.nodup_map_iff (Option.some_injective _),
    List.forall_mem_map]
  refine and_congr_right fun _ => forall₂_congr fun f _ => ?_
  unfold entryJson
  rw [Bool.and_eq_true, Bool.and_eq_true]
  exact ⟨fun h => ⟨h.1.2, h.2⟩, fun h => ⟨⟨rfl, h.1⟩, h.2⟩⟩

theorem keyName_eq_some {e : Value × Value} {s : String} (h : keyName e = some s) : e.1 = .str s := by
  unfold keyName at h
  split at h
  · rw [Option.some.inj h]
  · cases h

theorem same_str (a b : String) : (Value.str a).same (.str b) = (a == b) := rfl

end Value

namespace Entries

open Value

/-- The keys of all entries are texts. -/
def Named (entries : Entries) : Prop := ∀ e ∈ entries, (keyName e).isSome = true

theorem named_of_allEntriesJson {entries : Entries} (h : allEntriesJson entries = true) :
    Named entries := fun e he => by
  have hentry := allEntriesJson_iff.1 h e he
  unfold entryJson at hentry
  rw [Bool.and_eq_true, Bool.and_eq_true] at hentry
  exact hentry.1.1

theorem put_eq_append {acc : Entries} {e : Value × Value} (h : ∀ d ∈ acc, d.1.same e.1 = false) :
    put acc e.1 e.2 = acc ++ [e] := by
  induction acc with
  | nil => rfl
  | cons d acc ih =>
    have hd : ¬ d.1.same e.1 = true := by
      rw [h d List.mem_cons_self]; exact Bool.false_ne_true
    unfold put
    rw [if_neg hd, ih fun x hx => h x (List.mem_cons_of_mem _ hx), List.cons_append]

theorem same_eq_false {d e : Value × Value} (hd : (keyName d).isSome = true)
    (he : (keyName e).isSome = true) (hne : keyName d ≠ keyName e) : d.1.same e.1 = false := by
  obtain ⟨a, ha⟩ := Option.isSome_iff_exists.1 hd
  obtain ⟨b, hb⟩ := Option.isSome_iff_exists.1 he
  rw [keyName_eq_some ha, keyName_eq_some hb, same_str]
  refine beq_eq_false_iff_ne.2 fun hab => hne ?_
  rw [ha, hb, hab]

/-- Entries with other texts as keys are put at the end, one after the other. -/
theorem foldl_put_eq_append (entries : Entries) : ∀ acc : Entries, Named (acc ++ entries) →
    ((acc ++ entries).map keyName).Nodup →
      entries.foldl (fun acc e => put acc e.1 e.2) acc = acc ++ entries := by
  induction entries with
  | nil => exact fun acc _ _ => (List.append_nil acc).symm
  | cons e es ih =>
    intro acc hk hn
    have he : e ∈ acc ++ e :: es := List.mem_append_right _ List.mem_cons_self
    have hnew : ∀ d ∈ acc, d.1.same e.1 = false := by
      intro d hd
      rw [List.map_append, List.map_cons] at hn
      exact same_eq_false (hk d (List.mem_append_left _ hd)) (hk e he)
        ((List.nodup_append.1 hn).2.2 _ (List.mem_map_of_mem hd) _ List.mem_cons_self)
    -- the entry that was put is part of what the others are put after
    have hsplit : acc ++ e :: es = (acc ++ [e]) ++ es := List.append_cons acc e es
    rw [hsplit] at hk hn ⊢
    rw [List.foldl_cons, put_eq_append hnew]
    exact ih _ hk hn

/-- Entries with different texts as keys stay as they are. -/
theorem ofList_eq_self {entries : Entries} (hn : (entries.map keyName).Nodup) (hk : Named entries) :
    ofList entries = entries := foldl_put_eq_append entries [] hk hn

end Entries

namespace Json

open Value

mutual

/-- **A value of the format is read back as itself.** -/
theorem reread_eq : ∀ v : Value, v.isJson = true → ∀ {w : Value}, reread v = .ok w → w = v
  | .null, _ => fun h => (Except.ok.inj h).symm
  | .bool _, _ => fun h => (Except.ok.inj h).symm
  | .float _, _ => fun h => (Except.ok.inj h).symm
  | .int n, _ => by
    intro h
    unfold reread at h
    split at h
    · exact (Except.ok.inj h).symm
    · cases h
  | .str s, hv => by
    intro h
    unfold reread at h
    rw [isJson_str.1 hv] at h
    exact (Except.ok.inj h).symm
  | .list items, hv => by
    intro h
    unfold reread at h
    rw [bind_eq_ok] at h
    obtain ⟨ws, hws, h⟩ := h
    rw [← Except.ok.inj h, rereadItems_eq items hv hws]
  | .map entries, hv => by
    intro h
    unfold reread at h
    rw [bind_eq_ok] at h
    obtain ⟨ws, hws, h⟩ := h
    obtain ⟨hn, hentries⟩ := isJson_map.1 hv
    rw [← Except.ok.inj h, rereadEntries_eq entries hentries hws,
      Entries.ofList_eq_self hn (Entries.named_of_allEntriesJson hentries)]
  | .pair _ _, hv | .set _, hv | .bytes _, hv | .date _, hv | .datetime _, hv | .named _ _, hv
  | .again _, hv => by cases hv
termination_by structural v => v

theorem rereadItems_eq : ∀ (vs : List Value) {ws : List Value}, allJson vs = true →
    rereadItems vs = .ok ws → ws = vs
  | [], _, _, h => (Except.ok.inj h).symm
  | v :: vs, ws, hv, h => by
    unfold rereadItems at h
    rw [bind_eq_ok] at h
    obtain ⟨w, hw, h⟩ := h
    rw [bind_eq_ok] at h
    obtain ⟨ws', hws, h⟩ := h
    unfold allJson at hv
    rw [Bool.and_eq_true] at hv
    rw [← Except.ok.inj h, reread_eq v hv.1 hw, rereadItems_eq vs hv.2 hws]
termination_by structural vs => vs

theorem rereadEntry_eq : ∀ (e : Value × Value) {d : Value × Value}, entryJson e = true →
    rereadEntry e = .ok d → d = e
  | (k, v), d, he, h => by
    unfold rereadEntry at h
    rw [bind_eq_ok] at h
    obtain ⟨name, hname, h⟩ := h
    rw [bind_eq_ok] at h
    obtain ⟨w, hw, h⟩ := h
    unfold entryJson at he
    rw [Bool.and_eq_true, Bool.and_eq_true] at he
    obtain ⟨a, ha⟩ := Option.isSome_iff_exists.1 he.1.1
    obtain rfl : k = .str a := keyName_eq_some ha
    rw [← Except.ok.inj h, reread_eq v he.2 hw, ← Except.ok.inj hname, isJson_str.1 he.1.2]
termination_by structural e => e

theorem rereadEntries_eq : ∀ (es : Entries) {ds : Entries}, allEntriesJson es = true →
    rereadEntries es = .ok ds → ds = es
  | [], _, _, h => (Except.ok.inj h).symm
  | e :: es, ds, he, h => by
    unfold rereadEntries at h
    rw [bind_eq_ok] at h
    obtain ⟨d, hd, h⟩ := h
    rw [bind_eq_ok] at h
    obtain ⟨ds', hds, h⟩ := h
    unfold allEntriesJson at he
    rw [Bool.and_eq_true] at he
    rw [← Except.ok.inj h, rereadEntry_eq e he.1 hd, rereadEntries_eq es he.2 hds]
termination_by structural es => es

end

end Json

namespace Document

/-- A document of a value of the format holds the value. -/
theorem ofValue_eq_ok {v : Value} {d : Document} (hv : v.isJson = true)
    (h : ofValue v = .ok d) : d = .value v := by
  unfold ofValue at h
  rw [bind_eq_ok] at h
  obtain ⟨w, hw, h⟩ := h
  rw [← Except.ok.inj h, Json.reread_eq v hv hw]

theorem mapM_ofValue {α : Type} {record : α → Value} {xs : List α} {rows : List Document}
    (hxs : ∀ x ∈ xs, (record x).isJson = true)
    (h : xs.mapM (fun x => ofValue (record x)) = .ok rows) :
    rows = xs.map fun x => .value (record x) := by
  have hall := forall₂_of_mapM_eq_ok h
  clear h
  induction hall with
  | nil => rfl
  | cons hx _ ih =>
    rw [List.map_cons, ofValue_eq_ok (hxs _ List.mem_cons_self) hx,
      ih fun y hy => hxs y (List.mem_cons_of_mem _ hy)]

end Document

end ChangeImpact
