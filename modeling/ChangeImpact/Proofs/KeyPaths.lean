import ChangeImpact.Proofs.Extraction
import ChangeImpact.Proofs.Footprint
import ChangeImpact.Proofs.Segments
import ChangeImpact.Proofs.Sequence
import Mathlib.Data.Set.Card

/-!
# Key paths of configuration files

The leaves of a configuration are found by a walk that takes the keys down from mapping to mapping, and the
id of a leaf has the keys in one text with dots between them. A key may have dots of its own, so the text no
longer says where one key ends: `a.b` is a key, or a key below another one. Such leaves have one id, and of
the entities with one id a store keeps the first.

* `Leads`, `Leaf`, `leafPaths`: the places that keys lead to, the leaves, and the paths of keys to them.
* `walks_entriesLeaves`: **the walk lists the leaves**, unless keys lead around in a circle.
* `dotted_eq_iff`: **paths are dotted alike just if they have the same parts** between dots.
* `Store.merges_iff_of_no_edges`: when a result without edges can be merged.
* `StandsFor.length_eq_iff`: **there is an entity for each path just if no two have the same parts.**
* `keys_apart_iff`: what becomes of the leaves of a file that is merged. `dotted_key_swallowed` is a file
  of which a leaf is lost.
-/

namespace ChangeImpact

namespace ConfigKeys

open Yaml (Node NodeInfo)

/-! ## Leaves -/

/-- A place in a configuration: the keys that lead to it, the node of the last one, and the value there. -/
structure Spot where
  keys : List String
  key : Node
  value : Node

/-- The place below one more key. -/
def Spot.under (text : String) (spot : Spot) : Spot := { spot with keys := text :: spot.keys }

/-- The entity of a place, below some keys. -/
def Spot.entity (file : String) (above : List String) (spot : Spot) : Entity :=
  leaf file (above ++ spot.keys) spot.key spot.value

/-- The places that scalar keys lead to from the entries of a mapping. -/
inductive Leads : List (Node × Node) → Spot → Prop
  | entry {entries : List (Node × Node)} {info : NodeInfo} {text : String} {value : Node}
      (hmem : (.scalar info text, value) ∈ entries) : Leads entries ⟨[text], .scalar info text, value⟩
  | deeper {entries inner : List (Node × Node)} {info around : NodeInfo} {text : String} {spot : Spot}
      (hmem : (.scalar info text, .mapping around inner) ∈ entries) (hinner : Leads inner spot) :
      Leads entries (spot.under text)

/-- What is not gone into: anything but a mapping with entries. -/
inductive Final : Node → Prop
  | scalar (info : NodeInfo) (text : String) : Final (.scalar info text)
  | sequence (info : NodeInfo) (items : List Node) : Final (.sequence info items)
  | empty (info : NodeInfo) : Final (.mapping info [])

/-- A leaf of a configuration. -/
structure Leaf (entries : List (Node × Node)) (spot : Spot) : Prop where
  leads : Leads entries spot
  final : Final spot.value

/-- Some keys lead around in a circle, to a mapping that they are in themselves. -/
def Endless (entries : List (Node × Node)) : Prop :=
  ∃ spot number start, Leads entries spot ∧ spot.value = .around number start

/-- The paths of keys to the leaves. -/
def leafPaths (entries : List (Node × Node)) : Set (List String) := Spot.keys '' {spot | Leaf entries spot}

variable {entries inner : List (Node × Node)} {info around : NodeInfo} {text file : String}
  {above : List String} {e : Node × Node} {key value : Node} {spot : Spot}

theorem Leads.keys_ne_nil (h : Leads entries spot) : spot.keys ≠ [] := by
  cases h with
  | entry => exact List.cons_ne_nil _ _
  | deeper => exact List.cons_ne_nil _ _

theorem Leads.mono (h : Leads inner spot) (hsub : inner ⊆ entries) : Leads entries spot := by
  cases h with
  | entry hmem => exact .entry (hsub hmem)
  | deeper hmem hinner => exact .deeper (hsub hmem) hinner

theorem not_leads_nil : ¬ Leads [] spot := by
  intro h
  cases h with
  | entry hmem => cases hmem
  | deeper hmem => cases hmem

/-- Every place is in one of the entries. -/
theorem leads_cons : Leads (e :: entries) spot ↔ Leads [e] spot ∨ Leads entries spot := by
  constructor
  · intro h
    cases h with
    | entry hmem =>
      exact (List.mem_cons.1 hmem).imp (fun h => .entry (List.mem_singleton.2 h)) .entry
    | deeper hmem hinner =>
      exact (List.mem_cons.1 hmem).imp (fun h => .deeper (List.mem_singleton.2 h) hinner)
        fun h => .deeper h hinner
  · rintro (h | h)
    · exact h.mono (by simp)
    · exact h.mono (List.subset_cons_self e entries)

/-- The places in one entry: its value, and those in a mapping below it. -/
theorem leads_singleton : Leads [(key, value)] spot ↔
    ∃ info text, key = .scalar info text ∧ (spot = ⟨[text], key, value⟩ ∨
      ∃ around inner below, value = .mapping around inner ∧ Leads inner below ∧ spot = below.under text) := by
  constructor
  · intro h
    cases h with
    | entry hmem =>
      obtain ⟨rfl, rfl⟩ := Prod.mk.inj (List.mem_singleton.1 hmem)
      exact ⟨_, _, rfl, .inl rfl⟩
    | deeper hmem hinner =>
      obtain ⟨rfl, rfl⟩ := Prod.mk.inj (List.mem_singleton.1 hmem)
      exact ⟨_, _, rfl, .inr ⟨_, _, _, rfl, hinner, rfl⟩⟩
  · rintro ⟨info, text, rfl, rfl | ⟨around, inner, below, rfl, hinner, rfl⟩⟩
    · exact .entry (List.mem_singleton_self _)
    · exact .deeper (List.mem_singleton_self _) hinner

/-! ## The walk -/

/-- Some entities are those of the leaves, each named by the keys above all entries and the keys to the leaf. -/
def Lists (file : String) (above : List String) (entries : List (Node × Node)) (entities : List Entity) : Prop :=
  ∃ spots : List Spot, (∀ spot, spot ∈ spots ↔ Leaf entries spot) ∧ entities = spots.map (Spot.entity file above)

theorem lists_nil (file : String) (above : List String) : Lists file above [] [] :=
  ⟨[], fun _ => iff_of_false List.not_mem_nil fun h => not_leads_nil h.leads, rfl⟩

theorem Lists.cons {own more : List Entity} (hown : Lists file above [e] own)
    (hmore : Lists file above entries more) : Lists file above (e :: entries) (own ++ more) := by
  obtain ⟨first, hfirst, rfl⟩ := hown
  obtain ⟨rest, hrest, rfl⟩ := hmore
  refine ⟨first ++ rest, fun spot => ?_, List.map_append.symm⟩
  rw [List.mem_append, hfirst, hrest]
  constructor
  · rintro (h | h)
    · exact ⟨leads_cons.2 (.inl h.leads), h.final⟩
    · exact ⟨leads_cons.2 (.inr h.leads), h.final⟩
  · intro h
    exact (leads_cons.1 h.leads).imp (fun hleads => ⟨hleads, h.final⟩) fun hleads => ⟨hleads, h.final⟩

/-- A key that is not a scalar leads to no leaf. -/
theorem lists_of_not_scalar (hkey : ∀ info text, key ≠ .scalar info text) (value : Node) :
    Lists file above [(key, value)] [] := by
  refine ⟨[], fun spot => iff_of_false List.not_mem_nil fun h => ?_, rfl⟩
  obtain ⟨info, text, hscalar, -⟩ := leads_singleton.1 h.leads
  exact hkey info text hscalar

/-- A value that is not gone into is the one leaf of its entry. -/
theorem Final.lists (h : Final value) : Lists file above [(.scalar info text, value)]
    [leaf file (above ++ [text]) (.scalar info text) value] := by
  refine ⟨[⟨[text], .scalar info text, value⟩], fun spot => ?_, rfl⟩
  rw [List.mem_singleton]
  constructor
  · rintro rfl
    exact ⟨.entry (List.mem_singleton_self _), h⟩
  · rintro ⟨hleads, -⟩
    obtain ⟨info', text', hkey, rfl | ⟨around, inner, below, rfl, hinner, -⟩⟩ := leads_singleton.1 hleads
    · obtain ⟨rfl, rfl⟩ := Node.scalar.inj hkey
      rfl
    · -- nothing is below a mapping without entries
      cases h
      exact absurd hinner not_leads_nil

/-- The leaves of an entry with a mapping are those of the mapping, below one more key. -/
theorem Lists.under {entities : List Entity} (h : Lists file (above ++ [text]) inner entities)
    (hne : inner ≠ []) : Lists file above [(.scalar info text, .mapping around inner)] entities := by
  obtain ⟨spots, hspots, rfl⟩ := h
  refine ⟨spots.map (Spot.under text), fun spot => ?_, ?_⟩
  · rw [List.mem_map]
    constructor
    · rintro ⟨below, hbelow, rfl⟩
      have hleaf := (hspots below).1 hbelow
      exact ⟨.deeper (List.mem_singleton_self _) hleaf.leads, hleaf.final⟩
    · rintro ⟨hleads, hfinal⟩
      obtain ⟨info', text', hkey, rfl | ⟨around', inner', below, hvalue, hinner, rfl⟩⟩ :=
        leads_singleton.1 hleads
      · -- the mapping itself has entries, so it is no leaf
        cases hfinal
        exact absurd rfl hne
      · obtain ⟨rfl, rfl⟩ := Node.scalar.inj hkey
        obtain ⟨rfl, rfl⟩ := Node.mapping.inj hvalue
        exact ⟨below, (hspots below).2 ⟨hinner, hfinal⟩, rfl⟩
  · rw [List.map_map]
    refine List.map_congr_left fun spot _ => ?_
    simp [Spot.entity, Spot.under]

/-- A walk ends and lists the leaves, unless keys lead around in a circle. -/
def Walks (file : String) (above : List String) (entries : List (Node × Node))
    (walk : Except Fault (List Entity × List Diagnostic)) : Prop :=
  ¬ Endless entries → ∃ found, walk = .ok found ∧ Lists file above entries found.1

theorem Endless.mono (h : Endless inner) (hsub : inner ⊆ entries) : Endless entries := by
  obtain ⟨spot, number, start, hleads, hvalue⟩ := h
  exact ⟨spot, number, start, hleads.mono hsub, hvalue⟩

theorem Endless.under (h : Endless inner) : Endless [(.scalar info text, .mapping around inner)] := by
  obtain ⟨spot, number, start, hleads, hvalue⟩ := h
  exact ⟨spot.under text, number, start, .deeper (List.mem_singleton_self _) hleads, hvalue⟩

-- The three walks are one induction over the nodes. An entry is looked at as a list of its own, so that the
-- keys above a value are always those above its entry, and the key of the entry is the first of the path.

mutual

theorem walks_leaves (file : String) (above : List String) (info : NodeInfo) (text : String) :
    (value : Node) → Walks file above [(.scalar info text, value)]
      (leaves file (above ++ [text]) (.scalar info text) value)
  | .scalar inner words => fun _ => ⟨_, rfl, (Final.scalar inner words).lists⟩
  | .sequence inner items => fun _ => ⟨_, rfl, (Final.sequence inner items).lists⟩
  | .mapping inner entries => by
    intro hfinite
    rw [leaves]
    split
    · rename_i hempty
      obtain rfl := List.isEmpty_iff.1 hempty
      exact ⟨_, rfl, (Final.empty inner).lists⟩
    · rename_i hempty
      obtain ⟨found, hfound, hlists⟩ :=
        walks_entriesLeaves file (above ++ [text]) entries (mt Endless.under hfinite)
      exact ⟨found, hfound, hlists.under (mt List.isEmpty_iff.2 hempty)⟩
  | .around number start => fun hfinite =>
    absurd ⟨_, number, start, .entry (List.mem_singleton_self _), rfl⟩ hfinite
termination_by structural value => value

theorem walks_entryLeaves (file : String) (above : List String) :
    (entry : Node × Node) → Walks file above [entry] (entryLeaves file above entry)
  | (key, value) => by
    cases key with
    | scalar info text => exact walks_leaves file above info text value
    | _ => exact fun _ => ⟨_, rfl, lists_of_not_scalar (by simp) value⟩
termination_by structural entry => entry

/-- **A walk lists the leaves** of the entries. -/
theorem walks_entriesLeaves (file : String) (above : List String) :
    (entries : List (Node × Node)) → Walks file above entries (entriesLeaves file above entries)
  | [] => fun _ => ⟨_, rfl, lists_nil file above⟩
  | e :: es => by
    intro hfinite
    obtain ⟨own, hown, hfirst⟩ :=
      walks_entryLeaves file above e (mt (Endless.mono · (by simp)) hfinite)
    obtain ⟨more, hmore, hrest⟩ :=
      walks_entriesLeaves file above es (mt (Endless.mono · (List.subset_cons_self e es)) hfinite)
    refine ⟨(own.1 ++ more.1, own.2 ++ more.2), ?_, hfirst.cons hrest⟩
    rw [entriesLeaves, hown, hmore]
    rfl
termination_by structural entries => entries

end

/-! ## Dotted paths -/

/-- What all leaves are declared as. -/
def keyIdentity : Identity := ⟨.configKey, "yaml"⟩

/-- The id of a leaf. -/
def keyId (file : String) (keys : List String) : String := entityId file .configKey (dotted keys)

/-- The parts of a path of keys: each key is cut at its dots. -/
def parts (keys : List String) : List (List Char) := keys.flatMap fun key => Text.splitAt '.' key.toList

variable {keys p q : List String}

/-- A dotted path is cut into the parts of its keys. -/
theorem splitAt_dotted (h : keys ≠ []) : Text.splitAt '.' (dotted keys).toList = parts keys := by
  induction keys with
  | nil => exact absurd rfl h
  | cons key keys ih =>
    by_cases hkeys : keys = []
    · subst hkeys
      simp [dotted, parts]
    · have hdotted : (dotted (key :: keys)).toList = key.toList ++ '.' :: (dotted keys).toList := by
        unfold dotted
        rw [String.intercalate_cons_of_ne_nil hkeys]
        simp
      rw [hdotted, Text.splitAt_append_mark, ih hkeys]
      rfl

/-- **Two paths of keys are dotted alike** just if they have the same parts. -/
theorem dotted_eq_iff (hp : p ≠ []) (hq : q ≠ []) : dotted p = dotted q ↔ parts p = parts q := by
  rw [← splitAt_dotted hp, ← splitAt_dotted hq]
  constructor
  · intro h
    rw [h]
  · -- the parts say all about the text, since joining them gives it back
    intro h
    have htexts := congrArg (['.'].intercalate ·) h
    simp only [Text.intercalate_splitAt] at htexts
    exact String.toList_inj.1 htexts

theorem keyId_eq_iff (hp : p ≠ []) (hq : q ≠ []) : keyId file p = keyId file q ↔ parts p = parts q := by
  rw [← dotted_eq_iff hp hq]
  simp [keyId, entityId]

/-- Keys without dots are their own parts. -/
theorem parts_of_no_dots (hne : keys ≠ []) (h : ∀ key ∈ keys, '.' ∉ key.toList) :
    parts keys = keys.map String.toList := by
  rw [← splitAt_dotted hne, dotted, String.toList_intercalate]
  exact Text.splitAt_intercalate (by simpa using h) (by simpa using hne)

end ConfigKeys

/-! ## Merging a file without edges -/

namespace Store

open Batch

variable {s : Store} {r : ScanResult}

/-- A result that no round rejects is merged, if there is no database. -/
theorem merge_of_no_round (hdatabase : s.database = none) (h : Eligible s.scans r)
    (hround : round s.contributions (s.alone r) = []) : ∃ next version, s.merge r = (next, .ok version) := by
  have hsettle : settle s.contributions (s.alone r) = (s.alone r, []) := by
    change settleFrom s.contributions (0 + 1) (s.alone r) [] = _
    rw [settleFrom, hround]
  have hjudge : s.judge [r] = .ok ([contentOf s.scans r], []) := by
    unfold judge
    change (propose s.scans [r] >>= _) = _
    rw [propose_alone h]
    simp only [bind, Except.bind, hsettle]
    rfl
  have hwrite : ∀ f, s.write f = .ok s := fun f => by
    unfold write
    rw [hdatabase]
  unfold merge mergeBatch tryMerge
  rw [hjudge]
  simp only [bind, Except.bind, List.isEmpty_cons, hwrite]
  exact ⟨_, _, rfl⟩

/-- **A result without edges is merged** just if no other file declares an id of it under another identity. -/
theorem merges_iff_of_no_edges (hs : s.Coherent) (hdatabase : s.database = none) (h : Eligible s.scans r)
    (hedges : r.edges = []) : (∃ next version, s.merge r = (next, .ok version)) ↔
      ∀ file, file ≠ r.file → ∀ e ∈ r.entities, ∀ identity, s.Declares file e.id identity →
        identity = e.identity := by
  constructor
  · rintro ⟨next, version, hmerge⟩ file hfile e he identity hdeclares
    by_contra hne
    -- the first entity with the id is kept, and it meets the other declaration
    obtain ⟨k, hk, hid, hidentity⟩ := exists_kept h he
    obtain ⟨cause, hrejects, -⟩ := conflict_again hs h hk hfile (hid ▸ hdeclares) (hidentity ▸ hne)
    cases hrejects.symm.trans hmerge
  · intro hagree
    have hnone : conflict? (background s.contributions (s.alone r)) (contentOf s.scans r) = none := by
      rw [Option.eq_none_iff_forall_ne_some]
      intro cause hcause
      obtain ⟨e, he, identity, owner, hmem, hne, -⟩ := conflict?_eq_some hcause
      obtain ⟨howner, hdeclares⟩ := (mem_background_alone hs).1 hmem
      exact hne (hagree owner howner e (mem_of_mem_keepFirst he) identity hdeclares)
    refine merge_of_no_round hdatabase h ?_
    have hcontent : (contentOf s.scans r).edges = [] := by
      unfold contentOf
      rw [hedges]
      rfl
    -- without a conflict it is the edges that decide
    rw [round_eq, enrolled_alone hnone, contributionsOf_alone]
    simp [dangling?, hcontent]

end Store

/-! ## One entity for a leaf -/

namespace ConfigKeys

open Yaml (Node)

variable {path : String} {entries : List (Node × Node)} {entities kept : List Entity} {keys : List String}

theorem ne_nil_of_mem_leafPaths (h : keys ∈ leafPaths entries) : keys ≠ [] := by
  obtain ⟨spot, hleaf, rfl⟩ := h
  exact hleaf.leads.keys_ne_nil

theorem keyId_injOn_iff : Set.InjOn (keyId path) (leafPaths entries) ↔ Set.InjOn parts (leafPaths entries) := by
  have hsame : ∀ p ∈ leafPaths entries, ∀ q ∈ leafPaths entries,
      (keyId path p = keyId path q ↔ parts p = parts q) := fun p hp q hq =>
    keyId_eq_iff (ne_nil_of_mem_leafPaths hp) (ne_nil_of_mem_leafPaths hq)
  exact ⟨fun h p hp q hq hparts => h hp hq ((hsame p hp q hq).2 hparts),
    fun h p hp q hq hid => h hp hq ((hsame p hp q hq).1 hid)⟩

/-- Some entities stand for the leaves of a configuration: there is one for each id that a leaf has. -/
structure StandsFor (path : String) (entries : List (Node × Node)) (kept : List Entity) : Prop where
  once : (kept.map Entity.id).Nodup
  ids : ∀ id, id ∈ kept.map Entity.id ↔ id ∈ keyId path '' leafPaths entries

/-- There is one for each path of keys just if no two paths have the same parts. -/
theorem StandsFor.length_eq_iff (h : StandsFor path entries kept) (hfinite : (leafPaths entries).Finite) :
    kept.length = (leafPaths entries).ncard ↔ Set.InjOn parts (leafPaths entries) := by
  have hlength : kept.length = (keyId path '' leafPaths entries).ncard := by
    rw [← Set.ext h.ids, ← List.length_map Entity.id, ← List.toFinset_card_of_nodup h.once,
      ← Set.ncard_coe_finset, List.coe_toFinset]
    rfl
  rw [hlength, Set.ncard_image_iff hfinite, keyId_injOn_iff]

namespace Lists

variable (h : Lists path [] entries entities)

include h

theorem mem_ids (id : String) : id ∈ entities.map Entity.id ↔ id ∈ keyId path '' leafPaths entries := by
  obtain ⟨spots, hspots, rfl⟩ := h
  rw [List.map_map, List.mem_map]
  constructor
  · rintro ⟨spot, hspot, rfl⟩
    exact ⟨spot.keys, ⟨spot, (hspots spot).1 hspot, rfl⟩, rfl⟩
  · rintro ⟨-, ⟨spot, hleaf, rfl⟩, rfl⟩
    exact ⟨spot, (hspots spot).2 hleaf, rfl⟩

theorem finite_leafPaths : (leafPaths entries).Finite := by
  obtain ⟨spots, hspots, -⟩ := h
  have hlisted : {spot | Leaf entries spot} = {spot | spot ∈ spots} := Set.ext fun spot => (hspots spot).symm
  unfold leafPaths
  rw [hlisted]
  exact (List.finite_toSet spots).image _

theorem identity_eq {e : Entity} (he : e ∈ entities) : e.identity = keyIdentity := by
  obtain ⟨spots, -, rfl⟩ := h
  obtain ⟨spot, -, rfl⟩ := List.mem_map.1 he
  rfl

theorem standsFor : StandsFor path entries (keepFirst (fun a b => a.id == b.id) entities) where
  once := nodup_map_keepFirst Entity.id entities
  ids id := (mem_map_keepFirst Entity.id entities).trans (h.mem_ids id)

end Lists

/-- The result with what was found in a configuration. -/
def resultOf (path : String) (found : List Entity × List Diagnostic) : ScanResult :=
  { file := path, entities := found.1, diagnostics := found.2 }

theorem extract_of_mapping {content : String} {info : Yaml.NodeInfo} {found : List Entity × List Diagnostic}
    (hroot : Node.ofText? content.toList = .ok (some (.mapping info entries)))
    (hwalk : entriesLeaves path [] entries = .ok found) : extract content path = .ok (resultOf path found) := by
  unfold extract
  rw [hroot]
  dsimp only
  rw [hwalk]
  rfl

/-- No id of a configuration is declared under two identities, so its result may be merged. -/
theorem Lists.eligible {found : List Entity × List Diagnostic} (h : Lists path [] entries found.1) (s : Store) :
    Batch.Eligible s.scans (resultOf path found) where
  newer := Store.newer_of_version_none rfl
  entities := Batch.exists_addEntities fun a ha b hb _ => by
    rw [List.nil_append] at ha hb
    rw [h.identity_eq ha, h.identity_eq hb]
  keys := List.forall_mem_nil _

/-- Where all keys are without dots, no two paths have the same parts. -/
theorem parts_injOn_of_no_dots (h : ∀ keys ∈ leafPaths entries, ∀ key ∈ keys, '.' ∉ key.toList) :
    Set.InjOn parts (leafPaths entries) := by
  intro p hp q hq hparts
  rw [parts_of_no_dots (ne_nil_of_mem_leafPaths hp) (h p hp),
    parts_of_no_dots (ne_nil_of_mem_leafPaths hq) (h q hq)] at hparts
  exact List.map_injective_iff.2 (fun _ _ => String.toList_inj.1) hparts

/-- **Leaves are kept apart just if no two paths of keys have the same parts.** Let the keys of a configuration
not lead around in a circle. Then a text with it is extracted, and the entities are those of the leaves. Two
leaves have the same id if and only if the paths of keys to them have the same parts, where every key is cut
at its dots. In whatever store the result is merged, the file then contributes one entity for each id, and
these are as many as there are paths of keys to leaves if and only if no two of the paths have the same
parts. A store without a database takes the result if and only if no other file declares one of the ids as
anything but a key of a configuration. In a file whose keys have no dots, no two paths have the same parts. -/
theorem keys_apart_iff (path : String) {entries : List (Node × Node)} (hfinite : ¬ Endless entries) :
    ∃ found, entriesLeaves path [] entries = .ok found ∧ Lists path [] entries found.1 ∧
      (∀ content info, Node.ofText? content.toList = .ok (some (.mapping info entries)) →
        extract content path = .ok (resultOf path found)) ∧
      (∀ a, Leaf entries a → ∀ b, Leaf entries b →
        ((a.entity path []).id = (b.entity path []).id ↔ parts a.keys = parts b.keys)) ∧
      (∀ s next version, Store.merge s (resultOf path found) = (next, .ok version) →
        ∃ c, next.contributions.get? path = some c ∧ StandsFor path entries c.entities ∧
          (c.entities.length = (leafPaths entries).ncard ↔ Set.InjOn parts (leafPaths entries))) ∧
      (∀ ops, (∃ next version, ((Store.empty none).run ops).merge (resultOf path found) = (next, .ok version)) ↔
        ∀ file, file ≠ path → ∀ keys ∈ leafPaths entries, ∀ identity,
          ((Store.empty none).run ops).Declares file (keyId path keys) identity → identity = keyIdentity) ∧
      ((∀ keys ∈ leafPaths entries, ∀ key ∈ keys, '.' ∉ key.toList) → Set.InjOn parts (leafPaths entries)) := by
  obtain ⟨found, hwalk, hlists⟩ := walks_entriesLeaves path [] entries hfinite
  refine ⟨found, hwalk, hlists, fun content info hroot => extract_of_mapping hroot hwalk, ?_, ?_, ?_,
    parts_injOn_of_no_dots⟩
  · exact fun a ha b hb => keyId_eq_iff ha.leads.keys_ne_nil hb.leads.keys_ne_nil
  · intro s next version hmerge
    obtain ⟨henters, -⟩ := Store.enters_of_merge (congrArg Prod.snd hmerge)
    rw [hmerge] at henters
    exact ⟨_, henters.contribution, hlists.standsFor,
      hlists.standsFor.length_eq_iff hlists.finite_leafPaths⟩
  · intro ops
    rw [Store.merges_iff_of_no_edges (Store.run_coherent none ops) ((Store.database_run _ ops).2 rfl)
      (hlists.eligible _) rfl]
    constructor
    · rintro hagree file hfile keys hkeys identity hdeclares
      obtain ⟨e, he, hid⟩ := List.mem_map.1 ((hlists.mem_ids _).2 ⟨keys, hkeys, rfl⟩)
      rw [← hlists.identity_eq he]
      exact hagree file hfile e he identity (hid ▸ hdeclares)
    · intro hagree file hfile e he identity hdeclares
      obtain ⟨keys, hkeys, hid⟩ := (hlists.mem_ids _).1 (List.mem_map_of_mem he)
      rw [hlists.identity_eq he]
      exact hagree file hfile keys hkeys identity (hid ▸ hdeclares)

/-- A dotted key, and a key below another key that is dotted the same. -/
def dottedTwice : List (Node × Node) :=
  [(.scalar default "a.b", .scalar default "1"),
    (.scalar default "a", .mapping default [(.scalar default "b", .scalar default "2")])]

theorem leaf_dottedTwice_flat :
    Leaf dottedTwice ⟨["a.b"], .scalar default "a.b", .scalar default "1"⟩ :=
  ⟨.entry List.mem_cons_self, .scalar _ _⟩

theorem leaf_dottedTwice_nested :
    Leaf dottedTwice ⟨["a", "b"], .scalar default "b", .scalar default "2"⟩ :=
  ⟨.deeper (List.mem_cons_of_mem _ (List.mem_singleton_self _)) (.entry (List.mem_singleton_self _)),
    .scalar _ _⟩

theorem not_endless_dottedTwice : ¬ Endless dottedTwice := by
  rintro ⟨spot, number, start, hleads, hvalue⟩
  rcases leads_cons.1 hleads with h | h
  · obtain ⟨_, _, _, rfl | ⟨_, _, _, hmapping, _⟩⟩ := leads_singleton.1 h
    · cases hvalue
    · cases hmapping
  · obtain ⟨_, _, _, rfl | ⟨_, _, below, hmapping, hinner, rfl⟩⟩ := leads_singleton.1 h
    · cases hvalue
    · cases hmapping
      obtain ⟨_, _, _, rfl | ⟨_, _, _, hmapping, _⟩⟩ := leads_singleton.1 hinner
      · cases hvalue
      · cases hmapping

/-- The file is merged into an empty store, and one of its two keys is missing there. -/
theorem keys_apart_dottedTwice : ¬ Endless dottedTwice ∧
    ∃ found next version c, entriesLeaves "config/app.yml" [] dottedTwice = .ok found ∧
      (Store.empty none).merge (resultOf "config/app.yml" found) = (next, .ok version) ∧
      next.contributions.get? "config/app.yml" = some c ∧
      c.entities.length ≠ (leafPaths dottedTwice).ncard := by
  obtain ⟨found, hwalk, -, -, -, hkept, hmerges, -⟩ := keys_apart_iff "config/app.yml" not_endless_dottedTwice
  obtain ⟨next, version, hmerge⟩ := (hmerges []).2 fun file _ keys _ identity hdeclares => by
    obtain ⟨c, hc, -⟩ := hdeclares
    cases hc
  obtain ⟨c, hc, -, hcount⟩ := hkept _ next version hmerge
  refine ⟨not_endless_dottedTwice, found, next, version, c, hwalk, hmerge, hc, fun hlength => ?_⟩
  have hsame := hcount.1 hlength ⟨_, leaf_dottedTwice_flat, rfl⟩ ⟨_, leaf_dottedTwice_nested, rfl⟩ (by decide)
  exact absurd hsame (by decide)

/-- Two leaves under different keys get one id, and merging the file keeps one entity for both. -/
theorem dotted_key_swallowed : ∃ a b, Leaf dottedTwice a ∧ Leaf dottedTwice b ∧ a.keys ≠ b.keys ∧
    entriesLeaves "config/app.yml" [] dottedTwice =
      .ok ([a.entity "config/app.yml" [], b.entity "config/app.yml" []], []) ∧
    (a.entity "config/app.yml" []).id = (b.entity "config/app.yml" []).id ∧
    (extract "a.b: 1\na:\n  b: 2\n" "config/app.yml").map (fun r => (r.entities.length,
      (((Store.empty none).merge r).1.contributions.get? "config/app.yml").map fun c => c.entities.length)) =
        .ok (2, some 1) :=
  ⟨_, _, leaf_dottedTwice_flat, leaf_dottedTwice_nested, by decide, rfl, by decide, by decide +kernel⟩

end ConfigKeys

end ChangeImpact
