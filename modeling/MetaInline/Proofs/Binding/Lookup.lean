import Mathlib
import MetaInline.Proofs.Binding.Acceptance

namespace MetaInline

namespace Path

def split (path : String) : List String :=
  (path.toList.splitOn separator).map String.ofList

lemma toList_join (keys : List String) :
    (join keys).toList = [separator].intercalate (keys.map String.toList) := by
  simp [join, separator, String.toList_intercalate]

lemma join_split (path : String) : join (split path) = path := by
  apply String.toList_injective
  rw [toList_join, split, List.map_map]
  simp [Function.comp_def, List.intercalate_splitOn]

lemma split_join {keys : List String} (h : ∀ k ∈ keys, isKey k = true) (hne : keys ≠ []) :
    split (join keys) = keys := by
  rw [split, toList_join, List.splitOn_intercalate, List.map_map]
  · simp [Function.comp_def]
  · simpa using fun k hk => separator_notMem (h k hk)
  · simpa using hne

lemma join_injOn {ks ls : List String} (hk : ∀ k ∈ ks, isKey k = true) (hks : ks ≠ [])
    (hl : ∀ l ∈ ls, isKey l = true) (hls : ls ≠ []) (h : join ks = join ls) : ks = ls := by
  rw [← split_join hk hks, h, split_join hl hls]

end Path

inductive Binding.Gives : Binding → Entry → Prop
  | literal (v : Literal) : Gives (.literal v) (.value (.literal v))
  | list (vs : List Literal) : Gives (.list (vs.map .literal)) (.value (.list vs))
  | resolver (r : Resolver) : Gives (.resolver r) (.resolver r)

/-- The keys lead from a binding, along the entries of objects, to one that is no object. -/
inductive Configuration.Leads (c : Configuration) : Binding → List String → Entry → Prop
  | here {b : Binding} {e : Entry} (h : b.Gives e) : Leads c b [] e
  | step {id : ℕ} {key : String} {b : Binding} {keys : List String} {e : Entry}
      (hb : (key, b) ∈ c.entries id) (h : Leads c b keys e) : Leads c (.object id) (key :: keys) e

namespace Json

def scalar? : Json → Option Literal
  | .null => some .null
  | .bool b => some (.bool b)
  | .int n => some (.number (if n < 0 then -Double.ofNat n.natAbs else Double.ofNat n.natAbs))
  | .float x => some (.number x)
  | .string s => some (.string s)
  | .array _ | .object _ => none

inductive Gives : Json → Entry → Prop
  | scalar {v : Json} {l : Literal} (h : v.scalar? = some l) : Gives v (.value (.literal l))
  | array {vs : List Json} {ls : List Literal} (h : vs.map scalar? = ls.map some) :
      Gives (.array vs) (.value (.list ls))

inductive Leads : Json → List String → Entry → Prop
  | here {v : Json} {e : Entry} (h : v.Gives e) : Leads v [] e
  | step {fields : List (String × Json)} {key : String} {v : Json} {keys : List String} {e : Entry}
      (hv : (key, v) ∈ fields) (h : Leads v keys e) : Leads (.object fields) (key :: keys) e

end Json

/-- The table has the paths of those keys that lead to entries, each once and with its entry, and none
of these is the beginning of others. -/
structure BindingTable.Flattens (t : BindingTable) (leads : List String → Entry → Prop) : Prop where
  get?_eq_some_iff : ∀ path e, t.get? path = some e ↔ leads (Path.split path) e
  encard_eq_size : {keys | ∃ e, leads keys e}.encard = t.size
  nodup : (t.entries.map (·.1)).Nodup
  eq_of_prefix : ∀ p q, (t.get? p).isSome = true → (t.get? q).isSome = true →
    Path.split p <+: Path.split q → p = q

lemma Binding.gives_list_iff {bs : List Binding} {e : Entry} :
    (Binding.list bs).Gives e ↔ ∃ ls : List Literal, bs = ls.map .literal ∧ e = .value (.list ls) := by
  constructor
  · rintro ⟨⟩
    exact ⟨_, rfl, rfl⟩
  · rintro ⟨ls, rfl, rfl⟩
    exact .list ls

namespace Configuration

variable {c : Configuration} {keys : List String} {e : Entry}

lemma leads_object_iff {id : ℕ} : c.Leads (.object id) keys e ↔
    ∃ key b ks, keys = key :: ks ∧ (key, b) ∈ c.entries id ∧ c.Leads b ks e := by
  constructor
  · intro h
    cases h with
    | here h => cases h
    | step hb h => exact ⟨_, _, _, rfl, hb, h⟩
  · rintro ⟨key, b, ks, rfl, hb, h⟩
    exact .step hb h

lemma leads_iff_gives {b : Binding} (hb : ∀ id, b ≠ .object id) :
    c.Leads b keys e ↔ keys = [] ∧ b.Gives e := by
  constructor
  · intro h
    cases h with
    | here h => exact ⟨rfl, h⟩
    | step => exact absurd rfl (hb _)
  · rintro ⟨rfl, h⟩
    exact .here h

lemma WellFormed.isKey_of_leads (hc : c.WellFormed) {b : Binding} (h : c.Leads b keys e)
    (hb : ∀ id, b = .object id → c.Reached id) : ∀ k ∈ keys, Path.isKey k = true := by
  induction h with
  | here => simp
  | @step id key b ks e hmem h ih =>
    have hid := hb id rfl
    rintro k (_ | ⟨_, hk⟩)
    · exact isKey_iff.mpr (hc.isKey id hid _ hmem)
    · refine ih (fun child hchild => ?_) k hk
      exact hid.tail ⟨key, hchild ▸ hmem⟩

end Configuration

namespace BindingTable

open MetaInline.Configuration

variable {c : Configuration} {es : List (String × Entry)}

lemma gives_of_leaf {path : String} {b : Binding} {x : Entry} (h : leaf path b = .ok x) (e : Entry) :
    b.Gives e ↔ e = x := by
  cases b with
  | literal v =>
    rw [leaf] at h
    split at h
    · cases h
      constructor
      · rintro ⟨⟩
        rfl
      · rintro rfl
        exact .literal v
    · cases h
  | list items =>
    have hspec := listLiterals_spec path items
    rw [leaf] at h
    cases hl : listLiterals path items with
    | error e => simp [hl, Except.map] at h
    | ok vs =>
      rw [hl] at hspec
      obtain ⟨rfl, -⟩ := hspec
      simp only [hl, Except.map, Except.ok.injEq] at h
      have hinj : Function.Injective Binding.literal := fun _ _ => Binding.literal.inj
      simp [Binding.gives_list_iff, List.map_inj_right hinj, ← h]
  | resolver r =>
    cases h
    constructor
    · rintro ⟨⟩
      rfl
    · rintro rfl
      exact .resolver r
  | object id => cases h
  | unsupported typeName => cases h

section Flatten

variable {child : List String → ℕ → Except BindingError (List (String × Entry))}

lemma mem_below_iff {here : List String} {b : Binding} {p : String} {e : Entry}
    (hchild : ∀ id fs, child here id = .ok fs →
      ((p, e) ∈ fs ↔ ∃ ks, c.Leads (.object id) ks e ∧ p = Path.join (here ++ ks)))
    (h : below child here b = .ok es) :
    (p, e) ∈ es ↔ ∃ ks, c.Leads b ks e ∧ p = Path.join (here ++ ks) := by
  rcases below_eq_ok h with ⟨id, rfl, h⟩ | ⟨hb, x, hl, rfl⟩
  · exact hchild id es h
  · simp only [leads_iff_gives hb, gives_of_leaf hl]
    simp [and_comm]

lemma mem_flattenEntries_iff {keys seen : List String} {xs : List (String × Binding)} {p : String}
    {e : Entry} (hchild : ∀ here id fs, child here id = .ok fs →
      ((p, e) ∈ fs ↔ ∃ ks, c.Leads (.object id) ks e ∧ p = Path.join (here ++ ks)))
    (h : flattenEntries child keys seen xs = .ok es) :
    (p, e) ∈ es ↔ ∃ key b ks, (key, b) ∈ xs ∧ c.Leads b ks e ∧
      p = Path.join (keys ++ key :: ks) := by
  induction xs generalizing seen es with
  | nil =>
    cases h
    simp
  | cons x xs ih =>
    obtain ⟨key, b⟩ := x
    obtain ⟨-, -, first, more, hf, hm, rfl⟩ := exists_of_flattenEntries_cons h
    rw [List.mem_append, mem_below_iff (hchild _) hf, ih hm]
    constructor
    · rintro (⟨ks, hl, rfl⟩ | ⟨key', b', ks, hmem, hl, rfl⟩)
      · exact ⟨key, b, ks, by simp, hl, by simp⟩
      · exact ⟨key', b', ks, by simp [hmem], hl, rfl⟩
    · rintro ⟨key', b', ks, hmem, hl, rfl⟩
      rcases List.mem_cons.mp hmem with heq | hmem
      · cases heq
        exact .inl ⟨ks, hl, by simp⟩
      · exact .inr ⟨key', b', ks, hmem, hl, rfl⟩

end Flatten

theorem mem_flatten_iff {depth : ℕ} {inside : List ℕ} {keys : List String} {id : ℕ}
    (h : flatten c depth inside keys id = .ok es) {p : String} {e : Entry} :
    (p, e) ∈ es ↔ ∃ ks, c.Leads (.object id) ks e ∧ p = Path.join (keys ++ ks) := by
  induction depth generalizing inside keys id es with
  | zero => cases h
  | succ depth ih =>
    rw [flatten] at h
    split at h
    · cases h
    · rw [mem_flattenEntries_iff (fun here id fs hf => ih hf) h]
      simp only [leads_object_iff]
      constructor
      · rintro ⟨key, b, ks, hmem, hl, rfl⟩
        exact ⟨_, ⟨key, b, ks, rfl, hmem, hl⟩, rfl⟩
      · rintro ⟨_, ⟨key, b, ks, rfl, hmem, hl⟩, rfl⟩
        exact ⟨key, b, ks, hmem, hl, rfl⟩

lemma lookup_eq_some_iff {β : Type*} {xs : List (String × β)} (h : (xs.map (·.1)).Nodup) {k : String}
    {v : β} : xs.lookup k = some v ↔ (k, v) ∈ xs := by
  rw [List.lookup_eq_some_iff]
  constructor
  · rintro ⟨front, back, rfl, -⟩
    simp
  · intro hm
    obtain ⟨front, back, rfl⟩ := List.append_of_mem hm
    refine ⟨front, back, rfl, fun x hx => ?_⟩
    simp only [List.map_append, List.map_cons, List.nodup_append] at h
    simpa using (h.2.2 x.1 (List.mem_map_of_mem hx) k (by simp)).symm

section Keys

variable {kss : List (List String)} {leads : List String → Entry → Prop}

lemma mem_iff_exists_leads (hkss : es.map (·.1) = kss.map Path.join)
    (hk : ∀ ks ∈ kss, (∀ k ∈ ks, Path.isKey k = true) ∧ ks ≠ [])
    (hleads : ∀ ks e, leads ks e → (∀ k ∈ ks, Path.isKey k = true) ∧ ks ≠ [])
    (hmem : ∀ p e, (p, e) ∈ es ↔ ∃ ks, leads ks e ∧ p = Path.join ks) (ks : List String) :
    ks ∈ kss ↔ ∃ e, leads ks e := by
  constructor
  · intro hks
    have hpath : Path.join ks ∈ es.map (·.1) := hkss ▸ List.mem_map_of_mem hks
    obtain ⟨⟨p, e⟩, hp, heq⟩ := List.mem_map.mp hpath
    obtain ⟨ls, hl, rfl⟩ := (hmem p e).mp hp
    have hls := hleads ls e hl
    have hkeys := hk ks hks
    obtain rfl := Path.join_injOn hls.1 hls.2 hkeys.1 hkeys.2 heq
    exact ⟨e, hl⟩
  · rintro ⟨e, hl⟩
    have hpath : Path.join ks ∈ kss.map Path.join :=
      hkss ▸ List.mem_map_of_mem (f := (·.1)) ((hmem _ e).mpr ⟨ks, hl, rfl⟩)
    obtain ⟨ls, hls, heq⟩ := List.mem_map.mp hpath
    have hkeys := hleads ks e hl
    have hkeys' := hk ls hls
    exact Path.join_injOn hkeys'.1 hkeys'.2 hkeys.1 hkeys.2 heq ▸ hls

lemma flattens_of_leads (hkss : es.map (·.1) = kss.map Path.join)
    (hk : ∀ ks ∈ kss, (∀ k ∈ ks, Path.isKey k = true) ∧ ks ≠ [])
    (hpair : kss.Pairwise Path.Diverge)
    (hleads : ∀ ks e, leads ks e → (∀ k ∈ ks, Path.isKey k = true) ∧ ks ≠ [])
    (hmem : ∀ p e, (p, e) ∈ es ↔ ∃ ks, leads ks e ∧ p = Path.join ks) :
    Flattens ⟨es⟩ leads := by
  have hkeys : kss.Nodup :=
    hpair.imp fun {ks ls} (hd : Path.Diverge ks ls) (heq : ks = ls) => hd.1 (heq ▸ List.prefix_rfl)
  have hnodup : (es.map (·.1)).Nodup := hkss ▸ hkeys.map_on fun ks hks ls hls heq =>
    Path.join_injOn (hk ks hks).1 (hk ks hks).2 (hk ls hls).1 (hk ls hls).2 heq
  refine ⟨fun p e => ?_, ?_, hnodup, fun p q hp hq hpre => ?_⟩
  · rw [get?, lookup_eq_some_iff hnodup, hmem]
    constructor
    · rintro ⟨ks, hl, rfl⟩
      rwa [Path.split_join (hleads ks e hl).1 (hleads ks e hl).2]
    · exact fun hl => ⟨_, hl, (Path.join_split p).symm⟩
  · have hset : {ks | ∃ e, leads ks e} = kss.toFinset := by
      ext ks
      simp [mem_iff_exists_leads hkss hk hleads hmem]
    have hlength : es.length = kss.length := by simpa using congrArg List.length hkss
    rw [hset, Set.encard_coe_eq_coe_finsetCard, List.toFinset_card_of_nodup hkeys, size, hlength]
  · obtain ⟨ks, hks, rfl⟩ := (isSome_get?_iff hkss).mp hp
    obtain ⟨ls, hls, rfl⟩ := (isSome_get?_iff hkss).mp hq
    rw [Path.split_join (hk ks hks).1 (hk ks hks).2, Path.split_join (hk ls hls).1 (hk ls hls).2]
      at hpre
    by_contra hne
    exact (hpair.forall hks hls fun heq => hne (by rw [heq])).1 hpre

end Keys

lemma flattens_of_build {table : BindingTable} (h : build c = .ok table) :
    table.Flattens (c.Leads (.object c.root)) := by
  have hwf := exists_build_iff.mp ⟨table, h⟩
  have hflat := flatten_of_build h
  obtain ⟨kss, hkss, hk, hpair⟩ := branches_flatten (by simp) hflat
  refine flattens_of_leads hkss (fun ks hks => ⟨(hk ks hks).2, (hk ks hks).1.2⟩) hpair
    (fun ks e hl => ⟨hwf.isKey_of_leads hl fun id hid => ?_, ?_⟩) fun p e => mem_flatten_iff hflat
  · cases hid
    exact .refl
  · rintro rfl
    obtain ⟨_, _, _, hnil, -⟩ := leads_object_iff.mp hl
    cases hnil

end BindingTable

namespace Json

variable {keys : List String} {e : Entry}

lemma leads_object_iff {fields : List (String × Json)} : (Json.object fields).Leads keys e ↔
    ∃ key v ks, keys = key :: ks ∧ (key, v) ∈ fields ∧ v.Leads ks e := by
  constructor
  · intro h
    cases h with
    | here h =>
      cases h with
      | scalar h => cases h
    | step hv h => exact ⟨_, _, _, rfl, hv, h⟩
  · rintro ⟨key, v, ks, rfl, hv, h⟩
    exact .step hv h

lemma leads_iff_gives {v : Json} (hv : ∀ fields, v ≠ .object fields) :
    v.Leads keys e ↔ keys = [] ∧ v.Gives e := by
  constructor
  · intro h
    cases h with
    | here h => exact ⟨rfl, h⟩
    | step => exact absurd rfl (hv _)
  · rintro ⟨rfl, h⟩
    exact .here h

lemma gives_array_iff {vs : List Json} {e : Entry} :
    (Json.array vs).Gives e ↔
      ∃ ls : List Literal, vs.map scalar? = ls.map some ∧ e = .value (.list ls) := by
  constructor
  · rintro (h | h)
    · cases h
    · exact ⟨_, h, rfl⟩
  · rintro ⟨ls, h, rfl⟩
    exact .array h

end Json

namespace Configuration

open Json (scalar?)

lemma leads_literal_iff {c : Configuration} {v : Json} {l : Literal} (hv : v.scalar? = some l)
    (keys : List String) (e : Entry) : c.Leads (.literal l) keys e ↔ v.Leads keys e := by
  rw [leads_iff_gives (by simp), Json.leads_iff_gives (by rintro fields rfl; cases hv)]
  refine and_congr_right fun _ => ⟨?_, ?_⟩
  · rintro ⟨⟩
    exact .scalar hv
  · rintro (h | h)
    · cases hv.symm.trans h
      exact .literal l
    · cases hv

lemma map_scalar?_eq_iff {vs : List Json} {bs : List Binding}
    (h : List.Forall₂ (fun v b => ∀ l, scalar? v = some l ↔ b = .literal l) vs bs)
    {ls : List Literal} : vs.map scalar? = ls.map some ↔ bs = ls.map .literal := by
  induction h generalizing ls with
  | nil => cases ls <;> simp
  | cons hv _ ih => cases ls <;> simp [hv, ih]

lemma exists_leads_iff {c : Configuration} {fields : List (String × Json)}
    {xs : List (String × Binding)}
    (h : List.Forall₂ (fun f x => f.1 = x.1 ∧ ∀ keys e, c.Leads x.2 keys e ↔ f.2.Leads keys e)
      fields xs) (keys : List String) (e : Entry) :
    (∃ key b ks, keys = key :: ks ∧ (key, b) ∈ xs ∧ c.Leads b ks e) ↔
      ∃ key v ks, keys = key :: ks ∧ (key, v) ∈ fields ∧ v.Leads ks e := by
  induction h with
  | nil => simp
  | @cons f x fields xs hfx _ ih =>
    obtain ⟨key, v⟩ := f
    obtain ⟨key', b⟩ := x
    obtain ⟨rfl, hleads⟩ := hfx
    constructor
    · rintro ⟨k, b', ks, rfl, hm, hl⟩
      rcases List.mem_cons.mp hm with heq | hm
      · cases heq
        exact ⟨key, v, ks, rfl, by simp, (hleads ks e).mp hl⟩
      · obtain ⟨k', v', ks', heq, hm', hl'⟩ := ih.mp ⟨k, b', ks, rfl, hm, hl⟩
        exact ⟨k', v', ks', heq, by simp [hm'], hl'⟩
    · rintro ⟨k, v', ks, rfl, hm, hl⟩
      rcases List.mem_cons.mp hm with heq | hm
      · cases heq
        exact ⟨key, b, ks, rfl, by simp, (hleads ks e).mpr hl⟩
      · obtain ⟨k', b', ks', heq, hm', hl'⟩ := ih.mpr ⟨k, v', ks, rfl, hm, hl⟩
        exact ⟨k', b', ks', heq, by simp [hm'], hl'⟩

lemma entries_of_prefix {c : Configuration} {os : Array (List (String × Binding))}
    {xs : List (String × Binding)} (h : (os.push xs).toList <+: c.objects.toList) :
    c.entries os.size = xs := by
  obtain ⟨more, h⟩ := h
  have hget : c.objects.toList[os.size]? = some xs := by
    rw [← h]
    simp
  simp only [Array.getElem?_toList] at hget
  simp [entries, Array.getD_eq_getD_getElem?, hget]

mutual

lemma leads_ofJson (v : Json) (os : Array (List (String × Binding))) :
    os.toList <+: (ofJson v os).2.toList ∧
      ∀ c : Configuration, (ofJson v os).2.toList <+: c.objects.toList →
        ∀ keys e, c.Leads (ofJson v os).1 keys e ↔ v.Leads keys e := by
  match v with
  | .null | .bool _ | .int _ | .float _ | .string _ =>
    exact ⟨List.prefix_rfl, fun c _ => leads_literal_iff rfl⟩
  | .array items =>
    obtain ⟨hpre, hitems⟩ := forall₂_ofItems items os
    refine ⟨hpre, fun c _ keys e => ?_⟩
    rw [ofJson, leads_iff_gives (by simp), Json.leads_iff_gives (by simp), Binding.gives_list_iff,
      Json.gives_array_iff]
    simp only [map_scalar?_eq_iff hitems]
  | .object fields =>
    obtain ⟨hpre, hfields⟩ := forall₂_ofFields fields os
    rw [ofJson]
    refine ⟨?_, fun c hc keys e => ?_⟩
    · simpa using hpre.trans (List.prefix_append _ _)
    · have hentries := entries_of_prefix hc
      have hbelow := (List.prefix_append _ _).trans (Array.toList_push ▸ hc)
      rw [leads_object_iff, Json.leads_object_iff, hentries]
      exact exists_leads_iff (hfields c hbelow) keys e

lemma forall₂_ofItems (vs : List Json) (os : Array (List (String × Binding))) :
    os.toList <+: (ofItems vs os).2.toList ∧
      List.Forall₂ (fun v b => ∀ l, v.scalar? = some l ↔ b = .literal l) vs (ofItems vs os).1 := by
  match vs with
  | [] => exact ⟨List.prefix_rfl, .nil⟩
  | v :: vs =>
    obtain ⟨hpre, hv⟩ := leads_ofJson v os
    obtain ⟨hpre', hvs⟩ := forall₂_ofItems vs (ofJson v os).2
    refine ⟨hpre.trans hpre', .cons (fun l => ?_) hvs⟩
    cases v <;> simp [scalar?, ofJson, eq_comm]

lemma leads_ofField (f : String × Json) (os : Array (List (String × Binding))) :
    os.toList <+: (ofField f os).2.toList ∧ (ofField f os).1.1 = f.1 ∧
      ∀ c : Configuration, (ofField f os).2.toList <+: c.objects.toList →
        ∀ keys e, c.Leads (ofField f os).1.2 keys e ↔ f.2.Leads keys e := by
  match f with
  | (k, v) =>
    obtain ⟨hpre, hv⟩ := leads_ofJson v os
    exact ⟨hpre, rfl, hv⟩

lemma forall₂_ofFields (fs : List (String × Json)) (os : Array (List (String × Binding))) :
    os.toList <+: (ofFields fs os).2.toList ∧
      ∀ c : Configuration, (ofFields fs os).2.toList <+: c.objects.toList →
        List.Forall₂ (fun f x => f.1 = x.1 ∧ ∀ keys e, c.Leads x.2 keys e ↔ f.2.Leads keys e) fs
          (ofFields fs os).1 := by
  match fs with
  | [] => exact ⟨List.prefix_rfl, fun _ _ => .nil⟩
  | f :: fs =>
    obtain ⟨hpre, hkey, hf⟩ := leads_ofField f os
    obtain ⟨hpre', hfs⟩ := forall₂_ofFields fs (ofField f os).2
    exact ⟨hpre.trans hpre', fun c hc => .cons ⟨hkey.symm, hf c (hpre'.trans hc)⟩ (hfs c hc)⟩

end

end Configuration

namespace BindingTable

lemma flattens_of_ofJson {v : Json} {table : BindingTable} (h : ofJson v = .ok table) :
    table.Flattens v.Leads := by
  have hleads := (Configuration.leads_ofJson v #[]).2
  rw [ofJson] at h
  split at h
  · next id os hv =>
    rw [hv] at hleads
    have hroot : v.Leads = Configuration.Leads ⟨os, id⟩ (.object id) := by
      funext keys e
      exact propext (hleads ⟨os, id⟩ List.prefix_rfl keys e).symm
    exact hroot ▸ flattens_of_build h
  · cases h

/-- To look up a path is to walk the nested configuration, or the value it was read from, along the
keys of the path. There are as many entries as ways to walk, an object that stands in several places
counting in each; no entry takes the place of another one, and no path begins another one. -/
theorem build_flattens : (∀ c table, build c = .ok table → table.Flattens (c.Leads (.object c.root))) ∧
    ∀ v table, ofJson v = .ok table → table.Flattens v.Leads :=
  ⟨fun _ _ h => flattens_of_build h, fun _ _ h => flattens_of_ofJson h⟩

theorem build_flattens_shared :
    BindingTable.Flattens ⟨[("x.a", .value (.literal .null)), ("y.a", .value (.literal .null))]⟩
        (Configuration.Leads ⟨#[[("a", .literal .null)], [("x", .object 0), ("y", .object 0)]], 1⟩
          (.object 1)) ∧
      BindingTable.Flattens ⟨[("x.a", .value (.list [.null]))]⟩
        (Json.object [("x", .object [("a", .array [.null])])]).Leads :=
  ⟨build_flattens.1 _ _ rfl, build_flattens.2 _ _ rfl⟩

end BindingTable
end MetaInline
