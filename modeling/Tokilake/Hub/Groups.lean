import Tokilake.Lib.Text
import Mathlib.Data.List.Sort
import Mathlib.Tactic.Linarith

/-! # Group strings of the worker registry

The registry trims, deduplicates, sorts and joins what a worker asks for, then splits it again and
checks every item against the user's grants.

* `resolveAuthorizedGroup_ok`: a resolved string consists of authorized groups. -/

namespace Tokilake.Hub.Groups

open Lib.Text List

/-! ### Normalizing -/

/-- The loop shared by `normalizeModels` and `normalizeGroup`: trim, skip blanks and what was
`seen`. -/
def distinct : List String → List String → List String
  | _, [] => []
  | seen, item :: items =>
    if trimSpace item = "" ∨ trimSpace item ∈ seen then distinct seen items
    else trimSpace item :: distinct (trimSpace item :: seen) items

def sort (items : List String) : List String := items.insertionSort (· ≤ ·)

def normalizeModels (models : List String) : List String := sort (distinct [] models)

variable (group fallback : String)

def groupSource : String :=
  let source := if trimSpace group = "" then fallback else group
  if trimSpace source = "" then "default" else source

def normalizeGroup : String :=
  let groups := distinct [] (split ',' (groupSource group fallback))
  join ',' (sort (if groups = [] then ["default"] else groups))

/-- Group names as the registry writes them: increasing, trimmed, not blank and without commas. -/
structure GroupList (items : List String) : Prop where
  ne_nil : items ≠ []
  sorted : items.Pairwise (· < ·)
  trimmed : ∀ item ∈ items, trimSpace item = item
  ne_blank : ∀ item ∈ items, item ≠ ""
  comma_free : ∀ item ∈ items, ',' ∉ item.toList

lemma mem_distinct {item : String} : ∀ {seen items : List String}, item ∈ distinct seen items →
    item ∉ seen ∧ item ≠ "" ∧ ∃ raw ∈ items, item = trimSpace raw
  | _, [], h => by simp [distinct] at h
  | seen, raw :: items, h => by
    rw [distinct] at h
    split_ifs at h with hskip
    · obtain ⟨h1, h2, raw', hraw, h3⟩ := mem_distinct h
      exact ⟨h1, h2, raw', mem_cons_of_mem _ hraw, h3⟩
    push Not at hskip
    rcases mem_cons.mp h with rfl | h
    · exact ⟨hskip.2, hskip.1, raw, by simp, rfl⟩
    · obtain ⟨h1, h2, raw', hraw, h3⟩ := mem_distinct h
      exact ⟨fun h' => h1 (mem_cons_of_mem _ h'), h2, raw', mem_cons_of_mem _ hraw, h3⟩

lemma nodup_distinct : ∀ seen items : List String, (distinct seen items).Nodup
  | _, [] => by simp [distinct]
  | seen, raw :: items => by
    rw [distinct]
    split_ifs
    · exact nodup_distinct seen items
    · refine nodup_cons.mpr ⟨fun h => ?_, nodup_distinct _ items⟩
      exact (mem_distinct h).1 (by simp)

@[simp] lemma mem_sort {item : String} {items : List String} : item ∈ sort items ↔ item ∈ items :=
  mem_insertionSort (· ≤ ·)

lemma sort_pairwise {items : List String} (h : items.Nodup) : (sort items).Pairwise (· < ·) := by
  have hle := pairwise_insertionSort (· ≤ ·) items
  have hne := (perm_insertionSort (· ≤ ·) items).nodup_iff.mpr h
  exact (hle.and hne).imp fun h => lt_of_le_of_ne h.1 h.2

lemma groupList_sort {items : List String} (hne : items ≠ []) (hnd : items.Nodup)
    (h : ∀ item ∈ items, trimSpace item = item ∧ item ≠ "" ∧ ',' ∉ item.toList) :
    GroupList (sort items) where
  ne_nil := by
    intro h'
    obtain ⟨item, hitem⟩ := exists_mem_of_ne_nil _ hne
    simpa [h'] using mem_sort.mpr hitem
  sorted := sort_pairwise hnd
  trimmed := fun item hitem => (h item (mem_sort.mp hitem)).1
  ne_blank := fun item hitem => (h item (mem_sort.mp hitem)).2.1
  comma_free := fun item hitem => (h item (mem_sort.mp hitem)).2.2

lemma groupList_normalizeGroup : GroupList (split ',' (normalizeGroup group fallback)) := by
  have hitems : ∀ items : List String, GroupList items →
      GroupList (split ',' (join ',' items)) := by
    intro items h
    rw [split_join h.ne_nil h.comma_free]
    exact h
  refine hitems _ ?_
  split_ifs with hnil
  · exact groupList_sort (by simp) (by simp) (by decide)
  refine groupList_sort hnil (nodup_distinct _ _) ?_
  intro item hitem
  obtain ⟨-, hblank, raw, hraw, rfl⟩ := mem_distinct hitem
  refine ⟨trimSpace_trimSpace raw, hblank, fun hcomma => ?_⟩
  exact not_mem_of_mem_split hraw (mem_of_mem_trimSpace hcomma)

/-! ### Authorizing -/

inductive RegistryError
  | text (message : String)
  | controlPlane (code message : String)
  | database (text : String)
  deriving DecidableEq

def SlugPattern (slug : String) : Prop :=
  3 ≤ slug.toList.length ∧ slug.toList.length ≤ 64 ∧
    ∀ c ∈ slug.toList, ('a' ≤ c ∧ c ≤ 'z') ∨ ('0' ≤ c ∧ c ≤ '9') ∨ c = '-'

-- decided over the letters of the slug, not over all characters
instance (slug : String) : Decidable (SlugPattern slug) :=
  have : Decidable (∀ c ∈ slug.toList, ('a' ≤ c ∧ c ≤ 'z') ∨ ('0' ≤ c ∧ c ≤ '9') ∨ c = '-') :=
    decidableBAll _ _
  instDecidableAnd

/-- A current grant; its slug has passed `ValidatePrivateGroupSlug`. -/
structure Grant where
  groupSlug : String
  valid : SlugPattern groupSlug

/-- `CacheGetUserGroup` and `GetUserPrivateGroupGrantDetails` at the time of a call. -/
structure Directory where
  userGroup : ℤ → Except RegistryError String
  grants : ℤ → Except RegistryError (List Grant)

def checkGroups (allowed : List String) : List String → Except RegistryError Unit
  | [] => .ok ()
  | item :: items =>
    if trimSpace item = "" ∨ trimSpace item ∈ allowed then checkGroups allowed items
    else .error (.controlPlane "group_not_authorized"
      ("group " ++ trimSpace item ++ " is not authorized for current user"))

def allowedGroups (primaryGroup : String) (grants : List Grant) : List String :=
  primaryGroup :: (grants.map fun grant => trimSpace grant.groupSlug).filter (· ≠ "")

def askedGroup (requested fallback : String) : String :=
  if trimSpace requested = "" then trimSpace fallback else trimSpace requested

def resolveAuthorizedGroup (dir : Directory) (userId : ℤ) (requested fallback : String) :
    Except RegistryError String :=
  if userId ≤ 0 then .error (.text "invalid user id")
  else match dir.userGroup userId, dir.grants userId with
  | .error err, _ => .error err
  | .ok _, .error err => .error err
  | .ok userGroup, .ok grants =>
    let primaryGroup := normalizeGroup userGroup "default"
    if askedGroup requested fallback = "" then .ok primaryGroup
    else
      let group := normalizeGroup (askedGroup requested fallback) primaryGroup
      match checkGroups (allowedGroups primaryGroup grants) (split ',' group) with
      | .error err => .error err
      | .ok () => .ok group

def IsPrimary (dir : Directory) (userId : ℤ) (item : String) : Prop :=
  ∃ userGroup, dir.userGroup userId = .ok userGroup ∧ item = normalizeGroup userGroup "default"

def IsGranted (dir : Directory) (userId : ℤ) (item : String) : Prop :=
  ∃ grants, dir.grants userId = .ok grants ∧ ∃ grant ∈ grants, item = grant.groupSlug

structure AuthorizedGroup (dir : Directory) (userId : ℤ) (group : String) : Prop where
  items : GroupList (split ',' group)
  authorized : ∀ item ∈ split ',' group, IsPrimary dir userId item ∨ IsGranted dir userId item

lemma checkGroups_ok {allowed : List String} : ∀ {items : List String},
    checkGroups allowed items = .ok () → ∀ item ∈ items, trimSpace item = "" ∨
      trimSpace item ∈ allowed
  | [], _ => by simp
  | first :: items, h => by
    rw [checkGroups] at h
    split_ifs at h with hfirst
    intro item hitem
    rcases mem_cons.mp hitem with rfl | hitem
    · exact hfirst
    · exact checkGroups_ok h item hitem

lemma isSpace_slug {c : Char} (h : ('a' ≤ c ∧ c ≤ 'z') ∨ ('0' ≤ c ∧ c ≤ '9') ∨ c = '-') :
    isSpace c = false := by
  have hnat : (97 ≤ c.toNat ∧ c.toNat ≤ 122) ∨ (48 ≤ c.toNat ∧ c.toNat ≤ 57) ∨ c.toNat = 45 := by
    rcases h with h | h | rfl
    · exact Or.inl h
    · exact Or.inr (Or.inl h)
    · decide
  simp only [isSpace, mem_cons, not_mem_nil, Bool.or_eq_false_iff, decide_eq_false_iff_not,
    Bool.and_eq_false_iff, or_false]
  omega

lemma trimSpace_slug (grant : Grant) : trimSpace grant.groupSlug = grant.groupSlug :=
  trimSpace_of_forall fun _ hc => isSpace_slug (grant.valid.2.2 _ hc)

lemma mem_allowedGroups {primaryGroup item : String} {grants : List Grant}
    (h : item ∈ allowedGroups primaryGroup grants) :
    item = primaryGroup ∨ ∃ grant ∈ grants, item = grant.groupSlug := by
  rcases mem_cons.mp h with h | h
  · exact Or.inl h
  · obtain ⟨grant, hgrant, rfl⟩ := mem_map.mp (mem_of_mem_filter h)
    exact Or.inr ⟨grant, hgrant, trimSpace_slug grant⟩

lemma resolveAuthorizedGroup_ok {dir : Directory} {userId : ℤ} {requested fallback group : String}
    (hprimary : ∀ item, IsPrimary dir userId item → ',' ∉ item.toList)
    (h : resolveAuthorizedGroup dir userId requested fallback = .ok group) :
    AuthorizedGroup dir userId group := by
  unfold resolveAuthorizedGroup at h
  by_cases hid : userId ≤ 0
  · rw [if_pos hid] at h; exact nomatch h
  rw [if_neg hid] at h
  split at h
  · exact nomatch h
  · exact nomatch h
  next userGroup grants hgroup hgrants =>
  have hprim : IsPrimary dir userId (normalizeGroup userGroup "default") := ⟨userGroup, hgroup, rfl⟩
  generalize hp : normalizeGroup userGroup "default" = primaryGroup at h hprim
  dsimp only at h
  by_cases hasked : askedGroup requested fallback = ""
  · -- nothing was asked for: the primary group, which is its own only item
    rw [if_pos hasked, Except.ok.injEq] at h
    subst h
    refine ⟨hp ▸ groupList_normalizeGroup _ _, fun item hitem => Or.inl ?_⟩
    rw [split_of_not_mem (hprimary _ hprim), mem_singleton] at hitem
    rw [hitem]
    exact hprim
  · rw [if_neg hasked] at h
    have hlist := groupList_normalizeGroup (askedGroup requested fallback) primaryGroup
    generalize normalizeGroup (askedGroup requested fallback) primaryGroup = normalized at h hlist
    rcases hcheck : checkGroups (allowedGroups primaryGroup grants)
      (split ',' normalized) with err | _
    · rw [hcheck] at h; exact nomatch h
    rw [hcheck, Except.ok.injEq] at h
    subst h
    refine ⟨hlist, fun item hitem => ?_⟩
    -- the items are trimmed already, so the check was about them
    have hmem := checkGroups_ok hcheck item hitem
    rw [hlist.trimmed item hitem] at hmem
    rcases mem_allowedGroups (hmem.resolve_left (hlist.ne_blank item hitem)) with h | ⟨grant, hg, h⟩
    · exact Or.inl (h ▸ hprim)
    · exact Or.inr ⟨grants, hgrants, grant, hg, h⟩

end Tokilake.Hub.Groups
