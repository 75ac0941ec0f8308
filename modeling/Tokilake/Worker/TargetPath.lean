import Tokilake.Lib.Text
import Mathlib.Data.List.Infix

/-! # The path of a local target

`mergeTargetPath` puts the request path behind the base path, with their longest overlap there only
once.

* `mergeTargetPath_shortest`: it is the shortest such path. -/

namespace Tokilake.Worker.TargetPath

open Lib.Text

def splitURLPathSegments (rawPath : String) : List String :=
  if trimSpace rawPath = "" ∨ trimSpace rawPath = "/" then []
  else ((split '/' (trimSpace rawPath)).map trimSpace).filter (· ≠ "")

/-- The search, from `size` down. -/
def overlap (base request : List String) : ℕ → ℕ
  | 0 => 0
  | size + 1 =>
    if base.drop (base.length - (size + 1)) = request.take (size + 1) then size + 1
    else overlap base request size

def merged (base request : List String) : List String :=
  base ++ request.drop (overlap base request (min base.length request.length))

def mergeTargetPath (basePath requestPath : String) : String :=
  let base := splitURLPathSegments basePath
  let request := splitURLPathSegments requestPath
  if request = [] then if base = [] then "/" else "/" ++ join '/' base
  else if base = [] then "/" ++ join '/' request
  else if merged base request = [] then "/"
  else "/" ++ join '/' (merged base request)

/-! ### Lists of segments -/

section
variable {base request : List String}

lemma overlap_spec (base request : List String) (n : ℕ) : overlap base request n ≤ n ∧
      base.drop (base.length - overlap base request n) = request.take (overlap base request n) ∧
      ∀ m, overlap base request n < m → m ≤ n → base.drop (base.length - m) ≠ request.take m := by
  induction n with
  | zero => exact ⟨le_rfl, by simp [overlap], fun m hlt hle => absurd hlt (by omega)⟩
  | succ size ih =>
    rw [overlap]
    split_ifs with heq
    · exact ⟨le_rfl, heq, fun m hlt hle => absurd hlt (by omega)⟩
    obtain ⟨hle, hover, hmax⟩ := ih
    refine ⟨by omega, hover, fun m hlt hm => ?_⟩
    rcases Nat.le_succ_iff.mp hm with hm | rfl
    · exact hmax m hlt hm
    · exact heq

lemma suffix_merged (base request : List String) : request <:+ merged base request := by
  obtain ⟨-, hover, -⟩ := overlap_spec base request (min base.length request.length)
  unfold merged
  generalize overlap base request (min base.length request.length) = k at hover ⊢
  refine ⟨base.take (base.length - k), ?_⟩
  calc base.take (base.length - k) ++ request
      = base.take (base.length - k) ++ (request.take k ++ request.drop k) := by
        rw [List.take_append_drop]
    _ = base ++ request.drop k := by rw [← hover, ← List.append_assoc, List.take_append_drop]

lemma merged_shortest {l : List String} (hbase : base <+: l) (hrequest : request <:+ l) :
    (merged base request).length ≤ l.length := by
  obtain ⟨hle, -, hmax⟩ := overlap_spec base request (min base.length request.length)
  by_contra hlt
  rw [merged, List.length_append, List.length_drop] at hlt
  have hbase' := hbase.length_le
  have hrequest' := hrequest.length_le
  obtain ⟨x, rfl⟩ := hbase
  obtain ⟨y, heq⟩ := hrequest
  -- the two overlap in a longer list than the one that was found
  have hlen := congrArg List.length heq
  rw [List.length_append] at hlen hlt hbase' hrequest'
  rw [List.length_append] at hlen
  refine hmax (request.length - x.length) (by omega) (by omega) ?_
  have hdrop := congrArg (List.drop y.length) heq
  rw [List.drop_left, List.drop_append_of_le_length (by omega)] at hdrop
  have hy : base.length - (request.length - x.length) = y.length := by omega
  have hm : request.length - x.length = (base.drop y.length).length := by
    rw [List.length_drop]; omega
  rw [hy, hm]
  exact ((congrArg (List.take _) hdrop).trans List.take_left).symm

lemma merged_of_suffix (h : request <:+ base) : merged base request = base := by
  obtain ⟨front, rfl⟩ := h
  have hmin : min (front ++ request).length request.length = request.length :=
    min_eq_right (by simp)
  have hover : overlap (front ++ request) request request.length = request.length := by
    cases request with
    | nil => rfl
    | cons a request => exact if_pos (by simp)
  rw [merged, hmin, hover, List.drop_length, List.append_nil]

/-! ### Paths -/

lemma mergeTargetPath_eq (basePath requestPath : String) : mergeTargetPath basePath requestPath =
    "/" ++ join '/' (merged (splitURLPathSegments basePath)
      (splitURLPathSegments requestPath)) := by
  unfold mergeTargetPath
  dsimp only
  split_ifs with hrequest hbase hbase hmerged
  · rw [hrequest, hbase]; rfl
  · rw [hrequest]; simp [merged]
  · rw [hbase]; simp [merged, overlap]
  · rw [hmerged]; rfl
  · rfl

def Clean (segments : List String) : Prop :=
  ∀ part ∈ segments, trimSpace part = part ∧ part ≠ "" ∧ '/' ∉ part.toList

lemma splitURLPathSegments_eq (rawPath : String) : splitURLPathSegments rawPath =
    ((split '/' (trimSpace rawPath)).map trimSpace).filter (· ≠ "") := by
  unfold splitURLPathSegments
  split_ifs with h
  · rcases h with h | h <;> rw [h] <;> decide
  · rfl

lemma clean_split (rawPath : String) : Clean (splitURLPathSegments rawPath) := by
  intro part hpart
  rw [splitURLPathSegments_eq] at hpart
  obtain ⟨hmem, hne⟩ := List.mem_filter.mp hpart
  obtain ⟨raw, hraw, rfl⟩ := List.mem_map.mp hmem
  refine ⟨trimSpace_trimSpace raw, by simpa using hne, fun hslash => ?_⟩
  exact not_mem_of_mem_split hraw (mem_of_mem_trimSpace hslash)

lemma clean_merged (hbase : Clean base) (hrequest : Clean request) :
    Clean (merged base request) := by
  intro part hpart
  rcases List.mem_append.mp hpart with hpart | hpart
  · exact hbase part hpart
  · exact hrequest part (List.mem_of_mem_drop hpart)

lemma last_of_clean {part : String} (htrim : trimSpace part = part) (hne : part ≠ "") :
    ∃ front c, part.toList = front ++ [c] ∧ isSpace c = false := by
  obtain ⟨front, c, hpart⟩ := (List.eq_nil_or_concat part.toList).resolve_left (by simpa using hne)
  rw [List.concat_eq_append] at hpart
  refine ⟨front, c, hpart, Bool.eq_false_iff.mpr fun hc => ?_⟩
  have hself : part.toList.rdropWhile isSpace = part.toList := by
    rw [← htrim, trimSpace, String.toList_ofList, List.rdropWhile_idempotent]
  rw [hpart, List.rdropWhile_concat_pos _ _ _ hc] at hself
  have hle := (List.rdropWhile_prefix isSpace front).length_le
  rw [hself, List.length_append] at hle
  simp at hle

lemma trimSpace_path (h : Clean base) :
    trimSpace ("/" ++ join '/' base) = "/" ++ join '/' base := by
  have hchars : ("/" ++ join '/' base).toList =
      '/' :: ['/'].intercalate (base.map String.toList) := by
    simp [join]
  have hback : ('/' :: ['/'].intercalate (base.map String.toList)).rdropWhile isSpace =
      '/' :: ['/'].intercalate (base.map String.toList) := by
    rcases List.eq_nil_or_concat base with rfl | ⟨front, part, rfl⟩
    · decide
    obtain ⟨htrim, hne, -⟩ := h part (by simp)
    obtain ⟨letters, c, hpart, hc⟩ := last_of_clean htrim hne
    rw [List.concat_eq_append, List.map_append, List.map_singleton, hpart]
    by_cases hfront : front = []
    · rw [hfront, List.map_nil, List.nil_append, List.intercalate_singleton]
      exact List.rdropWhile_concat_neg isSpace ('/' :: letters) c (by simp [hc])
    · rw [intercalate_append_of_ne_nil _ (by simpa using hfront) (by simp),
        List.intercalate_singleton, ← List.append_assoc, ← List.cons_append]
      exact List.rdropWhile_concat_neg isSpace _ c (by simp [hc])
  have hfront : ('/' :: ['/'].intercalate (base.map String.toList)).dropWhile isSpace =
      '/' :: ['/'].intercalate (base.map String.toList) := by
    rw [List.dropWhile_cons_of_neg (by decide)]
  rw [trimSpace, hchars, hfront, hback, ← hchars, String.ofList_toList]

lemma split_path (h : Clean base) : splitURLPathSegments ("/" ++ join '/' base) = base := by
  rw [splitURLPathSegments_eq, trimSpace_path h]
  cases base with
  | nil => decide
  | cons part rest =>
    have hjoin : "/" ++ join '/' (part :: rest) = join '/' ("" :: part :: rest) := by
      rw [← String.toList_inj]
      simp [join, List.intercalate_cons_cons]
    rw [hjoin, split_join (List.cons_ne_nil _ _), List.map_cons,
      List.filter_cons_of_neg (by decide)]
    · rw [List.map_congr_left fun x hx => (h x hx).1, List.map_id', List.filter_eq_self]
      exact fun x hx => by simp [(h x hx).2.1]
    · exact List.forall_mem_cons.mpr ⟨by simp, fun x hx => (h x hx).2.2⟩

/-- `path` is a shortest list of segments that begins with `base` and ends with `request`. -/
def Shortest (base request path : List String) : Prop :=
  base <+: path ∧ request <:+ path ∧ ∀ l, base <+: l → request <:+ l → path.length ≤ l.length

lemma shortest_merged (base request : List String) : Shortest base request (merged base request) :=
  ⟨List.prefix_append _ _, suffix_merged base request, fun _ => merged_shortest⟩

/-- **The merged path** is a shortest one, and merging again changes nothing. -/
theorem mergeTargetPath_shortest (basePath requestPath : String) :
    Shortest (splitURLPathSegments basePath) (splitURLPathSegments requestPath)
        (splitURLPathSegments (mergeTargetPath basePath requestPath)) ∧
      mergeTargetPath (mergeTargetPath basePath requestPath) requestPath =
        mergeTargetPath basePath requestPath := by
  have hpath : splitURLPathSegments (mergeTargetPath basePath requestPath) =
      merged (splitURLPathSegments basePath) (splitURLPathSegments requestPath) := by
    rw [mergeTargetPath_eq]
    exact split_path (clean_merged (clean_split basePath) (clean_split requestPath))
  have hshortest :=
    shortest_merged (splitURLPathSegments basePath) (splitURLPathSegments requestPath)
  rw [← hpath] at hshortest
  refine ⟨hshortest, ?_⟩
  rw [mergeTargetPath_eq, merged_of_suffix hshortest.2.1, hpath, ← mergeTargetPath_eq]

end

end Tokilake.Worker.TargetPath
