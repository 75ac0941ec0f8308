import Tokilake.Lib.Entries
import Tokilake.Lib.Passes
import Tokilake.Lib.Text

/-! # The payload of a video task

`normalizeVideoTaskPayload` adds common fields in passes.  A payload maps its members to their
values; `strconv.ParseInt` and `fmt.Sprint` are parameters.

* `normalizeVideoTaskPayload_idem`: a second time changes nothing;
* `derived_iff_unhidden`: when the fields are the ones the aliases give. -/

namespace Tokilake.Worker.VideoPayload

open Lib.Passes Lib.Text Function

inductive Value
  | null
  | bool (b : Bool)
  | number (text : String)
  | int64 (n : ℤ)
  | str (s : String)
  | list (items : List Value)
  | map (members : List (String × Value))

abbrev Payload := String → Option Value

def Value.text? : Value → Option String
  | .str s => some s
  | .number text => some text
  | .bool b => some (if b then "true" else "false")
  | _ => none

variable (payload : Payload)

@[simp] def firstPayloadString (keys : List String) : Option String :=
  keys.findSome? fun key => (payload key).bind Value.text?

def firstPayloadNumber (parseInt : String → Option ℤ) (payload : Payload) (keys : List String) :
    Option ℤ :=
  keys.findSome? fun key => (payload key).bind fun
    | .number text => parseInt text
    | .int64 n => some n
    | .str s => parseInt (trimSpace s)
    | _ => none

def normalizeVideoResponseStatus (status : String) : String :=
  let word := toLower (trimSpace status)
  if word = "submitted" then "submitted"
  else if word ∈ ["queued", "pending", "queueing"] then "queued"
  else if word ∈ ["processing", "running", "in_progress"] then "processing"
  else if word ∈ ["completed", "success", "succeeded"] then "completed"
  else if word ∈ ["failed", "failure", "error", "cancelled", "canceled"] then "failed"
  else trimSpace status

structure ResolvedTarget where
  modelName : String
  upstreamModel : String

def firstNonEmptyString (values : List String) : String :=
  ((values.map trimSpace).find? (· ≠ "")).getD ""

def videoUpstreamModel (target : Option ResolvedTarget) : String :=
  (target.map fun t => firstNonEmptyString [t.upstreamModel, t.modelName]).getD ""

@[simp] def nonBlank (text : Option String) : Option String := text.filter (trimSpace · ≠ "")

def urlKeys : List String := ["content_url", "download_url", "url", "video_url"]

def itemURLKeys : List String := ["url", "video_url", "content_url", "download_url"]

def dataItems : List Payload :=
  match payload "data" with
  | some (.list items) => items.filterMap fun
    | .map members => some fun key => members.lookup key
    | _ => none
  | _ => []

def videoPayloadURL : Option String :=
  (nonBlank (firstPayloadString payload urlKeys)).or
    ((dataItems payload).findSome? fun item => nonBlank (firstPayloadString item itemURLKeys))

/-! ### The passes -/

def write (key : String) (value : Option Value) (payload : Payload) : Payload :=
  match value with
  | none => payload
  | some v => update payload key (some v)

@[simp] def ifAbsent (key : String) (value : Option Value) : Option Value :=
  if (payload key).isSome then none else value

def taskID : Option Value :=
  ifAbsent payload "id" <| Option.map .str <|
    (firstPayloadString payload ["task_id", "video_id"]).or <| match payload "data" with
      | some (.map data) =>
        firstPayloadString (fun key => data.lookup key) ["id", "task_id", "video_id"]
      | _ => none

def created (parseInt : String → Option ℤ) (payload : Payload) : Option Value :=
  ifAbsent payload "created" <|
    (firstPayloadNumber parseInt payload ["created_at", "createdAt", "submit_time"]).map .int64

def modelKeys : List String := ["model", "model_name"]

def model (target : Option ResolvedTarget) (payload : Payload) : Option Value :=
  ((nonBlank (firstPayloadString payload modelKeys)).or
    (nonBlank (some (trimSpace (videoUpstreamModel target))))).map .str

def statusKeys : List String := ["status", "task_status", "state"]

def status : Option Value :=
  (firstPayloadString payload statusKeys).map fun s => .str (normalizeVideoResponseStatus s)

def writeURL : Payload :=
  match videoPayloadURL payload with
  | none => payload
  | some url =>
    let payload := write "download_url" (ifAbsent payload "download_url" (some (.str url))) payload
    write "content_url" (ifAbsent payload "content_url" (some (.str url))) payload

def normalizeVideoTaskError : Option Value :=
  ifAbsent payload "error" <| (nonBlank (firstPayloadString payload
      ["error_message", "fail_reason", "failure_reason", "message"])).map fun message =>
        .map [("message", .str message), ("type", .str "upstream_error"),
          ("code", .str "video_failed")]

section

variable (parseInt : String → Option ℤ) (sprint : Option Value → String)
  (target : Option ResolvedTarget)

def taskError (payload : Payload) : Option Value :=
  if normalizeVideoResponseStatus (sprint (payload "status")) = "failed" then
    normalizeVideoTaskError payload
  else none

def normalizeVideoTaskPayload (payload : Payload) : Payload :=
  let payload := write "id" (taskID payload) payload
  let payload := write "object" (ifAbsent payload "object" (some (.str "video"))) payload
  let payload := write "created" (created parseInt payload) payload
  let payload := write "model" (model target payload) payload
  let payload := write "status" (status payload) payload
  let payload := write "prompt" ((firstPayloadString payload ["prompt"]).map .str) payload
  let payload := write "size" ((firstPayloadString payload ["size"]).map .str) payload
  let payload := writeURL payload
  write "error" (taskError sprint payload) payload

end

lemma write_frame {key k : String} (value : Option Value) (payload : Payload) (h : k ≠ key) :
    write key value payload k = payload k := by
  cases value with
  | none => rfl
  | some v => exact update_of_ne h _ _

lemma write_self (key : String) (value : Option Value) (payload : Payload) :
    write key value payload key = value.or (payload key) := by
  cases value with
  | none => rfl
  | some v => exact update_self _ _ _

/-- The pass that writes `value`, which it finds again, or no longer looks for, once it is there. -/
def writePass (key : String) (keys : List String) (value : Payload → Option Value)
    (hagree : ∀ p q : Payload, (∀ k ∈ key :: keys, p k = q k) → value p = value q)
    (hsettled : ∀ p v, value p = some v →
      value (update p key (some v)) = none ∨ value (update p key (some v)) = some v) :
    Pass String (Option Value) where
  run p := write key (value p) p
  reads := key :: keys
  writes := [key]
  reads_writes := by simp
  frame p k hk := write_frame _ _ (by simpa using hk)
  agree p q h k hk := by
    rw [List.mem_singleton.mp hk, write_self, write_self, hagree p q h, h key List.mem_cons_self]
  idem p := by
    cases hv : value p with
    | none =>
      show write key (value p) p = p
      rw [hv]
      rfl
    | some v =>
      show write key (value (update p key (some v))) (update p key (some v)) = _
      rcases hsettled p v hv with h | h
      all_goals rw [h]
      · rfl
      · exact update_idem _ _ _

lemma ifAbsent_update (p : Payload) (key : String) (v : Value) (value : Option Value) :
    ifAbsent (update p key (some v)) key value = none := by
  simp

lemma firstPayloadString_congr {p q : Payload} {keys : List String}
    (h : ∀ k ∈ keys, p k = q k) : firstPayloadString p keys = firstPayloadString q keys := by
  induction keys with
  | nil => rfl
  | cons key keys ih =>
    obtain ⟨hkey, hkeys⟩ := List.forall_mem_cons.mp h
    unfold firstPayloadString at ih ⊢
    rw [List.findSome?_cons, List.findSome?_cons, hkey, ih hkeys]

def taskIDPass : Pass String (Option Value) :=
  writePass "id" ["task_id", "video_id", "data"] taskID
    (fun p q h => by simp [taskID, List.findSome?_cons, h])
    (fun p v _ => .inl (ifAbsent_update p "id" v _))

def objectPass : Pass String (Option Value) :=
  writePass "object" [] (fun p => ifAbsent p "object" (some (.str "video")))
    (fun p q h => by rw [ifAbsent, ifAbsent, h "object" List.mem_cons_self])
    (fun p v _ => .inl (ifAbsent_update p "object" v _))

def createdPass (parseInt : String → Option ℤ) : Pass String (Option Value) :=
  writePass "created" ["created_at", "createdAt", "submit_time"] (created parseInt)
    (fun p q h => by simp [created, firstPayloadNumber, List.findSome?_cons, h])
    (fun p v _ => .inl (ifAbsent_update p "created" v _))

lemma firstPayloadString_cons_str {p : Payload} {key s : String} (h : p key = some (.str s))
    (keys : List String) : firstPayloadString p (key :: keys) = some s := by
  simp [h, Value.text?]

def modelPass (target : Option ResolvedTarget) : Pass String (Option Value) :=
  writePass "model" ["model_name"] (model target)
    (fun p q h => by rw [model, model, modelKeys, firstPayloadString_congr h])
    (fun p v hv => .inr (by
      obtain ⟨s, hs, rfl⟩ := Option.map_eq_some_iff.mp hv
      have hne : trimSpace s ≠ "" := by
        rcases Option.or_eq_some_iff.mp hs with h | ⟨_, h⟩
        all_goals simpa using (Option.filter_eq_some_iff.mp h).2
      rw [model, modelKeys, firstPayloadString_cons_str (update_self _ _ _)]
      simp [hne]))

lemma normalizeVideoResponseStatus_cases (s : String) :
    normalizeVideoResponseStatus s ∈ ["submitted", "queued", "processing", "completed", "failed"] ∨
      normalizeVideoResponseStatus s = trimSpace s := by
  unfold normalizeVideoResponseStatus
  dsimp only
  split_ifs <;> simp

lemma normalizeVideoResponseStatus_idem (s : String) :
    normalizeVideoResponseStatus (normalizeVideoResponseStatus s) =
      normalizeVideoResponseStatus s := by
  have hword : ∀ w ∈ ["submitted", "queued", "processing", "completed", "failed"],
      normalizeVideoResponseStatus w = w := by decide
  rcases normalizeVideoResponseStatus_cases s with h | h
  · exact hword _ h
  · conv_lhs => rw [h]
    simp only [normalizeVideoResponseStatus, trimSpace_trimSpace]

def statusPass : Pass String (Option Value) :=
  writePass "status" ["task_status", "state"] status
    (fun p q h => by rw [status, status, statusKeys, firstPayloadString_congr h])
    (fun p v hv => .inr (by
      obtain ⟨s, _, rfl⟩ := Option.map_eq_some_iff.mp hv
      rw [status, statusKeys, firstPayloadString_cons_str (update_self _ _ _), Option.map_some,
        normalizeVideoResponseStatus_idem]))

/-- The pass that turns a scalar into its text. -/
def textPass (key : String) : Pass String (Option Value) :=
  writePass key [] (fun p => (firstPayloadString p [key]).map .str)
    (fun p q h => by rw [firstPayloadString_congr h])
    (fun p v hv => .inr (by
      obtain ⟨s, _, rfl⟩ := Option.map_eq_some_iff.mp hv
      rw [firstPayloadString_cons_str (update_self _ _ _), Option.map_some]))

lemma writeURL_eq (p : Payload) (k : String) :
    writeURL p k = if k = "download_url" ∨ k = "content_url" then
      (p k).or ((videoPayloadURL p).map .str) else p k := by
  unfold writeURL
  cases videoPayloadURL p with
  | none => simp
  | some url =>
    dsimp only
    by_cases hc : k = "content_url"
    · subst hc
      rw [write_self, ifAbsent, write_frame _ _ (by decide)]
      cases p "content_url" <;> simp
    rw [write_frame _ _ hc]
    by_cases hd : k = "download_url"
    · subst hd
      rw [write_self, ifAbsent]
      cases p "download_url" <;> simp
    · rw [write_frame _ _ hd, if_neg (not_or.mpr ⟨hd, hc⟩)]

def urlPass : Pass String (Option Value) where
  run := writeURL
  reads := "data" :: urlKeys
  writes := ["download_url", "content_url"]
  reads_writes := by decide
  frame p k hk := by rw [writeURL_eq, if_neg (by simpa using hk)]
  agree p q h k hk := by
    have hread : videoPayloadURL p = videoPayloadURL q := by
      rw [videoPayloadURL, videoPayloadURL, dataItems, dataItems, h "data" List.mem_cons_self,
        firstPayloadString_congr fun k hk => h k (List.mem_cons_of_mem _ hk)]
    have hin : k ∈ "data" :: urlKeys := by
      revert k
      decide
    rw [writeURL_eq, writeURL_eq, h k hin, hread]
  idem p := by
    cases hurl : videoPayloadURL p with
    | none =>
      have hp : writeURL p = p := by rw [writeURL, hurl]
      rw [hp, hp]
    | some url =>
      funext k
      rw [writeURL_eq (writeURL p), writeURL_eq p, hurl]
      split_ifs with hk
      · cases p k <;> rfl
      · rfl

def errorPass (sprint : Option Value → String) : Pass String (Option Value) :=
  writePass "error" ["status", "error_message", "fail_reason", "failure_reason", "message"]
    (taskError sprint)
    (fun p q h => by simp [taskError, normalizeVideoTaskError, List.findSome?_cons, h])
    (fun p v _ => .inl (by simp [taskError, normalizeVideoTaskError]))

section

variable (parseInt : String → Option ℤ) (sprint : Option Value → String)
  (target : Option ResolvedTarget)

def passes : List (Pass String (Option Value)) :=
  [taskIDPass, objectPass, createdPass parseInt, modelPass target, statusPass, textPass "prompt",
    textPass "size", urlPass, errorPass sprint]

variable (p : Payload)

lemma normalize_eq : normalizeVideoTaskPayload parseInt sprint target p =
      runAll (passes parseInt sprint target) p := by
  unfold normalizeVideoTaskPayload
  simp only [passes, runAll, taskIDPass, objectPass, createdPass, modelPass, statusPass, textPass,
    urlPass, errorPass, writePass]

lemma passes_pairwise : (passes parseInt sprint target).Pairwise Spares := by
  simp [passes, Spares, taskIDPass, objectPass, createdPass, modelPass, statusPass, textPass,
    urlPass, errorPass, writePass, urlKeys]

def writtenKeys : List String :=
  ["id", "object", "created", "model", "status", "prompt", "size", "download_url", "content_url",
    "error"]

theorem normalizeVideoTaskPayload_idem (payload : Payload) :
    let normalize := normalizeVideoTaskPayload parseInt sprint target
    normalize (normalize payload) = normalize payload ∧
      (∀ k, (payload k).isSome → (normalize payload k).isSome) ∧
      ∀ k ∉ writtenKeys, normalize payload k = payload k := by
  intro normalize
  refine ⟨?_, fun k hk => ?_, fun k hk => ?_⟩
  · simp only [normalize, normalize_eq]
    exact runAll_idem (passes_pairwise parseInt sprint target) payload
  · have hwrite : ∀ {key value} {p : Payload}, (p k).isSome → (write key value p k).isSome := by
      intro key value p hp
      by_cases h : k = key
      · subst h
        rw [write_self]
        cases value <;> simp [hp]
      · rwa [write_frame _ _ h]
    have hURL : ∀ {p : Payload}, (p k).isSome → (writeURL p k).isSome := by
      intro p hp
      rw [writeURL_eq]
      split_ifs <;> simp [hp]
    simp only [normalize, normalizeVideoTaskPayload]
    refine hwrite (hURL ?_)
    iterate 7 refine hwrite ?_
    exact hk
  · simp only [writtenKeys, List.mem_cons, not_or] at hk
    simp [normalize, normalizeVideoTaskPayload, write_frame, writeURL_eq, hk]

/-! ### Alternatives -/

/-- The first alternative that is not blank. -/
def firstNonBlank (keys : List String) : Option String :=
  keys.findSome? fun key => nonBlank ((payload key).bind Value.text?)

def firstURL : Option String :=
  (firstNonBlank payload urlKeys).or
    ((dataItems payload).findSome? fun item => firstNonBlank item itemURLKeys)

def HasString (keys : List String) : Prop :=
  ∃ key ∈ keys, ∃ s, payload key = some (.str s) ∧ trimSpace s ≠ ""

def HasURL : Prop :=
  HasString payload urlKeys ∨ ∃ item ∈ dataItems payload, HasString item itemURLKeys

/-- The common fields of `q` are those of `p` that come first and are not blank. -/
structure Derived (p q : Payload) : Prop where
  status : HasString p statusKeys → ∃ s, firstNonBlank p statusKeys = some s ∧
    q "status" = some (.str (normalizeVideoResponseStatus s))
  model : HasString p modelKeys → ∃ s, firstNonBlank p modelKeys = some s ∧
    q "model" = some (.str s)
  url : HasURL p → ∃ url, firstURL p = some url ∧
    (q "download_url" = some (.str url) ∨ q "content_url" = some (.str url))

/-- No blank url stands before this one: it is the first text of the payload; or that is blank or
absent, and so are those of the entries of `data` before the one whose first text it is. -/
def Shows (p : Payload) (url : String) : Prop :=
  firstPayloadString p urlKeys = some url ∨
    nonBlank (firstPayloadString p urlKeys) = none ∧
      ∃ before item after, dataItems p = before ++ item :: after ∧
        firstPayloadString item itemURLKeys = some url ∧
        ∀ item ∈ before, nonBlank (firstPayloadString item itemURLKeys) = none

/-- No blank status or model hides one that is not blank, and the first url has or finds a place. -/
structure Unhidden (p : Payload) : Prop where
  status : HasString p statusKeys → firstPayloadString p statusKeys = firstNonBlank p statusKeys
  model : HasString p modelKeys → ∃ s, firstNonBlank p modelKeys = some s ∧
    (firstPayloadString p modelKeys = some s ∨
      nonBlank (firstPayloadString p modelKeys) = none ∧ trimSpace (videoUpstreamModel target) = s)
  url : HasURL p → ∃ url, firstURL p = some url ∧
    (p "download_url" = some (.str url) ∨ p "content_url" = some (.str url) ∨
      Shows p url ∧ (p "download_url" = none ∨ p "content_url" = none))

lemma nonBlank_eq_some {text : Option String} {s : String} (hs : trimSpace s ≠ "") :
    nonBlank text = some s ↔ text = some s := by
  simp [Option.filter_eq_some_iff, hs]

lemma videoPayloadURL_eq_some {p : Payload} {url : String} (hurl : trimSpace url ≠ "") :
    videoPayloadURL p = some url ↔ Shows p url := by
  unfold videoPayloadURL Shows
  simp only [Option.or_eq_some_iff, List.findSome?_eq_some_iff, nonBlank_eq_some hurl]

lemma blank_firstURL {p : Payload} {url : String} (h : firstURL p = some url) :
    trimSpace url ≠ "" := by
  have hne : ∀ {q : Payload} {keys : List String}, firstNonBlank q keys = some url →
      trimSpace url ≠ "" := by
    intro q keys hq
    obtain ⟨_, _, hfound⟩ := List.exists_of_findSome?_eq_some hq
    simpa using (Option.filter_eq_some_iff.mp hfound).2
  rcases Option.or_eq_some_iff.mp h with hown | ⟨-, hitem⟩
  · exact hne hown
  · obtain ⟨item, -, hfound⟩ := List.exists_of_findSome?_eq_some hitem
    exact hne hfound

lemma firstNonBlank_of_first {p : Payload} {s : String} (hs : trimSpace s ≠ "") :
    ∀ {keys}, firstPayloadString p keys = some s → firstNonBlank p keys = some s
  | key :: keys, h => by
    rw [firstPayloadString, List.findSome?_cons] at h
    rw [firstNonBlank, List.findSome?_cons]
    cases ht : (p key).bind Value.text? with
    | none =>
      rw [ht] at h
      exact firstNonBlank_of_first hs h
    | some t =>
      rw [ht] at h
      cases h
      rw [nonBlank, Option.filter_some_pos (by simpa using hs)]

lemma first_cases {p : Payload} {keys : List String} (h : HasString p keys) :
    ∃ s t, firstNonBlank p keys = some s ∧ trimSpace s ≠ "" ∧ firstPayloadString p keys = some t ∧
      (t = s ∨ trimSpace t = "") := by
  obtain ⟨key, hkey, text, htext, hne⟩ := h
  have hblank : (firstNonBlank p keys).isSome := by
    rw [firstNonBlank, List.isSome_findSome?, List.any_eq_true]
    exact ⟨key, hkey, by simp [htext, Value.text?, hne]⟩
  have hfirst : (firstPayloadString p keys).isSome := by
    rw [firstPayloadString, List.isSome_findSome?, List.any_eq_true]
    exact ⟨key, hkey, by simp [htext, Value.text?]⟩
  obtain ⟨s, hs⟩ := Option.isSome_iff_exists.mp hblank
  obtain ⟨t, ht⟩ := Option.isSome_iff_exists.mp hfirst
  obtain ⟨_, _, hfound⟩ := List.exists_of_findSome?_eq_some hs
  refine ⟨s, t, hs, by simpa using (Option.filter_eq_some_iff.mp hfound).2, ht, ?_⟩
  by_contra hnot
  obtain ⟨hts, htblank⟩ := not_or.mp hnot
  exact hts (Option.some.inj ((firstNonBlank_of_first htblank ht).symm.trans hs))

lemma normalizeVideoResponseStatus_blank {s : String} :
    normalizeVideoResponseStatus s = "" ↔ trimSpace s = "" := by
  constructor
  · intro h
    rcases normalizeVideoResponseStatus_cases s with hword | htrim
    · rw [h] at hword
      exact absurd hword (by decide)
    · rw [← htrim, h]
  · intro h
    simp only [normalizeVideoResponseStatus, h]
    decide

lemma normalize_status :
    normalizeVideoTaskPayload parseInt sprint target p "status" = (status p).or (p "status") := by
  simp [normalizeVideoTaskPayload, write_frame, write_self, writeURL_eq, status, statusKeys,
    List.findSome?_cons]

lemma normalize_model : normalizeVideoTaskPayload parseInt sprint target p "model" =
      (model target p).or (p "model") := by
  simp [normalizeVideoTaskPayload, write_frame, write_self, writeURL_eq, model, modelKeys,
    List.findSome?_cons]

lemma normalize_url {k : String} (hk : k = "download_url" ∨ k = "content_url") :
    normalizeVideoTaskPayload parseInt sprint target p k =
      (p k).or ((videoPayloadURL p).map .str) := by
  rcases hk with rfl | rfl
  all_goals
    simp [normalizeVideoTaskPayload, write_frame, writeURL_eq, videoPayloadURL, dataItems, urlKeys,
      List.findSome?_cons]

lemma status_derived {p : Payload} (h : HasString p statusKeys) :
    (∃ s, firstNonBlank p statusKeys = some s ∧
      normalizeVideoTaskPayload parseInt sprint target p "status" =
        some (.str (normalizeVideoResponseStatus s))) ↔
      firstPayloadString p statusKeys = firstNonBlank p statusKeys := by
  obtain ⟨s, t, hs, hne, ht, hcases⟩ := first_cases h
  rw [normalize_status, status, hs, ht, Option.map_some, Option.some_or, Option.some_inj]
  constructor
  · rintro ⟨s', hs', hsame⟩
    cases hs'
    refine hcases.resolve_right fun hblank => hne ?_
    rw [normalizeVideoResponseStatus_blank.mpr hblank, Option.some_inj, Value.str.injEq] at hsame
    exact normalizeVideoResponseStatus_blank.mp hsame.symm
  · rintro rfl
    exact ⟨t, rfl, rfl⟩

lemma model_derived {p : Payload} (h : HasString p modelKeys) :
    (∃ s, firstNonBlank p modelKeys = some s ∧
      normalizeVideoTaskPayload parseInt sprint target p "model" = some (.str s)) ↔
      ∃ s, firstNonBlank p modelKeys = some s ∧ (firstPayloadString p modelKeys = some s ∨
        nonBlank (firstPayloadString p modelKeys) = none ∧
          trimSpace (videoUpstreamModel target) = s) := by
  obtain ⟨s, t, hs, hne, ht, hcases⟩ := first_cases h
  refine exists_congr fun s' => and_congr_right fun hs' => ?_
  cases hs.symm.trans hs'
  rw [normalize_model, model, ht]
  by_cases hblank : trimSpace t = ""
  · have hts : t ≠ s := fun hts => hne (hts ▸ hblank)
    have hmodel : p "model" ≠ some (.str s) := fun hp =>
      hts (Option.some.inj (ht.symm.trans (firstPayloadString_cons_str hp _)))
    have hs₀ : s ≠ "" := by
      rintro rfl
      exact hne (by decide)
    by_cases hup : trimSpace (videoUpstreamModel target) = ""
    · simp [hblank, hup, hts, hmodel, hs₀]
    · simp [hblank, hup, hts, hne]
  · simp [hcases.resolve_right hblank, hne]

lemma url_derived {url : String} (hurl : trimSpace url ≠ "") :
    (normalizeVideoTaskPayload parseInt sprint target p "download_url" = some (.str url) ∨
      normalizeVideoTaskPayload parseInt sprint target p "content_url" = some (.str url)) ↔
      p "download_url" = some (.str url) ∨ p "content_url" = some (.str url) ∨
        Shows p url ∧ (p "download_url" = none ∨ p "content_url" = none) := by
  rw [normalize_url _ _ _ _ (.inl rfl), normalize_url _ _ _ _ (.inr rfl),
    ← videoPayloadURL_eq_some hurl]
  cases p "download_url" <;> cases p "content_url" <;> cases videoPayloadURL p <;> simp [or_comm]

theorem derived_iff_unhidden (payload : Payload) :
    Derived payload (normalizeVideoTaskPayload parseInt sprint target payload) ↔
      Unhidden target payload := by
  constructor
  · intro h
    refine ⟨fun hp => (status_derived parseInt sprint target hp).mp (h.status hp),
      fun hp => (model_derived parseInt sprint target hp).mp (h.model hp), fun hp => ?_⟩
    obtain ⟨url, hurl, hkept⟩ := h.url hp
    exact ⟨url, hurl, (url_derived parseInt sprint target payload (blank_firstURL hurl)).mp hkept⟩
  · intro h
    refine ⟨fun hp => (status_derived parseInt sprint target hp).mpr (h.status hp),
      fun hp => (model_derived parseInt sprint target hp).mpr (h.model hp), fun hp => ?_⟩
    obtain ⟨url, hurl, hkept⟩ := h.url hp
    exact ⟨url, hurl, (url_derived parseInt sprint target payload (blank_firstURL hurl)).mpr hkept⟩

end

/-- A blank status hides the one that follows. -/
theorem blank_status_hides : let payload : Payload := fun key =>
      [("status", Value.str ""), ("task_status", .str "completed")].lookup key
    normalizeVideoTaskPayload (fun _ => none) (fun _ => "") none payload "status" = some (.str "") ∧
      ¬Derived payload (normalizeVideoTaskPayload (fun _ => none) (fun _ => "") none payload) := by
  intro payload
  have hstatus : normalizeVideoTaskPayload (fun _ => none) (fun _ => "") none payload "status" =
      some (.str "") := by
    rw [normalize_status]
    rfl
  refine ⟨hstatus, fun h => ?_⟩
  obtain ⟨s, hs, hkept⟩ := h.status ⟨"task_status", by decide, "completed", rfl, by decide⟩
  have hfirst : firstNonBlank payload statusKeys = some "completed" := rfl
  cases hfirst.symm.trans hs
  have hcompleted : normalizeVideoResponseStatus "completed" = "completed" := by decide
  simp [hstatus, hcompleted] at hkept

end Tokilake.Worker.VideoPayload
