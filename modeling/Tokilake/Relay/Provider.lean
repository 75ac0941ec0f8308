import Mathlib.Data.Rat.Defs
import Tokilake.Routing.Next

/-! # Choosing the provider of a request

`GetProvider` looks for a channel and leaves what it found in the context.

* `provided`, `not_skipped`: the context it leaves, and that a skipped channel is not taken. -/

namespace Tokilake.Relay.Provider

open Routing
open Routing.Cooldowns (Store)

structure Columns where
  type : ℤ := 1
  onlyChat : Bool := false
  disabledStream : List String := []
  modelMapping : String := ""
  supported : Bool := true
  deriving DecidableEq

def Columns.allowStream (columns : Columns) (modelName : String) : Bool :=
  !columns.disabledStream.contains modelName

/-- What a selection finds outside the request, and `json.Unmarshal` into a map. -/
structure World where
  set : ChannelRows
  changes : List (ℤ × Bool) := []
  order : List String
  ordered : order.Perm (loaded set changes).newMatch
  draw : ℕ := 0
  cooldowns : Store := fun _ => none
  now : ℤ := 0
  columns : ℤ → Columns := fun _ => {}
  channelById : ℤ → Option (Channel × Bool) := fun _ => none
  ratio : String → Option ℚ := fun _ => none
  unmarshal : String → Except String (String → String) := fun _ => .error "invalid character"

structure Context where
  tokenGroup : String
  tokenBackupGroup : String := ""
  limitModels : Option (List String) := none
  specificChannelId : ℤ := 0
  specificChannelIdIgnore : Bool := false
  skipOnlyChat : Bool := false
  skipChannelIds : Option (List ℤ) := none
  allowChannelType : Option (List ℤ) := none
  isStream : Bool := false
  isBackupGroup : Bool := false
  groupRatio : ℚ
  channelId : ℤ := 0
  originalModel : String := ""
  newModel : String := ""
  billingOriginalModel : Bool := false
  deriving DecidableEq

def Context.specific (c : Context) : Prop :=
  0 < c.specificChannelId ∧ c.specificChannelIdIgnore = false

instance (c : Context) : Decidable c.specific := inferInstanceAs (Decidable (_ ∧ _))

inductive Failure
  | error (text : String)
  | panic
  deriving DecidableEq

inductive Origin
  | byId
  | primary
  | backup
  deriving DecidableEq

/-! ### The groups of a request -/

def determineEffectiveGroup (tokenGroup backupGroup userGroup : String) : String :=
  if tokenGroup ≠ "" then tokenGroup
  else if backupGroup ≠ "" then backupGroup
  else userGroup

def setupGroups (ratio : String → Option ℚ) (active : String → Except String Bool)
    (userGroup : String) (c : Context) : Except String Context :=
  let group := determineEffectiveGroup c.tokenGroup c.tokenBackupGroup userGroup
  let c := { c with tokenGroup := group }
  if group = "" then .error "分组不存在"
  else match ratio group with
    | some ratio => .ok { c with groupRatio := ratio }
    | none => match active group with
      | .error e => .error e
      | .ok false => .error s!"分组 {group} 不存在"
      | .ok true => .ok { c with groupRatio := 1 }

/-! ### The channel -/

def checkLimitModel (c : Context) (modelName : String) : Option String :=
  match c.limitModels with
  | none => none
  | some models =>
    if models.length = 0 then some "No available models configured for current token"
    else if modelName ∈ models then none
    else some s!"Model {modelName} is not supported for current token"

def fetchChannelById (w : World) (channelId : ℤ) : Except Failure Channel :=
  match w.channelById channelId with
  | none => .error (.error "无效的渠道 Id")
  | some (_, false) => .error (.error "该渠道已被禁用")
  | some (ch, true) => .ok ch

section
variable (w : World)

def filterOnlyChat : ChannelsFilterFunc := fun _ choice => (w.columns choice.channel.id).onlyChat

def filterChannelTypes (channelTypes : List ℤ) : ChannelsFilterFunc := fun _ choice =>
  !channelTypes.contains (w.columns choice.channel.id).type

def filterDisabledStream (modelName : String) : ChannelsFilterFunc := fun _ choice =>
  !(w.columns choice.channel.id).allowStream modelName

variable (c : Context)

def filters (modelName : String) : List ChannelsFilterFunc :=
  (if c.skipOnlyChat then [filterOnlyChat w] else []) ++
  (c.skipChannelIds.map filterChannelId).toList ++
  (c.allowChannelType.map (filterChannelTypes w)).toList ++
  (if c.isStream then [filterDisabledStream w modelName] else [])

def query (group modelName : String) : Query where
  group
  modelName
  filters := filters w c modelName
  cooldowns := w.cooldowns
  now := w.now

def next (group modelName : String) : Result :=
  (loaded w.set w.changes).next w.order w.draw (query w c group modelName)

def createGroupError (group modelName : String) : Failure :=
  .error s!"当前分组 {group} 下对于模型 {modelName} 无可用渠道"

def tryBackup (modelName : String) : Except Failure (Origin × Channel) × Context :=
  let group := c.tokenBackupGroup
  if group ≠ "" ∧ group ≠ c.tokenGroup then
    match next w c group modelName with
    | .channel ch =>
      -- the flag is set even if the ratio is not found
      let c := { c with isBackupGroup := true }
      match w.ratio group with
      | none => (.error (.error s!"设置备用分组倍率失败: 分组 {group} 不存在"), c)
      | some ratio => (.ok (.backup, ch), { c with groupRatio := ratio })
    | .error _ => (.error (createGroupError group modelName), c)
    | .panic => (.error .panic, c)
  else (.error (createGroupError c.tokenGroup modelName), c)

def tryWithGroups (modelName : String) : Except Failure (Origin × Channel) × Context :=
  if c.tokenGroup ≠ "" then
    match next w c c.tokenGroup modelName with
    -- nothing is written to the context on this branch
    | .channel ch => (.ok (.primary, ch), c)
    | .error _ => tryBackup w c modelName
    | .panic => (.error .panic, c)
  else tryBackup w c modelName

def fetchChannel (modelName : String) : Except Failure (Origin × Channel) × Context :=
  if c.specific then ((fetchChannelById w c.specificChannelId).map (Origin.byId, ·), c)
  else tryWithGroups w c modelName

/-! ### The provider -/

def modelMappingHandler (modelMapping modelName : String) : Except String String :=
  if modelMapping = "" ∨ modelMapping = "\x7b\x7d" then .ok modelName
  else match w.unmarshal modelMapping with
    | .error e => .error e
    | .ok modelMap => .ok (if modelMap modelName ≠ "" then modelMap modelName else modelName)

def stripPlus (modelName : String) : String × Bool :=
  match modelName.toList with
  | '+' :: rest => (String.ofList rest, true)
  | _ => (modelName, false)

structure Selected where
  origin : Origin
  channel : Channel
  columns : Columns
  modelName : String
  deriving DecidableEq

def provide (origin : Origin) (ch : Channel) (modelName : String) (c : Context) :
    Except Failure Selected × Context :=
  let columns := w.columns ch.id
  let c := { c with channelId := ch.id }
  if columns.supported = false then (.error (.error "channel not found"), c)
  else
    let c := { c with originalModel := modelName }
    match modelMappingHandler w columns.modelMapping modelName with
    | .error e => (.error (.error e), c)
    | .ok mapped =>
      let name := stripPlus mapped
      (.ok ⟨origin, ch, columns, name.1⟩,
        { c with newModel := name.1, billingOriginalModel := name.2 })

def getProvider (modelName : String) : Except Failure Selected × Context :=
  match if modelName = "" then none else checkLimitModel c modelName with
  | some e => (.error (.error e), c)
  | none =>
    match fetchChannel w c modelName with
    | (.error e, c) => (.error e, c)
    | (.ok (origin, ch), c) => provide w origin ch modelName c

end

/-! ### What a selection leaves behind -/

variable {w : World} {c c' : Context} {modelName : String} {ch : Channel}

structure FallsBack (w : World) (c : Context) (modelName : String) : Prop where
  byModel : ¬ c.specific
  fails : c.tokenGroup ≠ "" → ∃ text, next w c c.tokenGroup modelName = .error text
  other : c.tokenBackupGroup ≠ "" ∧ c.tokenBackupGroup ≠ c.tokenGroup
  serves : ∃ ch, next w c c.tokenBackupGroup modelName = .channel ch

inductive Fetched (w : World) (c : Context) (modelName : String) :
    Except Failure (Origin × Channel) → Context → Prop
  | byId {ch : Channel} : c.specific → Fetched w c modelName (.ok (.byId, ch)) c
  | primary {ch : Channel} : ¬ FallsBack w c modelName →
      next w c c.tokenGroup modelName = .channel ch → Fetched w c modelName (.ok (.primary, ch)) c
  | backup {ch : Channel} {ratio : ℚ} : FallsBack w c modelName →
      next w c c.tokenBackupGroup modelName = .channel ch →
      w.ratio c.tokenBackupGroup = some ratio →
      Fetched w c modelName (.ok (.backup, ch))
        { c with isBackupGroup := true, groupRatio := ratio }
  | noRatio {e : Failure} : FallsBack w c modelName →
      Fetched w c modelName (.error e) { c with isBackupGroup := true }
  | failed {e : Failure} : ¬ FallsBack w c modelName → Fetched w c modelName (.error e) c

lemma fetched_tryBackup (hspecific : ¬ c.specific)
    (hfails : c.tokenGroup ≠ "" → ∃ text, next w c c.tokenGroup modelName = .error text) :
    Fetched w c modelName (tryBackup w c modelName).1 (tryBackup w c modelName).2 := by
  unfold tryBackup
  by_cases hother : c.tokenBackupGroup ≠ "" ∧ c.tokenBackupGroup ≠ c.tokenGroup
  · rw [if_pos hother]
    cases hnext : next w c c.tokenBackupGroup modelName with
    | channel ch =>
      have hfalls : FallsBack w c modelName := ⟨hspecific, hfails, hother, ch, hnext⟩
      cases hratio : w.ratio c.tokenBackupGroup with
      | none => exact .noRatio hfalls
      | some ratio => exact .backup hfalls hnext hratio
    | error text | panic =>
      refine .failed fun hfalls => ?_
      obtain ⟨ch, hch⟩ := hfalls.serves
      rw [hnext] at hch
      cases hch
  · rw [if_neg hother]
    exact .failed fun hfalls => hother hfalls.other

lemma fetched (w : World) (c : Context) (modelName : String) :
    Fetched w c modelName (fetchChannel w c modelName).1 (fetchChannel w c modelName).2 := by
  unfold fetchChannel
  split_ifs with hspecific
  · cases hfetch : fetchChannelById w c.specificChannelId with
    | error e => exact .failed fun hfalls => hfalls.byModel hspecific
    | ok ch => exact .byId hspecific
  rw [tryWithGroups]
  split_ifs with hgroup
  · have hnot : (∀ text, next w c c.tokenGroup modelName ≠ .error text) →
        ¬ FallsBack w c modelName := by
      intro hne hfalls
      obtain ⟨text, htext⟩ := hfalls.fails hgroup
      exact hne text htext
    cases hnext : next w c c.tokenGroup modelName with
    | channel ch => exact .primary (hnot (by simp [hnext])) hnext
    | error text => exact fetched_tryBackup hspecific fun _ => ⟨text, hnext⟩
    | panic => exact .failed (hnot (by simp [hnext]))
  · exact fetched_tryBackup hspecific fun h => absurd h hgroup

lemma next_not_skipped {group : String} {ids : List ℤ} (hskip : c.skipChannelIds = some ids)
    (h : next w c group modelName = .channel ch) : ch.id ∉ ids := by
  obtain ⟨-, -, helig, -⟩ := best_of_next (consistent_loaded w.set w.changes) w.ordered h
  have hkept := helig.kept (filterChannelId ids) (by simp [query, filters, hskip])
  simpa [filterChannelId] using hkept

def SelectsBackup (w : World) (c : Context) (modelName : String) : Prop :=
  (modelName = "" ∨ checkLimitModel c modelName = none) ∧ FallsBack w c modelName

/-- The context before and after a selection, apart from the names the selection writes. -/
structure Frame (c c' : Context) : Prop where
  tokenGroup : c'.tokenGroup = c.tokenGroup
  tokenBackupGroup : c'.tokenBackupGroup = c.tokenBackupGroup
  specificChannelId : c'.specificChannelId = c.specificChannelId
  specificChannelIdIgnore : c'.specificChannelIdIgnore = c.specificChannelIdIgnore
  skipChannelIds : c'.skipChannelIds = c.skipChannelIds

lemma Frame.specific (h : Frame c c') : c'.specific ↔ c.specific := by
  rw [Context.specific, Context.specific, h.specificChannelId, h.specificChannelIdIgnore]

inductive Provided (w : World) (c : Context) (modelName : String) :
    Except Failure Selected → Context → Prop
  | own {s : Selected} {c' : Context} : Frame c c' → s.origin = .byId ∧ c.specific ∨
        s.origin = .primary ∧ next w c c.tokenGroup modelName = .channel s.channel →
      ¬ SelectsBackup w c modelName →
      c'.isBackupGroup = c.isBackupGroup → c'.groupRatio = c.groupRatio →
      Provided w c modelName (.ok s) c'
  | backup {s : Selected} {c' : Context} : Frame c c' → s.origin = .backup →
      next w c c.tokenBackupGroup modelName = .channel s.channel →
      SelectsBackup w c modelName → c'.isBackupGroup = true →
      w.ratio c.tokenBackupGroup = some c'.groupRatio → Provided w c modelName (.ok s) c'
  | fell {e : Failure} {c' : Context} : Frame c c' → SelectsBackup w c modelName →
      c'.isBackupGroup = true → Provided w c modelName (.error e) c'
  | failed {e : Failure} {c' : Context} : Frame c c' → ¬ SelectsBackup w c modelName →
      c'.isBackupGroup = c.isBackupGroup → c'.groupRatio = c.groupRatio →
      Provided w c modelName (.error e) c'

lemma Provided.frame {result : Except Failure Selected} (h : Provided w c modelName result c') :
    Frame c c' := by
  cases h with
  | own hframe | backup hframe | fell hframe | failed hframe => exact hframe

lemma Provided.group {result : Except Failure Selected} (h : Provided w c modelName result c') :
    SelectsBackup w c modelName ∧ c'.isBackupGroup = true ∨
      ¬ SelectsBackup w c modelName ∧ c'.isBackupGroup = c.isBackupGroup ∧
        c'.groupRatio = c.groupRatio := by
  cases h with
  | own _ _ hselects hflag hratio | failed _ hselects hflag hratio =>
    exact .inr ⟨hselects, hflag, hratio⟩
  | backup _ _ _ hselects hflag | fell _ hselects hflag => exact .inl ⟨hselects, hflag⟩

lemma provide_cases (w : World) (origin : Origin) (ch : Channel) (modelName : String)
    (c : Context) : Frame c (provide w origin ch modelName c).2 ∧
    (provide w origin ch modelName c).2.isBackupGroup = c.isBackupGroup ∧
    (provide w origin ch modelName c).2.groupRatio = c.groupRatio ∧
    ((∃ e, (provide w origin ch modelName c).1 = .error e) ∨
      ∃ mapped, modelMappingHandler w (w.columns ch.id).modelMapping modelName = .ok mapped ∧
        (provide w origin ch modelName c).1 =
          .ok ⟨origin, ch, w.columns ch.id, (stripPlus mapped).1⟩ ∧
        (provide w origin ch modelName c).2.newModel = (stripPlus mapped).1) := by
  unfold provide
  by_cases hsupported : (w.columns ch.id).supported = false
  · rw [if_pos hsupported]
    exact ⟨⟨rfl, rfl, rfl, rfl, rfl⟩, rfl, rfl, .inl ⟨_, rfl⟩⟩
  rw [if_neg hsupported]
  cases hmap : modelMappingHandler w (w.columns ch.id).modelMapping modelName with
  | error e => exact ⟨⟨rfl, rfl, rfl, rfl, rfl⟩, rfl, rfl, .inl ⟨_, rfl⟩⟩
  | ok mapped => exact ⟨⟨rfl, rfl, rfl, rfl, rfl⟩, rfl, rfl, .inr ⟨mapped, rfl, rfl, rfl⟩⟩

lemma getProvider_ok {s : Selected} (h : getProvider w c modelName = (.ok s, c')) :
    ∃ mapped, modelMappingHandler w s.columns.modelMapping modelName = .ok mapped ∧
      s.columns = w.columns s.channel.id ∧ s.modelName = (stripPlus mapped).1 ∧
      c'.newModel = s.modelName := by
  unfold getProvider at h
  cases hlimit : (if modelName = "" then none else checkLimitModel c modelName) with
  | some e =>
    rw [hlimit] at h
    cases h
  | none =>
    rw [hlimit] at h
    rcases hfetch : fetchChannel w c modelName with ⟨e | ⟨origin, ch⟩, c₁⟩
    · rw [hfetch] at h
      cases h
    rw [hfetch] at h
    obtain ⟨-, -, -, ⟨e, herror⟩ | ⟨mapped, hmap, hok, hname⟩⟩ :=
      provide_cases w origin ch modelName c₁
    · rw [show provide w origin ch modelName c₁ = (.ok s, c') from h] at herror
      cases herror
    · rw [show provide w origin ch modelName c₁ = (.ok s, c') from h] at hok hname
      cases hok
      exact ⟨mapped, hmap, rfl, rfl, hname⟩

lemma provided (w : World) (c : Context) (modelName : String) :
    Provided w c modelName (getProvider w c modelName).1 (getProvider w c modelName).2 := by
  unfold getProvider
  cases hlimit : (if modelName = "" then none else checkLimitModel c modelName) with
  | some e =>
    refine .failed ⟨rfl, rfl, rfl, rfl, rfl⟩ (fun hselects => ?_) rfl rfl
    rcases hselects.1 with hempty | hnone
    · rw [if_pos hempty] at hlimit
      cases hlimit
    · rw [hnone, ite_self] at hlimit
      cases hlimit
  | none =>
    have hpass : modelName = "" ∨ checkLimitModel c modelName = none := by
      by_cases hempty : modelName = ""
      · exact .inl hempty
      · rw [if_neg hempty] at hlimit
        exact .inr hlimit
    have hfetched := fetched w c modelName
    rcases hfetch : fetchChannel w c modelName with ⟨e | ⟨origin, ch⟩, c₁⟩
    · rw [hfetch] at hfetched
      cases hfetched with
      | noRatio hfalls => exact .fell ⟨rfl, rfl, rfl, rfl, rfl⟩ ⟨hpass, hfalls⟩ rfl
      | failed hfalls => exact .failed ⟨rfl, rfl, rfl, rfl, rfl⟩ (fun h => hfalls h.2) rfl rfl
    · rw [hfetch] at hfetched
      obtain ⟨hframe, hflag, hratio, hresult⟩ := provide_cases w origin ch modelName c₁
      dsimp only
      generalize provide w origin ch modelName c₁ = r at hframe hflag hratio hresult ⊢
      obtain ⟨result, c'⟩ := r
      cases hfetched with
      | byId hspecific =>
        have hnot : ¬ SelectsBackup w c₁ modelName := fun h => h.2.byModel hspecific
        rcases hresult with ⟨e, rfl⟩ | ⟨mapped, -, rfl, -⟩
        · exact .failed hframe hnot hflag hratio
        · exact .own hframe (.inl ⟨rfl, hspecific⟩) hnot hflag hratio
      | primary hfalls hnext =>
        have hnot : ¬ SelectsBackup w c₁ modelName := fun h => hfalls h.2
        rcases hresult with ⟨e, rfl⟩ | ⟨mapped, -, rfl, -⟩
        · exact .failed hframe hnot hflag hratio
        · exact .own hframe (.inr ⟨rfl, hnext⟩) hnot hflag hratio
      | backup hfalls hnext hfound =>
        have hframe' : Frame c c' :=
          ⟨hframe.tokenGroup, hframe.tokenBackupGroup, hframe.specificChannelId,
            hframe.specificChannelIdIgnore, hframe.skipChannelIds⟩
        rcases hresult with ⟨e, rfl⟩ | ⟨mapped, -, rfl, -⟩
        · exact .fell hframe' ⟨hpass, hfalls⟩ hflag
        · exact .backup hframe' rfl hnext ⟨hpass, hfalls⟩ hflag (by rw [hfound, hratio])

lemma not_skipped {s : Selected} {ids : List ℤ} (hspecific : ¬ c.specific)
    (hskip : c.skipChannelIds = some ids) (h : getProvider w c modelName = (.ok s, c')) :
    s.channel.id ∉ ids := by
  have hprovided := provided w c modelName
  rw [h] at hprovided
  cases hprovided with
  | own _ horigin =>
    rcases horigin with ⟨-, hspec⟩ | ⟨-, hnext⟩
    · exact absurd hspec hspecific
    · exact next_not_skipped hskip hnext
  | backup _ _ hnext => exact next_not_skipped hskip hnext

end Tokilake.Relay.Provider
