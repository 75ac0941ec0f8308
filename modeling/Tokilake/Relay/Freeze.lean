import Tokilake.Relay.Retry
import Tokilake.Routing.Balance

/-! # Freezing a channel that was rate limited

A channel that answers 429 is frozen under the name the provider was called with; `Next` looks under
the requested name.

* `avoided_iff`: when the retries avoid it. -/

namespace Tokilake.Relay.Freeze

open Lib Routing Routing.Cooldowns List
open Relay.Provider Relay.Retry

/-- From now on no call of `Next` for the model returns the channel before `ending`. -/
def Avoided (s : State) (ending channelId : ℤ) (modelName : String) : Prop :=
  ∀ (calls : List (ℤ × Call)) (t : State), Run.run step s calls = some t →
  ∀ (set : ChannelRows) (changes : List (ℤ × Bool)) (order : List String) (draw : ℕ) (q : Query),
    order.Perm (loaded set changes).newMatch →
    q.modelName = modelName → q.cooldowns = t.store → t.clock ≤ q.now → q.now < ending →
    ∀ ch, (loaded set changes).next order draw q = .channel ch → ch.id ≠ channelId

variable {s : State} {ending channelId : ℤ} {modelName : String}

lemma avoided_of_cooling (h : ∀ later, s.clock ≤ later → later < ending →
      isInCooldown s.store later channelId modelName = true) :
    Avoided s ending channelId modelName := by
  intro calls t hrun set changes order draw q horder hmodel hstore hclock hbefore ch hnext hid
  have hmono :=
    Run.run_invariant' (fun hle hstep => Int.le_trans hle (clock_step hstep)) (Int.le_refl _) hrun
  have hcooling := h q.now (by omega) hbefore
  obtain ⟨-, -, helig, -⟩ := best_of_next (consistent_loaded set changes) horder hnext
  have hawake := helig.awake
  rw [hid, hmodel, hstore] at hawake
  unfold isInCooldown at hcooling hawake
  cases hentry : s.store (key channelId modelName) with
  | none =>
    rw [hentry] at hcooling
    cases hcooling
  | some last =>
    simp only [hentry, decide_eq_true_eq] at hcooling
    rw [cooling_run hentry hrun (by omega)] at hawake
    simp at hawake
    omega

/-! ### A channel that is awake -/

def everything (channelId : ℤ) : Channel where
  id := channelId
  group := "default"
  models := "*"

def onlyEverything (channelId : ℤ) : ChannelRows := ⟨[everything channelId], by simp⟩

@[simp] lemma names_default : names "default" = ["default"] := by decide

@[simp] lemma names_star : names "*" = ["*"] := by decide

lemma offers_everything {group model : String} :
    (everything channelId).Offers group model ↔ group = "default" ∧ model = "*" := by
  rw [Channel.Offers, everything, names_default, names_star, mem_singleton, mem_singleton]

lemma has_everything {ch : Channel} :
    (loaded (onlyEverything channelId) []).Has ch ↔ ch = everything channelId := by
  have hweight : (everything channelId).withWeight = everything channelId := by
    have hone : (everything channelId).weight ≠ 0 := show (1 : UInt64) ≠ 0 by decide
    rw [Channel.withWeight, if_neg hone]
  rw [show loaded (onlyEverything channelId) [] = load (onlyEverything channelId) from rfl,
    ChannelsChooser.Has, getChannel_load]
  simp only [onlyEverything, mem_singleton, exists_eq_left, hweight]
  constructor
  · rintro ⟨-, h⟩
    exact h.symm
  · rintro rfl
    exact ⟨rfl, rfl⟩

lemma ids_everything :
    (loaded (onlyEverything channelId) []).ids "default" "*" 0 = [channelId] := by
  have htimes : (everything channelId).times "default" "*" = 1 := by
    simp [Channel.times, everything]
  rw [show loaded (onlyEverything channelId)
    [] = load (onlyEverything channelId) from rfl, ids_load]
  simp [onlyEverything, htimes, show (everything channelId).priority = 0 from rfl,
    show (everything channelId).id = channelId from rfl]

lemma entry_everything {group model : String}
    (h : HasEntry (loaded (onlyEverything channelId) []) group model) : model = "*" := by
  obtain ⟨ch, hch, hoffers⟩ := h
  rw [has_everything.mp hch] at hoffers
  exact (offers_everything.mp hoffers).2

lemma entryUsed_everything {q : Query}
    (hserved : Served (loaded (onlyEverything channelId) []) q) :
    entryUsed (loaded (onlyEverything channelId) [])
      (loaded (onlyEverything channelId) []).newMatch q = "*" := by
  have hconsistent := consistent_loaded (onlyEverything channelId) []
  have hcand := candidate_of_served hconsistent (List.Perm.refl _) hserved
  by_cases hexact : HasEntry (loaded (onlyEverything channelId) []) q.group q.modelName
  · rw [hcand.1 hexact]
    exact entry_everything hexact
  · obtain ⟨-, ch, group, hch, hoffers⟩ := (hconsistent.pattern _).mp (hcand.2 hexact).1
    exact entry_everything ⟨ch, hch, hoffers⟩

lemma drawable_everything {q : Query} (hgroup : q.group = "default")
    (hne : front (loaded (onlyEverything channelId) []) q "*" ≠ []) :
    Drawable (front (loaded (onlyEverything channelId) []) q "*") := by
  have hconsistent := consistent_loaded (onlyEverything channelId) []
  obtain ⟨choice, hchoice⟩ := exists_mem_of_ne_nil _ hne
  have hchannel := has_everything.mp (front_spec hconsistent hchoice).2.1.has
  have hids : (loaded (onlyEverything channelId) []).ids q.group "*" choice.channel.priority =
      [channelId] := by
    rw [hchannel, hgroup]
    exact ids_everything
  have hlength : (front (loaded (onlyEverything channelId) []) q "*").length ≤ 1 := by
    rw [(front_spec hconsistent hchoice).1, hids]
    exact length_filterMap_le _ _
  have hpos := length_pos_iff.mpr hne
  exact .inl (by omega)

lemma next_everything (store : Store) (now channelId : ℤ) (modelName : String)
    (hawake : isInCooldown store now channelId modelName = false) :
    ∃ ch, (loaded (onlyEverything channelId) []).next
        (loaded (onlyEverything channelId) []).newMatch 0
        ⟨"default", modelName, [], store, now⟩ = .channel ch ∧ ch.id = channelId := by
  set cc := loaded (onlyEverything channelId) [] with hcc
  set q : Query := ⟨"default", modelName, [], store, now⟩ with hq
  have hconsistent : Consistent cc := consistent_loaded _ _
  have hhas : cc.Has (everything channelId) := has_everything.mpr rfl
  have hoffers : (everything channelId).Offers q.group "*" := offers_everything.mpr ⟨rfl, rfl⟩
  have helig : Eligible cc q (everything channelId) := by
    obtain ⟨choice, hlook, hchannel⟩ := Option.map_eq_some_iff.mp hhas
    have hdisable := lookup_load hlook
    refine ⟨?_, hawake, by simp [hq]⟩
    rw [hlook, ← hdisable, ← hchannel]
  have hserved : Served cc q := by
    refine ⟨"*", everything channelId, ⟨fun h => (entry_everything h).symm, fun _ => ?_⟩,
      hoffers, helig⟩
    exact ⟨by decide, by simp [matchesPattern, rdropWhile]⟩
  have hne := front_ne_nil hconsistent helig hoffers
  have havailable : Available cc q (entryUsed cc cc.newMatch q) := by
    rw [entryUsed_everything hserved]
    exact ⟨hne, drawable_everything rfl hne⟩
  obtain ⟨ch, hnext⟩ := exists_next_iff.mpr havailable
  obtain ⟨-, -, hch, -⟩ := best_of_next hconsistent (List.Perm.refl _) hnext
  exact ⟨ch, hnext, by rw [has_everything.mp hch.has]; rfl⟩

/-! ### The name of the freeze -/

lemma key_ne {name : String} (h : name ≠ modelName) :
    key channelId modelName ≠ key channelId name := by
  intro heq
  exact h (String.append_right_inj _ |>.mp heq).symm

lemma isInCooldown_freeze {store : Store} {now later retry : ℤ} {name : String}
    (h : name ≠ modelName) :
    isInCooldown (setCooldowns store now channelId name retry).2 later channelId modelName =
      isInCooldown store later channelId modelName := by
  have hsame : (setCooldowns store now channelId name retry).2 (key channelId modelName) =
      store (key channelId modelName) := by
    unfold setCooldowns loadOrStore
    split_ifs
    · rfl
    · rfl
    · rfl
    · exact Function.update_of_ne (key_ne h) _ _
  rw [isInCooldown, isInCooldown, hsame]

lemma isInCooldown_of_freeze {store : Store} {now later retry : ℤ} {name : String}
    (h : isInCooldown store later channelId modelName = true) :
    isInCooldown (setCooldowns store now channelId name retry).2 later channelId modelName =
      true := by
  unfold isInCooldown at h ⊢
  cases hentry : store (key channelId modelName) with
  | none =>
    rw [hentry] at h
    cases h
  | some last =>
    rw [setCooldowns_some hentry]
    rwa [hentry] at h

lemma frozen_eq {w : World} {c c' : Context} {s : Selected} {apiErr : OpenAIError}
    {frozen : ℤ × String} (hselect : getProvider w c modelName = (.ok s, c'))
    (hfreeze : (shouldCooldowns c' s.channel apiErr).2 = some frozen) :
    ∃ mapped, modelMappingHandler w (w.columns s.channel.id).modelMapping modelName = .ok mapped ∧
      frozen = (s.channel.id, (stripPlus mapped).1) := by
  obtain ⟨mapped, hmapped, hcolumns, hname, hnew⟩ := getProvider_ok hselect
  rw [hcolumns] at hmapped
  refine ⟨mapped, hmapped, ?_⟩
  simp only [shouldCooldowns] at hfreeze
  split_ifs at hfreeze
  rw [Option.some.injEq] at hfreeze
  rw [← hfreeze, hnew, hname]

/-- **Which freezes are heeded**: the mapping keeps the name, or the channel is cooling anyway. -/
theorem avoided_iff (w : World) (c c' : Context) (requested : String) (s : Selected)
    (apiErr : OpenAIError) (store : Store) (now retry : ℤ) (frozen : ℤ × String)
    (hselect : getProvider w c requested = (.ok s, c'))
    (hfreeze : (shouldCooldowns c' s.channel apiErr).2 = some frozen)
    (hnone : store (key frozen.1 frozen.2) = none)
    (htrue : (setCooldowns store now frozen.1 frozen.2 retry).1 = true) :
    Avoided ⟨(setCooldowns store now frozen.1 frozen.2 retry).2, now⟩ (int64 (now + retry))
      s.channel.id requested ↔
    (∃ mapped, modelMappingHandler w (w.columns s.channel.id).modelMapping requested = .ok mapped ∧
      (stripPlus mapped).1 = requested) ∨ ∀ later, now ≤ later → later < int64 (now + retry) →
      isInCooldown store later s.channel.id requested = true := by
  obtain ⟨mapped, hmapped, rfl⟩ := frozen_eq hselect hfreeze
  have hon : ¬ (s.channel.id = 0 ∨ (stripPlus mapped).1 = "" ∨ retry = 0) := by
    intro hoff
    rw [setCooldowns, if_pos hoff] at htrue
    cases htrue
  constructor
  · intro havoided
    by_cases hkeeps : (stripPlus mapped).1 = requested
    · exact .inl ⟨mapped, hmapped, hkeeps⟩
    refine .inr fun later hnow hbefore => ?_
    -- otherwise the channel, given a pattern for all models, would be returned
    by_contra hawake
    rw [Bool.not_eq_true, ← isInCooldown_freeze hkeeps] at hawake
    obtain ⟨ch, hnext, hid⟩ := next_everything _ later _ requested hawake
    exact havoided [] _ rfl _ [] _ 0 _ (List.Perm.refl _) rfl rfl hnow hbefore ch hnext hid
  · rintro (⟨mapped', hmapped', hkeeps⟩ | hcooling)
    · rw [hmapped, Except.ok.injEq] at hmapped'
      subst hmapped'
      rw [hkeeps] at hnone hon ⊢
      refine avoided_of_cooling fun later _ hbefore => ?_
      dsimp only
      rw [isInCooldown, setCooldowns_none hnone hon]
      simpa using hbefore
    · exact avoided_of_cooling fun later hnow hbefore =>
        isInCooldown_of_freeze (hcooling later hnow hbefore)

/-- A channel without a mapping stays away until the end of its freeze. -/
theorem avoided_iff_unmapped :
    Avoided ⟨(setCooldowns (fun _ => none) 100 1 "gpt-4" 5).2, 100⟩ (int64 (100 + 5)) 1 "gpt-4" :=
  (avoided_iff (twoGroups fun _ => none) bothGroups
    { bothGroups with channelId := 1, originalModel := "gpt-4", newModel := "gpt-4" } "gpt-4"
    ⟨.primary, ⟨1, "cheap", "gpt-4", 1, 0⟩, {}, "gpt-4"⟩ { statusCode := 429 } (fun _ => none) 100 5
    (1, "gpt-4") (by decide +kernel) rfl rfl (by decide +kernel)).mpr
    (.inl ⟨"gpt-4", rfl, by decide⟩)

def withMapping (cooldowns : Store) : World :=
  { twoGroups cooldowns with
    columns := fun _ => { modelMapping := "\x7b\"gpt-4\":\"gpt-4-turbo\"\x7d" }
    unmarshal := fun _ => .ok fun name => if name = "gpt-4" then "gpt-4-turbo" else "" }

/-- A channel with a mapping is frozen, and one second later `Next` returns it. -/
theorem mapped_name :
    ∃ s c' frozen, getProvider (withMapping fun _ => none) bothGroups "gpt-4" = (.ok s, c') ∧
      (shouldCooldowns c' s.channel { statusCode := 429 }).2 = some frozen ∧
      (setCooldowns (fun _ => none) 100 frozen.1 frozen.2 5).1 = true ∧
      ¬ Avoided ⟨(setCooldowns (fun _ => none) 100 frozen.1 frozen.2 5).2, 100⟩ (int64 (100 + 5))
        s.channel.id "gpt-4" := by
  refine ⟨⟨.primary, ⟨1, "cheap", "gpt-4", 1, 0⟩,
      (withMapping fun _ => none).columns 1, "gpt-4-turbo"⟩,
    { bothGroups with channelId := 1, originalModel := "gpt-4", newModel := "gpt-4-turbo" },
    (1, "gpt-4-turbo"), by decide +kernel, rfl, by decide +kernel, fun havoided => ?_⟩
  exact havoided [] _ rfl (twoGroups fun _ => none).set [] [] 0
    ⟨"cheap", "gpt-4", [], (setCooldowns (fun _ => none) 100 1 "gpt-4-turbo" 5).2, 101⟩
    (by decide) rfl rfl (by decide) (by decide) ⟨1, "cheap", "gpt-4", 1, 0⟩
    (by decide) rfl

end Tokilake.Relay.Freeze
