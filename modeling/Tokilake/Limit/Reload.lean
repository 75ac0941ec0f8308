import Tokilake.Lib.Run
import Tokilake.Limit.Parity

/-! # Reloading the user groups

`UserGroupRatio.Load` makes a new limiter for each group, which knows nothing about the keys.  The
state also has the limiters as they would be without any `Load`.

* `unaffected_iff`: when a `Load` changes no verdict. -/

namespace Tokilake.Limit.Reload

open Lib.Run Lib.TokenBucket Limit.Api Limit.Parity List Function
open Limit.Memory hiding Store

structure UserGroup where
  symbol : String
  apiRate : ℕ
  deriving DecidableEq

abbrev Groups := String → Option (Limiter × Store)

def find (userGroups : List UserGroup) (symbol : String) : Option UserGroup :=
  userGroups.reverse.find? fun userGroup => userGroup.symbol = symbol

def load (userGroups : List UserGroup) : Groups := fun symbol =>
  (find userGroups symbol).map fun userGroup => (newAPILimiter false userGroup.apiRate, {})

inductive Event
  | request (wait : ℚ≥0) (symbol key : String)
  | cleanup (wait : ℚ≥0) (symbol : String)
  | load (wait : ℚ≥0) (userGroups : Option (List UserGroup))

structure State where
  clock : ℚ := 0
  groups : Groups
  unloaded : Groups

def onGroup (symbol : String) (f : Limiter → Store → Store) (groups : Groups) : Groups :=
  update groups symbol ((groups symbol).map fun p => (p.1, f p.1 p.2))

/-- The groups before, and one of them with its rate. -/
structure Setup where
  userGroups : List UserGroup
  symbol : String
  rpm : ℕ
  valid : (find userGroups symbol).map UserGroup.apiRate = some rpm

def Setup.init (u : Setup) : State := { groups := load u.userGroups, unloaded := load u.userGroups }

def step (u : Setup) (s : State) : Event → Option State
  | .request wait symbol key =>
    let now := s.clock + wait
    let serve := onGroup symbol fun L store => (allow L key now store).2
    some ⟨now, serve s.groups, serve s.unloaded⟩
  | .cleanup wait symbol =>
    let now := s.clock + wait
    let clean := onGroup symbol fun L => cleanup L now
    some ⟨now, clean s.groups, clean s.unloaded⟩
  | .load wait none => some { s with clock := s.clock + wait }
  | .load wait (some userGroups) =>
    if (find userGroups u.symbol).map UserGroup.apiRate = some u.rpm then
      some { s with clock := s.clock + wait, groups := load userGroups }
    else none

def storeOf (groups : Groups) (symbol : String) : Store := ((groups symbol).map Prod.snd).getD {}

def SameFrom (rpm : ℕ) (key : String) (t : ℚ) (a b : Store) : Prop :=
  ∀ es, Timed t es → outcomes (newAPILimiter false rpm) key a es =
    outcomes (newAPILimiter false rpm) key b es

def Unaffected (u : Setup) (key : String) (s : State) : Prop :=
  SameFrom u.rpm key s.clock (storeOf s.groups u.symbol) (storeOf s.unloaded u.symbol)

def AtRest (rpm : ℕ) (key : String) (t : ℚ) (store : Store) : Prop :=
  if rpm < 60 then ∀ data ∈ store.memory.windows key, window ≤ t - data.windowStart
  else tokensOf (memoryLimiter rpm) t (store.memory.tokens key) = (memoryLimiter rpm).burst

def Harmless (u : Setup) (key : String) (s : State) : Event → Prop
  | .request _ _ _ | .cleanup _ _ | .load _ none => True
  | .load wait (some userGroups) => (find userGroups u.symbol).map UserGroup.apiRate = some u.rpm →
      AtRest u.rpm key (s.clock + wait) (storeOf s.groups u.symbol)

/-! ### Windows -/

section
variable {rpm n c : ℕ} {key : String} {t : ℚ} {a b store : Store}

structure Valid (rpm : ℕ) (key : String) (t : ℚ) (store : Store) : Prop where
  count : ∀ data ∈ store.memory.windows key, 1 ≤ data.count
  sane : ∀ data ∈ store.memory.tokens key, Memory.Sane (memoryLimiter rpm) t data

def WindowsAlike (key : String) (t : ℚ) (a b : Store) : Prop :=
  a.memory.windows key = b.memory.windows key ∨
    (∀ data ∈ a.memory.windows key, window ≤ t - data.windowStart) ∧
      ∀ data ∈ b.memory.windows key, window ≤ t - data.windowStart

lemma sameFrom_of_over (hlow : rpm < 60) (h : WindowsAlike key t a b) : SameFrom rpm key t a b := by
  intro es htimed
  rw [newAPILimiter_window hlow]
  refine outcomes_congr (R := WindowsAlike key) (fun {t t' a b} h hle => ?_) (fun {t a b} h => ?_)
    (fun {key' t a b} hkey h => ?_) (fun {t a b} h => ?_) htimed h
  · refine h.imp id (And.imp (fun hall data hdata => ?_) fun hall data hdata => ?_) <;>
      exact (hall data hdata).trans (sub_le_sub_right hle _)
  · have hsame : allowFixedWindow (newMemoryLimiter rpm rpm window false) t 1
      (a.memory.windows key) =
        allowFixedWindow (newMemoryLimiter rpm rpm window false) t 1 (b.memory.windows key) := by
      rcases h with heq | ⟨ha, hb⟩
      · rw [heq]
      · rw [allowFixedWindow_of_over ha, allowFixedWindow_of_over hb]
    simp [allow, allowN, WindowsAlike] at hsame ⊢
    simp [hsame]
  · simpa [allow, allowN, WindowsAlike, update_of_ne hkey.symm] using h
  · rcases h with heq | ⟨ha, hb⟩
    · exact Or.inl (congrArg (keep _ t WindowData.lastUpdated) heq)
    · exact Or.inr ⟨fun data hdata => ha data (mem_keep hdata),
        fun data hdata => hb data (mem_keep hdata)⟩

def burstOf (key : String) (t : ℚ) (n : ℕ) : List Api.Event := (replicate n t).map (.request key)

lemma timed_burst (key : String) (t : ℚ) (n : ℕ) : Timed t (burstOf key t n) :=
  timed_requests.mpr (pairwise_replicate_of_refl (n := n + 1))

lemma outcomes_burst (L : Limiter) : outcomes L key store (burstOf key t (n + 1)) =
      (t, (allow L key t store).1) :: outcomes L key (allow L key t store).2 (burstOf key t n) := by
  simp [burstOf, replicate_succ, outcomes]

lemma allow_window (hlow : rpm < 60) (key : String) (t : ℚ) (store : Store) :
    allow (newAPILimiter false rpm) key t store =
      let r := allowFixedWindow (newMemoryLimiter rpm rpm window false) t 1
          (store.memory.windows key)
      (r.1, { store with memory :=
        { store.memory with windows := update store.memory.windows key r.2 } }) := by
  rw [newAPILimiter_window hlow]
  simp [allow, allowN]

lemma admitted_window (hlow : rpm < 60) {data : WindowData}
    (hdata : store.memory.windows key = some data)
    (hlive : t - data.windowStart < window) :
    admitted (fun _ => true) (outcomes (newAPILimiter false rpm) key store (burstOf key t n)) =
      min n (rpm - data.count) := by
  induction n generalizing store data with
  | zero => simp [burstOf, outcomes, admitted]
  | succ n ih =>
    have hallow : allowFixedWindow (newMemoryLimiter rpm rpm window false) t 1 (some data) =
        if data.count + 1 ≤ rpm then
          (true, some { data with count := data.count + 1, lastUpdated := t })
        else (false, some data) := if_neg (not_le.mpr hlive)
    rw [outcomes_burst, admitted_cons, allow_window hlow, hdata, hallow]
    by_cases hroom : data.count + 1 ≤ rpm
    · simp only [if_pos hroom]
      rw [ih (update_self _ _ _) (by exact hlive)]
      simp only [Bool.and_self, Bool.toNat_true]
      omega
    · simp only [if_neg hroom]
      rw [ih (update_self _ _ _) hlive]
      simp only [Bool.false_and, Bool.toNat_false]
      omega

lemma over_of_sameFrom (hlow : rpm < 60) (hv : Valid rpm key t store)
    (h : SameFrom rpm key t {} store) :
    ∀ data ∈ store.memory.windows key, window ≤ t - data.windowStart := by
  intro data hdata
  by_contra hlive
  have hsame := congrArg (admitted fun _ => true) (h _ (timed_burst key t (max rpm 1)))
  have hcount := hv.count data hdata
  -- a new window admits all of them, the one of the key one less at least
  obtain ⟨n, hn⟩ : ∃ n, max rpm 1 = n + 1 := ⟨max rpm 1 - 1, by omega⟩
  rw [admitted_window hlow hdata (not_le.mp hlive), hn, outcomes_burst, admitted_cons,
    allow_window hlow, allowFixedWindow_of_over (fun data hdata => by cases hdata)] at hsame
  rw [admitted_window hlow (update_self _ _ _) (by norm_num [window])] at hsame
  simp only [Bool.and_self, Bool.toNat_true] at hsame
  omega

/-! ### Buckets -/

lemma sim_self {l : MemoryLimiter} {entry : Option TokenData}
    (h : ∀ data ∈ entry, Memory.Sane l t data) :
    Memory.Sim l t entry ⟨tokensOf l t entry, t⟩ := by
  refine ⟨h, fun t' ht => ?_⟩
  cases entry with
  | none => exact (Memory.sim_none l t).same t' ht
  | some data => exact tokensAt_later (B := Memory.bucket l) (Nat.cast_nonneg _) ht

lemma tokensOf_le (l : MemoryLimiter) (t : ℚ) (entry : Option TokenData) :
    tokensOf l t entry ≤ l.burst := by
  cases entry with
  | none => exact le_rfl
  | some data => exact tokensAt_le _ _

lemma tokensOf_nonneg {l : MemoryLimiter} {entry : Option TokenData}
    (h : ∀ data ∈ entry, Memory.Sane l t data) : 0 ≤ tokensOf l t entry := by
  cases entry with
  | none => exact Nat.cast_nonneg _
  | some data =>
    have hsane := h data rfl
    refine le_trans (le_min (Nat.cast_nonneg _) ?_) (hsane.le_tokensAt hsane.le_now)
    exact mul_nonneg (Nat.cast_nonneg _) (sub_nonneg.mpr (hsane.updated_le.trans hsane.le_now))

lemma outcomes_valid (hrpm : 60 ≤ rpm) (hv : Valid rpm key t store) {es : List Api.Event}
    (htimed : Timed t es) :
    outcomes (newAPILimiter false rpm) key store es = (Memory.bucket (memoryLimiter rpm)).serve id
      ⟨tokensOf (memoryLimiter rpm) t (store.memory.tokens key), t⟩ (times key es) := by
  rw [newAPILimiter_memory hrpm]
  exact outcomes_memory (by omega) htimed (sim_self hv.sane)

lemma valid_empty (rpm : ℕ) (key : String) (t : ℚ) : Valid rpm key t {} :=
  ⟨fun data hdata => (by cases hdata), fun data hdata => (by cases hdata)⟩

lemma sameFrom_empty_iff (hrpm : 60 ≤ rpm) (hv : Valid rpm key t store) :
    SameFrom rpm key t {} store ↔
      tokensOf (memoryLimiter rpm) t (store.memory.tokens key) = (memoryLimiter rpm).burst := by
  constructor
  · intro h
    refine le_antisymm (tokensOf_le _ _ _) ?_
    have htimed := timed_burst key t (memoryLimiter rpm).burst
    have htimes : times key (burstOf key t (memoryLimiter rpm).burst) = _ := times_requests _ _
    -- a full bucket admits them all
    have hall : ∀ p ∈ outcomes (newAPILimiter false rpm) key {}
        (burstOf key t (memoryLimiter rpm).burst),
        p.2 = true := by
      have hroom : ((memoryLimiter rpm).burst : ℚ) ≤ (Memory.bucket (memoryLimiter rpm)).tokensAt
          ⟨(memoryLimiter rpm).burst, t⟩ t :=
        (tokensAt_self (B := Memory.bucket (memoryLimiter rpm)) le_rfl).ge
      rw [outcomes_valid hrpm (valid_empty rpm key t) htimed, htimes]
      exact (serve_replicate id hroom).1
    rw [h _ htimed, outcomes_valid hrpm hv htimed, htimes] at hall
    have hcount := admitted_of_all hall
      fun x hx => decide_eq_true (eq_of_mem_replicate hx).le
    rw [length_replicate] at hcount
    rw [← hcount]
    refine (admitted_le (b := t) (Nat.cast_nonneg _) (fun x hx => of_decide_eq_true hx)
      pairwise_replicate_of_refl (fun x hx => (eq_of_mem_replicate hx).ge)
      (tokensOf_nonneg hv.sane) (Nat.cast_nonneg _) le_rfl).trans ?_
    rw [sub_self, mul_zero, add_zero]
  · intro hfull es htimed
    rw [outcomes_valid hrpm (valid_empty rpm key t) htimed, outcomes_valid hrpm hv htimed, hfull]
    rfl

lemma sameFrom_iff_atRest (hv : Valid rpm key t store) :
    SameFrom rpm key t {} store ↔ AtRest rpm key t store := by
  unfold AtRest
  split_ifs with hlow
  · refine ⟨over_of_sameFrom hlow hv, fun hover => sameFrom_of_over hlow (Or.inr ⟨?_, hover⟩)⟩
    exact fun data hdata => by cases hdata
  · exact sameFrom_empty_iff (not_lt.mp hlow) hv

/-! ### What the limiter keeps -/

lemma Valid.mono {t' : ℚ} (hv : Valid rpm key t store) (hle : t ≤ t') : Valid rpm key t' store :=
  ⟨hv.count, fun data hdata => ((sim_self hv.sane).mono hle).sane data hdata⟩

lemma count_allowFixedWindow {l : MemoryLimiter} {entry : Option WindowData}
    (h : ∀ data ∈ entry, 1 ≤ data.count) : ∀ data ∈ (allowFixedWindow l t 1 entry).2,
      1 ≤ data.count := by
  cases entry with
  | none => simp [allowFixedWindow]
  | some data =>
    rw [allowFixedWindow]
    split_ifs
    · simp
    · simp
    · exact h

lemma valid_allow (hv : Valid rpm key t store) (key' : String) :
    Valid rpm key t (allow (newAPILimiter false rpm) key' t store).2 := by
  by_cases hlow : rpm < 60
  · rw [allow_window hlow]
    refine ⟨?_, hv.sane⟩
    dsimp only
    by_cases hkey : key = key'
    · subst hkey
      rw [update_self]
      exact count_allowFixedWindow hv.count
    · rw [update_of_ne hkey]
      exact hv.count
  · rw [newAPILimiter_memory (not_lt.mp hlow)]
    refine ⟨by simpa [allow, allowN] using hv.count, ?_⟩
    by_cases hkey : key = key'
    · subst hkey
      have hburst : 1 ≤ (memoryLimiter rpm).burst := by
        show 1 ≤ rpm / 60 * 10
        omega
      have := (Memory.sim_allow hburst (sim_self hv.sane)).2.sane
      simpa [allow, allowN] using this
    · simpa [allow, allowN, update_of_ne hkey] using hv.sane

lemma valid_cleanup (hv : Valid rpm key t store) :
    Valid rpm key t (cleanup (newAPILimiter false rpm) t store) := by
  by_cases hlow : rpm < 60
  · rw [newAPILimiter_window hlow]
    exact ⟨fun data hdata => hv.count data (mem_keep hdata), hv.sane⟩
  · rw [newAPILimiter_memory (not_lt.mp hlow)]
    exact ⟨hv.count, fun data hdata => hv.sane data (mem_keep hdata)⟩

lemma SameFrom.mono {t' : ℚ} (h : SameFrom rpm key t a b) (hle : t ≤ t') :
    SameFrom rpm key t' a b :=
  fun es htimed => h es (timed_mono htimed hle)

lemma sameFrom_allow (h : SameFrom rpm key t a b) (key' : String) :
    SameFrom rpm key t (allow (newAPILimiter false rpm) key' t a).2
      (allow (newAPILimiter false rpm) key' t b).2 := by
  intro es htimed
  have hnext := h (.request key' t :: es) (timed_cons.mpr ⟨le_rfl, htimed⟩)
  rw [outcomes, outcomes] at hnext
  split_ifs at hnext
  · exact (cons.inj hnext).2
  · exact hnext

lemma sameFrom_cleanup (h : SameFrom rpm key t a b) :
    SameFrom rpm key t (cleanup (newAPILimiter false rpm) t a)
      (cleanup (newAPILimiter false rpm) t b) :=
  fun es htimed => h (.cleanup t :: es) (timed_cons.mpr ⟨le_rfl, htimed⟩)

end

/-! ### Runs -/

section
variable {u : Setup} {key symbol symbol' : String} {s s' : State} {e : Event}
    {groups : Groups} {L : Limiter}
  {store : Store}

lemma storeOf_eq (h : groups symbol = some (L, store)) : storeOf groups symbol = store := by
  rw [storeOf, h]
  rfl

lemma onGroup_eq (symbol' : String) (f : Limiter → Store → Store)
    (h : groups symbol = some (L, store)) :
    onGroup symbol' f groups symbol = some (L, if symbol' = symbol then f L store else store) := by
  unfold onGroup
  split_ifs with hsymbol
  · subst hsymbol
    rw [update_self, h]
    rfl
  · rw [update_of_ne (Ne.symm hsymbol), h]

lemma load_eq {userGroups : List UserGroup} {rpm : ℕ}
    (h : (find userGroups symbol).map UserGroup.apiRate = some rpm) :
    load userGroups symbol = some (newAPILimiter false rpm, {}) := by
  obtain ⟨userGroup, hfind, rfl⟩ := Option.map_eq_some_iff.mp h
  rw [load, hfind]
  rfl

def Sound (u : Setup) (key : String) (s : State) : Prop :=
  ∃ a b, s.groups u.symbol = some (newAPILimiter false u.rpm, a) ∧
    s.unloaded u.symbol = some (newAPILimiter false u.rpm, b) ∧ Valid u.rpm key s.clock a

/-- What the limiter does with a request or a cleanup keeps all this. -/
lemma onGroup_spec (f : Limiter → Store → Store) {now : ℚ} (symbol : String) (hs : Sound u key s)
    (hle : s.clock ≤ now)
    (hvalid : ∀ {a}, Valid u.rpm key now a → Valid u.rpm key now (f (newAPILimiter false u.rpm) a))
    (hsame : ∀ {a b}, SameFrom u.rpm key now a b →
      SameFrom u.rpm key now (f (newAPILimiter false u.rpm) a) (f (newAPILimiter false u.rpm) b)) :
    Sound u key ⟨now, onGroup symbol f s.groups, onGroup symbol f s.unloaded⟩ ∧
      (Unaffected u key s →
      Unaffected u key ⟨now, onGroup symbol f s.groups, onGroup symbol f s.unloaded⟩) := by
  obtain ⟨a, b, ha, hb, hv⟩ := hs
  have hgroups := onGroup_eq symbol f ha
  have hunloaded := onGroup_eq symbol f hb
  refine ⟨⟨_, _, hgroups, hunloaded, ?_⟩, ?_⟩
  · split_ifs
    · exact hvalid (hv.mono hle)
    · exact hv.mono hle
  · rw [Unaffected, Unaffected, storeOf_eq ha, storeOf_eq hb, storeOf_eq hgroups,
      storeOf_eq hunloaded]
    intro hu
    split_ifs
    · exact hsame (hu.mono hle)
    · exact hu.mono hle

/-- **One event** keeps the verdicts without `Load` exactly if it is harmless. -/
theorem step_spec (hs : Sound u key s) (h : step u s e = some s') :
    Sound u key s' ∧ (Unaffected u key s → (Unaffected u key s' ↔ Harmless u key s e)) := by
  have hlater : ∀ wait : ℚ≥0, s.clock ≤ s.clock + wait := fun wait => le_add_of_nonneg_right wait.2
  cases e with
  | request wait symbol key' =>
    cases h
    obtain ⟨hsound, hkept⟩ :=
      onGroup_spec (fun L store => (allow L key' (s.clock + wait) store).2) symbol hs
      (hlater wait) (fun hv => valid_allow hv key') fun h => sameFrom_allow h key'
    exact ⟨hsound, fun hu => iff_of_true (hkept hu) trivial⟩
  | cleanup wait symbol =>
    cases h
    obtain ⟨hsound, hkept⟩ :=
      onGroup_spec (fun L store => cleanup L (s.clock + wait) store) symbol hs
      (hlater wait) valid_cleanup sameFrom_cleanup
    exact ⟨hsound, fun hu => iff_of_true (hkept hu) trivial⟩
  | load wait userGroups =>
    obtain ⟨a, b, ha, hb, hv⟩ := hs
    cases userGroups with
    | none =>
      cases h
      exact ⟨⟨a, b, ha, hb, hv.mono (hlater wait)⟩,
        fun hu => iff_of_true (hu.mono (hlater wait)) trivial⟩
    | some userGroups =>
      rw [step] at h
      split_ifs at h with hrate
      cases h
      have hload := load_eq hrate
      refine ⟨⟨{}, b, hload, hb, valid_empty _ _ _⟩, fun hu => ?_⟩
      rw [Unaffected, storeOf_eq ha, storeOf_eq hb] at hu
      have hsame := hu.mono (hlater wait)
      rw [Harmless, forall_prop_of_true hrate, storeOf_eq ha,
        ← sameFrom_iff_atRest (hv.mono (hlater wait)), Unaffected, storeOf_eq hload, storeOf_eq hb]
      constructor
      · exact fun hnew es htimed => (hnew es htimed).trans (hsame es htimed).symm
      · exact fun hnew es htimed => (hnew es htimed).trans (hsame es htimed)

end

/-- **Reloading changes no verdict** exactly if every `Load` finds the window over or the bucket
full. -/
theorem unaffected_iff (u : Setup) (key : String) (es : List Event) :
    Stays (step u) (Unaffected u key) u.init es ↔ Along (step u) (Harmless u key) u.init es := by
  refine stays_iff_along_of_invariant (J := Sound u key) (fun {s e} h => ?_)
    (fun hs h => (step_spec hs h).1) (fun hs hu h => (step_spec hs h).2 hu) ?_ fun es _ => rfl
  · cases e with
    | request wait symbol key' | cleanup wait symbol => cases h
    | load wait userGroups =>
      cases userGroups with
      | none => cases h
      | some userGroups =>
        rw [step] at h
        split_ifs at h with hrate
        exact fun hrate' => absurd hrate' hrate
  · exact ⟨{}, {}, load_eq u.valid, load_eq u.valid, valid_empty _ _ _⟩

/-- The second request in a minute is rejected, unless the groups are reloaded in between. -/
theorem reload_forgets : let u : Setup := ⟨[⟨"vip", 1⟩], "vip", 1, rfl⟩
    let next (s : State) : Bool × Bool :=
      let verdict (groups : Groups) : Bool :=
        (allow (newAPILimiter false 1) "k" s.clock (storeOf groups "vip")).1
      (verdict s.groups, verdict s.unloaded)
    (run (step u) u.init [.request 0 "vip" "k"]).map next = some (false, false) ∧
      (run (step u) u.init [.request 0 "vip" "k", .load 0 (some [⟨"vip", 1⟩])]).map next =
        some (true, false) := by
  decide +kernel

end Tokilake.Limit.Reload
