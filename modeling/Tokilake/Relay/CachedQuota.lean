import Tokilake.Relay.Quota

/-! # The cached quota of a user

`PreQuotaConsumption` lowers the cached quota before it knows whether the estimate will be taken,
and only a settlement writes it again.

* `settles_iff`: when the cache ends as the stored quota. -/

namespace Tokilake.Relay.CachedQuota

open Lib.Rounding Relay.Pricing Relay.Quota

variable {cfg : Config} {store store' : Store} {q : Quota} {a a' : Accounts} {n : ℤ}

/-! ### What should hold -/

structure Unchanged (a a' : Accounts) : Prop where
  seen : a'.seenQuota = a.seenQuota
  user : a'.books.userQuota = a.books.userQuota
  token : a'.books.token.remainQuota = a.books.token.remainQuota

/-- A request that is refused or returned changes nothing, another lowers the cache by what it took.
-/
def Settles (cfg : Config) (store store' : Store) (q : Quota) (a : Accounts) : Prop :=
  match preQuotaConsumption cfg store q a with
  | (some _, _, a') => Unchanged a a'
  | (none, q', a') =>
    a.seenQuota - a'.seenQuota = a.books.userQuota - a'.books.userQuota ∧
      Unchanged a (undo store' q' a')

/-! ### Taking the estimate -/

def Short (store : Store) (b : Books) (n : ℤ) : Prop :=
  store .getTokenById ≠ none ∨ (b.token.unlimitedQuota = false ∧ b.token.remainQuota < n) ∨
    store .getUserQuota ≠ none ∨ b.userQuota < n ∨
    (b.token.unlimitedQuota = false ∧ store .changeTokenQuota ≠ none)

instance (store : Store) (b : Books) (n : ℤ) : Decidable (Short store b n) :=
  inferInstanceAs (Decidable (_ ∨ _ ∨ _ ∨ _ ∨ _))

lemma preConsume_cases (store : Store) (a : Accounts) (hn : 0 ≤ n) :
    (Short store a.books n ∧ ∃ e, preConsumeTokenQuota store a n = (.error e, a)) ∨
    (¬ Short store a.books n ∧ store .changeUserQuota ≠ none ∧
      ∃ e, preConsumeTokenQuota store a n = (.error e,
        a.setBooks (if a.books.token.unlimitedQuota then a.books else a.books.addToken (-n)))) ∨
    (¬ Short store a.books n ∧ store .changeUserQuota = none ∧
      preConsumeTokenQuota store a n = (.ok (), a.setBooks (a.books.charge n))) := by
  unfold Short preConsumeTokenQuota
  rw [if_neg (not_lt.mpr hn)]
  cases hget : store .getTokenById with
  | some e => exact .inl ⟨by simp, e, rfl⟩
  | none =>
    by_cases htoken : a.books.token.unlimitedQuota = false ∧ a.books.token.remainQuota < n
    · exact .inl ⟨.inr (.inl htoken), _, if_pos htoken⟩
    rw [if_neg htoken, getUserQuota]
    cases huser : store .getUserQuota with
    | some e => exact .inl ⟨by simp, e, rfl⟩
    | none =>
      dsimp only
      by_cases hlow : a.books.userQuota < n
      · exact .inl ⟨.inr (.inr (.inr (.inl hlow))), _, if_pos hlow⟩
      have hneg : ¬ n < 0 := not_lt.mpr hn
      cases hunlimited : a.books.token.unlimitedQuota with
      | true =>
        cases hcu : store .changeUserQuota <;>
          simp [decreaseUserQuota, change, hneg, hcu, Books.charge, hunlimited, Accounts.setBooks,
            hlow]
      | false =>
        have henough : ¬ a.books.token.remainQuota < n := fun h => htoken ⟨hunlimited, h⟩
        cases hct : store .changeTokenQuota <;> cases hcu : store .changeUserQuota <;>
          simp [decreaseTokenQuota, decreaseUserQuota, change, hneg, hct, hcu, Books.charge,
            hunlimited, Accounts.setBooks, hlow, henough]

/-! ### The cache -/

lemma cacheGet_cases (store : Store) (a : Accounts) :
    (∃ e, cacheGetUserQuota store a = (.error e, a)) ∨
    ∃ a', cacheGetUserQuota store a = (.ok a'.seenQuota, a') ∧ a'.books = a.books ∧
      a'.redisEnabled = a.redisEnabled ∧
      (a.redisEnabled = true → ∃ quota, a'.cachedQuota = some quota) := by
  obtain ⟨r, hr⟩ : ∃ r, cacheGetUserQuota store a = r := ⟨_, rfl⟩
  rw [hr]
  unfold cacheGetUserQuota at hr
  split_ifs at hr with hredis
  · unfold getUserQuota at hr
    split at hr
    · exact .inl ⟨_, hr.symm⟩
    · exact .inr ⟨a, by simp [← hr, Accounts.seenQuota, hredis], rfl, rfl, by simp [hredis]⟩
  · rw [Bool.not_eq_false] at hredis
    split at hr
    · next quota _ hquota =>
      exact .inr ⟨a, by simp [← hr, hquota, Accounts.seenQuota, hredis], rfl, rfl,
        fun _ => ⟨quota, hquota⟩⟩
    unfold getUserQuota at hr
    cases huser : store .getUserQuota <;> cases hset : store .redisSet <;>
      simp only [huser, hset] at hr
    case none.none =>
      exact .inr ⟨a.setCachedQuota a.books.userQuota, by
        simp [← hr, Accounts.seenQuota, hredis], rfl, rfl, fun _ => ⟨_, rfl⟩⟩
    all_goals exact .inl ⟨_, hr.symm⟩

def lowered (a : Accounts) (n : ℤ) : ℤ := if a.redisEnabled then n else 0

lemma cacheDecrease_ok (hcached : a.redisEnabled = true → ∃ quota, a.cachedQuota = some quota)
    (hstore : a.redisEnabled = true → store .redisDecrease = none) (n : ℤ) :
    ∃ a', cacheDecreaseUserQuota store a n = (.ok (), a') ∧ a'.books = a.books ∧
      a'.redisEnabled = a.redisEnabled ∧ a'.seenQuota = a.seenQuota - lowered a n ∧
      (a.redisEnabled = true → ∃ quota, a'.cachedQuota = some quota) := by
  unfold cacheDecreaseUserQuota lowered
  cases hredis : a.redisEnabled with
  | false => exact ⟨a, rfl, rfl, hredis, by simp, nofun⟩
  | true =>
    obtain ⟨quota, hquota⟩ := hcached hredis
    refine ⟨a.setCachedQuota (quota - n), ?_, rfl, hredis, ?_, fun _ => ⟨_, rfl⟩⟩
    · simp [hstore hredis, hquota]
    · simp [hquota, Accounts.seenQuota, hredis]

/-! ### Requests -/

/-- The cached quota was not lowered, or by nothing; or the estimate was returned without a cache.
-/
def Harmless (cfg : Config) (store store' : Store) (q : Quota) (a : Accounts) : Prop :=
  let pre := estimate cfg q
  pre = 0 ∨ match (cacheGetUserQuota store a).1 with
  | .error _ => True
  | .ok seen =>
    if seen < pre ∨ (a.redisEnabled = true ∧ store .redisDecrease ≠ none) then seen = a.seenQuota
    else if 100 * pre < seen ∨ Short store a.books pre then seen - lowered a pre = a.seenQuota
    else if store .changeUserQuota ≠ none then
      a.books.token.unlimitedQuota = true ∧ seen - lowered a pre = a.seenQuota
    else a.redisEnabled = false ∧ store' .changeUserQuota = none ∧
      (a.books.token.unlimitedQuota = false → store' .changeTokenQuota = none)

lemma seen_uncached (hredis : a.redisEnabled = false) : a.seenQuota = a.books.userQuota := by
  simp [Accounts.seenQuota, hredis]

lemma seen_setBooks_cached (hredis : a.redisEnabled = true)
    (hcached : ∃ quota, a.cachedQuota = some quota) (b : Books) :
    (a.setBooks b).seenQuota = a.seenQuota := by
  obtain ⟨quota, hquota⟩ := hcached
  simp [Accounts.seenQuota, Accounts.setBooks, hredis, hquota]

lemma undo_eq (hn : 0 < n) : undo store' (setPreConsumed q n true) a = a.setBooks
    (if store' .changeUserQuota ≠ none then a.books
      else if q.unlimitedQuota = true ∨ store' .changeTokenQuota ≠ none then a.books.addUser n
      else (a.books.addUser n).addToken n) := by
  have hpos : ¬ 0 < -n := by omega
  have hneg : ¬ n < 0 := by omega
  have hne : ¬ -n = 0 := by omega
  have hflag : (setPreConsumed q n true).unlimitedQuota = q.unlimitedQuota := rfl
  unfold undo postConsumeTokenQuotaWithInfo increaseUserQuota increaseTokenQuota change
  simp only [setPreConsumed_handelStatus, setPreConsumed_preConsumedQuota, if_true, if_neg hpos,
    if_neg hne, neg_neg, if_neg hneg, hflag]
  cases hcu : store' .changeUserQuota <;> cases hunlimited : q.unlimitedQuota <;>
    cases hct : store' .changeTokenQuota <;> simp [Accounts.setBooks]

lemma undo_charged (store' : Store) (hn : 0 < n) {b : Books} (hb : a.books = b.charge n)
    (hu : q.unlimitedQuota = b.token.unlimitedQuota) :
    ((undo store' (setPreConsumed q n true) a).books.userQuota = b.userQuota ∧
      (undo store' (setPreConsumed q n true) a).books.token.remainQuota = b.token.remainQuota) ↔
    store' .changeUserQuota = none ∧
      (b.token.unlimitedQuota = false → store' .changeTokenQuota = none) := by
  rw [undo_eq hn, hb, hu, setBooks_books]
  have hn0 : n ≠ 0 := by omega
  cases hcu : store' .changeUserQuota <;> cases hunlimited : b.token.unlimitedQuota <;>
    cases hct : store' .changeTokenQuota <;> simp [Books.charge, hunlimited, hn0]

lemma unchanged_iff_of_books (hb : a'.books = a.books) :
    Unchanged a a' ↔ a'.seenQuota = a.seenQuota :=
  ⟨fun h => h.seen, fun h => ⟨h, by rw [hb], by rw [hb]⟩⟩

/-- An estimate that was taken comes back to the books, and not to the cache. -/
lemma taken_iff (hn : 0 < n) (hu : q.unlimitedQuota = a.books.token.unlimitedQuota)
    (hredis' : a'.redisEnabled = a.redisEnabled)
    (hcached : a.redisEnabled = true → ∃ quota, a'.cachedQuota = some quota) :
    let b := a'.setBooks (a.books.charge n)
    (a.seenQuota - b.seenQuota = a.books.userQuota - b.books.userQuota ∧
      Unchanged a (undo store' (setPreConsumed q n true) b)) ↔
    a.redisEnabled = false ∧ store' .changeUserQuota = none ∧
      (a.books.token.unlimitedQuota = false → store' .changeTokenQuota = none) := by
  dsimp only
  have hcharged : (a'.setBooks (a.books.charge n)).books = a.books.charge n := rfl
  have hback := undo_charged store' hn hcharged hu
  cases hredis : a.redisEnabled with
  | true =>
    -- the cached quota stays lowered
    have hcached := hcached hredis
    rw [hredis] at hredis'
    simp only [Bool.true_eq_false, false_and, iff_false, not_and]
    intro hdrop h
    rw [seen_setBooks_cached hredis' hcached, setBooks_books, charge_userQuota] at hdrop
    have hseen := h.seen
    rw [undo_eq hn] at hseen
    have hkept := seen_setBooks_cached hredis' hcached
    have hkept' := (hkept _).symm.trans hseen
    omega
  | false =>
    rw [hredis] at hredis'
    constructor
    · rintro ⟨-, h⟩
      exact ⟨rfl, hback.mp ⟨h.user, h.token⟩⟩
    · rintro ⟨-, h⟩
      obtain ⟨huser, htoken⟩ := hback.mpr h
      have hredis₃ : (a'.setBooks (a.books.charge n)).redisEnabled = false := hredis'
      refine ⟨by rw [seen_uncached hredis, seen_uncached hredis₃], ⟨?_, huser, htoken⟩⟩
      rw [seen_uncached hredis, ← huser]
      refine seen_uncached ?_
      exact (congrArg Accounts.redisEnabled (undo_eq hn)).trans hredis'

/-- **When nothing is missing.** -/
theorem settles_iff (hq : q.handelStatus = false)
    (hu : q.unlimitedQuota = a.books.token.unlimitedQuota) :
    Settles cfg store store' q a ↔ Harmless cfg store store' q a := by
  unfold Settles Harmless preQuotaConsumption
  generalize estimate cfg q = pre
  have hundo : ∀ n a', undo store' (setPreConsumed q n false) a' = a' := fun _ _ => rfl
  by_cases h0 : pre = 0
  · simp [h0, hq, hundo, unchanged_iff_of_books]
  rw [if_neg h0, or_iff_right h0]
  rcases cacheGet_cases store a with ⟨e, hget⟩ | ⟨a₁, hget, hbooks₁, hredis₁, hcached₁⟩
  · rw [hget]
    exact ⟨fun _ => trivial, fun _ => ⟨rfl, rfl, rfl⟩⟩
  rw [hget]
  dsimp only
  by_cases hlow : a₁.seenQuota < pre
  · rw [if_pos hlow, if_pos (.inl hlow)]
    exact unchanged_iff_of_books hbooks₁
  rw [if_neg hlow]
  by_cases hstop : a.redisEnabled = true ∧ store .redisDecrease ≠ none
  · obtain ⟨hredis, hfails⟩ := hstop
    obtain ⟨e, he⟩ := Option.ne_none_iff_exists'.mp hfails
    have hdec : cacheDecreaseUserQuota store a₁ pre = (.error e, a₁) := by
      simp [cacheDecreaseUserQuota, hredis₁, hredis, he]
    rw [hdec]
    rw [if_pos (Or.inr ⟨hredis, hfails⟩)]
    exact unchanged_iff_of_books hbooks₁
  rw [if_neg (not_or.mpr ⟨hlow, hstop⟩)]
  have hworks : a₁.redisEnabled = true → store .redisDecrease = none :=
    fun h => not_not.mp fun h' => hstop ⟨hredis₁ ▸ h, h'⟩
  obtain ⟨a₂, hdec, hbooks₂, hredis₂, hseen₂, hcached₂⟩ :=
    cacheDecrease_ok (fun h => hcached₁ (hredis₁ ▸ h)) hworks pre
  have hlowered : lowered a₁ pre = lowered a pre := by rw [lowered, hredis₁, lowered]
  rw [hbooks₁] at hbooks₂
  rw [hredis₁] at hredis₂ hcached₂
  rw [hlowered] at hseen₂
  rw [hdec, ← hseen₂]
  dsimp only
  by_cases htrust : 100 * pre < a₁.seenQuota
  · rw [if_pos htrust, if_neg (lt_irrefl 0), if_pos (.inl htrust), setPreConsumed_handelStatus, hq]
    constructor
    · rintro ⟨-, h⟩
      exact h.seen
    · intro h
      exact ⟨by rw [h, hbooks₂, sub_self, sub_self], (unchanged_iff_of_books hbooks₂).mpr h⟩
  -- a negative estimate is below the quota that is seen, so its user is trusted
  have hpos : 0 < pre := by omega
  rw [if_neg htrust, if_pos hpos]
  rcases preConsume_cases store a₂ hpos.le with
    ⟨hshort, e, hpre⟩ | ⟨hshort, hfails, e, hpre⟩ | ⟨hshort, hworks, hpre⟩
  · rw [hbooks₂] at hshort
    rw [hpre, if_pos (.inr hshort)]
    exact unchanged_iff_of_books hbooks₂
  · rw [hbooks₂] at hshort
    rw [hpre, if_neg (not_or.mpr ⟨htrust, hshort⟩), if_pos hfails, hbooks₂]
    -- the token has paid, if it is limited
    cases hunlimited : a.books.token.unlimitedQuota with
    | true =>
      have hsame : a₂.setBooks a.books = a₂ := by rw [← hbooks₂]; rfl
      simpa [hsame] using unchanged_iff_of_books hbooks₂
    | false =>
      simp only [Bool.false_eq_true, if_false, false_and, iff_false]
      intro h
      have htoken := h.token
      simp only [setBooks_books, Books.addToken] at htoken
      omega
  · rw [hbooks₂] at hshort hpre
    rw [hpre, if_neg (not_or.mpr ⟨htrust, hshort⟩), if_neg (not_not.mpr hworks)]
    exact taken_iff hpos hu hredis₂ hcached₂

def rich : Accounts where
  books := ⟨10000000, ⟨10000000, 0, false⟩⟩
  redisEnabled := true
  cachedQuota := some 10000000

def oneCall : Quota where
  modelName := "dall-e"
  promptTokens := 0
  price := { type := .times, input := 2, output := 0 }
  groupRatio := 1
  unlimitedQuota := false

lemma estimate_oneCall : estimate {} oneCall = 2000 := by decide +kernel

/-- The user is trusted and nothing is taken, but the cached quota is lower by 2000. -/
theorem rich_lowered : ∃ q' a', preQuotaConsumption {} Store.ok oneCall rich = (none, q', a') ∧
      a'.books = rich.books ∧ a'.seenQuota = 9998000 ∧
      ¬ Settles {} Store.ok Store.ok oneCall rich := by
  have hpre : preQuotaConsumption {} Store.ok oneCall rich =
      (none, setPreConsumed oneCall 0 false, rich.setCachedQuota 9998000) := by
    rw [preQuotaConsumption, estimate_oneCall]
    rfl
  refine ⟨_, _, hpre, rfl, rfl, fun h => ?_⟩
  rw [Settles, hpre] at h
  exact absurd h.1 (by decide)

theorem settles_oneCall : Settles {} Store.ok Store.ok oneCall rich ↔
    Harmless {} Store.ok Store.ok oneCall rich :=
  settles_iff rfl rfl

end Tokilake.Relay.CachedQuota
