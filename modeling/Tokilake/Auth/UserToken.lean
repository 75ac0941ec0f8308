import Tokilake.Lib.Base64
import Tokilake.Lib.Sqids

/-! # User tokens

A key is a short id of the token and its user, an underscore and a signature.  The short ids are
those of a library (`sqids-go`), of which only the claimed laws are used (`Hashids.Lawful`); the
signature is any function with 32 bytes.  `Lib.Sqids` is the instance of the examples.

* `validateToken_plain`, `validateToken_cut`: a key is read back exactly if its short id has no
  underscore, at which `ValidateToken` cuts;
* `accepted_iff`: the keys that are accepted;
* `rejected_keys`: one that is too long, and one that is cut at the wrong place. -/

namespace Tokilake.Auth.UserToken

open Lib List

/-! ### Configuration -/

/-- The length of a Go string, in bytes. -/
def len (text : List Char) : ℕ := (text.map Char.utf8Size).foldr (· + ·) 0

def hashidsMinLength : ℕ := 15

def defaultAlphabet : List Char :=
  "abcdefghijklmnopqrstuvwxyzABCDEFGHIJKLMNOPQRSTUVWXYZ0123456789".toList

/-- The alphabets that `sqids.New` accepts. -/
def Valid (alphabet : List Char) : Prop :=
  (∀ c ∈ alphabet, c.toNat < 128) ∧ 3 ≤ alphabet.length ∧ alphabet.Nodup

instance (alphabet : List Char) : Decidable (Valid alphabet) :=
  decidable_of_iff
    ((alphabet.all fun c => c.toNat < 128) = true ∧ 3 ≤ alphabet.length ∧ alphabet.Nodup)
    (by simp [Valid])

/-- The two functions of `sqids-go`, for an alphabet and the least length `hashidsMinLength`. -/
structure ShortIds where
  encode : List Char → List ℕ → Option (List Char)
  decode : List Char → List Char → List ℕ

/-- The global `hashids`. -/
structure Hashids where
  sqids : ShortIds
  alphabet : List Char
  valid : Valid alphabet

def Hashids.new (sqids : ShortIds) (alphabet : List Char) : Option Hashids :=
  if h : Valid alphabet then some ⟨sqids, alphabet, h⟩ else none

def Hashids.encode (h : Hashids) (numbers : List ℕ) : Option (List Char) :=
  h.sqids.encode h.alphabet numbers

def Hashids.decode (h : Hashids) (id : List Char) : List ℕ := h.sqids.decode h.alphabet id

/-- What is assumed of the short id of some numbers: it has symbols of the alphabet only, at least
the least length, and gives the numbers back. -/
structure Hashids.Lawful (h : Hashids) (numbers : List ℕ) : Prop where
  symbols : ∀ id, h.encode numbers = some id → ∀ a ∈ id, a ∈ h.alphabet
  padded : ∀ id, h.encode numbers = some id → hashidsMinLength ≤ id.length
  decodes : ∀ id, h.encode numbers = some id → h.decode id = numbers

/-- HMAC-SHA256 of a key and a message. -/
abbrev Hmac := List Char → List Char → { bytes : List UInt8 // bytes.length = 32 }

/-- What `InitUserToken` sets. -/
structure Config where
  hashids : Hashids
  jwtSecretBytes : List Char
  hmac : Hmac

/-- An alphabet that is refused is replaced by the default one. -/
def initUserToken (hmac : Hmac) (sqids : ShortIds) (tokenSecret sqidsAlphabet : List Char) :
    Option Config :=
  if tokenSecret = [] then none
  else
    let hashids := Hashids.new sqids (if sqidsAlphabet = [] then defaultAlphabet else sqidsAlphabet)
    let hashids :=
      if hashids.isNone ∧ sqidsAlphabet ≠ [] then Hashids.new sqids defaultAlphabet else hashids
    hashids.map fun hashids => ⟨hashids, tokenSecret, hmac⟩

/-! ### Keys -/

/-- The conversion `uint64(n)`. -/
def uint64 (n : ℤ) : ℕ := (n % 18446744073709551616).toNat

/-- The conversion `int(n)`. -/
def int (n : ℕ) : ℤ := Int.bmod n 18446744073709551616

variable (c : Config)

/-- The signature of a short id. -/
def sign (payload : List Char) : List UInt8 := (c.hmac c.jwtSecretBytes payload).val

def keyOf (payload : List Char) : List Char :=
  payload ++ '_' :: Base64.encodeRawURL (sign c payload)

/-- `GenerateToken`. -/
def generateToken (tokenID userID : ℤ) : Option (List Char) :=
  (c.hashids.encode [uint64 tokenID, uint64 userID]).map (keyOf c)

def validateParts (payloadEncoded receivedSignature : List Char) : Except String (ℤ × ℤ) :=
  match Base64.decodeRawURL receivedSignature with
  | none => .error "签名解码失败"
  | some decodedSignature =>
    if decodedSignature ≠ sign c payloadEncoded then .error "签名验证失败"
    else
      match c.hashids.decode payloadEncoded with
      | [tokenID, userID] => .ok (int tokenID, int userID)
      | _ => .error "无效的令牌"

/-- `ValidateToken`: the key is cut at its first underscore. -/
def validateToken (token : List Char) : Except String (ℤ × ℤ) :=
  match token.dropWhile (· ≠ '_') with
  | [] => .error "无效的令牌"
  | _ :: receivedSignature => validateParts c (token.takeWhile (· ≠ '_')) receivedSignature

structure Token where
  userId : ℤ
  deriving DecidableEq

/-- The caches that `GetTokenModel` asks; `none` is an error. -/
structure Env where
  redisEnabled : Bool
  oldUserTokens : List Char → Bool
  isUserEnabled : ℤ → Option Bool
  tokenByKey : List Char → Option Token

/-- `GetTokenModel`: keys of 48 bytes are from before, those of 59 bytes are validated. -/
def getTokenModel (env : Env) (key : List Char) : Option Token :=
  if key = [] then none
  else if len key = 48 then
    if env.redisEnabled = true ∧ env.oldUserTokens key = false then none
    else (env.tokenByKey key).filter fun token => env.isUserEnabled token.userId = some true
  else if len key = 59 then
    match validateToken c key with
    | .error _ => none
    | .ok (tokenId, userId) =>
      if userId = 0 ∨ tokenId = 0 then none
      else if env.isUserEnabled userId ≠ some true then none
      else env.tokenByKey key
  else none

/-- The key passes the checks of its form, for these ids. -/
def Accepted (key : List Char) (tokenID userID : ℤ) : Prop :=
  len key = 59 ∧ validateToken c key = .ok (tokenID, userID)

/-! ### What a key is read as -/

lemma len_of_ascii {text : List Char} (h : ∀ c ∈ text, c.toNat < 128) : len text = text.length := by
  induction text with
  | nil => rfl
  | cons c text ih =>
    have hle : c.val ≤ 0x7f := UInt32.le_iff_toNat_le.mpr (Nat.le_of_lt_succ (h c mem_cons_self))
    have hc : c.utf8Size = 1 := if_pos hle
    have ih := ih fun c' hc' => h c' (mem_cons_of_mem c hc')
    simp only [len, map_cons, foldr_cons, length_cons] at ih ⊢
    omega

section
variable {c : Config} {payload : List Char}

lemma ascii_signature (c : Config) (payload : List Char) :
    ∀ a ∈ Base64.encodeRawURL (sign c payload), a.toNat < 128 := fun a ha =>
  (Base64.urlDigit_plain (Base64.forall_mem_encodeRawURL _ a ha)).1

lemma length_signature (c : Config) (payload : List Char) :
    (Base64.encodeRawURL (sign c payload)).length = 43 := by
  have hlen : (sign c payload).length = 32 := (c.hmac c.jwtSecretBytes payload).property
  rw [Base64.length_encodeRawURL, hlen]

lemma len_key (hascii : ∀ a ∈ payload, a.toNat < 128) :
    len (keyOf c payload) = payload.length + 44 := by
  have hall : ∀ a ∈ keyOf c payload, a.toNat < 128 := by
    intro a ha
    rcases mem_append.mp ha with ha | ha
    · exact hascii a ha
    · rcases mem_cons.mp ha with rfl | ha
      · decide
      · exact ascii_signature c payload a ha
  rw [len_of_ascii hall, keyOf, length_append, length_cons, length_signature]

lemma validateToken_plain (hp : '_' ∉ payload) {m n : ℕ}
    (hdecode : c.hashids.decode payload = [m, n]) :
    validateToken c (keyOf c payload) = .ok (int m, int n) := by
  have hall : ∀ a ∈ payload, decide (a ≠ '_') = true := fun a ha =>
    decide_eq_true fun heq => hp (heq ▸ ha)
  have htake : (keyOf c payload).takeWhile (· ≠ '_') = payload := by
    rw [keyOf, takeWhile_append_of_pos hall]
    simp
  have hdrop : (keyOf c payload).dropWhile (· ≠ '_') =
      '_' :: Base64.encodeRawURL (sign c payload) := by
    rw [keyOf, dropWhile_append_of_pos hall]
    simp
  unfold validateToken
  rw [hdrop, htake]
  simp [validateParts, Base64.decodeRawURL_encodeRawURL, hdecode]

lemma validateParts_long {payloadEncoded receivedSignature : List Char}
    (hlong : 44 ≤ (Base64.withoutLineEnds receivedSignature).length) :
    ∃ e, validateParts c payloadEncoded receivedSignature = .error e := by
  unfold validateParts
  split
  · exact ⟨_, rfl⟩
  rename_i decoded hdecoded
  have hlen := Base64.length_of_decodeRawURL hdecoded
  have hsign : (sign c payloadEncoded).length = 32 :=
    (c.hmac c.jwtSecretBytes payloadEncoded).property
  rw [if_pos]
  · exact ⟨_, rfl⟩
  · intro heq
    rw [← heq] at hsign
    omega

lemma validateToken_cut (hp : '_' ∈ payload) :
    ∃ e, validateToken c (keyOf c payload) = .error e := by
  obtain ⟨front, back, hsplit, hfront⟩ := eq_append_cons_of_mem hp
  have hall : ∀ a ∈ front, decide (a ≠ '_') = true := fun a ha =>
    decide_eq_true fun heq => hfront (heq ▸ ha)
  have hdrop : (keyOf c payload).dropWhile (· ≠ '_') =
      '_' :: (back ++ '_' :: Base64.encodeRawURL (sign c payload)) := by
    rw [keyOf, hsplit, append_assoc, dropWhile_append_of_pos hall]
    simp
  have hlong : 44 ≤ (Base64.withoutLineEnds
      (back ++ '_' :: Base64.encodeRawURL (sign c payload))).length := by
    have hsignature := Base64.withoutLineEnds_encodeRawURL (sign c payload)
    have hlen := length_signature c payload
    unfold Base64.withoutLineEnds at hsignature ⊢
    rw [filter_append, filter_cons_of_pos (by decide), hsignature, length_append, length_cons, hlen]
    omega
  unfold validateToken
  rw [hdrop]
  exact validateParts_long hlong

end

/-! ### The keys that are accepted -/

lemma uint64_of_lt {n : ℤ} (hpos : 0 < n) (hlt : n < 2147483648) : uint64 n = n.toNat := by
  unfold uint64
  rw [Int.emod_eq_of_lt (by omega) (by omega)]

lemma int_toNat {n : ℤ} (hpos : 0 < n) (hlt : n < 2147483648) : int n.toNat = n := by
  unfold int
  rw [Int.toNat_of_nonneg (by omega)]
  exact Int.bmod_eq_of_le (by omega) (by omega)

section
variable {c : Config} {tokenID userID : ℤ} {key : List Char}
variable (ht : 0 < tokenID) (ht' : tokenID < 2147483648) (hu : 0 < userID)
    (hu' : userID < 2147483648)
variable (hkey : generateToken c tokenID userID = some key)
include ht ht' hu hu' hkey

lemma exists_payload : ∃ payload,
    c.hashids.encode [tokenID.toNat, userID.toNat] = some payload ∧ key = keyOf c payload := by
  unfold generateToken at hkey
  rw [uint64_of_lt ht ht', uint64_of_lt hu hu'] at hkey
  obtain ⟨payload, hp, rfl⟩ := Option.map_eq_some_iff.mp hkey
  exact ⟨payload, hp, rfl⟩

/-- **The keys that are accepted**: the short id has no more than the least length and no
underscore. -/
theorem accepted_iff (hlaw : c.hashids.Lawful [tokenID.toNat, userID.toNat]) :
    Accepted c key tokenID userID ↔
      ∃ payload, c.hashids.encode [tokenID.toNat, userID.toNat] = some payload ∧
        payload.length ≤ hashidsMinLength ∧ '_' ∉ payload := by
  obtain ⟨payload, hp, rfl⟩ := exists_payload ht ht' hu hu' hkey
  have hascii : ∀ a ∈ payload, a.toNat < 128 := fun a ha =>
    c.hashids.valid.1 a (hlaw.symbols payload hp a ha)
  have hlen := len_key (c := c) hascii
  have hpadded := hlaw.padded payload hp
  rw [hashidsMinLength] at hpadded ⊢
  constructor
  · rintro ⟨hlength, hvalidate⟩
    refine ⟨payload, hp, by omega, fun hmem => ?_⟩
    obtain ⟨e, he⟩ := validateToken_cut (c := c) hmem
    cases he.symm.trans hvalidate
  · rintro ⟨payload', hp', hlength, hplain⟩
    obtain rfl := Option.some.inj (hp'.symm.trans hp)
    refine ⟨by omega, ?_⟩
    rw [validateToken_plain hplain (hlaw.decodes payload' hp), int_toNat ht ht', int_toNat hu hu']

end

/-! ### With the library -/

/-- The library, without a list of ids that are not allowed. -/
def sqidsGo : ShortIds where
  encode alphabet :=
    Sqids.encode Char.toNat (Sqids.shuffle Char.toNat alphabet) hashidsMinLength fun _ => false
  decode alphabet id :=
    (Sqids.decode Char.toNat (Sqids.shuffle Char.toNat alphabet) id).map (· % 18446744073709551616)

def zeroHmac : Hmac := fun _ _ => ⟨replicate 32 0, rfl⟩

def configOf (alphabet : List Char) (h : Valid alphabet) : Config :=
  ⟨⟨sqidsGo, alphabet, h⟩, "secret".toList, zeroHmac⟩

lemma initUserToken_valid {alphabet : List Char} (hne : alphabet ≠ []) (h : Valid alphabet) :
    initUserToken zeroHmac sqidsGo "secret".toList alphabet = some (configOf alphabet h) := by
  simp [initUserToken, Hashids.new, hne, h, configOf]

lemma valid_default : Valid defaultAlphabet := by decide

lemma encode_one : (configOf defaultAlphabet valid_default).hashids.encode [1, 1] =
    some "kQKMTKyEQA7X6eZ".toList := by
  decide +kernel

lemma lawful_one : (configOf defaultAlphabet valid_default).hashids.Lawful [1, 1] := by
  refine ⟨?_, ?_, ?_⟩
  all_goals
    rintro id hid
    obtain rfl := Option.some.inj (hid.symm.trans encode_one)
  · have hall : ("kQKMTKyEQA7X6eZ".toList.all fun a => decide (a ∈ defaultAlphabet)) = true := by
      decide
    exact fun a ha => of_decide_eq_true (all_eq_true.mp hall a ha)
  · decide
  · decide +kernel

theorem accepted_one :
    ∃ key, generateToken (configOf defaultAlphabet valid_default) 1 1 = some key ∧
    Accepted (configOf defaultAlphabet valid_default) key 1 1 := by
  have hkey : generateToken (configOf defaultAlphabet valid_default) 1 1 = some _ :=
    congrArg (Option.map _) encode_one
  refine ⟨_, hkey, ?_⟩
  refine (accepted_iff (by decide) (by decide) (by decide) (by decide) hkey lawful_one).mpr ?_
  exact ⟨_, encode_one, by decide, by decide⟩

lemma valid_abc : Valid "abc".toList := by decide

lemma valid_underscore : Valid "abcdefghijklmnopqrstuvwxyz0123456789ABC_".toList := by decide

/-- A key for `abc` is too long, one for an alphabet with an underscore is cut at the wrong place.
-/
theorem rejected_keys :
    (∃ c key, initUserToken zeroHmac sqidsGo "secret".toList "abc".toList = some c ∧
      generateToken c 128 128 = some key ∧ len key = 62 ∧ ∀ env, getTokenModel c env key = none) ∧
    ∃ c key, initUserToken zeroHmac sqidsGo "secret".toList
        "abcdefghijklmnopqrstuvwxyz0123456789ABC_".toList = some c ∧
      generateToken c 4 1 = some key ∧ len key = 59 ∧
        validateToken c key = .error "签名验证失败" ∧ ∀ env, getTokenModel c env key = none := by
  constructor
  · have hlen : len "aabbbbbbbcaccccccc_AAAAAAAAAAAAAAAAAAAAAAAAAAAAAAAAAAAAAAAAAAA".toList =
      62 := by
      decide
    refine ⟨configOf _ valid_abc, _, initUserToken_valid (by decide) valid_abc, by decide, hlen,
      fun env => ?_⟩
    rw [getTokenModel, if_neg (by decide), hlen, if_neg (by decide), if_neg (by decide)]
  · have hlen : len "r1At62acyo_4frd_AAAAAAAAAAAAAAAAAAAAAAAAAAAAAAAAAAAAAAAAAAA".toList = 59 := by
      decide
    have hvalidate : validateToken (configOf _ valid_underscore)
        "r1At62acyo_4frd_AAAAAAAAAAAAAAAAAAAAAAAAAAAAAAAAAAAAAAAAAAA".toList =
          .error "签名验证失败" := by decide
    refine ⟨configOf _ valid_underscore, _, initUserToken_valid (by decide) valid_underscore,
      by decide +kernel, hlen, hvalidate, fun env => ?_⟩
    rw [getTokenModel, if_neg (by decide), hlen, if_neg (by decide), if_pos (by decide), hvalidate]

end Tokilake.Auth.UserToken
