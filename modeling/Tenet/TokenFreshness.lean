import Tenet.RelayFormat
import Mathlib.Algebra.Order.Group.Abs

/-! The age test of `VerifyToken` in 64-bit arithmetic. -/

namespace Tenet

def RelayAuthConfig.mac (env : Env) (config : RelayAuthConfig) (message : Bytes) : Option Bytes :=
  if config.sharedKey env = [] then none else some (env.hmacSha256 (config.sharedKey env) message)

/-- The signature is the HMAC of the token's own fields. -/
def RelayAuthToken.Signed (env : Env) (config : RelayAuthConfig) (token : RelayAuthToken) : Prop :=
  config.mac env (buildMessage token.srcID token.dstID token.timestamp) = some token.signature

/-- A token verifies exactly if its distance from the present, as an integer, is at most the number of
seconds and it is signed. -/
def FreshnessExact (env : Env) (config : RelayAuthConfig) (token : RelayAuthToken)
    (now seconds : Int) : Prop :=
  verifyToken env config token now = none ↔
    |now - token.timestamp| ≤ seconds ∧ token.Signed env config

theorem int64_wrapped (value : Int) (large : 2 ^ 63 ≤ value) (small : value < 2 ^ 64) :
    int64 value = value - 2 ^ 64 := by
  calc
    int64 value = int64 (value - (2 ^ 64 : Nat)) := (Int.sub_bmod_right value (2 ^ 64)).symm
    _ = value - 2 ^ 64 := int64_of_isInt64 _ (by constructor <;> omega)

/-- For a timestamp far in the past the subtraction wraps, and the negation leaves a large age, except
that of the least value, which is its own negation. -/
theorem tokenAge_wrapped (now timestamp : Int) (large : 2 ^ 63 ≤ now - timestamp)
    (small : now - timestamp < 2 ^ 64) :
    tokenAge now timestamp =
      if timestamp = now - 2 ^ 63 then -2 ^ 63 else 2 ^ 64 - (now - timestamp) := by
  have negative : now - timestamp - 2 ^ 64 < 0 := by omega
  rw [tokenAge, int64_wrapped _ large small, if_pos negative]
  split
  · next least =>
      rw [show -(now - timestamp - 2 ^ 64) = 2 ^ 63 by omega]
      decide
  · next other =>
      rw [int64_of_isInt64 _ (by constructor <;> omega)]
      omega

theorem tokenAge_le_iff (now timestamp seconds : Int) (begun : 0 ≤ now) (early : now < 2 ^ 62)
    (fits : IsInt64 timestamp) (nonneg : 0 ≤ seconds) (short : seconds < 2 ^ 62) :
    tokenAge now timestamp ≤ seconds ↔
      |now - timestamp| ≤ seconds ∨ timestamp = now - 2 ^ 63 := by
  obtain ⟨low, high⟩ := fits
  rw [abs_le]
  by_cases wraps : 2 ^ 63 ≤ now - timestamp
  · rw [tokenAge_wrapped now timestamp wraps (by omega)]
    split <;> omega
  · rw [tokenAge_eq now timestamp (by constructor <;> omega) (by constructor <;> omega)]
    omega

theorem ttlSeconds_whole (config : RelayAuthConfig) (seconds : Int)
    (whole : config.tokenTTL = seconds * 1000000000) : config.ttlSeconds = seconds := by
  rw [RelayAuthConfig.ttlSeconds, whole]
  exact Int.mul_tdiv_cancel seconds (by decide)

theorem verifyToken_eq_none_iff (env : Env) (config : RelayAuthConfig) (token : RelayAuthToken)
    (now : Int) (enabled : config.enabled = true) :
    verifyToken env config token now = none ↔
      tokenAge now token.timestamp ≤ config.ttlSeconds ∧ token.Signed env config := by
  have size := env.hmacSha256_length (config.sharedKey env)
    (buildMessage token.srcID token.dstID token.timestamp)
  rw [verifyToken, if_neg (by simp [enabled]), RelayAuthToken.Signed, RelayAuthConfig.mac]
  by_cases expired : tokenAge now token.timestamp > config.ttlSeconds
  · rw [if_pos expired]
    exact iff_of_false (Option.some_ne_none _) fun fresh => absurd fresh.1 (Int.not_le.mpr expired)
  · rw [if_neg expired]
    have fresh := Int.le_of_not_gt expired
    by_cases keyless : config.sharedKey env = []
    · simp [keyless]
    · have keyed : (config.sharedKey env).length > 0 := List.length_pos_iff.mpr keyless
      simp only [keyed, true_and, keyless, if_false, Option.some.injEq, fresh]
      by_cases signed : token.signature = env.hmacSha256 (config.sharedKey env)
          (buildMessage token.srcID token.dstID token.timestamp)
      · rw [if_pos (signed ▸ size), if_pos signed]
        exact iff_of_true rfl signed.symm
      · rw [if_neg signed]
        exact iff_of_false (by split <;> exact Option.some_ne_none _) (Ne.symm signed)

/-- Freshness is exact unless a signed token carries the one timestamp whose distance wraps to the
least 64-bit integer. -/
theorem freshnessExact_iff (env : Env) (config : RelayAuthConfig) (token : RelayAuthToken)
    (now seconds : Int) (enabled : config.enabled = true)
    (whole : config.tokenTTL = seconds * 1000000000) (nonneg : 0 ≤ seconds)
    (ttlFits : IsInt64 config.tokenTTL) (begun : 0 ≤ now) (early : now < 2 ^ 62)
    (fits : IsInt64 token.timestamp) :
    FreshnessExact env config token now seconds ↔
      (token.Signed env config → token.timestamp ≠ now - 2 ^ 63) := by
  have short : seconds < 2 ^ 62 := by
    have high := ttlFits.2
    omega
  have far : token.timestamp = now - 2 ^ 63 → ¬|now - token.timestamp| ≤ seconds := by
    intro least
    rw [least, abs_le]
    omega
  rw [FreshnessExact, verifyToken_eq_none_iff env config token now enabled,
    ttlSeconds_whole config seconds whole,
    tokenAge_le_iff now token.timestamp seconds begun early fits nonneg short]
  constructor
  · intro agrees signed least
    exact far least (agrees.mp ⟨Or.inr least, signed⟩).1
  · intro unwrapped
    constructor
    · rintro ⟨close | least, signed⟩
      · exact ⟨close, signed⟩
      · exact absurd least (unwrapped signed)
    · rintro ⟨close, signed⟩
      exact ⟨Or.inl close, signed⟩

namespace WrappedToken

def config : RelayAuthConfig := ⟨true, 300000000000, [1]⟩

def token (timestamp : Int) : RelayAuthToken :=
  ⟨List.replicate 16 1, List.replicate 16 2, timestamp, Env.padded.hmacSha256 (config.sharedKey .padded)
    (buildMessage (List.replicate 16 1) (List.replicate 16 2) timestamp)⟩

end WrappedToken

open WrappedToken in
/-- A token from four minutes ago. -/
theorem freshnessExact_recent :
    FreshnessExact .padded config (token 1700000000) 1700000240 300 :=
  (freshnessExact_iff .padded config (token 1700000000) 1700000240 300 rfl rfl (by decide)
    ⟨by decide, by decide⟩ (by decide) (by decide) ⟨by decide, by decide⟩).mpr
      fun _ => by decide

open WrappedToken in
/-- A token from almost three hundred billion years ago verifies. -/
theorem ancient_token_verifies :
    IsInt64 (1700000000 - 2 ^ 63) ∧
      verifyToken .padded config (token (1700000000 - 2 ^ 63)) 1700000000 = none ∧
      ¬FreshnessExact .padded config (token (1700000000 - 2 ^ 63)) 1700000000 300 := by
  have verified : verifyToken .padded config (token (1700000000 - 2 ^ 63)) 1700000000 = none := by
    decide +kernel
  refine ⟨⟨by decide, by decide⟩, verified, ?_⟩
  intro agrees
  exact absurd (agrees.mp verified).1 (by decide +kernel)

end Tenet
