import Tenet.Wire
import Mathlib.Algebra.Order.Ring.Int

/-! `nat/relay_auth.go`: the tokens that authenticate relay requests. -/

namespace Tenet

structure RelayAuthToken where
  srcID : Bytes
  dstID : Bytes
  /-- seconds, as an `int64` -/
  timestamp : Int
  signature : Bytes
  deriving DecidableEq, Repr

structure RelayAuthConfig where
  enabled : Bool
  /-- nanoseconds -/
  tokenTTL : Int
  networkPassword : Bytes
  deriving DecidableEq, Repr

inductive RelayAuthError where
  | tooShort
  | truncated
  | expired (age ttl : Int)
  | invalidHMAC
  | noMethod
  deriving DecidableEq, Repr

/-- The value of an `int64` computation. -/
def int64 (value : Int) : Int := value.bmod (2 ^ 64)

def ofBigEndian (bytes : Bytes) : Nat := bytes.foldl (fun value byte => value * 256 + byte.toNat) 0

/-- The big-endian bytes of the two's complement of an `int64`. -/
def putInt64 (value : Int) : Bytes := bigEndian 8 (value % 2 ^ 64).toNat

/-- "tenet-relay-auth:" -/
def relayAuthLabel : Bytes :=
  [0x74, 0x65, 0x6E, 0x65, 0x74, 0x2D, 0x72, 0x65, 0x6C, 0x61, 0x79, 0x2D, 0x61, 0x75, 0x74, 0x68,
    0x3A]

namespace RelayAuthConfig

def sharedKey (env : Env) (config : RelayAuthConfig) : Bytes :=
  if config.networkPassword = [] then [] else env.sha256 (relayAuthLabel ++ config.networkPassword)

/-- `int64(TokenTTL.Seconds())`; the `float64` cuts like this for whole seconds of any size and for
fractions below `2 ^ 24` seconds -/
def ttlSeconds (config : RelayAuthConfig) : Int := config.tokenTTL.tdiv 1000000000

end RelayAuthConfig

def buildMessage (srcID dstID : Bytes) (timestamp : Int) : Bytes :=
  srcID ++ dstID ++ putInt64 timestamp

def generateTokenWithHMAC (env : Env) (config : RelayAuthConfig) (srcID dstID : Bytes) (now : Int) :
    Option RelayAuthToken :=
  if (config.sharedKey env).length = 0 then none
  else some ⟨srcID, dstID, now, env.hmacSha256 (config.sharedKey env) (buildMessage srcID dstID now)⟩

/-- The distance of the timestamp from the present, in `int64` arithmetic. -/
def tokenAge (now timestamp : Int) : Int :=
  let difference := int64 (now - timestamp)
  if difference < 0 then int64 (-difference) else difference

/-- `VerifyToken` without an Ed25519 key, as the node calls it; `none` accepts the token. -/
def verifyToken (env : Env) (config : RelayAuthConfig) (token : RelayAuthToken) (now : Int) :
    Option RelayAuthError :=
  if ¬ config.enabled then none
  else if tokenAge now token.timestamp > config.ttlSeconds then
    some (.expired (tokenAge now token.timestamp) config.ttlSeconds)
  else if (config.sharedKey env).length > 0 ∧ token.signature.length = 32 then
    if token.signature = env.hmacSha256 (config.sharedKey env)
        (buildMessage token.srcID token.dstID token.timestamp) then none
    else some .invalidHMAC
  else some .noMethod

namespace RelayAuthToken

def encode (token : RelayAuthToken) : Bytes :=
  token.srcID ++ token.dstID ++ putInt64 token.timestamp ++
    UInt8.ofNat token.signature.length :: token.signature

end RelayAuthToken

def decodeToken (data : Bytes) : Except RelayAuthError RelayAuthToken :=
  if data.length < 41 then .error .tooShort
  else
    let sigLen := (data.getD 40 0).toNat
    if data.length < 41 + sigLen then .error .truncated
    else .ok
      { srcID := data.take 16
        dstID := (data.drop 16).take 16
        timestamp := int64 (ofBigEndian ((data.drop 32).take 8))
        signature := (data.drop 41).take sigLen }

/-- The gate's own test: the bytes decode to a token that verifies. -/
def acceptsToken (env : Env) (config : RelayAuthConfig) (data : Bytes) (now : Int) : Bool :=
  match decodeToken data with
  | .error _ => false
  | .ok token => (verifyToken env config token now).isNone

end Tenet
