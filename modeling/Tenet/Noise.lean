import Tenet.Wire

/-! `crypto/noise.go` over a symbolic Noise XX.

A handshake message is the term of what went into it, so that a message is accepted exactly by
the state it answers. Whatever arrives first at a responder is read as message 1, since
message 1 carries no authentication. -/

namespace Tenet

abbrev Key := Bytes

inductive Message where
  /-- `e` -/
  | one (ephemeral : Key)
  /-- `e, ee, s, es` in reply to what the responder read as message 1, under its prologue -/
  | two (answered : Message) (prologue : Bytes) (ephemeral static : Key)
  /-- `s, se` in reply to message 2 -/
  | three (answered : Message) (static : Key)
  deriving DecidableEq, Repr

structure CipherKey where
  transcript : Message
  fromInitiator : Bool
  deriving DecidableEq, Repr

/-- `noise.CipherState`; the counter is not cut to 64 bits. -/
structure CipherState where
  key : CipherKey
  n : Nat
  deriving DecidableEq, Repr

structure Session where
  sendCipher : Option CipherState
  recvCipher : Option CipherState
  remoteStaticKey : Option Key
  handshakeHash : Option Message
  deriving DecidableEq, Repr

/-- The AES-GCM cipher behind `noise.CipherState`. -/
structure Aead where
  encrypt : CipherKey → Nat → Bytes → Bytes
  decrypt : CipherKey → Nat → Bytes → Option Bytes

/-- Under each key and nonce exactly one ciphertext opens to a plaintext; the tag is 16 bytes. -/
structure IdealAead extends Aead where
  decrypt_iff : ∀ key nonce ciphertext plaintext,
    decrypt key nonce ciphertext = some plaintext ↔ ciphertext = encrypt key nonce plaintext
  overhead : ∀ key nonce plaintext, (encrypt key nonce plaintext).length = plaintext.length + 16

/-- A concrete cipher to run the model with: the plaintext with its nonce as the tag. -/
def IdealAead.tagged : IdealAead where
  encrypt _ nonce plaintext := plaintext ++ littleEndian 16 nonce
  decrypt _ nonce ciphertext :=
    if 16 ≤ ciphertext.length ∧ ciphertext.drop (ciphertext.length - 16) = littleEndian 16 nonce then
      some (ciphertext.take (ciphertext.length - 16))
    else none
  decrypt_iff _ nonce ciphertext plaintext := by
    constructor
    · intro opened
      split at opened
      · next tagged =>
          rw [← Option.some.inj opened, ← tagged.2, List.take_append_drop]
      · cases opened
    · intro sealed
      have length : ciphertext.length - 16 = plaintext.length := by
        rw [sealed, List.length_append, littleEndian_length]
        omega
      have long : 16 ≤ ciphertext.length := by
        rw [sealed, List.length_append, littleEndian_length]
        omega
      rw [length, sealed, List.drop_left, List.take_left, ← sealed, if_pos ⟨long, rfl⟩]
  overhead _ nonce plaintext := by rw [List.length_append, littleEndian_length]

namespace Session

/-- The nonce advances on every call; `none` is `ErrSessionClosed`. -/
def encrypt (aead : Aead) (session : Session) (plaintext : Bytes) : Option (Bytes × Session) :=
  session.sendCipher.map fun cipher =>
    (aead.encrypt cipher.key cipher.n plaintext,
      { session with sendCipher := some { cipher with n := cipher.n + 1 } })

/-- The nonce advances only when the ciphertext opens. -/
def decrypt (aead : Aead) (session : Session) (ciphertext : Bytes) : Option (Bytes × Session) :=
  session.recvCipher.bind fun cipher =>
    (aead.decrypt cipher.key cipher.n ciphertext).map fun plaintext =>
      (plaintext, { session with recvCipher := some { cipher with n := cipher.n + 1 } })

/-- A nil key is the empty slice. -/
def remotePublicKey (session : Session) : Key := session.remoteStaticKey.getD []

def close (_ : Session) : Session := ⟨none, none, none, none⟩

end Session

inductive Stage where
  | awaitOne
  | awaitTwo (sent : Message)
  | awaitThree (sent : Message)
  deriving DecidableEq, Repr

structure HandshakeState where
  stage : Stage
  prologue : Bytes
  staticKey : Key
  /-- the ephemeral key this side writes into its first message -/
  ephemeral : Key
  isInitiator : Bool
  completed : Bool
  createdAt : Int
  deriving DecidableEq, Repr

/-- "p2ptunnel-v1-" -/
def prologuePrefix : Bytes :=
  [0x70, 0x32, 0x70, 0x74, 0x75, 0x6E, 0x6E, 0x65, 0x6C, 0x2D, 0x76, 0x31, 0x2D]

def newInitiatorHandshake (staticKey networkSecret ephemeral : Bytes) (now : Int) :
    HandshakeState × Message :=
  let message := Message.one ephemeral
  ({ stage := .awaitTwo message, prologue := prologuePrefix ++ networkSecret, staticKey, ephemeral,
     isInitiator := true, completed := false, createdAt := now }, message)

def newResponderHandshake (staticKey networkSecret ephemeral : Bytes) (now : Int) : HandshakeState :=
  { stage := .awaitOne, prologue := prologuePrefix ++ networkSecret, staticKey, ephemeral,
    isInitiator := false, completed := false, createdAt := now }

/-- The session that a side takes from the finished handshake: the initiator sends under the
first cipher and receives under the second, the responder the other way round. -/
def sessionOf (isInitiator : Bool) (transcript : Message) (remoteStatic : Key) : Session where
  sendCipher := some ⟨⟨transcript, isInitiator⟩, 0⟩
  recvCipher := some ⟨⟨transcript, !isInitiator⟩, 0⟩
  remoteStaticKey := some remoteStatic
  handshakeHash := some transcript

namespace HandshakeState

/-- Reads a message and, where the handshake is not over, writes the answer. `none` is an error,
which leaves the state as it was. -/
def processMessage (h : HandshakeState) (msg : Message) :
    Option (HandshakeState × Option Message × Option Session) :=
  if h.completed then none
  else match h.stage, msg with
  | .awaitOne, msg =>
      let response := Message.two msg h.prologue h.ephemeral h.staticKey
      some ({ h with stage := .awaitThree response }, some response, none)
  | .awaitTwo sent, .two answered prologue ephemeral static =>
      if answered = sent ∧ prologue = h.prologue then
        let response := Message.three (.two answered prologue ephemeral static) h.staticKey
        some ({ h with completed := true }, some response,
          some (sessionOf h.isInitiator response static))
      else none
  | .awaitThree sent, .three answered static =>
      if answered = sent then
        some ({ h with completed := true }, none,
          some (sessionOf h.isInitiator (.three answered static) static))
      else none
  | _, _ => none

end HandshakeState

end Tenet
