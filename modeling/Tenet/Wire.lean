import Tenet.Lib.ByteStream

/-! The packets of `internal/protocol` and `node`, byte for byte. A Go string is its bytes. -/

namespace Tenet

abbrev Bytes := List UInt8

/-- The hash functions and the name resolution that the code takes from its libraries. -/
structure Env where
  sha256 : Bytes → Bytes
  sha256_length : ∀ message, (sha256 message).length = 32
  hmacSha256 : Bytes → Bytes → Bytes
  hmacSha256_length : ∀ key message, (hmacSha256 key message).length = 32
  /-- `net.ResolveUDPAddr("udp", text)`, followed by `String` on the address it returns. -/
  resolveUDPAddr : Bytes → Option Bytes

/-- Concrete stand-ins for the libraries, to run the model with: inputs padded or cut to 32 bytes,
and addresses that resolve to themselves. -/
def Env.padded : Env where
  sha256 message := (message ++ List.replicate 32 0).take 32
  sha256_length message := by simp
  hmacSha256 key message := (key ++ message ++ List.replicate 32 0).take 32
  hmacSha256_length key message := by
    simp only [List.length_take, List.length_append, List.length_replicate]
    omega
  resolveUDPAddr := some

/-- "TENT" -/
def magicBytes : Bytes := [0x54, 0x45, 0x4E, 0x54]

/-- "NATP" -/
def probeMagic : Bytes := [0x4E, 0x41, 0x54, 0x50]

/-- "PNCH" -/
def punchMagic : Bytes := [0x50, 0x4E, 0x43, 0x48]

def packetTypeHandshake : UInt8 := 0x01
def packetTypeData : UInt8 := 0x02
def packetTypeRelay : UInt8 := 0x03
def packetTypeDiscoveryReq : UInt8 := 0x04
def packetTypeDiscoveryResp : UInt8 := 0x05
def packetTypeHeartbeat : UInt8 := 0x06
def packetTypeHeartbeatAck : UInt8 := 0x07

def relayModeForward : UInt8 := 0x01
def relayModeTarget : UInt8 := 0x02

def frameTypeSingle : UInt8 := 0x01
def frameTypeFirst : UInt8 := 0x02
def frameTypeMiddle : UInt8 := 0x03
def frameTypeLast : UInt8 := 0x04

def maxPayloadSize : Nat := 60 * 1024
def maxReassemblySize : Nat := 50 * 1024 * 1024

/-- The shape all builders of the source share: magic, type byte, body. -/
def tentPacket (packetType : UInt8) (body : Bytes) : Bytes := magicBytes ++ packetType :: body

def buildHandshakePacket (msg : Bytes) : Bytes := tentPacket packetTypeHandshake msg

def buildDataPacket (payload : Bytes) : Bytes := tentPacket packetTypeData payload

def littleEndian : Nat → Nat → Bytes
  | 0, _ => []
  | count + 1, value => UInt8.ofNat value :: littleEndian count (value / 256)

def bigEndian (count value : Nat) : Bytes := (littleEndian count value).reverse

/-- `PutTimestamp`; the timestamp is the two's complement of an `int64`. -/
def putTimestamp (timestamp : Nat) : Bytes := littleEndian 8 timestamp

def buildHeartbeatPacket (timestamp : Nat) : Bytes :=
  tentPacket packetTypeHeartbeat (putTimestamp timestamp)

def buildHeartbeatAckPacket (timestamp : Nat) : Bytes :=
  tentPacket packetTypeHeartbeatAck (putTimestamp timestamp)

def encodeTCPFrame (packet : Bytes) : Bytes := Lib.ByteStream.prefixed packet

def kcpFrame (data : Bytes) : Bytes := Lib.ByteStream.prefixed data

@[simp] theorem littleEndian_length (count value : Nat) : (littleEndian count value).length = count := by
  induction count generalizing value with
  | zero => rfl
  | succ count ih => simp only [littleEndian, List.length_cons, ih]

@[simp] theorem tentPacket_length (packetType : UInt8) (body : Bytes) :
    (tentPacket packetType body).length = body.length + 5 := by
  simp only [tentPacket, magicBytes, List.length_append, List.length_cons, List.length_nil]
  omega

/-- `length < 5 || string(buf[0:4]) != "TENT"`, negated. -/
def isTent (packet : Bytes) : Bool := decide (5 ≤ packet.length) && packet.take 4 == magicBytes

@[simp] theorem isTent_tentPacket (packetType : UInt8) (body : Bytes) :
    isTent (tentPacket packetType body) = true := by
  simp [isTent, tentPacket, magicBytes]

end Tenet
