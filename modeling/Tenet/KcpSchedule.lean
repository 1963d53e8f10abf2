import Tenet.Readers

/-! The reader of a KCP session under read deadlines: `handleSession` of `node/kcp_transport.go`. -/

namespace Tenet

open Lib ByteStream

section Session

variable {S : Type} (handlePacket : S → UInt8 → Bytes → S)

end Session

end Tenet
