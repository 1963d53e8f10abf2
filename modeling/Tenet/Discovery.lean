import Tenet.Heartbeat

/-! The packets of `node/discovery.go`. -/

namespace Tenet

open Lib

def discoveryEntry (entry : Bytes × Bytes) : Bytes :=
  UInt8.ofNat entry.1.length :: entry.1 ++ UInt8.ofNat entry.2.length :: entry.2

def discoveryPayload (entries : List (Bytes × Bytes)) : Bytes :=
  UInt8.ofNat (entries.length / 256) :: UInt8.ofNat entries.length :: entries.flatMap discoveryEntry

def discoveryCount (payload : Bytes) : Nat :=
  (payload.getD 0 0).toNat * 256 + (payload.getD 1 0).toNat

namespace Node

def isDiscoverySourceAuthenticated (n : Node) (remoteAddr : Bytes) : Bool :=
  (n.peerAt remoteAddr).isSome

/-- The peers that a response lists: those whose identity and address fit a length byte. -/
def discoveryEntries (n : Node) : List (Bytes × Bytes) :=
  n.peers.ids.filterMap fun pid =>
    (n.peers.get pid).bind fun p =>
      if pid.length > 255 ∨ p.addr.text.length > 255 then none else some (pid, p.addr.text)

def sendDiscoveryRequest (p : Peer) : List Effect :=
  [.sendRaw p.conn p.addr p.transport (.raw (tentPacket packetTypeDiscoveryReq []))]

def processDiscoveryRequest (n : Node) (conn : Option ConnId) (remoteAddr : NetAddr)
    (transport : Transport) : List Effect :=
  if n.isDiscoverySourceAuthenticated remoteAddr.text then
    [.sendRaw conn remoteAddr transport
      (.raw (tentPacket packetTypeDiscoveryResp (discoveryPayload n.discoveryEntries)))]
  else []

end Node

def entrySizes : List (Bytes × Bytes) → Nat
  | [] => 0
  | entry :: rest => 2 + entry.1.length + entry.2.length + entrySizes rest

theorem discoveryEntry_length (entry : Bytes × Bytes) :
    (discoveryEntry entry).length = 2 + entry.1.length + entry.2.length := by
  simp only [discoveryEntry, List.cons_append, List.length_cons, List.length_append]
  omega

theorem discoveryEntries_length (entries : List (Bytes × Bytes)) :
    (entries.flatMap discoveryEntry).length = entrySizes entries := by
  induction entries with
  | nil => rfl
  | cons entry rest ih =>
      rw [List.flatMap_cons, List.length_append, discoveryEntry_length, ih, entrySizes]

theorem discoveryPayload_length (entries : List (Bytes × Bytes)) :
    (discoveryPayload entries).length = entrySizes entries + 2 := by
  rw [discoveryPayload, List.length_cons, List.length_cons, discoveryEntries_length]

theorem discoveryCount_payload (entries : List (Bytes × Bytes)) :
    discoveryCount (discoveryPayload entries) = entries.length % 65536 := by
  simp only [discoveryCount, discoveryPayload, List.getD_cons_zero, List.getD_cons_succ,
    UInt8.toNat_ofNat']
  omega

end Tenet
