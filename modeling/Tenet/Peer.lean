import Tenet.Lib.GoMap
import Tenet.Noise
import Mathlib.Data.Finset.Basic

/-! `peer/peer.go`: the record a node keeps of a connected peer, and the store of records. -/

namespace Tenet

open Lib

inductive Transport where
  | tcp
  | udp
  | kcp
  deriving DecidableEq, Repr

/-- The dynamic type of a `net.Addr`. -/
inductive AddrKind where
  | tcp
  | udp
  deriving DecidableEq, Repr

structure NetAddr where
  kind : AddrKind
  text : Bytes
  deriving DecidableEq, Repr

inductive LinkMode where
  | p2p
  | relay
  deriving DecidableEq, Repr

inductive ConnState where
  | disconnected
  | connecting
  | handshaking
  | connected
  | disconnecting
  deriving DecidableEq, Repr

abbrev ConnId := Nat

inductive Packet where
  | handshake (message : Message)
  | raw (bytes : Bytes)
  deriving DecidableEq, Repr

/-- The byte streams that carry data packets: a TCP connection, or the KCP session dialed over a
dedicated handler. -/
inductive Stream where
  | tcp (conn : ConnId)
  | kcp (handler : Nat)
  deriving DecidableEq, Repr

/-- What a handler does besides changing the node, in the order it does it. -/
inductive Effect where
  | write (stream : Stream) (frame : Bytes)
  | sendRaw (conn : Option ConnId) (addr : NetAddr) (transport : Transport) (packet : Packet)
  | writeToUDP (addr : Bytes) (packet : Bytes)
  | closeConn (conn : ConnId)
  | closeSession (session : Session)
  | handlePacket (addr : NetAddr) (transport : Transport) (packetType : UInt8) (payload : Bytes)
  | handleProbePacket (addr : Bytes) (packet : Bytes)
  | onReceive (peerID data : Bytes)
  | onPeerConnected (peerID : Bytes)
  | onPeerDisconnected (peerID : Bytes)
  | sendDiscoveryRequest (peerID : Bytes)
  | syncChannelsWithPeer (peerID : Bytes)
  | triggerFastRehandshake (peerID : Bytes)
  | scheduleReconnect (peerID addr : Bytes)
  deriving DecidableEq, Repr

structure Rehandshake where
  consecutiveDecryptFails : Nat := 0
  consecutiveRehandshakeFails : Nat := 0
  inFlight : Bool := false
  backoff : Int := 0
  nextAttempt : Option Int := none
  windowStart : Option Int := none
  windowCount : Nat := 0
  deriving DecidableEq, Repr

structure Peer where
  id : Bytes
  addr : NetAddr
  originalAddr : Bytes
  conn : Option ConnId
  transport : Transport
  linkMode : LinkMode
  relayTarget : Option NetAddr
  session : Option Session
  lastSeen : Int
  remoteChannels : Finset Bytes := ∅
  state : ConnState := .disconnected
  reassemblyBuffer : Option Bytes := none
  rehandshake : Rehandshake := {}

def newPeer (id : Bytes) (addr : NetAddr) (conn : Option ConnId) (transport : Transport)
    (linkMode : LinkMode) (relayTarget : Option NetAddr) (session : Session) (now : Int) : Peer where
  id := id
  addr := addr
  originalAddr := addr.text
  conn := conn
  transport := transport
  linkMode := linkMode
  relayTarget := relayTarget
  session := some session
  lastSeen := now

namespace Peer

def resetReassembly (p : Peer) : Peer := { p with reassemblyBuffer := none }

def startReassembly (p : Peer) (frameData : Bytes) : Peer :=
  { p with reassemblyBuffer := some frameData }

/-- The record, whether the fragment was appended, and whether the buffer overflowed. -/
def appendReassembly (p : Peer) (frameData : Bytes) (maxSize : Nat) : Peer × Bool × Bool :=
  match p.reassemblyBuffer with
  | none => (p, false, false)
  | some buffer =>
      if buffer.length + frameData.length > maxSize then (p.resetReassembly, false, true)
      else ({ p with reassemblyBuffer := some (buffer ++ frameData) }, true, false)

/-- The record, the complete payload if there is one, and whether the buffer overflowed. -/
def finishReassembly (p : Peer) (frameData : Bytes) (maxSize : Nat) : Peer × Option Bytes × Bool :=
  match p.reassemblyBuffer with
  | none => (p, none, false)
  | some buffer =>
      if buffer.length + frameData.length > maxSize then (p.resetReassembly, none, true)
      else (p.resetReassembly, some (buffer ++ frameData), false)

/-- A peer on TCP keeps its transport when another one is offered. The shared UDP socket is
never closed. -/
def upgradeTransport (p : Peer) (addr : NetAddr) (conn : Option ConnId) (transport : Transport)
    (session : Session) (now : Int) : Peer × List Effect :=
  if p.transport = .tcp ∧ transport ≠ .tcp then (p, [])
  else
    let oldConn := if p.conn ≠ conn ∧ p.transport ≠ .udp then p.conn.toList.map .closeConn else []
    let oldSession :=
      if p.session ≠ some session then p.session.toList.map .closeSession else []
    ({ p with addr, conn, transport, session := some session, lastSeen := now, rehandshake := {} },
      oldConn ++ oldSession)

def setLinkMode (p : Peer) (mode : LinkMode) (relayTarget : Option NetAddr) : Peer :=
  { p with linkMode := mode, relayTarget }

def addRemoteChannel (p : Peer) (channelHash : Bytes) : Peer :=
  { p with remoteChannels := insert channelHash p.remoteChannels }

def removeRemoteChannel (p : Peer) (channelHash : Bytes) : Peer :=
  { p with remoteChannels := p.remoteChannels.erase channelHash }

def hasRemoteChannel (p : Peer) (channelHash : Bytes) : Bool :=
  decide (channelHash ∈ p.remoteChannels)

def updateLastSeen (p : Peer) (now : Int) : Peer := { p with lastSeen := now }

def close (p : Peer) : Peer × List Effect :=
  let closedConn := if p.transport = .tcp then p.conn.toList.map .closeConn else []
  ({ p with
      state := .disconnected
      session := none
      conn := if p.transport = .tcp then none else p.conn
      rehandshake := {} },
    p.session.toList.map .closeSession ++ closedConn)

def decrypt (aead : Aead) (p : Peer) (payload : Bytes) : Option (Bytes × Peer) :=
  p.session.bind fun session =>
    (session.decrypt aead payload).map fun (plaintext, session) =>
      (plaintext, { p with session := some session })

def incDecryptFailures (p : Peer) : Peer × Nat :=
  let failures := p.rehandshake.consecutiveDecryptFails + 1
  ({ p with rehandshake := { p.rehandshake with consecutiveDecryptFails := failures } }, failures)

def resetDecryptFailures (p : Peer) : Peer :=
  { p with rehandshake := { p.rehandshake with consecutiveDecryptFails := 0 } }

theorem decrypt_eq_some (aead : Aead) (p after : Peer) (payload plaintext : Bytes)
    (opened : p.decrypt aead payload = some (plaintext, after)) :
    ∃ session cipher, p.session = some session ∧ session.recvCipher = some cipher ∧
      aead.decrypt cipher.key cipher.n payload = some plaintext ∧
      after = { p with
        session := some { session with recvCipher := some { cipher with n := cipher.n + 1 } } } := by
  rcases Option.bind_eq_some_iff.mp opened with ⟨session, live, mapped⟩
  rcases Option.map_eq_some_iff.mp mapped with ⟨⟨text, moved⟩, decrypted, result⟩
  rcases Option.bind_eq_some_iff.mp decrypted with ⟨cipher, keyed, inner⟩
  rcases Option.map_eq_some_iff.mp inner with ⟨plain, plainText, pair⟩
  cases pair
  cases result
  exact ⟨session, cipher, live, keyed, plainText, rfl⟩

@[simp] theorem upgradeTransport_id (p : Peer) (addr : NetAddr) (conn : Option ConnId)
    (transport : Transport) (session : Session) (now : Int) :
    (p.upgradeTransport addr conn transport session now).1.id = p.id := by
  unfold upgradeTransport
  split <;> rfl

theorem upgradeTransport_kept (p : Peer) (addr : NetAddr) (conn : Option ConnId)
    (transport : Transport) (session : Session) (now : Int)
    (kept : p.transport = .tcp ∧ transport ≠ .tcp) :
    p.upgradeTransport addr conn transport session now = (p, []) := by
  rw [upgradeTransport, if_pos kept]

theorem upgradeTransport_session (p : Peer) (addr : NetAddr) (conn : Option ConnId)
    (transport : Transport) (session : Session) (now : Int) :
    (p.upgradeTransport addr conn transport session now).1.session = p.session ∨
      (p.upgradeTransport addr conn transport session now).1.session = some session := by
  unfold upgradeTransport
  split
  · exact Or.inl rfl
  · exact Or.inr rfl

@[simp] theorem upgradeTransport_reassemblyBuffer (p : Peer) (addr : NetAddr)
    (conn : Option ConnId) (transport : Transport) (session : Session) (now : Int) :
    (p.upgradeTransport addr conn transport session now).1.reassemblyBuffer =
      p.reassemblyBuffer := by
  unfold upgradeTransport
  split <;> rfl

theorem upgradeTransport_addr (p : Peer) (addr : NetAddr) (conn : Option ConnId)
    (transport : Transport) (session : Session) (now : Int)
    (switched : ¬ (p.transport = .tcp ∧ transport ≠ .tcp)) :
    (p.upgradeTransport addr conn transport session now).1.addr = addr := by
  rw [upgradeTransport, if_neg switched]

end Peer

/-- Records are stored under their own identity. -/
structure PeerStore where
  peers : GoMap Bytes Peer
  keyed : ∀ id p, peers.get id = some p → p.id = id

namespace PeerStore

def empty : PeerStore := ⟨∅, by simp⟩

def get (store : PeerStore) (id : Bytes) : Option Peer := store.peers.get id

/-- Also stands for a change made in place to the record that the store points to. -/
def add (store : PeerStore) (p : Peer) : PeerStore where
  peers := store.peers.set p.id p
  keyed := by
    intro id stored found
    rw [GoMap.get_set] at found
    split at found
    · cases found
      exact Eq.symm ‹_›
    · exact store.keyed id stored found

def remove (store : PeerStore) (id : Bytes) : PeerStore where
  peers := store.peers.delete id
  keyed := by
    intro other stored found
    rw [GoMap.get_delete] at found
    split at found
    · cases found
    · exact store.keyed other stored found

def ids (store : PeerStore) : List Bytes := store.peers.keys

def count (store : PeerStore) : Nat := store.peers.len

@[simp] theorem get_empty (id : Bytes) : empty.get id = none := GoMap.get_empty id

@[simp] theorem get_add (store : PeerStore) (p : Peer) (id : Bytes) :
    (store.add p).get id = if id = p.id then some p else store.get id :=
  GoMap.get_set store.peers p.id id p

theorem get_add_add (store : PeerStore) (p q : Peer) (same : q.id = p.id) (id : Bytes) :
    ((store.add p).add q).get id = (store.add q).get id := by
  simp only [get_add, same]
  split <;> rfl

theorem isSome_get_add {store : PeerStore} {p : Peer} (present : (store.get p.id).isSome = true)
    (id : Bytes) : ((store.add p).get id).isSome = (store.get id).isSome := by
  rw [get_add]
  split
  · next same =>
      rw [same, present]
      rfl
  · rfl

@[simp] theorem get_remove (store : PeerStore) (id other : Bytes) :
    (store.remove id).get other = if other = id then none else store.get other :=
  GoMap.get_delete store.peers id other

theorem mem_ids (store : PeerStore) (id : Bytes) :
    id ∈ store.ids ↔ ∃ p, store.get id = some p :=
  GoMap.mem_keys store.peers id

theorem get_id (store : PeerStore) (id : Bytes) (p : Peer) (found : store.get id = some p) :
    p.id = id :=
  store.keyed id p found

end PeerStore

end Tenet
