import Tenet.Mux
import Tenet.Peer

/-! The node of `node/node.go` with its tables, and the KCP sessions of `node/kcp_transport.go`. -/

namespace Tenet

open Lib

structure Config where
  networkPassword : Bytes
  maxPeers : Int
  channels : List Bytes
  enableRelay : Bool
  enableRelayAuth : Bool
  /-- nanoseconds -/
  relayAuthTTL : Int
  relayNodes : List Bytes
  enableReconnect : Bool
  maxConsecutiveDecryptFailures : Nat
  deriving DecidableEq, Repr

def defaultConfig : Config where
  networkPassword := []
  maxPeers := 50
  channels := []
  enableRelay := true
  enableRelayAuth := true
  relayAuthTTL := 300 * 1000000000
  relayNodes := []
  enableReconnect := true
  maxConsecutiveDecryptFailures := 16

/-- `Config.Validate`, as far as the fields above go. -/
def Config.validate (cfg : Config) : Bool :=
  decide (cfg.networkPassword ≠ [] ∧ 1 ≤ cfg.maxPeers ∧
    (cfg.enableRelayAuth = true → 0 < cfg.relayAuthTTL) ∧ 0 < cfg.maxConsecutiveDecryptFailures)

structure Identity where
  noisePublicKey : Key
  id : Bytes
  deriving DecidableEq, Repr

/-- A KCP session dialed over the dedicated handler of that number. -/
structure KCPSession where
  handler : Nat
  conv : UInt32
  peerAddr : Bytes
  closed : Bool
  deriving DecidableEq, Repr

structure KCPTransport where
  sessions : GoMap Bytes KCPSession
  /-- the conversation of the kcp-go endpoint that reads each dedicated handler -/
  endpoints : GoMap Nat UInt32

structure Node where
  config : Config
  identity : Identity
  peers : PeerStore
  mux : UDPMux
  pendingHandshakes : GoMap (Transport × Bytes) HandshakeState
  addrToPeer : GoMap Bytes Bytes
  onReceive : Bool
  onPeerConnected : Bool
  onPeerDisconnected : Bool
  relayManager : Option (GoMap Bytes Bytes)
  relayAddrSet : Finset Bytes
  relayForward : GoMap Bytes Bytes
  relayPendingTarget : GoMap Bytes Bytes
  relayInbound : Finset Bytes
  kcpTransport : Option KCPTransport
  reconnectManager : Bool
  localChannelSet : Finset Bytes

def hexDigit (value : UInt8) : UInt8 := if value < 10 then 0x30 + value else 0x57 + value

def hexEncode (bytes : Bytes) : Bytes :=
  bytes.flatMap fun byte => [hexDigit (byte / 16), hexDigit (byte % 16)]

def hashChannelName (env : Env) (name : Bytes) : Bytes := env.sha256 name

def peerIDOf (env : Env) (remotePub : Key) : Bytes := hexEncode ((env.sha256 remotePub).take 16)

def newIdentity (env : Env) (noisePublicKey : Key) : Identity :=
  ⟨noisePublicKey, (env.sha256 noisePublicKey).take 16⟩

def newNode (env : Env) (cfg : Config) (identity : Identity) : Node where
  config := cfg
  identity := identity
  peers := .empty
  mux := .newUDPMux
  pendingHandshakes := ∅
  addrToPeer := ∅
  onReceive := false
  onPeerConnected := false
  onPeerDisconnected := false
  relayManager := none
  relayAddrSet := ∅
  relayForward := ∅
  relayPendingTarget := ∅
  relayInbound := ∅
  kcpTransport := none
  reconnectManager := false
  localChannelSet := (cfg.channels.map (hashChannelName env)).toFinset

namespace Node

def id (n : Node) : Bytes := hexEncode n.identity.id

/-- Static relays are known under their text, and by the address it resolves to. -/
def startRelay (env : Env) (n : Node) : Node :=
  let resolved := n.config.relayNodes.filterMap fun text =>
    (env.resolveUDPAddr text).map (text, ·)
  { n with
    relayManager := some (resolved.foldl (fun relays (text, addr) => relays.set text addr) ∅)
    relayAddrSet := n.relayAddrSet ∪ (resolved.map Prod.snd).toFinset }

/-- `Start`, with the outcome of starting the KCP listener. -/
def start (env : Env) (n : Node) (kcpStarted : Bool) : Node :=
  { n.startRelay env with
    kcpTransport := if kcpStarted then some ⟨∅, ∅⟩ else none
    reconnectManager := n.config.enableReconnect }

def isChannelSubscribed (n : Node) (channelHash : Bytes) : Bool :=
  decide (channelHash.length = 32) && decide (channelHash ∈ n.localChannelSet)

def hasSession (n : Node) (peerID : Bytes) : Bool :=
  (n.kcpTransport.bind fun t => t.sessions.get peerID).isSome

/-- `UpgradePeer`; `dial` is the conversation id of the session that kcp-go returns, or `none`
for its error. A failed dial leaves no handler for the address, not even an earlier one. -/
def upgradePeer (n : Node) (peerID remoteAddr : Bytes) (dial : Option UInt32) : Node × Bool :=
  match n.kcpTransport with
  | none => (n, false)
  | some t =>
      let mux := (n.mux.registerKCPHandler remoteAddr).1
      let handler := (n.mux.registerKCPHandler remoteAddr).2
      match dial with
      | none => ({ n with mux := mux.unregisterKCPHandler remoteAddr }, false)
      | some conv =>
          ({ n with
              mux
              kcpTransport := some
                { t with
                  sessions := t.sessions.set peerID ⟨handler, conv, remoteAddr, false⟩
                  endpoints := t.endpoints.set handler conv }
              addrToPeer := n.addrToPeer.set remoteAddr peerID }, true)

def removeSession (n : Node) (peerID : Bytes) : Node :=
  match n.kcpTransport with
  | none => n
  | some t =>
      match t.sessions.get peerID with
      | none => n
      | some session =>
          { n with
            kcpTransport := some { t with sessions := t.sessions.delete peerID }
            mux := n.mux.unregisterKCPHandler session.peerAddr }

theorem upgradePeer_frame (n : Node) (peerID remoteAddr : Bytes) (dial : Option UInt32) :
    ∃ mux kcpTransport addrToPeer, (n.upgradePeer peerID remoteAddr dial).1 =
      { n with mux, kcpTransport, addrToPeer } := by
  unfold upgradePeer
  split
  · exact ⟨n.mux, n.kcpTransport, n.addrToPeer, rfl⟩
  · cases dial with
    | none => exact ⟨_, n.kcpTransport, n.addrToPeer, rfl⟩
    | some conv => exact ⟨_, _, _, rfl⟩

@[simp] theorem upgradePeer_peers (n : Node) (peerID remoteAddr : Bytes) (dial : Option UInt32) :
    (n.upgradePeer peerID remoteAddr dial).1.peers = n.peers := by
  rcases n.upgradePeer_frame peerID remoteAddr dial with ⟨mux, kcpTransport, addrToPeer, same⟩
  rw [same]

theorem upgradePeer_hasSession (n : Node) (peerID remoteAddr : Bytes) (dial : Option UInt32)
    (dialed : (n.upgradePeer peerID remoteAddr dial).2 = true) :
    (n.upgradePeer peerID remoteAddr dial).1.hasSession peerID = true := by
  unfold upgradePeer at dialed ⊢
  split at dialed
  · cases dialed
  · cases dial with
    | none => cases dialed
    | some conv =>
        simp only [hasSession, Option.bind_some, GoMap.get_set, if_true, Option.isSome_some]

theorem upgradePeer_addrToPeer (n : Node) (peerID remoteAddr : Bytes) (dial : Option UInt32) :
    (n.upgradePeer peerID remoteAddr dial).1.addrToPeer =
      if (n.upgradePeer peerID remoteAddr dial).2 then n.addrToPeer.set remoteAddr peerID
      else n.addrToPeer := by
  unfold upgradePeer
  split
  · rfl
  · cases dial <;> rfl

theorem removeSession_frame (n : Node) (peerID : Bytes) :
    ∃ mux kcpTransport, n.removeSession peerID = { n with mux, kcpTransport } := by
  unfold removeSession
  split
  · exact ⟨n.mux, n.kcpTransport, rfl⟩
  · split
    · exact ⟨n.mux, n.kcpTransport, rfl⟩
    · exact ⟨_, _, rfl⟩

end Node

inductive Side where
  | a
  | b
  deriving DecidableEq, Repr

namespace Side

def other : Side → Side
  | .a => .b
  | .b => .a

@[simp] theorem other_other (side : Side) : side.other.other = side := by
  cases side <;> rfl

theorem other_ne (side : Side) : side.other ≠ side := by
  cases side <;> decide

theorem eq_or_eq_other (side each : Side) : each = side ∨ each = side.other := by
  cases side <;> cases each <;> decide

end Side

end Tenet
