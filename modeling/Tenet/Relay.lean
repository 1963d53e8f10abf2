import Tenet.Heartbeat
import Tenet.RelayAuth

/-! Relaying: `node/relay_handler.go`, and the UDP reader of `node/udp_io.go` in front of it. -/

namespace Tenet

open Lib

/-- [Mode(1)] [AddrLen(1)] [Addr] [AuthTokenLen(1)] [AuthToken] [Inner] -/
structure RelayPacket where
  mode : UInt8
  addr : Bytes
  authToken : Bytes
  inner : Bytes
  deriving DecidableEq, Repr

def parseRelayPacket (payload : Bytes) : Option RelayPacket :=
  if payload.length < 3 then none
  else
    let addrLen := (payload.getD 1 0).toNat
    if payload.length < 2 + addrLen + 1 then none
    else
      let authTokenLen := (payload.getD (2 + addrLen) 0).toNat
      if payload.length < 2 + addrLen + 1 + authTokenLen then none
      else some
        { mode := payload.getD 0 0
          addr := (payload.drop 2).take addrLen
          authToken := (payload.drop (2 + addrLen + 1)).take authTokenLen
          inner := payload.drop (2 + addrLen + 1 + authTokenLen) }

namespace Node

def relayAuth (n : Node) : RelayAuthConfig :=
  ⟨n.config.enableRelayAuth, n.config.relayAuthTTL, n.config.networkPassword⟩

/-- The token that this node puts in front of what it relays; the target's ID is left zero. -/
def relayToken (env : Env) (n : Node) (now : Int) : Bytes :=
  if n.config.enableRelayAuth then
    match generateTokenWithHMAC env n.relayAuth n.identity.id (List.replicate 16 0) now with
    | none => []
    | some token => token.encode.take 255
  else []

def buildRelayPacket (env : Env) (n : Node) (mode : UInt8) (targetAddr inner : Bytes) (now : Int) :
    Option Bytes :=
  if targetAddr.length > 255 then none
  else some (tentPacket packetTypeRelay
    (mode :: UInt8.ofNat targetAddr.length :: targetAddr ++
      UInt8.ofNat (n.relayToken env now).length :: n.relayToken env now ++ inner))

/-- Forwarding mode: replies of the target will go to the origin. -/
def relayForwardTo (env : Env) (n : Node) (origin target inner : Bytes) (now : Int) :
    Node × List Effect :=
  ({ n with relayForward := n.relayForward.set target origin },
    ((n.buildRelayPacket env relayModeTarget target inner now).map (.writeToUDP target)).toList)

/-- Target mode: the inner packet is handled as if it came from the relay over UDP. -/
def relayDeliver (n : Node) (origin inner : Bytes) : Node × List Effect :=
  if isTent inner then
    ({ n with relayInbound := insert origin n.relayInbound },
      [.handlePacket ⟨.udp, origin⟩ .udp (inner.getD 4 0) (inner.drop 5)])
  else (n, [])

/-- The checks in front of any effect: the packet and the address its target resolves to. The
token is looked at only where the packet says that it has one. -/
def admitRelayPacket (env : Env) (n : Node) (payload : Bytes) (now : Int) :
    Option (RelayPacket × Bytes) :=
  if n.config.enableRelay then
    match parseRelayPacket payload with
    | none => none
    | some packet =>
        if packet.inner.length = 0 then none
        else if n.config.enableRelayAuth ∧ packet.authToken.length > 0 ∧
            acceptsToken env n.relayAuth packet.authToken now = false then none
        else (env.resolveUDPAddr packet.addr).map (packet, ·)
  else none

def handleRelayPacket (env : Env) (n : Node) (origin payload : Bytes) (now : Int) :
    Node × List Effect :=
  match n.admitRelayPacket env payload now with
  | none => (n, [])
  | some (packet, targetAddr) =>
      if packet.mode = relayModeForward then
        n.relayForwardTo env origin targetAddr packet.inner now
      else if packet.mode = relayModeTarget then n.relayDeliver origin packet.inner
      else (n, [])

def handleRead (env : Env) (n : Node) (addr data : Bytes) (now : Int) : Node × List Effect :=
  if data.length < 4 then (n, [])
  else if data.take 4 = probeMagic then (n, [.handleProbePacket addr data])
  else if isTent data then
    if data.getD 4 0 = packetTypeRelay then n.handleRelayPacket env addr (data.drop 5) now
    else match (if n.config.enableRelay then n.relayForward.get addr else none) with
      | some originAddr => (n, [.writeToUDP originAddr data])
      | none => (n, [.handlePacket ⟨.udp, addr⟩ .udp (data.getD 4 0) (data.drop 5)])
  else (n, [])

end Node

theorem relayDeliver_tables (n : Node) (origin inner : Bytes) :
    (n.relayDeliver origin inner).1.peers = n.peers ∧
      (n.relayDeliver origin inner).1.addrToPeer = n.addrToPeer ∧
      SameRelaying (n.relayDeliver origin inner).1 n := by
  unfold Node.relayDeliver
  split
  · exact ⟨rfl, rfl, rfl, rfl⟩
  · exact ⟨rfl, rfl, rfl, rfl⟩

def Node.forwardTarget (env : Env) (n : Node) (payload : Bytes) (now : Int) : Option Bytes :=
  match n.admitRelayPacket env payload now with
  | none => none
  | some (packet, targetAddr) => if packet.mode = relayModeForward then some targetAddr else none

theorem handleRelayPacket_tables (env : Env) (n : Node) (origin payload : Bytes) (now : Int) :
    (n.handleRelayPacket env origin payload now).1.peers = n.peers ∧
    (n.handleRelayPacket env origin payload now).1.addrToPeer = n.addrToPeer ∧
    (n.handleRelayPacket env origin payload now).1.config = n.config ∧
    (n.handleRelayPacket env origin payload now).1.relayForward =
      match n.forwardTarget env payload now with
      | some target => n.relayForward.set target origin
      | none => n.relayForward := by
  unfold Node.handleRelayPacket Node.forwardTarget
  cases n.admitRelayPacket env payload now with
  | none => exact ⟨rfl, rfl, rfl, rfl⟩
  | some admitted =>
      rcases admitted with ⟨packet, target⟩
      by_cases forward : packet.mode = relayModeForward
      · simp only [forward, if_true]
        exact ⟨rfl, rfl, rfl, rfl⟩
      · simp only [forward, if_false]
        split
        · rcases relayDeliver_tables n origin packet.inner with ⟨peers, table, relaying, config⟩
          exact ⟨peers, table, config, relaying⟩
        · exact ⟨rfl, rfl, rfl, rfl⟩

theorem handleRelayPacket_eq (env : Env) (n : Node) (origin payload : Bytes) (now : Int) :
    ∃ relayForward relayInbound,
      (n.handleRelayPacket env origin payload now).1 = { n with relayForward, relayInbound } := by
  have unchanged : ∃ relayForward relayInbound, n = { n with relayForward, relayInbound } :=
    ⟨n.relayForward, n.relayInbound, rfl⟩
  unfold Node.handleRelayPacket
  split
  · exact unchanged
  · split
    · exact ⟨_, n.relayInbound, rfl⟩
    · split
      · unfold Node.relayDeliver
        split
        · exact ⟨n.relayForward, _, rfl⟩
        · exact unchanged
      · exact unchanged

theorem handleRelayPacket_frame (env : Env) (n : Node) (origin payload : Bytes) (now : Int) :
    (n.handleRelayPacket env origin payload now).1.identity = n.identity ∧
      (n.handleRelayPacket env origin payload now).1.pendingHandshakes = n.pendingHandshakes := by
  obtain ⟨_, _, same⟩ := handleRelayPacket_eq env n origin payload now
  rw [same]
  exact ⟨rfl, rfl⟩

end Tenet
