import Tenet.Lib.GoMap
import Tenet.Wire
import Mathlib.Data.Finset.Basic

/-! `transport/mux.go`: one UDP socket shared by several packet connections. -/

namespace Tenet

open Lib

/-- The virtual connections; dedicated KCP handlers are numbered in the order of registration. -/
inductive VirtualConn where
  | kcpConn
  | punchConn
  | tentConn
  | handler (id : Nat)
  deriving DecidableEq, Repr

def VirtualConn.bufferSize : VirtualConn → Nat
  | .kcpConn => 128
  | .punchConn => 16
  | .tentConn => 128
  | .handler _ => 128

/-- The connections that a KCP endpoint reads. -/
def VirtualConn.isKCP : VirtualConn → Bool
  | .kcpConn | .handler _ => true
  | .punchConn | .tentConn => false

structure Datagram where
  data : Bytes
  addr : Bytes
  deriving DecidableEq, Repr

structure UDPMux where
  kcpHandlers : GoMap Bytes Nat
  registered : Nat
  readChan : GoMap VirtualConn (List Datagram)

namespace UDPMux

def newUDPMux : UDPMux := ⟨∅, 0, ∅⟩

def queue (m : UDPMux) (conn : VirtualConn) : List Datagram := (m.readChan.get conn).getD []

def hasRoom (m : UDPMux) (conn : VirtualConn) : Bool :=
  decide ((m.queue conn).length < conn.bufferSize)

/-- A full queue drops the datagram. -/
def enqueuePacket (m : UDPMux) (conn : VirtualConn) (packet : Datagram) : UDPMux :=
  if m.hasRoom conn then { m with readChan := m.readChan.set conn (m.queue conn ++ [packet]) }
  else m

def isPunchPacket (data : Bytes) : Bool := data.take 4 == punchMagic

def isTentPacket (data : Bytes) : Bool := data.take 4 == magicBytes

def isProbePacket (data : Bytes) : Bool := data.take 4 == probeMagic

def isRawRelayPacket (data : Bytes) : Bool := data.head? == some 0x52

def kcpTarget (m : UDPMux) (addr : Bytes) : VirtualConn :=
  match m.kcpHandlers.get addr with
  | some id => .handler id
  | none => .kcpConn

/-- The choice that `routePacket` makes before it enqueues. -/
def target (m : UDPMux) (packet : Datagram) : VirtualConn :=
  if isPunchPacket packet.data then .punchConn
  else if isProbePacket packet.data || isTentPacket packet.data || isRawRelayPacket packet.data then
    .tentConn
  else m.kcpTarget packet.addr

def routePacket (m : UDPMux) (packet : Datagram) : UDPMux :=
  m.enqueuePacket (m.target packet) packet

/-- A second registration for an address replaces the first, which stays open. -/
def registerKCPHandler (m : UDPMux) (remoteAddr : Bytes) : UDPMux × Nat :=
  ({ m with
      kcpHandlers := m.kcpHandlers.set remoteAddr m.registered
      registered := m.registered + 1 }, m.registered)

def unregisterKCPHandler (m : UDPMux) (remoteAddr : Bytes) : UDPMux :=
  { m with kcpHandlers := m.kcpHandlers.delete remoteAddr }

def readFrom (m : UDPMux) (conn : VirtualConn) : UDPMux :=
  { m with readChan := m.readChan.set conn (m.queue conn).tail }

theorem kcpTarget_isKCP (m : UDPMux) (addr : Bytes) : (m.kcpTarget addr).isKCP = true := by
  unfold kcpTarget
  split <;> rfl

theorem queue_enqueuePacket (m : UDPMux) (conn other : VirtualConn) (packet : Datagram) :
    (m.enqueuePacket conn packet).queue other =
      if other = conn ∧ m.hasRoom conn then m.queue other ++ [packet] else m.queue other := by
  unfold enqueuePacket
  by_cases room : m.hasRoom conn = true
  · rw [if_pos room]
    by_cases same : other = conn
    · subst same
      simp only [queue, GoMap.get_set, if_true, Option.getD_some, room, and_self]
    · simp only [queue, GoMap.get_set, same, if_false, false_and]
  · rw [if_neg room, if_neg (fun both => room both.2)]

theorem queue_routePacket (m : UDPMux) (packet : Datagram) (conn : VirtualConn) :
    (m.routePacket packet).queue conn =
      if conn = m.target packet ∧ m.hasRoom conn then m.queue conn ++ [packet]
      else m.queue conn := by
  rw [routePacket, queue_enqueuePacket]
  by_cases same : conn = m.target packet
  · subst same
    rfl
  · simp only [same, false_and]

@[simp] theorem kcpHandlers_routePacket (m : UDPMux) (packet : Datagram) :
    (m.routePacket packet).kcpHandlers = m.kcpHandlers := by
  unfold routePacket enqueuePacket
  split <;> rfl

end UDPMux

end Tenet
