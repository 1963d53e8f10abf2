import Tenet.HandshakeStep
import Tenet.Lib.Run

/-! Two nodes that connect to each other over several TCP connections, one handshake on each. -/

namespace Tenet

open Lib

/-- The connections between the two nodes: who dialed each, the remote address that a node sees on
it, the ephemeral keys that are drawn on it, and the static keys of the nodes. A node uses one local
port for all its connections, so they differ in the remote address. -/
structure Dialing (k : Nat) where
  initiator : Fin k → Side
  addr : Side → Fin k → Bytes
  distinct : ∀ side, Function.Injective (addr side)
  ephemeral : Fin k → Key
  drawn : Fin k → Key
  key : Side → Key
  prologue : Bytes

namespace Dialing

variable {k : Nat} (d : Dialing k)

def responder (conn : Fin k) : Side := (d.initiator conn).other

def first (conn : Fin k) : Message := .one (d.ephemeral conn)

def second (conn : Fin k) : Message :=
  .two (d.first conn) d.prologue (d.drawn conn) (d.key (d.responder conn))

def third (conn : Fin k) : Message := .three (d.second conn) (d.key (d.initiator conn))

/-- Which node completes the handshake of a connection with its next delivery: the initiator with
the second, the responder with the third. -/
def completion (earlier : List (Fin k)) (conn : Fin k) : Option Side :=
  match earlier.count conn with
  | 1 => some (d.initiator conn)
  | 2 => some (d.responder conn)
  | _ => none

/-- The connection whose handshake a node completes last; the deliveries are given latest first. -/
def lastCompletion (side : Side) : List (Fin k) → Option (Fin k)
  | [] => none
  | conn :: earlier =>
      if d.completion earlier conn = some side then some conn else lastCompletion side earlier

end Dialing

/-- The nodes, what each connection carries in the order it was sent, with its destination, and the
connections that each node has closed. -/
structure TcpLinks (k : Nat) where
  node : Side → Node
  wire : Fin k → List (Side × Message)
  closed : Side → List ConnId

namespace TcpLinks

variable {k : Nat}

/-- The next message on a connection arrives. A handshake has one message on its way at a time. -/
def step (env : Env) (d : Dialing k) (s : TcpLinks k) (delivery : Fin k × Int) : TcpLinks k :=
  match s.wire delivery.1 with
  | [] => s
  | (side, message) :: rest =>
      let received := (s.node side).processHandshake env (some delivery.1.val)
        ⟨.tcp, d.addr side delivery.1⟩ .tcp message (d.drawn delivery.1) delivery.2
      { node := Function.update s.node side received.1
        wire := Function.update s.wire delivery.1
          (rest ++ (handshakeReplies received.2).map (side.other, ·))
        closed := Function.update s.closed side (s.closed side ++ closedConns received.2) }

def dialed (d : Dialing k) (node : Side → Node) : TcpLinks k where
  node := node
  wire conn := [(d.responder conn, d.first conn)]
  closed _ := []

/-- The sessions in use are the two ends of one handshake, and the connections they run on are open
on both nodes. -/
def Agreed (env : Env) (d : Dialing k) (s : TcpLinks k) : Prop :=
  ∃ atA atB sessionA sessionB,
    (s.node .a).peers.get (peerIDOf env (d.key .b)) = some atA ∧ atA.session = some sessionA ∧
    (s.node .b).peers.get (peerIDOf env (d.key .a)) = some atB ∧ atB.session = some sessionB ∧
    (EndsOf sessionA sessionB ∨ EndsOf sessionB sessionA) ∧
    ∀ conn, (atA.conn = some conn ∨ atB.conn = some conn) →
      conn ∉ s.closed .a ∧ conn ∉ s.closed .b

end TcpLinks

/-- The node is not connected to the other one over TCP: it knows it over UDP, or it has room. -/
def Node.OffTCP (n : Node) (peerID : Bytes) : Prop :=
  (n.peers.get peerID = none ∧ n.isFull = false) ∨
    ∃ p, n.peers.get peerID = some p ∧ p.transport = .udp

structure Node.Dialed {k : Nat} (env : Env) (d : Dialing k) (side : Side) (n : Node) : Prop where
  staticKey : n.identity.noisePublicKey = d.key side
  prologue : prologuePrefix ++ n.config.networkPassword = d.prologue
  offTCP : n.OffTCP (peerIDOf env (d.key side.other))
  dialing : ∀ conn, d.initiator conn = side →
    ∃ now, n.pendingHandshakes.get (.tcp, d.addr side conn) = some
      (newInitiatorHandshake n.identity.noisePublicKey n.config.networkPassword (d.ephemeral conn)
        now).1
  accepting : ∀ conn, d.initiator conn ≠ side →
    n.pendingHandshakes.get (.tcp, d.addr side conn) = none

end Tenet
