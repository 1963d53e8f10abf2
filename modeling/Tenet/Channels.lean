import Tenet.Receive
import Tenet.Lib.Run

/-! Channel subscriptions: `node/node_channel.go`, and two connected nodes that exchange them. -/

namespace Tenet

open Lib

inductive OpCode where
  | join
  | leave
  deriving DecidableEq, Repr

def OpCode.byte : OpCode → UInt8
  | .join => opCodeJoin
  | .leave => opCodeLeave

structure ChannelUpdate where
  opcode : OpCode
  name : Bytes
  deriving DecidableEq, Repr

def ChannelUpdate.hash (env : Env) (update : ChannelUpdate) : Bytes :=
  hashChannelName env update.name

/-- Opcode(1) and channel hash(32) -/
def ChannelUpdate.payload (env : Env) (update : ChannelUpdate) : Bytes :=
  update.opcode.byte :: update.hash env

namespace Node

def joinChannel (env : Env) (n : Node) (name : Bytes) : Node × Option ChannelUpdate :=
  if name ∈ n.config.channels then (n, none)
  else
    ({ n with
        config := { n.config with channels := n.config.channels ++ [name] }
        localChannelSet := insert (hashChannelName env name) n.localChannelSet },
      some ⟨.join, name⟩)

/-- `LeaveChannel`: the first entry of that name goes, and with it the hash. -/
def leaveChannel (env : Env) (n : Node) (name : Bytes) : Node × Option ChannelUpdate :=
  if name ∈ n.config.channels then
    ({ n with
        config := { n.config with channels := n.config.channels.erase name }
        localChannelSet := n.localChannelSet.erase (hashChannelName env name) },
      some ⟨.leave, name⟩)
  else (n, none)

def hasRemoteChannel (n : Node) (peerID channelHash : Bytes) : Bool :=
  match n.peers.get peerID with
  | some p => p.hasRemoteChannel channelHash
  | none => false

def getPeersInChannel (env : Env) (n : Node) (channelName : Bytes) : List Bytes :=
  n.peers.ids.filter fun id => n.hasRemoteChannel id (hashChannelName env channelName)

/-- The peer's record is new, and the set is what `NewNode` makes of the list. -/
structure Connected (env : Env) (n : Node) (peerID : Bytes) : Prop where
  listed : n.localChannelSet = (n.config.channels.map (hashChannelName env)).toFinset
  peer : ∃ p, n.peers.get peerID = some p ∧ p.remoteChannels = ∅

def receiveUpdate (env : Env) (n : Node) (peerID : Bytes) (update : ChannelUpdate) : Node :=
  match n.peers.get peerID with
  | none => n
  | some p =>
      { n with
        peers := n.peers.add
          (n.handleAppFrame peerID p (appFrameTypeChannelUpdate :: update.payload env)).1 }

end Node

inductive Task where
  /-- `syncChannelsWithPeer`, before it copies the channel list -/
  | syncChannels
  /-- the updates that it has still to send, one after the other -/
  | sendUpdates (updates : List ChannelUpdate)
  deriving DecidableEq, Repr

def Task.updates : Task → List ChannelUpdate
  | .syncChannels => []
  | .sendUpdates updates => updates

/-- A node, the peer that it is connected to, its goroutines, and its updates on their way. -/
structure Party where
  node : Node
  peerID : Bytes
  tasks : List Task
  inFlight : List ChannelUpdate

namespace Party

/-- `broadcastChannelUpdate`, as far as it concerns the peer: one more goroutine. -/
def broadcastChannelUpdate (party : Party) (changed : Node × Option ChannelUpdate) : Party :=
  { party with
    node := changed.1
    tasks := party.tasks ++
      if party.peerID ∈ changed.1.peers.ids then
        changed.2.toList.map fun update => .sendUpdates [update]
      else [] }

def resume (party : Party) (index : Nat) : Party :=
  match party.tasks[index]? with
  | none => party
  | some .syncChannels =>
      { party with
        tasks := party.tasks.set index
          (.sendUpdates (party.node.config.channels.map fun name => ⟨.join, name⟩)) }
  | some (.sendUpdates []) => { party with tasks := party.tasks.eraseIdx index }
  | some (.sendUpdates (update :: rest)) =>
      { party with
        tasks := party.tasks.set index (.sendUpdates rest)
        inFlight := party.inFlight ++ [update] }

def unsent (party : Party) : List ChannelUpdate := party.tasks.flatMap Task.updates

def sends (party : Party) (index : Nat) : Option ChannelUpdate :=
  (party.tasks[index]?).bind fun task => task.updates.head?

/-- If the update is the newest about its channel, no older one that says the opposite is unsent. -/
def InTurn (env : Env) (party : Party) (index : Nat) (update : ChannelUpdate) : Prop :=
  (∀ newer ∈ ((party.tasks.drop index).flatMap Task.updates).tail,
      newer.hash env ≠ update.hash env) →
    ∀ older ∈ (party.tasks.take index).flatMap Task.updates,
      older.hash env = update.hash env → older.opcode = update.opcode

instance (env : Env) (party : Party) (index : Nat) (update : ChannelUpdate) :
    Decidable (party.InTurn env index update) :=
  inferInstanceAs (Decidable ((∀ newer ∈ _, _ ≠ _) → ∀ older ∈ _, _ = _ → _ = _))

def Announcing (env : Env) (party : Party) (channelHash : Bytes) : Prop :=
  (∃ update ∈ party.unsent ++ party.inFlight, update.hash env = channelHash) ∨
    (.syncChannels ∈ party.tasks ∧ channelHash ∈ party.node.localChannelSet)

instance (env : Env) (party : Party) (channelHash : Bytes) :
    Decidable (party.Announcing env channelHash) := by
  unfold Announcing
  infer_instance

end Party

abbrev Link := Side → Party

inductive ChannelEvent where
  | joinChannel (side : Side) (name : Bytes)
  | leaveChannel (side : Side) (name : Bytes)
  | resume (side : Side) (index : Nat)
  | deliver (sender : Side)
  deriving DecidableEq, Repr

namespace Link

def update (link : Link) (side : Side) (party : Party) : Link := Function.update link side party

def deliver (env : Env) (link : Link) (sender : Side) : Link :=
  match (link sender).inFlight with
  | [] => link
  | first :: rest =>
      let receiver := link sender.other
      (link.update sender { link sender with inFlight := rest }).update sender.other
        { receiver with node := receiver.node.receiveUpdate env receiver.peerID first }

def step (env : Env) (link : Link) : ChannelEvent → Link
  | .joinChannel side name => link.update side
      ((link side).broadcastChannelUpdate ((link side).node.joinChannel env name))
  | .leaveChannel side name => link.update side
      ((link side).broadcastChannelUpdate ((link side).node.leaveChannel env name))
  | .resume side index => link.update side ((link side).resume index)
  | .deliver sender => link.deliver env sender

def connected (a b : Node) (peerOfA peerOfB : Bytes) : Link
  | .a => ⟨a, peerOfA, [.syncChannels], []⟩
  | .b => ⟨b, peerOfB, [.syncChannels], []⟩

def Quiet (link : Link) : Prop :=
  ∀ side, (link side).inFlight = [] ∧ ∀ task ∈ (link side).tasks, task = .sendUpdates []

/-- On every channel of either side, the other is listed exactly if it is in the channel too. -/
def ViewsAgree (env : Env) (link : Link) : Prop :=
  ∀ side channelName,
    (link side).node.isChannelSubscribed (hashChannelName env channelName) = true →
      ((link side).peerID ∈ (link side).node.getPeersInChannel env channelName ↔
        (link side.other).node.isChannelSubscribed (hashChannelName env channelName) = true)

/-- A node joins a channel only when it will still hear from the peer about it, or already knows, it
leaves one only when no other entry has its hash, and its goroutines send their updates in turn. -/
def Allows (env : Env) (link : Link) : ChannelEvent → Prop
  | .joinChannel side name =>
      name ∉ (link side).node.config.channels →
        (link side.other).Announcing env (hashChannelName env name) ∨
          (link side).node.hasRemoteChannel (link side).peerID (hashChannelName env name) =
            decide (hashChannelName env name ∈ (link side.other).node.localChannelSet)
  | .leaveChannel side name =>
      name ∈ (link side).node.config.channels →
        ∀ other ∈ (link side).node.config.channels.erase name,
          hashChannelName env other ≠ hashChannelName env name
  | .resume side index => ∀ update ∈ (link side).sends index, (link side).InTurn env index update
  | .deliver _ => True

instance (env : Env) (link : Link) (event : ChannelEvent) : Decidable (Allows env link event) := by
  cases event <;> unfold Allows <;> infer_instance

end Link

end Tenet
