import Tenet.Attribution

/-! Networks apart by their password, which is the end of the Noise prologue (`crypto/noise.go`): any
number of nodes of any networks, whatever they do, with everybody else free to send what can be made
without the password. -/

namespace Tenet

open Lib Run

/-- Message 2 and message 3 are encrypted with a hash that the prologue went into. -/
def Message.madeWith : Message → Option Bytes
  | .two _ prologue _ _ => some prologue
  | .three (.two _ prologue _ _) _ => some prologue
  | _ => none

def Message.shows : Message → Option Key
  | .one _ => none
  | .two _ _ _ static => some static
  | .three _ static => some static

def HandshakeState.Under (prologue : Bytes) (key : Key) (hs : HandshakeState) : Prop :=
  hs.prologue = prologue ∧ hs.staticKey = key ∧
    ∀ sent, hs.stage = .awaitThree sent → (Message.three sent key).madeWith = some prologue

theorem HandshakeState.Under.processMessage {prologue : Bytes} {key : Key} {hs after : HandshakeState}
    {payload : Message} {response : Option Message} {session : Option Session}
    (under : hs.Under prologue key)
    (processed : hs.processMessage payload = some (after, response, session)) :
    after.Under prologue key ∧
      (∀ message ∈ response, message.madeWith = some prologue ∧ message.shows = some key) ∧
      ∀ established ∈ session, payload.madeWith = some prologue ∧
        established.remoteStaticKey = payload.shows := by
  obtain ⟨named, static, waiting⟩ := under
  unfold HandshakeState.processMessage at processed
  split at processed
  · cases processed
  · split at processed
    · cases processed
      refine ⟨⟨named, static, ?_⟩, ?_, nofun⟩
      · rintro _ ⟨⟩
        exact congrArg some named
      · rintro _ ⟨⟩
        exact ⟨congrArg some named, congrArg some static⟩
    · split at processed
      · next same =>
          cases processed
          have bound := same.2.trans named
          refine ⟨⟨named, static, waiting⟩, ?_, ?_⟩
          · rintro _ ⟨⟩
            exact ⟨congrArg some bound, congrArg some static⟩
          · rintro _ ⟨⟩
            exact ⟨congrArg some bound, rfl⟩
      · cases processed
    · next sent answered remote stage =>
        split at processed
        · next same =>
            cases processed
            refine ⟨⟨named, static, waiting⟩, nofun, ?_⟩
            rintro _ ⟨⟩
            have bound := waiting sent stage
            rw [← same] at bound
            refine ⟨?_, rfl⟩
            cases answered <;> exact bound
        · cases processed
    · cases processed

section Password

variable (env : Env) (aead : Aead) (n : Node)

theorem removePeerWithReconnect_config (peerID : Bytes) (shouldReconnect : Bool) :
    (n.removePeerWithReconnect peerID shouldReconnect).1.config = n.config := by
  obtain ⟨_, _, _, _, same⟩ := removePeerWithReconnect_frame n peerID shouldReconnect
  rw [same]

theorem fastRehandshake_config (cfg : FastRehandshakeConfig) (peerID : Bytes) (removed : Option Peer)
    (closing accepted : Bool) (ephemeral : Key) (now : Int) :
    (n.fastRehandshake cfg peerID removed closing accepted ephemeral now).1.config = n.config := by
  unfold Node.fastRehandshake
  split
  · rfl
  · next p _ =>
      obtain ⟨_, _, _, _, givesUp, ran, _⟩ :=
        runFastRehandshake_cases cfg n p closing accepted ephemeral now
      simp only [ran]
      cases givesUp with
      | false => cases removed <;> rfl
      | true =>
          simp only [if_true, removePeerWithReconnect_config]
          cases removed <;> rfl

theorem sendAppFrame_config (peerID : Bytes) (appFrameType : UInt8) (data : Bytes)
    (dial : Option UInt32) (accepts : Nat → Bool) :
    (n.sendAppFrame aead peerID appFrameType data dial accepts).1.config = n.config := by
  have chosen (p : Peer) : (n.sendPath p dial).1.config = n.config := by
    obtain ⟨_, _, _, frame⟩ := n.sendPath_frame p dial
    rw [frame]
  unfold Node.sendAppFrame
  split
  · rfl
  · split
    · rfl
    · next p _ =>
        split
        · rfl
        · have same := chosen p
          split
          · next path => rwa [path] at same
          · next path =>
              rw [path] at same
              exact same

theorem perform_password (activity : Activity) :
    (n.perform env aead activity).1.config.networkPassword = n.config.networkPassword := by
  cases activity with
  | onReceive => rfl
  | joinChannel name =>
      simp only [Node.perform, Node.joinChannel]
      split <;> rfl
  | leaveChannel name =>
      simp only [Node.perform, Node.leaveChannel]
      split <;> rfl
  | connect remoteUDPAddr remoteTCPAddr udpEphemeral tcpEphemeral now => rfl
  | connectViaRelay relayAddr targetAddr ephemeral now => rfl
  | triggerFastRehandshake cfg peerID now =>
      simp only [Node.perform]
      rcases triggerFastRehandshake_cases cfg n peerID now with
        refused | ⟨_, _, _, _, refused | started | removed⟩
      · rw [refused]
      · rw [refused]
      · rw [started]
      · rw [removed, removePeerWithReconnect_config]
  | runFastRehandshake cfg peerID removed closing accepted ephemeral now =>
      rw [Node.perform, fastRehandshake_config]
  | expire stateKey => rfl
  | handshake conn remoteAddr transport payload ephemeral now =>
      rw [Node.perform,
        (processHandshake_tables env n conn remoteAddr transport payload ephemeral now).2.config]
  | relayPacket origin payload now =>
      rw [Node.perform, (handleRelayPacket_tables env n origin payload now).2.2.1]
  | heartbeat conn remoteAddr transport now timestamp =>
      rcases processHeartbeat_eq n conn remoteAddr transport now timestamp with
        same | ⟨id, p, _, seen⟩
      · rw [Node.perform, same]
      · rw [Node.perform, seen]
  | heartbeatAck remoteAddr now =>
      simp only [Node.perform, Node.processHeartbeatAck]
      split <;> rfl
  | upgradePeer peerID remoteAddr dial =>
      obtain ⟨_, _, _, dialed⟩ := n.upgradePeer_frame peerID remoteAddr dial
      rw [Node.perform, dialed]
  | removePeer peerID shouldReconnect => rw [Node.perform, removePeerWithReconnect_config]
  | cleanupStaleMappings now => rfl
  | sendAppFrame peerID appFrameType data dial accepts =>
      simp only [Node.perform, sendAppFrame_config]
  | data remoteAddr payload =>
      rcases processData_cases aead n remoteAddr payload with
        same | ⟨_, _, _, ⟨_, _, failed⟩ | ⟨_, _, _, dispatched⟩⟩
      · rw [Node.perform, same]
      · rw [Node.perform, failed]
      · rw [Node.perform, dispatched]

end Password

/-- Nodes of any networks, what they have answered to handshakes, and the calls of their callbacks. -/
structure Overlay (I : Type) where
  node : I → Node
  wire : List Message
  received : I → List (Bytes × Bytes)

namespace Overlay

variable {I : Type}

/-- The messages 2 and 3 among the effects of an activity; what a node sends by itself is message 1,
which anybody can send. -/
def answers : Activity → List Effect → List Message
  | .handshake .., effects => handshakeReplies effects
  | _, _ => []

def start (env : Env) (cfg : I → Config) (identity : I → Identity) (kcpStarted : Bool) : Overlay I where
  node i := startedNode env (cfg i) (identity i) kcpStarted
  wire := []
  received _ := []

def step [DecidableEq I] (env : Env) (aead : Aead) (s : Overlay I) (event : I × Activity) :
    Overlay I :=
  let done := (s.node event.1).perform env aead event.2
  { node := Function.update s.node event.1 done.1
    wire := s.wire ++ answers event.2 done.2
    received := Function.update s.received event.1 (s.received event.1 ++ deliveries done.2) }

def arriving : Activity → Option Message
  | .handshake _ _ _ payload _ _ => some payload
  | _ => none

/-- The password is known to nobody but the nodes that have it: a message that was made with it comes
from one of them, by whatever way and as often as one likes. Nothing else is asked of what arrives. -/
def Secret (password : Bytes) (s : Overlay I) (event : I × Activity) : Prop :=
  ∀ payload ∈ arriving event.2, payload.madeWith = some (prologuePrefix ++ password) →
    payload ∈ s.wire

instance decidableSecret (password : Bytes) (s : Overlay I) (event : I × Activity) :
    Decidable (s.Secret password event) :=
  inferInstanceAs (Decidable (∀ payload ∈ arriving event.2,
    payload.madeWith = some (prologuePrefix ++ password) → payload ∈ s.wire))

section

variable (cfg : I → Config) (identity : I → Identity)

def Holder (password : Bytes) (key : Key) : Prop :=
  ∃ j, (cfg j).networkPassword = password ∧ (identity j).noisePublicKey = key

/-- Every record is of a node with the password, and so is every callback. -/
structure Apart (env : Env) (password : Bytes) (n : Node) (received : List (Bytes × Bytes)) : Prop where
  stored : ∀ id p, n.peers.get id = some p → ∃ key, Holder cfg identity password key ∧
    id = peerIDOf env key ∧ ∀ keys, p.keys = some keys → keys.2.2 = some key
  received : ∀ call ∈ received, ∃ key, Holder cfg identity password key ∧ call.1 = peerIDOf env key

structure Own (i : I) (n : Node) : Prop where
  password : n.config.networkPassword = (cfg i).networkPassword
  key : n.identity.noisePublicKey = (identity i).noisePublicKey
  pending : ∀ stateKey hs, n.pendingHandshakes.get stateKey = some hs →
    hs.Under (prologuePrefix ++ (cfg i).networkPassword) (identity i).noisePublicKey

structure Isolated (env : Env) (password : Bytes) (s : Overlay I) : Prop where
  own : ∀ i, Own cfg identity i (s.node i)
  wire : ∀ message ∈ s.wire, message.madeWith = some (prologuePrefix ++ password) →
    ∃ key, message.shows = some key ∧ Holder cfg identity password key
  apart : ∀ i, (cfg i).networkPassword = password →
    Apart cfg identity env password (s.node i) (s.received i)

end

section Invariant

variable {cfg : I → Config} {identity : I → Identity} {env : Env} {aead : Aead} {password : Bytes}
  {i : I} {n : Node}

theorem Own.pendingHandshake (own : Own cfg identity i n) (stateKey : Transport × Bytes)
    (ephemeral : Key) (now : Int) : (n.pendingHandshake stateKey ephemeral now).Under
      (prologuePrefix ++ (cfg i).networkPassword) (identity i).noisePublicKey := by
  cases pending : n.pendingHandshakes.get stateKey with
  | none =>
      simp only [Node.pendingHandshake, pending, Option.getD_none]
      refine ⟨congrArg (prologuePrefix ++ ·) own.password, own.key, ?_⟩
      intro sent stage
      cases stage
  | some hs =>
      simp only [Node.pendingHandshake, pending, Option.getD_some]
      exact own.pending stateKey hs pending

theorem Own.perform (own : Own cfg identity i n) (activity : Activity) :
    Own cfg identity i (n.perform env aead activity).1 := by
  obtain ⟨same, pending⟩ := perform_pending env aead n activity
  refine ⟨(perform_password env aead n activity).trans own.password, same ▸ own.key, ?_⟩
  intro stateKey hs found
  rcases pending stateKey hs found with
    before | ⟨ephemeral, now, rfl⟩ |
      ⟨ephemeral, now, rfl | ⟨payload, response, session, processed⟩⟩
  · exact own.pending stateKey hs before
  · refine ⟨congrArg (prologuePrefix ++ ·) own.password, own.key, ?_⟩
    intro sent stage
    cases stage
  · exact own.pendingHandshake stateKey ephemeral now
  · exact ((own.pendingHandshake stateKey ephemeral now).processMessage processed).1

theorem Own.answers (own : Own cfg identity i n) (activity : Activity) :
    ∀ message ∈ answers activity (n.perform env aead activity).2,
      message.madeWith = some (prologuePrefix ++ (cfg i).networkPassword) ∧
        message.shows = some (identity i).noisePublicKey := by
  intro message member
  cases activity with
  | handshake conn remoteAddr transport payload ephemeral now =>
      simp only [Overlay.answers, Node.perform, processHandshake_replies, Option.mem_toList,
        Option.bind_eq_some_iff] at member
      obtain ⟨⟨after, response, session⟩, processed, answered⟩ := member
      exact ((own.pendingHandshake _ ephemeral now).processMessage processed).2.1 message answered
  | _ => cases member

theorem Apart.perform {received : List (Bytes × Bytes)} {wire : List Message} {activity : Activity}
    (apart : Apart cfg identity env password n received) (own : Own cfg identity i n)
    (inside : (cfg i).networkPassword = password)
    (sent : ∀ message ∈ wire, message.madeWith = some (prologuePrefix ++ password) →
      ∃ key, message.shows = some key ∧ Holder cfg identity password key)
    (secret : ∀ payload ∈ arriving activity,
      payload.madeWith = some (prologuePrefix ++ password) → payload ∈ wire) :
    Apart cfg identity env password (n.perform env aead activity).1
      (received ++ deliveries (n.perform env aead activity).2) := by
  have followed {id : Bytes} {q : Peer} (earlier : ∃ p, n.peers.get id = some p ∧ Follows p q) :
      ∃ key, Holder cfg identity password key ∧ id = peerIDOf env key ∧
        ∀ keys, q.keys = some keys → keys.2.2 = some key := by
    obtain ⟨p, before, follows⟩ := earlier
    rw [follows.keys]
    exact apart.stored id p before
  rcases perform_sources env aead n activity with
    ⟨kept, silent⟩ | ⟨conn, remoteAddr, transport, payload, ephemeral, now, hs, response, session,
      rfl, finished, rekeyed, silent⟩ | ⟨peerID, p, session, cipher, payload, frame, opened⟩
  · refine ⟨fun id q found => followed (kept id q found), ?_⟩
    rw [silent, List.append_nil]
    exact apart.received
  · refine ⟨?_, ?_⟩
    · intro id q found
      rcases rekeyed id q found with before | ⟨named, keyed, _⟩
      · exact followed before
      · obtain ⟨made, shown⟩ := ((own.pendingHandshake (transport, remoteAddr.text) ephemeral
          now).processMessage finished).2.2 session rfl
        rw [inside] at made
        obtain ⟨key, shows, holder⟩ := sent payload (secret payload rfl made) made
        rw [shows] at shown
        refine ⟨key, holder, ?_, ?_⟩
        · rw [named, Session.remotePublicKey, shown]
          rfl
        · intro keys has
          rw [Peer.keys, keyed] at has
          cases has
          exact shown
    · rw [silent, List.append_nil]
      exact apart.received
  · obtain ⟨r, peers, named, sameKeys, _⟩ := opened.record
    have here := apart.stored peerID p opened.stored
    refine ⟨?_, ?_⟩
    · intro id q found
      rw [peers, PeerStore.get_add] at found
      split at found
      · next same =>
          cases found
          rw [same, named, n.peers.get_id peerID p opened.stored, sameKeys]
          exact here
      · exact apart.stored id q found
    · refine List.forall_mem_append.mpr ⟨apart.received, ?_⟩
      intro call called
      rw [opened.calls] at called
      cases output : (Fragment.step maxReassemblySize p.reassemblyBuffer frame).2 with
      | none =>
          rw [output] at called
          cases called
      | some whole =>
          rw [output, Option.toList_some, List.flatMap_singleton] at called
          obtain ⟨key, holder, id, _⟩ := here
          exact ⟨key, holder, (Attribution.callbacks_user called).1.trans id⟩

theorem isolated_step [DecidableEq I] {s : Overlay I} (isolated : Isolated cfg identity env password s)
    (event : I × Activity) (secret : s.Secret password event) :
    Isolated cfg identity env password (step env aead s event) := by
  obtain ⟨i, activity⟩ := event
  have own := isolated.own i
  constructor
  · exact (Function.forall_update_iff s.node (Own cfg identity)).mpr
      ⟨own.perform activity, fun j _ => isolated.own j⟩
  · refine List.forall_mem_append.mpr ⟨isolated.wire, ?_⟩
    intro message member made
    obtain ⟨ownPassword, shows⟩ := own.answers activity message member
    rw [made] at ownPassword
    have inside := List.append_cancel_left (Option.some.inj ownPassword)
    exact ⟨_, shows, i, inside.symm, rfl⟩
  · intro j inside
    by_cases here : j = i
    · subst here
      simp only [step, Function.update_self]
      exact (isolated.apart j inside).perform own inside isolated.wire secret
    · simp only [step, Function.update_of_ne here]
      exact isolated.apart j inside

end Invariant

/-- Strangers stay out. If the password is known only to the nodes that have it, then in every run, with
any of the activities of any of the nodes in any order and any messages from elsewhere, a node with the
password has records of nodes with the password only, with sessions under their keys, and hands its
callback nothing from anybody else. -/
theorem strangers_kept_out [DecidableEq I] (env : Env) (aead : Aead) (cfg : I → Config)
    (identity : I → Identity) (kcpStarted : Bool) (password : Bytes) (events : List (I × Activity))
    (secret : Along (step env aead) (Secret password) (start env cfg identity kcpStarted) events)
    (i : I) (inside : (cfg i).networkPassword = password) :
    Apart cfg identity env password
      ((run (step env aead) (start env cfg identity kcpStarted) events).node i)
      ((run (step env aead) (start env cfg identity kcpStarted) events).received i) := by
  have initially : Isolated cfg identity env password (start env cfg identity kcpStarted) := by
    refine ⟨fun j => ⟨rfl, rfl, ?_⟩, nofun, fun j _ => ⟨?_, nofun⟩⟩
    · nofun
    · intro id p found
      rw [start, startedNode_peers] at found
      cases found
  have isolated := run_keeps _ events initially secret fun _ event holds allowed =>
    isolated_step holds event allowed
  exact isolated.apart i inside

namespace Example

def cfg (i : Nat) : Config := { defaultConfig with networkPassword := if i = 2 then [9] else [1] }

def identity (i : Nat) : Identity := newIdentity .padded [UInt8.ofNat i]

def events : List (Nat × Activity) :=
  [(0, .connect [20] [20] [5] [6] 0), (2, .connect [10] [10] [7] [7] 0),
    (0, .handshake none ⟨.udp, [30]⟩ .udp (.one [7]) [8] 0),
    (2, .handshake none ⟨.udp, [10]⟩ .udp (.two (.one [7]) (prologuePrefix ++ [1]) [8] [0]) [7] 0),
    (0, .handshake none ⟨.udp, [30]⟩ .udp
      (.three (.two (.one [7]) (prologuePrefix ++ [9]) [8] [0]) [2]) [8] 0),
    (1, .handshake none ⟨.udp, [10]⟩ .udp (.one [5]) [4] 0),
    (0, .handshake none ⟨.udp, [20]⟩ .udp (.two (.one [5]) (prologuePrefix ++ [1]) [4] [1]) [5] 0)]

theorem strangers_kept_out_three :
    ((run (step .padded IdealAead.tagged.toAead) (start .padded cfg identity true) events).node
        0).peers.ids = [peerIDOf .padded [1]] ∧
      Apart cfg identity .padded [1]
        ((run (step .padded IdealAead.tagged.toAead) (start .padded cfg identity true) events).node 0)
        ((run (step .padded IdealAead.tagged.toAead) (start .padded cfg identity true)
          events).received 0) :=
  ⟨by decide +kernel, strangers_kept_out .padded IdealAead.tagged.toAead cfg identity true [1] events
    (by decide +kernel) 0 rfl⟩

end Example

end Overlay

end Tenet
