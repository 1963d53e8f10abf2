import Tenet.Delivery
import Tenet.KcpRegistry

/-! `sendAppFrame` over a transport that may refuse a write: the nonce counters at the two ends of a
session, and what becomes of the calls behind a failed one. -/

namespace Tenet

open Lib ByteStream

/-- One call of `sendAppFrame`, with the outcomes of its dial and of its writes. -/
structure SendCall where
  appFrameType : UInt8
  data : Bytes
  dial : Option UInt32
  accepts : Nat → Bool

namespace SendCall

def payload (call : SendCall) : Bytes := call.appFrameType :: call.data

def fragments (call : SendCall) : List (Fragment.Frame UInt8) :=
  Fragment.split maxPayloadSize call.payload

end SendCall

inductive LineEvent where
  | sendAppFrame (call : SendCall)
  /-- the KCP session of the peer is dropped, so that the next call dials -/
  | removeSession
  | handleSessionEnds (handler : Nat)

/-- A sender and its receiver, with the payloads of the calls that returned nil and the application
frames that the receiver handed on. -/
structure OneWay where
  sender : Node
  receiver : Node
  returned : List Bytes
  handed : List Bytes

def handOver (aead : Aead) (addr : Bytes) (state : Node × List Bytes) (packetType : UInt8)
    (payload : Bytes) : Node × List Bytes :=
  if packetType = packetTypeData then
    ((state.1.processData aead addr payload).1,
      state.2 ++ (state.1.handedFrame aead addr payload).toList)
  else state

/-- A frame is read at the other end of the stream into which it was written. -/
def deliver (aead : Aead) (addr : Bytes) (state : Node × List Bytes) : Effect → Node × List Bytes
  | .write stream frame => (stream.reader (handOver aead addr) state [.data frame]).1
  | _ => state

def OneWay.step (aead : Aead) (peerID addr : Bytes) (s : OneWay) : LineEvent → OneWay
  | .sendAppFrame call =>
      let sent := s.sender.sendAppFrame aead peerID call.appFrameType call.data call.dial call.accepts
      let read := sent.2.1.foldl (deliver aead addr) (s.receiver, s.handed)
      { sender := sent.1
        receiver := read.1
        returned := if sent.2.2 = none then s.returned ++ [call.payload] else s.returned
        handed := read.2 }
  | .removeSession => { s with sender := s.sender.removeSession peerID }
  | .handleSessionEnds handler => { s with sender := s.sender.handleSessionEnds handler }

namespace Node

def takesWrite (n : Node) (path : SendPath) (accepted : Bool) : Bool :=
  match path with
  | .tcp _ => accepted
  | .kcp peerID =>
      match n.kcpSession peerID with
      | none => false
      | some session => !session.closed && accepted

/-- The node and the path with which a call reaches its writes, unless it fails before. -/
def sendRoute (n : Node) (peerID : Bytes) (dial : Option UInt32) : Option (Node × SendPath) :=
  if peerID = n.id then none
  else (n.peers.get peerID).bind fun p => p.session.bind fun _ =>
    match n.sendPath p dial with
    | (opened, .ok path) => some (opened, path)
    | (_, .error _) => none

theorem writePacket_outcome (n : Node) (path : SendPath) :
    ∃ stream err, ∀ accepted packet, n.writePacket path accepted packet =
      if n.takesWrite path accepted then .ok (.write stream (prefixed packet)) else .error err := by
  cases path with
  | tcp conn => exact ⟨.tcp conn, .writeFailed, fun accepted packet => rfl⟩
  | kcp peerID =>
      cases found : n.kcpSession peerID with
      | none =>
          refine ⟨.kcp 0, .kcpSessionMissing peerID, fun accepted packet => ?_⟩
          simp only [takesWrite, found, Bool.false_eq_true, if_false]
          simp only [kcpSession] at found
          simp only [writePacket, found]
      | some session =>
          refine ⟨.kcp session.handler, .writeFailed, fun accepted packet => ?_⟩
          simp only [takesWrite, found]
          simp only [kcpSession] at found
          simp only [writePacket, found]
          cases session.closed <;> cases accepted <;> rfl

end Node

section Reads

variable (aead : IdealAead) (addr senderID : Bytes) (stream : Stream)

theorem deliver_fragment (receiver : Node) (cipher : CipherState) (buffer : Option Bytes)
    (handed : List Bytes) (receiving : Receiving receiver addr senderID cipher buffer)
    (frame : Fragment.Frame UInt8) (bound : frame.body.length ≤ maxPayloadSize) :
    ∃ peers, deliver aead.toAead addr (receiver, handed) (writeData stream
          (aead.encrypt cipher.key cipher.n (frameType frame.kind :: frame.body))) =
        ({ receiver with peers },
          handed ++ (Fragment.step maxReassemblySize buffer frame).2.toList) ∧
      Receiving { receiver with peers } addr senderID { cipher with n := cipher.n + 1 }
        (Fragment.step maxReassemblySize buffer frame).1 := by
  let ciphertext := aead.encrypt cipher.key cipher.n (frameType frame.kind :: frame.body)
  rcases processData_next aead receiver addr senderID cipher buffer receiving frame with
    ⟨peers, processed, next⟩
  refine ⟨peers, ?_, next⟩
  have short : ∀ packet ∈ [(packetTypeData, ciphertext)], packet.2.length + 5 < 65536 :=
    ciphertexts_short aead cipher.key cipher.n [frame] (by simpa using bound)
  have read := Stream.reader_packets stream (handOver aead.toAead addr)
    [(packetTypeData, ciphertext)] (receiver, handed)
    [.data (prefixed (buildDataPacket ciphertext))] (live_cut [_]) short (by simp [bytesOf]; rfl)
  have handedOn := handedFrame_next aead receiver addr senderID cipher buffer receiving frame
  rw [writeData, deliver, read]
  simp only [List.foldl_cons, List.foldl_nil, handOver, if_true, ciphertext, processed, handedOn]

theorem deliver_fragments (receiver : Node) (cipher : CipherState) (buffer : Option Bytes)
    (handed : List Bytes) (frames : List (Fragment.Frame UInt8))
    (receiving : Receiving receiver addr senderID cipher buffer)
    (bound : ∀ frame ∈ frames, frame.body.length ≤ maxPayloadSize) :
    ∃ peers, ((ciphertexts aead.toAead cipher.key cipher.n frames).map (writeData stream)).foldl
          (deliver aead.toAead addr) (receiver, handed) =
        ({ receiver with peers },
          handed ++ (Fragment.feed maxReassemblySize buffer frames).2) ∧
      Receiving { receiver with peers } addr senderID { cipher with n := cipher.n + frames.length }
        (Fragment.feed maxReassemblySize buffer frames).1 := by
  induction frames generalizing receiver cipher buffer handed with
  | nil => exact ⟨receiver.peers, by simp [ciphertexts, Fragment.feed], receiving⟩
  | cons frame frames ih =>
      rcases deliver_fragment aead addr senderID stream receiver cipher buffer handed receiving frame
        (bound frame List.mem_cons_self) with ⟨peers, first, next⟩
      rcases ih _ _ _ (handed ++ (Fragment.step maxReassemblySize buffer frame).2.toList) next
        (fun other later => bound other (List.mem_cons_of_mem frame later)) with
        ⟨final, folded, last⟩
      refine ⟨final, ?_, ?_⟩
      · rw [ciphertexts, List.map_cons, List.foldl_cons, first]
        refine folded.trans ?_
        simp only [Fragment.feed, List.append_assoc]
      · rw [List.length_cons, Nat.add_comm frames.length 1, ← Nat.add_assoc]
        exact last

end Reads

section Calls

variable (aead : Aead) (n : Node) (peerID : Bytes) (call : SendCall)

theorem sendAppFrame_unrouted (unrouted : n.sendRoute peerID call.dial = none) :
    ∃ err mux kcpTransport addrToPeer,
      n.sendAppFrame aead peerID call.appFrameType call.data call.dial call.accepts =
        ({ n with mux, kcpTransport, addrToPeer }, [], some err) := by
  unfold Node.sendRoute at unrouted
  unfold Node.sendAppFrame
  split at unrouted
  · next toSelf =>
      rw [if_pos toSelf]
      exact ⟨_, n.mux, n.kcpTransport, n.addrToPeer, rfl⟩
  · next foreign =>
      rw [if_neg foreign]
      cases found : n.peers.get peerID with
      | none => exact ⟨_, n.mux, n.kcpTransport, n.addrToPeer, rfl⟩
      | some p =>
          cases live : p.session with
          | none =>
              simp only [live]
              exact ⟨_, n.mux, n.kcpTransport, n.addrToPeer, rfl⟩
          | some session =>
              obtain ⟨mux, kcpTransport, addrToPeer, frame⟩ := n.sendPath_frame p call.dial
              simp only [found, live, Option.bind_some] at unrouted
              rcases chosen : n.sendPath p call.dial with ⟨opened, err | path⟩
              · simp only [chosen] at frame
                simp only [live, chosen, frame]
                exact ⟨err, mux, kcpTransport, addrToPeer, rfl⟩
              · simp only [chosen] at unrouted
                cases unrouted

theorem sendAppFrame_routed (p : Peer) (session : Session) (cipher : CipherState) (opened : Node)
    (path : SendPath) (found : n.peers.get peerID = some p) (live : p.session = some session)
    (keyed : session.sendCipher = some cipher)
    (routed : n.sendRoute peerID call.dial = some (opened, path)) :
    ∃ stream err count sent failed,
      Written aead stream err (fun attempt => opened.takesWrite path (call.accepts attempt))
        call.fragments ⟨session, 0, []⟩ cipher count sent failed ∧
      n.sendAppFrame aead peerID call.appFrameType call.data call.dial call.accepts =
        ({ opened with peers := opened.peers.add { p with session := some sent.session } },
          sent.effects, failed) := by
  unfold Node.sendRoute at routed
  split at routed
  · cases routed
  · next foreign =>
      simp only [found, live, Option.bind_some] at routed
      rcases chosen : n.sendPath p call.dial with ⟨reached, err | picked⟩
      · simp only [chosen] at routed
        cases routed
      · simp only [chosen] at routed
        cases routed
        obtain ⟨stream, err, writes⟩ := opened.writePacket_outcome path
        obtain ⟨count, sent, failed, ran, written⟩ := sendFrames_written aead opened path stream err
          call.accepts (fun attempt => opened.takesWrite path (call.accepts attempt)) call.fragments
          ⟨session, 0, []⟩ cipher keyed (fun attempt _ packet => writes _ packet)
        have sentPayload := sendPayload_eq_sendFrames aead opened path call.accepts call.payload
          ⟨session, 0, []⟩
        refine ⟨stream, err, count, sent, failed, written, ?_⟩
        simp only [Node.sendAppFrame, if_neg foreign, found, live, chosen]
        rw [show call.appFrameType :: call.data = call.payload from rfl, sentPayload,
          show Fragment.split maxPayloadSize call.payload = call.fragments from rfl, ran]

end Calls

section Poison

variable (aead : IdealAead) (peerID senderID addr : Bytes)

/-- What every call that returned nil sent has been handed on by the receiver, in order, and the next
frame of the sender is the one that the receiver expects. -/
structure Unpoisoned (s : OneWay) : Prop where
  delivered : s.handed = s.returned
  expected : ∃ p session cipher buffer, s.sender.peers.get peerID = some p ∧
    p.session = some session ∧ session.sendCipher = some cipher ∧
    Receiving s.receiver addr senderID cipher buffer

/-- The call fits the receiver's limit, and the transport takes every write that it makes. -/
def Unrefused (s : OneWay) : LineEvent → Prop
  | .sendAppFrame call => ∀ route ∈ s.sender.sendRoute peerID call.dial,
      call.payload.length ≤ maxReassemblySize ∧
      ∀ attempt < call.fragments.length, route.1.takesWrite route.2 (call.accepts attempt) = true
  | .removeSession | .handleSessionEnds _ => True

instance (s : OneWay) (event : LineEvent) : Decidable (Unrefused peerID s event) :=
  match event with
  | .sendAppFrame call => inferInstanceAs (Decidable (∀ route ∈ s.sender.sendRoute peerID call.dial,
      call.payload.length ≤ maxReassemblySize ∧
      ∀ attempt < call.fragments.length, route.1.takesWrite route.2 (call.accepts attempt) = true))
  | .removeSession | .handleSessionEnds _ => inferInstanceAs (Decidable True)

variable {peerID senderID addr}

theorem unpoisoned_reconnected {s : OneWay} {sender : Node}
    (healthy : Unpoisoned peerID senderID addr s) (same : sender.peers = s.sender.peers) :
    Unpoisoned peerID senderID addr { s with sender } := by
  refine ⟨healthy.delivered, ?_⟩
  rcases healthy.expected with ⟨p, session, cipher, buffer, found, rest⟩
  exact ⟨p, session, cipher, buffer, by rw [same]; exact found, rest⟩

theorem step_routed {s : OneWay} {p : Peer} {session : Session} {cipher : CipherState}
    {buffer : Option Bytes} (call : SendCall) (opened : Node) (path : SendPath)
    (found : s.sender.peers.get peerID = some p) (live : p.session = some session)
    (keyed : session.sendCipher = some cipher)
    (receiving : Receiving s.receiver addr senderID cipher buffer)
    (routed : s.sender.sendRoute peerID call.dial = some (opened, path)) :
    ∃ stream err count sent failed,
      Written aead.toAead stream err
        (fun attempt => opened.takesWrite path (call.accepts attempt)) call.fragments ⟨session, 0, []⟩
        cipher count sent failed ∧
      let after := s.step aead.toAead peerID addr (.sendAppFrame call)
      let joined := Fragment.feed maxReassemblySize buffer (call.fragments.take count)
      after.sender.peers.get peerID = some { p with session := some sent.session } ∧
        Receiving after.receiver addr senderID { cipher with n := cipher.n + count } joined.1 ∧
        after.returned = (if failed = none then s.returned ++ [call.payload] else s.returned) ∧
        after.handed = s.handed ++ joined.2 := by
  rcases sendAppFrame_routed aead.toAead s.sender peerID call p session cipher opened path found live
    keyed routed with ⟨stream, err, count, sent, failed, written, called⟩
  have bound : ∀ frame ∈ call.fragments.take count, frame.body.length ≤ maxPayloadSize :=
    fun frame member => split_bound call.payload frame (List.mem_of_mem_take member)
  rcases deliver_fragments aead addr senderID stream s.receiver cipher buffer s.handed
    (call.fragments.take count) receiving bound with ⟨peers, read, next⟩
  rw [List.length_take, Nat.min_eq_left written.within] at next
  have named : p.id = peerID := s.sender.peers.get_id peerID p found
  have effects := written.effects
  rw [List.nil_append] at effects
  refine ⟨stream, err, count, sent, failed, written, ?_⟩
  simp only [OneWay.step, called, effects, read]
  exact ⟨(PeerStore.get_add _ _ _).trans (if_pos named.symm), next, trivial, trivial⟩

theorem unpoisoned_call {s : OneWay} (healthy : Unpoisoned peerID senderID addr s) (call : SendCall)
    (opened : Node) (path : SendPath)
    (routed : s.sender.sendRoute peerID call.dial = some (opened, path)) :
    Unpoisoned peerID senderID addr (s.step aead.toAead peerID addr (.sendAppFrame call)) ↔
      call.payload.length ≤ maxReassemblySize ∧
      ∀ attempt < call.fragments.length, opened.takesWrite path (call.accepts attempt) = true := by
  rcases healthy.expected with ⟨p, session, cipher, buffer, found, live, keyed, receiving⟩
  rcases step_routed aead call opened path found live keyed receiving routed with
    ⟨stream, err, count, sent, failed, written, stored, next, returned, handed⟩
  rcases written.outcome with ⟨rfl, all, moved⟩ | ⟨_, short, refused, moved⟩
  · have fed := Fragment.feed_split maxReassemblySize maxPayloadSize (by decide) buffer call.payload
    rw [all, List.take_length, show call.fragments = Fragment.split maxPayloadSize call.payload from rfl,
      fed, healthy.delivered] at handed
    constructor
    · intro kept
      refine ⟨?_, fun attempt inside => ?_⟩
      · by_contra long
        have delivered := kept.delivered
        rw [handed, returned, if_pos rfl, if_neg long, List.append_nil] at delivered
        exact absurd (congrArg List.length delivered) (by simp)
      · have taken := written.taken attempt (all ▸ inside)
        rwa [Nat.zero_add] at taken
    · rintro ⟨fits, _⟩
      refine ⟨?_, _, _, _, _, stored, rfl, congrArg Session.sendCipher moved, next⟩
      rw [handed, returned, if_pos rfl, if_pos fits]
  · rw [Nat.zero_add] at refused
    constructor
    · intro kept
      -- the refused fragment's nonce is spent at the sender only
      rcases kept.expected with ⟨q, current, key, rest, present, inUse, sending, expecting⟩
      cases stored.symm.trans present
      cases inUse
      rw [moved, ← next.cipher_unique expecting] at sending
      exact absurd (congrArg CipherState.n (Option.some.inj sending)) (by simp)
    · rintro ⟨_, taken⟩
      have accepted := taken count short
      rw [refused] at accepted
      cases accepted

theorem unpoisoned_step (s : OneWay) (event : LineEvent)
    (healthy : Unpoisoned peerID senderID addr s) :
    Unpoisoned peerID senderID addr (s.step aead.toAead peerID addr event) ↔
      Unrefused peerID s event := by
  cases event with
  | removeSession =>
      obtain ⟨mux, kcpTransport, removed⟩ := s.sender.removeSession_frame peerID
      exact iff_of_true (unpoisoned_reconnected healthy (by rw [removed])) trivial
  | handleSessionEnds handler => exact iff_of_true (unpoisoned_reconnected healthy rfl) trivial
  | sendAppFrame call =>
      cases routed : s.sender.sendRoute peerID call.dial with
      | none =>
          obtain ⟨err, mux, kcpTransport, addrToPeer, called⟩ :=
            sendAppFrame_unrouted aead.toAead s.sender peerID call routed
          have stepped : s.step aead.toAead peerID addr (.sendAppFrame call) =
              { s with sender := { s.sender with mux, kcpTransport, addrToPeer } } := by
            simp only [OneWay.step, called, List.foldl_nil, reduceCtorEq, if_false]
          rw [stepped]
          refine iff_of_true (unpoisoned_reconnected healthy rfl) ?_
          intro route member
          rw [routed] at member
          cases member
      | some route =>
          rw [unpoisoned_call aead healthy call route.1 route.2 routed]
          simp only [Unrefused, routed, Option.mem_def, Option.some.injEq, forall_eq']

/-- Along a session that starts in step, the calls that return nil are delivered and the counters stay
in step exactly as long as no write is refused and no message exceeds the receiver's limit. -/
theorem unpoisoned_iff (start : OneWay) (events : List LineEvent)
    (healthy : Unpoisoned peerID senderID addr start) :
    Run.Throughout (OneWay.step aead.toAead peerID addr) (Unpoisoned peerID senderID addr) start
        events ↔
      Run.Along (OneWay.step aead.toAead peerID addr) (Unrefused peerID) start events :=
  Run.throughout_iff_along start events healthy (unpoisoned_step aead)

end Poison

namespace Redialed

def sender : Node :=
  let n := connectedNode [1] [2] true 5
  match n.peers.get (peerIDOf .padded [2]) with
  | none => n
  | some p => { n with
      peers := n.peers.add { p with addr := ⟨.udp, [0x62]⟩, conn := none, transport := .udp } }

def start : OneWay := ⟨sender, connectedNode [2] [1] false 5, [], []⟩

theorem start_unpoisoned : Unpoisoned (peerIDOf .padded [2]) (peerIDOf .padded [1]) [0x61] start :=
  ⟨rfl, _, _, _, _, rfl, rfl, rfl, connected_receiving⟩

def step : OneWay → LineEvent → OneWay :=
  OneWay.step IdealAead.tagged.toAead (peerIDOf .padded [2]) [0x61]

def send (text : UInt8) (conv : UInt32) : LineEvent :=
  .sendAppFrame ⟨appFrameTypeUserWithChannel, [text], some conv, fun _ => true⟩

def poisoned : OneWay :=
  Run.run step start [send 1 7, .handleSessionEnds 0, send 2 7, .removeSession, send 3 8]

end Redialed

open Redialed in
/-- A session dialed again between two calls goes on where it was. -/
theorem unpoisoned_redialed :
    Unpoisoned (peerIDOf .padded [2]) (peerIDOf .padded [1]) [0x61]
      (Run.run step start [send 1 7, .handleSessionEnds 0, .removeSession, send 2 8]) :=
  Run.throughout_run start _ ((unpoisoned_iff .tagged start
    [send 1 7, .handleSessionEnds 0, .removeSession, send 2 8] start_unpoisoned).mpr
      (by decide +kernel))

open Redialed in
/-- A call in between finds the closed session and fails. The next one dials and returns nil, but the
receiver does not get it. -/
theorem failed_send_poisons :
    Unpoisoned (peerIDOf .padded [2]) (peerIDOf .padded [1]) [0x61] start ∧
      poisoned.returned = [[2, 1], [2, 3]] ∧ poisoned.handed = [[2, 1]] ∧
        ¬Unpoisoned (peerIDOf .padded [2]) (peerIDOf .padded [1]) [0x61] poisoned := by
  have returned : poisoned.returned = [[2, 1], [2, 3]] := by decide +kernel
  have handed : poisoned.handed = [[2, 1]] := by decide +kernel
  refine ⟨start_unpoisoned, returned, handed, ?_⟩
  intro healthy
  have delivered := healthy.delivered
  rw [returned, handed] at delivered
  cases delivered

end Tenet
