import Tenet.Send

/-! Receiving application data: `processData` of `node/data_flow.go` and the handlers of
`node/node_channel.go` behind it. -/

namespace Tenet

open Lib

def opCodeJoin : UInt8 := 0x01
def opCodeLeave : UInt8 := 0x02

namespace Peer

/-- The switch on the frame type: the record, and the application frame to hand on. -/
def receiveFrame (p : Peer) (plaintext : Bytes) : Peer × Option Bytes :=
  match plaintext with
  | [] => (p, none)
  | frameType :: frameData =>
      if frameType = frameTypeSingle then (p.resetReassembly, some frameData)
      else if frameType = frameTypeFirst then (p.startReassembly frameData, none)
      else if frameType = frameTypeMiddle then
        ((p.appendReassembly frameData maxReassemblySize).1, none)
      else if frameType = frameTypeLast then
        ((p.finishReassembly frameData maxReassemblySize).1,
          (p.finishReassembly frameData maxReassemblySize).2.1)
      else (p, none)

theorem receiveFrame_eq_step (p : Peer) (frame : Fragment.Frame UInt8) :
    p.receiveFrame (frameType frame.kind :: frame.body) =
      ({ p with
          reassemblyBuffer := (Fragment.step maxReassemblySize p.reassemblyBuffer frame).1 },
        (Fragment.step maxReassemblySize p.reassemblyBuffer frame).2) := by
  rcases frame with ⟨kind, body⟩
  rcases p with ⟨id, addr, originalAddr, conn, transport, linkMode, relayTarget, session, lastSeen,
    remoteChannels, state, buffer, rehandshake⟩
  cases kind with
  | single => rfl
  | first => rfl
  | middle =>
      cases buffer with
      | none => rfl
      | some held =>
          by_cases exceeds : held.length + body.length > maxReassemblySize
          · simp only [frameType, receiveFrame, appendReassembly, Fragment.step, if_pos exceeds]
            rfl
          · simp only [frameType, receiveFrame, appendReassembly, Fragment.step, if_neg exceeds]
            rfl
  | last =>
      cases buffer with
      | none => rfl
      | some held =>
          by_cases exceeds : held.length + body.length > maxReassemblySize
          · simp only [frameType, receiveFrame, finishReassembly, Fragment.step, if_pos exceeds]
            rfl
          · simp only [frameType, receiveFrame, finishReassembly, Fragment.step, if_neg exceeds]
            rfl

end Peer

namespace Node

/-- Updates of channels that this node has not joined are dropped. -/
def processChannelUpdate (n : Node) (p : Peer) (payload : Bytes) : Peer :=
  match payload with
  | [] => p
  | opcode :: rest =>
      if rest.length < 32 then p
      else if rest.take 32 ∈ n.localChannelSet then
        if opcode = opCodeJoin then p.addRemoteChannel (rest.take 32)
        else if opcode = opCodeLeave then p.removeRemoteChannel (rest.take 32)
        else p
      else p

def handleAppFrame (n : Node) (peerID : Bytes) (p : Peer) (data : Bytes) : Peer × List Effect :=
  match data with
  | [] => (p, [])
  | appFrameType :: payload =>
      if appFrameType = appFrameTypeUserWithChannel then
        if payload.length < 32 then (p, [])
        else if n.isChannelSubscribed (payload.take 32) && n.onReceive then
          (p, [.onReceive peerID (payload.drop 32)])
        else (p, [])
      else if appFrameType = appFrameTypeChannelUpdate then (n.processChannelUpdate p payload, [])
      else (p, [])

section

variable {E : Type} (handle : Bytes → Peer → Bytes → Peer × List E) (failing : Bytes → List E)

/-- The part of `processData` behind a successful decryption, whoever takes the application frame. -/
def dispatchFrameTo (peerID : Bytes) (p : Peer) (plaintext : Bytes) : Peer × List E :=
  match p.resetDecryptFailures.receiveFrame plaintext with
  | (p, none) => (p, [])
  | (p, some data) => handle peerID p data

/-- `processData`, whoever takes the application frame and whatever too many failures lead to. -/
def processDataTo (aead : Aead) (n : Node) (remoteAddr payload : Bytes) : Node × List E :=
  match n.addrToPeer.get remoteAddr with
  | none => (n, [])
  | some peerID =>
      match n.peers.get peerID with
      | none => (n, [])
      | some p =>
          match p.decrypt aead payload with
          | none =>
              let failed := p.incDecryptFailures
              ({ n with peers := n.peers.add failed.1 },
                if failed.2 ≥ n.config.maxConsecutiveDecryptFailures then failing peerID else [])
          | some (plaintext, p) =>
              let dispatched := dispatchFrameTo handle peerID p plaintext
              ({ n with peers := n.peers.add dispatched.1 }, dispatched.2)

end

def dispatchFrame (n : Node) (peerID : Bytes) (p : Peer) (plaintext : Bytes) : Peer × List Effect :=
  dispatchFrameTo n.handleAppFrame peerID p plaintext

def processData (aead : Aead) (n : Node) (remoteAddr payload : Bytes) : Node × List Effect :=
  n.processDataTo n.handleAppFrame (fun peerID => [.triggerFastRehandshake peerID]) aead remoteAddr
    payload

/-- The application frame that `processData` hands on, as a handler that only notes it sees it. -/
def handedFrame (aead : Aead) (n : Node) (remoteAddr payload : Bytes) : Option Bytes :=
  (n.processDataTo (fun _ p data => (p, [data])) (fun _ => []) aead remoteAddr payload).2.head?

/-- `handlePacket`, with the handlers of the other packet types left open. -/
def handlePacket (aead : Aead) (other : Node → UInt8 → Bytes → Node × List Effect)
    (remoteAddr : Bytes) (n : Node) (packetType : UInt8) (payload : Bytes) : Node × List Effect :=
  if packetType = packetTypeData then n.processData aead remoteAddr payload
  else other n packetType payload

end Node

theorem Node.handedFrame_eq (aead : Aead) (n : Node) (remoteAddr payload : Bytes) :
    n.handedFrame aead remoteAddr payload =
      (n.addrToPeer.get remoteAddr).bind fun peerID => (n.peers.get peerID).bind fun p =>
        (p.decrypt aead payload).bind fun (plaintext, p) =>
          (p.resetDecryptFailures.receiveFrame plaintext).2 := by
  unfold handedFrame processDataTo
  cases n.addrToPeer.get remoteAddr with
  | none => rfl
  | some peerID =>
      dsimp only [Option.bind_some]
      cases n.peers.get peerID with
      | none => rfl
      | some p =>
          dsimp only [Option.bind_some]
          cases p.decrypt aead payload with
          | none => simp
          | some opened =>
              simp only [dispatchFrameTo, Option.bind_some]
              rcases opened.2.resetDecryptFailures.receiveFrame opened.1 with ⟨after, _ | data⟩
              · rfl
              · rfl

theorem processChannelUpdate_eq (n : Node) (p : Peer) (payload : Bytes) :
    ∃ channels, n.processChannelUpdate p payload = { p with remoteChannels := channels } := by
  unfold Node.processChannelUpdate
  split
  · exact ⟨p.remoteChannels, rfl⟩
  · split
    · exact ⟨p.remoteChannels, rfl⟩
    · split
      · split
        · exact ⟨_, rfl⟩
        · split
          · exact ⟨_, rfl⟩
          · exact ⟨p.remoteChannels, rfl⟩
      · exact ⟨p.remoteChannels, rfl⟩

/-- The callbacks of an application frame. They do not depend on the peer's record. -/
def Node.callbacks (n : Node) (peerID data : Bytes) : List Effect :=
  match data with
  | [] => []
  | appFrameType :: payload =>
      if appFrameType = appFrameTypeUserWithChannel ∧ ¬ payload.length < 32 ∧
          (n.isChannelSubscribed (payload.take 32) && n.onReceive) = true then
        [.onReceive peerID (payload.drop 32)]
      else []

theorem handleAppFrame_eq (n : Node) (peerID : Bytes) (p : Peer) (data : Bytes) :
    ∃ channels, n.handleAppFrame peerID p data =
      ({ p with remoteChannels := channels }, n.callbacks peerID data) := by
  cases data with
  | nil => exact ⟨p.remoteChannels, rfl⟩
  | cons appFrameType payload =>
      by_cases user : appFrameType = appFrameTypeUserWithChannel
      · refine ⟨p.remoteChannels, ?_⟩
        by_cases short : payload.length < 32
        · simp only [Node.handleAppFrame, Node.callbacks, user, short, not_true, false_and,
            and_false, if_true, if_false]
        · by_cases called : (n.isChannelSubscribed (payload.take 32) && n.onReceive) = true
          · simp only [Node.handleAppFrame, Node.callbacks, user, short, called, not_false_eq_true,
              and_self, if_true, if_false]
          · simp only [Node.handleAppFrame, Node.callbacks, user, short, called, and_false,
              Bool.false_eq_true, if_true, if_false]
      · have silent : n.callbacks peerID (appFrameType :: payload) = [] := by
          simp only [Node.callbacks, user, false_and, if_false]
        by_cases update : appFrameType = appFrameTypeChannelUpdate
        · rcases processChannelUpdate_eq n p payload with ⟨channels, updated⟩
          refine ⟨channels, ?_⟩
          rw [silent, ← updated]
          simp only [Node.handleAppFrame, if_neg user, if_pos update]
        · refine ⟨p.remoteChannels, ?_⟩
          rw [silent]
          simp only [Node.handleAppFrame, if_neg user, if_neg update]

/-- A fragment moves the buffer by one step of the joining automaton, and a payload that it
completes is handed on. -/
theorem dispatchFrame_eq (n : Node) (peerID : Bytes) (p : Peer) (frame : Fragment.Frame UInt8) :
    ∃ channels, n.dispatchFrame peerID p (frameType frame.kind :: frame.body) =
      ({ p.resetDecryptFailures with
          remoteChannels := channels
          reassemblyBuffer := (Fragment.step maxReassemblySize p.reassemblyBuffer frame).1 },
        (Fragment.step maxReassemblySize p.reassemblyBuffer frame).2.toList.flatMap
          (n.callbacks peerID)) := by
  have received := Peer.receiveFrame_eq_step p.resetDecryptFailures frame
  have same : p.resetDecryptFailures.reassemblyBuffer = p.reassemblyBuffer := rfl
  rw [same] at received
  rw [Node.dispatchFrame, Node.dispatchFrameTo, received]
  cases (Fragment.step maxReassemblySize p.reassemblyBuffer frame).2 with
  | none => exact ⟨p.resetDecryptFailures.remoteChannels, rfl⟩
  | some data =>
      rcases handleAppFrame_eq n peerID
        { p.resetDecryptFailures with
          reassemblyBuffer := (Fragment.step maxReassemblySize p.reassemblyBuffer frame).1 }
        data with ⟨channels, handled⟩
      refine ⟨channels, ?_⟩
      simp only [handled, Option.toList_some, List.flatMap_cons, List.flatMap_nil, List.append_nil]

def frameOf : Bytes → Option (Fragment.Frame UInt8)
  | [] => none
  | type :: frameData =>
      if type = frameTypeSingle then some ⟨.single, frameData⟩
      else if type = frameTypeFirst then some ⟨.first, frameData⟩
      else if type = frameTypeMiddle then some ⟨.middle, frameData⟩
      else if type = frameTypeLast then some ⟨.last, frameData⟩
      else none

theorem frameOf_eq_some (plaintext : Bytes) (frame : Fragment.Frame UInt8)
    (known : frameOf plaintext = some frame) : plaintext = frameType frame.kind :: frame.body := by
  cases plaintext with
  | nil => cases known
  | cons type frameData =>
      simp only [frameOf] at known
      split at known
      · next same => cases known; rw [same]; rfl
      · split at known
        · next same => cases known; rw [same]; rfl
        · split at known
          · next same => cases known; rw [same]; rfl
          · split at known
            · next same => cases known; rw [same]; rfl
            · cases known

theorem receiveFrame_unknown (p : Peer) (plaintext : Bytes) (unknown : frameOf plaintext = none) :
    p.receiveFrame plaintext = (p, none) := by
  cases plaintext with
  | nil => rfl
  | cons type frameData =>
      simp only [frameOf] at unknown
      simp only [Peer.receiveFrame]
      split at unknown
      · cases unknown
      · next single =>
          split at unknown
          · cases unknown
          · next first =>
              split at unknown
              · cases unknown
              · next middle =>
                  split at unknown
                  · cases unknown
                  · next last => rw [if_neg single, if_neg first, if_neg middle, if_neg last]

theorem dispatchFrame_dropped (n : Node) (peerID : Bytes) (p : Peer) (plaintext : Bytes) :
    (∃ frame : Fragment.Frame UInt8, plaintext = frameType frame.kind :: frame.body) ∨
      n.dispatchFrame peerID p plaintext = (p.resetDecryptFailures, []) := by
  cases known : frameOf plaintext with
  | none => exact Or.inr (by
      simp only [Node.dispatchFrame, Node.dispatchFrameTo, receiveFrame_unknown _ _ known])
  | some frame => exact Or.inl ⟨frame, frameOf_eq_some plaintext frame known⟩

theorem dispatchFrame_record (n : Node) (peerID : Bytes) (p : Peer) (plaintext : Bytes) :
    ∃ remoteChannels reassemblyBuffer, (n.dispatchFrame peerID p plaintext).1 =
      { p.resetDecryptFailures with remoteChannels, reassemblyBuffer } := by
  rcases dispatchFrame_dropped n peerID p plaintext with ⟨frame, rfl⟩ | dropped
  · obtain ⟨channels, made⟩ := dispatchFrame_eq n peerID p frame
    rw [made]
    exact ⟨channels, _, rfl⟩
  · rw [dropped]
    exact ⟨p.remoteChannels, p.reassemblyBuffer, rfl⟩

theorem processData_decrypted (aead : Aead) (n : Node) (addr payload peerID plaintext : Bytes)
    (p opened : Peer) (mapped : n.addrToPeer.get addr = some peerID)
    (found : n.peers.get peerID = some p) (decrypted : p.decrypt aead payload = some (plaintext, opened)) :
    n.processData aead addr payload =
      ({ n with peers := n.peers.add (n.dispatchFrame peerID opened plaintext).1 },
        (n.dispatchFrame peerID opened plaintext).2) := by
  simp only [Node.processData, Node.processDataTo, mapped, found, decrypted]
  rfl

theorem processData_cases (aead : Aead) (n : Node) (addr payload : Bytes) :
    n.processData aead addr payload = (n, []) ∨
      ∃ peerID p, n.peers.get peerID = some p ∧
        ((∃ effects, (∀ id data, .onReceive id data ∉ effects) ∧
            n.processData aead addr payload =
              ({ n with peers := n.peers.add p.incDecryptFailures.1 }, effects)) ∨
          ∃ plaintext opened, p.decrypt aead payload = some (plaintext, opened) ∧
            n.processData aead addr payload =
              ({ n with peers := n.peers.add (n.dispatchFrame peerID opened plaintext).1 },
                (n.dispatchFrame peerID opened plaintext).2)) := by
  cases mapped : n.addrToPeer.get addr with
  | none => exact Or.inl (by simp only [Node.processData, Node.processDataTo, mapped])
  | some peerID =>
      cases found : n.peers.get peerID with
      | none => exact Or.inl (by simp only [Node.processData, Node.processDataTo, mapped, found])
      | some p =>
          refine Or.inr ⟨peerID, p, found, ?_⟩
          cases decrypted : p.decrypt aead payload with
          | none =>
              refine Or.inl ⟨_, ?_, by simp only [Node.processData, Node.processDataTo, mapped, found, decrypted]; rfl⟩
              intro id data
              split <;> simp
          | some result =>
              exact Or.inr ⟨result.1, result.2, rfl,
                processData_decrypted aead n addr payload peerID _ p _ mapped found decrypted⟩

theorem processData_encrypted (aead : IdealAead) (n : Node) (addr peerID : Bytes) (p : Peer)
    (session : Session) (cipher : CipherState) (mapped : n.addrToPeer.get addr = some peerID)
    (found : n.peers.get peerID = some p) (live : p.session = some session)
    (keyed : session.recvCipher = some cipher) (frame : Fragment.Frame UInt8) :
    let opened : Peer := { p with
      session := some { session with recvCipher := some { cipher with n := cipher.n + 1 } } }
    p.decrypt aead.toAead (aead.encrypt cipher.key cipher.n (frameType frame.kind :: frame.body)) =
        some (frameType frame.kind :: frame.body, opened) ∧
      ∃ channels, n.processData aead.toAead addr
          (aead.encrypt cipher.key cipher.n (frameType frame.kind :: frame.body)) =
        ({ n with peers := n.peers.add { opened.resetDecryptFailures with
            remoteChannels := channels
            reassemblyBuffer := (Fragment.step maxReassemblySize p.reassemblyBuffer frame).1 } },
          (Fragment.step maxReassemblySize p.reassemblyBuffer frame).2.toList.flatMap
            (n.callbacks peerID)) := by
  intro opened
  have unwrapped := (aead.decrypt_iff cipher.key cipher.n _ (frameType frame.kind :: frame.body)).mpr
    rfl
  have decrypted : p.decrypt aead.toAead
      (aead.encrypt cipher.key cipher.n (frameType frame.kind :: frame.body)) =
        some (frameType frame.kind :: frame.body, opened) := by
    simp only [Peer.decrypt, Session.decrypt, live, keyed, unwrapped, Option.bind_some,
      Option.map_some]
    rfl
  rcases dispatchFrame_eq n peerID opened frame with ⟨channels, dispatched⟩
  refine ⟨decrypted, channels, ?_⟩
  rw [processData_decrypted aead.toAead n addr _ peerID _ p opened mapped found decrypted, dispatched]

/-- The node takes data packets from the address for that peer, at this cipher state and with
this reassembly buffer. -/
structure Receiving (n : Node) (addr peerID : Bytes) (cipher : CipherState)
    (buffer : Option Bytes) : Prop where
  mapped : n.addrToPeer.get addr = some peerID
  record : ∃ p session, n.peers.get peerID = some p ∧ p.session = some session ∧
    session.recvCipher = some cipher ∧ p.reassemblyBuffer = buffer

theorem Receiving.cipher_unique {n : Node} {addr peerID : Bytes} {cipher other : CipherState}
    {buffer rest : Option Bytes} (one : Receiving n addr peerID cipher buffer)
    (two : Receiving n addr peerID other rest) : cipher = other := by
  rcases one.record with ⟨p, session, found, live, keyed, _⟩
  rcases two.record with ⟨q, current, found', live', keyed', _⟩
  cases found.symm.trans found'
  cases live.symm.trans live'
  exact Option.some.inj (keyed.symm.trans keyed')

theorem processData_next (aead : IdealAead) (n : Node) (addr peerID : Bytes) (cipher : CipherState)
    (buffer : Option Bytes) (receiving : Receiving n addr peerID cipher buffer)
    (frame : Fragment.Frame UInt8) :
    ∃ peers, n.processData aead.toAead addr
        (aead.encrypt cipher.key cipher.n (frameType frame.kind :: frame.body)) =
        ({ n with peers }, (Fragment.step maxReassemblySize buffer frame).2.toList.flatMap
          (n.callbacks peerID)) ∧
      Receiving { n with peers } addr peerID { cipher with n := cipher.n + 1 }
        (Fragment.step maxReassemblySize buffer frame).1 := by
  rcases receiving.record with ⟨p, session, found, live, keyed, rfl⟩
  rcases processData_encrypted aead n addr peerID p session cipher receiving.mapped found live keyed
    frame with ⟨_, channels, processed⟩
  have named : p.id = peerID := n.peers.get_id peerID p found
  exact ⟨_, processed, receiving.mapped, _, _, (PeerStore.get_add _ _ _).trans (if_pos named.symm),
    rfl, rfl, rfl⟩

theorem handedFrame_next (aead : IdealAead) (n : Node) (addr peerID : Bytes) (cipher : CipherState)
    (buffer : Option Bytes) (receiving : Receiving n addr peerID cipher buffer)
    (frame : Fragment.Frame UInt8) :
    n.handedFrame aead.toAead addr
        (aead.encrypt cipher.key cipher.n (frameType frame.kind :: frame.body)) =
      (Fragment.step maxReassemblySize buffer frame).2 := by
  rcases receiving.record with ⟨p, session, found, live, keyed, rfl⟩
  have decrypted := (processData_encrypted aead n addr peerID p session cipher receiving.mapped found
    live keyed frame).1
  simp only [Node.handedFrame_eq, receiving.mapped, found, decrypted, Option.bind_some,
    Peer.receiveFrame_eq_step]
  rfl

end Tenet
