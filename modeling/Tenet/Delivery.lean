import Tenet.Readers

/-! End-to-end delivery of application data over one byte stream. -/

namespace Tenet

open Lib ByteStream

/-- The calls `Send(channelName, peerID, data)` one after the other, over a transport that takes
every write. -/
def sendAll (env : Env) (aead : Aead) (n : Node) (peerID : Bytes) (dial : Option UInt32) :
    List (Bytes × Bytes) → Node × List Effect
  | [] => (n, [])
  | (channelName, data) :: calls =>
      let sent := n.send env aead channelName peerID data dial (fun _ => true)
      let later := sendAll env aead sent.1 peerID dial calls
      (later.1, sent.2.1 ++ later.2)

def writtenTo (stream : Stream) (effects : List Effect) : Bytes :=
  effects.flatMap fun
    | .write target frame => if target = stream then frame else []
    | _ => []

def receivePacket (aead : Aead) (other : Node → UInt8 → Bytes → Node × List Effect)
    (remoteAddr : Bytes) (state : Node × List Effect) (packetType : UInt8) (payload : Bytes) :
    Node × List Effect :=
  let handled := state.1.handlePacket aead other remoteAddr packetType payload
  (handled.1, state.2 ++ handled.2)

def userPayload (env : Env) (call : Bytes × Bytes) : Bytes :=
  appFrameTypeUserWithChannel :: (hashChannelName env call.1 ++ call.2)

/-- The node sends to the peer at this cipher state, and what it sends goes into the stream. -/
structure Transmitting (n : Node) (peerID : Bytes) (cipher : CipherState) (stream : Stream)
    (dial : Option UInt32) : Prop where
  remote : peerID ≠ n.id
  record : ∃ p session, n.peers.get peerID = some p ∧ p.session = some session ∧
    session.sendCipher = some cipher ∧
    ∃ opened path, n.sendPath p dial = (opened, .ok path) ∧
      ∀ packet, opened.writePacket path true packet = .ok (.write stream (prefixed packet))

theorem sendPath_again (n opened : Node) (p : Peer) (dial : Option UInt32) (path : SendPath)
    (chosen : n.sendPath p dial = (opened, .ok path)) (peers : PeerStore)
    (session : Option Session) :
    ({ opened with peers } : Node).sendPath { p with session } dial =
      ({ opened with peers }, .ok path) := by
  unfold Node.sendPath at chosen
  split at chosen
  · next conn tcp connected =>
      cases chosen
      simp only [Node.sendPath, tcp, connected]
  · next noConn =>
      have kept : opened.hasSession p.id = true ∧ path = .kcp p.id := by
        split at chosen
        · next present =>
            cases chosen
            exact ⟨present, rfl⟩
        · repeat' split at chosen
          all_goals cases chosen
          next dialed => exact ⟨n.upgradePeer_hasSession p.id p.addr.text dial dialed, rfl⟩
      rcases kept with ⟨present, rfl⟩
      have again : ({ opened with peers } : Node).hasSession p.id = true := present
      unfold Node.sendPath
      split
      · next conn tcp connected => exact absurd connected (noConn conn tcp)
      · rw [if_pos again]

theorem send_next (env : Env) (aead : Aead) (n : Node) (peerID : Bytes) (cipher : CipherState)
    (stream : Stream) (dial : Option UInt32) (call : Bytes × Bytes)
    (transmitting : Transmitting n peerID cipher stream dial)
    (subscribed : n.isChannelSubscribed (hashChannelName env call.1) = true) :
    ∃ sent, n.send env aead call.1 peerID call.2 dial (fun _ => true) =
        (sent, (ciphertexts aead cipher.key cipher.n
          (Fragment.split maxPayloadSize (userPayload env call))).map (writeData stream), none) ∧
      Transmitting sent peerID
        { cipher with
          n := cipher.n + (Fragment.split maxPayloadSize (userPayload env call)).length }
        stream dial ∧
      sent.localChannelSet = n.localChannelSet := by
  rcases transmitting.record with ⟨p, session, found, live, keyed, opened, path, chosen, writable⟩
  obtain ⟨mux, kcpTransport, addrToPeer, frame⟩ := n.sendPath_frame p dial
  simp only [chosen] at frame
  rcases sendFrames_accepted aead opened path stream
      (Fragment.split maxPayloadSize (userPayload env call)) ⟨session, 0, []⟩ cipher keyed writable with
    ⟨done, sentFrames, advanced, effects⟩
  have sentPayload := sendPayload_eq_sendFrames aead opened path (fun _ => true)
    (userPayload env call) ⟨session, 0, []⟩
  rw [sentFrames] at sentPayload
  refine ⟨{ opened with peers := opened.peers.add { p with session := some done.session } },
    ?_, ⟨?_, ?_⟩, ?_⟩
  · have payload : sendPayload aead opened path (fun _ => true)
        (appFrameTypeUserWithChannel :: (hashChannelName env call.1 ++ call.2)) ⟨session, 0, []⟩ =
          (done, none) := sentPayload
    simp only [Node.send, subscribed, if_true, Node.sendAppFrame, transmitting.remote, if_false,
      found, live, chosen, payload, effects, List.nil_append]
  · rw [frame]
    exact transmitting.remote
  · have named : p.id = peerID := n.peers.get_id peerID p found
    refine ⟨{ p with session := some done.session }, done.session, ?_, rfl, ?_, ?_⟩
    · exact (PeerStore.get_add _ _ _).trans (if_pos named.symm)
    · rw [advanced]
    · exact ⟨_, path, sendPath_again n opened p dial path chosen _ _, writable⟩
  · rw [frame]

theorem sendAll_written (env : Env) (aead : Aead) (n : Node) (peerID : Bytes) (cipher : CipherState)
    (stream : Stream) (dial : Option UInt32) (calls : List (Bytes × Bytes))
    (transmitting : Transmitting n peerID cipher stream dial)
    (subscribed : ∀ call ∈ calls, n.isChannelSubscribed (hashChannelName env call.1) = true) :
    (sendAll env aead n peerID dial calls).2 =
      (ciphertexts aead cipher.key cipher.n
        ((calls.map (userPayload env)).flatMap (Fragment.split maxPayloadSize))).map
          (writeData stream) := by
  induction calls generalizing n cipher with
  | nil => rfl
  | cons call calls ih =>
      rcases send_next env aead n peerID cipher stream dial call transmitting
        (subscribed call List.mem_cons_self) with ⟨sent, first, ready, channels⟩
      have later := ih sent _ ready (by
        intro other member
        have joined := subscribed other (List.mem_cons_of_mem call member)
        rw [Node.isChannelSubscribed] at joined ⊢
        rwa [channels])
      rw [sendAll, first, later, List.map_cons, List.flatMap_cons, ciphertexts_append,
        List.map_append]

theorem writtenTo_writeData (stream : Stream) (packets : List Bytes) :
    writtenTo stream (packets.map (writeData stream)) =
      (packets.map (fun packet => (packetTypeData, packet))).flatMap
        fun packet => prefixed (tentPacket packet.1 packet.2) := by
  induction packets with
  | nil => rfl
  | cons packet packets ih =>
      have head : writtenTo stream [writeData stream packet] =
          prefixed (tentPacket packetTypeData packet) := by
        simp only [writtenTo, writeData, List.flatMap_cons, List.flatMap_nil, if_true,
          List.append_nil]
        rfl
      rw [writtenTo] at ih head
      rw [writtenTo, List.map_cons, ← List.singleton_append, List.flatMap_append, ih, head,
        List.map_cons, List.flatMap_cons]

theorem receive_all (aead : IdealAead) (other : Node → UInt8 → Bytes → Node × List Effect)
    (n : Node) (addr peerID : Bytes) (cipher : CipherState) (buffer : Option Bytes)
    (effects : List Effect) (frames : List (Fragment.Frame UInt8))
    (receiving : Receiving n addr peerID cipher buffer) :
    ∃ peers, ((ciphertexts aead.toAead cipher.key cipher.n frames).map
          (fun packet => (packetTypeData, packet))).foldl
          (fun state packet => receivePacket aead.toAead other addr state packet.1 packet.2)
          (n, effects) =
        ({ n with peers }, effects ++
          (Fragment.feed maxReassemblySize buffer frames).2.flatMap (n.callbacks peerID)) ∧
      Receiving { n with peers } addr peerID { cipher with n := cipher.n + frames.length }
        (Fragment.feed maxReassemblySize buffer frames).1 := by
  induction frames generalizing n cipher buffer effects with
  | nil => exact ⟨n.peers, by simp [ciphertexts, Fragment.feed], receiving⟩
  | cons frame frames ih =>
      rcases processData_next aead n addr peerID cipher buffer receiving frame with
        ⟨peers, processed, next⟩
      have first : receivePacket aead.toAead other addr (n, effects) packetTypeData
          (aead.encrypt cipher.key cipher.n (frameType frame.kind :: frame.body)) =
          ({ n with peers }, effects ++
            (Fragment.step maxReassemblySize buffer frame).2.toList.flatMap
              (n.callbacks peerID)) := by
        simp only [receivePacket, Node.handlePacket, if_true, processed]
      rcases ih _ _ _ (effects ++ (Fragment.step maxReassemblySize buffer frame).2.toList.flatMap
        (n.callbacks peerID)) next with ⟨final, folded, last⟩
      refine ⟨final, ?_, ?_⟩
      · rw [ciphertexts, List.map_cons, List.foldl_cons, first]
        refine folded.trans ?_
        simp only [Fragment.feed, List.flatMap_append, List.append_assoc]
        rfl
      · rw [List.length_cons, Nat.add_comm frames.length 1, ← Nat.add_assoc]
        exact last

theorem callbacks_userPayload (env : Env) (n : Node) (peerID : Bytes) (call : Bytes × Bytes)
    (listening : n.onReceive = true) :
    n.callbacks peerID (userPayload env call) =
      if hashChannelName env call.1 ∈ n.localChannelSet then [.onReceive peerID call.2] else [] := by
  have hashed : (hashChannelName env call.1).length = 32 := env.sha256_length call.1
  have long : ¬ (hashChannelName env call.1 ++ call.2).length < 32 := by
    rw [List.length_append]
    omega
  simp only [userPayload, Node.callbacks, long, not_false_eq_true, true_and,
    List.take_left' hashed, List.drop_left' hashed, Node.isChannelSubscribed, hashed, decide_true,
    Bool.true_and, listening, Bool.and_true, decide_eq_true_eq]

theorem userPayload_length (env : Env) (call : Bytes × Bytes) :
    (userPayload env call).length = 33 + call.2.length := by
  simp only [userPayload, hashChannelName, List.length_cons, List.length_append, env.sha256_length]
  omega

theorem callbacks_delivered (env : Env) (n : Node) (peerID : Bytes) (calls : List (Bytes × Bytes))
    (listening : n.onReceive = true) :
    ((calls.map (userPayload env)).filter
        fun payload => decide (payload.length ≤ maxReassemblySize)).flatMap (n.callbacks peerID) =
      (calls.filter fun call => decide (hashChannelName env call.1 ∈ n.localChannelSet ∧
        33 + call.2.length ≤ maxReassemblySize)).map (fun call => .onReceive peerID call.2) := by
  induction calls with
  | nil => rfl
  | cons call calls ih =>
      rw [List.map_cons, List.filter_cons, List.filter_cons, userPayload_length]
      by_cases fits : 33 + call.2.length ≤ maxReassemblySize
      · by_cases joined : hashChannelName env call.1 ∈ n.localChannelSet
        · simp only [fits, joined, and_self, decide_true, if_true, List.flatMap_cons, ih,
            callbacks_userPayload env n peerID call listening, List.map_cons,
            List.singleton_append]
        · simp only [fits, joined, and_true, decide_true, decide_false, if_true, if_false,
            Bool.false_eq_true, List.flatMap_cons, ih,
            callbacks_userPayload env n peerID call listening, List.nil_append]
      · simp only [fits, and_false, decide_false, Bool.false_eq_true, if_false, ih]

theorem ciphertexts_short (aead : IdealAead) (key : CipherKey) (nonce : Nat)
    (frames : List (Fragment.Frame UInt8))
    (bound : ∀ frame ∈ frames, frame.body.length ≤ maxPayloadSize) :
    ∀ packet ∈ (ciphertexts aead.toAead key nonce frames).map
      (fun packet => (packetTypeData, packet)), packet.2.length + 5 < 65536 := by
  induction frames generalizing nonce with
  | nil => simp [ciphertexts]
  | cons frame frames ih =>
      intro packet member
      rw [ciphertexts, List.map_cons] at member
      rcases List.mem_cons.mp member with rfl | later
      · have small : frame.body.length ≤ 61440 := bound frame List.mem_cons_self
        rw [aead.overhead, List.length_cons]
        omega
      · exact ih (nonce + 1)
          (fun next present => bound next (List.mem_cons_of_mem frame present)) packet later

/-- However the stream is cut, the reader takes the fragments written to it one by one. -/
theorem read_fragments (aead : IdealAead) (other : Node → UInt8 → Bytes → Node × List Effect)
    (receiver : Node) (addr senderID : Bytes) (cipher : CipherState) (buffer : Option Bytes)
    (effects : List Effect) (stream : Stream) (frames : List (Fragment.Frame UInt8))
    (pieces : List Bytes) (receiving : Receiving receiver addr senderID cipher buffer)
    (bound : ∀ frame ∈ frames, frame.body.length ≤ maxPayloadSize)
    (carries : pieces.flatten = writtenTo stream
      ((ciphertexts aead.toAead cipher.key cipher.n frames).map (writeData stream))) :
    ∃ peers, stream.reader (receivePacket aead.toAead other addr) (receiver, effects)
        (pieces.map .data) =
      (({ receiver with peers }, effects ++
        (Fragment.feed maxReassemblySize buffer frames).2.flatMap (receiver.callbacks senderID)),
        .waiting) ∧
      Receiving { receiver with peers } addr senderID { cipher with n := cipher.n + frames.length }
        (Fragment.feed maxReassemblySize buffer frames).1 := by
  have written : bytesOf (pieces.map .data) =
      ((ciphertexts aead.toAead cipher.key cipher.n frames).map
        (fun packet => (packetTypeData, packet))).flatMap
        fun packet => prefixed (tentPacket packet.1 packet.2) := by
    rw [bytesOf_cut, carries, writtenTo_writeData]
  rcases receive_all aead other receiver addr senderID cipher buffer effects frames receiving with
    ⟨peers, folded, final⟩
  refine ⟨peers, ?_, final⟩
  rw [Stream.reader_packets stream _ _ (receiver, effects) _ (live_cut pieces)
    (ciphertexts_short aead cipher.key cipher.n frames bound) written, folded]

theorem split_bound (payload : Bytes) :
    ∀ frame ∈ Fragment.split maxPayloadSize payload, frame.body.length ≤ maxPayloadSize :=
  Fragment.split_body_le maxPayloadSize (by decide) payload

/-- However the stream is cut and whatever the receiver's buffer held, the callbacks are the data
of the calls on channels that the receiver has joined and that fit the reassembly limit, in order;
after any call the buffer is empty and the reader waits for the next packet. -/
theorem send_delivers (env : Env) (aead : IdealAead)
    (other : Node → UInt8 → Bytes → Node × List Effect) (sender receiver : Node)
    (peerID senderID addr : Bytes) (cipher : CipherState) (buffer : Option Bytes) (stream : Stream)
    (dial : Option UInt32) (calls : List (Bytes × Bytes)) (pieces : List Bytes)
    (transmitting : Transmitting sender peerID cipher stream dial)
    (receiving : Receiving receiver addr senderID cipher buffer)
    (listening : receiver.onReceive = true)
    (subscribed : ∀ call ∈ calls, sender.isChannelSubscribed (hashChannelName env call.1) = true)
    (carries : pieces.flatten =
      writtenTo stream (sendAll env aead.toAead sender peerID dial calls).2) :
    ∃ peers, stream.reader (receivePacket aead.toAead other addr) (receiver, [])
        (pieces.map .data) =
      (({ receiver with peers },
        (calls.filter fun call => decide (hashChannelName env call.1 ∈ receiver.localChannelSet ∧
          33 + call.2.length ≤ maxReassemblySize)).map fun call => .onReceive senderID call.2),
        .waiting) ∧
      (calls ≠ [] → ∃ p, peers.get senderID = some p ∧ p.reassemblyBuffer = none) := by
  let frames := (calls.map (userPayload env)).flatMap (Fragment.split maxPayloadSize)
  have bound : ∀ frame ∈ frames, frame.body.length ≤ maxPayloadSize := by
    intro frame member
    rcases List.mem_flatMap.mp member with ⟨payload, _, present⟩
    exact split_bound payload frame present
  rw [sendAll_written env aead.toAead sender peerID cipher stream dial calls transmitting subscribed]
    at carries
  rcases read_fragments aead other receiver addr senderID cipher buffer [] stream frames pieces receiving
    bound carries with ⟨peers, read, final⟩
  have fed := Fragment.feed_splits maxReassemblySize maxPayloadSize (by decide) buffer
    (calls.map (userPayload env))
  refine ⟨peers, ?_, ?_⟩
  · rw [read, fed, List.nil_append, callbacks_delivered env receiver senderID calls listening]
  · intro nonempty
    rcases final.record with ⟨p, session, found, _, _, held⟩
    refine ⟨p, found, ?_⟩
    rw [held, fed, if_neg (by simpa using nonempty)]

/-- A node with one channel and one connected peer over TCP connection 1, whose ciphers stand at
the given counters; the peer left a partial message behind. -/
def connectedNode (key : Key) (remote : Key) (isInitiator : Bool) (nonce : Nat) : Node :=
  let identity := newIdentity .padded key
  let n := (newNode .padded { defaultConfig with networkPassword := [1], channels := [[0x63]] }
    identity).start .padded true
  let session := sessionOf isInitiator (.one [7]) remote
  { n with
    onReceive := true
    addrToPeer := n.addrToPeer.set [0x61] (peerIDOf .padded remote)
    peers := n.peers.add
      { id := peerIDOf .padded remote
        addr := ⟨.tcp, [0x61]⟩
        originalAddr := [0x61]
        conn := some 1
        transport := .tcp
        linkMode := .p2p
        relayTarget := none
        session := some
          { session with
            sendCipher := session.sendCipher.map fun cipher => { cipher with n := nonce }
            recvCipher := session.recvCipher.map fun cipher => { cipher with n := nonce } }
        lastSeen := 0
        reassemblyBuffer := some [0x02, 0x63] } }

theorem connected_transmitting : Transmitting (connectedNode [1] [2] true 5) (peerIDOf .padded [2])
    ⟨⟨.one [7], true⟩, 5⟩ (.tcp 1) none :=
  ⟨by decide, _, _, rfl, rfl, rfl, _, _, rfl, fun _ => rfl⟩

theorem connected_receiving : Receiving (connectedNode [2] [1] false 5) [0x61] (peerIDOf .padded [1])
    ⟨⟨.one [7], true⟩, 5⟩ (some [0x02, 0x63]) :=
  ⟨rfl, _, _, rfl, rfl, rfl, rfl⟩

theorem send_delivers_hi :
    ∃ peers, (Stream.tcp 1).reader
        (receivePacket IdealAead.tagged.toAead (fun n _ _ => (n, [])) [0x61])
        (connectedNode [2] [1] false 5, [])
        [.data (writtenTo (.tcp 1) (sendAll .padded IdealAead.tagged.toAead
          (connectedNode [1] [2] true 5) (peerIDOf .padded [2]) none [([0x63], [0x68, 0x69])]).2)] =
      (({ connectedNode [2] [1] false 5 with peers },
        [.onReceive (peerIDOf .padded [1]) [0x68, 0x69]]), .waiting) ∧
      ∃ p, peers.get (peerIDOf .padded [1]) = some p ∧ p.reassemblyBuffer = none := by
  rcases send_delivers .padded IdealAead.tagged (fun n _ _ => (n, [])) _ _ _ _ _ _ _ (.tcp 1) none
    [([0x63], [0x68, 0x69])] [_] connected_transmitting connected_receiving rfl (by decide) (List.flatten_singleton)
    with ⟨peers, read, emptied⟩
  exact ⟨peers, read, emptied (by decide)⟩

section MessageSize

variable (env : Env) (aead : IdealAead) (other : Node → UInt8 → Bytes → Node × List Effect)
  (sender receiver : Node) (peerID senderID addr : Bytes) (stream : Stream) (dial : Option UInt32)
  (channelName data : Bytes)

/-- `Send` and the receiver agree on how long a message may be: what `Send` accepts is delivered, and
it rejects, before the first fragment, exactly what the receiver would drop. -/
structure SizeAgreed : Prop where
  accepted : (sender.send env aead.toAead channelName peerID data dial fun _ => true).2.2 = none →
    ∀ pieces : List Bytes, pieces.flatten = writtenTo stream
        (sender.send env aead.toAead channelName peerID data dial fun _ => true).2.1 →
      (stream.reader (receivePacket aead.toAead other addr) (receiver, []) (pieces.map .data)).1.2 =
        [.onReceive senderID data]
  rejected :
    ((sender.send env aead.toAead channelName peerID data dial fun _ => true).2.2.isSome = true ∧
      (sender.send env aead.toAead channelName peerID data dial fun _ => true).2.1 = []) ↔
      maxReassemblySize < 33 + data.length

variable {sender receiver peerID senderID addr stream dial}
  {cipher : CipherState} {buffer : Option Bytes}
  (transmitting : Transmitting sender peerID cipher stream dial)
  (subscribed : sender.isChannelSubscribed (hashChannelName env channelName) = true)

include transmitting subscribed

theorem send_unlimited :
    (sender.send env aead.toAead channelName peerID data dial fun _ => true).2.2 = none := by
  rcases send_next env aead.toAead sender peerID cipher stream dial (channelName, data) transmitting
    subscribed with ⟨sent, written, _⟩
  exact congrArg (fun result => result.2.2) written

theorem not_sizeAgreed (long : maxReassemblySize < 33 + data.length) :
    ¬SizeAgreed env aead other sender receiver peerID senderID addr stream dial channelName data := by
  intro agreed
  have rejects := (agreed.rejected.mpr long).1
  rw [send_unlimited env aead channelName data transmitting subscribed] at rejects
  cases rejects

/-- Sender and receiver agree exactly on the data that fits the receiver's limit. -/
theorem size_agreed_iff (receiving : Receiving receiver addr senderID cipher buffer)
    (listening : receiver.onReceive = true)
    (joined : hashChannelName env channelName ∈ receiver.localChannelSet) :
    SizeAgreed env aead other sender receiver peerID senderID addr stream dial channelName data ↔
      33 + data.length ≤ maxReassemblySize := by
  constructor
  · intro agreed
    by_contra long
    exact not_sizeAgreed env aead other channelName data transmitting subscribed (Nat.lt_of_not_le long)
      agreed
  · intro fits
    rcases send_next env aead.toAead sender peerID cipher stream dial (channelName, data) transmitting
      subscribed with ⟨sent, written, _⟩
    refine ⟨?_, ?_⟩
    · intro _ pieces carries
      rw [written] at carries
      rcases read_fragments aead other receiver addr senderID cipher buffer [] stream _ pieces receiving
        (split_bound (userPayload env (channelName, data))) carries with ⟨peers, read, _⟩
      rw [read, Fragment.feed_split maxReassemblySize maxPayloadSize (by decide), userPayload_length,
        if_pos fits]
      simp only [List.flatMap_cons, List.flatMap_nil, List.append_nil, List.nil_append,
        callbacks_userPayload env receiver senderID (channelName, data) listening, if_pos joined]
    · rw [send_unlimited env aead channelName data transmitting subscribed]
      exact ⟨fun rejects => absurd rejects.1 (by simp), fun long => absurd fits (Nat.not_le.mpr long)⟩

end MessageSize

theorem size_agreed_hi :
    SizeAgreed .padded .tagged (fun n _ _ => (n, [])) (connectedNode [1] [2] true 5)
      (connectedNode [2] [1] false 5) (peerIDOf .padded [2]) (peerIDOf .padded [1]) [0x61] (.tcp 1) none
      [0x63] [0x68, 0x69] :=
  (size_agreed_iff .padded .tagged _ [0x63] [0x68, 0x69] connected_transmitting (by decide)
    connected_receiving rfl (by decide)).mpr (by decide)

/-- 50 MiB of data, with its header 33 bytes too long for the receiver: `Send` takes it. -/
theorem oversized_message_accepted :
    ¬SizeAgreed .padded .tagged (fun n _ _ => (n, [])) (connectedNode [1] [2] true 5)
      (connectedNode [2] [1] false 5) (peerIDOf .padded [2]) (peerIDOf .padded [1]) [0x61] (.tcp 1) none
      [0x63] (List.replicate maxReassemblySize 0) := by
  apply not_sizeAgreed .padded .tagged _ [0x63] _ connected_transmitting (by decide)
  rw [List.length_replicate]
  omega

end Tenet
