import Tenet.Node
import Tenet.Lib.Fragment

/-! Sending application data: `Send` and `sendAppFrame` of `node/node_channel.go`. -/

namespace Tenet

open Lib

def appFrameTypeUserWithChannel : UInt8 := 0x02
def appFrameTypeChannelUpdate : UInt8 := 0x01

inductive SendError where
  | toSelf
  | peerNotFound (peerID : Bytes)
  | noSession
  | invalidAddressType
  | kcpUnavailable
  | kcpUpgradeFailed
  | noChannel
  | notSubscribed (channelName : Bytes)
  | kcpSessionMissing (peerID : Bytes)
  | sessionClosed
  | writeFailed
  deriving DecidableEq, Repr

def utf8 (text : String) : Bytes := text.toUTF8.toList

/-- The text of an error, up to what the libraries below add to it. -/
def SendError.message : SendError → Bytes
  | .toSelf => utf8 "不能向本节点发送数据"
  | .peerNotFound peerID => utf8 "未找到对等节点: " ++ peerID
  | .noSession => utf8 "对等节点会话未建立"
  | .invalidAddressType => utf8 "udp transport has invalid address type"
  | .kcpUnavailable => utf8 "reliable data transport unavailable: udp peer without kcp"
  | .kcpUpgradeFailed => utf8 "failed to upgrade to kcp for data transport: KCP 连接失败: "
  | .noChannel => utf8 "无法建立发送通道"
  | .notSubscribed channelName => utf8 "节点未订阅频道: " ++ channelName
  | .kcpSessionMissing peerID => utf8 "KCP 会话不存在: " ++ peerID
  | .sessionClosed => utf8 "session closed"
  | .writeFailed => []

/-- Which `sendFunc` a call picked. -/
inductive SendPath where
  | tcp (conn : ConnId)
  | kcp (peerID : Bytes)
  deriving DecidableEq, Repr

def frameType : Fragment.Kind → UInt8
  | .single => frameTypeSingle
  | .first => frameTypeFirst
  | .middle => frameTypeMiddle
  | .last => frameTypeLast

namespace Node

def sendPath (n : Node) (p : Peer) (dial : Option UInt32) : Node × Except SendError SendPath :=
  match p.transport, p.conn with
  | .tcp, some conn => (n, .ok (.tcp conn))
  | transport, _ =>
      if n.hasSession p.id then (n, .ok (.kcp p.id))
      else if transport = .udp then
        if p.addr.kind ≠ .udp then (n, .error .invalidAddressType)
        else if n.kcpTransport.isNone then (n, .error .kcpUnavailable)
        else if (n.upgradePeer p.id p.addr.text dial).2 then
          ((n.upgradePeer p.id p.addr.text dial).1, .ok (.kcp p.id))
        else ((n.upgradePeer p.id p.addr.text dial).1, .error .kcpUpgradeFailed)
      else (n, .error .noChannel)

theorem sendPath_frame (n : Node) (p : Peer) (dial : Option UInt32) :
    ∃ mux kcpTransport addrToPeer,
      (n.sendPath p dial).1 = { n with mux, kcpTransport, addrToPeer } := by
  have unchanged : ∃ mux kcpTransport addrToPeer, n = { n with mux, kcpTransport, addrToPeer } :=
    ⟨n.mux, n.kcpTransport, n.addrToPeer, rfl⟩
  have dialed := n.upgradePeer_frame p.id p.addr.text dial
  unfold sendPath
  split
  · exact unchanged
  · split
    · exact unchanged
    · split
      · split
        · exact unchanged
        · split
          · exact unchanged
          · split <;> exact dialed
      · exact unchanged

/-- `sendFunc` on one packet; `accepted` is the outcome of the transport's write. -/
def writePacket (n : Node) (path : SendPath) (accepted : Bool) (packet : Bytes) :
    Except SendError Effect :=
  match path with
  | .tcp conn =>
      if accepted then .ok (.write (.tcp conn) (encodeTCPFrame packet)) else .error .writeFailed
  | .kcp peerID =>
      match n.kcpTransport.bind fun t => t.sessions.get peerID with
      | none => .error (.kcpSessionMissing peerID)
      | some session =>
          if session.closed = false ∧ accepted = true then
            .ok (.write (.kcp session.handler) (kcpFrame packet))
          else .error .writeFailed

end Node

/-- How far one call of `sendAppFrame` has come. -/
structure Sending where
  session : Session
  attempts : Nat
  effects : List Effect

section

variable (aead : Aead) (n : Node) (path : SendPath) (accepts : Nat → Bool)

/-- The nonce is spent before the write, so a failed write leaves a gap. -/
def sendFrame (s : Sending) (frameType : UInt8) (fragmentData : Bytes) :
    Sending × Option SendError :=
  match s.session.encrypt aead (frameType :: fragmentData) with
  | none => (s, some .sessionClosed)
  | some (encrypted, session) =>
      match n.writePacket path (accepts s.attempts) (buildDataPacket encrypted) with
      | .error err => ({ s with session, attempts := s.attempts + 1 }, some err)
      | .ok effect => (⟨session, s.attempts + 1, s.effects ++ [effect]⟩, none)

theorem sendFrame_session (s : Sending) (frameType : UInt8) (fragmentData : Bytes) :
    (sendFrame aead n path accepts s frameType fragmentData).1.session =
      { s.session with
        sendCipher := s.session.sendCipher.map fun cipher => { cipher with n := cipher.n + 1 } } := by
  rcases s with ⟨⟨sendCipher, recvCipher, remote, hash⟩, attempts, effects⟩
  cases sendCipher with
  | none => rfl
  | some cipher =>
      simp only [sendFrame, Session.encrypt, Option.map_some]
      split <;> rfl

/-- The loop over middle fragments, and the last fragment. -/
def sendFrom (payload : Bytes) (offset : Nat) (s : Sending) : Sending × Option SendError :=
  if payload.length - offset > maxPayloadSize then
    match sendFrame aead n path accepts s frameTypeMiddle
        ((payload.drop offset).take maxPayloadSize) with
    | (s, some err) => (s, some err)
    | (s, none) => sendFrom payload (offset + maxPayloadSize) s
  else sendFrame aead n path accepts s frameTypeLast (payload.drop offset)
termination_by payload.length - offset
decreasing_by
  have positive : 0 < maxPayloadSize := by decide
  omega

def sendPayload (payload : Bytes) (s : Sending) : Sending × Option SendError :=
  if payload.length > maxPayloadSize then
    match sendFrame aead n path accepts s frameTypeFirst (payload.take maxPayloadSize) with
    | (s, some err) => (s, some err)
    | (s, none) => sendFrom aead n path accepts payload maxPayloadSize s
  else sendFrame aead n path accepts s frameTypeSingle payload

def sendFrames : List (Fragment.Frame UInt8) → Sending → Sending × Option SendError
  | [], s => (s, none)
  | frame :: frames, s =>
      match sendFrame aead n path accepts s (frameType frame.kind) frame.body with
      | (s, some err) => (s, some err)
      | (s, none) => sendFrames frames s

theorem sendFrames_single (frame : Fragment.Frame UInt8) (s : Sending) :
    sendFrames aead n path accepts [frame] s =
      sendFrame aead n path accepts s (frameType frame.kind) frame.body := by
  simp only [sendFrames]
  split <;> simp_all

theorem sendFrom_eq_sendFrames (payload : Bytes) (offset : Nat) (s : Sending) :
    sendFrom aead n path accepts payload offset s =
      sendFrames aead n path accepts (Fragment.rest maxPayloadSize (payload.drop offset)) s := by
  fun_induction sendFrom aead n path accepts payload offset s with
  | case1 offset s long sent err stopped =>
      rw [Fragment.rest, if_pos (by rw [List.length_drop]; exact ⟨by decide, long⟩)]
      simp only [sendFrames, frameType, stopped]
  | case2 offset s long sent continued ih =>
      rw [Fragment.rest, if_pos (by rw [List.length_drop]; exact ⟨by decide, long⟩)]
      simp only [sendFrames, frameType, continued, ih, List.drop_drop]
  | case3 offset s short =>
      rw [Fragment.rest, if_neg (by rw [List.length_drop]; exact fun both => short both.2),
        sendFrames_single]
      rfl

theorem sendPayload_eq_sendFrames (payload : Bytes) (s : Sending) :
    sendPayload aead n path accepts payload s =
      sendFrames aead n path accepts (Fragment.split maxPayloadSize payload) s := by
  unfold sendPayload Fragment.split
  by_cases long : payload.length > maxPayloadSize
  · rw [if_pos long, if_pos long]
    simp only [sendFrames, frameType, sendFrom_eq_sendFrames]
  · rw [if_neg long, if_neg long, sendFrames_single]
    rfl

end

namespace Node

/-- `dial` is the outcome of dialing KCP, should the call do so, and `accepts` says which of its
writes the transport takes. -/
def sendAppFrame (aead : Aead) (n : Node) (peerID : Bytes) (appFrameType : UInt8) (data : Bytes)
    (dial : Option UInt32) (accepts : Nat → Bool) : Node × List Effect × Option SendError :=
  if peerID = n.id then (n, [], some .toSelf)
  else match n.peers.get peerID with
  | none => (n, [], some (.peerNotFound peerID))
  | some p =>
      match p.session with
      | none => (n, [], some .noSession)
      | some session =>
          match n.sendPath p dial with
          | (n, .error err) => (n, [], some err)
          | (n, .ok path) =>
              let (s, err) :=
                sendPayload aead n path accepts (appFrameType :: data) ⟨session, 0, []⟩
              ({ n with peers := n.peers.add { p with session := some s.session } }, s.effects, err)

def send (env : Env) (aead : Aead) (n : Node) (channelName peerID data : Bytes)
    (dial : Option UInt32) (accepts : Nat → Bool) : Node × List Effect × Option SendError :=
  if n.isChannelSubscribed (hashChannelName env channelName) then
    n.sendAppFrame aead peerID appFrameTypeUserWithChannel
      (hashChannelName env channelName ++ data) dial accepts
  else (n, [], some (.notSubscribed channelName))

end Node

def ciphertexts (aead : Aead) (key : CipherKey) : Nat → List (Fragment.Frame UInt8) → List Bytes
  | _, [] => []
  | nonce, frame :: frames =>
      aead.encrypt key nonce (frameType frame.kind :: frame.body) ::
        ciphertexts aead key (nonce + 1) frames

theorem ciphertexts_append (aead : Aead) (key : CipherKey) (nonce : Nat)
    (front back : List (Fragment.Frame UInt8)) :
    ciphertexts aead key nonce (front ++ back) =
      ciphertexts aead key nonce front ++ ciphertexts aead key (nonce + front.length) back := by
  induction front generalizing nonce with
  | nil => rfl
  | cons frame front ih =>
      simp only [List.cons_append, ciphertexts, ih, List.length_cons]
      rw [Nat.add_right_comm, Nat.add_assoc]

def writeData (stream : Stream) (ciphertext : Bytes) : Effect :=
  .write stream (ByteStream.prefixed (buildDataPacket ciphertext))

section Writes

variable (aead : Aead) (n : Node) (path : SendPath) (stream : Stream) (err : SendError)
  (accepts takes : Nat → Bool)

/-- How far a call came: its first `count` fragments are in the stream, and either these are all, or
the write of the next one was refused after its nonce was spent. -/
structure Written (frames : List (Fragment.Frame UInt8)) (s : Sending) (cipher : CipherState)
    (count : Nat) (sent : Sending) (failed : Option SendError) : Prop where
  within : count ≤ frames.length
  taken : ∀ attempt < count, takes (s.attempts + attempt) = true
  effects : sent.effects = s.effects ++
    (ciphertexts aead cipher.key cipher.n (frames.take count)).map (writeData stream)
  outcome : (failed = none ∧ count = frames.length ∧
      sent.session = { s.session with sendCipher := some { cipher with n := cipher.n + count } }) ∨
    (failed = some err ∧ count < frames.length ∧ takes (s.attempts + count) = false ∧
      sent.session =
        { s.session with sendCipher := some { cipher with n := cipher.n + count + 1 } })

theorem sendFrame_written (frame : Fragment.Frame UInt8) (s : Sending) (cipher : CipherState)
    (keyed : s.session.sendCipher = some cipher)
    (writes : ∀ packet, n.writePacket path (accepts s.attempts) packet =
      if takes s.attempts then .ok (.write stream (ByteStream.prefixed packet)) else .error err) :
    sendFrame aead n path accepts s (frameType frame.kind) frame.body =
      (⟨{ s.session with sendCipher := some { cipher with n := cipher.n + 1 } }, s.attempts + 1,
          if takes s.attempts then s.effects ++ [writeData stream
            (aead.encrypt cipher.key cipher.n (frameType frame.kind :: frame.body))] else s.effects⟩,
        if takes s.attempts then none else some err) := by
  simp only [sendFrame, Session.encrypt, keyed, Option.map_some, writes]
  cases takes s.attempts <;> rfl

theorem sendFrames_written (frames : List (Fragment.Frame UInt8)) (s : Sending) (cipher : CipherState)
    (keyed : s.session.sendCipher = some cipher)
    (writes : ∀ attempt < frames.length, ∀ packet,
      n.writePacket path (accepts (s.attempts + attempt)) packet =
        if takes (s.attempts + attempt) then .ok (.write stream (ByteStream.prefixed packet))
        else .error err) :
    ∃ count sent failed, sendFrames aead n path accepts frames s = (sent, failed) ∧
      Written aead stream err takes frames s cipher count sent failed := by
  induction frames generalizing s cipher with
  | nil =>
      refine ⟨0, s, none, rfl, Nat.le_refl 0, fun _ inside => absurd inside (Nat.not_lt_zero _),
        (List.append_nil s.effects).symm, Or.inl ⟨rfl, rfl, ?_⟩⟩
      rcases s with ⟨⟨sendCipher, recvCipher, remote, hash⟩, attempts, effects⟩
      cases keyed
      rfl
  | cons frame frames ih =>
      have first := sendFrame_written aead n path stream err accepts takes frame s cipher keyed
        (writes 0 (Nat.zero_lt_succ _))
      cases now : takes s.attempts with
      | false =>
          rw [now, if_neg Bool.false_ne_true, if_neg Bool.false_ne_true] at first
          simp only [sendFrames, first]
          exact ⟨0, _, _, rfl, Nat.zero_le _, fun _ inside => absurd inside (Nat.not_lt_zero _),
            (List.append_nil s.effects).symm, Or.inr ⟨rfl, Nat.zero_lt_succ _, now, rfl⟩⟩
      | true =>
          rw [now, if_pos rfl, if_pos rfl] at first
          have shifted (attempt : Nat) : s.attempts + (attempt + 1) = s.attempts + 1 + attempt := by
            omega
          let next : Sending :=
            ⟨{ s.session with sendCipher := some { cipher with n := cipher.n + 1 } }, s.attempts + 1,
              s.effects ++ [writeData stream
                (aead.encrypt cipher.key cipher.n (frameType frame.kind :: frame.body))]⟩
          rcases ih next { cipher with n := cipher.n + 1 } rfl (by
              intro attempt inside packet
              rw [← shifted attempt]
              exact writes (attempt + 1) (Nat.succ_lt_succ inside) packet) with
            ⟨count, sent, failed, ran, later⟩
          have nonces : cipher.n + (count + 1) = cipher.n + 1 + count := by omega
          simp only [sendFrames, first]
          refine ⟨count + 1, sent, failed, ran, Nat.succ_le_succ later.within, ?_, ?_, ?_⟩
          · intro attempt inside
            cases attempt with
            | zero => exact now
            | succ attempt =>
                rw [shifted]
                exact later.taken attempt (Nat.lt_of_succ_lt_succ inside)
          · rw [later.effects, List.append_assoc]
            rfl
          · rw [nonces, shifted count]
            rcases later.outcome with ⟨done, all, moved⟩ | ⟨stopped, short, refused, moved⟩
            · exact Or.inl ⟨done, congrArg (· + 1) all, moved⟩
            · exact Or.inr ⟨stopped, Nat.succ_lt_succ short, refused, moved⟩

end Writes

theorem sendFrames_taken (aead : Aead) (n : Node) (path : SendPath) (stream : Stream)
    (accepts : Nat → Bool) (frames : List (Fragment.Frame UInt8)) (s : Sending) (cipher : CipherState)
    (keyed : s.session.sendCipher = some cipher)
    (writable : ∀ attempt < frames.length, ∀ packet,
      n.writePacket path (accepts (s.attempts + attempt)) packet =
        .ok (.write stream (ByteStream.prefixed packet))) :
    ∃ sent, sendFrames aead n path accepts frames s = (sent, none) ∧
      sent.session = { s.session with
        sendCipher := some { cipher with n := cipher.n + frames.length } } ∧
      sent.effects =
        s.effects ++ (ciphertexts aead cipher.key cipher.n frames).map (writeData stream) := by
  rcases sendFrames_written aead n path stream .writeFailed accepts (fun _ => true) frames s cipher
    keyed writable with ⟨count, sent, failed, ran, written⟩
  rcases written.outcome with ⟨rfl, rfl, moved⟩ | ⟨_, _, refused, _⟩
  · have effects := written.effects
    rw [List.take_length] at effects
    exact ⟨sent, ran, moved, effects⟩
  · cases refused

theorem sendFrames_accepted (aead : Aead) (n : Node) (path : SendPath) (stream : Stream)
    (frames : List (Fragment.Frame UInt8)) (s : Sending) (cipher : CipherState)
    (keyed : s.session.sendCipher = some cipher)
    (writable : ∀ packet, n.writePacket path true packet =
      .ok (.write stream (ByteStream.prefixed packet))) :
    ∃ sent, sendFrames aead n path (fun _ => true) frames s = (sent, none) ∧
      sent.session = { s.session with
        sendCipher := some { cipher with n := cipher.n + frames.length } } ∧
      sent.effects =
        s.effects ++ (ciphertexts aead cipher.key cipher.n frames).map (writeData stream) :=
  sendFrames_taken aead n path stream (fun _ => true) frames s cipher keyed fun _ _ => writable

end Tenet
