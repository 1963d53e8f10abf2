import Tenet.Transcript
import Tenet.Lib.Run

/-! One direction of a connection under an adversarial network: calls of `sendAppFrame` whose
writes may fail at any fragment, data packets that the network makes up, and sessions replaced on
either side between any two steps. -/

namespace Tenet.Splicing

open Lib Transcript

structure Opened where
  key : CipherKey
  nonce : Nat
  plaintext : Bytes

structure Delivery where
  payload : Bytes
  key : CipherKey
  nonce : Nat

structure State where
  sender : Peer
  senderKeys : List CipherKey
  /-- the payloads of the calls, in the order in which they took `sendMu` -/
  calls : List Bytes
  /-- the next fragment of the last call, while it holds `sendMu` -/
  sending : Option Nat
  log : Log
  receiver : Peer
  receiverKeys : List CipherKey
  opened : Option Opened
  delivered : List Delivery

inductive Action where
  | call (payload : Bytes)
  | fragment (n : Node) (path : SendPath) (accepts : Nat → Bool)
  | upgradeSender (addr : NetAddr) (conn : Option ConnId) (transport : Transport)
      (session : Session) (now : Int)
  | upgradeReceiver (addr : NetAddr) (conn : Option ConnId) (transport : Transport)
      (session : Session) (now : Int)
  | decrypt (packet : Bytes)
  | dispatch (n : Node)

def sendCipher (p : Peer) : Option CipherState := p.session.bind Session.sendCipher

def recvCipher (p : Peer) : Option CipherState := p.session.bind Session.recvCipher

def keysOf (cipher : Option CipherState) : List CipherKey := cipher.toList.map CipherState.key

/-- The cipher of a new handshake: a key not seen before, at nonce zero. -/
def isFresh (used : List CipherKey) (cipher : Option CipherState) : Bool :=
  cipher.all fun cipher => decide (cipher.n = 0 ∧ cipher.key ∉ used)

section

variable (encryption : CipherKey → Nat → Bytes → Bytes)

/-- The next `sendFrame` of the running call. The call returns after its last fragment, and at
the first error. -/
def sendNext (s : State) (n : Node) (path : SendPath) (accepts : Nat → Bool) : State :=
  match s.sending, s.calls.getLast?, s.sender.session with
  | some index, some payload, some session =>
      match (Fragment.split maxPayloadSize payload)[index]? with
      | none => { s with sending := none }
      | some frame =>
          let sent := sendFrame (idealAead encryption s.log) n path accepts ⟨session, index, []⟩
            (frameType frame.kind) frame.body
          { s with
            sender := { s.sender with session := some sent.1.session }
            log := match session.sendCipher with
              | none => s.log
              | some cipher => record s.log cipher.key
                  ⟨encryption cipher.key cipher.n (frameType frame.kind :: frame.body), frame,
                    s.calls.length - 1, index⟩
            sending := if sent.2.isNone then some (index + 1) else none }
  | _, _, _ => s

def step (s : State) : Action → State
  | .call payload =>
      if s.sending.isNone ∧ s.sender.session.isSome then
        { s with calls := s.calls ++ [payload], sending := some 0 }
      else s
  | .fragment n path accepts => sendNext encryption s n path accepts
  | .upgradeSender addr conn transport session now =>
      -- `UpgradeTransport` waits for `sendMu`
      if s.sending.isNone ∧ isFresh s.senderKeys session.sendCipher then
        { s with
          sender := (s.sender.upgradeTransport addr conn transport session now).1
          senderKeys := keysOf session.sendCipher ++ s.senderKeys }
      else s
  | .upgradeReceiver addr conn transport session now =>
      if isFresh s.receiverKeys session.recvCipher then
        { s with
          receiver := (s.receiver.upgradeTransport addr conn transport session now).1
          receiverKeys := keysOf session.recvCipher ++ s.receiverKeys }
      else s
  | .decrypt packet =>
      -- `processData` calls for one peer do not overlap
      if s.opened.isSome then s
      else match s.receiver.decrypt (idealAead encryption s.log) packet, recvCipher s.receiver with
        | some (plaintext, p), some cipher =>
            { s with receiver := p, opened := some ⟨cipher.key, cipher.n, plaintext⟩ }
        | _, _ => { s with receiver := s.receiver.incDecryptFailures.1 }
  | .dispatch n =>
      match s.opened with
      | none => s
      | some opened =>
          let handed := (s.receiver.resetDecryptFailures.receiveFrame opened.plaintext).2
          { s with
            receiver := (n.dispatchFrame s.receiver.id s.receiver opened.plaintext).1
            opened := none
            delivered := s.delivered ++
              handed.toList.map fun payload => ⟨payload, opened.key, opened.nonce⟩ }

def start (sender receiver : Peer) : State where
  sender := sender
  senderKeys := keysOf (sendCipher sender)
  calls := []
  sending := none
  log := fun _ => []
  receiver := receiver
  receiverKeys := keysOf (recvCipher receiver)
  opened := none
  delivered := []

end

end Tenet.Splicing
