import Tenet.Heartbeat
import Tenet.RelayAuth

/-! Fast re-handshakes: `node/rehandshake.go` and the throttle it keeps in `peer/peer.go`. -/

namespace Tenet

open Lib

structure FastRehandshakeConfig where
  baseBackoff : Int := 500000000
  maxBackoff : Int := 8000000000
  window : Int := 30000000000
  maxAttemptsWindow : Int := 6
  failThreshold : Int := 3
  pendingTTL : Int := 30000000000

namespace Peer

def tryBeginRehandshake (p : Peer) : Option Peer :=
  if p.rehandshake.inFlight then none
  else some { p with rehandshake := { p.rehandshake with inFlight := true } }

def endRehandshake (p : Peer) : Peer :=
  { p with rehandshake := { p.rehandshake with inFlight := false } }

def openWindow (r : Rehandshake) (now window : Int) : Rehandshake :=
  match r.windowStart with
  | some start =>
      if now - start ≥ window then { r with windowStart := some now, windowCount := 0 } else r
  | none => { r with windowStart := some now, windowCount := 0 }

/-- The record, whether the attempt is allowed, and how long to wait if it is not. -/
def reserveRehandshakeAttempt (p : Peer) (now window maxInWindow : Int) : Peer × Bool × Int :=
  match p.rehandshake.nextAttempt.filter (fun next => decide (now < next)) with
  | some next => (p, false, next - now)
  | none =>
      let r := if window > 0 then openWindow p.rehandshake now window else p.rehandshake
      if window > 0 ∧ maxInWindow > 0 ∧ (r.windowCount : Int) ≥ maxInWindow then
        ({ p with rehandshake := r }, false, max 0 (r.windowStart.getD now + window - now))
      else ({ p with rehandshake := { r with windowCount := r.windowCount + 1 } }, true, 0)

/-- The record, the failures so far and the delay; the backoff doubles in 64 bits. -/
def recordRehandshakeFailure (p : Peer) (now baseBackoff maxBackoff : Int) : Peer × Nat × Int :=
  let baseBackoff := if baseBackoff ≤ 0 then 1000000000 else baseBackoff
  let maxBackoff := if maxBackoff > 0 ∧ maxBackoff < baseBackoff then baseBackoff else maxBackoff
  let failures := p.rehandshake.consecutiveRehandshakeFails + 1
  let raised :=
    if p.rehandshake.backoff ≤ 0 then baseBackoff
    else max (int64 (p.rehandshake.backoff * 2)) baseBackoff
  let backoff := if maxBackoff > 0 ∧ raised > maxBackoff then maxBackoff else raised
  ({ p with
      rehandshake :=
        { p.rehandshake with
          consecutiveRehandshakeFails := failures
          backoff
          nextAttempt := some (now + backoff) } },
    failures, backoff)

def recordRehandshakeSuccess (p : Peer) (now cooldown : Int) : Peer :=
  { p with
    rehandshake :=
      { p.rehandshake with
        consecutiveRehandshakeFails := 0
        backoff := 0
        nextAttempt := if cooldown > 0 then some (now + cooldown) else none } }

end Peer

/-- How `sendFastRehandshake` ends: `errFastRehandshakeBusy`, any other error, or message 1 written. -/
inductive RehandshakeSend
  | busy
  | failed
  | written
  deriving DecidableEq, Repr

/-- How `triggerFastRehandshake` ends: an attempt is in flight or throttled, the peer has no
address, or the goroutine of an attempt was started. -/
inductive RehandshakeTrigger
  | refused
  | unaddressed
  | started
  deriving DecidableEq, Repr

/-- Whether `sendRaw` succeeds, given what the transport does with the packet. -/
def sendRawSucceeds (conn : Option ConnId) (addr : NetAddr) (transport : Transport)
    (accepted : Bool) : Bool :=
  if transport = .tcp ∧ conn.isSome then accepted else decide (addr.kind = .udp) && accepted

namespace Node

/-- `ephemeral` is the key of the new handshake, `accepted` the outcome of the write. The state is
registered before the write and deleted again when the write fails. -/
def sendFastRehandshake (n : Node) (p : Peer) (ephemeral : Key) (now : Int) (accepted : Bool) :
    Node × List Effect × RehandshakeSend :=
  if p.transport ≠ .tcp ∧ p.transport ≠ .udp then (n, [], .failed)
  else
    let hs := newInitiatorHandshake n.identity.noisePublicKey n.config.networkPassword ephemeral now
    let stateKey := (p.transport, p.addr.text)
    if (n.pendingHandshakes.get stateKey).isSome then (n, [], .busy)
    else
      let registered := n.pendingHandshakes.set stateKey hs.1
      if sendRawSucceeds p.conn p.addr p.transport accepted then
        ({ n with pendingHandshakes := registered },
          [.sendRaw p.conn p.addr p.transport (.handshake hs.2)], .written)
      else ({ n with pendingHandshakes := registered.delete stateKey }, [], .failed)

def triggerFastRehandshake (cfg : FastRehandshakeConfig) (n : Node) (peerID : Bytes) (now : Int) :
    Node × List Effect × RehandshakeTrigger :=
  match (n.peers.get peerID).bind Peer.tryBeginRehandshake with
  | none => (n, [], .refused)
  | some p =>
      match p.reserveRehandshakeAttempt now cfg.window cfg.maxAttemptsWindow with
      | (p, false, _) => ({ n with peers := n.peers.add p.endRehandshake }, [], .refused)
      | (p, true, _) =>
          let p := p.resetDecryptFailures
          let targetAddr := if p.originalAddr = [] then p.addr.text else p.originalAddr
          if targetAddr = [] then
            let removed := ({ n with peers := n.peers.add p.endRehandshake } :
              Node).removePeerWithReconnect peerID true
            (removed.1, removed.2, .unaddressed)
          else ({ n with peers := n.peers.add p }, [], .started)

/-- The goroutine, on the record it was started for: the node, the record, and how the attempt
ended unless the node is closing. Giving up is `removePeerWithReconnect(peerID, true)`. -/
def runFastRehandshake (cfg : FastRehandshakeConfig) (n : Node) (p : Peer)
    (closing accepted : Bool) (ephemeral : Key) (now : Int) :
    Node × Peer × List Effect × Option RehandshakeSend × Bool :=
  if closing then (n, p.endRehandshake, [], none, false)
  else
    let sent := n.sendFastRehandshake p ephemeral now accepted
    match sent.2.2 with
    | .busy => (sent.1, p.endRehandshake, sent.2.1, some .busy, false)
    | .written =>
        (sent.1, (p.recordRehandshakeSuccess now cfg.baseBackoff).endRehandshake, sent.2.1,
          some .written, false)
    | .failed =>
        let recorded := p.recordRehandshakeFailure now cfg.baseBackoff cfg.maxBackoff
        (sent.1, recorded.1.endRehandshake, sent.2.1, some .failed,
          decide ((recorded.2.1 : Int) ≥ cfg.failThreshold))

end Node

def Node.initiate (n : Node) (ephemeral : Key) (now : Int) : HandshakeState :=
  (newInitiatorHandshake n.identity.noisePublicKey n.config.networkPassword ephemeral now).1

theorem sendFastRehandshake_frame (n : Node) (p : Peer) (ephemeral : Key) (now : Int)
    (accepted : Bool) :
    ∃ pendingHandshakes, (n.sendFastRehandshake p ephemeral now accepted).1 =
        { n with pendingHandshakes } ∧
      (∀ key hs, pendingHandshakes.get key = some hs →
        n.pendingHandshakes.get key = some hs ∨ hs = n.initiate ephemeral now) ∧
      ∀ effect ∈ (n.sendFastRehandshake p ephemeral now accepted).2.1,
        ∃ message, effect = .sendRaw p.conn p.addr p.transport (.handshake message) := by
  have registered (key : Transport × Bytes) (hs : HandshakeState)
      (found : (n.pendingHandshakes.set (p.transport, p.addr.text)
        (n.initiate ephemeral now)).get key = some hs) :
      n.pendingHandshakes.get key = some hs ∨ hs = n.initiate ephemeral now := by
    rcases GoMap.get_set_eq_some.mp found with ⟨_, same⟩ | ⟨_, before⟩
    · exact Or.inr same
    · exact Or.inl before
  unfold Node.sendFastRehandshake
  split
  · exact ⟨n.pendingHandshakes, rfl, fun _ _ found => Or.inl found, nofun⟩
  · dsimp only
    split
    · exact ⟨n.pendingHandshakes, rfl, fun _ _ found => Or.inl found, nofun⟩
    · split
      · refine ⟨_, rfl, registered, ?_⟩
        intro effect sent
        exact ⟨_, List.mem_singleton.mp sent⟩
      · refine ⟨_, rfl, ?_, nofun⟩
        intro key hs found
        exact registered key hs (GoMap.get_delete_eq_some.mp found).2

theorem openWindow_fails (r : Rehandshake) (now window : Int) :
    (Peer.openWindow r now window).consecutiveRehandshakeFails = r.consecutiveRehandshakeFails := by
  unfold Peer.openWindow
  split
  · split <;> rfl
  · rfl

theorem reserveRehandshakeAttempt_frame (p : Peer) (now window maxInWindow : Int) :
    ∃ r, (p.reserveRehandshakeAttempt now window maxInWindow).1 = { p with rehandshake := r } ∧
      r.consecutiveRehandshakeFails = p.rehandshake.consecutiveRehandshakeFails := by
  have opened : (if window > 0 then Peer.openWindow p.rehandshake now window
      else p.rehandshake).consecutiveRehandshakeFails =
        p.rehandshake.consecutiveRehandshakeFails := by
    split
    · exact openWindow_fails p.rehandshake now window
    · rfl
  unfold Peer.reserveRehandshakeAttempt
  cases p.rehandshake.nextAttempt.filter (fun next => decide (now < next)) with
  | some next => exact ⟨p.rehandshake, rfl, rfl⟩
  | none =>
      dsimp only
      by_cases full : window > 0 ∧ maxInWindow > 0 ∧ ((if window > 0 then
          Peer.openWindow p.rehandshake now window else p.rehandshake).windowCount : Int) ≥ maxInWindow
      · rw [if_pos full]
        exact ⟨_, rfl, opened⟩
      · rw [if_neg full]
        exact ⟨_, rfl, opened⟩

theorem triggerFastRehandshake_cases (cfg : FastRehandshakeConfig) (n : Node) (peerID : Bytes)
    (now : Int) :
    n.triggerFastRehandshake cfg peerID now = (n, [], .refused) ∨
      ∃ (stored : Peer) (rehandshake : Rehandshake), n.peers.get peerID = some stored ∧
        rehandshake.consecutiveRehandshakeFails =
          stored.rehandshake.consecutiveRehandshakeFails ∧
        (n.triggerFastRehandshake cfg peerID now =
            ({ n with peers := n.peers.add { stored with rehandshake } }, [], .refused) ∨
          n.triggerFastRehandshake cfg peerID now =
            ({ n with peers := n.peers.add { stored with rehandshake } }, [], .started) ∨
          n.triggerFastRehandshake cfg peerID now =
            ((({ n with peers := n.peers.add { stored with rehandshake } } :
                Node).removePeerWithReconnect peerID true).1,
              (({ n with peers := n.peers.add { stored with rehandshake } } :
                Node).removePeerWithReconnect peerID true).2, .unaddressed)) := by
  cases begun : (n.peers.get peerID).bind Peer.tryBeginRehandshake with
  | none => exact Or.inl (by simp only [Node.triggerFastRehandshake, begun])
  | some p =>
      obtain ⟨stored, found, marked⟩ := Option.bind_eq_some_iff.mp begun
      have made : p = { stored with rehandshake := { stored.rehandshake with inFlight := true } } := by
        simp only [Peer.tryBeginRehandshake] at marked
        split at marked
        · cases marked
        · exact (Option.some.inj marked).symm
      subst made
      obtain ⟨r, reserved, counted⟩ := reserveRehandshakeAttempt_frame
        { stored with rehandshake := { stored.rehandshake with inFlight := true } } now cfg.window
        cfg.maxAttemptsWindow
      rcases result : Peer.reserveRehandshakeAttempt
        { stored with rehandshake := { stored.rehandshake with inFlight := true } } now cfg.window
        cfg.maxAttemptsWindow with ⟨q, allowed, wait⟩
      rw [result] at reserved
      dsimp only at reserved
      subst reserved
      right
      cases allowed with
      | false =>
          refine ⟨stored, { r with inFlight := false }, found, counted, Or.inl ?_⟩
          simp only [Node.triggerFastRehandshake, begun, result]
          rfl
      | true =>
          by_cases nowhere : (if stored.originalAddr = [] then stored.addr.text
              else stored.originalAddr) = []
          · refine ⟨stored, { r with consecutiveDecryptFails := 0, inFlight := false }, found,
              counted, Or.inr (Or.inr ?_)⟩
            simp only [Node.triggerFastRehandshake, begun, result]
            exact if_pos nowhere
          · refine ⟨stored, { r with consecutiveDecryptFails := 0 }, found, counted,
              Or.inr (Or.inl ?_)⟩
            simp only [Node.triggerFastRehandshake, begun, result]
            exact if_neg nowhere

theorem runFastRehandshake_cases (cfg : FastRehandshakeConfig) (n : Node) (p : Peer)
    (closing accepted : Bool) (ephemeral : Key) (now : Int) :
    ∃ (pendingHandshakes : GoMap (Transport × Bytes) HandshakeState) (rehandshake : Rehandshake)
        (effects : List Effect) (result : Option RehandshakeSend) (givesUp : Bool),
      n.runFastRehandshake cfg p closing accepted ephemeral now =
        ({ n with pendingHandshakes }, { p with rehandshake }, effects, result, givesUp) ∧
      (∀ key hs, pendingHandshakes.get key = some hs →
        n.pendingHandshakes.get key = some hs ∨ hs = n.initiate ephemeral now) ∧
      (∀ effect ∈ effects,
        ∃ message, effect = .sendRaw p.conn p.addr p.transport (.handshake message)) ∧
      (result = some .failed ∧ rehandshake.consecutiveRehandshakeFails =
          p.rehandshake.consecutiveRehandshakeFails + 1 ∧
          givesUp = decide (((p.rehandshake.consecutiveRehandshakeFails + 1 : Nat) : Int) ≥
            cfg.failThreshold) ∨
        result ≠ some .failed ∧ givesUp = false) := by
  obtain ⟨pendingHandshakes, framed, pending, effects⟩ :=
    sendFastRehandshake_frame n p ephemeral now accepted
  cases closing with
  | true =>
      exact ⟨n.pendingHandshakes, { p.rehandshake with inFlight := false }, [], none, false, rfl,
        fun _ _ found => Or.inl found, nofun, Or.inr ⟨nofun, rfl⟩⟩
  | false =>
      cases sent : (n.sendFastRehandshake p ephemeral now accepted).2.2 with
      | busy =>
          refine ⟨pendingHandshakes, { p.rehandshake with inFlight := false }, _, some .busy, false,
            ?_, pending, effects, Or.inr ⟨nofun, rfl⟩⟩
          simp only [Node.runFastRehandshake, sent, framed, Bool.false_eq_true, if_false]
          rfl
      | written =>
          refine ⟨pendingHandshakes,
            (p.recordRehandshakeSuccess now cfg.baseBackoff).endRehandshake.rehandshake, _,
            some .written, false, ?_, pending, effects, Or.inr ⟨nofun, rfl⟩⟩
          simp only [Node.runFastRehandshake, sent, framed, Bool.false_eq_true, if_false]
          rfl
      | failed =>
          refine ⟨pendingHandshakes,
            (p.recordRehandshakeFailure now cfg.baseBackoff
              cfg.maxBackoff).1.endRehandshake.rehandshake, _, some .failed, _, ?_, pending, effects,
            Or.inl ⟨rfl, rfl, rfl⟩⟩
          simp only [Node.runFastRehandshake, sent, framed, Bool.false_eq_true, if_false]
          rfl

end Tenet
