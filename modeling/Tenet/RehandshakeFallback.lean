import Tenet.Events
import Tenet.HandshakeStep
import Tenet.Receive
import Tenet.Rehandshake

/-! The fallback from fast re-handshakes to reconnecting. An attempt counts as a success as soon as
its first message is written, so a peer that never answers is never given up. -/

namespace Tenet.RehandshakeFallback

open Lib Lib.Run

/-- A goroutine of `triggerFastRehandshake`. It works on the record it was started for: the stored
one, or one that has been removed since. -/
structure Attempt where
  generation : Nat
  /-- No new session and no removal since it was started. -/
  current : Bool
  deriving DecidableEq, Repr

/-- The node as one peer sees it: the records of that peer that were removed, the attempts whose
goroutine has not ended, how many were started since the last new session or removal, and how many of
those have not ended with a failed send. -/
structure State where
  node : Node
  retired : List Peer
  running : List Attempt
  streak : Nat
  unsettled : Nat

/-- The running attempts that work on the stored record. -/
def State.attached (s : State) : List Attempt :=
  s.running.filter fun attempt => attempt.generation = s.retired.length

inductive Action
  | trigger (now : Int)
  | finish (position : Nat) (closing accepted : Bool) (ephemeral : Key) (now : Int)
  /-- the delayed delete of `sendFastRehandshake` -/
  | expire (stateKey : Transport × Bytes)
  | data (remoteAddr payload : Bytes)
  | node (event : Event)

def upgrades (env : Env) (n : Node) (peerID : Bytes) : Event → Bool
  | .handshake _ remoteAddr transport payload ephemeral now =>
      match n.handshakeOutcome env remoteAddr transport payload ephemeral now with
      | .connected id | .switched id => decide (id = peerID)
      | .refreshed id =>
          decide (id = peerID ∧
            ¬((n.peers.get id).any (fun p => decide (p.transport = .tcp)) = true ∧
              transport ≠ .tcp))
      | _ => false
  | _ => false

/-- A new session starts the count again, and so does the removal of the record. -/
def settle (peerID : Bytes) (upgraded : Bool) (s : State) (after : Node) : State :=
  let reset : State :=
    { s with
      node := after
      running := s.running.map ({ · with current := false })
      streak := 0
      unsettled := 0 }
  if upgraded then reset
  else match s.node.peers.get peerID, after.peers.get peerID with
    | some p, none => { reset with retired := s.retired ++ [p.close.1] }
    | _, _ => { s with node := after }

def finish (cfg : FastRehandshakeConfig) (peerID : Bytes) (s : State) (position : Nat)
    (closing accepted : Bool) (ephemeral : Key) (now : Int) : State :=
  match s.running[position]? with
  | none => s
  | some attempt =>
      let ended := { s with running := s.running.eraseIdx position }
      let attached := attempt.generation = s.retired.length
      match if attached then s.node.peers.get peerID else s.retired[attempt.generation]? with
      | none => ended
      | some p =>
          let (n, p, _, result, givesUp) :=
            s.node.runFastRehandshake cfg p closing accepted ephemeral now
          let recorded : State :=
            { ended with
              unsettled :=
                if result = some .failed ∧ attempt.current = true then s.unsettled - 1
                else s.unsettled
              retired := if attached then s.retired else s.retired.set attempt.generation p }
          let n := if attached then { n with peers := n.peers.add p } else n
          settle peerID false recorded
            (if givesUp then (n.removePeerWithReconnect peerID true).1 else n)

section

variable (env : Env) (aead : Aead) (cfg : FastRehandshakeConfig) (peerID : Bytes)

def step (s : State) : Action → State
  | .trigger now =>
      let triggered := s.node.triggerFastRehandshake cfg peerID now
      let settled := settle peerID false s triggered.1
      match triggered.2.2 with
      | .started =>
          { settled with
            running := settled.running ++ [⟨settled.retired.length, true⟩]
            streak := settled.streak + 1
            unsettled := settled.unsettled + 1 }
      | _ => settled
  | .finish position closing accepted ephemeral now =>
      finish cfg peerID s position closing accepted ephemeral now
  | .expire stateKey =>
      { s with node :=
        { s.node with pendingHandshakes := s.node.pendingHandshakes.delete stateKey } }
  | .data remoteAddr payload =>
      settle peerID false s (s.node.processData aead remoteAddr payload).1
  | .node event => settle peerID (upgrades env s.node peerID event) s (s.node.step env event)

/-- No more attempts are started without a new session than the threshold allows: the peer is
removed before the next one. -/
def FallsBack (s : State) : Prop := (s.streak : Int) ≤ cfg.failThreshold

/-- An attempt is started only when no other works on the stored record, and as one more than the
threshold only when all since the last new session ended with a failed send. -/
def SendsFail (s : State) : Action → Prop
  | .trigger now => (s.node.triggerFastRehandshake cfg peerID now).2.2 = .started →
      s.attached = [] ∧ ((s.streak : Int) < cfg.failThreshold ∨ s.unsettled = 0)
  | _ => True

end

def initial (n : Node) : State := ⟨n, [], [], 0, 0⟩

def fails (peers : PeerStore) (peerID : Bytes) : Option Nat :=
  (peers.get peerID).map (·.rehandshake.consecutiveRehandshakeFails)

section Events

variable {env : Env} {n : Node} {peerID : Bytes}

theorem fails_add {peers : PeerStore} {id : Bytes} {p stored : Peer}
    (found : peers.get id = some stored) (named : p.id = id)
    (same : p.rehandshake.consecutiveRehandshakeFails =
      stored.rehandshake.consecutiveRehandshakeFails) :
    fails (peers.add p) peerID = fails peers peerID := by
  simp only [fails, PeerStore.get_add]
  split
  · next here => rw [here, named, found, Option.map_some, Option.map_some, same]
  · rfl

theorem fails_add_other {peers : PeerStore} {p : Peer} (other : p.id ≠ peerID) :
    fails (peers.add p) peerID = fails peers peerID := by
  simp only [fails, PeerStore.get_add, if_neg (Ne.symm other)]

theorem sessionEstablished_kept (env : Env) (n : Node) (existing : Peer) (conn : Option ConnId)
    (remoteAddr : NetAddr) (transport : Transport) (session : Session) (now : Int)
    (known : n.peers.get (peerIDOf env session.remotePublicKey) = some existing)
    (kept : existing.transport = .tcp ∧ transport ≠ .tcp) :
    ∃ p, p.id = existing.id ∧ p.rehandshake = existing.rehandshake ∧
      (n.sessionEstablished env conn remoteAddr transport session now).1.peers = n.peers.add p := by
  obtain ⟨linkMode, relayTarget, lastSeen, peers⟩ :=
    sessionEstablished_known env n conn remoteAddr transport session now existing known
  have unmoved := Peer.upgradeTransport_kept { existing with linkMode, relayTarget } remoteAddr conn
    transport session now kept
  rw [unmoved] at peers
  exact ⟨({ existing with linkMode, relayTarget : Peer }).updateLastSeen lastSeen, rfl, rfl, peers⟩

theorem processHandshake_kept (conn : Option ConnId) (remoteAddr : NetAddr) (transport : Transport)
    (payload : Message) (ephemeral : Key) (now : Int) (existing : Peer)
    (known : n.peers.get peerID = some existing)
    (refreshed : n.handshakeOutcome env remoteAddr transport payload ephemeral now =
      .refreshed peerID)
    (kept : existing.transport = .tcp ∧ transport ≠ .tcp) :
    ∃ p, p.id = peerID ∧ p.rehandshake = existing.rehandshake ∧
      (n.processHandshake env conn remoteAddr transport payload ephemeral now).1.peers =
        n.peers.add p := by
  have named := n.peers.get_id peerID existing known
  unfold Node.handshakeOutcome at refreshed
  rcases result : (n.pendingHandshake (transport, remoteAddr.text) ephemeral now).processMessage
    payload with _ | ⟨hs, response, _ | session⟩
  · rw [result] at refreshed
    cases refreshed
  · rw [result] at refreshed
    cases refreshed
  · rw [result] at refreshed
    rw [processHandshake_finished env n conn remoteAddr transport payload ephemeral now hs response
      session result]
    simp only [Node.sessionOutcome] at refreshed
    split at refreshed
    · next other found =>
        split at refreshed
        · cases refreshed
        · next stays =>
            have same : peerIDOf env session.remotePublicKey = peerID := by
              injection refreshed
            rw [same, known] at found
            obtain rfl : existing = other := Option.some.inj found
            obtain ⟨p, id, throttle, peers⟩ := sessionEstablished_kept env
              { n with pendingHandshakes :=
                n.pendingHandshakes.set (transport, remoteAddr.text) hs }
              existing conn remoteAddr transport session now (by rw [same, known]) kept
            exact ⟨p, id.trans named, throttle, peers⟩
    · split at refreshed <;> cases refreshed

theorem fails_handshake (conn : Option ConnId) (remoteAddr : NetAddr) (transport : Transport)
    (payload : Message) (ephemeral : Key) (now : Int)
    (notUpgraded : upgrades env n peerID
      (.handshake conn remoteAddr transport payload ephemeral now) = false) :
    fails (n.processHandshake env conn remoteAddr transport payload ephemeral now).1.peers peerID =
      fails n.peers peerID := by
  have tables := (processHandshake_tables env n conn remoteAddr transport payload ephemeral now).1
  simp only [upgrades] at notUpgraded
  cases outcome : n.handshakeOutcome env remoteAddr transport payload ephemeral now with
  | failed =>
      rw [outcome] at tables
      rw [tables.1]
  | waiting =>
      rw [outcome] at tables
      rw [tables.1]
  | refused id =>
      rw [outcome] at tables
      rw [tables.1]
  | connected id =>
      rw [outcome] at tables notUpgraded
      obtain ⟨_, p, named, _, added, _⟩ := tables
      rw [added, fails_add_other (by rw [named]; simpa using notUpgraded)]
  | switched id =>
      rw [outcome] at tables notUpgraded
      obtain ⟨_, p, _, named, _, added, _⟩ := tables
      rw [added, fails_add_other (by rw [named]; simpa using notUpgraded)]
  | refreshed id =>
      rw [outcome] at tables notUpgraded
      obtain ⟨existing, p, known, named, _, added, _⟩ := tables
      by_cases here : id = peerID
      · subst here
        have kept : existing.transport = .tcp ∧ transport ≠ .tcp := by
          simpa [known] using notUpgraded
        obtain ⟨q, sameID, throttle, peers⟩ := processHandshake_kept conn remoteAddr transport
          payload ephemeral now existing known outcome kept
        rw [peers, fails_add known sameID (by rw [throttle])]
      · rw [added, fails_add_other (by rwa [named])]

theorem fails_event (event : Event) (notUpgraded : upgrades env n peerID event = false) :
    (n.step env event).peers.get peerID = none ∨
      fails (n.step env event).peers peerID = fails n.peers peerID := by
  cases event with
  | connect remoteUDPAddr remoteTCPAddr udpState tcpState => exact Or.inr rfl
  | connectViaRelay relayAddr targetAddr hs => exact Or.inr rfl
  | handshake conn remoteAddr transport payload ephemeral now =>
      exact Or.inr (fails_handshake conn remoteAddr transport payload ephemeral now notUpgraded)
  | relayPacket origin payload now =>
      refine Or.inr ?_
      rw [Node.step, (handleRelayPacket_tables env n origin payload now).1]
  | heartbeat conn remoteAddr transport now timestamp =>
      refine Or.inr ?_
      rw [Node.step]
      rcases processHeartbeat_eq n conn remoteAddr transport now timestamp with
        same | ⟨id, p, stored, seen⟩
      · rw [same]
      · rw [seen]
        exact fails_add stored (n.peers.get_id id p stored) rfl
  | upgradePeer id remoteAddr dial =>
      refine Or.inr ?_
      rw [Node.step, Node.upgradePeer_peers]
  | removePeer id shouldReconnect =>
      simp only [Node.step, fails, removePeerWithReconnect_peers]
      split
      · exact Or.inl rfl
      · exact Or.inr rfl
  | cleanupStaleMappings now => exact Or.inr rfl

theorem fails_data (aead : Aead) (remoteAddr payload : Bytes) :
    fails (n.processData aead remoteAddr payload).1.peers peerID = fails n.peers peerID := by
  rcases processData_cases aead n remoteAddr payload with
    same | ⟨id, p, stored, ⟨effects, _, failed⟩ | ⟨plaintext, opened, decrypted, dispatched⟩⟩
  · rw [same]
  · rw [failed]
    exact fails_add stored (n.peers.get_id id p stored) rfl
  · have named := n.peers.get_id id p stored
    obtain ⟨session, cipher, _, _, _, rfl⟩ := p.decrypt_eq_some aead opened payload plaintext decrypted
    rw [dispatched]
    rcases dispatchFrame_dropped n id
      { p with
        session := some { session with recvCipher := some { cipher with n := cipher.n + 1 } } }
      plaintext with ⟨frame, rfl⟩ | dropped
    · obtain ⟨channels, made⟩ := dispatchFrame_eq n id
        { p with
          session := some { session with recvCipher := some { cipher with n := cipher.n + 1 } } }
        frame
      rw [made]
      exact fails_add stored named rfl
    · rw [dropped]
      exact fails_add stored named rfl

end Events

section Trigger

variable (cfg : FastRehandshakeConfig) (n : Node) (peerID : Bytes) (now : Int)

theorem fails_trigger :
    (n.triggerFastRehandshake cfg peerID now).1.peers.get peerID = none ∨
      fails (n.triggerFastRehandshake cfg peerID now).1.peers peerID = fails n.peers peerID := by
  rcases triggerFastRehandshake_cases cfg n peerID now with
    refused | ⟨stored, r, found, counted, refused | started | removed⟩
  · exact Or.inr (by rw [refused])
  · rw [refused]
    exact Or.inr (fails_add found (n.peers.get_id peerID stored found) counted)
  · rw [started]
    exact Or.inr (fails_add found (n.peers.get_id peerID stored found) counted)
  · refine Or.inl ?_
    rw [removed, removePeerWithReconnect_peers, if_pos rfl]

theorem stored_of_started (started : (n.triggerFastRehandshake cfg peerID now).2.2 = .started) :
    ((n.triggerFastRehandshake cfg peerID now).1.peers.get peerID).isSome = true := by
  rcases triggerFastRehandshake_cases cfg n peerID now with
    refused | ⟨stored, r, found, counted, refused | begun | removed⟩
  · rw [refused] at started
    cases started
  · rw [refused] at started
    cases started
  · rw [begun, PeerStore.get_add, if_pos (n.peers.get_id peerID stored found).symm]
    rfl
  · rw [removed] at started
    cases started

end Trigger

section Invariant

variable {env : Env} {aead : Aead} {cfg : FastRehandshakeConfig} {peerID : Bytes}

/-- The attempts on removed records no longer count, and at most one works on the stored record. -/
structure Split (s : State) : Prop where
  held : ∀ attempt ∈ s.running, attempt.generation ≤ s.retired.length
  stale : ∀ attempt ∈ s.running, attempt.generation ≠ s.retired.length → attempt.current = false
  alone : s.attached.length ≤ 1

structure Inv (cfg : FastRehandshakeConfig) (peerID : Bytes) (s : State) : Prop extends Split s where
  bound : (s.streak : Int) ≤ cfg.failThreshold
  idle : s.streak = 0 → s.unsettled = 0
  stored : 0 < s.streak → (s.node.peers.get peerID).isSome = true
  /-- Where all attempts have failed, the record has counted them. -/
  resting : s.attached = [] → s.unsettled = 0 →
    s.streak ≤ (fails s.node.peers peerID).getD 0 ∧ (s.streak : Int) < cfg.failThreshold
  flying : ∀ attempt ∈ s.attached, 0 < s.streak → attempt.current = true ∧ 0 < s.unsettled ∧
    (s.unsettled = 1 → s.streak ≤ (fails s.node.peers peerID).getD 0 + 1)

theorem Split.outdated {s after : State} (split : Split s)
    (running : after.running = s.running.map ({ · with current := false }))
    (retired : s.retired.length ≤ after.retired.length) : Split after where
  held := by
    intro attempt listed
    rw [running] at listed
    obtain ⟨before, member, rfl⟩ := List.mem_map.mp listed
    exact (split.held before member).trans retired
  stale := by
    intro attempt listed _
    rw [running] at listed
    obtain ⟨before, member, rfl⟩ := List.mem_map.mp listed
    rfl
  alone := by
    have counted := split.alone
    rw [State.attached, ← List.countP_eq_length_filter] at counted
    rw [State.attached, running, List.filter_map, List.length_map, ← List.countP_eq_length_filter]
    refine (List.countP_mono_left ?_).trans counted
    intro attempt member same
    have := split.held attempt member
    simp only [Function.comp_apply, decide_eq_true_eq] at same ⊢
    omega

theorem Split.settle {s : State} (split : Split s) (upgraded : Bool) (after : Node) :
    Split (settle peerID upgraded s after) := by
  unfold RehandshakeFallback.settle
  split
  · exact split.outdated rfl le_rfl
  · split
    · exact split.outdated rfl (by simp)
    · exact ⟨split.held, split.stale, split.alone⟩

section Ended

variable {s after : State} {position : Nat} {attempt : Attempt}
  (found : s.running[position]? = some attempt)
  (running : after.running = s.running.eraseIdx position)
  (retired : after.retired.length = s.retired.length)

include running retired

theorem Split.ended (split : Split s) : Split after where
  held := by
    intro other listed
    rw [running] at listed
    rw [retired]
    exact split.held other (List.mem_of_mem_eraseIdx listed)
  stale := by
    intro other listed
    rw [running] at listed
    rw [retired]
    exact split.stale other (List.mem_of_mem_eraseIdx listed)
  alone := by
    rw [State.attached, running, retired]
    exact ((List.eraseIdx_sublist _ _).filter _).length_le.trans split.alone

include found

theorem attached_ended : s.attached.Perm
    (if attempt.generation = s.retired.length then attempt :: after.attached else after.attached) := by
  obtain ⟨inside, rfl⟩ := List.getElem?_eq_some_iff.mp found
  have moved := (List.getElem_cons_eraseIdx_perm inside).symm.filter
    fun attempt => attempt.generation = s.retired.length
  rw [List.filter_cons] at moved
  rw [State.attached, State.attached, running, retired]
  simpa only [decide_eq_true_eq] using moved

theorem Inv.ended (inv : Inv cfg peerID s) (old : attempt.generation ≠ s.retired.length)
    (node : after.node = s.node) (streak : after.streak = s.streak)
    (unsettled : after.unsettled = s.unsettled) : Inv cfg peerID after := by
  have same : s.attached.Perm after.attached := by
    have moved := attached_ended found running retired
    rwa [if_neg old] at moved
  constructor
  · exact inv.toSplit.ended running retired
  · rw [streak]
    exact inv.bound
  · rw [streak, unsettled]
    exact inv.idle
  · rw [streak, node]
    exact inv.stored
  · rw [streak, unsettled, node]
    intro none
    rw [none] at same
    exact inv.resting same.eq_nil
  · rw [streak, unsettled, node]
    intro other listed
    exact inv.flying other (same.mem_iff.mpr listed)

theorem Inv.settled (inv : Inv cfg peerID s) (attached : attempt.generation = s.retired.length)
    (streak : after.streak = s.streak) (started : 0 < s.streak)
    (present : (after.node.peers.get peerID).isSome = true)
    (counted : after.unsettled = 0 →
      s.streak ≤ (fails after.node.peers peerID).getD 0 ∧ (s.streak : Int) < cfg.failThreshold) :
    Inv cfg peerID after := by
  have none : after.attached = [] := by
    have moved := (attached_ended found running retired).length_eq
    have alone := inv.alone
    rw [if_pos attached, List.length_cons] at moved
    exact List.eq_nil_of_length_eq_zero (by omega)
  constructor
  · exact inv.toSplit.ended running retired
  · rw [streak]
    exact inv.bound
  · omega
  · exact fun _ => present
  · rw [streak]
    exact fun _ => counted
  · rw [none]
    intro other listed
    cases listed

end Ended

theorem inv_reset (positive : 0 < cfg.failThreshold) (s : State) (split : Split s)
    (streak : s.streak = 0) (unsettled : s.unsettled = 0) : Inv cfg peerID s where
  toSplit := split
  bound := by omega
  idle := fun _ => unsettled
  stored := by omega
  resting := by omega
  flying := by omega

theorem isSome_of_fails {before after : PeerStore}
    (same : fails after peerID = fails before peerID) :
    (after.get peerID).isSome = (before.get peerID).isSome := by
  have mapped := congrArg Option.isSome same
  simpa only [fails, Option.isSome_map] using mapped

theorem settle_present (s : State) (after : Node)
    (before : (s.node.peers.get peerID).isSome = true)
    (kept : (after.peers.get peerID).isSome = true) :
    settle peerID false s after = { s with node := after } := by
  obtain ⟨p, stored⟩ := Option.isSome_iff_exists.mp before
  obtain ⟨q, still⟩ := Option.isSome_iff_exists.mp kept
  simp [settle, stored, still]

theorem inv_settle_removed (positive : 0 < cfg.failThreshold) (s : State) (after : Node)
    (split : Split s) (before : (s.node.peers.get peerID).isSome = true)
    (gone : after.peers.get peerID = none) : Inv cfg peerID (settle peerID false s after) := by
  obtain ⟨p, stored⟩ := Option.isSome_iff_exists.mp before
  apply inv_reset positive _ (split.settle false after) <;> simp [settle, stored, gone]

theorem inv_settle_zero (positive : 0 < cfg.failThreshold) (s : State) (after : Node)
    (split : Split s) (streak : s.streak = 0) (unsettled : s.unsettled = 0) :
    Inv cfg peerID (settle peerID false s after) := by
  apply inv_reset positive _ (split.settle false after)
  all_goals
    unfold settle
    dsimp only
    split
    · rfl
    · split <;> first | rfl | assumption

/-- A change of the node that keeps the count of failures, removes the record or gives it a new
session keeps the invariant. -/
theorem inv_settle (positive : 0 < cfg.failThreshold) (upgraded : Bool) (s : State) (after : Node)
    (inv : Inv cfg peerID s)
    (change : upgraded = true ∨ after.peers.get peerID = none ∨
      fails after.peers peerID = fails s.node.peers peerID) :
    Inv cfg peerID (settle peerID upgraded s after) := by
  cases upgraded with
  | true => exact inv_reset positive _ (inv.toSplit.settle true after) rfl rfl
  | false =>
      by_cases zero : s.streak = 0
      · exact inv_settle_zero positive s after inv.toSplit zero (inv.idle zero)
      have present := inv.stored (by omega)
      rcases change with impossible | gone | same
      · cases impossible
      · exact inv_settle_removed positive s after inv.toSplit present gone
      · have split : Split (settle peerID false s after) := inv.toSplit.settle false after
        rw [settle_present s after present ((isSome_of_fails same).trans present)] at split ⊢
        exact
          { toSplit := split
            bound := inv.bound
            idle := inv.idle
            stored := fun started => (isSome_of_fails same).trans (inv.stored started)
            resting := by
              intro quiet settled
              simp only [same]
              exact inv.resting quiet settled
            flying := by
              intro attempt listed started
              simp only [same]
              exact inv.flying attempt listed started }

theorem Inv.begun {s after : State} (inv : Inv cfg peerID s)
    (running : after.running = s.running ++ [⟨s.retired.length, true⟩])
    (retired : after.retired = s.retired) (streak : after.streak = s.streak + 1)
    (unsettled : after.unsettled = s.unsettled + 1)
    (same : fails after.node.peers peerID = fails s.node.peers peerID)
    (present : (after.node.peers.get peerID).isSome = true) (quiet : s.attached = [])
    (room : (s.streak : Int) < cfg.failThreshold) : Inv cfg peerID after := by
  have attached : after.attached = [⟨s.retired.length, true⟩] := by
    have alone : s.running.filter (fun attempt => attempt.generation = s.retired.length) = [] := quiet
    rw [State.attached, running, retired, List.filter_append, alone, List.nil_append,
      List.filter_singleton, decide_eq_true rfl]
    rfl
  have listed {attempt : Attempt} (member : attempt ∈ after.running) :
      attempt ∈ s.running ∨ attempt = ⟨s.retired.length, true⟩ := by
    rw [running, List.mem_append, List.mem_singleton] at member
    exact member
  constructor
  · constructor
    · intro attempt member
      rw [retired]
      rcases listed member with earlier | rfl
      · exact inv.held attempt earlier
      · exact le_rfl
    · intro attempt member old
      rw [retired] at old
      rcases listed member with earlier | rfl
      · exact inv.stale attempt earlier old
      · exact absurd rfl old
    · rw [attached]
      exact le_rfl
  · omega
  · omega
  · exact fun _ => present
  · rw [attached]
    intro none
    cases none
  · intro attempt member _
    rw [attached, List.mem_singleton] at member
    refine ⟨by rw [member], by omega, ?_⟩
    intro single
    have := (inv.resting quiet (by omega)).1
    rw [same]
    omega

theorem inv_trigger (positive : 0 < cfg.failThreshold) (s : State) (now : Int)
    (inv : Inv cfg peerID s) (sendsFail : SendsFail cfg peerID s (.trigger now)) :
    Inv cfg peerID (step env aead cfg peerID s (.trigger now)) := by
  have settled := inv_settle positive false s (s.node.triggerFastRehandshake cfg peerID now).1 inv
    (Or.inr (fails_trigger cfg s.node peerID now))
  simp only [step]
  cases result : (s.node.triggerFastRehandshake cfg peerID now).2.2 with
  | refused => exact settled
  | unaddressed => exact settled
  | started =>
      obtain ⟨quiet, below⟩ := sendsFail result
      have present := stored_of_started cfg s.node peerID now result
      have same : fails (s.node.triggerFastRehandshake cfg peerID now).1.peers peerID =
          fails s.node.peers peerID := by
        rcases fails_trigger cfg s.node peerID now with gone | same
        · rw [gone] at present
          cases present
        · exact same
      have room : (s.streak : Int) < cfg.failThreshold :=
        below.elim id fun settledAll => (inv.resting quiet settledAll).2
      rw [settle_present s _ ((isSome_of_fails same).symm.trans present) present]
      exact inv.begun rfl rfl rfl rfl same present quiet room

theorem inv_finish_idle (positive : 0 < cfg.failThreshold) (s : State) (position : Nat)
    (closing accepted : Bool) (ephemeral : Key) (now : Int) (inv : Inv cfg peerID s)
    (zero : s.streak = 0) :
    Inv cfg peerID (finish cfg peerID s position closing accepted ephemeral now) := by
  have settledAll := inv.idle zero
  unfold finish
  split
  · exact inv
  · dsimp only
    split
    · exact inv_reset positive _ (inv.toSplit.ended rfl rfl) zero settledAll
    · apply inv_settle_zero positive
      · apply inv.toSplit.ended rfl
        dsimp only
        split
        · rfl
        · exact List.length_set
      · exact zero
      · simp only [settledAll]
        split <;> rfl

theorem inv_finish_old (positive : 0 < cfg.failThreshold) (s : State) (position : Nat)
    (closing accepted : Bool) (ephemeral : Key) (now : Int) (inv : Inv cfg peerID s)
    {attempt : Attempt} (found : s.running[position]? = some attempt)
    (old : attempt.generation ≠ s.retired.length) :
    Inv cfg peerID (finish cfg peerID s position closing accepted ephemeral now) := by
  have outdated := inv.stale attempt (List.mem_of_getElem? found) old
  simp only [finish, found, if_neg old]
  cases s.retired[attempt.generation]? with
  | none => exact inv.ended found rfl rfl old rfl rfl rfl
  | some p =>
      obtain ⟨pendingHandshakes, r, effects, result, givesUp, ran, _⟩ :=
        runFastRehandshake_cases cfg s.node p closing accepted ephemeral now
      simp only [ran]
      apply inv_settle positive
      · refine inv.ended found rfl ?_ old rfl rfl ?_
        · exact List.length_set
        · simp [outdated]
      · refine Or.inr ?_
        cases givesUp with
        | true => exact Or.inl (by simp only [if_true, removePeerWithReconnect_peers])
        | false => exact Or.inr rfl

theorem inv_finish_attached (positive : 0 < cfg.failThreshold) (s : State) (position : Nat)
    (closing accepted : Bool) (ephemeral : Key) (now : Int) (inv : Inv cfg peerID s)
    (started : 0 < s.streak) {attempt : Attempt} (found : s.running[position]? = some attempt)
    (attached : attempt.generation = s.retired.length) :
    Inv cfg peerID (finish cfg peerID s position closing accepted ephemeral now) := by
  have present := inv.stored started
  have listed : attempt ∈ s.attached :=
    List.mem_filter.mpr ⟨List.mem_of_getElem? found, decide_eq_true attached⟩
  obtain ⟨current, waiting, counted⟩ := inv.flying attempt listed started
  obtain ⟨p, stored⟩ := Option.isSome_iff_exists.mp present
  have named := s.node.peers.get_id peerID p stored
  obtain ⟨pendingHandshakes, r, effects, result, givesUp, ran, _, _, outcome⟩ :=
    runFastRehandshake_cases cfg s.node p closing accepted ephemeral now
  have held : fails s.node.peers peerID = some p.rehandshake.consecutiveRehandshakeFails := by
    rw [fails, stored, Option.map_some]
  have kept : (s.node.peers.add { p with rehandshake := r }).get peerID =
      some { p with rehandshake := r } := by
    rw [PeerStore.get_add, if_pos named.symm]
  rw [held, Option.getD_some] at counted
  simp only [finish, found, attached, if_true, stored, ran]
  cases givesUp with
  | true =>
      apply inv_settle_removed positive
      · exact inv.toSplit.ended rfl rfl
      · exact present
      · simp only [if_true, removePeerWithReconnect_peers]
  | false =>
      simp only [Bool.false_eq_true, if_false]
      rw [settle_present _ _ (by exact present) (by simp [kept])]
      refine inv.settled found rfl rfl attached rfl started (by simp [kept]) ?_
      intro settledAll
      rcases outcome with ⟨failed, fails', threshold⟩ | ⟨unfailed, _⟩
      · have below : ¬((p.rehandshake.consecutiveRehandshakeFails + 1 : Nat) : Int) ≥
            cfg.failThreshold := by
          intro reached
          rw [decide_eq_true reached] at threshold
          cases threshold
        simp only [failed, current, and_self, if_true] at settledAll
        have := counted (by omega)
        simp only [fails, kept, Option.map_some, Option.getD_some, fails']
        omega
      · simp only [unfailed, false_and, if_false] at settledAll
        omega

theorem inv_finish (positive : 0 < cfg.failThreshold) (s : State) (position : Nat)
    (closing accepted : Bool) (ephemeral : Key) (now : Int) (inv : Inv cfg peerID s) :
    Inv cfg peerID (finish cfg peerID s position closing accepted ephemeral now) := by
  by_cases zero : s.streak = 0
  · exact inv_finish_idle positive s position closing accepted ephemeral now inv zero
  cases found : s.running[position]? with
  | none =>
      simp only [finish, found]
      exact inv
  | some attempt =>
      by_cases attached : attempt.generation = s.retired.length
      · exact inv_finish_attached positive s position closing accepted ephemeral now inv (by omega)
          found attached
      · exact inv_finish_old positive s position closing accepted ephemeral now inv found attached

theorem inv_step (positive : 0 < cfg.failThreshold) (s : State) (action : Action)
    (inv : Inv cfg peerID s) (sendsFail : SendsFail cfg peerID s action) :
    Inv cfg peerID (step env aead cfg peerID s action) := by
  cases action with
  | trigger now => exact inv_trigger positive s now inv sendsFail
  | finish position closing accepted ephemeral now =>
      exact inv_finish positive s position closing accepted ephemeral now inv
  | expire stateKey =>
      exact ⟨⟨inv.held, inv.stale, inv.alone⟩, inv.bound, inv.idle, inv.stored, inv.resting, inv.flying⟩
  | data remoteAddr payload =>
      exact inv_settle positive false s _ inv
        (Or.inr (Or.inr (fails_data aead remoteAddr payload)))
  | node event =>
      apply inv_settle positive _ s _ inv
      cases upgraded : upgrades env s.node peerID event with
      | true => exact Or.inl rfl
      | false => exact Or.inr (fails_event event upgraded)

end Invariant

/-- In every run in which no two attempts work on the stored record at a time, and one more than the
threshold is started only when the sends of all have failed, the peer is removed before that one. -/
theorem fallsBack_throughout (env : Env) (aead : Aead) (cfg : FastRehandshakeConfig)
    (positive : 0 < cfg.failThreshold) (peerID : Bytes) (n : Node) (actions : List Action)
    (sendsFail : Along (step env aead cfg peerID) (SendsFail cfg peerID) (initial n) actions) :
    Throughout (step env aead cfg peerID) (FallsBack cfg) (initial n) actions := by
  have start : Inv cfg peerID (initial n) :=
    inv_reset positive (initial n) ⟨by simp [initial], by simp [initial], Nat.zero_le 1⟩ rfl rfl
  have invariant : Throughout (step env aead cfg peerID) (Inv cfg peerID) (initial n) actions :=
    throughout_keeps _ actions start sendsFail (inv_step positive)
  exact throughout_mono _ actions invariant fun _ inv => inv.bound

namespace Example

def node : Node :=
  startedNode .padded { defaultConfig with networkPassword := [1] } (newIdentity .padded [8]) true

def peerID : Bytes := peerIDOf .padded [7]

def received (payload : Message) : Action :=
  .node (.handshake none ⟨.udp, [20]⟩ .udp payload [3] 0)

def second : Message := .two (.one [1]) (prologuePrefix ++ [1]) [3] [8]

def attempts (accepted : Bool) (times : List Int) : List Action :=
  [received (.one [1]), received (.three second [7])] ++
    times.flatMap fun time =>
      [.trigger (time * 1000000000), .finish 0 false accepted [5] (time * 1000000000),
        .expire (.udp, [20])]

instance decidableSendsFail (cfg : FastRehandshakeConfig) (peerID : Bytes) (s : State)
    (action : Action) : Decidable (SendsFail cfg peerID s action) := by
  unfold SendsFail
  split <;> infer_instance

/-- The sends to a dead peer fail three times, and it is removed. -/
theorem fallsBack_throughout_unsent :
    Throughout (step .padded IdealAead.tagged.toAead {} peerID) (FallsBack {}) (initial node)
        (attempts false [1, 10, 20]) ∧
      ((run (step .padded IdealAead.tagged.toAead {} peerID) (initial node)
        (attempts false [1, 10, 20])).node.peers.get peerID) = none :=
  ⟨fallsBack_throughout .padded IdealAead.tagged.toAead {} (by decide) peerID node
    (attempts false [1, 10, 20]) (by decide +kernel), by decide +kernel⟩

/-- A silent peer: four attempts with no answer, one more than the threshold, and the peer is still
stored, with no failure counted. -/
theorem silent_peer_kept :
    ¬Throughout (step .padded IdealAead.tagged.toAead {} peerID) (FallsBack {}) (initial node)
        (attempts true [1, 40, 80, 120]) ∧
      fails (run (step .padded IdealAead.tagged.toAead {} peerID) (initial node)
        (attempts true [1, 40, 80, 120])).node.peers peerID = some 0 := by
  constructor
  · intro holds
    have fallsBack := throughout_run _ _ holds
    unfold FallsBack at fallsBack
    revert fallsBack
    decide +kernel
  · decide +kernel

end Example

end Tenet.RehandshakeFallback
