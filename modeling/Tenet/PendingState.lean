import Tenet.HandshakeCalls
import Tenet.Heartbeat
import Tenet.Lib.Run

/-! Where an initiator keeps its handshake state, and where the reply looks for it.

The initiator paths are `connectContext` over UDP and over the connection that `Punch` returns,
`sendFastRehandshake` and `connectViaRelay`. Each makes a state, stores it under a key that it
computes, and writes message 1. They run side by side with each other, with the readers that call
`processHandshake`, with the goroutine that ends a fast re-handshake and with the cleanup. -/

namespace Tenet

open Lib Run

def Shared.cleanupStaleMappings (s : Shared) (now : Int) : Shared :=
  let addrToPeer := s.node.addrToPeer.retain fun _ peerID => (s.peers.find peerID).isSome
  { s with
    pending := s.pending.retain fun hs => decide (now - hs.createdAt ≤ 60)
    node := { s.node with
      addrToPeer
      relayForward := s.node.relayForward.retain fun targetAddr _ =>
        s.peers.table.keys.any fun id =>
          (s.peers.value id).any fun p => decide (p.addr.text = targetAddr)
      relayInbound := s.node.relayInbound.filter fun addr => (addrToPeer.get addr).isSome
      relayPendingTarget := s.node.relayPendingTarget.retain fun addr _ =>
        (addrToPeer.get addr).isSome } }

theorem Represents.cleanupStaleMappings {s : Shared} {n : Node} (rep : Represents s n) (now : Int) :
    Represents (s.cleanupStaleMappings now) (n.cleanupStaleMappings now) where
  others := by
    obtain ⟨pendingHandshakes, peers, node⟩ := rep.others
    have stored : (fun (_ : Bytes) peerID => (s.peers.find peerID).isSome) =
        fun _ peerID => (n.peers.get peerID).isSome := by
      funext _ peerID
      exact rep.find_peer peerID
    have addressed (addr : Bytes) : (s.peers.table.keys.any fun id =>
        (s.peers.value id).any fun p => decide (p.addr.text = addr)) = n.isPeerAddr addr := by
      rw [Bool.eq_iff_iff, Node.isPeerAddr, List.any_eq_true, List.any_eq_true]
      constructor
      · rintro ⟨id, -, here⟩
        rw [rep.peers] at here
        obtain ⟨p, found, _⟩ := (Option.any_eq_true _ _).mp here
        exact ⟨id, (n.peers.mem_ids id).mpr ⟨p, found⟩, here⟩
      · rintro ⟨id, member, here⟩
        rw [← rep.peers] at here
        obtain ⟨p, found, _⟩ := (Option.any_eq_true _ _).mp here
        obtain ⟨record, pointed, _⟩ := Option.bind_eq_some_iff.mp found
        exact ⟨id, (GoMap.mem_keys _ id).mpr ⟨record, pointed⟩, here⟩
    refine ⟨pendingHandshakes, peers, ?_⟩
    simp only [Shared.cleanupStaleMappings, Node.cleanupStaleMappings, stored, addressed, node]
  pending key := by
    rw [Shared.cleanupStaleMappings, Node.cleanupStaleMappings, RefMap.value_retain, rep.pending,
      GoMap.get_retain]
  peers := rep.peers
  pendingSound := rep.pendingSound.retain _
  peersSound := rep.peersSound

inductive AttemptPath where
  | connectUDP
  | connectTCP
  | rehandshake
  | relay
  deriving DecidableEq, Repr

/-- One initiator handshake: its state, the key it is registered under, and the key that
`processHandshake` will compute for the reply, once message 1 is on the wire. -/
structure Attempt where
  path : AttemptPath
  state : Nat
  key : Transport × Bytes
  registered : Bool
  unsent : Bool
  replyKey : Option (Transport × Bytes)
  ended : Bool
  deriving DecidableEq, Repr

namespace Attempt

def start (path : AttemptPath) (state : Nat) (key : Transport × Bytes) (registered : Bool) : Attempt :=
  ⟨path, state, key, registered, false, none, false⟩

def isOpen (a : Attempt) : Bool := a.registered && !a.ended

end Attempt

structure Initiators where
  hub : Hub
  attempts : List Attempt

inductive InitiatorEvent where
  | hub (event : HubEvent)
  /-- `buildInitiatorHandshakePackets` and `startPunchWorkers` -/
  | connect (remoteUDPAddr remoteTCPAddr : Bytes) (udpEphemeral tcpEphemeral : Key) (now : Int)
  | registerPendingHandshakes (index : Nat)
  | writeToUDP (index : Nat)
  /-- `awaitConnectResult` or `awaitLateTCPUpgrade`, on a connection with that remote address -/
  | writeTCPPacket (index : Nat) (remoteAddr : Bytes)
  | sendFastRehandshake (transport : Transport) (addr : Bytes) (ephemeral : Key) (now : Int)
  | sendRaw (index : Nat) (accepted : Bool)
  /-- the deletion after a failed write -/
  | dropUnsent (index : Nat)
  /-- the deletion after `FastRehandshakePendingTTL` -/
  | expirePending (index : Nat)
  | connectViaRelay (relayAddr targetAddr : Bytes) (ephemeral : Key) (now : Int)
  | writeToRelay (index : Nat)
  | cleanupStaleMappings (now : Int)

def CallPhase.deletes : CallPhase → Bool
  | .dropState => true
  | .clearPending _ => true
  | .switchTables _ => true
  | .linkRecord _ _ => true
  | _ => false

def Hub.ends (h : Hub) : HubEvent → Option Nat
  | .advance index =>
      match h.calls[index]? with
      | some (call, some (.process state)) =>
          if (((h.shared.pending.deref state).bind (·.processMessage call.payload)).bind
            (·.2.2)).isSome then some state else none
      | some (call, some (.failed state)) =>
          if (h.shared.node.addrToPeer.get call.remoteAddr.text).isSome then none else some state
      | _ => none
  | _ => none

namespace Initiators

variable (env : Env) (m : Initiators)

def pending : RefMap (Transport × Bytes) HandshakeState := m.hub.shared.pending

def withPending (pending : RefMap (Transport × Bytes) HandshakeState) : Initiators :=
  { m with hub := { m.hub with shared := { m.hub.shared with pending } } }

def update (index : Nat) (change : Attempt → Attempt) : Initiators :=
  { m with attempts := m.attempts.modify index change }

def initiate (ephemeral : Key) (now : Int) : HandshakeState :=
  (newInitiatorHandshake m.hub.shared.node.identity.noisePublicKey
    m.hub.shared.node.config.networkPassword ephemeral now).1

def build (path : AttemptPath) (key : Transport × Bytes) (ephemeral : Key) (now : Int) : Initiators :=
  { m.withPending (m.pending.alloc (m.initiate ephemeral now)) with
    attempts := m.attempts ++ [.start path m.pending.objects.length key false] }

def register (index : Nat) : Initiators :=
  match m.attempts[index]? with
  | some a =>
      if a.registered then m
      else (m.withPending (m.pending.point a.key a.state)).update index ({ · with registered := true })
  | none => m

def unregister (index : Nat) : Initiators :=
  match m.attempts[index]? with
  | some a => (m.withPending (m.pending.delete a.key)).update index ({ · with ended := true })
  | none => m

def step : InitiatorEvent → Initiators
  | .hub event =>
      { hub := m.hub.step env event
        attempts := m.attempts.map fun a =>
          if m.hub.ends event = some a.state then { a with ended := true } else a }
  | .connect remoteUDPAddr remoteTCPAddr udpEphemeral tcpEphemeral now =>
      (m.build .connectUDP (.udp, remoteUDPAddr) udpEphemeral now).build .connectTCP
        (.tcp, remoteTCPAddr) tcpEphemeral now
  | .registerPendingHandshakes index =>
      if (m.attempts[index]?).any (·.path = .connectUDP) then
        (m.register index).register (index + 1)
      else m
  | .writeToUDP index =>
      m.update index fun a => if a.path = .connectUDP then { a with replyKey := some a.key } else a
  | .writeTCPPacket index remoteAddr =>
      m.update index fun a =>
        if a.path = .connectTCP ∧ a.registered = true then
          { a with replyKey := some (.tcp, remoteAddr) }
        else a
  | .sendFastRehandshake transport addr ephemeral now =>
      if (m.pending.find (transport, addr)).isSome then m
      else (m.build .rehandshake (transport, addr) ephemeral now).register m.attempts.length
  | .sendRaw index accepted =>
      m.update index fun a =>
        if a.path = .rehandshake ∧ a.registered = true ∧ a.unsent = false then
          if accepted then { a with replyKey := some a.key } else { a with unsent := true }
        else a
  | .dropUnsent index =>
      if (m.attempts[index]?).any (·.unsent) then m.unregister index else m
  | .expirePending index =>
      if (m.attempts[index]?).any fun a => a.path = .rehandshake ∧ a.replyKey.isSome then
        m.unregister index
      else m
  | .connectViaRelay relayAddr targetAddr ephemeral now =>
      let built := (m.build .relay (.udp, relayAddr) ephemeral now).register m.attempts.length
      let node := { built.hub.shared.node with
        relayPendingTarget := built.hub.shared.node.relayPendingTarget.set relayAddr targetAddr }
      { built with hub := { built.hub with shared := { built.hub.shared with node } } }
  | .writeToRelay index =>
      m.update index fun a =>
        if a.path = .relay ∧ a.registered = true then { a with replyKey := some a.key } else a
  | .cleanupStaleMappings now =>
      { hub := { m.hub with shared := m.hub.shared.cleanupStaleMappings now }
        attempts := m.attempts.map fun a =>
          if (m.pending.deref a.state).all fun hs => decide (60 < now - hs.createdAt) then
            { a with ended := true }
          else a }

/-- From the moment message 1 is on the wire until the handshake is over, its state is where the
reply will look for it. -/
def Findable (m : Initiators) : Prop :=
  ∀ a ∈ m.attempts, ∀ key, a.replyKey = some key → a.ended = false → m.pending.find key = some a.state

def holds (key : Transport × Bytes) : Bool := m.attempts.any fun a => a.isOpen && decide (a.key = key)

def othersHold (index : Nat) (key : Transport × Bytes) : Bool :=
  (m.attempts.eraseIdx index).any fun a => a.isOpen && decide (a.key = key)

/-- Message 1 is written after its state was registered, and on a TCP connection only to the address
that it was registered for; and no key that holds the state of an attempt which is not over is
overwritten or deleted on behalf of another. -/
def orderly : InitiatorEvent → Bool
  | .hub (.advance index) =>
      (m.hub.calls[index]?).all fun (call, phase) =>
        !(phase.any (·.deletes) && m.holds call.stateKey)
  | .registerPendingHandshakes index =>
      ((m.attempts[index]?).all fun a => a.registered || !m.holds a.key) &&
        ((m.register index).attempts[index + 1]?).all fun a =>
          a.registered || !(m.register index).holds a.key
  | .writeToUDP index =>
      (m.attempts[index]?).all fun a => decide (a.path ≠ .connectUDP) || a.registered
  | .writeTCPPacket index remoteAddr =>
      (m.attempts[index]?).all fun a =>
        decide (a.path ≠ .connectTCP) || decide (a.key = (.tcp, remoteAddr))
  | .dropUnsent index => (m.attempts[index]?).all fun a => !m.othersHold index a.key
  | .expirePending index => (m.attempts[index]?).all fun a => !m.othersHold index a.key
  | .connectViaRelay relayAddr _ _ _ => !m.holds (.udp, relayAddr)
  | _ => true

structure Held : Prop where
  stored : ∀ a ∈ m.attempts, a.isOpen = true → m.pending.find a.key = some a.state
  replies : ∀ a ∈ m.attempts, ∀ key, a.replyKey = some key → a.registered = true ∧ key = a.key

variable {m}

theorem findable_of_held (held : m.Held) : m.Findable := by
  intro a member key reply going
  obtain ⟨registered, rfl⟩ := held.replies a member key reply
  exact held.stored a member (by rw [Attempt.isOpen, registered, going]; rfl)

theorem holds_eq_false {key : Transport × Bytes} (free : m.holds key = false) {a : Attempt}
    (member : a ∈ m.attempts) (opened : a.isOpen = true) : a.key ≠ key := by
  rintro rfl
  have holds : m.holds a.key = true :=
    List.any_eq_true.mpr ⟨a, member, by rw [opened, decide_eq_true rfl]; rfl⟩
  rw [free] at holds
  cases holds

theorem mem_update {index : Nat} {change : Attempt → Attempt} {a : Attempt}
    (member : a ∈ (m.update index change).attempts) :
    (∃ b, m.attempts[index]? = some b ∧ a = change b) ∨
      ∃ other, other ≠ index ∧ m.attempts[other]? = some a := by
  obtain ⟨position, found⟩ := List.mem_iff_getElem?.mp member
  rw [update, List.getElem?_modify] at found
  obtain ⟨b, before, changed⟩ := Option.map_eq_some_iff.mp found
  split at changed
  · next here => exact Or.inl ⟨b, here ▸ before, changed.symm⟩
  · next elsewhere => exact Or.inr ⟨position, Ne.symm elsewhere, changed ▸ before⟩

theorem held_update (held : m.Held) (index : Nat) (change : Attempt → Attempt)
    (same : ∀ a, (change a).state = a.state ∧ (change a).key = a.key ∧
      (change a).isOpen = a.isOpen ∧ (change a).registered = a.registered)
    (replies : ∀ a, m.attempts[index]? = some a → ∀ key, (change a).replyKey = some key →
      a.replyKey = some key ∨ (a.registered = true ∧ key = a.key)) :
    (m.update index change).Held := by
  constructor
  · intro a member opened
    rcases mem_update member with ⟨b, before, rfl⟩ | ⟨other, -, before⟩
    · obtain ⟨state, key, isOpen, -⟩ := same b
      rw [isOpen] at opened
      rw [state, key]
      exact held.stored b (List.mem_of_getElem? before) opened
    · exact held.stored a (List.mem_of_getElem? before) opened
  · intro a member key reply
    rcases mem_update member with ⟨b, before, rfl⟩ | ⟨other, -, before⟩
    · obtain ⟨-, sameKey, -, registered⟩ := same b
      rw [registered, sameKey]
      rcases replies b before key reply with earlier | now
      · exact held.replies b (List.mem_of_getElem? before) key earlier
      · exact now
    · exact held.replies a (List.mem_of_getElem? before) key reply

theorem held_build (held : m.Held) (path : AttemptPath) (key : Transport × Bytes) (ephemeral : Key)
    (now : Int) : (m.build path key ephemeral now).Held := by
  constructor
  · intro a member opened
    rcases List.mem_append.mp member with before | new
    · exact held.stored a before opened
    · rw [List.mem_singleton.mp new] at opened
      cases opened
  · intro a member replyKey reply
    rcases List.mem_append.mp member with before | new
    · exact held.replies a before replyKey reply
    · rw [List.mem_singleton.mp new] at reply
      cases reply

theorem held_register (held : m.Held) (index : Nat)
    (free : ∀ a, m.attempts[index]? = some a → a.registered = false → m.holds a.key = false) :
    (m.register index).Held := by
  cases found : m.attempts[index]? with
  | none =>
      simp only [register, found]
      exact held
  | some a =>
      cases registered : a.registered with
      | true =>
          simp only [register, found, registered, if_true]
          exact held
      | false =>
          have unheld := free a found registered
          simp only [register, found, registered, Bool.false_eq_true, if_false]
          constructor
          · intro b member opened
            have point := m.pending.find_point a.key b.key a.state
            rcases mem_update member with ⟨c, here, rfl⟩ | ⟨other, -, before⟩
            · cases Option.some.inj (found.symm.trans here)
              exact point.trans (if_pos rfl)
            · have kept := List.mem_of_getElem? before
              exact (point.trans (if_neg (holds_eq_false unheld kept opened))).trans
                (held.stored b kept opened)
          · intro b member key reply
            rcases mem_update member with ⟨c, here, rfl⟩ | ⟨other, -, before⟩
            · exact ⟨rfl, (held.replies c (List.mem_of_getElem? here) key reply).2⟩
            · exact held.replies b (List.mem_of_getElem? before) key reply

theorem held_store (held : m.Held) (path : AttemptPath) (key : Transport × Bytes) (ephemeral : Key)
    (now : Int) (free : m.holds key = false) :
    ((m.build path key ephemeral now).register m.attempts.length).Held := by
  apply held_register (held_build held path key ephemeral now)
  intro a found _
  have new : a = .start path m.pending.objects.length key false :=
    (Option.some.inj (List.getElem?_concat_length.symm.trans found)).symm
  have holds : (m.build path key ephemeral now).holds key = m.holds key := by
    simp [Initiators.holds, build, Attempt.isOpen, Attempt.start]
  rw [new]
  exact holds.trans free

theorem held_unregister (held : m.Held) (index : Nat)
    (free : ∀ a, m.attempts[index]? = some a → m.othersHold index a.key = false) :
    (m.unregister index).Held := by
  cases found : m.attempts[index]? with
  | none =>
      simp only [unregister, found]
      exact held
  | some a =>
      have unheld := free a found
      simp only [unregister, found]
      constructor
      · intro b member opened
        rcases mem_update member with ⟨c, here, rfl⟩ | ⟨other, elsewhere, before⟩
        · simp [Attempt.isOpen] at opened
        · have kept := List.mem_of_getElem? before
          have differs : b.key ≠ a.key := by
            intro same
            have also : m.othersHold index a.key = true := List.any_eq_true.mpr
              ⟨b, List.mem_eraseIdx_iff_getElem?.mpr ⟨other, elsewhere, before⟩, by
                rw [opened, decide_eq_true same]
                rfl⟩
            rw [unheld] at also
            cases also
          exact ((m.pending.find_delete a.key b.key).trans (if_neg differs)).trans
            (held.stored b kept opened)
      · intro b member key reply
        rcases mem_update member with ⟨c, here, rfl⟩ | ⟨other, -, before⟩
        · exact held.replies c (List.mem_of_getElem? here) key reply
        · exact held.replies b (List.mem_of_getElem? before) key reply

end Initiators

theorem Shared.step_pending_cases (env : Env) (s : Shared) (call : HandshakeCall) (phase : CallPhase)
    (started : phase ≠ .lookup) :
    (phase.deletes = true ∧
        (s.step env call phase).1.pending = s.pending.delete call.stateKey) ∨
      (phase.deletes = false ∧ ((s.step env call phase).1.pending = s.pending ∨
        ∃ state next response session,
          (s.pending.deref state).bind (·.processMessage call.payload) =
            some (next, response, session) ∧
          (s.step env call phase).1.pending = s.pending.modify state fun _ => next)) := by
  cases phase with
  | lookup => exact absurd rfl started
  | process state =>
      refine Or.inr ⟨rfl, ?_⟩
      rcases processed : (s.pending.deref state).bind (·.processMessage call.payload) with
        _ | ⟨next, response, session⟩
      · simp only [step, processed]
        exact Or.inl trivial
      · simp only [step, processed]
        exact Or.inr ⟨state, next, response, session, processed, rfl⟩
  | lookupPeer | checkCapacity | candidate =>
      refine Or.inr ⟨rfl, Or.inl ?_⟩
      simp only [step]
      split <;> rfl
  | dropState | clearPending | switchTables | linkRecord => exact Or.inl ⟨rfl, rfl⟩
  | failed | reply | addPeer | recordAddr | compare | switchRecord | refreshRecord | touchRecord
  | addRelay => exact Or.inr ⟨rfl, Or.inl rfl⟩

theorem Shared.step_pending (env : Env) (s : Shared) (call : HandshakeCall) (phase : CallPhase)
    (key : Transport × Bytes) (state : Nat) (found : s.pending.find key = some state)
    (spared : phase.deletes = true → key ≠ call.stateKey) :
    (s.step env call phase).1.pending.find key = some state := by
  by_cases first : phase = .lookup
  · rw [first]
    simp only [step]
    split
    · exact found
    · next absent =>
        have differs : key ≠ call.stateKey := by
          rintro rfl
          rw [absent] at found
          cases found
        rw [RefMap.find_put, if_neg differs]
        exact found
  · rcases s.step_pending_cases env call phase first with
      ⟨gone, deleted⟩ | ⟨_, same | ⟨moved, next, _, _, _, modified⟩⟩
    · rw [deleted, RefMap.find_delete, if_neg (spared gone)]
      exact found
    · rw [same]
      exact found
    · rw [modified]
      exact found

namespace Initiators

variable {m : Initiators} {env : Env}

theorem held_map (held : m.Held) (after : Initiators) (ends : Attempt → Bool)
    (attempts : after.attempts = m.attempts.map fun a => if ends a then { a with ended := true } else a)
    (pending : ∀ a ∈ m.attempts, a.isOpen = true → ends a = false →
      m.pending.find a.key = some a.state → after.pending.find a.key = some a.state) :
    after.Held := by
  constructor
  · intro a member opened
    rw [attempts] at member
    obtain ⟨b, before, rfl⟩ := List.mem_map.mp member
    cases ended : ends b with
    | true => simp [ended, Attempt.isOpen] at opened
    | false =>
        simp only [ended, Bool.false_eq_true, if_false] at opened ⊢
        exact pending b before opened ended (held.stored b before opened)
  · intro a member key reply
    rw [attempts] at member
    obtain ⟨b, before, rfl⟩ := List.mem_map.mp member
    have kept := held.replies b before key
    cases ended : ends b with
    | true =>
        simp only [ended, if_true] at reply ⊢
        exact kept reply
    | false =>
        simp only [ended, Bool.false_eq_true, if_false] at reply ⊢
        exact kept reply

theorem held_hub (held : m.Held) (event : HubEvent) (allowed : m.orderly (.hub event) = true) :
    (m.step env (.hub event)).Held := by
  apply held_map held _ fun a => decide (m.hub.ends event = some a.state)
  · simp only [step, decide_eq_true_eq]
  · intro a member opened _ found
    cases event with
    | call call => exact found
    | removePeer peerID => exact found
    | advance index =>
        rcases m.hub.advance_cases env index with ⟨same, -⟩ | ⟨call, phase, stands⟩
        · simp only [pending, step, same]
          exact found
        · simp only [pending, step, Hub.step_advance env m.hub index call phase stands]
          apply Shared.step_pending env _ call phase a.key a.state found
          intro gone
          have free : m.holds call.stateKey = false := by
            simpa [orderly, stands, gone] using allowed
          exact holds_eq_false free member opened

theorem held_cleanup (held : m.Held) (now : Int) :
    (m.step env (.cleanupStaleMappings now)).Held := by
  apply held_map held _ (fun a =>
    (m.pending.deref a.state).all fun hs => decide (60 < now - hs.createdAt)) rfl
  intro a member opened fresh found
  have kept := m.pending.find_retain (fun hs => decide (now - hs.createdAt ≤ 60)) a.key
  rw [found, Option.filter_some] at kept
  cases object : m.pending.deref a.state with
  | none =>
      rw [object] at fresh
      cases fresh
  | some hs =>
      rw [object, Option.all_some, decide_eq_false_iff_not, not_lt] at fresh
      rw [object, Option.any_some, decide_eq_true fresh, if_pos rfl] at kept
      exact kept

theorem held_step (held : m.Held) (event : InitiatorEvent) (allowed : m.orderly event = true) :
    (m.step env event).Held := by
  cases event with
  | hub event => exact held_hub held event allowed
  | cleanupStaleMappings now => exact held_cleanup held now
  | connect remoteUDPAddr remoteTCPAddr udpEphemeral tcpEphemeral now =>
      exact held_build (held_build held _ _ _ _) _ _ _ _
  | registerPendingHandshakes index =>
      simp only [step]
      split
      · simp only [orderly, Bool.and_eq_true, Option.all_eq_true] at allowed
        apply held_register
        · apply held_register held
          intro a found unregistered
          simpa [unregistered] using allowed.1 a found
        · intro a found unregistered
          simpa [unregistered] using allowed.2 a found
      · exact held
  | writeToUDP index =>
      apply held_update held index
      · intro a
        split <;> exact ⟨rfl, rfl, rfl, rfl⟩
      · intro a found key reply
        split at reply
        · next path =>
            simp only [orderly, found, Option.all_some, path] at allowed
            exact Or.inr ⟨by simpa using allowed, (Option.some.inj reply).symm⟩
        · exact Or.inl reply
  | writeTCPPacket index remoteAddr =>
      apply held_update held index
      · intro a
        split <;> exact ⟨rfl, rfl, rfl, rfl⟩
      · intro a found key reply
        split at reply
        · next path =>
            simp only [orderly, found, Option.all_some, path.1] at allowed
            have same : a.key = (.tcp, remoteAddr) := by simpa using allowed
            exact Or.inr ⟨path.2, (Option.some.inj reply).symm.trans same.symm⟩
        · exact Or.inl reply
  | sendRaw index accepted =>
      apply held_update held index
      · intro a
        split
        · split <;> exact ⟨rfl, rfl, rfl, rfl⟩
        · exact ⟨rfl, rfl, rfl, rfl⟩
      · intro a found key reply
        split at reply
        · next going =>
            split at reply
            · exact Or.inr ⟨going.2.1, (Option.some.inj reply).symm⟩
            · exact Or.inl reply
        · exact Or.inl reply
  | writeToRelay index =>
      apply held_update held index
      · intro a
        split <;> exact ⟨rfl, rfl, rfl, rfl⟩
      · intro a found key reply
        split at reply
        · next path => exact Or.inr ⟨path.2, (Option.some.inj reply).symm⟩
        · exact Or.inl reply
  | sendFastRehandshake transport addr ephemeral now =>
      simp only [step]
      split
      · exact held
      · next absent =>
          apply held_store held
          rw [Bool.eq_false_iff]
          intro holds
          obtain ⟨a, member, both⟩ := List.any_eq_true.mp holds
          obtain ⟨opened, same⟩ := Bool.and_eq_true_iff.mp both
          have stored := held.stored a member opened
          rw [of_decide_eq_true same] at stored
          exact absent (Option.isSome_iff_exists.mpr ⟨a.state, stored⟩)
  | connectViaRelay relayAddr targetAddr ephemeral now =>
      have free : m.holds (.udp, relayAddr) = false := by simpa [orderly] using allowed
      have stored := held_store held .relay (.udp, relayAddr) ephemeral now free
      exact ⟨stored.stored, stored.replies⟩
  | dropUnsent index | expirePending index =>
      simp only [step]
      split
      · apply held_unregister held
        intro a found
        simpa [orderly, found] using allowed
      · exact held

/-- In every run in which message 1 is written after its state was registered and to the address it
was registered for, and in which nothing overwrites or deletes a key while it holds the state of
another attempt that is not over, every reply finds the state it answers. -/
theorem findable_orderly (env : Env) (start : Initiators) (events : List InitiatorEvent)
    (idle : start.attempts = [])
    (allowed : Along (step env) (fun m event => m.orderly event = true) start events) :
    Throughout (step env) Findable start events := by
  have initially : start.Held := by
    constructor
    · intro a member
      rw [idle] at member
      cases member
    · intro a member
      rw [idle] at member
      cases member
  have held := throughout_keeps start events initially allowed
    fun m event held allowed => held_step held event allowed
  exact throughout_mono start events held fun m held => findable_of_held held

def lost (m : Initiators) (index : Nat) : Bool :=
  (m.attempts[index]?).any fun a =>
    !a.ended && a.replyKey.any fun key => decide (m.pending.find key ≠ some a.state)

theorem not_findable_of_lost {m : Initiators} (index : Nat) (lost : m.lost index = true) :
    ¬ m.Findable := by
  intro findable
  simp only [Initiators.lost, Option.any_eq_true, Bool.and_eq_true, Bool.not_eq_true',
    decide_eq_true_eq] at lost
  obtain ⟨a, found, going, key, reply, missing⟩ := lost
  exact missing (findable a (List.mem_of_getElem? found) key reply going)

namespace Connects

def cfg : Config := { defaultConfig with networkPassword := [1] }

def node : Node := newNode .padded cfg (newIdentity .padded [5])

def peer : Peer :=
  newPeer (peerIDOf .padded [20]) ⟨.udp, [10]⟩ none .udp .p2p none (sessionOf true (.one [6]) [20]) 0

def start : Initiators := ⟨⟨⟨node, ∅, ∅⟩, []⟩, []⟩

def connect (ephemeral : UInt8) : InitiatorEvent := .connect [10] [10] [ephemeral] [ephemeral + 1] 0

def answer (ephemeral : UInt8) : HandshakeCall :=
  ⟨none, ⟨.udp, [10]⟩, .udp,
    .two (.one [ephemeral]) (start.initiate [ephemeral] 0).prologue [9] [20], [8], 0⟩

def reader (index : Nat) (ephemeral : UInt8) : List InitiatorEvent :=
  .hub (.call (answer ephemeral)) :: List.replicate 10 (.hub (.advance index))

def undisturbed : List InitiatorEvent :=
  [connect 1, .registerPendingHandshakes 0, .writeToUDP 0] ++ reader 0 1 ++
    [.writeTCPPacket 1 [10], .sendFastRehandshake .udp [10] [3] 0, .sendRaw 2 true] ++ reader 1 3 ++
    [.expirePending 2, .cleanupStaleMappings 61]

theorem findable_undisturbed :
    (start.attempts = [] ∧
      Along (step .padded) (fun m event => m.orderly event = true) start undisturbed) ∧
    Throughout (step .padded) Findable start undisturbed :=
  ⟨by decide +kernel, findable_orderly .padded start undisturbed rfl (by decide +kernel)⟩

/-- The UDP worker is faster than the registration, and the reply is read by a new responder. The
connection that `Punch` accepted comes from another port. A second connect to the address takes the
key. The deletion that a completed fast re-handshake has left behind meets a later connect. -/
theorem reply_finds_other_state :
    cfg.validate = true ∧
      ¬ (run (step .padded) start [connect 1, .writeToUDP 0]).Findable ∧
      (((run (step .padded) start ([connect 1, .writeToUDP 0, .hub (.call (answer 1)),
        .hub (.advance 0), .hub (.advance 0)])).pending.value (.udp, [10])).map
          HandshakeState.isInitiator = some false) ∧
      ¬ (run (step .padded) start
        [connect 1, .registerPendingHandshakes 0, .writeTCPPacket 1 [11]]).Findable ∧
      ¬ (run (step .padded) start [connect 1, .registerPendingHandshakes 0, .writeToUDP 0, connect 3,
        .registerPendingHandshakes 2]).Findable ∧
      ¬ (run (step .padded) start ([.sendFastRehandshake .udp [10] [1] 0, .sendRaw 0 true] ++
        reader 0 1 ++ [connect 3, .registerPendingHandshakes 1, .writeToUDP 1,
          .expirePending 0])).Findable := by
  refine ⟨by decide, ?_, by decide +kernel, ?_, ?_, ?_⟩
  · exact not_findable_of_lost 0 (by decide +kernel)
  · exact not_findable_of_lost 1 (by decide +kernel)
  · exact not_findable_of_lost 0 (by decide +kernel)
  · exact not_findable_of_lost 1 (by decide +kernel)

end Connects

end Initiators

end Tenet
