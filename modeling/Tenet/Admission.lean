import Tenet.HandshakeCalls
import Tenet.Lib.Run
import Mathlib.Data.List.Perm.Basic

/-! Admission of new peers by handshakes that complete side by side.

The test that the peer is unknown, the test that there is room and the insertion are sections of
their own. They come to one decision as long as a call that finds room finds it also for what other
calls have decided to insert. -/

namespace Tenet

open Lib Run

/-- The identity that a call has found room for and not inserted yet. -/
def CallPhase.adds : CallPhase → Option Bytes
  | .addPeer p _ => some p.id
  | _ => none

namespace Shared

variable (env : Env) (s : Shared) (call : HandshakeCall) (phase : CallPhase)

theorem step_config : (s.step env call phase).1.node.config = s.node.config := by
  cases phase <;> simp only [step, upgradeRecord] <;> first | rfl | (split <;> rfl)

theorem step_table (adds : phase.adds = none) :
    (s.step env call phase).1.peers.table = s.peers.table := by
  cases phase <;> simp only [step, upgradeRecord] <;>
    first | rfl | (split <;> rfl) | (simp [CallPhase.adds] at adds)

theorem step_adds {id : Bytes} (adds : (s.step env call phase).2.1.bind CallPhase.adds = some id) :
    ∃ session linkMode relayTarget onConnected,
      phase = .checkCapacity session linkMode relayTarget onConnected ∧ id = session.peerID env ∧
        s.isFull = false := by
  obtain ⟨next, goes, inserts⟩ := Option.bind_eq_some_iff.mp adds
  cases phase with
  | checkCapacity session linkMode relayTarget onConnected =>
      simp only [step] at goes
      split at goes
      · cases goes
      · next room =>
          cases goes
          cases inserts
          exact ⟨session, linkMode, relayTarget, onConnected, rfl, rfl, Bool.eq_false_iff.mpr room⟩
  | lookup | process | lookupPeer =>
      simp only [step] at goes
      split at goes <;> cases goes <;> cases inserts
  | failed =>
      simp only [step] at goes
      split at goes
      · cases goes
      · cases goes
        cases inserts
  | candidate =>
      simp only [step] at goes
      split at goes
      · cases goes
        cases inserts
      · cases goes
  | reply response session =>
      cases session with
      | none => cases goes
      | some session =>
          cases goes
          cases inserts
  | compare session record =>
      simp only [step] at goes
      cases goes
      split at inserts <;> cases inserts
  | dropState | addRelay => cases goes
  | clearPending | addPeer | recordAddr | switchRecord | switchTables | linkRecord | refreshRecord
    | touchRecord =>
      cases goes
      cases inserts

end Shared

namespace Hub

variable (env : Env) (h : Hub)

def adding : List Bytes := h.calls.filterMap fun entry => entry.2.bind CallPhase.adds

def addingBut (index : Nat) : List Bytes :=
  (h.calls.eraseIdx index).filterMap fun entry => entry.2.bind CallPhase.adds

/-- A call that finds room finds it beside all that is about to be inserted, for an identity that
neither has a record nor is about to get one. -/
def roomForAll : HubEvent → Bool
  | .advance index =>
      match h.phase index with
      | some (.checkCapacity session _ _ _) => h.shared.isFull ||
          decide (h.shared.peers.find (session.peerID env) = none ∧
            ¬ h.adding.contains (session.peerID env) ∧ (0 < h.shared.node.config.maxPeers →
              (h.shared.peers.count + h.adding.length : Int) < h.shared.node.config.maxPeers))
      | _ => true
  | _ => true

def WithinMax : Prop :=
  0 < h.shared.node.config.maxPeers → (h.shared.peers.count : Int) ≤ h.shared.node.config.maxPeers

/-- What `Peers.Add` inserts replaces nothing. -/
def AddsNew (h : Hub) : HubEvent → Prop
  | .advance index => ∀ p onConnected, h.phase index = some (.addPeer p onConnected) →
      h.shared.peers.find p.id = none
  | _ => True

/-- What the calls about to insert still know of what they have read. -/
structure Decided : Prop where
  room : 0 < h.shared.node.config.maxPeers →
    (h.shared.peers.count + h.adding.length : Int) ≤ h.shared.node.config.maxPeers
  unknown : ∀ id ∈ h.adding, h.shared.peers.find id = none
  distinct : h.adding.Nodup

variable {env h}

section Advance

variable {index : Nat} {call : HandshakeCall} {phase : CallPhase}

theorem adding_perm (stands : h.calls[index]? = some (call, some phase)) :
    h.adding.Perm (phase.adds.toList ++ h.addingBut index) := by
  obtain ⟨bound, entry⟩ := List.getElem?_eq_some_iff.mp stands
  have moved := (List.getElem_cons_eraseIdx_perm bound).symm.filterMap
    fun entry => entry.2.bind CallPhase.adds
  rw [List.filterMap_cons, entry, Option.bind_some] at moved
  cases adds : phase.adds <;> rw [adds] at moved <;> exact moved

theorem adding_advance (stands : h.calls[index]? = some (call, some phase)) :
    (h.step env (.advance index)).adding.Perm
      (((h.shared.step env call phase).2.1.bind CallPhase.adds).toList ++ h.addingBut index) := by
  have bound : index < h.calls.length := (List.getElem?_eq_some_iff.mp stands).1
  have moved := (List.set_perm_cons_eraseIdx bound
    (call, (h.shared.step env call phase).2.1)).filterMap fun entry => entry.2.bind CallPhase.adds
  rw [List.filterMap_cons] at moved
  rw [adding, step_advance env h index call phase stands]
  cases adds : (h.shared.step env call phase).2.1.bind CallPhase.adds <;> rw [adds] at moved <;>
    exact moved

theorem roomForAll_capacity {session : Session} {linkMode : LinkMode} {relayTarget : Option NetAddr}
    {onConnected : Bool} (allowed : h.roomForAll env (.advance index) = true)
    (stands : h.phase index = some (.checkCapacity session linkMode relayTarget onConnected))
    (room : h.shared.isFull = false) :
    h.shared.peers.find (session.peerID env) = none ∧ session.peerID env ∉ h.adding ∧
      (0 < h.shared.node.config.maxPeers →
        (h.shared.peers.count + h.adding.length : Int) < h.shared.node.config.maxPeers) := by
  simpa only [roomForAll, stands, room, Bool.false_or, decide_eq_true_eq, List.contains_iff_mem]
    using allowed

theorem decided_add (decided : h.Decided) {p : Peer} {onConnected : Bool}
    (stands : h.calls[index]? = some (call, some (.addPeer p onConnected))) :
    (h.step env (.advance index)).Decided := by
  have before : h.adding.Perm (p.id :: h.addingBut index) := adding_perm stands
  have after : (h.step env (.advance index)).adding.Perm (h.addingBut index) := adding_advance stands
  have shared : (h.step env (.advance index)).shared =
      { h.shared with peers := h.shared.peers.put p.id p } := by
    rw [step_advance env h index call _ stands]
    rfl
  obtain ⟨new, distinct⟩ := List.nodup_cons.mp (before.nodup_iff.mp decided.distinct)
  refine ⟨?_, ?_, after.nodup_iff.mpr distinct⟩
  · intro limited
    rw [shared] at limited ⊢
    have reserved := decided.room limited
    have more : (h.shared.peers.put p.id p).count ≤ h.shared.peers.count + 1 :=
      GoMap.len_set_le _ _ _
    rw [before.length_eq, List.length_cons] at reserved
    rw [after.length_eq]
    simp only
    omega
  · intro id member
    have other := after.mem_iff.mp member
    have differs : id ≠ p.id := fun same => new (same ▸ other)
    rw [shared, RefMap.find_put, if_neg differs]
    exact decided.unknown id (before.mem_iff.mpr (List.mem_cons_of_mem _ other))

theorem decided_section (decided : h.Decided) (allowed : h.roomForAll env (.advance index) = true)
    (stands : h.calls[index]? = some (call, some phase)) (looks : phase.adds = none) :
    (h.step env (.advance index)).Decided := by
  have shared : (h.step env (.advance index)).shared = (h.shared.step env call phase).1 := by
    rw [step_advance env h index call _ stands]
  have config : (h.step env (.advance index)).shared.node.config = h.shared.node.config := by
    rw [shared, Shared.step_config]
  have table : (h.step env (.advance index)).shared.peers.table = h.shared.peers.table := by
    rw [shared, Shared.step_table env _ _ _ looks]
  have find (id : Bytes) : (h.step env (.advance index)).shared.peers.find id =
      h.shared.peers.find id := congrArg (·.get id) table
  have count : (h.step env (.advance index)).shared.peers.count = h.shared.peers.count :=
    congrArg GoMap.len table
  have before := adding_perm stands
  have after := @adding_advance env h index call phase stands
  rw [looks] at before
  cases adds : (h.shared.step env call phase).2.1.bind CallPhase.adds with
  | none =>
      rw [adds] at after
      have same := after.trans before.symm
      refine ⟨?_, ?_, same.nodup_iff.mpr decided.distinct⟩
      · rw [config, count, same.length_eq]
        exact decided.room
      · intro id member
        rw [find]
        exact decided.unknown id (same.mem_iff.mp member)
  | some id =>
      rw [adds] at after
      have one : (h.step env (.advance index)).adding.Perm (id :: h.adding) :=
        after.trans (before.symm.cons id)
      obtain ⟨session, linkMode, relayTarget, onConnected, rfl, rfl, room⟩ :=
        h.shared.step_adds env call phase adds
      have now : h.phase index = some (.checkCapacity session linkMode relayTarget onConnected) := by
        rw [Hub.phase, stands, Option.bind_some]
      obtain ⟨unknown, new, more⟩ := roomForAll_capacity allowed now room
      refine ⟨?_, ?_, one.nodup_iff.mpr (List.nodup_cons.mpr ⟨new, decided.distinct⟩)⟩
      · rw [config, count, one.length_eq, List.length_cons]
        intro limited
        have := more limited
        omega
      · intro other member
        rw [find]
        rcases List.mem_cons.mp (one.mem_iff.mp member) with rfl | earlier
        · exact unknown
        · exact decided.unknown other earlier

end Advance

theorem decided_step (decided : h.Decided) (event : HubEvent)
    (allowed : h.roomForAll env event = true) : (h.step env event).Decided := by
  cases event with
  | call call =>
      have same : (h.step env (.call call)).adding = h.adding := by
        rw [adding, step, List.filterMap_append]
        exact List.append_nil _
      refine ⟨?_, ?_, ?_⟩
      · rw [same]
        exact decided.room
      · rw [same]
        exact decided.unknown
      · rw [same]
        exact decided.distinct
  | advance index =>
      rcases h.advance_cases env index with ⟨same, -⟩ | ⟨call, phase, stands⟩
      · rw [same]
        exact decided
      · cases adds : phase.adds with
        | none => exact decided_section decided allowed stands adds
        | some id => cases phase <;> first | exact decided_add decided stands | cases adds
  | removePeer peerID =>
      have fewer : (h.shared.peers.delete peerID).count ≤ h.shared.peers.count :=
        GoMap.len_delete_le _ _
      refine ⟨?_, ?_, decided.distinct⟩
      · intro limited
        have room := decided.room limited
        simp only [step, adding] at limited room ⊢
        omega
      · intro id member
        simp only [step]
        rw [RefMap.find_delete, decided.unknown id member, ite_self]

theorem withinMax_of_decided (decided : h.Decided) : h.WithinMax := by
  intro limited
  have := decided.room limited
  omega

theorem addsNew_of_decided (decided : h.Decided) (event : HubEvent) : h.AddsNew event := by
  cases event with
  | advance index =>
      intro p onConnected stands
      obtain ⟨⟨call, entry⟩, listed, rfl⟩ := Option.bind_eq_some_iff.mp stands
      exact decided.unknown p.id ((adding_perm listed).mem_iff.mpr List.mem_cons_self)
  | call call => trivial
  | removePeer peerID => trivial

/-- Where every call that finds room finds it beside all that other calls are about to insert, for an
identity without a record that none of them inserts, there are never more peers than `MaxPeers` and no
insertion replaces a record, in any interleaving of any number of calls. -/
theorem admitted_where_room_for_all (env : Env) (start : Hub) (events : List HubEvent)
    (idle : start.calls = []) (within : start.WithinMax)
    (allowed : Along (Hub.step env) (fun h event => h.roomForAll env event = true) start events) :
    Throughout (Hub.step env) WithinMax start events ∧
      Along (Hub.step env) AddsNew start events := by
  have nobody : start.adding = [] := by
    rw [adding, idle]
    rfl
  have initially : start.Decided := by
    refine ⟨?_, ?_, ?_⟩
    · intro limited
      rw [nobody]
      simpa using within limited
    · rw [nobody]
      intro id member
      cases member
    · rw [nobody]
      exact List.nodup_nil
  have decided := throughout_keeps start events initially allowed
    fun h event decided allowed => decided_step decided event allowed
  exact ⟨throughout_mono start events decided fun h => withinMax_of_decided,
    along_of_throughout start events decided fun h event decided => addsNew_of_decided decided event⟩

namespace SideBySide

instance decidableWithinMax (h : Hub) : Decidable h.WithinMax :=
  inferInstanceAs (Decidable (_ → (_ : Int) ≤ _))

def cfg : Config := { defaultConfig with networkPassword := [1], maxPeers := 1 }

def node : Node := newNode .padded cfg (newIdentity .padded [5])

def waiting (ephemeral : Key) : HandshakeState :=
  (newInitiatorHandshake node.identity.noisePublicKey cfg.networkPassword ephemeral 0).1

/-- One connect has sent its two first messages to an address, another has sent one elsewhere. -/
def start : Hub where
  shared :=
    { node
      pending := (((∅ : RefMap _ _).put (.udp, [10]) (waiting [1])).put (.tcp, [10])
        (waiting [2])).put (.udp, [11]) (waiting [3])
      peers := ∅ }
  calls := []

def answer (conn : Option ConnId) (remoteAddr : NetAddr) (transport : Transport)
    (ephemeral static : Key) : HandshakeCall :=
  ⟨conn, remoteAddr, transport, .two (.one ephemeral) (waiting ephemeral).prologue [9] static, [8], 0⟩

def overUDP : HandshakeCall := answer none ⟨.udp, [10]⟩ .udp [1] [20]

def overTCP : HandshakeCall := answer (some 1) ⟨.tcp, [10]⟩ .tcp [2] [20]

def fromAnother : HandshakeCall := answer none ⟨.udp, [11]⟩ .udp [3] [21]

def abreast (one other : HandshakeCall) : List HubEvent :=
  [.call one, .call other] ++ List.replicate 6 (.advance 0) ++ List.replicate 6 (.advance 1)

def larger : Hub :=
  { start with shared := { start.shared with node := { node with config := { cfg with maxPeers := 2 } } } }

/-- Two peers decide abreast and insert; then one of them comes over TCP as well. -/
def abreastWithRoom : List HubEvent :=
  abreast overUDP fromAnother ++ List.replicate 4 (.advance 1) ++ List.replicate 4 (.advance 0) ++
    [.call overTCP] ++ List.replicate 10 (.advance 2)

theorem admitted_abreast :
    (larger.calls = [] ∧ larger.WithinMax ∧
      Along (Hub.step .padded) (fun h event => h.roomForAll .padded event = true) larger
        abreastWithRoom) ∧
    (Throughout (Hub.step .padded) WithinMax larger abreastWithRoom ∧
      Along (Hub.step .padded) AddsNew larger abreastWithRoom) :=
  ⟨by decide +kernel, admitted_where_room_for_all .padded larger abreastWithRoom rfl
    (by decide +kernel) (by decide +kernel)⟩

/-- Two new peers pass the test for room together and make two peers where one is allowed. The two
handshakes of one connect both find the peer unknown, and the record that the TCP handshake has just
inserted is replaced by that of the UDP handshake. -/
theorem abreast_admission_breaks :
    cfg.validate = true ∧ start.WithinMax ∧
      ¬ (run (Hub.step .padded) start
        (abreast overUDP fromAnother ++ [.advance 0, .advance 1])).WithinMax ∧
      ((run (Hub.step .padded) start (abreast overTCP overUDP ++ [.advance 0])).shared.peers.value
        (peerIDOf .padded [20])).map Peer.transport = some .tcp ∧
      ((run (Hub.step .padded) start
        (abreast overTCP overUDP ++ [.advance 0, .advance 1])).shared.peers.value
          (peerIDOf .padded [20])).map Peer.transport = some .udp := by
  decide +kernel

end SideBySide

end Hub

end Tenet
