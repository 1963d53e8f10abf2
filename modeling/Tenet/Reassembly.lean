import Tenet.Delivery
import Tenet.Heartbeat

/-! The reassembly of `processData` against its reference: for any packets, the application frames are
those that a look-ahead over the decrypted frames finds. -/

namespace Tenet

open Lib

/-- The switch on the frame type feeds the joining automaton with the fragment, if it is one. -/
theorem receiveFrame_feed (p : Peer) (plaintext : Bytes) :
    let fed := Fragment.feed maxReassemblySize p.reassemblyBuffer (frameOf plaintext).toList
    (p.receiveFrame plaintext).1 = { p with reassemblyBuffer := fed.1 } ∧
      (p.receiveFrame plaintext).2.toList = fed.2 := by
  intro fed
  cases known : frameOf plaintext with
  | none =>
      simp only [fed, known, receiveFrame_unknown p plaintext known]
      exact ⟨rfl, rfl⟩
  | some frame =>
      rw [frameOf_eq_some plaintext frame known, Peer.receiveFrame_eq_step]
      simp only [fed, known, Option.toList_some, Fragment.feed, List.append_nil, and_self]

namespace Node

section Handlers

variable (n : Node) (peerID : Bytes)

def handleAll : Peer → List Bytes → Peer × List Effect
  | p, [] => (p, [])
  | p, data :: rest =>
      let first := n.handleAppFrame peerID p data
      let later := handleAll first.1 rest
      (later.1, first.2 ++ later.2)

theorem handleAll_append (p : Peer) (front back : List Bytes) :
    n.handleAll peerID p (front ++ back) =
      ((n.handleAll peerID (n.handleAll peerID p front).1 back).1,
        (n.handleAll peerID p front).2 ++
          (n.handleAll peerID (n.handleAll peerID p front).1 back).2) := by
  induction front generalizing p with
  | nil => rfl
  | cons data rest ih => simp only [List.cons_append, handleAll, ih, List.append_assoc]

theorem handleAll_effects (p : Peer) (messages : List Bytes) :
    (n.handleAll peerID p messages).2 = messages.flatMap (n.callbacks peerID) := by
  induction messages generalizing p with
  | nil => rfl
  | cons data rest ih =>
      obtain ⟨_, handled⟩ := handleAppFrame_eq n peerID p data
      simp only [handleAll, ih, handled, List.flatMap_cons]

theorem callbacks_filter (data : Bytes) :
    (n.callbacks peerID data).filter (· ≠ .triggerFastRehandshake peerID) = n.callbacks peerID data := by
  unfold callbacks
  split
  · rfl
  · split
    · rfl
    · rfl

theorem handleAppFrame_channels {p q : Peer} (same : p.remoteChannels = q.remoteChannels)
    (data : Bytes) :
    (n.handleAppFrame peerID p data).1.remoteChannels =
      (n.handleAppFrame peerID q data).1.remoteChannels := by
  cases data with
  | nil => exact same
  | cons appFrameType payload =>
      simp only [handleAppFrame]
      split_ifs
      · exact same
      · exact same
      · exact same
      · cases payload with
        | nil => exact same
        | cons opcode rest =>
            simp only [processChannelUpdate]
            split_ifs
            · exact same
            · exact congrArg (insert (rest.take 32)) same
            · exact congrArg (·.erase (rest.take 32)) same
            · exact same
            · exact same
      · exact same

theorem handleAll_channels {p q : Peer} (same : p.remoteChannels = q.remoteChannels)
    (messages : List Bytes) :
    (n.handleAll peerID p messages).1.remoteChannels =
      (n.handleAll peerID q messages).1.remoteChannels := by
  induction messages generalizing p q with
  | nil => exact same
  | cons data rest ih => exact ih (handleAppFrame_channels n peerID same data)

theorem dispatchFrame_feed (p : Peer) (plaintext : Bytes) :
    let fed := Fragment.feed maxReassemblySize p.reassemblyBuffer (frameOf plaintext).toList
    (n.dispatchFrame peerID p plaintext).1.id = p.id ∧
      (n.dispatchFrame peerID p plaintext).1.reassemblyBuffer = fed.1 ∧
      (n.dispatchFrame peerID p plaintext).1.remoteChannels =
        (n.handleAll peerID p fed.2).1.remoteChannels ∧
      (n.dispatchFrame peerID p plaintext).2 = fed.2.flatMap (n.callbacks peerID) := by
  intro fed
  obtain ⟨record, output⟩ := receiveFrame_feed p.resetDecryptFailures plaintext
  have same : p.resetDecryptFailures.reassemblyBuffer = p.reassemblyBuffer := rfl
  rw [same] at record output
  rw [dispatchFrame, dispatchFrameTo]
  rcases received : p.resetDecryptFailures.receiveFrame plaintext with ⟨after, _ | data⟩
  · rw [received] at record output
    have nothing : fed.2 = [] := output.symm
    cases record
    rw [nothing]
    exact ⟨rfl, rfl, rfl, rfl⟩
  · rw [received] at record output
    have one : fed.2 = [data] := output.symm
    cases record
    rw [one]
    obtain ⟨_, handled⟩ := handleAppFrame_eq n peerID
      { p.resetDecryptFailures with reassemblyBuffer := fed.1 } data
    refine ⟨congrArg (·.1.id) handled, congrArg (·.1.reassemblyBuffer) handled, ?_, ?_⟩
    · exact handleAppFrame_channels n peerID
        (p := { p.resetDecryptFailures with reassemblyBuffer := fed.1 }) (q := p) rfl data
    · rw [List.flatMap_singleton]
      exact congrArg Prod.snd handled

theorem handleAll_peers (peers : PeerStore) (p : Peer) (messages : List Bytes) :
    ({ n with peers } : Node).handleAll peerID p messages = n.handleAll peerID p messages := by
  induction messages generalizing p with
  | nil => rfl
  | cons data rest ih =>
      have same : ({ n with peers } : Node).handleAppFrame peerID p data =
        n.handleAppFrame peerID p data := rfl
      simp only [handleAll, same, ih]

end Handlers

/-- The plaintext of a packet that opens under the session of its address. -/
def decryptedFrame (aead : Aead) (n : Node) (remoteAddr payload : Bytes) : Option Bytes :=
  (n.peerAt remoteAddr).bind fun p => (p.decrypt aead payload).map Prod.fst

variable (aead : Aead) (remoteAddr : Bytes)

/-- Packets one after the other: the node, and everything that is done besides. -/
def receiveAll : Node → List Bytes → Node × List Effect
  | n, [] => (n, [])
  | n, payload :: payloads =>
      let first := n.processData aead remoteAddr payload
      let later := receiveAll first.1 payloads
      (later.1, first.2 ++ later.2)

def decryptedFrames : Node → List Bytes → List Bytes
  | _, [] => []
  | n, payload :: payloads =>
      (n.decryptedFrame aead remoteAddr payload).toList ++
        decryptedFrames (n.processData aead remoteAddr payload).1 payloads

/-- The channels of the record and the effects are those of `handleAppFrame` on these application
frames. Packets that do not open may start a re-handshake besides. -/
structure HandedOn (n : Node) (peerID : Bytes) (p : Peer) (messages : List Bytes)
    (result : Node × List Effect) : Prop where
  channels : (result.1.peers.get peerID).map Peer.remoteChannels =
    some (n.handleAll peerID p messages).1.remoteChannels
  effects : result.2.filter (· ≠ .triggerFastRehandshake peerID) =
    (n.handleAll peerID p messages).2

section Packets

variable {n : Node} {peerID : Bytes} {p : Peer} (mapped : n.addrToPeer.get remoteAddr = some peerID)
  (found : n.peers.get peerID = some p)

include mapped found

theorem processData_feed (payload : Bytes) :
    let fed := Fragment.feed maxReassemblySize p.reassemblyBuffer
      ((n.decryptedFrame aead remoteAddr payload).bind frameOf).toList
    HandedOn n peerID p fed.2 (n.processData aead remoteAddr payload) ∧
      ∃ q, (n.processData aead remoteAddr payload).1 = { n with peers := n.peers.add q } ∧
        q.id = peerID ∧ q.reassemblyBuffer = fed.1 := by
  have named : p.id = peerID := n.peers.get_id peerID p found
  have stored (q : Peer) (same : q.id = peerID) : (n.peers.add q).get peerID = some q := by
    rw [PeerStore.get_add, if_pos same.symm]
  have known : n.peerAt remoteAddr = some p := by simp only [peerAt, mapped, found, Option.bind_some]
  rw [decryptedFrame, known, Option.bind_some]
  cases decrypted : p.decrypt aead payload with
  | none =>
      have failed : n.processData aead remoteAddr payload =
          ({ n with peers := n.peers.add p.incDecryptFailures.1 },
            if p.incDecryptFailures.2 ≥ n.config.maxConsecutiveDecryptFailures then
              [.triggerFastRehandshake peerID] else []) := by
        simp only [processData, processDataTo, mapped, found, decrypted]
      rw [failed]
      refine ⟨⟨by rw [stored p.incDecryptFailures.1 named]; rfl, ?_⟩, _, rfl, named, rfl⟩
      dsimp only
      split
      · simp [handleAll, Fragment.feed]
      · rfl
  | some result =>
      obtain ⟨plaintext, opened⟩ := result
      obtain ⟨_, _, _, _, _, moved⟩ := p.decrypt_eq_some aead opened payload plaintext decrypted
      have sameBuffer : opened.reassemblyBuffer = p.reassemblyBuffer := by rw [moved]
      have sameChannels : opened.remoteChannels = p.remoteChannels := by rw [moved]
      have openedNamed : opened.id = peerID := by rw [moved]; exact named
      obtain ⟨kept, buffer, channels, effects⟩ := dispatchFrame_feed n peerID opened plaintext
      rw [sameBuffer] at buffer channels effects
      rw [processData_decrypted aead n remoteAddr payload peerID plaintext p opened mapped found decrypted]
      refine ⟨⟨?_, ?_⟩, _, rfl, kept.trans openedNamed, buffer⟩
      · rw [stored _ (kept.trans openedNamed), Option.map_some, channels]
        exact congrArg some (handleAll_channels n peerID sameChannels _)
      · rw [handleAll_effects, effects, List.filter_flatMap]
        simp only [callbacks_filter]
        rfl

theorem receiveAll_feed (payloads : List Bytes) :
    let fed := Fragment.feed maxReassemblySize p.reassemblyBuffer
      ((decryptedFrames aead remoteAddr n payloads).filterMap frameOf)
    HandedOn n peerID p fed.2 (receiveAll aead remoteAddr n payloads) ∧
      ∃ q, (receiveAll aead remoteAddr n payloads).1.peers.get peerID = some q ∧
        q.reassemblyBuffer = fed.1 := by
  induction payloads generalizing n p with
  | nil => exact ⟨⟨by rw [receiveAll, found]; rfl, rfl⟩, p, found, rfl⟩
  | cons payload payloads ih =>
      obtain ⟨first, q, moved, named, buffer⟩ := processData_feed aead remoteAddr mapped found payload
      have present : (n.peers.add q).get peerID = some q := by
        rw [PeerStore.get_add, if_pos named.symm]
      obtain ⟨later, last, kept, final⟩ := ih (n := { n with peers := n.peers.add q }) mapped present
      have single : (n.decryptedFrame aead remoteAddr payload).toList.filterMap frameOf =
          ((n.decryptedFrame aead remoteAddr payload).bind frameOf).toList := by
        cases n.decryptedFrame aead remoteAddr payload with
        | none => rfl
        | some plaintext =>
            simp only [Option.toList_some, Option.bind_some, List.filterMap_cons, List.filterMap_nil]
            cases frameOf plaintext <;> rfl
      simp only [decryptedFrames, receiveAll, moved, List.filterMap_append, single,
        Fragment.feed_append, ← buffer]
      refine ⟨?_, last, kept, final⟩
      -- the record that the first packet leaves has the channels that the handlers leave
      have channels : q.remoteChannels = (n.handleAll peerID p (Fragment.feed maxReassemblySize
          p.reassemblyBuffer ((n.decryptedFrame aead remoteAddr payload).bind frameOf).toList).2).1.remoteChannels := by
        have left := first.channels
        rw [moved, present] at left
        exact Option.some.inj left
      constructor
      · rw [later.channels, handleAll_peers, handleAll_append, handleAll_channels n peerID channels]
      · have moreEffects := later.effects
        rw [handleAll_peers, handleAll_effects] at moreEffects
        rw [List.filter_append, ← moved, first.effects, moved, moreEffects, handleAll_append,
          handleAll_effects, handleAll_effects]

end Packets

theorem decryptedFrames_append (n : Node) (front back : List Bytes) :
    decryptedFrames aead remoteAddr n (front ++ back) =
      decryptedFrames aead remoteAddr n front ++
        decryptedFrames aead remoteAddr (receiveAll aead remoteAddr n front).1 back := by
  induction front generalizing n with
  | nil => rfl
  | cons payload front ih =>
      simp only [List.cons_append, decryptedFrames, ih, List.append_assoc]
      rfl

theorem frameOf_small (plaintext : Bytes) (frame : Fragment.Frame UInt8)
    (known : frameOf plaintext = some frame) (short : plaintext.length ≤ 65535) :
    frame.body.length ≤ maxReassemblySize := by
  rw [frameOf_eq_some plaintext frame known, List.length_cons] at short
  have limit : maxReassemblySize = 52428800 := rfl
  omega

end Node

open Node in
/-- Whatever a peer sends, its packets have the effects of `handleAppFrame` on the application frames
of the reference; the buffer stays within its limit; and a message that gets too long contributes
nothing, before or after. -/
theorem reassembly_reference (aead : Aead) (n : Node) (remoteAddr peerID : Bytes) (p : Peer)
    (payloads : List Bytes) (mapped : n.addrToPeer.get remoteAddr = some peerID)
    (found : n.peers.get peerID = some p) (fresh : p.reassemblyBuffer = none)
    (short : ∀ plaintext ∈ decryptedFrames aead remoteAddr n payloads, plaintext.length ≤ 65535) :
    let frames := (decryptedFrames aead remoteAddr n payloads).filterMap frameOf
    HandedOn n peerID p (Fragment.messages maxReassemblySize frames)
        (receiveAll aead remoteAddr n payloads) ∧
      (∀ front, front <+: payloads → ∃ q,
        (receiveAll aead remoteAddr n front).1.peers.get peerID = some q ∧
          ∀ held, q.reassemblyBuffer = some held → held.length ≤ maxReassemblySize) ∧
      ∀ before body rest behind, frames = before ++ (⟨.first, body⟩ :: rest) ++ behind →
        Fragment.Exceeds maxReassemblySize body rest →
          HandedOn n peerID p (Fragment.messages maxReassemblySize before ++
            Fragment.messages maxReassemblySize behind) (receiveAll aead remoteAddr n payloads) := by
  intro frames
  have handed : HandedOn n peerID p (Fragment.messages maxReassemblySize frames)
      (receiveAll aead remoteAddr n payloads) := by
    have fed := (receiveAll_feed aead remoteAddr mapped found payloads).1
    rwa [fresh, Fragment.feed_messages, Option.bind_none, Option.toList_none, List.nil_append] at fed
  refine ⟨handed, ?_, ?_⟩
  · rintro front ⟨back, rfl⟩
    obtain ⟨-, q, kept, buffer⟩ := receiveAll_feed aead remoteAddr mapped found front
    refine ⟨q, kept, fun held holds => ?_⟩
    rw [buffer, fresh] at holds
    apply Fragment.feed_bounded maxReassemblySize none _ _ nofun held holds
    intro frame member
    rcases List.mem_filterMap.mp member with ⟨plaintext, decrypted, known⟩
    apply frameOf_small plaintext frame known
    apply short
    rw [decryptedFrames_append]
    exact List.mem_append_left _ decrypted
  · intro before body rest behind split exceeds
    rw [← Fragment.messages_exceeded maxReassemblySize before behind body rest exceeds, ← split]
    exact handed

/-- A message in two parts, with a frame of unknown type and an empty one in between, is given to the
application. The node first takes a single frame, which clears the partial message that it starts
with. -/
theorem reassembly_reference_interspersed :
    let wrap := IdealAead.tagged.encrypt ⟨.one [7], true⟩
    let n := ((connectedNode [2] [1] false 5).processData IdealAead.tagged.toAead [0x61] (wrap 5 [1])).1
    let channel := hashChannelName .padded [0x63]
    (Node.receiveAll IdealAead.tagged.toAead [0x61] n [wrap 6 (2 :: 0x02 :: channel), wrap 7 [9, 9],
        wrap 8 [], wrap 9 [4, 0x62]]).2.filter (· ≠ .triggerFastRehandshake (peerIDOf .padded [1])) =
      [.onReceive (peerIDOf .padded [1]) [0x62]] := by
  intro wrap n channel
  obtain ⟨p, found, fresh⟩ : ∃ p, n.peers.get (peerIDOf .padded [1]) = some p ∧
      p.reassemblyBuffer = none := ⟨_, rfl, by decide +kernel⟩
  have handed := (reassembly_reference IdealAead.tagged.toAead n [0x61] (peerIDOf .padded [1]) p
    [wrap 6 (2 :: 0x02 :: channel), wrap 7 [9, 9], wrap 8 [], wrap 9 [4, 0x62]] (by decide +kernel)
    found fresh (by decide +kernel)).1
  rw [handed.effects, Node.handleAll_effects]
  decide +kernel

end Tenet
