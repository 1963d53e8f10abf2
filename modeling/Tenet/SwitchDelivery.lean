import Tenet.Delivery
import Tenet.SessionSwitch

/-! What is sent around a session switch arrives, as long as no side writes a fragment between its last
handshake message and the installation of its new session. -/

namespace Tenet.SessionSwitch

open Lib Lib.Run Handover

/-- The cipher under which fragments arrive behind a handshake message, for its reader. -/
def turn (link : Link) : Message → Option CipherState
  | .one _ => none
  | .two answered prologue ephemeral static =>
      some ⟨⟨.three (.two answered prologue ephemeral static) (link.key link.initiator), false⟩, 0⟩
  | .three answered static => some ⟨⟨.three answered static, true⟩, 0⟩

def wrap (aead : Aead) (cipher : CipherState) (frame : Fragment.Frame UInt8) : Bytes :=
  aead.encrypt cipher.key cipher.n (frameType frame.kind :: frame.body)

def advance (cipher : CipherState) : CipherState := { cipher with n := cipher.n + 1 }

section Views

variable (env : Env) (link : Link) (side : Side) (party : Party)

def record : Option Peer := party.node.peers.get (link.peerID env side)

def pending : Option HandshakeState := party.node.pendingHandshakes.get (link.stateKey side)

/-- The cipher of the next fragment that a side may write. While it is switching, that is the one of
the session to come. -/
def sendCipher : Option CipherState :=
  match party.installing, (pending link side party).map HandshakeState.stage with
  | some session, _ => session.sendCipher
  | none, some (.awaitThree sent) =>
      some ⟨⟨.three sent (link.key link.initiator), false⟩, 0⟩
  | none, _ => ((record env link side party).bind Peer.session).bind Session.sendCipher

def recvCipher : Option CipherState :=
  match party.installing with
  | some session => session.recvCipher
  | none => ((record env link side party).bind Peer.session).bind Session.recvCipher

def writer : Handover.Writer UInt8 CipherState :=
  ⟨sendCipher env link side party, party.sending, party.returned⟩

def reader : Handover.Reader UInt8 CipherState :=
  ⟨recvCipher env link side party, (record env link side party).bind Peer.reassemblyBuffer,
    party.handled⟩

/-- The node knows who it is, and the other side by this connection. -/
structure Home : Prop where
  key : party.node.identity.noisePublicKey = link.key side
  prologue : prologuePrefix ++ party.node.config.networkPassword = link.prologue
  mapped : party.node.addrToPeer.get (link.addr side).text = some (link.peerID env side)
  stored : ∃ p, record env link side party = some p ∧ p.transport = .tcp ∧
    p.addr = link.addr side ∧ p.conn = some (link.conn side)

/-- The handshake is over for the side, or all but the installation of this session. -/
def Settling (session : Session) : Prop :=
  party.installing = some session ∨
    party.installing = none ∧ pending link side party = none

end Views

section Phases

variable (env : Env) (aead : Aead) (link : Link)

def Link.second (link : Link) (ephemeral drawn : Key) : Message :=
  .two (.one ephemeral) link.prologue drawn (link.key link.responder)

def Link.third (link : Link) (ephemeral drawn : Key) : Message :=
  .three (link.second ephemeral drawn) (link.key link.initiator)

/-- Where the handshake is: the messages on their way to the two sides, and what the sides wait for. -/
inductive Phase (s : State) : Prop where
  | idle (unstarted : s.started = false)
      (toResponder : notes (s.flight link.responder) = [])
      (toInitiator : notes (s.flight link.initiator) = [])
      (unset : ∀ side, (s.party side).installing = none)
      (free : ∀ side, pending link side (s.party side) = none)
  | one (ephemeral : Key) (started : s.started = true)
      (toResponder : notes (s.flight link.responder) = [.one ephemeral])
      (toInitiator : notes (s.flight link.initiator) = [])
      (unset : ∀ side, (s.party side).installing = none)
      (initiating : ∃ hs, pending link link.initiator (s.party link.initiator) = some hs ∧
        Initiating hs (.one ephemeral) link.prologue (link.key link.initiator))
      (free : pending link link.responder (s.party link.responder) = none)
  | two (ephemeral drawn : Key) (started : s.started = true)
      (toResponder : notes (s.flight link.responder) = [])
      (toInitiator : notes (s.flight link.initiator) = [link.second ephemeral drawn])
      (unset : ∀ side, (s.party side).installing = none)
      (initiating : ∃ hs, pending link link.initiator (s.party link.initiator) = some hs ∧
        Initiating hs (.one ephemeral) link.prologue (link.key link.initiator))
      (responding : ∃ hs, pending link link.responder (s.party link.responder) = some hs ∧
        Responding hs (link.second ephemeral drawn))
  | three (ephemeral drawn : Key) (started : s.started = true)
      (toResponder : notes (s.flight link.responder) = [link.third ephemeral drawn])
      (toInitiator : notes (s.flight link.initiator) = [])
      (settling : Settling link link.initiator (s.party link.initiator)
        (sessionOf true (link.third ephemeral drawn) (link.key link.responder)))
      (unset : (s.party link.responder).installing = none)
      (responding : ∃ hs, pending link link.responder (s.party link.responder) = some hs ∧
        Responding hs (link.second ephemeral drawn))
  | four (ephemeral drawn : Key) (started : s.started = true)
      (toResponder : notes (s.flight link.responder) = [])
      (toInitiator : notes (s.flight link.initiator) = [])
      (initiator : Settling link link.initiator (s.party link.initiator)
        (sessionOf true (link.third ephemeral drawn) (link.key link.responder)))
      (responder : Settling link link.responder (s.party link.responder)
        (sessionOf false (link.third ephemeral drawn) (link.key link.initiator)))

abbrev LinkWay (line : Line) (x : Handover.Writer UInt8 CipherState)
    (y : Handover.Reader UInt8 CipherState) : Prop :=
  Way (turn link) (wrap aead) advance maxReassemblySize line x y

structure Inv (s : State) : Prop where
  home : ∀ side, Home env link side (s.party side)
  way : ∀ side, LinkWay aead link (s.flight side.other) (writer env link side (s.party side))
    (reader env link side.other (s.party side.other))
  phase : Phase link s

end Phases

section Acting

variable {env : Env} {aead : Aead} {link : Link} {s : State} {side : Side} {party : Party}
  {left sent : Line}

@[simp] theorem act_party : (s.act side party left sent).party side = party := by
  simp only [State.act, Function.update_self]

@[simp] theorem act_party_other : (s.act side party left sent).party side.other =
    s.party side.other := by
  simp only [State.act, Function.update_of_ne side.other_ne]

@[simp] theorem act_flight : (s.act side party left sent).flight side = left :=
  if_pos rfl

@[simp] theorem act_flight_other : (s.act side party left sent).flight side.other =
    s.flight side.other ++ sent :=
  if_neg side.other_ne

theorem Link.responder_other (link : Link) : link.responder.other = link.initiator :=
  Side.other_other link.initiator

theorem act_party_initiator :
    (s.act link.responder party left sent).party link.initiator = s.party link.initiator := by
  rw [← link.responder_other, act_party_other]

theorem act_flight_initiator : (s.act link.responder party left sent).flight link.initiator =
    s.flight link.initiator ++ sent := by
  rw [← link.responder_other, act_flight_other]

theorem act_party_responder :
    (s.act link.initiator party left sent).party link.responder = s.party link.responder :=
  act_party_other

theorem act_flight_responder : (s.act link.initiator party left sent).flight link.responder =
    s.flight link.responder ++ sent :=
  act_flight_other

theorem ways_act
    (out : LinkWay aead link (s.flight side.other ++ sent) (writer env link side party)
      (reader env link side.other (s.party side.other)))
    (back : LinkWay aead link left (writer env link side.other (s.party side.other))
      (reader env link side party)) (each : Side) :
    LinkWay aead link ((s.act side party left sent).flight each.other)
      (writer env link each ((s.act side party left sent).party each))
      (reader env link each.other ((s.act side party left sent).party each.other)) := by
  rcases side.eq_or_eq_other each with rfl | rfl
  · rw [act_party, act_party_other, act_flight_other]
    exact out
  · rw [Side.other_other, act_party, act_party_other, act_flight]
    exact back

theorem homes_act (homes : ∀ each, Home env link each (s.party each))
    (home : Home env link side party) (each : Side) :
    Home env link each ((s.act side party left sent).party each) := by
  rcases side.eq_or_eq_other each with rfl | rfl
  · rw [act_party]
    exact home
  · rw [act_party_other]
    exact homes side.other

theorem way_back (inv : Inv env aead link s) (side : Side) :
    LinkWay aead link (s.flight side) (writer env link side.other (s.party side.other))
      (reader env link side (s.party side)) := by
  have way := inv.way side.other
  rw [Side.other_other] at way
  exact way

theorem phase_act (phase : Phase link s) (read : notes left = notes (s.flight side))
    (silent : notes sent = []) (installing : party.installing = (s.party side).installing)
    (same : pending link side party = pending link side (s.party side)) :
    Phase link (s.act side party left sent) := by
  have flights (each : Side) :
      notes ((s.act side party left sent).flight each) = notes (s.flight each) := by
    rcases side.eq_or_eq_other each with rfl | rfl
    · rw [act_flight, read]
    · rw [act_flight_other, notes_append, silent, List.append_nil]
  have installs (each : Side) :
      ((s.act side party left sent).party each).installing = (s.party each).installing := by
    rcases side.eq_or_eq_other each with rfl | rfl
    · rw [act_party, installing]
    · rw [act_party_other]
  have waits (each : Side) :
      pending link each ((s.act side party left sent).party each) =
        pending link each (s.party each) := by
    rcases side.eq_or_eq_other each with rfl | rfl
    · rw [act_party, same]
    · rw [act_party_other]
  cases phase with
  | idle unstarted toResponder toInitiator unset free =>
      exact .idle unstarted (by rw [flights, toResponder]) (by rw [flights, toInitiator])
        (fun each => by rw [installs, unset]) (fun each => by rw [waits, free])
  | one ephemeral started toResponder toInitiator unset initiating free =>
      exact .one ephemeral started (by rw [flights, toResponder]) (by rw [flights, toInitiator])
        (fun each => by rw [installs, unset]) (by rw [waits]; exact initiating)
        (by rw [waits, free])
  | two ephemeral drawn started toResponder toInitiator unset initiating responding =>
      exact .two ephemeral drawn started (by rw [flights, toResponder])
        (by rw [flights, toInitiator]) (fun each => by rw [installs, unset])
        (by rw [waits]; exact initiating) (by rw [waits]; exact responding)
  | three ephemeral drawn started toResponder toInitiator settling unset responding =>
      exact .three ephemeral drawn started (by rw [flights, toResponder])
        (by rw [flights, toInitiator]) (by rw [Settling, installs, waits]; exact settling)
        (by rw [installs, unset]) (by rw [waits]; exact responding)
  | four ephemeral drawn started toResponder toInitiator initiator responder =>
      exact .four ephemeral drawn started (by rw [flights, toResponder])
        (by rw [flights, toInitiator]) (by rw [Settling, installs, waits]; exact initiator)
        (by rw [Settling, installs, waits]; exact responder)

end Acting

section Sending

variable {env : Env} {aead : Aead} {link : Link} {s : State} {side : Side} {party : Party}
  {left sent : Line}

theorem inv_act (inv : Inv env aead link s) (home : Home env link side party)
    (out : LinkWay aead link (s.flight side.other ++ sent) (writer env link side party)
      (reader env link side.other (s.party side.other)))
    (back : LinkWay aead link left (writer env link side.other (s.party side.other))
      (reader env link side party))
    (phase : Phase link (s.act side party left sent)) :
    Inv env aead link (s.act side party left sent) :=
  ⟨homes_act inv.home home, ways_act out back, phase⟩

theorem inv_same (inv : Inv env aead link s) : Inv env aead link
    (s.act side (s.party side) (s.flight side) []) := by
  apply inv_act inv (inv.home side) _ (way_back inv side) (phase_act inv.phase rfl rfl rfl rfl)
  rw [List.append_nil]
  exact inv.way side

theorem home_of_node {other : Party} (home : Home env link side party)
    (node : other.node = party.node) : Home env link side other := by
  refine ⟨?_, ?_, ?_, ?_⟩
  · rw [node, home.key]
  · rw [node, home.prologue]
  · rw [node, home.mapped]
  · rw [record, node]
    exact home.stored

theorem send_cases (env : Env) (link : Link) (party : Party) (side : Side)
    (channelName data : Bytes) :
    party.send env link side channelName data = party ∨
      party.send env link side channelName data = { party with
        sending := some ⟨appFrameTypeUserWithChannel :: (hashChannelName env channelName ++ data),
          Fragment.split maxPayloadSize
            (appFrameTypeUserWithChannel :: (hashChannelName env channelName ++ data))⟩ } := by
  unfold Party.send
  dsimp only
  split
  · exact Or.inl rfl
  · split
    · split
      · exact Or.inr rfl
      · exact Or.inl rfl
    · exact Or.inl rfl

theorem inv_send (inv : Inv env aead link s) (side : Side) (channelName data : Bytes)
    (short : (hashChannelName env channelName ++ data).length + 1 ≤ maxReassemblySize) :
    Inv env aead link (step env aead link s (.send side channelName data)) := by
  have fits : maxPayloadSize ≤ maxReassemblySize := by decide
  simp only [step]
  rcases send_cases env link (s.party side) side channelName data with same | called
  · rw [same]
    exact inv_same inv
  · rw [called]
    refine inv_act inv ?_ ?_ (way_back inv side) (phase_act inv.phase rfl rfl rfl rfl)
    · exact home_of_node (inv.home side) rfl
    · rw [List.append_nil]
      exact way_call (inv.way side) fits _ short

theorem sendCipher_steady (steady : ¬Switching link party side) :
    sendCipher env link side party =
      ((record env link side party).bind Peer.session).bind Session.sendCipher := by
  rcases installing : party.installing with _ | session
  · rcases waiting : pending link side party with _ | hs
    · simp only [sendCipher, installing, waiting, Option.map_none]
    · rcases stage : hs.stage with _ | sent | sent
      · simp only [sendCipher, installing, waiting, Option.map_some, stage]
      · simp only [sendCipher, installing, waiting, Option.map_some, stage]
      · refine absurd (Or.inr ?_) steady
        rw [pending] at waiting
        simp only [waiting, Option.any_some, stage]
  · refine absurd (Or.inl ?_) steady
    rw [installing]
    rfl

section Written

variable {after : Party} {p q : Peer}
  (node : after.node = { party.node with peers := party.node.peers.add q })
  (installing : after.installing = party.installing)
  (found : record env link side party = some p)

include node

theorem record_written (named : q.id = link.peerID env side) :
    record env link side after = some q := by
  rw [record, node]
  exact (PeerStore.get_add _ _ _).trans (if_pos named.symm)

theorem pending_written : pending link side after = pending link side party := by
  rw [pending, node]
  rfl

theorem home_written (home : Home env link side party) (named : q.id = link.peerID env side)
    (kept : q.transport = .tcp ∧ q.addr = link.addr side ∧ q.conn = some (link.conn side)) :
    Home env link side after := by
  refine ⟨?_, ?_, ?_, q, record_written node named, kept⟩
  · rw [node]
    exact home.key
  · rw [node]
    exact home.prologue
  · rw [node]
    exact home.mapped

include installing found

theorem sendCipher_written (named : q.id = link.peerID env side)
    (same : q.session.bind Session.sendCipher = p.session.bind Session.sendCipher) :
    sendCipher env link side after = sendCipher env link side party := by
  have stored : ((record env link side after).bind Peer.session).bind Session.sendCipher =
      ((record env link side party).bind Peer.session).bind Session.sendCipher := by
    rw [record_written node named, found]
    exact same
  unfold sendCipher
  rw [installing, pending_written node, stored]

theorem recvCipher_written (named : q.id = link.peerID env side)
    (same : q.session.bind Session.recvCipher = p.session.bind Session.recvCipher) :
    recvCipher env link side after = recvCipher env link side party := by
  have stored : ((record env link side after).bind Peer.session).bind Session.recvCipher =
      ((record env link side party).bind Peer.session).bind Session.recvCipher := by
    rw [record_written node named, found]
    exact same
  unfold recvCipher
  rw [installing, stored]

end Written

theorem fragment_cases (aead : Aead) (party : Party) (side : Side) {last : CipherState}
    (steady : ¬Switching link party side) (writes : sendCipher env link side party = some last) :
    party.fragment env aead link side = (party, []) ∨
      ∃ after payload frame left p session,
        party.fragment env aead link side = (after, [.wrapped (wrap aead last frame)]) ∧
        party.sending = some ⟨payload, frame :: left⟩ ∧
        record env link side party = some p ∧ p.session = some session ∧
        after.node = { party.node with
          peers := party.node.peers.add { p with
            session := some { session with sendCipher := some (advance last) } } } ∧
        after.installing = party.installing ∧ after.handled = party.handled ∧
        ⟨some (advance last), after.sending, after.returned⟩ =
          (writer env link side party).wrote (advance last) payload left := by
  rw [sendCipher_steady steady] at writes
  obtain ⟨session, live, keyed⟩ := Option.bind_eq_some_iff.mp writes
  obtain ⟨p, found, live⟩ := Option.bind_eq_some_iff.mp live
  rcases sending : party.sending with _ | ⟨payload, _ | ⟨frame, left⟩⟩
  · exact Or.inl (by simp only [Party.fragment, sending])
  · exact Or.inl (by simp only [Party.fragment, sending])
  · let after : Party := { party with
      node := { party.node with
        peers := party.node.peers.add { p with
          session := some { session with sendCipher := some (advance last) } } }
      sending := if left = [] then none else some ⟨payload, left⟩
      returned := if left = [] then party.returned ++ [payload] else party.returned }
    refine Or.inr ⟨after, payload, frame, left, p, session, ?_, rfl, found, live, rfl, rfl, rfl, ?_⟩
    · rw [record] at found
      simp only [Party.fragment, sending, found, live, Option.bind_some, Session.encrypt, keyed,
        Option.map_some]
      rfl
    · by_cases done : left = []
      · simp only [after, Writer.wrote, if_pos done]
        rfl
      · simp only [after, Writer.wrote, if_neg done]
        rfl

theorem inv_fragment (inv : Inv env aead link s) (side : Side)
    (steady : ¬Switching link (s.party side) side) :
    Inv env aead link (step env aead link s (.fragment side)) := by
  obtain ⟨_, _, last, _, writes, _⟩ := inv.way side
  simp only [step]
  rcases fragment_cases aead (s.party side) side steady writes with
    same | ⟨after, payload, frame, left, p, session, written, running, found, live, node, installing,
      handled, wrote⟩
  · rw [same]
    exact inv_same inv
  · have named : p.id = link.peerID env side := (s.party side).node.peers.get_id _ p found
    obtain ⟨old, oldFound, kept⟩ := (inv.home side).stored
    obtain rfl : p = old := Option.some.inj (found.symm.trans oldFound)
    have stored := record_written node named
    have stillSteady : ¬Switching link after side := by
      rw [Switching, installing, node]
      exact steady
    rw [written]
    refine inv_act inv (home_written node (inv.home side) named kept) ?_ ?_
      (phase_act inv.phase rfl rfl installing (pending_written node))
    · have cipher : sendCipher env link side after = some (advance last) := by
        rw [sendCipher_steady stillSteady, stored]
        rfl
      rw [writer, cipher, wrote]
      exact way_fragment (inv.way side) writes running
    · have cipher := recvCipher_written node installing found named
        (congrArg (Option.bind · Session.recvCipher) live).symm
      have reads : reader env link side after = reader env link side (s.party side) := by
        rw [reader, reader, cipher, handled, stored, found]
        rfl
      rw [reads]
      exact way_back inv side

end Sending

section Receiving

variable {env : Env} {aead : IdealAead} {link : Link} {s : State}

theorem inv_data (inv : Inv env aead.toAead link s) (side : Side) {bytes : Bytes} {left : Line}
    (flight : s.flight side = .wrapped bytes :: left) (unset : (s.party side).installing = none)
    (ephemeral : Key) (now : Int) :
    Inv env aead.toAead link (step env aead.toAead link s (.deliver side ephemeral now)) := by
  have back := way_back inv side
  rw [flight] at back
  obtain ⟨cipher, frame, reads, rfl, rest⟩ := way_read back
  have current : ((record env link side (s.party side)).bind Peer.session).bind Session.recvCipher =
      some cipher := by
    rw [← reads, reader, recvCipher, unset]
  obtain ⟨session, live, keyed⟩ := Option.bind_eq_some_iff.mp current
  obtain ⟨p, found, live⟩ := Option.bind_eq_some_iff.mp live
  obtain ⟨decrypted, channels, processed⟩ := processData_encrypted aead (s.party side).node
    (link.addr side).text (link.peerID env side) p session cipher (inv.home side).mapped found live
    keyed frame
  have handed : (s.party side).node.handedFrame aead.toAead (link.addr side).text
      (wrap aead.toAead cipher frame) =
        (Fragment.step maxReassemblySize p.reassemblyBuffer frame).2 := by
    rw [record] at found
    simp only [Node.handedFrame_eq, (inv.home side).mapped, Option.bind_some, found, wrap, decrypted]
    exact congrArg Prod.snd (Peer.receiveFrame_eq_step _ frame)
  have named : p.id = link.peerID env side := (s.party side).node.peers.get_id _ p found
  obtain ⟨old, oldFound, kept⟩ := (inv.home side).stored
  obtain rfl : p = old := Option.some.inj (found.symm.trans oldFound)
  let after : Party := { s.party side with
    node := ((s.party side).node.processData aead.toAead (link.addr side).text
      (wrap aead.toAead cipher frame)).1
    handled := (s.party side).handled ++
      (Fragment.step maxReassemblySize p.reassemblyBuffer frame).2.toList }
  have node : after.node = _ := congrArg Prod.fst processed
  have read : step env aead.toAead link s (.deliver side ephemeral now) = s.act side after left [] := by
    simp only [step, flight, unset, Party.receive, handed, after]
  rw [read]
  refine inv_act inv (home_written node (inv.home side) named kept) ?_ ?_
    (phase_act inv.phase ?_ rfl rfl (pending_written node))
  · have cipher := sendCipher_written node rfl found named
      (congrArg (Option.bind · Session.sendCipher) live).symm
    rw [writer, cipher, List.append_nil]
    exact inv.way side
  · have stored := record_written node named
    have advanced : recvCipher env link side after = some (advance cipher) := by
      rw [recvCipher, show after.installing = none from unset, stored]
      rfl
    have reads : reader env link side after =
        (reader env link side (s.party side)).read maxReassemblySize (advance cipher) frame := by
      rw [reader, advanced, stored, Reader.read, reader, found]
      rfl
    rw [reads]
    exact rest
  · rw [flight]
    rfl

def Party.took (link : Link) (side : Side) (party : Party) (hs : HandshakeState)
    (session : Option Session) : Party :=
  { party with
    node := { party.node with
      pendingHandshakes := party.node.pendingHandshakes.set (link.stateKey side) hs }
    installing := session }

theorem pending_took (side : Side) (party : Party) (hs : HandshakeState)
    (session : Option Session) : pending link side (party.took link side hs session) = some hs := by
  simp only [pending, Party.took, GoMap.get_set, if_true]

theorem deliver_note {side : Side} {message : Message} {left : Line} {ephemeral : Key} {now : Int}
    {hs after : HandshakeState} {response : Option Message} {session : Option Session}
    (flight : s.flight side = .note message :: left) (unset : (s.party side).installing = none)
    (taken : (s.party side).node.pendingHandshake (link.stateKey side) ephemeral now = hs)
    (result : hs.processMessage message = some (after, response, session)) :
    step env aead.toAead link s (.deliver side ephemeral now) =
      s.act side ((s.party side).took link side after session) left
        (response.toList.map .note) := by
  have read : (s.party side).node.readHandshake (link.addr side) .tcp message ephemeral now =
      (((s.party side).took link side after session).node, response, session) := by
    rw [Link.stateKey] at taken
    simp only [Node.readHandshake, taken, result]
    rfl
  simp only [step, flight, unset, Party.receive, read]
  rfl

theorem inv_took (inv : Inv env aead.toAead link s) {side : Side} {message : Message} {left sent : Line}
    {after : HandshakeState} {session : Option Session}
    (flight : s.flight side = .note message :: left) (unset : (s.party side).installing = none)
    (out : LinkWay aead.toAead link (s.flight side.other ++ sent)
      (writer env link side ((s.party side).took link side after session))
      (reader env link side.other (s.party side.other)))
    (turned : session.map Session.recvCipher = (turn link message).map some)
    (phase : Phase link (s.act side ((s.party side).took link side after session) left sent)) :
    Inv env aead.toAead link (s.act side ((s.party side).took link side after session) left sent) := by
  have home := inv.home side
  refine inv_act inv ⟨home.key, home.prologue, home.mapped, home.stored⟩ out ?_ phase
  have back := way_back inv side
  rw [flight] at back
  obtain ⟨cipher, _, _, reads, _⟩ := back
  have read := way_readNote (by rw [← flight]; exact way_back inv side) reads
  have next : recvCipher env link side ((s.party side).took link side after session) =
      some ((turn link message).getD cipher) := by
    cases session with
    | none =>
        have stays : turn link message = none := Option.map_eq_none_iff.mp turned.symm
        rw [stays, Option.getD_none, ← reads]
        simp only [recvCipher, Party.took, reader, unset]
        rfl
    | some session =>
        obtain ⟨new, turning, keyed⟩ := Option.map_eq_some_iff.mp turned.symm
        rw [turning, recvCipher]
        exact keyed.symm
  rw [reader, next]
  exact read

theorem notes_head {side : Side} {message : Message} {left : Line}
    (flight : s.flight side = .note message :: left) {expected : List Message}
    (known : notes (s.flight side) = expected) : expected = message :: notes left := by
  rw [← known, flight]
  rfl

section

variable (inv : Inv env aead.toAead link s) {message : Message} {left : Line}

include inv

theorem inv_one {first drawn : Key} {now : Int} (started : s.started = true)
    (flight : s.flight link.responder = .note (.one first) :: left)
    (rest : notes left = []) (toInitiator : notes (s.flight link.initiator) = [])
    (unset : ∀ side, (s.party side).installing = none)
    (initiating : ∃ hs, pending link link.initiator (s.party link.initiator) = some hs ∧
      Initiating hs (.one first) link.prologue (link.key link.initiator))
    (free : pending link link.responder (s.party link.responder) = none) :
    Inv env aead.toAead link (step env aead.toAead link s (.deliver link.responder drawn now)) := by
  let n := (s.party link.responder).node
  let hs := newResponderHandshake n.identity.noisePublicKey n.config.networkPassword drawn now
  let after : HandshakeState := { hs with stage := .awaitThree (link.second first drawn) }
  have home := inv.home link.responder
  have taken : n.pendingHandshake (link.stateKey link.responder) drawn now = hs := by
    rw [Node.pendingHandshake, show n.pendingHandshakes.get (link.stateKey link.responder) = none from
      free]
    rfl
  have result : hs.processMessage (.one first) = some (after, some (link.second first drawn), none) := by
    simp only [after, Link.second, ← home.prologue, ← home.key]
    rfl
  rw [deliver_note flight (unset _) taken result]
  have waiting : pending link link.responder
      ((s.party link.responder).took link link.responder after none) = some after :=
    pending_took _ _ after none
  apply inv_took inv flight (unset _)
  · obtain ⟨_, _, last, _, writes, _⟩ := inv.way link.responder
    have cipher : sendCipher env link link.responder
        ((s.party link.responder).took link link.responder after none) =
          turn link (link.second first drawn) := by
      rw [sendCipher, waiting]
      rfl
    rw [writer, cipher]
    exact way_note (inv.way link.responder) writes (link.second first drawn)
  · rfl
  · refine .two first drawn started ?_ ?_ ?_ ?_ ?_
    · rw [act_flight, rest]
    · rw [act_flight_initiator, notes_append, toInitiator]
      rfl
    · intro side
      rcases link.responder.eq_or_eq_other side with rfl | rfl
      · rw [act_party]
        rfl
      · rw [act_party_other, unset]
    · rw [act_party_initiator]
      exact initiating
    · rw [act_party]
      exact ⟨after, waiting, rfl, rfl, rfl⟩

theorem inv_two {first drawn ephemeral : Key} {now : Int} (started : s.started = true)
    (flight : s.flight link.initiator = .note (link.second first drawn) :: left)
    (rest : notes left = []) (toResponder : notes (s.flight link.responder) = [])
    (unset : ∀ side, (s.party side).installing = none)
    (initiating : ∃ hs, pending link link.initiator (s.party link.initiator) = some hs ∧
      Initiating hs (.one first) link.prologue (link.key link.initiator))
    (responding : ∃ hs, pending link link.responder (s.party link.responder) = some hs ∧
      Responding hs (link.second first drawn)) :
    Inv env aead.toAead link (step env aead.toAead link s (.deliver link.initiator ephemeral now)) := by
  obtain ⟨hs, waiting, initiator⟩ := initiating
  have taken := pendingHandshake_of_get (s.party link.initiator).node (link.addr link.initiator) .tcp
    ephemeral now hs waiting
  have result : hs.processMessage (link.second first drawn) = some ({ hs with completed := true },
      some (link.third first drawn),
      some (sessionOf true (link.third first drawn) (link.key link.responder))) :=
    initiating_finishes initiator drawn (link.key link.responder)
  rw [deliver_note flight (unset _) taken result]
  apply inv_took inv flight (unset _)
  · obtain ⟨_, _, last, _, writes, _⟩ := inv.way link.initiator
    exact way_note (inv.way link.initiator) writes (link.third first drawn)
  · rfl
  · refine .three first drawn started ?_ ?_ ?_ ?_ ?_
    · rw [act_flight_responder, notes_append, toResponder]
      rfl
    · rw [act_flight, rest]
    · rw [act_party]
      exact Or.inl rfl
    · rw [act_party_responder, unset]
    · rw [act_party_responder]
      exact responding

theorem inv_three {first drawn ephemeral : Key} {now : Int} (started : s.started = true)
    (flight : s.flight link.responder = .note (link.third first drawn) :: left)
    (rest : notes left = []) (toInitiator : notes (s.flight link.initiator) = [])
    (settling : Settling link link.initiator (s.party link.initiator)
      (sessionOf true (link.third first drawn) (link.key link.responder)))
    (unset : (s.party link.responder).installing = none)
    (responding : ∃ hs, pending link link.responder (s.party link.responder) = some hs ∧
      Responding hs (link.second first drawn)) :
    Inv env aead.toAead link (step env aead.toAead link s (.deliver link.responder ephemeral now)) := by
  obtain ⟨hs, waiting, responder⟩ := responding
  have taken := pendingHandshake_of_get (s.party link.responder).node (link.addr link.responder) .tcp
    ephemeral now hs waiting
  have result : hs.processMessage (link.third first drawn) = some ({ hs with completed := true }, none,
      some (sessionOf false (link.third first drawn) (link.key link.initiator))) :=
    responding_finishes responder (link.key link.initiator)
  rw [deliver_note flight unset taken result]
  apply inv_took inv flight unset
  · have cipher : sendCipher env link link.responder (s.party link.responder) =
        some ⟨⟨link.third first drawn, false⟩, 0⟩ := by
      simp only [sendCipher, unset, waiting, Option.map_some, responder.1]
      rfl
    have way := inv.way link.responder
    rw [writer, cipher] at way
    rw [Option.toList_none, List.map_nil, List.append_nil]
    exact way
  · rfl
  · refine .four first drawn started ?_ ?_ ?_ ?_
    · rw [act_flight, rest]
    · rw [act_flight_initiator, notes_append, toInitiator]
      rfl
    · rw [act_party_initiator]
      exact settling
    · rw [act_party]
      exact Or.inl rfl

end

end Receiving

section Installing

variable {env : Env} {aead : Aead} {link : Link} {s : State} {side : Side} {party : Party}
  {session : Session} (home : Home env link side party)
  (installing : party.installing = some session)
  (remote : session.remotePublicKey = link.key side.other) (now : Int)

include home remote

theorem install_record :
    ∃ p q, record env link side party = some p ∧
      record env link side (party.install env link side session now) = some q ∧
      (q.transport = .tcp ∧ q.addr = link.addr side ∧ q.conn = some (link.conn side)) ∧
      q.session = some session ∧ q.reassemblyBuffer = p.reassemblyBuffer := by
  obtain ⟨p, found, tcp, _⟩ := home.stored
  have known : party.node.peers.get (peerIDOf env session.remotePublicKey) = some p := by
    rw [remote]
    exact found
  have moves : ¬(p.transport = .tcp ∧ Transport.tcp ≠ .tcp) := fun both => both.2 rfl
  obtain ⟨linkMode, relayTarget, peers, _⟩ := sessionEstablished_refresh env party.node
    (some (link.conn side)) (link.addr side) .tcp session now p known fun both => both.2 tcp
  simp only [Peer.upgradeTransport, if_neg moves] at peers
  have stored := (congrArg (PeerStore.get · (link.peerID env side)) peers).trans
    ((PeerStore.get_add _ _ _).trans (if_pos (party.node.peers.get_id _ p found).symm))
  exact ⟨p, _, found, stored, ⟨rfl, rfl, rfl⟩, rfl, rfl⟩

theorem install_home : Home env link side (party.install env link side session now) := by
  obtain ⟨p, q, found, stored, kept, _⟩ := install_record home remote now
  obtain ⟨tables, relaying⟩ := sessionEstablished_tables env party.node (some (link.conn side))
    (link.addr side) .tcp session now
  have mapped : (party.node.sessionEstablished env (some (link.conn side)) (link.addr side) .tcp
      session now).1.addrToPeer = party.node.addrToPeer := by
    obtain ⟨old, oldFound, tcp, _⟩ := home.stored
    have known : party.node.peers.get (peerIDOf env session.remotePublicKey) = some old := by
      rw [remote]
      exact oldFound
    have outcome : party.node.sessionOutcome env .tcp session =
        .refreshed (peerIDOf env session.remotePublicKey) := by
      simp only [Node.sessionOutcome, known]
      exact if_neg fun both => both.2 tcp
    rw [outcome] at tables
    obtain ⟨_, _, _, _, _, _, same⟩ := tables
    exact same
  refine ⟨?_, ?_, ?_, q, stored, kept⟩
  · rw [Party.install, sessionEstablished_identity, home.key]
  · rw [Party.install, relaying.config, home.prologue]
  · rw [Party.install, mapped, home.mapped]

omit home remote in
theorem install_pending : pending link side (party.install env link side session now) = none := by
  rw [pending, Party.install, sessionEstablished_pendingHandshakes]
  exact (GoMap.get_delete _ _ _).trans (if_pos rfl)

include installing

/-- The installation is what the ciphers of a switching side look forward to. -/
theorem install_writer : writer env link side (party.install env link side session now) =
    writer env link side party := by
  obtain ⟨p, q, found, stored, _, live, _⟩ := install_record home remote now
  have unset : (party.install env link side session now).installing = none := rfl
  have before : sendCipher env link side party = session.sendCipher := by
    rw [sendCipher, installing]
  have after : sendCipher env link side (party.install env link side session now) =
      session.sendCipher := by
    rw [sendCipher, unset, install_pending, stored, Option.bind_some, live]
    rfl
  rw [writer, writer, before, after]
  rfl

theorem install_reader : reader env link side (party.install env link side session now) =
    reader env link side party := by
  obtain ⟨p, q, found, stored, _, live, buffer⟩ := install_record home remote now
  have unset : (party.install env link side session now).installing = none := rfl
  have before : recvCipher env link side party = session.recvCipher := by
    rw [recvCipher, installing]
  have after : recvCipher env link side (party.install env link side session now) =
      session.recvCipher := by
    rw [recvCipher, unset, stored, Option.bind_some, live]
    rfl
  rw [reader, reader, before, after, stored, found, Option.bind_some, Option.bind_some, buffer]
  rfl

end Installing

section Steps

variable {env : Env} {aead : Aead} {link : Link} {s : State}

theorem settling_installs {side : Side} {party : Party} {expected session : Session}
    (settling : Settling link side party expected) (installing : party.installing = some session) :
    session = expected := by
  rcases settling with coming | ⟨unset, _⟩
  · exact Option.some.inj (installing.symm.trans coming)
  · rw [unset] at installing
    cases installing

theorem inv_install (inv : Inv env aead link s) (side : Side) (now : Int) :
    Inv env aead link (step env aead link s (.install side now)) := by
  rcases installing : (s.party side).installing with _ | session
  · simp only [step, installing]
    exact inv
  rcases sending : (s.party side).sending with _ | call
  swap
  · simp only [step, installing, sending]
    exact inv
  simp only [step, installing, sending]
  have installed (remote : session.remotePublicKey = link.key side.other)
      (phase : Phase link (s.act side ((s.party side).install env link side session now)
        (s.flight side) [])) :
      Inv env aead link (s.act side ((s.party side).install env link side session now)
        (s.flight side) []) := by
    refine inv_act inv (install_home (inv.home side) remote now) ?_ ?_ phase
    · rw [install_writer (inv.home side) installing remote, List.append_nil]
      exact inv.way side
    · rw [install_reader (inv.home side) installing remote]
      exact way_back inv side
  have settled (session' : Session) : Settling link side
      ((s.party side).install env link side session now) session' :=
    Or.inr ⟨rfl, install_pending now⟩
  cases inv.phase with
  | idle unstarted toResponder toInitiator unset free =>
      rw [unset] at installing
      cases installing
  | one ephemeral started toResponder toInitiator unset initiating free =>
      rw [unset] at installing
      cases installing
  | two ephemeral drawn started toResponder toInitiator unset initiating responding =>
      rw [unset] at installing
      cases installing
  | three ephemeral drawn started toResponder toInitiator settling unset responding =>
      rcases link.initiator.eq_or_eq_other side with rfl | rfl
      · have new := settling_installs settling installing
        refine installed (by rw [new]; rfl) (.three ephemeral drawn started ?_ ?_ ?_ ?_ ?_)
        · rw [act_flight_responder, List.append_nil, toResponder]
        · rw [act_flight, toInitiator]
        · rw [act_party]
          exact settled _
        · rw [act_party_responder, unset]
        · rw [act_party_responder]
          exact responding
      · rw [show link.initiator.other = link.responder from rfl, unset] at installing
        cases installing
  | four ephemeral drawn started toResponder toInitiator initiator responder =>
      rcases link.initiator.eq_or_eq_other side with rfl | rfl
      · have new := settling_installs initiator installing
        refine installed (by rw [new]; rfl) (.four ephemeral drawn started ?_ ?_ ?_ ?_)
        · rw [act_flight_responder, List.append_nil, toResponder]
        · rw [act_flight, toInitiator]
        · rw [act_party]
          exact settled _
        · rw [act_party_responder]
          exact responder
      · have new := settling_installs responder installing
        refine installed (by rw [new, Side.other_other]; rfl)
          (.four ephemeral drawn started ?_ ?_ ?_ ?_)
        · exact (congrArg notes act_flight).trans toResponder
        · rw [show link.initiator.other = link.responder from rfl, act_flight_initiator,
            List.append_nil, toInitiator]
        · rw [show link.initiator.other = link.responder from rfl, act_party_initiator]
          exact initiator
        · rw [show link.initiator.other = link.responder from rfl, act_party]
          exact settled _

theorem rehandshake_written (aead : Aead) (home : Home env link link.initiator (s.party link.initiator))
    (unstarted : s.started = false) (unset : (s.party link.initiator).installing = none)
    (free : pending link link.initiator (s.party link.initiator) = none) (ephemeral : Key)
    (now : Int) :
    ∃ hs, Initiating hs (.one ephemeral) link.prologue (link.key link.initiator) ∧
      step env aead link s (.rehandshake ephemeral now) =
        { s.act link.initiator ((s.party link.initiator).took link link.initiator hs none)
            (s.flight link.initiator) [.note (.one ephemeral)] with
          started := true } := by
  obtain ⟨p, found, tcp, addr, conn⟩ := home.stored
  rw [record] at found
  let n := (s.party link.initiator).node
  let hs := (newInitiatorHandshake n.identity.noisePublicKey n.config.networkPassword ephemeral now).1
  let after := (s.party link.initiator).took link link.initiator hs none
  have empty : n.pendingHandshakes.get (.tcp, (link.addr link.initiator).text) = none := free
  have sent : n.sendFastRehandshake p ephemeral now true = (after.node,
      [.sendRaw (some (link.conn link.initiator)) (link.addr link.initiator) .tcp
        (.handshake (.one ephemeral))], .written) := by
    simp only [Node.sendFastRehandshake, tcp, addr, conn, empty]
    rfl
  have same : { s.party link.initiator with node := after.node } = after := by
    simp only [after, Party.took, unset]
  refine ⟨hs, ⟨rfl, home.prologue, home.key, rfl, rfl⟩, ?_⟩
  simp only [step, found, unstarted]
  rw [show (s.party link.initiator).node.sendFastRehandshake p ephemeral now true = _ from sent]
  dsimp only
  rw [same]
  rfl

theorem inv_rehandshake (inv : Inv env aead link s) (ephemeral : Key) (now : Int) :
    Inv env aead link (step env aead link s (.rehandshake ephemeral now)) := by
  have home := inv.home link.initiator
  obtain ⟨p, found, _⟩ := home.stored
  rw [record] at found
  cases inv.phase with
  | idle unstarted toResponder toInitiator unset free =>
      obtain ⟨hs, initiating, written⟩ := rehandshake_written aead home unstarted (unset _) (free _)
        ephemeral now
      let after := (s.party link.initiator).took link link.initiator hs none
      let t := s.act link.initiator after (s.flight link.initiator) [.note (.one ephemeral)]
      have waiting : pending link link.initiator after = some hs := pending_took _ _ hs none
      have homes : ∀ side, Home env link side (t.party side) :=
        homes_act inv.home ⟨home.key, home.prologue, home.mapped, home.stored⟩
      have ways : ∀ side, LinkWay aead link (t.flight side.other)
          (writer env link side (t.party side))
          (reader env link side.other (t.party side.other)) := by
        apply ways_act
        · obtain ⟨_, _, last, _, writes, _⟩ := inv.way link.initiator
          have cipher : sendCipher env link link.initiator after = some last := by
            rw [← writes]
            simp only [sendCipher, writer, waiting, unset, free, Option.map_some, Option.map_none,
              initiating.stage]
            rfl
          rw [writer, cipher]
          exact way_note (inv.way link.initiator) writes (.one ephemeral)
        · have reads : reader env link link.initiator after =
              reader env link link.initiator (s.party link.initiator) := by
            simp only [reader, recvCipher, unset]
            rfl
          rw [reads]
          exact way_back inv link.initiator
      rw [written]
      refine ⟨homes, ways, .one ephemeral rfl ?_ ?_ ?_ ?_ ?_⟩
      · rw [show t.flight link.responder = _ from act_flight_responder, notes_append, toResponder]
        rfl
      · rw [show t.flight link.initiator = _ from act_flight, toInitiator]
      · intro side
        rcases link.initiator.eq_or_eq_other side with rfl | rfl
        · rw [show t.party link.initiator = after from act_party]
          rfl
        · rw [show t.party link.initiator.other = _ from act_party_other, unset]
      · rw [show t.party link.initiator = after from act_party]
        exact ⟨hs, waiting, initiating⟩
      · rw [show t.party link.responder = _ from act_party_responder, free]
  | one ephemeral started toResponder toInitiator unset initiating free =>
      simpa only [step, found, started, if_true] using inv
  | two ephemeral drawn started toResponder toInitiator unset initiating responding =>
      simpa only [step, found, started, if_true] using inv
  | three ephemeral drawn started toResponder toInitiator settling unset responding =>
      simpa only [step, found, started, if_true] using inv
  | four ephemeral drawn started toResponder toInitiator initiator responder =>
      simpa only [step, found, started, if_true] using inv

end Steps

section Delivering

variable {env : Env} {aead : IdealAead} {link : Link} {s : State}

theorem inv_message (inv : Inv env aead.toAead link s) {side : Side} {message : Message} {left : Line}
    (flight : s.flight side = .note message :: left) (ephemeral : Key) (now : Int) :
    Inv env aead.toAead link (step env aead.toAead link s (.deliver side ephemeral now)) := by
  rcases link.initiator.eq_or_eq_other side with rfl | rfl
  · cases inv.phase with
    | idle unstarted toResponder toInitiator unset free =>
        cases notes_head flight toInitiator
    | one first started toResponder toInitiator unset initiating free =>
        cases notes_head flight toInitiator
    | two first drawn started toResponder toInitiator unset initiating responding =>
        obtain ⟨same, rest⟩ := List.cons.inj (notes_head flight toInitiator)
        subst same
        exact inv_two inv started flight rest.symm toResponder unset initiating responding
    | three first drawn started toResponder toInitiator settling unset responding =>
        cases notes_head flight toInitiator
    | four first drawn started toResponder toInitiator initiator responder =>
        cases notes_head flight toInitiator
  · cases inv.phase with
    | idle unstarted toResponder toInitiator unset free =>
        cases notes_head flight toResponder
    | one first started toResponder toInitiator unset initiating free =>
        obtain ⟨same, rest⟩ := List.cons.inj (notes_head flight toResponder)
        subst same
        exact inv_one inv started flight rest.symm toInitiator unset initiating free
    | two first drawn started toResponder toInitiator unset initiating responding =>
        cases notes_head flight toResponder
    | three first drawn started toResponder toInitiator settling unset responding =>
        obtain ⟨same, rest⟩ := List.cons.inj (notes_head flight toResponder)
        subst same
        exact inv_three inv started flight rest.symm toInitiator settling unset responding
    | four first drawn started toResponder toInitiator initiator responder =>
        cases notes_head flight toResponder

theorem inv_step (inv : Inv env aead.toAead link s) (event : Event)
    (undivided : Undivided env link s event) :
    Inv env aead.toAead link (step env aead.toAead link s event) := by
  cases event with
  | send side channelName data => exact inv_send inv side channelName data undivided
  | fragment side => exact inv_fragment inv side undivided
  | rehandshake ephemeral now => exact inv_rehandshake inv ephemeral now
  | install side now => exact inv_install inv side now
  | deliver side ephemeral now =>
      rcases flight : s.flight side with _ | ⟨parcel, left⟩
      · simpa only [step, flight] using inv
      rcases installing : (s.party side).installing with _ | session
      · cases parcel with
        | note message => exact inv_message inv flight ephemeral now
        | wrapped bytes => exact inv_data inv side flight installing ephemeral now
      · simpa only [step, flight, installing] using inv

theorem inv_begin (aead : Aead) {node : Side → Node} (connected : Connected env link node) :
    Inv env aead link (begin node) := by
  refine ⟨fun side => ?_, fun side => ?_, ?_⟩
  · exact ⟨connected.key side, connected.prologue side, connected.mapped side, connected.record side⟩
  · obtain ⟨p, q, cipher, sender, receiver, sends, receives⟩ := connected.session side
    have reads : recvCipher env link side.other ((begin node).party side.other) = some cipher := by
      simp only [recvCipher, record, begin, receiver, Option.bind_some, receives]
    have writes : sendCipher env link side ((begin node).party side) = some cipher := by
      simp only [sendCipher, pending, record, begin, connected.idle, Option.map_none, sender,
        Option.bind_some, sends]
    exact way_begin reads writes rfl rfl
  · exact .idle rfl rfl rfl (fun _ => rfl) connected.idle

/-- Where no side writes a fragment while it is switching, whatever is sent around a re-handshake
is handled once, in order. -/
theorem deliveredOnce_throughout (node : Side → Node) (connected : Connected env link node)
    (events : List Event)
    (undivided : Along (step env aead.toAead link) (Undivided env link) (begin node) events) :
    Throughout (step env aead.toAead link) DeliveredOnce (begin node) events := by
  have always := throughout_keeps (begin node) events (inv_begin aead.toAead connected) undivided
    fun _ event inv allowed => inv_step inv event allowed
  apply throughout_mono (begin node) events always
  intro s inv side
  refine ⟨way_in_order (inv.way side), fun empty => ?_⟩
  have way := inv.way side
  rw [empty] at way
  exact way_empty way

end Delivering

namespace Example

def link : Link where
  initiator := .a
  addr _ := ⟨.tcp, [0x61]⟩
  conn _ := 1
  key
    | .a => [1]
    | .b => [2]
  prologue := prologuePrefix ++ [1]

def node : Side → Node
  | .a => connectedNode [1] [2] true 5
  | .b => connectedNode [2] [1] false 5

theorem connected : Connected .padded link node where
  key side := by cases side <;> rfl
  prologue side := by cases side <;> rfl
  mapped side := by cases side <;> rfl
  idle side := by cases side <;> rfl
  record side := by cases side <;> exact ⟨_, rfl, rfl, rfl, rfl⟩
  session side := by cases side <;> exact ⟨_, _, _, rfl, rfl, rfl, rfl⟩

abbrev exchange : State → Event → State := step .padded IdealAead.tagged.toAead link

def around : List Event :=
  [.send .b [0x63] [1], .fragment .b, .rehandshake [21] 0, .send .a [0x63] [2], .fragment .a,
    .deliver .b [22] 1, .deliver .a [23] 2, .deliver .a [23] 2, .install .a 3, .deliver .b [22] 3,
    .send .a [0x63] [3], .fragment .a, .deliver .b [22] 4, .install .b 5, .deliver .b [22] 5,
    .send .b [0x63] [4], .fragment .b, .deliver .a [23] 6]

theorem deliveredOnce_throughout_around :
    Throughout exchange DeliveredOnce (begin node) around ∧
      ∀ side, ((run exchange (begin node) around).party side).returned.length = 2 ∧
        (run exchange (begin node) around).flight side = [] :=
  ⟨deliveredOnce_throughout node connected around (by decide +kernel), fun side => by
    cases side <;> decide +kernel⟩

def behindSecond : List Event :=
  [.rehandshake [21] 0, .deliver .b [22] 1, .send .b [0x63] [1], .fragment .b, .deliver .a [23] 2,
    .install .a 3, .deliver .a [23] 3, .deliver .b [22] 4, .install .b 4]

def behindThird : List Event :=
  [.rehandshake [21] 0, .deliver .b [22] 1, .send .a [0x63] [1], .deliver .a [23] 2, .fragment .a,
    .install .a 3, .deliver .b [22] 3, .install .b 4, .deliver .b [22] 4]

/-- In both runs everything has arrived, but the one call, which has returned without an error, has not
been handled. -/
theorem sent_while_switching_lost :
    (¬Throughout exchange DeliveredOnce (begin node) behindSecond ∧
      let last := run exchange (begin node) behindSecond
      (∀ side, last.flight side = []) ∧ (last.party .b).returned.length = 1 ∧
        (last.party .a).handled = []) ∧
    ¬Throughout exchange DeliveredOnce (begin node) behindThird ∧
      let last := run exchange (begin node) behindThird
      (∀ side, last.flight side = []) ∧ (last.party .a).returned.length = 1 ∧
        (last.party .b).handled = [] := by
  have flights (events : List Event) (a : (run exchange (begin node) events).flight .a = [])
      (b : (run exchange (begin node) events).flight .b = []) :
      ∀ side, (run exchange (begin node) events).flight side = [] := by
    intro side
    cases side with
    | a => exact a
    | b => exact b
  refine ⟨⟨fun delivered => ?_, flights _ (by decide +kernel) (by decide +kernel),
    by decide +kernel, by decide +kernel⟩, fun delivered => ?_,
    flights _ (by decide +kernel) (by decide +kernel), by decide +kernel, by decide +kernel⟩
  · have same := (throughout_run _ _ delivered .b).2 (by decide +kernel)
    exact absurd same (by decide +kernel)
  · have same := (throughout_run _ _ delivered .a).2 (by decide +kernel)
    exact absurd same (by decide +kernel)

end Example

end Tenet.SessionSwitch
