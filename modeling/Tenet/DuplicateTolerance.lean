import Tenet.UdpSteps

/-! When a handshake over UDP survives repeated datagrams. -/

namespace Tenet.Connecting

open Lib

variable {env : Env} {call : ConnectCall} {keys : Keys}

theorem inv_begin {a b : Node} (strangerA : a.Stranger env call.addrB keys.b)
    (strangerB : b.Stranger env call.addrA keys.a)
    (idle : b.pendingHandshakes.get (.udp, call.addrA) = none)
    (staticKey : b.identity.noisePublicKey = keys.b)
    (prologue : prologuePrefix ++ b.config.networkPassword = keys.prologue) :
    Inv env call keys (begin a b) := by
  refine ⟨.waiting rfl strangerA ?_ ?_ ?_, ⟨staticKey, prologue, ?_, ?_⟩,
    Or.inl (.idle strangerB idle rfl rfl)⟩
  · intro registered
    cases registered
  · intro flight member
    cases member
  · intro flight member
    cases member
  · intro hs pending
    change b.pendingHandshakes.get (.udp, call.addrA) = some hs at pending
    rw [idle] at pending
    cases pending
  · intro flight member
    cases member

/-- When everything has arrived, a spoiled handshake leaves something pending at the caller or no
peer at the other node. -/
theorem not_settled_of_doomed {s : Connecting} (inv : Inv env call keys s)
    (quiet : s.network.Quiet) (doomed : Doomed env call keys s) :
    ¬ s.Settled env call keys.a keys.b := by
  rintro ⟨⟨atA, atB, _, _, _, _, atOther, _, _⟩, cleared, _⟩
  have enough : 2 ≤ Network.arrived toA s.network → False := by
    intro twice
    cases inv.caller with
    | waiting none_yet _ _ _ _ => omega
    | joined once _ _ _ => omega
    | stuck _ _ _ hs _ pending _ =>
        rw [cleared] at pending
        cases pending
  have all_arrived : Network.sent toA s.network ≤ Network.arrived toA s.network :=
    Network.sent_le_arrived quiet
  rcases doomed with many | twice | ⟨_, _, unknown⟩
  · exact enough (by omega)
  · exact enough twice
  · rw [unknown] at atOther
    cases atOther

theorem settled_of_done {s : Connecting} {ephemeral : Key} (inv : Inv env call keys s)
    (accepted : Accepted env call keys s ephemeral)
    (idle : s.b.pendingHandshakes.get (.udp, call.addrA) = none)
    (peer : ∃ p, s.b.peers.get (peerIDOf env keys.a) = some p ∧
      p.session = some (sessionOf false (keys.third call ephemeral) keys.a)) :
    s.Settled env call keys.a keys.b := by
  rcases accepted.peer with ⟨atA, stored, session⟩
  rcases peer with ⟨atB, storedB, sessionB⟩
  refine ⟨⟨atA, atB, _, _, stored, session, storedB, sessionB, _, _, _, rfl, rfl⟩, ?_, idle⟩
  have once := accepted.arrivedA
  cases inv.caller with
  | waiting none_yet _ _ _ _ => omega
  | joined _ _ _ pending => exact pending
  | stuck twice _ _ _ _ _ _ => omega

theorem once_of_done {s : Connecting} {ephemeral : Key} (quiet : s.network.Quiet)
    (accepted : Accepted env call keys s ephemeral)
    (arrivedThree : Network.arrived (isThree call) s.network = 1)
    (arrivedOne : Network.arrived (isOne call) s.network = 1) : s.Once call := by
  have sentOne : Network.sent (isOne call) s.network ≤ Network.arrived (isOne call) s.network :=
    Network.sent_le_arrived quiet
  have was_sent : Network.sent (isOne call) s.network ≠ 0 := by
    intro unsent
    rw [Network.arrived_eq_zero unsent] at arrivedOne
    cases arrivedOne
  refine ⟨by omega, ?_⟩
  intro flight member
  have positive := quiet flight member
  have bounded : flight.deliveries ≤ 1 := by
    by_cases toCaller : flight.message.1 = .a
    · exact (Network.deliveries_le_arrived member (decide_eq_true toCaller)).trans_eq accepted.arrivedA
    · have toOther : flight.message.1 = .b := by
        cases side : flight.message.1 with
        | a => exact absurd side toCaller
        | b => rfl
      by_cases first : flight.message.2 = call.udp.2
      · have isFirst : isOne call flight.message = true := decide_eq_true (Prod.ext toOther first)
        exact (Network.deliveries_le_arrived member isFirst).trans_eq arrivedOne
      · have isThird : isThree call flight.message = true := decide_eq_true ⟨toOther, first⟩
        exact (Network.deliveries_le_arrived member isThird).trans_eq arrivedThree
  omega

theorem settled_iff_once_of_inv {s : Connecting} (inv : Inv env call keys s)
    (quiet : s.network.Quiet) : s.Settled env call keys.a keys.b ↔ s.Once call := by
  have sentA : Network.sent toA s.network ≤ Network.arrived toA s.network :=
    Network.sent_le_arrived quiet
  have sentThree : Network.sent (isThree call) s.network ≤ Network.arrived (isThree call) s.network :=
    Network.sent_le_arrived quiet
  have sentOne : Network.sent (isOne call) s.network ≤ Network.arrived (isOne call) s.network :=
    Network.sent_le_arrived quiet
  rcases inv.outcome with phase | ⟨doomed, repeated⟩
  · cases phase with
    | idle stranger pending arrivedOne none_sent =>
        apply iff_of_false
        · rintro ⟨⟨_, _, _, _, _, _, atOther, _⟩, _⟩
          rw [stranger.unknown] at atOther
          cases atOther
        · rintro ⟨one_sent, _⟩
          omega
    | answered ephemeral awaiting unheard _ =>
        have sent := awaiting.sentA
        omega
    | accepted ephemeral awaiting accepted arrivedThree =>
        have sent := accepted.sentThree
        omega
    | done ephemeral accepted arrivedThree arrivedOne sent idle peer =>
        exact iff_of_true (settled_of_done inv accepted idle peer)
          (once_of_done quiet accepted arrivedThree arrivedOne)
  · apply iff_of_false (not_settled_of_doomed inv quiet doomed)
    rintro ⟨one_sent, each⟩
    rcases repeated with ⟨flight, member, twice⟩ | many
    · rw [each flight member] at twice
      omega
    · omega

/-- Two nodes that do not know each other yet, a call of `Connect` that has registered its state
before anything reaches it, and any number of sends, delays and repetitions. When everything has
arrived, both hold the ends of one handshake with nothing pending exactly if message 1 was sent
once and no datagram arrived twice. -/
theorem udp_settled_iff_once (env : Env) (a b : Node) (addrA addrB remoteTCPAddr : Bytes)
    (udpEphemeral tcpEphemeral : Key) (now : Int) (events : List ConnectEvent)
    (samePassword : a.config.networkPassword = b.config.networkPassword)
    (strangerA : a.Stranger env addrB b.identity.noisePublicKey)
    (strangerB : b.Stranger env addrA a.identity.noisePublicKey)
    (idle : b.pendingHandshakes.get (.udp, addrA) = none)
    (registered : Run.Along
      (step env (a.connectCall addrA addrB remoteTCPAddr udpEphemeral tcpEphemeral now))
      RegisteredFirst (begin a b) events)
    (quiet : (Run.run
      (step env (a.connectCall addrA addrB remoteTCPAddr udpEphemeral tcpEphemeral now))
      (begin a b) events).network.Quiet) :
    let call := a.connectCall addrA addrB remoteTCPAddr udpEphemeral tcpEphemeral now
    let reached := Run.run (step env call) (begin a b) events
    reached.Settled env call a.identity.noisePublicKey b.identity.noisePublicKey ↔
      reached.Once call := by
  intro call reached
  have initiator : InitiatorCall call
      ⟨a.identity.noisePublicKey, b.identity.noisePublicKey,
        prologuePrefix ++ a.config.networkPassword⟩ :=
    ⟨⟨rfl, rfl, rfl, rfl, rfl⟩, udpEphemeral, rfl⟩
  have inv : Inv env call ⟨a.identity.noisePublicKey, b.identity.noisePublicKey,
      prologuePrefix ++ a.config.networkPassword⟩ reached := by
    apply Run.run_keeps (begin a b) events _ registered (inv_step initiator)
    exact inv_begin strangerA strangerB idle rfl (by rw [samePassword])
  exact settled_iff_once_of_inv inv quiet

def keyedNode (key : Key) : Node :=
  startedNode .padded { defaultConfig with networkPassword := [1] } (newIdentity .padded key) true

theorem keyedNode_stranger (key : Key) (addr : Bytes) (other : Key) :
    (keyedNode key).Stranger .padded addr other :=
  ⟨rfl, startedNode_peers _ _ _ _ _, rfl⟩

def keyedCall : ConnectCall := (keyedNode [7]).connectCall [0x41] [0x42] [0x43] [5] [6] 0

/-- Every datagram arrives once. -/
theorem undisturbed_settled :
    (Run.run (step .padded keyedCall) (begin (keyedNode [7]) (keyedNode [8]))
      [.register, .send, .deliver 0 [3] 0, .deliver 1 [] 0, .deliver 2 [] 0]).Settled .padded keyedCall
      [7] [8] :=
  (udp_settled_iff_once .padded (keyedNode [7]) (keyedNode [8]) [0x41] [0x42] [0x43] [5] [6] 0
    [.register, .send, .deliver 0 [3] 0, .deliver 1 [] 0, .deliver 2 [] 0] rfl
    (keyedNode_stranger [7] [0x42] [8]) (keyedNode_stranger [8] [0x41] [7]) rfl (by decide +kernel)
    (by unfold Network.Quiet; decide +kernel)).mpr (by decide +kernel)

def resentHandshake : Connecting :=
  Run.run (step .padded keyedCall) (begin (keyedNode [7]) (keyedNode [8]))
    [.register, .send, .send, .deliver 0 [3] 0, .deliver 1 [4] 0, .deliver 2 [] 0, .deliver 3 [4] 0,
      .deliver 4 [2] 0, .deliver 5 [] 0]

/-- The caller holds a peer that does not know it, and waits in a handshake of its own. -/
theorem resent_handshake_unsettled :
    resentHandshake.network.Quiet ∧
      (resentHandshake.a.peers.get (peerIDOf .padded [8])).isSome = true ∧
      (resentHandshake.b.peers.get (peerIDOf .padded [7])).isSome = false ∧
      (resentHandshake.a.pendingHandshakes.get (.udp, [0x42])).isSome = true ∧
      ¬ resentHandshake.Settled .padded keyedCall [7] [8] := by
  have unknown : (resentHandshake.b.peers.get (peerIDOf .padded [7])).isSome = false := by
    decide +kernel
  refine ⟨by unfold Network.Quiet; decide +kernel, by decide +kernel, unknown, by decide +kernel, ?_⟩
  rintro ⟨⟨_, _, _, _, _, _, known, _⟩, _⟩
  rw [known] at unknown
  cases unknown

end Tenet.Connecting
