import Tenet.UdpInvariant

/-! What each step does to a handshake over UDP. -/

namespace Tenet.Connecting

open Lib

variable {env : Env} {call : ConnectCall} {keys : Keys}

section

variable {s : Connecting}

theorem sentA_send : Network.sent toA (s.network.post [(.b, call.udp.2)]) =
    Network.sent toA s.network := by
  rw [Network.sent_post]
  rfl

theorem sentThree_send : Network.sent (isThree call) (s.network.post [(.b, call.udp.2)]) =
    Network.sent (isThree call) s.network := by
  rw [Network.sent_post]
  simp [isThree]

theorem toCaller_send {flight : Flight (Side × Message)}
    (member : flight ∈ s.network.post [(.b, call.udp.2)]) (toCaller : flight.message.1 = .a) :
    flight ∈ s.network := by
  rcases Network.mem_post.mp member with old | ⟨message, listed, rfl⟩
  · exact old
  · rw [List.mem_singleton.mp listed] at toCaller
    cases toCaller

theorem first_or_old_send {flight : Flight (Side × Message)}
    (member : flight ∈ s.network.post [(.b, call.udp.2)]) :
    flight ∈ s.network ∨ flight.message.2 = call.udp.2 := by
  rcases Network.mem_post.mp member with old | ⟨message, listed, rfl⟩
  · exact Or.inl old
  · rw [List.mem_singleton.mp listed]
    exact Or.inr rfl

theorem caller_send (caller : CallerStage env call keys s) :
    CallerStage env call keys (s.step env call .send) := by
  have arrived : Network.arrived toA (s.network.post [(.b, call.udp.2)]) =
      Network.arrived toA s.network := Network.arrived_post _ _
  cases caller with
  | waiting none_yet stranger pending firsts seconds =>
      refine .waiting (arrived.trans none_yet) stranger pending ?_ ?_
      · intro flight member toOther
        rcases first_or_old_send member with old | first
        · exact firsts flight old toOther
        · exact first
      · intro flight member toCaller
        exact seconds flight (toCaller_send member toCaller) toCaller
  | joined once registered connected pending =>
      exact .joined (arrived.trans once) registered connected pending
  | stuck twice registered connected hs sent pending responding =>
      exact .stuck (twice.trans_eq arrived.symm) registered connected hs sent pending responding

theorem awaiting_send {drawn : Key} (awaiting : Awaiting env call keys s drawn) :
    Awaiting env call keys (s.step env call .send) drawn :=
  ⟨awaiting.stranger, awaiting.pending, (Network.arrived_post _ _).trans awaiting.arrivedOne,
    sentA_send.trans awaiting.sentA⟩

theorem accepted_send {drawn : Key} (accepted : Accepted env call keys s drawn) :
    Accepted env call keys (s.step env call .send) drawn := by
  refine ⟨accepted.peer, (Network.arrived_post _ _).trans accepted.arrivedA,
    sentThree_send.trans accepted.sentThree, ?_⟩
  intro flight member toOther
  rcases first_or_old_send member with old | first
  · exact accepted.thirds flight old toOther
  · exact Or.inl first

theorem phase_send (phase : Phase env call keys s) :
    Phase env call keys (s.step env call .send) := by
  have arrived (kind : Side × Message → Bool) :
      Network.arrived kind (s.network.post [(.b, call.udp.2)]) = Network.arrived kind s.network :=
    Network.arrived_post _ _
  cases phase with
  | idle stranger pending arrivedOne none_sent =>
      exact .idle stranger pending ((arrived _).trans arrivedOne) (sentA_send.trans none_sent)
  | answered ephemeral awaiting arrivedA seconds =>
      refine .answered ephemeral (awaiting_send awaiting) ((arrived _).trans arrivedA) ?_
      intro flight member toCaller
      exact seconds flight (toCaller_send member toCaller) toCaller
  | accepted ephemeral awaiting accepted arrivedThree =>
      exact .accepted ephemeral (awaiting_send awaiting) (accepted_send accepted)
        ((arrived _).trans arrivedThree)
  | done ephemeral accepted arrivedThree arrivedOne sent pending peer =>
      exact .done ephemeral (accepted_send accepted) ((arrived _).trans arrivedThree)
        ((arrived _).trans arrivedOne) (sentA_send.trans sent) pending peer

theorem doomed_send (doomed : Doomed env call keys s) :
    Doomed env call keys (s.step env call .send) := by
  have arrived : Network.arrived toA (s.network.post [(.b, call.udp.2)]) =
      Network.arrived toA s.network := Network.arrived_post _ _
  rcases doomed with many | twice | ⟨some_sent, forgotten⟩
  · exact Or.inl (many.trans_eq sentA_send.symm)
  · exact Or.inr (Or.inl (twice.trans_eq arrived.symm))
  · exact Or.inr (Or.inr ⟨some_sent.trans_eq sentA_send.symm, forgotten⟩)

theorem repeated_send (repeated : Repeated call s) : Repeated call (s.step env call .send) := by
  rcases repeated with ⟨flight, member, twice⟩ | many
  · exact Or.inl ⟨flight, Network.mem_post.mpr (Or.inl member), twice⟩
  · right
    change 2 ≤ Network.sent (isOne call) (s.network.post [(.b, call.udp.2)])
    rw [Network.sent_post]
    omega

theorem inv_send (inv : Inv env call keys s) : Inv env call keys (s.step env call .send) := by
  refine ⟨caller_send inv.caller, ?_, ?_⟩
  · refine ⟨inv.answering.staticKey, inv.answering.prologue, inv.answering.pending, ?_⟩
    intro flight member toCaller
    exact inv.answering.seconds flight (toCaller_send member toCaller) toCaller
  · rcases inv.outcome with phase | ⟨doomed, repeated⟩
    · exact Or.inl (phase_send phase)
    · exact Or.inr ⟨doomed_send doomed, repeated_send repeated⟩

end

theorem inv_register {s : Connecting} (inv : Inv env call keys s) :
    Inv env call keys (s.step env call .register) := by
  rw [step]
  by_cases registered : s.registered = true
  · rw [if_pos registered]
    exact inv
  · rw [if_neg registered]
    refine ⟨?_, ⟨inv.answering.staticKey, inv.answering.prologue, inv.answering.pending,
      inv.answering.seconds⟩, ?_⟩
    · cases inv.caller with
      | waiting none_yet stranger pending firsts seconds =>
          refine .waiting none_yet ⟨stranger.unmapped, stranger.unknown, stranger.room⟩ ?_ firsts
            seconds
          intro _
          change ((s.a.pendingHandshakes.set _ _).set _ _).get _ = _
          rw [GoMap.get_set, if_neg (fun same => by cases same), GoMap.get_set, if_pos rfl]
      | joined once done connected pending => exact absurd done registered
      | stuck twice done connected hs sent pending responding => exact absurd done registered
    · rcases inv.outcome with phase | spoiled
      · left
        cases phase with
        | idle stranger pending arrivedOne none_sent =>
            exact .idle stranger pending arrivedOne none_sent
        | answered ephemeral awaiting arrivedA seconds =>
            exact .answered ephemeral ⟨awaiting.stranger, awaiting.pending, awaiting.arrivedOne,
              awaiting.sentA⟩ arrivedA seconds
        | accepted ephemeral awaiting accepted arrivedThree =>
            exact .accepted ephemeral ⟨awaiting.stranger, awaiting.pending, awaiting.arrivedOne,
              awaiting.sentA⟩ ⟨accepted.peer, accepted.arrivedA, accepted.sentThree, accepted.thirds⟩
              arrivedThree
        | done ephemeral accepted arrivedThree arrivedOne sent pending peer =>
            exact .done ephemeral
              ⟨accepted.peer, accepted.arrivedA, accepted.sentThree, accepted.thirds⟩ arrivedThree
              arrivedOne sent pending peer
      · exact Or.inr spoiled

theorem repeated_delivered {s after : Connecting} {index : Nat} {flight : Flight (Side × Message)}
    (found : s.network[index]? = some flight) (replies : List (Side × Message))
    (network : after.network = s.network.exchange index replies) (repeated : Repeated call s) :
    Repeated call after := by
  unfold Repeated
  rw [network]
  rcases repeated with twice | many
  · exact Or.inl (Network.repeated_exchange found replies twice)
  · right
    rw [Network.sent_exchange found]
    omega

theorem sentA_of_phase {s : Connecting} (phase : Phase env call keys s)
    (heard : Network.arrived toA s.network ≠ 0) : Network.sent toA s.network = 1 := by
  cases phase with
  | idle _ _ _ none_sent => exact absurd (Network.arrived_eq_zero none_sent) heard
  | answered _ awaiting _ _ => exact awaiting.sentA
  | accepted _ awaiting _ _ => exact awaiting.sentA
  | done _ _ _ _ sent _ _ => exact sent

theorem arrivedA_of_phase {s : Connecting} (phase : Phase env call keys s) :
    Network.arrived toA s.network ≤ 1 := by
  cases phase with
  | idle _ _ _ none_sent => exact (Network.arrived_eq_zero none_sent).le.trans (Nat.zero_le 1)
  | answered _ _ unheard _ => exact unheard.le.trans (Nat.zero_le 1)
  | accepted _ _ accepted _ => exact accepted.arrivedA.le
  | done _ accepted _ _ _ _ _ => exact accepted.arrivedA.le

section

variable {s : Connecting} {index : Nat} {message : Message} {deliveries : Nat}
  (found : s.network[index]? = some ⟨(.a, message), deliveries⟩)

include found

theorem arrivedA_caller (replies : List (Side × Message)) :
    Network.arrived toA (s.network.exchange index replies) = Network.arrived toA s.network + 1 :=
  Network.arrived_exchange found replies

theorem sentA_caller (replies : List Message) :
    Network.sent toA (s.network.exchange index (replies.map (.b, ·))) =
      Network.sent toA s.network := by
  rw [Network.sent_exchange found, countP_b_toA, Nat.add_zero]

theorem answering_caller (answering : Answering call keys s) (received : Node)
    (replies : List Message) :
    Answering call keys
      { s with a := received, network := s.network.exchange index (replies.map (.b, ·)) } := by
  refine ⟨answering.staticKey, answering.prologue, answering.pending, ?_⟩
  intro flight arriving toCaller
  rcases Network.mem_exchange found arriving with ⟨before, listed, same⟩ | new
  · rw [← same] at toCaller ⊢
    exact answering.seconds before listed toCaller
  · rcases List.mem_map.mp new with ⟨reply, _, same⟩
    rw [← same] at toCaller
    cases toCaller

theorem doomed_caller (doomed : Doomed env call keys s) (received : Node) (replies : List Message) :
    Doomed env call keys
      { s with a := received, network := s.network.exchange index (replies.map (.b, ·)) } := by
  rcases doomed with sent | arrived | ⟨sent, forgotten⟩
  · exact Or.inl (sent.trans_eq (sentA_caller found replies).symm)
  · right
    left
    change 2 ≤ Network.arrived toA (s.network.exchange index _)
    rw [arrivedA_caller found]
    omega
  · exact Or.inr (Or.inr ⟨sent.trans_eq (sentA_caller found replies).symm, forgotten⟩)

theorem phase_accepted (initiator : InitiatorCall call keys) {drawn : Key}
    (awaiting : Awaiting env call keys s drawn) (unheard : Network.arrived toA s.network = 0)
    (firsts : ∀ flight ∈ s.network, flight.message.1 = .b → flight.message.2 = call.udp.2)
    (received : Node)
    (peer : ∃ p, received.peers.get (peerIDOf env keys.b) = some p ∧
      p.session = some (sessionOf true (keys.third call drawn) keys.b)) :
    Phase env call keys
      { s with
        a := received
        network := s.network.exchange index ([keys.third call drawn].map (.b, ·)) } := by
  have no_third : Network.sent (isThree call) s.network = 0 := by
    rw [Network.sent, List.countP_eq_zero]
    intro flight listed
    simp only [isThree, decide_eq_true_eq, not_and, not_not]
    exact firsts flight listed
  have arrivedOne : Network.arrived (isOne call)
      (s.network.exchange index ([keys.third call drawn].map (.b, ·))) =
        Network.arrived (isOne call) s.network := Network.arrived_exchange found _
  refine .accepted drawn ⟨awaiting.stranger, awaiting.pending, arrivedOne.trans awaiting.arrivedOne,
    (sentA_caller found _).trans awaiting.sentA⟩ ⟨peer, ?_, ?_, ?_⟩ ?_
  · exact (arrivedA_caller found _).trans (congrArg (· + 1) unheard)
  · change Network.sent (isThree call) (s.network.exchange index _) = 1
    rw [Network.sent_exchange found, no_third]
    simp [isThree, third_ne_first initiator drawn]
  · intro flight arriving toOther
    rcases Network.mem_exchange found arriving with ⟨before, listed, same⟩ | new
    · rw [← same] at toOther ⊢
      exact Or.inl (firsts before listed toOther)
    · rw [List.mem_singleton.mp new]
      exact Or.inr rfl
  · change Network.arrived (isThree call) (s.network.exchange index _) = 0
    rw [Network.arrived_exchange found, Network.arrived_eq_zero no_third]
    rfl

/-- The caller, already joined, takes a datagram for a message 1: that one arrived twice. -/
theorem spoiled_joined (phase : Phase env call keys s)
    (once : Network.arrived toA s.network = 1) (received : Node) (replies : List Message) :
    Doomed env call keys
        { s with a := received, network := s.network.exchange index (replies.map (.b, ·)) } ∧
      Repeated call
        { s with a := received, network := s.network.exchange index (replies.map (.b, ·)) } := by
  have heard : Network.arrived toA s.network ≠ 0 := by omega
  have twice : Network.arrived toA (s.network.exchange index (replies.map (.b, ·))) = 2 := by
    rw [arrivedA_caller found, once]
  have one_sent : Network.sent toA (s.network.exchange index (replies.map (.b, ·))) = 1 := by
    rw [sentA_caller found, sentA_of_phase phase heard]
  have more : Network.sent toA (s.network.exchange index (replies.map (.b, ·))) <
      Network.arrived toA (s.network.exchange index (replies.map (.b, ·))) := by
    omega
  exact ⟨Or.inr (Or.inl twice.ge), Or.inl (Network.repeated_of_arrived more)⟩

theorem inv_deliver_caller (initiator : InitiatorCall call keys) (inv : Inv env call keys s)
    (ephemeral : Key) (now : Int) (registered : s.registered = true) :
    Inv env call keys (s.step env call (.deliver index ephemeral now)) := by
  have member : (⟨(.a, message), deliveries⟩ : Flight (Side × Message)) ∈ s.network :=
    List.mem_of_getElem? found
  have some_sent : 0 < Network.sent toA s.network := Network.sent_pos member rfl
  rw [step, found]
  dsimp only
  cases inv.caller with
  | waiting none_yet stranger pending firsts seconds =>
      rcases seconds _ member rfl with ⟨drawn, second⟩
      change message = keys.second call.udp.2 drawn at second
      subst second
      rcases receive_finished s.a call.addrB _ ephemeral now env keys.b stranger call.udp.1 _ _ _ rfl
        (pending registered) (initiator_finishes initiator drawn) with
        ⟨cleared, peer, connected, replies⟩
      rw [replies]
      refine ⟨.joined ?_ registered connected cleared, answering_caller found inv.answering _ _, ?_⟩
      · exact (arrivedA_caller found _).trans (congrArg (· + 1) none_yet)
      · rcases inv.outcome with phase | ⟨doomed, repeated⟩
        · left
          cases phase with
          | idle _ _ _ none_sent => omega
          | answered answer awaiting _ answers =>
              have same : keys.second call.udp.2 drawn = keys.second call.udp.2 answer :=
                answers _ member rfl
              have drawn_eq : drawn = answer := by
                injection same
              subst drawn_eq
              exact phase_accepted found initiator awaiting none_yet firsts _ peer
          | accepted _ _ accepted _ =>
              have once := accepted.arrivedA
              omega
          | done _ accepted _ _ _ _ _ =>
              have once := accepted.arrivedA
              omega
        · exact Or.inr ⟨doomed_caller found doomed _ _, repeated_delivered found _ rfl repeated⟩
  | joined once _ connected pending =>
      rw [processHandshake_first env s.a none ⟨.udp, call.addrB⟩ .udp message ephemeral now pending]
      refine ⟨.stuck ?_ registered connected (s.a.responding message ephemeral now) _ ?_
        ⟨rfl, rfl, rfl⟩, answering_caller found inv.answering _ [_], ?_⟩
      · change 2 ≤ Network.arrived toA (s.network.exchange index _)
        rw [arrivedA_caller found, once]
      · exact (GoMap.get_set _ _ _ _).trans (if_pos rfl)
      · rcases inv.outcome with phase | ⟨doomed, repeated⟩
        · exact Or.inr (spoiled_joined found phase once _ [_])
        · exact Or.inr ⟨doomed_caller found doomed _ [_], repeated_delivered found _ rfl repeated⟩
  | stuck twice _ connected hs sent pending responding =>
      rcases inv.answering.seconds _ member rfl with ⟨answered, drawn, second⟩
      change message = .two answered keys.prologue drawn keys.b at second
      have rejected : hs.processMessage message = none := by
        apply responding_rejects responding
        intro static same
        rw [second] at same
        cases same
      rw [receive_rejected s.a call.addrB message ephemeral now env hs pending rejected, if_pos connected]
      refine ⟨.stuck ?_ registered connected hs sent ?_ responding,
        answering_caller found inv.answering _ [], ?_⟩
      · change 2 ≤ Network.arrived toA (s.network.exchange index _)
        rw [arrivedA_caller found]
        omega
      · exact (GoMap.get_set _ _ _ _).trans (if_pos rfl)
      · rcases inv.outcome with phase | ⟨doomed, repeated⟩
        · have once := arrivedA_of_phase phase
          omega
        · exact Or.inr ⟨doomed_caller found doomed _ [], repeated_delivered found _ rfl repeated⟩

end

section

variable {s : Connecting} {index : Nat} {message : Message} {deliveries : Nat}
  (found : s.network[index]? = some ⟨(.b, message), deliveries⟩)

include found

theorem arrivedA_other (replies : List (Side × Message)) :
    Network.arrived toA (s.network.exchange index replies) = Network.arrived toA s.network :=
  Network.arrived_exchange found replies

theorem sentA_other (replies : List Message) :
    Network.sent toA (s.network.exchange index (replies.map (.a, ·))) =
      Network.sent toA s.network + replies.length := by
  rw [Network.sent_exchange found, countP_toA]

theorem arrivedOne_other (first : message = call.udp.2) (replies : List (Side × Message)) :
    Network.arrived (isOne call) (s.network.exchange index replies) =
      Network.arrived (isOne call) s.network + 1 := by
  rw [Network.arrived_exchange found, first]
  simp [isOne]

theorem caller_other (inv : Inv env call keys s) (received : Node) (replies : List Message)
    (written : ∀ reply ∈ replies, ∃ drawn, reply = keys.second message drawn) :
    CallerStage env call keys
      { s with b := received, network := s.network.exchange index (replies.map (.a, ·)) } := by
  have arrived := arrivedA_other found (replies.map (.a, ·))
  cases inv.caller with
  | waiting none_yet stranger pending firsts seconds =>
      refine .waiting (arrived.trans none_yet) stranger pending ?_ ?_
      · intro flight arriving toOther
        rcases Network.mem_exchange found arriving with ⟨before, listed, same⟩ | new
        · rw [← same] at toOther ⊢
          exact firsts before listed toOther
        · rcases List.mem_map.mp new with ⟨reply, _, same⟩
          rw [← same] at toOther
          cases toOther
      · intro flight arriving toCaller
        rcases Network.mem_exchange found arriving with ⟨before, listed, same⟩ | new
        · rw [← same] at toCaller ⊢
          exact seconds before listed toCaller
        · rcases List.mem_map.mp new with ⟨reply, listed, same⟩
          rcases written reply listed with ⟨drawn, second⟩
          have first : message = call.udp.2 := firsts _ (List.mem_of_getElem? found) rfl
          rw [← same, ← first]
          exact ⟨drawn, second⟩
  | joined once registered connected pending =>
      exact .joined (arrived.trans once) registered connected pending
  | stuck twice registered connected hs sent pending responding =>
      exact .stuck (twice.trans_eq arrived.symm) registered connected hs sent pending responding

theorem first_of_unheard (inv : Inv env call keys s) (unheard : Network.arrived toA s.network = 0) :
    message = call.udp.2 := by
  cases inv.caller with
  | waiting _ _ _ firsts _ => exact firsts _ (List.mem_of_getElem? found) rfl
  | joined once _ _ _ => omega
  | stuck twice _ _ _ _ _ _ => omega

theorem accepted_other {drawn : Key} (accepted : Accepted env call keys s drawn) (received : Node)
    (replies : List Message) :
    Accepted env call keys
      { s with b := received, network := s.network.exchange index (replies.map (.a, ·)) } drawn := by
  refine ⟨accepted.peer, (arrivedA_other found _).trans accepted.arrivedA, ?_, ?_⟩
  · change Network.sent (isThree call) (s.network.exchange index _) = 1
    rw [Network.sent_exchange found, countP_a_isThree, accepted.sentThree]
  · intro flight arriving toOther
    rcases Network.mem_exchange found arriving with ⟨before, listed, same⟩ | new
    · rw [← same] at toOther ⊢
      exact accepted.thirds before listed toOther
    · rcases List.mem_map.mp new with ⟨reply, _, same⟩
      rw [← same] at toOther
      cases toOther

/-- Message 1 again, while the node waits for message 3: it forgets the handshake. -/
theorem forgets (initiator : InitiatorCall call keys) {drawn : Key}
    (awaiting : Awaiting env call keys s drawn) (first : message = call.udp.2) (ephemeral : Key)
    (now : Int) :
    let received := s.b.processHandshake env none ⟨.udp, call.addrA⟩ .udp message ephemeral now
    let after : Connecting :=
      { s with
        b := received.1
        network := s.network.exchange index ((handshakeReplies received.2).map (.a, ·)) }
    Doomed env call keys after ∧ Repeated call after := by
  rcases awaiting.pending with ⟨hs, pending, responding⟩
  have rejected : hs.processMessage message = none := by
    apply responding_rejects responding
    intro static same
    rcases initiator.first with ⟨own, one⟩
    rw [first, one] at same
    cases same
  have unmapped : ¬ (s.b.addrToPeer.get call.addrA).isSome = true := by
    rw [awaiting.stranger.unmapped]
    exact Bool.false_ne_true
  intro received after
  have result : received = ({ s.b with
      pendingHandshakes := s.b.pendingHandshakes.delete (.udp, call.addrA) }, []) := by
    change s.b.processHandshake env none ⟨.udp, call.addrA⟩ .udp message ephemeral now = _
    rw [receive_rejected s.b call.addrA message ephemeral now env hs pending rejected, if_neg unmapped]
  constructor
  · refine Or.inr (Or.inr ⟨?_, ?_, ?_⟩)
    · change 1 ≤ Network.sent toA (s.network.exchange index ((handshakeReplies received.2).map (.a, ·)))
      rw [sentA_other found, awaiting.sentA]
      omega
    · change received.1.pendingHandshakes.get (.udp, call.addrA) = none
      rw [result]
      exact (GoMap.get_delete _ _ _).trans (if_pos rfl)
    · change received.1.peers.get _ = none
      rw [result]
      exact awaiting.stranger.unknown
  · apply repeated_of_ones
    change 2 ≤ Network.arrived (isOne call) (s.network.exchange index _)
    rw [arrivedOne_other found first, awaiting.arrivedOne]

theorem answers_again (idle : s.b.pendingHandshakes.get (.udp, call.addrA) = none)
    (earlier : 1 ≤ Network.sent toA s.network) (ephemeral : Key) (now : Int) :
    2 ≤ Network.sent toA (s.network.exchange index ((handshakeReplies
      (s.b.processHandshake env none ⟨.udp, call.addrA⟩ .udp message ephemeral now).2).map (.a, ·))) := by
  rw [processHandshake_first env s.b none ⟨.udp, call.addrA⟩ .udp message ephemeral now idle,
    sentA_other found]
  exact Nat.succ_le_succ earlier

theorem phase_answered (inv : Inv env call keys s) (stranger : s.b.Stranger env call.addrA keys.a)
    (idle : s.b.pendingHandshakes.get (.udp, call.addrA) = none)
    (arrivedOne : Network.arrived (isOne call) s.network = 0)
    (none_sent : Network.sent toA s.network = 0) (ephemeral : Key) (now : Int) :
    let received := s.b.processHandshake env none ⟨.udp, call.addrA⟩ .udp message ephemeral now
    Phase env call keys
      { s with
        b := received.1
        network := s.network.exchange index ((handshakeReplies received.2).map (.a, ·)) } := by
  have unheard := Network.arrived_eq_zero none_sent
  have first := first_of_unheard found inv unheard
  dsimp only
  rw [processHandshake_first env s.b none ⟨.udp, call.addrA⟩ .udp message ephemeral now idle,
    inv.answering.staticKey, inv.answering.prologue]
  refine .answered ephemeral ⟨?_, ?_, ?_, ?_⟩ ?_ ?_
  · exact ⟨stranger.unmapped, stranger.unknown, stranger.room⟩
  · refine ⟨s.b.responding message ephemeral now,
      (GoMap.get_set _ _ _ _).trans (if_pos rfl), ?_, rfl, rfl⟩
    change Stage.awaitThree (.two message (prologuePrefix ++ s.b.config.networkPassword)
      ephemeral s.b.identity.noisePublicKey) = _
    rw [inv.answering.staticKey, inv.answering.prologue, first]
    rfl
  · change Network.arrived (isOne call) (s.network.exchange index _) = 1
    rw [arrivedOne_other found first, arrivedOne]
  · change Network.sent toA (s.network.exchange index ([_].map (.a, ·))) = 1
    rw [sentA_other found, none_sent]
    rfl
  · exact (arrivedA_other found _).trans unheard
  · intro flight arriving toCaller
    rcases Network.mem_exchange found arriving with ⟨before, listed, same⟩ | new
    · rw [← same] at toCaller
      have counted : 0 < Network.sent toA s.network :=
        Network.sent_pos listed (decide_eq_true toCaller)
      omega
    · rw [List.mem_singleton.mp new, first]
      rfl

theorem phase_done (initiator : InitiatorCall call keys) {drawn : Key}
    (awaiting : Awaiting env call keys s drawn) (accepted : Accepted env call keys s drawn)
    (arrivedThree : Network.arrived (isThree call) s.network = 0)
    (third : message = keys.third call drawn) (ephemeral : Key) (now : Int) :
    let received := s.b.processHandshake env none ⟨.udp, call.addrA⟩ .udp message ephemeral now
    Phase env call keys
      { s with
        b := received.1
        network := s.network.exchange index ((handshakeReplies received.2).map (.a, ·)) } := by
  subst third
  rcases awaiting.pending with ⟨hs, waiting, responding⟩
  rcases receive_finished s.b call.addrA _ ephemeral now env keys.a awaiting.stranger hs _ _ _
    rfl waiting (responding_finishes responding keys.a) with ⟨cleared, peer, _, replies⟩
  have silent : handshakeReplies (s.b.processHandshake env none ⟨.udp, call.addrA⟩ .udp
      (keys.third call drawn) ephemeral now).2 = [] := replies
  dsimp only
  rw [silent]
  refine .done drawn (accepted_other found accepted _ []) ?_ ?_ ?_ cleared peer
  · change Network.arrived (isThree call) (s.network.exchange index _) = 1
    rw [Network.arrived_exchange found, arrivedThree]
    simp [isThree, third_ne_first initiator drawn]
  · change Network.arrived (isOne call) (s.network.exchange index _) = 1
    rw [Network.arrived_exchange found, awaiting.arrivedOne]
    simp [isOne, third_ne_first initiator drawn]
  · change Network.sent toA (s.network.exchange index ([].map (.a, ·))) = 1
    rw [sentA_other found, awaiting.sentA]
    rfl

/-- Whatever reaches the other node after the end is a repetition. -/
theorem repeated_done (initiator : InitiatorCall call keys) {drawn : Key}
    (accepted : Accepted env call keys s drawn)
    (arrivedThree : Network.arrived (isThree call) s.network = 1)
    (arrivedOne : Network.arrived (isOne call) s.network = 1) (received : Node)
    (replies : List Message) :
    Repeated call
      { s with b := received, network := s.network.exchange index (replies.map (.a, ·)) } := by
  rcases accepted.thirds _ (List.mem_of_getElem? found) rfl with first | third
  · apply repeated_of_ones
    change 2 ≤ Network.arrived (isOne call) (s.network.exchange index _)
    rw [arrivedOne_other found first, arrivedOne]
  · change message = keys.third call drawn at third
    have more : Network.sent (isThree call) (s.network.exchange index (replies.map (.a, ·))) <
        Network.arrived (isThree call) (s.network.exchange index (replies.map (.a, ·))) := by
      rw [Network.sent_exchange found, Network.arrived_exchange found, countP_a_isThree,
        accepted.sentThree, arrivedThree, third]
      simp [isThree, third_ne_first initiator drawn]
    exact Or.inl (Network.repeated_of_arrived more)

theorem doomed_other (doomed : Doomed env call keys s) (ephemeral : Key) (now : Int) :
    let received := s.b.processHandshake env none ⟨.udp, call.addrA⟩ .udp message ephemeral now
    Doomed env call keys
      { s with
        b := received.1
        network := s.network.exchange index ((handshakeReplies received.2).map (.a, ·)) } := by
  rcases doomed with many | twice | ⟨some_sent, idle, unknown⟩
  · left
    change 2 ≤ Network.sent toA (s.network.exchange index _)
    rw [sentA_other found]
    omega
  · exact Or.inr (Or.inl (twice.trans_eq (arrivedA_other found _).symm))
  · exact Or.inl (answers_again found idle some_sent ephemeral now)

theorem answering_other (answering : Answering call keys s) (env : Env) (ephemeral : Key) (now : Int)
    (pending : ∀ hs, (s.b.processHandshake env none ⟨.udp, call.addrA⟩ .udp message ephemeral
      now).1.pendingHandshakes.get (.udp, call.addrA) = some hs → ∃ sent, Responding hs sent)
    (replies : List Message)
    (written : ∀ reply ∈ replies, reply = keys.second message ephemeral) :
    Answering call keys
      { s with
        b := (s.b.processHandshake env none ⟨.udp, call.addrA⟩ .udp message ephemeral now).1
        network := s.network.exchange index (replies.map (.a, ·)) } := by
  refine ⟨?_, ?_, pending, ?_⟩
  · change (s.b.processHandshake env _ _ _ _ _ _).1.identity.noisePublicKey = _
    rw [processHandshake_identity]
    exact answering.staticKey
  · change prologuePrefix ++ (s.b.processHandshake env _ _ _ _ _ _).1.config.networkPassword = _
    rw [(processHandshake_tables env s.b none ⟨.udp, call.addrA⟩ .udp message ephemeral now).2.config]
    exact answering.prologue
  · intro flight arriving toCaller
    rcases Network.mem_exchange found arriving with ⟨before, listed, same⟩ | new
    · rw [← same] at toCaller ⊢
      exact answering.seconds before listed toCaller
    · rcases List.mem_map.mp new with ⟨reply, listed, same⟩
      rw [← same]
      exact ⟨message, ephemeral, written reply listed⟩

theorem inv_deliver_other (initiator : InitiatorCall call keys) (inv : Inv env call keys s)
    (ephemeral : Key) (now : Int) :
    Inv env call keys (s.step env call (.deliver index ephemeral now)) := by
  rcases receive_responder s.b call.addrA message ephemeral now env inv.answering.pending with
    ⟨pending, written⟩
  rw [inv.answering.staticKey, inv.answering.prologue] at written
  rw [step, found]
  dsimp only
  refine ⟨?_, answering_other found inv.answering env ephemeral now pending _ written, ?_⟩
  · exact caller_other found inv _ _ (fun reply listed => ⟨ephemeral, written reply listed⟩)
  · rcases inv.outcome with phase | ⟨doomed, repeated⟩
    · cases phase with
      | idle stranger idle arrivedOne none_sent =>
          exact Or.inl (phase_answered found inv stranger idle arrivedOne none_sent ephemeral now)
      | answered drawn awaiting unheard seconds =>
          exact Or.inr (forgets found initiator awaiting (first_of_unheard found inv unheard) ephemeral now)
      | accepted drawn awaiting accepted arrivedThree =>
          rcases accepted.thirds _ (List.mem_of_getElem? found) rfl with first | third
          · exact Or.inr (forgets found initiator awaiting first ephemeral now)
          · exact Or.inl (phase_done found initiator awaiting accepted arrivedThree third ephemeral now)
      | done drawn accepted arrivedThree arrivedOne sent idle peer =>
          exact Or.inr ⟨Or.inl (answers_again found idle (Nat.le_of_eq sent.symm) ephemeral now),
            repeated_done found initiator accepted arrivedThree arrivedOne _ _⟩
    · exact Or.inr ⟨doomed_other found doomed ephemeral now, repeated_delivered found _ rfl repeated⟩

end

theorem inv_step (initiator : InitiatorCall call keys) (s : Connecting) (event : ConnectEvent)
    (inv : Inv env call keys s) (first : s.RegisteredFirst event) :
    Inv env call keys (s.step env call event) := by
  cases event with
  | send => exact inv_send inv
  | register => exact inv_register inv
  | deliver index ephemeral now =>
      cases found : s.network[index]? with
      | none =>
          rw [step, found]
          exact inv
      | some flight =>
          rcases flight with ⟨⟨side, message⟩, deliveries⟩
          cases side with
          | a =>
              have registered : s.registered = true := first _ found rfl
              exact inv_deliver_caller found initiator inv ephemeral now registered
          | b => exact inv_deliver_other found initiator inv ephemeral now

end Tenet.Connecting
