import Tenet.Relay

/-! Authentication of relay requests: what a relay packet can do, and with which token. -/

namespace Tenet

open Lib

/-- Handling the packet sends or dispatches something, or changes a relay table. -/
def Acts (n : Node) (result : Node × List Effect) : Prop :=
  result.2 ≠ [] ∨ (∃ target, result.1.relayForward.get target ≠ n.relayForward.get target) ∨
    result.1.relayInbound ≠ n.relayInbound

def CarriesToken (env : Env) (n : Node) (payload : Bytes) (now : Int) : Prop :=
  ∃ packet token, parseRelayPacket payload = some packet ∧
    decodeToken packet.authToken = .ok token ∧ verifyToken env n.relayAuth token now = none

/-- The node would act on the packet if it asked for no token. -/
def Actionable (n : Node) (origin : Bytes) (packet : RelayPacket) (target : Bytes) : Prop :=
  (packet.mode = relayModeForward ∧
      (target.length ≤ 255 ∨ n.relayForward.get target ≠ some origin)) ∨
    (packet.mode = relayModeTarget ∧ isTent packet.inner = true)

/-- A packet with an empty token that nothing else stops. -/
def Unguarded (env : Env) (n : Node) (origin payload : Bytes) : Prop :=
  ∃ packet target, parseRelayPacket payload = some packet ∧ packet.authToken = [] ∧
    packet.inner.length ≠ 0 ∧ env.resolveUDPAddr packet.addr = some target ∧
    Actionable n origin packet target

theorem acceptsToken_iff (env : Env) (config : RelayAuthConfig) (data : Bytes) (now : Int) :
    acceptsToken env config data now = true ↔
      ∃ token, decodeToken data = .ok token ∧ verifyToken env config token now = none := by
  unfold acceptsToken
  cases decodeToken data with
  | error err => simp
  | ok token => simp [Option.isNone_iff_eq_none]

theorem idle_not_acts (n : Node) : ¬ Acts n (n, []) := by
  rintro (sent | ⟨target, changed⟩ | inbound)
  · exact sent rfl
  · exact changed rfl
  · exact inbound rfl

theorem relayForwardTo_acts (env : Env) (n : Node) (origin target inner : Bytes) (now : Int) :
    Acts n (n.relayForwardTo env origin target inner now) ↔
      target.length ≤ 255 ∨ n.relayForward.get target ≠ some origin := by
  unfold Acts Node.relayForwardTo Node.buildRelayPacket
  by_cases short : target.length ≤ 255
  · have fits : ¬ target.length > 255 := by omega
    simp only [if_neg fits, Option.map_some, Option.toList_some, ne_eq, reduceCtorEq,
      not_false_eq_true, true_or, short]
  · have long : target.length > 255 := by omega
    simp only [if_pos long, Option.map_none, Option.toList_none, ne_eq, not_true, false_or, short]
    constructor
    · rintro (⟨other, changed⟩ | same)
      · intro already
        apply changed
        rw [GoMap.get_set]
        by_cases equal : other = target
        · rw [if_pos equal, equal, already]
        · rw [if_neg equal]
      · exact same.elim
    · intro changed
      refine Or.inl ⟨target, ?_⟩
      rw [GoMap.get_set, if_pos rfl]
      exact fun same => changed same.symm

theorem relayDeliver_acts (n : Node) (origin inner : Bytes) :
    Acts n (n.relayDeliver origin inner) ↔ isTent inner = true := by
  unfold Node.relayDeliver
  by_cases tent : isTent inner = true
  · rw [if_pos tent]
    exact iff_of_true (Or.inl (List.cons_ne_nil _ _)) tent
  · rw [if_neg tent]
    exact iff_of_false (idle_not_acts n) tent

theorem handleRelayPacket_acts (env : Env) (n : Node) (origin payload : Bytes) (now : Int) :
    Acts n (n.handleRelayPacket env origin payload now) ↔
      ∃ packet target, n.admitRelayPacket env payload now = some (packet, target) ∧
        Actionable n origin packet target := by
  unfold Node.handleRelayPacket
  cases n.admitRelayPacket env payload now with
  | none =>
      constructor
      · exact fun acts => absurd acts (idle_not_acts n)
      · rintro ⟨packet, target, impossible, _⟩
        cases impossible
  | some admitted =>
      rcases admitted with ⟨packet, target⟩
      have same : (∃ other place, some (packet, target) = some (other, place) ∧
          Actionable n origin other place) ↔ Actionable n origin packet target := by
        constructor
        · rintro ⟨other, place, equal, actionable⟩
          cases equal
          exact actionable
        · exact fun actionable => ⟨packet, target, rfl, actionable⟩
      rw [same, Actionable]
      have modes : relayModeForward ≠ relayModeTarget := by decide
      by_cases forward : packet.mode = relayModeForward
      · simp only [forward, if_true, true_and, modes, false_and, or_false]
        exact relayForwardTo_acts env n origin target packet.inner now
      · by_cases deliver : packet.mode = relayModeTarget
        · simp only [deliver, modes.symm, if_false, if_true, false_and, false_or, true_and]
          exact relayDeliver_acts n origin packet.inner
        · simp only [forward, deliver, if_false, false_and, or_self]
          exact iff_of_false (idle_not_acts n) id

theorem admitRelayPacket_iff (env : Env) (n : Node) (payload : Bytes) (now : Int)
    (relaying : n.config.enableRelay = true) (authenticating : n.config.enableRelayAuth = true)
    (packet : RelayPacket) (target : Bytes) :
    n.admitRelayPacket env payload now = some (packet, target) ↔
      parseRelayPacket payload = some packet ∧ packet.inner.length ≠ 0 ∧
      (packet.authToken = [] ∨ acceptsToken env n.relayAuth packet.authToken now = true) ∧
      env.resolveUDPAddr packet.addr = some target := by
  unfold Node.admitRelayPacket
  rw [if_pos relaying]
  cases parseRelayPacket payload with
  | none => simp
  | some parsed =>
      by_cases same : parsed = packet
      · subst same
        by_cases empty : parsed.inner.length = 0
        · simp only [empty, if_true, reduceCtorEq, ne_eq, not_true, false_and, and_false]
        · by_cases untokened : parsed.authToken = []
          · simp [empty, untokened, Option.map_eq_some_iff]
          · have tokened : parsed.authToken.length > 0 := List.length_pos_iff.mpr untokened
            by_cases accepted : acceptsToken env n.relayAuth parsed.authToken now = true
            · simp [empty, untokened, accepted, Option.map_eq_some_iff]
            · simp [empty, untokened, tokened, accepted, authenticating]
      · constructor
        · intro admitted
          dsimp only at admitted
          split at admitted
          · cases admitted
          · split at admitted
            · cases admitted
            · rcases Option.map_eq_some_iff.mp admitted with ⟨place, _, pair⟩
              exact absurd (Prod.mk.inj pair).1 same
        · rintro ⟨equal, _⟩
          exact absurd (Option.some.inj equal) same

/-- On a node that relays and authenticates, a packet acts only with a verified token, exactly if
it is not one with an empty token that nothing else stops. -/
theorem relay_gate_iff (env : Env) (n : Node) (origin payload : Bytes) (now : Int)
    (relaying : n.config.enableRelay = true) (authenticating : n.config.enableRelayAuth = true) :
    (Acts n (n.handleRelayPacket env origin payload now) → CarriesToken env n payload now) ↔
      ¬ Unguarded env n origin payload := by
  rw [handleRelayPacket_acts]
  constructor
  · rintro gate ⟨packet, target, parsed, untokened, inner, resolved, actionable⟩
    have admitted : n.admitRelayPacket env payload now = some (packet, target) :=
      (admitRelayPacket_iff env n payload now relaying authenticating packet target).mpr
        ⟨parsed, inner, Or.inl untokened, resolved⟩
    rcases gate ⟨packet, target, admitted, actionable⟩ with ⟨other, token, reparsed, decoded, _⟩
    rw [parsed] at reparsed
    cases reparsed
    rw [untokened] at decoded
    cases decoded
  · rintro guarded ⟨packet, target, admitted, actionable⟩
    rcases (admitRelayPacket_iff env n payload now relaying authenticating packet target).mp admitted
      with ⟨parsed, inner, untokened | accepted, resolved⟩
    · exact absurd ⟨packet, target, parsed, untokened, inner, resolved, actionable⟩ guarded
    · rcases (acceptsToken_iff env n.relayAuth packet.authToken now).mp accepted with
        ⟨token, decoded, verified⟩
      exact ⟨packet, token, parsed, decoded, verified⟩

/-- A node as `NewNode` and `Start` make it from a password and the defaults, which turn relaying
and its authentication on. -/
def defaultNode : Node :=
  (newNode .padded { defaultConfig with networkPassword := [1] } (newIdentity .padded [9])).start
    .padded true

/-- "10.0.0.8:9000" and "10.0.0.9:9000" -/
def requestOrigin : Bytes := [49, 48, 46, 48, 46, 48, 46, 56, 58, 57, 48, 48, 48]

def requestTarget : Bytes := [49, 48, 46, 48, 46, 48, 46, 57, 58, 57, 48, 48, 48]

def tokenedRequest : Bytes :=
  relayModeForward :: 13 :: requestTarget ++ 73 :: (defaultNode.relayToken .padded 1000) ++ [0x49]

theorem tokened_request_gated :
    (defaultNode.handleRelayPacket .padded requestOrigin tokenedRequest 1000).2 ≠ [] ∧
      (Acts defaultNode (defaultNode.handleRelayPacket .padded requestOrigin tokenedRequest 1000) →
        CarriesToken .padded defaultNode tokenedRequest 1000) := by
  refine ⟨by decide +kernel, ?_⟩
  apply (relay_gate_iff .padded defaultNode requestOrigin tokenedRequest 1000 rfl rfl).mpr
  rintro ⟨packet, target, parsed, untokened, _⟩
  have size : (parseRelayPacket tokenedRequest).map (fun packet => packet.authToken.length) =
      some 73 := by decide +kernel
  rw [parsed, Option.map_some, untokened] at size
  cases size

def untokenedRequest : Bytes := relayModeForward :: 13 :: requestTarget ++ [0, 0x49]

/-- The relay sends the datagram on and enters the origin, though no token was presented. -/
theorem untokened_request_forwarded :
    (defaultNode.handleRelayPacket .padded requestOrigin untokenedRequest 1000).2 ≠ [] ∧
      (defaultNode.handleRelayPacket .padded requestOrigin untokenedRequest 1000).1.relayForward.get
        requestTarget = some requestOrigin ∧
      Acts defaultNode (defaultNode.handleRelayPacket .padded requestOrigin untokenedRequest 1000) ∧
      ¬ CarriesToken .padded defaultNode untokenedRequest 1000 := by
  have sent : (defaultNode.handleRelayPacket .padded requestOrigin untokenedRequest 1000).2 ≠ [] := by
    decide +kernel
  refine ⟨sent, by decide +kernel, Or.inl sent, ?_⟩
  rintro ⟨packet, token, parsed, decoded, _⟩
  have untokened : (parseRelayPacket untokenedRequest).map (fun packet => packet.authToken) =
      some [] := by decide +kernel
  rw [parsed] at untokened
  have empty : packet.authToken = [] := Option.some.inj untokened
  rw [empty] at decoded
  cases decoded

end Tenet
