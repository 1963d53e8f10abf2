import Tenet.Demux
import Tenet.Events

/-! Two nodes that dial KCP sessions to each other: which sessions reach the other side. -/

namespace Tenet

open Lib

/-- What the kcp-go endpoint behind a connection does with a conversation: the listener takes
any, a dialed session its own. -/
def Node.acceptsConv (n : Node) (conn : VirtualConn) (conv : UInt32) : Bool :=
  match conn with
  | .kcpConn => n.kcpTransport.isSome
  | .handler id => decide (n.kcpTransport.bind (fun t => t.endpoints.get id) = some conv)
  | .punchConn => false
  | .tentConn => false

structure Hosts where
  addr : Side → Bytes
  id : Side → Bytes

inductive RoutingEvent where
  /-- `UpgradePeer` on that node toward the other one, and what kcp-go answers -/
  | upgradePeer (side : Side) (dial : Option UInt32)
  | routePacket (side : Side) (packet : Datagram)
  | readFrom (side : Side) (conn : VirtualConn)
  deriving DecidableEq, Repr

abbrev Nodes := Side → Node

namespace Nodes

def step (hosts : Hosts) (nodes : Nodes) : RoutingEvent → Nodes
  | .upgradePeer side dial => Function.update nodes side
      ((nodes side).upgradePeer (hosts.id side.other) (hosts.addr side.other) dial).1
  | .routePacket side packet => Function.update nodes side
      { nodes side with mux := (nodes side).mux.routePacket packet }
  | .readFrom side conn => Function.update nodes side
      { nodes side with mux := (nodes side).mux.readFrom conn }

def Accepted (hosts : Hosts) (nodes : Nodes) (sender : Side) (conv : UInt32) (body : Bytes) : Prop :=
  ∃ conn,
    (nodes sender.other).mux.Enqueues ⟨kcpDatagram conv body, hosts.addr sender⟩ conn ∧
      (nodes sender.other).acceptsConv conn conv = true

end Nodes

/-- The conversation of the last `UpgradePeer` on that node, unless its dial failed. -/
def lastDial (side : Side) (last : Option UInt32) : List RoutingEvent → Option UInt32
  | [] => last
  | .upgradePeer caller dial :: rest => lastDial side (if caller = side then dial else last) rest
  | _ :: rest => lastDial side last rest

/-- The node's transport is up, and its handler for the address is that of the last dial. -/
def HandlerIs (n : Node) (addr : Bytes) (last : Option UInt32) : Prop :=
  ∃ t, n.kcpTransport = some t ∧
    match last with
    | none => n.mux.kcpHandlers.get addr = none
    | some conv => ∃ id, n.mux.kcpHandlers.get addr = some id ∧ t.endpoints.get id = some conv

theorem handlerIs_upgradePeer (n : Node) (peerID addr : Bytes) (last dial : Option UInt32)
    (before : HandlerIs n addr last) : HandlerIs (n.upgradePeer peerID addr dial).1 addr dial := by
  rcases before with ⟨t, up, _⟩
  unfold Node.upgradePeer
  rw [up]
  cases dial with
  | none =>
      refine ⟨t, rfl, ?_⟩
      change ((n.mux.registerKCPHandler addr).1.unregisterKCPHandler addr).kcpHandlers.get addr = none
      rw [UDPMux.unregisterKCPHandler, GoMap.get_delete, if_pos rfl]
  | some conv =>
      refine ⟨_, rfl, n.mux.registered, ?_, ?_⟩
      · change (n.mux.registerKCPHandler addr).1.kcpHandlers.get addr = some n.mux.registered
        rw [UDPMux.registerKCPHandler, GoMap.get_set, if_pos rfl]
      · change (t.endpoints.set n.mux.registered conv).get n.mux.registered = some conv
        rw [GoMap.get_set, if_pos rfl]

theorem handlerIs_mux (n : Node) (addr : Bytes) (last : Option UInt32) (mux : UDPMux)
    (same : mux.kcpHandlers = n.mux.kcpHandlers) (before : HandlerIs n addr last) :
    HandlerIs { n with mux } addr last := by
  rcases before with ⟨t, up, handler⟩
  refine ⟨t, up, ?_⟩
  cases last with
  | none =>
      change mux.kcpHandlers.get addr = none
      rw [same]
      exact handler
  | some conv =>
      change ∃ id, mux.kcpHandlers.get addr = some id ∧ _
      rw [same]
      exact handler

theorem handlerIs_run (hosts : Hosts) (side : Side) (events : List RoutingEvent) (nodes : Nodes)
    (last : Option UInt32) (before : HandlerIs (nodes side) (hosts.addr side.other) last) :
    HandlerIs (Run.run (Nodes.step hosts) nodes events side) (hosts.addr side.other)
      (lastDial side last events) := by
  induction events generalizing nodes last with
  | nil => exact before
  | cons event rest ih =>
      rw [Run.run_cons]
      cases event with
      | upgradePeer caller dial =>
          apply ih
          by_cases here : caller = side
          · subst here
            rw [if_pos rfl, Nodes.step, Function.update_self]
            exact handlerIs_upgradePeer _ _ _ last dial before
          · rw [if_neg here, Nodes.step, Function.update_of_ne (Ne.symm here)]
            exact before
      | routePacket host packet =>
          apply ih
          by_cases here : host = side
          · subst here
            rw [Nodes.step, Function.update_self]
            exact handlerIs_mux _ _ last _ (UDPMux.kcpHandlers_routePacket _ packet) before
          · rw [Nodes.step, Function.update_of_ne (Ne.symm here)]
            exact before
      | readFrom host conn =>
          apply ih
          by_cases here : host = side
          · subst here
            rw [Nodes.step, Function.update_self]
            exact handlerIs_mux _ _ last _ rfl before
          · rw [Nodes.step, Function.update_of_ne (Ne.symm here)]
            exact before

theorem acceptsConv_kcpTarget (n : Node) (addr : Bytes) (last : Option UInt32) (conv : UInt32)
    (handler : HandlerIs n addr last) :
    n.acceptsConv (n.mux.kcpTarget addr) conv = true ↔ last = none ∨ last = some conv := by
  rcases handler with ⟨t, up, handler⟩
  cases last with
  | none =>
      have listener : n.mux.kcpTarget addr = .kcpConn := by
        change n.mux.kcpHandlers.get addr = none at handler
        unfold UDPMux.kcpTarget
        rw [handler]
      rw [listener, Node.acceptsConv, up]
      exact iff_of_true rfl (Or.inl rfl)
  | some dialed =>
      rcases handler with ⟨id, registered, endpoint⟩
      have dedicated : n.mux.kcpTarget addr = .handler id := by
        unfold UDPMux.kcpTarget
        rw [registered]
      rw [dedicated, Node.acceptsConv, up, Option.bind_some, endpoint, decide_eq_true_eq]
      simp only [reduceCtorEq, false_or]

def startedNodes (env : Env) (cfg : Side → Config) (identity : Side → Identity) : Nodes :=
  fun side => startedNode env (cfg side) (identity side) true

/-- After any calls of `UpgradePeer` on the two nodes, and any traffic in between: a datagram of a
conversation that one node dials is taken on the other exactly if its id does not collide with
the classifier, the queue has room, and the other node's own last dial failed, never happened, or
drew the same id. -/
theorem kcp_accepted_iff (env : Env) (hosts : Hosts) (cfg : Side → Config)
    (identity : Side → Identity) (events : List RoutingEvent) (sender : Side) (conv : UInt32)
    (body : Bytes) :
    Nodes.Accepted hosts (Run.run (Nodes.step hosts) (startedNodes env cfg identity) events) sender
        conv body ↔
      ¬ ConvCollides conv ∧
      (let mux := (Run.run (Nodes.step hosts) (startedNodes env cfg identity) events sender.other).mux
       mux.hasRoom (mux.kcpTarget (hosts.addr sender)) = true) ∧
      (lastDial sender.other none events = none ∨ lastDial sender.other none events = some conv) := by
  have handler := handlerIs_run hosts sender.other events (startedNodes env cfg identity) none
    ⟨⟨∅, ∅⟩, rfl, GoMap.get_empty _⟩
  rw [Side.other_other] at handler
  have accepts := acceptsConv_kcpTarget _ _ _ conv handler
  unfold Nodes.Accepted
  constructor
  · rintro ⟨conn, enqueued, accepted⟩
    rcases (UDPMux.enqueues_iff _ _ conn).mp enqueued with ⟨target, room⟩
    have clean : ¬ ConvCollides conv := by
      intro collides
      have other := target_of_collision
        (Run.run (Nodes.step hosts) (startedNodes env cfg identity) events sender.other).mux
        conv body (hosts.addr sender) collides
      rw [← target] at other
      cases conn with
      | kcpConn => cases other
      | handler id => cases other
      | punchConn => cases accepted
      | tentConn => cases accepted
    rw [target_of_clean _ conv body _ clean] at target
    subst target
    exact ⟨clean, room, accepts.mp accepted⟩
  · rintro ⟨clean, room, dialed⟩
    exact ⟨_, (UDPMux.enqueues_iff _ _ _).mpr ⟨(target_of_clean _ conv body _ clean).symm, room⟩,
      accepts.mpr dialed⟩

def twoHosts : Hosts where
  addr side := if side = .a then [0x41] else [0x42]
  id side := if side = .a then [0x61] else [0x62]

def bothDialed : Nodes :=
  Run.run (Nodes.step twoHosts)
    (startedNodes .padded (fun _ => defaultConfig) (fun _ => newIdentity .padded [9]))
    [.upgradePeer .a (some 1), .upgradePeer .b (some 2)]

/-- The first node's datagrams go to the handler of the second node's own session. -/
theorem both_dialed_not_accepted :
    (bothDialed .b).mux.Enqueues ⟨kcpDatagram 1 [81, 0], [0x41]⟩ (.handler 0) ∧
      (bothDialed .b).acceptsConv (.handler 0) 1 = false ∧
      ¬ bothDialed.Accepted twoHosts .a 1 [81, 0] := by
  have target : (bothDialed .b).mux.target ⟨kcpDatagram 1 [81, 0], [0x41]⟩ = .handler 0 := by
    decide +kernel
  have refused : (bothDialed .b).acceptsConv (.handler 0) 1 = false := by decide +kernel
  refine ⟨(UDPMux.enqueues_iff _ _ _).mpr ⟨target.symm, by decide +kernel⟩, refused, ?_⟩
  rintro ⟨conn, enqueued, accepted⟩
  have there := ((UDPMux.enqueues_iff _ _ conn).mp enqueued).1
  change conn = (bothDialed .b).mux.target ⟨kcpDatagram 1 [81, 0], [0x41]⟩ at there
  rw [there, target] at accepted
  change (bothDialed .b).acceptsConv (.handler 0) 1 = true at accepted
  rw [refused] at accepted
  cases accepted

end Tenet
