import Tenet.KcpRegistry

/-! What `removePeerWithReconnect` does to the other peers. The peer store and the KCP registry go by
identity, the mux goes by address, and two identities can share an address. -/

namespace Tenet

open Lib

namespace Node

/-- The handler that `UnregisterKCPHandler` finds and closes when the peer is removed. -/
def removalCloses (n : Node) (peerID : Bytes) : Option Nat :=
  if (n.peers.get peerID).isSome then
    (n.kcpSession peerID).bind fun session => n.mux.kcpHandlers.get session.peerAddr
  else none

end Node

/-- The removal of some peer has left everything that belongs to the peer `id` as it was. -/
structure Undisturbed (n : Node) (removed : Node × List Effect) (closes : Option Nat) (id : Bytes) :
    Prop where
  record : removed.1.peers.get id = n.peers.get id
  session : ∀ p session, n.peers.get id = some p → p.session = some session →
    .closeSession session ∉ removed.2
  addresses : ∀ addr, n.addrToPeer.get addr = some id → removed.1.addrToPeer.get addr = some id
  kcpSession : removed.1.kcpSession id = n.kcpSession id
  handler : ∀ kcp addr, n.kcpSession id = some kcp → n.mux.kcpHandlers.get addr = some kcp.handler →
    removed.1.mux.kcpHandlers.get addr = some kcp.handler
  unclosed : ∀ kcp, n.kcpSession id = some kcp → closes ≠ some kcp.handler

/-- The KCP sessions of both go to one address, and the handler there is that of the second. -/
def SharesHandler (n : Node) (removed id : Bytes) : Prop :=
  ∃ session kcp, n.kcpSession removed = some session ∧ n.kcpSession id = some kcp ∧
    session.peerAddr = kcp.peerAddr ∧ n.mux.kcpHandlers.get kcp.peerAddr = some kcp.handler

/-- Handlers are numbered in the order of registration, and the one that a session reads is
registered under the address of that session or nowhere. -/
structure HandlersOwned (n : Node) : Prop where
  sessions : ∀ id session, n.kcpSession id = some session → session.handler < n.mux.registered
  handlers : ∀ addr handler, n.mux.kcpHandlers.get addr = some handler →
    handler < n.mux.registered
  addresses : ∀ id session addr, n.kcpSession id = some session →
    n.mux.kcpHandlers.get addr = some session.handler → addr = session.peerAddr

/-- The session of a record is one with the identity that the record is stored under. -/
def SessionsNamed (env : Env) (n : Node) : Prop :=
  ∀ id p session, n.peers.get id = some p → p.session = some session →
    peerIDOf env session.remotePublicKey = id

section Invariants

variable (env : Env) (aead : Aead) (n : Node)

theorem handlersOwned_congr {after : Node} (owned : HandlersOwned n) (mux : after.mux = n.mux)
    (sessions : ∀ id, after.kcpSession id = n.kcpSession id) : HandlersOwned after := by
  constructor
  · intro id session found
    rw [mux]
    exact owned.sessions id session (sessions id ▸ found)
  · rw [mux]
    exact owned.handlers
  · intro id session addr found
    rw [mux]
    exact owned.addresses id session addr (sessions id ▸ found)

theorem handlersOwned_upgradePeer (owned : HandlersOwned n) (peerID remoteAddr : Bytes)
    (dial : Option UInt32) : HandlersOwned (n.upgradePeer peerID remoteAddr dial).1 := by
  rcases upgradePeer_kcpHandlers n peerID remoteAddr dial with
    ⟨mux, sessions⟩ | ⟨registered, handlers⟩
  · exact handlersOwned_congr n owned mux sessions
  -- a session is the one just dialed, over the newest handler, or it was there
  have stored (id : Bytes) (session : KCPSession)
      (found : (n.upgradePeer peerID remoteAddr dial).1.kcpSession id = some session) :
      n.kcpSession id = some session ∨
        session.handler = n.mux.registered ∧ session.peerAddr = remoteAddr := by
    rcases upgradePeer_kcpSession n peerID remoteAddr dial id with same | ⟨_, _, conv, _, dialed⟩
    · exact Or.inl (same ▸ found)
    · have fresh := dialed.symm.trans found
      cases fresh
      exact Or.inr ⟨rfl, rfl⟩
  constructor
  · intro id session found
    rw [registered]
    rcases stored id session found with before | ⟨newest, _⟩
    · exact Nat.lt_succ_of_lt (owned.sessions id session before)
    · rw [newest]
      exact Nat.lt_succ_self _
  · intro addr handler found
    rw [registered]
    rcases handlers addr handler found with ⟨_, newest⟩ | before
    · rw [newest]
      exact Nat.lt_succ_self _
    · exact Nat.lt_succ_of_lt (owned.handlers addr handler before)
  · intro id session addr found read
    rcases handlers addr session.handler read with ⟨here, newest⟩ | before
    · rcases stored id session found with earlier | ⟨_, dialed⟩
      · exact absurd newest (Nat.ne_of_lt (owned.sessions id session earlier))
      · rw [here, dialed]
    · rcases stored id session found with earlier | ⟨newest, _⟩
      · exact owned.addresses id session addr earlier before
      · exact absurd newest (Nat.ne_of_lt (owned.handlers addr session.handler before))

theorem handlersOwned_removeSession (owned : HandlersOwned n) (peerID : Bytes) :
    HandlersOwned (n.removeSession peerID) := by
  have stored (id : Bytes) (session : KCPSession)
      (found : (n.removeSession peerID).kcpSession id = some session) :
      n.kcpSession id = some session := by
    rw [removeSession_kcpSession] at found
    split at found
    · cases found
    · exact found
  have handlers (addr : Bytes) (handler : Nat)
      (found : (n.removeSession peerID).mux.kcpHandlers.get addr = some handler) :
      n.mux.kcpHandlers.get addr = some handler := by
    rw [removeSession_kcpHandlers] at found
    split at found
    · cases found
    · exact found
  constructor
  · intro id session found
    rw [removeSession_registered]
    exact owned.sessions id session (stored id session found)
  · intro addr handler found
    rw [removeSession_registered]
    exact owned.handlers addr handler (handlers addr handler found)
  · intro id session addr found read
    exact owned.addresses id session addr (stored id session found) (handlers addr _ read)

theorem handlersOwned_handleSessionEnds (owned : HandlersOwned n) (handler : Nat) :
    HandlersOwned (n.handleSessionEnds handler) := by
  have stored (id : Bytes) (session : KCPSession)
      (found : (n.handleSessionEnds handler).kcpSession id = some session) :
      ∃ before, n.kcpSession id = some before ∧ session.handler = before.handler ∧
        session.peerAddr = before.peerAddr := by
    rw [handleSessionEnds_kcpSession] at found
    obtain ⟨before, earlier, made⟩ := Option.map_eq_some_iff.mp found
    refine ⟨before, earlier, ?_⟩
    split at made
    · rw [← made]
      exact ⟨rfl, rfl⟩
    · rw [made]
      exact ⟨rfl, rfl⟩
  constructor
  · intro id session found
    obtain ⟨before, earlier, same, _⟩ := stored id session found
    rw [same]
    exact owned.sessions id before earlier
  · exact owned.handlers
  · intro id session addr found read
    obtain ⟨before, earlier, same, address⟩ := stored id session found
    rw [same] at read
    rw [address]
    exact owned.addresses id before addr earlier read

theorem handlersOwned_change {after : Node} (change : RegistryChange n after)
    (owned : HandlersOwned n) : HandlersOwned after := by
  cases change with
  | none mux kcpTransport =>
      exact handlersOwned_congr n owned mux (kcpSession_congr n kcpTransport)
  | dialed peerID dial p stored mux kcpTransport =>
      exact handlersOwned_congr _ (handlersOwned_upgradePeer n owned peerID p.addr.text dial) mux
        (kcpSession_congr _ kcpTransport)
  | removed peerID gone mux kcpTransport =>
      exact handlersOwned_congr _ (handlersOwned_removeSession n owned peerID) mux
        (kcpSession_congr _ kcpTransport)

theorem handlersOwned_step (event : KcpEvent) (owned : HandlersOwned n) :
    HandlersOwned (n.kcpStep env aead event) := by
  cases event with
  | perform activity =>
      cases upgrade : activity.isUpgrade with
      | false => exact handlersOwned_change n (perform_registry env aead n activity upgrade) owned
      | true =>
          cases activity with
          | upgradePeer peerID remoteAddr dial =>
              exact handlersOwned_upgradePeer n owned peerID remoteAddr dial
          | _ => cases upgrade
  | removeSession peerID => exact handlersOwned_removeSession n owned peerID
  | handleSessionEnds handler => exact handlersOwned_handleSessionEnds n owned handler

theorem sessionsNamed_keys (named : SessionsNamed env n) {id : Bytes} {p q : Peer}
    (before : n.peers.get id = some p) (keys : q.keys = p.keys) {session : Session}
    (live : q.session = some session) : peerIDOf env session.remotePublicKey = id := by
  rw [Peer.keys, Peer.keys, live, Option.map_some] at keys
  obtain ⟨earlier, was, same⟩ := Option.map_eq_some_iff.mp keys.symm
  have remote : earlier.remoteStaticKey = session.remoteStaticKey :=
    congrArg (fun keys => keys.2.2) same
  have identity := named id p earlier before was
  rwa [Session.remotePublicKey, remote] at identity

theorem sessionsNamed_perform (activity : Activity) (named : SessionsNamed env n) :
    SessionsNamed env (n.perform env aead activity).1 := by
  intro id q session stored live
  rcases perform_cases env aead n activity with
    ⟨kept, _⟩ | ⟨_, _, _, _, _, _, fresh, _, rekeyed, _⟩ | ⟨peerID, p, _, _, _, _, opened⟩
  · obtain ⟨p, before, follows⟩ := kept id q stored
    exact sessionsNamed_keys env n named before follows.keys live
  · rcases rekeyed id q stored with ⟨p, before, follows⟩ | ⟨identity, replaced, _⟩
    · exact sessionsNamed_keys env n named before follows.keys live
    · rw [replaced] at live
      cases live
      exact identity.symm
  · obtain ⟨r, peers, sameID, keys, _⟩ := opened.record
    rw [peers, PeerStore.get_add] at stored
    split at stored
    · next same =>
        cases stored
        rw [same, sameID, n.peers.get_id peerID p opened.stored]
        exact sessionsNamed_keys env n named opened.stored keys live
    · exact named id q session stored live

theorem sessionsNamed_step (event : KcpEvent) (named : SessionsNamed env n) :
    SessionsNamed env (n.kcpStep env aead event) := by
  cases event with
  | perform activity => exact sessionsNamed_perform env aead n activity named
  | removeSession peerID =>
      obtain ⟨mux, kcpTransport, same⟩ := n.removeSession_frame peerID
      rw [Node.kcpStep, same]
      exact named
  | handleSessionEnds handler => exact named

theorem reached_invariants (cfg : Config) (identity : Identity) (kcpStarted : Bool)
    (events : List KcpEvent) :
    let n := Run.run (Node.kcpStep env aead) (startedNode env cfg identity kcpStarted) events
    HandlersOwned n ∧ SessionsNamed env n := by
  apply Run.run_invariant (Q := fun n => HandlersOwned n ∧ SessionsNamed env n)
  · refine ⟨⟨?_, ?_, ?_⟩, ?_⟩
    · intro id session found
      cases kcpStarted <;> cases found
    · intro addr handler found
      cases found
    · intro id session addr found
      cases kcpStarted <;> cases found
    · intro id p session stored
      rw [startedNode_peers] at stored
      cases stored
  · intro n event both
    exact ⟨handlersOwned_step env aead n event both.1, sessionsNamed_step env aead n event both.2⟩

end Invariants

section Removal

variable (env : Env) (n : Node) (removed id : Bytes) (shouldReconnect : Bool)

theorem removePeerWithReconnect_kcpSession (p : Peer) (stored : n.peers.get removed = some p)
    (other : id ≠ removed) :
    (n.removePeerWithReconnect removed shouldReconnect).1.kcpSession id = n.kcpSession id := by
  have same : (n.removePeerWithReconnect removed shouldReconnect).1.kcpTransport =
      (n.removeSession removed).kcpTransport := by
    rw [Node.removePeerWithReconnect, stored]
  rw [kcpSession_congr _ same, removeSession_kcpSession, if_neg other]

theorem removePeerWithReconnect_kcpHandlers (p : Peer) (stored : n.peers.get removed = some p)
    (addr : Bytes) :
    (n.removePeerWithReconnect removed shouldReconnect).1.mux.kcpHandlers.get addr =
      if ∃ session, n.kcpSession removed = some session ∧ addr = session.peerAddr then none
      else n.mux.kcpHandlers.get addr := by
  rw [← removeSession_kcpHandlers, Node.removePeerWithReconnect, stored]

theorem removePeerWithReconnect_closes (p : Peer) (stored : n.peers.get removed = some p)
    (session : Session)
    (closes : .closeSession session ∈ (n.removePeerWithReconnect removed shouldReconnect).2) :
    p.session = some session := by
  rw [Node.removePeerWithReconnect, stored] at closes
  dsimp only at closes
  rcases List.mem_append.mp closes with closing | reconnect
  · rcases List.mem_append.mp closing with own | callback
    · rcases List.mem_append.mp own with sessions | conns
      · obtain ⟨closed, member, same⟩ := List.mem_map.mp sessions
        cases same
        exact Option.mem_toList.mp member
      · split at conns
        · obtain ⟨conn, _, same⟩ := List.mem_map.mp conns
          cases same
        · cases conns
    · split at callback
      · cases List.mem_singleton.mp callback
      · cases callback
  · split at reconnect
    · cases List.mem_singleton.mp reconnect
    · cases reconnect

theorem undisturbed_iff (owned : HandlersOwned n) (named : SessionsNamed env n) (p : Peer)
    (stored : n.peers.get removed = some p) (other : id ≠ removed) :
    Undisturbed n (n.removePeerWithReconnect removed shouldReconnect) (n.removalCloses removed) id ↔
      ¬ SharesHandler n removed id := by
  constructor
  · rintro undisturbed ⟨session, kcp, dialed, found, same, reads⟩
    apply undisturbed.unclosed kcp found
    simp only [Node.removalCloses, stored, Option.isSome_some, if_true, dialed, Option.bind_some, same,
      reads]
  · intro apart
    -- the handler under the address of the removed session is not the one that the peer reads
    have reads (session kcp : KCPSession) (dialed : n.kcpSession removed = some session)
        (found : n.kcpSession id = some kcp) :
        n.mux.kcpHandlers.get session.peerAddr ≠ some kcp.handler := by
      intro handler
      have here := owned.addresses id kcp session.peerAddr found handler
      rw [here] at handler
      exact apart ⟨session, kcp, dialed, found, here, handler⟩
    constructor
    · rw [removePeerWithReconnect_peers, if_neg other]
    · intro q session present live closing
      have own := removePeerWithReconnect_closes n removed shouldReconnect p stored session closing
      exact other ((named id q session present live).symm.trans
        (named removed p session stored own))
    · intro addr mapped
      rw [removePeerWithReconnect_addrToPeer, if_neg, mapped]
      rintro ⟨_, here⟩
      rw [mapped] at here
      exact other (Option.some.inj here)
    · exact removePeerWithReconnect_kcpSession n removed id shouldReconnect p stored other
    · intro kcp addr found handler
      rw [removePeerWithReconnect_kcpHandlers n removed shouldReconnect p stored addr, if_neg, handler]
      rintro ⟨session, dialed, rfl⟩
      exact reads session kcp dialed found handler
    · intro kcp found closing
      simp only [Node.removalCloses, stored, Option.isSome_some, if_true] at closing
      obtain ⟨session, dialed, handler⟩ := Option.bind_eq_some_iff.mp closing
      exact reads session kcp dialed found handler

end Removal

/-- In every state that a node can reach, removing one of two peers leaves the other alone exactly if
it does not read its KCP session from the handler under the removed peer's address. -/
theorem removal_undisturbed_iff (env : Env) (aead : Aead) (cfg : Config) (identity : Identity)
    (kcpStarted : Bool) (events : List KcpEvent) (removed id : Bytes) (shouldReconnect : Bool) :
    let n := Run.run (Node.kcpStep env aead) (startedNode env cfg identity kcpStarted) events
    (n.peers.get removed).isSome = true → (n.peers.get id).isSome = true → removed ≠ id →
      (Undisturbed n (n.removePeerWithReconnect removed shouldReconnect) (n.removalCloses removed)
          id ↔ ¬ SharesHandler n removed id) := by
  intro n present _ different
  obtain ⟨owned, named⟩ := reached_invariants env aead cfg identity kcpStarted events
  obtain ⟨p, stored⟩ := Option.isSome_iff_exists.mp present
  exact undisturbed_iff env n removed id shouldReconnect owned named p stored different.symm

namespace SharedAddress

def start : Node :=
  startedNode .padded { defaultConfig with networkPassword := [1] } (newIdentity .padded [9]) true

def connects (addr : Bytes) (sent drawn static : Key) : List KcpEvent :=
  let answer : Message := .two (.one sent) (prologuePrefix ++ [1]) drawn [9]
  [.perform (.handshake none ⟨.udp, addr⟩ .udp (.one sent) drawn 0),
    .perform (.handshake none ⟨.udp, addr⟩ .udp (.three answer static) drawn 0)]

def sends (static : Key) (conv : UInt32) : KcpEvent :=
  .perform (.sendAppFrame (peerIDOf .padded static) appFrameTypeUserWithChannel [1] (some conv)
    fun _ => true)

def restarted : List KcpEvent :=
  connects [20] [1] [3] [5] ++ [sends [5] 7] ++ connects [20] [2] [4] [6] ++ [sends [6] 8]

def elsewhere : List KcpEvent :=
  connects [20] [1] [3] [5] ++ [sends [5] 7] ++ connects [30] [2] [4] [6] ++ [sends [6] 8]

def node (events : List KcpEvent) : Node :=
  Run.run (Node.kcpStep .padded IdealAead.tagged.toAead) start events

theorem removal_undisturbed_elsewhere :
    Undisturbed (node elsewhere)
      ((node elsewhere).removePeerWithReconnect (peerIDOf .padded [5]) true)
      ((node elsewhere).removalCloses (peerIDOf .padded [5])) (peerIDOf .padded [6]) := by
  have sessions : (node elsewhere).kcpSession (peerIDOf .padded [5]) = some ⟨0, 7, [20], false⟩ ∧
      (node elsewhere).kcpSession (peerIDOf .padded [6]) = some ⟨1, 8, [30], false⟩ := by
    decide +kernel
  refine (removal_undisturbed_iff .padded IdealAead.tagged.toAead
    { defaultConfig with networkPassword := [1] } (newIdentity .padded [9]) true elsewhere
    (peerIDOf .padded [5]) (peerIDOf .padded [6]) true (by decide +kernel) (by decide +kernel)
    (by decide +kernel)).mpr ?_
  rintro ⟨session, kcp, dialed, found, same, _⟩
  cases sessions.1.symm.trans dialed
  cases sessions.2.symm.trans found
  cases same

/-- When the peer of before the restart times out, the handler that the peer of after it reads is
closed and unregistered, while its record and its KCP session stay. -/
theorem restarted_peer_cut_off :
    let n := node restarted
    let removed := n.removePeerWithReconnect (peerIDOf .padded [5]) true
    (n.peers.get (peerIDOf .padded [5])).isSome = true ∧
      (removed.1.peers.get (peerIDOf .padded [6])).isSome = true ∧
      removed.1.kcpSession (peerIDOf .padded [6]) = some ⟨1, 8, [20], false⟩ ∧
      n.mux.kcpHandlers.get [20] = some 1 ∧ n.removalCloses (peerIDOf .padded [5]) = some 1 ∧
      removed.1.mux.kcpHandlers.get [20] = none ∧
      ¬ Undisturbed n removed (n.removalCloses (peerIDOf .padded [5])) (peerIDOf .padded [6]) := by
  intro n removed
  have closes : n.removalCloses (peerIDOf .padded [5]) = some 1 := by decide +kernel
  have found : n.kcpSession (peerIDOf .padded [6]) = some ⟨1, 8, [20], false⟩ := by decide +kernel
  refine ⟨by decide +kernel, by decide +kernel, by decide +kernel, by decide +kernel, closes,
    by decide +kernel, ?_⟩
  intro undisturbed
  exact undisturbed.unclosed _ found closes

end SharedAddress

end Tenet
