import Tenet.Lib.Mark
import Tenet.Lib.Run
import Tenet.PendingExpiry

/-! The mark `rehandshakeInFlight` of one peer record: who sets it and who clears it, while the answers
to the handshakes come in. -/

namespace Tenet

open Lib

/-- Where a call of `triggerFastRehandshake` stands that has set the mark, with its goroutine. `ended`
says whether it has called `EndRehandshake`. -/
inductive RehandshakePoint where
  | reserve
  | throttled
  | resetFailures
  | locate
  | unaddressed
  | launch
  | send
  | succeeded
  | failed
  | findRecord (ended : Bool)
  | removeSession (ended : Bool) (stored : Nat)
  | closeRecord (ended : Bool) (stored : Nat)
  | dropAddrs (ended : Bool)
  | dropRecord (ended : Bool)
  | finish
  | returned
  deriving DecidableEq, Repr

namespace RehandshakePoint

def inside : RehandshakePoint → Bool
  | .findRecord ended => !ended
  | .removeSession ended _ => !ended
  | .closeRecord ended _ => !ended
  | .dropAddrs ended => !ended
  | .dropRecord ended => !ended
  | .returned => false
  | _ => true

def ends : RehandshakePoint → Bool
  | .throttled => true
  | .unaddressed => true
  | .finish => true
  | _ => false

def removed (ended : Bool) : RehandshakePoint := if ended then .returned else .finish

def sent : RehandshakeSend → RehandshakePoint
  | .busy => .finish
  | .failed => .failed
  | .written => .succeeded

end RehandshakePoint

structure RehandshakeInput where
  now : Int
  closing : Bool := false
  ephemeral : Key := []
  accepted : Bool := true

/-- The calls on one record, in the order in which they set its mark. `owner` set the mark that is on,
`lost` are the calls whose mark somebody else has cleared. -/
structure Rehandshaking where
  hub : Hub
  attempts : List RehandshakePoint := []
  owner : Option Nat := none
  lost : List Nat := []

inductive RehandshakeEvent where
  | trigger
  | advance (index : Nat) (input : RehandshakeInput)
  | hub (event : HubEvent)
  | close

namespace Rehandshaking

section Step

variable (env : Env) (cfg : FastRehandshakeConfig) (peerID : Bytes) (record : Nat)

def peer (s : Rehandshaking) : Option Peer := s.hub.shared.peers.deref record

def marked (s : Rehandshaking) : Bool := (s.peer record).any (·.rehandshake.inFlight)

def inside (s : Rehandshaking) (index : Nat) : Bool := (s.attempts[index]?).any (·.inside)

def withShared (s : Rehandshaking) (shared : Shared) : Rehandshaking :=
  { s with hub := { s.hub with shared } }

def withPeers (s : Rehandshaking) (peers : RefMap Bytes Peer) : Rehandshaking :=
  s.withShared { s.hub.shared with peers }

def withNode (s : Rehandshaking) (update : Node → Node) : Rehandshaking :=
  s.withShared { s.hub.shared with node := update s.hub.shared.node }

def change (s : Rehandshaking) (update : Peer → Peer) : Rehandshaking :=
  s.withPeers (s.hub.shared.peers.modify record update)

def move (s : Rehandshaking) (index : Nat) (point : RehandshakePoint) : Rehandshaking :=
  { s with attempts := s.attempts.set index point }

/-- Whoever held the mark has lost it if this step cleared it. -/
def settle (s after : Rehandshaking) : Rehandshaking :=
  if s.marked record && !after.marked record then
    { after with owner := none, lost := s.lost ++ s.owner.toList }
  else after

def endRehandshake (s : Rehandshaking) (index : Nat) (next : RehandshakePoint) : Rehandshaking :=
  { (s.change record (·.endRehandshake)).move index next with
    owner := none
    lost := s.lost ++ (s.owner.filter (· ≠ index)).toList }

def advance (s : Rehandshaking) (index : Nat) (input : RehandshakeInput) :
    RehandshakePoint → Rehandshaking
  | .reserve =>
      match s.peer record with
      | none => s
      | some p =>
          let reserved := p.reserveRehandshakeAttempt input.now cfg.window cfg.maxAttemptsWindow
          (s.change record fun _ => reserved.1).move index
            (if reserved.2.1 then .resetFailures else .throttled)
  | .throttled => s.endRehandshake record index .returned
  | .resetFailures => (s.change record (·.resetDecryptFailures)).move index .locate
  | .locate =>
      let unaddressed := (s.peer record).all fun p =>
        decide ((if p.originalAddr = [] then p.addr.text else p.originalAddr) = [])
      s.move index (if unaddressed then .unaddressed else .launch)
  | .unaddressed => s.endRehandshake record index (.findRecord true)
  | .launch => s.move index (if input.closing then .finish else .send)
  | .send =>
      match s.peer record with
      | none => s
      | some p =>
          let sent := s.hub.shared.sendFastRehandshake p input.ephemeral input.now input.accepted
          (s.withShared sent.1).move index (.sent sent.2)
  | .succeeded =>
      (s.change record (·.recordRehandshakeSuccess input.now cfg.baseBackoff)).move index .finish
  | .failed =>
      match s.peer record with
      | none => s
      | some p =>
          let recorded := p.recordRehandshakeFailure input.now cfg.baseBackoff cfg.maxBackoff
          (s.change record fun _ => recorded.1).move index
            (if (recorded.2.1 : Int) ≥ cfg.failThreshold then .findRecord false else .finish)
  | .findRecord ended =>
      match s.hub.shared.peers.find peerID with
      | none => s.move index (.removed ended)
      | some stored => s.move index (.removeSession ended stored)
  | .removeSession ended stored =>
      (s.withNode (·.removeSession peerID)).move index (.closeRecord ended stored)
  | .closeRecord ended stored =>
      (s.settle record (s.withPeers (s.hub.shared.peers.modify stored (·.close.1)))).move index
        (.dropAddrs ended)
  | .dropAddrs ended =>
      (s.withNode fun n => { n with
        addrToPeer := n.addrToPeer.retain fun _ id => decide (id ≠ peerID) }).move index
        (.dropRecord ended)
  | .dropRecord ended =>
      (s.withPeers (s.hub.shared.peers.delete peerID)).move index (.removed ended)
  | .finish => s.endRehandshake record index .returned
  | .returned => s

def step (s : Rehandshaking) : RehandshakeEvent → Rehandshaking
  | .trigger =>
      match (s.peer record).bind (·.tryBeginRehandshake) with
      | none => s
      | some p =>
          { s.change record fun _ => p with
            attempts := s.attempts ++ [.reserve]
            owner := some s.attempts.length }
  | .advance index input =>
      match s.attempts[index]? with
      | none => s
      | some point => s.advance cfg peerID record index input point
  | .hub event => s.settle record { s with hub := s.hub.step env event }
  | .close => s.settle record (s.change record (·.close.1))

def Exclusive (s : Rehandshaking) : Prop :=
  ∀ one other, s.inside one = true → s.inside other = true → one = other

/-- If this is an `EndRehandshake` that clears the mark, the call itself has set it. -/
def EndsOwn (s : Rehandshaking) : RehandshakeEvent → Prop
  | .advance index _ => (s.attempts[index]?).any (·.ends) = true → s.marked record = true →
      s.owner = some index
  | _ => True

/-- No trigger comes while a call is not through whose mark was cleared. -/
def Undisturbed (s : Rehandshaking) : RehandshakeEvent → Prop
  | .trigger => ∀ index ∈ s.lost, s.inside index = false
  | _ => True

end Step

end Rehandshaking

def Peer.Unmarking (change : Peer → Peer) : Prop :=
  ∀ p, (change p).rehandshake.inFlight = true → p.rehandshake.inFlight = true

theorem upgradeTransport_unmarking (addr : NetAddr) (conn : Option ConnId) (transport : Transport)
    (session : Session) (now : Int) :
    Peer.Unmarking fun p => (p.upgradeTransport addr conn transport session now).1 := by
  intro p
  dsimp only [Peer.upgradeTransport]
  split
  · exact id
  · exact fun marked => absurd marked Bool.false_ne_true

theorem close_unmarking : Peer.Unmarking fun p => p.close.1 :=
  fun _ marked => absurd marked Bool.false_ne_true

theorem relayLinked_unmarking (n : Node) (addr : Bytes) :
    Peer.Unmarking fun p => n.relayLinked p addr := by
  intro p
  dsimp only [Node.relayLinked]
  split
  · exact id
  · split <;> exact id

def Unmarked (record : Nat) (before after : RefMap Bytes Peer) : Prop :=
  ∀ p, before.deref record = some p → ∃ p', after.deref record = some p' ∧
    (p'.rehandshake.inFlight = true → p.rehandshake.inFlight = true)

theorem unmarked_refl (record : Nat) (peers : RefMap Bytes Peer) : Unmarked record peers peers :=
  fun p held => ⟨p, held, id⟩

theorem unmarked_modify (record : Nat) (peers : RefMap Bytes Peer) (ref : Nat)
    {change : Peer → Peer} (unmarking : Peer.Unmarking change) :
    Unmarked record peers (peers.modify ref change) := by
  intro p held
  rw [RefMap.deref_modify, held, Option.map_some]
  refine ⟨_, rfl, ?_⟩
  split
  · exact unmarking p
  · exact id

theorem unmarked_put (record : Nat) (peers : RefMap Bytes Peer) (id : Bytes) (p : Peer) :
    Unmarked record peers (peers.put id p) := by
  intro stored held
  have older : record ≠ peers.objects.length :=
    Nat.ne_of_lt (List.getElem?_eq_some_iff.mp held).1
  refine ⟨stored, ?_, fun marked => marked⟩
  exact (peers.deref_alloc p record).trans ((if_neg older).trans held)

theorem Shared.step_unmarked (env : Env) (s : Shared) (call : HandshakeCall) (phase : CallPhase)
    (record : Nat) : Unmarked record s.peers (s.step env call phase).1.peers := by
  cases phase with
  | addPeer p onConnected => exact unmarked_put record s.peers p.id p
  | switchRecord session ref =>
      exact unmarked_modify record s.peers ref (upgradeTransport_unmarking _ _ _ session _)
  | refreshRecord session ref =>
      exact unmarked_modify record s.peers ref (upgradeTransport_unmarking _ _ _ session _)
  | linkRecord session ref =>
      exact unmarked_modify record s.peers ref (relayLinked_unmarking s.node call.remoteAddr.text)
  | touchRecord session ref => exact unmarked_modify record s.peers ref fun _ => id
  | lookup | process | lookupPeer | checkCapacity | candidate =>
      simp only [Shared.step]
      split <;> exact unmarked_refl record s.peers
  | failed | dropState | reply | clearPending | recordAddr | compare | switchTables | addRelay =>
      exact unmarked_refl record s.peers

theorem Hub.step_unmarked (env : Env) (h : Hub) (event : HubEvent) (record : Nat) :
    Unmarked record h.shared.peers (h.step env event).shared.peers := by
  cases event with
  | call call => exact unmarked_refl record h.shared.peers
  | removePeer peerID => exact unmarked_refl record h.shared.peers
  | advance index =>
      rcases h.advance_cases env index with ⟨same, _⟩ | ⟨call, phase, stands⟩
      · rw [same]
        exact unmarked_refl record h.shared.peers
      · rw [h.step_advance env index call phase stands]
        exact h.shared.step_unmarked env call phase record

theorem openWindow_inFlight (r : Rehandshake) (now window : Int) :
    (Peer.openWindow r now window).inFlight = r.inFlight := by
  unfold Peer.openWindow
  split
  · split <;> rfl
  · rfl

theorem reserveRehandshakeAttempt_inFlight (p : Peer) (now window maxInWindow : Int) :
    (p.reserveRehandshakeAttempt now window maxInWindow).1.rehandshake.inFlight =
      p.rehandshake.inFlight := by
  have opened := openWindow_inFlight p.rehandshake now window
  unfold Peer.reserveRehandshakeAttempt
  split
  · rfl
  · dsimp only
    split
    · split
      · exact opened
      · exact opened
    · split <;> rfl

theorem sendFastRehandshake_peers (s : Shared) (p : Peer) (ephemeral : Key) (now : Int)
    (accepted : Bool) : (s.sendFastRehandshake p ephemeral now accepted).1.peers = s.peers := by
  unfold Shared.sendFastRehandshake
  split
  · rfl
  split
  · rfl
  dsimp only
  split <;> rfl

namespace Rehandshaking

variable {env : Env} {cfg : FastRehandshakeConfig} {peerID : Bytes} {record : Nat}
  {s s' between : Rehandshaking}

def mark (s : Rehandshaking) : Mark := ⟨s.owner, fun index => s.inside index = true, (· ∈ s.lost)⟩

structure Tracked (record : Nat) (s : Rehandshaking) : Prop where
  stored : (s.peer record).isSome = true
  flag : s.marked record = s.owner.isSome
  sound : s.mark.Sound
  bounded : ∀ index ∈ s.lost, index < s.attempts.length

structure Leads (record : Nat) (s' : Rehandshaking) (owner : Option Nat) (lost : List Nat)
    (inside : Nat → Bool) (count : Nat) : Prop where
  stored : (s'.peer record).isSome = true
  flag : s'.marked record = owner.isSome
  owner : s'.owner = owner
  lost : s'.lost = lost
  inside : ∀ index, s'.inside index = inside index
  count : s'.attempts.length = count

def Quiet (record : Nat) (s s' : Rehandshaking) : Prop :=
  Leads record s' s.owner s.lost s.inside s.attempts.length

def Loses (record : Nat) (s s' : Rehandshaking) : Prop :=
  Leads record s' none (s.lost ++ s.owner.toList) s.inside s.attempts.length

def Ends (record : Nat) (s s' : Rehandshaking) (index : Nat) : Prop :=
  Leads record s' none (s.lost ++ (s.owner.filter (· ≠ index)).toList)
    (fun other => if other = index then false else s.inside other) s.attempts.length

def Begins (record : Nat) (s s' : Rehandshaking) : Prop :=
  Leads record s' (some s.attempts.length) s.lost
    (fun other => if other = s.attempts.length then true else s.inside other)
    (s.attempts.length + 1)

theorem inside_lt {index : Nat} (works : s.inside index = true) : index < s.attempts.length := by
  by_contra beyond
  rw [inside, List.getElem?_eq_none (not_lt.mp beyond)] at works
  cases works

section Marks

theorem Quiet.keeps (quiet : Quiet record s s') : Mark.Keeps s.mark s'.mark where
  owner := quiet.owner
  inside index := by simp only [mark, quiet.inside]
  lost index := by simp only [mark, quiet.lost]

theorem Loses.clears (loses : Loses record s s') : Mark.Clears s.mark s'.mark where
  owner := loses.owner
  inside index := by simp only [mark, loses.inside]
  lost index := by simp only [mark, loses.lost, List.mem_append, Option.mem_toList]

theorem Ends.releases {index : Nat} (ends : Ends record s s' index) :
    Mark.Releases s.mark s'.mark index where
  owner := ends.owner
  inside other := by
    simp only [mark, ends.inside]
    by_cases same : other = index <;> simp [same]
  lost other := by simp [mark, ends.lost, Option.filter_eq_some_iff]

theorem Begins.takes (begins : Begins record s s') (tracked : Tracked record s)
    (free : s.owner = none) : Mark.Takes s.mark s'.mark s.attempts.length where
  free := free
  fresh := ⟨fun works => Nat.lt_irrefl _ (inside_lt works),
    fun lost => Nat.lt_irrefl _ (tracked.bounded _ lost)⟩
  owner := begins.owner
  inside other := by
    simp only [mark, begins.inside]
    by_cases same : other = s.attempts.length <;> simp [same]
  lost other := by simp only [mark, begins.lost]

theorem Leads.tracked {owner : Option Nat} {lost : List Nat} {works : Nat → Bool} {count : Nat}
    (leads : Leads record s' owner lost works count) (sound : s'.mark.Sound)
    (bounded : ∀ index ∈ lost, index < count) : Tracked record s' where
  stored := leads.stored
  flag := by rw [leads.flag, leads.owner]
  sound := sound
  bounded := by
    rw [leads.lost, leads.count]
    exact bounded

theorem Tracked.bounded_owner (tracked : Tracked record s) {losers : List Nat}
    (owners : ∀ index ∈ losers, s.owner = some index) :
    ∀ index ∈ s.lost ++ losers, index < s.attempts.length := by
  intro index listed
  rcases List.mem_append.mp listed with before | owns
  · exact tracked.bounded index before
  · exact inside_lt (tracked.sound.held index (owners index owns)).1

end Marks

section Moves

theorem Quiet.refl (tracked : Tracked record s) : Quiet record s s :=
  ⟨tracked.stored, tracked.flag, rfl, rfl, fun _ => rfl, rfl⟩

theorem Leads.quiet {owner : Option Nat} {lost : List Nat} {works : Nat → Bool} {count : Nat}
    (leads : Leads record between owner lost works count) (quiet : Quiet record between s') :
    Leads record s' owner lost works count where
  stored := quiet.stored
  flag := quiet.flag.trans (congrArg Option.isSome leads.owner)
  owner := quiet.owner.trans leads.owner
  lost := quiet.lost.trans leads.lost
  inside index := (quiet.inside index).trans (leads.inside index)
  count := quiet.count.trans leads.count

theorem inside_eq {index : Nat} {point : RehandshakePoint}
    (stands : s.attempts[index]? = some point) : s.inside index = point.inside := by
  rw [inside, stands, Option.any_some]

theorem inside_move {index : Nat} {point : RehandshakePoint}
    (stands : s.attempts[index]? = some point) (next : RehandshakePoint) (other : Nat) :
    (s.move index next).inside other = if other = index then next.inside else s.inside other := by
  have bound : index < s.attempts.length := (List.getElem?_eq_some_iff.mp stands).1
  rw [inside, move, List.getElem?_set]
  by_cases same : other = index
  · rw [if_pos same, if_pos same.symm, if_pos (same ▸ bound), Option.any_some]
  · rw [if_neg same, if_neg (Ne.symm same), inside]

theorem quiet_move {index : Nat} {point next : RehandshakePoint} (tracked : Tracked record s)
    (stands : s.attempts[index]? = some point) (same : next.inside = point.inside) :
    Quiet record s (s.move index next) where
  stored := tracked.stored
  flag := tracked.flag
  owner := rfl
  lost := rfl
  inside other := by
    rw [inside_move stands]
    split
    next here => rw [here, inside_eq stands, same]
    next => rfl
  count := List.length_set

theorem peer_change (record : Nat) (s : Rehandshaking) (update : Peer → Peer) :
    (s.change record update).peer record = (s.peer record).map update := by
  refine (RefMap.deref_modify s.hub.shared.peers record record update).trans ?_
  simp only [if_true]
  rfl

theorem quiet_change {update : Peer → Peer} {p : Peer} (tracked : Tracked record s)
    (held : s.peer record = some p)
    (kept : (update p).rehandshake.inFlight = p.rehandshake.inFlight) :
    Quiet record s (s.change record update) where
  stored := by rw [peer_change, held, Option.map_some, Option.isSome_some]
  flag := by
    rw [← tracked.flag, marked, marked, peer_change, held, Option.map_some, Option.any_some,
      Option.any_some, kept]
  owner := rfl
  lost := rfl
  inside _ := rfl
  count := rfl

theorem endRehandshake_ends {index : Nat} {point next : RehandshakePoint} {p : Peer}
    (held : s.peer record = some p) (stands : s.attempts[index]? = some point)
    (out : next.inside = false) : Ends record s (s.endRehandshake record index next) index := by
  have peer : (s.endRehandshake record index next).peer record = some p.endRehandshake := by
    refine (peer_change record s (·.endRehandshake)).trans ?_
    rw [held, Option.map_some]
  refine ⟨by rw [peer, Option.isSome_some], by rw [marked, peer]; rfl, rfl, rfl, fun other => ?_,
    List.length_set⟩
  refine (inside_move (s := s.change record (·.endRehandshake)) stands next other).trans ?_
  rw [out]
  rfl

/-- A step on the tables that sets no mark either leaves it or clears it for whoever held it. -/
theorem settle_cases (tracked : Tracked record s) (between : Rehandshaking)
    (unmarked : Unmarked record s.hub.shared.peers between.hub.shared.peers)
    (attempts : between.attempts = s.attempts) (owner : between.owner = s.owner)
    (lost : between.lost = s.lost) :
    Quiet record s (s.settle record between) ∨ Loses record s (s.settle record between) := by
  obtain ⟨p, held⟩ := Option.isSome_iff_exists.mp tracked.stored
  obtain ⟨p', held', mayClear⟩ := unmarked p held
  have stored : (between.peer record).isSome = true := Option.isSome_iff_exists.mpr ⟨p', held'⟩
  have before : s.marked record = p.rehandshake.inFlight := congrArg (Option.any _) held
  have afterwards : between.marked record = p'.rehandshake.inFlight :=
    congrArg (Option.any _) held'
  have same (index : Nat) : between.inside index = s.inside index := by
    rw [inside, inside, attempts]
  unfold settle
  split
  next cleared =>
    rw [Bool.and_eq_true, Bool.not_eq_true'] at cleared
    exact Or.inr ⟨stored, cleared.2, rfl, rfl, same, congrArg List.length attempts⟩
  next left =>
    have flag : between.marked record = s.marked record := by
      rw [before, afterwards] at left ⊢
      cases on : p'.rehandshake.inFlight with
      | true => exact (mayClear on).symm
      | false => simpa [on] using left
    exact Or.inl ⟨stored, flag.trans tracked.flag, owner, lost, same, congrArg List.length attempts⟩

end Moves

section Steps

theorem Quiet.tracks (quiet : Quiet record s s') (tracked : Tracked record s) : Tracked record s' :=
  Leads.tracked quiet (quiet.keeps.sound tracked.sound) tracked.bounded

theorem Loses.tracks (loses : Loses record s s') (tracked : Tracked record s) : Tracked record s' :=
  Leads.tracked loses (loses.clears.sound tracked.sound)
    (tracked.bounded_owner fun _ owns => Option.mem_toList.mp owns)

theorem Ends.tracks {index : Nat} (ends : Ends record s s' index) (tracked : Tracked record s) :
    Tracked record s' :=
  Leads.tracked ends (ends.releases.sound tracked.sound)
    (tracked.bounded_owner fun _ owns =>
      (Option.filter_eq_some_iff.mp (Option.mem_toList.mp owns)).1)

theorem Begins.tracks (begins : Begins record s s') (free : s.owner = none)
    (tracked : Tracked record s) : Tracked record s' :=
  Leads.tracked begins ((begins.takes tracked free).sound tracked.sound)
    (fun index lost => Nat.lt_succ_of_lt (tracked.bounded index lost))

theorem quiet_advance {update : Peer → Peer} {p : Peer} {index : Nat}
    {point next : RehandshakePoint} (tracked : Tracked record s) (held : s.peer record = some p)
    (kept : (update p).rehandshake.inFlight = p.rehandshake.inFlight)
    (stands : s.attempts[index]? = some point) (same : next.inside = point.inside) :
    Quiet record s ((s.change record update).move index next) := by
  have changed := quiet_change tracked held kept
  exact Leads.quiet changed (quiet_move (changed.tracks tracked) stands same)

theorem quiet_shared (tracked : Tracked record s) (shared : Shared)
    (same : ∀ ref, shared.peers.deref ref = s.hub.shared.peers.deref ref) :
    Quiet record s (s.withShared shared) := by
  have peer : (s.withShared shared).peer record = s.peer record := same record
  exact ⟨by rw [peer]; exact tracked.stored, by rw [marked, peer]; exact tracked.flag, rfl, rfl,
    fun _ => rfl, rfl⟩

theorem advance_cases (cfg : FastRehandshakeConfig) (peerID : Bytes) (tracked : Tracked record s)
    {index : Nat} {point : RehandshakePoint} (stands : s.attempts[index]? = some point)
    (input : RehandshakeInput) :
    (point.ends = true ∧ Ends record s (s.advance cfg peerID record index input point) index) ∨
      (point.ends = false ∧ (Quiet record s (s.advance cfg peerID record index input point) ∨
        Loses record s (s.advance cfg peerID record index input point))) := by
  obtain ⟨p, held⟩ := Option.isSome_iff_exists.mp tracked.stored
  have quiet (next : RehandshakePoint) (same : next.inside = point.inside) :=
    quiet_move tracked stands same
  have shared (after : Shared)
      (records : ∀ ref, after.peers.deref ref = s.hub.shared.peers.deref ref)
      {next : RehandshakePoint} (same : next.inside = point.inside) :
      Quiet record s ((s.withShared after).move index next) :=
    Leads.quiet (quiet_shared tracked after records)
      (quiet_move ((quiet_shared tracked after records).tracks tracked) stands same)
  cases point with
  | throttled => exact Or.inl ⟨rfl, endRehandshake_ends held stands rfl⟩
  | unaddressed => exact Or.inl ⟨rfl, endRehandshake_ends held stands rfl⟩
  | finish => exact Or.inl ⟨rfl, endRehandshake_ends held stands rfl⟩
  | reserve =>
      simp only [advance, held]
      refine Or.inr ⟨rfl, Or.inl (quiet_advance tracked held ?_ stands ?_)⟩
      · exact reserveRehandshakeAttempt_inFlight p _ _ _
      · split <;> rfl
  | resetFailures => exact Or.inr ⟨rfl, Or.inl (quiet_advance tracked held rfl stands rfl)⟩
  | locate => exact Or.inr ⟨rfl, Or.inl (quiet _ (by split <;> rfl))⟩
  | launch => exact Or.inr ⟨rfl, Or.inl (quiet _ (by split <;> rfl))⟩
  | send =>
      simp only [advance, held]
      refine Or.inr ⟨rfl, Or.inl (shared _ (fun ref => by rw [sendFastRehandshake_peers]) ?_)⟩
      cases (s.hub.shared.sendFastRehandshake p input.ephemeral input.now input.accepted).2 <;> rfl
  | succeeded => exact Or.inr ⟨rfl, Or.inl (quiet_advance tracked held rfl stands rfl)⟩
  | failed =>
      simp only [advance, held]
      refine Or.inr ⟨rfl, Or.inl (quiet_advance tracked held rfl stands ?_)⟩
      split <;> rfl
  | findRecord ended =>
      refine Or.inr ⟨rfl, Or.inl ?_⟩
      unfold advance
      dsimp only
      split
      · exact quiet _ (by cases ended <;> rfl)
      · exact quiet _ rfl
  | closeRecord ended stored =>
      refine Or.inr ⟨rfl, ?_⟩
      have standsStill : (s.settle record (s.withPeers
          (s.hub.shared.peers.modify stored (·.close.1)))).attempts[index]? =
            some (.closeRecord ended stored) := by
        unfold settle
        split <;> exact stands
      rcases settle_cases tracked (s.withPeers (s.hub.shared.peers.modify stored (·.close.1)))
        (unmarked_modify record s.hub.shared.peers stored close_unmarking) rfl rfl rfl with kept | lost
      · exact Or.inl (Leads.quiet kept (quiet_move (kept.tracks tracked) standsStill rfl))
      · exact Or.inr (Leads.quiet lost (quiet_move (lost.tracks tracked) standsStill rfl))
  | removeSession | dropAddrs =>
      refine Or.inr ⟨rfl, Or.inl (shared _ ?_ ?_)⟩
      · exact fun _ => rfl
      · rfl
  | dropRecord ended =>
      refine Or.inr ⟨rfl, Or.inl (shared _ ?_ ?_)⟩
      · exact fun _ => rfl
      · cases ended <;> rfl
  | returned => exact Or.inr ⟨rfl, Or.inl (.refl tracked)⟩

theorem any_inside_append (points : List RehandshakePoint) (index : Nat) :
    ((points ++ [.reserve])[index]?).any (·.inside) =
      if index = points.length then true else (points[index]?).any (·.inside) := by
  rw [List.getElem?_append]
  rcases Nat.lt_trichotomy index points.length with before | same | beyond
  · rw [if_pos before, if_neg (Nat.ne_of_lt before)]
  · simp [same, RehandshakePoint.inside]
  · have none : [RehandshakePoint.reserve][index - points.length]? = none :=
      List.getElem?_eq_none (by rw [List.length_singleton]; omega)
    rw [if_neg (Nat.not_lt.mpr (Nat.le_of_lt beyond)), if_neg (Nat.ne_of_gt beyond), none,
      List.getElem?_eq_none (Nat.le_of_lt beyond)]

theorem trigger_cases (env : Env) (cfg : FastRehandshakeConfig) (peerID : Bytes)
    (tracked : Tracked record s) :
    (s.owner = none ∧ Begins record s (s.step env cfg peerID record .trigger)) ∨
      (s.owner ≠ none ∧ Quiet record s (s.step env cfg peerID record .trigger)) := by
  obtain ⟨p, held⟩ := Option.isSome_iff_exists.mp tracked.stored
  have flag : p.rehandshake.inFlight = s.owner.isSome := by
    rw [← tracked.flag, marked, held, Option.any_some]
  unfold step
  simp only [held, Option.bind_some, Peer.tryBeginRehandshake]
  by_cases on : p.rehandshake.inFlight = true
  · simp only [on, if_true]
    rw [on] at flag
    exact Or.inr ⟨Option.isSome_iff_ne_none.mp flag.symm, .refl tracked⟩
  · simp only [on]
    rw [Bool.not_eq_true] at on
    rw [on] at flag
    have free := Option.isNone_iff_eq_none.mp (Option.isSome_eq_false_iff.mp flag.symm)
    refine Or.inl ⟨free, ?_⟩
    have peer := peer_change record s fun _ =>
      { p with rehandshake := { p.rehandshake with inFlight := true } }
    rw [held, Option.map_some] at peer
    exact ⟨Option.isSome_iff_exists.mpr ⟨_, peer⟩, congrArg (Option.any _) peer, rfl, rfl,
      any_inside_append s.attempts, List.length_append⟩

theorem step_cases (env : Env) (cfg : FastRehandshakeConfig) (peerID : Bytes)
    (tracked : Tracked record s) (event : RehandshakeEvent) :
    (event = .trigger ∧ s.owner = none ∧ Begins record s (s.step env cfg peerID record event)) ∨
      (event = .trigger ∧ s.owner ≠ none ∧ Quiet record s (s.step env cfg peerID record event)) ∨
      (event ≠ .trigger ∧ ((∃ index, Ends record s (s.step env cfg peerID record event) index) ∨
        Quiet record s (s.step env cfg peerID record event) ∨
        Loses record s (s.step env cfg peerID record event))) := by
  cases event with
  | trigger =>
      rcases trigger_cases env cfg peerID tracked with ⟨free, begins⟩ | ⟨taken, quiet⟩
      · exact Or.inl ⟨rfl, free, begins⟩
      · exact Or.inr (Or.inl ⟨rfl, taken, quiet⟩)
  | advance index input =>
      refine Or.inr (Or.inr ⟨by simp, ?_⟩)
      unfold step
      dsimp only
      split
      · exact Or.inr (Or.inl (.refl tracked))
      next point stands =>
        rcases advance_cases cfg peerID tracked stands input with ⟨_, ends⟩ | ⟨_, other⟩
        · exact Or.inl ⟨index, ends⟩
        · exact Or.inr other
  | hub event =>
      exact Or.inr (Or.inr ⟨by simp, Or.inr (settle_cases tracked _
        (s.hub.step_unmarked env event record) rfl rfl rfl)⟩)
  | close =>
      exact Or.inr (Or.inr ⟨by simp, Or.inr (settle_cases tracked _
        (unmarked_modify record s.hub.shared.peers record close_unmarking) rfl rfl rfl)⟩)

theorem step_tracked (env : Env) (cfg : FastRehandshakeConfig) (peerID : Bytes) (s : Rehandshaking)
    (event : RehandshakeEvent) (tracked : Tracked record s) :
    Tracked record (s.step env cfg peerID record event) := by
  rcases step_cases env cfg peerID tracked event with
    ⟨_, free, begins⟩ | ⟨_, _, quiet⟩ | ⟨_, ⟨_, ends⟩ | quiet | loses⟩
  · exact begins.tracks free tracked
  · exact quiet.tracks tracked
  · exact ends.tracks tracked
  · exact quiet.tracks tracked
  · exact loses.tracks tracked

theorem step_exclusive_iff (env : Env) (cfg : FastRehandshakeConfig) (peerID : Bytes)
    (s : Rehandshaking) (event : RehandshakeEvent) (tracked : Tracked record s)
    (exclusive : s.Exclusive) :
    (s.step env cfg peerID record event).Exclusive ↔ s.Undisturbed event := by
  have intact : s.mark.Intact ↔ ∀ index ∈ s.lost, s.inside index = false := by
    simp only [Mark.Intact, mark, Bool.not_eq_true]
  have other (differs : event ≠ .trigger) : s.Undisturbed event := by
    cases event with
    | trigger => exact absurd rfl differs
    | advance | hub | close => trivial
  rcases step_cases env cfg peerID tracked event with
    ⟨rfl, free, begins⟩ | ⟨rfl, taken, quiet⟩ | ⟨differs, ⟨_, ends⟩ | quiet | loses⟩
  · exact ((begins.takes tracked free).exclusive_iff tracked.sound).trans intact
  · obtain ⟨index, owns⟩ := Option.ne_none_iff_exists'.mp taken
    exact iff_of_true (quiet.keeps.exclusive exclusive)
      (intact.mp (Mark.intact_of_owner tracked.sound exclusive owns))
  · exact iff_of_true (ends.releases.exclusive exclusive) (other differs)
  · exact iff_of_true (quiet.keeps.exclusive exclusive) (other differs)
  · exact iff_of_true (loses.clears.exclusive exclusive) (other differs)

theorem inside_of_ends {index : Nat} (ending : (s.attempts[index]?).any (·.ends) = true) :
    s.inside index = true := by
  unfold inside
  cases stands : s.attempts[index]? with
  | none =>
      rw [stands] at ending
      cases ending
  | some point =>
      rw [stands, Option.any_some] at ending
      rw [Option.any_some]
      cases point <;> first | rfl | cases ending

theorem endsOwn_of_exclusive (tracked : Tracked record s) (exclusive : s.Exclusive)
    (event : RehandshakeEvent) : s.EndsOwn record event := by
  cases event with
  | trigger | hub | close => trivial
  | advance index input =>
      intro ending on
      have owned : s.owner ≠ none := by
        rw [tracked.flag] at on
        exact Option.isSome_iff_ne_none.mp on
      exact Mark.owner_of_exclusive tracked.sound exclusive (inside_of_ends ending) owned

end Steps

def idle (hub : Hub) : Rehandshaking := { hub }

theorem tracked_idle {hub : Hub} {p : Peer} (stored : hub.shared.peers.deref record = some p)
    (unmarked : p.rehandshake.inFlight = false) : Tracked record (idle hub) where
  stored := Option.isSome_iff_exists.mpr ⟨p, stored⟩
  flag := (congrArg (Option.any _) stored).trans unmarked
  sound := ⟨fun _ owns => (by cases owns), fun _ works => (by cases works)⟩
  bounded _ listed := by cases listed

/-- At most one call is in flight, and each clears only its own mark, exactly when no trigger comes
between the loss of a call's mark and that call's own end. -/
theorem one_rehandshake_iff (env : Env) (cfg : FastRehandshakeConfig) (peerID : Bytes) (record : Nat)
    (hub : Hub) (p : Peer) (stored : hub.shared.peers.deref record = some p)
    (unmarked : p.rehandshake.inFlight = false) (events : List RehandshakeEvent) :
    (Run.Throughout (step env cfg peerID record) Exclusive (idle hub) events ∧
        Run.Along (step env cfg peerID record) (EndsOwn record) (idle hub) events) ↔
      Run.Along (step env cfg peerID record) Undisturbed (idle hub) events := by
  have tracked := tracked_idle stored unmarked
  have apart : (idle hub).Exclusive := fun _ _ works => by cases works
  have exactly := Run.throughout_iff_along_under (I := Tracked record) (idle hub) events tracked apart
    (step_tracked env cfg peerID) (step_exclusive_iff env cfg peerID)
  constructor
  · exact fun both => exactly.mp both.1
  · intro undisturbed
    have both := Run.throughout_keeps (Q := fun s => Tracked record s ∧ s.Exclusive) (idle hub) events
      ⟨tracked, apart⟩ undisturbed fun s event known allowed =>
        ⟨step_tracked env cfg peerID s event known.1,
          (step_exclusive_iff env cfg peerID s event known.1 known.2).mpr allowed⟩
    exact ⟨exactly.mpr undisturbed, Run.along_of_throughout (idle hub) events both
      fun s event known => endsOwn_of_exclusive known.1 known.2 event⟩

instance (s : Rehandshaking) (event : RehandshakeEvent) : Decidable (s.Undisturbed event) :=
  match event with
  | .trigger => inferInstanceAs (Decidable (∀ index ∈ s.lost, s.inside index = false))
  | .advance _ _ => inferInstanceAs (Decidable True)
  | .hub _ => inferInstanceAs (Decidable True)
  | .close => inferInstanceAs (Decidable True)

namespace Desync

def peer : Peer :=
  newPeer (peerIDOf .padded [20]) ⟨.udp, [10]⟩ none .udp .p2p none (sessionOf true (.one [6]) [20]) 0

def hub : Hub where
  shared := {
    node := newNode .padded { defaultConfig with networkPassword := [1] } (newIdentity .padded [5])
    pending := ∅
    peers := RefMap.put ∅ peer.id peer }
  calls := []

def answer : HandshakeCall :=
  ⟨none, ⟨.udp, [10]⟩, .udp,
    .two (.one [3]) (hub.shared.node.initiate [3] 0).prologue [9] [20], [8], 0⟩

def sending (index : Nat) : List RehandshakeEvent :=
  .trigger :: List.replicate 5 (.advance index { now := 0, ephemeral := [3] })

def answered : List RehandshakeEvent :=
  .hub (.call answer) :: List.replicate 7 (.hub (.advance 0))

def rest (index : Nat) : List RehandshakeEvent :=
  List.replicate 2 (.advance index { now := 1 })

theorem one_rehandshake_iff_in_turn :
    Run.Throughout (step .padded {} peer.id 0) Exclusive (idle hub)
        (sending 0 ++ rest 0 ++ answered ++ sending 1) ∧
      Run.Along (step .padded {} peer.id 0) (EndsOwn 0) (idle hub)
        (sending 0 ++ rest 0 ++ answered ++ sending 1) :=
  (one_rehandshake_iff .padded {} peer.id 0 hub peer rfl rfl
    (sending 0 ++ rest 0 ++ answered ++ sending 1)).mpr (by decide +kernel)

/-- The answer comes in before the first call is through, and resets the mark. A second call sets it
again, and the first one then clears it. -/
theorem answer_admits_second_call :
    ¬(Run.run (step .padded {} peer.id 0) (idle hub) (sending 0 ++ answered ++ sending 1)).Exclusive ∧
      ¬(Run.run (step .padded {} peer.id 0) (idle hub)
        (sending 0 ++ answered ++ sending 1 ++ [.advance 0 { now := 1 }])).EndsOwn 0
          (.advance 0 { now := 1 }) := by
  constructor
  · intro exclusive
    have same := exclusive 0 1 (by decide +kernel) (by decide +kernel)
    cases same
  · intro own
    have owner := own (by decide +kernel) (by decide +kernel)
    revert owner
    decide +kernel

end Desync

end Rehandshaking

end Tenet
