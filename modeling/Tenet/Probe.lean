import Tenet.Lib.Buffer
import Tenet.Lib.RefMap
import Tenet.Wire
import Mathlib.Tactic.Linarith

/-! The NAT prober of `nat/probe.go`: its state, and `analyzeResponses`, which reads the kind of NAT
off the addresses that helpers observed. -/

namespace Tenet

open Lib

/-- `net.IP`: four bytes, sixteen, or bytes that are no address. -/
abbrev IP := Bytes

namespace IP

def v4InV6Prefix : Bytes := [0, 0, 0, 0, 0, 0, 0, 0, 0, 0, 0xFF, 0xFF]

def to4 (ip : IP) : Option IP :=
  if ip.length = 4 then some ip
  else if ip.length = 16 ∧ ip.take 12 = v4InV6Prefix then some (ip.drop 12)
  else none

def to16 (ip : IP) : Option IP :=
  if ip.length = 4 then some (v4InV6Prefix ++ ip)
  else if ip.length = 16 then some ip
  else none

def equal (ip x : IP) : Bool :=
  if ip.length = x.length then ip == x
  else if ip.length = 4 ∧ x.length = 16 then x.take 12 == v4InV6Prefix && ip == x.drop 12
  else if ip.length = 16 ∧ x.length = 4 then ip.take 12 == v4InV6Prefix && ip.drop 12 == x
  else false

def Mapped (ip : IP) : Prop := ip.length = 16 ∧ ip.take 12 = v4InV6Prefix

instance (ip : IP) : Decidable ip.Mapped := inferInstanceAs (Decidable (_ ∧ _))

/-- The short form of an IPv4 address, any other address as it is. -/
def canonical (ip : IP) : IP := if ip.Mapped then ip.drop 12 else ip

theorem length_canonical (ip : IP) : ip.canonical.length = if ip.Mapped then 4 else ip.length := by
  unfold canonical
  split
  next mapped => rw [List.length_drop, mapped.1]
  next => rfl

theorem Mapped.eq_iff {ip x : IP} (left : ip.Mapped) (right : x.Mapped) :
    ip = x ↔ ip.drop 12 = x.drop 12 := by
  constructor
  · exact congrArg (List.drop 12)
  · intro ends
    rw [← List.take_append_drop 12 ip, ← List.take_append_drop 12 x, left.2, right.2, ends]

theorem equal_symm (ip x : IP) : ip.equal x = x.equal ip := by
  unfold equal
  by_cases same : ip.length = x.length
  · rw [if_pos same, if_pos same.symm, BEq.comm]
  · rw [if_neg same, if_neg (Ne.symm same)]
    by_cases up : ip.length = 4 ∧ x.length = 16
    · simp [up.1, up.2, @BEq.comm _ _ _ ip]
    · by_cases down : ip.length = 16 ∧ x.length = 4
      · simp [down.1, down.2, @BEq.comm _ _ _ x]
      · rw [if_neg up, if_neg down, if_neg fun other => down other.symm,
          if_neg fun other => up other.symm]

theorem equal_mapped {ip x : IP} (left : ip.Mapped) (right : ¬x.Mapped) :
    ip.equal x = true ↔ ip.drop 12 = x := by
  have size : (ip.drop 12).length = 4 := by rw [List.length_drop, left.1]
  rw [equal, left.1, left.2]
  by_cases long : x.length = 16
  · have differs : ip ≠ x := fun same => right (same ▸ left)
    have longer : ip.drop 12 ≠ x := fun same => by simp [← same, size] at long
    simp [long, differs, longer]
  · by_cases short : x.length = 4
    · simp [short]
    · have other : ip.drop 12 ≠ x := fun same => short (same ▸ size)
      simp [short, other, Ne.symm long]

/-- `Equal` compares the canonical forms. -/
theorem equal_iff (ip x : IP) : ip.equal x = true ↔ ip.canonical = x.canonical := by
  by_cases left : ip.Mapped <;> by_cases right : x.Mapped
  · have mapped := left.eq_iff right
    simp [equal, canonical, left, right, left.1, right.1, mapped]
  · simpa [canonical, left, right] using equal_mapped left right
  · rw [equal_symm, equal_mapped right left, canonical, canonical, if_neg left, if_pos right]
    exact eq_comm
  · have unmapped (ip : IP) (plain : ¬ip.Mapped) (long : ip.length = 16) :
        ip.take 12 ≠ v4InV6Prefix := fun same => plain ⟨long, same⟩
    simp only [canonical, left, right, if_false, equal]
    split
    next => exact beq_iff_eq
    next lengths =>
      have differs : ip ≠ x := fun same => lengths (congrArg List.length same)
      split
      next shapes => simp [unmapped x right shapes.2, differs]
      next =>
        split
        next shapes => simp [unmapped ip left shapes.1, differs]
        next => simp [differs]

/-- The bytes of an address that the encoders write: `To4`, and `To16` where that is nil. -/
def wire (ip : IP) : Bytes :=
  match ip.to4 with
  | some ip => ip
  | none => ip.to16.getD []

section Wire

variable {ip : IP} (valid : ip.length = 4 ∨ ip.length = 16)

include valid

theorem wire_eq_canonical : ip.wire = ip.canonical := by
  unfold wire to4 to16 canonical
  rcases valid with short | long
  · have plain : ¬ip.Mapped := fun mapped => by simp [IP.Mapped, short] at mapped
    simp [short, plain]
  · by_cases mapped : ip.take 12 = v4InV6Prefix
    · simp [long, mapped, show ip.Mapped from ⟨long, mapped⟩]
    · have plain : ¬ip.Mapped := fun both => mapped both.2
      simp [long, mapped, plain]

theorem length_wire : ip.wire.length = 4 ∨ ip.wire.length = 16 := by
  rw [wire_eq_canonical valid, length_canonical]
  split
  · exact Or.inl rfl
  · exact valid

omit valid in
theorem canonical_not_mapped : ¬ip.canonical.Mapped := by
  intro again
  have long := again.1
  rw [length_canonical] at long
  split at long
  next => cases long
  next plain =>
    rw [canonical, if_neg plain] at again
    exact plain again

theorem equal_iff_wire {bytes : IP} (size : bytes.length = ip.wire.length) :
    bytes.equal ip = true ↔ bytes = ip.wire := by
  rw [equal_iff, ← wire_eq_canonical valid]
  by_cases mapped : bytes.Mapped
  · have longer : bytes.canonical ≠ ip.wire := by
      intro same
      have short := length_canonical bytes
      rw [if_pos mapped, same, ← size, mapped.1] at short
      cases short
    refine iff_of_false longer fun same => ?_
    rw [same, wire_eq_canonical valid] at mapped
    exact canonical_not_mapped mapped
  · rw [canonical, if_neg mapped]

end Wire

end IP

structure UDPAddr where
  ip : IP
  port : Nat
  deriving DecidableEq

structure UDPAddr.Valid (addr : UDPAddr) : Prop where
  ip : addr.ip.length = 4 ∨ addr.ip.length = 16
  port : addr.port < 65536

def UDPAddr.same (a b : UDPAddr) : Bool := a.ip.equal b.ip && a.port == b.port

/-- `other` has a value that no constant names: `DecodeNATInfo` takes any byte for a type. -/
inductive NATType where
  | unknown
  | none
  | fullCone
  | restrictedCone
  | portRestricted
  | symmetric
  | other (value : Nat)
  deriving DecidableEq, Repr

/-- `ProbeResult` without the time of the probe and the id of the prober, which nothing reads. -/
structure ProbeResult where
  natType : NATType
  publicAddr : UDPAddr
  portPredictable : Bool := false
  portDelta : Int := 0
  deriving DecidableEq

structure ProbeResponse where
  requestID : Nat
  observedAddr : UDPAddr
  fromPort : Nat
  deriving DecidableEq

/-- A `ProbeResponse` as `handleProbeResponse` makes it: the IP refers to the packet's memory. -/
structure StoredResponse where
  requestID : Nat
  observedIP : View
  observedPort : Nat
  fromPort : Nat
  deriving DecidableEq

def StoredResponse.load (response : StoredResponse) (buf : Bytes) : ProbeResponse where
  requestID := response.requestID
  observedAddr := ⟨response.observedIP.load buf, response.observedPort⟩
  fromPort := response.fromPort

/-- `responseCh` is the number of signals waiting in the channel. -/
structure PendingProbe where
  requestID : Nat
  responses : List StoredResponse
  responseCh : Nat
  createTime : Int
  expectedPort : Nat

/-- `localAddr` is `conn.LocalAddr()` where that is a UDP address. -/
structure NATProber where
  localAddr : Option UDPAddr
  cachedResult : Option ProbeResult := .none
  pendingProbes : RefMap Nat PendingProbe := ∅
  nextRequestID : Nat := 1

def allSame (first : Nat) : List Nat → Bool
  | [] => true
  | port :: rest => if port ≠ first then false else allSame first rest

def predictable (delta : Int) (previous : Nat) : List Nat → Bool
  | [] => true
  | port :: rest => if (port : Int) - previous ≠ delta then false else predictable delta port rest

/-- The part of `analyzeResponses` on the ports of several responses. -/
def analyzePorts (publicAddr : UDPAddr) (first second : Nat) (rest : List Nat) : ProbeResult :=
  if allSame first (second :: rest) then { natType := .portRestricted, publicAddr }
  else
    let delta : Int := second - first
    if predictable delta second rest then
      { natType := .symmetric, publicAddr, portPredictable := true, portDelta := delta }
    else { natType := .symmetric, publicAddr }

namespace NATProber

def isLocal (p : NATProber) (addr : UDPAddr) : Bool := p.localAddr.any (·.same addr)

/-- The helpers' addresses are a parameter of the source that it does not use. -/
def analyzeResponses (p : NATProber) : List ProbeResponse → NATProber × Except String ProbeResult
  | [] => (p, .error "未收到任何探测响应")
  | first :: others =>
      let publicAddr := first.observedAddr
      if p.isLocal publicAddr then (p, .ok { natType := .none, publicAddr })
      else
        match others with
        | [] => (p, .ok { natType := .unknown, publicAddr })
        | second :: rest =>
            let result := analyzePorts publicAddr publicAddr.port second.observedAddr.port
              (rest.map (·.observedAddr.port))
            ({ p with cachedResult := some result }, .ok result)

end NATProber

section Ports

theorem allSame_iff (first : Nat) (ports : List Nat) :
    allSame first ports = true ↔ ∀ port ∈ ports, port = first := by
  induction ports with
  | nil => simp [allSame]
  | cons port rest ih =>
      rw [allSame, List.forall_mem_cons]
      split
      next differs => simp [differs]
      next equal => simp [not_not.mp equal, ih]

def Progression (step : Int) (ports : List Nat) : Prop :=
  ∀ index first port : Nat, ports.head? = some first → ports[index]? = some port →
    (port : Int) = first + index * step

theorem progression_cons_cons (step : Int) (first second : Nat) (rest : List Nat) :
    Progression step (first :: second :: rest) ↔
      (second : Int) - first = step ∧ Progression step (second :: rest) := by
  constructor
  · intro regular
    have next := regular 1 first second rfl rfl
    push_cast at next
    refine ⟨by linarith, ?_⟩
    rintro index _ port ⟨⟩ found
    have value := regular (index + 1) first port rfl found
    push_cast at value
    linarith
  · rintro ⟨next, regular⟩ index _ port ⟨⟩ found
    cases index with
    | zero =>
        cases found
        simp
    | succ index =>
        have value := regular index second port rfl found
        push_cast
        linarith

theorem predictable_iff (delta : Int) (previous : Nat) (ports : List Nat) :
    predictable delta previous ports = true ↔ Progression delta (previous :: ports) := by
  induction ports generalizing previous with
  | nil =>
      refine iff_of_true rfl ?_
      rintro index _ port ⟨⟩ found
      cases index with
      | zero =>
          cases found
          simp
      | succ index => cases found
  | cons port rest ih =>
      rw [predictable, progression_cons_cons, ← ih]
      split
      next jumps => exact iff_of_false Bool.false_ne_true fun regular => jumps regular.1
      next steps => exact (and_iff_right (not_not.mp steps)).symm

theorem progression_iff (step : Int) (first second : Nat) (rest : List Nat) :
    Progression step (first :: second :: rest) ↔
      (second : Int) - first = step ∧ predictable step second rest = true := by
  rw [progression_cons_cons, predictable_iff]

theorem allSame_of_progression_zero {first : Nat} {ports : List Nat}
    (flat : Progression 0 (first :: ports)) : allSame first ports = true := by
  rw [allSame_iff]
  intro port listed
  obtain ⟨index, found⟩ := List.mem_iff_getElem?.mp listed
  have value := flat (index + 1) first port rfl found
  rw [mul_zero, add_zero] at value
  exact_mod_cast value

end Ports

namespace NATProber

def SamePorts (responses : List ProbeResponse) : Prop :=
  ∀ one ∈ responses, ∀ other ∈ responses, one.observedAddr.port = other.observedAddr.port

variable (p : NATProber)

theorem analyzeResponses_several {first second : ProbeResponse} (rest : List ProbeResponse)
    (translated : p.isLocal first.observedAddr = false) :
    (p.analyzeResponses (first :: second :: rest)).2 =
      .ok (analyzePorts first.observedAddr first.observedAddr.port second.observedAddr.port
        (rest.map (·.observedAddr.port))) := by
  rw [analyzeResponses, translated]
  rfl

theorem samePorts_cons (first : ProbeResponse) (others : List ProbeResponse) :
    SamePorts (first :: others) ↔
      allSame first.observedAddr.port (others.map (·.observedAddr.port)) = true := by
  rw [allSame_iff, List.forall_mem_map]
  constructor
  · exact fun same other listed =>
      same other (List.mem_cons_of_mem first listed) first List.mem_cons_self
  · intro same
    have toFirst : ∀ one ∈ first :: others, one.observedAddr.port = first.observedAddr.port :=
      List.forall_mem_cons.mpr ⟨rfl, same⟩
    exact fun one listed other alike => (toFirst one listed).trans (toFirst other alike).symm

/-- What `analyzeResponses` makes of two responses and more, the first of which does not show the local
address. -/
theorem port_classification (responses : List ProbeResponse) (several : 2 ≤ responses.length)
    (translated : ∀ first ∈ responses.head?, p.isLocal first.observedAddr = false) :
    ∃ result, (p.analyzeResponses responses).2 = .ok result ∧
      (result.natType = .portRestricted ↔ SamePorts responses) ∧
      (result.natType = .symmetric ↔ ¬SamePorts responses) ∧
      (result.natType = .symmetric →
        (result.portPredictable = true ↔
          ∃ step, Progression step (responses.map (·.observedAddr.port))) ∧
        ∀ step, Progression step (responses.map (·.observedAddr.port)) →
          result.portDelta = step ∧ step ≠ 0) ∧
      (¬(result.natType = .symmetric ∧ result.portPredictable = true) → result.portDelta = 0) := by
  match responses, several with
  | first :: second :: rest, _ =>
    refine ⟨_, p.analyzeResponses_several rest (translated first rfl), ?_⟩
    rw [samePorts_cons, List.map_cons, analyzePorts]
    split
    next same => simp [same]
    next different =>
      have moves (step : Int)
          (regular : Progression step ((first :: second :: rest).map (·.observedAddr.port))) :
          step ≠ 0 := by
        rintro rfl
        exact different (allSame_of_progression_zero regular)
      simp only [List.map_cons, progression_iff] at moves ⊢
      split
      next steady =>
        refine ⟨by simp [different], by simp [different], fun _ => ⟨?_, ?_⟩, by simp⟩
        · exact iff_of_true rfl ⟨_, rfl, steady⟩
        · exact fun step regular => ⟨regular.1, moves step regular⟩
      next irregular =>
        have none (step : Int) :
            ¬((second.observedAddr.port : Int) - first.observedAddr.port = step ∧
              predictable step second.observedAddr.port
                (rest.map (·.observedAddr.port)) = true) := by
          rintro ⟨rfl, steady⟩
          exact irregular steady
        refine ⟨by simp [different], by simp [different], fun _ => ⟨?_, ?_⟩, fun _ => rfl⟩
        · exact iff_of_false Bool.false_ne_true fun ⟨step, regular⟩ => none step regular
        · exact fun step regular => absurd regular (none step)

/-- Three helpers, each of which saw a port two above the one before. -/
theorem port_classification_steps :
    ∃ result, (NATProber.analyzeResponses ⟨none, none, ∅, 1⟩
        [⟨1, ⟨[203, 0, 113, 7], 4000⟩, 9⟩, ⟨1, ⟨[203, 0, 113, 7], 4002⟩, 9⟩,
          ⟨1, ⟨[203, 0, 113, 7], 4004⟩, 9⟩]).2 = .ok result ∧
      result.natType = .symmetric ∧ result.portDelta = 2 := by
  obtain ⟨result, returned, _, symmetric, regular, _⟩ :=
    port_classification ⟨none, none, ∅, 1⟩
      [⟨1, ⟨[203, 0, 113, 7], 4000⟩, 9⟩, ⟨1, ⟨[203, 0, 113, 7], 4002⟩, 9⟩,
        ⟨1, ⟨[203, 0, 113, 7], 4004⟩, 9⟩] (by decide) (fun _ _ => rfl)
  have differ : result.natType = .symmetric :=
    symmetric.mpr fun same => absurd (same _ List.mem_cons_self _
      (List.mem_cons_of_mem _ List.mem_cons_self)) (by decide)
  have steps : Progression 2 [4000, 4002, 4004] := by
    rw [← predictable_iff]
    decide
  exact ⟨result, returned, differ, ((regular differ).2 2 steps).1⟩

end NATProber

/-- A response and the helper that sent it; `analyzeResponses` does not see the helper. -/
structure ProbeReply where
  helper : UDPAddr
  response : ProbeResponse
  deriving DecidableEq

namespace ProbeReply

def observed (reply : ProbeReply) : UDPAddr := reply.response.observedAddr

def TwoHelpers (replies : List ProbeReply) : Prop :=
  ∃ one ∈ replies, ∃ other ∈ replies, one.helper.same other.helper = false

def Shown (replies others : List ProbeReply) : Prop :=
  ∀ reply ∈ replies, ∃ other ∈ others, reply.observed.same other.observed = true

def SameAddresses (replies others : List ProbeReply) : Prop :=
  Shown replies others ∧ Shown others replies

end ProbeReply

theorem ProbeReply.TwoHelpers.exists_cons {replies : List ProbeReply}
    (helpers : ProbeReply.TwoHelpers replies) : ∃ first rest, replies = first :: rest := by
  obtain ⟨one, listed, _⟩ := helpers
  exact List.exists_cons_of_ne_nil (List.ne_nil_of_mem listed)

theorem UDPAddr.same_iff (a b : UDPAddr) :
    a.same b = true ↔ a.ip.canonical = b.ip.canonical ∧ a.port = b.port := by
  rw [same, Bool.and_eq_true, IP.equal_iff, beq_iff_eq]

theorem UDPAddr.same_refl (a : UDPAddr) : a.same a = true := (a.same_iff a).mpr ⟨rfl, rfl⟩

open ProbeReply

section Permuted

variable {replies others : List ProbeReply} (permuted : replies.Perm others)

include permuted

theorem ProbeReply.TwoHelpers.perm (helpers : TwoHelpers replies) : TwoHelpers others := by
  obtain ⟨one, listed, other, alike, differ⟩ := helpers
  exact ⟨one, permuted.mem_iff.mp listed, other, permuted.mem_iff.mp alike, differ⟩

theorem ProbeReply.sameAddresses_of_perm : SameAddresses replies others :=
  ⟨fun reply listed => ⟨reply, permuted.mem_iff.mp listed, reply.observed.same_refl⟩,
    fun reply listed => ⟨reply, permuted.mem_iff.mpr listed, reply.observed.same_refl⟩⟩

end Permuted

namespace NATProber

variable (p : NATProber)

def verdict (replies : List ProbeReply) : Option NATType :=
  (p.analyzeResponses (replies.map (·.response))).2.toOption.map (·.natType)

theorem isLocal_congr {a b : UDPAddr} (same : a.same b = true) : p.isLocal a = p.isLocal b := by
  obtain ⟨ip, port⟩ := (a.same_iff b).mp same
  cases own : p.localAddr with
  | none => simp [isLocal, own]
  | some addr =>
      rw [isLocal, isLocal, own, Option.any_some, Option.any_some, Bool.eq_iff_iff,
        UDPAddr.same_iff, UDPAddr.same_iff, ip, port]

theorem verdict_local {first : ProbeReply} (rest : List ProbeReply)
    (untranslated : p.isLocal first.observed = true) : p.verdict (first :: rest) = some .none := by
  have returned : (p.analyzeResponses ((first :: rest).map (·.response))).2 =
      .ok { natType := .none, publicAddr := first.observed } := by
    rw [List.map_cons, analyzeResponses.eq_def]
    exact congrArg Prod.snd (if_pos untranslated)
  rw [verdict, returned]
  rfl

theorem analyzePorts_natType (publicAddr : UDPAddr) (first second : Nat) (rest : List Nat) :
    (analyzePorts publicAddr first second rest).natType =
      if allSame first (second :: rest) then .portRestricted else .symmetric := by
  unfold analyzePorts
  split
  · rfl
  · dsimp only
    split <;> rfl

theorem verdict_translated {first : ProbeReply} {rest : List ProbeReply}
    (helpers : TwoHelpers (first :: rest)) (translated : p.isLocal first.observed = false) :
    (SamePorts ((first :: rest).map (·.response)) ∧
        p.verdict (first :: rest) = some .portRestricted) ∨
      (¬SamePorts ((first :: rest).map (·.response)) ∧
        p.verdict (first :: rest) = some .symmetric) := by
  cases rest with
  | nil =>
      obtain ⟨one, listed, other, alike, differ⟩ := helpers
      rw [List.mem_singleton.mp listed, List.mem_singleton.mp alike, UDPAddr.same_refl] at differ
      cases differ
  | cons second rest =>
      have natType : p.verdict (first :: second :: rest) = some (if allSame first.observed.port
          ((second :: rest).map (·.observed.port)) then .portRestricted else .symmetric) := by
        rw [verdict, List.map_cons, List.map_cons, p.analyzeResponses_several _ translated,
          Except.toOption, Option.map_some, analyzePorts_natType, List.map_map]
        rfl
      rw [natType, List.map_cons, samePorts_cons, List.map_map]
      split
      next same => exact Or.inl ⟨same, rfl⟩
      next different => exact Or.inr ⟨different, rfl⟩

theorem samePorts_congr {replies others : List ProbeReply} (shown : Shown replies others)
    (same : SamePorts (others.map (·.response))) : SamePorts (replies.map (·.response)) := by
  intro one listed other alike
  obtain ⟨reply, member, rfl⟩ := List.mem_map.mp listed
  obtain ⟨reply', member', rfl⟩ := List.mem_map.mp alike
  obtain ⟨shownBy, there, equal⟩ := shown reply member
  obtain ⟨shownBy', there', equal'⟩ := shown reply' member'
  have ports := same _ (List.mem_map_of_mem there) _ (List.mem_map_of_mem there')
  calc
    reply.observed.port = shownBy.observed.port := ((UDPAddr.same_iff _ _).mp equal).2
    _ = shownBy'.observed.port := ports
    _ = reply'.observed.port := ((UDPAddr.same_iff _ _).mp equal').2.symm

theorem shown_all {replies others : List ProbeReply} (shown : Shown others replies) (answer : Bool)
    (all : ∀ reply ∈ replies, p.isLocal reply.observed = answer) :
    ∀ other ∈ others, p.isLocal other.observed = answer := by
  intro other listed
  obtain ⟨reply, there, same⟩ := shown other listed
  rw [p.isLocal_congr same, all reply there]

/-- The verdict depends on no order and no duplicate exactly when the helpers agree whether the
observed address is the local one. -/
theorem verdict_stable_iff (replies : List ProbeReply) (helpers : TwoHelpers replies) :
    (∀ others, SameAddresses replies others → TwoHelpers others →
        p.verdict others = p.verdict replies) ↔
      (∀ reply ∈ replies, p.isLocal reply.observed = true) ∨
        ∀ reply ∈ replies, p.isLocal reply.observed = false := by
  constructor
  · intro stable
    by_contra mixed
    simp only [not_or, not_forall, Bool.not_eq_true, Bool.not_eq_false, exists_prop] at mixed
    obtain ⟨⟨far, listed, translated⟩, near, alike, untranslated⟩ := mixed
    -- each of the two replies could have come in first
    have firstIn (reply : ProbeReply) (member : reply ∈ replies) :
        p.verdict (reply :: replies.erase reply) = p.verdict replies ∧
          TwoHelpers (reply :: replies.erase reply) := by
      have permuted := List.perm_cons_erase member
      have both := helpers.perm permuted
      exact ⟨stable _ (sameAddresses_of_perm permuted) both, both⟩
    have none := (firstIn near alike).1
    rw [p.verdict_local _ untranslated] at none
    obtain ⟨same, both⟩ := firstIn far listed
    rw [← none] at same
    rcases p.verdict_translated both translated with ⟨_, verdict⟩ | ⟨_, verdict⟩ <;>
      · rw [verdict] at same
        cases same
  · rintro agree others ⟨shown, shownBack⟩ bothOthers
    obtain ⟨first, rest, rfl⟩ := helpers.exists_cons
    obtain ⟨first', rest', rfl⟩ := bothOthers.exists_cons
    rcases agree with untranslated | translated
    · have there := p.shown_all shownBack true untranslated first' List.mem_cons_self
      rw [p.verdict_local _ there, p.verdict_local _ (untranslated first List.mem_cons_self)]
    · have there := p.shown_all shownBack false translated first' List.mem_cons_self
      have here := translated first List.mem_cons_self
      rcases p.verdict_translated helpers here with ⟨ports, verdict⟩ | ⟨ports, verdict⟩ <;>
        rcases p.verdict_translated bothOthers there with ⟨ports', verdict'⟩ | ⟨ports', verdict'⟩
      · rw [verdict, verdict']
      · exact absurd (samePorts_congr shownBack ports) ports'
      · exact absurd (samePorts_congr shown ports') ports
      · rw [verdict, verdict']

/-- Two helpers that see different ports: the second reply comes in first, and once more at the end. -/
theorem verdict_stable_iff_agreed :
    NATProber.verdict ⟨some ⟨[0, 0, 0, 0], 4000⟩, none, ∅, 1⟩
      [⟨⟨[198, 51, 100, 2], 9⟩, ⟨1, ⟨[203, 0, 113, 7], 4001⟩, 9⟩⟩,
        ⟨⟨[198, 51, 100, 1], 9⟩, ⟨1, ⟨[203, 0, 113, 7], 4000⟩, 9⟩⟩,
        ⟨⟨[198, 51, 100, 2], 9⟩, ⟨1, ⟨[203, 0, 113, 7], 4001⟩, 9⟩⟩] =
    NATProber.verdict ⟨some ⟨[0, 0, 0, 0], 4000⟩, none, ∅, 1⟩
      [⟨⟨[198, 51, 100, 1], 9⟩, ⟨1, ⟨[203, 0, 113, 7], 4000⟩, 9⟩⟩,
        ⟨⟨[198, 51, 100, 2], 9⟩, ⟨1, ⟨[203, 0, 113, 7], 4001⟩, 9⟩⟩] :=
  (verdict_stable_iff ⟨some ⟨[0, 0, 0, 0], 4000⟩, none, ∅, 1⟩
    [⟨⟨[198, 51, 100, 1], 9⟩, ⟨1, ⟨[203, 0, 113, 7], 4000⟩, 9⟩⟩,
      ⟨⟨[198, 51, 100, 2], 9⟩, ⟨1, ⟨[203, 0, 113, 7], 4001⟩, 9⟩⟩]
    ⟨_, List.mem_cons_self, _, List.mem_cons_of_mem _ List.mem_cons_self, by decide⟩).mpr
    (Or.inr (by decide)) _ ⟨by unfold Shown; decide, by unfold Shown; decide⟩
    ⟨_, List.mem_cons_self, _, List.mem_cons_of_mem _ List.mem_cons_self, by decide⟩

/-- One helper sees the local address, as on the same network, and the other a translated one: the
verdict is that of the reply which comes in first. -/
theorem verdict_of_first_reply :
    ∃ (p : NATProber) (replies others : List ProbeReply), SameAddresses replies others ∧
      TwoHelpers replies ∧ TwoHelpers others ∧
      p.verdict replies = some .none ∧ p.verdict others = some .portRestricted := by
  have helpers : TwoHelpers
      [⟨⟨[192, 0, 2, 9], 9⟩, ⟨1, ⟨[192, 0, 2, 1], 4000⟩, 9⟩⟩,
        ⟨⟨[198, 51, 100, 2], 9⟩, ⟨1, ⟨[203, 0, 113, 7], 4000⟩, 9⟩⟩] :=
    ⟨_, List.mem_cons_self, _, List.mem_cons_of_mem _ List.mem_cons_self, by decide⟩
  have permuted := List.Perm.swap
    (⟨⟨[198, 51, 100, 2], 9⟩, ⟨1, ⟨[203, 0, 113, 7], 4000⟩, 9⟩⟩ : ProbeReply)
    ⟨⟨[192, 0, 2, 9], 9⟩, ⟨1, ⟨[192, 0, 2, 1], 4000⟩, 9⟩⟩ []
  exact ⟨⟨some ⟨[192, 0, 2, 1], 4000⟩, none, ∅, 1⟩, _, _, sameAddresses_of_perm permuted, helpers,
    helpers.perm permuted, by decide, by decide⟩

end NATProber

end Tenet
