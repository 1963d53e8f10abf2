import Tenet.Demux
import Tenet.Lib.Run
import Tenet.Probe
import Tenet.RelayFormat
import Mathlib.Data.List.Forall2

/-! Probe replies in memory: `handleRead` reads every datagram into one buffer, and the address in a
recorded reply is a slice of that buffer. -/

namespace Tenet

open Lib

def parseProbeResponse (data : Bytes) : Option StoredResponse :=
  if data.length < 15 then none
  else
    let ipLen := (data.getD 11 0).toNat
    if data.length < 12 + ipLen + 2 then none
    else some {
      requestID := ofBigEndian ((data.drop 5).take 4)
      observedIP := ⟨12, ipLen⟩
      observedPort := ofBigEndian ((data.drop 9).take 2)
      fromPort := ofBigEndian ((data.drop (12 + ipLen)).take 2) }

/-- The channel has room for one signal per helper. -/
def PendingProbe.record (probe : PendingProbe) (response : StoredResponse) : PendingProbe :=
  { probe with
    responses := probe.responses ++ [response]
    responseCh := if probe.responseCh < probe.expectedPort then probe.responseCh + 1
      else probe.responseCh }

namespace NATProber

def buildProbeResponse (requestID : Nat) (observedAddr : UDPAddr) (fromPort : Nat) : Bytes :=
  Tenet.buildProbeResponse requestID observedAddr.ip.wire observedAddr.port fromPort

/-- The response in a packet and the probe that it is recorded in. -/
def recipient (p : NATProber) (data : Bytes) : Option (Nat × StoredResponse) :=
  (parseProbeResponse data).bind fun response =>
    (p.pendingProbes.find response.requestID).map fun ref => (ref, response)

def handleProbeResponse (p : NATProber) (data : Bytes) : NATProber :=
  match p.recipient data with
  | some (ref, response) =>
      { p with pendingProbes := p.pendingProbes.modify ref (·.record response) }
  | none => p

/-- The source takes it for granted that the connection has a UDP address. -/
def handleProbeRequest (p : NATProber) (data : Bytes) (sender : UDPAddr) : Option Bytes :=
  if data.length < 9 then none
  else p.localAddr.map fun own =>
    buildProbeResponse (ofBigEndian ((data.drop 5).take 4)) sender own.port

def handleProbePacket (p : NATProber) (data : Bytes) (sender : UDPAddr) : NATProber × Option Bytes :=
  if data.length < 8 ∨ data.take 4 ≠ probeMagic then (p, none)
  else if data.getD 4 0 = probeTypeRequest then (p, p.handleProbeRequest data sender)
  else if data.getD 4 0 = probeTypeResponse then (p.handleProbeResponse data, none)
  else (p, none)

def cleanupStaleProbes (p : NATProber) (now : Int) : NATProber :=
  { p with pendingProbes :=
      p.pendingProbes.retain fun probe => !decide (now - probe.createTime > 60000000000) }

def recorded (p : NATProber) (data : Bytes) : Option (Nat × StoredResponse) :=
  if data.length < 8 ∨ data.take 4 ≠ probeMagic then none
  else if data.getD 4 0 = probeTypeResponse then p.recipient data
  else none

def responses (p : NATProber) (ref : Nat) : List StoredResponse :=
  match p.pendingProbes.deref ref with
  | some probe => probe.responses
  | none => []

end NATProber

def largeBufferSize : Nat := 65535

structure ProbeReader where
  buf : Bytes
  prober : NATProber
  /-- The probes whose responses `ProbeViaHelper` has yet to analyse. -/
  waiting : List Nat := []
  /-- For each probe, the packets that its responses were made of. -/
  replies : Nat → List Bytes := fun _ => []
  sent : List (Bytes × UDPAddr) := []

inductive ProbeReader.Event where
  /-- `ProbeViaHelper` up to its loop. -/
  | probeViaHelper (helperAddrs : List UDPAddr) (now : Int)
  /-- One turn of `handleRead`; there is no sender where the address is not one of UDP. -/
  | read (datagram : Bytes) (sender : Option UDPAddr)
  /-- A turn of the loop of `ProbeViaHelper`. -/
  | received (ref : Nat)
  /-- The rest of `ProbeViaHelper`, after the last response or at the deadline. -/
  | analyze (ref : Nat)
  /-- Its deferred function. -/
  | finish (ref : Nat)
  | cleanupStaleProbes (now : Int)

namespace ProbeReader

def observations (s : ProbeReader) (ref : Nat) : List ProbeResponse :=
  (s.prober.responses ref).map (·.load s.buf)

def probeViaHelper (s : ProbeReader) (helperAddrs : List UDPAddr) (now : Int) : ProbeReader :=
  if helperAddrs.length < 1 then s
  else
    let requestID := s.prober.nextRequestID
    let probe : PendingProbe := ⟨requestID, [], 0, now, helperAddrs.length⟩
    let packet := buildProbeRequest requestID helperAddrs.length
    { s with
      prober := { s.prober with
        nextRequestID := (requestID + 1) % 2 ^ 32
        pendingProbes := s.prober.pendingProbes.put requestID probe }
      waiting := s.prober.pendingProbes.objects.length :: s.waiting
      sent := s.sent ++ helperAddrs.map (packet, ·) }

def noted (s : ProbeReader) (data : Bytes) : Nat → List Bytes :=
  match s.prober.recorded data with
  | some (ref, _) => Function.update s.replies ref (s.replies ref ++ [data])
  | none => s.replies

/-- What `handleRead` does with the buffer; what is not for the prober is copied out of it. -/
def dispatch (s : ProbeReader) (count : Nat) (sender : UDPAddr) : ProbeReader :=
  if count < 4 then s
  else if s.buf.take 4 = probeMagic then
    let data := s.buf.take count
    let handled := s.prober.handleProbePacket data sender
    { s with
      prober := handled.1
      replies := s.noted data
      sent := s.sent ++ (handled.2.map (·, sender)).toList }
  else s

def handleRead (s : ProbeReader) (datagram : Bytes) (sender : Option UDPAddr) : ProbeReader :=
  let count := min datagram.length s.buf.length
  let s := { s with buf := overwrite s.buf datagram }
  match sender with
  | some sender => s.dispatch count sender
  | none => s

def step (s : ProbeReader) : Event → ProbeReader
  | .probeViaHelper helperAddrs now => s.probeViaHelper helperAddrs now
  | .read datagram sender => s.handleRead datagram sender
  | .received ref =>
      let receive (probe : PendingProbe) := { probe with responseCh := probe.responseCh - 1 }
      let pendingProbes := s.prober.pendingProbes.modify ref receive
      { s with prober := { s.prober with pendingProbes } }
  | .analyze ref =>
      { s with
        prober := (s.prober.analyzeResponses (s.observations ref)).1
        waiting := s.waiting.filter (· ≠ ref) }
  | .finish ref =>
      match s.prober.pendingProbes.deref ref with
      | some probe =>
          let pendingProbes := s.prober.pendingProbes.delete probe.requestID
          { s with prober := { s.prober with pendingProbes } }
      | none => s
  | .cleanupStaleProbes now => { s with prober := s.prober.cleanupStaleProbes now }

def start (buf : Bytes) (localAddr : Option UDPAddr) : ProbeReader where
  buf := buf
  prober := { localAddr := localAddr }

/-- The response shows the address that the helper wrote into the reply. -/
def Shows (reply : Bytes) (response : ProbeResponse) : Prop :=
  ∀ requestID addr fromPort, addr.Valid →
    reply = NATProber.buildProbeResponse requestID addr fromPort →
    response.observedAddr.same addr = true

/-- Every probe that is still to be analysed shows what the helpers wrote, reply by reply. -/
def Stable (s : ProbeReader) : Prop :=
  ∀ ref ∈ s.waiting, List.Forall₂ Shows (s.replies ref) (s.observations ref)

/-- The datagram has no other bytes where the reply has its address. -/
def Spares (datagram reply : Bytes) : Prop :=
  ∀ requestID addr fromPort, addr.Valid →
    reply = NATProber.buildProbeResponse requestID addr fromPort →
    ∀ index, 12 ≤ index → index < 12 + addr.ip.wire.length →
      ∀ byte, datagram[index]? = some byte → reply[index]? = some byte

/-- What is read spares the replies that are still to be analysed. -/
def Agrees (s : ProbeReader) : Event → Prop
  | .read datagram _ => ∀ ref ∈ s.waiting, ∀ reply ∈ s.replies ref, Spares datagram reply
  | _ => True

end ProbeReader

theorem length_buildProbeResponse (requestID : Nat) (addr : UDPAddr) (fromPort : Nat) :
    (NATProber.buildProbeResponse requestID addr fromPort).length = 14 + addr.ip.wire.length := by
  simp [NATProber.buildProbeResponse, buildProbeResponse, probeMagic]
  omega

theorem parseProbeResponse_build (requestID : Nat) {addr : UDPAddr} (valid : addr.Valid)
    (fromPort : Nat) :
    parseProbeResponse (NATProber.buildProbeResponse requestID addr fromPort) = some
      { requestID := requestID % 2 ^ 32
        observedIP := ⟨12, addr.ip.wire.length⟩
        observedPort := addr.port
        fromPort := fromPort % 2 ^ 16 } := by
  have size := IP.length_wire valid.ip
  have small : addr.port % 256 ^ 2 = addr.port := Nat.mod_eq_of_lt valid.port
  set n := addr.ip.wire.length with length
  set packet := NATProber.buildProbeResponse requestID addr fromPort with built
  rw [NATProber.buildProbeResponse, buildProbeResponse] at built
  -- the packet cut in front of each of its fields
  have atID : packet = (probeMagic ++ [probeTypeResponse]) ++ (bigEndian 4 requestID ++
      (bigEndian 2 addr.port ++ UInt8.ofNat n :: addr.ip.wire ++ bigEndian 2 fromPort)) := by
    simp [built, length]
  have atPort : packet = (probeMagic ++ probeTypeResponse :: bigEndian 4 requestID) ++
      (bigEndian 2 addr.port ++ (UInt8.ofNat n :: addr.ip.wire ++ bigEndian 2 fromPort)) := by
    simp [built, length]
  have atLength : packet = (probeMagic ++ probeTypeResponse :: bigEndian 4 requestID ++
      bigEndian 2 addr.port) ++ (UInt8.ofNat n :: addr.ip.wire ++ bigEndian 2 fromPort) := by
    simp [built, length]
  have atFrom : packet = (probeMagic ++ probeTypeResponse :: bigEndian 4 requestID ++
      bigEndian 2 addr.port ++ UInt8.ofNat n :: addr.ip.wire) ++ (bigEndian 2 fromPort ++ []) := by
    simp [built, length]
  have total : packet.length = 14 + n := length_buildProbeResponse requestID addr fromPort
  have ipLen : (packet.getD 11 0).toNat = n := by
    rw [atLength, Slice.getD_append _ _ _ 11 (by simp [probeMagic])]
    exact toNat_ofNat_length addr.ip.wire (by omega)
  rw [parseProbeResponse, ipLen, total, if_neg (by omega), if_neg (by omega)]
  have id : (packet.drop 5).take 4 = bigEndian 4 requestID := by
    rw [atID, Slice.part_append _ _ _ (by rfl) (bigEndian_length 4 _)]
  have port : (packet.drop 9).take 2 = bigEndian 2 addr.port := by
    rw [atPort, Slice.part_append _ _ _ (by simp [probeMagic]) (bigEndian_length 2 _)]
  have sender : (packet.drop (12 + n)).take 2 = bigEndian 2 fromPort := by
    rw [atFrom, Slice.part_append _ _ _ (by simp [probeMagic, length]; omega) (bigEndian_length 2 _)]
  rw [id, port, sender, ofBigEndian_bigEndian, ofBigEndian_bigEndian, ofBigEndian_bigEndian, small]
  rfl

theorem load_build (requestID : Nat) (addr : UDPAddr) (fromPort : Nat) :
    (View.mk 12 addr.ip.wire.length).load
      (NATProber.buildProbeResponse requestID addr fromPort) = addr.ip.wire := by
  have atIP : NATProber.buildProbeResponse requestID addr fromPort =
      (probeMagic ++ probeTypeResponse :: bigEndian 4 requestID ++ bigEndian 2 addr.port ++
        [UInt8.ofNat addr.ip.wire.length]) ++ (addr.ip.wire ++ bigEndian 2 fromPort) := by
    simp [NATProber.buildProbeResponse, buildProbeResponse]
  rw [atIP]
  exact Slice.part_append _ _ _ (by simp [probeMagic]) rfl

namespace ProbeReader

section Views

variable {buf : Bytes} (large : 30 ≤ buf.length)

include large

theorem view_inside {addr : UDPAddr} (valid : addr.Valid) : 12 + addr.ip.wire.length ≤ buf.length := by
  have size := IP.length_wire valid.ip
  omega

theorem shows_iff {reply : Bytes} {response : StoredResponse}
    (parsed : parseProbeResponse reply = some response) :
    Shows reply (response.load buf) ↔ ∀ requestID addr fromPort, addr.Valid →
      reply = NATProber.buildProbeResponse requestID addr fromPort →
      (View.mk 12 addr.ip.wire.length).load buf =
        (View.mk 12 addr.ip.wire.length).load reply := by
  refine forall_congr' fun requestID => forall_congr' fun addr => forall_congr' fun fromPort =>
    forall_congr' fun valid => forall_congr' fun built => ?_
  have stored : response = _ :=
    (Option.some.inj ((parseProbeResponse_build requestID valid fromPort).symm.trans
      (built ▸ parsed))).symm
  have size := View.length_load (View.mk 12 addr.ip.wire.length) (view_inside large valid)
  rw [stored, built, load_build, UDPAddr.same, Bool.and_eq_true, beq_iff_eq]
  exact (and_iff_left rfl).trans (IP.equal_iff_wire valid.ip size)

theorem shows_overwrite_iff {reply : Bytes} {response : StoredResponse}
    (parsed : parseProbeResponse reply = some response) (shown : Shows reply (response.load buf))
    (datagram : Bytes) :
    Shows reply (response.load (overwrite buf datagram)) ↔ Spares datagram reply := by
  have still : 30 ≤ (overwrite buf datagram).length := by rwa [length_overwrite]
  rw [shows_iff large parsed] at shown
  rw [shows_iff still parsed]
  refine forall_congr' fun requestID => forall_congr' fun addr => forall_congr' fun fromPort =>
    forall_congr' fun valid => forall_congr' fun built => ?_
  have before := shown requestID addr fromPort valid built
  have bytes := (View.load_eq_iff _ buf reply).mp before
  rw [← before, View.load_overwrite_iff _ _ (view_inside large valid)]
  refine forall_congr' fun index => forall_congr' fun low => forall_congr' fun high => ?_
  rw [bytes index low high]

theorem shows_just_read {count : Nat} {response : StoredResponse}
    (parsed : parseProbeResponse (buf.take count) = some response) :
    Shows (buf.take count) (response.load buf) := by
  rw [shows_iff large parsed]
  intro requestID addr fromPort valid built
  have size := congrArg List.length built
  rw [List.length_take, length_buildProbeResponse] at size
  exact (View.load_take _ buf (by simp only; omega)).symm

end Views

end ProbeReader

namespace NATProber

variable (p : NATProber)

theorem responses_put (requestID : Nat) {probe : PendingProbe} (fresh : probe.responses = [])
    (nextRequestID ref : Nat) :
    responses { p with pendingProbes := p.pendingProbes.put requestID probe, nextRequestID } ref =
      p.responses ref := by
  have object : (p.pendingProbes.put requestID probe).deref ref =
      if ref = p.pendingProbes.objects.length then some probe else p.pendingProbes.deref ref :=
    p.pendingProbes.deref_alloc probe ref
  rw [responses, responses, object]
  by_cases last : ref = p.pendingProbes.objects.length
  · have unused : p.pendingProbes.deref ref = none := List.getElem?_eq_none last.ge
    rw [if_pos last, unused]
    exact fresh
  · rw [if_neg last]

theorem responses_modify (ref other : Nat) (change : PendingProbe → PendingProbe)
    (kept : ∀ probe, (change probe).responses = probe.responses) :
    responses { p with pendingProbes := p.pendingProbes.modify ref change } other =
      p.responses other := by
  rw [responses, responses, RefMap.deref_modify]
  cases p.pendingProbes.deref other with
  | none => rfl
  | some probe =>
      simp only [Option.map_some]
      split
      · exact kept probe
      · rfl

theorem analyzeResponses_pendingProbes (responses : List ProbeResponse) :
    (p.analyzeResponses responses).1.pendingProbes = p.pendingProbes := by
  unfold analyzeResponses
  split
  · rfl
  dsimp only
  split
  · rfl
  split <;> rfl

theorem handleProbePacket_recorded (data : Bytes) (sender : UDPAddr) :
    (p.handleProbePacket data sender).1 = match p.recorded data with
      | some (ref, response) =>
          { p with pendingProbes := p.pendingProbes.modify ref (·.record response) }
      | none => p := by
  unfold handleProbePacket recorded
  split
  · rfl
  split
  next request =>
    have other : data.getD 4 0 ≠ probeTypeResponse := by
      rw [request]
      decide
    rw [if_neg other]
  next =>
    split
    · rfl
    · rfl

theorem recorded_eq_some {data : Bytes} {ref : Nat} {response : StoredResponse}
    (found : p.recorded data = some (ref, response)) :
    parseProbeResponse data = some response ∧ p.pendingProbes.find response.requestID = some ref := by
  unfold recorded at found
  split at found
  · cases found
  split at found
  · obtain ⟨parsed, made, pending⟩ := Option.bind_eq_some_iff.mp found
    obtain ⟨pointer, entry, same⟩ := Option.map_eq_some_iff.mp pending
    cases same
    exact ⟨made, entry⟩
  · cases found

theorem responses_record {ref : Nat} (made : ref < p.pendingProbes.objects.length)
    (response : StoredResponse) (other : Nat) :
    responses { p with pendingProbes := p.pendingProbes.modify ref (·.record response) } other =
      if other = ref then p.responses ref ++ [response] else p.responses other := by
  rw [responses, RefMap.deref_modify]
  by_cases same : other = ref
  · subst same
    obtain ⟨probe, found⟩ : ∃ probe, p.pendingProbes.deref other = some probe :=
      ⟨_, List.getElem?_eq_getElem made⟩
    rw [if_pos rfl, responses, found]
    simp only [Option.map_some, if_true]
    rfl
  · rw [if_neg same, responses]
    cases p.pendingProbes.deref other with
    | none => rfl
    | some probe => simp only [Option.map_some, if_neg (Ne.symm same)]

end NATProber

namespace ProbeReader

/-- The recorded responses are what the packets say, and the buffer holds any reply. -/
structure Recorded (s : ProbeReader) : Prop where
  large : 30 ≤ s.buf.length
  sound : s.prober.pendingProbes.Sound
  parsed : ∀ ref, List.Forall₂ (fun reply response => parseProbeResponse reply = some response)
    (s.replies ref) (s.prober.responses ref)

structure Quiet (s s' : ProbeReader) : Prop where
  buf : s'.buf = s.buf
  replies : s'.replies = s.replies
  sound : s.prober.pendingProbes.Sound → s'.prober.pendingProbes.Sound
  responses : ∀ ref, s'.prober.responses ref = s.prober.responses ref
  waiting : ∀ ref ∈ s'.waiting, ref ∈ s.waiting ∨ s.prober.responses ref = []

structure Records (s s' : ProbeReader) (ref : Nat) (data : Bytes) (response : StoredResponse) :
    Prop where
  buf : s'.buf = s.buf
  replies : s'.replies = Function.update s.replies ref (s.replies ref ++ [data])
  sound : s'.prober.pendingProbes.Sound
  parsed : parseProbeResponse data = some response
  responses : ∀ other, s'.prober.responses other =
    if other = ref then s.prober.responses ref ++ [response] else s.prober.responses other
  waiting : s'.waiting = s.waiting

theorem Quiet.refl (s : ProbeReader) : Quiet s s := ⟨rfl, rfl, id, fun _ => rfl, fun _ => Or.inl⟩

theorem dispatch_cases (s : ProbeReader) (sound : s.prober.pendingProbes.Sound) (count : Nat)
    (sender : UDPAddr) :
    Quiet s (s.dispatch count sender) ∧ (s.dispatch count sender).waiting = s.waiting ∨
      ∃ ref response, Records s (s.dispatch count sender) ref (s.buf.take count) response := by
  unfold dispatch
  split
  · exact Or.inl ⟨.refl s, rfl⟩
  split
  case isFalse => exact Or.inl ⟨.refl s, rfl⟩
  dsimp only
  have handled := s.prober.handleProbePacket_recorded (s.buf.take count) sender
  cases found : s.prober.recorded (s.buf.take count) with
  | none =>
      simp only [found] at handled
      exact Or.inl ⟨⟨rfl, by simp only [noted, found], fun sound => by rwa [handled],
        fun ref => by rw [handled], fun _ => Or.inl⟩, rfl⟩
  | some entry =>
      obtain ⟨ref, response⟩ := entry
      obtain ⟨parsed, pending⟩ := s.prober.recorded_eq_some found
      have made := sound.bound _ ref pending
      simp only [found] at handled
      refine Or.inr ⟨ref, response, rfl, by simp only [noted, found], ?_, parsed, ?_, rfl⟩
      · rw [handled]
        exact sound.modify ref _
      · intro other
        rw [handled]
        exact s.prober.responses_record made response other

theorem probeViaHelper_quiet (s : ProbeReader) (helperAddrs : List UDPAddr) (now : Int) :
    Quiet s (s.probeViaHelper helperAddrs now) := by
  unfold probeViaHelper
  split
  · exact .refl s
  refine ⟨rfl, rfl, fun sound => sound.put _ _, fun ref => s.prober.responses_put _ rfl _ ref, ?_⟩
  intro ref listed
  rcases List.mem_cons.mp listed with rfl | earlier
  · have unused : s.prober.pendingProbes.deref s.prober.pendingProbes.objects.length = none :=
      List.getElem?_eq_none le_rfl
    exact Or.inr (by rw [NATProber.responses, unused])
  · exact Or.inl earlier

theorem step_cases (s : ProbeReader) (event : Event) :
    (∃ datagram sender, event = .read datagram sender) ∨
      Quiet s (s.step event) ∧ Agrees s event := by
  cases event with
  | probeViaHelper helperAddrs now => exact Or.inr ⟨s.probeViaHelper_quiet helperAddrs now, trivial⟩
  | read datagram sender => exact Or.inl ⟨datagram, sender, rfl⟩
  | received ref =>
      exact Or.inr ⟨⟨rfl, rfl, fun sound => sound.modify _ _,
        fun other => s.prober.responses_modify ref other _ fun _ => rfl, fun _ => Or.inl⟩, trivial⟩
  | analyze ref =>
      have probes := s.prober.analyzeResponses_pendingProbes (s.observations ref)
      refine Or.inr ⟨⟨rfl, rfl, fun sound => ?_, fun other => ?_, fun other listed => ?_⟩, trivial⟩
      · exact probes ▸ sound
      · unfold step NATProber.responses
        dsimp only
        rw [probes]
      · exact Or.inl (List.mem_filter.mp listed).1
  | finish ref =>
      refine Or.inr ⟨?_, trivial⟩
      unfold step
      dsimp only
      split
      · exact ⟨rfl, rfl, fun sound => sound.delete _, fun _ => rfl, fun _ => Or.inl⟩
      · exact .refl s
  | cleanupStaleProbes now =>
      exact Or.inr ⟨⟨rfl, rfl, fun sound => sound.retain _, fun _ => rfl, fun _ => Or.inl⟩, trivial⟩

section Matched

variable {A B : Type} {R : A → B → Prop} {xs : List A} {ys : List B}

theorem forall₂_concat {x : A} {y : B} :
    List.Forall₂ R (xs ++ [x]) (ys ++ [y]) ↔ List.Forall₂ R xs ys ∧ R x y := by
  rw [← List.forall₂_reverse_iff, List.reverse_concat, List.reverse_concat, List.forall₂_cons,
    List.forall₂_reverse_iff, and_comm]

theorem forall₂_iff_forall {P Q : A → B → Prop} {T : A → Prop} (first : List.Forall₂ P xs ys)
    (second : List.Forall₂ Q xs ys) (each : ∀ x y, P x y → Q x y → (R x y ↔ T x)) :
    List.Forall₂ R xs ys ↔ ∀ x ∈ xs, T x := by
  induction first with
  | nil => exact iff_of_true .nil (by simp)
  | cons head tail ih =>
      obtain ⟨here, there⟩ := List.forall₂_cons.mp second
      rw [List.forall₂_cons, List.forall_mem_cons, each _ _ head here, ih there]

end Matched

variable {s s' : ProbeReader}

theorem Quiet.keeps_recorded (quiet : Quiet s s') (recorded : Recorded s) : Recorded s' where
  large := quiet.buf ▸ recorded.large
  sound := quiet.sound recorded.sound
  parsed ref := by
    rw [quiet.replies, quiet.responses]
    exact recorded.parsed ref

theorem Quiet.observations_eq (quiet : Quiet s s') (ref : Nat) :
    s'.observations ref = s.observations ref := by
  rw [observations, observations, quiet.responses, quiet.buf]

theorem Quiet.keeps_stable (quiet : Quiet s s') (recorded : Recorded s) (stable : Stable s) :
    Stable s' := by
  intro ref listed
  rw [quiet.replies, quiet.observations_eq]
  rcases quiet.waiting ref listed with earlier | empty
  · exact stable ref earlier
  · have none := recorded.parsed ref
    rw [empty, List.forall₂_nil_right_iff] at none
    rw [none, observations, empty]
    exact .nil

theorem Quiet.stable_iff (quiet : Quiet s s') (waiting : s'.waiting = s.waiting) :
    Stable s' ↔ Stable s := by
  unfold Stable
  simp only [quiet.replies, quiet.observations_eq, waiting]

section Records

variable {ref count : Nat} {response : StoredResponse}
  (records : Records s s' ref (s.buf.take count) response) (recorded : Recorded s)

include records recorded

theorem Records.keeps_recorded : Recorded s' where
  large := records.buf ▸ recorded.large
  sound := records.sound
  parsed other := by
    rw [records.replies, records.responses, Function.update_apply]
    split
    · exact forall₂_concat.mpr ⟨recorded.parsed ref, records.parsed⟩
    · exact recorded.parsed other

theorem Records.stable_iff : Stable s' ↔ Stable s := by
  have shown := shows_just_read recorded.large records.parsed
  unfold Stable
  rw [records.waiting]
  refine forall_congr' fun other => forall_congr' fun listed => ?_
  rw [observations, observations, records.replies, records.responses, records.buf,
    Function.update_apply]
  split
  next same =>
    subst same
    rw [List.map_append, List.map_singleton, forall₂_concat, and_iff_left shown]
  next => rfl

end Records

theorem stable_overwrite_iff (recorded : Recorded s) (stable : Stable s) (datagram : Bytes) :
    Stable { s with buf := overwrite s.buf datagram } ↔
      ∀ ref ∈ s.waiting, ∀ reply ∈ s.replies ref, Spares datagram reply := by
  refine forall_congr' fun ref => forall_congr' fun listed => ?_
  have shown := stable ref listed
  rw [observations, List.forall₂_map_right_iff] at shown ⊢
  exact forall₂_iff_forall (recorded.parsed ref) shown fun reply response parsed shown =>
    shows_overwrite_iff recorded.large parsed shown datagram

theorem recorded_overwrite (recorded : Recorded s) (datagram : Bytes) :
    Recorded { s with buf := overwrite s.buf datagram } where
  large := by
    rw [length_overwrite]
    exact recorded.large
  sound := recorded.sound
  parsed := recorded.parsed

theorem handleRead_keeps (recorded : Recorded s) (datagram : Bytes) (sender : Option UDPAddr) :
    Recorded (s.handleRead datagram sender) ∧
      (Stable (s.handleRead datagram sender) ↔
        Stable { s with buf := overwrite s.buf datagram }) := by
  have afterwards := recorded_overwrite recorded datagram
  cases sender with
  | none => exact ⟨afterwards, Iff.rfl⟩
  | some sender =>
      rcases dispatch_cases _ afterwards.sound (min datagram.length s.buf.length) sender with
        ⟨quiet, waiting⟩ | ⟨ref, response, records⟩
      · exact ⟨quiet.keeps_recorded afterwards, quiet.stable_iff waiting⟩
      · exact ⟨records.keeps_recorded afterwards, records.stable_iff afterwards⟩

theorem step_recorded (s : ProbeReader) (event : Event) (recorded : Recorded s) :
    Recorded (s.step event) := by
  rcases s.step_cases event with ⟨datagram, sender, rfl⟩ | ⟨quiet, _⟩
  · exact (handleRead_keeps recorded datagram sender).1
  · exact quiet.keeps_recorded recorded

theorem step_stable_iff (s : ProbeReader) (event : Event) (recorded : Recorded s)
    (stable : Stable s) : Stable (s.step event) ↔ Agrees s event := by
  rcases s.step_cases event with ⟨datagram, sender, rfl⟩ | ⟨quiet, agrees⟩
  · exact (handleRead_keeps recorded datagram sender).2.trans
      (stable_overwrite_iff recorded stable datagram)
  · exact iff_of_true (quiet.keeps_stable recorded stable) agrees

theorem recorded_start {buf : Bytes} (large : 30 ≤ buf.length) (localAddr : Option UDPAddr) :
    Recorded (start buf localAddr) where
  large := large
  sound := RefMap.sound_empty
  parsed _ := .nil

/-- The replies that wait for their analysis keep what the helpers wrote exactly when no datagram that
is read meanwhile has other bytes in their place. -/
theorem replies_stable_iff {buf : Bytes} (large : 30 ≤ buf.length) (localAddr : Option UDPAddr)
    (events : List Event) :
    Run.Throughout step Stable (start buf localAddr) events ↔
      Run.Along step Agrees (start buf localAddr) events :=
  Run.throughout_iff_along_under (start buf localAddr) events (recorded_start large localAddr)
    (fun _ waits => by cases waits) step_recorded step_stable_iff

/-- A probe of two helpers, the reply of the first, and the same datagram once more. -/
theorem replies_stable_iff_duplicate :
    Run.Throughout step Stable (start (List.replicate 30 0) none)
      [.probeViaHelper [⟨[198, 51, 100, 1], 9⟩, ⟨[198, 51, 100, 2], 9⟩] 0,
        .read (NATProber.buildProbeResponse 1 ⟨[203, 0, 113, 7], 4000⟩ 9)
          (some ⟨[198, 51, 100, 1], 9⟩),
        .read (NATProber.buildProbeResponse 1 ⟨[203, 0, 113, 7], 4000⟩ 9)
          (some ⟨[198, 51, 100, 1], 9⟩)] := by
  refine (replies_stable_iff (by decide) none _).mpr ⟨trivial, ?_, ?_, trivial⟩
  · intro ref _ reply recorded
    cases recorded
  · intro ref waits reply recorded
    obtain rfl := List.mem_singleton.mp waits
    rw [List.mem_singleton.mp recorded]
    exact fun _ _ _ _ _ _ _ _ _ => id

theorem handleRead_of_fits (s : ProbeReader) (datagram : Bytes) (sender : UDPAddr)
    (fits : datagram.length ≤ s.buf.length) :
    s.handleRead datagram (some sender) =
      dispatch { s with buf := datagram ++ s.buf.drop datagram.length } datagram.length sender := by
  rw [handleRead, overwrite_of_fits fits, min_eq_left fits]

/-- Two helpers reply, and the second reply is read over the first: its response then shows the other
address. -/
theorem second_reply_overwrites :
    ∃ buf : Bytes, buf.length = largeBufferSize ∧ ¬Stable (Run.run step (start buf none)
      [.probeViaHelper [⟨[198, 51, 100, 1], 9⟩, ⟨[198, 51, 100, 2], 9⟩] 0,
        .read (NATProber.buildProbeResponse 1 ⟨[203, 0, 113, 7], 4000⟩ 9)
          (some ⟨[198, 51, 100, 1], 9⟩),
        .read (NATProber.buildProbeResponse 1 ⟨[192, 0, 2, 1], 4000⟩ 9)
          (some ⟨[198, 51, 100, 2], 9⟩)]) := by
  obtain ⟨buf, size⟩ : ∃ buf : Bytes, buf.length = largeBufferSize :=
    ⟨List.replicate largeBufferSize 0, List.length_replicate⟩
  refine ⟨buf, size, ?_⟩
  unfold largeBufferSize at size
  have firstFits : 18 ≤ buf.length := by omega
  have firstRead := handleRead_of_fits
    (probeViaHelper (start buf none) [⟨[198, 51, 100, 1], 9⟩, ⟨[198, 51, 100, 2], 9⟩] 0)
    (NATProber.buildProbeResponse 1 ⟨[203, 0, 113, 7], 4000⟩ 9) ⟨[198, 51, 100, 1], 9⟩ firstFits
  have secondFits : 18 ≤ (NATProber.buildProbeResponse 1 ⟨[203, 0, 113, 7], 4000⟩ 9 ++
      buf.drop 18).length := by
    rw [List.length_append, List.length_drop]
    omega
  have secondRead := handleRead_of_fits _ (NATProber.buildProbeResponse 1 ⟨[192, 0, 2, 1], 4000⟩ 9)
    ⟨[198, 51, 100, 2], 9⟩ (secondFits.trans_eq (congrArg (fun s => s.buf.length) firstRead).symm)
  intro stable
  simp only [Run.run, List.foldl_cons, List.foldl_nil, step] at stable
  rw [secondRead, firstRead] at stable
  -- the one probe has both replies, and both point at the bytes of the second
  have both : List.Forall₂ Shows
      [NATProber.buildProbeResponse 1 ⟨[203, 0, 113, 7], 4000⟩ 9,
        NATProber.buildProbeResponse 1 ⟨[192, 0, 2, 1], 4000⟩ 9]
      [⟨1, ⟨[192, 0, 2, 1], 4000⟩, 9⟩, ⟨1, ⟨[192, 0, 2, 1], 4000⟩, 9⟩] := stable 0 List.mem_cons_self
  have same := (List.forall₂_cons.mp both).1 1 ⟨[203, 0, 113, 7], 4000⟩ 9 ⟨Or.inl rfl, by decide⟩ rfl
  cases same

end ProbeReader

end Tenet
