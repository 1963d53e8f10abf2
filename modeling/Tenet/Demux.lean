import Tenet.Mux
import Mathlib.Algebra.Order.Ring.Nat

/-! Which datagrams `routePacket` can tell apart. -/

namespace Tenet

/-- A datagram of a kcp-go session without cipher and FEC: the conversation id comes first. -/
def kcpDatagram (conv : UInt32) (body : Bytes) : Bytes := littleEndian 4 conv.toNat ++ body

def probeTypeRequest : UInt8 := 0x01
def probeTypeResponse : UInt8 := 0x02

def buildProbeRequest (requestID portCount : Nat) : Bytes :=
  probeMagic ++ probeTypeRequest :: bigEndian 4 requestID ++ [UInt8.ofNat portCount]

def buildProbeResponse (requestID : Nat) (ip : Bytes) (port fromPort : Nat) : Bytes :=
  probeMagic ++ probeTypeResponse :: bigEndian 4 requestID ++ bigEndian 2 port ++
    UInt8.ofNat ip.length :: ip ++ bigEndian 2 fromPort

def buildPunchPacket (peerID : Bytes) (timestamp : Nat) : Bytes :=
  punchMagic ++ peerID.take 16 ++ littleEndian 8 timestamp

/-- The TENT, NATP and PNCH packets that the node's own code builds. -/
inductive OwnPacket where
  | tent (packetType : UInt8) (body : Bytes)
  | probeRequest (requestID portCount : Nat)
  | probeResponse (requestID : Nat) (ip : Bytes) (port fromPort : Nat)
  | punch (peerID : Bytes) (long : 16 ≤ peerID.length) (timestamp : Nat)

namespace OwnPacket

def bytes : OwnPacket → Bytes
  | .tent packetType body => tentPacket packetType body
  | .probeRequest requestID portCount => buildProbeRequest requestID portCount
  | .probeResponse requestID ip port fromPort => buildProbeResponse requestID ip port fromPort
  | .punch peerID _ timestamp => buildPunchPacket peerID timestamp

/-- `handleRead` takes TENT and NATP packets from `tentConn`, and `Punch` its own from `punchConn`. -/
def reader : OwnPacket → VirtualConn
  | .tent _ _ => .tentConn
  | .probeRequest _ _ => .tentConn
  | .probeResponse _ _ _ _ => .tentConn
  | .punch _ _ _ => .punchConn

end OwnPacket

/-- The conversation ids whose bytes the classifier takes for a packet of another kind. -/
def ConvCollides (conv : UInt32) : Prop :=
  conv.toNat % 256 = 0x52 ∨ conv = 0x544E4554 ∨ conv = 0x48434E50 ∨ conv = 0x5054414E

instance (conv : UInt32) : Decidable (ConvCollides conv) := by
  unfold ConvCollides
  infer_instance

namespace UDPMux

def Enqueues (m : UDPMux) (packet : Datagram) (conn : VirtualConn) : Prop :=
  (m.routePacket packet).queue conn = m.queue conn ++ [packet]

/-- The packet goes to a connection that a KCP endpoint reads, and to no other. -/
def RoutedToKCP (m : UDPMux) (packet : Datagram) : Prop :=
  (∃ conn, conn.isKCP = true ∧ m.Enqueues packet conn) ∧
    ∀ conn, conn.isKCP = false → (m.routePacket packet).queue conn = m.queue conn

theorem enqueues_iff (m : UDPMux) (packet : Datagram) (conn : VirtualConn) :
    m.Enqueues packet conn ↔ conn = m.target packet ∧ m.hasRoom conn = true := by
  unfold Enqueues
  rw [queue_routePacket]
  by_cases there : conn = m.target packet ∧ m.hasRoom conn = true
  · rw [if_pos there]
    exact iff_of_true rfl there
  · rw [if_neg there]
    apply iff_of_false _ there
    intro grown
    have lengths := congrArg List.length grown
    rw [List.length_append, List.length_singleton] at lengths
    omega

end UDPMux

theorem littleEndian_inj (count left right : Nat) :
    littleEndian count left = littleEndian count right ↔
      left % 256 ^ count = right % 256 ^ count := by
  induction count generalizing left right with
  | zero => simp [littleEndian, Nat.mod_one]
  | succ count ih =>
      have bytes : UInt8.ofNat left = UInt8.ofNat right ↔ left % 256 = right % 256 := by
        rw [← UInt8.toNat_inj, UInt8.toNat_ofNat', UInt8.toNat_ofNat']
      rw [littleEndian, littleEndian, List.cons.injEq, bytes, ih, Nat.pow_succ, Nat.mul_comm,
        Nat.mod_mul, Nat.mod_mul]
      have low := Nat.mod_lt left (Nat.zero_lt_succ 255)
      have low' := Nat.mod_lt right (Nat.zero_lt_succ 255)
      omega

theorem kcpDatagram_take (conv : UInt32) (body : Bytes) (magic : UInt32) :
    (kcpDatagram conv body).take 4 = littleEndian 4 magic.toNat ↔ conv = magic := by
  have first : (kcpDatagram conv body).take 4 = littleEndian 4 conv.toNat :=
    List.take_left' (littleEndian_length 4 conv.toNat)
  rw [first, littleEndian_inj, ← UInt32.toNat_inj]
  have small := conv.toNat_lt
  have small' := magic.toNat_lt
  omega

theorem kcpDatagram_head (conv : UInt32) (body : Bytes) :
    (kcpDatagram conv body).head? = some 0x52 ↔ conv.toNat % 256 = 0x52 := by
  change some (UInt8.ofNat conv.toNat) = some 0x52 ↔ _
  rw [Option.some.injEq, ← UInt8.toNat_inj, UInt8.toNat_ofNat']
  rfl

theorem isPunchPacket_kcpDatagram (conv : UInt32) (body : Bytes) :
    UDPMux.isPunchPacket (kcpDatagram conv body) = true ↔ conv = 0x48434E50 := by
  have magic : punchMagic = littleEndian 4 (0x48434E50 : UInt32).toNat := by decide
  rw [UDPMux.isPunchPacket, beq_iff_eq, magic, kcpDatagram_take]

theorem isTentPacket_kcpDatagram (conv : UInt32) (body : Bytes) :
    UDPMux.isTentPacket (kcpDatagram conv body) = true ↔ conv = 0x544E4554 := by
  have magic : magicBytes = littleEndian 4 (0x544E4554 : UInt32).toNat := by decide
  rw [UDPMux.isTentPacket, beq_iff_eq, magic, kcpDatagram_take]

theorem isProbePacket_kcpDatagram (conv : UInt32) (body : Bytes) :
    UDPMux.isProbePacket (kcpDatagram conv body) = true ↔ conv = 0x5054414E := by
  have magic : probeMagic = littleEndian 4 (0x5054414E : UInt32).toNat := by decide
  rw [UDPMux.isProbePacket, beq_iff_eq, magic, kcpDatagram_take]

theorem isRawRelayPacket_kcpDatagram (conv : UInt32) (body : Bytes) :
    UDPMux.isRawRelayPacket (kcpDatagram conv body) = true ↔ conv.toNat % 256 = 0x52 := by
  rw [UDPMux.isRawRelayPacket, beq_iff_eq, kcpDatagram_head]

theorem target_of_clean (m : UDPMux) (conv : UInt32) (body addr : Bytes)
    (clean : ¬ ConvCollides conv) : m.target ⟨kcpDatagram conv body, addr⟩ = m.kcpTarget addr := by
  have punch : ¬ UDPMux.isPunchPacket (kcpDatagram conv body) = true := by
    rw [isPunchPacket_kcpDatagram]
    exact fun same => clean (Or.inr (Or.inr (Or.inl same)))
  have other : ¬ (UDPMux.isProbePacket (kcpDatagram conv body) ||
      UDPMux.isTentPacket (kcpDatagram conv body) ||
      UDPMux.isRawRelayPacket (kcpDatagram conv body)) = true := by
    rw [Bool.or_eq_true, Bool.or_eq_true, isProbePacket_kcpDatagram, isTentPacket_kcpDatagram,
      isRawRelayPacket_kcpDatagram]
    rintro ((probe | tent) | raw)
    · exact clean (Or.inr (Or.inr (Or.inr probe)))
    · exact clean (Or.inr (Or.inl tent))
    · exact clean (Or.inl raw)
  rw [UDPMux.target, if_neg punch, if_neg other]

theorem target_of_collision (m : UDPMux) (conv : UInt32) (body addr : Bytes)
    (collides : ConvCollides conv) :
    (m.target ⟨kcpDatagram conv body, addr⟩).isKCP = false := by
  unfold UDPMux.target
  by_cases punch : UDPMux.isPunchPacket (kcpDatagram conv body) = true
  · rw [if_pos punch]
    rfl
  · have other : (UDPMux.isProbePacket (kcpDatagram conv body) ||
        UDPMux.isTentPacket (kcpDatagram conv body) ||
        UDPMux.isRawRelayPacket (kcpDatagram conv body)) = true := by
      rw [isPunchPacket_kcpDatagram] at punch
      rw [Bool.or_eq_true, Bool.or_eq_true, isProbePacket_kcpDatagram, isTentPacket_kcpDatagram,
        isRawRelayPacket_kcpDatagram]
      rcases collides with raw | tent | punched | probe
      · exact Or.inr raw
      · exact Or.inl (Or.inr tent)
      · exact absurd punched punch
      · exact Or.inl (Or.inl probe)
    rw [if_neg punch, if_pos other]
    rfl

theorem target_ownPacket (m : UDPMux) (own : OwnPacket) (addr : Bytes) :
    m.target ⟨own.bytes, addr⟩ = own.reader := by
  cases own with
  | tent packetType body => rfl
  | probeRequest requestID portCount => rfl
  | probeResponse requestID ip port fromPort => rfl
  | punch peerID long timestamp => rfl

/-- A KCP datagram reaches a KCP connection exactly if its conversation id does not look like
another packet and the queue has room; the node's own packets always go to their reader, if it
has room. -/
theorem demux_iff (m : UDPMux) (addr : Bytes) :
    (∀ conv body, m.RoutedToKCP ⟨kcpDatagram conv body, addr⟩ ↔
      ¬ ConvCollides conv ∧ m.hasRoom (m.kcpTarget addr) = true) ∧
    ∀ own : OwnPacket, m.Enqueues ⟨own.bytes, addr⟩ own.reader ↔ m.hasRoom own.reader = true := by
  constructor
  · intro conv body
    constructor
    · rintro ⟨⟨conn, isKCP, enqueued⟩, _⟩
      rcases (m.enqueues_iff _ conn).mp enqueued with ⟨rfl, room⟩
      have clean : ¬ ConvCollides conv := by
        intro collides
        rw [target_of_collision m conv body addr collides] at isKCP
        cases isKCP
      rw [target_of_clean m conv body addr clean] at room
      exact ⟨clean, room⟩
    · rintro ⟨clean, room⟩
      have target := target_of_clean m conv body addr clean
      refine ⟨⟨m.kcpTarget addr, m.kcpTarget_isKCP addr, ?_⟩, ?_⟩
      · exact (m.enqueues_iff _ _).mpr ⟨target.symm, room⟩
      · intro conn other
        rw [UDPMux.queue_routePacket, target, if_neg]
        rintro ⟨rfl, _⟩
        rw [m.kcpTarget_isKCP addr] at other
        cases other
  · intro own
    rw [UDPMux.enqueues_iff, target_ownPacket]
    exact and_iff_right rfl

/-- A session whose conversation id is 0x52: the bytes begin with 'R'. -/
theorem relay_lookalike_misrouted :
    ¬ UDPMux.newUDPMux.RoutedToKCP ⟨kcpDatagram 0x52 [81, 0], [0x41]⟩ ∧
      UDPMux.newUDPMux.Enqueues ⟨kcpDatagram 0x52 [81, 0], [0x41]⟩ .tentConn := by
  have misrouted : UDPMux.newUDPMux.Enqueues ⟨kcpDatagram 0x52 [81, 0], [0x41]⟩ .tentConn := by
    unfold UDPMux.Enqueues
    decide
  refine ⟨?_, misrouted⟩
  rintro ⟨_, untouched⟩
  have unchanged := untouched .tentConn rfl
  rw [misrouted] at unchanged
  cases unchanged

end Tenet
