import Tenet.Probe
import Tenet.RelayFormat

/-! `NATInfo`, which `ProbeNAT` keeps of a probe's result, and its encoding. -/

namespace Tenet

open Lib.Slice

namespace NATType

def value : NATType → Nat
  | .unknown => 0
  | .none => 1
  | .fullCone => 2
  | .restrictedCone => 3
  | .portRestricted => 4
  | .symmetric => 5
  | .other value => value

def ofValue : Nat → NATType
  | 0 => .unknown
  | 1 => .none
  | 2 => .fullCone
  | 3 => .restrictedCone
  | 4 => .portRestricted
  | 5 => .symmetric
  | value => .other value

end NATType

/-- `NATInfo` without the time of the probe, which is not encoded. -/
structure NATInfo where
  type : NATType
  publicAddr : UDPAddr
  portPredictable : Bool
  portDelta : Int
  deriving DecidableEq

/-- What `ProbeNAT` keeps of a result. -/
def ProbeResult.natInfo (result : ProbeResult) : NATInfo :=
  ⟨result.natType, result.publicAddr, result.portPredictable, result.portDelta⟩

/-- `uint16(n.PortDelta)` drops the sign. -/
def NATInfo.encode (n : NATInfo) : Bytes :=
  let ip := n.publicAddr.ip.wire
  UInt8.ofNat n.type.value :: bigEndian 2 n.publicAddr.port ++ UInt8.ofNat ip.length :: ip ++
    (if n.portPredictable then 1 else 0) :: bigEndian 2 (n.portDelta % 2 ^ 16).toNat

/-- `none` where the source would read out of range. -/
def decodeNATInfo (data : Bytes) : Option (Except String NATInfo) :=
  if data.length < 7 then some (.error "数据长度不足")
  else do
    let type ← index data 0
    let port ← slice data 1 3
    let ipLen := (← index data 3).toNat
    if data.length < 7 + ipLen then some (.error "数据长度不足，无法解析 IP")
    else
      let ip ← slice data 4 (4 + ipLen)
      let predictable ← index data (4 + ipLen)
      let delta ← slice data (5 + ipLen) (7 + ipLen)
      some (.ok {
        type := .ofValue type.toNat
        publicAddr := ⟨ip, ofBigEndian port⟩
        portPredictable := predictable == 1
        portDelta := ofBigEndian delta })

def NATInfo.RoundTrips (n : NATInfo) : Prop :=
  ∃ decoded, decodeNATInfo n.encode = some (.ok decoded) ∧ decoded.type = n.type ∧
    decoded.publicAddr.same n.publicAddr = true ∧
    decoded.portPredictable = n.portPredictable ∧ decoded.portDelta = n.portDelta

/-- A type with a name, an address with a port, and the difference of two ports. -/
structure NATInfo.Storable (n : NATInfo) : Prop where
  named : ∀ value, n.type ≠ .other value
  addr : n.publicAddr.Valid
  low : -65536 < n.portDelta
  high : n.portDelta < 65536

def natInfoAt (data : Bytes) (ipLen : Nat) : NATInfo where
  type := .ofValue (data.getD 0 0).toNat
  publicAddr := ⟨(data.drop 4).take ipLen, ofBigEndian ((data.drop 1).take 2)⟩
  portPredictable := data.getD (4 + ipLen) 0 == 1
  portDelta := ofBigEndian ((data.drop (5 + ipLen)).take 2)

/-- The two length checks cover every read. -/
theorem decodeNATInfo_eq (data : Bytes) :
    decodeNATInfo data = some
      (if data.length < 7 then .error "数据长度不足"
      else if data.length < 7 + (data.getD 3 0).toNat then .error "数据长度不足，无法解析 IP"
      else .ok (natInfoAt data (data.getD 3 0).toNat)) := by
  unfold decodeNATInfo
  split
  next => rfl
  next enough =>
    have ipLen := index_inside data 3 0 (by omega)
    rw [index_inside data 0 0 (by omega), slice_inside data 1 2 (by omega), ipLen]
    simp only [Option.bind_eq_bind, Option.bind_some]
    split
    next => rfl
    next fits =>
      have last : 7 + (data.getD 3 0).toNat = 5 + (data.getD 3 0).toNat + 2 := by omega
      rw [slice_inside data 4 _ (by omega), index_inside data _ 0 (by omega), last,
        slice_inside data _ 2 (by omega)]
      rfl

theorem NATType.ofValue_value {t : NATType} (named : ∀ value, t ≠ .other value) :
    ofValue t.value = t ∧ t.value < 256 := by
  cases t with
  | other value => exact absurd rfl (named value)
  | _ => exact ⟨rfl, by decide⟩

namespace NATInfo

variable {n : NATInfo}

theorem decode_encode (valid : n.publicAddr.Valid) (small : n.type.value < 256) :
    decodeNATInfo n.encode = some (.ok {
      type := .ofValue n.type.value
      publicAddr := ⟨n.publicAddr.ip.wire, n.publicAddr.port⟩
      portPredictable := n.portPredictable
      portDelta := n.portDelta % 2 ^ 16 }) := by
  have size := IP.length_wire valid.ip
  set ip := n.publicAddr.ip.wire with wire
  set flag : UInt8 := if n.portPredictable then 1 else 0 with flagged
  set delta := bigEndian 2 (n.portDelta % 2 ^ 16).toNat with field
  have encoded : n.encode = UInt8.ofNat n.type.value :: bigEndian 2 n.publicAddr.port ++
      UInt8.ofNat ip.length :: ip ++ flag :: delta := rfl
  -- the record cut in front of each of its fields
  have atPort : n.encode = [UInt8.ofNat n.type.value] ++ (bigEndian 2 n.publicAddr.port ++
      (UInt8.ofNat ip.length :: ip ++ flag :: delta)) := by
    simp [encoded]
  have atLength : n.encode = (UInt8.ofNat n.type.value :: bigEndian 2 n.publicAddr.port) ++
      (UInt8.ofNat ip.length :: ip ++ flag :: delta) := by
    simp [encoded]
  have atIP : n.encode = (UInt8.ofNat n.type.value :: bigEndian 2 n.publicAddr.port ++
      [UInt8.ofNat ip.length]) ++ (ip ++ flag :: delta) := by
    simp [encoded]
  have atDelta : n.encode = (UInt8.ofNat n.type.value :: bigEndian 2 n.publicAddr.port ++
      UInt8.ofNat ip.length :: ip ++ [flag]) ++ (delta ++ []) := by
    simp [encoded]
  have total : n.encode.length = 7 + ip.length := by
    simp [encoded, field]
    omega
  have ipLen : (n.encode.getD 3 0).toNat = ip.length := by
    rw [atLength, getD_append _ _ _ 3 (by simp)]
    exact toNat_ofNat_length ip (by omega)
  have type : (n.encode.getD 0 0).toNat = n.type.value := by
    rw [encoded]
    exact UInt8.toNat_ofNat'.trans (Nat.mod_eq_of_lt small)
  have port : (n.encode.drop 1).take 2 = bigEndian 2 n.publicAddr.port := by
    rw [atPort, part_append _ _ _ (by rfl) (bigEndian_length 2 _)]
  have address : (n.encode.drop 4).take ip.length = ip := by
    rw [atIP, part_append _ _ _ (by simp) rfl]
  have predictable : n.encode.getD (4 + ip.length) 0 = flag := by
    rw [encoded, getD_append _ _ _ (4 + ip.length) (by simp; omega)]
    rfl
  have last : (n.encode.drop (5 + ip.length)).take 2 = delta := by
    rw [atDelta, part_append _ _ _ (by simp; omega) (bigEndian_length 2 _)]
  have whole : n.publicAddr.port % 256 ^ 2 = n.publicAddr.port := Nat.mod_eq_of_lt valid.port
  have unsigned : ((n.portDelta % 2 ^ 16).toNat : Int) = n.portDelta % 2 ^ 16 := by omega
  have within : (n.portDelta % 2 ^ 16).toNat % 256 ^ 2 = (n.portDelta % 2 ^ 16).toNat :=
    Nat.mod_eq_of_lt (by omega)
  have bit : (flag == 1) = n.portPredictable := by
    rw [flagged]
    cases n.portPredictable <;> rfl
  rw [decodeNATInfo_eq, ipLen, total, if_neg (by omega), if_neg (by omega), natInfoAt, type, port,
    address, predictable, last, field, bit, ofBigEndian_bigEndian, ofBigEndian_bigEndian, within,
    unsigned, whole]

theorem roundTrips_iff (storable : n.Storable) : n.RoundTrips ↔ 0 ≤ n.portDelta := by
  obtain ⟨type, small⟩ := NATType.ofValue_value storable.named
  have address : UDPAddr.same ⟨n.publicAddr.ip.wire, n.publicAddr.port⟩ n.publicAddr = true := by
    rw [UDPAddr.same, Bool.and_eq_true, beq_iff_eq]
    exact ⟨(IP.equal_iff_wire storable.addr.ip rfl).mpr rfl, rfl⟩
  have low := storable.low
  have high := storable.high
  rw [RoundTrips, decode_encode storable.addr small]
  constructor
  · rintro ⟨decoded, same, _, _, _, delta⟩
    cases same
    simp only at delta
    omega
  · intro positive
    have kept : n.portDelta % 2 ^ 16 = n.portDelta := by omega
    exact ⟨_, rfl, type, address, rfl, kept⟩

end NATInfo

theorem storable_of_zero {type : NATType} (named : ∀ value, type ≠ .other value) {addr : UDPAddr}
    (valid : addr.Valid) : NATInfo.Storable ⟨type, addr, false, 0⟩ :=
  ⟨named, valid, show (-65536 : Int) < 0 by decide, show (0 : Int) < 65536 by decide⟩

theorem natInfo_storable (p : NATProber) (responses : List ProbeResponse)
    (valid : ∀ response ∈ responses, response.observedAddr.Valid) {result : ProbeResult}
    (returned : (p.analyzeResponses responses).2 = .ok result) : result.natInfo.Storable := by
  unfold NATProber.analyzeResponses at returned
  split at returned
  · cases returned
  next first others =>
    have addr := valid first List.mem_cons_self
    dsimp only at returned
    split at returned
    · cases returned
      exact storable_of_zero (by simp) addr
    split at returned
    · cases returned
      exact storable_of_zero (by simp) addr
    next second rest =>
      have portFirst := addr.port
      have portSecond := (valid second (List.mem_cons_of_mem _ List.mem_cons_self)).port
      cases returned
      unfold analyzePorts
      split
      · exact storable_of_zero (by simp) addr
      dsimp only
      split
      · exact ⟨by simp [ProbeResult.natInfo], addr, by simp only [ProbeResult.natInfo]; omega,
          by simp only [ProbeResult.natInfo]; omega⟩
      · exact storable_of_zero (by simp) addr

/-- What a probe's result holds survives the encoding exactly when its port difference is not negative,
and no input makes the decoder read out of range. -/
theorem natInfo_codec (n : NATInfo) (data : Bytes) :
    (∀ (p : NATProber) (responses : List ProbeResponse) (result : ProbeResult),
        (∀ response ∈ responses, response.observedAddr.Valid) →
        (p.analyzeResponses responses).2 = .ok result → result.natInfo = n → n.Storable) ∧
      (n.Storable → (n.RoundTrips ↔ 0 ≤ n.portDelta)) ∧
      decodeNATInfo data ≠ none := by
  refine ⟨?_, NATInfo.roundTrips_iff, ?_⟩
  · rintro p responses result valid returned rfl
    exact natInfo_storable p responses valid returned
  · rw [decodeNATInfo_eq]
    exact Option.some_ne_none _

theorem natInfo_codec_rising :
    ∃ result, (NATProber.analyzeResponses ⟨none, none, ∅, 1⟩
        [⟨1, ⟨[203, 0, 113, 7], 5000⟩, 9⟩, ⟨1, ⟨[203, 0, 113, 7], 5001⟩, 9⟩]).2 = .ok result ∧
      result.portDelta = 1 ∧ result.natInfo.RoundTrips := by
  refine ⟨_, rfl, rfl, ?_⟩
  have codec := natInfo_codec ⟨.symmetric, ⟨[203, 0, 113, 7], 5000⟩, true, 1⟩ []
  have storable := codec.1 ⟨none, none, ∅, 1⟩
    [⟨1, ⟨[203, 0, 113, 7], 5000⟩, 9⟩, ⟨1, ⟨[203, 0, 113, 7], 5001⟩, 9⟩] _ (by
      intro response listed
      rcases List.mem_pair.mp listed with rfl | rfl <;> exact ⟨Or.inl rfl, by decide⟩) rfl rfl
  exact (codec.2.1 storable).mpr (by decide)

/-- Two helpers saw ports 5001 and 5000: the difference -1 comes back as 65535. -/
theorem falling_port_comes_back_unsigned :
    ∃ result, (NATProber.analyzeResponses ⟨none, none, ∅, 1⟩
        [⟨1, ⟨[203, 0, 113, 7], 5001⟩, 9⟩, ⟨1, ⟨[203, 0, 113, 7], 5000⟩, 9⟩]).2 = .ok result ∧
      result.portDelta = -1 ∧
      (∃ decoded, decodeNATInfo result.natInfo.encode = some (.ok decoded) ∧
        decoded.portDelta = 65535) ∧
      ¬result.natInfo.RoundTrips := by
  refine ⟨_, rfl, rfl, ⟨_, rfl, rfl⟩, ?_⟩
  rintro ⟨decoded, same, _, _, _, delta⟩
  cases same
  cases delta

end Tenet
