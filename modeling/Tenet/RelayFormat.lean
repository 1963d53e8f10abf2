import Tenet.Lib.Slice
import Tenet.Relay

/-! The relay format from one end to the other: what `buildRelayPacket` writes is what the parser
and `DecodeToken` read back, over one hop and over two, and how long its token is accepted. -/

namespace Tenet

open Lib.Slice

section Words

theorem ofBigEndian_bigEndian (count value : Nat) :
    ofBigEndian (bigEndian count value) = value % 256 ^ count := by
  rw [ofBigEndian, bigEndian, List.foldl_reverse]
  induction count generalizing value with
  | zero => simp [littleEndian, Nat.mod_one]
  | succ count ih =>
      have low : (UInt8.ofNat value).toNat = value % 256 := UInt8.toNat_ofNat'
      simp only [littleEndian, List.foldr_cons, ih]
      rw [low, Nat.pow_succ', Nat.mod_mul]
      omega

def IsInt64 (value : Int) : Prop := -2 ^ 63 ≤ value ∧ value < 2 ^ 63

theorem int64_of_isInt64 (value : Int) (fits : IsInt64 value) : int64 value = value := by
  obtain ⟨low, high⟩ := fits
  apply Int.bmod_eq_of_le <;> omega

theorem int64_putInt64 (value : Int) (fits : IsInt64 value) :
    int64 (ofBigEndian (putInt64 value)) = value := by
  have positive : ((value % 2 ^ 64).toNat : Int) = value % 2 ^ 64 := by omega
  have wraps : ((value % 2 ^ 64).toNat % 256 ^ 8 : Nat) = (value % 2 ^ 64).toNat :=
    Nat.mod_eq_of_lt (by omega)
  calc
    int64 (ofBigEndian (putInt64 value)) = int64 ((value % 2 ^ 64).toNat : Int) := by
      rw [putInt64, ofBigEndian_bigEndian, wraps]
    _ = int64 value := by
      rw [positive]
      exact Int.emod_bmod value (2 ^ 64)
    _ = value := int64_of_isInt64 value fits

@[simp] theorem bigEndian_length (count value : Nat) : (bigEndian count value).length = count := by
  rw [bigEndian, List.length_reverse, littleEndian_length]

@[simp] theorem putInt64_length (value : Int) : (putInt64 value).length = 8 := bigEndian_length 8 _

theorem toNat_ofNat_length (bytes : Bytes) (short : bytes.length ≤ 255) :
    (UInt8.ofNat bytes.length).toNat = bytes.length := by
  rw [UInt8.toNat_ofNat']
  omega

end Words

theorem decodeToken_encode (token : RelayAuthToken) (src : token.srcID.length = 16)
    (dst : token.dstID.length = 16) (time : IsInt64 token.timestamp)
    (signature : token.signature.length ≤ 255) : decodeToken token.encode = .ok token := by
  obtain ⟨srcID, dstID, timestamp, sig⟩ := token
  simp only at src dst time signature
  have header : (srcID ++ dstID ++ putInt64 timestamp).length = 40 := by simp [src, dst]
  have total : (RelayAuthToken.encode ⟨srcID, dstID, timestamp, sig⟩).length = 41 + sig.length := by
    simp only [RelayAuthToken.encode, List.length_append, List.length_cons, src, dst,
      putInt64_length]
    omega
  have sigLen : ((RelayAuthToken.encode ⟨srcID, dstID, timestamp, sig⟩).getD 40 0).toNat =
      sig.length := by
    rw [RelayAuthToken.encode, getD_append _ _ _ _ header]
    exact toNat_ofNat_length sig signature
  -- The encoding cut in front of each of its fields.
  have atDst : RelayAuthToken.encode ⟨srcID, dstID, timestamp, sig⟩ =
      srcID ++ (dstID ++ (putInt64 timestamp ++ UInt8.ofNat sig.length :: sig)) := by
    simp only [RelayAuthToken.encode, List.append_assoc]
  have atTime : RelayAuthToken.encode ⟨srcID, dstID, timestamp, sig⟩ =
      (srcID ++ dstID) ++ (putInt64 timestamp ++ UInt8.ofNat sig.length :: sig) := by
    simp only [RelayAuthToken.encode, List.append_assoc]
  have atSig : RelayAuthToken.encode ⟨srcID, dstID, timestamp, sig⟩ =
      (srcID ++ dstID ++ putInt64 timestamp ++ [UInt8.ofNat sig.length]) ++ sig := by
    simp only [RelayAuthToken.encode, List.append_assoc, List.singleton_append]
  have srcPart : (RelayAuthToken.encode ⟨srcID, dstID, timestamp, sig⟩).take 16 = srcID := by
    rw [atDst, List.take_left' src]
  have dstPart :
      ((RelayAuthToken.encode ⟨srcID, dstID, timestamp, sig⟩).drop 16).take 16 = dstID := by
    rw [atDst, part_append _ _ _ src dst]
  have timePart : ((RelayAuthToken.encode ⟨srcID, dstID, timestamp, sig⟩).drop 32).take 8 =
      putInt64 timestamp := by
    rw [atTime, part_append _ _ _ (by simp [src, dst]) (putInt64_length timestamp)]
  have sigPart : (RelayAuthToken.encode ⟨srcID, dstID, timestamp, sig⟩).drop 41 = sig := by
    rw [atSig, List.drop_left' (by simp [src, dst])]
  simp only [decodeToken, total, sigLen, srcPart, dstPart, timePart, sigPart, List.take_length,
    int64_putInt64 timestamp time]
  rw [if_neg (by omega), if_neg (by omega)]

theorem parseRelayPacket_built (mode : UInt8) (addr token inner : Bytes)
    (addrShort : addr.length ≤ 255) (tokenShort : token.length ≤ 255) :
    parseRelayPacket (mode :: UInt8.ofNat addr.length :: addr ++
        UInt8.ofNat token.length :: token ++ inner) = some ⟨mode, addr, token, inner⟩ := by
  have front : (mode :: UInt8.ofNat addr.length :: addr).length = 2 + addr.length := by
    simp only [List.length_cons]
    omega
  have total : (mode :: UInt8.ofNat addr.length :: addr ++
      UInt8.ofNat token.length :: token ++ inner).length =
        2 + addr.length + 1 + token.length + inner.length := by
    simp only [List.length_append, List.length_cons]
    omega
  have addrLen : ((mode :: UInt8.ofNat addr.length :: addr ++
      UInt8.ofNat token.length :: token ++ inner).getD 1 0).toNat = addr.length :=
    toNat_ofNat_length addr addrShort
  have tokenLen : ((mode :: UInt8.ofNat addr.length :: addr ++
      UInt8.ofNat token.length :: token ++ inner).getD (2 + addr.length) 0).toNat =
        token.length := by
    rw [List.append_assoc, getD_append _ _ _ _ front]
    exact toNat_ofNat_length token tokenShort
  have addrPart : ((mode :: UInt8.ofNat addr.length :: addr ++
      UInt8.ofNat token.length :: token ++ inner).drop 2).take addr.length = addr := by
    simp only [List.cons_append, List.append_assoc, List.drop_succ_cons, List.drop_zero,
      List.take_left]
  have atToken : mode :: UInt8.ofNat addr.length :: addr ++
      UInt8.ofNat token.length :: token ++ inner =
        (mode :: UInt8.ofNat addr.length :: addr ++ [UInt8.ofNat token.length]) ++
          (token ++ inner) := by
    simp only [List.cons_append, List.append_assoc, List.nil_append]
  have tokenAt : (mode :: UInt8.ofNat addr.length :: addr ++ [UInt8.ofNat token.length]).length =
      2 + addr.length + 1 := by
    rw [List.length_append, front]
    rfl
  have innerAt : (mode :: UInt8.ofNat addr.length :: addr ++
      UInt8.ofNat token.length :: token).length = 2 + addr.length + 1 + token.length := by
    rw [List.length_append, front, List.length_cons]
    omega
  simp only [parseRelayPacket, total, addrLen, tokenLen, addrPart]
  rw [if_neg (by omega), if_neg (by omega), if_neg (by omega), List.drop_left' innerAt, atToken,
    List.drop_left' tokenAt, List.take_left]
  rfl

section Bounds

/-- The reads of the parser with their bounds checks; the outer `none` is a read out of range. -/
def readRelayPacket (payload : Bytes) : Option (Option RelayPacket) :=
  if payload.length < 3 then some none
  else do
    let mode ← index payload 0
    let addrLen ← index payload 1
    if payload.length < 2 + addrLen.toNat + 1 then some none
    else do
      let addr ← slice payload 2 (2 + addrLen.toNat)
      let authTokenLen ← index payload (2 + addrLen.toNat)
      let offset := 2 + addrLen.toNat + 1
      if payload.length < offset + authTokenLen.toNat then some none
      else do
        let authToken ← slice payload offset (offset + authTokenLen.toNat)
        let inner ← slice payload (offset + authTokenLen.toNat) payload.length
        some (some ⟨mode, addr, authToken, inner⟩)

def readToken (data : Bytes) : Option (Except RelayAuthError RelayAuthToken) :=
  if data.length < 41 then some (.error .tooShort)
  else do
    let srcID ← slice data 0 16
    let dstID ← slice data 16 32
    let timestamp ← slice data 32 40
    let sigLen ← index data 40
    if data.length < 41 + sigLen.toNat then some (.error .truncated)
    else do
      let signature ← slice data 41 (41 + sigLen.toNat)
      some (.ok ⟨srcID, dstID, int64 (ofBigEndian timestamp), signature⟩)

theorem readRelayPacket_eq (payload : Bytes) :
    readRelayPacket payload = some (parseRelayPacket payload) := by
  simp only [readRelayPacket, parseRelayPacket]
  by_cases short : payload.length < 3
  · rw [if_pos short, if_pos short]
  rw [if_neg short, if_neg short, index_inside payload 0 0 (by omega),
    index_inside payload 1 0 (by omega)]
  simp only [Option.bind_eq_bind, Option.bind_some]
  by_cases noAddr : payload.length < 2 + (payload.getD 1 0).toNat + 1
  · rw [if_pos noAddr, if_pos noAddr]
  rw [if_neg noAddr, if_neg noAddr, slice_inside payload 2 _ (by omega),
    index_inside payload (2 + (payload.getD 1 0).toNat) 0 (by omega)]
  simp only [Option.bind_some]
  split
  · rfl
  · next enough =>
      rw [slice_inside payload _ _ (by omega), slice_rest payload _ (by omega)]
      rfl

theorem readToken_eq (data : Bytes) : readToken data = some (decodeToken data) := by
  simp only [readToken, decodeToken]
  by_cases short : data.length < 41
  · rw [if_pos short, if_pos short]
  rw [if_neg short, if_neg short, slice_inside data 0 16 (by omega),
    slice_inside data 16 16 (by omega), slice_inside data 32 8 (by omega),
    index_inside data 40 0 (by omega)]
  simp only [Option.bind_eq_bind, Option.bind_some, List.drop_zero]
  split
  · rfl
  · next enough =>
      rw [slice_inside data 41 _ (by omega)]
      rfl

end Bounds

section Freshness

def unixSeconds (clock : Int) : Int := clock / 1000000000

/-- Two readings that differ by at most the time, and whose seconds the code can represent. -/
structure Within (ttl clock other : Int) : Prop where
  notAfter : other - clock ≤ ttl
  notBefore : clock - other ≤ ttl
  fits : IsInt64 (unixSeconds clock)
  otherFits : IsInt64 (unixSeconds other)

theorem tokenAge_eq (now timestamp : Int) (fits : IsInt64 (now - timestamp))
    (negated : IsInt64 (timestamp - now)) :
    tokenAge now timestamp = max (now - timestamp) (timestamp - now) := by
  simp only [tokenAge, int64_of_isInt64 (now - timestamp) fits]
  split
  · rw [show -(now - timestamp) = timestamp - now by omega, int64_of_isInt64 _ negated]
    omega
  · omega

theorem tokenAge_within {ttl sent received : Int} (whole : ttl % 1000000000 = 0)
    (bounded : IsInt64 ttl) (within : Within ttl sent received) :
    tokenAge (unixSeconds received) (unixSeconds sent) ≤ ttl.tdiv 1000000000 := by
  obtain ⟨notAfter, notBefore, _, _⟩ := within
  obtain ⟨low, high⟩ := bounded
  simp only [unixSeconds]
  rw [tokenAge_eq _ _ (by constructor <;> omega) (by constructor <;> omega),
    Int.tdiv_eq_ediv_of_nonneg (by omega)]
  omega

theorem tokenAge_fraction {ttl : Int} (positive : 0 < ttl) (bounded : IsInt64 ttl)
    (fraction : ttl % 1000000000 ≠ 0) :
    ttl.tdiv 1000000000 < tokenAge (unixSeconds (999999999 + ttl)) (unixSeconds 999999999) := by
  obtain ⟨low, high⟩ := bounded
  simp only [unixSeconds]
  rw [tokenAge_eq _ _ (by constructor <;> omega) (by constructor <;> omega),
    Int.tdiv_eq_ediv_of_nonneg (by omega)]
  omega

end Freshness

/-- A node of the network: password, relaying and authentication as its configuration has them. -/
structure Member (password : Bytes) (ttl : Int) (n : Node) : Prop where
  password : n.config.networkPassword = password
  relays : n.config.enableRelay = true
  authenticates : n.config.enableRelayAuth = true
  ttl : n.config.relayAuthTTL = ttl
  id : n.identity.id.length = 16

def writtenToken (env : Env) (password : Bytes) (n : Node) (clock : Int) : RelayAuthToken where
  srcID := n.identity.id
  dstID := List.replicate 16 0
  timestamp := unixSeconds clock
  signature := env.hmacSha256 (env.sha256 (relayAuthLabel ++ password))
    (buildMessage n.identity.id (List.replicate 16 0) (unixSeconds clock))

/-- What one node builds at one time is read back and its token accepted by another at another. -/
def Carried (env : Env) (password : Bytes) (sender receiver : Node) (sent received : Int) : Prop :=
  ∀ (mode : UInt8) (addr inner : Bytes), addr.length ≤ 255 → inner ≠ [] →
    ∃ payload,
      sender.buildRelayPacket env mode addr inner (unixSeconds sent) =
        some (tentPacket packetTypeRelay payload) ∧
      parseRelayPacket payload =
        some ⟨mode, addr, (writtenToken env password sender sent).encode, inner⟩ ∧
      decodeToken (writtenToken env password sender sent).encode =
        .ok (writtenToken env password sender sent) ∧
      verifyToken env receiver.relayAuth (writtenToken env password sender sent)
        (unixSeconds received) = none

/-- What one node sends through another is dispatched at the target as the inner packet says. -/
def Dispatched (env : Env) (sender relay target : Node) (sent relayed received : Int) : Prop :=
  ∀ origin relayAddr addr inner : Bytes, env.resolveUDPAddr addr = some addr →
    addr.length ≤ 255 → isTent inner = true →
    ∃ request forwarded,
      sender.buildRelayPacket env relayModeForward addr inner (unixSeconds sent) =
        some (tentPacket packetTypeRelay request) ∧
      (relay.handleRelayPacket env origin request (unixSeconds relayed)).2 =
        [.writeToUDP addr (tentPacket packetTypeRelay forwarded)] ∧
      (target.handleRelayPacket env relayAddr forwarded (unixSeconds received)).2 =
        [.handlePacket ⟨.udp, relayAddr⟩ .udp (inner.getD 4 0) (inner.drop 5)]

structure RelayFormat (env : Env) (password : Bytes) (ttl : Int) : Prop where
  carried : ∀ sender receiver sent received, Member password ttl sender →
    Member password ttl receiver → Within ttl sent received →
    Carried env password sender receiver sent received
  dispatched : ∀ sender relay target sent relayed received, Member password ttl sender →
    Member password ttl relay → Member password ttl target → Within ttl sent relayed →
    Within ttl relayed received → Dispatched env sender relay target sent relayed received
  inRange : ∀ data, readRelayPacket data = some (parseRelayPacket data) ∧
    readToken data = some (decodeToken data)

section Hops

variable {env : Env} {password : Bytes} {ttl : Int} {n other : Node} {clock later : Int}

theorem sharedKey_member (named : password ≠ []) (member : Member password ttl n) :
    n.relayAuth.sharedKey env = env.sha256 (relayAuthLabel ++ password) := by
  simp only [RelayAuthConfig.sharedKey, Node.relayAuth, member.password, if_neg named]

theorem writtenToken_short (member : Member password ttl n) :
    (writtenToken env password n clock).encode.length ≤ 255 := by
  simp [RelayAuthToken.encode, writtenToken, member.id, env.hmacSha256_length]

theorem relayToken_member (named : password ≠ []) (member : Member password ttl n) :
    n.relayToken env (unixSeconds clock) = (writtenToken env password n clock).encode := by
  have key : (n.relayAuth.sharedKey env).length ≠ 0 := by
    rw [sharedKey_member named member, env.sha256_length]
    decide
  simp only [Node.relayToken, member.authenticates, if_true, generateTokenWithHMAC, if_neg key]
  rw [sharedKey_member named member]
  exact List.take_of_length_le (writtenToken_short member)

theorem buildRelayPacket_member (named : password ≠ []) (member : Member password ttl n)
    (clock : Int) (mode : UInt8) (addr inner : Bytes) (short : addr.length ≤ 255) :
    ∃ payload,
      n.buildRelayPacket env mode addr inner (unixSeconds clock) =
        some (tentPacket packetTypeRelay payload) ∧
      parseRelayPacket payload =
        some ⟨mode, addr, (writtenToken env password n clock).encode, inner⟩ := by
  have fits : ¬addr.length > 255 := by omega
  simp only [Node.buildRelayPacket, if_neg fits, relayToken_member named member]
  exact ⟨_, rfl, parseRelayPacket_built mode addr _ inner short (writtenToken_short member)⟩

theorem decodeToken_written (member : Member password ttl n)
    (fits : IsInt64 (unixSeconds clock)) :
    decodeToken (writtenToken env password n clock).encode =
      .ok (writtenToken env password n clock) := by
  apply decodeToken_encode
  · exact member.id
  · exact List.length_replicate
  · exact fits
  · simp [writtenToken, env.hmacSha256_length]

theorem verifyToken_written (named : password ≠ []) (member : Member password ttl other) :
    verifyToken env other.relayAuth (writtenToken env password n clock) (unixSeconds later) = none ↔
      tokenAge (unixSeconds later) (unixSeconds clock) ≤ ttl.tdiv 1000000000 := by
  have enabled : other.relayAuth.enabled = true := member.authenticates
  have limit : other.relayAuth.ttlSeconds = ttl.tdiv 1000000000 := by
    rw [RelayAuthConfig.ttlSeconds, Node.relayAuth, member.ttl]
  have time : (writtenToken env password n clock).timestamp = unixSeconds clock := rfl
  have keyed : (other.relayAuth.sharedKey env).length > 0 ∧
      (writtenToken env password n clock).signature.length = 32 := by
    rw [sharedKey_member named member, env.sha256_length]
    exact ⟨by decide, env.hmacSha256_length _ _⟩
  have signed : (writtenToken env password n clock).signature =
      env.hmacSha256 (other.relayAuth.sharedKey env)
        (buildMessage (writtenToken env password n clock).srcID
          (writtenToken env password n clock).dstID (unixSeconds clock)) := by
    rw [sharedKey_member named member]
    rfl
  simp only [verifyToken, enabled, not_true, if_false, limit, if_pos keyed, time, if_pos signed]
  split
  · next old => exact iff_of_false (Option.some_ne_none _) (by omega)
  · next fresh => exact iff_of_true rfl (by omega)

theorem admitRelayPacket_member (named : password ≠ []) (member : Member password ttl n)
    (receiver : Member password ttl other) (fits : IsInt64 (unixSeconds clock))
    (fresh : tokenAge (unixSeconds later) (unixSeconds clock) ≤ ttl.tdiv 1000000000)
    {mode : UInt8} {addr inner payload target : Bytes} (full : inner ≠ [])
    (resolves : env.resolveUDPAddr addr = some target)
    (parsed : parseRelayPacket payload =
      some ⟨mode, addr, (writtenToken env password n clock).encode, inner⟩) :
    other.admitRelayPacket env payload (unixSeconds later) =
      some (⟨mode, addr, (writtenToken env password n clock).encode, inner⟩, target) := by
  have verified : verifyToken env other.relayAuth (writtenToken env password n clock)
      (unixSeconds later) = none := (verifyToken_written named receiver).mpr fresh
  have accepted : acceptsToken env other.relayAuth (writtenToken env password n clock).encode
      (unixSeconds later) = true := by
    simp only [acceptsToken, decodeToken_written member fits, verified, Option.isNone_none]
  have some : inner.length ≠ 0 := by simpa using full
  simp only [Node.admitRelayPacket, receiver.relays, if_true, parsed, if_neg some, accepted,
    Bool.true_eq_false, and_false, if_false, resolves, Option.map_some]

theorem carried_of_fresh (named : password ≠ []) (member : Member password ttl n)
    (receiver : Member password ttl other) (fits : IsInt64 (unixSeconds clock))
    (fresh : tokenAge (unixSeconds later) (unixSeconds clock) ≤ ttl.tdiv 1000000000) :
    Carried env password n other clock later := by
  intro mode addr inner short _
  obtain ⟨payload, built, parsed⟩ :=
    buildRelayPacket_member named member clock mode addr inner short
  exact ⟨payload, built, parsed, decodeToken_written member fits,
    (verifyToken_written named receiver).mpr fresh⟩

theorem dispatched_of_fresh {relay target : Node} {sent relayed received : Int}
    (named : password ≠ []) (sender : Member password ttl n) (hop : Member password ttl relay)
    (last : Member password ttl target) (fits : IsInt64 (unixSeconds sent))
    (hopFits : IsInt64 (unixSeconds relayed))
    (first : tokenAge (unixSeconds relayed) (unixSeconds sent) ≤ ttl.tdiv 1000000000)
    (second : tokenAge (unixSeconds received) (unixSeconds relayed) ≤ ttl.tdiv 1000000000) :
    Dispatched env n relay target sent relayed received := by
  intro origin relayAddr addr inner resolves short tent
  have full : inner ≠ [] := by
    rintro rfl
    cases tent
  obtain ⟨request, built, parsed⟩ :=
    buildRelayPacket_member named sender sent relayModeForward addr inner short
  obtain ⟨forwarded, rebuilt, reparsed⟩ :=
    buildRelayPacket_member named hop relayed relayModeTarget addr inner short
  have admitted := admitRelayPacket_member named sender hop fits first full resolves parsed
  have readmitted := admitRelayPacket_member named hop last hopFits second full resolves reparsed
  refine ⟨request, forwarded, built, ?_, ?_⟩
  · simp only [Node.handleRelayPacket, admitted, if_true, Node.relayForwardTo, rebuilt,
      Option.map_some, Option.toList_some]
  · have other : relayModeTarget ≠ relayModeForward := by decide
    simp only [Node.handleRelayPacket, readmitted, if_neg other, if_true, Node.relayDeliver, tent]

def exampleMember (env : Env) (password : Bytes) (ttl : Int) : Node :=
  newNode env { defaultConfig with networkPassword := password, relayAuthTTL := ttl }
    (newIdentity env [])

theorem exampleMember_member (env : Env) (password : Bytes) (ttl : Int) :
    Member password ttl (exampleMember env password ttl) where
  password := rfl
  relays := rfl
  authenticates := rfl
  ttl := rfl
  id := by simp [exampleMember, newNode, newIdentity, env.sha256_length]

end Hops

/-- Relay packets are read back, their tokens accepted within the lifetime and inner packets
dispatched over two hops exactly if the lifetime is a whole number of seconds: the code cuts it to
whole seconds and rounds each clock down. The conversion of the lifetime through `float64` is exact
for whole seconds and below `2 ^ 24` seconds. -/
theorem relay_format_iff (env : Env) (password : Bytes) (ttl : Int) (named : password ≠ [])
    (positive : 0 < ttl)
    (duration : ttl % 1000000000 = 0 ∧ ttl < 2 ^ 63 ∨ ttl < 2 ^ 24 * 1000000000) :
    RelayFormat env password ttl ↔ ttl % 1000000000 = 0 := by
  have bounded : IsInt64 ttl := ⟨by omega, by omega⟩
  constructor
  · intro format
    by_contra fraction
    have member := exampleMember_member env password ttl
    have within : Within ttl 999999999 (999999999 + ttl) := by
      constructor
      · omega
      · omega
      · exact ⟨by decide, by decide⟩
      · simp only [unixSeconds, IsInt64]
        omega
    obtain ⟨_, _, _, _, verified⟩ :=
      format.carried _ _ _ _ member member within 0 [] [0] (by decide) (by decide)
    have fresh := (verifyToken_written named member).mp verified
    have old := tokenAge_fraction positive bounded fraction
    omega
  · intro whole
    exact
      { carried := fun sender receiver sent received member other within =>
          carried_of_fresh named member other within.fits (tokenAge_within whole bounded within)
        dispatched := fun sender relay target sent relayed received member hop last first second =>
          dispatched_of_fresh named member hop last first.fits second.fits
            (tokenAge_within whole bounded first) (tokenAge_within whole bounded second)
        inRange := fun data => ⟨readRelayPacket_eq data, readToken_eq data⟩ }

theorem relay_format_minute : RelayFormat Env.padded [1] 60000000000 :=
  (relay_format_iff Env.padded [1] 60000000000 (by decide) (by decide) (by decide)).mpr (by decide)

/-- A lifetime of a second and a half, and clocks 1.2 seconds apart: the token has expired. -/
theorem fractional_lifetime_refused :
    Within 1500000000 900000000 2100000000 ∧
      ¬Carried Env.padded [1] (exampleMember Env.padded [1] 1500000000)
        (exampleMember Env.padded [1] 1500000000) 900000000 2100000000 := by
  refine ⟨⟨by decide, by decide, ⟨by decide, by decide⟩, ⟨by decide, by decide⟩⟩, ?_⟩
  intro carried
  obtain ⟨_, _, _, _, verified⟩ := carried 1 [1] [2] (by decide) (by decide)
  revert verified
  decide

end Tenet
