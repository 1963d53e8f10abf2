import Tenet.Discovery
import Tenet.Lib.Counted
import Tenet.Lib.Slice

/-! The list of peers in a discovery response, as `processDiscoveryResponse` reads it from any bytes. -/

namespace Tenet

open Lib

/-- A length byte and as many bytes. `none` is a read out of range, `some none` the `break` of the
loop, otherwise the field and the offset behind it. -/
def readDiscoveryField (payload : Bytes) (offset : Nat) : Option (Option (Bytes × Nat)) :=
  if offset ≥ payload.length then some none
  else do
    let size := (← Slice.index payload offset).toNat
    if offset + 1 + size > payload.length then some none
    else
      let field ← Slice.slice payload (offset + 1) (offset + 1 + size)
      some (some (field, offset + 1 + size))

def readDiscoveryEntry (payload : Bytes) (offset : Nat) : Option (Option ((Bytes × Bytes) × Nat)) := do
  match ← readDiscoveryField payload offset with
  | none => some none
  | some (peerID, offset) =>
      match ← readDiscoveryField payload offset with
      | none => some none
      | some (addr, offset) => some (some ((peerID, addr), offset))

section Loop

variable {S : Type} (visit : S → Bytes × Bytes → S)

/-- The loop with the given number of turns left; `visit` is the rest of its body. -/
def discoveryLoop (payload : Bytes) : Nat → Nat → S → Option S
  | 0, _, s => some s
  | left + 1, offset, s =>
      if offset < payload.length then do
        match ← readDiscoveryEntry payload offset with
        | none => some s
        | some (entry, offset) => discoveryLoop payload left offset (visit s entry)
      else some s

def readDiscoveryResponse (payload : Bytes) (s : S) : Option S :=
  if payload.length < 2 then some s
  else do
    let high ← Slice.index payload 0
    let low ← Slice.index payload 1
    discoveryLoop visit payload (high.toNat * 256 + low.toNat) 2 s

end Loop

def parseDiscoveryResponse (payload : Bytes) : Option (List (Bytes × Bytes)) :=
  readDiscoveryResponse (fun found entry => found ++ [entry]) payload []

def Node.localPeerID (n : Node) : Bytes := hexEncode n.identity.id

/-- The peers for which `processDiscoveryResponse` asks to be admitted: neither the node itself nor
stored. -/
def Node.processDiscoveryResponse (n : Node) (remoteAddr payload : Bytes) :
    Option (List (Bytes × Bytes)) :=
  if n.isDiscoverySourceAuthenticated remoteAddr then
    readDiscoveryResponse (fun unknown entry =>
      if entry.1 = n.localPeerID then unknown
      else if (n.peers.get entry.1).isSome then unknown
      else unknown ++ [entry]) payload []
  else some []

def takeDiscoveryField : Bytes → Option (Bytes × Bytes)
  | [] => none
  | size :: rest =>
      if size.toNat ≤ rest.length then some (rest.take size.toNat, rest.drop size.toNat) else none

theorem takeDiscoveryField_append (field rest : Bytes) (short : field.length ≤ 255) :
    takeDiscoveryField (UInt8.ofNat field.length :: field ++ rest) = some (field, rest) := by
  have size : (UInt8.ofNat field.length).toNat = field.length := by
    rw [UInt8.toNat_ofNat']
    omega
  rw [List.cons_append, takeDiscoveryField, size, if_pos (by simp), List.take_left, List.drop_left]

theorem takeDiscoveryField_eq_some (data field rest : Bytes)
    (taken : takeDiscoveryField data = some (field, rest)) :
    field.length ≤ 255 ∧ data = UInt8.ofNat field.length :: field ++ rest := by
  cases data with
  | nil => cases taken
  | cons size data =>
      rw [takeDiscoveryField] at taken
      split at taken
      · next inside =>
          cases taken
          have bound := size.toNat_lt
          rw [List.length_take, Nat.min_eq_left inside, UInt8.ofNat_toNat, List.cons_append,
            List.take_append_drop]
          exact ⟨by omega, rfl⟩
      · cases taken

def discoveryCodec : ItemCodec UInt8 (Bytes × Bytes) where
  encode := discoveryEntry
  read data := do
    let (peerID, data) ← takeDiscoveryField data
    let (addr, data) ← takeDiscoveryField data
    some ((peerID, addr), data)
  Valid entry := entry.1.length ≤ 255 ∧ entry.2.length ≤ 255
  read_encode entry rest valid := by
    have first := takeDiscoveryField_append entry.1
      (UInt8.ofNat entry.2.length :: entry.2 ++ rest) valid.1
    have second := takeDiscoveryField_append entry.2 rest valid.2
    rw [discoveryEntry, List.append_assoc, first]
    simp only [Option.bind_eq_bind, Option.bind_some, second]
  encode_read data entry rest read := by
    rcases Option.bind_eq_some_iff.mp read with ⟨⟨peerID, behind⟩, first, later⟩
    rcases Option.bind_eq_some_iff.mp later with ⟨⟨addr, left⟩, second, same⟩
    cases same
    rcases takeDiscoveryField_eq_some _ _ _ first with ⟨idShort, rfl⟩
    rcases takeDiscoveryField_eq_some _ _ _ second with ⟨addrShort, rfl⟩
    exact ⟨⟨idShort, addrShort⟩, by rw [discoveryEntry, List.append_assoc]⟩

theorem readDiscoveryField_eq (payload : Bytes) (offset : Nat) :
    readDiscoveryField payload offset =
      some ((takeDiscoveryField (payload.drop offset)).map fun (field, rest) =>
        (field, payload.length - rest.length)) := by
  unfold readDiscoveryField
  by_cases ended : offset ≥ payload.length
  · rw [if_pos ended, List.drop_eq_nil_of_le ended, takeDiscoveryField, Option.map_none]
  · have inside : offset < payload.length := Nat.lt_of_not_le ended
    have rest : (payload.drop (offset + 1)).length = payload.length - (offset + 1) :=
      List.length_drop
    rw [if_neg ended, Slice.index, List.getElem?_eq_getElem inside, List.drop_eq_getElem_cons inside,
      takeDiscoveryField, rest]
    simp only [Option.bind_eq_bind, Option.bind_some]
    by_cases long : offset + 1 + payload[offset].toNat > payload.length
    · rw [if_pos long, if_neg (by omega), Option.map_none]
    · rw [if_neg long, if_pos (by omega), Slice.slice_inside payload _ _ (by omega)]
      simp only [Option.bind_some, Option.map_some, List.length_drop]
      congr 3
      omega

theorem drop_of_suffix {payload rest : Bytes} (behind : rest <:+ payload) :
    payload.drop (payload.length - rest.length) = rest :=
  (List.suffix_iff_eq_drop.mp behind).symm

theorem takeDiscoveryField_suffix (payload field rest : Bytes) (offset : Nat)
    (taken : takeDiscoveryField (payload.drop offset) = some (field, rest)) : rest <:+ payload := by
  have all := (takeDiscoveryField_eq_some _ _ _ taken).2
  exact (List.suffix_append _ rest).trans (all ▸ List.drop_suffix offset payload)

theorem readDiscoveryEntry_eq (payload : Bytes) (offset : Nat) :
    readDiscoveryEntry payload offset =
      some ((discoveryCodec.read (payload.drop offset)).map fun (entry, rest) =>
        (entry, payload.length - rest.length)) := by
  rw [readDiscoveryEntry, readDiscoveryField_eq]
  simp only [discoveryCodec, Option.bind_eq_bind, Option.bind_some]
  cases first : takeDiscoveryField (payload.drop offset) with
  | none => rfl
  | some taken =>
      have behind := drop_of_suffix (takeDiscoveryField_suffix payload _ _ offset first)
      simp only [Option.map_some, Option.bind_some, readDiscoveryField_eq, behind]
      cases takeDiscoveryField taken.2 with
      | none => rfl
      | some next => rfl

theorem discoveryCodec_suffix (payload rest : Bytes) (offset : Nat) (entry : Bytes × Bytes)
    (read : discoveryCodec.read (payload.drop offset) = some (entry, rest)) : rest <:+ payload := by
  have all := (discoveryCodec.encode_read _ _ _ read).2
  exact (List.suffix_append _ rest).trans (all ▸ List.drop_suffix offset payload)

theorem discoveryLoop_eq {S : Type} (visit : S → Bytes × Bytes → S) (payload : Bytes)
    (left offset : Nat) (s : S) :
    discoveryLoop visit payload left offset s =
      some ((discoveryCodec.items left (payload.drop offset)).foldl visit s) := by
  induction left generalizing offset s with
  | zero => rfl
  | succ left ih =>
      rw [discoveryLoop, ItemCodec.items]
      by_cases inside : offset < payload.length
      · rw [if_pos inside, readDiscoveryEntry_eq]
        cases read : discoveryCodec.read (payload.drop offset) with
        | none => rfl
        | some taken =>
            have behind := drop_of_suffix (discoveryCodec_suffix payload _ offset _ read)
            simp only [Option.map_some, Option.bind_eq_bind, Option.bind_some, ih, behind,
              List.foldl_cons]
      · rw [if_neg inside, List.drop_eq_nil_of_le (Nat.le_of_not_lt inside)]
        rfl

theorem readDiscoveryResponse_eq {S : Type} (visit : S → Bytes × Bytes → S) (payload : Bytes) (s : S)
    (counted : 2 ≤ payload.length) :
    readDiscoveryResponse visit payload s =
      some ((discoveryCodec.items (discoveryCount payload) (payload.drop 2)).foldl visit s) := by
  rw [readDiscoveryResponse, if_neg (Nat.not_lt.mpr counted),
    Slice.index_inside payload 0 0 (by omega), Slice.index_inside payload 1 0 (by omega)]
  exact discoveryLoop_eq visit payload _ 2 s

theorem parseDiscoveryResponse_eq (payload : Bytes) (counted : 2 ≤ payload.length) :
    parseDiscoveryResponse payload =
      some (discoveryCodec.items (discoveryCount payload) (payload.drop 2)) := by
  rw [parseDiscoveryResponse, readDiscoveryResponse_eq _ payload [] counted,
    List.foldl_append_eq_append, ← List.flatMap_def, List.flatMap_singleton', List.nil_append]

theorem parseDiscoveryResponse_payload (entries : List (Bytes × Bytes)) (few : entries.length ≤ 65535)
    (short : ∀ entry ∈ entries, entry.1.length ≤ 255 ∧ entry.2.length ≤ 255) :
    parseDiscoveryResponse (discoveryPayload entries) = some entries := by
  have counted : 2 ≤ (discoveryPayload entries).length := by
    rw [discoveryPayload_length]
    omega
  have all := discoveryCodec.items_encode entries [] short
  rw [List.append_nil] at all
  rw [parseDiscoveryResponse_eq _ counted, discoveryCount_payload, Nat.mod_eq_of_lt (by omega)]
  exact congrArg some all

theorem processDiscoveryResponse_eq (n : Node) (remoteAddr payload : Bytes)
    (authenticated : n.isDiscoverySourceAuthenticated remoteAddr = true)
    (counted : 2 ≤ payload.length) :
    n.processDiscoveryResponse remoteAddr payload =
      some ((discoveryCodec.items (discoveryCount payload) (payload.drop 2)).filter fun entry =>
        decide (entry.1 ≠ n.localPeerID) && (n.peers.get entry.1).isNone) := by
  rw [Node.processDiscoveryResponse, if_pos authenticated, readDiscoveryResponse_eq _ _ _ counted]
  generalize discoveryCodec.items (discoveryCount payload) (payload.drop 2) = entries
  have visited (before : List (Bytes × Bytes)) : entries.foldl (fun unknown entry =>
      if entry.1 = n.localPeerID then unknown
      else if (n.peers.get entry.1).isSome then unknown
      else unknown ++ [entry]) before =
        before ++ entries.filter fun entry =>
          decide (entry.1 ≠ n.localPeerID) && (n.peers.get entry.1).isNone := by
    induction entries generalizing before with
    | nil => exact (List.append_nil before).symm
    | cons entry entries ih =>
        rw [List.foldl_cons, ih, List.filter_cons]
        by_cases own : entry.1 = n.localPeerID
        · simp [own]
        · cases stored : n.peers.get entry.1 <;> simp [own]
  rw [visited, List.nil_append]

/-- A response is read back entry by entry; of any other bytes, the loop reads inside them and takes
the longest sequence of complete entries that the count allows. -/
theorem discovery_response_codec :
    (∀ entries : List (Bytes × Bytes), entries.length ≤ 65535 →
      (∀ entry ∈ entries, entry.1.length ≤ 255 ∧ entry.2.length ≤ 255) →
        parseDiscoveryResponse (discoveryPayload entries) = some entries) ∧
      ∀ payload, ∃ found, parseDiscoveryResponse payload = some found ∧
        (payload.length < 2 → found = []) ∧
        (2 ≤ payload.length →
          discoveryCodec.Longest (discoveryCount payload) (payload.drop 2) found) := by
  refine ⟨parseDiscoveryResponse_payload, ?_⟩
  intro payload
  by_cases counted : 2 ≤ payload.length
  · exact ⟨_, parseDiscoveryResponse_eq payload counted,
      fun uncounted => absurd counted (Nat.not_le.mpr uncounted),
      fun _ => discoveryCodec.items_longest _ _⟩
  · have uncounted : payload.length < 2 := Nat.lt_of_not_le counted
    refine ⟨[], ?_, fun _ => rfl, fun enough => absurd enough counted⟩
    rw [parseDiscoveryResponse, readDiscoveryResponse, if_pos uncounted]

/-- Two entries, the second without an address. -/
theorem discovery_response_codec_two :
    parseDiscoveryResponse (discoveryPayload [([7, 8], [9]), ([6], [])]) =
      some [([7, 8], [9]), ([6], [])] :=
  discovery_response_codec.1 [([7, 8], [9]), ([6], [])] (by decide) (by decide)

/-- The count says three, the second entry lacks its address and a byte follows. -/
example : parseDiscoveryResponse [0, 3, 1, 7, 0, 1, 6, 2, 5] = some [([7], [])] := rfl

end Tenet
