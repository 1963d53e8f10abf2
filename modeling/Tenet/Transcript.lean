import Tenet.Receive

/-! What a sender has encrypted under each key, with the call and the fragment each ciphertext
stands for, and the ideal cipher that opens these ciphertexts in their order and nothing else. -/

namespace Tenet.Transcript

open Lib

structure Entry where
  ciphertext : Bytes
  frame : Fragment.Frame UInt8
  call : Nat
  index : Nat
  deriving DecidableEq, Repr

abbrev Log := CipherKey → List Entry

def record (log : Log) (key : CipherKey) (entry : Entry) : Log :=
  fun other => if other = key then log key ++ [entry] else log other

/-- Decryption under a key and nonce succeeds exactly on the ciphertext made there. -/
def idealAead (encryption : CipherKey → Nat → Bytes → Bytes) (log : Log) : Aead where
  encrypt := encryption
  decrypt key nonce ciphertext :=
    (log key)[nonce]?.bind fun entry =>
      if entry.ciphertext = ciphertext then some (frameType entry.frame.kind :: entry.frame.body)
      else none

theorem idealAead_decrypt (encryption : CipherKey → Nat → Bytes → Bytes) (log : Log) (key : CipherKey)
    (nonce : Nat) (ciphertext plaintext : Bytes)
    (opened : (idealAead encryption log).decrypt key nonce ciphertext = some plaintext) :
    ∃ entry, (log key)[nonce]? = some entry ∧
      plaintext = frameType entry.frame.kind :: entry.frame.body := by
  rcases Option.bind_eq_some_iff.mp opened with ⟨entry, present, matched⟩
  refine ⟨entry, present, ?_⟩
  split at matched
  · exact (Option.some.inj matched).symm
  · cases matched

theorem record_iff (log : Log) (key other : CipherKey) (new entry : Entry) (i : Nat) :
    (record log key new other)[i]? = some entry ↔
      (log other)[i]? = some entry ∨ (other = key ∧ i = (log key).length ∧ entry = new) := by
  by_cases same : other = key
  · subst same
    rw [record, if_pos rfl, List.getElem?_append]
    by_cases within : i < (log other).length
    · rw [if_pos within]
      constructor
      · exact Or.inl
      · rintro (old | ⟨_, atEnd, _⟩)
        · exact old
        · omega
    · have beyond : (log other)[i]? = none := List.getElem?_eq_none (by omega)
      rw [if_neg within, beyond, List.getElem?_singleton]
      by_cases last : i = (log other).length
      · simp [last, eq_comm]
      · have outside : ¬ i - (log other).length = 0 := by omega
        simp [last, outside]
  · rw [record, if_neg same]
    constructor
    · exact Or.inl
    · rintro (old | ⟨equal, _⟩)
      · exact old
      · exact absurd equal same

theorem record_kept (log : Log) (key other : CipherKey) (new entry : Entry) (i : Nat)
    (present : (log other)[i]? = some entry) : (record log key new other)[i]? = some entry :=
  (record_iff log key other new entry i).mpr (Or.inl present)

/-- The fragments of the calls stand in the log of one key each, in order and without a gap
before any of them. -/
structure Sent (calls : List Bytes) (log : Log) : Prop where
  fragment : ∀ key (i : Nat) (entry : Entry), (log key)[i]? = some entry → ∃ payload,
    calls[entry.call]? = some payload ∧
      (Fragment.split maxPayloadSize payload)[entry.index]? = some entry.frame
  consecutive : ∀ key (i : Nat) (entry : Entry), (log key)[i]? = some entry → entry.index ≠ 0 →
    ∃ previous, 0 < i ∧ (log key)[i - 1]? = some previous ∧ previous.call = entry.call ∧
      previous.index + 1 = entry.index
  ordered : ∀ key (i j : Nat) (earlier later : Entry), i < j → (log key)[i]? = some earlier →
    (log key)[j]? = some later →
    earlier.call < later.call ∨ (earlier.call = later.call ∧ earlier.index < later.index)
  oneKey : ∀ key other (i j : Nat) (entry twin : Entry), (log key)[i]? = some entry → (log other)[j]? = some twin →
    entry.call = twin.call → key = other

namespace Sent

theorem empty : Sent [] (fun _ => []) := by
  constructor <;> simp

theorem call_lt {calls : List Bytes} {log : Log} (sent : Sent calls log) (key : CipherKey)
    (i : Nat) (entry : Entry) (present : (log key)[i]? = some entry) :
    entry.call < calls.length := by
  rcases sent.fragment key i entry present with ⟨payload, called, _⟩
  exact (List.getElem?_eq_some_iff.mp called).1

theorem newCall {calls : List Bytes} {log : Log} (sent : Sent calls log) (payload : Bytes) :
    Sent (calls ++ [payload]) log where
  fragment := by
    intro key i entry present
    rcases sent.fragment key i entry present with ⟨earlier, called, split⟩
    refine ⟨earlier, ?_, split⟩
    rw [List.getElem?_append_left (sent.call_lt key i entry present)]
    exact called
  consecutive := sent.consecutive
  ordered := sent.ordered
  oneKey := sent.oneKey

theorem newEntry {calls : List Bytes} {log : Log} (sent : Sent calls log) (key : CipherKey)
    (entry : Entry) (payload : Bytes) (called : calls[entry.call]? = some payload)
    (last : entry.call + 1 = calls.length)
    (split : (Fragment.split maxPayloadSize payload)[entry.index]? = some entry.frame)
    (follows : entry.index ≠ 0 → ∃ previous, (log key).getLast? = some previous ∧
      previous.call = entry.call ∧ previous.index + 1 = entry.index)
    (earlier : ∀ other (i : Nat) (twin : Entry), (log other)[i]? = some twin → twin.call = entry.call →
      other = key ∧ twin.index < entry.index) :
    Sent calls (record log key entry) where
  fragment := by
    intro other i found present
    rcases (record_iff ..).mp present with old | ⟨_, _, rfl⟩
    · exact sent.fragment other i found old
    · exact ⟨payload, called, split⟩
  consecutive := by
    intro other i found present later
    rcases (record_iff ..).mp present with old | ⟨rfl, rfl, rfl⟩
    · rcases sent.consecutive other i found old later with ⟨previous, positive, before, rest⟩
      exact ⟨previous, positive, record_kept _ _ _ _ _ _ before, rest⟩
    · rcases follows later with ⟨previous, ending, rest⟩
      rw [List.getLast?_eq_getElem?] at ending
      have positive : 0 < (log other).length := by
        have within := (List.getElem?_eq_some_iff.mp ending).1
        omega
      exact ⟨previous, positive, record_kept _ _ _ _ _ _ ending, rest⟩
  ordered := by
    intro other i j first second before firstPresent secondPresent
    rcases (record_iff ..).mp secondPresent with old | ⟨rfl, atEnd, rfl⟩
    · have within := (List.getElem?_eq_some_iff.mp old).1
      rcases (record_iff ..).mp firstPresent with oldFirst | ⟨rfl, atEnd, _⟩
      · exact sent.ordered other i j first second before oldFirst old
      · omega
    · rcases (record_iff ..).mp firstPresent with oldFirst | ⟨_, atEnd', _⟩
      · have bound := sent.call_lt other i first oldFirst
        by_cases same : first.call = second.call
        · exact Or.inr ⟨same, (earlier other i first oldFirst same).2⟩
        · exact Or.inl (by omega)
      · omega
  oneKey := by
    intro one other i j first second firstPresent secondPresent same
    rcases (record_iff ..).mp firstPresent with oldFirst | ⟨rfl, _, rfl⟩
    · rcases (record_iff ..).mp secondPresent with oldSecond | ⟨rfl, _, rfl⟩
      · exact sent.oneKey one other i j first second oldFirst oldSecond same
      · exact (earlier one i first oldFirst same).1
    · rcases (record_iff ..).mp secondPresent with oldSecond | ⟨rfl, _, _⟩
      · exact (earlier other j second oldSecond same.symm).1.symm
      · rfl

theorem whole {calls : List Bytes} {log : Log} (sent : Sent calls log) (key : CipherKey)
    (i : Nat) (entry : Entry) (present : (log key)[i]? = some entry) (back : Nat)
    (within : back ≤ entry.index) :
    ∃ fragment, back ≤ i ∧ (log key)[i - back]? = some fragment ∧ fragment.call = entry.call ∧
      fragment.index + back = entry.index := by
  induction back with
  | zero => exact ⟨entry, Nat.zero_le i, present, rfl, rfl⟩
  | succ back ih =>
      rcases ih (by omega) with ⟨fragment, reach, found, call, index⟩
      rcases sent.consecutive key (i - back) fragment found (by omega) with
        ⟨previous, positive, before, sameCall, step⟩
      refine ⟨previous, by omega, ?_, sameCall.trans call, by omega⟩
      rw [← Nat.sub_sub]
      exact before

/-- A call whose last fragment is in the log of a key has all of its fragments there. -/
theorem complete {calls : List Bytes} {log : Log} (sent : Sent calls log) (key : CipherKey)
    (i : Nat) (entry : Entry) (payload : Bytes) (present : (log key)[i]? = some entry)
    (called : calls[entry.call]? = some payload)
    (last : entry.index + 1 = (Fragment.split maxPayloadSize payload).length)
    (index : Nat) (frame : Fragment.Frame UInt8)
    (wanted : (Fragment.split maxPayloadSize payload)[index]? = some frame) :
    ∃ found ∈ log key, found.call = entry.call ∧ found.index = index ∧ found.frame = frame := by
  have bound := (List.getElem?_eq_some_iff.mp wanted).1
  rcases sent.whole key i entry present (entry.index - index) (by omega) with
    ⟨found, _, member, sameCall, position⟩
  have sameIndex : found.index = index := by omega
  rcases sent.fragment key _ found member with ⟨other, calledHere, split⟩
  rw [sameCall, called] at calledHere
  cases calledHere
  rw [sameIndex, wanted] at split
  exact ⟨found, List.mem_of_getElem? member, sameCall, sameIndex, (Option.some.inj split).symm⟩

end Sent

end Tenet.Transcript
