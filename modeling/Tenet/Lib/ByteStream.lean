import Mathlib.Data.List.Basic
import Mathlib.Tactic.Common

/-! Reading a byte stream that arrives in pieces, and frames with a 16-bit length in front.

The reader sees a list of events: pieces of data as the transport hands them over, read
timeouts, and the end of the connection. A list that runs out leaves the reader blocked. -/

namespace Lib.ByteStream

inductive ReadEvent where
  | data (bytes : List UInt8)
  | timeout
  | closed
  deriving DecidableEq, Repr

inductive Status where
  | full
  | blocked
  | timeout
  | closed
  deriving DecidableEq, Repr

/-- Fill a buffer of the given size: the bytes read, how the read ended, what is left. -/
def readFull : Nat → List ReadEvent → List UInt8 × Status × List ReadEvent
  | 0, events => ([], .full, events)
  | _ + 1, [] => ([], .blocked, [])
  | _ + 1, .timeout :: events => ([], .timeout, events)
  | _ + 1, .closed :: events => ([], .closed, events)
  | size + 1, .data bytes :: events =>
      if bytes.length ≤ size then
        let (more, status, left) := readFull (size + 1 - bytes.length) events
        (bytes ++ more, status, left)
      else (bytes.take (size + 1), .full, .data (bytes.drop (size + 1)) :: events)

/-- Bounds how often a reader can make progress on the events. -/
def weight : List ReadEvent → Nat
  | [] => 0
  | .data bytes :: events => bytes.length + 1 + weight events
  | .timeout :: events | .closed :: events => 1 + weight events

def bytesOf : List ReadEvent → List UInt8
  | [] => []
  | .data bytes :: events => bytes ++ bytesOf events
  | .timeout :: events | .closed :: events => bytesOf events

def Live (events : List ReadEvent) : Prop := ∀ event ∈ events, ∃ bytes, event = .data bytes

theorem live_cut (pieces : List (List UInt8)) : Live (pieces.map .data) := by
  intro event member
  obtain ⟨bytes, _, rfl⟩ := List.mem_map.mp member
  exact ⟨bytes, rfl⟩

theorem bytesOf_cut (pieces : List (List UInt8)) :
    bytesOf (pieces.map .data) = pieces.flatten := by
  induction pieces with
  | nil => rfl
  | cons piece pieces ih => simp only [List.map_cons, bytesOf, ih, List.flatten_cons]

theorem readFull_weight (size : Nat) (events : List ReadEvent) :
    (readFull size events).1.length + weight (readFull size events).2.2 ≤ weight events := by
  fun_induction readFull size events with
  | case1 events => simp
  | case2 size => simp
  | case3 size events => simp only [weight, List.length_nil]; omega
  | case4 size events => simp only [weight, List.length_nil]; omega
  | case5 size bytes events short more status left taken ih =>
      rw [taken] at ih
      simp only [weight, List.length_append] at ih ⊢
      omega
  | case6 size bytes events long =>
      simp only [weight, List.length_take, List.length_drop]
      omega

theorem readFull_length (size : Nat) (events : List ReadEvent)
    (full : (readFull size events).2.1 = .full) : (readFull size events).1.length = size := by
  fun_induction readFull size events with
  | case1 events => rfl
  | case2 size => cases full
  | case3 size events => cases full
  | case4 size events => cases full
  | case5 size bytes events short more status left taken ih =>
      rw [taken] at ih
      simp only [List.length_append, ih full]
      omega
  | case6 size bytes events long =>
      rw [List.length_take]
      omega

theorem readFull_interrupted (size : Nat) (events : List ReadEvent)
    (full : (readFull size events).2.1 ≠ .full) (blocked : (readFull size events).2.1 ≠ .blocked) :
    weight (readFull size events).2.2 < weight events := by
  fun_induction readFull size events with
  | case1 events => exact absurd rfl full
  | case2 size => exact absurd rfl blocked
  | case3 size events => simp only [weight]; omega
  | case4 size events => simp only [weight]; omega
  | case5 size bytes events short more status left taken ih =>
      rw [taken] at ih
      have later : weight left < weight events := ih full blocked
      simp only [weight]
      omega
  | case6 size bytes events long => exact absurd rfl full

theorem live_tail (event : ReadEvent) (events : List ReadEvent) (live : Live (event :: events)) :
    Live events :=
  fun other member => live other (List.mem_cons_of_mem _ member)

def arrived : List ReadEvent → List UInt8
  | [] => []
  | .data bytes :: events => bytes ++ arrived events
  | .timeout :: _ | .closed :: _ => []

def interruption : List ReadEvent → Status × List ReadEvent
  | [] => (.blocked, [])
  | .data _ :: events => interruption events
  | .timeout :: events => (.timeout, events)
  | .closed :: events => (.closed, events)

theorem bytesOf_arrived (events : List ReadEvent) :
    bytesOf events = arrived events ++ bytesOf (interruption events).2 := by
  induction events with
  | nil => rfl
  | cons event events ih =>
      cases event with
      | data bytes => simp only [bytesOf, arrived, interruption, ih, List.append_assoc]
      | timeout => rfl
      | closed => rfl

theorem live_iff (events : List ReadEvent) : Live events ↔ interruption events = (.blocked, []) := by
  induction events with
  | nil => simp [Live, interruption]
  | cons event events ih =>
      cases event with
      | data bytes =>
          rw [interruption, ← ih]
          refine ⟨live_tail _ events, ?_⟩
          intro live other member
          rcases List.mem_cons.mp member with rfl | later
          · exact ⟨bytes, rfl⟩
          · exact live other later
      | timeout => simp [Live, interruption]
      | closed => simp [Live, interruption]

theorem arrived_live (events : List ReadEvent) (live : Live events) : arrived events = bytesOf events := by
  rw [bytesOf_arrived, (live_iff events).mp live]
  exact (List.append_nil _).symm

theorem readFull_arrived (size : Nat) (events : List ReadEvent)
    (enough : size ≤ (arrived events).length) :
    ∃ left, readFull size events = ((arrived events).take size, .full, left) ∧
      arrived left = (arrived events).drop size ∧ interruption left = interruption events := by
  fun_induction readFull size events with
  | case1 events => exact ⟨events, by simp, by simp, rfl⟩
  | case2 size => simp [arrived] at enough
  | case3 size events => simp [arrived] at enough
  | case4 size events => simp [arrived] at enough
  | case5 size bytes events short more status left taken ih =>
      have remaining : size + 1 - bytes.length ≤ (arrived events).length := by
        simp only [arrived, List.length_append] at enough
        omega
      rcases ih remaining with ⟨after, read, afterBytes, same⟩
      rw [taken] at read
      obtain ⟨rfl, rfl, rfl⟩ : more = (arrived events).take (size + 1 - bytes.length) ∧
          status = .full ∧ left = after := by simpa using read
      refine ⟨left, ?_, ?_, same⟩
      · rw [arrived, List.take_append, List.take_of_length_le (show bytes.length ≤ size + 1 by omega)]
      · rw [afterBytes, arrived, List.drop_append,
          List.drop_eq_nil_of_le (show bytes.length ≤ size + 1 by omega), List.nil_append]
  | case6 size bytes events long =>
      refine ⟨.data (bytes.drop (size + 1)) :: events, ?_, ?_, rfl⟩
      · rw [arrived, List.take_append_of_le_length (by omega)]
      · rw [arrived, arrived, List.drop_append_of_le_length (by omega)]

theorem readFull_short (size : Nat) (events : List ReadEvent)
    (short : (arrived events).length < size) :
    readFull size events = (arrived events, interruption events) := by
  fun_induction readFull size events with
  | case1 events => omega
  | case2 size => rfl
  | case3 size events => rfl
  | case4 size events => rfl
  | case5 size bytes events fits more status left taken ih =>
      have remaining : (arrived events).length < size + 1 - bytes.length := by
        simp only [arrived, List.length_append] at short
        omega
      have read := ih remaining
      rw [taken] at read
      rcases Prod.mk.inj read with ⟨rfl, ended⟩
      rw [arrived, interruption, ← ended]
  | case6 size bytes events long =>
      simp only [arrived, List.length_append] at short
      omega

theorem readFull_starved (size : Nat) (events : List ReadEvent) (live : Live events)
    (starved : (bytesOf events).length < size) : (readFull size events).2.1 = .blocked := by
  rw [← arrived_live events live] at starved
  rw [readFull_short size events starved, (live_iff events).mp live]

/-- The packet behind its length, cut to 16 bits, in big-endian order. -/
def prefixed (packet : List UInt8) : List UInt8 :=
  UInt8.ofNat (packet.length / 256) :: UInt8.ofNat packet.length :: packet

def lengthOf (header : List UInt8) : Nat :=
  (header.getD 0 0).toNat * 256 + (header.getD 1 0).toNat

inductive Outcome where
  | header (status : Status)
  | body (status : Status)
  | frame (packet : List UInt8)
  deriving DecidableEq, Repr

/-- Read the two length bytes, then as many bytes as they say. -/
def readFrame (events : List ReadEvent) : Outcome × List ReadEvent :=
  let (header, status, left) := readFull 2 events
  if status = .full then
    let (packet, status, left) := readFull (lengthOf header) left
    if status = .full then (.frame packet, left) else (.body status, left)
  else (.header status, left)

theorem readFrame_weight (events left : List ReadEvent) (outcome : Outcome)
    (read : readFrame events = (outcome, left)) (progress : outcome ≠ .header .blocked) :
    weight left < weight events := by
  have first := readFull_weight 2 events
  have two := readFull_length 2 events
  have interrupted := readFull_interrupted 2 events
  rcases readHeader : readFull 2 events with ⟨header, status, behind⟩
  have second := readFull_weight (lengthOf header) behind
  rcases readBody : readFull (lengthOf header) behind with ⟨packet, ending, after⟩
  rw [readHeader] at first two interrupted
  rw [readBody] at second
  simp only [readFrame, readHeader, readBody] at read first second
  by_cases whole : status = .full
  · have paid : header.length = 2 := two whole
    rw [if_pos whole] at read
    split at read <;> obtain ⟨_, rfl⟩ := Prod.mk.inj read <;> omega
  · rw [if_neg whole] at read
    obtain ⟨rfl, rfl⟩ := Prod.mk.inj read
    apply interrupted whole
    intro blocked
    exact progress (congrArg Outcome.header blocked)

theorem lengthOf_prefixed (packet more : List UInt8) (short : packet.length < 65536) :
    lengthOf ((prefixed packet ++ more).take 2) = packet.length := by
  simp only [prefixed, lengthOf, List.cons_append, List.take_succ_cons, List.take_zero,
    List.getD_cons_zero, List.getD_cons_succ, UInt8.toNat_ofNat']
  omega

theorem readFrame_arrived (events : List ReadEvent) (packet more : List UInt8)
    (carries : arrived events = prefixed packet ++ more) (short : packet.length < 65536) :
    ∃ left, readFrame events = (.frame packet, left) ∧ arrived left = more ∧
      interruption left = interruption events := by
  have two : 2 ≤ (arrived events).length := by
    rw [carries]
    simp only [prefixed, List.length_append, List.length_cons]
    omega
  rcases readFull_arrived 2 events two with ⟨behind, readHeader, behindBytes, behindSame⟩
  have body : arrived behind = packet ++ more := by
    rw [behindBytes, carries]
    rfl
  have size : lengthOf ((arrived events).take 2) = packet.length := by
    rw [carries]
    exact lengthOf_prefixed packet more short
  have enough : packet.length ≤ (arrived behind).length := by
    rw [body, List.length_append]
    omega
  rcases readFull_arrived packet.length behind enough with ⟨left, readBody, leftBytes, leftSame⟩
  refine ⟨left, ?_, ?_, leftSame.trans behindSame⟩
  · rw [body, List.take_left' rfl] at readBody
    simp only [readFrame, readHeader, size, readBody, if_true]
  · rw [leftBytes, body, List.drop_left' rfl]

def Incomplete (rest : List UInt8) : Prop := rest.length < 2 ∨ rest.length < 2 + lengthOf (rest.take 2)

theorem readFrame_header (events : List ReadEvent) (short : (arrived events).length < 2)
    (unfilled : (interruption events).1 ≠ .full) :
    readFrame events = (.header (interruption events).1, (interruption events).2) := by
  simp only [readFrame, readFull_short 2 events short, if_neg unfilled]

theorem readFrame_body (events : List ReadEvent) (two : 2 ≤ (arrived events).length)
    (short : (arrived events).length < 2 + lengthOf ((arrived events).take 2))
    (unfilled : (interruption events).1 ≠ .full) :
    readFrame events = (.body (interruption events).1, (interruption events).2) := by
  rcases readFull_arrived 2 events two with ⟨behind, readHeader, behindBytes, behindSame⟩
  have starved : (arrived behind).length < lengthOf ((arrived events).take 2) := by
    rw [behindBytes, List.length_drop]
    omega
  rw [← behindSame] at unfilled ⊢
  simp only [readFrame, readHeader, if_true, readFull_short _ behind starved, if_neg unfilled]

theorem interruption_unfilled (events : List ReadEvent) : (interruption events).1 ≠ .full := by
  induction events with
  | nil => simp [interruption]
  | cons event events ih =>
      cases event with
      | data bytes => exact ih
      | timeout => simp [interruption]
      | closed => simp [interruption]

theorem bytes_framed (bytes : List UInt8) :
    ∃ (packets : List (List UInt8)) (rest : List UInt8), bytes = packets.flatMap prefixed ++ rest ∧
      (∀ packet ∈ packets, packet.length < 65536) ∧ Incomplete rest := by
  induction size : bytes.length using Nat.strongRecOn generalizing bytes with
  | ind size ih =>
      by_cases incomplete : Incomplete bytes
      · exact ⟨[], bytes, rfl, by simp, incomplete⟩
      · match bytes with
        | [] => exact absurd (Or.inl (by simp)) incomplete
        | [_] => exact absurd (Or.inl (by simp)) incomplete
        | high :: low :: body =>
            have whole : lengthOf [high, low] ≤ body.length := by
              by_contra shorter
              apply incomplete
              right
              simp only [List.take_succ_cons, List.take_zero, List.length_cons]
              omega
            have least : high.toNat * 256 + low.toNat = lengthOf [high, low] := rfl
            have first := high.toNat_lt
            have second := low.toNat_lt
            rcases ih (body.drop (lengthOf [high, low])).length
                (by simp only [List.length_drop, ← size, List.length_cons]; omega)
                (body.drop (lengthOf [high, low])) rfl with ⟨packets, rest, framed, short, ends⟩
            refine ⟨body.take (lengthOf [high, low]) :: packets, rest, ?_, ?_, ends⟩
            · have taken : (body.take (lengthOf [high, low])).length = lengthOf [high, low] :=
                List.length_take_of_le whole
              have highByte : UInt8.ofNat (lengthOf [high, low] / 256) = high := by
                apply UInt8.toNat_inj.mp
                rw [UInt8.toNat_ofNat', ← least]
                omega
              have lowByte : UInt8.ofNat (lengthOf [high, low]) = low := by
                apply UInt8.toNat_inj.mp
                rw [UInt8.toNat_ofNat', ← least]
                omega
              rw [List.flatMap_cons, prefixed, taken, highByte, lowByte, List.append_assoc, ← framed]
              simp only [List.cons_append, List.take_append_drop]
            · intro packet member
              rcases List.mem_cons.mp member with rfl | later
              · rw [List.length_take]
                omega
              · exact short packet later

/-- The first bytes of a stream of frames are whole frames of it and the beginning of the next. -/
theorem framed_initial (packets : List (List UInt8)) (bytes : List UInt8)
    (short : ∀ packet ∈ packets, packet.length < 65536) (initial : bytes <+: packets.flatMap prefixed) :
    ∃ count rest, bytes = (packets.take count).flatMap prefixed ++ rest ∧ Incomplete rest := by
  induction packets generalizing bytes with
  | nil =>
      rw [List.flatMap_nil, List.prefix_nil] at initial
      subst initial
      exact ⟨0, [], rfl, Or.inl (by simp)⟩
  | cons packet packets ih =>
      rw [List.flatMap_cons] at initial
      by_cases whole : (prefixed packet).length ≤ bytes.length
      · rcases List.prefix_of_prefix_length_le (List.prefix_append _ _) initial whole with ⟨more, rfl⟩
        rcases ih more (fun other member => short other (List.mem_cons_of_mem packet member))
          ((List.prefix_append_right_inj _).mp initial) with ⟨count, rest, framed, ends⟩
        refine ⟨count + 1, rest, ?_, ends⟩
        rw [List.take_succ_cons, List.flatMap_cons, List.append_assoc, ← framed]
      · refine ⟨0, bytes, rfl, ?_⟩
        by_cases two : bytes.length < 2
        · exact Or.inl two
        · right
          rcases initial with ⟨more, all⟩
          have header : bytes.take 2 = (prefixed packet ++ packets.flatMap prefixed).take 2 := by
            rw [← all, List.take_append_of_le_length (by omega)]
          rw [header, lengthOf_prefixed packet _ (short packet List.mem_cons_self)]
          simp only [prefixed, List.length_cons] at whole
          omega

theorem readFrame_prefixed (events : List ReadEvent) (packet more : List UInt8)
    (live : Live events) (carries : bytesOf events = prefixed packet ++ more)
    (short : packet.length < 65536) :
    ∃ left, readFrame events = (.frame packet, left) ∧ Live left ∧ bytesOf left = more := by
  rw [← arrived_live events live] at carries
  rcases readFrame_arrived events packet more carries short with ⟨left, read, bytes, same⟩
  have leftLive : Live left := (live_iff left).mpr (same.trans ((live_iff events).mp live))
  exact ⟨left, read, leftLive, (arrived_live left leftLive).symm.trans bytes⟩

theorem readFrame_drained (events : List ReadEvent) (live : Live events)
    (drained : bytesOf events = []) : (readFrame events).1 = .header .blocked := by
  have starved := readFull_starved 2 events live (by rw [drained]; decide)
  simp only [readFrame, starved, reduceCtorEq, if_false]

end Lib.ByteStream
