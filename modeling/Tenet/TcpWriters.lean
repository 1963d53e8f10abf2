import Tenet.TcpFraming
import Tenet.Lib.LockedWrites

/-! `writeTCPPacket` of `node/send_path.go` called from many goroutines at once, while the reader of the
connection (`handleTCP` of `node/tcp_io.go`) closes it and gives up its lock. -/

namespace Tenet

open Lib ByteStream Run

/-- How far `handleTCP` has come with its deferred calls, which run last in, first out. -/
inductive HandlerPoint where
  | running
  | closed
  | released
  deriving DecidableEq, Repr

structure TcpWriters where
  /-- the calls of `writeTCPPacket`, by number, with `tcpWriteMuMap` and the connections -/
  path : LockedWrites Nat ConnId UInt8
  handler : ConnId → HandlerPoint

inductive WriterEvent where
  | load (call : Nat)
  | loadOrStore (call : Nat)
  | lock (call : Nat)
  /-- `conn.Write` puts some more bytes on the connection -/
  | write (call count : Nat)
  | unlock (call : Nat)
  /-- a write error, the other end, or another owner of the connection -/
  | closeConn (conn : ConnId)
  | deferredClose (conn : ConnId)
  | releaseTCPWriteMutex (conn : ConnId)
  deriving DecidableEq, Repr

namespace TcpWriters

/-- The connection and the packet of a call. -/
abbrev Calls := Nat → ConnId × Bytes

def conn (calls : Calls) (call : Nat) : ConnId := (calls call).1

def packet (calls : Calls) (call : Nat) : Bytes := (calls call).2

def frame (calls : Calls) (call : Nat) : Bytes := encodeTCPFrame (packet calls call)

def start : TcpWriters := ⟨.start, fun _ => .running⟩

def action (s : TcpWriters) : WriterEvent → Option (WriteAction Nat ConnId)
  | .load call => some (.load call)
  | .loadOrStore call => some (.loadOrStore call)
  | .lock call => some (.lock call)
  | .write call count => some (.write call count)
  | .unlock call => some (.unlock call)
  | .closeConn conn => some (.close conn)
  | .deferredClose conn => if s.handler conn = .running then some (.close conn) else none
  | .releaseTCPWriteMutex conn => if s.handler conn = .closed then some (.release conn) else none

def moved (s : TcpWriters) : WriterEvent → ConnId → HandlerPoint
  | .deferredClose conn =>
      if s.handler conn = .running then Function.update s.handler conn .closed else s.handler
  | .releaseTCPWriteMutex conn =>
      if s.handler conn = .closed then Function.update s.handler conn .released else s.handler
  | _ => s.handler

def step (calls : Calls) (s : TcpWriters) (event : WriterEvent) : TcpWriters where
  path := match s.action event with
    | some action => s.path.step (conn calls) (frame calls) action
    | none => s.path
  handler := s.moved event

/-- Whoever is behind its deferred close has closed the connection. -/
structure Serial (calls : Calls) (s : TcpWriters) : Prop where
  ordered : s.path.Ordered (conn calls) (frame calls)
  closed : ∀ conn, s.handler conn ≠ .running → s.path.closed conn = true

theorem frame_ne_nil (calls : Calls) (call : Nat) : frame calls call ≠ [] := List.cons_ne_nil _ _

theorem action_release {s : TcpWriters} {event : WriterEvent} {c : ConnId}
    (behind : s.action event = some (.release c)) : s.handler c = .closed := by
  cases event with
  | releaseTCPWriteMutex other =>
      simp only [action, Option.ite_none_right_eq_some, Option.some.injEq,
        WriteAction.release.injEq] at behind
      obtain ⟨closed, rfl⟩ := behind
      exact closed
  | deferredClose other => simp [action] at behind
  | load call | loadOrStore call | lock call | write call count | unlock call | closeConn conn =>
      cases behind

theorem deferredClose_of_moved {s : TcpWriters} {event : WriterEvent} {c : ConnId}
    (running : s.handler c = .running) (ended : s.moved event c ≠ .running) :
    event = .deferredClose c := by
  by_contra other
  apply ended
  cases event with
  | deferredClose conn =>
      have apart : c ≠ conn := fun same => other (by rw [same])
      simp only [moved]
      split
      · rw [Function.update_of_ne apart, running]
      · exact running
  | releaseTCPWriteMutex conn =>
      simp only [moved]
      split
      · next closed =>
          rw [Function.update_of_ne, running]
          rintro rfl
          rw [running] at closed
          cases closed
      · exact running
  | load call | loadOrStore call | lock call | write call count | unlock call | closeConn conn =>
      exact running

theorem path_cases (calls : Calls) (s : TcpWriters) (event : WriterEvent) :
    (s.step calls event).path = s.path ∨
      ∃ action, s.action event = some action ∧
        (s.step calls event).path = s.path.step (conn calls) (frame calls) action := by
  unfold step
  dsimp only
  cases found : s.action event with
  | none => exact Or.inl rfl
  | some action => exact Or.inr ⟨action, rfl, rfl⟩

theorem serial_step (calls : Calls) (s : TcpWriters) (event : WriterEvent)
    (serial : Serial calls s) : Serial calls (s.step calls event) := by
  constructor
  · rcases s.path_cases calls event with same | ⟨action, behind, path⟩
    · rw [same]
      exact serial.ordered
    · rw [path]
      apply LockedWrites.ordered_step (frame_ne_nil calls) serial.ordered
      cases action with
      | release conn =>
          apply serial.closed
          rw [action_release behind]
          decide
      | load call | loadOrStore call | lock call | write call count | unlock call | close conn =>
          trivial
  · intro conn ended
    by_cases running : s.handler conn = .running
    · obtain rfl := deferredClose_of_moved running ended
      simp only [step, action, if_pos running]
      rw [LockedWrites.step_closed]
      simp
    · rcases s.path_cases calls event with same | ⟨action, _, path⟩
      · rw [same]
        exact serial.closed conn running
      · rw [path, LockedWrites.step_closed, serial.closed conn running, Bool.or_true]

theorem serial_run (calls : Calls) (events : List WriterEvent) :
    Serial calls (run (step calls) start events) :=
  run_invariant start events ⟨LockedWrites.ordered_start, fun _ behind => absurd rfl behind⟩
    fun s event serial => serial_step calls s event serial

theorem incomplete_of_begun (packet part : Bytes) (short : packet.length < 65536)
    (begun : part <+: encodeTCPFrame packet) (unfinished : part ≠ encodeTCPFrame packet) :
    Incomplete part := by
  obtain ⟨rest, whole⟩ := begun
  have more : 0 < rest.length := by
    rw [List.length_pos_iff]
    rintro rfl
    rw [List.append_nil] at whole
    exact unfinished whole
  have size : part.length + rest.length = 2 + packet.length := by
    rw [← List.length_append, whole]
    simp only [encodeTCPFrame, prefixed, List.length_cons]
    omega
  by_cases two : part.length < 2
  · exact Or.inl two
  · right
    have length := lengthOf_prefixed packet [] short
    rw [List.append_nil] at length
    have header : part.take 2 = (prefixed packet).take 2 := by
      rw [show prefixed packet = part ++ rest from whole.symm, List.take_append_of_le_length (by omega)]
    rw [header, length]
    omega

/-- However the calls of `writeTCPPacket` interleave with each other and with the end of the reader,
the other end of a connection is handed exactly the packets of the calls that wrote all of theirs, each
once, and all of them in the order of these calls. -/
theorem writers_framed (calls : Calls)
    (sized : ∀ call, 1 ≤ (packet calls call).length ∧ (packet calls call).length ≤ 65535)
    (events : List WriterEvent) (c : ConnId) :
    let s := (run (step calls) start events).path
    (s.log c).Nodup ∧
      (∀ call, call ∈ s.log c ↔ conn calls call = c ∧ (s.point call).complete = true) ∧
      ∀ {S : Type} (handlePacket : S → UInt8 → Bytes → S) (init : S) (reads : List ReadEvent),
        arrived reads = s.bytes c →
          handleTCP handlePacket init reads =
            (handlePackets handlePacket init (tentPackets ((s.log c).map (packet calls))),
              stopped (interruption reads).1) := by
  have ordered := (serial_run calls events).ordered
  refine ⟨ordered.distinct c, fun call => (ordered.placed call).logged c, ?_⟩
  intro S handlePacket init reads received
  obtain ⟨part, spooled⟩ := ordered.spooled c
  apply handleTCP_framed handlePacket _ part init reads
  · rw [received, spooled.bytes, List.flatMap_map]
    rfl
  · intro sent member
    obtain ⟨call, _, rfl⟩ := List.mem_map.mp member
    have := sized call
    omega
  · rcases spooled.begun with empty | ⟨call, _, begun, unfinished⟩
    · rw [empty]
      exact Or.inl (by decide)
    · have := sized call
      exact incomplete_of_begun (packet calls call) part (by omega) begun unfinished

/-- Two calls that meet at the lock, the second cut short by the end of the reader. -/
theorem writers_framed_cut :
    handleTCP (fun log packetType payload => log ++ [(packetType, payload)]) []
        [.data [0, 6, 84, 69, 78, 84, 2, 9, 0, 6, 84]] =
      ([((2 : UInt8), ([9] : Bytes))], .waiting) := by
  have framed := (writers_framed (fun call => (1, tentPacket packetTypeData [9 + UInt8.ofNat call]))
    (fun _ => ⟨Nat.le_of_ble_eq_true rfl, Nat.le_of_ble_eq_true rfl⟩)
    [.load 0, .load 1, .loadOrStore 0, .loadOrStore 1, .lock 0, .lock 1, .write 0 3, .write 1 5,
      .write 0 100, .unlock 0, .lock 1, .write 1 3, .deferredClose 1, .releaseTCPWriteMutex 1,
      .write 1 100, .unlock 1] 1).2.2
    (fun (log : List (UInt8 × Bytes)) packetType payload => log ++ [(packetType, payload)]) []
    [.data [0, 6, 84, 69, 78, 84, 2, 9, 0, 6, 84]] (by decide +kernel)
  exact framed.trans (by decide +kernel)

end TcpWriters

end Tenet
