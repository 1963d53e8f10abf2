import Tenet.Splicing

/-! No run splices two messages, delivers one twice, or reorders those of one session.

Three things work together: a call keeps one session, so its fragments stand side by side in the
log of one key; the nonces let the receiver read each log only from the front and without gaps;
and the first fragment of a session starts a message, which clears what an earlier session left in
the buffer. -/

namespace Tenet.Splicing

open Lib Transcript

structure SenderInv (s : State) : Prop where
  sent : Sent s.calls s.log
  counted : ∀ cipher, sendCipher s.sender = some cipher →
    cipher.n = (s.log cipher.key).length ∧ cipher.key ∈ s.senderKeys
  unused : ∀ key, key ∉ s.senderKeys → s.log key = []
  progress : ∀ index, s.sending = some index → ∀ cipher, sendCipher s.sender = some cipher →
    (index ≠ 0 → ∃ previous, (s.log cipher.key).getLast? = some previous ∧
      previous.call + 1 = s.calls.length ∧ previous.index + 1 = index) ∧
    ∀ other (i : Nat) (twin : Entry), (s.log other)[i]? = some twin →
      twin.call + 1 = s.calls.length → other = cipher.key ∧ twin.index < index

def Stands (calls : List Bytes) (log : Log) (key : CipherKey) (nonce : Nat) (entry : Entry)
    (payload : Bytes) : Prop :=
  (log key)[nonce]? = some entry ∧ calls[entry.call]? = some payload

abbrev Holds := Fragment.Holds (α := UInt8) maxReassemblySize maxPayloadSize

structure ReceiverInv (calls : List Bytes) (log : Log) (receiver : Peer)
    (receiverKeys : List CipherKey) (opened : Option Opened) (delivered : List Delivery) :
    Prop where
  known : ∀ cipher, recvCipher receiver = some cipher → cipher.key ∈ receiverKeys
  /-- the buffer is that of the last fragment received in the current session -/
  held : opened = none → ∀ cipher, recvCipher receiver = some cipher → cipher.n ≠ 0 →
    ∃ entry payload, Stands calls log cipher.key (cipher.n - 1) entry payload ∧
      Holds payload (entry.index + 1) receiver.reassemblyBuffer
  pending : ∀ o, opened = some o → ∃ entry payload, Stands calls log o.key o.nonce entry payload ∧
    o.plaintext = frameType entry.frame.kind :: entry.frame.body ∧
    (0 < entry.index → Holds payload entry.index receiver.reassemblyBuffer)
  pendingKey : ∀ o, opened = some o → o.key ∈ receiverKeys ∧
    (∀ cipher, recvCipher receiver = some cipher →
      (cipher.n = 0 ∧ cipher.key ≠ o.key) ∨ (cipher.key = o.key ∧ cipher.n = o.nonce + 1)) ∧
    ∀ d ∈ delivered, d.key = o.key → d.nonce < o.nonce
  below : ∀ d ∈ delivered, d.key ∈ receiverKeys ∧
    ∀ cipher, recvCipher receiver = some cipher → d.key = cipher.key → d.nonce < cipher.n
  complete : ∀ d ∈ delivered, ∃ entry, Stands calls log d.key d.nonce entry d.payload ∧
    entry.index + 1 = (Fragment.split maxPayloadSize d.payload).length
  increasing : delivered.Pairwise fun a b => a.key = b.key → a.nonce < b.nonce

structure Inv (s : State) : Prop where
  senderInv : SenderInv s
  receiverInv : ReceiverInv s.calls s.log s.receiver s.receiverKeys s.opened s.delivered


theorem sendCipher_some (p : Peer) (session : Session) (live : p.session = some session) :
    sendCipher p = session.sendCipher := by
  rw [sendCipher, live, Option.bind_some]

theorem recvCipher_some (p : Peer) (session : Session) (live : p.session = some session) :
    recvCipher p = session.recvCipher := by
  rw [recvCipher, live, Option.bind_some]

theorem isFresh_some (used : List CipherKey) (cipher : CipherState)
    (fresh : isFresh used (some cipher) = true) : cipher.n = 0 ∧ cipher.key ∉ used := by
  simpa only [isFresh, Option.all_some, decide_eq_true_eq] using fresh

theorem mem_keysOf (cipher : CipherState) : cipher.key ∈ keysOf (some cipher) :=
  List.mem_singleton.mpr rfl

section Sender

theorem senderInv_start (sender receiver : Peer)
    (senderNew : ∀ cipher, sendCipher sender = some cipher → cipher.n = 0) :
    SenderInv (start sender receiver) where
  sent := Sent.empty
  counted := by
    intro cipher current
    refine ⟨senderNew cipher current, ?_⟩
    show cipher.key ∈ keysOf (sendCipher sender)
    rw [show sendCipher sender = some cipher from current]
    exact mem_keysOf cipher
  unused := fun _ _ => rfl
  progress := by
    intro index sending
    cases sending

theorem senderInv_call (s : State) (inv : SenderInv s) (payload : Bytes) :
    SenderInv { s with calls := s.calls ++ [payload], sending := some 0 } where
  sent := inv.sent.newCall payload
  counted := inv.counted
  unused := inv.unused
  progress := by
    intro index sending cipher current
    cases sending
    refine ⟨fun nonzero => absurd rfl nonzero, ?_⟩
    -- No fragment of a call is in the log before the call starts.
    intro other i twin present lastCall
    have old := inv.sent.call_lt other i twin present
    rw [List.length_append, List.length_singleton] at lastCall
    omega

theorem senderInv_idle (s : State) (inv : SenderInv s) : SenderInv { s with sending := none } where
  sent := inv.sent
  counted := inv.counted
  unused := inv.unused
  progress := by
    intro index sending
    cases sending

theorem senderInv_upgrade (s : State) (inv : SenderInv s) (addr : NetAddr) (conn : Option ConnId)
    (transport : Transport) (session : Session) (now : Int) (idle : s.sending = none)
    (fresh : isFresh s.senderKeys session.sendCipher = true) :
    SenderInv { s with
      sender := (s.sender.upgradeTransport addr conn transport session now).1
      senderKeys := keysOf session.sendCipher ++ s.senderKeys } where
  sent := inv.sent
  counted := by
    intro cipher current
    rcases s.sender.upgradeTransport_session addr conn transport session now with kept | replaced
    · have same : sendCipher s.sender = some cipher := by
        rw [sendCipher, ← kept]
        exact current
      rcases inv.counted cipher same with ⟨count, used⟩
      exact ⟨count, List.mem_append_right _ used⟩
    · rw [sendCipher_some _ session replaced] at current
      rw [current] at fresh
      rcases isFresh_some _ cipher fresh with ⟨zero, absent⟩
      refine ⟨?_, ?_⟩
      · show cipher.n = (s.log cipher.key).length
        rw [inv.unused cipher.key absent, zero]
        rfl
      · rw [current]
        exact List.mem_append_left _ (mem_keysOf cipher)
  unused := by
    intro key absent
    exact inv.unused key (fun used => absent (List.mem_append_right _ used))
  progress := by
    intro index sending
    rw [show s.sending = some index from sending] at idle
    cases idle

theorem senderInv_fragment (s : State) (inv : SenderInv s) (index : Nat) (payload : Bytes)
    (session after : Session) (frame : Fragment.Frame UInt8) (cipher : CipherState)
    (ciphertext : Bytes) (sending : s.sending = some index)
    (called : s.calls.getLast? = some payload) (live : s.sender.session = some session)
    (present : (Fragment.split maxPayloadSize payload)[index]? = some frame)
    (keyed : session.sendCipher = some cipher)
    (moved : after.sendCipher = some { cipher with n := cipher.n + 1 }) (next : Option Nat)
    (forward : next = none ∨ next = some (index + 1)) :
    SenderInv { s with
      sender := { s.sender with session := some after }
      log := record s.log cipher.key ⟨ciphertext, frame, s.calls.length - 1, index⟩
      sending := next } := by
  have current : sendCipher s.sender = some cipher := by rw [sendCipher_some _ _ live, keyed]
  rcases inv.counted cipher current with ⟨count, used⟩
  rcases inv.progress index sending cipher current with ⟨follows, earlier⟩
  rw [List.getLast?_eq_getElem?] at called
  have some_call : s.calls.length - 1 + 1 = s.calls.length := by
    have within := (List.getElem?_eq_some_iff.mp called).1
    omega
  let entry : Entry := ⟨ciphertext, frame, s.calls.length - 1, index⟩
  have newCipher : ∀ other, sendCipher { s.sender with session := some after } = some other →
      other = { cipher with n := cipher.n + 1 } := by
    intro other found
    rw [sendCipher_some _ after rfl, moved] at found
    exact (Option.some.inj found).symm
  refine ⟨?_, ?_, ?_, ?_⟩
  · apply inv.sent.newEntry cipher.key entry payload called some_call present
    · intro nonzero
      rcases follows nonzero with ⟨previous, ending, lastCall, position⟩
      exact ⟨previous, ending, by show previous.call = s.calls.length - 1; omega, position⟩
    · intro other i twin old same
      exact earlier other i twin old (by rw [same]; exact some_call)
  · intro other found
    rw [newCipher other found]
    refine ⟨?_, used⟩
    show cipher.n + 1 = (record s.log cipher.key entry cipher.key).length
    rw [record, if_pos rfl, List.length_append, List.length_singleton, count]
  · intro key absent
    have different : key ≠ cipher.key := fun same => absent (same ▸ used)
    show record s.log cipher.key entry key = []
    rw [record, if_neg different]
    exact inv.unused key absent
  · intro position sendingNext other found
    rw [newCipher other found]
    rcases forward with stopped | continued
    · rw [show next = some position from sendingNext] at stopped
      cases stopped
    · rw [show next = some position from sendingNext] at continued
      cases continued
      refine ⟨?_, ?_⟩
      · intro _
        refine ⟨entry, ?_, some_call, rfl⟩
        show (record s.log cipher.key entry cipher.key).getLast? = some entry
        rw [record, if_pos rfl, List.getLast?_concat]
      · intro key i twin member lastCall
        rcases (record_iff ..).mp member with old | ⟨sameKey, _, rfl⟩
        · rcases earlier key i twin old lastCall with ⟨sameKey, before⟩
          exact ⟨sameKey, by omega⟩
        · exact ⟨sameKey, Nat.lt_succ_self _⟩

theorem senderInv_closed (s : State) (inv : SenderInv s) (p : Peer) (next : Option Nat)
    (closed : sendCipher p = none) : SenderInv { s with sender := p, sending := next } where
  sent := inv.sent
  counted := by
    intro cipher current
    rw [show sendCipher p = some cipher from current] at closed
    cases closed
  unused := inv.unused
  progress := by
    intro index _ cipher current
    rw [show sendCipher p = some cipher from current] at closed
    cases closed

variable (encryption : CipherKey → Nat → Bytes → Bytes)

theorem senderInv_sendNext (s : State) (inv : SenderInv s) (n : Node) (path : SendPath)
    (accepts : Nat → Bool) : SenderInv (sendNext encryption s n path accepts) := by
  unfold sendNext
  split
  · next index payload session sending called live =>
      split
      · exact senderInv_idle s inv
      · next frame present =>
          have spent := sendFrame_session (idealAead encryption s.log) n path accepts
            ⟨session, index, []⟩ (frameType frame.kind) frame.body
          cases keyed : session.sendCipher with
          | none =>
              apply senderInv_closed s inv
              rw [sendCipher_some _ _ rfl, spent, keyed]
              rfl
          | some cipher =>
              apply senderInv_fragment s inv index payload session _ frame cipher _ sending called
                live present keyed
              · rw [spent, keyed]
                rfl
              · split
                · exact Or.inr rfl
                · exact Or.inl rfl
  · exact inv

theorem sendNext_grows (s : State) (n : Node) (path : SendPath) (accepts : Nat → Bool)
    (key : CipherKey) (i : Nat) (entry : Entry) (present : (s.log key)[i]? = some entry) :
    ((sendNext encryption s n path accepts).log key)[i]? = some entry := by
  unfold sendNext
  split
  · next index payload session sending called live =>
      split
      · exact present
      · cases session.sendCipher with
        | none => exact present
        | some cipher => exact record_kept _ _ _ _ _ _ present
  · exact present

theorem sendNext_receiver (s : State) (n : Node) (path : SendPath) (accepts : Nat → Bool) :
    ∃ sender log sending,
      sendNext encryption s n path accepts = { s with sender, log, sending } := by
  unfold sendNext
  split
  · split
    · exact ⟨s.sender, s.log, none, rfl⟩
    · exact ⟨_, _, _, rfl⟩
  · exact ⟨s.sender, s.log, s.sending, rfl⟩

end Sender

section Receiver

variable {calls : List Bytes} {log : Log} {receiver : Peer} {receiverKeys : List CipherKey}
  {opened : Option Opened} {delivered : List Delivery}

theorem receiverInv_start (receiver : Peer)
    (receiverNew : ∀ cipher, recvCipher receiver = some cipher → cipher.n = 0) :
    ReceiverInv [] (fun _ => []) receiver (keysOf (recvCipher receiver)) none [] where
  known := by
    intro cipher current
    rw [current]
    exact mem_keysOf cipher
  held := fun _ cipher current nonzero => absurd (receiverNew cipher current) nonzero
  pending := by
    intro o impossible
    cases impossible
  pendingKey := by
    intro o impossible
    cases impossible
  below := by simp
  complete := by simp
  increasing := List.Pairwise.nil

theorem ReceiverInv.grow (inv : ReceiverInv calls log receiver receiverKeys opened delivered)
    (moreCalls : List Bytes) (moreLog : Log)
    (keepCalls : ∀ (i : Nat) payload, calls[i]? = some payload → moreCalls[i]? = some payload)
    (keepLog : ∀ key (i : Nat) entry, (log key)[i]? = some entry →
      (moreLog key)[i]? = some entry) :
    ReceiverInv moreCalls moreLog receiver receiverKeys opened delivered := by
  have stands : ∀ key nonce entry payload, Stands calls log key nonce entry payload →
      Stands moreCalls moreLog key nonce entry payload := by
    intro key nonce entry payload both
    exact ⟨keepLog key nonce entry both.1, keepCalls entry.call payload both.2⟩
  refine ⟨inv.known, ?_, ?_, inv.pendingKey, inv.below, ?_, inv.increasing⟩
  · intro idle cipher current nonzero
    rcases inv.held idle cipher current nonzero with ⟨entry, payload, stood, holds⟩
    exact ⟨entry, payload, stands _ _ _ _ stood, holds⟩
  · intro o waiting
    rcases inv.pending o waiting with ⟨entry, payload, stood, rest⟩
    exact ⟨entry, payload, stands _ _ _ _ stood, rest⟩
  · intro d member
    rcases inv.complete d member with ⟨entry, stood, last⟩
    exact ⟨entry, stands _ _ _ _ stood, last⟩

theorem ReceiverInv.congr (inv : ReceiverInv calls log receiver receiverKeys opened delivered)
    (other : Peer) (sameCipher : recvCipher other = recvCipher receiver)
    (sameBuffer : other.reassemblyBuffer = receiver.reassemblyBuffer) :
    ReceiverInv calls log other receiverKeys opened delivered := by
  rcases inv with ⟨known, held, pending, pendingKey, below, complete, increasing⟩
  constructor
  all_goals first
    | rw [sameCipher]; assumption
    | (simp only [sameCipher, sameBuffer]; assumption)
    | assumption

theorem ReceiverInv.moreKeys (inv : ReceiverInv calls log receiver receiverKeys opened delivered)
    (keys : List CipherKey) :
    ReceiverInv calls log receiver (keys ++ receiverKeys) opened delivered where
  known := fun cipher current => List.mem_append_right _ (inv.known cipher current)
  held := inv.held
  pending := inv.pending
  pendingKey := by
    intro o waiting
    rcases inv.pendingKey o waiting with ⟨used, rest⟩
    exact ⟨List.mem_append_right _ used, rest⟩
  below := by
    intro d member
    rcases inv.below d member with ⟨used, rest⟩
    exact ⟨List.mem_append_right _ used, rest⟩
  complete := inv.complete
  increasing := inv.increasing

/-- A new session: its key has opened nothing yet, and the old buffer is kept but not trusted. -/
theorem ReceiverInv.renewed (inv : ReceiverInv calls log receiver receiverKeys opened delivered)
    (other : Peer) (session : Session) (replaced : other.session = some session)
    (fresh : isFresh receiverKeys session.recvCipher = true)
    (sameBuffer : other.reassemblyBuffer = receiver.reassemblyBuffer) :
    ReceiverInv calls log other (keysOf session.recvCipher ++ receiverKeys) opened delivered := by
  have zero : ∀ cipher, recvCipher other = some cipher →
      cipher.n = 0 ∧ cipher.key ∉ receiverKeys := by
    intro cipher current
    rw [recvCipher_some _ session replaced] at current
    rw [current] at fresh
    exact isFresh_some _ cipher fresh
  refine ⟨?_, ?_, ?_, ?_, ?_, inv.complete, inv.increasing⟩
  · intro cipher current
    rw [recvCipher_some _ session replaced] at current
    rw [current]
    exact List.mem_append_left _ (mem_keysOf cipher)
  · intro _ cipher current nonzero
    exact absurd (zero cipher current).1 nonzero
  · rw [sameBuffer]
    exact inv.pending
  · intro o waiting
    rcases inv.pendingKey o waiting with ⟨used, _, before⟩
    refine ⟨List.mem_append_right _ used, ?_, before⟩
    intro cipher current
    rcases zero cipher current with ⟨start, absent⟩
    exact Or.inl ⟨start, fun same => absent (same ▸ used)⟩
  · intro d member
    rcases inv.below d member with ⟨used, _⟩
    refine ⟨List.mem_append_right _ used, ?_⟩
    intro cipher current same
    exact absurd (same ▸ used) (zero cipher current).2

theorem receiverInv_upgrade (inv : ReceiverInv calls log receiver receiverKeys opened delivered)
    (addr : NetAddr) (conn : Option ConnId) (transport : Transport) (session : Session) (now : Int)
    (fresh : isFresh receiverKeys session.recvCipher = true) :
    ReceiverInv calls log (receiver.upgradeTransport addr conn transport session now).1
      (keysOf session.recvCipher ++ receiverKeys) opened delivered := by
  rcases receiver.upgradeTransport_session addr conn transport session now with kept | replaced
  · apply (inv.moreKeys _).congr
    · rw [recvCipher, kept, recvCipher]
    · exact receiver.upgradeTransport_reassemblyBuffer addr conn transport session now
  · exact inv.renewed _ session replaced fresh
      (receiver.upgradeTransport_reassemblyBuffer addr conn transport session now)

/-- The next ciphertext of the session has been opened. If it carries a later fragment of a
message, then the buffer holds the fragments before it. -/
theorem receiverInv_decrypt (encryption : CipherKey → Nat → Bytes → Bytes) (sent : Sent calls log)
    (inv : ReceiverInv calls log receiver receiverKeys none delivered) (packet plaintext : Bytes)
    (after : Peer) (cipher : CipherState) (current : recvCipher receiver = some cipher)
    (decrypted : receiver.decrypt (idealAead encryption log) packet = some (plaintext, after)) :
    ReceiverInv calls log after receiverKeys (some ⟨cipher.key, cipher.n, plaintext⟩)
      delivered := by
  rcases Peer.decrypt_eq_some _ receiver after packet plaintext decrypted with
    ⟨session, found, live, keyed, opens, moved⟩
  have now : recvCipher receiver = some found := by rw [recvCipher_some _ session live, keyed]
  rw [now] at current
  cases current
  rcases idealAead_decrypt encryption log cipher.key cipher.n packet plaintext opens with
    ⟨entry, present, plain⟩
  rcases sent.fragment cipher.key cipher.n entry present with ⟨payload, called, _⟩
  have later : ∀ other, recvCipher after = some other →
      other = { cipher with n := cipher.n + 1 } := by
    intro other found
    rw [moved] at found
    exact (Option.some.inj found).symm
  have sameBuffer : after.reassemblyBuffer = receiver.reassemblyBuffer := by rw [moved]
  refine ⟨?_, ?_, ?_, ?_, ?_, inv.complete, inv.increasing⟩
  · intro other current
    rw [later other current]
    exact inv.known cipher now
  · intro impossible
    cases impossible
  · intro o waiting
    cases waiting
    refine ⟨entry, payload, ⟨present, called⟩, plain, ?_⟩
    intro positive
    rcases sent.consecutive cipher.key cipher.n entry present (by omega) with
      ⟨previous, nonzero, before, sameCall, position⟩
    rcases inv.held rfl cipher now (by omega) with ⟨last, lastPayload, stood, holds⟩
    have same : last = previous := Option.some.inj (stood.1.symm.trans before)
    subst same
    have samePayload : lastPayload = payload := by
      have calledLast := stood.2
      rw [sameCall, called] at calledLast
      exact (Option.some.inj calledLast).symm
    rw [samePayload, position] at holds
    rw [sameBuffer]
    exact holds
  · intro o waiting
    cases waiting
    refine ⟨inv.known cipher now, ?_, ?_⟩
    · intro other current
      rw [later other current]
      exact Or.inr ⟨rfl, rfl⟩
    · intro d member same
      exact (inv.below d member).2 cipher now same
  · intro d member
    refine ⟨(inv.below d member).1, ?_⟩
    intro other current same
    rw [later other current] at same ⊢
    exact Nat.lt_succ_of_lt ((inv.below d member).2 cipher now same)

/-- The opened fragment is the next one of the message held, so what it completes is that message
and nothing else. -/
theorem receiverInv_dispatch (sent : Sent calls log) (o : Opened)
    (inv : ReceiverInv calls log receiver receiverKeys (some o) delivered) (n : Node) :
    ReceiverInv calls log (n.dispatchFrame receiver.id receiver o.plaintext).1 receiverKeys none
      (delivered ++ (receiver.resetDecryptFailures.receiveFrame o.plaintext).2.toList.map
        fun payload => ⟨payload, o.key, o.nonce⟩) := by
  rcases inv.pending o rfl with ⟨entry, payload, stood, plain, before⟩
  rcases inv.pendingKey o rfl with ⟨used, position, older⟩
  rcases sent.fragment o.key o.nonce entry stood.1 with ⟨same, called, split⟩
  rw [stood.2] at called
  cases called
  rcases Fragment.step_holds maxReassemblySize maxPayloadSize (by decide) payload entry.index
    entry.frame receiver.reassemblyBuffer split before with ⟨holds, whole⟩
  rcases dispatchFrame_eq n receiver.id receiver entry.frame with ⟨channels, dispatched⟩
  have received := Peer.receiveFrame_eq_step receiver.resetDecryptFailures entry.frame
  have buffer : receiver.resetDecryptFailures.reassemblyBuffer = receiver.reassemblyBuffer := rfl
  rw [plain, dispatched, received, buffer]
  have handed : ∀ d ∈ (Fragment.step maxReassemblySize receiver.reassemblyBuffer
      entry.frame).2.toList.map (fun data => (⟨data, o.key, o.nonce⟩ : Delivery)),
      d = ⟨payload, o.key, o.nonce⟩ ∧
        entry.index + 1 = (Fragment.split maxPayloadSize payload).length := by
    intro d member
    rcases List.mem_map.mp member with ⟨data, output, rfl⟩
    rcases whole data (Option.mem_toList.mp output) with ⟨rfl, last⟩
    exact ⟨rfl, last⟩
  refine ⟨inv.known, ?_, ?_, ?_, ?_, ?_, ?_⟩
  · intro _ cipher current nonzero
    rcases position cipher current with ⟨zero, _⟩ | ⟨sameKey, next⟩
    · exact absurd zero nonzero
    · refine ⟨entry, payload, ?_, holds⟩
      rw [sameKey, next]
      exact stood
  · intro other impossible
    cases impossible
  · intro other impossible
    cases impossible
  · intro d member
    rcases List.mem_append.mp member with old | new
    · exact inv.below d old
    · rcases handed d new with ⟨rfl, _⟩
      refine ⟨used, ?_⟩
      intro cipher current sameKey
      rcases position cipher current with ⟨_, different⟩ | ⟨_, next⟩
      · exact absurd sameKey.symm different
      · rw [next]
        exact Nat.lt_succ_self _
  · intro d member
    rcases List.mem_append.mp member with old | new
    · exact inv.complete d old
    · rcases handed d new with ⟨rfl, last⟩
      exact ⟨entry, stood, last⟩
  · rw [List.pairwise_append]
    refine ⟨inv.increasing, ?_, ?_⟩
    · cases (Fragment.step maxReassemblySize receiver.reassemblyBuffer entry.frame).2 with
      | none => exact List.Pairwise.nil
      | some data => exact List.pairwise_singleton _ _
    · intro a member b new sameKey
      rcases handed b new with ⟨rfl, _⟩
      exact older a member sameKey

end Receiver

variable (encryption : CipherKey → Nat → Bytes → Bytes)

theorem inv_step (s : State) (inv : Inv s) (action : Action) : Inv (step encryption s action) := by
  rcases inv with ⟨senderInv, receiverInv⟩
  cases action with
  | call payload =>
      simp only [step]
      split
      · refine ⟨senderInv_call s senderInv payload, receiverInv.grow _ _ ?_ (fun _ _ _ kept => kept)⟩
        intro i earlier called
        have within := (List.getElem?_eq_some_iff.mp called).1
        exact (List.getElem?_append_left within).trans called
      · exact ⟨senderInv, receiverInv⟩
  | fragment n path accepts =>
      have grows := sendNext_grows encryption s n path accepts
      rcases sendNext_receiver encryption s n path accepts with ⟨sender, log, sending, same⟩
      refine ⟨senderInv_sendNext encryption s senderInv n path accepts, ?_⟩
      rw [step]
      rw [same] at grows ⊢
      exact receiverInv.grow _ _ (fun _ _ kept => kept) grows
  | upgradeSender addr conn transport session now =>
      simp only [step]
      split
      · next allowed =>
          exact ⟨senderInv_upgrade s senderInv addr conn transport session now
            (Option.isNone_iff_eq_none.mp allowed.1) allowed.2, receiverInv⟩
      · exact ⟨senderInv, receiverInv⟩
  | upgradeReceiver addr conn transport session now =>
      simp only [step]
      split
      · next fresh =>
          exact ⟨⟨senderInv.sent, senderInv.counted, senderInv.unused, senderInv.progress⟩,
            receiverInv_upgrade receiverInv addr conn transport session now fresh⟩
      · exact ⟨senderInv, receiverInv⟩
  | decrypt packet =>
      simp only [step]
      split
      · exact ⟨senderInv, receiverInv⟩
      · next idle =>
          have none_opened : s.opened = none := Option.not_isSome_iff_eq_none.mp idle
          rw [none_opened] at receiverInv
          split
          · next plaintext p cipher decrypted current =>
              exact ⟨⟨senderInv.sent, senderInv.counted, senderInv.unused, senderInv.progress⟩,
                receiverInv_decrypt encryption senderInv.sent receiverInv packet plaintext p cipher
                  current decrypted⟩
          · refine ⟨⟨senderInv.sent, senderInv.counted, senderInv.unused, senderInv.progress⟩, ?_⟩
            show ReceiverInv s.calls s.log s.receiver.incDecryptFailures.1 s.receiverKeys s.opened
              s.delivered
            rw [none_opened]
            exact receiverInv.congr _ rfl rfl
  | dispatch n =>
      simp only [step]
      split
      · exact ⟨senderInv, receiverInv⟩
      · next o waiting =>
          rw [waiting] at receiverInv
          exact ⟨⟨senderInv.sent, senderInv.counted, senderInv.unused, senderInv.progress⟩,
            receiverInv_dispatch senderInv.sent o receiverInv n⟩

theorem inv_run (sender receiver : Peer) (actions : List Action)
    (senderNew : ∀ cipher, sendCipher sender = some cipher → cipher.n = 0)
    (receiverNew : ∀ cipher, recvCipher receiver = some cipher → cipher.n = 0) :
    Inv (Run.run (step encryption) (start sender receiver) actions) := by
  have initially : Inv (start sender receiver) :=
    ⟨senderInv_start sender receiver senderNew, receiverInv_start receiver receiverNew⟩
  exact Run.run_invariant _ actions initially (fun s action inv => inv_step encryption s inv action)

/-- The call whose last fragment completed the delivery at an index. -/
def callOf (s : State) (i : Nat) : Nat :=
  ((s.delivered[i]?.bind fun d => (s.log d.key)[d.nonce]?).map Entry.call).getD 0

theorem callOf_eq (s : State) (i : Nat) (d : Delivery) (entry : Entry)
    (delivered : s.delivered[i]? = some d) (present : (s.log d.key)[d.nonce]? = some entry) :
    callOf s i = entry.call := by
  rw [callOf, delivered, Option.bind_some, present, Option.map_some, Option.getD_some]

/-- Whatever the network does, wherever writes fail and whenever sessions are replaced: each
payload handed on is that of a call, all of whose fragments were encrypted in the session that
delivered it; no two deliveries come from one call; and within a session they come in the order of
the calls. -/
theorem delivered_whole_once_in_order (sender receiver : Peer) (actions : List Action)
    (senderNew : ∀ cipher, sendCipher sender = some cipher → cipher.n = 0)
    (receiverNew : ∀ cipher, recvCipher receiver = some cipher → cipher.n = 0) :
    let s := Run.run (step encryption) (start sender receiver) actions
    ∃ call : Nat → Nat,
      (∀ (i : Nat) d, s.delivered[i]? = some d → s.calls[call i]? = some d.payload ∧
        ∀ (index : Nat) frame, (Fragment.split maxPayloadSize d.payload)[index]? = some frame →
          ∃ entry ∈ s.log d.key, entry.call = call i ∧ entry.index = index ∧ entry.frame = frame) ∧
      ∀ (i j : Nat) a b, i < j → s.delivered[i]? = some a → s.delivered[j]? = some b →
        call i ≠ call j ∧ (a.key = b.key → call i < call j) := by
  intro s
  have inv : Inv s := inv_run encryption sender receiver actions senderNew receiverNew
  have sent := inv.senderInv.sent
  refine ⟨callOf s, ?_, ?_⟩
  · intro i d found
    rcases inv.receiverInv.complete d (List.mem_of_getElem? found) with ⟨entry, stood, last⟩
    rw [callOf_eq s i d entry found stood.1]
    refine ⟨stood.2, ?_⟩
    intro index frame wanted
    exact sent.complete d.key d.nonce entry d.payload stood.1 stood.2 last index frame wanted
  · intro i j a b before foundA foundB
    rcases inv.receiverInv.complete a (List.mem_of_getElem? foundA) with ⟨first, stoodA, lastA⟩
    rcases inv.receiverInv.complete b (List.mem_of_getElem? foundB) with ⟨second, stoodB, lastB⟩
    rw [callOf_eq s i a first foundA stoodA.1, callOf_eq s j b second foundB stoodB.1]
    have increasing : a.key = b.key → a.nonce < b.nonce := by
      rcases List.getElem?_eq_some_iff.mp foundA with ⟨withinA, rfl⟩
      rcases List.getElem?_eq_some_iff.mp foundB with ⟨withinB, rfl⟩
      exact List.pairwise_iff_getElem.mp inv.receiverInv.increasing i j withinA withinB before
    -- Two last fragments of one call would stand at one position.
    have inOrder : a.key = b.key → first.call < second.call := by
      intro sameKey
      have presentA := stoodA.1
      rw [sameKey] at presentA
      rcases sent.ordered b.key a.nonce b.nonce first second (increasing sameKey) presentA stoodB.1
        with less | ⟨sameCall, less⟩
      · exact less
      · have samePayload : a.payload = b.payload := by
          have calledA := stoodA.2
          rw [sameCall, stoodB.2] at calledA
          exact (Option.some.inj calledA).symm
        rw [samePayload] at lastA
        omega
    refine ⟨?_, inOrder⟩
    intro sameCall
    have sameKey := sent.oneKey a.key b.key a.nonce b.nonce first second stoodA.1 stoodB.1 sameCall
    have less := inOrder sameKey
    omega

def freshPeer (isInitiator : Bool) (remote : Key) : Peer :=
  newPeer remote ⟨.tcp, remote⟩ (some 1) .tcp .p2p none (sessionOf isInitiator (.one [7]) remote) 0

def replayed : State :=
  let n := newNode .padded defaultConfig (newIdentity .padded [1])
  Run.run (step IdealAead.tagged.encrypt) (start (freshPeer true [2]) (freshPeer false [1]))
    [.call [2, 5], .fragment n (.tcp 1) (fun _ => true),
      .decrypt ([1, 2, 5] ++ littleEndian 16 0), .dispatch n,
      .decrypt ([1, 2, 5] ++ littleEndian 16 0), .dispatch n]

theorem replay_delivered_once :
    replayed.delivered.map Delivery.payload = [[2, 5]] ∧
    ∃ call : Nat → Nat, ∀ (i : Nat) d, replayed.delivered[i]? = some d →
      replayed.calls[call i]? = some d.payload := by
  refine ⟨by rfl, ?_⟩
  rcases delivered_whole_once_in_order IdealAead.tagged.encrypt (freshPeer true [2])
    (freshPeer false [1]) _ (by intro cipher found; cases found; rfl)
    (by intro cipher found; cases found; rfl) with ⟨call, whole, _⟩
  exact ⟨call, fun i d found => (whole i d found).1⟩

end Tenet.Splicing
