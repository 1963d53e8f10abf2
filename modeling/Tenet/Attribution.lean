import Tenet.Activity

/-! Whom the data of a callback comes from. A record is stored under the hash of the static key that
its session was made with, so whatever opens under that session was encrypted by the holder of such a
key, from wherever the packet came. -/

namespace Tenet.Attribution

open Lib Lib.Run

/-- The static key of the side that encrypts under a key of a finished handshake. -/
def sender (key : CipherKey) : Key :=
  match key.transcript with
  | .three (.two _ _ _ responder) initiator => if key.fromInitiator then initiator else responder
  | _ => []

def receiver (key : CipherKey) : Key :=
  match key.transcript with
  | .three (.two _ _ _ responder) initiator => if key.fromInitiator then responder else initiator
  | _ => []

structure State where
  node : Node
  used : List CipherKey
  received : List (Bytes × Bytes)

def sendingKey (n : Node) : Activity → List CipherKey
  | .sendAppFrame peerID _ _ _ _ =>
      (((n.peers.get peerID).bind Peer.session).bind Session.sendCipher).toList.map (·.key)
  | _ => []

def step (env : Env) (aead : Aead) (s : State) (activity : Activity) : State where
  node := (s.node.perform env aead activity).1
  used := s.used ++ sendingKey s.node activity
  received := s.received ++ deliveries (s.node.perform env aead activity).2

def initial (env : Env) (cfg : Config) (identity : Identity) (kcpStarted : Bool) : State :=
  ⟨startedNode env cfg identity kcpStarted, [], []⟩

/-- Ideal encryption, where `encrypted holder key nonce plaintext` is what the holders of static keys
do. The keys of a handshake are known to its two sides, and what opens under one of them was
encrypted by a side; this node encrypts only where it sends. -/
structure Ideal (aead : Aead) (own : Key) (encrypted : Key → CipherKey → Nat → Bytes → Prop)
    (used : List CipherKey) : Prop where
  opens : ∀ key nonce ciphertext plaintext, aead.decrypt key nonce ciphertext = some plaintext →
    encrypted (sender key) key nonce plaintext ∨ encrypted (receiver key) key nonce plaintext
  own : ∀ key nonce plaintext, encrypted own key nonce plaintext → key ∈ used

section

variable (env : Env) (encrypted : Key → CipherKey → Nat → Bytes → Prop)

/-- The holder of a static key that hashes to the ID encrypted a fragment with this body. -/
def Sealed (peerID body : Bytes) : Prop :=
  ∃ holder key nonce kind, encrypted holder key nonce (frameType kind :: body) ∧
    peerIDOf env holder = peerID

structure Attributed (s : State) : Prop where
  stored : ∀ id p session, s.node.peers.get id = some p → p.session = some session →
    ∃ remote, session.remoteStaticKey = some remote ∧ id = peerIDOf env remote
  received : ∀ call ∈ s.received, ∃ channelHash : Bytes, channelHash.length = 32 ∧
    Fragment.Joined (Sealed env encrypted call.1)
      (appFrameTypeUserWithChannel :: (channelHash ++ call.2))

end

/-- A handshake of the holder of this key, in the role its stage belongs to. -/
def Coherent (own : Key) (hs : HandshakeState) : Prop :=
  hs.staticKey = own ∧
    match hs.stage with
    | .awaitOne => hs.isInitiator = false
    | .awaitTwo _ => hs.isInitiator = true
    | .awaitThree sent => hs.isInitiator = false ∧
        ∃ answered prologue ephemeral, sent = .two answered prologue ephemeral own

/-- The keys of a session between this node and the holder of a key that hashes to the ID. -/
def KeyedFor (env : Env) (own : Key) (id : Bytes)
    (keys : Option CipherKey × Option CipherKey × Option Key) : Prop :=
  ∃ sending receiving remote, keys = (some sending, some receiving, some remote) ∧
    id = peerIDOf env remote ∧ sender sending = own ∧ sender receiving = remote ∧
    receiver receiving = own

theorem coherent_initiate (n : Node) (ephemeral : Key) (now : Int) :
    Coherent n.identity.noisePublicKey (n.initiate ephemeral now) :=
  ⟨rfl, rfl⟩

theorem coherent_processMessage {own : Key} {hs after : HandshakeState} {message : Message}
    {response : Option Message} {session : Option Session} (coherent : Coherent own hs)
    (processed : hs.processMessage message = some (after, response, session)) :
    Coherent own after ∧ ∀ env established, session = some established →
      KeyedFor env own (peerIDOf env established.remotePublicKey) established.keys := by
  obtain ⟨static, role⟩ := coherent
  unfold HandshakeState.processMessage at processed
  split at processed
  · cases processed
  · split at processed
    · next stage =>
        cases processed
        simp only [stage] at role
        exact ⟨⟨static, role, _, _, _, congrArg _ static⟩, nofun⟩
    · next sent answered prologue ephemeral remote stage =>
        simp only [stage] at role
        split at processed
        · cases processed
          refine ⟨⟨static, by simp only [stage]; exact role⟩, ?_⟩
          intro env established same
          cases same
          rw [role, static]
          exact ⟨_, _, remote, rfl, rfl, rfl, rfl, rfl⟩
        · cases processed
    · next sent answered remote stage =>
        have waiting := role
        simp only [stage] at waiting
        obtain ⟨responder, first, prologue, ephemeral, sentBy⟩ := waiting
        split at processed
        · next same =>
            cases processed
            refine ⟨⟨static, role⟩, ?_⟩
            intro env established finished
            cases finished
            rw [responder, same, sentBy]
            exact ⟨_, _, remote, rfl, rfl, rfl, rfl, rfl⟩
        · cases processed
    · cases processed

/-- The node has its key, its handshakes are its own, and every session is keyed for the ID that it
is stored under. -/
structure Keyed (env : Env) (own : Key) (s : State) : Prop where
  identity : s.node.identity.noisePublicKey = own
  pending : ∀ stateKey hs, s.node.pendingHandshakes.get stateKey = some hs → Coherent own hs
  stored : ∀ id p keys, s.node.peers.get id = some p → p.keys = some keys →
    KeyedFor env own id keys
  used : ∀ key ∈ s.used, sender key = own

section Invariant

variable {env : Env} {aead : Aead} {own : Key}

theorem keyed_initial (cfg : Config) (identity : Identity) (kcpStarted : Bool) :
    Keyed env identity.noisePublicKey (initial env cfg identity kcpStarted) where
  identity := rfl
  pending := by
    intro stateKey hs found
    change (∅ : GoMap (Transport × Bytes) HandshakeState).get stateKey = some hs at found
    rw [GoMap.get_empty] at found
    cases found
  stored := by
    intro id p keys found
    rw [initial, startedNode_peers] at found
    cases found
  used := nofun

theorem coherent_pendingHandshake {s : State} (keyed : Keyed env own s)
    (stateKey : Transport × Bytes) (ephemeral : Key) (now : Int) :
    Coherent own (s.node.pendingHandshake stateKey ephemeral now) := by
  cases pending : s.node.pendingHandshakes.get stateKey with
  | none =>
      simp only [Node.pendingHandshake, pending, Option.getD_none]
      exact ⟨keyed.identity, rfl⟩
  | some hs =>
      simp only [Node.pendingHandshake, pending, Option.getD_some]
      exact keyed.pending stateKey hs pending

theorem coherent_pendingFrom {s : State} (keyed : Keyed env own s) (stateKey : Transport × Bytes)
    (hs : HandshakeState) (made : PendingFrom s.node stateKey hs) : Coherent own hs := by
  rcases made with
    same | ⟨ephemeral, now, rfl⟩ |
      ⟨ephemeral, now, rfl | ⟨payload, response, session, processed⟩⟩
  · exact keyed.pending stateKey hs same
  · rw [← keyed.identity]
    exact coherent_initiate s.node ephemeral now
  · exact coherent_pendingHandshake keyed stateKey ephemeral now
  · exact (coherent_processMessage (coherent_pendingHandshake keyed stateKey ephemeral now)
      processed).1

theorem keyedFor_kept {s : State} (keyed : Keyed env own s) {id : Bytes} {q : Peer}
    {keys : Option CipherKey × Option CipherKey × Option Key}
    (followed : ∃ p, s.node.peers.get id = some p ∧ Follows p q) (has : q.keys = some keys) :
    KeyedFor env own id keys := by
  obtain ⟨p, before, follows⟩ := followed
  rw [follows.keys] at has
  exact keyed.stored id p keys before has

theorem keyed_step (s : State) (activity : Activity) (keyed : Keyed env own s) :
    Keyed env own (step env aead s activity) := by
  obtain ⟨identity, pending⟩ := perform_pending env aead s.node activity
  have stored (id : Bytes) (q : Peer) (keys : Option CipherKey × Option CipherKey × Option Key)
      (found : (s.node.perform env aead activity).1.peers.get id = some q)
      (has : q.keys = some keys) : KeyedFor env own id keys := by
    rcases perform_cases env aead s.node activity with
      ⟨kept, _⟩ | ⟨stateKey, ephemeral, now, payload, hs, response, session, finished, rekeyed, _⟩ |
        ⟨peerID, p, session, cipher, payload, frame, opened⟩
    · exact keyedFor_kept keyed (kept id q found) has
    · rcases rekeyed id q found with followed | ⟨rfl, replaced, _⟩
      · exact keyedFor_kept keyed followed has
      · rw [Peer.keys, replaced, Option.map_some] at has
        rw [← Option.some.inj has]
        exact (coherent_processMessage (coherent_pendingHandshake keyed stateKey ephemeral now)
          finished).2 env session rfl
    · obtain ⟨r, peers, named, sameKeys, _⟩ := opened.record
      rw [peers, PeerStore.get_add] at found
      split at found
      · next same =>
          cases found
          rw [sameKeys] at has
          rw [same, named, s.node.peers.get_id peerID p opened.stored]
          exact keyed.stored peerID p keys opened.stored has
      · exact keyed.stored id q keys found has
  refine ⟨identity ▸ keyed.identity, ?_, stored, ?_⟩
  · intro stateKey hs found
    exact coherent_pendingFrom keyed stateKey hs (pending stateKey hs found)
  · intro key member
    rcases List.mem_append.mp member with earlier | sending
    · exact keyed.used key earlier
    · cases activity with
      | sendAppFrame peerID appFrameType data dial accepts =>
          obtain ⟨cipher, used, rfl⟩ := List.mem_map.mp sending
          obtain ⟨session, live, keyedWith⟩ := Option.bind_eq_some_iff.mp (Option.mem_toList.mp used)
          obtain ⟨p, found, has⟩ := Option.bind_eq_some_iff.mp live
          obtain ⟨sendingKey, receiving, remote, keys, _, ownKey, _⟩ :=
            keyed.stored peerID p session.keys found (by rw [Peer.keys, has, Option.map_some])
          have same := congrArg Prod.fst keys
          rw [Session.keys, keyedWith] at same
          cases same
          exact ownKey
      | _ => cases sending

theorem keyed_run (cfg : Config) (identity : Identity) (kcpStarted : Bool)
    (activities : List Activity) :
    Keyed env identity.noisePublicKey
      (run (step env aead) (initial env cfg identity kcpStarted) activities) :=
  run_invariant _ activities (keyed_initial cfg identity kcpStarted)
    fun s activity keyed => keyed_step s activity keyed

/-- A partial message, and the data of every callback, is made of fragments that a holder of the
right key encrypted. -/
structure Traced (env : Env) (encrypted : Key → CipherKey → Nat → Bytes → Prop) (s : State) :
    Prop where
  buffered : ∀ id p whole, s.node.peers.get id = some p → p.reassemblyBuffer = some whole →
    Fragment.Joined (Sealed env encrypted id) whole
  received : ∀ call ∈ s.received, ∃ channelHash : Bytes, channelHash.length = 32 ∧
    Fragment.Joined (Sealed env encrypted call.1)
      (appFrameTypeUserWithChannel :: (channelHash ++ call.2))

variable {encrypted : Key → CipherKey → Nat → Bytes → Prop}

theorem callbacks_user {n : Node} {peerID whole : Bytes} {call : Bytes × Bytes}
    (called : call ∈ deliveries (n.callbacks peerID whole)) :
    call.1 = peerID ∧ ∃ channelHash : Bytes, channelHash.length = 32 ∧
      whole = appFrameTypeUserWithChannel :: (channelHash ++ call.2) := by
  cases whole with
  | nil => cases called
  | cons appFrameType payload =>
      simp only [Node.callbacks] at called
      split at called
      · next user =>
          obtain ⟨rfl, long, _⟩ := user
          obtain rfl : call = (peerID, payload.drop 32) := List.mem_singleton.mp called
          refine ⟨rfl, payload.take 32, ?_, ?_⟩
          · rw [List.length_take]
            omega
          · rw [List.take_append_drop]
      · cases called

/-- What opens at a record was encrypted by the holder of a key that hashes to its ID: the other side
of the session, or this node itself where it is connected to itself. -/
theorem sealed_of_opened {s : State} (keyed : Keyed env own s) {used : List CipherKey}
    (ownKeys : ∀ key ∈ used, sender key = own) (ideal : Ideal aead own encrypted used)
    {after : Node} {effects : List Effect} {peerID : Bytes} {p : Peer} {session : Session}
    {cipher : CipherState} {payload : Bytes} {frame : Fragment.Frame UInt8}
    (opened : Opened aead s.node after effects peerID p session cipher payload frame) :
    Sealed env encrypted peerID frame.body := by
  obtain ⟨sending, receiving, remote, keys, named, _, sentBy, receivedBy⟩ :=
    keyed.stored peerID p session.keys opened.stored
      (by rw [Peer.keys, opened.live, Option.map_some])
  have same := congrArg (fun keys => keys.2.1) keys
  simp only [Session.keys, opened.keyed, Option.map_some, Option.some.injEq] at same
  rw [← same] at sentBy receivedBy
  rcases ideal.opens cipher.key cipher.n payload _ opened.opens with bySender | byReceiver
  · rw [sentBy] at bySender
    exact ⟨remote, cipher.key, cipher.n, frame.kind, bySender, named.symm⟩
  · rw [receivedBy] at byReceiver
    have self : remote = own := by
      rw [← sentBy]
      exact ownKeys cipher.key (ideal.own cipher.key cipher.n _ byReceiver)
    rw [← self] at byReceiver
    exact ⟨remote, cipher.key, cipher.n, frame.kind, byReceiver, named.symm⟩

theorem traced_step (s : State) (activity : Activity) (keyed : Keyed env own s)
    {used : List CipherKey} (ownKeys : ∀ key ∈ used, sender key = own)
    (ideal : Ideal aead own encrypted used) (traced : Traced env encrypted s) :
    Traced env encrypted (step env aead s activity) := by
  have followed {id : Bytes} {q : Peer} {whole : Bytes}
      (earlier : ∃ p, s.node.peers.get id = some p ∧ q.reassemblyBuffer = p.reassemblyBuffer)
      (buffer : q.reassemblyBuffer = some whole) :
      Fragment.Joined (Sealed env encrypted id) whole := by
    obtain ⟨p, stored, same⟩ := earlier
    exact traced.buffered id p whole stored (same.symm.trans buffer)
  rcases perform_cases env aead s.node activity with
    ⟨kept, silent⟩ | ⟨stateKey, ephemeral, now, payload, hs, response, session, _, rekeyed, silent⟩ |
      ⟨peerID, p, session, cipher, payload, frame, opened⟩
  · refine ⟨?_, ?_⟩
    · intro id q whole found buffer
      obtain ⟨p, stored, follows⟩ := kept id q found
      exact followed ⟨p, stored, follows.buffer⟩ buffer
    · simp only [step, silent, List.append_nil]
      exact traced.received
  · refine ⟨?_, ?_⟩
    · intro id q whole found buffer
      rcases rekeyed id q found with ⟨p, stored, follows⟩ | ⟨_, _, empty | earlier⟩
      · exact followed ⟨p, stored, follows.buffer⟩ buffer
      · rw [empty] at buffer
        cases buffer
      · exact followed earlier buffer
    · simp only [step, silent, List.append_nil]
      exact traced.received
  · have body := sealed_of_opened keyed ownKeys ideal opened
    obtain ⟨kept, yielded⟩ := Fragment.step_joined maxReassemblySize p.reassemblyBuffer frame
      (fun whole => traced.buffered peerID p whole opened.stored) body
    refine ⟨?_, ?_⟩
    · intro id q whole found buffer
      obtain ⟨r, peers, named, _, moved⟩ := opened.record
      simp only [step, peers, PeerStore.get_add] at found
      split at found
      · next same =>
          cases found
          rw [same, named, s.node.peers.get_id peerID p opened.stored]
          exact kept whole (moved ▸ buffer)
      · exact traced.buffered id q whole found buffer
    · intro call member
      rcases List.mem_append.mp member with earlier | now
      · exact traced.received call earlier
      · rw [opened.calls] at now
        cases output : (Fragment.step maxReassemblySize p.reassemblyBuffer frame).2 with
        | none =>
            rw [output] at now
            cases now
        | some whole =>
            rw [output, Option.toList_some, List.flatMap_singleton] at now
            obtain ⟨named, channelHash, length, same⟩ := callbacks_user now
            rw [named]
            exact ⟨channelHash, length, same ▸ yielded whole output⟩

end Invariant

/-- In every state of every run the records are stored under the hash of the key that their session
was made with, and every callback names the peer that encrypted its data. -/
theorem callbacks_attributed (env : Env) (aead : Aead)
    (encrypted : Key → CipherKey → Nat → Bytes → Prop) (cfg : Config) (identity : Identity)
    (kcpStarted : Bool) (activities : List Activity)
    (ideal : Ideal aead identity.noisePublicKey encrypted
      (run (step env aead) (initial env cfg identity kcpStarted) activities).used) :
    Throughout (step env aead) (Attributed env encrypted) (initial env cfg identity kcpStarted)
      activities := by
  have reached : Keyed env identity.noisePublicKey
      (run (step env aead) (initial env cfg identity kcpStarted) activities) :=
    keyed_run cfg identity kcpStarted activities
  have start : Keyed env identity.noisePublicKey (initial env cfg identity kcpStarted) ∧
      Traced env encrypted (initial env cfg identity kcpStarted) := by
    refine ⟨keyed_initial cfg identity kcpStarted, ?_, nofun⟩
    intro id p whole found
    rw [initial, startedNode_peers] at found
    cases found
  have always : Throughout (step env aead) (fun s => Keyed env identity.noisePublicKey s ∧
      Traced env encrypted s) (initial env cfg identity kcpStarted) activities :=
    throughout_invariant _ activities start fun s activity both =>
      ⟨keyed_step s activity both.1, traced_step s activity both.1 reached.used ideal both.2⟩
  apply throughout_mono _ activities always
  intro s both
  refine ⟨?_, both.2.received⟩
  intro id p session found live
  obtain ⟨_, _, remote, keys, named, _⟩ :=
    both.1.stored id p session.keys found (by rw [Peer.keys, live, Option.map_some])
  exact ⟨remote, congrArg (fun keys => keys.2.2) keys, named⟩

namespace Example

def second : Message := .two (.one [1]) (prologuePrefix ++ [1]) [3] [8]

def key : CipherKey := ⟨.three second [7], true⟩

def plaintext : Bytes :=
  frameTypeSingle :: appFrameTypeUserWithChannel :: (hashChannelName .padded [0x61] ++ [0x68, 0x69])

def aead : Aead where
  encrypt _ _ plaintext := plaintext
  decrypt under nonce ciphertext :=
    if under = key ∧ nonce = 0 ∧ ciphertext = [1] then some plaintext else none

def encrypted (holder : Key) (under : CipherKey) (nonce : Nat) (text : Bytes) : Prop :=
  holder = [7] ∧ under = key ∧ nonce = 0 ∧ text = plaintext

theorem ideal (used : List CipherKey) : Ideal aead [8] encrypted used where
  opens := by
    intro under nonce ciphertext text opened
    simp only [aead] at opened
    split at opened
    · next same =>
        obtain ⟨rfl, rfl, _⟩ := same
        exact Or.inl ⟨rfl, rfl, rfl, (Option.some.inj opened).symm⟩
    · cases opened
  own := by
    intro under nonce text impossible
    exact absurd impossible.1 (by decide)

def activities : List Activity :=
  [.onReceive, .joinChannel [0x61], .handshake none ⟨.udp, [20]⟩ .udp (.one [1]) [3] 0,
    .handshake none ⟨.udp, [20]⟩ .udp (.three second [7]) [3] 0,
    .upgradePeer (peerIDOf .padded [7]) [30] (some 5),
    .sendAppFrame (peerIDOf .padded [7]) appFrameTypeUserWithChannel [1] none fun _ => true,
    .data [30] [1]]

def start : State :=
  initial .padded { defaultConfig with networkPassword := [1] } (newIdentity .padded [8]) true

theorem callbacks_attributed_readdressed :
    Throughout (step .padded aead) (Attributed .padded encrypted) start activities ∧
      (run (step .padded aead) start activities).received =
        [(peerIDOf .padded [7], [0x68, 0x69])] :=
  ⟨callbacks_attributed .padded aead encrypted _ (newIdentity .padded [8]) true activities
    (ideal _), by decide +kernel⟩

end Example

end Tenet.Attribution
