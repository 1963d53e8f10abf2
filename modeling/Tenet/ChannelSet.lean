import Tenet.Channels
import Tenet.Lib.HashIndex

/-! The channels of a node as a list of names in `Config.Channels` and as the set of their hashes. -/

namespace Tenet

open Lib

/-- An option of `NewNode`. None of `node/config.go` but `WithChannelID` touches the channels. -/
inductive ConfigOption where
  | withChannelID (channelName : Bytes)
  | other (change : Config → Config) (keeps : ∀ cfg, (change cfg).channels = cfg.channels)

def ConfigOption.apply (cfg : Config) : ConfigOption → Config
  | .withChannelID channelName =>
      if cfg.channels.contains channelName then cfg
      else { cfg with channels := cfg.channels ++ [channelName] }
  | .other change _ => change cfg

/-- `NewNode`, which refuses a configuration that does not pass `Validate`. -/
def newNodeWith (env : Env) (opts : List ConfigOption) (identity : Identity) : Option Node :=
  let cfg := opts.foldl ConfigOption.apply defaultConfig
  if cfg.validate then some (newNode env cfg identity) else none

inductive ChannelCall where
  | joinChannel (name : Bytes)
  | leaveChannel (name : Bytes)
  deriving DecidableEq, Repr

def ChannelCall.name : ChannelCall → Bytes
  | .joinChannel name => name
  | .leaveChannel name => name

def Node.channelCall (env : Env) (n : Node) : ChannelCall → Node
  | .joinChannel name => (n.joinChannel env name).1
  | .leaveChannel name => (n.leaveChannel env name).1

/-- The check that the set replaced. -/
def linearChannelSubscribed (env : Env) (channels : List Bytes) (channelHash : Bytes) : Bool :=
  HashIndex.scan (hashChannelName env) channels channelHash

/-- The updates that `syncChannelsWithPeer` sends when nothing else happens. -/
def Node.syncChannelsWithPeer (n : Node) (peerID : Bytes) : List ChannelUpdate :=
  (Run.run Party.resume ⟨n, peerID, [.syncChannels], []⟩
    (List.replicate (n.config.channels.length + 1) 0)).inFlight

/-- The set of hashes goes with the list of names, and these are among the names used. -/
structure Tracked (env : Env) (used : Set Bytes) (channels : List Bytes) (set : Finset Bytes) : Prop where
  index : HashIndex.Indexes (hashChannelName env) channels set
  named : ∀ name ∈ channels, name ∈ used

section Operations

variable {env : Env} {used : Set Bytes} {channels : List Bytes} {set : Finset Bytes}

theorem Tracked.append (tracked : Tracked env used channels set) {name : Bytes}
    (fresh : name ∉ channels) (known : name ∈ used) :
    Tracked env used (channels ++ [name]) (insert (hashChannelName env name) set) := by
  refine ⟨tracked.index.append fresh, ?_⟩
  intro listed member
  rcases List.mem_append.mp member with before | new
  · exact tracked.named listed before
  · rw [List.mem_singleton.mp new]
    exact known

theorem Tracked.rebuilt (tracked : Tracked env used channels set) :
    Tracked env used channels (channels.map (hashChannelName env)).toFinset :=
  ⟨HashIndex.indexes_toFinset tracked.index.nodup, tracked.named⟩

theorem tracked_apply {cfg : Config} (opt : ConfigOption)
    (tracked : Tracked env used cfg.channels (cfg.channels.map (hashChannelName env)).toFinset)
    (known : ∀ name, opt = .withChannelID name → name ∈ used) :
    Tracked env used (opt.apply cfg).channels
      ((opt.apply cfg).channels.map (hashChannelName env)).toFinset := by
  cases opt with
  | withChannelID channelName =>
      simp only [ConfigOption.apply]
      split
      · exact tracked
      · next fresh =>
          rw [List.contains_iff_mem] at fresh
          exact (tracked.append fresh (known channelName rfl)).rebuilt
  | other change keeps =>
      rw [ConfigOption.apply, keeps cfg]
      exact tracked

theorem tracked_options (opts : List ConfigOption)
    (known : ∀ name, .withChannelID name ∈ opts → name ∈ used) :
    Tracked env used (Run.run ConfigOption.apply defaultConfig opts).channels
      ((Run.run ConfigOption.apply defaultConfig opts).channels.map (hashChannelName env)).toFinset := by
  apply Run.run_keeps (P := fun _ opt => opt ∈ opts) (Q := fun cfg : Config =>
    Tracked env used cfg.channels (cfg.channels.map (hashChannelName env)).toFinset)
  · exact ⟨HashIndex.indexes_toFinset List.nodup_nil, nofun⟩
  · exact Run.along_of_forall defaultConfig opts fun opt member _ => member
  · intro cfg opt tracked member
    apply tracked_apply opt tracked
    rintro name rfl
    exact known name member

theorem tracked_newNodeWith (opts : List ConfigOption) (identity : Identity) (n : Node)
    (built : newNodeWith env opts identity = some n)
    (known : ∀ name, .withChannelID name ∈ opts → name ∈ used) :
    Tracked env used n.config.channels n.localChannelSet := by
  simp only [newNodeWith] at built
  split at built
  · cases built
    exact tracked_options opts known
  · cases built

variable (injective : Set.InjOn (hashChannelName env) used)

include injective

theorem Tracked.apart (tracked : Tracked env used channels set) (name : Bytes) (known : name ∈ used) :
    ∀ other ∈ channels, hashChannelName env other = hashChannelName env name → other = name :=
  fun other member same => injective (tracked.named other member) known same

theorem tracked_channelCall {n : Node} (call : ChannelCall) (known : call.name ∈ used)
    (tracked : Tracked env used n.config.channels n.localChannelSet) :
    Tracked env used (n.channelCall env call).config.channels
      (n.channelCall env call).localChannelSet := by
  cases call with
  | joinChannel name =>
      simp only [Node.channelCall, Node.joinChannel]
      split
      · exact tracked
      · next fresh => exact tracked.append fresh known
  | leaveChannel name =>
      simp only [Node.channelCall, Node.leaveChannel]
      split
      · have apart := tracked.apart injective name known
        exact ⟨tracked.index.erase apart,
          fun listed member => tracked.named listed (List.mem_of_mem_erase member)⟩
      · exact tracked

end Operations

section Checks

variable (env : Env) (n : Node)

theorem isChannelSubscribed_scan (index : HashIndex.Indexes (hashChannelName env) n.config.channels
    n.localChannelSet) (channelHash : Bytes) (whole : channelHash.length = 32) :
    n.isChannelSubscribed channelHash = linearChannelSubscribed env n.config.channels channelHash := by
  rw [linearChannelSubscribed, ← index.scan, Node.isChannelSubscribed, decide_eq_true whole,
    Bool.true_and]

theorem writePacket_subscribed (path : SendPath) (accepted : Bool) (packet name : Bytes) :
    n.writePacket path accepted packet ≠ .error (.notSubscribed name) := by
  unfold Node.writePacket
  split
  · split <;> nofun
  · split
    · nofun
    · split <;> nofun

theorem sendFrame_subscribed (aead : Aead) (path : SendPath) (accepts : Nat → Bool) (s : Sending)
    (frameType : UInt8) (fragmentData name : Bytes) :
    (sendFrame aead n path accepts s frameType fragmentData).2 ≠ some (.notSubscribed name) := by
  unfold sendFrame
  split
  · nofun
  · split
    · next err refused =>
        intro same
        cases Option.some.inj same
        exact writePacket_subscribed n path _ _ name refused
    · nofun

theorem sendFrames_subscribed (aead : Aead) (path : SendPath) (accepts : Nat → Bool)
    (frames : List (Fragment.Frame UInt8)) (s : Sending) (name : Bytes) :
    (sendFrames aead n path accepts frames s).2 ≠ some (.notSubscribed name) := by
  induction frames generalizing s with
  | nil => nofun
  | cons frame frames ih =>
      have first := sendFrame_subscribed n aead path accepts s (frameType frame.kind) frame.body name
      rw [sendFrames]
      rcases result : sendFrame aead n path accepts s (frameType frame.kind) frame.body with
        ⟨sent, _ | err⟩
      · exact ih sent
      · rw [result] at first
        exact first

theorem sendPath_subscribed (p : Peer) (dial : Option UInt32) (name : Bytes) :
    (n.sendPath p dial).2 ≠ .error (.notSubscribed name) := by
  unfold Node.sendPath
  split
  · nofun
  · repeat' split
    all_goals nofun

theorem sendAppFrame_subscribed (aead : Aead) (peerID : Bytes) (appFrameType : UInt8) (data : Bytes)
    (dial : Option UInt32) (accepts : Nat → Bool) (name : Bytes) :
    (n.sendAppFrame aead peerID appFrameType data dial accepts).2.2 ≠ some (.notSubscribed name) := by
  unfold Node.sendAppFrame
  split
  · nofun
  · split
    · nofun
    · next p found =>
        split
        · nofun
        · have path := sendPath_subscribed n p dial name
          split
          · next after err chosen =>
              rw [chosen] at path
              intro same
              cases Option.some.inj same
              exact path rfl
          · next opened path chosen =>
              simp only [sendPayload_eq_sendFrames]
              exact sendFrames_subscribed opened aead path accepts _ _ name

theorem send_refused_iff (aead : Aead) (channelName peerID data : Bytes) (dial : Option UInt32)
    (accepts : Nat → Bool) :
    (n.send env aead channelName peerID data dial accepts).2.2 = some (.notSubscribed channelName) ↔
      n.isChannelSubscribed (hashChannelName env channelName) = false := by
  rw [Node.send]
  cases subscribed : n.isChannelSubscribed (hashChannelName env channelName) with
  | true => exact iff_of_false (sendAppFrame_subscribed n aead _ _ _ _ _ _) nofun
  | false => exact iff_of_true rfl rfl

theorem resume_sends (peerID : Bytes) (updates sent : List ChannelUpdate) :
    (Run.run Party.resume ⟨n, peerID, [.sendUpdates updates], sent⟩
      (List.replicate updates.length 0)).inFlight = sent ++ updates := by
  induction updates generalizing sent with
  | nil => exact (List.append_nil sent).symm
  | cons update updates ih =>
      rw [List.length_cons, List.replicate_succ, Run.run_cons]
      exact (ih (sent ++ [update])).trans (List.append_assoc sent [update] updates)

theorem syncChannelsWithPeer_eq (peerID : Bytes) :
    n.syncChannelsWithPeer peerID = n.config.channels.map fun name => ⟨.join, name⟩ := by
  have sends := resume_sends n peerID (n.config.channels.map fun name => ⟨.join, name⟩) []
  rw [List.length_map, List.nil_append] at sends
  rw [Node.syncChannelsWithPeer, List.replicate_succ, Run.run_cons]
  exact sends

end Checks

/-- For every node that `NewNode` builds and every sequence of joins and leaves: no channel is listed
twice, the check on the set is the scan of the list, `Send` takes exactly the listed channels, and the
hashes announced to a new peer, each once, are those for which data is accepted. -/
theorem subscription_refines_scan (env : Env) (used : Set Bytes)
    (injective : Set.InjOn (hashChannelName env) used) (opts : List ConfigOption) (identity : Identity)
    (start : Node) (built : newNodeWith env opts identity = some start)
    (configured : ∀ name, .withChannelID name ∈ opts → name ∈ used) (calls : List ChannelCall)
    (named : ∀ call ∈ calls, call.name ∈ used) :
    let n := Run.run (Node.channelCall env) start calls
    n.config.channels.Nodup ∧
      (∀ channelHash : Bytes, channelHash.length = 32 →
        n.isChannelSubscribed channelHash =
          linearChannelSubscribed env n.config.channels channelHash) ∧
      (∀ channelName ∈ used, ∀ aead peerID data dial accepts,
        (n.send env aead channelName peerID data dial accepts).2.2 ≠
          some (.notSubscribed channelName) ↔ channelName ∈ n.config.channels) ∧
      ∀ peerID, ((n.syncChannelsWithPeer peerID).map (ChannelUpdate.hash env)).Nodup ∧
        (∀ update ∈ n.syncChannelsWithPeer peerID, update.opcode = .join) ∧
        ∀ channelHash, channelHash ∈ (n.syncChannelsWithPeer peerID).map (ChannelUpdate.hash env) ↔
          n.isChannelSubscribed channelHash = true := by
  intro n
  have tracked : Tracked env used n.config.channels n.localChannelSet := by
    apply Run.run_keeps (P := fun _ call => call ∈ calls)
      (Q := fun n : Node => Tracked env used n.config.channels n.localChannelSet)
    · exact tracked_newNodeWith opts identity start built configured
    · exact Run.along_of_forall start calls fun call member _ => member
    · intro n call tracked member
      exact tracked_channelCall injective call (named call member) tracked
  have announced (peerID : Bytes) : (n.syncChannelsWithPeer peerID).map (ChannelUpdate.hash env) =
      n.config.channels.map (hashChannelName env) := by
    rw [syncChannelsWithPeer_eq, List.map_map]
    rfl
  have hashed (name : Bytes) : n.isChannelSubscribed (hashChannelName env name) =
      decide (hashChannelName env name ∈ n.localChannelSet) := by
    have whole : (hashChannelName env name).length = 32 := env.sha256_length name
    rw [Node.isChannelSubscribed, decide_eq_true whole, Bool.true_and]
  refine ⟨tracked.index.nodup, isChannelSubscribed_scan env n tracked.index, ?_, ?_⟩
  · intro channelName known aead peerID data dial accepts
    rw [Ne, send_refused_iff, Bool.not_eq_false, hashed, decide_eq_true_iff,
      tracked.index.mem_hash (tracked.apart injective channelName known)]
  · intro peerID
    rw [announced]
    refine ⟨?_, ?_, ?_⟩
    · apply tracked.index.nodup.map_on
      intro name member other otherMember same
      exact injective (tracked.named name member) (tracked.named other otherMember) same
    · rw [syncChannelsWithPeer_eq]
      intro update member
      rcases List.mem_map.mp member with ⟨name, _, rfl⟩
      rfl
    · intro channelHash
      rw [List.mem_map, ← tracked.index.mem, Node.isChannelSubscribed, Bool.and_eq_true,
        decide_eq_true_iff, decide_eq_true_iff]
      refine ⟨fun member => ⟨?_, member⟩, fun both => both.2⟩
      rcases (tracked.index.mem channelHash).mp member with ⟨name, _, rfl⟩
      exact env.sha256_length name

/-- The option is given twice; then a second channel is joined, the first is left, and the second is
joined again. -/
theorem subscription_refines_scan_two :
    let used : Set Bytes := { name | name ∈ [[0x61], [0x62]] }
    let opts : List ConfigOption :=
      [.other (fun cfg => { cfg with networkPassword := [1] }) fun _ => rfl, .withChannelID [0x61],
        .withChannelID [0x61]]
    let start := newNode .padded { defaultConfig with networkPassword := [1], channels := [[0x61]] }
      (newIdentity .padded [1])
    let n := Run.run (Node.channelCall .padded) start
      [.joinChannel [0x62], .leaveChannel [0x61], .joinChannel [0x62]]
    n.config.channels = [[0x62]] ∧
      (Set.InjOn (hashChannelName .padded) used ∧
        newNodeWith .padded opts (newIdentity .padded [1]) = some start) ∧
      n.isChannelSubscribed (hashChannelName .padded [0x62]) = true ∧
      n.isChannelSubscribed (hashChannelName .padded [0x61]) = false := by
  intro used opts start n
  have injective : Set.InjOn (hashChannelName .padded) used := by
    intro name member other otherMember
    have cases : ∀ name ∈ [[0x61], [0x62]], ∀ other ∈ [[0x61], [0x62]],
        hashChannelName .padded name = hashChannelName .padded other → name = other := by decide
    exact cases name member other otherMember
  have refined := (subscription_refines_scan .padded used injective opts (newIdentity .padded [1]) start
    rfl (by intro name; simp [opts, used]; tauto)
    [.joinChannel [0x62], .leaveChannel [0x61], .joinChannel [0x62]] (by decide)).2.1
  refine ⟨by decide, ⟨injective, rfl⟩, ?_, ?_⟩
  · exact (refined _ (by decide)).trans (by decide)
  · exact (refined _ (by decide)).trans (by decide)

end Tenet
