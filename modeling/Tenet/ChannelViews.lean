import Tenet.ChannelDirection

/-! When the channel views of two connected nodes agree. -/

namespace Tenet

open Lib

structure Link.Settling (env : Env) (link : Link) : Prop where
  ready : ∀ side, (link side).Ready env
  settling : ∀ side channelHash,
    (direction env (link side) (link side.other) channelHash).Settling

namespace Link

theorem update_same (link : Link) (side : Side) (party : Party) : link.update side party side = party := by
  unfold update
  exact Function.update_self ..

theorem update_other (link : Link) (side : Side) (party : Party) :
    link.update side party side.other = link side.other := by
  unfold update
  exact Function.update_of_ne (side.other_ne) ..

variable {env : Env} {link : Link}

theorem settling_update (settles : link.Settling env) (side : Side) (party : Party)
    (ready : party.Ready env)
    (sending : ∀ channelHash, (direction env party (link side.other) channelHash).Settling)
    (receiving : ∀ channelHash, (direction env (link side.other) party channelHash).Settling) :
    (link.update side party).Settling env := by
  constructor
  · intro each
    rcases Side.eq_or_eq_other side each with rfl | rfl
    · rw [update_same]
      exact ready
    · rw [update_other]
      exact settles.ready side.other
  · intro each channelHash
    rcases Side.eq_or_eq_other side each with rfl | rfl
    · rw [update_same, update_other]
      exact sending channelHash
    · rw [Side.other_other, update_same, update_other]
      exact receiving channelHash

theorem receiving_settles (settles : link.Settling env) (side : Side) (channelHash : Bytes) :
    (direction env (link side.other) (link side) channelHash).Settling := by
  have settling := settles.settling side.other channelHash
  rwa [Side.other_other] at settling

theorem settling_broadcast (settles : link.Settling env) (side : Side) (after : Node)
    (update : ChannelUpdate) (peers : after.peers = (link side).node.peers)
    (elsewhere : ∀ channelHash, update.hash env ≠ channelHash →
      (channelHash ∈ after.localChannelSet ↔ channelHash ∈ (link side).node.localChannelSet))
    (listed : ∀ channelHash, after.Listed env channelHash)
    (opcode : decide (update.opcode = .join) = decide (update.hash env ∈ after.localChannelSet))
    (receiving : Announcement.Settling
      { direction env (link side.other) (link side) (update.hash env) with
        listening := decide (update.opcode = .join) }) :
    (link.update side ((link side).broadcastChannelUpdate (after, some update))).Settling env := by
  have ready := settles.ready side
  apply settling_update settles
  · refine ⟨listed, ?_⟩
    change (after.peers.get (link side).peerID).isSome = true
    rw [peers]
    exact ready.known
  · intro channelHash
    by_cases about : update.hash env = channelHash
    · subst about
      exact Party.broadcast_settling peers ready.known _ opcode
    · rw [Party.broadcast_elsewhere peers ready.known _ about (elsewhere channelHash about)]
      exact settles.settling side channelHash
  · intro channelHash
    rw [Party.broadcast_receiving peers]
    by_cases about : update.hash env = channelHash
    · subst about
      rw [← opcode]
      exact receiving
    · have same : decide (channelHash ∈ after.localChannelSet) =
          (direction env (link side.other) (link side) channelHash).listening :=
        decide_eq_decide.mpr (elsewhere channelHash about)
      rw [same]
      exact receiving_settles settles side channelHash

theorem announcing_direction {sender : Party} {channelHash : Bytes}
    (announcing : sender.Announcing env channelHash) (receiver : Party) :
    (direction env sender receiver channelHash).unsent ≠ [] ∨
      (direction env sender receiver channelHash).sent ≠ [] := by
  rcases announcing with ⟨update, member, hashed⟩ | ⟨syncing, subscribed⟩
  · rcases List.mem_append.mp member with waiting | flying
    · left
      rcases List.mem_flatMap.mp waiting with ⟨task, listed, inside⟩
      apply List.ne_nil_of_mem (a := decide (update.opcode = .join))
      refine List.mem_flatMap.mpr ⟨task, listed, ?_⟩
      cases task with
      | syncChannels => cases inside
      | sendUpdates updates => exact (mem_announced _ _ _ _).mpr ⟨update, inside, hashed, rfl⟩
    · right
      exact List.ne_nil_of_mem ((mem_announced _ _ _ _).mpr ⟨update, flying, hashed, rfl⟩)
  · left
    apply List.ne_nil_of_mem (a := true)
    refine List.mem_flatMap.mpr ⟨.syncChannels, syncing, ?_⟩
    have said : Task.announced env sender.node channelHash .syncChannels = [true] :=
      if_pos subscribed
    rw [said]
    exact List.mem_cons_self

theorem settling_joinChannel (settles : link.Settling env) (side : Side) (name : Bytes)
    (allowed : Allows env link (.joinChannel side name)) :
    (link.step env (.joinChannel side name)).Settling env := by
  have ready := settles.ready side
  rw [step, Node.joinChannel]
  by_cases already : name ∈ (link side).node.config.channels
  · rw [if_pos already, Party.broadcast_nothing]
    exact settling_update settles side _ ready (settles.settling side) (receiving_settles settles side)
  · rw [if_neg already]
    have informed := allowed already
    apply settling_broadcast settles side _ ⟨.join, name⟩
    · rfl
    · intro channelHash about
      change channelHash ∈ insert (hashChannelName env name) _ ↔ _
      rw [Finset.mem_insert]
      exact or_iff_right (fun same => about same.symm)
    · intro channelHash
      have joined := listed_join (ready.listed channelHash) name
      rwa [Node.joinChannel, if_neg already] at joined
    · exact (decide_eq_true (Finset.mem_insert_self _ _)).symm
    · apply (receiving_settles settles side _).listen
      rcases informed with announcing | known
      · rcases announcing_direction announcing (link side) with waiting | flying
        · exact Or.inl waiting
        · exact Or.inr (Or.inl flying)
      · exact Or.inr (Or.inr known)

theorem settling_leaveChannel (settles : link.Settling env) (side : Side) (name : Bytes)
    (allowed : Allows env link (.leaveChannel side name)) :
    (link.step env (.leaveChannel side name)).Settling env := by
  have ready := settles.ready side
  rw [step, Node.leaveChannel]
  by_cases listed : name ∈ (link side).node.config.channels
  · rw [if_pos listed]
    have sole := allowed listed
    have left : hashChannelName env name ∉
        (link side).node.localChannelSet.erase (hashChannelName env name) :=
      Finset.notMem_erase _ _
    apply settling_broadcast settles side _ ⟨.leave, name⟩
    · rfl
    · intro channelHash about
      change channelHash ∈ Finset.erase _ (hashChannelName env name) ↔ _
      rw [Finset.mem_erase]
      exact and_iff_right (fun same => about same.symm)
    · intro channelHash
      have left := listed_leave (ready.listed channelHash) name (fun _ _ => sole)
      rwa [Node.leaveChannel, if_pos listed] at left
    · exact (decide_eq_false left).symm
    · exact (receiving_settles settles side _).mute
  · rw [if_neg listed, Party.broadcast_nothing]
    exact settling_update settles side _ ready (settles.settling side) (receiving_settles settles side)

theorem settling_resume (settles : link.Settling env) (side : Side) (index : Nat)
    (allowed : Allows env link (.resume side index)) :
    (link.step env (.resume side index)).Settling env := by
  have ready := settles.ready side
  obtain ⟨node, peerID⟩ := (link side).resume_frame index
  apply settling_update settles
  · constructor
    · rw [node]
      exact ready.listed
    · rw [node, peerID]
      exact ready.known
  · intro channelHash
    exact Party.resume_settling (ready.listed channelHash) _ index
      (fun update sends _ => allowed update sends) (settles.settling side channelHash)
  · intro channelHash
    have same : direction env (link side.other) ((link side).resume index) channelHash =
        direction env (link side.other) (link side) channelHash := by
      apply direction_congr env rfl rfl Iff.rfl
      · rw [node]
      · rw [node, peerID]
    rw [same]
    exact receiving_settles settles side channelHash

section

variable {sender receiver : Party} {first : ChannelUpdate} {rest : List ChannelUpdate}

theorem direction_received (known : (receiver.node.peers.get receiver.peerID).isSome = true)
    (channelHash : Bytes) :
    direction env { receiver with node := receiver.node.receiveUpdate env receiver.peerID first }
        { sender with inFlight := rest } channelHash =
      direction env receiver sender channelHash := by
  rcases Option.isSome_iff_exists.mp known with ⟨p, found⟩
  apply direction_congr env
  · rfl
  · rfl
  · rw [receiveUpdate_eq env receiver.node _ p first found]
  · exact Iff.rfl
  · rfl

theorem settling_delivered (known : (receiver.node.peers.get receiver.peerID).isSome = true)
    (queue : sender.inFlight = first :: rest) (channelHash : Bytes)
    (settling : (direction env sender receiver channelHash).Settling) :
    (direction env { sender with inFlight := rest }
      { receiver with node := receiver.node.receiveUpdate env receiver.peerID first }
      channelHash).Settling := by
  rcases Option.isSome_iff_exists.mp known with ⟨p, found⟩
  have frame := receiveUpdate_eq env receiver.node _ p first found
  have view := receiveUpdate_hasRemoteChannel env _ _ first known channelHash
  by_cases about : first.hash env = channelHash
  · have arrived : direction env { sender with inFlight := rest }
        { receiver with node := receiver.node.receiveUpdate env receiver.peerID first } channelHash =
        { direction env sender receiver channelHash with
          sent := announced env channelHash rest
          view :=
            if (direction env sender receiver channelHash).listening then
              decide (first.opcode = .join)
            else (direction env sender receiver channelHash).view } := by
      simp only [direction, view, about, true_and, decide_eq_true_eq]
      rw [frame]
    rw [arrived]
    apply settling.deliver
    change announced env channelHash sender.inFlight = _
    rw [queue, announced_cons, if_pos about]
  · have same : direction env { sender with inFlight := rest }
        { receiver with node := receiver.node.receiveUpdate env receiver.peerID first } channelHash =
        direction env sender receiver channelHash := by
      simp only [direction, view, about, false_and, if_false, queue, announced_cons]
      rw [frame]
    rw [same]
    exact settling

end

theorem settling_deliver (settles : link.Settling env) (sender : Side) :
    (link.step env (.deliver sender)).Settling env := by
  rw [step, deliver]
  cases queue : (link sender).inFlight with
  | nil => exact settles
  | cons first rest =>
      have ready := settles.ready sender.other
      rcases Option.isSome_iff_exists.mp ready.known with ⟨p, found⟩
      dsimp only
      constructor
      · intro each
        rcases Side.eq_or_eq_other sender.other each with rfl | rfl
        · rw [update_same]
          refine ⟨?_, ?_⟩
          · rw [receiveUpdate_eq env (link sender.other).node _ p first found]
            exact ready.listed
          · change ((Node.receiveUpdate env _ _ first).peers.get _).isSome = true
            rw [receiveUpdate_known env _ _ p first found]
            rfl
        · rw [update_other, Side.other_other, update_same]
          exact ⟨(settles.ready sender).listed, (settles.ready sender).known⟩
      · intro each channelHash
        rcases Side.eq_or_eq_other sender.other each with rfl | rfl
        · rw [update_same, update_other, Side.other_other, update_same,
            direction_received ready.known channelHash]
          exact receiving_settles settles sender channelHash
        · rw [update_other, Side.other_other, update_same, update_same]
          exact settling_delivered ready.known queue channelHash (settles.settling sender channelHash)

theorem settling_step (settles : link.Settling env) (event : ChannelEvent)
    (allowed : Allows env link event) : (link.step env event).Settling env := by
  cases event with
  | joinChannel side name => exact settling_joinChannel settles side name allowed
  | leaveChannel side name => exact settling_leaveChannel settles side name allowed
  | resume side index => exact settling_resume settles side index allowed
  | deliver sender => exact settling_deliver settles sender

theorem settling_connected (a b : Node) (peerOfA peerOfB : Bytes) (connectedA : a.Connected env peerOfA)
    (connectedB : b.Connected env peerOfB) : (connected a b peerOfA peerOfB).Settling env := by
  have ready (n : Node) (peerID : Bytes) (fresh : n.Connected env peerID) :
      Party.Ready env ⟨n, peerID, [.syncChannels], []⟩ := by
    rcases fresh with ⟨listed, p, found, _⟩
    refine ⟨?_, ?_⟩
    · intro channelHash
      change channelHash ∈ n.localChannelSet ↔ _
      rw [listed, List.mem_toFinset, List.mem_map]
    · change (n.peers.get peerID).isSome = true
      rw [found]
      rfl
  have settling (sender receiver : Node) (senderPeer receiverPeer : Bytes)
      (fresh : receiver.Connected env receiverPeer) (channelHash : Bytes) :
      (direction env ⟨sender, senderPeer, [.syncChannels], []⟩
        ⟨receiver, receiverPeer, [.syncChannels], []⟩ channelHash).Settling := by
    rcases fresh with ⟨_, p, found, empty⟩
    by_cases subscribed : channelHash ∈ sender.localChannelSet
    · apply Announcement.settling_of_last
      simp [direction, Task.announced, subscribed]
    · refine ⟨?_, ?_⟩
      · simp [direction, Task.announced, subscribed, announced]
      · simp [direction, subscribed, Node.hasRemoteChannel, found, Peer.hasRemoteChannel, empty]
  constructor
  · intro side
    cases side with
    | a => exact ready a peerOfA connectedA
    | b => exact ready b peerOfB connectedB
  · intro side channelHash
    cases side with
    | a => exact settling a b peerOfA peerOfB connectedB channelHash
    | b => exact settling b a peerOfB peerOfA connectedA channelHash

theorem isChannelSubscribed_hash (n : Node) (channelName : Bytes) :
    n.isChannelSubscribed (hashChannelName env channelName) =
      decide (hashChannelName env channelName ∈ n.localChannelSet) := by
  have size : (hashChannelName env channelName).length = 32 := env.sha256_length channelName
  rw [Node.isChannelSubscribed, decide_eq_true size, Bool.true_and]

theorem mem_getPeersInChannel (n : Node) (peerID channelName : Bytes)
    (known : (n.peers.get peerID).isSome = true) :
    peerID ∈ n.getPeersInChannel env channelName ↔
      n.hasRemoteChannel peerID (hashChannelName env channelName) = true := by
  have listed : peerID ∈ n.peers.ids :=
    (PeerStore.mem_ids _ _).mpr (Option.isSome_iff_exists.mp known)
  rw [Node.getPeersInChannel, List.mem_filter]
  exact and_iff_right listed

theorem viewsAgree_of_settling (settles : link.Settling env) (quiet : link.Quiet) :
    link.ViewsAgree env := by
  intro side channelName subscribed
  have settling := receiving_settles settles side (hashChannelName env channelName)
  rcases quiet side.other with ⟨arrived, ended⟩
  have unsent : (direction env (link side.other) (link side)
      (hashChannelName env channelName)).unsent = [] := by
    apply List.flatMap_eq_nil_iff.mpr
    intro task running
    rw [ended task running]
    rfl
  have sent : (direction env (link side.other) (link side)
      (hashChannelName env channelName)).sent = [] := by
    change announced env _ (link side.other).inFlight = []
    rw [arrived]
    rfl
  rw [isChannelSubscribed_hash] at subscribed
  have view : (link side).node.hasRemoteChannel (link side).peerID (hashChannelName env channelName) =
      decide (hashChannelName env channelName ∈ (link side.other).node.localChannelSet) :=
    settling.view unsent sent subscribed
  rw [mem_getPeersInChannel _ _ _ (settles.ready side).known, view, isChannelSubscribed_hash]

/-- In every run whose calls are allowed, the views agree whenever no update is on its way. -/
theorem views_agree_when_quiet (env : Env) (a b : Node) (peerOfA peerOfB : Bytes)
    (connectedA : a.Connected env peerOfA) (connectedB : b.Connected env peerOfB)
    (events : List ChannelEvent)
    (allowed : Run.Along (step env) (Allows env) (connected a b peerOfA peerOfB) events) :
    Run.Throughout (step env) (fun link => link.Quiet → link.ViewsAgree env)
      (connected a b peerOfA peerOfB) events := by
  have settles : Run.Throughout (step env) (Settling env) (connected a b peerOfA peerOfB) events := by
    apply Run.throughout_keeps _ _ (settling_connected a b peerOfA peerOfB connectedA connectedB) allowed
    intro link event settles allows
    exact settling_step settles event allows
  apply Run.throughout_mono _ _ settles
  intro link settled quiet
  exact viewsAgree_of_settling settled quiet

def nodeWithPeer (peerID : Bytes) : Node :=
  let n := newNode .padded { defaultConfig with channels := [[0x64]] } (newIdentity .padded [9])
  { n with
    peers := n.peers.add
      (newPeer peerID ⟨.udp, [0x41]⟩ none .udp .p2p none (sessionOf true (.one [7]) [2]) 0) }

theorem nodeWithPeer_connected (peerID : Bytes) :
    (nodeWithPeer peerID).Connected .padded peerID := by
  refine ⟨rfl, _, (PeerStore.get_add _ _ _).trans (if_pos rfl), rfl⟩

def firstExchange : List ChannelEvent :=
  [.resume .a 0, .resume .a 0, .deliver .a, .resume .b 0, .resume .b 0, .deliver .b]

/-- Both join before either hears of the other. -/
theorem overlapping_joins_agree :
    Run.Throughout (step .padded) (fun link => link.Quiet → link.ViewsAgree .padded)
      (connected (nodeWithPeer [0x42]) (nodeWithPeer [0x41]) [0x42] [0x41])
      (firstExchange ++ [.joinChannel .a [0x63], .joinChannel .b [0x63], .resume .a 1, .deliver .a,
        .resume .b 1, .deliver .b]) :=
  views_agree_when_quiet .padded _ _ _ _ (nodeWithPeer_connected _) (nodeWithPeer_connected _) _
    (by decide +kernel)

def successiveJoins : Link :=
  Run.run (step .padded) (connected (nodeWithPeer [0x42]) (nodeWithPeer [0x41]) [0x42] [0x41])
    (firstExchange ++ [.joinChannel .a [0x63], .resume .a 1, .deliver .a, .joinChannel .b [0x63],
      .resume .b 1, .deliver .b])

/-- Nothing is on its way, both are in the channel, and the second does not list the first. -/
theorem successive_joins_disagree :
    successiveJoins.Quiet ∧
      (successiveJoins .a).node.isChannelSubscribed (hashChannelName .padded [0x63]) = true ∧
      (successiveJoins .b).node.isChannelSubscribed (hashChannelName .padded [0x63]) = true ∧
      (successiveJoins .b).node.getPeersInChannel .padded [0x63] = [] ∧
      ¬ successiveJoins.ViewsAgree .padded := by
  have first : (successiveJoins .a).node.isChannelSubscribed (hashChannelName .padded [0x63]) = true := by
    decide +kernel
  have second : (successiveJoins .b).node.isChannelSubscribed (hashChannelName .padded [0x63]) = true := by
    decide +kernel
  have unlisted : (successiveJoins .b).node.getPeersInChannel .padded [0x63] = [] := by
    decide +kernel
  refine ⟨?_, first, second, unlisted, ?_⟩
  · intro side
    cases side <;> decide +kernel
  · intro agree
    have listed := (agree .b [0x63] second).mpr first
    rw [unlisted] at listed
    cases listed

end Link

end Tenet
