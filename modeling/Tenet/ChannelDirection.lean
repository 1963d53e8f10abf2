import Tenet.Channels
import Tenet.Lib.Announcement

/-! One direction of a link: how a node's subscription reaches its peer's record. -/

namespace Tenet

open Lib

def announced (env : Env) (channelHash : Bytes) (updates : List ChannelUpdate) : List Bool :=
  (updates.filter fun update => update.hash env = channelHash).map fun update =>
    decide (update.opcode = .join)

/-- What a goroutine has still to say about it. One that has not copied the list will say what
the list holds. -/
def Task.announced (env : Env) (n : Node) (channelHash : Bytes) : Task → List Bool
  | .syncChannels => if channelHash ∈ n.localChannelSet then [true] else []
  | .sendUpdates updates => Tenet.announced env channelHash updates

/-- One channel, seen as an announcement of the sender to the receiver's record. -/
def direction (env : Env) (sender receiver : Party) (channelHash : Bytes) : Announcement Bool where
  current := decide (channelHash ∈ sender.node.localChannelSet)
  unsent := sender.tasks.flatMap (Task.announced env sender.node channelHash)
  sent := announced env channelHash sender.inFlight
  listening := decide (channelHash ∈ receiver.node.localChannelSet)
  view := receiver.node.hasRemoteChannel receiver.peerID channelHash

/-- Whether the hash is in the set is whether a name in the list has it. -/
def Node.Listed (env : Env) (n : Node) (channelHash : Bytes) : Prop :=
  channelHash ∈ n.localChannelSet ↔
    ∃ name ∈ n.config.channels, hashChannelName env name = channelHash

structure Party.Ready (env : Env) (party : Party) : Prop where
  listed : ∀ channelHash, party.node.Listed env channelHash
  known : (party.node.peers.get party.peerID).isSome = true

theorem listed_join {env : Env} {n : Node} {channelHash : Bytes} (listed : n.Listed env channelHash)
    (name : Bytes) : (n.joinChannel env name).1.Listed env channelHash := by
  unfold Node.joinChannel
  split
  · exact listed
  · change channelHash ∈ insert (hashChannelName env name) _ ↔ ∃ other ∈ _ ++ [name], _
    rw [Finset.mem_insert, show channelHash ∈ n.localChannelSet ↔ _ from listed]
    constructor
    · rintro (rfl | ⟨other, present, hashed⟩)
      · exact ⟨name, by simp, rfl⟩
      · exact ⟨other, List.mem_append_left _ present, hashed⟩
    · rintro ⟨other, present, hashed⟩
      rcases List.mem_append.mp present with old | new
      · exact Or.inr ⟨other, old, hashed⟩
      · rw [List.mem_singleton.mp new] at hashed
        exact Or.inl hashed.symm

theorem listed_leave {env : Env} {n : Node} {channelHash : Bytes} (listed : n.Listed env channelHash)
    (name : Bytes) (sole : hashChannelName env name = channelHash → name ∈ n.config.channels →
      ∀ other ∈ n.config.channels.erase name, hashChannelName env other ≠ hashChannelName env name) :
    (n.leaveChannel env name).1.Listed env channelHash := by
  unfold Node.leaveChannel
  split
  · next found =>
      change channelHash ∈ Finset.erase _ (hashChannelName env name) ↔
        ∃ other ∈ n.config.channels.erase name, _
      rw [Finset.mem_erase, show channelHash ∈ n.localChannelSet ↔ _ from listed]
      constructor
      · rintro ⟨different, other, member, hashed⟩
        have apart : other ≠ name := by
          rintro rfl
          exact different hashed.symm
        exact ⟨other, (List.mem_erase_of_ne apart).mpr member, hashed⟩
      · rintro ⟨other, member, hashed⟩
        refine ⟨?_, other, List.mem_of_mem_erase member, hashed⟩
        intro same
        exact sole same.symm found other member (hashed.trans same)
  · exact listed

theorem mem_announced (env : Env) (channelHash : Bytes) (updates : List ChannelUpdate)
    (value : Bool) :
    value ∈ announced env channelHash updates ↔
      ∃ update ∈ updates, update.hash env = channelHash ∧ decide (update.opcode = .join) = value := by
  simp only [announced, List.mem_map, List.mem_filter, decide_eq_true_eq, and_assoc]

theorem announced_cons (env : Env) (channelHash : Bytes) (update : ChannelUpdate)
    (rest : List ChannelUpdate) :
    announced env channelHash (update :: rest) =
      if update.hash env = channelHash then
        decide (update.opcode = .join) :: announced env channelHash rest
      else announced env channelHash rest := by
  by_cases same : update.hash env = channelHash
  · simp only [announced, List.filter_cons, same, decide_true, if_true, List.map_cons]
  · simp only [announced, List.filter_cons, same, decide_false, Bool.false_eq_true, if_false]

theorem announced_append (env : Env) (channelHash : Bytes) (first second : List ChannelUpdate) :
    announced env channelHash (first ++ second) =
      announced env channelHash first ++ announced env channelHash second := by
  simp only [announced, List.filter_append, List.map_append]

theorem task_announced_congr (env : Env) {n after : Node} {channelHash : Bytes}
    (same : channelHash ∈ after.localChannelSet ↔ channelHash ∈ n.localChannelSet) :
    Task.announced env after channelHash = Task.announced env n channelHash := by
  funext task
  cases task with
  | syncChannels => simp only [Task.announced, same]
  | sendUpdates updates => rfl

theorem direction_congr (env : Env) {sender sender' receiver receiver' : Party} {channelHash : Bytes}
    (tasks : sender'.tasks = sender.tasks) (inFlight : sender'.inFlight = sender.inFlight)
    (subscribed : channelHash ∈ sender'.node.localChannelSet ↔
      channelHash ∈ sender.node.localChannelSet)
    (listening : channelHash ∈ receiver'.node.localChannelSet ↔
      channelHash ∈ receiver.node.localChannelSet)
    (view : receiver'.node.hasRemoteChannel receiver'.peerID channelHash =
      receiver.node.hasRemoteChannel receiver.peerID channelHash) :
    direction env sender' receiver' channelHash = direction env sender receiver channelHash := by
  simp only [direction, tasks, inFlight, subscribed, listening, view,
    task_announced_congr env subscribed]

namespace Party

theorem broadcast_nothing (party : Party) :
    party.broadcastChannelUpdate (party.node, none) = party := by
  simp only [broadcastChannelUpdate, Option.toList_none, List.map_nil, ite_self, List.append_nil]

section

variable {env : Env} {party : Party} {after : Node} {update : ChannelUpdate}
  (peers : after.peers = party.node.peers)

include peers

theorem broadcast_tasks (known : (party.node.peers.get party.peerID).isSome = true) :
    (party.broadcastChannelUpdate (after, some update)).tasks =
      party.tasks ++ [.sendUpdates [update]] := by
  have listed : party.peerID ∈ after.peers.ids := by
    rw [peers]
    exact (PeerStore.mem_ids _ _).mpr (Option.isSome_iff_exists.mp known)
  simp only [broadcastChannelUpdate, if_pos listed, Option.toList_some, List.map_cons, List.map_nil]

theorem broadcast_elsewhere (known : (party.node.peers.get party.peerID).isSome = true)
    (receiver : Party) {channelHash : Bytes}
    (elsewhere : update.hash env ≠ channelHash)
    (same : channelHash ∈ after.localChannelSet ↔ channelHash ∈ party.node.localChannelSet) :
    direction env (party.broadcastChannelUpdate (after, some update)) receiver channelHash =
      direction env party receiver channelHash := by
  have tasks : (party.broadcastChannelUpdate (after, some update)).tasks =
      party.tasks ++ [.sendUpdates [update]] := broadcast_tasks peers known
  have silent : announced env channelHash [update] = [] := by
    rw [announced_cons, if_neg elsewhere]
    rfl
  simp only [direction, tasks, List.flatMap_append, List.flatMap_cons, List.flatMap_nil,
    Task.announced, silent, List.append_nil]
  simp only [broadcastChannelUpdate, same, task_announced_congr env same]

theorem broadcast_settling (known : (party.node.peers.get party.peerID).isSome = true)
    (receiver : Party)
    (opcode : decide (update.opcode = .join) = decide (update.hash env ∈ after.localChannelSet)) :
    (direction env (party.broadcastChannelUpdate (after, some update)) receiver
      (update.hash env)).Settling := by
  apply Announcement.settling_of_last
  simp only [direction, broadcast_tasks peers known, List.flatMap_append, List.flatMap_cons,
    List.flatMap_nil, List.append_nil, Task.announced, announced_cons env (update.hash env) update,
    if_true]
  rw [List.getLast?_append, opcode]
  rfl

theorem broadcast_receiving (sender : Party) (channelHash : Bytes) :
    direction env sender (party.broadcastChannelUpdate (after, some update)) channelHash =
      { direction env sender party channelHash with
        listening := decide (channelHash ∈ after.localChannelSet) } := by
  simp only [direction, broadcastChannelUpdate, Node.hasRemoteChannel, peers]

end

theorem resume_cases (party : Party) (index : Nat) :
    party.resume index = party ∨
      (party.tasks = party.tasks.take index ++ .syncChannels :: party.tasks.drop (index + 1) ∧
        party.resume index =
          { party with
            tasks := party.tasks.take index ++
              .sendUpdates (party.node.config.channels.map fun name => ⟨.join, name⟩) ::
                party.tasks.drop (index + 1) }) ∨
      (party.tasks = party.tasks.take index ++ .sendUpdates [] :: party.tasks.drop (index + 1) ∧
        party.resume index =
          { party with tasks := party.tasks.take index ++ party.tasks.drop (index + 1) }) ∨
      ∃ update rest, party.tasks = party.tasks.take index ++
            .sendUpdates (update :: rest) :: party.tasks.drop (index + 1) ∧
        party.sends index = some update ∧
        ((party.tasks.drop index).flatMap Task.updates).tail =
          rest ++ (party.tasks.drop (index + 1)).flatMap Task.updates ∧
        party.resume index =
          { party with
            tasks := party.tasks.take index ++ .sendUpdates rest :: party.tasks.drop (index + 1)
            inFlight := party.inFlight ++ [update] } := by
  unfold resume sends
  cases found : party.tasks[index]? with
  | none => exact Or.inl rfl
  | some task =>
      rcases List.getElem?_eq_some_iff.mp found with ⟨inside, task_eq⟩
      have back : party.tasks.drop index = task :: party.tasks.drop (index + 1) := by
        rw [← task_eq, List.getElem_cons_drop]
      have whole : party.tasks = party.tasks.take index ++ task :: party.tasks.drop (index + 1) := by
        rw [← back, List.take_append_drop]
      have replaced (new : Task) : party.tasks.set index new =
          party.tasks.take index ++ new :: party.tasks.drop (index + 1) :=
        List.set_eq_take_append_cons_drop.trans (if_pos inside)
      refine Or.inr ?_
      cases task with
      | syncChannels =>
          refine Or.inl ⟨whole, ?_⟩
          simp only [replaced]
      | sendUpdates updates =>
          cases updates with
          | nil =>
              refine Or.inr (Or.inl ⟨whole, ?_⟩)
              simp only [List.eraseIdx_eq_take_drop_succ]
          | cons update rest =>
              refine Or.inr (Or.inr ⟨update, rest, whole, rfl, ?_, ?_⟩)
              · rw [back]
                rfl
              · simp only [replaced]

theorem resume_frame (party : Party) (index : Nat) :
    (party.resume index).node = party.node ∧ (party.resume index).peerID = party.peerID := by
  rcases party.resume_cases index with same | ⟨_, eq⟩ | ⟨_, eq⟩ | ⟨_, _, _, _, _, eq⟩
  · rw [same]
    exact ⟨rfl, rfl⟩
  · rw [eq]
    exact ⟨rfl, rfl⟩
  · rw [eq]
    exact ⟨rfl, rfl⟩
  · rw [eq]
    exact ⟨rfl, rfl⟩

theorem announced_channels {env : Env} {party : Party} {channelHash : Bytes}
    (listed : party.node.Listed env channelHash) :
    (∀ value ∈ announced env channelHash
        (party.node.config.channels.map fun name => ⟨.join, name⟩),
      value = decide (channelHash ∈ party.node.localChannelSet)) ∧
    (channelHash ∈ party.node.localChannelSet →
      announced env channelHash (party.node.config.channels.map fun name => ⟨.join, name⟩) ≠ []) := by
  constructor
  · intro value said
    rcases (mem_announced env _ _ value).mp said with ⟨update, member, hashed, stated⟩
    rcases List.mem_map.mp member with ⟨name, present, rfl⟩
    have joined := listed.mpr ⟨name, present, hashed⟩
    rw [← stated, decide_eq_true joined]
    rfl
  · intro joined none_said
    rcases listed.mp joined with ⟨name, present, hashed⟩
    have said : true ∈ announced env channelHash
        (party.node.config.channels.map fun name => ⟨.join, name⟩) :=
      (mem_announced env _ _ true).mpr ⟨⟨.join, name⟩, List.mem_map.mpr ⟨name, present, rfl⟩, hashed, rfl⟩
    rw [none_said] at said
    cases said

section

variable {env : Env} {party : Party} {receiver : Party} {channelHash : Bytes} {before after : List Task}

theorem copy_settling (listed : party.node.Listed env channelHash)
    (tasks : party.tasks = before ++ .syncChannels :: after)
    (settling : (direction env party receiver channelHash).Settling) :
    (direction env
      { party with
        tasks := before ++
          .sendUpdates (party.node.config.channels.map fun name => ⟨.join, name⟩) :: after }
      receiver channelHash).Settling := by
  rcases announced_channels listed with ⟨agreeing, told⟩
  have unsent : (direction env party receiver channelHash).unsent =
      before.flatMap (Task.announced env party.node channelHash) ++
        (Task.announced env party.node channelHash .syncChannels ++
          after.flatMap (Task.announced env party.node channelHash)) := by
    simp only [direction, tasks, List.flatMap_append, List.flatMap_cons]
  have renewed := settling.renew unsent _ agreeing fun silent => if_neg fun joined => told joined silent
  simpa only [direction, List.flatMap_append, List.flatMap_cons, Task.announced] using renewed

theorem send_settling {update : ChannelUpdate} {rest : List ChannelUpdate}
    (tasks : party.tasks = before ++ .sendUpdates (update :: rest) :: after)
    (about : update.hash env = channelHash)
    (turn : (∀ newer ∈ rest ++ after.flatMap Task.updates, newer.hash env ≠ channelHash) →
      ∀ older ∈ before.flatMap Task.updates, older.hash env = channelHash →
        older.opcode = update.opcode)
    (settling : (direction env party receiver channelHash).Settling) :
    (direction env
      { party with
        tasks := before ++ .sendUpdates rest :: after
        inFlight := party.inFlight ++ [update] } receiver channelHash).Settling := by
  have unsent : (direction env party receiver channelHash).unsent =
      before.flatMap (Task.announced env party.node channelHash) ++
        (announced env channelHash (update :: rest) ++
          after.flatMap (Task.announced env party.node channelHash)) := by
    simp only [direction, tasks, List.flatMap_append, List.flatMap_cons, Task.announced]
  rw [announced_cons, if_pos about, List.cons_append] at unsent
  have sent : direction env
      { party with
        tasks := before ++ .sendUpdates rest :: after
        inFlight := party.inFlight ++ [update] } receiver channelHash =
      { direction env party receiver channelHash with
        unsent := before.flatMap (Task.announced env party.node channelHash) ++
          (announced env channelHash rest ++
            after.flatMap (Task.announced env party.node channelHash))
        sent := (direction env party receiver channelHash).sent ++
          [decide (update.opcode = .join)] } := by
    simp only [direction, List.flatMap_append, List.flatMap_cons, Task.announced,
      announced_append, announced_cons env channelHash update, if_pos about]
    rfl
  rw [sent]
  apply settling.send unsent
  intro newest value said
  rcases List.mem_flatMap.mp said with ⟨task, older, spoken⟩
  cases task with
  | syncChannels =>
      -- what the goroutine is going to copy is the current value, and so is the newest
      have joined : channelHash ∈ party.node.localChannelSet ∧ value = true := by
        simpa [Task.announced] using spoken
      have current := settling.last (decide (update.opcode = .join)) (by
        rw [unsent, newest]
        simp)
      rw [joined.2, current]
      exact (decide_eq_true joined.1).symm
  | sendUpdates updates =>
      rcases (mem_announced env _ updates value).mp spoken with ⟨other, listed, hashed, stated⟩
      rw [← stated, turn ?_ other (List.mem_flatMap.mpr ⟨_, older, listed⟩) hashed]
      intro newer member same
      have silent := List.append_eq_nil_iff.mp newest
      rcases List.mem_append.mp member with next | later
      · exact List.ne_nil_of_mem ((mem_announced env _ _ _).mpr ⟨newer, next, same, rfl⟩) silent.1
      · rcases List.mem_flatMap.mp later with ⟨task, among, inside⟩
        have nothing := List.flatMap_eq_nil_iff.mp silent.2 task among
        cases task with
        | syncChannels => cases inside
        | sendUpdates updates =>
            exact List.ne_nil_of_mem ((mem_announced env _ _ _).mpr ⟨newer, inside, same, rfl⟩) nothing

theorem send_elsewhere {update : ChannelUpdate} {rest : List ChannelUpdate}
    (tasks : party.tasks = before ++ .sendUpdates (update :: rest) :: after)
    (about : update.hash env ≠ channelHash) :
    direction env
      { party with
        tasks := before ++ .sendUpdates rest :: after
        inFlight := party.inFlight ++ [update] } receiver channelHash =
      direction env party receiver channelHash := by
  simp only [direction, tasks, List.flatMap_append, List.flatMap_cons, Task.announced,
    announced_append, announced_cons env channelHash update, if_neg about]
  simp only [announced, List.filter_nil, List.map_nil, List.append_nil]

theorem resume_settling (listed : party.node.Listed env channelHash) (receiver : Party) (index : Nat)
    (turn : ∀ update ∈ party.sends index, update.hash env = channelHash →
      party.InTurn env index update)
    (settling : (direction env party receiver channelHash).Settling) :
    (direction env (party.resume index) receiver channelHash).Settling := by
  rcases party.resume_cases index with
    same | ⟨tasks, eq⟩ | ⟨tasks, eq⟩ | ⟨update, rest, tasks, sends, newer, eq⟩
  · rw [same]
    exact settling
  · rw [eq]
    exact copy_settling listed tasks settling
  · -- the goroutine ends
    have same : direction env
        { party with tasks := party.tasks.take index ++ party.tasks.drop (index + 1) } receiver
        channelHash = direction env party receiver channelHash := by
      have unsent := congrArg (List.flatMap (Task.announced env party.node channelHash)) tasks
      simp only [List.flatMap_append, List.flatMap_cons, Task.announced, announced,
        List.filter_nil, List.map_nil, List.nil_append] at unsent
      simp only [direction, List.flatMap_append]
      rw [unsent]
    rw [eq, same]
    exact settling
  · rw [eq]
    by_cases about : update.hash env = channelHash
    · apply send_settling tasks about _ settling
      have inTurn := turn update sends about
      rw [Party.InTurn, newer, about] at inTurn
      exact inTurn
    · rw [send_elsewhere tasks about]
      exact settling

end

end Party

theorem processChannelUpdate_payload (env : Env) (n : Node) (p : Peer) (update : ChannelUpdate) :
    n.processChannelUpdate p (update.payload env) =
      if update.hash env ∈ n.localChannelSet then
        match update.opcode with
        | .join => p.addRemoteChannel (update.hash env)
        | .leave => p.removeRemoteChannel (update.hash env)
      else p := by
  have size : (update.hash env).length = 32 := env.sha256_length update.name
  have long : ¬ (update.hash env).length < 32 := by omega
  have whole : (update.hash env).take 32 = update.hash env := List.take_of_length_le (by omega)
  have codes : opCodeLeave ≠ opCodeJoin := by decide
  rcases update with ⟨opcode, name⟩
  cases opcode with
  | join => simp only [ChannelUpdate.payload, Node.processChannelUpdate, if_neg long, whole, OpCode.byte,
      if_true]
  | leave => simp only [ChannelUpdate.payload, Node.processChannelUpdate, if_neg long, whole, OpCode.byte,
      codes, if_false, if_true]

theorem receiveUpdate_eq (env : Env) (n : Node) (peerID : Bytes) (p : Peer) (update : ChannelUpdate)
    (known : n.peers.get peerID = some p) :
    n.receiveUpdate env peerID update =
      { n with peers := n.peers.add (n.processChannelUpdate p (update.payload env)) } := by
  have other : appFrameTypeChannelUpdate ≠ appFrameTypeUserWithChannel := by decide
  simp only [Node.receiveUpdate, known, Node.handleAppFrame, other, if_false, if_true]

theorem receiveUpdate_known (env : Env) (n : Node) (peerID : Bytes) (p : Peer)
    (update : ChannelUpdate) (known : n.peers.get peerID = some p) :
    (n.receiveUpdate env peerID update).peers.get peerID =
      some (n.processChannelUpdate p (update.payload env)) := by
  have named : p.id = peerID := n.peers.get_id peerID p known
  rcases processChannelUpdate_eq n p (update.payload env) with ⟨channels, updated⟩
  rw [receiveUpdate_eq env n peerID p update known, updated]
  exact (PeerStore.get_add _ _ _).trans (if_pos named.symm)

theorem receiveUpdate_hasRemoteChannel (env : Env) (n : Node) (peerID : Bytes)
    (update : ChannelUpdate) (known : (n.peers.get peerID).isSome = true) (channelHash : Bytes) :
    (n.receiveUpdate env peerID update).hasRemoteChannel peerID channelHash =
      if update.hash env = channelHash ∧ channelHash ∈ n.localChannelSet then
        decide (update.opcode = .join)
      else n.hasRemoteChannel peerID channelHash := by
  rcases Option.isSome_iff_exists.mp known with ⟨p, found⟩
  simp only [Node.hasRemoteChannel, receiveUpdate_known env n peerID p update found, found,
    processChannelUpdate_payload, Peer.hasRemoteChannel]
  by_cases about : update.hash env = channelHash
  · subst about
    by_cases joined : update.hash env ∈ n.localChannelSet
    · simp only [joined, if_true, and_self]
      cases update.opcode with
      | join => simp [Peer.addRemoteChannel]
      | leave => simp [Peer.removeRemoteChannel]
    · simp only [joined, if_false, and_false]
  · have elsewhere : channelHash ≠ update.hash env := fun same => about same.symm
    simp only [about, false_and, if_false]
    split
    · cases update.opcode with
      | join => simp [Peer.addRemoteChannel, elsewhere]
      | leave => simp [Peer.removeRemoteChannel, elsewhere]
    · rfl

end Tenet
