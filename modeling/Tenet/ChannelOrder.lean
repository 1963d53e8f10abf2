import Tenet.ChannelViews

/-! The updates of one node about one channel, on their way to a peer that stays in the channel. Each
update has its own goroutine, so that the order of the calls is not the order on the wire. -/

namespace Tenet.Link

open Lib

/-- The goroutines of the node have sent everything and all of it has arrived. -/
def AllDelivered (sender : Party) : Prop :=
  sender.inFlight = [] ∧ ∀ task ∈ sender.tasks, task = .sendUpdates []

/-- The peer's record lists the channel exactly if the node is in it. -/
def Recorded (env : Env) (link : Link) (side : Side) (name : Bytes) : Prop :=
  (link side.other).node.hasRemoteChannel (link side.other).peerID (hashChannelName env name) = true ↔
    (link side).node.isChannelSubscribed (hashChannelName env name) = true

def Stays (env : Env) (side : Side) (name : Bytes) : ChannelEvent → Prop
  | .leaveChannel caller other =>
      caller = side.other → hashChannelName env other ≠ hashChannelName env name
  | _ => True

/-- The updates about the channel are sent in turn, and a call that leaves finds no second entry for
the channel. -/
def InOrder (env : Env) (side : Side) (name : Bytes) (link : Link) : ChannelEvent → Prop
  | .leaveChannel caller other =>
      caller = side → hashChannelName env other = hashChannelName env name →
        other ∈ (link side).node.config.channels →
          ∀ entry ∈ (link side).node.config.channels.erase other,
            hashChannelName env entry ≠ hashChannelName env name
  | .resume caller index => caller = side → ∀ update ∈ (link side).sends index,
      update.hash env = hashChannelName env name → (link side).InTurn env index update
  | .joinChannel _ _ | .deliver _ => True

instance (env : Env) (side : Side) (name : Bytes) :
    (event : ChannelEvent) → Decidable (Stays env side name event)
  | .leaveChannel _ _ => inferInstanceAs (Decidable (_ → _ ≠ _))
  | .joinChannel _ _ | .resume _ _ | .deliver _ => .isTrue trivial

instance (env : Env) (side : Side) (name : Bytes) (link : Link) :
    (event : ChannelEvent) → Decidable (InOrder env side name link event)
  | .leaveChannel _ _ => inferInstanceAs (Decidable (_ → _ → _ ∈ _ → ∀ entry ∈ _, _ ≠ _))
  | .resume _ _ => inferInstanceAs (Decidable (_ → ∀ update ∈ _, _ → Party.InTurn _ _ _ _))
  | .joinChannel _ _ | .deliver _ => .isTrue trivial

/-- What the updates about the channel rely on, and that they settle. -/
structure OnCourse (env : Env) (side : Side) (channelHash : Bytes) (link : Link) : Prop where
  known : ∀ each, ((link each).node.peers.get (link each).peerID).isSome = true
  listed : (link side).node.Listed env channelHash
  listening : channelHash ∈ (link side.other).node.localChannelSet
  settling : (direction env (link side) (link side.other) channelHash).Settling

section

variable {env : Env} {side : Side} {channelHash : Bytes} {link : Link}

theorem onCourse_sender (course : OnCourse env side channelHash link) (party : Party)
    (known : (party.node.peers.get party.peerID).isSome = true)
    (listed : party.node.Listed env channelHash)
    (settling : (direction env party (link side.other) channelHash).Settling) :
    OnCourse env side channelHash (link.update side party) := by
  refine ⟨?_, ?_, ?_, ?_⟩
  · intro each
    rcases Side.eq_or_eq_other side each with rfl | rfl
    · rw [update_same]
      exact known
    · rw [update_other]
      exact course.known side.other
  · rw [update_same]
    exact listed
  · rw [update_other]
    exact course.listening
  · rw [update_same, update_other]
    exact settling

theorem onCourse_receiver (course : OnCourse env side channelHash link) (party : Party)
    (known : (party.node.peers.get party.peerID).isSome = true)
    (listening : channelHash ∈ party.node.localChannelSet)
    (settling : (direction env (link side) party channelHash).Settling) :
    OnCourse env side channelHash (link.update side.other party) := by
  have untouched : link.update side.other party side = link side := by
    have other := update_other link side.other party
    rwa [Side.other_other] at other
  refine ⟨?_, ?_, ?_, ?_⟩
  · intro each
    rcases Side.eq_or_eq_other side each with rfl | rfl
    · rw [untouched]
      exact course.known _
    · rw [update_same]
      exact known
  · rw [untouched]
    exact course.listed
  · rw [update_same]
    exact listening
  · rw [untouched, update_same]
    exact settling

theorem onCourse_broadcast (course : OnCourse env side channelHash link) (after : Node)
    (update : ChannelUpdate) (peers : after.peers = (link side).node.peers)
    (elsewhere : update.hash env ≠ channelHash →
      (channelHash ∈ after.localChannelSet ↔ channelHash ∈ (link side).node.localChannelSet))
    (listed : after.Listed env channelHash)
    (opcode : decide (update.opcode = .join) = decide (update.hash env ∈ after.localChannelSet)) :
    OnCourse env side channelHash
      (link.update side ((link side).broadcastChannelUpdate (after, some update))) := by
  apply onCourse_sender course
  · change (after.peers.get (link side).peerID).isSome = true
    rw [peers]
    exact course.known side
  · exact listed
  · by_cases about : update.hash env = channelHash
    · subst about
      exact Party.broadcast_settling peers (course.known side) _ opcode
    · rw [Party.broadcast_elsewhere peers (course.known side) _ about (elsewhere about)]
      exact course.settling

theorem onCourse_heard (course : OnCourse env side channelHash link) (after : Node)
    (update : ChannelUpdate) (peers : after.peers = (link side.other).node.peers)
    (listening : channelHash ∈ after.localChannelSet) :
    OnCourse env side channelHash
      (link.update side.other ((link side.other).broadcastChannelUpdate (after, some update))) := by
  apply onCourse_receiver course
  · change (after.peers.get (link side.other).peerID).isSome = true
    rw [peers]
    exact course.known side.other
  · exact listening
  · have same : decide (channelHash ∈ after.localChannelSet) =
        (direction env (link side) (link side.other) channelHash).listening :=
      decide_eq_decide.mpr (iff_of_true listening course.listening)
    rw [Party.broadcast_receiving peers, same]
    exact course.settling

theorem onCourse_unchanged (course : OnCourse env side channelHash link) (each : Side) :
    OnCourse env side channelHash (link.update each (link each)) := by
  have same : link.update each (link each) = link := Function.update_eq_self each link
  rw [same]
  exact course

theorem onCourse_joinChannel {name : Bytes}
    (course : OnCourse env side (hashChannelName env name) link) (caller : Side) (other : Bytes) :
    OnCourse env side (hashChannelName env name) (link.step env (.joinChannel caller other)) := by
  rw [step]
  by_cases already : other ∈ (link caller).node.config.channels
  · rw [Node.joinChannel, if_pos already, Party.broadcast_nothing]
    exact onCourse_unchanged course caller
  · have joined (h : (link caller).node.Listed env (hashChannelName env name)) := listed_join h other
    rw [Node.joinChannel, if_neg already] at joined ⊢
    rcases Side.eq_or_eq_other side caller with rfl | rfl
    · apply onCourse_broadcast course _ ⟨.join, other⟩
      · rfl
      · intro about
        change _ ∈ insert (hashChannelName env other) _ ↔ _
        rw [Finset.mem_insert]
        exact or_iff_right (fun same => about same.symm)
      · exact joined course.listed
      · exact (decide_eq_true (Finset.mem_insert_self _ _)).symm
    · apply onCourse_heard course _ ⟨.join, other⟩
      · rfl
      · exact Finset.mem_insert_of_mem course.listening

theorem onCourse_leaveChannel {name : Bytes}
    (course : OnCourse env side (hashChannelName env name) link) (caller : Side) (other : Bytes)
    (stays : Stays env side name (.leaveChannel caller other))
    (inOrder : InOrder env side name link (.leaveChannel caller other)) :
    OnCourse env side (hashChannelName env name) (link.step env (.leaveChannel caller other)) := by
  rw [step]
  by_cases present : other ∈ (link caller).node.config.channels
  · rcases Side.eq_or_eq_other side caller with rfl | rfl
    · have left := listed_leave course.listed other (fun same found => by
        rw [same]
        exact inOrder rfl same found)
      rw [Node.leaveChannel, if_pos present] at left ⊢
      apply onCourse_broadcast course _ ⟨.leave, other⟩
      · rfl
      · intro about
        change _ ∈ Finset.erase _ (hashChannelName env other) ↔ _
        rw [Finset.mem_erase]
        exact and_iff_right (fun same => about same.symm)
      · exact left
      · exact (decide_eq_false (Finset.notMem_erase _ _)).symm
    · rw [Node.leaveChannel, if_pos present]
      apply onCourse_heard course _ ⟨.leave, other⟩
      · rfl
      · exact Finset.mem_erase.mpr ⟨(stays rfl).symm, course.listening⟩
  · rw [Node.leaveChannel, if_neg present, Party.broadcast_nothing]
    exact onCourse_unchanged course caller

theorem onCourse_resume {name : Bytes} (course : OnCourse env side (hashChannelName env name) link)
    (caller : Side) (index : Nat) (inOrder : InOrder env side name link (.resume caller index)) :
    OnCourse env side (hashChannelName env name) (link.step env (.resume caller index)) := by
  obtain ⟨node, peerID⟩ := (link caller).resume_frame index
  have known := course.known caller
  rw [← node, ← peerID] at known
  rw [step]
  rcases Side.eq_or_eq_other side caller with rfl | rfl
  · apply onCourse_sender course _ known
    · rw [node]
      exact course.listed
    · exact Party.resume_settling course.listed _ index (inOrder rfl) course.settling
  · apply onCourse_receiver course _ known
    · rw [node]
      exact course.listening
    · have same : direction env (link side) ((link side.other).resume index)
          (hashChannelName env name) =
          direction env (link side) (link side.other) (hashChannelName env name) := by
        apply direction_congr env rfl rfl Iff.rfl
        · rw [node]
        · rw [node, peerID]
      rw [same]
      exact course.settling

theorem onCourse_deliver (course : OnCourse env side channelHash link) (sender : Side) :
    OnCourse env side channelHash (link.step env (.deliver sender)) := by
  rw [step, deliver]
  cases queue : (link sender).inFlight with
  | nil => exact course
  | cons first rest =>
      let receiver := link sender.other
      let emptied : Party := { link sender with inFlight := rest }
      let informed : Party :=
        { receiver with node := receiver.node.receiveUpdate env receiver.peerID first }
      have known := course.known sender.other
      obtain ⟨p, found⟩ := Option.isSome_iff_exists.mp known
      have frame := receiveUpdate_eq env receiver.node _ p first found
      have still : (informed.node.peers.get informed.peerID).isSome = true := by
        change ((Node.receiveUpdate env _ _ first).peers.get _).isSome = true
        rw [receiveUpdate_known env _ _ p first found]
        rfl
      have sends : (link.update sender emptied).update sender.other informed sender = emptied := by
        have kept := update_other (link.update sender emptied) sender.other informed
        rwa [Side.other_other, update_same] at kept
      have hears : (link.update sender emptied).update sender.other informed sender.other = informed :=
        update_same _ _ _
      have everybody (each : Side) :
          (((link.update sender emptied).update sender.other informed each).node.peers.get
            ((link.update sender emptied).update sender.other informed each).peerID).isSome = true := by
        rcases Side.eq_or_eq_other sender each with rfl | rfl
        · rw [sends]
          exact course.known _
        · rw [hears]
          exact still
      change OnCourse env side channelHash ((link.update sender emptied).update sender.other informed)
      rcases Side.eq_or_eq_other sender side with rfl | rfl
      · refine ⟨everybody, ?_, ?_, ?_⟩
        · rw [sends]
          exact course.listed
        · rw [hears]
          change channelHash ∈ (Node.receiveUpdate env _ _ first).localChannelSet
          rw [frame]
          exact course.listening
        · rw [sends, hears]
          exact settling_delivered known queue channelHash course.settling
      · have listed := course.listed
        have listening := course.listening
        have settling := course.settling
        rw [Side.other_other] at listening settling
        refine ⟨everybody, ?_, ?_, ?_⟩
        · rw [hears]
          change (Node.receiveUpdate env _ _ first).Listed env channelHash
          rw [frame]
          exact listed
        · rw [Side.other_other, sends]
          exact listening
        · rw [Side.other_other, sends, hears, direction_received known channelHash]
          exact settling

theorem onCourse_step {name : Bytes} (course : OnCourse env side (hashChannelName env name) link)
    (event : ChannelEvent) (stays : Stays env side name event)
    (inOrder : InOrder env side name link event) :
    OnCourse env side (hashChannelName env name) (link.step env event) := by
  cases event with
  | joinChannel caller other => exact onCourse_joinChannel course caller other
  | leaveChannel caller other => exact onCourse_leaveChannel course caller other stays inOrder
  | resume caller index => exact onCourse_resume course caller index inOrder
  | deliver sender => exact onCourse_deliver course sender

theorem recorded_of_onCourse {name : Bytes}
    (course : OnCourse env side (hashChannelName env name) link)
    (delivered : AllDelivered (link side)) : Recorded env link side name := by
  have unsent : (direction env (link side) (link side.other) (hashChannelName env name)).unsent =
      [] := by
    apply List.flatMap_eq_nil_iff.mpr
    intro task running
    rw [delivered.2 task running]
    rfl
  have sent : (direction env (link side) (link side.other) (hashChannelName env name)).sent = [] := by
    change announced env _ (link side).inFlight = []
    rw [delivered.1]
    rfl
  have view : (link side.other).node.hasRemoteChannel (link side.other).peerID
      (hashChannelName env name) =
        decide (hashChannelName env name ∈ (link side).node.localChannelSet) :=
    course.settling.view unsent sent (decide_eq_true course.listening)
  rw [Recorded, view, isChannelSubscribed_hash]

end

/-- In every run in which the peer stays in the channel and the node's updates about it are sent in
turn, the peer's record is right whenever all updates have arrived. -/
theorem recorded_in_order (env : Env) (a b : Node) (peerOfA peerOfB : Bytes)
    (connectedA : a.Connected env peerOfA) (connectedB : b.Connected env peerOfB) (side : Side)
    (name : Bytes) (events : List ChannelEvent)
    (subscribed : hashChannelName env name ∈
      (connected a b peerOfA peerOfB side.other).node.localChannelSet)
    (stays : ∀ event ∈ events, Stays env side name event)
    (inOrder : Run.Along (step env) (InOrder env side name) (connected a b peerOfA peerOfB) events) :
    Run.Throughout (step env)
      (fun link => AllDelivered (link side) → Recorded env link side name)
      (connected a b peerOfA peerOfB) events := by
  have settled := settling_connected a b peerOfA peerOfB connectedA connectedB
  have course : OnCourse env side (hashChannelName env name) (connected a b peerOfA peerOfB) :=
    ⟨fun each => (settled.ready each).known, (settled.ready side).listed _, subscribed,
      settled.settling side _⟩
  have calls := Run.along_and _ _ inOrder
    (Run.along_of_forall (P := fun _ event => Stays env side name event) _ _
      fun event member _ => stays event member)
  have courses := Run.throughout_keeps _ _ course calls
    (fun link event course allowed => onCourse_step course event allowed.2 allowed.1)
  exact Run.throughout_mono _ _ courses fun link course => recorded_of_onCourse course

/-- The first node leaves the channel and joins again, and the goroutine of the first call is first. -/
theorem recorded_one_by_one :
    Run.Throughout (step .padded)
      (fun link => AllDelivered (link .a) → Recorded .padded link .a [0x64])
      (connected (nodeWithPeer [0x42]) (nodeWithPeer [0x41]) [0x42] [0x41])
      (firstExchange ++ [.leaveChannel .a [0x64], .joinChannel .a [0x64], .resume .a 1, .resume .a 2,
        .deliver .a, .deliver .a]) :=
  recorded_in_order .padded _ _ _ _ (nodeWithPeer_connected _) (nodeWithPeer_connected _) .a [0x64] _
    (by decide +kernel) (by decide +kernel) (by decide +kernel)

def overtaken : List ChannelEvent :=
  firstExchange ++ [.leaveChannel .a [0x64], .joinChannel .a [0x64], .resume .a 2, .resume .a 1,
    .deliver .a, .deliver .a]

/-- Everything has arrived, the first node is in the channel, and the record of it says otherwise. -/
theorem overtaken_join_forgotten :
    let link := Run.run (step .padded)
      (connected (nodeWithPeer [0x42]) (nodeWithPeer [0x41]) [0x42] [0x41]) overtaken
    AllDelivered (link .a) ∧
      (link .a).node.isChannelSubscribed (hashChannelName .padded [0x64]) = true ∧
      (link .b).node.isChannelSubscribed (hashChannelName .padded [0x64]) = true ∧
      (link .b).node.hasRemoteChannel [0x41] (hashChannelName .padded [0x64]) = false ∧
      ¬ Run.Throughout (step .padded)
        (fun link => AllDelivered (link .a) → Recorded .padded link .a [0x64])
        (connected (nodeWithPeer [0x42]) (nodeWithPeer [0x41]) [0x42] [0x41]) overtaken := by
  intro link
  have delivered : AllDelivered (link .a) := by
    constructor
    · decide +kernel
    · decide +kernel
  have inside : (link .a).node.isChannelSubscribed (hashChannelName .padded [0x64]) = true := by
    decide +kernel
  have forgotten : (link .b).node.hasRemoteChannel [0x41] (hashChannelName .padded [0x64]) = false := by
    decide +kernel
  have named : (link .b).peerID = [0x41] := by decide +kernel
  refine ⟨delivered, inside, by decide +kernel, forgotten, ?_⟩
  intro throughout
  have recorded := Run.throughout_run _ _ throughout delivered
  have lists := recorded.mpr inside
  change (link .b).node.hasRemoteChannel (link .b).peerID (hashChannelName .padded [0x64]) = true
    at lists
  rw [named, forgotten] at lists
  cases lists

end Tenet.Link
