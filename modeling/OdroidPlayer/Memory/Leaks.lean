import OdroidPlayer.Memory.Responses

/-!
What the client library leaves behind.

A node that a full queue refuses is never freed, and neither is what a request has allocated
when its alarm strikes. In every run nothing is freed twice or used behind its `free` exactly
as long as the nodes that are needed can be made, the text of an error is there and no listener
goes on with a client that has been destroyed; and when the client has been destroyed and the
caller has freed what it was given, nothing else is left (`responses_freed`).
-/

namespace OdroidPlayer

open Blocks Transition Transition.System

def Channel.other : Channel → Channel
  | .cmd => .msg
  | .msg => .cmd

theorem Channel.other_ne (ch : Channel) : ch.other ≠ ch := by
  cases ch <;> decide

namespace ResponseMemory

/-- What does not belong to a queue and to who reads it. -/
def beside (s : ResponseMemory) (ch : Channel) : Multiset Nat :=
  s.life.blocks + (s.receiver.blocks + s.channel ch.other +
    (s.held.map StatusBlocks.blocks).sum + s.lost)

section Steps

variable {s : ResponseMemory} {a : Action} {c : Code ResponseMemory} {ch : Channel}
  {status : Nat} {node msg : NodeBlocks}

theorem blocks_channel (s : ResponseMemory) (ch : Channel) :
    s.blocks = s.channel ch + s.beside ch := by
  cases ch <;> simp only [blocks, beside, Channel.other] <;> abel

/-- A state in which a queue and its reader have changed. -/
theorem blocks_update (s : ResponseMemory) (ch : Channel) (queue : List NodeBlocks)
    (holds : ReaderHolds) :
    blocks { s with
      queue := Function.update s.queue ch queue, reader := Function.update s.reader ch holds } =
      (queue.map NodeBlocks.blocks).sum + holds.blocks + s.beside ch := by
  rw [blocks_channel _ ch, channel, beside, beside, channel, channel]
  simp only [Function.update_self, Function.update_of_ne ch.other_ne]

theorem blocks_queue (s : ResponseMemory) (ch : Channel) (queue : List NodeBlocks) :
    blocks { s with queue := Function.update s.queue ch queue } =
      (queue.map NodeBlocks.blocks).sum + (s.reader ch).blocks + s.beside ch := by
  have eq := blocks_update s ch queue (s.reader ch)
  rwa [Function.update_eq_self] at eq

theorem blocks_reader (s : ResponseMemory) (ch : Channel) (holds : ReaderHolds) :
    blocks (s.setReader ch holds) =
      ((s.queue ch).map NodeBlocks.blocks).sum + holds.blocks + s.beside ch := by
  have eq := blocks_update s ch (s.queue ch) holds
  rwa [Function.update_eq_self] at eq

theorem reads_triple (nodes others : List NodeBlocks) (mem : ∀ node ∈ nodes, node ∈ others) :
    Triple (others.map NodeBlocks.blocks).sum (nodes.forM fun node => access (some node.block))
      fun _ => (others.map NodeBlocks.blocks).sum := by
  refine Triple.forM_keep fun n here => ?_
  obtain ⟨front, back, eq⟩ := List.append_of_mem (mem n here)
  have blocks : (others.map NodeBlocks.blocks).sum = {n.block} + (arrayBlocks n.data +
      ((front.map NodeBlocks.blocks).sum + (back.map NodeBlocks.blocks).sum)) := by
    rw [eq, List.map_append, List.sum_append, List.map_cons, List.sum_cons, NodeBlocks.blocks]
    abel
  rw [blocks]
  exact (Triple.access n.block).frame _

theorem removes_triple (nodes : List NodeBlocks) :
    Triple (nodes.map NodeBlocks.blocks).sum (nodes.forM removeNode) fun _ => 0 :=
  (Triple.forM (K := 0) fun node _ => (removeNode_triple node).of_eq (add_zero _) rfl).of_eq
    (add_zero _).symm rfl

theorem lost_eq (s : ResponseMemory) (left : Multiset Nat) :
    blocks { s with lost := s.lost + left } = left + s.blocks := by
  simp only [blocks, channel]
  abel

/-- The state that `enqueue` is given does not own the node yet. -/
theorem enqueue_triple (s : ResponseMemory) (ch : Channel) (node : Option NodeBlocks) :
    Triple (s.blocks + nodeBlocks node) (s.enqueue ch node) blocks := by
  cases node with
  | none => exact Triple.pure (add_zero _)
  | some node =>
      rw [enqueue, nodeBlocks_some]
      split
      · exact Triple.pure (by rw [lost_eq, add_comm])
      · refine Triple.call (reads_triple (s.queue ch) (s.queue ch) fun _ => id)
          (R := (s.reader ch).blocks + s.beside ch + node.blocks) ?_ (Triple.pure ?_)
        · rw [blocks_channel s ch, channel]
          abel
        · rw [blocks_queue, List.map_append, List.sum_append, List.map_cons, List.map_nil,
            List.sum_cons, List.sum_nil, add_zero]
          abel

theorem createNode_ne_none_iff (head : NodeHead) {data : Option CharArray}
    {results : NodeMallocs} :
    (createNode head data results).value ≠ none ↔ Makes data results := by
  cases node : results.node with
  | none => simp [createNode, Makes, node]
  | some node =>
      cases data with
      | none => simp [createNode, Makes, node]
      | some data => cases array : results.array <;> simp [createNode, Makes, node, array]

theorem newNode_triple {head : NodeHead} (data : Option CharArray) {results : NodeMallocs}
    (makes : Makes data results) :
    Triple (arrayBlocks data) (newNode head data results)
      fun node => arrayBlocks data + nodeBlocks node := by
  refine Triple.bind (createNode_triple data) ?_
  obtain ⟨node, made⟩ :=
    Option.ne_none_iff_exists'.mp ((createNode_ne_none_iff head).mpr makes)
  rw [made]
  exact Triple.pure rfl

theorem newNode_faults (head : NodeHead) {data : Option CharArray} {results : NodeMallocs}
    (fails : ¬ Makes data results) : Faults (arrayBlocks data) (newNode head data results) := by
  refine Faults.call (R := 0) (createNode_triple data) (add_zero _).symm ?_
  have none : (createNode head data results).value = none := by
    by_contra made
    exact fails ((createNode_ne_none_iff head).mp made)
  rw [none]
  exact Faults.access.bind_left

theorem receiver_eq {receiver : ReceiverHolds} (at_ : s.receiver = receiver) :
    s.blocks = receiver.blocks + blocks { s with receiver := .nothing } := by
  rw [blocks, blocks, at_, channel, channel, channel, channel, ReceiverHolds.blocks]
  abel

theorem receive_triple (at_ : s.receiver = .nothing) (results : Received) :
    Triple s.blocks (do
      let msg ← receiveMessage results
      pure { s with receiver := msg.elim .nothing .message }) blocks := by
  have received : Triple 0 (receiveMessage results) nodeBlocks := by
    refine Triple.bind (Triple.malloc results.buf) ?_
    rw [malloc_value]
    cases results.buf with
    | none => exact Triple.pure rfl
    | some buf =>
        refine Triple.bind (Triple.access buf) ?_
        cases results.msg with
        | none => exact Triple.bind (Triple.free (some buf)) (Triple.pure rfl)
        | some msg =>
            refine Triple.call (unpack_triple msg) (zero_add _).symm ?_
            exact Triple.call (Triple.free (some buf)) (add_comm _ _) (Triple.pure (zero_add _))
  refine Triple.call received (receiver_eq at_) (Triple.pure ?_)
  cases (receiveMessage results).value with
  | none => exact zero_add _
  | some msg => exact (receiver_eq (s := { s with receiver := .message msg }) rfl).symm

theorem logText_triple (has : Logged msg.head → HasString msg.data) :
    Triple (arrayBlocks msg.data) (logText msg) fun _ => arrayBlocks msg.data := by
  unfold logText
  split
  next logged => exact Triple.bind (firstOf_triple (has logged)) (Triple.pure rfl)
  · exact Triple.pure rfl

theorem handleMessage_triple (at_ : s.receiver = .message msg) {results : NodeMallocs}
    (has : Logged msg.head → HasString msg.data)
    (makes : channelOf msg.head ≠ none → Makes msg.data results) :
    Triple s.blocks (s.handleMessage msg results) blocks := by
  have handled : blocks { s with receiver := .handled msg } = s.blocks := by
    rw [receiver_eq at_, receiver_eq (s := { s with receiver := .handled msg }) rfl]
    rfl
  have before : s.blocks = {msg.block} + arrayBlocks msg.data +
      blocks { s with receiver := .nothing } := receiver_eq at_
  refine Triple.call (Triple.access msg.block) (before.trans (add_assoc _ _ _)) ?_
  refine Triple.call (logText_triple has)
    (R := {msg.block} + blocks { s with receiver := .nothing }) (by abel) ?_
  split
  · refine Triple.pure ?_
    rw [handled, before]
    abel
  next ch channel =>
      refine Triple.call (newNode_triple msg.data (makes (by simp [channel])))
        (R := {msg.block} + blocks { s with receiver := .nothing }) rfl ?_
      refine (enqueue_triple { s with receiver := .handled msg } ch _).of_eq ?_ rfl
      rw [handled, before]
      abel

theorem flush_triple (s : ResponseMemory) (refused : Prop) [Decidable refused] :
    Triple s.blocks (s.flush refused) blocks := by
  unfold flush
  split
  · refine Triple.call (removes_triple (s.queue .msg)) (R := (s.reader .msg).blocks +
      s.beside .msg) ?_ (Triple.pure ?_)
    · rw [blocks_channel s .msg, channel, add_assoc]
    · rw [blocks_queue, List.map_nil, List.sum_nil, add_assoc]
  · exact Triple.pure rfl

theorem noticeReconnect_triple {closed : Bool} {results : Noticed}
    (supplied : s.Supplied (.notice closed results)) :
    Triple s.blocks (s.noticeReconnect closed results) blocks := by
  unfold noticeReconnect
  cases closed with
  | false =>
      refine Triple.call (newNode_triple none ⟨supplied, fun other => absurd rfl other⟩)
        (zero_add _).symm ?_
      refine Triple.bind ((enqueue_triple s .msg _).of_eq ?_ rfl) (flush_triple _ _)
      rw [arrayBlocks_none, zero_add, add_comm]
  | true =>
      refine Triple.call (Triple.malloc results.array) (zero_add _).symm ?_
      rw [malloc_value]
      cases is : results.array with
      | none => exact Triple.pure (zero_add _)
      | some array =>
          obtain ⟨block, strings⟩ := supplied (by simp [is])
          refine Triple.call (Triple.malloc results.text) (zero_add _).symm ?_
          rw [malloc_value]
          refine Triple.call (Triple.access array) (R := pointer results.text + s.blocks)
            (by rw [pointer_some]; abel) ?_
          refine Triple.call (newNode_triple (some ⟨array, [results.text]⟩)
            ⟨block, fun _ => strings⟩) (R := s.blocks) ?_ ?_
          · rw [arrayBlocks_some, blocks_one]
            abel
          rw [arrayBlocks_some, blocks_one]
          refine Triple.call (enqueue_triple s .msg _) (R := {array} + pointer results.text)
            (by abel) ?_
          generalize (s.enqueue .msg _).value = next
          refine Triple.call (Triple.free results.text) (R := next.blocks + {array}) (by abel) ?_
          refine Triple.call (Triple.free (some array)) (R := next.blocks) ?_ ?_
          · rw [pointer_some]
            abel
          · exact (flush_triple next _).of_eq (zero_add _) rfl

theorem create_triple (at_ : s.reader ch = .nothing) (status : Option Nat) :
    Triple s.blocks (s.create ch status) blocks := by
  refine Triple.call (Triple.malloc status) (zero_add _).symm ?_
  rw [malloc_value]
  cases status with
  | none => exact Triple.pure (zero_add _)
  | some status =>
      refine Triple.call (Triple.access status) rfl (Triple.pure ?_)
      rw [blocks_reader, blocks_channel s ch, channel, at_]
      simp only [ReaderHolds.blocks]
      abel

theorem setReader_eq (s : ResponseMemory) (ch : Channel) (holds : ReaderHolds) :
    blocks (s.setReader ch holds) = holds.blocks + blocks (s.setReader ch .nothing) := by
  rw [blocks_reader, blocks_reader, ReaderHolds.blocks]
  abel

theorem reader_eq {holds : ReaderHolds} (at_ : s.reader ch = holds) :
    s.blocks = holds.blocks + blocks (s.setReader ch .nothing) := by
  have same : s.setReader ch holds = s := by
    rw [setReader, ← at_, Function.update_eq_self]
  rw [← setReader_eq, same]

theorem held_eq (s : ResponseMemory) (status : StatusBlocks) :
    blocks { s with held := status :: s.held } = status.blocks + s.blocks := by
  simp only [blocks, channel, List.map_cons, List.sum_cons]
  abel

/-- The status is freed whatever the reader has held beside it. -/
theorem giveUp_triple (s : ResponseMemory) (ch : Channel) (status : Nat) :
    Triple ({status} + blocks (s.setReader ch .nothing)) (s.giveUp ch status) blocks := by
  refine Triple.call (freeStatus_triple ⟨status, none⟩) ?_ (Triple.pure (zero_add _))
  rw [StatusBlocks.blocks, arrayBlocks_none, add_zero]

theorem takeNode_triple (at_ : s.reader ch = .waits status) {rest : List NodeBlocks}
    (queue : s.queue ch = node :: rest) :
    Triple s.blocks (s.takeNode ch status node rest) blocks := by
  have before : s.blocks = {node.block} + (arrayBlocks node.data +
      (rest.map NodeBlocks.blocks).sum + {status} + s.beside ch) := by
    rw [blocks_channel s ch, channel, at_, queue, List.map_cons, List.sum_cons, NodeBlocks.blocks]
    simp only [ReaderHolds.blocks]
    abel
  refine Triple.call (Triple.access node.block) before ?_
  refine Triple.call (reads_triple _ rest fun next mem => ?_)
    (R := {node.block} + arrayBlocks node.data + {status} + s.beside ch) (by abel) ?_
  · split at mem
    · exact List.mem_of_mem_take mem
    · cases mem
  split
  · refine (giveUp_triple s ch status).of_eq ?_ rfl
    rw [← show s.blocks = {status} + _ from reader_eq at_, before]
    abel
  · refine Triple.pure ?_
    have eq := blocks_update s ch rest (.taken status node)
    simp only [ReaderHolds.blocks, NodeBlocks.blocks] at eq
    rw [setReader, eq]
    abel

theorem compareNode_triple (at_ : s.reader ch = .taken status node) (results : StatusResults) :
    Triple s.blocks (s.compareNode ch status node results) blocks := by
  have before : s.blocks = {status} + node.blocks + blocks (s.setReader ch .nothing) :=
    reader_eq at_
  rw [before]
  unfold compareNode
  split
  · refine Triple.call (setStatusBlocks_triple status node results) rfl ?_
    cases (setStatusBlocks status node results).value with
    | none =>
        dsimp only
        rw [arrayBlocks_none, add_zero]
        split
        · refine Triple.call (removeNode_triple node)
            (R := {status} + blocks (s.setReader ch .nothing)) (by abel) ?_
          exact (giveUp_triple s ch status).of_eq (zero_add _) rfl
        · refine Triple.call (giveUp_triple s ch status) (R := node.blocks) (by abel) ?_
          exact Triple.call (removeNode_triple node) (add_comm _ _) (Triple.pure (zero_add _))
    | some data =>
        refine Triple.call (removeNode_triple node)
          (R := {status} + data.blocks + blocks (s.setReader ch .nothing)) ?_ (Triple.pure ?_)
        · rw [arrayBlocks_some]
          abel
        · rw [zero_add]
          exact (held_eq (s.setReader ch .nothing) ⟨status, some data⟩).symm
  · refine Triple.call (removeNode_triple node)
      (R := {status} + blocks (s.setReader ch .nothing)) (by abel) (Triple.pure ?_)
    rw [zero_add, setReader_eq s ch (.waits status), ReaderHolds.blocks]

theorem copyNode_triple (s : ResponseMemory) (status : Nat) (node : NodeBlocks)
    (results : StatusResults) :
    Triple ({status} + node.blocks) (s.copyNode status node results)
      fun data => {status} + arrayBlocks data + node.blocks := by
  unfold copyNode
  split
  · exact setStatusBlocks_triple status node results
  · exact Triple.pure (by rw [arrayBlocks_none, add_zero])

theorem strikeNode_triple (s : ResponseMemory) (status : Nat) (node : NodeBlocks)
    (operations : Nat) (results : StatusResults) :
    Triple ({status} + node.blocks) (s.strikeNode status node operations results)
      fun left => left := by
  have copies := copyNode_triple s status node results
  unfold strikeNode
  dsimp only
  split
  · exact copies.struck operations
  · refine Triple.bind copies ?_
    refine Triple.call ((removeNode_triple node).struck _) (add_comm _ _) (Triple.pure ?_)
    exact add_comm _ _

theorem strike_triple (at_ : s.reader .cmd = .taken status node) (operations : Nat)
    (results : StatusResults) :
    Triple s.blocks (do
      let left ← s.strikeNode status node operations results
      pure { s.setReader .cmd .nothing with lost := s.lost + left }) blocks := by
  refine Triple.call (strikeNode_triple s status node operations results) (reader_eq at_)
    (Triple.pure ?_)
  exact (lost_eq (s.setReader .cmd .nothing) _).symm

theorem release_triple {status : StatusBlocks} (mem : status ∈ s.held) :
    Triple s.blocks (do
      freeStatus status
      pure { s with held := s.held.erase status }) blocks := by
  have before : s.blocks = status.blocks + blocks { s with held := s.held.erase status } := by
    have split := ((List.perm_cons_erase mem).map StatusBlocks.blocks).sum_eq
    rw [blocks, blocks, split, List.map_cons, List.sum_cons, channel, channel, channel, channel]
    abel
  exact Triple.call (freeStatus_triple status) before (Triple.pure (zero_add _))

/-- A state in which the client has been prepared or destroyed. -/
theorem blocks_life (s : ResponseMemory) (life : Life) :
    blocks { s with life } = life.blocks + blocks { s with life := .fresh } := by
  rw [blocks, blocks.eq_def { s with life := .fresh }]
  exact congrArg (life.blocks + ·) (zero_add _).symm

theorem life_eq {life : Life} (at_ : s.life = life) :
    s.blocks = life.blocks + blocks { s with life := .fresh } := by
  subst at_
  exact blocks_life s s.life

theorem prepare_triple (fresh : s.life = .fresh) (own : ClientBlocks) :
    Triple s.blocks (s.prepare own) blocks := by
  refine Triple.call (Triple.malloc (some own.client)) (zero_add _).symm ?_
  refine Triple.call (Triple.malloc (some own.monitor)) (zero_add _).symm ?_
  refine Triple.call (Triple.malloc (some own.msgQueue)) (zero_add _).symm ?_
  refine Triple.call (Triple.malloc (some own.cmdQueue)) (zero_add _).symm (Triple.pure ?_)
  have before : s.blocks = blocks { s with life := .fresh } := (life_eq fresh).trans (zero_add _)
  rw [before, blocks_life s (.prepared own), Life.blocks, ClientBlocks.blocks]
  simp only [malloc_value, pointer_some]
  abel

theorem destroy_triple {own : ClientBlocks} (prepared : s.life = .prepared own) :
    Triple s.blocks (s.destroy own) blocks := by
  obtain ⟨left, is⟩ : ∃ left, left = blocks { s with
      life := .destroyed own, queue := fun _ => [] } := ⟨_, rfl⟩
  have before : s.blocks = ((s.queue .msg).map NodeBlocks.blocks).sum +
      ({own.msgQueue} + (((s.queue .cmd).map NodeBlocks.blocks).sum +
        ({own.cmdQueue} + ({own.monitor} + ({own.client} + left))))) := by
    rw [is, blocks, blocks, prepared, Life.blocks, Life.blocks, ClientBlocks.blocks, channel,
      channel, channel, channel, List.map_nil, List.sum_nil]
    abel
  refine Triple.call (removes_triple (s.queue .msg)) before ?_
  refine Triple.call (Triple.free (some own.msgQueue)) (zero_add _) ?_
  refine Triple.call (removes_triple (s.queue .cmd)) (zero_add _) ?_
  refine Triple.call (Triple.free (some own.cmdQueue)) (zero_add _) ?_
  refine Triple.call (Triple.free (some own.monitor)) (zero_add _) ?_
  refine Triple.call (Triple.free (some own.client)) (zero_add _) (Triple.pure ?_)
  rw [zero_add, is]

theorem request_triple (at_ : s.reader .cmd = .nothing) (command : CommandResults)
    (status : Option Nat) :
    Triple s.blocks (do
      let sent ← sendCommandBlocks command
      let next := { s with msgIdx := s.msgIdx + 1 }
      if sent = true then next.create .cmd status else pure next) blocks := by
  refine Triple.call (sendCommandBlocks_triple command) (zero_add _).symm ?_
  rw [zero_add]
  dsimp only
  split
  · exact (create_triple (s := { s with msgIdx := s.msgIdx + 1 }) at_ status).of_eq rfl rfl
  · exact Triple.pure rfl

/-- Each way in which one of the threads, the caller or the alarm can go on. -/
inductive Move (s : ResponseMemory) : Action → Code ResponseMemory → Prop where
  | prepare {own : ClientBlocks} (fresh : s.life = .fresh) : Move s (.prepare own) (s.prepare own)
  | receive {results : Received} (at_ : s.receiver = .nothing) (joinable : s.Receives) :
      Move s (.receive results) (do
        let msg ← receiveMessage results
        pure { s with receiver := msg.elim .nothing .message })
  | handle {msg : NodeBlocks} {results : NodeMallocs} (at_ : s.receiver = .message msg) :
      Move s (.handle results) (s.handleMessage msg results)
  | freeMessage {msg : NodeBlocks} (at_ : s.receiver = .handled msg) :
      Move s .freeMessage (do
        OdroidPlayer.freeMessage msg
        pure { s with receiver := .nothing })
  | notice {closed : Bool} {results : Noticed} (joinable : s.Receives) :
      Move s (.notice closed results) (s.noticeReconnect closed results)
  | request {command : CommandResults} {status : Option Nat} (at_ : s.reader .cmd = .nothing) :
      Move s (.request command status) (do
        let sent ← sendCommandBlocks command
        let next := { s with msgIdx := s.msgIdx + 1 }
        if sent = true then next.create .cmd status else pure next)
  | listen {status : Option Nat} (at_ : s.reader .msg = .nothing) :
      Move s (.listen status) (s.create .msg status)
  | look {ch : Channel} : Move s (.look ch) (pure s)
  | take {ch : Channel} {status : Nat} {node : NodeBlocks} {rest : List NodeBlocks}
      (at_ : s.reader ch = .waits status) (queue : s.queue ch = node :: rest) :
      Move s (.take ch) (s.takeNode ch status node rest)
  | compare {ch : Channel} {status : Nat} {node : NodeBlocks} {results : StatusResults}
      (at_ : s.reader ch = .taken status node) :
      Move s (.compare ch results) (s.compareNode ch status node results)
  | stop {ch : Channel} {status : Nat} (at_ : s.reader ch = .waits status) :
      Move s (.stop ch) (s.giveUp ch status)
  | strikeWaiting {status operations : Nat} {results : StatusResults}
      (at_ : s.reader .cmd = .waits status) :
      Move s (.strike operations results)
        (pure { s.setReader .cmd .nothing with lost := s.lost + {status} })
  | strikeTaken {status operations : Nat} {node : NodeBlocks} {results : StatusResults}
      (at_ : s.reader .cmd = .taken status node) :
      Move s (.strike operations results) (do
        let left ← s.strikeNode status node operations results
        pure { s.setReader .cmd .nothing with lost := s.lost + left })
  | release {status : StatusBlocks} (mem : status ∈ s.held) :
      Move s (.release status) (do
        freeStatus status
        pure { s with held := s.held.erase status })
  | destroy {own : ClientBlocks} (prepared : s.life = .prepared own)
      (receiver : s.receiver = .nothing) : Move s .destroy (s.destroy own)

theorem calls_move (calls : s.calls a = some c) : s.Move a c := by
  cases a with
  | prepare own =>
      obtain ⟨fresh, eq⟩ := Option.ite_none_right_eq_some.mp calls
      cases eq
      exact .prepare fresh
  | receive results =>
      obtain ⟨⟨at_, joinable⟩, eq⟩ := Option.ite_none_right_eq_some.mp calls
      cases eq
      exact .receive at_ joinable
  | notice closed results =>
      obtain ⟨⟨-, joinable⟩, eq⟩ := Option.ite_none_right_eq_some.mp calls
      cases eq
      exact .notice joinable
  | request command status =>
      obtain ⟨⟨at_, -⟩, eq⟩ := Option.ite_none_right_eq_some.mp calls
      cases eq
      exact .request at_
  | listen status =>
      obtain ⟨⟨at_, -⟩, eq⟩ := Option.ite_none_right_eq_some.mp calls
      cases eq
      exact .listen at_
  | look ch =>
      simp only [ResponseMemory.calls] at calls
      split at calls
      · cases calls
        exact .look
      · cases calls
  | take ch =>
      simp only [ResponseMemory.calls] at calls
      split at calls
      next status node rest at_ queue =>
          cases calls
          exact .take at_ queue
      · cases calls
  | strike operations results =>
      simp only [ResponseMemory.calls] at calls
      split at calls
      next status at_ =>
          cases calls
          exact .strikeWaiting at_
      next status node at_ =>
          cases calls
          exact .strikeTaken at_
      · cases calls
  | release status =>
      obtain ⟨mem, eq⟩ := Option.ite_none_right_eq_some.mp calls
      cases eq
      exact .release mem
  | destroy =>
      simp only [ResponseMemory.calls] at calls
      split at calls
      next own prepared =>
          obtain ⟨⟨receiver, -⟩, eq⟩ := Option.ite_none_right_eq_some.mp calls
          cases eq
          exact .destroy prepared receiver
      · cases calls
      · cases calls
  | handle | freeMessage | compare | stop =>
      simp only [ResponseMemory.calls] at calls
      split at calls
      next at_ =>
          cases calls
          constructor
          exact at_
      · cases calls

theorem step_calls (step : s.step a = some c) :
    ∃ c', s.calls a = some c' ∧ c = (do touch (s.touched a); c') ∧ c.value = c'.value := by
  obtain ⟨c', calls, rfl⟩ := Option.map_eq_some_iff.mp step
  exact ⟨c', calls, rfl, rfl⟩

/-- A step that finds what it needs, given the blocks of the state, leaves those of the next one. -/
theorem calls_triple (calls : s.calls a = some c) (supplied : s.Supplied a) :
    Triple s.blocks c blocks := by
  cases calls_move calls with
  | prepare fresh => exact prepare_triple fresh _
  | receive at_ => exact receive_triple at_ _
  | handle at_ =>
      obtain ⟨has, makes⟩ := supplied _ at_
      exact handleMessage_triple at_ has makes
  | freeMessage at_ =>
      exact Triple.call (freeMessage_triple _) (receiver_eq at_) (Triple.pure (zero_add _))
  | notice => exact noticeReconnect_triple supplied
  | look => exact Triple.pure rfl
  | request at_ => exact request_triple at_ _ _
  | listen at_ => exact create_triple at_ _
  | take at_ queue => exact takeNode_triple at_ queue
  | compare at_ => exact compareNode_triple at_ _
  | stop at_ => exact (giveUp_triple s _ _).of_eq (reader_eq at_) rfl
  | strikeWaiting at_ =>
      exact Triple.pure ((reader_eq at_).trans (lost_eq (s.setReader .cmd .nothing) _).symm)
  | strikeTaken at_ => exact strike_triple at_ _ _
  | release mem => exact release_triple mem
  | destroy prepared => exact destroy_triple prepared

theorem handleMessage_faults (at_ : s.receiver = .message msg) {results : NodeMallocs}
    (lacks : ¬ ((Logged msg.head → HasString msg.data) ∧
      (channelOf msg.head ≠ none → Makes msg.data results))) :
    Faults s.blocks (s.handleMessage msg results) := by
  have before : s.blocks = {msg.block} + (arrayBlocks msg.data +
      blocks { s with receiver := .nothing }) := by
    rw [← add_assoc]
    exact receiver_eq at_
  refine Faults.call (Triple.access msg.block) before ?_
  by_cases has : Logged msg.head → HasString msg.data
  · obtain ⟨needs, fails⟩ : channelOf msg.head ≠ none ∧ ¬ Makes msg.data results := by
      by_contra other
      exact lacks ⟨has, fun needs => by_contra fun fails => other ⟨needs, fails⟩⟩
    refine Faults.call (logText_triple has)
      (R := {msg.block} + blocks { s with receiver := .nothing }) (by abel) ?_
    obtain ⟨ch, channel⟩ := Option.ne_none_iff_exists'.mp needs
    rw [channel]
    exact ((newNode_faults msg.head fails).frame _).bind_left
  · rw [Classical.not_imp] at has
    refine Faults.bind_left ?_
    rw [logText, if_pos has.1]
    exact (firstOf_faults _ has.2).bind_left

theorem noticeReconnect_faults {closed : Bool} {results : Noticed}
    (lacks : ¬ s.Supplied (.notice closed results)) :
    Faults s.blocks (s.noticeReconnect closed results) := by
  unfold noticeReconnect
  cases closed with
  | false =>
      have fails : ¬ Makes none results.node := fun makes => lacks makes.1
      refine Faults.bind_left ?_
      have faults := (newNode_faults ⟨Status.reconnt.value, CmdType.notify.value,
        Cmd.none.value, -1⟩ fails).frame s.blocks
      rwa [arrayBlocks_none, zero_add] at faults
  | true =>
      obtain ⟨alloc, fails⟩ := Classical.not_imp.mp lacks
      obtain ⟨array, is⟩ := Option.ne_none_iff_exists'.mp alloc
      rw [is]
      refine Faults.call (Triple.malloc (some array)) (zero_add _).symm ?_
      refine Faults.call (Triple.malloc results.text) (zero_add _).symm ?_
      refine Faults.call (Triple.access array) (R := pointer results.text + s.blocks)
        (by rw [malloc_value, malloc_value, pointer_some]; abel) (Faults.bind_left ?_)
      have makes : ¬ Makes (some ⟨array, [results.text]⟩) results.node :=
        fun makes => fails ⟨makes.1, makes.2 (by simp)⟩
      have faults := (newNode_faults ⟨Status.eserver.value, CmdType.notify.value,
        Cmd.none.value, -1⟩ makes).frame s.blocks
      rw [arrayBlocks_some, blocks_one, add_assoc] at faults
      exact faults

theorem calls_faults (calls : s.calls a = some c) (lacks : ¬ s.Supplied a) :
    Faults s.blocks c := by
  cases calls_move calls with
  | handle at_ =>
      refine handleMessage_faults at_ fun supplied => lacks ?_
      simpa [Supplied, at_] using supplied
  | notice => exact noticeReconnect_faults lacks
  | prepare | receive | freeMessage | request | listen | look | take | compare | stop
  | strikeWaiting | strikeTaken | release | destroy => exact absurd trivial lacks

theorem step_triple (step : s.step a = some c) (finds : s.Finds a) : Triple s.blocks c blocks := by
  obtain ⟨c', calls, rfl, -⟩ := step_calls step
  exact Triple.bind (touch_triple finds.1) (calls_triple calls finds.2)

/-- A step that does not find what it needs. -/
theorem step_faults (step : s.step a = some c) (lacks : ¬ s.Finds a) : FaultsAt s.blocks c := by
  obtain ⟨c', calls, rfl, -⟩ := step_calls step
  by_cases there : ∀ b ∈ s.touched a, b ∈ s.blocks
  · have faults := calls_faults calls fun supplied => lacks ⟨there, supplied⟩
    refine FaultsAt.call (R := 0) (touch_triple there) (add_zero _).symm ?_
    rw [add_zero]
    exact faults.at
  · rw [not_forall] at there
    obtain ⟨b, there⟩ := there
    obtain ⟨touched, gone⟩ := Classical.not_imp.mp there
    exact (touch_faults touched gone).bind_left

/-! What is left behind -/

/-- No node is refused, and no alarm strikes. -/
def Keeps (s : ResponseMemory) : Action → Prop
  | .handle _ => ∀ msg ch, s.receiver = .message msg → channelOf msg.head = some ch → ¬ s.Full ch
  | .notice closed results => (closed = true → results.array ≠ none) → ¬ s.Full .msg
  | .strike _ _ => False
  | _ => True

/-- `t` has lost the blocks `left` more, and the client has not been destroyed in between. -/
def Loses (s : ResponseMemory) (left : Multiset Nat) (t : ResponseMemory) : Prop :=
  t.lost = s.lost + left ∧ t.life = s.life

theorem Loses.none {t : ResponseMemory} (lost : t.lost = s.lost) (life : t.life = s.life) :
    s.Loses 0 t :=
  ⟨by rw [lost, add_zero], life⟩

theorem create_loses (s : ResponseMemory) (ch : Channel) (status : Option Nat) :
    s.Loses 0 (s.create ch status).value := by
  cases status <;> exact .none rfl rfl

theorem flush_loses {t : ResponseMemory} {left : Multiset Nat} (loses : s.Loses left t)
    (refused : Prop) [Decidable refused] : s.Loses left (t.flush refused).value := by
  unfold flush
  split <;> exact loses

theorem takeNode_loses (s : ResponseMemory) (ch : Channel) (status : Nat)
    (node : NodeBlocks) (rest : List NodeBlocks) :
    s.Loses 0 (s.takeNode ch status node rest).value := by
  simp only [takeNode, bind_value]
  split <;> exact .none rfl rfl

theorem compareNode_loses (s : ResponseMemory) (ch : Channel) (status : Nat)
    (node : NodeBlocks) (results : StatusResults) :
    s.Loses 0 (s.compareNode ch status node results).value := by
  unfold compareNode
  split
  · simp only [bind_value]
    split
    · split <;> exact .none rfl rfl
    · exact .none rfl rfl
  · exact .none rfl rfl

/-- A node is lost exactly when it is refused. -/
theorem enqueue_loses (s : ResponseMemory) (ch : Channel) (node : NodeBlocks) :
    ∃ left, s.Loses left (s.enqueue ch (some node)).value ∧ (left = 0 ↔ ¬ s.Full ch) := by
  simp only [enqueue]
  split
  next full => exact ⟨node.blocks, ⟨rfl, rfl⟩, by simp [NodeBlocks.blocks, full]⟩
  next room => exact ⟨0, .none rfl rfl, by simp [room]⟩

theorem newNode_value (head : NodeHead) (data : Option CharArray) {results : NodeMallocs}
    (makes : Makes data results) : ∃ node, (newNode head data results).value = some node := by
  obtain ⟨node, made⟩ :=
    Option.ne_none_iff_exists'.mp ((createNode_ne_none_iff head).mpr makes)
  exact ⟨node, by simp [newNode, made]⟩

theorem copyNode_noFree (s : ResponseMemory) (status : Nat) (node : NodeBlocks)
    (results : StatusResults) (p : Option Nat) :
    .free p ∉ (s.copyNode status node results).ops := by
  unfold copyNode setStatusBlocks
  split
  · cases array : results.array with
    | none => simp [access, malloc]
    | some array' => cases node.data <;> simp [access, malloc, copyData, copyStrings_noFree]
  · simp

/-- A request that is struck loses its status. -/
theorem strikeNode_ne_zero (s : ResponseMemory) (status : Nat) (node : NodeBlocks)
    (operations : Nat) (results : StatusResults) :
    (s.strikeNode status node operations results).value ≠ 0 := by
  unfold strikeNode
  dsimp only
  split
  · intro none
    have le := le_struck ({status} + node.blocks)
      (copyNode_noFree s status node results) operations
    exact absurd (Multiset.le_zero.mp (none ▸ le)) (by simp)
  · simp

theorem handleMessage_loses (at_ : s.receiver = .message msg) {results : NodeMallocs}
    (supplied : s.Supplied (.handle results)) :
    ∃ left, s.Loses left (s.handleMessage msg results).value ∧
      (left = 0 ↔ s.Keeps (.handle results)) := by
  obtain ⟨-, makes⟩ := supplied msg at_
  cases channel : channelOf msg.head with
  | none =>
      refine ⟨0, .none (by simp [handleMessage, channel]) (by simp [handleMessage, channel]),
        iff_of_true rfl fun msg' ch is some => ?_⟩
      cases at_.symm.trans is
      simp [channel] at some
  | some ch =>
      obtain ⟨node, made⟩ := newNode_value msg.head msg.data (makes (by simp [channel]))
      obtain ⟨left, loses, full⟩ := enqueue_loses { s with receiver := .handled msg } ch node
      have value : (s.handleMessage msg results).value =
          (enqueue { s with receiver := .handled msg } ch (some node)).value := by
        simp [handleMessage, channel, made]
      refine ⟨left, value ▸ loses,
        full.trans ⟨fun room msg' ch' is some => ?_, fun keeps => keeps msg ch at_ channel⟩⟩
      cases at_.symm.trans is
      cases channel.symm.trans some
      exact room

theorem noticeReconnect_loses {closed : Bool} {results : Noticed}
    (supplied : s.Supplied (.notice closed results)) :
    ∃ left, s.Loses left (s.noticeReconnect closed results).value ∧
      (left = 0 ↔ s.Keeps (.notice closed results)) := by
  unfold noticeReconnect
  cases closed with
  | false =>
      obtain ⟨node, made⟩ := newNode_value ⟨Status.reconnt.value, CmdType.notify.value,
        Cmd.none.value, -1⟩ none ⟨supplied, fun other => absurd rfl other⟩
      obtain ⟨left, loses, full⟩ := enqueue_loses s .msg node
      refine ⟨left, ?_, by simpa [Keeps] using full⟩
      simpa [made] using flush_loses loses _
  | true =>
      cases is : results.array with
      | none => exact ⟨0, .none (by simp) (by simp), by simp [Keeps, is]⟩
      | some array =>
          obtain ⟨block, strings⟩ := supplied (by simp [is])
          obtain ⟨node, made⟩ := newNode_value ⟨Status.eserver.value,
            CmdType.notify.value, Cmd.none.value, -1⟩ (some ⟨array, [results.text]⟩)
            ⟨block, fun _ => strings⟩
          obtain ⟨left, loses, full⟩ := enqueue_loses s .msg node
          refine ⟨left, ?_, by simpa [Keeps, is] using full⟩
          simpa [made] using flush_loses loses _

theorem request_loses (s : ResponseMemory) (command : CommandResults) (status : Option Nat) :
    s.Loses 0 (Code.value do
      let sent ← sendCommandBlocks command
      let next := { s with msgIdx := s.msgIdx + 1 }
      if sent = true then next.create .cmd status else pure next) := by
  simp only [bind_value]
  split
  · exact create_loses { s with msgIdx := s.msgIdx + 1 } .cmd status
  · exact .none rfl rfl

/-- A step loses something exactly when it keeps nothing. -/
theorem calls_loses (calls : s.calls a = some c) (supplied : s.Supplied a) :
    ∃ left, c.value.lost = s.lost + left ∧ (left = 0 ↔ s.Keeps a) := by
  cases calls_move calls with
  | handle at_ =>
      obtain ⟨left, loses, keeps⟩ := handleMessage_loses at_ supplied
      exact ⟨left, loses.1, keeps⟩
  | notice =>
      obtain ⟨left, loses, keeps⟩ := noticeReconnect_loses supplied
      exact ⟨left, loses.1, keeps⟩
  | request => exact ⟨0, (request_loses s _ _).1, iff_of_true rfl trivial⟩
  | listen => exact ⟨0, (create_loses s _ _).1, iff_of_true rfl trivial⟩
  | take => exact ⟨0, (takeNode_loses ..).1, iff_of_true rfl trivial⟩
  | compare => exact ⟨0, (compareNode_loses ..).1, iff_of_true rfl trivial⟩
  | strikeWaiting => exact ⟨_, rfl, iff_of_false (Multiset.singleton_ne_zero _) id⟩
  | strikeTaken => exact ⟨_, rfl, iff_of_false (strikeNode_ne_zero s _ _ _ _) id⟩
  | prepare | receive | freeMessage | look | stop | release | destroy =>
      exact ⟨0, (add_zero _).symm, iff_of_true rfl trivial⟩

def Destroyed (s : ResponseMemory) : Prop := ∃ own, s.life = .destroyed own

/-- The receiver thread has ended and nothing is left in the queues behind `opc_destroy`. -/
def Inv (s : ResponseMemory) : Prop :=
  s.Destroyed → s.receiver = .nothing ∧ ∀ ch, s.queue ch = []

/-- A step of a reader that leaves the queues as they are. -/
def Aside (s t : ResponseMemory) : Prop :=
  t.life = s.life ∧ t.receiver = s.receiver ∧ t.queue = s.queue

theorem Aside.inv {t : ResponseMemory} (aside : s.Aside t) (inv : Inv s) : Inv t := by
  obtain ⟨life, receiver, queue⟩ := aside
  rintro ⟨own, destroyed⟩
  rw [receiver, queue]
  exact inv ⟨own, life ▸ destroyed⟩

theorem create_aside (s : ResponseMemory) (ch : Channel) (status : Option Nat) :
    s.Aside (s.create ch status).value := by
  cases status <;> exact ⟨rfl, rfl, rfl⟩

theorem compareNode_aside (s : ResponseMemory) (ch : Channel) (status : Nat)
    (node : NodeBlocks) (results : StatusResults) :
    s.Aside (s.compareNode ch status node results).value := by
  unfold compareNode
  split
  · simp only [bind_value]
    split
    · split <;> exact ⟨rfl, rfl, rfl⟩
    · exact ⟨rfl, rfl, rfl⟩
  · exact ⟨rfl, rfl, rfl⟩

theorem request_aside (s : ResponseMemory) (command : CommandResults) (status : Option Nat) :
    s.Aside (Code.value do
      let sent ← sendCommandBlocks command
      let next := { s with msgIdx := s.msgIdx + 1 }
      if sent = true then next.create .cmd status else pure next) := by
  simp only [bind_value]
  split
  · exact create_aside { s with msgIdx := s.msgIdx + 1 } .cmd status
  · exact ⟨rfl, rfl, rfl⟩

theorem not_destroyed (receives : s.Receives) {t : ResponseMemory} (life : t.life = s.life) :
    ¬ t.Destroyed := by
  obtain ⟨own, prepared⟩ := receives
  rintro ⟨own', destroyed⟩
  rw [life, prepared] at destroyed
  cases destroyed

theorem calls_inv (inv : Inv s) (calls : s.calls a = some c) (supplied : s.Supplied a) :
    Inv c.value := by
  cases calls_move calls with
  | prepare =>
      rintro ⟨own, ⟨⟩⟩
  | receive at_ receives => exact fun destroyed => absurd destroyed (not_destroyed receives rfl)
  | notice receives =>
      obtain ⟨left, loses, -⟩ := noticeReconnect_loses supplied
      exact fun destroyed => absurd destroyed (not_destroyed receives loses.2)
  | handle at_ =>
      obtain ⟨left, ⟨-, life⟩, -⟩ := handleMessage_loses at_ supplied
      rintro ⟨own, destroyed⟩
      have ended := (inv ⟨own, life ▸ destroyed⟩).1
      rw [at_] at ended
      cases ended
  | freeMessage => exact fun destroyed => ⟨rfl, (inv destroyed).2⟩
  | request => exact (request_aside s _ _).inv inv
  | listen => exact (create_aside s _ _).inv inv
  | look => exact inv
  | @take ch status node rest at_ queue =>
      rintro ⟨own, destroyed⟩
      have empty := (inv ⟨own, (takeNode_loses s ch status node rest).2 ▸ destroyed⟩).2 ch
      rw [queue] at empty
      cases empty
  | compare => exact (compareNode_aside s _ _ _ _).inv inv
  | stop | strikeWaiting | strikeTaken | release =>
      exact Aside.inv ⟨rfl, rfl, rfl⟩ inv
  | destroy prepared receiver => exact fun _ => ⟨receiver, fun _ => rfl⟩

theorem sound : program.Sound Finds Inv where
  keeps _ _ _ inv step finds := by
    obtain ⟨c', calls, -, value⟩ := step_calls step
    exact ⟨step_triple step finds, value ▸ calls_inv inv calls finds.2⟩
  faults _ _ _ _ step lacks := step_faults step lacks

theorem loses : program.Loses Finds Keeps Inv lost := by
  intro s a c inv step finds
  obtain ⟨c', calls, -, value⟩ := step_calls step
  rw [value]
  exact calls_loses calls finds.2

end Steps

/-- The listener is in `dequeue` when the client is destroyed, and goes on. -/
def destroyedUnder : List Action :=
  [.prepare ⟨20, 21, 22, 23⟩, .listen (some 24), .look .msg, .destroy, .stop .msg]

theorem destroyedUnder_faults : ∃ t log,
    program.machine.exec init destroyedUnder = some (t, log) ∧ t.faulted = true :=
  ⟨_, _, rfl, rfl⟩

end ResponseMemory

end OdroidPlayer
