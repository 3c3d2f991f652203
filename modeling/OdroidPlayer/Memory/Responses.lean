import OdroidPlayer.Memory.Handling

/-!
What the client library allocates and frees: `send_command`, `set_status`, `handle_message`,
`notice_reconnect`, `get_command_response`, `get_message_response` and `opc_free_status`.

The receiver thread makes nodes of the messages and of its notices and enqueues them; a
request and a listener in `opc_recv_amsg` take them off the queues and copy them to a status,
which the caller frees. `opc_destroy` joins the receiver thread and removes what is left, the
client, its queues and its monitor with it; it does not wait for a listener. A full queue
refuses a node, and the alarm of a request makes it return at once.

One thread makes the requests and destroys the client behind them, as in the program that
comes with the library.
-/

namespace OdroidPlayer

open Blocks Transition Transition.System

/-- An `OP_STATUS`. -/
structure StatusBlocks where
  block : Nat
  data : Option CharArray
  deriving DecidableEq, Repr

def StatusBlocks.blocks (status : StatusBlocks) : Multiset Nat :=
  {status.block} + arrayBlocks status.data

/-- The results of the calls of `malloc` in `set_status`. -/
structure StatusResults where
  array : Option Nat
  strings : List (Option Nat)
  deriving DecidableEq, Repr

/-- The strings of a node are copied to `target`. -/
def copyData (target : Nat) (results : List (Option Nat)) :
    Option CharArray → Code (List (Option Nat))
  | none => pure []
  | some data => copyStrings data.array target data.strings results

/-- `set_status`; `none` where it returns false. -/
def setStatusBlocks (status : Nat) (node : NodeBlocks) (results : StatusResults) :
    Code (Option CharArray) := do
  access (some node.block)
  access (some status)
  match ← malloc results.array with
  | none => pure none
  | some array =>
      let strings ← copyData array results.strings node.data
      pure (some ⟨array, strings⟩)

/-- `opc_free_status` -/
def freeStatus (status : StatusBlocks) : Code Unit := do
  access (some status.block)
  match status.data with
  | none => pure ()
  | some data => freeData data
  free (some status.block)

/-- The results of the calls in `send_command`. -/
structure CommandResults where
  array : Option Nat
  text : Option Nat
  buf : Option Nat
  sent : Bool
  deriving DecidableEq, Repr

/-- `send_command` -/
def sendCommandBlocks (results : CommandResults) : Code Bool := do
  match ← malloc results.array with
  | none => pure false
  | some array =>
      let text ← malloc results.text
      access (some array)
      match ← malloc results.buf with
      | none =>
          free text
          free (some array)
          pure false
      | some buf =>
          pack ⟨array, [text]⟩ buf
          free text
          free (some array)
          access (some buf)
          free (some buf)
          pure results.sent

/-- The two queues of a client, and who takes nodes off them: the requests and
`opc_recv_amsg`. -/
inductive Channel where
  | cmd | msg
  deriving DecidableEq, Repr

inductive ReceiverHolds where
  | nothing
  | message (msg : NodeBlocks)
  | handled (msg : NodeBlocks)
  deriving DecidableEq, Repr

inductive ReaderHolds where
  | nothing
  | waits (status : Nat)
  | taken (status : Nat) (node : NodeBlocks)
  deriving DecidableEq, Repr

def ReceiverHolds.blocks : ReceiverHolds → Multiset Nat
  | .nothing => 0
  | .message msg | .handled msg => msg.blocks

def ReaderHolds.blocks : ReaderHolds → Multiset Nat
  | .nothing => 0
  | .waits status => {status}
  | .taken status node => {status} + node.blocks

/-- What `opc_init` and `opc_prepare` allocate. -/
structure ClientBlocks where
  client : Nat
  monitor : Nat
  msgQueue : Nat
  cmdQueue : Nat
  deriving DecidableEq, Repr

def ClientBlocks.list (own : ClientBlocks) : List Nat :=
  [own.client, own.monitor, own.msgQueue, own.cmdQueue]

def ClientBlocks.blocks (own : ClientBlocks) : Multiset Nat :=
  {own.client} + ({own.monitor} + ({own.msgQueue} + {own.cmdQueue}))

inductive Life where
  | fresh
  | prepared (own : ClientBlocks)
  /-- Threads may still have the pointers. -/
  | destroyed (own : ClientBlocks)
  deriving DecidableEq, Repr

def Life.blocks : Life → Multiset Nat
  | .prepared own => own.blocks
  | .fresh | .destroyed _ => 0

structure ResponseMemory where
  life : Life
  receiver : ReceiverHolds
  queue : Channel → List NodeBlocks
  reader : Channel → ReaderHolds
  msgIdx : Int32
  /-- what the caller has been given -/
  held : List StatusBlocks
  /-- what nobody has a pointer to any more -/
  lost : Multiset Nat

namespace ResponseMemory

def start : ResponseMemory := ⟨.fresh, .nothing, fun _ => [], fun _ => .nothing, 0, [], 0⟩

/-- The nodes of a queue, and what is taken off it. -/
def channel (s : ResponseMemory) (ch : Channel) : Multiset Nat :=
  ((s.queue ch).map NodeBlocks.blocks).sum + (s.reader ch).blocks

def blocks (s : ResponseMemory) : Multiset Nat :=
  s.life.blocks + (s.receiver.blocks + (s.channel .cmd + s.channel .msg) +
    (s.held.map StatusBlocks.blocks).sum + s.lost)

/-- The results of the calls in `receive_message`. -/
structure Received where
  buf : Option Nat
  msg : Option NodeBlocks
  deriving DecidableEq, Repr

/-- The results of the calls of `malloc` in `notice_reconnect`. -/
structure Noticed where
  array : Option Nat
  text : Option Nat
  node : NodeMallocs
  deriving DecidableEq, Repr

inductive Action where
  /-- `opc_init` and `opc_prepare` -/
  | prepare (own : ClientBlocks)
  /-- `receive_message` -/
  | receive (results : Received)
  /-- `handle_message` -/
  | handle (results : NodeMallocs)
  | freeMessage
  /-- `notice_reconnect` -/
  | notice (closed : Bool) (results : Noticed)
  /-- `send_command`, and `opc_create_status` behind it -/
  | request (command : CommandResults) (status : Option Nat)
  /-- `opc_create_status` in `opc_recv_amsg` -/
  | listen (status : Option Nat)
  /-- The queue is empty, and the reader waits. -/
  | look (ch : Channel)
  /-- `dequeue_conditional` or `dequeue` -/
  | take (ch : Channel)
  /-- `set_status` and `remove_node` -/
  | compare (ch : Channel) (results : StatusResults)
  /-- The client is stopped. -/
  | stop (ch : Channel)
  /-- SIGALRM strikes the request behind so many operations of `set_status` and `remove_node`. -/
  | strike (operations : Nat) (results : StatusResults)
  /-- The caller calls `opc_free_status`. -/
  | release (status : StatusBlocks)
  | destroy

def prepare (s : ResponseMemory) (own : ClientBlocks) : Code ResponseMemory := do
  let _ ← malloc (some own.client)
  let _ ← malloc (some own.monitor)
  let _ ← malloc (some own.msgQueue)
  let _ ← malloc (some own.cmdQueue)
  pure { s with life := .prepared own }

def receiveMessage (results : Received) : Code (Option NodeBlocks) := do
  match ← malloc results.buf with
  | none => pure none
  | some buf =>
      access (some buf)
      match results.msg with
      | none =>
          free (some buf)
          pure none
      | some msg =>
          unpack msg
          free (some buf)
          pure (some msg)

/-- `create_node`, of which `enqueue` asserts that it has not failed. -/
def newNode (head : NodeHead) (data : Option CharArray) (results : NodeMallocs) :
    Code (Option NodeBlocks) := do
  match ← createNode head data results with
  | none =>
      access none
      pure none
  | some node => pure (some node)

/-- The queue refuses a node. -/
def Full (s : ResponseMemory) (ch : Channel) : Prop := queueSize < (s.queue ch).length

instance (s : ResponseMemory) (ch : Channel) : Decidable (s.Full ch) :=
  inferInstanceAs (Decidable (_ < _))

/-- `enqueue`, whose caller has no further use for the node. -/
def enqueue (s : ResponseMemory) (ch : Channel) : Option NodeBlocks → Code ResponseMemory
  | none => pure s
  | some node =>
      if s.Full ch then pure { s with lost := s.lost + node.blocks }
      else do
        (s.queue ch).forM fun node => access (some node.block)
        pure { s with queue := Function.update s.queue ch (s.queue ch ++ [node]) }

/-- The queue of a message, where it is enqueued at all. -/
def channelOf (head : NodeHead) : Option Channel :=
  if head.type = CmdType.command.value ∨ head.type = CmdType.stream.value then some .cmd
  else if head.type = CmdType.notify.value ∨ head.type = CmdType.brdcast.value then
    if head.status = Status.toomany.value then none else some .msg
  else none

/-- An error of the server is logged with its text. -/
def Logged (head : NodeHead) : Prop :=
  channelOf head = some .msg ∧ head.status = Status.eserver.value

instance (head : NodeHead) : Decidable (Logged head) := inferInstanceAs (Decidable (_ ∧ _))

def logText (msg : NodeBlocks) : Code Unit :=
  if Logged msg.head then do
    let _ ← firstOf msg.data
    pure ()
  else pure ()

/-- `handle_message` -/
def handleMessage (s : ResponseMemory) (msg : NodeBlocks) (results : NodeMallocs) :
    Code ResponseMemory := do
  access (some msg.block)
  logText msg
  match channelOf msg.head with
  | none => pure { s with receiver := .handled msg }
  | some ch =>
      let node ← newNode msg.head msg.data results
      enqueue { s with receiver := .handled msg } ch node

/-- `flush_queue`, behind a notice that has been refused. -/
def flush (s : ResponseMemory) (refused : Prop) [Decidable refused] : Code ResponseMemory :=
  if refused then do
    (s.queue .msg).forM removeNode
    pure { s with queue := Function.update s.queue .msg [] }
  else pure s

/-- `notice_reconnect` -/
def noticeReconnect (s : ResponseMemory) (closed : Bool) (results : Noticed) :
    Code ResponseMemory :=
  if closed = true then do
    match ← malloc results.array with
    | none => pure s
    | some array =>
        let text ← malloc results.text
        access (some array)
        let node ← newNode ⟨Status.eserver.value, CmdType.notify.value, Cmd.none.value, -1⟩
          (some ⟨array, [text]⟩) results.node
        let next ← s.enqueue .msg node
        free text
        free (some array)
        next.flush (s.Full .msg)
  else do
    let node ← newNode ⟨Status.reconnt.value, CmdType.notify.value, Cmd.none.value, -1⟩ none
      results.node
    let next ← s.enqueue .msg node
    next.flush (s.Full .msg)

def setReader (s : ResponseMemory) (ch : Channel) (holds : ReaderHolds) : ResponseMemory :=
  { s with reader := Function.update s.reader ch holds }

/-- `opc_create_status` -/
def create (s : ResponseMemory) (ch : Channel) (status : Option Nat) : Code ResponseMemory := do
  match ← malloc status with
  | none => pure s
  | some status =>
      access (some status)
      pure (s.setReader ch (.waits status))

/-- The request gives up. -/
def giveUp (s : ResponseMemory) (ch : Channel) (status : Nat) : Code ResponseMemory := do
  freeStatus ⟨status, none⟩
  pure (s.setReader ch .nothing)

/-- The second node of `cmd_queue` has a greater number. -/
def Overtaken (s : ResponseMemory) (ch : Channel) : List NodeBlocks → Prop
  | next :: _ => ch = .cmd ∧ s.msgIdx < next.head.msgIdx
  | [] => False

instance (s : ResponseMemory) (ch : Channel) (nodes : List NodeBlocks) :
    Decidable (s.Overtaken ch nodes) :=
  match nodes with
  | _ :: _ => inferInstanceAs (Decidable (_ ∧ _))
  | [] => inferInstanceAs (Decidable False)

/-- `dequeue_conditional`, which reads the second node, and `dequeue` -/
def takeNode (s : ResponseMemory) (ch : Channel) (status : Nat) (node : NodeBlocks)
    (rest : List NodeBlocks) : Code ResponseMemory := do
  access (some node.block)
  (if ch = .cmd then rest.take 1 else []).forM fun next => access (some next.block)
  if s.Overtaken ch rest then s.giveUp ch status
  else pure ({ s with queue := Function.update s.queue ch rest }.setReader ch (.taken status node))

/-- The node answers the request; every message answers `opc_recv_amsg`. -/
def Matches (s : ResponseMemory) (ch : Channel) (node : NodeBlocks) : Prop :=
  ch = .msg ∨ node.head.msgIdx = s.msgIdx

instance (s : ResponseMemory) (ch : Channel) (node : NodeBlocks) : Decidable (s.Matches ch node) :=
  inferInstanceAs (Decidable (_ ∨ _))

def compareNode (s : ResponseMemory) (ch : Channel) (status : Nat) (node : NodeBlocks)
    (results : StatusResults) : Code ResponseMemory :=
  if s.Matches ch node then do
    match ← setStatusBlocks status node results with
    | none =>
        if ch = .cmd then do
          removeNode node
          s.giveUp ch status
        else do
          let next ← s.giveUp ch status
          removeNode node
          pure next
    | some data =>
        removeNode node
        pure { s.setReader ch .nothing with held := ⟨status, some data⟩ :: s.held }
  else do
    removeNode node
    pure (s.setReader ch (.waits status))

/-- A request copies only the node that answers it. -/
def copyNode (s : ResponseMemory) (status : Nat) (node : NodeBlocks) (results : StatusResults) :
    Code (Option CharArray) :=
  if s.Matches .cmd node then setStatusBlocks status node results else pure none

/-- What a request does with a node before its alarm strikes, and what it leaves. -/
def strikeNode (s : ResponseMemory) (status : Nat) (node : NodeBlocks) (operations : Nat)
    (results : StatusResults) : Code (Multiset Nat) :=
  let copies := s.copyNode status node results
  if operations ≤ copies.ops.length then struck ({status} + node.blocks) copies operations
  else do
    let data ← copies
    let left ← struck node.blocks (removeNode node) (operations - copies.ops.length)
    pure ({status} + arrayBlocks data + left)

/-- `opc_destroy` behind the join of the receiver thread -/
def destroy (s : ResponseMemory) (own : ClientBlocks) : Code ResponseMemory := do
  (s.queue .msg).forM removeNode
  free (some own.msgQueue)
  (s.queue .cmd).forM removeNode
  free (some own.cmdQueue)
  free (some own.monitor)
  free (some own.client)
  pure { s with life := .destroyed own, queue := fun _ => [] }

/-- The receiver thread has not been joined. -/
def Receives (s : ResponseMemory) : Prop := ∃ own, s.life = .prepared own

instance (s : ResponseMemory) : Decidable s.Receives :=
  match life : s.life with
  | .prepared own => .isTrue ⟨own, life⟩
  | .fresh => .isFalse fun ⟨_, is⟩ => by simp [life] at is
  | .destroyed _ => .isFalse fun ⟨_, is⟩ => by simp [life] at is

/-- What a step allocates and frees, and what it does with nodes and statuses. -/
def calls (s : ResponseMemory) : Action → Option (Code ResponseMemory)
  | .prepare own => if s.life = .fresh then some (s.prepare own) else none
  | .receive results =>
      if s.receiver = .nothing ∧ s.Receives then some do
        let msg ← receiveMessage results
        pure { s with receiver := msg.elim .nothing .message }
      else none
  | .handle results =>
      match s.receiver with
      | .message msg => some (s.handleMessage msg results)
      | _ => none
  | .freeMessage =>
      match s.receiver with
      | .handled msg => some do
          OdroidPlayer.freeMessage msg
          pure { s with receiver := .nothing }
      | _ => none
  | .notice closed results =>
      if s.receiver = .nothing ∧ s.Receives then some (s.noticeReconnect closed results)
      else none
  | .request command status =>
      if s.reader .cmd = .nothing ∧ s.life ≠ .fresh then some do
        let sent ← sendCommandBlocks command
        let next := { s with msgIdx := s.msgIdx + 1 }
        if sent = true then next.create .cmd status else pure next
      else none
  | .listen status =>
      if s.reader .msg = .nothing ∧ s.life ≠ .fresh then some (s.create .msg status) else none
  | .look ch =>
      match s.reader ch, s.queue ch with
      | .waits _, [] => some (pure s)
      | _, _ => none
  | .take ch =>
      match s.reader ch, s.queue ch with
      | .waits status, node :: rest => some (s.takeNode ch status node rest)
      | _, _ => none
  | .compare ch results =>
      match s.reader ch with
      | .taken status node => some (s.compareNode ch status node results)
      | _ => none
  | .stop ch =>
      match s.reader ch with
      | .waits status => some (s.giveUp ch status)
      | _ => none
  | .strike operations results =>
      match s.reader .cmd with
      | .waits status =>
          some (pure { s.setReader .cmd .nothing with lost := s.lost + {status} })
      | .taken status node => some do
          let left ← s.strikeNode status node operations results
          pure { s.setReader .cmd .nothing with lost := s.lost + left }
      | .nothing => none
  | .release status =>
      if status ∈ s.held then some do
        freeStatus status
        pure { s with held := s.held.erase status }
      else none
  | .destroy =>
      match s.life with
      | .prepared own =>
          if s.receiver = .nothing ∧ s.reader .cmd = .nothing then some (s.destroy own) else none
      | .fresh | .destroyed _ => none

/-- The blocks of the client that a step reads or writes: a request reads the monitor in its loop
and unlocks the mutex of the client when it returns; a listener works on the queue that it has
got from the client. -/
def Action.touches (own : ClientBlocks) : Action → List Nat
  | .receive _ | .handle _ | .notice .. | .destroy => own.list
  | .request .. => [own.client]
  | .listen status => if status = none then [] else [own.client]
  | .look .cmd | .take .cmd | .stop .cmd => [own.client, own.monitor, own.cmdQueue]
  | .look .msg | .take .msg | .stop .msg => [own.msgQueue]
  | .compare .cmd _ => [own.client]
  | .strike .. => [own.client, own.cmdQueue]
  | .prepare _ | .freeMessage | .compare .msg _ | .release _ => []

def touched (s : ResponseMemory) (a : Action) : List Nat :=
  match s.life with
  | .fresh => []
  | .prepared own | .destroyed own => a.touches own

def step (s : ResponseMemory) (a : Action) : Option (Code ResponseMemory) :=
  (s.calls a).map fun c => do
    touch (s.touched a)
    c

def program : Owner ResponseMemory Action := ⟨step, blocks⟩

def init : Running ResponseMemory := ⟨0, start, false⟩

/-- `create_node` does not fail. -/
def Makes (data : Option CharArray) (results : NodeMallocs) : Prop :=
  results.node ≠ none ∧ (data ≠ none → results.array ≠ none)

/-- The nodes that are needed can be made, and the text of an error is there. -/
def Supplied (s : ResponseMemory) : Action → Prop
  | .handle results => ∀ msg, s.receiver = .message msg →
      (Logged msg.head → HasString msg.data) ∧
        (channelOf msg.head ≠ none → Makes msg.data results)
  | .notice true results =>
      results.array ≠ none → results.node.node ≠ none ∧ results.node.array ≠ none
  | .notice false results => results.node.node ≠ none
  | _ => True

/-- And the client has not been destroyed, unless `malloc` has returned its blocks again. -/
def Finds (s : ResponseMemory) (a : Action) : Prop :=
  (∀ b ∈ s.touched a, b ∈ s.blocks) ∧ s.Supplied a

end ResponseMemory

/-! ### Ownership -/

section Triples

variable {status : Nat} {node : NodeBlocks}

theorem setStatusBlocks_triple (status : Nat) (node : NodeBlocks) (results : StatusResults) :
    Triple ({status} + node.blocks) (setStatusBlocks status node results)
      fun data => {status} + arrayBlocks data + node.blocks := by
  refine Triple.call (Triple.access node.block) (R := {status} + arrayBlocks node.data) ?_ ?_
  · rw [NodeBlocks.blocks]
    abel
  refine Triple.call (Triple.access status) (R := node.blocks) ?_ ?_
  · rw [NodeBlocks.blocks]
    abel
  refine Triple.call (Triple.malloc results.array) (zero_add _).symm ?_
  rw [malloc_value]
  cases results.array with
  | none => exact Triple.pure (by rw [pointer_none, arrayBlocks_none, zero_add, add_zero])
  | some array =>
      have copies : Triple ({array} + arrayBlocks node.data)
          (copyData array results.strings node.data)
          fun strings => {array} + (strings.map pointer).sum + arrayBlocks node.data := by
        cases node.data with
        | none => exact Triple.pure rfl
        | some data =>
            refine (copyStrings_triple data.array array data.strings results.strings).of_eq ?_ ?_
            · rw [arrayBlocks_some, CharArray.blocks]
              abel
            · rw [arrayBlocks_some, CharArray.blocks]
              abel
      refine Triple.call copies (R := {status} + {node.block}) ?_ (Triple.pure ?_)
      · rw [pointer_some, NodeBlocks.blocks]
        abel
      · rw [arrayBlocks_some, CharArray.blocks, NodeBlocks.blocks]
        abel

theorem freeStatus_triple (status : StatusBlocks) :
    Triple status.blocks (freeStatus status) fun _ => 0 := by
  obtain ⟨block, data⟩ := status
  refine Triple.call (Triple.access block) rfl ?_
  cases data with
  | none => exact (Triple.free (some block)).of_eq (add_zero _) rfl
  | some data =>
      exact Triple.call (freeData_triple data) (add_comm _ _)
        ((Triple.free (some block)).of_eq (zero_add _) rfl)

theorem sendCommandBlocks_triple (results : CommandResults) :
    Triple 0 (sendCommandBlocks results) fun _ => 0 := by
  refine Triple.bind (Triple.malloc results.array) ?_
  rw [malloc_value]
  cases results.array with
  | none => exact Triple.pure rfl
  | some array =>
      refine Triple.call (Triple.malloc results.text) (zero_add _).symm ?_
      rw [malloc_value]
      refine Triple.call (Triple.access array) (add_comm _ _) ?_
      refine Triple.call (Triple.malloc results.buf) (zero_add _).symm ?_
      rw [malloc_value]
      cases results.buf with
      | none =>
          refine Triple.call (Triple.free results.text) (R := {array}) ?_ ?_
          · rw [pointer_none]
            abel
          · exact Triple.call (R := 0) (Triple.free (some array)) (add_comm _ _)
              (Triple.pure (add_zero _))
      | some buf =>
          refine Triple.call (R := 0) (pack_triple ⟨array, [results.text]⟩ buf) ?_ ?_
          · rw [pointer_some, blocks_one]
            abel
          rw [blocks_one]
          refine Triple.call (Triple.free results.text) (R := {array} + {buf}) (by abel) ?_
          refine Triple.call (Triple.free (some array)) (R := {buf}) ?_ ?_
          · rw [pointer_some]
            abel
          refine Triple.call (R := 0) (Triple.access buf) (by abel) ?_
          exact Triple.call (R := 0) (Triple.free (some buf)) rfl (Triple.pure (add_zero _))

end Triples

end OdroidPlayer
