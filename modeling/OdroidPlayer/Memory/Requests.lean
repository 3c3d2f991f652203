import OdroidPlayer.Memory.Handling
import OdroidPlayer.Memory.Paths

/-!
The memory of the requests and of the stream paths on the server.

The server thread unpacks a message, makes a node of it and enqueues the node; the response
thread executes it, broadcasts and answers it, keeps a copy for ACK and removes it. A STREAM
is answered with copies of the paths of the client's slot, and the stream thread copies one
of them before it sends; both find a path under the mutex of the pool and copy it when they
have unlocked it, while another thread may free it. `clear_player` removes what is left when
`wait_player` has joined the threads.

A step that finds what it reads (`Finds`) needs the blocks of the state and leaves those of
the next one.
-/

namespace OdroidPlayer

open Blocks Transition Transition.System

/-- What the server thread works on. -/
inductive ServerHolds where
  | nothing
  | message (msg : NodeBlocks)
  | made (msg node : NodeBlocks)
  /-- The node is in the queue. -/
  | enqueued (msg : NodeBlocks)
  | returned
  deriving DecidableEq, Repr

/-- What the response thread works on. -/
inductive ResponseHolds where
  | nothing
  | taken (node : NodeBlocks)
  /-- The answer to a STREAM has these strings so far. -/
  | looking (node : NodeBlocks) (data : CharArray)
  /-- A path has been found, but not copied. -/
  | copying (node : NodeBlocks) (data : CharArray) (path : Option Nat)
  | executed (node : NodeBlocks) (data : CharArray)
  | broadcast (node : NodeBlocks) (data : CharArray)
  | answered (node : NodeBlocks) (data : CharArray)
  | returned
  deriving DecidableEq, Repr

/-- Where the stream thread is. -/
inductive StreamHolds where
  | nothing
  /-- A path has been found, but not copied. -/
  | copying (path : Option Nat)
  | prepared
  | returned
  deriving DecidableEq, Repr

def ServerHolds.blocks : ServerHolds → Multiset Nat
  | .nothing | .returned => 0
  | .message msg | .enqueued msg => msg.blocks
  | .made msg node => msg.blocks + node.blocks

/-- A path that is being copied belongs to its slot. -/
def ResponseHolds.blocks : ResponseHolds → Multiset Nat
  | .nothing | .returned => 0
  | .taken node => node.blocks
  | .looking node data | .copying node data _ | .executed node data | .broadcast node data
  | .answered node data => node.blocks + data.blocks

structure RequestMemory where
  server : ServerHolds
  queue : List NodeBlocks
  response : ResponseHolds
  prevResp : Option NodeBlocks
  stream : StreamHolds
  slots : List StreamSlot
  /-- what nobody has a pointer to any more -/
  lost : Multiset Nat
  /-- `clear_player` has been called. -/
  cleared : Bool
  deriving DecidableEq

namespace RequestMemory

def start : RequestMemory :=
  ⟨.nothing, [], .nothing, none, .nothing, .replicate maxClients (.clear false), 0, false⟩

def blocks (s : RequestMemory) : Multiset Nat :=
  s.server.blocks + (s.queue.map NodeBlocks.blocks).sum + s.response.blocks +
    nodeBlocks s.prevResp + (slotBlocks s.slots + s.lost)

/-- The statements of `run_server`, `run_response` and `run_stream`, with the results of their
calls. -/
inductive Action where
  /-- `receive_message` -/
  | receive (results : ReceiveResults)
  | createNode (results : NodeMallocs)
  /-- `enqueue`; when the queue is full the client gets a notice -/
  | enqueue (notify : NotifyResults)
  | freeMessage
  | dequeue
  /-- `execute_command` on anything but a STREAM -/
  | execute (results : ExecuteResults)
  /-- `execute_command` on a STREAM, as far as the array -/
  | executeStream (create : Option (Nat × StreamResults)) (array : Option Nat)
  /-- The next path of the answer is found in the slot, if the client is still there. -/
  | findPath (idx : Option Nat)
  /-- It is copied, or the string is that stands in for it. -/
  | copyPath (copy literal : Option Nat)
  /-- `send_broadcast_message` -/
  | broadcast (clientArr : Option Nat) (clients : List NotifyResults)
  /-- the loop around `send_response`, and `save_prev_resp` -/
  | answer (sends : Nat → SendResults) (saved : NodeMallocs)
  /-- `free_data` and `remove_node` -/
  | release
  /-- `prepare_stream`, as far as the mutex -/
  | findClient (idx : Option Nat)
  /-- the rest of it -/
  | prepare (copy : Option Nat)
  /-- `get_stream_data` and `sendto` -/
  | sendData (data : Option Nat)
  /-- `add_client` -/
  | addClient (idx : Nat)
  | removeStream (idx : Nat)
  /-- the last critical section of `remove_client` -/
  | removeClient (idx : Nat)
  | serverReturns
  | responseReturns
  | streamReturns
  /-- `clear_player` behind `wait_player` -/
  | clear

/-- The message is logged and made a node. -/
def createNode (s : RequestMemory) (msg : NodeBlocks) (results : NodeMallocs) :
    Code RequestMemory := do
  access (some msg.block)
  let _ ← firstOf msg.data
  match ← OdroidPlayer.createNode msg.received msg.data results with
  | none =>
      OdroidPlayer.freeMessage msg
      pure { s with server := .nothing }
  | some node => pure { s with server := .made msg node }

/-- The nodes up to the last one are read, whose `next` is written. -/
def enqueue (s : RequestMemory) (msg node : NodeBlocks) (notify : NotifyResults) :
    Code RequestMemory :=
  if queueSize < s.queue.length then do
    sendNotice notify
    removeNode node
    OdroidPlayer.freeMessage msg
    pure { s with server := .nothing }
  else do
    s.queue.forM fun node => access (some node.block)
    pure { s with server := .enqueued msg, queue := s.queue ++ [node] }

/-- The node is logged and executed; without an answer it is removed. -/
def execute (s : RequestMemory) (node : NodeBlocks) (results : ExecuteResults) :
    Code RequestMemory := do
  access (some node.block)
  let _ ← firstOf node.data
  match ← executeBlocks node.head s.prevResp results with
  | none =>
      let _ ← firstOf node.data
      removeNode node
      pure { s with response := .nothing }
  | some data => pure { s with response := .executed node data }

def executeStream (s : RequestMemory) (node : NodeBlocks)
    (create : Option (Nat × StreamResults)) (array : Option Nat) : Code RequestMemory := do
  access (some node.block)
  let _ ← firstOf node.data
  let slots ← setNewStreamBlocks s.slots create
  match ← malloc array with
  | none =>
      let _ ← firstOf node.data
      removeNode node
      pure { s with response := .nothing, slots }
  | some array => pure { s with response := .looking node ⟨array, []⟩, slots }

/-- The first string of the answer is the path of the server. -/
def nextPath (s : RequestMemory) (data : CharArray) (idx : Option Nat) : Option Nat :=
  OdroidPlayer.findPath s.slots idx (if data.strings = [] then (·.server) else (·.client))

def copyPath (s : RequestMemory) (node : NodeBlocks) (data : CharArray)
    (path copy literal : Option Nat) : Code RequestMemory := do
  let text ← OdroidPlayer.copyPath path copy
  let text ← orLiteral text literal
  access (some data.array)
  let next : CharArray := ⟨data.array, data.strings ++ [text]⟩
  pure { s with response := if data.strings = [] then .looking node next else .executed node next }

def broadcast (s : RequestMemory) (node : NodeBlocks) (data : CharArray)
    (clientArr : Option Nat) (clients : List NotifyResults) : Code RequestMemory := do
  access (some node.block)
  let msg ← firstOf node.data
  let _ ← sendBroadcastBlocks (.ofPointer msg) clientArr clients
  pure { s with response := .broadcast node data }

/-- The path is written to the address; without a copy the stream is removed. -/
def prepare (s : RequestMemory) (path copy : Option Nat) : Code RequestMemory := do
  match ← OdroidPlayer.copyPath path copy with
  | none => pure { s with stream := .nothing }
  | some text =>
      access (some text)
      free (some text)
      pure { s with stream := .prepared }

/-- A string that is there is sent and freed. -/
def sendData (s : RequestMemory) (data : Option Nat) : Code RequestMemory := do
  match ← malloc data with
  | none => pure ()
  | some text =>
      access (some text)
      free (some text)
  pure { s with stream := .nothing }

/-- `memset`, whatever is in the slot. -/
def clearSlot (s : RequestMemory) (idx : Nat) (slot : StreamSlot) (used : Bool) : RequestMemory :=
  { s with slots := s.slots.set idx (.clear used), lost := s.lost + slot.blocks }

def removeStream (s : RequestMemory) (idx : Nat) (slot : StreamSlot) : Code RequestMemory := do
  let slot ← OdroidPlayer.removeStream slot
  pure { s with slots := s.slots.set idx slot }

def clear (s : RequestMemory) : Code RequestMemory := do
  clearPool s.slots
  s.queue.forM removeNode
  s.prevResp.toList.forM removeNode
  pure { s with queue := [], prevResp := none, slots := [], lost := s.lost + leftBlocks s.slots,
                cleared := true }

/-- `wait_player` has joined the threads. -/
def Joined (s : RequestMemory) : Prop :=
  s.server = .returned ∧ s.response = .returned ∧ s.stream = .returned

instance (s : RequestMemory) : Decidable s.Joined := inferInstanceAs (Decidable (_ ∧ _ ∧ _))

/-- What a step does; `none` where the thread is elsewhere. The threads work on the pool while
they are there. -/
def step (s : RequestMemory) : Action → Option (Code RequestMemory)
  | .receive results =>
      if s.server = .nothing then some do
        let msg ← receiveBlocks results
        pure { s with server := msg.elim .nothing .message }
      else none
  | .createNode results =>
      match s.server with
      | .message msg => some (s.createNode msg results)
      | _ => none
  | .enqueue notify =>
      match s.server with
      | .made msg node => some (s.enqueue msg node notify)
      | _ => none
  | .freeMessage =>
      match s.server with
      | .enqueued msg => some do
          OdroidPlayer.freeMessage msg
          pure { s with server := .nothing }
      | _ => none
  | .dequeue =>
      match s.response, s.queue with
      | .nothing, node :: queue => some do
          access (some node.block)
          pure { s with response := .taken node, queue }
      | _, _ => none
  | .execute results =>
      match s.response with
      | .taken node =>
          if node.head.type = CmdType.stream.value then none else some (s.execute node results)
      | _ => none
  | .executeStream create array =>
      match s.response with
      | .taken node =>
          if node.head.type = CmdType.stream.value then some (s.executeStream node create array)
          else none
      | _ => none
  | .findPath idx =>
      match s.response with
      | .looking node data =>
          some (pure { s with response := .copying node data (s.nextPath data idx) })
      | _ => none
  | .copyPath copy literal =>
      match s.response with
      | .copying node data path => some (s.copyPath node data path copy literal)
      | _ => none
  | .broadcast clientArr clients =>
      match s.response with
      | .executed node data => some (s.broadcast node data clientArr clients)
      | _ => none
  | .answer sends saved =>
      match s.response with
      | .broadcast node data => some do
          let prevResp ← respondBlocks node data s.prevResp sends saved resendCount
          pure { s with response := .answered node data, prevResp }
      | _ => none
  | .release =>
      match s.response with
      | .answered node data => some do
          freeData data
          removeNode node
          pure { s with response := .nothing }
      | _ => none
  | .findClient idx =>
      if s.stream = .nothing then
        some (pure { s with stream := .copying (OdroidPlayer.findPath s.slots idx (·.client)) })
      else none
  | .prepare copy =>
      match s.stream with
      | .copying path => some (s.prepare path copy)
      | _ => none
  | .sendData data => if s.stream = .prepared then some (s.sendData data) else none
  | .addClient idx =>
      match s.slots[idx]? with
      | some slot =>
          if s.server = .nothing ∧ slot.used = false then some (pure (s.clearSlot idx slot true))
          else none
      | none => none
  | .removeStream idx =>
      match s.slots[idx]? with
      | some slot => if s.Joined then none else some (s.removeStream idx slot)
      | none => none
  | .removeClient idx =>
      match s.slots[idx]? with
      | some slot => if s.Joined then none else some (pure (s.clearSlot idx slot false))
      | none => none
  | .serverReturns =>
      if s.server = .nothing then some (pure { s with server := .returned }) else none
  | .responseReturns =>
      if s.response = .nothing then some (pure { s with response := .returned }) else none
  | .streamReturns =>
      if s.stream = .nothing then some (pure { s with stream := .returned }) else none
  | .clear => if s.Joined ∧ s.cleared = false then some s.clear else none

def program : Owner RequestMemory Action := ⟨step, blocks⟩

/-- Nothing is allocated yet. -/
def init : Running RequestMemory := ⟨0, start, false⟩

/-- The path has not been freed, or `malloc` has returned its block again. -/
def Live (s : RequestMemory) (path : Option Nat) : Prop := ∀ b, path = some b → b ∈ s.blocks

/-- The strings that the step reads are there, and the handler that it calls. -/
def Finds (s : RequestMemory) : Action → Prop
  | .createNode _ => ∀ msg, s.server = .message msg → HasString msg.data
  | .execute results => ∀ node, s.response = .taken node → Calls node.head results →
      CanCall node.head.cmd s.prevResp
  | .copyPath _ _ => ∀ node data path, s.response = .copying node data path → s.Live path
  | .prepare _ => ∀ path, s.stream = .copying path → s.Live path
  | _ => True

/-- What the server thread does not work on. -/
def besideServer (s : RequestMemory) : Multiset Nat :=
  (s.queue.map NodeBlocks.blocks).sum + s.response.blocks + nodeBlocks s.prevResp +
    (slotBlocks s.slots + s.lost)

def besideResponse (s : RequestMemory) : Multiset Nat :=
  s.server.blocks + (s.queue.map NodeBlocks.blocks).sum + nodeBlocks s.prevResp +
    (slotBlocks s.slots + s.lost)

def besideSlots (s : RequestMemory) : Multiset Nat :=
  s.server.blocks + (s.queue.map NodeBlocks.blocks).sum + s.response.blocks + nodeBlocks s.prevResp

section Steps

variable {s : RequestMemory} {a : Action} {c : Code RequestMemory} {msg node : NodeBlocks}
  {data : CharArray} {path copy literal : Option Nat}

theorem blocks_server (s : RequestMemory) (server : ServerHolds) :
    blocks { s with server } = server.blocks + s.besideServer := by
  rw [blocks, besideServer]
  abel

theorem blocks_response (s : RequestMemory) (response : ResponseHolds) :
    blocks { s with response } = response.blocks + s.besideResponse := by
  rw [blocks, besideResponse]
  abel

theorem blocks_slots (s : RequestMemory) (slots : List StreamSlot) :
    blocks { s with slots } = slotBlocks slots + (s.lost + s.besideSlots) := by
  rw [blocks, besideSlots]
  abel

theorem at_server {server : ServerHolds} (at_ : s.server = server) :
    s.blocks = server.blocks + s.besideServer := by
  subst at_
  exact blocks_server s s.server

theorem at_response {response : ResponseHolds} (at_ : s.response = response) :
    s.blocks = response.blocks + s.besideResponse := by
  subst at_
  exact blocks_response s s.response

theorem at_slot {idx : Nat} {slot : StreamSlot} (there : s.slots[idx]? = some slot) :
    ∃ rest, s.blocks = slot.blocks + rest ∧
      ∀ next, blocks { s with slots := s.slots.set idx next } = next.blocks + rest := by
  obtain ⟨others, before, after⟩ := slotBlocks_set there
  refine ⟨others + (s.lost + s.besideSlots), ?_, fun next => ?_⟩
  · rw [← add_assoc, ← before]
    exact blocks_slots s s.slots
  · rw [← add_assoc, ← after]
    exact blocks_slots s _

theorem createNode_triple (at_ : s.server = .message msg) (has : HasString msg.data)
    (results : NodeMallocs) : Triple s.blocks (s.createNode msg results) blocks := by
  have before : s.blocks = msg.blocks + s.besideServer := at_server at_
  refine Triple.call (Triple.access msg.block) (R := arrayBlocks msg.data + s.besideServer) ?_ ?_
  · rw [before, NodeBlocks.blocks, add_assoc]
  refine Triple.call (firstOf_triple has) (R := {msg.block} + s.besideServer) (by abel) ?_
  refine Triple.call (OdroidPlayer.createNode_triple msg.data) rfl ?_
  cases (OdroidPlayer.createNode msg.received msg.data results).value with
  | none =>
      refine Triple.call (freeMessage_triple msg) (R := s.besideServer) ?_ (Triple.pure ?_)
      · rw [nodeBlocks_none, NodeBlocks.blocks]
        abel
      · exact (blocks_server s .nothing).symm
  | some node =>
      refine Triple.pure ?_
      rw [blocks_server, nodeBlocks_some, ServerHolds.blocks, NodeBlocks.blocks.eq_def msg]
      abel

theorem enqueue_triple (at_ : s.server = .made msg node) (notify : NotifyResults) :
    Triple s.blocks (s.enqueue msg node notify) blocks := by
  have before : s.blocks = msg.blocks + node.blocks + s.besideServer := at_server at_
  rw [before, enqueue]
  split
  · refine Triple.call (sendNotice_triple notify) (zero_add _).symm ?_
    refine Triple.call (removeNode_triple node) (R := msg.blocks + s.besideServer) (by abel) ?_
    refine Triple.call (freeMessage_triple msg) (R := s.besideServer) (by abel) (Triple.pure ?_)
    exact (blocks_server s .nothing).symm
  · have reads : Triple (s.queue.map NodeBlocks.blocks).sum
        (s.queue.forM fun node => access (some node.block))
        fun _ => (s.queue.map NodeBlocks.blocks).sum := by
      refine Triple.forM_keep fun n mem => ?_
      obtain ⟨front, back, eq⟩ := List.append_of_mem mem
      have blocks : (s.queue.map NodeBlocks.blocks).sum = {n.block} + (arrayBlocks n.data +
          ((front.map NodeBlocks.blocks).sum + (back.map NodeBlocks.blocks).sum)) := by
        rw [eq, List.map_append, List.sum_append, List.map_cons, List.sum_cons, NodeBlocks.blocks]
        abel
      rw [blocks]
      exact (Triple.access n.block).frame _
    refine Triple.call reads (R := msg.blocks + node.blocks + s.response.blocks +
      nodeBlocks s.prevResp + (slotBlocks s.slots + s.lost)) ?_ (Triple.pure ?_)
    · rw [besideServer]
      abel
    · rw [blocks, ServerHolds.blocks, List.map_append, List.sum_append, List.map_cons,
        List.map_nil, List.sum_cons, List.sum_nil, add_zero]
      abel

/-- The node is logged before it is executed. -/
theorem logged_triple (at_ : s.response = .taken node) (has : HasString node.data)
    {f : Option Nat → Code RequestMemory}
    (next : ∀ p, Triple (node.blocks + s.besideResponse) (f p) blocks) :
    Triple s.blocks (do
      access (some node.block)
      let p ← firstOf node.data
      f p) blocks := by
  refine Triple.call (Triple.access node.block)
    (R := arrayBlocks node.data + s.besideResponse) ?_ ?_
  · rw [at_response at_, ResponseHolds.blocks, NodeBlocks.blocks, add_assoc]
  refine Triple.call (firstOf_triple has) (R := {node.block} + s.besideResponse) (by abel) ?_
  refine (next _).of_eq ?_ rfl
  rw [NodeBlocks.blocks]
  abel

/-- Without an answer the node is logged once more and removed. -/
theorem dropped_triple (has : HasString node.data) {R : Multiset Nat} {t : RequestMemory}
    (eq : R = t.blocks) :
    Triple (node.blocks + R) (do
      let _ ← firstOf node.data
      removeNode node
      pure t) blocks := by
  refine Triple.call (firstOf_triple has) (R := {node.block} + R) ?_ ?_
  · rw [NodeBlocks.blocks]
    abel
  refine Triple.call (removeNode_triple node) (R := R) ?_ (Triple.pure ?_)
  · rw [NodeBlocks.blocks]
    abel
  · rw [zero_add, eq]

theorem execute_triple (at_ : s.response = .taken node) (has : HasString node.data)
    {results : ExecuteResults} (can : Calls node.head results → CanCall node.head.cmd s.prevResp) :
    Triple s.blocks (s.execute node results) blocks := by
  refine logged_triple at_ has fun _ => ?_
  refine Triple.call (executeBlocks_triple can) (R := node.blocks + s.server.blocks +
    (s.queue.map NodeBlocks.blocks).sum + (slotBlocks s.slots + s.lost)) ?_ ?_
  · rw [besideResponse]
    abel
  cases (executeBlocks node.head s.prevResp results).value with
  | none =>
      have gone : s.besideResponse = blocks { s with response := .nothing } :=
        ((blocks_response s .nothing).trans (zero_add _)).symm
      refine (dropped_triple has gone).of_eq ?_ rfl
      rw [besideResponse, arrayBlocks_none]
      abel
  | some data =>
      refine Triple.pure ?_
      rw [blocks_response, ResponseHolds.blocks, besideResponse, arrayBlocks_some]
      abel

theorem executeStream_triple (at_ : s.response = .taken node) (has : HasString node.data)
    (whole : ∀ slot ∈ s.slots, slot.Whole) (create : Option (Nat × StreamResults))
    (array : Option Nat) : Triple s.blocks (s.executeStream node create array) blocks := by
  refine logged_triple at_ has fun _ => ?_
  refine Triple.call (setNewStreamBlocks_triple whole create) (R := node.blocks + s.server.blocks +
    (s.queue.map NodeBlocks.blocks).sum + nodeBlocks s.prevResp + s.lost) ?_ ?_
  · rw [besideResponse]
    abel
  generalize (setNewStreamBlocks s.slots create).value = slots
  have after (response : ResponseHolds) : blocks { s with response, slots } =
      response.blocks + besideResponse { s with slots } := blocks_response { s with slots } response
  refine Triple.call (Triple.malloc array) (zero_add _).symm ?_
  cases array with
  | none =>
      have gone : besideResponse { s with slots } =
          blocks { s with response := .nothing, slots } :=
        ((after .nothing).trans (zero_add _)).symm
      refine (dropped_triple has gone).of_eq ?_ rfl
      rw [besideResponse, malloc_value, pointer_none]
      abel
  | some array =>
      refine Triple.pure ?_
      rw [after, ResponseHolds.blocks, besideResponse, malloc_value, pointer_some, CharArray.blocks,
        List.map_nil, List.sum_nil]
      abel

theorem findPath_triple (at_ : s.response = .looking node data) (idx : Option Nat) :
    Triple s.blocks (pure { s with response := .copying node data (s.nextPath data idx) })
      blocks := by
  refine Triple.pure ?_
  rw [at_response at_, blocks_response]
  rfl

theorem copyPath_triple (at_ : s.response = .copying node data path) (live : s.Live path)
    (copy literal : Option Nat) :
    Triple s.blocks (s.copyPath node data path copy literal) blocks := by
  refine Triple.bind (OdroidPlayer.copyPath_triple live copy) ?_
  refine Triple.call (orLiteral_triple _ literal) rfl ?_
  generalize (orLiteral _ literal).value = text
  refine Triple.call (Triple.access data.array) (R := pointer text + node.blocks +
    (data.strings.map pointer).sum + s.besideResponse) ?_ (Triple.pure ?_)
  · rw [at_response at_, ResponseHolds.blocks, CharArray.blocks]
    abel
  · have next : ResponseHolds.blocks (if data.strings = [] then
        .looking node ⟨data.array, data.strings ++ [text]⟩
        else .executed node ⟨data.array, data.strings ++ [text]⟩) =
        node.blocks + (pointer text + data.blocks) := by
      rw [← blocks_concat]
      split <;> rfl
    rw [blocks_response, next, CharArray.blocks]
    abel

theorem firstOf_pointer {data : Option CharArray} (has : HasString data) :
    ∃ rest, arrayBlocks data = (Text.ofPointer (firstOf data).value).blocks + rest := by
  obtain ⟨array, s, strings, rfl⟩ := has
  refine ⟨{array} + (strings.map pointer).sum, ?_⟩
  rw [arrayBlocks_some, CharArray.blocks, List.map_cons, List.sum_cons]
  cases s <;> exact add_left_comm _ _ _

theorem broadcast_triple (at_ : s.response = .executed node data) (has : HasString node.data)
    (clientArr : Option Nat) (clients : List NotifyResults) :
    Triple s.blocks (s.broadcast node data clientArr clients) blocks := by
  have before : s.blocks = node.blocks + data.blocks + s.besideResponse := at_response at_
  obtain ⟨rest, split⟩ := firstOf_pointer has
  refine Triple.call (Triple.access node.block)
    (R := arrayBlocks node.data + data.blocks + s.besideResponse) ?_ ?_
  · rw [before, NodeBlocks.blocks]
    abel
  refine Triple.call (firstOf_triple has) (R := {node.block} + data.blocks + s.besideResponse)
    (by abel) ?_
  refine Triple.call (sendBroadcastBlocks_triple _ clientArr clients)
    (R := rest + {node.block} + data.blocks + s.besideResponse) ?_ (Triple.pure ?_)
  · rw [split]
    abel
  · rw [blocks_response, ResponseHolds.blocks, NodeBlocks.blocks, split]
    abel

theorem receive_triple (at_ : s.server = .nothing) (results : ReceiveResults) :
    Triple s.blocks (do
      let msg ← receiveBlocks results
      pure { s with server := msg.elim .nothing .message }) blocks := by
  refine Triple.call (receiveBlocks_triple results) (at_server at_) (Triple.pure ?_)
  rw [blocks_server]
  cases (receiveBlocks results).value <;> rfl

theorem answer_triple (at_ : s.response = .broadcast node data) (sends : Nat → SendResults)
    (saved : NodeMallocs) :
    Triple s.blocks (do
      let prevResp ← respondBlocks node data s.prevResp sends saved resendCount
      pure { s with response := .answered node data, prevResp }) blocks := by
  refine Triple.call (respondBlocks_triple node data s.prevResp sends saved resendCount)
    (R := s.server.blocks + (s.queue.map NodeBlocks.blocks).sum + (slotBlocks s.slots + s.lost)) ?_
    (Triple.pure ?_)
  · rw [at_response at_, besideResponse, ResponseHolds.blocks]
    abel
  · rw [blocks, ResponseHolds.blocks]
    abel

theorem release_triple (at_ : s.response = .answered node data) :
    Triple s.blocks (do
      freeData data
      removeNode node
      pure { s with response := .nothing }) blocks := by
  have before : s.blocks = node.blocks + data.blocks + s.besideResponse := at_response at_
  refine Triple.call (freeData_triple data) (R := node.blocks + s.besideResponse) ?_ ?_
  · rw [before]
    abel
  refine Triple.call (removeNode_triple node) (R := s.besideResponse) (by abel) (Triple.pure ?_)
  exact (blocks_response s .nothing).symm

theorem dequeue_triple (at_ : s.response = .nothing) {queue : List NodeBlocks}
    (head : s.queue = node :: queue) :
    Triple s.blocks (do
      access (some node.block)
      pure { s with response := .taken node, queue }) blocks := by
  have before : s.blocks = {node.block} + (arrayBlocks node.data + s.server.blocks +
      (queue.map NodeBlocks.blocks).sum + nodeBlocks s.prevResp +
      (slotBlocks s.slots + s.lost)) := by
    rw [at_response at_, besideResponse, ResponseHolds.blocks, head, List.map_cons, List.sum_cons,
      NodeBlocks.blocks]
    abel
  refine Triple.call (Triple.access node.block) before (Triple.pure ?_)
  rw [blocks, ResponseHolds.blocks, NodeBlocks.blocks]
  abel

/-- What the stream thread has copied it frees. -/
theorem used_triple (text : Nat) (t : RequestMemory) :
    Triple (pointer (some text) + t.blocks) (do
      access (some text)
      free (some text)
      pure t) blocks := by
  refine Triple.call (Triple.access text) rfl ?_
  exact Triple.call (Triple.free (some text)) rfl (Triple.pure (zero_add _))

theorem prepare_triple (live : s.Live path) (copy : Option Nat) :
    Triple s.blocks (s.prepare path copy) blocks := by
  refine Triple.bind (OdroidPlayer.copyPath_triple live copy) ?_
  cases (OdroidPlayer.copyPath path copy).value with
  | none => exact Triple.pure (zero_add _)
  | some text => exact used_triple text { s with stream := .prepared }

theorem sendData_triple (s : RequestMemory) (data : Option Nat) :
    Triple s.blocks (s.sendData data) blocks := by
  refine Triple.call (Triple.malloc data) (zero_add _).symm ?_
  cases data with
  | none => exact Triple.pure (zero_add _)
  | some text => exact used_triple text { s with stream := .nothing }

theorem clearSlot_triple {idx : Nat} {slot : StreamSlot} (there : s.slots[idx]? = some slot)
    (used : Bool) : Triple s.blocks (pure (s.clearSlot idx slot used)) blocks := by
  obtain ⟨rest, before, after⟩ := at_slot there
  have empty : (StreamSlot.clear used).blocks = 0 := rfl
  refine Triple.pure ?_
  have moved : (s.clearSlot idx slot used).blocks =
      blocks { s with slots := s.slots.set idx (.clear used) } + slot.blocks := by
    simp only [clearSlot, blocks]
    abel
  rw [moved, before, after, empty, zero_add, add_comm]

theorem removeStream_triple {idx : Nat} {slot : StreamSlot} (there : s.slots[idx]? = some slot) :
    Triple s.blocks (s.removeStream idx slot) blocks := by
  obtain ⟨rest, before, after⟩ := at_slot there
  have empty : (OdroidPlayer.removeStream slot).value.blocks = 0 := rfl
  refine Triple.call (OdroidPlayer.removeStream_triple slot) before (Triple.pure ?_)
  rw [after, empty]

theorem clear_triple (joined : s.Joined) : Triple s.blocks s.clear blocks := by
  obtain ⟨server, response, -⟩ := joined
  have removes (nodes : List NodeBlocks) :
      Triple (nodes.map NodeBlocks.blocks).sum (nodes.forM removeNode) fun _ => 0 :=
    (Triple.forM (K := 0) fun node _ => (removeNode_triple node).of_eq (add_zero _) rfl).of_eq
      (add_zero _).symm rfl
  refine Triple.call (clearPool_triple s.slots) (R := (s.queue.map NodeBlocks.blocks).sum +
    nodeBlocks s.prevResp + s.lost) ?_ ?_
  · rw [blocks, server, response, ServerHolds.blocks, ResponseHolds.blocks]
    abel
  refine Triple.call (removes s.queue) (R := nodeBlocks s.prevResp + s.lost +
    leftBlocks s.slots) (by abel) ?_
  refine Triple.call (removes s.prevResp.toList) (R := s.lost + leftBlocks s.slots) ?_
    (Triple.pure ?_)
  · cases s.prevResp with
    | none => simp only [Option.toList_none, List.map_nil, List.sum_nil, nodeBlocks_none, zero_add]
    | some prev => simp only [Option.toList_some, List.map_cons, List.map_nil, List.sum_cons,
        List.sum_nil, add_zero, zero_add, nodeBlocks_some, add_assoc]
  · simp only [blocks, server, response, ServerHolds.blocks, ResponseHolds.blocks, List.map_nil,
      List.sum_nil, nodeBlocks_none, slotBlocks, zero_add]

end Steps

end RequestMemory

end OdroidPlayer
