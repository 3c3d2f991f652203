import OdroidPlayer.Memory.Node
import OdroidPlayer.Server.Handle

/-!
What the handling of a request allocates and frees: `receive_message`, `execute_command`,
`send_broadcast_message`, `send_response` and `save_prev_resp` of the server.

Every `malloc` may fail and every call may go wrong. Whichever way a function takes, it frees
what it has allocated but for what it returns. A command faults where it has no handler, and
an ACK where the string that it copies is missing (`executeBlocks_faults`).
-/

namespace OdroidPlayer

open Blocks Transition

/-! ### What is sent -/

/-- A string that is sent: NULL, one of the program text, or one in a block. -/
inductive Text where
  | null
  | literal
  | block (b : Nat)
  deriving DecidableEq, Repr

def Text.ofPointer : Option Nat → Text
  | none => .null
  | some b => .block b

def Text.blocks : Text → Multiset Nat
  | .null | .literal => 0
  | .block b => {b}

/-- The results of the calls in `send_notify_message`. -/
structure NotifyResults where
  array : Option Nat
  text : Option Nat
  buf : Option Nat
  /-- both calls of `send` -/
  sent : Bool
  deriving DecidableEq, Repr

/-- `strdup(msg)` -/
def Text.strdup (p : Option Nat) : Text → Code (Option Nat)
  | .null => do
      access none
      pure none
  | .literal => malloc p
  | .block b => OdroidPlayer.strdup b p

/-- `amessage__pack`, which reads the strings of a message. -/
def pack (data : CharArray) (buf : Nat) : Code Unit := do
  data.strings.forM fun s => do
    access (some data.array)
    match s with
    | none => pure ()
    | some s => access (some s)
  access (some buf)

def sendNotifyBlocks (msg : Text) (results : NotifyResults) : Code Bool :=
  if msg = .null then pure true
  else do
    match ← malloc results.array with
    | none => pure false
    | some array =>
        let text ← msg.strdup results.text
        access (some array)
        match ← malloc results.buf with
        | none =>
            free text
            free (some array)
            pure false
        | some buf =>
            pack ⟨array, [text]⟩ buf
            free text
            free (some array)
            free (some buf)
            pure results.sent

/-- A notice that is a string of the program text; nobody looks at whether it was sent. -/
def sendNotice (results : NotifyResults) : Code Unit := do
  let _ ← sendNotifyBlocks .literal results
  pure ()

/-- The loop of `send_broadcast_message`, by the clients that are left. -/
def broadcastLoop (clientArr : Nat) (msg : Text) : List NotifyResults → Code Bool
  | [] => do
      free (some clientArr)
      pure true
  | results :: rest => do
      access (some clientArr)
      let sent ← sendNotifyBlocks msg results
      if sent then broadcastLoop clientArr msg rest
      else do
        free (some clientArr)
        pure false

/-- `send_broadcast_message`; `get_client_arr` also returns NULL when there is no client. -/
def sendBroadcastBlocks (msg : Text) (clientArr : Option Nat) (clients : List NotifyResults) :
    Code Bool :=
  if msg = .null then pure true
  else do
    match ← malloc clientArr with
    | none => pure false
    | some clientArr => broadcastLoop clientArr msg clients

/-- The results of the calls in `send_response`. -/
structure SendResults where
  buf : Option Nat
  ret : SendRet
  notify : NotifyResults
  deriving DecidableEq, Repr

/-- The notice of a `send` that has failed. -/
def SendResults.report (results : SendResults) : Code Unit :=
  if results.ret = .sent then pure () else sendNotice results.notify

/-- `send_response`; without a buffer it fails. -/
def sendResponseBlocks (node : NodeBlocks) (data : CharArray) (results : SendResults) :
    Code SendRet := do
  access (some node.block)
  match ← malloc results.buf with
  | none => pure .failed
  | some buf =>
      pack data buf
      results.report
      free (some buf)
      pure results.ret

/-! ### The server thread -/

/-- The results of `receive_message`, with the notices that are sent. -/
inductive ReceiveResults where
  /-- no buffer is allocated -/
  | length (notices : List NotifyResults)
  /-- what follows the length is not received, or not unpacked -/
  | data (buf : Nat) (notices after : List NotifyResults)
  | message (buf : Nat) (msg : NodeBlocks)
  deriving DecidableEq, Repr

/-- `amessage__unpack` -/
def unpack (msg : NodeBlocks) : Code Unit := do
  let _ ← malloc (some msg.block)
  match msg.data with
  | none => pure ()
  | some data => do
      let _ ← malloc (some data.array)
      data.strings.forM fun s => do
        let _ ← malloc s

/-- `receive_message`, and the notice of `run_server` when that has failed. -/
def receiveBlocks : ReceiveResults → Code (Option NodeBlocks)
  | .length notices => do
      notices.forM sendNotice
      pure none
  | .data buf notices after => do
      let _ ← malloc (some buf)
      access (some buf)
      notices.forM sendNotice
      free (some buf)
      after.forM sendNotice
      pure none
  | .message buf msg => do
      let _ ← malloc (some buf)
      access (some buf)
      unpack msg
      free (some buf)
      pure (some msg)

/-- `free_message`: protobuf-c frees the strings, the array and the message. -/
def freeMessage (msg : NodeBlocks) : Code Unit := removeNode msg

/-- The head of the node that is made of a message. -/
def NodeBlocks.received (msg : NodeBlocks) : NodeHead := { msg.head with status := 0 }

/-! ### The response thread -/

/-- The results of the calls of `malloc` in `execute_command` on a COMMAND. -/
structure ExecuteResults where
  array : Option Nat
  /-- the string of the command, where it is not NULL at once -/
  first : Option Nat
  /-- the string that stands in for it -/
  literal : Option Nat
  deriving DecidableEq, Repr

/-- A command; all but `cmd_none` and `cmd_ack` return a copy of a string that is there. -/
def AgmpCmd.blocks (prevResp : Option NodeBlocks) (p : Option Nat) :
    AgmpCmd → Code (Option Nat)
  | .none => pure .none
  | .ack =>
      match prevResp with
      | .none => malloc p
      | .some prev => do
          access (some prev.block)
          match ← firstOf prev.data with
          | .none => do
              access .none
              pure .none
          | .some s => strdup s p
  | .request _ | .quit | .seek | .time => malloc p

/-- `cmd_arr[node->cmd](status, player)` -/
def callBlocks (cmd : Int32) (prevResp : Option NodeBlocks) (p : Option Nat) :
    Code (Option Nat) :=
  match cmdArr cmd with
  | .error _ => do
      access none
      pure none
  | .ok entry => entry.blocks prevResp p

/-- A string, or the one that stands in for it. -/
def orLiteral (s p : Option Nat) : Code (Option Nat) :=
  match s with
  | none => malloc p
  | some s => pure (some s)

/-- `execute_command` on anything but a STREAM. -/
def executeBlocks (head : NodeHead) (prevResp : Option NodeBlocks) (results : ExecuteResults) :
    Code (Option CharArray) :=
  if head.type = CmdType.command.value then do
    match ← malloc results.array with
    | none => pure none
    | some array =>
        let s ← callBlocks head.cmd prevResp results.first
        access (some array)
        let s ← orLiteral s results.literal
        pure (some ⟨array, [s]⟩)
  else pure none

/-- `save_prev_resp` -/
def saveBlocks (node : NodeBlocks) (prevResp : Option NodeBlocks) (results : NodeMallocs) :
    Code (Option NodeBlocks) := do
  match prevResp with
  | none => pure ()
  | some prev => removeNode prev
  access (some node.block)
  createNode node.head node.data results

/-- The loop around `send_response`, with the number of attempts left; the `prev_resp` behind
it. -/
def respondBlocks (node : NodeBlocks) (data : CharArray) (prevResp : Option NodeBlocks)
    (sends : Nat → SendResults) (saved : NodeMallocs) : Nat → Code (Option NodeBlocks)
  | 0 => pure prevResp
  | left + 1 => do
      match ← sendResponseBlocks node data (sends left) with
      | .sent => saveBlocks node prevResp saved
      | .timeout => respondBlocks node data prevResp sends saved left
      | .failed => pure prevResp

/-! ### Ownership -/

section Triples

theorem pack_triple (data : CharArray) (buf : Nat) :
    Triple (data.blocks + {buf}) (pack data buf) fun _ => data.blocks + {buf} := by
  have strings : Triple data.blocks (data.strings.forM fun s => do
      access (some data.array)
      match s with
      | none => pure ()
      | some s => access (some s)) fun _ => data.blocks := by
    refine Triple.forM_keep fun s mem => ?_
    obtain ⟨front, back, eq⟩ := List.append_of_mem mem
    have blocks : data.blocks = {data.array} +
        (pointer s + ((front.map pointer).sum + (back.map pointer).sum)) := by
      rw [CharArray.blocks, eq, List.map_append, List.sum_append, List.map_cons, List.sum_cons]
      abel
    refine Triple.call (Triple.access data.array) blocks ?_
    cases s with
    | none => exact Triple.pure blocks.symm
    | some s =>
        rw [blocks]
        refine ((Triple.access s).frame _).of_eq (add_left_comm _ _ _) (add_left_comm _ _ _)
  exact Triple.call strings rfl
    (((Triple.access buf).frame data.blocks).of_eq (add_comm _ _) (add_comm _ _))

/-- The string that is sent stays with its owner. -/
theorem sendNotifyBlocks_triple (msg : Text) (results : NotifyResults) :
    Triple msg.blocks (sendNotifyBlocks msg results) fun _ => msg.blocks := by
  unfold sendNotifyBlocks
  split
  · exact Triple.pure rfl
  next real =>
      refine Triple.call (Triple.malloc results.array) (zero_add _).symm ?_
      rw [malloc_value]
      cases results.array with
      | none => exact Triple.pure (zero_add _)
      | some array =>
          have copies : Triple msg.blocks (msg.strdup results.text)
              fun p => pointer p + msg.blocks := by
            cases msg with
            | null => exact absurd rfl real
            | literal => exact (Triple.malloc results.text).of_eq rfl (add_zero _)
            | block b => exact (strdup_triple b results.text).of_eq rfl (add_comm _ _)
          refine Triple.call copies (add_comm _ _) ?_
          generalize (msg.strdup results.text).value = text
          refine Triple.call (Triple.access array) (add_comm _ _) ?_
          refine Triple.call (Triple.malloc results.buf) (zero_add _).symm ?_
          rw [malloc_value]
          cases results.buf with
          | none =>
              refine Triple.call (Triple.free text) (R := {array} + msg.blocks) ?_ ?_
              · rw [pointer_none]
                abel
              · exact Triple.call (Triple.free (some array)) (zero_add _)
                  (Triple.pure (zero_add _))
          | some buf =>
              refine Triple.call (pack_triple ⟨array, [text]⟩ buf) (R := msg.blocks) ?_ ?_
              · rw [pointer_some, blocks_one]
                abel
              rw [blocks_one]
              refine Triple.call (Triple.free text) (R := {array} + {buf} + msg.blocks) (by abel) ?_
              refine Triple.call (Triple.free (some array)) (R := {buf} + msg.blocks) ?_ ?_
              · rw [pointer_some]
                abel
              · refine Triple.call (Triple.free (some buf)) (R := msg.blocks) ?_
                  (Triple.pure (zero_add _))
                rw [pointer_some, zero_add]

theorem sendNotice_triple (results : NotifyResults) : Triple 0 (sendNotice results) fun _ => 0 :=
  Triple.bind (sendNotifyBlocks_triple .literal results) (Triple.pure rfl)

theorem notices_triple (notices : List NotifyResults) (P : Multiset Nat) :
    Triple P (notices.forM sendNotice) fun _ => P :=
  Triple.forM_keep fun results _ =>
    ((sendNotice_triple results).frame P).of_eq (zero_add P).symm (zero_add P).symm

theorem broadcastLoop_triple (clientArr : Nat) (msg : Text) (clients : List NotifyResults) :
    Triple ({clientArr} + msg.blocks) (broadcastLoop clientArr msg clients)
      fun _ => msg.blocks := by
  induction clients with
  | nil => exact Triple.call (Triple.free (some clientArr)) rfl (Triple.pure (zero_add _))
  | cons results clients ih =>
      refine Triple.call (Triple.access clientArr) rfl ?_
      refine Triple.call (sendNotifyBlocks_triple msg results) (add_comm _ _) ?_
      rw [add_comm]
      split
      · exact ih
      · exact Triple.call (Triple.free (some clientArr)) rfl (Triple.pure (zero_add _))

theorem sendBroadcastBlocks_triple (msg : Text) (clientArr : Option Nat)
    (clients : List NotifyResults) :
    Triple msg.blocks (sendBroadcastBlocks msg clientArr clients) fun _ => msg.blocks := by
  unfold sendBroadcastBlocks
  split
  · exact Triple.pure rfl
  · refine Triple.call (Triple.malloc clientArr) (zero_add _).symm ?_
    rw [malloc_value]
    cases clientArr with
    | none => exact Triple.pure (zero_add _)
    | some clientArr => exact broadcastLoop_triple clientArr msg clients

theorem sendResponseBlocks_triple (node : NodeBlocks) (data : CharArray) (results : SendResults) :
    Triple (node.blocks + data.blocks) (sendResponseBlocks node data results)
      fun _ => node.blocks + data.blocks := by
  unfold sendResponseBlocks
  refine Triple.call (Triple.access node.block) (R := arrayBlocks node.data + data.blocks) ?_ ?_
  · rw [NodeBlocks.blocks, add_assoc]
  rw [← add_assoc, ← NodeBlocks.blocks]
  refine Triple.call (Triple.malloc results.buf) (zero_add _).symm ?_
  rw [malloc_value]
  cases results.buf with
  | none => exact Triple.pure (zero_add _)
  | some buf =>
      refine Triple.call (pack_triple data buf) (R := node.blocks) ?_ ?_
      · rw [pointer_some]
        abel
      have report : Triple 0 results.report fun _ => 0 := by
        unfold SendResults.report
        split
        · exact Triple.pure rfl
        · exact sendNotice_triple results.notify
      refine Triple.call report (zero_add _).symm ?_
      refine Triple.call (Triple.free (some buf)) (R := node.blocks + data.blocks) ?_
        (Triple.pure (zero_add _))
      rw [pointer_some]
      abel

theorem unpack_triple (msg : NodeBlocks) : Triple 0 (unpack msg) fun _ => msg.blocks := by
  obtain ⟨block, head, data⟩ := msg
  refine Triple.call (R := 0) (Triple.malloc (some block)) rfl ?_
  cases data with
  | none => exact Triple.pure rfl
  | some data =>
      refine Triple.call (Triple.malloc (some data.array)) (zero_add _).symm ?_
      have strings : Triple 0 (data.strings.forM fun s => do let _ ← malloc s)
          fun _ => (data.strings.map pointer).sum :=
        Triple.forM_make fun s => Triple.bind (Triple.malloc s) (Triple.pure rfl)
      refine (strings.frame ({data.array} + {block})).of_eq ?_ ?_
      · rw [malloc_value, malloc_value, pointer_some, pointer_some]
        abel
      · rw [NodeBlocks.blocks, arrayBlocks_some, CharArray.blocks]
        abel

theorem receiveBlocks_triple (results : ReceiveResults) :
    Triple 0 (receiveBlocks results) nodeBlocks := by
  cases results with
  | length notices => exact Triple.bind (notices_triple notices 0) (Triple.pure rfl)
  | data buf notices after =>
      refine Triple.bind (Triple.malloc (some buf)) ?_
      refine Triple.bind (Triple.access buf) ?_
      refine Triple.bind (notices_triple notices {buf}) ?_
      refine Triple.bind (Triple.free (some buf)) ?_
      exact Triple.bind (notices_triple after 0) (Triple.pure rfl)
  | message buf msg =>
      refine Triple.bind (Triple.malloc (some buf)) ?_
      refine Triple.bind (Triple.access buf) ?_
      refine Triple.call (unpack_triple msg) (zero_add _).symm ?_
      exact Triple.call (Triple.free (some buf)) (add_comm _ _) (Triple.pure (zero_add _))

theorem freeMessage_triple (msg : NodeBlocks) :
    Triple msg.blocks (freeMessage msg) fun _ => 0 :=
  removeNode_triple msg

theorem orLiteral_triple (s p : Option Nat) : Triple (pointer s) (orLiteral s p) pointer := by
  cases s with
  | none => exact Triple.malloc p
  | some s => exact Triple.pure rfl

theorem saveBlocks_triple (node : NodeBlocks) (prevResp : Option NodeBlocks)
    (results : NodeMallocs) :
    Triple (node.blocks + nodeBlocks prevResp) (saveBlocks node prevResp results)
      fun prevResp => node.blocks + nodeBlocks prevResp := by
  have copies : Triple node.blocks (do
      access (some node.block)
      createNode node.head node.data results) fun prevResp => node.blocks + nodeBlocks prevResp :=
    Triple.call (Triple.access node.block) rfl <|
      ((createNode_triple node.data).frame {node.block}).of_eq (add_comm _ _) (by
        rw [NodeBlocks.blocks]
        abel)
  cases prevResp with
  | none => exact copies.of_eq (add_zero _) rfl
  | some prev =>
      exact Triple.call (removeNode_triple prev) (add_comm _ _) (copies.of_eq (zero_add _) rfl)

theorem respondBlocks_triple (node : NodeBlocks) (data : CharArray)
    (prevResp : Option NodeBlocks) (sends : Nat → SendResults) (saved : NodeMallocs)
    (left : Nat) :
    Triple (node.blocks + data.blocks + nodeBlocks prevResp)
      (respondBlocks node data prevResp sends saved left)
      fun prevResp => node.blocks + data.blocks + nodeBlocks prevResp := by
  induction left with
  | zero => exact Triple.pure rfl
  | succ left ih =>
      refine Triple.call (sendResponseBlocks_triple node data (sends left)) rfl ?_
      split
      · refine ((saveBlocks_triple node prevResp saved).frame data.blocks).of_eq ?_ ?_ <;> abel
      · exact ih
      · exact Triple.pure rfl

end Triples

/-! ### What is read -/

/-- The array has a first string, and it is not NULL. -/
def HasFirst (data : Option CharArray) : Prop :=
  ∃ array s strings, data = some ⟨array, some s :: strings⟩

/-- There is a handler, and for ACK the string that it copies. -/
def CanCall (cmd : Int32) (prevResp : Option NodeBlocks) : Prop :=
  ∃ entry, cmdArr cmd = .ok entry ∧
    (entry = .ack → ∀ prev, prevResp = some prev → HasFirst prev.data)

section Calls

variable {cmd : Int32} {head : NodeHead} {prevResp : Option NodeBlocks} {p : Option Nat}
  {results : ExecuteResults}

theorem callBlocks_triple (can : CanCall cmd prevResp) :
    Triple (nodeBlocks prevResp) (callBlocks cmd prevResp p)
      fun s => pointer s + nodeBlocks prevResp := by
  obtain ⟨entry, handler, first⟩ := can
  have copies : Triple (nodeBlocks prevResp) (malloc p) fun s => pointer s + nodeBlocks prevResp :=
    ((Triple.malloc p).frame _).of_eq (zero_add _).symm rfl
  rw [callBlocks, handler]
  cases entry with
  | none => exact Triple.pure (zero_add _).symm
  | request r => exact copies
  | quit | seek | time => exact copies
  | ack =>
      cases prevResp with
      | none => exact copies
      | some prev =>
          obtain ⟨array, s, strings, eq⟩ := first rfl prev rfl
          obtain ⟨block, head, data⟩ := prev
          subst eq
          refine Triple.call (Triple.access block) rfl ?_
          refine Triple.call (firstOf_triple ⟨_, _, _, rfl⟩) (add_comm _ _) ?_
          refine ((strdup_triple s p).frame ({array} + (strings.map pointer).sum + {block})).of_eq
            ?_ ?_
          · rw [arrayBlocks_some, CharArray.blocks, List.map_cons, List.sum_cons, pointer_some]
            abel
          · rw [nodeBlocks_some, NodeBlocks.blocks, arrayBlocks_some, CharArray.blocks,
              List.map_cons, List.sum_cons, pointer_some]
            abel

theorem callBlocks_faults (cannot : ¬ CanCall cmd prevResp) :
    Faults (nodeBlocks prevResp) (callBlocks cmd prevResp p) := by
  unfold callBlocks
  split
  · exact Faults.access.bind_left
  next entry handler =>
      have isAck : entry = .ack ∧ ∃ prev, prevResp = some prev ∧ ¬ HasFirst prev.data := by
        by_contra other
        rw [not_and, not_exists] at other
        refine cannot ⟨entry, handler, fun ack prev is => ?_⟩
        by_contra lacks
        exact other ack prev ⟨is, lacks⟩
      obtain ⟨rfl, ⟨block, head, data⟩, rfl, lacks⟩ := isAck
      refine Faults.call (Triple.access block) rfl ?_
      match data with
      | none => exact Faults.access.bind_left.bind_left
      | some ⟨_, []⟩ => exact Faults.access.bind_left.bind_left
      | some ⟨array, none :: strings⟩ =>
          exact Faults.call (firstOf_triple ⟨array, none, strings, rfl⟩) (add_comm _ _)
            Faults.access.bind_left
      | some ⟨array, some s :: strings⟩ => exact absurd ⟨array, s, strings, rfl⟩ lacks

/-- The command is called at all. -/
def Calls (head : NodeHead) (results : ExecuteResults) : Prop :=
  head.type = CmdType.command.value ∧ results.array ≠ none

theorem executeBlocks_triple (can : Calls head results → CanCall head.cmd prevResp) :
    Triple (nodeBlocks prevResp) (executeBlocks head prevResp results)
      fun data => arrayBlocks data + nodeBlocks prevResp := by
  unfold executeBlocks
  split
  next command =>
      refine Triple.call (Triple.malloc results.array) (zero_add _).symm ?_
      rw [malloc_value]
      cases array : results.array with
      | none => exact Triple.pure rfl
      | some array' =>
          refine Triple.call (callBlocks_triple (can ⟨command, by simp [array]⟩)) (add_comm _ _) ?_
          refine Triple.call (Triple.access array') (add_comm _ _) ?_
          refine Triple.call (orLiteral_triple _ _) (R := {array'} + nodeBlocks prevResp) (by abel)
            (Triple.pure ?_)
          rw [arrayBlocks_some, blocks_one]
          abel
  · exact Triple.pure (zero_add _).symm

theorem executeBlocks_faults (calls : Calls head results) (cannot : ¬ CanCall head.cmd prevResp) :
    Faults (nodeBlocks prevResp) (executeBlocks head prevResp results) := by
  obtain ⟨array, is⟩ := Option.ne_none_iff_exists'.mp calls.2
  unfold executeBlocks
  rw [if_pos calls.1, is]
  refine Faults.call (Triple.malloc (some array)) (zero_add _).symm ?_
  rw [add_comm]
  exact ((callBlocks_faults cannot).frame _).bind_left

end Calls

end OdroidPlayer
