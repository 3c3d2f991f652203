import OdroidPlayer.Queue
import OdroidPlayer.Message

/-!
The requests of a client and the receiver thread that brings in the answers.

A request draws a number, sends it with the command and takes nodes off `cmd_queue` until
one carries the number. `client_mutex` serialises the requests, so a client has at most one
under way. The receiver thread enqueues what the server answers, early, late, more than
once or never; a timeout gives the request up and leaves its answer to be skipped by a
later one.
-/

namespace OdroidPlayer

open Transition Transition.System

/-- The fields of `t_node` that `set_status` copies. -/
structure ClientNode where
  status : Int32
  type : Int32
  cmd : Int32
  msgIdx : Int32
  data : List CString
  deriving DecidableEq, Repr

/-- An `int` as a `size_t`. -/
def toSizeT (i : Int32) : Nat := i.toInt64.toUInt64.toNat

structure OpStatus where
  status : Int32
  type : Int32
  cmd : Int32
  msgIdx : Nat
  data : List CString
  deriving DecidableEq, Repr

def setStatus (node : ClientNode) : OpStatus :=
  ⟨node.status, node.type, node.cmd, toSizeT node.msgIdx, node.data⟩

/-- What follows the loop of `dequeue_conditional`: NULL when the second node has a greater
number, the first node otherwise. -/
def dequeueConditional (msgIdx : Int32) : List ClientNode → Option ClientNode × List ClientNode
  | [] => (none, [])
  | [node] => (some node, [])
  | node :: next :: rest =>
      if msgIdx < next.msgIdx then (none, node :: next :: rest) else (some node, next :: rest)

/-- The statement that a request executes next. -/
inductive RequestAt where
  /-- `send_command` -/
  | sending
  /-- `opc_create_status`; the alarm has been set -/
  | creating
  /-- the loop test of `get_command_response` -/
  | testing
  /-- `dequeue_conditional` -/
  | dequeuing (at_ : DequeueAt)
  /-- `dequeue_conditional` has returned the node -/
  | comparing (node : ClientNode)
  deriving DecidableEq, Repr

/-- The node that `get_command_response` has in its hand. -/
def RequestAt.node : RequestAt → List ClientNode
  | .comparing node => [node]
  | _ => []

@[ext] structure ClientRequest where
  /-- the number it has drawn -/
  own : Nat
  at_ : RequestAt
  deriving DecidableEq, Repr

/-- `pthread_cond_signal` on the condition of `cmd_queue`. -/
def ClientRequest.signal (request : ClientRequest) : ClientRequest :=
  match request.at_ with
  | .dequeuing at_ => { request with at_ := .dequeuing at_.signal }
  | _ => request

/-- The statement of `run_receiver` that is executed next. -/
inductive ReceivingAt where
  /-- the loop test -/
  | testing
  /-- `receive_message` -/
  | receiving
  /-- behind the loop -/
  | ended
  deriving DecidableEq, Repr

structure OpClient where
  msgIdx : Nat
  /-- `play` of the monitor -/
  play : Bool
  msgQueue : Queue ClientNode
  cmdQueue : Queue ClientNode
  /-- the request that holds `client_mutex` -/
  call : Option ClientRequest
  /-- the threads in `set_monitor(false)` that have written the monitor and have not signalled
  `msg_queue` -/
  toMsgQueue : Nat
  /-- those that have signalled `msg_queue` and not `cmd_queue` -/
  toCmdQueue : Nat
  receiver : ReceivingAt
  deriving DecidableEq, Repr

namespace OpClient

inductive Event where
  /-- in `cmd_queue` -/
  | enqueued (node : ClientNode)
  | returned (own : Nat) (status : Option OpStatus)
  deriving DecidableEq, Repr

inductive Action where
  /-- `client_mutex` is taken and a number drawn -/
  | request
  | sendCommand (sent : Bool)
  | opcCreateStatus (created : Bool)
  | getMonitorPlay
  /-- a critical section of `dequeue_conditional` -/
  | dequeueConditional
  /-- what `get_command_response` does with a node, with the `malloc` of `set_status` -/
  | compare (malloc : Bool)
  /-- the signal handler of SIGALRM -/
  | timeout
  | spuriousWakeup
  /-- the loop test of `run_receiver` -/
  | receiverTest
  /-- `receive_message` returns a message, which is handled -/
  | receive (recvMsg : AMessage)
  /-- it returns none, and the loop goes on or is left -/
  | receiveNone (goesOn : Bool)
  | getMessageResponse
  /-- the critical sections of `set_monitor(false)` -/
  | clearMonitor
  | signalMsgQueue
  | signalCmdQueue
  deriving DecidableEq, Repr

/-- `opc_init` and `opc_prepare` -/
def start : OpClient := ⟨0, true, Queue.createQueue, Queue.createQueue, none, 0, 0, .testing⟩

def goto (s : OpClient) (own : Nat) (at_ : RequestAt) : OpClient :=
  { s with call := some ⟨own, at_⟩ }

def ret (s : OpClient) (own : Nat) (status : Option OpStatus) : OpClient × List Event :=
  ({ s with call := none }, [.returned own status])

def clearMonitor (s : OpClient) : OpClient :=
  { s with play := false, toMsgQueue := s.toMsgQueue + 1 }

/-- The nodes that a request under way has before it. -/
def pending (s : OpClient) : List ClientNode :=
  (s.call.map fun request => request.at_.node).getD [] ++ s.cmdQueue.nodes

/-- The answer to the request is in `cmd_queue` or in its hand. -/
def Answered (s : OpClient) (own : Nat) : Prop :=
  ∃ node ∈ s.pending, node.msgIdx = Int32.ofNat own

instance (s : OpClient) (own : Nat) : Decidable (s.Answered own) :=
  inferInstanceAs (Decidable (∃ node ∈ s.pending, _))

/-- The server answers a request that has been made, with its number. -/
def Answers (s : OpClient) (recvMsg : AMessage) : Prop :=
  recvMsg.type = CmdType.command.value ∨ recvMsg.type = CmdType.stream.value →
    ∃ i < s.msgIdx, recvMsg.idx = Int32.ofNat (i + 1)

instance (s : OpClient) (recvMsg : AMessage) : Decidable (s.Answers recvMsg) :=
  inferInstanceAs (Decidable (_ → ∃ i < s.msgIdx, _))

def createNode (recvMsg : AMessage) : ClientNode :=
  ⟨recvMsg.status, recvMsg.type, recvMsg.cmd, recvMsg.idx, recvMsg.data⟩

/-- `none` when `data[0]` is read through NULL. -/
def handleMessage (recvMsg : AMessage) (s : OpClient) : Option (OpClient × List Event) :=
  if recvMsg.type = CmdType.command.value ∨ recvMsg.type = CmdType.stream.value then
    match s.cmdQueue.enqueue (createNode recvMsg) with
    | (queue, true) =>
        some ({ s with cmdQueue := queue, call := s.call.map ClientRequest.signal },
          [.enqueued (createNode recvMsg)])
    | (_, false) => some (s, [])
  else if recvMsg.type = CmdType.notify.value ∨ recvMsg.type = CmdType.brdcast.value then
    -- too many clients in the server: the receiver thread goes on to signal the queues
    if recvMsg.status = Status.toomany.value then some (s.clearMonitor, [])
    else if recvMsg.status = Status.eserver.value ∧ recvMsg.data = [] then none
    else some ({ s with msgQueue := (s.msgQueue.enqueue (createNode recvMsg)).1 }, [])
  else some (s, [])

/-- The loop of `run_receiver` for one message. -/
def receive (recvMsg : AMessage) (s : OpClient) : Option (OpClient × List Event) :=
  if s.receiver = .receiving then
    (s.handleMessage recvMsg).map fun out => ({ out.1 with receiver := .testing }, out.2)
  else none

/-- The receiver thread is behind its loop and calls `set_monitor(false)`. -/
def receiverEnds (s : OpClient) : OpClient := { s.clearMonitor with receiver := .ended }

/-- What one critical section of `dequeue_conditional` leads to; `get_command_response`
returns NULL when it is given NULL. -/
def dequeued (s : OpClient) (own : Nat) :
    Option (Option ClientNode × Queue ClientNode) → OpClient × List Event
  | none => (s.goto own (.dequeuing .waiting), [])
  | some (none, cmdQueue) => { s with cmdQueue }.ret own none
  | some (some node, cmdQueue) => ({ s with cmdQueue }.goto own (.comparing node), [])

/-- One statement of the request under way, of the receiver thread or of a thread that shuts
the client down. A timeout finds the request waiting for its answer. -/
def machine : System OpClient Action Event where
  step s
    | .request =>
        match s.call with
        | none =>
            if s.msgIdx + 1 < 2 ^ 31 then
              some ({ s with msgIdx := s.msgIdx + 1 }.goto (s.msgIdx + 1) .sending, [])
            else none
        | some _ => none
    | .sendCommand sent =>
        match s.call with
        | some ⟨own, .sending⟩ =>
            if sent then some (s.goto own .creating, []) else some (s.ret own none)
        | _ => none
    | .opcCreateStatus created =>
        match s.call with
        | some ⟨own, .creating⟩ =>
            if created then some (s.goto own .testing, []) else some (s.ret own none)
        | _ => none
    | .getMonitorPlay =>
        match s.call with
        | some ⟨own, .testing⟩ =>
            if s.play then some (s.goto own (.dequeuing .entering), []) else some (s.ret own none)
        | _ => none
    | .dequeueConditional =>
        let take := OdroidPlayer.dequeueConditional (Int32.ofNat s.msgIdx)
        match s.call with
        | some ⟨own, .dequeuing .entering⟩ => some (s.dequeued own (s.cmdQueue.look take))
        | some ⟨own, .dequeuing .woken⟩ => some (s.dequeued own (s.cmdQueue.lookAgain take))
        | _ => none
    | .compare malloc =>
        match s.call with
        | some ⟨own, .comparing node⟩ =>
            if toSizeT node.msgIdx = s.msgIdx then
              some (s.ret own (if malloc then some (setStatus node) else none))
            else some (s.goto own .testing, [])
        | _ => none
    | .timeout =>
        match s.call with
        | some ⟨_, .sending⟩ | none => none
        | some ⟨own, _⟩ => if s.Answered own then none else some (s.ret own none)
    | .spuriousWakeup =>
        match s.call with
        | some ⟨own, .dequeuing .waiting⟩ => some (s.goto own (.dequeuing .woken), [])
        | _ => none
    | .receiverTest =>
        if s.receiver = .testing then
          some (if s.play then { s with receiver := .receiving } else s.receiverEnds, [])
        else none
    | .receive recvMsg => if s.Answers recvMsg then s.receive recvMsg else none
    | .receiveNone goesOn =>
        if s.receiver = .receiving then
          some (if goesOn then { s with receiver := .testing } else s.receiverEnds, [])
        else none
    | .getMessageResponse =>
        (s.msgQueue.look Queue.dequeue).map fun out => ({ s with msgQueue := out.2 }, [])
    | .clearMonitor => some (s.clearMonitor, [])
    | .signalMsgQueue =>
        match s.toMsgQueue with
        | 0 => none
        | left + 1 =>
            some ({ s with
              toMsgQueue := left, toCmdQueue := s.toCmdQueue + 1,
              msgQueue := { s.msgQueue with running := false } }, [])
    | .signalCmdQueue =>
        match s.toCmdQueue with
        | 0 => none
        | left + 1 =>
            some ({ s with
              toCmdQueue := left, cmdQueue := { s.cmdQueue with running := false },
              call := s.call.map ClientRequest.signal }, [])

/-! ### What one step does -/

/-- The statements of `get_command_response`. -/
def Action.own : Action → Bool
  | .opcCreateStatus _ | .getMonitorPlay | .dequeueConditional | .compare _ => true
  | _ => false

/-- Why a request returns NULL. -/
inductive Fails (s : OpClient) (own : Nat) : RequestAt → Action → Prop where
  | sendCommand : Fails s own .sending (.sendCommand false)
  | opcCreateStatus : Fails s own .creating (.opcCreateStatus false)
  | off (off : s.play = false) : Fails s own .testing .getMonitorPlay
  | queueOff {at_ : DequeueAt} (off : s.cmdQueue.running = false) :
      Fails s own (.dequeuing at_) .dequeueConditional
  | greater {at_ : DequeueAt} {first second : ClientNode} {rest : List ClientNode}
      (nodes : s.cmdQueue.nodes = first :: second :: rest)
      (greater : Int32.ofNat s.msgIdx < second.msgIdx) :
      Fails s own (.dequeuing at_) .dequeueConditional
  | malloc {node : ClientNode} : Fails s own (.comparing node) (.compare false)
  | timeout {at_ : RequestAt} (early : ¬ s.Answered own) : Fails s own at_ .timeout

/-- Each way in which a step can go. -/
inductive Move (s : OpClient) : Action → OpClient → List Event → Prop where
  | request (free : s.call = none) (small : s.msgIdx + 1 < 2 ^ 31) :
      Move s .request ({ s with msgIdx := s.msgIdx + 1 }.goto (s.msgIdx + 1) .sending) []
  | sent {own : Nat} (at_ : s.call = some ⟨own, .sending⟩) :
      Move s (.sendCommand true) (s.goto own .creating) []
  | created {own : Nat} (at_ : s.call = some ⟨own, .creating⟩) :
      Move s (.opcCreateStatus true) (s.goto own .testing) []
  | plays {own : Nat} (at_ : s.call = some ⟨own, .testing⟩) (play : s.play = true) :
      Move s .getMonitorPlay (s.goto own (.dequeuing .entering)) []
  | waits {own : Nat} {at_ : DequeueAt} (call : s.call = some ⟨own, .dequeuing at_⟩)
      (empty : s.cmdQueue.nodes = []) :
      Move s .dequeueConditional (s.goto own (.dequeuing .waiting)) []
  | takes {own : Nat} {at_ : DequeueAt} {node : ClientNode} {rest : List ClientNode}
      (call : s.call = some ⟨own, .dequeuing at_⟩) (nodes : s.cmdQueue.nodes = node :: rest) :
      Move s .dequeueConditional
        ({ s with cmdQueue := { s.cmdQueue with nodes := rest } }.goto own (.comparing node)) []
  | skips {own : Nat} {node : ClientNode} (at_ : s.call = some ⟨own, .comparing node⟩)
      (other : toSizeT node.msgIdx ≠ s.msgIdx) {malloc : Bool} :
      Move s (.compare malloc) (s.goto own .testing) []
  | answers {own : Nat} {node : ClientNode} (at_ : s.call = some ⟨own, .comparing node⟩)
      (same : toSizeT node.msgIdx = s.msgIdx) :
      Move s (.compare true) { s with call := none } [.returned own (some (setStatus node))]
  | fails {own : Nat} {at_ : RequestAt} {a : Action} (call : s.call = some ⟨own, at_⟩)
      (why : Fails s own at_ a) :
      Move s a { s with call := none } [.returned own none]
  | wakes {own : Nat} (at_ : s.call = some ⟨own, .dequeuing .waiting⟩) :
      Move s .spuriousWakeup (s.goto own (.dequeuing .woken)) []
  | enqueues {recvMsg : AMessage} {i : Nat} (requested : i < s.msgIdx)
      (idx : recvMsg.idx = Int32.ofNat (i + 1)) :
      Move s (.receive recvMsg)
        { s with
          cmdQueue := { s.cmdQueue with nodes := s.cmdQueue.nodes ++ [createNode recvMsg] }
          call := s.call.map ClientRequest.signal
          receiver := .testing } [.enqueued (createNode recvMsg)]
  | stopped {a : Action} {receiver : ReceivingAt} (other : a.own = false) :
      Move s a { s.clearMonitor with receiver } []
  | others {a : Action} {msgQueue : Queue ClientNode} {receiver : ReceivingAt}
      (other : a.own = false) : Move s a { s with msgQueue, receiver } []
  | signalMsgQueue {left : Nat} (some_ : s.toMsgQueue = left + 1) :
      Move s .signalMsgQueue
        { s with
          toMsgQueue := left, toCmdQueue := s.toCmdQueue + 1
          msgQueue := { s.msgQueue with running := false } } []
  | signalCmdQueue {left : Nat} (some_ : s.toCmdQueue = left + 1) :
      Move s .signalCmdQueue
        { s with
          toCmdQueue := left, cmdQueue := { s.cmdQueue with running := false }
          call := s.call.map ClientRequest.signal } []

theorem dequeueConditional_cases (msgIdx : Int32) (node : ClientNode) (rest : List ClientNode) :
    OdroidPlayer.dequeueConditional msgIdx (node :: rest) = (some node, rest) ∨
      OdroidPlayer.dequeueConditional msgIdx (node :: rest) = (none, node :: rest) ∧
        ∃ next more, rest = next :: more ∧ msgIdx < next.msgIdx := by
  cases rest with
  | nil => exact .inl rfl
  | cons next more =>
      by_cases greater : msgIdx < next.msgIdx
      · exact .inr ⟨by simp [OdroidPlayer.dequeueConditional, greater], next, more, rfl, greater⟩
      · exact .inl (by simp [OdroidPlayer.dequeueConditional, greater])

/-- The critical section of `dequeue_conditional` after the test of `running`. -/
theorem look_move {s : OpClient} {own : Nat} {at_ : DequeueAt}
    (call : s.call = some ⟨own, .dequeuing at_⟩) :
    Move s .dequeueConditional
      (s.dequeued own (s.cmdQueue.look (OdroidPlayer.dequeueConditional (Int32.ofNat s.msgIdx)))).1
      (s.dequeued own
        (s.cmdQueue.look (OdroidPlayer.dequeueConditional (Int32.ofNat s.msgIdx)))).2 := by
  cases nodes : s.cmdQueue.nodes with
  | nil => simpa [Queue.look, nodes, dequeued] using Move.waits call nodes
  | cons node rest =>
      rcases dequeueConditional_cases (Int32.ofNat s.msgIdx) node rest with taken |
        ⟨early, next, more, rfl, greater⟩
      · simpa [Queue.look, nodes, taken, dequeued] using Move.takes call nodes
      · have kept : Queue.mk (node :: next :: more) s.cmdQueue.running = s.cmdQueue := by
          rw [← nodes]
        simp only [Queue.look, nodes, early, dequeued, ret, kept]
        exact .fails call (.greater nodes greater)

theorem receive_move {s t : OpClient} {recvMsg : AMessage} {es : List Event}
    (answers : s.Answers recvMsg) (receive : s.receive recvMsg = some (t, es)) :
    Move s (.receive recvMsg) t es := by
  have unchanged : Move s (.receive recvMsg) { s with receiver := .testing } [] :=
    @Move.others s (.receive recvMsg) s.msgQueue .testing rfl
  obtain ⟨-, handled⟩ := Option.ite_none_right_eq_some.mp receive
  obtain ⟨out, handled, eq⟩ := Option.map_eq_some_iff.mp handled
  simp only [handleMessage] at handled
  split at handled
  · next answer =>
      obtain ⟨i, requested, idx⟩ := answers answer
      by_cases full : Queue.maxSize < s.cmdQueue.nodes.length
      · simp only [Queue.enqueue, if_pos full] at handled
        cases handled
        cases eq
        exact unchanged
      · simp only [Queue.enqueue, if_neg full] at handled
        cases handled
        cases eq
        exact .enqueues requested idx
  · split at handled
    · split at handled
      · cases handled
        cases eq
        exact .stopped rfl
      · split at handled
        · cases handled
        · cases handled
          cases eq
          exact .others rfl
    · cases handled
      cases eq
      exact unchanged

theorem Move.of_some {s t : OpClient} {a : Action} {es : List Event} {out : OpClient × List Event}
    (move : Move s a out.1 out.2) (step : some out = some (t, es)) : Move s a t es := by
  obtain rfl := Option.some.inj step
  exact move

theorem step_move {s t : OpClient} {a : Action} {es : List Event}
    (step : machine.step s a = some (t, es)) : Move s a t es := by
  cases a with
  | request =>
      simp only [machine] at step
      split at step
      · next free =>
          split at step
          · next small =>
              cases step
              exact .request free small
          · cases step
      · cases step
  | sendCommand sent =>
      simp only [machine] at step
      split at step
      · next at_ =>
          cases sent with
          | true => cases step; exact .sent at_
          | false => cases step; exact .fails at_ .sendCommand
      · cases step
  | opcCreateStatus created =>
      simp only [machine] at step
      split at step
      · next at_ =>
          cases created with
          | true => cases step; exact .created at_
          | false => cases step; exact .fails at_ .opcCreateStatus
      · cases step
  | getMonitorPlay =>
      simp only [machine] at step
      split at step
      · next at_ =>
          split at step
          · next play => cases step; exact .plays at_ play
          · next off =>
              cases step
              exact .fails at_ (.off (by simpa using off))
      · cases step
  | dequeueConditional =>
      simp only [machine] at step
      split at step
      · next at_ => exact (look_move at_).of_some step
      · next at_ =>
          refine Move.of_some ?_ step
          cases on : s.cmdQueue.running with
          | true => simpa only [Queue.lookAgain, on, if_true] using look_move at_
          | false =>
              simp only [Queue.lookAgain, on, Bool.false_eq_true, if_false, dequeued, ret]
              exact .fails at_ (.queueOff on)
      · cases step
  | compare malloc =>
      simp only [machine] at step
      split at step
      · next at_ =>
          split at step
          · next same =>
              cases malloc with
              | true => cases step; exact .answers at_ same
              | false => cases step; exact .fails at_ .malloc
          · next other => cases step; exact .skips at_ other
      · cases step
  | timeout =>
      simp only [machine] at step
      split at step
      · cases step
      · cases step
      · next at_ =>
          split at step
          · cases step
          · next early =>
              cases step
              exact .fails at_ (.timeout early)
  | spuriousWakeup =>
      simp only [machine] at step
      split at step
      · next at_ => cases step; exact .wakes at_
      · cases step
  | receive recvMsg =>
      simp only [machine] at step
      split at step
      · next answers => exact receive_move answers step
      · cases step
  | receiverTest =>
      obtain ⟨-, step⟩ := Option.ite_none_right_eq_some.mp step
      split at step
      · cases step
        exact @Move.others s .receiverTest s.msgQueue .receiving rfl
      · cases step
        exact .stopped rfl
  | receiveNone goesOn =>
      obtain ⟨-, step⟩ := Option.ite_none_right_eq_some.mp step
      cases goesOn with
      | true =>
          cases step
          exact @Move.others s (.receiveNone true) s.msgQueue .testing rfl
      | false =>
          cases step
          exact .stopped rfl
  | getMessageResponse =>
      simp only [machine, Option.map_eq_some_iff] at step
      obtain ⟨out, -, eq⟩ := step
      cases eq
      exact @Move.others s .getMessageResponse out.2 s.receiver rfl
  | clearMonitor =>
      cases step
      exact @Move.stopped s .clearMonitor s.receiver rfl
  | signalMsgQueue =>
      simp only [machine] at step
      split at step
      · cases step
      · next left some_ => cases step; exact .signalMsgQueue some_
  | signalCmdQueue =>
      simp only [machine] at step
      split at step
      · cases step
      · next left some_ => cases step; exact .signalCmdQueue some_

end OpClient

end OdroidPlayer
