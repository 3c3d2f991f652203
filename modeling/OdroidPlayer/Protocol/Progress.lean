import OdroidPlayer.Protocol.Once

/-!
Neither the server nor a client is ever stopped by what the other has sent.

The frames on a connection and the nodes in the queue can be dealt with in every state that
clients and server reach together, in whatever order they go: the server thread and the
response thread meet no request that they fault at, and the receiver thread of a client, as
long as it is in its loop, meets no notice without the string that it reads.
-/

namespace OdroidPlayer

open Transition Transition.System

namespace Exchange

/-- A node with a string and a handler is executed without a fault. -/
theorem runResponse_ok (env : Env) {prevResp : Option Node} {node : Node}
    (present : Present prevResp) (string : node.data ≠ [])
    (entry : node.type = CmdType.command.value →
      0 ≤ node.cmd.toInt ∧ node.cmd.toInt < initCmdArray.length) :
    ∃ handled, OdroidPlayer.runResponse env prevResp node = .ok handled := by
  obtain ⟨first, read⟩ := firstString_of_ne string
  have executes : ∃ out, executeCommand env prevResp node = .ok out :=
    executeCommand_ok present entry
  obtain ⟨⟨data, status⟩, executed⟩ := executes
  unfold OdroidPlayer.runResponse
  rw [read]
  dsimp only
  rw [executed]
  cases data with
  | none => exact ⟨_, rfl⟩
  | some data => exact ⟨_, rfl⟩

/-- A message with a string is read without a fault. -/
theorem runServer_ok (env : Env) (clientId fd : Int) {msg : AMessage} (string : msg.data ≠ []) :
    ∃ out, OdroidPlayer.runServer env clientId fd msg = .ok out := by
  obtain ⟨first, read⟩ := firstString_of_ne string
  unfold OdroidPlayer.runServer
  rw [read]
  dsimp only
  split
  · exact ⟨_, rfl⟩
  · split <;> exact ⟨_, rfl⟩

/-- The receiver thread takes an answer, and a notice that has a string. -/
theorem receive_ok {client : OpClient} {msg : AMessage} (receiving : client.receiver = .receiving)
    (readable : OpClient.IsAnswer msg ∨ msg.data ≠ []) : ∃ out, client.receive msg = some out := by
  have handles : ∃ out, client.handleMessage msg = some out := by
    unfold OpClient.handleMessage
    split
    · split <;> exact ⟨_, rfl⟩
    next other =>
        have string : msg.data ≠ [] := readable.resolve_left other
        split
        · split
          · exact ⟨_, rfl⟩
          · rw [if_neg fun empty => string empty.2]
            exact ⟨_, rfl⟩
        · exact ⟨_, rfl⟩
  obtain ⟨out, handled⟩ := handles
  exact ⟨_, by rw [OpClient.receive, if_pos receiving, handled, Option.map_some]⟩

/-- A node of the library has an entry of `cmd_arr` if it is a COMMAND. -/
theorem entry_of_prepared {own : Nat} {request : OpcRequest} (library : request ∈ opcRequests)
    {node : Node} (is : requestOf node = message own request)
    (command : node.type = CmdType.command.value) :
    0 ≤ node.cmd.toInt ∧ node.cmd.toInt < initCmdArray.length := by
  have type : (message own request).type = node.type := (congrArg AMessage.type is).symm
  have cmd : (message own request).cmd = node.cmd := (congrArg AMessage.cmd is).symm
  rcases hasHandler_of_mem library own with ⟨_, inside⟩ | ⟨stream, _⟩
  · exact cmd ▸ inside
  · have both := stream.symm.trans (type.trans command)
    exact absurd both (by decide)

/-- In every state that is reached: the receiver thread of a client can test its loop, and take
the first message on its connection when it is in `receive_message`; the server thread can take
the first message of a client that is connected; and the response thread can take the first node
of the queue, whatever happens to the response. -/
theorem never_stopped {t : Exchange} {as : List Action} {log : List Event}
    (run : machine.exec start as = some (t, log)) :
    (∀ c, (t.clients c).receiver = .testing →
        (machine.step t (.client c .receiverTest)).isSome = true) ∧
      (∀ c, (t.clients c).receiver = .receiving → t.down c ≠ [] →
        (machine.step t (.receive c)).isSome = true) ∧
      (∀ fd c clientId env, t.peer fd = some c → t.up c ≠ [] →
        env.queueLength = t.queue.length →
        (machine.step t (.runServer fd clientId env)).isSome = true) ∧
      ∀ env c node rest, t.queue = (c, node) :: rest →
        (sendLoop env.sends resendCount = .sent → t.peer node.clientFd ≠ none) →
        (machine.step t (.runResponse env)).isSome = true := by
  have inv := inv_of_run run
  refine ⟨fun c testing => ?_, fun c receiving some_ => ?_,
    fun fd c clientId env peer some_ length => ?_, fun env c node rest queue connected => ?_⟩
  · simp [machine, onConnection, OpClient.machine, testing]
  · obtain ⟨msg, rest, down⟩ := List.exists_cons_of_ne_nil some_
    obtain ⟨out, received⟩ := receive_ok receiving (inv.readable c msg (by simp [down]))
    simp [machine, down, received]
  · obtain ⟨msg, rest, up⟩ := List.exists_cons_of_ne_nil some_
    have first : msg ∈ t.line c log := by simp [line, up]
    obtain ⟨own, request, -, is⟩ := inv.prepared first
    have string : msg.data ≠ [] := by
      rw [is]
      exact List.cons_ne_nil _ _
    obtain ⟨⟨node, notices⟩, run'⟩ := runServer_ok env clientId fd string
    cases node <;> simp [machine, peer, up, length, run']
  · have queued : requestOf node ∈ t.line c log := by simp [line, queuedOn, queue]
    obtain ⟨own, request, library, is⟩ := inv.prepared queued
    have string : node.data ≠ [] := by
      have data : node.data = (message own request).data := congrArg AMessage.data is
      rw [data]
      exact List.cons_ne_nil _ _
    obtain ⟨handled, run'⟩ :=
      runResponse_ok env inv.present string (entry_of_prepared library is)
    cases answered : handled.response with
    | none => simp [machine, queue, run', answered]
    | some response =>
        have delivery := (runResponse_some run' answered).2.1
        cases delivered : response.delivery with
        | gaveUp | disconnected => simp [machine, queue, run', answered, deliver, delivered]
        | sent =>
            obtain ⟨c', peer⟩ := Option.ne_none_iff_exists'.mp
              (connected (delivery.symm.trans delivered))
            simp [machine, queue, run', answered, deliver, delivered, peer]

/-- The pause of the first client is in the queue and the request of the second on its
connection. -/
theorem twoRequests_go_on : ∃ t log, machine.exec start (twoRequests.take 7) = some (t, log) ∧
    (machine.step t (.runServer 7 2 { calmEnv with queueLength := 1 })).isSome = true ∧
    (machine.step t (.runResponse calmEnv)).isSome = true := by
  have run : ∃ t log, machine.exec start (twoRequests.take 7) = some (t, log) ∧
      t.peer 7 = some 1 ∧ t.up 1 ≠ [] ∧ t.queue.length = 1 ∧
      ∃ node, t.queue = [(0, node)] ∧ t.peer node.clientFd = some 0 :=
    ⟨_, _, rfl, rfl, List.cons_ne_nil _ _, rfl, _, rfl, rfl⟩
  obtain ⟨t, log, run, peer, up, length, node, queue, peer'⟩ := run
  obtain ⟨-, -, server, response⟩ := never_stopped run
  refine ⟨t, log, run, server 7 1 2 _ peer up length.symm, response calmEnv 0 node [] queue ?_⟩
  intro _ none
  rw [peer'] at none
  cases none

end Exchange

end OdroidPlayer
