import OdroidPlayer.Client.Response
import OdroidPlayer.Client.Send

/-!
Clients and server together.

A client that connects, for the first time or again, is given a descriptor `fd` of the server
that is free, also one that another client has had before. Its requests wait on the connection
until the server thread reads them, in the queue of the player until the response thread
executes them, and their responses on the connection until the receiver thread of the client
reads them. A node names its client by the descriptor alone, so its response goes to the client
that has the descriptor by then. Broadcasts and notices come in between at any time, and either
end of a connection may close it. Frames arrive whole, and what the receiver thread tells its
own `msg_queue` when it reconnects is left out: no request looks at that queue.
-/

namespace OdroidPlayer

open Transition Transition.System

structure Exchange where
  clients : Nat → OpClient
  /-- the client that a descriptor of the server is connected to -/
  peer : Int → Option Nat
  connected : Nat → Bool
  /-- what a client has written and the server has not read -/
  up : Nat → List AMessage
  /-- what the server has written to a client and the client has not read -/
  down : Nat → List AMessage
  /-- the command queue of the player, each node with the client whose request it is, which
  the code does not keep -/
  queue : List (Nat × Node)
  prevResp : Option Node

namespace Exchange

inductive Event where
  | client (c : Nat) (event : OpClient.Event)
  /-- the request `own` has been written -/
  | sent (c own : Nat) (request : OpcRequest)
  /-- a request has been dropped before its execution -/
  | refused (c : Nat) (msg : AMessage)
  | executed (c : Nat) (node : Node) (response : Response)

inductive Action where
  /-- a statement of a client that leaves its connection alone -/
  | client (c : Nat) (a : OpClient.Action)
  | sendCommand (c : Nat) (request : OpcRequest)
  /-- a client in `opc_connect` is accepted -/
  | connectNewClient (fd : Int) (c : Nat)
  /-- the loop of `run_server` for a message of one client -/
  | runServer (fd clientId : Int) (env : Env)
  /-- the loop of `run_response` for one node -/
  | runResponse (env : Env)
  /-- a broadcast to one client, or a notice after an error -/
  | sendNotifyMessage (fd : Int) (msg : CString) (msgIdx : Int32) (status : Status)
      (type : CmdType) (cmd : Int32)
  | disconnectClient (fd : Int)
  /-- the loop of `run_receiver` for a message of the server -/
  | receive (c : Nat)

/-- The server has started and no client has connected. -/
def start : Exchange :=
  ⟨fun _ => .start, fun _ => none, fun _ => false, fun _ => [], fun _ => [], [], none⟩

/-- The statements of a client that read or write its connection. -/
def onConnection : OpClient.Action → Bool
  | .sendCommand sent => sent
  | .receive _ => true
  | _ => false

/-- The message of a notice of the server thread. -/
def noticeMessage (notice : Notice) : AMessage :=
  notifyMessage notice.msg (-1) notice.status .notify Cmd.none.value

/-- The message that a node has been made of. -/
def requestOf (node : Node) : AMessage :=
  ⟨node.status.value, node.type, node.cmd, node.msgIdx, node.data⟩

/-- The message of a request. -/
def message (own : Nat) (request : OpcRequest) : AMessage :=
  prepareSendMessage request.type request.cmd own

def setClient (s : Exchange) (c : Nat) (client : OpClient) : Exchange :=
  { s with clients := Function.update s.clients c client }

def setUp (s : Exchange) (c : Nat) (msgs : List AMessage) : Exchange :=
  { s with up := Function.update s.up c msgs }

def setDown (s : Exchange) (c : Nat) (msgs : List AMessage) : Exchange :=
  { s with down := Function.update s.down c msgs }

def write (s : Exchange) (c : Nat) (msgs : List AMessage) : Exchange :=
  s.setDown c (s.down c ++ msgs)

/-- The descriptor is closed, and what the client has written to it and the server has not
read is lost. -/
def disconnect (s : Exchange) (fd : Int) : Exchange × List Event :=
  match s.peer fd with
  | none => (s, [])
  | some c =>
      ({ s with
          peer := Function.update s.peer fd none
          connected := Function.update s.connected c false }.setUp c [],
        (s.up c).map (.refused c))

/-- What `run_response` does with the response of a node. -/
def deliver (s : Exchange) (c : Nat) (node : Node) (response : Response) :
    Option (Exchange × List Event) :=
  match response.delivery with
  | .sent =>
      (s.peer node.clientFd).map fun c' =>
        (s.write c' [responseMessage node response.status response.data],
          [.executed c node response])
  | .gaveUp => some (s, [.executed c node response])
  | .disconnected =>
      let out := s.disconnect node.clientFd
      some (out.1, .executed c node response :: out.2)

/-- The steps of the clients and of the threads of the server. The server reads from and
writes to a descriptor as long as it is connected. -/
def machine : System Exchange Action Event where
  step s
    | .client c a =>
        if onConnection a then none
        else (OpClient.machine.step (s.clients c) a).map fun out =>
          (s.setClient c out.1, out.2.map (.client c))
    | .sendCommand c request =>
        let client := s.clients c
        if request ∈ opcRequests ∧ s.connected c = true then
          match client.call with
          | some ⟨own, .sending⟩ =>
              some ((s.setClient c (client.goto own .creating)).setUp c
                (s.up c ++ [message client.msgIdx request]), [.sent c client.msgIdx request])
          | _ => none
        else none
    | .connectNewClient fd c =>
        if s.peer fd = none ∧ s.connected c = false then
          some ({ s with
            peer := Function.update s.peer fd (some c)
            connected := Function.update s.connected c true }.setDown c [], [])
        else none
    | .runServer fd clientId env =>
        match s.peer fd with
        | none => none
        | some c =>
            match s.up c with
            | [] => none
            | msg :: rest =>
                if env.queueLength = s.queue.length then
                  match OdroidPlayer.runServer env clientId fd msg with
                  | .error _ => none
                  | .ok (some node, _) =>
                      some ({ s.setUp c rest with queue := s.queue ++ [(c, node)] }, [])
                  | .ok (none, notices) =>
                      some ((s.setUp c rest).write c (notices.map noticeMessage), [.refused c msg])
                else none
    | .runResponse env =>
        match s.queue with
        | [] => none
        | (c, node) :: rest =>
            match OdroidPlayer.runResponse env s.prevResp node with
            | .error _ => none
            | .ok handled =>
                let s := { s with queue := rest, prevResp := handled.prevResp }
                match handled.response with
                | none => some (s, [.refused c (requestOf node)])
                | some response => s.deliver c node response
    | .sendNotifyMessage fd msg msgIdx status type cmd =>
        if type = .notify ∨ type = .brdcast then
          (s.peer fd).map fun c => (s.write c [notifyMessage msg msgIdx status type cmd], [])
        else none
    | .disconnectClient fd => some (s.disconnect fd)
    | .receive c =>
        match s.down c with
        | [] => none
        | msg :: rest =>
            ((s.clients c).receive msg).map fun out =>
              ((s.setClient c out.1).setDown c rest, out.2.map (.client c))

/-! ### What one step does -/

/-- What is answered to a node, and what is kept of it. -/
theorem runResponse_some {env : Env} {prevResp : Option Node} {node : Node} {handled : Handled}
    {response : Response} (run : OdroidPlayer.runResponse env prevResp node = .ok handled)
    (is : handled.response = some response) :
    executeCommand env prevResp node = .ok (some response.data, response.status) ∧
      response.delivery = sendLoop env.sends resendCount ∧
      handled.prevResp =
        if response.delivery = .sent then savePrevResp env node else prevResp := by
  unfold OdroidPlayer.runResponse at run
  split at run
  · cases run
  next read =>
      split at run
      · cases run
      · rw [read] at run
        cases run
        cases is
      next executed =>
          cases run
          cases is
          exact ⟨executed, rfl, rfl⟩

/-- Each way in which a step can go. -/
inductive Move (s : Exchange) : Action → Exchange → List Event → Prop where
  | client {c : Nat} {a : OpClient.Action} {client : OpClient} {es : List OpClient.Event}
      (inside : onConnection a = false) (move : (s.clients c).Move a client es) :
      Move s (.client c a) (s.setClient c client) (es.map (.client c))
  | sendCommand {c own : Nat} {request : OpcRequest} (known : request ∈ opcRequests)
      (at_ : (s.clients c).call = some ⟨own, .sending⟩) :
      Move s (.sendCommand c request)
        ((s.setClient c ((s.clients c).goto own .creating)).setUp c
          (s.up c ++ [message (s.clients c).msgIdx request]))
        [.sent c (s.clients c).msgIdx request]
  | connectNewClient {fd : Int} {c : Nat} (free : s.peer fd = none) :
      Move s (.connectNewClient fd c)
        ({ s with
          peer := Function.update s.peer fd (some c)
          connected := Function.update s.connected c true }.setDown c []) []
  | enqueue {fd clientId : Int} {env : Env} {c : Nat} {msg : AMessage} {rest : List AMessage}
      (peer : s.peer fd = some c) (up : s.up c = msg :: rest) :
      Move s (.runServer fd clientId env)
        { s.setUp c rest with
          queue := s.queue ++
            [(c, ⟨clientId, fd, msg.idx, .success, msg.type, msg.cmd, msg.data⟩)] } []
  | refuse {fd clientId : Int} {env : Env} {c : Nat} {msg : AMessage} {rest : List AMessage}
      {notices : List Notice} (up : s.up c = msg :: rest) :
      Move s (.runServer fd clientId env)
        ((s.setUp c rest).write c (notices.map noticeMessage)) [.refused c msg]
  | drop {env : Env} {c : Nat} {node : Node} {rest : List (Nat × Node)}
      {prevResp : Option Node} (queue : s.queue = (c, node) :: rest)
      (same : prevResp = s.prevResp) :
      Move s (.runResponse env) { s with queue := rest, prevResp }
        [.refused c (requestOf node)]
  | execute {env : Env} {c : Nat} {node : Node} {rest : List (Nat × Node)} {handled : Handled}
      {response : Response} {t : Exchange} {es : List Event}
      (queue : s.queue = (c, node) :: rest)
      (run : OdroidPlayer.runResponse env s.prevResp node = .ok handled)
      (is : handled.response = some response)
      (delivered : { s with queue := rest, prevResp := handled.prevResp }.deliver c node response =
        some (t, es)) : Move s (.runResponse env) t es
  | sendNotifyMessage {fd : Int} {msg : CString} {msgIdx : Int32} {status : Status}
      {type : CmdType} {cmd : Int32} {c : Nat} (notice : type = .notify ∨ type = .brdcast) :
      Move s (.sendNotifyMessage fd msg msgIdx status type cmd)
        (s.write c [notifyMessage msg msgIdx status type cmd]) []
  | disconnectClient {fd : Int} :
      Move s (.disconnectClient fd) (s.disconnect fd).1 (s.disconnect fd).2
  | receive {c : Nat} {msg : AMessage} {rest : List AMessage} {client : OpClient}
      {es : List OpClient.Event} (down : s.down c = msg :: rest)
      (received : (s.clients c).receive msg = some (client, es)) :
      Move s (.receive c) ((s.setClient c client).setDown c rest) (es.map (.client c))

/-- The events of a connection that is closed. -/
theorem disconnect_events (s : Exchange) (fd : Int) :
    ∀ e ∈ (s.disconnect fd).2, ∃ c msg, e = Event.refused c msg := by
  unfold disconnect
  split
  · simp
  next c _ =>
      intro e mem
      obtain ⟨msg, -, rfl⟩ := List.mem_map.mp mem
      exact ⟨c, msg, rfl⟩

theorem deliver_events {s t : Exchange} {c : Nat} {node : Node} {response : Response}
    {es : List Event} (delivered : s.deliver c node response = some (t, es)) :
    ∃ lost, es = .executed c node response :: lost ∧
      ∀ e ∈ lost, ∃ c' msg, e = Event.refused c' msg := by
  unfold deliver at delivered
  split at delivered
  · obtain ⟨c', -, eq⟩ := Option.map_eq_some_iff.mp delivered
    cases eq
    exact ⟨[], rfl, by simp⟩
  · cases delivered
    exact ⟨[], rfl, by simp⟩
  · cases delivered
    exact ⟨_, rfl, s.disconnect_events node.clientFd⟩

@[simp] theorem disconnect_prevResp (s : Exchange) (fd : Int) :
    (s.disconnect fd).1.prevResp = s.prevResp := by
  unfold disconnect
  split <;> rfl

theorem deliver_prevResp {s t : Exchange} {c : Nat} {node : Node} {response : Response}
    {es : List Event} (delivered : s.deliver c node response = some (t, es)) :
    t.prevResp = s.prevResp := by
  unfold deliver at delivered
  split at delivered
  · obtain ⟨c', -, eq⟩ := Option.map_eq_some_iff.mp delivered
    cases eq
    rfl
  · cases delivered
    rfl
  · cases delivered
    exact s.disconnect_prevResp node.clientFd

theorem runServer_move {s t : Exchange} {fd clientId : Int} {env : Env} {es : List Event}
    (step : machine.step s (.runServer fd clientId env) = some (t, es)) :
    Move s (.runServer fd clientId env) t es := by
  simp only [machine] at step
  split at step
  · cases step
  next c peer =>
      split at step
      · cases step
      next msg rest up =>
          split at step
          · split at step
            · cases step
            next node _ run =>
                obtain ⟨-, rfl⟩ := runServer_node run
                cases step
                exact .enqueue peer up
            next notices _ =>
                cases step
                exact .refuse up
          · cases step

theorem runResponse_move {s t : Exchange} {env : Env} {es : List Event}
    (step : machine.step s (.runResponse env) = some (t, es)) :
    Move s (.runResponse env) t es := by
  simp only [machine] at step
  split at step
  · cases step
  next c node rest queue =>
      split at step
      · cases step
      next handled run =>
          split at step
          next none =>
              cases step
              refine .drop queue ?_
              obtain ⟨-, -, ⟨-, same, -⟩ | ⟨_, _, is, -⟩⟩ := runResponse_response run
              · exact same
              · rw [none] at is
                cases is
          next response is => exact .execute queue run is step

theorem step_move {s t : Exchange} {a : Action} {es : List Event}
    (step : machine.step s a = some (t, es)) : Move s a t es := by
  cases a with
  | client c a =>
      simp only [machine] at step
      split at step
      · cases step
      next inside =>
          obtain ⟨⟨client, es⟩, move, eq⟩ := Option.map_eq_some_iff.mp step
          cases eq
          exact .client (by simpa using inside) (OpClient.step_move move)
  | sendCommand c request =>
      obtain ⟨⟨known, -⟩, step⟩ := Option.ite_none_right_eq_some.mp step
      split at step
      next own at_ =>
          cases step
          exact .sendCommand known at_
      · cases step
  | connectNewClient fd c =>
      obtain ⟨⟨free, -⟩, step⟩ := Option.ite_none_right_eq_some.mp step
      cases step
      exact .connectNewClient free
  | runServer fd clientId env => exact runServer_move step
  | runResponse env => exact runResponse_move step
  | sendNotifyMessage fd msg msgIdx status type cmd =>
      obtain ⟨notice, step⟩ := Option.ite_none_right_eq_some.mp step
      obtain ⟨c, -, eq⟩ := Option.map_eq_some_iff.mp step
      cases eq
      exact .sendNotifyMessage notice
  | disconnectClient fd =>
      have eq : s.disconnect fd = (t, es) := Option.some.inj step
      simpa only [eq] using @Move.disconnectClient s fd
  | receive c =>
      simp only [machine] at step
      split at step
      · cases step
      next msg rest down =>
          obtain ⟨⟨client, es⟩, received, eq⟩ := Option.map_eq_some_iff.mp step
          cases eq
          exact .receive down received

end Exchange

end OdroidPlayer
