import OdroidPlayer.Server.Handle
import OdroidPlayer.Server.Threads

/-!
The server from the arrival of a message to its response, while clients come and go.

The server thread reads messages of the clients in the pool and enqueues a node for each,
the response thread answers the nodes in their order, the stream thread sends to the
streams. A step is one block under `client_mutex` or one system call, and the calls of
`receive_message` are one step, as nobody else accepts while it runs. A node names its
client by the id and by the descriptor, and everything that is done for it is done by the
descriptor (`Effect`).

Which clients are ready and what is sent to a stream is left to the environment. The
broadcast in front of a response goes to every client, and what a command does to the
player to none; both are left out.
-/

namespace OdroidPlayer

open Transition

/-- Where the server thread is in its loop over the clients. -/
inductive ScanAt where
  | outside
  /-- `find_client_id` -/
  | found (idx : Nat) (fd : Int)
  /-- `receive_message` -/
  | receiving (clientId fd : Int)
  deriving DecidableEq, Repr

/-- The functions with which a STREAM looks its client up and then works on the slot. -/
inductive StreamCall where
  | checkStreamIsSet | createClientStream | setClientStreamFunc
  deriving DecidableEq, Repr

/-- The next call of `send`: for the response, or for the notice that the last one failed. -/
inductive SendPart where
  | length | message
  | noticeLength (timeout : Bool)
  | noticeMessage (timeout : Bool)
  deriving DecidableEq, Repr

/-- Where the response thread is with its node. -/
inductive RespondAt where
  | waiting
  | lookup (node : Node) (call : StreamCall)
  | slot (node : Node) (call : StreamCall) (idx : Nat)
  /-- `execute_command` makes its strings -/
  | executing (node : Node)
  /-- with the number of attempts left -/
  | sending (node : Node) (left : Nat) (part : SendPart)
  /-- `disconnect_client` -/
  | removing (node : Node)
  deriving DecidableEq, Repr

def RespondAt.node : RespondAt → Option Node
  | .waiting => none
  | .lookup node _ | .slot node _ _ | .executing node | .sending node _ _ | .removing node =>
      some node

/-- Where the stream thread is in its loop over the streams. -/
inductive StreamAt where
  | outside
  /-- `send_stream_data` -/
  | sending (streamFd : Int)
  /-- `remove_client_stream` -/
  | removing (block : StreamBlock)
  deriving DecidableEq, Repr

structure Serving where
  clients : Threads
  queue : List Node
  scan : ScanAt
  respond : RespondAt
  stream : StreamAt

/-- What is done to clients on account of a node. -/
inductive Effect where
  /-- a part of the response or of a notice is sent -/
  | written (node : Node) (socket : Socket)
  /-- `disconnect_client` closes an open descriptor -/
  | closed (node : Node) (socket : Socket)
  /-- `disconnect_client` clears the slot of a client -/
  | removed (node : Node) (entry : Client)
  /-- a STREAM changes the slot of a client -/
  | streamed (node : Node) (entry : Client)

inductive Reception where
  /-- with the result of `create_node` and `enqueue` -/
  | message (msg : AMessage) (enqueued : Bool)
  | timeout
  | failed

/-- What `execute_command` does next, given whether the stream of the client is set. -/
def StreamCall.after (node : Node) (set : Bool) : StreamCall → RespondAt
  | .checkStreamIsSet => if set then .executing node else .lookup node .createClientStream
  | .createClientStream => .executing node
  | .setClientStreamFunc => .sending node resendCount .length

/-- Where `run_response` goes when `send_response` fails. -/
def RespondAt.again (node : Node) (left : Nat) (timeout : Bool) : RespondAt :=
  if timeout = false then .removing node
  else if left = 1 then .waiting
  else .sending node (left - 1) .length

/-- Where it goes from a call of `send`. -/
def SendPart.after (node : Node) (left : Nat) (r : SendRet) : SendPart → RespondAt
  | .length => if r = .sent then .sending node left .message
      else .sending node left (.noticeLength (r = .timeout))
  | .message => if r = .sent then .waiting
      else .sending node left (.noticeLength (r = .timeout))
  | .noticeLength timeout => if r = .sent then .sending node left (.noticeMessage timeout)
      else .again node left timeout
  | .noticeMessage timeout => .again node left timeout

/-- The sockets after those of a stream have been opened and closed. -/
def streamSockets (sockets : Int → Option Socket) : List Descriptor → Int → Option Socket
  | [] => sockets
  | .opened fd :: es => streamSockets (Function.update sockets fd (some .stream)) es
  | .closed fd :: es => streamSockets (Function.update sockets fd none) es

namespace Serving

/-- A block that changes a slot affects the client that is in it. -/
def entry (s : Serving) (idx : Nat) (effect : Client → Effect) : List Effect :=
  if (s.clients.pool.slot idx).connected then [effect (s.clients.pool.slot idx)] else []

/-- The part of `run_server` behind `find_client_id`. A closed descriptor gives an error. -/
def receive (s : Serving) (clientId fd : Int) : Reception → Option Serving
  | .message msg enqueued =>
      if s.clients.sockets fd = none ∨ msg.data = [] then none
      else
        let node := ⟨clientId, fd, msg.idx, .success, msg.type, msg.cmd, msg.data⟩
        some { s with
          scan := .outside
          queue := if enqueued then s.queue ++ [node] else s.queue }
  | .timeout =>
      if s.clients.sockets fd = none then none else some { s with scan := .outside }
  | .failed =>
      (threads.step s.clients (.remove .server fd)).map fun out =>
        { s with scan := .outside, clients := out.1 }

/-- The second block of a call for a STREAM. -/
def slotBlock (s : Serving) (env : SocketEnv) (node : Node) (idx : Nat) :
    StreamCall → Option (Serving × List Effect)
  | .checkStreamIsSet =>
      let set := (s.clients.pool.slot idx).streamSet
      some ({ s with respond := StreamCall.checkStreamIsSet.after node set }, [])
  | .createClientStream =>
      -- `socket` does not return a descriptor that is open
      if env.socket.all fun fd => s.clients.sockets fd = none then
        let made := createStreamAt env idx s.clients.world
        let clients := { s.clients with
          world := made.2.1
          sockets := streamSockets s.clients.sockets made.2.2 }
        some ({ s with
          clients := clients
          respond := StreamCall.createClientStream.after node true }, s.entry idx (.streamed node))
      else none
  | .setClientStreamFunc =>
      let pool := setFuncAt idx .getStreamTime s.clients.pool
      some ({ s with
        clients := s.clients.setPool pool
        respond := StreamCall.setClientStreamFunc.after node true }, s.entry idx (.streamed node))

/-- `send` to anything but a client fails. -/
def send (s : Serving) (node : Node) (left : Nat) (part : SendPart) (r : SendRet) :
    Option (Serving × List Effect) :=
  let next := { s with respond := part.after node left r }
  if r = .failed then some (next, [])
  else
    match s.clients.sockets node.clientFd with
    | none | some .stream => none
    | some socket => some (next, if r = .sent then [.written node socket] else [])

/-- The descriptors that a block of `disconnect_client` closes. -/
def closes (s : Serving) (node : Node) : Descriptor → Option Effect
  | .opened _ => none
  | .closed fd => (s.clients.sockets fd).map (.closed node)

/-- The client whose slot a block of `disconnect_client` clears. -/
def clears (s : Serving) (node : Node) : CallAt → List Effect
  | .clear _ idx => s.entry idx (.removed node)
  | _ => []

/-- `disconnect_client` of the response thread, which begins with its lookup. -/
def disconnect (s : Serving) (node : Node) : Option (Serving × List Effect) :=
  let block : ThreadAction :=
    if s.clients.call .response = .idle then .remove .response node.clientFd
    else .go .response
  (threads.step s.clients block).map fun out =>
    ({ s with
        clients := out.1
        respond := if out.1.call .response = .idle then .waiting else .removing node },
      out.2.filterMap (s.closes node) ++ s.clears node (s.clients.call .response))

/-- A block of `remove_client_stream` in the stream thread. -/
def removeStream (s : Serving) : StreamBlock → Serving
  | .close streamFd idx =>
      { s with clients := s.clients.closeStream streamFd idx, stream := .outside }
  | block =>
      match block.next s.clients.pool with
      | none => { s with stream := .outside }
      | some block => { s with stream := .removing block }

end Serving

inductive ServeAction where
  | accept (fd : Int)
  /-- the next block of `connect_new_client` or of `disconnect_client` -/
  | server
  | findClient (idx : Nat)
  | findClientId
  | receive (r : Reception)
  | dequeue
  | lookup
  | slot (env : SocketEnv)
  /-- with the results of `malloc` and of the lookups of the two paths -/
  | execute (malloc paths : Bool)
  | send (r : SendRet)
  /-- the next block of `disconnect_client` -/
  | disconnect
  | findStream (idx : Nat)
  | sendStream (sent : Bool)
  | removeStream

def serving : System Serving ServeAction Effect where
  step s
    | .accept fd =>
        if s.scan = .outside then
          (threads.step s.clients (.accept fd)).map fun out => ({ s with clients := out.1 }, [])
        else none
    | .server =>
        if s.scan = .outside then
          (threads.step s.clients (.go .server)).map fun out => ({ s with clients := out.1 }, [])
        else none
    | .findClient idx =>
        if s.scan = .outside ∧ s.clients.call .server = .idle ∧ idx < maxClients then
          let fd := findClient idx s.clients.pool
          some ({ s with scan := if fd ≤ 0 then .outside else .found idx fd }, [])
        else none
    | .findClientId =>
        match s.scan with
        | .found idx fd =>
            let clientId := findClientId idx s.clients.pool
            some ({ s with scan := if clientId < 0 then .outside else .receiving clientId fd }, [])
        | _ => none
    | .receive r =>
        match s.scan with
        | .receiving clientId fd => (s.receive clientId fd r).map fun next => (next, [])
        | _ => none
    | .dequeue =>
        match s.respond, s.queue with
        | .waiting, node :: queue =>
            let respond := if node.type = CmdType.stream.value
              then RespondAt.lookup node .checkStreamIsSet else .executing node
            some ({ s with queue := queue, respond := respond }, [])
        | _, _ => none
    | .lookup =>
        match s.respond with
        | .lookup node call =>
            match findClientIndex node.clientFd s.clients.pool .clientFd with
            | none => some ({ s with respond := call.after node false }, [])
            | some idx => some ({ s with respond := .slot node call idx }, [])
        | _ => none
    | .slot env =>
        match s.respond with
        | .slot node call idx => s.slotBlock env node idx call
        | _ => none
    | .execute malloc paths =>
        match s.respond with
        | .executing node =>
            let respond :=
              if malloc = false then .waiting
              else if node.type = CmdType.command.value then
                RespondAt.sending node resendCount .length
              else if node.type = CmdType.stream.value then
                if paths = true ∧ node.cmd = Cmd.time.value then .lookup node .setClientStreamFunc
                else .sending node resendCount .length
              else .waiting
            some ({ s with respond := respond }, [])
        | _ => none
    | .send r =>
        match s.respond with
        | .sending node left part => s.send node left part r
        | _ => none
    | .disconnect =>
        match s.respond with
        | .removing node => s.disconnect node
        | _ => none
    | .findStream idx =>
        if s.stream = .outside ∧ idx < maxClients then
          let fd := (s.clients.pool.slot idx).streamFd
          some ({ s with stream := if fd ≤ 0 then .outside else .sending fd }, [])
        else none
    | .sendStream sent =>
        match s.stream with
        | .sending streamFd =>
            let stream := if sent then StreamAt.outside else .removing (.find streamFd)
            some ({ s with stream := stream }, [])
        | _ => none
    | .removeStream =>
        match s.stream with
        | .removing block => some (s.removeStream block, [])
        | _ => none

/-- No request has been received, and no call has begun. -/
def NoRequests (s : Serving) : Prop :=
  NoCalls s.clients ∧ s.queue = [] ∧ s.scan = .outside ∧ s.respond = .waiting ∧
    s.stream = .outside

/-! ### Whose clients are affected -/

/-- The effect is one on the client of its node. -/
def Effect.Own : Effect → Prop
  | .written node socket => socket = .client node.clientId
  | .closed node socket => socket = .client node.clientId ∨ socket = .stream
  | .removed node entry | .streamed node entry => entry.clientId = node.clientId

/-- The nodes that have been enqueued and not been dealt with. -/
def Serving.nodes (s : Serving) : List Node := s.respond.node.toList ++ s.queue

/-- The slot that the response thread has looked up in order to change it. -/
def Serving.held (s : Serving) : Option Nat :=
  match s.respond with
  | .slot _ call idx => if call = .checkStreamIsSet then none else some idx
  | .removing _ => (s.clients.call .response).removing.map Prod.snd
  | _ => none

def StreamBlock.closing : StreamBlock → Option Int
  | .close streamFd _ => some streamFd
  | _ => none

def CallAt.closing : CallAt → Option Int
  | .stream _ _ block => block.closing
  | _ => none

/-- The stream descriptor that the next step closes. -/
def Serving.closing (s : Serving) : ServeAction → Option Int
  | .server => (s.clients.call .server).closing
  | .disconnect => (s.clients.call .response).closing
  | .removeStream =>
      match s.stream with
      | .removing block => block.closing
      | _ => none
  | _ => none

/-- What is still in use for one client is not taken for another one. -/
structure Unmixed (s : Serving) (a : ServeAction) : Prop where
  accept : ∀ fd, a = .accept fd → ∀ node ∈ s.nodes, node.clientFd ≠ fd
  fill : ∀ fd idx, a = .server → s.clients.call .server = .adding fd → s.held = some idx →
    s.clients.pool.fds.findIdx? (fun fd => fd = 0) ≠ some idx
  stream : ∀ fd, s.closing a = some fd → ∀ socket, s.clients.sockets fd = some socket →
    socket = .stream

end OdroidPlayer
