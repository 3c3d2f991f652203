import OdroidPlayer.Server.Select
import OdroidPlayer.Server.Serving

/-!
The two select loops and the response thread, one block or one system call at a time.

`wait_fd` copies the set of its loop, which is shared with the other threads, calls
`pselect` with the copy and waits. The sets have no mutex of their own: `update_fd_set` is
a step, every block under `client_mutex` is one, and between any two of them the other
threads run. The server thread accepts and disconnects clients, the response thread
executes STREAM requests and disconnects clients, the stream thread removes the streams to
which it cannot send.

`pselect` fails with EBADF exactly when a descriptor of the copy is closed at the call. One
that is closed while it waits does not end it.
-/

namespace OdroidPlayer

open Transition Transition.System

/-! ### Where the threads are -/

/-- The statement of `disconnect_client` that is executed next. -/
inductive DisconnectAt where
  /-- `update_fd_set` of `serv_set` -/
  | unwatch
  /-- `get_client_stream_fd` -/
  | fdFind
  | fdRead (idx : Nat)
  /-- `update_fd_set` of `strm_set` -/
  | unwatchStream (streamFd : Int)
  /-- the lookup of `remove_client` -/
  | removeClient
  /-- the other blocks of `remove_client` -/
  | removing
  deriving DecidableEq, Repr

inductive RunServerAt where
  /-- the loop test, and the copy that `wait_fd` makes of `serv_set` -/
  | copying
  /-- the call of `pselect` -/
  | selecting (set : Finset Int)
  /-- in `pselect`, which has found every descriptor open -/
  | waiting (set : Finset Int)
  /-- `fd_ready` of the server socket, and `accept` -/
  | testing (readSet : Finset Int)
  /-- `connect_new_client` -/
  | connecting (readSet : Finset Int)
  /-- `update_fd_set` -/
  | registering (readSet : Finset Int) (clientFd : Int)
  | scanning (readSet : Finset Int) (idx : Nat)
  /-- `receive_message` -/
  | receiving (readSet : Finset Int) (idx : Nat) (clientFd : Int)
  | disconnecting (readSet : Finset Int) (idx : Nat) (clientFd : Int) (at_ : DisconnectAt)
  | finished
  deriving DecidableEq

/-- The statement of `execute_command` that is executed next for a STREAM. Each function of
the pool looks the client up and then works on the slot. -/
inductive StreamRequestAt where
  /-- `check_stream_is_set` -/
  | setFind
  | setRead (idx : Nat)
  /-- `create_client_stream` -/
  | createFind
  | createStore (idx : Nat)
  /-- `get_client_stream_fd` of `set_new_stream` -/
  | fdFind
  | fdRead (idx : Nat)
  /-- `update_fd_set` -/
  | watch (streamFd : Int)
  | malloc
  /-- `get_server_stream_path` -/
  | serverFind
  | serverRead (idx : Nat)
  /-- `get_client_stream_path` -/
  | clientFind (serverPath : Option String)
  | clientRead (serverPath : Option String) (idx : Nat)
  /-- `set_client_stream_func` of `trigger_stream` -/
  | funcFind (serverPath clientPath : String)
  | funcStore (serverPath clientPath : String) (idx : Nat)
  /-- `pthread_kill` -/
  | kill (serverPath clientPath : String)
  deriving DecidableEq, Repr

inductive RunResponseAt where
  | waiting
  /-- `time` says that the command is TIME -/
  | request (clientFd : Int) (time : Bool) (at_ : StreamRequestAt)
  | disconnecting (clientFd : Int) (at_ : DisconnectAt)
  deriving DecidableEq, Repr

/-- The statement of `send_stream_data` that is executed next. -/
inductive SendDataAt where
  /-- `prepare_stream` -/
  | pathIndex
  | pathClient (idx : Nat)
  | pathFind (clientFd : Int)
  | pathRead (idx : Nat)
  /-- `get_stream_data` -/
  | funcIndex
  | funcClient (idx : Nat)
  | funcFind (clientFd : Int)
  | funcRead (idx : Nat)
  /-- `check_stream_alive` -/
  | aliveFind
  | aliveRead (idx : Nat)
  | sendto
  deriving DecidableEq, Repr

inductive RunStreamAt where
  | copying
  | selecting (set : Finset Int)
  | waiting (set : Finset Int)
  | scanning (writeSet : Finset Int) (idx : Nat)
  | sending (writeSet : Finset Int) (idx : Nat) (streamFd : Int) (at_ : SendDataAt)
  /-- `update_fd_set` -/
  | unwatching (writeSet : Finset Int) (idx : Nat) (streamFd : Int)
  | removing (writeSet : Finset Int) (idx : Nat) (block : StreamBlock)
  | finished
  deriving DecidableEq

structure Loops where
  clients : Threads
  serverFd : Int
  serv : Watch
  strm : Watch
  /-- `running` of the player -/
  running : Bool
  server : RunServerAt
  response : RunResponseAt
  stream : RunStreamAt

inductive LoopEvent where
  | opened (fd : Int)
  | closed (fd : Int)
  /-- `UPDATE_CLIENT_ADD` -/
  | registered (fd : Int)
  /-- a call of `pselect`, with the members of its set that are closed -/
  | pselect (closed : Finset Int)
  /-- `wait_fd` returns 0 because `pselect` has failed, and the loop ends -/
  | loopFailed
  /-- `execute_command` ends with SUCCESS and the two paths -/
  | succeeded (clientFd : Int) (serverPath clientPath : String)
  | refused (clientFd : Int)
  deriving DecidableEq

/-- What the calls return. -/
structure Results where
  /-- the descriptors that are ready -/
  ready : Finset Int
  /-- EINTR -/
  interrupted : Bool
  accept : Option Int
  /-- `receive_message` returns a message or a timeout -/
  received : Bool
  socket : SocketEnv
  /-- `malloc`, `strdup` and `pthread_kill` -/
  ok : Bool
  /-- `send_stream_data` returns 0 or 1 behind its `sendto` -/
  sent : Bool

inductive LoopAction where
  | server (r : Results)
  | response (r : Results)
  | stream (r : Results)
  /-- the response thread comes to a STREAM request -/
  | request (clientFd : Int) (time : Bool)
  /-- the response thread has failed to answer a client -/
  | disconnect (clientFd : Int)
  /-- another thread writes `running` -/
  | stop

/-! ### What they do -/

def Descriptor.event : Descriptor → LoopEvent
  | .opened fd => .opened fd
  | .closed fd => .closed fd

/-- The slots and functions as the reader of a stream finds them; `none` for -1. -/
def SendDataAt.next (streamFd : Int) (pool : Pool) : SendDataAt → Option SendDataAt
  | .pathIndex => (findClientIndex streamFd pool .streamFd).map .pathClient
  | .pathClient idx =>
      if findClient idx pool ≤ 0 then none else some (.pathFind (findClient idx pool))
  | .pathFind clientFd => (findClientIndex clientFd pool .clientFd).map .pathRead
  | .pathRead idx => (pool.slot idx).clientStreamPath.map fun _ => .funcIndex
  | .funcIndex => (findClientIndex streamFd pool .streamFd).map .funcClient
  | .funcClient idx =>
      if findClient idx pool ≤ 0 then none else some (.funcFind (findClient idx pool))
  | .funcFind clientFd => (findClientIndex clientFd pool .clientFd).map .funcRead
  | .funcRead idx => (pool.slot idx).streamFunc.map fun _ => .aliveFind
  | .aliveFind => (findClientIndex streamFd pool .streamFd).map .aliveRead
  | .aliveRead idx => if (pool.slot idx).streamSet then some .sendto else none
  | .sendto => none

/-- What `wait_fd` makes of a `pselect` that has not failed with EBADF. -/
inductive Waited where
  | stopped
  | interrupted
  | ready (set : Finset Int)

namespace Loops

def pool (s : Loops) : Pool := s.clients.pool

/-- The descriptor is open. -/
def Open (s : Loops) (fd : Int) : Prop := fd = s.serverFd ∨ s.clients.sockets fd ≠ none

instance (s : Loops) (fd : Int) : Decidable (s.Open fd) :=
  inferInstanceAs (Decidable (_ ∨ _))

def closedIn (s : Loops) (set : Finset Int) : Finset Int := set.filter fun fd => ¬ s.Open fd

/-- `none` while `pselect` waits; it has no timeout. -/
def waitFd (s : Loops) (set : Finset Int) (r : Results) : Option Waited :=
  let ready := set ∩ r.ready
  if r.interrupted = false ∧ ready = ∅ then none
  else if s.running = false then some .stopped
  else if r.interrupted then some .interrupted
  else some (.ready ready)

/-- A block of `disconnect_client`; the statement after it is `none` at the end. -/
def disconnect (s : Loops) (w : Worker) (fd : Int) :
    DisconnectAt → Option (Loops × Option DisconnectAt × List Descriptor)
  | .unwatch => some ({ s with serv := updateFdSet fd s.serv .remove }, some .fdFind, [])
  | .fdFind =>
      match findClientIndex fd s.pool .clientFd with
      | none => some (s, some .removeClient, [])
      | some idx => some (s, some (.fdRead idx), [])
  | .fdRead idx =>
      let streamFd := (s.pool.slot idx).streamFd
      some (s, some (if streamFd ≤ 0 then .removeClient else .unwatchStream streamFd), [])
  | .unwatchStream streamFd =>
      some ({ s with strm := updateFdSet streamFd s.strm .remove }, some .removeClient, [])
  | .removeClient =>
      (threads.step s.clients (.remove w fd)).map fun out =>
        ({ s with clients := out.1 }, if out.1.call w = .idle then none else some .removing, out.2)
  | .removing =>
      (s.clients.go w).map fun out =>
        ({ s with clients := out.1 }, if out.1.call w = .idle then none else some .removing, out.2)

/-- Where `run_server` is after a block of `connect_new_client`. -/
def connected (s : Loops) (readSet : Finset Int) (after : Threads) : RunServerAt :=
  match s.clients.call .server with
  | .adding fd => if after.sockets fd = none then .copying else .registering readSet fd
  | _ => if after.call .server = .idle then .copying else .connecting readSet

def runServer (s : Loops) (r : Results) : Option (Loops × List LoopEvent) :=
  match s.server with
  | .copying =>
      if s.running then some ({ s with server := .selecting s.serv.set }, [])
      else some ({ s with server := .finished }, [])
  | .selecting set =>
      if (s.closedIn set).Nonempty then
        some ({ s with running := false, server := .finished },
          [.pselect (s.closedIn set), .loopFailed])
      else some ({ s with server := .waiting set }, [.pselect (s.closedIn set)])
  | .waiting set =>
      match s.waitFd set r with
      | none => none
      | some .stopped => some ({ s with server := .finished }, [])
      | some .interrupted => some ({ s with server := .copying }, [])
      | some (.ready readSet) => some ({ s with server := .testing readSet }, [])
  | .testing readSet =>
      if s.serverFd ∈ readSet then
        match r.accept with
        | none => some ({ s with server := .copying }, [])
        | some fd =>
            if fd = s.serverFd then none
            else (threads.step s.clients (.accept fd)).map fun out =>
              ({ s with clients := out.1, server := .connecting readSet },
                out.2.map Descriptor.event)
      else some ({ s with server := .scanning readSet 0 }, [])
  | .connecting readSet =>
      (s.clients.go .server).map fun out =>
        ({ s with clients := out.1, server := s.connected readSet out.1 },
          out.2.map Descriptor.event)
  | .registering readSet clientFd =>
      some ({ s with
        serv := updateFdSet clientFd s.serv .add
        server := .scanning readSet 0 }, [.registered clientFd])
  | .scanning readSet idx =>
      if maxClients ≤ idx then some ({ s with server := .copying }, [])
      else
        let fd := findClient idx s.pool
        if fd ≤ 0 ∨ fd ∉ readSet then some ({ s with server := .scanning readSet (idx + 1) }, [])
        else some ({ s with server := .receiving readSet idx fd }, [])
  | .receiving readSet idx fd =>
      if r.received then some ({ s with server := .scanning readSet (idx + 1) }, [])
      else some ({ s with server := .disconnecting readSet idx fd .unwatch }, [])
  | .disconnecting readSet idx fd at_ =>
      (s.disconnect .server fd at_).map fun out =>
        ({ out.1 with
          server := match out.2.1 with
            | none => .scanning readSet (idx + 1)
            | some at_ => .disconnecting readSet idx fd at_ },
          out.2.2.map Descriptor.event)
  | .finished => none

/-- `socket` does not return a descriptor that is open. -/
def Admits (s : Loops) (r : Results) : Prop :=
  ∀ fd ∈ r.socket.socket, (fd : Int) ≠ s.serverFd ∧ s.clients.sockets fd = none

instance (s : Loops) (r : Results) : Decidable (s.Admits r) :=
  inferInstanceAs (Decidable (∀ fd ∈ r.socket.socket, _))

def atRequest (s : Loops) (clientFd : Int) (time : Bool) (at_ : StreamRequestAt) : Loops :=
  { s with response := .request clientFd time at_ }

/-- `trigger_stream`, unless one of the paths is missing. -/
def trigger (s : Loops) (clientFd : Int) (time : Bool) :
    Option String → Option String → Loops × List LoopEvent
  | some serverPath, some clientPath =>
      (s.atRequest clientFd time
        (if time then .funcFind serverPath clientPath else .kill serverPath clientPath), [])
  | _, _ => ({ s with response := .waiting }, [.refused clientFd])

/-- `execute_command` for a STREAM. -/
def executeStream (s : Loops) (clientFd : Int) (time : Bool) (r : Results) :
    StreamRequestAt → Option (Loops × List LoopEvent)
  | .setFind =>
      match findClientIndex clientFd s.pool .clientFd with
      | none => some (s.atRequest clientFd time .createFind, [])
      | some idx => some (s.atRequest clientFd time (.setRead idx), [])
  | .setRead idx =>
      some (s.atRequest clientFd time
        (if (s.pool.slot idx).streamSet then .malloc else .createFind), [])
  | .createFind =>
      match findClientIndex clientFd s.pool .clientFd with
      | none => some (s.atRequest clientFd time .malloc, [])
      | some idx => some (s.atRequest clientFd time (.createStore idx), [])
  | .createStore idx =>
      if s.Admits r then
        let (made, world, es) := createStreamAt r.socket idx s.clients.world
        let clients := { s.clients with world, sockets := streamSockets s.clients.sockets es }
        some ({ s with clients }.atRequest clientFd time (if made then .fdFind else .malloc),
          es.map Descriptor.event)
      else none
  | .fdFind =>
      match findClientIndex clientFd s.pool .clientFd with
      | none => some (s.atRequest clientFd time .malloc, [])
      | some idx => some (s.atRequest clientFd time (.fdRead idx), [])
  | .fdRead idx =>
      let streamFd := (s.pool.slot idx).streamFd
      some (s.atRequest clientFd time (if streamFd ≤ 0 then .malloc else .watch streamFd), [])
  | .watch streamFd =>
      some ({ s with strm := updateFdSet streamFd s.strm .add }.atRequest clientFd time .malloc,
        [.registered streamFd])
  | .malloc =>
      if r.ok then some (s.atRequest clientFd time .serverFind, [])
      else some ({ s with response := .waiting }, [.refused clientFd])
  | .serverFind =>
      match findClientIndex clientFd s.pool .clientFd with
      | none => some (s.atRequest clientFd time (.clientFind none), [])
      | some idx => some (s.atRequest clientFd time (.serverRead idx), [])
  | .serverRead idx =>
      let serverPath := if r.ok then (s.pool.slot idx).serverStreamPath else none
      some (s.atRequest clientFd time (.clientFind serverPath), [])
  | .clientFind serverPath =>
      match findClientIndex clientFd s.pool .clientFd with
      | none => some (s.trigger clientFd time serverPath none)
      | some idx => some (s.atRequest clientFd time (.clientRead serverPath idx), [])
  | .clientRead serverPath idx =>
      let clientPath := if r.ok then (s.pool.slot idx).clientStreamPath else none
      some (s.trigger clientFd time serverPath clientPath)
  | .funcFind serverPath clientPath =>
      -- `trigger_stream` does not look at what `set_client_stream_func` returns
      match findClientIndex clientFd s.pool .clientFd with
      | none => some (s.atRequest clientFd time (.kill serverPath clientPath), [])
      | some idx => some (s.atRequest clientFd time (.funcStore serverPath clientPath idx), [])
  | .funcStore serverPath clientPath idx =>
      let clients := s.clients.setPool (setFuncAt idx .getStreamTime s.pool)
      some ({ s with clients }.atRequest clientFd time (.kill serverPath clientPath), [])
  | .kill serverPath clientPath =>
      some ({ s with response := .waiting },
        [if r.ok then .succeeded clientFd serverPath clientPath else .refused clientFd])

def runResponse (s : Loops) (r : Results) : Option (Loops × List LoopEvent) :=
  match s.response with
  | .waiting => none
  | .request clientFd time at_ => s.executeStream clientFd time r at_
  | .disconnecting clientFd at_ =>
      (s.disconnect .response clientFd at_).map fun out =>
        ({ out.1 with
          response := match out.2.1 with
            | none => .waiting
            | some at_ => .disconnecting clientFd at_ },
          out.2.2.map Descriptor.event)

def runStream (s : Loops) (r : Results) : Option (Loops × List LoopEvent) :=
  match s.stream with
  | .copying =>
      if s.running then some ({ s with stream := .selecting s.strm.set }, [])
      else some ({ s with stream := .finished }, [])
  | .selecting set =>
      if (s.closedIn set).Nonempty then
        some ({ s with running := false, stream := .finished },
          [.pselect (s.closedIn set), .loopFailed])
      else some ({ s with stream := .waiting set }, [.pselect (s.closedIn set)])
  | .waiting set =>
      match s.waitFd set r with
      | none => none
      | some .stopped => some ({ s with stream := .finished }, [])
      -- `run_stream` goes on with the copy as it is
      | some .interrupted => some ({ s with stream := .scanning set 0 }, [])
      | some (.ready writeSet) => some ({ s with stream := .scanning writeSet 0 }, [])
  | .scanning writeSet idx =>
      if maxClients ≤ idx then some ({ s with stream := .copying }, [])
      else
        let streamFd := findStream idx s.pool
        if streamFd ≤ 0 ∨ streamFd ∉ writeSet then
          some ({ s with stream := .scanning writeSet (idx + 1) }, [])
        else some ({ s with stream := .sending writeSet idx streamFd .pathIndex }, [])
  | .sending writeSet idx streamFd .sendto =>
      if r.sent then some ({ s with stream := .scanning writeSet (idx + 1) }, [])
      else some ({ s with stream := .unwatching writeSet idx streamFd }, [])
  | .sending writeSet idx streamFd at_ =>
      match at_.next streamFd s.pool with
      | none => some ({ s with stream := .unwatching writeSet idx streamFd }, [])
      | some at_ => some ({ s with stream := .sending writeSet idx streamFd at_ }, [])
  | .unwatching writeSet idx streamFd =>
      some ({ s with
        strm := updateFdSet streamFd s.strm .remove
        stream := .removing writeSet idx (.find streamFd) }, [])
  | .removing writeSet idx (.close streamFd found) =>
      some ({ s with
        clients := s.clients.closeStream streamFd found
        stream := .scanning writeSet (idx + 1) }, [.closed streamFd])
  | .removing writeSet idx block =>
      match block.next s.pool with
      | none => some ({ s with stream := .scanning writeSet (idx + 1) }, [])
      | some block => some ({ s with stream := .removing writeSet idx block }, [])
  | .finished => none

/-- A node has a positive descriptor, that of the client that has sent its message. -/
def machine : System Loops LoopAction LoopEvent where
  step s
    | .server r => s.runServer r
    | .response r => s.runResponse r
    | .stream r => s.runStream r
    | .request clientFd time =>
        if s.response = .waiting ∧ 0 < clientFd then
          some (s.atRequest clientFd time .setFind, [])
        else none
    | .disconnect clientFd =>
        if s.response = .waiting ∧ 0 < clientFd then
          some ({ s with response := .disconnecting clientFd .unwatch }, [])
        else none
    | .stop => some ({ s with running := false }, [])

/-- The loops of a server between two operations: the pool, the sets and the descriptors are
those that some operations have led to, and every thread is at the top of its loop. -/
structure Between (s : Loops) (server : Server) : Prop where
  reach : servers.Reachable StartServer server
  world : s.clients.world = server.world
  serverFd : s.serverFd = server.serverFd
  serv : s.serv = server.serv
  strm : s.strm = server.strm
  opened : ∀ fd, s.Open fd ↔ fd ∈ server.opened
  idle : ∀ w, s.clients.call w = .idle
  server_ : s.server = .copying
  response : s.response = .waiting
  stream : s.stream = .copying

/-- The loops at a server that no thread works on. -/
def ofServer (server : Server) : Loops where
  clients := ⟨server.world, fun fd => if fd ∈ server.opened then some .accepted else none,
    server.clientId.toNat, fun _ => .idle⟩
  serverFd := server.serverFd
  serv := server.serv
  strm := server.strm
  running := true
  server := .copying
  response := .waiting
  stream := .copying

theorem between_ofServer {server : Server} (reach : servers.Reachable StartServer server) :
    Between (ofServer server) server where
  reach := reach
  world := rfl
  serverFd := rfl
  serv := rfl
  strm := rfl
  opened fd := by
    have tracked := tracked_reached reach
    constructor
    · rintro (rfl | isOpen)
      · exact tracked.serverFd.2
      · by_contra closed
        exact isOpen (if_neg closed)
    · intro isOpen
      exact .inr (by simp [ofServer, isOpen])
  idle _ := rfl
  server_ := rfl
  response := rfl
  stream := rfl

/-- Clients 4 and 5 are connected, and 5 has a stream with descriptor 6. -/
def twoClients : Server :=
  ((newServer |> acceptClient (some 4)) |> acceptClient (some 5)) |>
    OdroidPlayer.executeStream ⟨some 6, true, true, true⟩ true 5

theorem twoClients_between : Between (ofServer twoClients) twoClients :=
  between_ofServer ⟨_, newServer, newServer_start,
    [.accept (some 4), .accept (some 5), .stream ⟨some 6, true, true, true⟩ true 5], rfl⟩

/-- Every call succeeds, and the given descriptors are ready. -/
def goesWell (ready : Finset Int) : Results :=
  ⟨ready, false, none, true, ⟨some 7, true, true, true⟩, true, true⟩

end Loops

/-! ### What one step does -/

/-- The descriptor that `remove_client_stream` has been given. -/
def StreamBlock.streamFd : StreamBlock → Int
  | .find streamFd | .aliveFind streamFd _ | .aliveTest streamFd _ _ | .close streamFd _ => streamFd

theorem StreamBlock.next_streamFd {pool : Pool} {block after : StreamBlock}
    (goes : block.next pool = some after) : after.streamFd = block.streamFd := by
  cases block with
  | find streamFd | aliveFind streamFd idx =>
      obtain ⟨_, _, rfl⟩ := Option.map_eq_some_iff.mp goes
      rfl
  | aliveTest streamFd idx alive =>
      simp only [StreamBlock.next] at goes
      split at goes
      · cases goes
        rfl
      · cases goes
  | close => cases goes

/-- The copy that `wait_fd` has made for the `pselect` it is about to call. -/
def RunServerAt.copy : RunServerAt → Finset Int
  | .selecting set => set
  | _ => ∅

def RunStreamAt.copy : RunStreamAt → Finset Int
  | .selecting set => set
  | _ => ∅

/-- The stream that `run_stream` has found in a slot and is at. -/
def RunStreamAt.streamFd : RunStreamAt → Option Int
  | .sending _ _ streamFd _ | .unwatching _ _ streamFd => some streamFd
  | .removing _ _ block => some block.streamFd
  | _ => none

/-- The stream that it has taken out of `strm_set`. -/
def RunStreamAt.unwatched : RunStreamAt → Option Int
  | .removing _ _ block => some block.streamFd
  | _ => none

theorem RunStreamAt.streamFd_of_unwatched {at_ : RunStreamAt} {fd : Int}
    (mem : fd ∈ at_.unwatched) : fd ∈ at_.streamFd := by
  cases at_ with
  | removing => exact mem
  | _ => cases mem

namespace Loops

/-- A call of `pselect`: it fails if its set has a closed member, and only then. -/
structure Selects (s : Loops) (set : Finset Int) (es : List LoopEvent) : Prop where
  pselect : ∀ closed, .pselect closed ∈ es → closed = s.closedIn set
  failed : .loopFailed ∈ es → (s.closedIn set).Nonempty
  quiet : ∀ e ∈ es, e = .loopFailed ∨ ∃ closed, e = .pselect closed

theorem selects_ok (s : Loops) (set : Finset Int) : Selects s set [.pselect (s.closedIn set)] :=
  ⟨by simp, by simp, by simp⟩

theorem selects_failed {s : Loops} {set : Finset Int} (some_ : (s.closedIn set).Nonempty) :
    Selects s set [.pselect (s.closedIn set), .loopFailed] :=
  ⟨by simp, fun _ => some_, by simp⟩

/-- Each way in which the stream thread can go on. -/
inductive StreamMove (s : Loops) : Loops → List LoopEvent → Prop where
  | copies : StreamMove s { s with stream := .selecting s.strm.set } []
  | selects {set : Finset Int} {running : Bool} {stream : RunStreamAt} {es : List LoopEvent}
      (at_ : s.stream = .selecting set) (copy : stream.copy = ∅) (found : stream.streamFd = none)
      (selects : Selects s set es) : StreamMove s { s with running, stream } es
  | goes {stream : RunStreamAt} (copy : stream.copy = ∅)
      (found : ∀ fd ∈ stream.streamFd, fd ∈ s.stream.streamFd ∨
        0 < fd ∧ ∃ idx, (s.pool.slot idx).streamFd = fd)
      (unwatched : ∀ fd ∈ stream.unwatched, fd ∈ s.stream.unwatched) :
      StreamMove s { s with stream } []
  | unwatches {writeSet : Finset Int} {idx : Nat} {streamFd : Int}
      (at_ : s.stream = .unwatching writeSet idx streamFd) :
      StreamMove s
        { s with
          strm := updateFdSet streamFd s.strm .remove
          stream := .removing writeSet idx (.find streamFd) } []
  | closes {writeSet : Finset Int} {idx found : Nat} {streamFd : Int}
      (at_ : s.stream = .removing writeSet idx (.close streamFd found)) :
      StreamMove s
        { s with
          clients := s.clients.closeStream streamFd found
          stream := .scanning writeSet (idx + 1) } [.closed streamFd]

/-- The thread goes where it is at no stream. -/
theorem StreamMove.leaves {s : Loops} {stream : RunStreamAt} (copy : stream.copy = ∅)
    (nowhere : stream.streamFd = none) : StreamMove s { s with stream } [] := by
  refine .goes copy (fun fd mem => ?_) (fun fd mem => ?_)
  · rw [nowhere] at mem
    cases mem
  · have still := RunStreamAt.streamFd_of_unwatched mem
    rw [nowhere] at still
    cases still

/-- The thread stays at the stream it is at, which is still in `strm_set`. -/
theorem StreamMove.stays {s : Loops} {stream : RunStreamAt} (copy : stream.copy = ∅)
    (same : stream.streamFd = s.stream.streamFd) (watched : stream.unwatched = none) :
    StreamMove s { s with stream } [] := by
  refine .goes copy (fun fd mem => .inl (same ▸ mem)) (fun fd mem => ?_)
  rw [watched] at mem
  cases mem

theorem runStream_move {s t : Loops} {r : Results} {es : List LoopEvent}
    (step : s.runStream r = some (t, es)) : StreamMove s t es := by
  unfold runStream at step
  split at step
  next at_ =>
      split at step
      · cases step
        exact .copies
      · cases step
        exact .leaves rfl rfl
  next set at_ =>
      split at step
      next failed =>
          cases step
          exact .selects at_ rfl rfl (selects_failed failed)
      · cases step
        exact .selects at_ rfl rfl (selects_ok s set)
  next set at_ =>
      split at step
      · cases step
      all_goals
        cases step
        exact .leaves rfl rfl
  next writeSet idx at_ =>
      split at step
      · cases step
        exact .leaves rfl rfl
      · dsimp only at step
        split at step
        · cases step
          exact .leaves rfl rfl
        next ready =>
            cases step
            refine .goes rfl ?_ (by rintro fd ⟨⟩)
            rintro fd ⟨⟩
            exact .inr ⟨not_le.mp (not_or.mp ready).1, idx, rfl⟩
  next writeSet idx streamFd at_ =>
      split at step
      · cases step
        exact .leaves rfl rfl
      · cases step
        exact .stays rfl (by rw [at_]; rfl) rfl
  next writeSet idx streamFd at_' _ at_ =>
      split at step
      · cases step
        exact .stays rfl (by rw [at_]; rfl) rfl
      · cases step
        exact .stays rfl (by rw [at_]; rfl) rfl
  next at_ =>
      cases step
      exact .unwatches at_
  next at_ =>
      cases step
      exact .closes at_
  next writeSet idx block _ at_ =>
      split at step
      · cases step
        exact .leaves rfl rfl
      next block' goes =>
          cases step
          have same := StreamBlock.next_streamFd goes
          refine .goes rfl ?_ ?_
          · rintro fd ⟨⟩
            exact .inl (by rw [at_, same]; rfl)
          · rintro fd ⟨⟩
            rw [at_, same]
            rfl
  · cases step

end Loops

end OdroidPlayer
