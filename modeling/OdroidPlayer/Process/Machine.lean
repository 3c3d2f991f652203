import OdroidPlayer.Player.Ending
import OdroidPlayer.Queue
import OdroidPlayer.Server.Pool

/-!
The threads of the server process, from `start_player` to `clear_player`.

`main` creates them, joins them and frees the player; each of them ends with
`set_player_running(player, false)`, and so does the handler of SIGINT. That call is five
blocks: the flag, the queue, `play_cond`, and SIGUSR1 for each of the two threads that wait
in `pselect`. SIGUSR1 is blocked outside of `pselect` and stays pending until then.

The player thread is `machine` and the queue with its consumer is `Shutdown.machine`; here
they run together with what is left of the other threads, their control flow. How a client
is served in one pass of a loop is no part of it: a call of `recv` or `send` returns, because
every client has a timeout. Nor is the watchdog thread, which is detached: it is created, and
what it does to a shutdown that hangs is in `Watchdog`.

The handlers of SIGINT, in any number, run beside the threads here; `Struck` has each on the
thread that the signal has struck.
-/

namespace OdroidPlayer

open Transition Transition.System

/-- The threads that wait in `pselect`. -/
inductive SelectLoop where
  | stream | server
  deriving DecidableEq, Repr

/-- The threads of the process that call `set_player_running(player, false)`. -/
inductive Caller where
  | loop (l : SelectLoop)
  | response | play | main
  deriving DecidableEq, Repr

/-- The block of `set_player_running(player, false)` that is executed next. -/
inductive SetAt where
  /-- `player_mutex` -/
  | flag
  /-- `queue_mutex` -/
  | queue
  /-- `play_mutex` -/
  | play
  /-- `pthread_kill(player->strm_thread_id, SIGUSR1)` -/
  | kill (l : SelectLoop)
  deriving DecidableEq, Repr

def SetAt.next : SetAt → Option SetAt
  | .flag => some .queue
  | .queue => some .play
  | .play => some (.kill .stream)
  | .kill .stream => some (.kill .server)
  | .kill .server => none

/-- The statement of `run_stream` or `run_server` that is executed next. -/
inductive LoopAt where
  /-- `pthread_create` has not been called -/
  | unborn
  /-- `create_socket_uds` of `run_server` -/
  | opening
  | loopTest
  /-- `wait_fd`, before it calls `pselect` -/
  | pselect
  | waiting
  /-- `pselect` has returned, and `wait_fd` reads `running` -/
  | woken (interrupted : Bool)
  /-- the loop over the slots, of which `slots` are left -/
  | serving (slots : Nat)
  /-- behind the loop -/
  | left
  deriving DecidableEq, Repr

/-- What a thread does on its own; `ok` says whether `create_socket_uds` and the call of
`pselect` succeed. An interrupted wait is no reason for `run_stream` not to go on. -/
def LoopAt.next (l : SelectLoop) (running ok : Bool) : LoopAt → Option LoopAt
  | .opening => some (if ok then .loopTest else .left)
  | .loopTest => some (if running then .pselect else .left)
  | .pselect => some (if ok then .waiting else .left)
  | .woken interrupted =>
      some (if running = false then .left
        else if interrupted = true ∧ l = SelectLoop.server then .loopTest
        else .serving maxClients)
  | .serving 0 => some .loopTest
  | .serving (slots + 1) => some (.serving slots)
  | .unborn | .waiting | .left => none

inductive ResponseAt where
  | unborn
  | looping
  | left
  deriving DecidableEq, Repr

inductive MainAt where
  | createStream | createServer | createResponse | createWatchdog | createPlay
  | joinStream | joinServer | joinResponse | joinPlay
  /-- `set_player_running` of `clear_player` -/
  | clear
  /-- its critical section of `play_mutex` -/
  | clearChild
  /-- `if (player->play_thread_id != 0)` -/
  | joinAgain
  | free
  | freed
  deriving DecidableEq, Repr

/-- A request in the queue; `none` where it does not concern playback. -/
abbrev PlayerNode := Option Request

structure Process where
  player : State
  queue : Shutdown PlayerNode
  /-- SIGUSR1 is pending for the thread -/
  usr1 : SelectLoop → Bool
  loop : SelectLoop → LoopAt
  response : ResponseAt
  /-- the node that the response thread has taken and not executed -/
  executing : Option PlayerNode
  /-- the player thread has been created -/
  playing : Bool
  /-- where a thread is in `set_player_running` -/
  call : Caller → Option SetAt
  /-- the handlers of SIGINT that are at a block -/
  handlers : SetAt → Nat
  main : MainAt

namespace Process

inductive Action where
  | loop (l : SelectLoop) (ok : Bool)
  /-- `pselect` returns because of SIGUSR1 -/
  | wakeUp (l : SelectLoop)
  /-- because of a descriptor or another signal -/
  | ready (l : SelectLoop) (interrupted : Bool)
  /-- the server thread enqueues the message of a client -/
  | receive (node : PlayerNode)
  /-- the stream thread sends the position to a client -/
  | send
  /-- the loop test of `run_response` -/
  | dequeueCall
  | dequeue
  | execute
  | command (now : Timeval)
  | responseLeaves
  | play (a : OdroidPlayer.Action)
  /-- the next block of a call of `set_player_running` -/
  | set (c : Caller)
  | setHandler (at_ : SetAt)
  | main (ok : Bool)
  /-- SIGINT -/
  | interrupt
  | exit (pid : Nat)
  /-- `pthread_cond_wait` of `dequeue` returns without a signal -/
  | spuriousWakeup
  deriving DecidableEq, Repr

inductive Event where
  | createFailed
  | joined (c : Caller)
  | freed
  deriving DecidableEq, Repr

/-! ### What the threads do -/

def onPlayer (s : Process) (as : List OdroidPlayer.Action) : Option Process :=
  (OdroidPlayer.machine.exec s.player as).map fun out => { s with player := out.1 }

def onQueue (s : Process) (a : Shutdown.Action PlayerNode) : Option Process :=
  ((Shutdown.machine .runResponse).step s.queue a).map fun out => { s with queue := out.1 }

/-- A block of `set_player_running(player, false)`. -/
def block (s : Process) : SetAt → Option Process
  | .flag => (s.onPlayer [.shutdown]).bind (onQueue · .clearFlag)
  | .queue => s.onQueue .signalQueue
  | .play => s.onPlayer [.shutdownSignal]
  | .kill l =>
      if s.loop l = .unborn then some s else some { s with usr1 := Function.update s.usr1 l true }

def at' (s : Process) (l : SelectLoop) (at_ : LoopAt) : Process :=
  { s with loop := Function.update s.loop l at_ }

/-- The thread is in `set_player_running`, or done with it. -/
def calls (s : Process) (c : Caller) (at_ : Option SetAt) : Process :=
  { s with call := Function.update s.call c at_ }

/-- A thread that is behind its loop goes on with `set_player_running(player, false)`. -/
def loopMoved (s : Process) (l : SelectLoop) (at_ : LoopAt) : Process :=
  { s.at' l at_ with
    call := if at_ = .left then Function.update s.call (.loop l) (some .flag) else s.call }

/-- The thread has returned. -/
def Finished (s : Process) : Caller → Prop
  | .loop l => s.loop l = .left ∧ s.call (.loop l) = none
  | .response => s.response = .left ∧ s.call .response = none
  | .play => s.playing = true ∧ s.player.play = .finished ∧ s.call .play = none
  | .main => s.main = .freed

instance (s : Process) (c : Caller) : Decidable (s.Finished c) :=
  match c with
  | .loop _ => inferInstanceAs (Decidable (_ ∧ _))
  | .response => inferInstanceAs (Decidable (_ ∧ _))
  | .play => inferInstanceAs (Decidable (_ ∧ _ ∧ _))
  | .main => inferInstanceAs (Decidable (_ = _))

/-- `pthread_join` -/
def join (s : Process) (c : Caller) (next : MainAt) : Option (Process × List Event) :=
  if s.Finished c then some ({ s with main := next }, [.joined c]) else none

/-- `start_player` gives up. -/
def createFailed (s : Process) : Process × List Event :=
  (({ s with main := .clear } : Process).calls .main (some .flag), [.createFailed])

/-- `main` from `start_player` on; `ok` says whether `pthread_create` succeeds. -/
def runMain (s : Process) (ok : Bool) : Option (Process × List Event) :=
  match s.main with
  | .createStream =>
      some (if ok then ({ s with main := .createServer }.at' .stream .loopTest, [])
        else s.createFailed)
  | .createServer =>
      some (if ok then ({ s with main := .createResponse }.at' .server .opening, [])
        else s.createFailed)
  | .createResponse =>
      some (if ok then ({ s with main := .createWatchdog, response := .looping }, [])
        else s.createFailed)
  | .createWatchdog =>
      some (if ok then ({ s with main := .createPlay }, []) else s.createFailed)
  | .createPlay =>
      some (if ok then ({ s with main := .joinStream, playing := true }, [])
        else s.createFailed)
  | .joinStream => s.join (.loop .stream) .joinServer
  | .joinServer => s.join (.loop .server) .joinResponse
  | .joinResponse => s.join .response .joinPlay
  | .joinPlay =>
      (s.join .play .clear).map fun out => (out.1.calls .main (some .flag), out.2)
  | .clear => if s.call .main = none then some ({ s with main := .clearChild }, []) else none
  | .clearChild =>
      if s.player.play.holdsMutex = true then none
      else
        let out := clearPlayer s.player.player
        some ({ s with
          player.player := out.1
          player.children := out.2.foldl (kill s.player.player.childPid) s.player.children
          player.play := s.player.play.signalled
          main := .joinAgain }, [])
  | .joinAgain =>
      -- the thread has been joined by `wait_player` already
      some ({ s with main := .free }, if s.playing then [.joined .play] else [])
  | .free => some ({ s with main := .freed }, [.freed])
  | .freed => none

/-- The statements of `run_player` that are calls of `set_player_running(player, false)`. -/
def atCall (at_ : PlayAt) : Bool :=
  match at_ with
  | .endOfPlaylist | .stopPlayer => true
  | _ => false

/-- A step of the player thread; its call of `set_player_running` begins with the flag. -/
def runPlay (s : Process) (a : OdroidPlayer.Action) : Option Process :=
  if s.playing = true ∧ s.call .play = none ∧ a.ofPlayer = true then
    if atCall s.player.play then
      ((s.onPlayer [.shutdown, a]).bind (onQueue · .clearFlag)).map (·.calls .play (some .queue))
    else s.onPlayer [a]
  else none

/-- `execute_command` -/
def execute (s : Process) : Option Process :=
  match s.executing with
  | none => none
  | some none => some { s with executing := none }
  | some (some r) => (s.onPlayer [.request r]).map fun t => { t with executing := none }

def machine : System Process Action Event where
  step s
    | .loop l ok =>
        ((s.loop l).next l s.player.player.running ok).map fun at_ => (s.loopMoved l at_, [])
    | .wakeUp l =>
        if s.loop l = .waiting ∧ s.usr1 l = true then
          some ({ s.at' l (.woken true) with usr1 := Function.update s.usr1 l false }, [])
        else none
    | .ready l interrupted =>
        if s.loop l = .waiting then some (s.at' l (.woken interrupted), []) else none
    | .receive node =>
        match s.loop .server with
        | .serving (slots + 1) =>
            ((s.at' .server (.serving slots)).onQueue (.enqueue node)).map fun t => (t, [])
        | _ => none
    | .send =>
        match s.loop .stream with
        | .serving (slots + 1) =>
            -- `get_player_position` takes `play_mutex`
            if s.player.play.holdsMutex = true then none
            else some (s.at' .stream (.serving slots), [])
        | _ => none
    | .dequeueCall =>
        if s.response = .looping ∧ s.executing = none ∧ s.player.resp = .idle then
          (s.onQueue (.call true)).map fun t => (t, [])
        else none
    | .dequeue =>
        if s.response = .looping then
          ((Shutdown.machine .runResponse).step s.queue .dequeue).map fun out =>
            ({ s with queue := out.1, executing := out.2.head?.join }, [])
        else none
    | .execute => s.execute.map fun t => (t, [])
    | .command now => (s.onPlayer [.command now]).map fun t => (t, [])
    | .responseLeaves =>
        if s.response = .looping ∧ s.queue.consumer = .finished then
          some (({ s with response := .left } : Process).calls .response (some .flag), [])
        else none
    | .play a => (s.runPlay a).map fun t => (t, [])
    | .set c =>
        (s.call c).bind fun at_ =>
          (s.block at_).map fun t => (t.calls c at_.next, [])
    | .setHandler at_ =>
        if s.handlers at_ = 0 then none
        else (s.block at_).map fun t =>
          let gone := Function.update t.handlers at_ (t.handlers at_ - 1)
          ({ t with handlers := match at_.next with
              | none => gone
              | some next => Function.update gone next (gone next + 1) }, [])
    | .main ok => s.runMain ok
    | .interrupt =>
        some ({ s with handlers := Function.update s.handlers .flag (s.handlers .flag + 1) }, [])
    | .exit pid => (s.onPlayer [.exit pid]).map fun t => (t, [])
    | .spuriousWakeup => (s.onQueue .spuriousWakeup).map fun t => (t, [])

/-- `start_player` behind `set_player_running(player, true)`. -/
def startOf (player : State) : Process where
  player := player
  queue := Shutdown.init
  usr1 := fun _ => false
  loop := fun _ => .unborn
  response := .unborn
  executing := none
  playing := false
  call := fun _ => none
  handlers := fun _ => 0
  main := .createStream

def Init (s : Process) : Prop := ∃ player, OdroidPlayer.Init player ∧ s = startOf player

def Reachable (s : Process) : Prop := machine.Reachable Init s

end Process

end OdroidPlayer
