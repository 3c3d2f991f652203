import OdroidPlayer.Player.Command
import OdroidPlayer.Lib.Transition

/-!
The player thread and the response thread as one transition system.

`run_player` is cut into its statements (`PlayAt`); every critical section of
`play_mutex` is one step, except that the tests of `get_player_running` inside the
first one are steps of their own, because that flag is written without `play_mutex`.
The response thread runs one request at a time: what a `cmd_*` function reads before
it calls `command_player` is one step, the critical section of `command_player` the
next. The kernel keeps the children not yet reaped; a child may exit at any time, and
`fork` returns any process id that no such child has. Other threads may request a
shutdown (`set_player_running(player, false)`), in its two steps that playback sees.
-/

namespace OdroidPlayer

/-- A child process that has not been reaped. -/
structure Child where
  pid : Nat
  uri : String
  /-- stopped by the last SIGSTOP, or running -/
  stopped : Bool
  /-- SIGTERM has been sent to it -/
  terminated : Bool
  exited : Bool
  deriving DecidableEq, Repr

/-- What a signal does to a child; a zombie keeps its state. -/
def Child.deliver (child : Child) (signal : Signal) : Child :=
  if child.exited then child
  else match signal with
    | .sigstop => { child with stopped := true }
    | .sigcont => { child with stopped := false }
    | .sigterm => { child with terminated := true }

/-- `kill(pid, signal)` on the children of the player. -/
def kill (pid : Nat) (children : List Child) (signal : Signal) : List Child :=
  children.map fun child => if child.pid = pid then child.deliver signal else child

/-- The statement of `run_player` that the player thread executes next, with the
locals that are still read. -/
inductive PlayAt where
  /-- `while (get_player_running(player) == true)` -/
  | loopTest
  /-- `pthread_mutex_lock` before the wait loop, or its return inside `cond_wait` -/
  | waitLock
  /-- the first two conjuncts of the wait loop's condition -/
  | waitTest
  /-- its third conjunct, `get_player_running(player)` -/
  | waitRunning
  /-- blocked in `pthread_cond_wait` -/
  | condWait
  /-- `if (!get_player_running(player))` after the wait loop -/
  | runningTest
  /-- `if (player->child_stopped && player->pending_command != PLAY_CMD_NONE)` -/
  | stoppedTest
  /-- the branches on `wakeup`, after the unlock -/
  | wakeup (command : PlayerCmd)
  | readUri
  | spawn (uri : String)
  /-- `usleep` after a failed fork -/
  | retrySleep
  /-- the critical section that records the child -/
  | record (pid : Nat)
  | waitpid (pid : Nat)
  /-- the critical section that forgets the child -/
  | cleanup (pid : Nat)
  /-- `if (!get_player_running(player))` after the cleanup -/
  | exitTest (pending : PlayerCmd)
  /-- the branches on `pending` -/
  | dispatch (pending : PlayerCmd)
  | setStopped
  /-- `set_player_running(player, false)` at the end of the playlist -/
  | endOfPlaylist
  /-- `set_player_running(player, false)` after the loop -/
  | stopPlayer
  | finished
  deriving DecidableEq, Repr

/-- The statements executed with `play_mutex` held. -/
def PlayAt.holdsMutex : PlayAt → Bool
  | .waitTest | .waitRunning | .runningTest | .stoppedTest => true
  | _ => false

/-- `pthread_cond_signal(&player->play_cond)`: a waiter goes on to take the mutex. -/
def PlayAt.signalled : PlayAt → PlayAt
  | .condWait => .waitLock
  | at' => at'

/-- The requests of a client that concern playback. -/
inductive Request where
  | play | stop | pause | next | prev | uri
  deriving DecidableEq, Repr

/-- The string a `cmd_*` function returns; a uri of the playlist is marked as one. -/
inductive Reply where
  | text (s : String)
  | uri (s : String)
  deriving DecidableEq, Repr

/-- What a `cmd_*` function has decided when it reaches `command_player`. -/
inductive Decision where
  | answer (reply : Reply)
  | call (command : PlayerCmd) (reply : Reply)
  /-- `strdup` of a NULL uri -/
  | crash
  deriving DecidableEq, Repr

def cmdPlay (player : Player) : Decision :=
  if player.childPaused then .call .resume (.text "play")
  else if player.childPid = 0 then .call .replay (.text "play")
  else .answer (.text "play")

def cmdStop : Decision := .call .stop (.text "stop")

def cmdPause : Decision := .call .pause (.text "pause")

def cmdNext (player : Player) : Decision :=
  let idx := getPlaylistCurIdx player.playlist
  let target := if (getPlaylistFilenum player.playlist : Int) ≤ idx + 1 then 0 else idx + 1
  if (getPlaylistFilenum player.playlist : Int) ≤ idx + 1 ∧ player.loop = false then
    .answer (.text "End of the playlist")
  else match getPlaylistUri player.playlist target with
    | none => .crash
    | some filename => .call .next (.uri filename)

def cmdPrev (player : Player) : Decision :=
  let idx := getPlaylistCurIdx player.playlist
  if idx - 1 < 0 then .answer (.text "Start of the playlist")
  else match getPlaylistUri player.playlist (idx - 1) with
    | none => .crash
    | some filename => .call .prev (.uri filename)

def cmdUri (player : Player) : Decision :=
  match getPlaylistCurrentUri player.playlist with
  | none => .crash
  | some uri => .answer (.uri uri)

def Request.decide (player : Player) : Request → Decision
  | .play => cmdPlay player
  | .stop => cmdStop
  | .pause => cmdPause
  | .next => cmdNext player
  | .prev => cmdPrev player
  | .uri => cmdUri player

inductive RespAt where
  | idle
  | calling (request : Request) (command : PlayerCmd) (reply : Reply)
  | crashed
  deriving DecidableEq, Repr

/-- The branch that `run_player` takes after it has reaped a child. -/
inductive Branch where
  | stop | prev | replay | forward
  deriving DecidableEq, Repr

def PlayerCmd.branch : PlayerCmd → Branch
  | .stop => .stop
  | .prev => .prev
  | .replay => .replay
  | _ => .forward

inductive Event where
  /-- the response thread has executed `command_player` -/
  | executed (command : PlayerCmd)
  /-- a `cmd_*` function has returned -/
  | answered (request : Request) (reply : Reply)
  | killed (pid : Nat) (signal : Signal)
  | spawned (pid : Nat) (uri : String)
  | recorded (pid : Nat)
  | reaped (pid : Nat)
  /-- the cleanup has run and has taken `pending` -/
  | cleaned (pid : Nat) (pending : PlayerCmd)
  | took (branch : Branch)
  /-- `send_broadcast_message(.., uri, -1, STATUS__BRDINFO, CMD__URI)` -/
  | broadcast (uri : String)
  deriving DecidableEq, Repr

inductive WaitResult where
  | reaped | eintr | failed
  deriving DecidableEq, Repr

structure State where
  player : Player
  children : List Child
  play : PlayAt
  resp : RespAt
  /-- threads that have cleared `running` and have yet to signal `play_cond` -/
  stopping : Nat
  deriving DecidableEq, Repr

/-- One action of a thread or of the kernel, with the choices that it resolves. -/
inductive Action where
  | play
  | fork (result : Option Nat)
  | record (now : Timeval)
  | waitpid (result : WaitResult)
  | spuriousWakeup
  | request (r : Request)
  | command (now : Timeval)
  | exit (pid : Nat)
  | shutdown
  | shutdownSignal
  deriving DecidableEq, Repr

def State.jump (s : State) (target : PlayAt) : State := { s with play := target }

@[simp] theorem State.jump_player (s : State) (target : PlayAt) :
    (s.jump target).player = s.player := rfl

@[simp] theorem State.jump_children (s : State) (target : PlayAt) :
    (s.jump target).children = s.children := rfl

@[simp] theorem State.jump_play (s : State) (target : PlayAt) : (s.jump target).play = target := rfl

@[simp] theorem State.jump_resp (s : State) (target : PlayAt) : (s.jump target).resp = s.resp := rfl

/-- The broadcast of `forward_playlist` and `backward_playlist`. -/
def broadcastUri (uri : Option String) : List Event := (uri.map Event.broadcast).toList

/-- `forward_playlist` on the shared state; `none` when it returns false. -/
def State.forward (s : State) : Option (State × List Event) :=
  (forwardPlaylist s.player.loop s.player.playlist).map fun out =>
    ({ s with player.playlist := out.1 }, broadcastUri out.2)

def State.backward (s : State) : Option (State × List Event) :=
  (backwardPlaylist s.player.playlist).map fun out =>
    ({ s with player.playlist := out.1 }, broadcastUri out.2)

/-- A call of `forward_playlist` or `backward_playlist` whose result is not used. -/
def State.orStay (s : State) (moved : Option (State × List Event)) : State × List Event :=
  moved.getD (s, [])

/-- The default branch of `run_player` and the test of what `forward_playlist` returned. -/
def State.takeForward (s : State) : State × List Event :=
  match s.forward with
  | none => (s.jump .endOfPlaylist, [.took .forward])
  | some (moved, es) => (moved.jump .loopTest, .took .forward :: es)

/-- The statements of `run_player` that leave nothing to the environment. -/
def runPlayer (s : State) : Option (State × List Event) :=
  match s.play with
  | .loopTest => some (s.jump (if s.player.running then .waitLock else .stopPlayer), [])
  | .waitLock => some (s.jump .waitTest, [])
  | .waitTest =>
      some (s.jump (if s.player.childStopped ∧ s.player.pendingCommand = .none then .waitRunning
        else .runningTest), [])
  | .waitRunning => some (s.jump (if s.player.running then .condWait else .runningTest), [])
  | .runningTest => some (s.jump (if s.player.running then .stoppedTest else .stopPlayer), [])
  | .stoppedTest =>
      if s.player.childStopped ∧ s.player.pendingCommand ≠ .none then
        some ({ s with
          player.pendingCommand := .none
          player.childStopped := false
          play := .wakeup s.player.pendingCommand }, [])
      else some (s.jump .readUri, [])
  | .wakeup command =>
      let out := match command with
        | .next => s.orStay s.forward
        | .prev => s.orStay s.backward
        | _ => (s, [])
      some (out.1.jump .readUri, out.2)
  | .readUri =>
      match getPlaylistUri s.player.playlist (getPlaylistCurIdx s.player.playlist) with
      | none => some (s.jump .stopPlayer, [])
      | some uri => some (s.jump (.spawn uri), [])
  | .retrySleep => some (s.jump .loopTest, [])
  | .cleanup pid =>
      some ({ s with
        player.pendingCommand := .none
        player.childPid := 0
        player.childPaused := false
        player.childStartTime := ⟨0, 0⟩
        play := .exitTest s.player.pendingCommand },
        [.cleaned pid s.player.pendingCommand])
  | .exitTest pending =>
      some (s.jump (if s.player.running then .dispatch pending else .stopPlayer), [])
  | .dispatch .stop => some (s.jump .setStopped, [.took .stop])
  | .dispatch .prev =>
      let out := s.orStay s.backward
      some (out.1.jump .loopTest, .took .prev :: out.2)
  | .dispatch .replay => some (s.jump .loopTest, [.took .replay])
  | .dispatch _ => some s.takeForward
  | .setStopped => some ({ s with player.childStopped := true, play := .loopTest }, [])
  | .endOfPlaylist => some ({ s with player.running := false, play := .stopPlayer }, [])
  | .stopPlayer => some ({ s with player.running := false, play := .finished }, [])
  | .condWait | .spawn _ | .record _ | .waitpid _ | .finished => none

/-- `spawn_child`: `fork` fails, or returns an id that no unreaped child has. -/
def spawnChild (s : State) (result : Option Nat) : Option (State × List Event) :=
  match s.play, result with
  | .spawn _, none => some (s.jump .retrySleep, [])
  | .spawn uri, some pid =>
      if 0 < pid ∧ ∀ child ∈ s.children, child.pid ≠ pid then
        some ({ s with
          children := s.children ++ [⟨pid, uri, false, false, false⟩]
          play := .record pid }, [.spawned pid uri])
      else none
  | _, _ => none

/-- The critical section in which `run_player` records a spawned child. -/
def recordChild (s : State) (now : Timeval) : Option (State × List Event) :=
  match s.play with
  | .record pid =>
      some ({ s with
        player.childPid := pid
        player.childPaused := false
        player.pausedOffsetUs := 0
        player.childStartTime := now
        play := .waitpid pid }, [.recorded pid])
  | _ => none

/-- A return of `waitpid(pid, &status, 0)`; it fails otherwise than by a signal only
when `pid` is no child of the player. -/
def waitChild (s : State) (result : WaitResult) : Option (State × List Event) :=
  match s.play, result with
  | .waitpid pid, .reaped =>
      if ∃ child ∈ s.children, child.pid = pid ∧ child.exited = true then
        some ({ s with
          children := s.children.filter (·.pid ≠ pid)
          play := .cleanup pid }, [.reaped pid])
      else none
  | .waitpid _, .eintr => some (s, [])
  | .waitpid pid, .failed =>
      if ∀ child ∈ s.children, child.pid ≠ pid then some (s.jump (.cleanup pid), []) else none
  | _, _ => none

/-- The response thread enters a `cmd_*` function; `cmd_play` takes `play_mutex`. -/
def startRequest (s : State) (r : Request) : Option (State × List Event) :=
  match s.resp with
  | .idle =>
      if r = .play ∧ s.play.holdsMutex = true then none
      else match r.decide s.player with
        | .answer reply => some (s, [.answered r reply])
        | .call command reply => some ({ s with resp := .calling r command reply }, [])
        | .crash => some ({ s with resp := .crashed }, [])
  | _ => none

/-- The state that `command_player` leaves: the signals have reached the child and
`play_cond` has been signalled. -/
def State.commanded (s : State) (now : Timeval) (command : PlayerCmd) : State :=
  let out := commandPlayer now command s.player
  { s with
    player := out.1
    children := out.2.foldl (kill s.player.childPid) s.children
    play := s.play.signalled
    resp := .idle }

/-- The response thread executes `command_player` and returns from the `cmd_*` function. -/
def callCommandPlayer (s : State) (now : Timeval) : Option (State × List Event) :=
  match s.resp with
  | .calling r command reply =>
      if s.play.holdsMutex then none
      else some (s.commanded now command,
        .executed command :: (commandPlayer now command s.player).2.map (.killed s.player.childPid)
          ++ [.answered r reply])
  | _ => none

def step (s : State) : Action → Option (State × List Event)
  | .play => runPlayer s
  | .fork result => spawnChild s result
  | .record now => recordChild s now
  | .waitpid result => waitChild s result
  | .spuriousWakeup => if s.play = .condWait then some (s.jump .waitLock, []) else none
  | .request r => startRequest s r
  | .command now => callCommandPlayer s now
  | .exit pid =>
      some ({ s with
        children := s.children.map fun child =>
          if child.pid = pid then { child with exited := true } else child }, [])
  | .shutdown => some ({ s with player.running := false, stopping := s.stopping + 1 }, [])
  | .shutdownSignal =>
      if s.stopping = 0 ∨ s.play.holdsMutex = true then none
      else some ({ s with play := s.play.signalled, stopping := s.stopping - 1 }, [])

def machine : Transition.System State Action Event := ⟨step⟩

/-- `start_player` on a prepared player. -/
def startPlayer (player : Player) : State where
  player := { player with running := true }
  children := []
  play := .loopTest
  resp := .idle
  stopping := 0

/-- The first states: any file list that `prepare_player` accepts, either loop flag. -/
def Init (s : State) : Prop :=
  ∃ isLoop filelist player, preparePlayer (createPlayer isLoop) filelist = some player ∧
    s = startPlayer player

def Reachable (s : State) : Prop := machine.Reachable Init s

end OdroidPlayer
