import OdroidPlayer.Playlist

/-!
The player object (`t_player`) as playback uses it, and `command_player`, the only
way in which the response thread acts on the playback child.

Times are the `struct timeval`s that `gettimeofday` returns; a call of the clock is a
parameter of the function that makes it. The fields of `t_player` that belong to the
sockets and to the thread handles are not part of playback and are left to the
modules of the server.
-/

namespace OdroidPlayer

/-- `t_player_cmd`. -/
inductive PlayerCmd where
  | none | next | prev | stop | pause | resume | replay
  deriving DecidableEq, Repr

/-- `struct timeval`. -/
structure Timeval where
  tvSec : Int
  tvUsec : Int
  deriving DecidableEq, Repr

/-- Microseconds from `start` to `now`, as the code subtracts two timevals. -/
def Timeval.usSince (now start : Timeval) : Int :=
  (now.tvSec - start.tvSec) * 1000000 + (now.tvUsec - start.tvUsec)

/-- The playback part of `t_player`. `childPid` is 0 when no child is recorded. -/
structure Player where
  playlist : Playlist
  loop : Bool
  running : Bool
  childPid : Nat
  childPaused : Bool
  childStopped : Bool
  childStartTime : Timeval
  pausedOffsetUs : Int
  pauseStarted : Timeval
  pendingCommand : PlayerCmd
  deriving DecidableEq, Repr

def createPlayer (isLoop : Bool) : Player where
  playlist := createPlaylist
  loop := isLoop
  running := false
  childPid := 0
  childPaused := false
  childStopped := false
  childStartTime := ⟨0, 0⟩
  pausedOffsetUs := 0
  pauseStarted := ⟨0, 0⟩
  pendingCommand := .none

/-- The first loop of `prepare_player`; `none` when the playlist is full. -/
def appendFiles (playlist : Playlist) : List String → Option Playlist
  | [] => some playlist
  | file :: files =>
      if maxFilenum ≤ getPlaylistFilenum playlist then none
      else appendFiles (appendPlaylist playlist file) files

/-- `prepare_player`; `none` when it returns false. -/
def preparePlayer (player : Player) (filelist : List String) : Option Player :=
  match appendFiles player.playlist filelist with
  | none => none
  | some playlist =>
      if getPlaylistFilenum playlist = 0 then none else some { player with playlist }

/-- The signals that `command_player` sends to the child. -/
inductive Signal where
  | sigcont | sigterm | sigstop
  deriving DecidableEq, Repr

/-- The critical section of `command_player`: the player it leaves and the signals it
sends to `child_pid`, in order. `now` is what `gettimeofday` reports in the branches
that read the clock. -/
def commandPlayer (now : Timeval) (command : PlayerCmd) (before : Player) : Player × List Signal :=
  let player := { before with pendingCommand := command }
  if 0 < player.childPid then
    match command with
    | .next | .prev | .stop | .replay =>
        if player.childPaused then ({ player with childPaused := false }, [.sigcont, .sigterm])
        else (player, [.sigterm])
    | .pause =>
        if player.childPaused then (player, [])
        else ({ player with childPaused := true, pauseStarted := now }, [.sigstop])
    | .resume =>
        if player.childPaused then
          ({ player with
              pausedOffsetUs := player.pausedOffsetUs + now.usSince player.pauseStarted
              childPaused := false }, [.sigcont])
        else (player, [])
    | .none => (player, [])
  else (player, [])

/-- The commands that ask the recorded child to end. -/
def PlayerCmd.Ends : PlayerCmd → Prop
  | .next | .prev | .stop | .replay => True
  | .none | .pause | .resume => False

instance (command : PlayerCmd) : Decidable command.Ends := by
  cases command <;> unfold PlayerCmd.Ends <;> infer_instance

section CommandPlayer

variable (now : Timeval) (command : PlayerCmd) (player : Player)

@[simp] theorem commandPlayer_pendingCommand :
    (commandPlayer now command player).1.pendingCommand = command := by
  unfold commandPlayer
  cases command <;> dsimp only <;> repeat' split
  all_goals rfl

/-- `command_player` leaves the playlist, the loop flag and the record of the child. -/
theorem commandPlayer_frame :
    (commandPlayer now command player).1.playlist = player.playlist ∧
      (commandPlayer now command player).1.loop = player.loop ∧
      (commandPlayer now command player).1.running = player.running ∧
      (commandPlayer now command player).1.childPid = player.childPid ∧
      (commandPlayer now command player).1.childStopped = player.childStopped ∧
      (commandPlayer now command player).1.childStartTime = player.childStartTime := by
  unfold commandPlayer
  cases command <;> dsimp only <;> repeat' split
  all_goals exact ⟨rfl, rfl, rfl, rfl, rfl, rfl⟩

@[simp] theorem commandPlayer_playlist :
    (commandPlayer now command player).1.playlist = player.playlist :=
  (commandPlayer_frame now command player).1

@[simp] theorem commandPlayer_loop : (commandPlayer now command player).1.loop = player.loop :=
  (commandPlayer_frame now command player).2.1

@[simp] theorem commandPlayer_running :
    (commandPlayer now command player).1.running = player.running :=
  (commandPlayer_frame now command player).2.2.1

@[simp] theorem commandPlayer_childPid :
    (commandPlayer now command player).1.childPid = player.childPid :=
  (commandPlayer_frame now command player).2.2.2.1

@[simp] theorem commandPlayer_childStopped :
    (commandPlayer now command player).1.childStopped = player.childStopped :=
  (commandPlayer_frame now command player).2.2.2.2.1

variable {command player}

/-- A command that ends the child leaves it unpaused and signals it with SIGTERM. -/
theorem commandPlayer_ends (recorded : 0 < player.childPid) (ends : command.Ends) :
    (commandPlayer now command player).1.childPaused = false ∧
      .sigterm ∈ (commandPlayer now command player).2 := by
  cases paused : player.childPaused <;> cases command <;>
    simp_all [commandPlayer, PlayerCmd.Ends]

/-- With no child recorded no signal is sent and only the pending command changes. -/
theorem commandPlayer_unrecorded (unrecorded : player.childPid = 0) :
    commandPlayer now command player = ({ player with pendingCommand := command }, []) := by
  simp [commandPlayer, unrecorded]

end CommandPlayer

end OdroidPlayer
