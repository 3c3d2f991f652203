import OdroidPlayer.Player.Runs

/-!
A stopped player and the commands that ought to leave it stopped.

`run_player` leaves its wait loop for any pending command, and the branch after the
loop tells only NEXT and PREV apart, so every other command, STOP and PAUSE included,
starts the current uri again. The player stays stopped only when no command of the
sequence is executed or when it is being shut down.
-/

namespace OdroidPlayer

open Transition.System

/-- No run from `s` that executes exactly `commands` spawns a child. -/
def StaysStopped (s : State) (commands : List PlayerCmd) : Prop :=
  ∀ t log, machine.Runs s t log → executedCmds log = commands → spawnedPids log = []

/-- The response thread is not inside a `cmd_*` function that executes another command
than the first of the sequence. -/
def MayExecute (s : State) : List PlayerCmd → Prop
  | [] => False
  | first :: _ => ∀ r command reply, s.resp = .calling r command reply → command = first

/-! ### Why a player stays stopped -/

/-- The statements from which a player that is shut down reaches the end without a spawn. -/
def PlayAt.SpawnFree : PlayAt → Prop
  | .loopTest | .waitLock | .waitTest | .waitRunning | .condWait | .runningTest | .stopPlayer
  | .finished => True
  | _ => False

structure ShutDown (s : State) : Prop where
  off : s.player.running = false
  spawnFree : s.play.SpawnFree

theorem PlayAt.SpawnFree.signalled {at_ : PlayAt} (free : at_.SpawnFree) :
    at_.signalled.SpawnFree := by
  cases at_ <;> first | exact trivial | exact free.elim

theorem ShutDown.keep {s t : State} {a : Action} {es : List Event} (down : ShutDown s)
    (move : Move s a t es) : ShutDown t ∧ spawnedPids es = [] := by
  obtain ⟨off, spawnFree⟩ := down
  cases move with
  | loopOn _ on | wait _ on | goOn _ on | exitOn _ on => simp [off] at on
  | loopOff | lock | mayWait | noWait | waitOff | goOff | stopPlayer | spuriousWakeup =>
      exact ⟨⟨by first | exact off | rfl, trivial⟩, rfl⟩
  | consume at_ | pass at_ | wakeupMove at_ | wakeupStay at_ | noUri at_ | uri at_ | retry at_
  | cleanup at_ | exitOff at_ | tookStop at_ | tookPrev at_ | tookPrevStay at_ | tookReplay at_
  | tookForward at_ | tookEnd at_ | setStopped at_ | endOfPlaylist at_ | forkFailed at_
  | fork at_ | record at_ | reap at_ | eintr at_ | waitFailed at_ =>
      rw [at_] at spawnFree
      exact spawnFree.elim
  | answer | call | crash | exit => exact ⟨⟨off, spawnFree⟩, rfl⟩
  | shutdown => exact ⟨⟨rfl, spawnFree⟩, rfl⟩
  | shutdownSignal => exact ⟨⟨off, spawnFree.signalled⟩, rfl⟩
  | @command r command reply now =>
      refine ⟨⟨?_, spawnFree.signalled⟩, spawnedPids_commandEvents s.player now r command reply⟩
      simpa [State.commanded] using off

/-- What a stopped player keeps while no command is executed. -/
structure Quiet (s : State) : Prop where
  inv : Inv s
  stopped : s.player.childStopped = true
  nothing : s.player.pendingCommand = .none

theorem Quiet.keep {s t : State} {a : Action} {es : List Event} (quiet : Quiet s)
    (move : Move s a t es) (unheard : executedCmds es = []) :
    Quiet t ∧ spawnedPids es = [] := by
  have inv := quiet.inv.keep move
  obtain ⟨before, stopped, nothing⟩ := quiet
  have here := before.stopped stopped
  cases move with
  | consume _ _ some_ => exact absurd nothing some_
  | wakeupMove at_ | wakeupStay at_ | noUri at_ | uri at_ | retry at_ | cleanup at_ | exitOn at_
  | exitOff at_ | tookStop at_ | tookPrev at_ | tookPrevStay at_ | tookReplay at_ | tookForward at_
  | tookEnd at_ | setStopped at_ | endOfPlaylist at_ | forkFailed at_ | fork at_ | record at_
  | reap at_ | eintr at_ | waitFailed at_ => simp [at_, PlayAt.mayBeStopped] at here
  | @command r command reply now =>
      exact absurd unheard (by simpa [commandEvents] using
        (executedCmds_commandEvents s.player now r command reply) ▸ List.cons_ne_nil command [])
  | _ => exact ⟨⟨inv, stopped, nothing⟩, rfl⟩

theorem ShutDown.exec {s t : State} {log : List Event} (down : ShutDown s)
    (run : machine.Runs s t log) : spawnedPids log = [] := by
  obtain ⟨as, run⟩ := run
  have keep : ∀ (u : State) (before : List Event) (a : Action) (v : State) (es : List Event),
      ShutDown u ∧ spawnedPids before = [] → machine.step u a = some (v, es) →
      ShutDown v ∧ spawnedPids (before ++ es) = [] := by
    rintro u before a v es ⟨down, none⟩ move
    obtain ⟨after, still⟩ := down.keep (step_move move)
    exact ⟨after, by rw [spawnedPids_append, none, still]; rfl⟩
  exact (exec_rec keep [] ⟨down, rfl⟩ run).2

theorem Quiet.exec {s t : State} {log : List Event} (quiet : Quiet s)
    (run : machine.Runs s t log) (unheard : executedCmds log = []) : spawnedPids log = [] := by
  obtain ⟨as, run⟩ := run
  have keep : ∀ (u : State) (before : List Event) (a : Action) (v : State) (es : List Event),
      (executedCmds before = [] → Quiet u ∧ spawnedPids before = []) →
      machine.step u a = some (v, es) →
      executedCmds (before ++ es) = [] → Quiet v ∧ spawnedPids (before ++ es) = [] := by
    intro u before a v es ih move unheard
    rw [executedCmds_append, List.append_eq_nil_iff] at unheard
    obtain ⟨quiet, none⟩ := ih unheard.1
    obtain ⟨after, still⟩ := quiet.keep (step_move move) unheard.2
    exact ⟨after, by rw [spawnedPids_append, none, still]; rfl⟩
  exact (exec_rec keep [] (fun _ => ⟨quiet, rfl⟩) run unheard).2

/-- A response thread inside a `cmd_*` function executes that function's command first. -/
theorem executedCmds_of_calling {s t : State} {r : Request} {command : PlayerCmd} {reply : Reply}
    {log : List Event} (calling : s.resp = .calling r command reply)
    (run : machine.Runs s t log) :
    executedCmds log = [] ∨ ∃ rest, executedCmds log = command :: rest := by
  obtain ⟨as, run⟩ := run
  let I := fun (u : State) (before : List Event) =>
    (u.resp = .calling r command reply ∧ executedCmds before = []) ∨
      ∃ rest, executedCmds before = command :: rest
  have keep : ∀ (u : State) (before : List Event) (a : Action) (v : State) (es : List Event),
      I u before → machine.step u a = some (v, es) → I v (before ++ es) := by
    rintro u before a v es (⟨calling, none⟩ | ⟨rest, heard⟩) move
    · have move := step_move move
      rcases move.executedCmds_eq with still | ⟨now, r', c', reply', calling', _, _, rfl⟩
      · refine .inl ⟨?_, by rw [executedCmds_append, none, still]; rfl⟩
        cases move with
        | answer idle | call idle | crash idle => simp [calling] at idle
        | @command r command reply now => simp [executedCmds] at still
        | _ => exact calling
      · obtain ⟨rfl, rfl, rfl⟩ : r' = r ∧ c' = command ∧ reply' = reply := by
          simpa [calling, eq_comm] using calling'
        exact .inr ⟨[], by simp [none]⟩
    · exact .inr ⟨rest ++ executedCmds es, by simp [heard]⟩
  rcases exec_rec keep [] (.inl ⟨calling, rfl⟩ : I s []) run with ⟨_, none⟩ | heard
  · exact .inl none
  · exact .inr heard

/-! ### Why it does not -/

/-- STOP and PAUSE reach `command_player` whatever the state. -/
theorem commanded_of_idle {s : State} {command : PlayerCmd}
    (only : command = .stop ∨ command = .pause) (inv : Inv s)
    (running : s.player.running = true) (stopped : s.player.childStopped = true)
    (waiting : s.play = .waitLock ∨ s.play = .condWait) (idle : s.resp = .idle) :
    ∃ t log, Armed t ∧ t.player.pendingCommand = command ∧ machine.Runs s t log ∧
      executedCmds log = [command] ∧ spawnedPids log = [] := by
  have asked : ∃ (r : Request) (reply : Reply), r ≠ .play ∧
      r.decide s.player = .call command reply := by
    rcases only with rfl | rfl
    · exact ⟨.stop, .text "stop", by simp, rfl⟩
    · exact ⟨.pause, .text "pause", by simp, rfl⟩
  obtain ⟨r, reply, notPlay, decided⟩ := asked
  have call : Move s (.request r) { s with resp := .calling r command reply } [] :=
    .call idle (fun play => absurd play notPlay) decided
  obtain ⟨armed, run⟩ := commanded_armed (s := { s with resp := .calling r command reply })
    (inv.keep call) running stopped waiting rfl ⟨0, 0⟩
  exact ⟨_, _, armed, by simp [State.commanded], call.then run, by simp, by simp⟩

/-- Further commands only replace the pending one. -/
theorem Armed.executes {s : State} (armed : Armed s) {commands : List PlayerCmd}
    (only : ∀ command ∈ commands, command = .stop ∨ command = .pause)
    (pending : s.player.pendingCommand = .stop ∨ s.player.pendingCommand = .pause) :
    ∃ t log, Armed t ∧ (t.player.pendingCommand = .stop ∨ t.player.pendingCommand = .pause) ∧
      machine.Runs s t log ∧ executedCmds log = commands ∧ spawnedPids log = [] := by
  induction commands generalizing s with
  | nil => exact ⟨s, [], armed, pending, Runs.refl s, rfl, rfl⟩
  | cons command commands ih =>
      have first := only command List.mem_cons_self
      obtain ⟨m, front, armed', now, run, heard, none⟩ := commanded_of_idle first armed.inv
        armed.running armed.stopped (.inl armed.waiting) armed.idle
      obtain ⟨t, back, armed'', pending', run', heard', none'⟩ :=
        ih armed' (fun c mem => only c (List.mem_cons_of_mem _ mem)) (by rw [now]; exact first)
      exact ⟨t, front ++ back, armed'', pending', run.trans run', by simp [heard, heard'],
        by simp [none, none']⟩

/-- From a stopped, running player the commands can be executed one after the other
before the player thread has woken up. -/
theorem arms_of_mayExecute {s : State} (inv : Inv s) (running : s.player.running = true)
    (stopped : s.player.childStopped = true) (nothing : s.player.pendingCommand = .none)
    {commands : List PlayerCmd} (may : MayExecute s commands)
    (only : ∀ command ∈ commands, command = .stop ∨ command = .pause) :
    ∃ t log, Armed t ∧ (t.player.pendingCommand = .stop ∨ t.player.pendingCommand = .pause) ∧
      machine.Runs s t log ∧ executedCmds log = commands := by
  cases commands with
  | nil => exact may.elim
  | cons first rest =>
      have only' : ∀ command ∈ rest, command = .stop ∨ command = .pause :=
        fun c mem => only c (List.mem_cons_of_mem _ mem)
      have firstOnly := only first List.mem_cons_self
      have wait := runs_condWait inv running stopped nothing
      have inv' : Inv (s.jump .condWait) := by
        obtain ⟨as, run⟩ := wait
        exact inv.exec run
      have heardFirst : ∃ t log, Armed t ∧ t.player.pendingCommand = first ∧
          machine.Runs s t log ∧ executedCmds log = [first] := by
        cases resp : s.resp with
        | crashed => exact absurd resp inv.alive
        | idle =>
            obtain ⟨t, log, armed, now, run, heard, _⟩ :=
              commanded_of_idle firstOnly inv' running stopped (.inr rfl) resp
            exact ⟨t, log, armed, now, wait.trans run, heard⟩
        | calling r command reply =>
            obtain rfl := may r command reply resp
            obtain ⟨armed, run⟩ :=
              commanded_armed inv' running stopped (.inr rfl) resp ⟨0, 0⟩
            exact ⟨_, _, armed, by simp [State.commanded], wait.trans run, by simp⟩
      obtain ⟨m, front, armed, now, run, heard⟩ := heardFirst
      obtain ⟨t, back, armed', pending, run', heard', _⟩ :=
        armed.executes only' (by rw [now]; exact firstOnly)
      exact ⟨t, front ++ back, armed', pending, run.trans run', by simp [heard, heard']⟩

/-- A stopped player with nothing pending stays stopped under a sequence of STOP and
PAUSE exactly when it is being shut down or no command of the sequence is executed. -/
theorem staysStopped_iff {s : State} (reach : Reachable s)
    (stopped : s.player.childStopped = true) (nothing : s.player.pendingCommand = .none)
    {commands : List PlayerCmd}
    (only : ∀ command ∈ commands, command = .stop ∨ command = .pause) :
    StaysStopped s commands ↔ s.player.running = false ∨ ¬ MayExecute s commands := by
  have inv := reach.inv
  constructor
  · intro stays
    by_contra both
    obtain ⟨running, may⟩ : s.player.running = true ∧ MayExecute s commands := by
      simpa using both
    obtain ⟨t, log, armed, pending, run, heard⟩ :=
      arms_of_mayExecute inv running stopped nothing may only
    have awake : t.player.pendingCommand ≠ .none ∧ t.player.pendingCommand ≠ .next ∧
        t.player.pendingCommand ≠ .prev := by
      rcases pending with is | is <;> simp [is]
    obtain ⟨u, pid, uri, spawn⟩ := armed.spawns awake.1 awake.2.1 awake.2.2
    have silent := stays u (log ++ [.spawned pid uri]) (run.trans spawn)
      (by rw [executedCmds_append, heard]; exact List.append_nil _)
    rw [spawnedPids_append, List.append_eq_nil_iff] at silent
    cases silent.2
  · rintro (off | blocked) t log run heard
    · have spawnFree : s.play.SpawnFree := by
        have here := inv.stopped stopped
        cases at_ : s.play <;> simp_all [PlayAt.mayBeStopped, PlayAt.SpawnFree]
        exact absurd nothing (inv.awake at_ stopped)
      exact ShutDown.exec ⟨off, spawnFree⟩ run
    · have unheard : executedCmds log = [] := by
        cases commands with
        | nil => exact heard
        | cons first rest =>
            simp only [MayExecute, not_forall] at blocked
            obtain ⟨r, command, reply, calling, other⟩ := blocked
            rcases executedCmds_of_calling calling run with none | ⟨_, heard'⟩
            · exact none
            · rw [heard'] at heard
              exact absurd (List.cons.inj heard).1 other
      exact Quiet.exec ⟨inv, stopped, nothing⟩ run unheard

/-- A player of one file that has been stopped and waits for a command. -/
def stoppedPlayer : State where
  player := { createPlayer false with
    playlist := ⟨["a.mp4"], 0⟩
    running := true
    childStopped := true }
  children := []
  play := .condWait
  resp := .idle
  stopping := 0

theorem stoppedPlayer_reachable : Reachable stoppedPlayer :=
  ⟨_, startPlayer { createPlayer false with playlist := ⟨["a.mp4"], 0⟩ },
    ⟨false, ["a.mp4"], _, rfl, rfl⟩,
    [.play, .play, .play, .play, .play, .play, .fork (some 7), .record ⟨0, 0⟩, .request .stop,
      .command ⟨0, 0⟩, .exit 7, .waitpid .reaped, .play, .play, .play, .play, .play, .play, .play,
      .play], rfl⟩

/-- One STOP starts the stopped player again. -/
theorem stoppedPlayer_spawns : Reachable stoppedPlayer ∧
    stoppedPlayer.player.childStopped = true ∧ stoppedPlayer.player.pendingCommand = .none ∧
    ¬ StaysStopped stoppedPlayer [.stop] := by
  refine ⟨stoppedPlayer_reachable, rfl, rfl, fun stays => ?_⟩
  have silent := stays _ _ ⟨[.request .stop, .command ⟨0, 0⟩, .play, .play, .play, .play, .play,
    .play, .fork (some 8)], rfl⟩ rfl
  exact absurd silent (by decide)

theorem staysStopped_stop_pause :
    StaysStopped stoppedPlayer [.stop, .pause] ↔
      stoppedPlayer.player.running = false ∨ ¬ MayExecute stoppedPlayer [.stop, .pause] :=
  staysStopped_iff stoppedPlayer_reachable rfl rfl (by simp)

end OdroidPlayer
