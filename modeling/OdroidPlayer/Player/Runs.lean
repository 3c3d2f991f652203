import OdroidPlayer.Player.Invariant

/-!
Runs of the player and what their events say.

The events of a run are read as the list of executed commands, of answered requests
and of spawned children; each list grows only at the move that is about it. The second
half builds runs: the player thread on its way from the wait loop to a spawned child,
and the response thread answering one request.
-/

namespace OdroidPlayer

open Transition.System

/-! ### Reading the events -/

/-- The commands that `command_player` has executed, in order. -/
def executedCmds (log : List Event) : List PlayerCmd :=
  log.filterMap fun
    | .executed command => some command
    | _ => none

/-- The requests that a `cmd_*` function has answered, in order, with the replies. -/
def answers (log : List Event) : List (Request × Reply) :=
  log.filterMap fun
    | .answered r reply => some (r, reply)
    | _ => none

/-- The children spawned, in order. -/
def spawnedPids (log : List Event) : List Nat :=
  log.filterMap fun
    | .spawned pid _ => some pid
    | _ => none

/-- The children spawned, in order, each with its uri. -/
def spawns (log : List Event) : List (Nat × String) :=
  log.filterMap fun
    | .spawned pid uri => some (pid, uri)
    | _ => none

section Append

variable (front back : List Event)

@[simp] theorem executedCmds_append :
    executedCmds (front ++ back) = executedCmds front ++ executedCmds back :=
  List.filterMap_append

@[simp] theorem answers_append : answers (front ++ back) = answers front ++ answers back :=
  List.filterMap_append

@[simp] theorem spawnedPids_append :
    spawnedPids (front ++ back) = spawnedPids front ++ spawnedPids back :=
  List.filterMap_append

@[simp] theorem spawns_append : spawns (front ++ back) = spawns front ++ spawns back :=
  List.filterMap_append

end Append

/-- The events of a step of the player thread and of a command, other than the first. -/
theorem broadcastUri_cases (uri : Option String) :
    broadcastUri uri = [] ∨ ∃ s, broadcastUri uri = [.broadcast s] := by
  cases uri with
  | none => exact .inl rfl
  | some s => exact .inr ⟨s, rfl⟩

@[simp] theorem executedCmds_broadcastUri (uri : Option String) :
    executedCmds (broadcastUri uri) = [] := by
  rcases broadcastUri_cases uri with none | ⟨s, some_⟩
  · rw [none]; rfl
  · rw [some_]; rfl

@[simp] theorem answers_broadcastUri (uri : Option String) : answers (broadcastUri uri) = [] := by
  rcases broadcastUri_cases uri with none | ⟨s, some_⟩
  · rw [none]; rfl
  · rw [some_]; rfl

/-- The events of one executed command. -/
def commandEvents (player : Player) (now : Timeval) (r : Request) (command : PlayerCmd)
    (reply : Reply) : List Event :=
  .executed command :: (commandPlayer now command player).2.map (.killed player.childPid)
    ++ [.answered r reply]

section CommandEvents

variable (player : Player) (now : Timeval) (r : Request) (command : PlayerCmd) (reply : Reply)

theorem executedCmds_killed (pid : Nat) (signals : List Signal) :
    executedCmds (signals.map (.killed pid)) = [] := by
  induction signals with
  | nil => rfl
  | cons signal signals ih => exact ih

theorem answers_killed (pid : Nat) (signals : List Signal) :
    answers (signals.map (.killed pid)) = [] := by
  induction signals with
  | nil => rfl
  | cons signal signals ih => exact ih

theorem spawnedPids_killed (pid : Nat) (signals : List Signal) :
    spawnedPids (signals.map (.killed pid)) = [] := by
  induction signals with
  | nil => rfl
  | cons signal signals ih => exact ih

@[simp] theorem executedCmds_commandEvents :
    executedCmds (commandEvents player now r command reply) = [command] := by
  rw [commandEvents, executedCmds_append, ← List.singleton_append, executedCmds_append,
    executedCmds_killed]
  rfl

@[simp] theorem answers_commandEvents :
    answers (commandEvents player now r command reply) = [(r, reply)] := by
  rw [commandEvents, answers_append, ← List.singleton_append, answers_append, answers_killed]
  rfl

@[simp] theorem spawnedPids_commandEvents :
    spawnedPids (commandEvents player now r command reply) = [] := by
  rw [commandEvents, spawnedPids_append, ← List.singleton_append, spawnedPids_append,
    spawnedPids_killed]
  rfl

end CommandEvents

variable {s t : State} {a : Action} {es : List Event}

/-- Only a return of `command_player` executes a command. -/
theorem Move.executedCmds_eq (move : Move s a t es) :
    executedCmds es = [] ∨
      ∃ now r command reply, s.resp = .calling r command reply ∧
        s.play.holdsMutex = false ∧ t = s.commanded now command ∧
        es = commandEvents s.player now r command reply := by
  cases move with
  | @command r command reply now calling free =>
      exact .inr ⟨now, r, command, reply, calling, free, rfl, rfl⟩
  | wakeupMove => exact .inl (executedCmds_broadcastUri _)
  | tookPrev | tookForward => exact .inl (executedCmds_broadcastUri _)
  | _ => exact .inl rfl

/-! ### The two threads -/

/-- The actions of the player thread. -/
def Action.ofPlayer : Action → Bool
  | .play | .fork _ | .record _ | .waitpid _ | .spuriousWakeup => true
  | .request _ | .command _ | .exit _ | .shutdown | .shutdownSignal => false

/-- The events of the player thread. -/
def Event.ofPlayer : Event → Bool
  | .spawned _ _ | .recorded _ | .reaped _ | .cleaned _ _ | .took _ | .broadcast _ => true
  | .executed _ | .answered _ _ | .killed _ _ => false

/-- The statements between the cleanup of one child and the spawn of the next. -/
def PlayAt.BeforeSpawn : PlayAt → Prop
  | .loopTest | .waitLock | .waitTest | .runningTest | .stoppedTest | .readUri | .spawn _
  | .retrySleep => True
  | _ => False

/-- The statements at which no signal of `play_cond` moves the player thread. -/
theorem PlayAt.signalled_of_ne {at_ : PlayAt} (awake : at_ ≠ .condWait) :
    at_.signalled = at_ := by
  cases at_ <;> first | rfl | exact absurd rfl awake

theorem commandEvents_ofPlayer (player : Player) (now : Timeval) (r : Request)
    (command : PlayerCmd) (reply : Reply) :
    ∀ e ∈ commandEvents player now r command reply, e.ofPlayer = false := by
  intro e mem
  simp only [commandEvents, List.cons_append, List.mem_cons, List.mem_append, List.mem_map,
    List.not_mem_nil, or_false] at mem
  rcases mem with rfl | ⟨signal, _, rfl⟩ | rfl <;> rfl

/-- What the other threads and the children leave alone. -/
structure Untouched (s t : State) (es : List Event) : Prop where
  play : t.play = s.play ∨ t.play = s.play.signalled
  playlist : t.player.playlist = s.player.playlist
  loop : t.player.loop = s.player.loop
  childPid : t.player.childPid = s.player.childPid
  childStopped : t.player.childStopped = s.player.childStopped
  running : t.player.running = s.player.running ∨ t.player.running = false
  events : ∀ e ∈ es, e.ofPlayer = false

theorem Move.untouched (move : Move s a t es) (other : a.ofPlayer = false) :
    Untouched s t es := by
  cases move with
  | answer | call | crash | exit =>
      exact ⟨.inl rfl, rfl, rfl, rfl, rfl, .inl rfl, by simp [Event.ofPlayer]⟩
  | shutdown => exact ⟨.inl rfl, rfl, rfl, rfl, rfl, .inr rfl, by simp⟩
  | shutdownSignal => exact ⟨.inr rfl, rfl, rfl, rfl, rfl, .inl rfl, by simp⟩
  | @command r command reply now =>
      exact ⟨.inr rfl, commandPlayer_playlist .., commandPlayer_loop .., commandPlayer_childPid ..,
        commandPlayer_childStopped .., .inl (commandPlayer_running ..),
        commandEvents_ofPlayer s.player now r command reply⟩
  | _ => cases other

/-- At a statement where the player thread does not wait, the others leave it. -/
theorem Untouched.play_eq (same : Untouched s t es) (awake : s.play ≠ .condWait) :
    t.play = s.play := by
  rcases same.play with eq | eq
  · exact eq
  · rw [eq, PlayAt.signalled_of_ne awake]

theorem Untouched.at (same : Untouched s t es) {target : PlayAt} (other : target ≠ .waitLock)
    (there : t.play = target) : s.play = target := by
  rcases same.play with eq | eq
  · rw [← eq, there]
  · exact PlayAt.signalled_eq other (eq ▸ there)

theorem Untouched.off (same : Untouched s t es) (off : s.player.running = false) :
    t.player.running = false := by
  rcases same.running with eq | eq
  · rw [eq, off]
  · exact eq

/-- No step sets `running` again. -/
theorem Move.off (move : Move s a t es) (off : s.player.running = false) :
    t.player.running = false := by
  cases move with
  | shutdown | endOfPlaylist | stopPlayer => rfl
  | command => exact (commandPlayer_running ..).trans off
  | _ => exact off

/-! ### Building runs -/

theorem Move.runs (move : Move s a t es) : machine.Runs s t es := Runs.single move.step

/-- A move without events in front of a run. -/
theorem Move.then {u : State} {log : List Event} (move : Move s a t [])
    (rest : machine.Runs t u log) : machine.Runs s u log := by
  simpa using move.runs.trans rest

/-- A stopped player whose wait loop has a pending command to act on. -/
structure Armed (s : State) : Prop where
  inv : Inv s
  running : s.player.running = true
  stopped : s.player.childStopped = true
  waiting : s.play = .waitLock
  idle : s.resp = .idle

/-- A running, stopped player with nothing pending goes on to wait for a command. -/
theorem runs_condWait (inv : Inv s) (running : s.player.running = true)
    (stopped : s.player.childStopped = true) (nothing : s.player.pendingCommand = .none) :
    machine.Runs s (s.jump .condWait) [] := by
  have fromRunning : ∀ u : State, u.player = s.player → u.play = .waitRunning →
      machine.Runs u (u.jump .condWait) [] := fun u same at_ =>
    (Move.wait at_ (same ▸ running)).runs
  have fromTest : ∀ u : State, u.player = s.player → u.play = .waitTest →
      machine.Runs u (u.jump .condWait) [] := fun u same at_ =>
    (Move.mayWait at_ (same ▸ stopped) (same ▸ nothing)).then
      (fromRunning (u.jump .waitRunning) same rfl)
  have fromLock : ∀ u : State, u.player = s.player → u.play = .waitLock →
      machine.Runs u (u.jump .condWait) [] := fun u same at_ =>
    (Move.lock at_).then (fromTest (u.jump .waitTest) same rfl)
  cases at_ : s.play with
  | loopTest => exact (Move.loopOn at_ running).then (fromLock (s.jump .waitLock) rfl rfl)
  | waitLock => exact fromLock s rfl at_
  | waitTest => exact fromTest s rfl at_
  | waitRunning => exact fromRunning s rfl at_
  | condWait =>
      have same : s.jump .condWait = s := by rw [State.jump, ← at_]
      rw [same]
      exact Runs.refl s
  | runningTest => simp [inv.drained at_ stopped nothing] at running
  | stoppedTest => exact absurd nothing (inv.awake at_ stopped)
  | stopPlayer => simp [inv.halted (.inl at_)] at running
  | finished => simp [inv.halted (.inr at_)] at running
  | _ => simpa [at_, PlayAt.mayBeStopped] using inv.stopped stopped

/-- The wait loop of a running player with a command other than NEXT and PREV pending
ends in a spawned child. -/
theorem Armed.spawns (armed : Armed s) (some_ : s.player.pendingCommand ≠ .none)
    (next : s.player.pendingCommand ≠ .next) (prev : s.player.pendingCommand ≠ .prev) :
    ∃ t pid uri, machine.Runs s t [.spawned pid uri] := by
  obtain ⟨uri, found⟩ := armed.inv.range.getPlaylistUri
  have unreaped : s.children = [] := by
    simpa [armed.waiting, PlayAt.unreaped] using armed.inv.children
  have toTest : machine.Runs s (s.jump .stoppedTest) [] :=
    (Move.lock armed.waiting).then
      ((Move.noWait (s := s.jump .waitTest) rfl fun _ => some_).then
        (Move.goOn (s := s.jump .runningTest) rfl armed.running).runs)
  have consumed := Move.consume (s := s.jump .stoppedTest) rfl armed.stopped some_
  have stays := Move.wakeupStay rfl (fun is => absurd is next) (fun is => absurd is prev)
    (s := { s with
      player.pendingCommand := .none
      player.childStopped := false
      play := .wakeup s.player.pendingCommand })
  have reads := Move.uri rfl found (s := { s with
      player.pendingCommand := .none
      player.childStopped := false
      play := .readUri })
  have one : 0 < 1 := Nat.one_pos
  have forked := reads.then (Move.fork rfl one (by simp [unreaped])).runs
  exact ⟨_, 1, uri, by simpa using toTest.trans (consumed.then (stays.then forked))⟩

/-- A command executed while the player thread waits. -/
theorem commanded_armed {r : Request} {command : PlayerCmd} {reply : Reply} (inv : Inv s)
    (running : s.player.running = true) (stopped : s.player.childStopped = true)
    (waiting : s.play = .waitLock ∨ s.play = .condWait)
    (calling : s.resp = .calling r command reply) (now : Timeval) :
    Armed (s.commanded now command) ∧
      machine.Runs s (s.commanded now command) (commandEvents s.player now r command reply) := by
  have free : s.play.holdsMutex = false := by
    rcases waiting with at_ | at_ <;> simp [at_, PlayAt.holdsMutex]
  refine ⟨⟨inv.command now command free, ?_, ?_, ?_, rfl⟩, (Move.command calling free).runs⟩
  · simpa [State.commanded] using running
  · simpa [State.commanded] using stopped
  · rcases waiting with at_ | at_ <;> simp [State.commanded, at_, PlayAt.signalled]

end OdroidPlayer
