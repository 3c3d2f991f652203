import OdroidPlayer.Lib.Log
import OdroidPlayer.Player.Runs

/-!
Who the signals of `command_player` reach.

`run_player` reaps its child in `waitpid` and forgets it in the critical section after
that. In between `child_pid` still holds a number that the kernel may give to another
process, and `command_player` signals whatever `child_pid` holds. The signals reach a
child that is not reaped exactly when no command that has one to send is executed in that
gap (`kills_iff`).
-/

namespace OdroidPlayer

open Transition

/-- The children spawned and not yet reaped, after one more event. -/
def trackPid (pids : List Nat) : Event → List Nat
  | .spawned pid _ => pids ++ [pid]
  | .reaped pid => pids.filter (· ≠ pid)
  | _ => pids

def unreapedPids (log : List Event) : List Nat := log.foldl trackPid []

/-- A signal goes to a child that is spawned and not reaped. -/
def KillOk (front : List Event) (e : Event) : Prop :=
  ∀ pid signal, e = .killed pid signal → pid ∈ unreapedPids front

def KillsUnreaped (log : List Event) : Prop := EachAt KillOk log

/-- The command has a signal for a recorded child. -/
def PlayerCmd.Signals (paused : Bool) : PlayerCmd → Prop
  | .next | .prev | .stop | .replay => True
  | .pause => paused = false
  | .resume => paused = true
  | .none => False

instance (paused : Bool) (command : PlayerCmd) : Decidable (command.Signals paused) := by
  cases command <;> unfold PlayerCmd.Signals <;> infer_instance

/-- No command with a signal is executed while the child is reaped and still recorded. -/
def SparesReaped (s : State) (a : Action) : Prop :=
  match a, s.resp, s.play with
  | .command _, .calling _ command _, .cleanup _ => ¬ command.Signals s.player.childPaused
  | _, _, _ => True

/-! ### The events and the recorded child -/

section Track

variable {front back : List Event}

theorem unreapedPids_append :
    unreapedPids (front ++ back) = back.foldl trackPid (unreapedPids front) :=
  List.foldl_append

/-- Only the player thread spawns and reaps. -/
theorem unreapedPids_of_others (others : ∀ e ∈ back, e.ofPlayer = false) :
    unreapedPids (front ++ back) = unreapedPids front := by
  rw [unreapedPids_append]
  induction back with
  | nil => rfl
  | cons e back ih =>
      have same : trackPid (unreapedPids front) e = unreapedPids front := by
        have other := others e List.mem_cons_self
        cases e <;> first | rfl | cases other
      rw [List.foldl_cons, same]
      exact ih fun x mem => others x (List.mem_cons_of_mem _ mem)

theorem unreapedPids_broadcastUri (uri : Option String) :
    unreapedPids (front ++ broadcastUri uri) = unreapedPids front := by
  rcases broadcastUri_cases uri with none | ⟨s, some_⟩
  · rw [none, List.append_nil]
  · rw [some_, unreapedPids_append]
    rfl

end Track

/-- The events and the statement of the player thread agree on what is not reaped. -/
structure Tracks (s : State) (log : List Event) : Prop where
  inv : Inv s
  unreaped : unreapedPids log = s.play.unreaped

theorem Tracks.keep {s t : State} {a : Action} {log es : List Event} (tracks : Tracks s log)
    (move : Move s a t es) : Tracks t (log ++ es) := by
  refine ⟨tracks.inv.keep move, ?_⟩
  have before := tracks.unreaped
  cases thread : a.ofPlayer with
  | false =>
      have same := move.untouched thread
      rw [unreapedPids_of_others same.events, before]
      rcases same.play with eq | eq
      · rw [eq]
      · rw [eq, PlayAt.signalled_unreaped]
  | true =>
      cases move with
      | fork at_ | reap at_ =>
          rw [unreapedPids_append, before, at_]
          simp [trackPid, PlayAt.unreaped]
      | waitFailed at_ stranger =>
          have pids : s.children.map Child.pid = [_] := tracks.inv.children.trans (by rw [at_]; rfl)
          obtain ⟨child, mem, pid⟩ := List.mem_map.mp (pids ▸ List.mem_singleton_self _)
          exact absurd pid (stranger child mem)
      | wakeupMove at_ =>
          rw [unreapedPids_broadcastUri, before, at_]
          rfl
      | tookPrev at_ | tookForward at_ =>
          rw [← List.singleton_append, ← List.append_assoc, unreapedPids_broadcastUri,
            unreapedPids_append, before, at_]
          rfl
      | eintr => rw [List.append_nil, before]
      | answer | call | crash | command | exit | shutdown | shutdownSignal => cases thread
      | loopOn at_ | loopOff at_ | lock at_ | mayWait at_ | noWait at_ | wait at_ | waitOff at_
      | goOn at_ | goOff at_ | consume at_ | pass at_ | wakeupStay at_ | noUri at_ | uri at_
      | retry at_ | cleanup at_ | exitOn at_ | exitOff at_ | tookStop at_ | tookPrevStay at_
      | tookReplay at_ | tookEnd at_ | setStopped at_ | endOfPlaylist at_ | stopPlayer at_
      | forkFailed at_ | record at_ | spuriousWakeup at_ =>
          rw [unreapedPids_append, before, at_]
          rfl

theorem Init.tracks {s : State} (init : Init s) : Tracks s [] := by
  refine ⟨init.inv, ?_⟩
  obtain ⟨isLoop, filelist, player, _, rfl⟩ := init
  rfl

/-! ### The signals of one step -/

/-- Events without a signal. -/
theorem eachAfter_silent {before es : List Event}
    (silent : ∀ pid signal, .killed pid signal ∉ es) : EachAfter KillOk before es := by
  rw [eachAfter_iff]
  rintro front _ pre pid signal rfl
  have mem := pre.subset (List.mem_append_right front (List.mem_singleton_self _))
  exact absurd mem (silent pid signal)

/-- The signals of a command all go to the pid that is recorded. -/
theorem eachAfter_commandEvents {before : List Event} (player : Player) (now : Timeval)
    (r : Request) (command : PlayerCmd) (reply : Reply) :
    EachAfter KillOk before (commandEvents player now r command reply) ↔
      ((commandPlayer now command player).2 ≠ [] → player.childPid ∈ unreapedPids before) := by
  rw [eachAfter_iff]
  constructor
  · intro each some_
    obtain ⟨signal, rest, signals⟩ := List.exists_cons_of_ne_nil some_
    have pre : [Event.executed command] ++ [.killed player.childPid signal] <+:
        commandEvents player now r command reply := by
      rw [commandEvents, signals]
      exact ⟨rest.map (.killed player.childPid) ++ [.answered r reply], by simp⟩
    have unreaped := each _ _ pre _ _ rfl
    rwa [unreapedPids_of_others (by simp [Event.ofPlayer])] at unreaped
  · rintro known front _ pre pid signal rfl
    have mem : Event.killed pid signal ∈ commandEvents player now r command reply :=
      pre.subset (List.mem_append_right _ (List.mem_singleton_self _))
    have sent : signal ∈ (commandPlayer now command player).2 ∧ player.childPid = pid := by
      simpa [commandEvents] using mem
    obtain ⟨signal', rfl⟩ := sent
    have others : ∀ e ∈ front, e.ofPlayer = false := fun e mem =>
      commandEvents_ofPlayer player now r command reply e
        (pre.subset (List.mem_append_left _ mem))
    rw [unreapedPids_of_others others]
    exact known (List.ne_nil_of_mem signal')

theorem commandPlayer_signals (now : Timeval) (command : PlayerCmd) {player : Player}
    (known : 0 < player.childPid) :
    (commandPlayer now command player).2 ≠ [] ↔ command.Signals player.childPaused := by
  cases paused : player.childPaused <;> cases command <;>
    simp [commandPlayer, known, paused, PlayerCmd.Signals]

/-- A command signals a child that is not reaped, but between its reaping and the cleanup. -/
theorem Tracks.command {s : State} {log : List Event} (tracks : Tracks s log) {now : Timeval}
    {r : Request} {command : PlayerCmd} {reply : Reply}
    (calling : s.resp = .calling r command reply) :
    EachAfter KillOk log (commandEvents s.player now r command reply) ↔
      SparesReaped s (.command now) := by
  have recorded := tracks.inv.recorded
  have pidOk := tracks.inv.pidOk
  rw [eachAfter_commandEvents, tracks.unreaped]
  simp only [SparesReaped, calling]
  have quiet : s.player.childPid = 0 → (commandPlayer now command s.player).2 = [] := fun none => by
    rw [commandPlayer_unrecorded now none]
  cases at_ : s.play with
  | waitpid pid =>
      rw [at_] at recorded
      simp [recorded, PlayAt.recordedPid, PlayAt.unreaped]
  | cleanup pid =>
      rw [at_] at recorded pidOk
      have known : 0 < s.player.childPid := recorded ▸ pidOk
      rw [commandPlayer_signals now command known]
      simp [PlayAt.unreaped]
  | _ =>
      rw [at_] at recorded
      simp [quiet recorded]

theorem Tracks.each {s t : State} {a : Action} {log es : List Event} (tracks : Tracks s log)
    (move : Move s a t es) : EachAfter KillOk log es ↔ SparesReaped s a := by
  have silent : ∀ {es : List Event} {a : Action}, (∀ pid signal, .killed pid signal ∉ es) →
      (∀ now, a ≠ .command now) → (EachAfter KillOk log es ↔ SparesReaped s a) := by
    intro es a none other
    refine ⟨fun _ => ?_, fun _ => eachAfter_silent none⟩
    cases a <;> first | trivial | exact absurd rfl (other _)
  have quiet : ∀ (uri : Option String) (pid : Nat) (signal : Signal),
      .killed pid signal ∉ broadcastUri uri := by
    intro uri pid signal
    rcases broadcastUri_cases uri with none | ⟨s, some_⟩ <;> simp [*]
  cases move with
  | command calling => exact tracks.command calling
  | wakeupMove => exact silent (quiet _) (by simp)
  | tookPrev | tookForward => exact silent (by simp [quiet]) (by simp)
  | _ => exact silent (by simp) (by simp)

/-- The signals of a run reach children that are spawned and not yet reaped if and only if
no command with a signal is executed between the reaping of a child and its cleanup. -/
theorem kills_iff {s t : State} {as : List Action} {log : List Event} (init : Init s)
    (run : machine.exec s as = some (t, log)) :
    KillsUnreaped log ↔ machine.Along SparesReaped s as := by
  refine eachAt_iff_along (I := Tracks) ?_ ?_ init.tracks run
  · intro s log a t es tracks move
    exact tracks.keep (step_move move)
  · intro s log a t es tracks move
    exact tracks.each (step_move move)

/-- The command executed between the reaping of a child and its cleanup. -/
def lateCommand (s : State) (a : Action) : Option PlayerCmd :=
  match a, s.resp, s.play with
  | .command _, .calling _ command _, .cleanup _ => some command
  | _, _, _ => none

theorem sparesReaped_iff (s : State) (a : Action) :
    SparesReaped s a ↔ ∀ command ∈ lateCommand s a, ¬ command.Signals s.player.childPaused := by
  unfold SparesReaped lateCommand
  split <;> simp

instance (s : State) (a : Action) : Decidable (SparesReaped s a) :=
  decidable_of_iff' _ (sparesReaped_iff s a)

/-- A STOP of the child 7, executed before or after its reaping. -/
def stopBeside (early : Bool) : List Action :=
  [.play, .play, .play, .play, .play, .play, .fork (some 7), .record ⟨1, 0⟩, .request .stop] ++
    if early then [.command ⟨2, 0⟩, .exit 7, .waitpid .reaped]
    else [.exit 7, .waitpid .reaped, .command ⟨2, 0⟩]

theorem stopEarly_unreaped : ∃ t log,
    machine.exec oneFile (stopBeside true) = some (t, log) ∧ KillsUnreaped log := by
  have along : machine.Along SparesReaped oneFile (stopBeside true) := by decide
  refine ⟨_, _, rfl, ?_⟩
  exact (@kills_iff _ _ (stopBeside true) _ oneFile_init rfl).mpr along

/-- SIGTERM is sent to the pid 7 after the child has been reaped. -/
theorem stopLate_reaped : ∃ t log,
    machine.exec oneFile (stopBeside false) = some (t, log) ∧
      [.reaped 7, .executed .stop, .killed 7 .sigterm] <:+: log ∧ ¬ KillsUnreaped log := by
  refine ⟨_, _, rfl, by decide, fun unreaped => ?_⟩
  have known := unreaped [.spawned 7 "a.mp4", .recorded 7, .reaped 7, .executed .stop]
    (.killed 7 .sigterm) (by decide) 7 .sigterm rfl
  revert known
  decide

end OdroidPlayer
