import OdroidPlayer.Player.Runs
import OdroidPlayer.Player.Waiting

/-!
How the player ends.

After a shutdown request, which comes from another thread, `run_player` passes at most one
more `spawn_child` and a bounded number of its other statements, and all it can wait for is
the end of the child that plays (`shutdown_ends`): nobody ends that child. When the thread has finished, every child it has
spawned has been reaped, so that what `clear_player` does about a running child is never
done (`finished_clean`).
-/

namespace OdroidPlayer

open Transition Transition.System

/-- The critical section of `clear_player`: the player it leaves and the signals it sends to
`child_pid`. -/
def clearPlayer (player : Player) : Player × List Signal :=
  if 0 < player.childPid then
    if player.childPaused then ({ player with childPaused := false }, [.sigcont, .sigterm])
    else (player, [.sigterm])
  else (player, [])

/-- The children reaped, in order. -/
def reapedPids (log : List Event) : List Nat :=
  log.filterMap fun
    | .reaped pid => some pid
    | _ => none

@[simp] theorem reapedPids_append (front back : List Event) :
    reapedPids (front ++ back) = reapedPids front ++ reapedPids back :=
  List.filterMap_append

/-- How many of its statements `run_player` has before it at most once `running` is clear, an
interrupted `waitpid` not counted. -/
def PlayAt.left : PlayAt → Nat
  | .finished => 0
  | .stopPlayer => 1
  | .loopTest | .runningTest | .exitTest _ | .endOfPlaylist => 2
  | .waitRunning | .retrySleep | .cleanup _ | .setStopped => 3
  | .waitTest | .waitpid _ | .dispatch _ => 4
  | .waitLock | .record _ => 5
  | .condWait | .spawn _ => 6
  | .readUri => 7
  | .wakeup _ => 8
  | .stoppedTest => 9

/-- How many children it has still to spawn at most. -/
def PlayAt.spawnsLeft : PlayAt → Nat
  | .stoppedTest | .wakeup _ | .readUri | .spawn _ => 1
  | _ => 0

/-- The steps of the player thread that bring it on. -/
def Action.proceeds : Action → Bool
  | .waitpid .eintr => false
  | a => a.ofPlayer

/-- Those that it takes by itself. -/
def Action.own (a : Action) : Bool := a.proceeds && decide (a ≠ .spuriousWakeup)

/-! ### Spawning and reaping -/

section Pids

variable {s t : State} {a : Action} {es : List Event}

/-- Events of the other threads. -/
theorem pids_of_others (others : ∀ e ∈ es, e.ofPlayer = false) :
    spawnedPids es = [] ∧ reapedPids es = [] := by
  constructor
  · refine List.filterMap_eq_nil_iff.mpr fun e mem => ?_
    have other := others e mem
    cases e <;> first | rfl | cases other
  · refine List.filterMap_eq_nil_iff.mpr fun e mem => ?_
    have other := others e mem
    cases e <;> first | rfl | cases other

theorem pids_broadcastUri (uri : Option String) :
    spawnedPids (broadcastUri uri) = [] ∧ reapedPids (broadcastUri uri) = [] := by
  rcases broadcastUri_cases uri with none | ⟨s, some_⟩
  · rw [none]
    exact ⟨rfl, rfl⟩
  · rw [some_]
    exact ⟨rfl, rfl⟩

/-- What is spawned is reaped before the next one is. -/
theorem Move.pids (move : Move s a t es) (inv : Inv s) :
    s.play.unreaped ++ spawnedPids es = reapedPids es ++ t.play.unreaped := by
  cases thread : a.ofPlayer with
  | false =>
      have same := move.untouched thread
      obtain ⟨spawned, reaped⟩ := pids_of_others same.events
      rw [spawned, reaped, List.append_nil, List.nil_append]
      rcases same.play with eq | eq
      · rw [eq]
      · rw [eq, PlayAt.signalled_unreaped]
  | true =>
      cases move with
      | fork at_ | reap at_ => simp [at_, PlayAt.unreaped, spawnedPids, reapedPids]
      | waitFailed at_ stranger =>
          have pids : s.children.map Child.pid = [_] := inv.children.trans (by rw [at_]; rfl)
          obtain ⟨child, mem, pid⟩ := List.mem_map.mp (pids ▸ List.mem_singleton_self _)
          exact absurd pid (stranger child mem)
      | wakeupMove at_ =>
          obtain ⟨spawned, reaped⟩ := pids_broadcastUri _
          rw [spawned, reaped, at_]
          rfl
      | tookPrev at_ | tookForward at_ =>
          obtain ⟨spawned, reaped⟩ := pids_broadcastUri _
          rw [← List.singleton_append, spawnedPids_append, reapedPids_append, spawned, reaped, at_]
          rfl
      | eintr => simp [spawnedPids, reapedPids]
      | answer | call | crash | command | exit | shutdown | shutdownSignal => cases thread
      | loopOn at_ | loopOff at_ | lock at_ | mayWait at_ | noWait at_ | wait at_ | waitOff at_
      | goOn at_ | goOff at_ | consume at_ | pass at_ | wakeupStay at_ | noUri at_ | uri at_
      | retry at_ | cleanup at_ | exitOn at_ | exitOff at_ | tookStop at_ | tookPrevStay at_
      | tookReplay at_ | tookEnd at_ | setStopped at_ | endOfPlaylist at_ | stopPlayer at_
      | forkFailed at_ | record at_ | spuriousWakeup at_ =>
          rw [at_]
          rfl

/-- The children of a run: those reaped and the one that is not. -/
theorem pids_of_run {s t : State} {as : List Action} {log : List Event} (init : Init s)
    (run : machine.exec s as = some (t, log)) :
    Inv t ∧ spawnedPids log = reapedPids log ++ t.play.unreaped := by
  have keep : ∀ (s : State) (before : List Event) (a : Action) (t : State) (es : List Event),
      Inv s ∧ spawnedPids before = reapedPids before ++ s.play.unreaped →
      machine.step s a = some (t, es) →
      Inv t ∧ spawnedPids (before ++ es) = reapedPids (before ++ es) ++ t.play.unreaped := by
    rintro s before a t es ⟨inv, pids⟩ step
    have move := step_move step
    refine ⟨inv.keep move, ?_⟩
    rw [spawnedPids_append, pids, List.append_assoc, move.pids inv, reapedPids_append,
      List.append_assoc]
  refine exec_rec keep [] ⟨init.inv, ?_⟩ run
  obtain ⟨isLoop, filelist, player, _, rfl⟩ := init
  rfl

end Pids

/-! ### The end of the player thread -/

section Finished

variable {s t : State} {a : Action} {es : List Event}

/-- No child is recorded, so no command has one to signal. -/
theorem Move.finished (move : Move s a t es) (inv : Inv s) (at_ : s.play = .finished) :
    t.play = .finished ∧ spawnedPids es = [] ∧ ∀ pid signal, .killed pid signal ∉ es := by
  have unrecorded : s.player.childPid = 0 := by rw [inv.recorded, at_]; rfl
  cases move with
  | @command r command reply now =>
      have silent : (commandPlayer now command s.player).2 = [] := by
        rw [commandPlayer_unrecorded now unrecorded]
      refine ⟨?_, ?_, ?_⟩
      · simp [State.commanded, at_, PlayAt.signalled]
      · rw [silent]
        rfl
      · rw [silent]
        simp
  | answer | call | crash | exit | shutdown => exact ⟨at_, rfl, by simp⟩
  | shutdownSignal => exact ⟨by simp [at_, PlayAt.signalled], rfl, by simp⟩
  | wakeupMove there | tookPrev there | tookForward there => rw [at_] at there; cases there
  | _ => simp_all

end Finished

/-- When the player thread has finished, every child that it has spawned has been reaped, none
is left and none is recorded; and from then on no child is spawned and none is signalled, by a
command that is still executed or by `clear_player`. -/
theorem finished_clean {s t u : State} {as bs : List Action} {log rest : List Event}
    (init : Init s) (run : machine.exec s as = some (t, log)) (finished : t.play = .finished)
    (after : machine.exec t bs = some (u, rest)) :
    t.children = [] ∧ spawnedPids log = reapedPids log ∧ u.play = .finished ∧
      spawnedPids rest = [] ∧ (∀ pid signal, .killed pid signal ∉ rest) ∧
      (clearPlayer u.player).2 = [] := by
  obtain ⟨inv, pids⟩ := pids_of_run init run
  rw [finished] at pids
  have none : t.children = [] := by
    have unreaped := inv.children
    rw [finished] at unreaped
    exact List.map_eq_nil_iff.mp unreaped
  have keep : ∀ (s : State) (before : List Event) (a : Action) (t : State) (es : List Event),
      (Inv s ∧ s.play = .finished ∧ spawnedPids before = [] ∧
        ∀ pid signal, .killed pid signal ∉ before) →
      machine.step s a = some (t, es) →
      Inv t ∧ t.play = .finished ∧ spawnedPids (before ++ es) = [] ∧
        ∀ pid signal, .killed pid signal ∉ before ++ es := by
    rintro s before a t es ⟨inv, at_, spawned, silent⟩ step
    obtain ⟨stays, spawns, signals⟩ := (step_move step).finished inv at_
    refine ⟨inv.keep (step_move step), stays, by rw [spawnedPids_append, spawned, spawns]; rfl, ?_⟩
    intro pid signal mem
    exact (List.mem_append.mp mem).elim (silent pid signal) (signals pid signal)
  have last := exec_rec keep [] ⟨inv, finished, rfl, by simp⟩ after
  rw [List.nil_append] at last
  obtain ⟨invAfter, stays, spawned, silent⟩ := last
  have unrecorded : u.player.childPid = 0 := by rw [invAfter.recorded, stays]; rfl
  refine ⟨none, by simpa [PlayAt.unreaped] using pids, stays, spawned, silent, ?_⟩
  simp [clearPlayer, unrecorded]

/-- The only file is played to its end, and a STOP comes when the player thread has
finished. -/
def playedToEnd : List Action :=
  [.play, .play, .play, .play, .play, .play, .fork (some 7), .record ⟨1, 0⟩, .exit 7,
    .waitpid .reaped, .play, .play, .play, .play, .play]

theorem playedToEnd_clean : ∃ t log u rest,
    machine.exec oneFile playedToEnd = some (t, log) ∧ spawnedPids log = [7] ∧
      machine.exec t [.request .stop, .command ⟨2, 0⟩] = some (u, rest) ∧
      reapedPids log = [7] ∧ (clearPlayer u.player).2 = [] := by
  have run : ∃ t log, machine.exec oneFile playedToEnd = some (t, log) ∧ spawnedPids log = [7] ∧
      t.play = .finished ∧
      ∃ u rest, machine.exec t [.request .stop, .command ⟨2, 0⟩] = some (u, rest) :=
    ⟨_, _, rfl, rfl, rfl, _, _, rfl⟩
  obtain ⟨t, log, run, spawned, finished, u, rest, after⟩ := run
  obtain ⟨-, reaped, -, -, -, silent⟩ := finished_clean oneFile_init run finished after
  exact ⟨t, log, u, rest, run, spawned, after, reaped ▸ spawned, silent⟩

/-! ### After a shutdown request -/

section Off

variable {s t : State} {a : Action} {es : List Event}

theorem PlayAt.left_signalled (at_ : PlayAt) : at_.signalled.left ≤ at_.left := by
  cases at_ <;> simp [PlayAt.signalled, PlayAt.left]

theorem PlayAt.spawnsLeft_signalled (at_ : PlayAt) :
    at_.signalled.spawnsLeft = at_.spawnsLeft := by
  cases at_ <;> rfl

/-- Every step of the player thread brings it nearer to its end, and no other step takes it
further away. -/
theorem Move.left (move : Move s a t es) (off : s.player.running = false) :
    t.play.left + (if a.proceeds then 1 else 0) ≤ s.play.left ∧
      (spawnedPids es).length + t.play.spawnsLeft ≤ s.play.spawnsLeft := by
  cases thread : a.ofPlayer with
  | false =>
      have same := move.untouched thread
      have idle : a.proceeds = false := by
        cases a <;> first | rfl | cases thread
      rw [(pids_of_others same.events).1, idle]
      rcases same.play with eq | eq
      · simp [eq]
      · simpa [eq, PlayAt.spawnsLeft_signalled] using s.play.left_signalled
  | true =>
      cases move with
      | loopOn _ on | wait _ on | goOn _ on | exitOn _ on => simp [off] at on
      | eintr => simp [Action.proceeds, spawnedPids]
      | wakeupMove at_ =>
          rw [(pids_broadcastUri _).1, at_]
          simp [Action.proceeds, Action.ofPlayer, PlayAt.left, PlayAt.spawnsLeft]
      | tookPrev at_ | tookForward at_ =>
          rw [← List.singleton_append, spawnedPids_append, (pids_broadcastUri _).1, at_]
          simp [Action.proceeds, Action.ofPlayer, PlayAt.left, PlayAt.spawnsLeft, spawnedPids]
      | answer | call | crash | command | exit | shutdown | shutdownSignal => cases thread
      | loopOff at_ | lock at_ | mayWait at_ | noWait at_ | waitOff at_ | goOff at_
      | consume at_ | pass at_ | wakeupStay at_ | noUri at_ | uri at_ | retry at_ | cleanup at_
      | exitOff at_ | tookStop at_ | tookPrevStay at_ | tookReplay at_ | tookEnd at_
      | setStopped at_ | endOfPlaylist at_ | stopPlayer at_ | forkFailed at_ | fork at_
      | record at_ | reap at_ | waitFailed at_ | spuriousWakeup at_ =>
          simp [at_, Action.proceeds, Action.ofPlayer, PlayAt.left, PlayAt.spawnsLeft,
            spawnedPids]

theorem left_of_run {as : List Action} {log : List Event} (off : s.player.running = false)
    (run : machine.exec s as = some (t, log)) :
    t.player.running = false ∧ t.play.left + as.countP Action.proceeds ≤ s.play.left ∧
      (spawnedPids log).length + t.play.spawnsLeft ≤ s.play.spawnsLeft := by
  induction as generalizing s log with
  | nil =>
      cases run
      simp [off, spawnedPids]
  | cons a as ih =>
      obtain ⟨m, es, rest, step, tail, rfl⟩ := exec_cons.mp run
      have move := step_move step
      obtain ⟨nearer, spawns⟩ := move.left off
      obtain ⟨stays, left, spawnsLeft⟩ := ih (move.off off) tail
      refine ⟨stays, ?_, ?_⟩
      · rw [List.countP_cons]
        omega
      · rw [spawnedPids_append, List.length_append]
        omega

/-- The child that the player thread waits for has not ended. -/
def WaitsForChild (s : State) : Prop :=
  ∃ child ∈ s.children, s.play = .waitpid child.pid ∧ child.exited = false

/-- Unless it has finished or waits for a child that has not ended, the player thread can go on,
or the signal that wakes it up can be given. -/
theorem goes_on (inv : Inv s) (attentive : Attentive s) (off : s.player.running = false) :
    s.play = .finished ∨ WaitsForChild s ∨
      ∃ a, (a.own = true ∨ a = .shutdownSignal) ∧ (step s a).isSome = true := by
  cases at_ : s.play with
  | finished => exact .inl rfl
  | condWait =>
      have coming : 0 < s.stopping :=
        (attentive.told at_).resolve_left (by simp [off])
      have signal := Move.shutdownSignal coming (by rw [at_]; rfl)
      exact .inr (.inr ⟨.shutdownSignal, .inr rfl, by rw [signal.step]; rfl⟩)
  | spawn uri =>
      exact .inr (.inr ⟨.fork none, .inl rfl, by rw [(Move.forkFailed at_).step]; rfl⟩)
  | record pid =>
      exact .inr (.inr ⟨.record ⟨0, 0⟩, .inl rfl, by rw [(Move.record at_).step]; rfl⟩)
  | waitpid pid =>
      have pids : s.children.map Child.pid = [pid] := by rw [inv.children, at_]; rfl
      obtain ⟨child, mem, rfl⟩ := List.mem_map.mp (pids ▸ List.mem_singleton_self pid)
      cases exited : child.exited with
      | false => exact .inr (.inl ⟨child, mem, at_, exited⟩)
      | true =>
          have reap := Move.reap at_ ⟨child, mem, rfl, exited⟩
          exact .inr (.inr ⟨.waitpid .reaped, .inl rfl, by rw [reap.step]; rfl⟩)
  | dispatch pending =>
      refine .inr (.inr ⟨.play, .inl rfl, ?_⟩)
      cases pending <;> simp [step, runPlayer, at_]
  | readUri =>
      refine .inr (.inr ⟨.play, .inl rfl, ?_⟩)
      simp only [step, runPlayer, at_]
      split <;> rfl
  | stoppedTest =>
      refine .inr (.inr ⟨.play, .inl rfl, ?_⟩)
      simp only [step, runPlayer, at_]
      split <;> rfl
  | _ =>
      refine .inr (.inr ⟨.play, .inl rfl, ?_⟩)
      simp [step, runPlayer, at_]

theorem PlayAt.left_le (at_ : PlayAt) : at_.left ≤ 9 ∧ at_.spawnsLeft ≤ 1 := by
  cases at_ <;> simp [PlayAt.left, PlayAt.spawnsLeft]

end Off

/-- From every state in which another thread has requested a shutdown: the player thread executes
at most nine more statements, interrupted calls of `waitpid` not counted, and spawns at most one
more child; and until it has finished it can go on or be woken up, unless it waits for a child that
has not ended. -/
theorem shutdown_ends {s t : State} {as : List Action} {log : List Event} (reach : Reachable s)
    (off : s.player.running = false) (run : machine.exec s as = some (t, log)) :
    as.countP Action.proceeds ≤ 9 ∧ (spawnedPids log).length ≤ 1 ∧
      (t.play = .finished ∨ WaitsForChild t ∨
        ∃ a, (a.own = true ∨ a = .shutdownSignal) ∧ (step t a).isSome = true) := by
  obtain ⟨stays, left, spawns⟩ := left_of_run off run
  obtain ⟨most, mostSpawns⟩ := s.play.left_le
  have after : Reachable t := by
    obtain ⟨before, first, init, reached⟩ := reach
    exact ⟨before ++ log, first, init, reached.trans ⟨as, run⟩⟩
  exact ⟨by omega, by omega, goes_on after.inv after.attentive stays⟩

/-- The shutdown comes behind the tests of `running`: a child is spawned all the same, and the
player thread finishes when it has ended. -/
theorem lateShutdown_ends : ∃ s t log,
    machine.exec oneFile [.play, .play, .play, .play, .shutdown] = some (s, []) ∧
      machine.exec s [.play, .play, .fork (some 7), .record ⟨1, 0⟩, .waitpid .eintr, .exit 7,
        .waitpid .reaped, .play, .play, .play] = some (t, log) ∧
      t.play = .finished ∧ (spawnedPids log).length ≤ 1 := by
  have before : ∃ s, machine.exec oneFile [.play, .play, .play, .play, .shutdown] = some (s, []) ∧
      s.player.running = false ∧ ∃ t log,
        machine.exec s [.play, .play, .fork (some 7), .record ⟨1, 0⟩, .waitpid .eintr, .exit 7,
          .waitpid .reaped, .play, .play, .play] = some (t, log) ∧ t.play = .finished :=
    ⟨_, rfl, rfl, _, _, rfl, rfl⟩
  obtain ⟨s, before, off, t, log, run, finished⟩ := before
  have reach : Reachable s := ⟨[], oneFile, oneFile_init, _, before⟩
  exact ⟨s, t, log, before, run, finished, (shutdown_ends reach off run).2.1⟩

end OdroidPlayer
