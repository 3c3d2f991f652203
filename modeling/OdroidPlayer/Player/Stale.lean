import OdroidPlayer.Player.Overwrite
import OdroidPlayer.Lib.Log

/-!
Which command decides the branch taken for a child.

Between the cleanup of one child and the recording of the next nothing clears
`pending_command`, unless the player is stopped and its wait loop consumes it. A command
executed there is found by the next cleanup. `inLife_of_timely` shows that this is the
only way in which a STOP, PREV or REPLAY branch is taken for a command that was not
executed in the life of the child.
-/

namespace OdroidPlayer

open Transition Transition.System

def Event.isLife : Event → Bool
  | .recorded _ | .cleaned _ _ => true
  | _ => false

def Event.isExecuted : Event → Bool
  | .executed _ => true
  | _ => false

/-- `pid` has been recorded and not been cleaned up. -/
def Alive (pid : Nat) (log : List Event) : Prop :=
  SinceLast (fun e => !e.isLife) (fun _ => True) (.recorded pid) log

/-- `command` is the last command executed, and was executed after `pid` was recorded. -/
def DecidedFor (pid : Nat) (command : PlayerCmd) (log : List Event) : Prop :=
  SinceLast (fun e => !e.isLife && !e.isExecuted) (Alive pid) (.executed command) log

/-- The last cleanup took a command for `branch` that was executed in the child's life. -/
def DecidedInLife (branch : Branch) (log : List Event) : Prop :=
  ∃ pid command, command.branch = branch ∧
    SinceLast (fun e => !e.isCleaned) (DecidedFor pid command) (.cleaned pid command) log

/-- Every branch but the one of a natural end was decided in the life of the child. -/
def InLife (log : List Event) : Prop :=
  EachAt (fun before e => ∀ branch, e = .took branch → branch ≠ .forward →
    DecidedInLife branch before) log

/-- The player thread is on its way to a stop: after a STOP, or at the end of the playlist. -/
def State.AboutToStop (s : State) : Prop :=
  match s.play with
  | .setStopped | .endOfPlaylist => True
  | .exitTest pending | .dispatch pending =>
      pending = .stop ∨ pending.branch = .forward ∧
        forwardPlaylist s.player.loop s.player.playlist = none
  | _ => False

/-- No command executed now is left for the next child. -/
def Excused (s : State) : Prop :=
  s.player.running = false ∨ s.player.childStopped = true ∨ s.AboutToStop

/-- A command that asks for another branch than the default one is executed on a
recorded child or by a player that is stopped or about to stop. -/
def Timely (s : State) (a : Action) : Prop :=
  ∀ now r command reply, a = .command now → s.resp = .calling r command reply →
    command.branch ≠ .forward → 0 < s.player.childPid ∨ Excused s

/-! ### The invariant -/

structure Fresh (s : State) (log : List Event) : Prop where
  unrecorded : s.player.childPid = 0 → s.player.pendingCommand.branch ≠ .forward → Excused s
  alive : ∀ pid, s.play = .waitpid pid ∨ s.play = .cleanup pid → Alive pid log
  decides : ∀ pid, s.play = .waitpid pid ∨ s.play = .cleanup pid →
    s.player.pendingCommand.branch ≠ .forward →
    DecidedFor pid s.player.pendingCommand log ∨ s.player.running = false
  exits : ∀ pending, s.play = .exitTest pending → pending.branch ≠ .forward →
    DecidedInLife pending.branch log ∨ s.player.running = false
  branches : ∀ pending, s.play = .dispatch pending → pending.branch ≠ .forward →
    DecidedInLife pending.branch log
  inLife : InLife log

/-- Neither a recorded child nor a branch to take. -/
def PlayAt.Idle (at_ : PlayAt) : Prop :=
  match at_ with
  | .waitpid _ | .cleanup _ | .exitTest _ | .dispatch _ => False
  | _ => True

/-- Away from a recorded child only the pending command and the past count. -/
theorem Fresh.of_idle {s : State} {log : List Event} (idle : s.play.Idle)
    (unrecorded : s.player.pendingCommand.branch ≠ .forward → Excused s)
    (inLife : InLife log) : Fresh s log where
  unrecorded := fun _ => unrecorded
  alive := fun pid at_ => by rcases at_ with at_ | at_ <;> simp [at_, PlayAt.Idle] at idle
  decides := fun pid at_ => by rcases at_ with at_ | at_ <;> simp [at_, PlayAt.Idle] at idle
  exits := fun pending at_ => by simp [at_, PlayAt.Idle] at idle
  branches := fun pending at_ => by simp [at_, PlayAt.Idle] at idle
  inLife := inLife

theorem InLife.append {log es : List Event} (inLife : InLife log)
    (untaken : OdroidPlayer.branches es = []) : InLife (log ++ es) := by
  refine EachAt.append inLife fun e mem front branch is => ?_
  have none := List.filterMap_eq_nil_iff.mp untaken e mem
  simp [is] at none

theorem InLife.took {log : List Event} (inLife : InLife log) {branch : Branch}
    (decided : branch ≠ .forward → DecidedInLife branch log) (uri : Option String) :
    InLife (log ++ .took branch :: broadcastUri uri) := by
  have first : InLife (log ++ [.took branch]) := EachAt.concat inLife fun b is => by
    cases is
    exact decided
  simpa using first.append (branches_broadcastUri uri)

/-- A pending command that asks for a branch is a reason not to be in the middle of
the loop of a running, unstopped player. -/
theorem Excused.jump {s : State} (excused : Excused s) (notYet : ¬ s.AboutToStop)
    {t : State} (running : t.player.running = s.player.running)
    (stopped : t.player.childStopped = s.player.childStopped) : Excused t := by
  rcases excused with off | on | about
  · exact .inl (running.trans off)
  · exact .inr (.inl (stopped.trans on))
  · exact absurd about notYet

theorem Untouched.aboutToStop {s t : State} {es : List Event} (same : Untouched s t es) :
    t.AboutToStop ↔ s.AboutToStop := by
  unfold State.AboutToStop
  rw [same.playlist, same.loop]
  rcases same.play with eq | eq <;> rw [eq]
  cases s.play <;> exact Iff.rfl

theorem Untouched.excused {s t : State} {es : List Event} (same : Untouched s t es)
    (excused : Excused s) : Excused t := by
  rcases excused with off | on | about
  · exact .inl (same.off off)
  · exact .inr (.inl (same.childStopped.trans on))
  · exact .inr (.inr (same.aboutToStop.mpr about))

theorem not_isLife_of_other {es : List Event} (other : ∀ e ∈ es, e.ofPlayer = false) :
    ∀ e ∈ es, (!e.isLife) = true := by
  intro e mem
  have is := other e mem
  cases e <;> first | rfl | cases is

theorem not_isCleaned_of_other {es : List Event} (other : ∀ e ∈ es, e.ofPlayer = false) :
    ∀ e ∈ es, (!e.isCleaned) = true := by
  intro e mem
  have is := other e mem
  cases e <;> first | rfl | cases is

/-- What the other threads do without executing a command. -/
theorem Fresh.other {s t : State} {log es : List Event} (fresh : Fresh s log)
    (same : Untouched s t es) (pending : t.player.pendingCommand = s.player.pendingCommand)
    (unheard : ∀ e ∈ es, e.isExecuted = false) : Fresh t (log ++ es) where
  unrecorded := fun none asks =>
    same.excused (fresh.unrecorded (same.childPid ▸ none) (pending ▸ asks))
  alive := fun pid there => by
    have at_ := there.imp (same.at (by simp)) (same.at (by simp))
    exact (fresh.alive pid at_).append (not_isLife_of_other same.events)
  decides := fun pid there asks => by
    have at_ := there.imp (same.at (by simp)) (same.at (by simp))
    rw [pending] at asks ⊢
    refine (fresh.decides pid at_ asks).imp (fun decided => decided.append fun e mem => ?_) same.off
    simpa [unheard e mem] using not_isLife_of_other same.events e mem
  exits := fun p there asks => by
    refine (fresh.exits p (same.at (by simp) there) asks).imp ?_ same.off
    rintro ⟨pid, command, is, since⟩
    exact ⟨pid, command, is, since.append (not_isCleaned_of_other same.events)⟩
  branches := fun p there asks => by
    obtain ⟨pid, command, is, since⟩ := fresh.branches p (same.at (by simp) there) asks
    exact ⟨pid, command, is, since.append (not_isCleaned_of_other same.events)⟩
  inLife := fresh.inLife.append same.branches_eq

theorem commandEvents_tail (player : Player) (now : Timeval) (r : Request)
    (command : PlayerCmd) (reply : Reply) : ∃ back,
    commandEvents player now r command reply = .executed command :: back ∧
      ∀ e ∈ back, (!e.isLife && !e.isExecuted) = true := by
  refine ⟨(commandPlayer now command player).2.map (.killed player.childPid) ++
    [.answered r reply], rfl, fun e mem => ?_⟩
  simp only [List.mem_append, List.mem_map, List.mem_singleton] at mem
  rcases mem with ⟨signal, _, rfl⟩ | rfl <;> rfl

/-- An executed command: on a recorded child it is the one that decides. -/
theorem Fresh.command {s : State} {log : List Event} (fresh : Fresh s log)
    {r : Request} {command : PlayerCmd} {reply : Reply} {now : Timeval}
    (same : Untouched s (s.commanded now command) (commandEvents s.player now r command reply))
    (timely : command.branch ≠ .forward → 0 < s.player.childPid ∨ Excused s) :
    Fresh (s.commanded now command) (log ++ commandEvents s.player now r command reply) where
  unrecorded := fun none asks => by
    have unrecorded : s.player.childPid = 0 := same.childPid ▸ none
    have asks' : command.branch ≠ .forward := by simpa [State.commanded] using asks
    rcases timely asks' with recorded | excused
    · omega
    · exact same.excused excused
  alive := fun pid there => by
    have at_ := there.imp (same.at (by simp)) (same.at (by simp))
    exact (fresh.alive pid at_).append (not_isLife_of_other same.events)
  decides := fun pid there asks => by
    have at_ := there.imp (same.at (by simp)) (same.at (by simp))
    obtain ⟨back, eq, quiet⟩ := commandEvents_tail s.player now r command reply
    have pending : (s.commanded now command).player.pendingCommand = command := by
      simp [State.commanded]
    rw [pending, eq]
    exact .inl (SinceLast.here (fresh.alive pid at_) quiet)
  exits := fun p there asks => by
    refine (fresh.exits p (same.at (by simp) there) asks).imp ?_ same.off
    rintro ⟨pid, command, is, since⟩
    exact ⟨pid, command, is, since.append (not_isCleaned_of_other same.events)⟩
  branches := fun p there asks => by
    obtain ⟨pid, command, is, since⟩ := fresh.branches p (same.at (by simp) there) asks
    exact ⟨pid, command, is, since.append (not_isCleaned_of_other same.events)⟩
  inLife := fresh.inLife.append same.branches_eq

/-- A move of the player thread that leaves the pending command and the flags. -/
theorem Fresh.idle_step {s t : State} {log es : List Event} (fresh : Fresh s log) (inv : Inv s)
    (unrecorded : s.play.recordedPid = 0) (notYet : ¬ s.AboutToStop) (idle : t.play.Idle)
    (pending : t.player.pendingCommand = s.player.pendingCommand)
    (running : t.player.running = s.player.running)
    (stopped : t.player.childStopped = s.player.childStopped)
    (untaken : OdroidPlayer.branches es = []) : Fresh t (log ++ es) :=
  .of_idle idle
    (fun asks => (fresh.unrecorded (inv.recorded.trans unrecorded) (pending ▸ asks)).jump notYet
      running stopped)
    (fresh.inLife.append untaken)

/-- The cleanup takes what is pending; the child's life ends. -/
theorem Fresh.cleanup {s t : State} {log : List Event} (fresh : Fresh s log) {pid : Nat}
    (at_ : s.play = .cleanup pid) (pending : t.player.pendingCommand = .none)
    (running : t.player.running = s.player.running)
    (there : t.play = .exitTest s.player.pendingCommand) :
    Fresh t (log ++ [.cleaned pid s.player.pendingCommand]) where
  unrecorded := fun _ asks => absurd (by rw [pending]; rfl) asks
  alive := fun pid at' => by simp [there] at at'
  decides := fun pid at' => by simp [there] at at'
  exits := fun p at' asks => by
    obtain rfl := PlayAt.exitTest.inj (there.symm.trans at')
    rcases fresh.decides pid (.inr at_) asks with decided | off
    · exact .inl ⟨pid, s.player.pendingCommand, rfl, SinceLast.here decided (by simp)⟩
    · exact .inr (running.trans off)
  branches := fun p at' => by simp [there] at at'
  inLife := fresh.inLife.append rfl

/-- From `record` on the child lives; what is pending was not executed for a running player. -/
theorem Fresh.record {s t : State} {log : List Event} (fresh : Fresh s log) (inv : Inv s)
    {pid : Nat} (at_ : s.play = .record pid)
    (pending : t.player.pendingCommand = s.player.pendingCommand)
    (running : t.player.running = s.player.running) (recorded : t.player.childPid = pid)
    (there : t.play = .waitpid pid) : Fresh t (log ++ [.recorded pid]) where
  unrecorded := fun none => by
    have pos : 0 < pid := by simpa [at_, PlayAt.PidOk] using inv.pidOk
    omega
  alive := fun pid' at' => by
    rcases at' with at' | at'
    · obtain rfl := PlayAt.waitpid.inj (there.symm.trans at')
      exact SinceLast.here trivial (by simp)
    · simp [there] at at'
  decides := fun pid' at' asks => by
    have none : s.player.childPid = 0 := inv.recorded.trans (by rw [at_]; rfl)
    rcases fresh.unrecorded none (pending ▸ asks) with off | on | about
    · exact .inr (running.trans off)
    · simpa [at_, PlayAt.mayBeStopped] using inv.stopped on
    · simp [State.AboutToStop, at_] at about
  exits := fun p at' => by simp [there] at at'
  branches := fun p at' => by simp [there] at at'
  inLife := fresh.inLife.append rfl

/-- A step from `waitpid` to the cleanup. -/
theorem Fresh.waited {s t : State} {log es : List Event} (fresh : Fresh s log) (inv : Inv s)
    {pid : Nat} (at_ : s.play = .waitpid pid) (same : t.player = s.player)
    (there : t.play = .cleanup pid)
    (quiet : ∀ e ∈ es, (!e.isLife && !e.isExecuted) = true)
    (untaken : OdroidPlayer.branches es = []) : Fresh t (log ++ es) where
  unrecorded := fun none => by
    have recorded := inv.childPid_pos.mpr ⟨pid, .inl at_⟩
    rw [same] at none
    omega
  alive := fun pid' at' => by
    rcases at' with at' | at'
    · simp [there] at at'
    · obtain rfl := PlayAt.cleanup.inj (there.symm.trans at')
      exact (fresh.alive pid (.inl at_)).append fun e mem => (Bool.and_eq_true_iff.mp (quiet e mem)).1
  decides := fun pid' at' asks => by
    rcases at' with at' | at'
    · simp [there] at at'
    · obtain rfl := PlayAt.cleanup.inj (there.symm.trans at')
      rw [same] at asks ⊢
      exact (fresh.decides pid (.inl at_) asks).imp_left fun decided => decided.append quiet
  exits := fun p at' => by simp [there] at at'
  branches := fun p at' => by simp [there] at at'
  inLife := fresh.inLife.append untaken

/-- `running` is tested before the branches. -/
theorem Fresh.exitOn {s : State} {log : List Event} (fresh : Fresh s log)
    {pending : PlayerCmd} (at_ : s.play = .exitTest pending) (on : s.player.running = true) :
    Fresh (s.jump (.dispatch pending)) log where
  unrecorded := fun none asks => by
    refine (fresh.unrecorded none asks).imp_right (Or.imp_right fun about => ?_)
    simpa [State.AboutToStop, at_] using about
  alive := fun pid at' => by simp at at'
  decides := fun pid at' => by simp at at'
  exits := fun p at' => by simp at at'
  branches := fun p at' asks => by
    obtain rfl := PlayAt.dispatch.inj at'
    rcases fresh.exits pending at_ asks with decided | off
    · exact decided
    · simp [off] at on
  inLife := fresh.inLife

/-- A branch that goes back to the top of the loop. -/
theorem Fresh.tookLoop {s t : State} {log : List Event} (fresh : Fresh s log) (inv : Inv s)
    {pending : PlayerCmd} (at_ : s.play = .dispatch pending) (notYet : ¬ s.AboutToStop)
    {uri : Option String} {es : List Event}
    (took : es = .took pending.branch :: broadcastUri uri) (there : t.play = .loopTest)
    (same : t.player.pendingCommand = s.player.pendingCommand)
    (running : t.player.running = s.player.running)
    (stopped : t.player.childStopped = s.player.childStopped) : Fresh t (log ++ es) := by
  subst took
  have none : s.player.childPid = 0 := inv.recorded.trans (by rw [at_]; rfl)
  refine .of_idle (by rw [there]; trivial) (fun asks => ?_)
    (fresh.inLife.took (fresh.branches pending at_) uri)
  exact (fresh.unrecorded none (same ▸ asks)).jump notYet running stopped

theorem Fresh.keep {s t : State} {a : Action} {log es : List Event} (fresh : Fresh s log)
    (inv : Inv s) (timely : Timely s a) (move : Move s a t es) : Fresh t (log ++ es) := by
  cases mine : a.ofPlayer with
  | false =>
      have same := move.untouched mine
      cases move with
      | @command r command reply now calling =>
          exact fresh.command same fun asks => timely now r command reply rfl calling asks
      | answer | call | crash | exit | shutdown | shutdownSignal =>
          exact fresh.other same rfl (by simp [Event.isExecuted])
      | _ => cases mine
  | true =>
      cases move with
      | loopOn at_ | loopOff at_ | lock at_ | mayWait at_ | noWait at_ | wait at_ | waitOff at_
      | goOn at_ | goOff at_ | pass at_ | wakeupStay at_ | noUri at_ | uri at_ | retry at_
      | forkFailed at_ | spuriousWakeup at_ | fork at_ =>
          exact fresh.idle_step inv (by rw [at_]; rfl) (by simp [State.AboutToStop, at_]) trivial
            rfl rfl rfl rfl
      | wakeupMove at_ =>
          exact fresh.idle_step inv (by rw [at_]; rfl) (by simp [State.AboutToStop, at_]) trivial
            rfl rfl rfl (branches_broadcastUri _)
      | consume => exact .of_idle trivial (fun asks => absurd rfl asks) (fresh.inLife.append rfl)
      | cleanup at_ => exact fresh.cleanup at_ rfl rfl rfl
      | exitOn at_ on => simpa using fresh.exitOn at_ on
      | exitOff at_ off =>
          exact .of_idle trivial (fun _ => .inl off) (fresh.inLife.append rfl)
      | tookStop at_ =>
          exact .of_idle trivial (fun _ => .inr (.inr trivial))
            (fresh.inLife.took (fresh.branches _ at_) none)
      | tookPrev at_ =>
          have notYet : ¬ s.AboutToStop := by simp [State.AboutToStop, at_, PlayerCmd.branch]
          refine fresh.tookLoop inv at_ notYet rfl ?_ ?_ ?_ ?_ <;> rfl
      | tookPrevStay at_ | tookReplay at_ =>
          have notYet : ¬ s.AboutToStop := by simp [State.AboutToStop, at_, PlayerCmd.branch]
          have took : ∀ b, [Event.took b] = .took b :: broadcastUri none := fun _ => rfl
          refine fresh.tookLoop inv at_ notYet (took _) ?_ ?_ ?_ ?_ <;> rfl
      | @tookForward pending _ _ at_ forward moved =>
          have notStop : pending ≠ .stop := fun is => by simp [is, PlayerCmd.branch] at forward
          have notYet : ¬ s.AboutToStop := by simp [State.AboutToStop, at_, notStop, moved]
          refine fresh.tookLoop inv at_ notYet (by rw [forward]) ?_ ?_ ?_ ?_ <;> rfl
      | @tookEnd pending at_ forward =>
          refine .of_idle trivial (fun _ => .inr (.inr trivial)) ?_
          exact fresh.inLife.took (fun asks => absurd rfl asks) none
      | setStopped =>
          exact .of_idle trivial (fun _ => .inr (.inl rfl)) (fresh.inLife.append rfl)
      | endOfPlaylist | stopPlayer =>
          exact .of_idle trivial (fun _ => .inl rfl) (fresh.inLife.append rfl)
      | record at_ => exact fresh.record inv at_ rfl rfl rfl rfl
      | reap at_ => exact fresh.waited inv at_ rfl rfl (by simp [Event.isLife, Event.isExecuted]) rfl
      | waitFailed at_ => exact fresh.waited inv at_ rfl rfl (by simp) rfl
      | eintr => simpa using fresh
      | _ => cases mine

/-- In a run that executes no such command out of time, every STOP, PREV and REPLAY
branch was decided in the life of the child that it is taken for. -/
theorem inLife_of_timely {s t : State} {as : List Action} {log : List Event} (init : Init s)
    (timely : machine.Along Timely s as) (run : machine.exec s as = some (t, log)) :
    InLife log := by
  have keep : ∀ (u : State) (before : List Event) (a : Action) (v : State) (es : List Event),
      Inv u ∧ Fresh u before → Timely u a → machine.step u a = some (v, es) →
      Inv v ∧ Fresh v (before ++ es) := by
    rintro u before a v es ⟨inv, fresh⟩ timely move
    exact ⟨inv.keep (step_move move), fresh.keep inv timely (step_move move)⟩
  have start : Fresh s [] := by
    obtain ⟨isLoop, filelist, player, prepared, rfl⟩ := init
    obtain ⟨_, rfl⟩ := preparePlayer_spec prepared
    exact .of_idle trivial (fun asks => absurd rfl asks) EachAt.nil
  have fresh := (exec_rec_of_along keep timely [] ⟨init.inv, start⟩ run).2
  simpa using fresh.inLife

theorem DecidedInLife.sublist {branch : Branch} {log : List Event}
    (decided : DecidedInLife branch log) :
    ∃ pid command, List.Sublist [.recorded pid, .executed command] log := by
  obtain ⟨pid, command, _, front, back, rfl, since, _⟩ := decided
  obtain ⟨front', back', rfl, alive, _⟩ := since
  obtain ⟨front'', back'', rfl, _, _⟩ := alive
  refine ⟨pid, command, ?_⟩
  simp only [List.append_assoc, List.cons_append]
  exact ((List.singleton_sublist.mpr (by simp)).cons_cons _).trans (List.sublist_append_right _ _)

/-- A player of two files, as it is started. -/
def twoFiles : State :=
  startPlayer { createPlayer false with playlist := ⟨["a.mp4", "b.mp4"], 0⟩ }

theorem twoFiles_init : Init twoFiles := ⟨false, ["a.mp4", "b.mp4"], _, rfl, rfl⟩

/-- A STOP before the first child is recorded; the child plays to its end. -/
def stopBeforeRecord : List Action :=
  [.request .stop, .command ⟨0, 0⟩, .play, .play, .play, .play, .play, .play, .fork (some 7),
    .record ⟨0, 0⟩, .exit 7, .waitpid .reaped, .play, .play, .play]

/-- The child that nobody stopped is followed by the stop that was meant before it. -/
theorem stale_stop_taken : ∃ t log, machine.exec twoFiles stopBeforeRecord = some (t, log) ∧
    ¬ InLife log := by
  let before : List Event := [.executed .stop, .answered .stop (.text "stop"), .spawned 7 "a.mp4",
    .recorded 7, .reaped 7, .cleaned 7 .stop]
  refine ⟨_, before ++ [.took .stop], rfl, fun inLife => ?_⟩
  have decided : DecidedInLife .stop before :=
    inLife before _ (List.prefix_refl _) .stop rfl (by simp)
  obtain ⟨pid, command, sub⟩ := decided.sublist
  -- only these two kinds of events matter, and they come in the other order
  let kind : Event → Option Bool := fun
    | .recorded _ => some true
    | .executed _ => some false
    | _ => none
  have kinds : List.Sublist [true, false] [false, true] := sub.filterMap kind
  exact absurd kinds (by decide)

/-- The same STOP in the life of the child. -/
theorem inLife_stop_recorded :
    ∃ t log, machine.exec twoFiles [.play, .play, .play, .play, .play, .play, .fork (some 7),
      .record ⟨0, 0⟩, .request .stop, .command ⟨0, 0⟩, .exit 7, .waitpid .reaped, .play, .play,
      .play] = some (t, log) ∧ .took .stop ∈ log ∧ InLife log := by
  have free : ∀ as : List Action, (∀ a ∈ as, ∀ now, a ≠ .command now) →
      ∀ s, machine.Along Timely s as := fun as no =>
    along_of_forall fun a mem _ now _ _ _ is => absurd is (no a mem now)
  have timely : machine.Along Timely twoFiles ([.play, .play, .play, .play, .play, .play,
      .fork (some 7), .record ⟨0, 0⟩, .request .stop] ++ .command ⟨0, 0⟩ :: [.exit 7,
      .waitpid .reaped, .play, .play, .play]) :=
    along_append (free _ (by simp) _) rfl
      ⟨fun _ _ _ _ _ _ _ => .inl (by decide), fun _ _ _ => free _ (by simp) _⟩
  exact ⟨_, _, rfl, by decide, inLife_of_timely twoFiles_init timely rfl⟩

end OdroidPlayer
