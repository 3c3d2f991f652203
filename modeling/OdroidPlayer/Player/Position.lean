import OdroidPlayer.Player.Runs

/-!
The playback position (`get_player_position`) against the signals that the child gets.

The position is the time since the child was recorded, less `paused_offset_us` and, while
the child is paused, the time since `pause_started`. `Stops` adds up the same time from the
signals: from a SIGSTOP to the next SIGCONT the child is stopped. A command that ends a
paused child continues it and leaves out what its RESUME would have added, so the two
agree exactly where no such command finds a pause that has taken time (`position_iff`).
Microseconds are integers here; a `long long` holds those of any real clock.
-/

namespace OdroidPlayer

open Transition

def Timeval.us (t : Timeval) : Int := t.tvSec * 1000000 + t.tvUsec

theorem Timeval.usSince_eq (now start : Timeval) : now.usSince start = now.us - start.us := by
  unfold usSince us
  omega

theorem Timeval.eq_zero_iff {t : Timeval} : t = ⟨0, 0⟩ ↔ t.tvSec = 0 ∧ t.tvUsec = 0 := by
  cases t
  simp

/-- `get_player_position`, in nanoseconds, with the time that `gettimeofday` reports. -/
def getPlayerPosition (now : Timeval) (player : Player) : Int :=
  if player.childPid = 0 ∨ (player.childStartTime.tvSec = 0 ∧ player.childStartTime.tvUsec = 0) then
    -1
  else
    let deltaUs := now.usSince player.childStartTime - player.pausedOffsetUs
    let deltaUs := if player.childPaused then deltaUs - now.usSince player.pauseStarted else deltaUs
    (if deltaUs < 0 then 0 else deltaUs) * 1000

/-! ### The time that a child is stopped -/

structure Stops where
  /-- microseconds from each SIGSTOP to its SIGCONT -/
  total : Int
  /-- the SIGSTOP that no SIGCONT has followed -/
  since : Option Timeval

def Stops.signal (now : Timeval) (stops : Stops) : Signal → Stops
  | .sigstop => if stops.since.isSome then stops else { stops with since := some now }
  | .sigcont =>
      match stops.since with
      | none => stops
      | some stopped => ⟨stops.total + now.usSince stopped, none⟩
  | .sigterm => stops

/-- A child begins its recorded life running. -/
def Stops.event (now : Timeval) (stops : Stops) : Event → Stops
  | .recorded _ => ⟨0, none⟩
  | .killed _ signal => stops.signal now signal
  | _ => stops

/-- The time that the child has been stopped up to `t`. -/
def Stops.upTo (stops : Stops) (t : Timeval) : Int :=
  match stops.since with
  | none => stops.total
  | some stopped => stops.total + t.usSince stopped

/-- The player beside a clock. -/
structure Timed where
  state : State
  /-- what the clock has reported last -/
  clock : Timeval
  stops : Stops

def Action.now : Action → Option Timeval
  | .record now | .command now => some now
  | _ => none

/-- The steps of `machine` under a clock that does not go back. -/
def timed : System Timed Action Event where
  step w a :=
    match a.now with
    | none => (step w.state a).map fun out => ({ w with state := out.1 }, out.2)
    | some now =>
        if now.us < w.clock.us then none
        else (step w.state a).map fun out =>
          (⟨out.1, now, out.2.foldl (Stops.event now) w.stops⟩, out.2)

def Timed.Init (w : Timed) : Prop := OdroidPlayer.Init w.state

/-- At any time from now on the position is the time since the child was recorded, less the
time that it has been stopped. -/
def Timed.PositionRight (w : Timed) : Prop :=
  0 < w.state.player.childPid → ∀ t : Timeval, w.clock.us ≤ t.us →
    getPlayerPosition t w.state.player =
      1000 * (t.usSince w.state.player.childStartTime - w.stops.upTo t)

/-- No child is recorded at time zero, and no command ends a child whose pause has taken
time. -/
def CountsPauses (w : Timed) (a : Action) : Prop :=
  match a, w.state.resp with
  | .record now, _ => now ≠ ⟨0, 0⟩
  | .command now, .calling _ command _ =>
      command.Ends → w.state.player.childPaused = true →
        now.usSince w.state.player.pauseStarted = 0
  | _, _ => True

instance (w : Timed) (a : Action) : Decidable (CountsPauses w a) :=
  match a, resp : w.state.resp with
  | .record now, _ => inferInstanceAs (Decidable (now ≠ ⟨0, 0⟩))
  | .command now, .calling _ command _ =>
      decidable_of_iff (command.Ends → w.state.player.childPaused = true →
        now.usSince w.state.player.pauseStarted = 0) (by simp [CountsPauses, resp])
  | .command _, .idle | .command _, .crashed => .isTrue (by simp [CountsPauses, resp])
  | .play, _ | .fork _, _ | .waitpid _, _ | .spuriousWakeup, _ | .request _, _ | .exit _, _
  | .shutdown, _ | .shutdownSignal, _ => .isTrue trivial

/-! ### What the three fields of the player add up to -/

/-- The record of a child against its stops: what is missing in `paused_offset_us` are whole
pauses, and the pauses lie between the start of the child and now. -/
structure Account (w : Timed) : Prop where
  since : w.stops.since =
    if w.state.player.childPaused then some w.state.player.pauseStarted else none
  counted : w.state.player.pausedOffsetUs ≤ w.stops.total
  room : w.state.player.childStartTime.us + w.stops.total ≤
    if w.state.player.childPaused then w.state.player.pauseStarted.us else w.clock.us
  order : w.state.player.childPaused = true → w.state.player.pauseStarted.us ≤ w.clock.us

structure Timed.Inv (w : Timed) : Prop where
  inv : OdroidPlayer.Inv w.state
  account : 0 < w.state.player.childPid → Account w

/-- Once recorded at another time than zero, the child is late by the pauses not counted. -/
theorem Account.position {w : Timed} (account : Account w) (recorded : 0 < w.state.player.childPid)
    (nonzero : w.state.player.childStartTime ≠ ⟨0, 0⟩) {t : Timeval} (later : w.clock.us ≤ t.us) :
    getPlayerPosition t w.state.player =
      1000 * (t.usSince w.state.player.childStartTime - w.stops.upTo t +
        (w.stops.total - w.state.player.pausedOffsetUs)) := by
  obtain ⟨since, counted, room, order⟩ := account
  have started : ¬ (w.state.player.childPid = 0 ∨ (w.state.player.childStartTime.tvSec = 0 ∧
      w.state.player.childStartTime.tvUsec = 0)) := by
    rw [← Timeval.eq_zero_iff, not_or]
    exact ⟨Nat.pos_iff_ne_zero.mp recorded, nonzero⟩
  simp only [getPlayerPosition, if_neg started, Stops.upTo, since]
  cases paused : w.state.player.childPaused with
  | false =>
      simp only [paused, Bool.false_eq_true, if_false] at room ⊢
      simp only [Timeval.usSince_eq]
      rw [if_neg (by omega)]
      omega
  | true =>
      have before := order paused
      simp only [paused, if_true] at room ⊢
      simp only [Timeval.usSince_eq]
      rw [if_neg (by omega)]
      omega

theorem Account.positionRight_iff {w : Timed} (account : Account w)
    (recorded : 0 < w.state.player.childPid) :
    w.PositionRight ↔ w.state.player.childStartTime ≠ ⟨0, 0⟩ ∧
      w.state.player.pausedOffsetUs = w.stops.total := by
  have counted := account.counted
  constructor
  · intro right
    have now := right recorded w.clock le_rfl
    by_cases zero : w.state.player.childStartTime = ⟨0, 0⟩
    · -- the position is unknown, while no time at all is not negative
      have unknown : getPlayerPosition w.clock w.state.player = -1 := by
        rw [getPlayerPosition, if_pos (.inr (Timeval.eq_zero_iff.mp zero))]
      rw [unknown] at now
      omega
    · rw [account.position recorded zero le_rfl] at now
      exact ⟨zero, by omega⟩
  · rintro ⟨nonzero, same⟩ _ t later
    rw [account.position recorded nonzero later]
    omega

/-! ### One step -/

/-- A step is one of `machine`; only those that read the clock touch the account. -/
theorem timed_step {w v : Timed} {a : Action} {es : List Event}
    (move : timed.step w a = some (v, es)) :
    Move w.state a v.state es ∧
      ((a.now = none ∧ v.clock = w.clock ∧ v.stops = w.stops) ∨
        ∃ now, a.now = some now ∧ w.clock.us ≤ now.us ∧ v.clock = now ∧
          v.stops = es.foldl (Stops.event now) w.stops) := by
  simp only [timed] at move
  split at move
  next none_ =>
      obtain ⟨⟨t, log⟩, moved, same⟩ := Option.map_eq_some_iff.mp move
      cases same
      exact ⟨step_move moved, .inl ⟨none_, rfl, rfl⟩⟩
  next now some_ =>
      split at move
      · cases move
      next later =>
          obtain ⟨⟨t, log⟩, moved, same⟩ := Option.map_eq_some_iff.mp move
          cases same
          exact ⟨step_move moved, .inr ⟨now, some_, not_lt.mp later, rfl, rfl⟩⟩

theorem stops_commandEvents (player : Player) (now : Timeval) (r : Request) (command : PlayerCmd)
    (reply : Reply) (stops : Stops) :
    (commandEvents player now r command reply).foldl (Stops.event now) stops =
      (commandPlayer now command player).2.foldl (Stops.signal now) stops := by
  rw [commandEvents, List.cons_append, List.foldl_cons, List.foldl_append, List.foldl_map]
  rfl

/-- What `command_player` does to the pause of a recorded child. -/
inductive PauseMove (now : Timeval) (command : PlayerCmd) (player after : Player)
    (signals : List Signal) : Prop where
  | same (paused : after.childPaused = player.childPaused)
      (started : after.pauseStarted = player.pauseStarted)
      (offset : after.pausedOffsetUs = player.pausedOffsetUs)
      (sent : ∀ stops : Stops, signals.foldl (Stops.signal now) stops = stops)
      (running : command.Ends → player.childPaused = false)
  | pauses (was : player.childPaused = false) (paused : after.childPaused = true)
      (started : after.pauseStarted = now) (offset : after.pausedOffsetUs = player.pausedOffsetUs)
      (sent : signals = [.sigstop])
  | continues (was : player.childPaused = true) (paused : after.childPaused = false)
      (offset : after.pausedOffsetUs = player.pausedOffsetUs +
        if command.Ends then 0 else now.usSince player.pauseStarted)
      (sent : ∀ stops : Stops, signals.foldl (Stops.signal now) stops = stops.signal now .sigcont)

theorem commandPlayer_pauseMove (now : Timeval) (command : PlayerCmd) {player : Player}
    (recorded : 0 < player.childPid) :
    PauseMove now command player (commandPlayer now command player).1
      (commandPlayer now command player).2 := by
  unfold commandPlayer
  rw [if_pos recorded]
  cases paused : player.childPaused with
  | false =>
      cases command with
      | pause => exact .pauses paused rfl rfl rfl rfl
      | _ => exact .same (by simp [paused]) rfl rfl (fun _ => rfl) fun _ => paused
  | true =>
      cases command with
      | resume => exact .continues paused rfl (by simp [PlayerCmd.Ends]) fun _ => rfl
      | next | prev | stop | replay =>
          exact .continues paused rfl (by simp [PlayerCmd.Ends]) fun _ => rfl
      | pause | none => exact .same (by simp [paused]) rfl rfl (fun _ => rfl) fun ends => ends.elim

/-- The account after a command that finds a child. -/
theorem Account.command {w v : Timed} (account : Account w) {now : Timeval} {command : PlayerCmd}
    (later : w.clock.us ≤ now.us) (clock : v.clock = now)
    (start : v.state.player.childStartTime = w.state.player.childStartTime)
    {signals : List Signal} (move : PauseMove now command w.state.player v.state.player signals)
    (stops : v.stops = signals.foldl (Stops.signal now) w.stops) :
    Account v ∧ v.stops.total - v.state.player.pausedOffsetUs =
      w.stops.total - w.state.player.pausedOffsetUs +
        if command.Ends ∧ w.state.player.childPaused = true then
          now.usSince w.state.player.pauseStarted else 0 := by
  obtain ⟨since, counted, room, order⟩ := account
  cases move with
  | same paused started offset sent running =>
      have unended : ¬ (command.Ends ∧ w.state.player.childPaused = true) := by
        rintro ⟨ends, on⟩
        rw [running ends] at on
        cases on
      rw [sent] at stops
      rw [stops, offset, if_neg unended]
      refine ⟨⟨?_, ?_, ?_, ?_⟩, by omega⟩
      · rw [stops, paused, started, since]
      · rw [stops, offset]
        exact counted
      · rw [stops, start, paused, started, clock]
        refine le_trans room ?_
        split
        · exact le_rfl
        · exact later
      · intro on
        rw [started, clock]
        exact le_trans (order (paused ▸ on)) later
  | pauses was paused started offset sent =>
      simp only [was, Bool.false_eq_true, if_false] at since room
      have fresh : v.stops.total = w.stops.total ∧ v.stops.since = some now := by
        rw [stops, sent, List.foldl_cons, List.foldl_nil, Stops.signal, since]
        exact ⟨rfl, rfl⟩
      rw [fresh.1, offset, if_neg (by simp [was])]
      refine ⟨⟨?_, ?_, ?_, ?_⟩, by omega⟩
      · rw [fresh.2, paused, started, if_pos rfl]
      · rw [fresh.1, offset]
        exact counted
      · rw [fresh.1, start, paused, started, if_pos rfl]
        exact le_trans room later
      · intro _
        rw [started, clock]
  | continues was paused offset sent =>
      have before := order was
      simp only [was, if_true] at since room
      have took := Timeval.usSince_eq now w.state.player.pauseStarted
      have resumed : v.stops.total = w.stops.total + now.usSince w.state.player.pauseStarted ∧
          v.stops.since = none := by
        rw [stops, sent, Stops.signal, since]
        exact ⟨rfl, rfl⟩
      rw [resumed.1, offset]
      refine ⟨⟨?_, ?_, ?_, ?_⟩, ?_⟩
      · rw [resumed.2, paused, if_neg Bool.false_ne_true]
      · rw [resumed.1, offset]
        split <;> omega
      · rw [resumed.1, start, paused, clock, if_neg Bool.false_ne_true]
        omega
      · intro on
        rw [paused] at on
        cases on
      · simp only [was, and_true]
        split <;> omega

/-- The account is one of five fields, the clock and the stops. -/
theorem Account.congr {w v : Timed} (account : Account w)
    (paused : v.state.player.childPaused = w.state.player.childPaused)
    (started : v.state.player.pauseStarted = w.state.player.pauseStarted)
    (offset : v.state.player.pausedOffsetUs = w.state.player.pausedOffsetUs)
    (start : v.state.player.childStartTime = w.state.player.childStartTime)
    (clock : v.clock = w.clock) (stops : v.stops = w.stops) : Account v := by
  obtain ⟨since, counted, room, order⟩ := account
  constructor
  · rw [stops, paused, started, since]
  · rw [stops, offset]
    exact counted
  · rw [stops, start, paused, started, clock]
    exact room
  · rw [paused, started, clock]
    exact order

/-- A condition on what reads the clock. -/
theorem countsPauses_of_none {w : Timed} {a : Action} (none_ : a.now = none) :
    CountsPauses w a := by
  cases a with
  | record | command => cases none_
  | _ => trivial

/-- A new child has the start time as its account. -/
theorem Timed.Inv.record {w : Timed} (inv : w.Inv) {pid : Nat} (at_ : w.state.play = .record pid)
    {v : Timed} (after : OdroidPlayer.Inv v.state) (stops : v.stops = ⟨0, none⟩)
    (pid' : v.state.player.childPid = pid) (paused : v.state.player.childPaused = false)
    (offset : v.state.player.pausedOffsetUs = 0) (start : v.state.player.childStartTime = v.clock) :
    v.Inv ∧ (v.PositionRight ↔ CountsPauses w (.record v.clock)) := by
  have pos : 0 < v.state.player.childPid := by simpa [at_, PlayAt.PidOk, pid'] using inv.inv.pidOk
  have account : Account v := by
    constructor
    · rw [stops, paused]
      rfl
    · rw [stops, offset]
    · rw [stops, start, paused, if_neg Bool.false_ne_true, Int.add_zero]
    · intro on
      rw [paused] at on
      cases on
  refine ⟨⟨after, fun _ => account⟩, ?_⟩
  rw [account.positionRight_iff pos, start, offset, stops]
  constructor
  · rintro ⟨nonzero, _⟩
    exact nonzero
  · intro nonzero
    exact ⟨nonzero, rfl⟩

theorem Timed.Inv.command {w v : Timed} (inv : w.Inv) {r : Request} {command : PlayerCmd}
    {reply : Reply} (calling : w.state.resp = .calling r command reply)
    (later : w.clock.us ≤ v.clock.us) (after : OdroidPlayer.Inv v.state)
    (state : v.state = w.state.commanded v.clock command)
    (stops : v.stops =
      (commandEvents w.state.player v.clock r command reply).foldl (Stops.event v.clock) w.stops) :
    v.Inv ∧ (w.PositionRight → (v.PositionRight ↔ CountsPauses w (.command v.clock))) := by
  have met : CountsPauses w (.command v.clock) ↔ (command.Ends →
      w.state.player.childPaused = true → v.clock.usSince w.state.player.pauseStarted = 0) := by
    simp only [CountsPauses, calling]
  rw [met]
  have player : v.state.player = (commandPlayer v.clock command w.state.player).1 := by
    rw [state]
    rfl
  have pid : v.state.player.childPid = w.state.player.childPid := by
    rw [player, commandPlayer_childPid]
  rcases Nat.eq_zero_or_pos w.state.player.childPid with none_ | known
  · have unknown : ¬ 0 < v.state.player.childPid := by rw [pid, none_]; exact lt_irrefl 0
    refine ⟨⟨after, fun known => absurd known unknown⟩, fun _ =>
      ⟨fun _ _ on => ?_, fun _ known => ?_⟩⟩
    · exact absurd (inv.inv.paused on) (by rw [none_]; exact lt_irrefl 0)
    · exact absurd known unknown
  · have start : v.state.player.childStartTime = w.state.player.childStartTime := by
      rw [player]
      exact (commandPlayer_frame v.clock command w.state.player).2.2.2.2.2
    have move := commandPlayer_pauseMove v.clock command known
    rw [← player] at move
    rw [stops_commandEvents] at stops
    obtain ⟨account, missing⟩ := (inv.account known).command later rfl start move stops
    refine ⟨⟨after, fun _ => account⟩, fun right => ?_⟩
    obtain ⟨nonzero, whole⟩ := ((inv.account known).positionRight_iff known).mp right
    rw [account.positionRight_iff (pid ▸ known), start]
    constructor
    · rintro ⟨_, whole'⟩ ends on
      rw [if_pos ⟨ends, on⟩] at missing
      omega
    · intro short
      refine ⟨nonzero, ?_⟩
      split at missing
      next both =>
          have none_ := short both.1 both.2
          omega
      · omega

/-- With the account kept, a step keeps the position right exactly under the condition. -/
theorem Timed.Inv.step {w v : Timed} {a : Action} {es : List Event} (inv : w.Inv)
    (move : timed.step w a = some (v, es)) :
    v.Inv ∧ (w.PositionRight → (v.PositionRight ↔ CountsPauses w a)) := by
  obtain ⟨moved, clocked⟩ := timed_step move
  obtain ⟨t, clock, stops⟩ := v
  have after : OdroidPlayer.Inv t := inv.inv.keep moved
  rcases clocked with ⟨none_, same, same'⟩ | ⟨now, some_, later, same, same'⟩
  · obtain rfl : clock = w.clock := same
    obtain rfl : stops = w.stops := same'
    have met : CountsPauses w a := countsPauses_of_none none_
    cases moved with
    | cleanup at_ =>
        refine ⟨⟨after, fun known => absurd known (lt_irrefl 0)⟩, fun _ => ⟨fun _ => met, ?_⟩⟩
        intro _ known
        exact absurd known (lt_irrefl 0)
    | record | command => cases none_
    | _ =>
        exact ⟨⟨after, fun known => (inv.account known).congr rfl rfl rfl rfl rfl rfl⟩,
          fun right => ⟨fun _ => met, fun _ => right⟩⟩
  · obtain rfl : clock = now := same
    cases moved with
    | record at_ =>
        cases some_
        obtain ⟨inv', iff⟩ := inv.record (v := ⟨_, clock, stops⟩) at_ after same' rfl rfl rfl rfl
        exact ⟨inv', fun _ => iff⟩
    | command calling free =>
        cases some_
        exact inv.command calling later after rfl same'
    | _ => cases some_

/-- Along a run the position of every recorded child is the time since it was recorded less
the time that it has been stopped if and only if no child is recorded at time zero and no
command ends a child whose pause has taken time. -/
theorem position_iff {w v : Timed} {as : List Action} {log : List Event} (init : w.Init)
    (run : timed.exec w as = some (v, log)) :
    (timed.Along (fun u _ => u.PositionRight) w as ∧ v.PositionRight) ↔
      timed.Along CountsPauses w as := by
  have unrecorded : w.state.player.childPid = 0 := by
    obtain ⟨isLoop, filelist, player, prepared, state⟩ := init
    obtain ⟨_, rfl⟩ := preparePlayer_spec prepared
    rw [state]
    rfl
  have unknown : ¬ 0 < w.state.player.childPid := by rw [unrecorded]; exact lt_irrefl 0
  have inv : w.Inv := ⟨OdroidPlayer.Init.inv init, fun known => absurd known unknown⟩
  refine System.along_iff_along_of_inv (J := Timed.Inv) ?_ ?_ inv
    (fun known => absurd known unknown) run
  · intro w a v es inv move
    exact (inv.step move).1
  · intro w a v es inv right move
    exact (inv.step move).2 right

/-- Times that do not go back. -/
def ClockFrom (clock : Timeval) : List Action → Prop
  | [] => True
  | a :: as =>
      match a.now with
      | none => ClockFrom clock as
      | some now => clock.us ≤ now.us ∧ ClockFrom now as

/-- The timed runs are the runs of `machine` under such a clock. -/
theorem timed_iff {w : Timed} {as : List Action} {t : State} {log : List Event} :
    (∃ v, timed.exec w as = some (v, log) ∧ v.state = t) ↔
      machine.exec w.state as = some (t, log) ∧ ClockFrom w.clock as := by
  induction as generalizing w log with
  | nil =>
      constructor
      · rintro ⟨v, run, rfl⟩
        cases run
        exact ⟨rfl, trivial⟩
      · rintro ⟨run, _⟩
        cases run
        exact ⟨w, rfl, rfl⟩
  | cons a as ih =>
      constructor
      · rintro ⟨v, run, at_⟩
        obtain ⟨u, es, rest, first, tail, rfl⟩ := System.exec_cons.mp run
        obtain ⟨run', clock⟩ := ih.mp ⟨v, tail, at_⟩
        obtain ⟨moved, clocked⟩ := timed_step first
        refine ⟨System.exec_cons.mpr ⟨_, es, rest, moved.step, run', rfl⟩, ?_⟩
        rcases clocked with ⟨none_, same, _⟩ | ⟨now, some_, later, same, _⟩
        · simp only [ClockFrom, none_]
          rwa [same] at clock
        · simp only [ClockFrom, some_]
          rw [same] at clock
          exact ⟨later, clock⟩
      · rintro ⟨run, clock⟩
        obtain ⟨u, es, rest, first, tail, rfl⟩ := System.exec_cons.mp run
        cases reads : a.now with
        | none =>
            simp only [ClockFrom, reads] at clock
            have step : timed.step w a = some ({ w with state := u }, es) := by
              have moved : step w.state a = some (u, es) := first
              simp only [timed, reads, moved, Option.map_some]
            obtain ⟨v, run', at_⟩ := (ih (w := { w with state := u })).mpr ⟨tail, clock⟩
            exact ⟨v, System.exec_cons.mpr ⟨_, es, rest, step, run', rfl⟩, at_⟩
        | some now =>
            simp only [ClockFrom, reads] at clock
            have step : timed.step w a =
                some (⟨u, now, es.foldl (Stops.event now) w.stops⟩, es) := by
              have moved : step w.state a = some (u, es) := first
              simp only [timed, reads, moved, Option.map_some, if_neg (not_lt.mpr clock.1)]
            obtain ⟨v, run', at_⟩ :=
              (ih (w := ⟨u, now, es.foldl (Stops.event now) w.stops⟩)).mpr ⟨tail, clock.2⟩
            exact ⟨v, System.exec_cons.mpr ⟨_, es, rest, step, run', rfl⟩, at_⟩

/-- While the child is paused the position does not move. -/
theorem getPlayerPosition_paused {player : Player} (paused : player.childPaused = true)
    (t t' : Timeval) : getPlayerPosition t player = getPlayerPosition t' player := by
  simp only [getPlayerPosition, paused, if_true, Timeval.usSince_eq]
  have same : t.us - player.childStartTime.us - player.pausedOffsetUs -
      (t.us - player.pauseStarted.us) = t'.us - player.childStartTime.us - player.pausedOffsetUs -
      (t'.us - player.pauseStarted.us) := by omega
  rw [same]

/-- A pause of three seconds, ended by a PLAY or by a STOP. -/
def pausedFor (r : Request) : List Action :=
  [.play, .play, .play, .play, .play, .play, .fork (some 7), .record ⟨1, 0⟩, .request .pause,
    .command ⟨2, 0⟩, .request r, .command ⟨5, 0⟩]

theorem resumed_right : ∃ v log,
    timed.exec ⟨oneFile, ⟨0, 0⟩, ⟨0, none⟩⟩ (pausedFor .play) = some (v, log) ∧
      getPlayerPosition ⟨6, 0⟩ v.state.player = 2000000000 ∧ v.PositionRight := by
  have along : timed.Along CountsPauses ⟨oneFile, ⟨0, 0⟩, ⟨0, none⟩⟩ (pausedFor .play) := by decide
  refine ⟨_, _, rfl, rfl, ?_⟩
  have init : Timed.Init ⟨oneFile, ⟨0, 0⟩, ⟨0, none⟩⟩ := oneFile_init
  exact ((@position_iff _ _ (pausedFor .play) _ init rfl).mpr along).2

/-- The STOP makes the position jump from one second to four. -/
theorem stopped_jumps : ∃ v log,
    timed.exec ⟨oneFile, ⟨0, 0⟩, ⟨0, none⟩⟩ (pausedFor .stop) = some (v, log) ∧
      getPlayerPosition ⟨5, 0⟩ v.state.player = 4000000000 ∧
      1000 * ((⟨5, 0⟩ : Timeval).usSince v.state.player.childStartTime - v.stops.upTo ⟨5, 0⟩) =
        1000000000 ∧ ¬ v.PositionRight := by
  refine ⟨_, _, rfl, rfl, rfl, fun right => ?_⟩
  have now := right (by decide) ⟨5, 0⟩ (by decide)
  revert now
  decide

end OdroidPlayer
