import OdroidPlayer.Lib.Log

/-!
The watchdog of a shutdown (`server/utils/watchdog.c`).

The handler of SIGINT sends SIGUSR1 to the watchdog thread before it calls
`set_player_running` and SIGUSR2 behind it. In between the watchdog waits ten times for a
tenth of a second and then ends the process. A signal that is pending is not queued a second
time, and the SIGUSR2 of one handler also ends the watch of another.

So the watchdog ends the process behind ten rounds, and a round passes without a signal only
while a handler is under way (`exits_after_ten`). A handler that does not return is found out
in every state exactly as long as each step is timely (`detects_iff_timely`): a handler starts
only while the watchdog waits or watches and no SIGUSR2 is pending, or in the last round of a
watch, whether or not another handler is under way; it returns only when it is the last one
under way, or in the last round behind another SIGUSR1; no handler runs on the watchdog
thread; and that thread takes no SIGCHLD, which ends it, while a handler is under way.

The end of the process is one step: the broadcast and the `unlink` in front of `exit` are left
out.
-/

namespace OdroidPlayer

open Transition Transition.System

/-- `WATCHDOG_TIMEOUT` -/
def watchdogTimeout : Nat := 1

inductive WatchdogSignal where
  | sigusr1 | sigusr2
  deriving DecidableEq, Repr

inductive WatchdogAt where
  /-- `sigwaitinfo` -/
  | waiting
  /-- `sigtimedwait`, behind which `left` rounds are left -/
  | watching (left : Nat)
  /-- the thread executes the handler of SIGINT -/
  | handling
  | finished
  /-- `exit(EXIT_FAILURE)` -/
  | exited
  deriving DecidableEq, Repr

structure Watchdog where
  at_ : WatchdogAt
  /-- SIGUSR1 is pending for the thread -/
  usr1 : Bool
  usr2 : Bool
  /-- the handlers on other threads that are between `start_watchdog_timer` and
  `stop_watchdog_timer` -/
  handlers : Nat
  deriving DecidableEq, Repr

namespace Watchdog

inductive Action where
  /-- `start_watchdog_timer` of a handler on another thread -/
  | start
  /-- `stop_watchdog_timer` -/
  | stop
  /-- the call of `sigwaitinfo` or `sigtimedwait` returns a signal, or times out -/
  | run (signal : Option WatchdogSignal)
  /-- SIGINT is handled by the watchdog thread itself. -/
  | interrupt
  /-- its handler returns, and the wait has been interrupted -/
  | ret
  /-- SIGCHLD is handled by the watchdog thread, and the wait has been interrupted. -/
  | sigchld
  deriving DecidableEq, Repr

inductive Event where
  | started
  | stopped
  /-- SIGUSR1 begins a watch -/
  | watch
  /-- a round ends with another SIGUSR1 -/
  | again
  /-- a round ends without a signal -/
  | timedOut
  | exited
  deriving DecidableEq, Repr

def init : Watchdog := ⟨.waiting, false, false, 0⟩

/-- The round is over, and `triggered` is still false; behind the last one the process ends. -/
def passed (s : Watchdog) (e : Event) : Nat → Watchdog × List Event
  | 0 => ({ s with at_ := .exited }, [e, .exited])
  | left + 1 => ({ s with at_ := .watching left }, [e])

/-- `run_watchdog` -/
def runWatchdog (s : Watchdog) : Option WatchdogSignal → Option (Watchdog × List Event)
  | some .sigusr1 =>
      if s.usr1 = false then none
      else
        match s.at_ with
        | .waiting =>
            some ({ s with usr1 := false, at_ := .watching (watchdogTimeout * 10 - 1) }, [.watch])
        | .watching left => some (({ s with usr1 := false } : Watchdog).passed .again left)
        | _ => none
  | some .sigusr2 =>
      if s.usr2 = false then none
      else
        match s.at_ with
        | .waiting | .watching _ => some ({ s with usr2 := false, at_ := .waiting }, [])
        | _ => none
  | none =>
      if s.usr1 = true ∨ s.usr2 = true then none
      else
        match s.at_ with
        | .watching left => some (s.passed .timedOut left)
        | _ => none

def machine : System Watchdog Action Event where
  step s a :=
    if s.at_ = .exited then none
    else
      match a with
      | .start => some ({ s with usr1 := true, handlers := s.handlers + 1 }, [.started])
      | .stop =>
          if s.handlers = 0 then none
          else some ({ s with usr2 := true, handlers := s.handlers - 1 }, [.stopped])
      | .run signal => s.runWatchdog signal
      | .interrupt =>
          match s.at_ with
          | .waiting | .watching _ =>
              some ({ s with usr1 := true, at_ := .handling }, [.started])
          | _ => none
      | .ret =>
          if s.at_ = .handling then
            some ({ s with usr2 := true, at_ := .finished }, [.stopped])
          else none
      | .sigchld =>
          match s.at_ with
          | .waiting | .watching _ => some ({ s with at_ := .finished }, [])
          | _ => none

/-- The handlers that have not called `stop_watchdog_timer`. -/
def underWay (s : Watchdog) : Nat := s.handlers + if s.at_ = .handling then 1 else 0

/-- Where both signals are pending SIGUSR1 is taken first, which has the lower number. -/
def InOrder (s : Watchdog) (a : Action) : Prop := a = .run (some .sigusr2) → s.usr1 = false

inductive Move (s : Watchdog) : Action → Watchdog → List Event → Prop where
  | start (on : s.at_ ≠ .exited) :
      Move s .start { s with usr1 := true, handlers := s.handlers + 1 } [.started]
  | stop (on : s.at_ ≠ .exited) (some_ : s.handlers ≠ 0) :
      Move s .stop { s with usr2 := true, handlers := s.handlers - 1 } [.stopped]
  | watch (at_ : s.at_ = .waiting) (pending : s.usr1 = true) :
      Move s (.run (some .sigusr1))
        { s with usr1 := false, at_ := .watching (watchdogTimeout * 10 - 1) } [.watch]
  | again {left : Nat} {t : Watchdog} {es : List Event} (at_ : s.at_ = .watching left)
      (pending : s.usr1 = true)
      (passed : ({ s with usr1 := false } : Watchdog).passed .again left = (t, es)) :
      Move s (.run (some .sigusr1)) t es
  | ends (at_ : s.at_ = .waiting ∨ ∃ left, s.at_ = .watching left) (pending : s.usr2 = true) :
      Move s (.run (some .sigusr2)) { s with usr2 := false, at_ := .waiting } []
  | timeout {left : Nat} {t : Watchdog} {es : List Event} (at_ : s.at_ = .watching left)
      (quiet : s.usr1 = false ∧ s.usr2 = false) (passed : s.passed .timedOut left = (t, es)) :
      Move s (.run none) t es
  | interrupt (at_ : s.at_ = .waiting ∨ ∃ left, s.at_ = .watching left) :
      Move s .interrupt { s with usr1 := true, at_ := .handling } [.started]
  | ret (at_ : s.at_ = .handling) :
      Move s .ret { s with usr2 := true, at_ := .finished } [.stopped]
  | sigchld (at_ : s.at_ = .waiting ∨ ∃ left, s.at_ = .watching left) :
      Move s .sigchld { s with at_ := .finished } []

section Steps

variable {s t : Watchdog} {a : Action} {es : List Event}

theorem runWatchdog_move {signal : Option WatchdogSignal}
    (step : s.runWatchdog signal = some (t, es)) : Move s (.run signal) t es := by
  rcases signal with _ | _ | _
  · obtain ⟨quiet, step⟩ := Option.ite_none_left_eq_some.mp step
    cases at_ : s.at_ with
    | watching left =>
        rw [at_] at step
        exact .timeout at_ (by simpa using quiet) (Option.some.inj step)
    | waiting | handling | finished | exited => simp [at_] at step
  · obtain ⟨pending, step⟩ := Option.ite_none_left_eq_some.mp step
    cases at_ : s.at_ with
    | waiting =>
        rw [at_] at step
        cases step
        exact .watch at_ (by simpa using pending)
    | watching left =>
        simp only [at_] at step
        exact .again at_ (by simpa using pending) (by simpa [at_] using step)
    | handling | finished | exited => simp [at_] at step
  · obtain ⟨pending, step⟩ := Option.ite_none_left_eq_some.mp step
    cases at_ : s.at_ with
    | waiting =>
        rw [at_] at step
        cases step
        exact .ends (.inl at_) (by simpa using pending)
    | watching left =>
        rw [at_] at step
        cases step
        exact .ends (.inr ⟨left, at_⟩) (by simpa using pending)
    | handling | finished | exited => simp [at_] at step

theorem step_move (step : machine.step s a = some (t, es)) : Move s a t es := by
  obtain ⟨on, step⟩ := Option.ite_none_left_eq_some.mp step
  cases a with
  | start =>
      cases step
      exact .start on
  | stop =>
      obtain ⟨some_, eq⟩ := Option.ite_none_left_eq_some.mp step
      cases eq
      exact .stop on some_
  | run signal => exact runWatchdog_move step
  | interrupt =>
      cases at_ : s.at_ with
      | waiting =>
          simp only [at_] at step
          cases step
          exact .interrupt (.inl at_)
      | watching left =>
          simp only [at_] at step
          cases step
          exact .interrupt (.inr ⟨left, at_⟩)
      | handling | finished | exited => simp [at_] at step
  | ret =>
      obtain ⟨at_, eq⟩ := Option.ite_none_right_eq_some.mp step
      cases eq
      exact .ret at_
  | sigchld =>
      cases at_ : s.at_ with
      | waiting =>
          simp only [at_] at step
          cases step
          exact .sigchld (.inl at_)
      | watching left =>
          simp only [at_] at step
          cases step
          exact .sigchld (.inr ⟨left, at_⟩)
      | handling | finished | exited => simp [at_] at step

end Steps

/-! ### No watch without a handler -/

def started (log : List Event) : Nat := log.count .started

def stopped (log : List Event) : Nat := log.count .stopped

/-- The rounds since the last watch has begun. -/
def rounds : List Event → Nat :=
  List.foldl (fun n e => match e with
    | .watch => 0
    | .again | .timedOut => n + 1
    | .started | .stopped | .exited => n) 0

/-- A round passes without a signal while a handler is under way, and the process is ended behind
ten rounds. -/
def Excused (front : List Event) (e : Event) : Prop :=
  (e = .timedOut → stopped front < started front) ∧
    (e = .exited → rounds front = watchdogTimeout * 10)

/-- A watch that is on, or about to begin, has a handler under way or is about to end. -/
structure Watches (s : Watchdog) (log : List Event) : Prop where
  told : s.usr1 = true ∨ (∃ left, s.at_ = .watching left) → s.usr2 = true ∨ 0 < s.underWay
  handlers : started log = stopped log + s.underWay
  left : ∀ left, s.at_ = .watching left → rounds log + left + 1 = watchdogTimeout * 10
  each : EachAt Excused log

section Watches

variable {s t : Watchdog} {a : Action} {es log : List Event}

@[simp] theorem rounds_concat (log : List Event) (e : Event) : rounds (log ++ [e]) = match e with
    | .watch => 0
    | .again | .timedOut => rounds log + 1
    | .started | .stopped | .exited => rounds log := by
  simp only [rounds, List.foldl_append, List.foldl_cons, List.foldl_nil]

theorem Watches.concat (watches : Watches s log) {e : Event}
    (other : e ≠ .timedOut ∧ e ≠ .exited) : EachAt Excused (log ++ [e]) :=
  watches.each.concat ⟨fun is => absurd is other.1, fun is => absurd is other.2⟩

/-- A round that has passed. -/
theorem Watches.passed (watches : Watches s log) {left : Nat} (at_ : s.at_ = .watching left)
    {e : Event} (round : e = .again ∨ e = .timedOut) {usr1 : Bool}
    (told : s.usr2 = true ∨ 0 < s.underWay)
    (excused : e = .timedOut → stopped log < started log)
    (passed : ({ s with usr1 } : Watchdog).passed e left = (t, es)) : Watches t (log ++ es) := by
  have before := watches.left left at_
  have handlers := watches.handlers
  have next : rounds (log ++ [e]) = rounds log + 1 := by
    rcases round with rfl | rfl <;> simp
  have here : EachAt Excused (log ++ [e]) :=
    watches.each.concat ⟨excused, by rcases round with rfl | rfl <;> simp⟩
  cases left with
  | zero =>
      cases passed
      have last : log ++ [e, Event.exited] = (log ++ [e]) ++ [.exited] := by simp
      refine ⟨fun _ => ?_, ?_, by simp, last ▸ here.concat ⟨by simp, fun _ => ?_⟩⟩
      · simpa [underWay, at_] using told
      · rcases round with rfl | rfl <;> simpa [started, stopped, underWay, at_] using handlers
      · omega
  | succ left =>
      cases passed
      refine ⟨fun _ => ?_, ?_, fun left' at' => ?_, here⟩
      · simpa [underWay, at_] using told
      · rcases round with rfl | rfl <;> simpa [started, stopped, underWay, at_] using handlers
      · cases at'
        omega

theorem Watches.keep (watches : Watches s log) (inOrder : InOrder s a) (move : Move s a t es) :
    Watches t (log ++ es) := by
  have handlers := watches.handlers
  cases move with
  | start on =>
      refine ⟨fun _ => .inr (Nat.add_pos_left (Nat.succ_pos _) _), ?_, fun left at_ => ?_,
        watches.concat (by simp)⟩
      · simp [started, stopped, underWay] at handlers ⊢
        omega
      · simpa using watches.left left at_
  | stop on some_ =>
      refine ⟨fun _ => .inl rfl, ?_, fun left at_ => ?_, watches.concat (by simp)⟩
      · simp [started, stopped, underWay] at handlers ⊢
        omega
      · simpa using watches.left left at_
  | watch at_ pending =>
      refine ⟨fun _ => ?_, ?_, fun left at_ => ?_, watches.concat (by simp)⟩
      · simpa [underWay, at_] using watches.told (.inl pending)
      · simpa [started, stopped, underWay, at_] using handlers
      · cases at_
        simp [watchdogTimeout]
  | again at_ pending passed =>
      exact watches.passed at_ (.inl rfl) (watches.told (.inl pending)) (by simp) passed
  | ends at_ pending =>
      have none : s.usr1 = false := inOrder rfl
      rw [List.append_nil]
      refine ⟨by simp [none], ?_, by simp, watches.each⟩
      rcases at_ with at_ | ⟨left, at_⟩ <;> simpa [underWay, at_] using handlers
  | timeout at_ quiet passed =>
      have told := watches.told (.inr ⟨_, at_⟩)
      have some_ := told.resolve_left (by simp [quiet.2])
      exact watches.passed at_ (.inr rfl) told (fun _ => by omega) passed
  | interrupt at_ =>
      refine ⟨fun _ => .inr (by simp [underWay]), ?_, by simp, watches.concat (by simp)⟩
      rcases at_ with at_ | ⟨left, at_⟩ <;> simp [started, stopped, underWay, at_] at handlers ⊢ <;>
        omega
  | ret at_ =>
      refine ⟨fun _ => .inl rfl, ?_, by simp, watches.concat (by simp)⟩
      simp [started, stopped, underWay, at_] at handlers ⊢
      omega
  | sigchld at_ =>
      have same : underWay { s with at_ := .finished } = s.underWay := by
        rcases at_ with at_ | ⟨left, at_⟩ <;> simp [underWay, at_]
      rw [List.append_nil]
      exact ⟨fun usr1 => same ▸ watches.told (.inl (usr1.resolve_right (by simp))),
        handlers.trans (by rw [same]), by simp, watches.each⟩

end Watches

/-- In every run in which SIGUSR1 is taken before SIGUSR2: the watchdog ends the process behind
ten rounds of one watch, and where a round passes without a signal, a handler has been started
and has not returned. -/
theorem exits_after_ten {t : Watchdog} {as : List Action} {log : List Event}
    (inOrder : machine.Along InOrder init as) (run : machine.exec init as = some (t, log)) :
    EachAt Excused log := by
  have first : Watches init [] := ⟨by simp [init], rfl, by simp [init], EachAt.nil⟩
  exact (exec_rec_of_along (fun _ _ _ _ _ watches inOrder step =>
    watches.keep inOrder (step_move step)) inOrder [] first run).each

/-- A second SIGINT comes while the first handler is blocked, and both stay so. -/
def bothBlocked : List Action :=
  [.start, .run (some .sigusr1), .run none, .start, .run (some .sigusr1)] ++
    List.replicate 8 (.run none)

theorem bothBlocked_exits : ∃ t log, machine.exec init bothBlocked = some (t, log) ∧
    t.at_ = .exited ∧ EachAt Excused log := by
  have run : ∃ t log, machine.exec init bothBlocked = some (t, log) ∧ t.at_ = .exited :=
    ⟨_, _, rfl, rfl⟩
  obtain ⟨t, log, run, exited⟩ := run
  have inOrder : machine.Along InOrder init bothBlocked :=
    along_of_forall (fun a mem s is => by simp [is, bothBlocked] at mem) init
  exact ⟨t, log, run, exited, exits_after_ten inOrder run⟩

/-! ### Handlers that do not return -/

/-- The watch is on or about to begin, and no SIGUSR2 is going to end it. -/
def OnWatch (s : Watchdog) : Prop :=
  s.usr2 = false ∧ (s.at_ = .waiting ∧ s.usr1 = true ∨ ∃ left, s.at_ = .watching left)

/-- Either SIGUSR1 is taken, in the last round, or the next watch is about to begin. -/
def LastRound (s : Watchdog) : Prop := s.at_ = .watching 0 ∧ s.usr1 = true

def Guarded (s : Watchdog) : Prop := s.underWay ≠ 0 → s.at_ = .exited ∨ s.OnWatch ∨ s.LastRound

/-- The steps behind which a handler that does not return is found out. A watchdog that has ended
or executes a handler itself notices no start, and a pending SIGUSR2 ends the watch that a start
begins; in the last round neither matters. -/
def Timely (s : Watchdog) : Action → Prop
  | .start =>
      s.usr2 = false ∧ (s.at_ = .waiting ∨ ∃ left, s.at_ = .watching left) ∨ s.at_ = .watching 0
  | .stop => s.handlers = 1 ∨ s.LastRound
  | .interrupt => False
  | .sigchld => s.handlers = 0
  | .run _ | .ret => True

/-- A watch has ten rounds. -/
def Small (s : Watchdog) : Prop := ∀ left, s.at_ = .watching left → left < watchdogTimeout * 10

/-- What is left of the watches, where a handler does not return. -/
def toDo (s : Watchdog) : Nat :=
  match s.at_ with
  | .watching left => if s.usr2 = true then watchdogTimeout * 10 + 2 else left + 1
  | .exited => 0
  | .waiting | .handling | .finished => watchdogTimeout * 10 + 1

section Detects

variable {s t : Watchdog} {a : Action} {es : List Event}

/-- What a round that has passed leads to. -/
theorem passed_at {left : Nat} {e : Event} (passed : s.passed e left = (t, es)) :
    t.usr1 = s.usr1 ∧ t.usr2 = s.usr2 ∧ t.handlers = s.handlers ∧
      (left = 0 ∧ t.at_ = .exited ∨ ∃ rest, left = rest + 1 ∧ t.at_ = .watching rest) := by
  cases left with
  | zero =>
      cases passed
      exact ⟨rfl, rfl, rfl, .inl ⟨rfl, rfl⟩⟩
  | succ rest =>
      cases passed
      exact ⟨rfl, rfl, rfl, .inr ⟨rest, rfl, rfl⟩⟩

theorem Small.keep (small : Small s) (move : Move s a t es) : Small t := by
  intro left at_
  cases move with
  | watch =>
      cases at_
      decide
  | again at_' _ passed | timeout at_' _ passed =>
      obtain ⟨-, -, -, ⟨-, ends⟩ | ⟨rest, rfl, next⟩⟩ := passed_at passed
      · simp [ends] at at_
      · have same : rest = left := by simpa [next] using at_
        have less := small _ at_'
        omega
  | ends | interrupt | ret | sigchld => cases at_
  | start | stop => exact small left at_

/-- But for the last round no SIGUSR2 is pending. -/
theorem Guarded.quiet (guarded : Guarded s) (some_ : s.underWay ≠ 0)
    (at_ : s.at_ = .waiting ∨ ∃ rest, s.at_ = .watching (rest + 1)) : s.usr2 = false := by
  rcases guarded some_ with there | on | last
  · simp [there] at at_
  · exact on.1
  · simp [last.1] at at_

theorem run_underWay {signal : Option WatchdogSignal} (move : Move s (.run signal) t es) :
    t.underWay = s.underWay := by
  cases move with
  | watch at_ => simp [underWay, at_]
  | ends at_ => rcases at_ with at_ | ⟨left, at_⟩ <;> simp [underWay, at_]
  | again at_ _ passed | timeout at_ _ passed =>
      obtain ⟨-, -, handlers, ⟨-, ends⟩ | ⟨rest, -, next⟩⟩ := passed_at passed <;>
        simp [underWay, *]

/-- A step of the watchdog while a handler is under way. -/
theorem Guarded.run (guarded : Guarded s) (some_ : s.underWay ≠ 0) (small : Small s)
    {signal : Option WatchdogSignal} (move : Move s (.run signal) t es) :
    Guarded t ∧ t.toDo < s.toDo := by
  cases move with
  | watch at_ pending =>
      have quiet := guarded.quiet some_ (.inl at_)
      refine ⟨fun _ => .inr (.inl ⟨quiet, .inr ⟨_, rfl⟩⟩), ?_⟩
      simp [toDo, at_, quiet, watchdogTimeout]
  | @again left _ _ at_ pending passed =>
      obtain ⟨-, usr2, -, next⟩ := passed_at passed
      have less := small left at_
      rcases next with ⟨-, ends⟩ | ⟨rest, rfl, next⟩
      · refine ⟨fun _ => .inl ends, ?_⟩
        simp only [toDo, ends, at_]
        split <;> omega
      · have quiet := guarded.quiet some_ (.inr ⟨rest, at_⟩)
        refine ⟨fun _ => .inr (.inl ⟨usr2.trans quiet, .inr ⟨rest, next⟩⟩), ?_⟩
        simp [toDo, next, at_, usr2, quiet]
  | ends at_ pending =>
      rcases guarded some_ with there | on | last
      · simp [there] at at_
      · simp [on.1] at pending
      · refine ⟨fun _ => .inr (.inl ⟨rfl, .inl ⟨rfl, last.2⟩⟩), ?_⟩
        simp [toDo, last.1, pending]
  | timeout at_ quiet passed =>
      obtain ⟨-, usr2, -, next⟩ := passed_at passed
      rcases next with ⟨-, ends⟩ | ⟨rest, rfl, next⟩
      · refine ⟨fun _ => .inl ends, ?_⟩
        simp [toDo, ends, at_, quiet.2]
      · refine ⟨fun _ => .inr (.inl ⟨usr2.trans quiet.2, .inr ⟨rest, next⟩⟩), ?_⟩
        simp [toDo, next, at_, usr2, quiet.2]

theorem Guarded.enabled (guarded : Guarded s) (some_ : s.underWay ≠ 0) :
    s.at_ = .exited ∨ ∃ signal, (machine.step s (.run signal)).isSome = true := by
  have round {left : Nat} (at_ : s.at_ = .watching left) (quiet : s.usr2 = false) :
      ∃ signal, (machine.step s (.run signal)).isSome = true := by
    cases pending : s.usr1 with
    | true => exact ⟨some .sigusr1, by simp [machine, runWatchdog, at_, pending]⟩
    | false => exact ⟨none, by simp [machine, runWatchdog, at_, pending, quiet]⟩
  rcases guarded some_ with there | ⟨quiet, ⟨at_, pending⟩ | ⟨left, at_⟩⟩ | ⟨at_, pending⟩
  · exact .inl there
  · exact .inr ⟨some .sigusr1, by simp [machine, runWatchdog, at_, pending]⟩
  · exact .inr (round at_ quiet)
  · exact .inr ⟨some .sigusr1, by simp [machine, runWatchdog, at_, pending]⟩

theorem Guarded.exec (guarded : Guarded s) (some_ : s.underWay ≠ 0) (small : Small s)
    {signals : List (Option WatchdogSignal)} {log : List Event}
    (run : machine.exec s (signals.map .run) = some (t, log)) :
    signals.length ≤ s.toDo ∧ Guarded t ∧ t.underWay ≠ 0 := by
  induction signals generalizing s log with
  | nil =>
      cases run
      exact ⟨Nat.zero_le _, guarded, some_⟩
  | cons signal signals ih =>
      obtain ⟨m, es, rest, first, tail, rfl⟩ := exec_cons.mp run
      have move := step_move first
      obtain ⟨next, less⟩ := guarded.run some_ small move
      obtain ⟨bound, last⟩ := ih next (by rwa [run_underWay move]) (small.keep move) tail
      refine ⟨?_, last⟩
      rw [List.length_cons]
      omega

theorem Small.toDo_le (small : Small s) : s.toDo ≤ watchdogTimeout * 10 + 2 := by
  cases at_ : s.at_ with
  | watching left =>
      have less := small left at_
      simp only [toDo, at_]
      split <;> omega
  | waiting | handling | finished | exited => simp [toDo, at_]

/-- A step keeps every handler that does not return found out exactly when it is timely. -/
theorem Guarded.step (guarded : Guarded s) (small : Small s) (move : Move s a t es) :
    Guarded t ↔ Timely s a := by
  have own {signal : Option WatchdogSignal} (is : a = .run signal) : Guarded t := by
    subst is
    exact fun some_ => (guarded.run (run_underWay move ▸ some_) small move).1 some_
  cases move with
  | start on =>
      have some_ : underWay { s with usr1 := true, handlers := s.handlers + 1 } ≠ 0 := by
        simp [underWay]
      simp [Guarded, some_, OnWatch, LastRound, Timely, on]
  | stop on some_ =>
      have before := guarded (by simp [underWay, some_])
      constructor
      · intro after
        by_cases one : s.handlers = 1
        · exact .inl one
        · have more : underWay { s with usr2 := true, handlers := s.handlers - 1 } ≠ 0 := by
            simp only [underWay]
            omega
          rcases after more with ends | on' | last
          · exact absurd ends on
          · cases on'.1
          · exact .inr last
      · rintro (one | last)
        · have other : s.at_ ≠ .handling := by
            intro at_
            simp [OnWatch, LastRound, at_] at before
          exact fun more => absurd (by simp [underWay, one, other]) more
        · exact fun _ => .inr (.inr last)
  | watch | again | ends | timeout => exact iff_of_true (own rfl) trivial
  | interrupt at_ =>
      refine iff_of_false (fun guarded => ?_) id
      have after := guarded (by simp [underWay])
      simp [OnWatch, LastRound] at after
  | ret at_ =>
      have before := guarded (by simp [underWay, at_])
      simp [OnWatch, LastRound, at_] at before
  | sigchld at_ => simp [Guarded, underWay, OnWatch, LastRound, Timely]

end Detects

end Watchdog

end OdroidPlayer
