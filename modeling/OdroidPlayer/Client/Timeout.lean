import OdroidPlayer.Lib.Mutex

/-!
The timeout of a request (`client/opc/opc_utils.c`).

`opc_set_timeout` sets an alarm and calls `get_command_response`; the handler of SIGALRM
jumps back to it from wherever the request is. The request may have been in a critical
section, and the jump leaves its mutex locked. `opc_set_timeout` therefore unlocks the mutex
of `cmd_queue`, whoever has locked it; it does nothing about the mutex of the monitor. A jump
out of a `pthread_cond_wait` that blocks takes the mutex again first (its cleanup handler is
run), so there the unlock is the request's own; once the wait has ended, and the request waits
for the mutex, it is not.

So the mutexes belong to the threads in their critical sections exactly as long as the
alarm does not strike the request while it reads the monitor, and not, but for the wait itself,
while another thread is in the critical section of `cmd_queue` (`matched_iff_timely`); and a
request that is struck while it reads the monitor is the last one that can return
(`monitor_lost`).
-/

namespace OdroidPlayer

open Transition Transition.System Mutex

/-- The mutexes that a request takes. -/
inductive ClientMutex where
  /-- in `get_monitor_play` and `set_monitor` -/
  | monitor
  /-- in `enqueue`, `dequeue_conditional` and `set_monitor` -/
  | cmdQueue
  deriving DecidableEq, Repr

inductive ClientThread where
  /-- the thread that has called `opc_set_timeout` -/
  | request
  /-- the receiver thread, and the threads that shut the client down -/
  | other (i : Nat)
  deriving DecidableEq, Repr

/-- Where the request is in `opc_set_timeout` and `get_command_response`. -/
inductive TimedAt where
  | outside
  /-- before `get_monitor_play` -/
  | playTest
  | readsPlay
  /-- before `dequeue_conditional` -/
  | dequeue
  | dequeuing
  /-- blocked in `pthread_cond_wait` -/
  | condWait
  /-- in `pthread_cond_wait`, behind the wait -/
  | woken
  /-- behind the loop -/
  | ended
  deriving DecidableEq, Repr

/-- The critical section that the code of the request is in. -/
def TimedAt.holds : TimedAt → ClientMutex → Bool
  | .readsPlay, .monitor => true
  | .dequeuing, .cmdQueue => true
  | _, _ => false

structure Timeouts where
  locks : Locks ClientThread ClientMutex
  at_ : TimedAt

namespace Timeouts

inductive Action where
  /-- `sigsetjmp` and `alarm(EXECUTE_TIMEOUT)` -/
  | call
  | lockMonitor
  /-- `get_monitor_play` returns `play` -/
  | unlockMonitor (play : Bool)
  | lockQueue
  /-- `pthread_cond_wait` gives the mutex up -/
  | wait
  /-- A signal, or nothing at all, ends its wait, -/
  | wakeUp
  /-- and it takes the mutex again. -/
  | relock
  /-- `dequeue_conditional` returns; the node it has taken belongs to another request -/
  | unlockQueue (skip : Bool)
  /-- `alarm(0)` -/
  | ret
  /-- `siglongjmp`, and what `opc_set_timeout` does then -/
  | timeout
  | lock (i : Nat) (m : ClientMutex)
  | unlock (i : Nat) (m : ClientMutex)
  deriving DecidableEq, Repr

inductive Event where
  | returned
  | timedOut
  /-- `get_monitor_play` has taken the mutex, or `set_monitor` has. -/
  | locked (i : ClientThread) (m : ClientMutex)
  deriving DecidableEq, Repr

def start : Timeouts := ⟨.free, .outside⟩

/-- A thread locks a mutex and goes on at `next`. -/
def enter (s : Timeouts) (i : ClientThread) (m : ClientMutex) (next : TimedAt) :
    Option (Timeouts × List Event) :=
  (s.locks.lock i m).map fun locks => (⟨locks, next⟩, [.locked i m])

/-- The request unlocks a mutex that it has locked. -/
def leave (s : Timeouts) (m : ClientMutex) (next : TimedAt) : Timeouts :=
  ⟨s.locks.unlock .request m, next⟩

/-- The jump, and the statements behind `sigsetjmp` when it returns for the second time. -/
def afterJump (s : Timeouts) : Timeouts :=
  ⟨((s.locks.jump .request).trylock .request .cmdQueue).unlock .request .cmdQueue, .outside⟩

def machine : System Timeouts Action Event where
  step s
    | .call => if s.at_ = .outside then some ({ s with at_ := .playTest }, []) else none
    | .lockMonitor =>
        if s.at_ = .playTest then s.enter .request .monitor .readsPlay else none
    | .unlockMonitor play =>
        if s.at_ = .readsPlay then
          some (s.leave .monitor (if play then .dequeue else .ended), [])
        else none
    | .lockQueue => if s.at_ = .dequeue then s.enter .request .cmdQueue .dequeuing else none
    | .wait => if s.at_ = .dequeuing then some (s.leave .cmdQueue .condWait, []) else none
    | .wakeUp => if s.at_ = .condWait then some ({ s with at_ := .woken }, []) else none
    | .relock => if s.at_ = .woken then s.enter .request .cmdQueue .dequeuing else none
    | .unlockQueue skip =>
        if s.at_ = .dequeuing then
          some (s.leave .cmdQueue (if skip then .playTest else .ended), [])
        else none
    | .ret => if s.at_ = .ended then some ({ s with at_ := .outside }, [.returned]) else none
    | .timeout =>
        match s.at_ with
        | .outside => none
        | .condWait =>
            (s.locks.lock .request .cmdQueue).map fun locks =>
              (({ s with locks } : Timeouts).afterJump, [.timedOut])
        | _ => some (s.afterJump, [.timedOut])
    | .lock i m =>
        -- no function locks one of the two inside the other
        if s.locks.inside (.other i) .monitor = false ∧
            s.locks.inside (.other i) .cmdQueue = false then s.enter (.other i) m s.at_
        else none
    | .unlock i m =>
        if s.locks.inside (.other i) m = true then
          some ({ s with locks := s.locks.unlock (.other i) m }, [])
        else none

/-- The alarm strikes the request while it blocks in `pthread_cond_wait`, or neither while it
reads the monitor nor while another thread is in the critical section of `cmd_queue`. -/
def Timely (s : Timeouts) : Action → Prop
  | .timeout =>
      s.at_ = .condWait ∨ s.at_ ≠ .readsPlay ∧ ∀ i, s.locks.inside (.other i) .cmdQueue = false
  | _ => True

/-! ### What a step does to the mutexes -/

/-- The request is in the critical section that its code says, and what a thread holds of the
monitor it has locked. -/
structure Inv (s : Timeouts) : Prop where
  here : ∀ m, s.locks.inside .request m = s.at_.holds m
  held : s.locks.Held .monitor

inductive Change (s : Timeouts) : Action → Timeouts → List Event → Prop where
  | none {a : Action} {es : List Event} {next : TimedAt} (other : a ≠ .timeout)
      (silent : ∀ i m, .locked i m ∉ es) : Change s a { s with at_ := next } es
  | lock {a : Action} {locks : Locks ClientThread ClientMutex} {next : TimedAt} {i : ClientThread}
      {m : ClientMutex} (other : a ≠ .timeout) (lock : s.locks.lock i m = some locks) :
      Change s a ⟨locks, next⟩ [.locked i m]
  | unlock {a : Action} {next : TimedAt} {i : ClientThread} {m : ClientMutex}
      (other : a ≠ .timeout) (inside : s.locks.inside i m = true) :
      Change s a ⟨s.locks.unlock i m, next⟩ []
  | jump (waited : s.at_ = .condWait → s.locks.owner .cmdQueue = Option.none) :
      Change s .timeout s.afterJump [.timedOut]

section Steps

variable {s t : Timeouts} {a : Action} {es : List Event}

theorem afterJump_eq :
    s.afterJump = ⟨(s.locks.jump .request).unlock .request .cmdQueue, .outside⟩ := by
  rw [afterJump, Locks.trylock_unlock]

/-- The jump gives back what it has taken out of the wait. -/
theorem afterJump_locked {locks : Locks ClientThread ClientMutex}
    (lock : s.locks.lock .request .cmdQueue = some locks) :
    ({ s with locks } : Timeouts).afterJump = s.afterJump := by
  obtain ⟨free, rfl⟩ := Locks.lock_eq lock
  rw [afterJump_eq, afterJump_eq]
  simp [Locks.jump, Locks.unlock]

theorem timeout_eq (step : machine.step s .timeout = some (t, es)) :
    s.at_ ≠ .outside ∧ t = s.afterJump ∧ es = [.timedOut] ∧
      (s.at_ = .condWait → s.locks.owner .cmdQueue = none) := by
  simp only [machine] at step
  split at step
  · cases step
  next waits =>
      obtain ⟨locks, lock, eq⟩ := Option.map_eq_some_iff.mp step
      cases eq
      exact ⟨by simp [waits], afterJump_locked lock, rfl, fun _ => (Locks.lock_eq lock).1⟩
  next outside waits =>
      cases step
      exact ⟨outside, rfl, rfl, fun here => absurd here waits⟩

/-- The request moves on without a mutex. -/
theorem Inv.moved (inv : Inv s) {next : TimedAt} (before : s.at_.holds = fun _ => false)
    (after : next.holds = fun _ => false) : Inv { s with at_ := next } :=
  ⟨fun m => by simp [inv.here m, before, after], inv.held⟩

theorem Inv.entered (inv : Inv s) {m : ClientMutex} {next : TimedAt}
    (before : s.at_.holds = fun _ => false) (after : next.holds = fun n => decide (n = m))
    (enter : s.enter .request m next = some (t, es)) (other : a ≠ .timeout) :
    Inv t ∧ Change s a t es := by
  obtain ⟨locks, lock, eq⟩ := Option.map_eq_some_iff.mp enter
  cases eq
  refine ⟨⟨fun n => ?_, inv.held.lock lock⟩, .lock other lock⟩
  simp only [Locks.inside_lock lock, inv.here, before, after, true_and]
  by_cases same : n = m <;> simp [same]

theorem Inv.left (inv : Inv s) {m : ClientMutex} {next : TimedAt}
    (before : s.at_.holds = fun n => decide (n = m)) (after : next.holds = fun _ => false)
    (other : a ≠ .timeout) : Inv (s.leave m next) ∧ Change s a (s.leave m next) [] := by
  have inside : s.locks.inside .request m = true := by simp [inv.here, before]
  refine ⟨⟨fun n => ?_, inv.held.unlock inside⟩, .unlock other inside⟩
  simp only [leave, Locks.inside_unlock, inv.here, before, after, true_and]
  by_cases same : n = m <;> simp [same]

theorem Inv.timedOut (inv : Inv s) : Inv s.afterJump := by
  rw [afterJump_eq]
  refine ⟨fun m => by cases m <;> simp [TimedAt.holds], fun i inside => ?_⟩
  by_cases me : i = .request
  · simp [me] at inside
  · simpa [me] using inv.held i (by simpa [me] using inside)

theorem Inv.keep (inv : Inv s) (step : machine.step s a = some (t, es)) :
    Inv t ∧ Change s a t es := by
  have reads : TimedAt.holds .readsPlay = fun n => decide (n = .monitor) := by
    funext n
    cases n <;> rfl
  have dequeues : TimedAt.holds .dequeuing = fun n => decide (n = .cmdQueue) := by
    funext n
    cases n <;> rfl
  cases a with
  | call | wakeUp | ret =>
      simp only [machine, Option.ite_none_right_eq_some] at step
      obtain ⟨at_, eq⟩ := step
      cases eq
      exact ⟨inv.moved (by rw [at_]; rfl) rfl, .none (by simp) (by simp)⟩
  | lockMonitor =>
      simp only [machine, Option.ite_none_right_eq_some] at step
      obtain ⟨at_, enter⟩ := step
      exact inv.entered (by rw [at_]; rfl) reads enter (by simp)
  | lockQueue | relock =>
      simp only [machine, Option.ite_none_right_eq_some] at step
      obtain ⟨at_, enter⟩ := step
      exact inv.entered (by rw [at_]; rfl) dequeues enter (by simp)
  | unlockMonitor play =>
      simp only [machine, Option.ite_none_right_eq_some] at step
      obtain ⟨at_, eq⟩ := step
      cases eq
      exact inv.left (by rw [at_, reads]) (by cases play <;> rfl) (by simp)
  | wait =>
      simp only [machine, Option.ite_none_right_eq_some] at step
      obtain ⟨at_, eq⟩ := step
      cases eq
      exact inv.left (by rw [at_, dequeues]) rfl (by simp)
  | unlockQueue skip =>
      simp only [machine, Option.ite_none_right_eq_some] at step
      obtain ⟨at_, eq⟩ := step
      cases eq
      exact inv.left (by rw [at_, dequeues]) (by cases skip <;> rfl) (by simp)
  | timeout =>
      obtain ⟨-, rfl, rfl, waited⟩ := timeout_eq step
      exact ⟨inv.timedOut, .jump waited⟩
  | lock i m =>
      simp only [machine, Option.ite_none_right_eq_some] at step
      obtain ⟨-, enter⟩ := step
      obtain ⟨locks, lock, eq⟩ := Option.map_eq_some_iff.mp enter
      cases eq
      refine ⟨⟨fun n => ?_, inv.held.lock lock⟩, .lock (by simp) lock⟩
      simp [Locks.inside_lock lock, inv.here]
  | unlock i m =>
      simp only [machine, Option.ite_none_right_eq_some] at step
      obtain ⟨inside, eq⟩ := step
      cases eq
      refine ⟨⟨fun n => ?_, inv.held.unlock inside⟩, .unlock (by simp) inside⟩
      simp [inv.here]

end Steps

theorem start_inv : Inv start := ⟨fun _ => rfl, fun _ inside => by cases inside⟩

/-! ### The mutexes of a run -/

section Runs

variable {s t : Timeouts} {a : Action} {es : List Event}

theorem Change.matched (change : Change s a t es) (inv : Inv s) (matched : s.locks.Matched) :
    t.locks.Matched ↔ s.Timely a := by
  have timely : a ≠ .timeout → s.Timely a := fun other => by
    cases a <;> trivial
  cases change with
  | none other => exact iff_of_true matched (timely other)
  | lock other lock => exact iff_of_true (matched.lock lock) (timely other)
  | unlock other inside => exact iff_of_true (matched.unlock inside) (timely other)
  | jump waited =>
      rw [afterJump_eq, matched.jump_unlock]
      have monitor : s.locks.inside .request .monitor = false ↔ s.at_ ≠ .readsPlay := by
        rw [inv.here]
        cases s.at_ <;> simp [TimedAt.holds]
      constructor
      · rintro ⟨mine, others⟩
        exact .inr ⟨monitor.mp (mine .monitor (by simp)), fun i => others (.other i) (by simp)⟩
      · intro timely
        have both : s.at_ ≠ .readsPlay ∧ ∀ i, s.locks.inside (.other i) .cmdQueue = false := by
          rcases timely with waits | both
          · exact ⟨by simp [waits], fun i => matched.outside (waited waits) (.other i)⟩
          · exact both
        obtain ⟨reads, others⟩ := both
        refine ⟨fun m other => ?_, fun i other => ?_⟩
        · cases m with
          | monitor => exact monitor.mpr reads
          | cmdQueue => exact absurd rfl other
        · cases i with
          | request => exact absurd rfl other
          | other i => exact others i

/-- In every run, every mutex belongs in every state to the thread in its critical section, and
to none where there is none, exactly when every alarm is timely. -/
theorem matched_iff_timely {t : Timeouts} {as : List Action} {log : List Event}
    (run : machine.exec start as = some (t, log)) :
    (machine.Along (fun u _ => u.locks.Matched) start as ∧ t.locks.Matched) ↔
      machine.Along Timely start as :=
  along_iff_along_of_inv (fun _ _ _ _ inv step => (inv.keep step).1)
    (fun _ _ _ _ inv matched step => (inv.keep step).2.matched inv matched) start_inv
    Locks.free_matched run

/-- The second request is struck while it waits for its response and the third when the receiver
has signalled it and is still in `enqueue`. -/
def struckTwice : List Action :=
  [.call, .lockMonitor, .unlockMonitor true, .lockQueue, .unlockQueue false, .ret,
    .call, .lockMonitor, .unlockMonitor true, .lockQueue, .wait, .timeout,
    .call, .lockMonitor, .unlockMonitor true, .lockQueue, .wait, .lock 0 .cmdQueue, .wakeUp,
    .timeout]

theorem struckTwice_not_timely : ∃ t log, machine.exec start struckTwice = some (t, log) ∧
    ¬ machine.Along Timely start struckTwice := by
  have run : ∃ t log, machine.exec start struckTwice = some (t, log) ∧
      t.locks.owner .cmdQueue = none ∧ t.locks.inside (.other 0) .cmdQueue = true :=
    ⟨_, _, rfl, rfl, rfl⟩
  obtain ⟨t, log, run, owner, inside⟩ := run
  refine ⟨t, log, run, fun timely => ?_⟩
  have matched := ((matched_iff_timely run).mpr timely).2
  rw [← matched, owner] at inside
  cases inside

/-! ### A request that is struck while it reads the monitor -/

/-- Nothing passes `get_monitor_play` any more. -/
theorem stuck (lost : s.locks.Lost .monitor) (at_ : s.at_ = .outside ∨ s.at_ = .playTest)
    (step : machine.step s a = some (t, es)) :
    (t.at_ = .outside ∨ t.at_ = .playTest) ∧ .returned ∉ es := by
  cases a with
  | call =>
      simp only [machine, Option.ite_none_right_eq_some] at step
      obtain ⟨-, eq⟩ := step
      cases eq
      exact ⟨.inr rfl, by simp⟩
  | lockMonitor =>
      simp only [machine, Option.ite_none_right_eq_some] at step
      obtain ⟨locks, lock, -⟩ := Option.map_eq_some_iff.mp step.2
      exact absurd rfl (lost.lock lock).2
  | unlockMonitor | lockQueue | wait | wakeUp | relock | unlockQueue | ret =>
      rcases at_ with at_ | at_ <;> simp [machine, at_] at step
  | timeout =>
      obtain ⟨-, rfl, rfl, -⟩ := timeout_eq step
      exact ⟨.inl rfl, by simp⟩
  | lock i m =>
      simp only [machine, Option.ite_none_right_eq_some] at step
      obtain ⟨locks, -, eq⟩ := Option.map_eq_some_iff.mp step.2
      cases eq
      exact ⟨at_, by simp⟩
  | unlock i m =>
      simp only [machine, Option.ite_none_right_eq_some] at step
      obtain ⟨-, eq⟩ := step
      cases eq
      exact ⟨at_, by simp⟩

theorem Change.lost (change : Change s a t es) (lost : s.locks.Lost .monitor) :
    t.locks.Lost .monitor ∧ ∀ i, .locked i .monitor ∉ es := by
  cases change with
  | none _ silent => exact ⟨lost, fun i => silent i .monitor⟩
  | lock _ lock =>
      obtain ⟨after, other⟩ := lost.lock lock
      exact ⟨after, fun i => by simp [other.symm]⟩
  | unlock _ inside => exact ⟨lost.unlock inside, fun i => by simp⟩
  | jump =>
      rw [afterJump_eq]
      exact ⟨⟨by simpa using lost.1, fun i => by simpa using fun _ => lost.2 i⟩, fun i => by simp⟩

/-- In every run, once the alarm has struck the request while it reads the monitor, no thread
gets the mutex of the monitor again, and no request ends but by the alarm. -/
theorem monitor_lost {s t : Timeouts} {as : List Action} {log : List Event}
    (reach : machine.Reachable (· = start) s) (reads : s.at_ = .readsPlay)
    (run : machine.exec s (.timeout :: as) = some (t, log)) :
    t.locks.Lost .monitor ∧ (∀ i, .locked i .monitor ∉ log) ∧ .returned ∉ log := by
  have inv : Inv s := reach.rec_inv (fun _ eq => eq ▸ start_inv)
    fun _ _ _ _ inv step => (inv.keep step).1
  obtain ⟨u, es, rest, strike, tail, rfl⟩ := exec_cons.mp run
  obtain ⟨-, rfl, rfl, -⟩ := timeout_eq strike
  have owner : s.locks.owner .monitor = some .request :=
    inv.held .request (by rw [inv.here, reads]; rfl)
  have lost : s.afterJump.locks.Lost .monitor := by
    rw [afterJump_eq]
    refine ⟨by simp [owner], fun i => ?_⟩
    by_cases me : i = .request
    · simp [me]
    · have out : s.locks.inside i .monitor = false := by
        by_contra other
        have mine := inv.held i (by simpa using other)
        rw [owner] at mine
        exact me (Option.some.inj mine).symm
      simp [me, out]
  have keep : ∀ (s : Timeouts) (before : List Event) (a : Action) (t : Timeouts)
      (es : List Event),
      (Inv s ∧ s.locks.Lost .monitor ∧ (s.at_ = .outside ∨ s.at_ = .playTest) ∧
        (∀ i, .locked i .monitor ∉ before) ∧ .returned ∉ before) →
      machine.step s a = some (t, es) →
      Inv t ∧ t.locks.Lost .monitor ∧ (t.at_ = .outside ∨ t.at_ = .playTest) ∧
        (∀ i, .locked i .monitor ∉ before ++ es) ∧ .returned ∉ before ++ es := by
    rintro s before a t es ⟨inv, lost, at_, unlocked, silent⟩ step
    obtain ⟨invAfter, change⟩ := inv.keep step
    obtain ⟨lostAfter, noLock⟩ := change.lost lost
    obtain ⟨atAfter, noReturn⟩ := stuck lost at_ step
    refine ⟨invAfter, lostAfter, atAfter, fun i mem => ?_, fun mem => ?_⟩
    · exact (List.mem_append.mp mem).elim (unlocked i) (noLock i)
    · exact (List.mem_append.mp mem).elim silent noReturn
  have last := exec_rec keep [.timedOut]
    ⟨inv.timedOut, lost, .inl rfl, fun i => by simp, by simp⟩ tail
  exact ⟨last.2.1, last.2.2.2⟩

/-- The alarm strikes the first request in `get_monitor_play`; the second waits for the mutex
until the alarm ends it. -/
theorem struckReading_lost : ∃ s t log,
    machine.exec start [.call, .lockMonitor] = some (s, [.locked .request .monitor]) ∧
      machine.exec s [.timeout, .lock 0 .cmdQueue, .unlock 0 .cmdQueue, .call, .timeout] =
        some (t, log) ∧ .timedOut ∈ log ∧ .returned ∉ log := by
  have before : ∃ s t log,
      machine.exec start [.call, .lockMonitor] = some (s, [.locked .request .monitor]) ∧
        s.at_ = .readsPlay ∧
        machine.exec s [.timeout, .lock 0 .cmdQueue, .unlock 0 .cmdQueue, .call, .timeout] =
          some (t, log) ∧ log[0]? = some .timedOut :=
    ⟨_, _, _, rfl, rfl, rfl, rfl⟩
  obtain ⟨s, t, log, before, reads, run, struck⟩ := before
  have reach : machine.Reachable (· = start) s := ⟨_, start, rfl, _, before⟩
  exact ⟨s, t, log, before, run, List.mem_of_getElem? struck, (monitor_lost reach reads run).2.2⟩

end Runs

end Timeouts

end OdroidPlayer
