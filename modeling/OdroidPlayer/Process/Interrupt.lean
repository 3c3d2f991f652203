import OdroidPlayer.Lib.Mutex

/-!
The handler of SIGINT on the threads of the process (`interrupt_handler` of
`server/player/player.c`).

The handler calls `set_player_running`, which locks three mutexes one after the other, on
whatever thread the signal strikes. The thread goes on only when the handler has returned,
so a handler that strikes a critical section waits for its own thread. Every handler can
return exactly as long as no signal strikes one of the three critical sections
(`returns_iff_harmless`); where one does, the mutex is never locked again
(`interrupted_lost`).

The locks inside of the C library are left out: what is logged in a critical section takes
the lock of `stdout` there, and the handler logs as well.
-/

namespace OdroidPlayer

open Transition Transition.System Mutex

/-- The mutexes of `set_player_running`, in the order in which it locks them. -/
inductive PlayerMutex where
  | player | queue | play
  deriving DecidableEq, Repr

def PlayerMutex.next : PlayerMutex → Option PlayerMutex
  | .player => some .queue
  | .queue => some .play
  | .play => none

def PlayerMutex.rank : PlayerMutex → Nat
  | .player => 0
  | .queue => 1
  | .play => 2

theorem PlayerMutex.eq_of_rank {m n : PlayerMutex} (same : m.rank = n.rank) : m = n := by
  cases m <;> cases n <;> first | rfl | cases same

theorem PlayerMutex.rank_next {m n : PlayerMutex} (next : m.next = some n) :
    n.rank = m.rank + 1 := by
  cases m <;> cases next <;> rfl

/-- What a thread executes: its own code, or the handler. -/
inductive Runner where
  | code (i : Nat)
  | handler (i : Nat)
  deriving DecidableEq, Repr

inductive HandlerAt where
  /-- before `pthread_mutex_lock` -/
  | locks (m : PlayerMutex)
  /-- in the critical section -/
  | unlocks (m : PlayerMutex)
  deriving DecidableEq, Repr

/-- The handler has not had the mutex. -/
def HandlerAt.Before (m : PlayerMutex) : HandlerAt → Prop
  | .locks n => n.rank ≤ m.rank
  | .unlocks n => n.rank < m.rank

/-- The statements that are left to the handler. -/
def HandlerAt.left : HandlerAt → Nat
  | .locks m => 6 - 2 * m.rank
  | .unlocks m => 5 - 2 * m.rank

structure Interrupts where
  locks : Locks Runner PlayerMutex
  /-- where the handler is that a thread executes -/
  handler : Nat → Option HandlerAt

namespace Interrupts

inductive Action where
  | lock (i : Nat) (m : PlayerMutex)
  | unlock (i : Nat) (m : PlayerMutex)
  /-- SIGINT strikes the thread. -/
  | interrupt (i : Nat)
  /-- the next statement of its handler -/
  | handle (i : Nat)
  deriving DecidableEq, Repr

inductive Event where
  | locked (r : Runner) (m : PlayerMutex)
  | returned (i : Nat)
  deriving DecidableEq, Repr

def start : Interrupts := ⟨.free, fun _ => none⟩

/-- The code of the threads locks `player_mutex` in `get_player_running`, which `run_player` also
calls with `play_mutex` locked; otherwise it locks one mutex at a time. -/
def MayLock (s : Interrupts) (i : Nat) (m : PlayerMutex) : Prop :=
  s.locks.inside (.code i) .player = false ∧ s.locks.inside (.code i) .queue = false ∧
    (s.locks.inside (.code i) .play = false ∨ m = .player)

instance (s : Interrupts) (i : Nat) (m : PlayerMutex) : Decidable (s.MayLock i m) :=
  inferInstanceAs (Decidable (_ ∧ _ ∧ _))

def machine : System Interrupts Action Event where
  step s
    | .lock i m =>
        if s.handler i = none ∧ s.MayLock i m then
          (s.locks.lock (.code i) m).map fun locks => ({ s with locks }, [.locked (.code i) m])
        else none
    | .unlock i m =>
        if s.handler i = none ∧ s.locks.inside (.code i) m = true then
          some ({ s with locks := s.locks.unlock (.code i) m }, [])
        else none
    | .interrupt i =>
        -- SIGINT is blocked while its handler runs
        if s.handler i = none then
          some ({ s with handler := Function.update s.handler i (some (.locks .player)) }, [])
        else none
    | .handle i =>
        match s.handler i with
        | none => none
        | some (.locks m) =>
            (s.locks.lock (.handler i) m).map fun locks =>
              (⟨locks, Function.update s.handler i (some (.unlocks m))⟩, [.locked (.handler i) m])
        | some (.unlocks m) =>
            some (⟨s.locks.unlock (.handler i) m,
              Function.update s.handler i (m.next.map .locks)⟩,
              if m.next = none then [.returned i] else [])

/-- SIGINT strikes a thread that is in none of the critical sections. -/
def Harmless (s : Interrupts) : Action → Prop
  | .interrupt i => ∀ m, s.locks.inside (.code i) m = false
  | _ => True

inductive Move (s : Interrupts) : Action → Interrupts → List Event → Prop where
  | lock {i : Nat} {m : PlayerMutex} {locks : Locks Runner PlayerMutex}
      (code : s.handler i = none) (lock : s.locks.lock (.code i) m = some locks) :
      Move s (.lock i m) { s with locks } [.locked (.code i) m]
  | unlock {i : Nat} {m : PlayerMutex} (code : s.handler i = none)
      (inside : s.locks.inside (.code i) m = true) :
      Move s (.unlock i m) { s with locks := s.locks.unlock (.code i) m } []
  | interrupt {i : Nat} (code : s.handler i = none) :
      Move s (.interrupt i)
        { s with handler := Function.update s.handler i (some (.locks .player)) } []
  | handlerLocks {i : Nat} {m : PlayerMutex} {locks : Locks Runner PlayerMutex}
      (at_ : s.handler i = some (.locks m)) (lock : s.locks.lock (.handler i) m = some locks) :
      Move s (.handle i) ⟨locks, Function.update s.handler i (some (.unlocks m))⟩
        [.locked (.handler i) m]
  | handlerUnlocks {i : Nat} {m : PlayerMutex} (at_ : s.handler i = some (.unlocks m)) :
      Move s (.handle i)
        ⟨s.locks.unlock (.handler i) m, Function.update s.handler i (m.next.map .locks)⟩
        (if m.next = none then [.returned i] else [])

/-- The mutexes belong to the threads and handlers in their critical sections, and a handler
passes no mutex that its thread has locked. -/
structure Inv (s : Interrupts) : Prop where
  matched : s.locks.Matched
  handler : ∀ i m, s.locks.inside (.handler i) m = true ↔ s.handler i = some (.unlocks m)
  before : ∀ i m at_, s.locks.inside (.code i) m = true → s.handler i = some at_ → at_.Before m

/-- No handler runs on a thread that is in a critical section. -/
def Undoomed (s : Interrupts) : Prop :=
  ∀ i m, s.handler i ≠ none → s.locks.inside (.code i) m = false

section Steps

variable {s t : Interrupts} {a : Action} {es : List Event}

theorem step_move (step : machine.step s a = some (t, es)) : Move s a t es := by
  cases a with
  | lock i m =>
      obtain ⟨⟨code, -⟩, step⟩ := Option.ite_none_right_eq_some.mp step
      obtain ⟨locks, lock, eq⟩ := Option.map_eq_some_iff.mp step
      cases eq
      exact .lock code lock
  | unlock i m =>
      obtain ⟨⟨code, inside⟩, eq⟩ := Option.ite_none_right_eq_some.mp step
      cases eq
      exact .unlock code inside
  | interrupt i =>
      obtain ⟨code, eq⟩ := Option.ite_none_right_eq_some.mp step
      cases eq
      exact .interrupt code
  | handle i =>
      simp only [machine] at step
      split at step
      · cases step
      next m at_ =>
          obtain ⟨locks, lock, eq⟩ := Option.map_eq_some_iff.mp step
          cases eq
          exact .handlerLocks at_ lock
      next m at_ =>
          cases step
          exact .handlerUnlocks at_

/-- A mutex that is locked is not the one that is locked next. -/
theorem Inv.ne_of_lock (inv : Inv s) {r r' : Runner} {m n : PlayerMutex}
    {locks : Locks Runner PlayerMutex} (lock : s.locks.lock r m = some locks)
    (inside : s.locks.inside r' n = true) : n ≠ m := by
  rintro rfl
  have owner := (inv.matched r' n).mpr inside
  rw [(Locks.lock_eq lock).1] at owner
  cases owner

theorem Inv.keep (inv : Inv s) (move : Move s a t es) : Inv t := by
  cases move with
  | @lock i m locks code lock =>
      refine ⟨inv.matched.lock lock, fun j n => ?_, fun j n at_ inside here => ?_⟩
      · simpa [Locks.inside_lock lock] using inv.handler j n
      · rw [Locks.inside_lock lock] at inside
        have other : j ≠ i := by
          rintro rfl
          simp [code] at here
        exact inv.before j n at_ (by simpa [other] using inside) here
  | @unlock i m code inside =>
      refine ⟨inv.matched.unlock inside, fun j n => by simpa using inv.handler j n,
        fun j n at_ inside' here => ?_⟩
      rw [Locks.inside_unlock] at inside'
      have other : j ≠ i := by
        rintro rfl
        simp [code] at here
      exact inv.before j n at_ (by simpa [other] using inside') here
  | @interrupt i code =>
      refine ⟨inv.matched, fun j n => ?_, fun j n at_ inside here => ?_⟩
      · by_cases same : j = i
        · subst same
          simpa [code] using inv.handler j n
        · simpa [same] using inv.handler j n
      · by_cases same : j = i
        · subst same
          obtain rfl : HandlerAt.locks .player = at_ := by simpa using here
          exact Nat.zero_le _
        · exact inv.before j n at_ inside (by simpa [same] using here)
  | @handlerLocks i m locks at_ lock =>
      refine ⟨inv.matched.lock lock, fun j n => ?_, fun j n at' inside here => ?_⟩
      · have before := inv.handler j n
        by_cases same : j = i
        · subst same
          by_cases this : n = m
          · simp [Locks.inside_lock lock, this]
          · simpa [Locks.inside_lock lock, this, Ne.symm this, at_] using before
        · simpa [Locks.inside_lock lock, same] using before
      · have held : s.locks.inside (.code j) n = true := by
          simpa [Locks.inside_lock lock] using inside
        by_cases same : j = i
        · subst same
          obtain rfl : HandlerAt.unlocks m = at' := by simpa using here
          have least : m.rank ≤ n.rank := inv.before j n _ held at_
          refine Nat.lt_of_le_of_ne least fun equal => ?_
          exact inv.ne_of_lock lock held (PlayerMutex.eq_of_rank equal).symm
        · exact inv.before j n at' held (by simpa [same] using here)
  | @handlerUnlocks i m at_ =>
      have inside := (inv.handler i m).mpr at_
      refine ⟨inv.matched.unlock inside, fun j n => ?_, fun j n at' inside' here => ?_⟩
      · have before := inv.handler j n
        by_cases same : j = i
        · subst same
          have out : (m.next.map .locks : Option HandlerAt) ≠ some (.unlocks n) := by
            cases m.next <;> simp
          by_cases this : n = m
          · simp [this]
          · simpa [this, Ne.symm this, out, at_] using before
        · simpa [same] using before
      · have held : s.locks.inside (.code j) n = true := by simpa using inside'
        by_cases same : j = i
        · subst same
          obtain ⟨after, next, rfl⟩ : ∃ after, m.next = some after ∧ .locks after = at' := by
            simpa using here
          have less : m.rank < n.rank := inv.before j n _ held at_
          change after.rank ≤ n.rank
          rw [PlayerMutex.rank_next next]
          exact less
        · exact inv.before j n at' held (by simpa [same] using here)

theorem start_inv : Inv start :=
  ⟨Locks.free_matched, fun _ _ => by simp [start, Locks.free], fun _ _ _ inside => by cases inside⟩

/-- The handler on a thread in a critical section waits, and the mutex stays locked. -/
theorem Inv.doomed (inv : Inv s) {i : Nat} {m : PlayerMutex} (runs : s.handler i ≠ none)
    (inside : s.locks.inside (.code i) m = true) (move : Move s a t es) :
    t.handler i ≠ none ∧ t.locks.inside (.code i) m = true ∧ .returned i ∉ es ∧
      ∀ r, .locked r m ∉ es := by
  cases move with
  | @lock j n locks code lock =>
      have other := inv.ne_of_lock lock inside
      exact ⟨runs, by simp [Locks.inside_lock lock, inside], by simp, by simp [other]⟩
  | @unlock j n code =>
      have other : i ≠ j := by
        rintro rfl
        exact runs code
      exact ⟨runs, by simp [inside, other], by simp, by simp⟩
  | @interrupt j code =>
      have other : i ≠ j := by
        rintro rfl
        exact runs code
      exact ⟨by simpa [other] using runs, inside, by simp, by simp⟩
  | @handlerLocks j n locks at_ lock =>
      have other := inv.ne_of_lock lock inside
      refine ⟨?_, by simp [Locks.inside_lock lock, inside], by simp, by simp [other]⟩
      by_cases same : i = j
      · simp [same]
      · simpa [same] using runs
  | @handlerUnlocks j n at_ =>
      refine ⟨?_, by simp [inside], ?_, by split <;> simp⟩
      · by_cases same : i = j
        · subst same
          have less : n.rank < m.rank := inv.before i m _ inside at_
          cases n <;> cases m <;> simp_all [PlayerMutex.rank, PlayerMutex.next]
        · simpa [same] using runs
      · by_cases same : i = j
        · subst same
          have less : n.rank < m.rank := inv.before i m _ inside at_
          cases n <;> cases m <;> simp_all [PlayerMutex.rank, PlayerMutex.next]
        · split <;> simp [same]

theorem Inv.doomed_run (inv : Inv s) {i : Nat} {m : PlayerMutex} (runs : s.handler i ≠ none)
    (inside : s.locks.inside (.code i) m = true) {as : List Action} {log : List Event}
    (run : machine.exec s as = some (t, log)) :
    t.handler i ≠ none ∧ .returned i ∉ log ∧ ∀ r, .locked r m ∉ log := by
  induction as generalizing s log with
  | nil =>
      cases run
      exact ⟨runs, by simp, by simp⟩
  | cons a as ih =>
      obtain ⟨u, es, rest, first, tail, rfl⟩ := exec_cons.mp run
      have move := step_move first
      obtain ⟨runs', inside', silent, unlocked⟩ := inv.doomed runs inside move
      obtain ⟨last, silent', unlocked'⟩ := ih (inv.keep move) runs' inside' tail
      exact ⟨last, by simp [silent, silent'], by simp [unlocked, unlocked']⟩

/-- A step dooms a handler exactly if it is a signal in a critical section. -/
theorem Undoomed.step (undoomed : Undoomed s) (move : Move s a t es) :
    Undoomed t ↔ Harmless s a := by
  cases move with
  | @lock i m locks code lock =>
      refine iff_of_true (fun j n runs => ?_) trivial
      have other : j ≠ i := by
        rintro rfl
        exact runs code
      simpa [Locks.inside_lock lock, other] using undoomed j n runs
  | unlock code inside =>
      refine iff_of_true (fun j n runs => ?_) trivial
      simpa using fun _ => undoomed j n runs
  | @interrupt i code =>
      constructor
      · intro after m
        exact after i m (by simp)
      · intro outside j n runs
        by_cases same : j = i
        · subst same
          exact outside n
        · exact undoomed j n (by simpa [same] using runs)
  | @handlerLocks i m locks at_ lock =>
      refine iff_of_true (fun j n runs => ?_) trivial
      have before : s.handler j ≠ none := by
        by_cases same : j = i
        · simp [same, at_]
        · simpa [same] using runs
      simpa [Locks.inside_lock lock] using undoomed j n before
  | @handlerUnlocks i m at_ =>
      refine iff_of_true (fun j n runs => ?_) trivial
      have before : s.handler j ≠ none := by
        by_cases same : j = i
        · simp [same, at_]
        · simpa [same] using runs
      simpa using undoomed j n before

/-! ### A run in which a handler returns -/

theorem Move.step (move : Move s a t es) (other : ∀ i m, a ≠ .lock i m) :
    machine.step s a = some (t, es) := by
  cases move with
  | @lock i m => exact absurd rfl (other i m)
  | unlock code inside => simp [machine, code, inside]
  | interrupt code => simp [machine, code]
  | handlerLocks at_ lock => simp [machine, at_, lock]
  | handlerUnlocks at_ => simp [machine, at_]

/-- The owner of a mutex unlocks it in one step. -/
theorem freed (inv : Inv s) (undoomed : Undoomed s) {m : PlayerMutex} {i : Nat}
    (at_ : s.handler i = some (.locks m)) (held : s.locks.owner m ≠ none) :
    ∃ a t es, machine.step s a = some (t, es) ∧ Inv t ∧ Undoomed t ∧
      t.handler i = some (.locks m) ∧ t.locks.owner m = none := by
  obtain ⟨r, owner⟩ := Option.ne_none_iff_exists'.mp held
  have inside := (inv.matched r m).mp owner
  cases r with
  | code j =>
      have code : s.handler j = none := by
        by_contra runs
        rw [undoomed j m runs] at inside
        cases inside
      have move := Move.unlock code inside
      exact ⟨_, _, _, move.step (by simp), inv.keep move, (undoomed.step move).mpr trivial, at_,
        by simp⟩
  | handler j =>
      have there := (inv.handler j m).mp inside
      have other : i ≠ j := by
        rintro rfl
        rw [at_] at there
        cases there
      have move := Move.handlerUnlocks there
      exact ⟨_, _, _, move.step (by simp), inv.keep move, (undoomed.step move).mpr trivial,
        by simpa [other] using at_, by simp⟩

/-- The steps of a run are those of a step and of the run behind it. -/
theorem returns_cons {i : Nat} (step : machine.step s a = some (t, es))
    (later : ∃ as u log, machine.exec t as = some (u, log) ∧ Event.returned i ∈ log) :
    ∃ as u log, machine.exec s as = some (u, log) ∧ Event.returned i ∈ log := by
  obtain ⟨as, u, log, run, mem⟩ := later
  exact ⟨a :: as, u, es ++ log, exec_cons.mpr ⟨t, es, log, step, run, rfl⟩,
    List.mem_append_right es mem⟩

/-- By the statements that are left to the handler. -/
theorem returns (left : Nat) {i : Nat} {at_ : HandlerAt} (inv : Inv s) (undoomed : Undoomed s)
    (here : s.handler i = some at_) (bound : at_.left ≤ left) :
    ∃ as t log, machine.exec s as = some (t, log) ∧ Event.returned i ∈ log := by
  induction left generalizing s at_ with
  | zero =>
      exfalso
      cases at_ with
      | locks m | unlocks m => cases m <;> simp [HandlerAt.left, PlayerMutex.rank] at bound
  | succ left ih =>
      cases at_ with
      | unlocks m =>
          have move := Move.handlerUnlocks here
          cases next : m.next with
          | none =>
              exact ⟨[.handle i], _, _, exec_cons.mpr ⟨_, _, _, move.step (by simp), rfl, rfl⟩,
                by simp [next]⟩
          | some after =>
              have there : (m.next.map .locks : Option HandlerAt) = some (.locks after) := by
                simp [next]
              refine returns_cons (move.step (by simp)) (ih (inv.keep move)
                ((undoomed.step move).mpr trivial) ((Function.update_self ..).trans there) ?_)
              have rank := PlayerMutex.rank_next next
              simp only [HandlerAt.left] at bound ⊢
              omega
      | locks m =>
          have enters {u : Interrupts} (inv : Inv u) (undoomed : Undoomed u)
              (at_ : u.handler i = some (.locks m)) (none : u.locks.owner m = none) :
              ∃ as t log, machine.exec u as = some (t, log) ∧ Event.returned i ∈ log := by
            obtain ⟨locks, lock⟩ : ∃ locks, u.locks.lock (.handler i) m = some locks := by
              simp [Locks.lock, none]
            have move := Move.handlerLocks at_ lock
            refine returns_cons (move.step (by simp)) (ih (inv.keep move)
              ((undoomed.step move).mpr trivial) (Function.update_self ..) ?_)
            simp only [HandlerAt.left] at bound ⊢
            omega
          by_cases none : s.locks.owner m = none
          · exact enters inv undoomed here none
          · obtain ⟨a, u, es, step, inv', undoomed', at', free⟩ := freed inv undoomed here none
            exact returns_cons step (enters inv' undoomed' at' free)

end Steps

/-- Where SIGINT strikes a thread in a critical section, in every run from there its handler does
not return and nothing locks the mutex again. -/
theorem interrupted_lost {s t : Interrupts} {as : List Action} {log : List Event} {i : Nat}
    {m : PlayerMutex} (reach : machine.Reachable (· = start) s)
    (inside : s.locks.inside (.code i) m = true)
    (run : machine.exec s (.interrupt i :: as) = some (t, log)) :
    t.handler i ≠ none ∧ .returned i ∉ log ∧ ∀ r, .locked r m ∉ log := by
  have inv : Inv s :=
    reach.rec_inv (fun _ eq => eq ▸ start_inv) fun _ _ _ _ inv step => inv.keep (step_move step)
  obtain ⟨u, es, rest, strike, tail, rfl⟩ := exec_cons.mp run
  have move := step_move strike
  cases move with
  | interrupt code =>
      exact (inv.keep (.interrupt code)).doomed_run (by simp) inside tail

/-- SIGINT strikes the thread that reads `running` with `play_mutex` locked. -/
theorem struckTwoLocks_lost : ∃ s t log,
    machine.exec start [.lock 0 .play, .lock 0 .player] =
        some (s, [.locked (.code 0) .play, .locked (.code 0) .player]) ∧
      machine.exec s [.interrupt 0, .lock 1 .queue, .unlock 1 .queue, .interrupt 1] =
        some (t, log) ∧ .locked (.code 1) .queue ∈ log ∧ ∀ r, .locked r .play ∉ log := by
  have before : ∃ s t log,
      machine.exec start [.lock 0 .play, .lock 0 .player] =
          some (s, [.locked (.code 0) .play, .locked (.code 0) .player]) ∧
        s.locks.inside (.code 0) .play = true ∧
        machine.exec s [.interrupt 0, .lock 1 .queue, .unlock 1 .queue, .interrupt 1] =
          some (t, log) ∧ log[0]? = some (.locked (.code 1) .queue) :=
    ⟨_, _, _, rfl, rfl, rfl, rfl⟩
  obtain ⟨s, t, log, before, inside, run, other⟩ := before
  have reach : machine.Reachable (· = start) s := ⟨_, start, rfl, _, before⟩
  exact ⟨s, t, log, before, run, List.mem_of_getElem? other,
    (interrupted_lost reach inside run).2.2⟩

end Interrupts

end OdroidPlayer
