import OdroidPlayer.Process.Invariant

/-!
What `main` has joined when it frees the player: every thread that uses it but the watchdog,
which is detached, the player thread twice; but none where `start_player` has failed, whatever
threads it had created (`freed_joined`).
-/

namespace OdroidPlayer

open Transition Transition.System

namespace Process

/-! ### What has been joined -/

def joined (log : List Event) : List Caller :=
  log.filterMap fun
    | .joined c => some c
    | _ => none

end Process

/-- The calls of `pthread_join` that are behind `main`, where `start_player` has succeeded. -/
def MainAt.joined : MainAt → List Caller
  | .joinServer => [.loop .stream]
  | .joinResponse => [.loop .stream, .loop .server]
  | .joinPlay => [.loop .stream, .loop .server, .response]
  | .clear | .clearChild | .joinAgain => [.loop .stream, .loop .server, .response, .play]
  | .free | .freed => [.loop .stream, .loop .server, .response, .play, .play]
  | _ => []

namespace Process

/-- What the log says about the state it has led to. -/
structure Logged (s : Process) (log : List Event) : Prop where
  joins : joined log = if s.playing = true then s.main.joined else []
  failed : Event.createFailed ∈ log ↔ s.playing = false ∧ s.main.creates = false

section Joined

variable {s t : Process} {a : Action} {es log : List Event}

@[simp] theorem joined_append (front back : List Event) :
    joined (front ++ back) = joined front ++ joined back :=
  List.filterMap_append

/-- Steps of the other threads. -/
theorem Logged.of_same (logged : Logged s log) (main : t.main = s.main)
    (playing : t.playing = s.playing) : Logged t (log ++ []) := by
  rw [List.append_nil]
  exact ⟨by rw [main, playing, logged.joins], by rw [main, playing, logged.failed]⟩

/-- Before the player thread exists nothing has been joined, and nothing has failed as long as
`main` creates threads. -/
theorem Logged.of_create (logged : Logged s log) (creates : s.main.creates = true)
    (unborn : s.playing = false)
    (next : t.playing = false ∧ t.main.creates = true ∨ t.playing = true ∧ t.main = .joinStream) :
    Logged t (log ++ []) := by
  have none : joined log = [] := by simp [logged.joins, unborn]
  have passed : Event.createFailed ∉ log := by simp [logged.failed, creates]
  rw [List.append_nil]
  rcases next with ⟨playing, main⟩ | ⟨playing, main⟩
  · exact ⟨by simp [none, playing], by simp [passed, main]⟩
  · exact ⟨by simp [none, main, MainAt.joined], by simp [passed, playing]⟩

/-- `main` is behind `start_player`. -/
theorem Logged.of_join (logged : Logged s log) (main : s.main.creates = false)
    (main' : t.main.creates = false) (playing : t.playing = s.playing)
    (event : Event.createFailed ∉ es)
    (joins : (if s.playing = true then s.main.joined else []) ++ joined es =
      if s.playing = true then t.main.joined else []) : Logged t (log ++ es) := by
  refine ⟨by rw [joined_append, logged.joins, joins, playing], ?_⟩
  have failed := logged.failed
  simp only [main, and_true] at failed
  simp [failed, event, main', playing]

theorem Logged.keep (logged : Logged s log) (inv : Inv s) (move : Move s a t es) :
    Logged t (log ++ es) := by
  cases move with
  | createStream at_ | createServer at_ | createResponse at_ | createWatchdog at_ =>
      have unborn := inv.born.play (by rw [at_]; decide)
      exact logged.of_create (by rw [at_]; rfl) unborn (.inl ⟨unborn, rfl⟩)
  | createPlay at_ =>
      have unborn := inv.born.play (by rw [at_]; decide)
      exact logged.of_create (by rw [at_]; rfl) unborn (.inr ⟨rfl, rfl⟩)
  | createFailed at_ =>
      have unborn := inv.born.play
        (by cases here : s.main <;> simp_all [MainAt.creates, MainAt.created])
      refine ⟨?_, ?_⟩
      · rw [joined_append, logged.joins]
        simp [calls, unborn, joined]
      · simp [calls, unborn, MainAt.creates]
  | @join c next ok at_ finished =>
      have born := inv.born.joins (.inl (by simp [at_]))
      have later : s.main.creates = false ∧ next.creates = false ∧
          next.joined = s.main.joined ++ [c] := by
        cases here : s.main <;> simp_all [MainAt.joins]
        all_goals obtain ⟨rfl, rfl⟩ := at_; exact ⟨rfl, rfl, rfl⟩
      refine logged.of_join later.1 later.2.1 rfl (by simp) ?_
      simp [born, later.2.2, joined]
  | joinPlay at_ =>
      have born := inv.born.joins (.inr at_)
      refine logged.of_join (by rw [at_]; rfl) rfl rfl (by simp) ?_
      simp [born, at_, joined, calls, MainAt.joined]
  | clear at_ | clearChild at_ | free at_ =>
      refine logged.of_join (by rw [at_]; rfl) rfl rfl (by simp) ?_
      simp [at_, joined, MainAt.joined]
  | joinAgain at_ =>
      refine logged.of_join (by rw [at_]; rfl) rfl rfl (by split <;> simp) ?_
      cases s.playing <;> simp [at_, joined, MainAt.joined]
  | set inside block | setHandler inside block =>
      obtain ⟨-, -, -, main, -, playing, -⟩ := block.frame
      exact logged.of_same main playing
  | _ => exact logged.of_same rfl rfl

end Joined

/-- In every run, when the player has been freed: either each of the threads but the watchdog has
returned and has been joined, the player thread twice; or the creation of one of them has failed, and then
there has never been a player thread, and none of the others has been joined. -/
theorem freed_joined {s t : Process} {as : List Action} {log : List Event} (init : Init s)
    (run : machine.exec s as = some (t, log)) (freed : t.main = .freed) :
    (Event.createFailed ∉ log → (∀ c, t.Finished c) ∧
      joined log = [.loop .stream, .loop .server, .response, .play, .play]) ∧
    (Event.createFailed ∈ log → t.playing = false ∧ joined log = []) := by
  have keep : ∀ (s : Process) (before : List Event) (a : Action) (t : Process) (es : List Event),
      Inv s ∧ Logged s before → machine.step s a = some (t, es) →
      Inv t ∧ Logged t (before ++ es) := by
    rintro s before a t es ⟨inv, logged⟩ step
    exact ⟨inv.keep (step_move step), logged.keep inv (step_move step)⟩
  have first : Logged s [] := by
    obtain ⟨player, -, rfl⟩ := init
    exact ⟨rfl, by simp [startOf, MainAt.creates]⟩
  obtain ⟨inv, logged⟩ := exec_rec keep [] ⟨init.inv, first⟩ run
  rw [List.nil_append] at logged
  have failed := logged.failed
  have joins := logged.joins
  simp only [freed, MainAt.creates, MainAt.joined, and_true] at failed joins
  refine ⟨fun passed => ?_, fun mem => ?_⟩
  · have playing : t.playing = true := by simpa [passed] using failed
    refine ⟨fun c => ?_, by simpa [playing] using joins⟩
    by_cases main : c = .main
    · subst main
      exact freed
    · exact inv.joined c playing (by simp [freed, past, main])
  · have unborn := failed.mp mem
    exact ⟨unborn, by simpa [unborn] using joins⟩

/-- The server thread cannot be created, and the stream thread waits in `pselect`. -/
def createServerFails : List Action :=
  [.main true, .loop .stream true, .loop .stream true, .main false, .set .main, .set .main,
    .set .main, .set .main, .set .main, .main true, .main true, .main true, .main true]

theorem createServerFails_joined : ∃ t log,
    machine.exec (startOf oneFile) createServerFails = some (t, log) ∧ t.main = .freed ∧
      t.loop .stream = .waiting ∧ joined log = [] := by
  have run : ∃ t log, machine.exec (startOf oneFile) createServerFails = some (t, log) ∧
      t.main = .freed ∧ t.loop .stream = .waiting ∧ log = [.createFailed, .freed] :=
    ⟨_, _, rfl, rfl, rfl, rfl⟩
  obtain ⟨t, log, run, freed, waits, events⟩ := run
  have failed : Event.createFailed ∈ log := by simp [events]
  exact ⟨t, log, run, freed, waits,
    ((freed_joined ⟨oneFile, oneFile_init, rfl⟩ run freed).2 failed).2⟩

end Process

end OdroidPlayer
