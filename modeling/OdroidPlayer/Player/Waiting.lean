import OdroidPlayer.Player.Invariant

/-!
The wait of a stopped player and the shutdown.

`set_player_running` writes `running` under `player_mutex` and signals `play_cond` under
`play_mutex`; `run_player` reads the flag inside `play_mutex`, under `player_mutex`, and
then waits. In `machine` the read and the wait are one step. Here they are two, and a
shutdown may write the flag in between (`waiting`); a thread that has read the flag
counts as one that waits already, and so nothing new is reached (`waiting_simulated`).
-/

namespace OdroidPlayer

open Transition

structure Waiting where
  state : State
  /-- `get_player_running` has returned true and `pthread_cond_wait` is called next -/
  entering : Bool

/-- `machine`, with `pthread_cond_wait` as a step of its own. -/
def waiting : System Waiting Action Event where
  step w
    | .play =>
        if w.entering then some (⟨w.state.jump .condWait, false⟩, [])
        else if w.state.play = .waitRunning ∧ w.state.player.running = true then
          some ({ w with entering := true }, [])
        else (step w.state .play).map fun out => ({ w with state := out.1 }, out.2)
    | a => (step w.state a).map fun out => ({ w with state := out.1 }, out.2)

def Waiting.Init (w : Waiting) : Prop := OdroidPlayer.Init w.state ∧ w.entering = false

/-- A thread that is about to wait, as `machine` has it. -/
def Waiting.forget (w : Waiting) : State := if w.entering then w.state.jump .condWait else w.state

/-- The thread that is about to wait holds `play_mutex`. -/
def Waiting.Gap (w : Waiting) : Prop := w.entering = true → w.state.play = .waitRunning

/-! ### The two steps against the one -/

/-- What the other threads can do while `run_player` is about to wait they can do while it
waits. -/
theorem step_jump {s t : State} {a : Action} {es : List Event} (at_ : s.play = .waitRunning)
    (other : a ≠ .play) (move : step s a = some (t, es)) :
    t.play = .waitRunning ∧ step (s.jump .condWait) a = some (t.jump .condWait, es) := by
  cases step_move move with
  | answer idle _ decided =>
      exact ⟨at_, (Move.answer (s := s.jump .condWait) idle (fun _ => rfl) decided).step⟩
  | call idle _ decided =>
      exact ⟨at_, (Move.call (s := s.jump .condWait) idle (fun _ => rfl) decided).step⟩
  | crash idle _ decided =>
      exact ⟨at_, (Move.crash (s := s.jump .condWait) idle (fun _ => rfl) decided).step⟩
  | exit => exact ⟨at_, rfl⟩
  | shutdown => exact ⟨at_, rfl⟩
  | command _ free => simp [at_, PlayAt.holdsMutex] at free
  | shutdownSignal _ free => simp [at_, PlayAt.holdsMutex] at free
  | forkFailed here | fork here | record here | reap here | eintr here | waitFailed here
  | spuriousWakeup here =>
      rw [at_] at here
      cases here
  | _ => exact absurd rfl other

/-- Every step is one of `machine`, or none. -/
theorem waiting_simulated {w v : Waiting} {a : Action} {es : List Event} (gap : w.Gap)
    (move : waiting.step w a = some (v, es)) :
    v.Gap ∧ (v.forget = w.forget ∨ step w.forget a = some (v.forget, es)) := by
  obtain ⟨s, entering⟩ := w
  cases entering with
  | true =>
      have at_ : s.play = .waitRunning := gap rfl
      by_cases own : a = .play
      · subst own
        cases move
        exact ⟨fun on => (by cases on), .inl rfl⟩
      · have through : (step s a).map (fun out => (Waiting.mk out.1 true, out.2)) =
            some (v, es) := by
          cases a <;> first | exact absurd rfl own | exact move
        obtain ⟨⟨t, log⟩, moved, same⟩ := Option.map_eq_some_iff.mp through
        cases same
        obtain ⟨after, jumped⟩ := step_jump at_ own moved
        exact ⟨fun _ => after, .inr jumped⟩
  | false =>
      by_cases waits : a = .play ∧ s.play = .waitRunning ∧ s.player.running = true
      · obtain ⟨rfl, at_, on⟩ := waits
        simp only [waiting, Bool.false_eq_true, if_false, at_, on, and_self, if_true] at move
        cases move
        exact ⟨fun _ => at_, .inr (Move.wait at_ on).step⟩
      · have through : (step s a).map (fun out => (Waiting.mk out.1 false, out.2)) =
            some (v, es) := by
          cases a with
          | play =>
              have not_ : ¬ (s.play = .waitRunning ∧ s.player.running = true) :=
                fun both => waits ⟨rfl, both⟩
              simpa only [waiting, Bool.false_eq_true, if_false, if_neg not_] using move
          | _ => exact move
        obtain ⟨⟨t, log⟩, moved, same⟩ := Option.map_eq_some_iff.mp through
        cases same
        exact ⟨fun on => (by cases on), .inr moved⟩

theorem forget_reachable {w : Waiting} (reach : waiting.Reachable Waiting.Init w) :
    Reachable w.forget := by
  have both : w.Gap ∧ Reachable w.forget := by
    refine System.Reachable.rec_inv (I := fun w => w.Gap ∧ Reachable w.forget) reach ?_ ?_
    · rintro ⟨s, _⟩ ⟨init, rfl⟩
      exact ⟨fun on => (by cases on), [], s, init, [], rfl⟩
    · rintro w a v es ⟨gap, reached⟩ move
      obtain ⟨after, same | moved⟩ := waiting_simulated gap move
      · exact ⟨after, same ▸ reached⟩
      · exact ⟨after, reached.step moved⟩
  exact both.2

/-! ### No wait without a wake-up to come -/

/-- Nothing is pending when the wait loop goes on, and a shutdown that a waiting thread has
not read still has its signal to send. -/
structure Attentive (s : State) : Prop where
  idle : s.play = .waitRunning ∨ s.play = .condWait →
    s.player.childStopped = true ∧ s.player.pendingCommand = .none
  told : s.play = .condWait → s.player.running = true ∨ 0 < s.stopping

theorem Attentive.awake {s : State} (running : s.play ≠ .waitRunning)
    (waits : s.play ≠ .condWait) : Attentive s :=
  ⟨fun at_ => at_.elim (absurd · running) (absurd · waits), fun at_ => absurd at_ waits⟩

/-- A signal of `play_cond` leaves no thread that waits. -/
theorem PlayAt.signalled_ne_condWait (at_ : PlayAt) : at_.signalled ≠ .condWait := by
  cases at_ <;> simp [PlayAt.signalled]

theorem Attentive.keep {s t : State} {a : Action} {es : List Event} (attentive : Attentive s)
    (move : Move s a t es) : Attentive t := by
  cases move with
  | mayWait _ stopped nothing =>
      exact ⟨fun _ => ⟨stopped, nothing⟩, fun at_ => by cases at_⟩
  | wait at_ on => exact ⟨fun _ => attentive.idle (.inl at_), fun _ => .inl on⟩
  | command _ free =>
      refine .awake (fun at_ => ?_) (PlayAt.signalled_ne_condWait s.play)
      -- the wait loop holds `play_mutex` there
      have here : s.play = .waitRunning := PlayAt.signalled_eq (by simp) at_
      rw [here] at free
      cases free
  | shutdownSignal _ free =>
      refine .awake (fun at_ => ?_) (PlayAt.signalled_ne_condWait s.play)
      have here : s.play = .waitRunning := PlayAt.signalled_eq (by simp) at_
      rw [here] at free
      cases free
  | shutdown => exact ⟨attentive.idle, fun _ => .inr (Nat.succ_pos _)⟩
  | eintr | answer | call | crash | exit => exact ⟨attentive.idle, attentive.told⟩
  | _ => exact .awake (by simp) (by simp)

theorem Reachable.attentive {s : State} (reach : Reachable s) : Attentive s := by
  refine System.Reachable.rec_inv reach ?_ fun _ _ _ _ attentive move =>
    attentive.keep (step_move move)
  rintro _ ⟨isLoop, filelist, player, _, rfl⟩
  exact .awake (by simp [startPlayer]) (by simp [startPlayer])

/-- A thread that is blocked in `pthread_cond_wait` has no command to act on, and no shutdown
whose signal it has missed. -/
theorem blocked_reached {w : Waiting} (reach : waiting.Reachable Waiting.Init w)
    (blocked : w.state.play = .condWait) :
    w.state.player.childStopped = true ∧ w.state.player.pendingCommand = .none ∧
      (w.state.player.running = true ∨ 0 < w.state.stopping) := by
  have attentive := (forget_reachable reach).attentive
  have same : w.forget.player = w.state.player ∧ w.forget.stopping = w.state.stopping ∧
      w.forget.play = .condWait := by
    unfold Waiting.forget
    split
    · exact ⟨rfl, rfl, rfl⟩
    · exact ⟨rfl, rfl, blocked⟩
  obtain ⟨player, stopping, at_⟩ := same
  obtain ⟨stopped, nothing⟩ := attentive.idle (.inr at_)
  have told := attentive.told at_
  rw [player] at stopped nothing told
  rw [stopping] at told
  exact ⟨stopped, nothing, told⟩

/-- The first file is stopped, and the shutdown falls between the read of `running` and the
wait. -/
def shutdownInGap : List Action :=
  [.play, .play, .play, .play, .play, .play, .fork (some 7), .record ⟨1, 0⟩, .request .stop,
    .command ⟨2, 0⟩, .exit 7, .waitpid .reaped, .play, .play, .play, .play, .play, .play, .play,
    .play, .shutdown, .play]

theorem shutdownInGap_told : ∃ w log,
    waiting.exec ⟨oneFile, false⟩ shutdownInGap = some (w, log) ∧
      w.state.play = .condWait ∧ w.state.player.running = false ∧ 0 < w.state.stopping := by
  refine ⟨_, _, rfl, rfl, rfl, ?_⟩
  have start : Waiting.Init ⟨oneFile, false⟩ := ⟨oneFile_init, rfl⟩
  exact (blocked_reached ⟨_, _, start, shutdownInGap, rfl⟩ rfl).2.2.resolve_left (by decide)

end OdroidPlayer
