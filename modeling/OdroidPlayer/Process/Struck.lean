import OdroidPlayer.Process.Shutdown

/-!
The shutdown of the whole process, with each handler of SIGINT on the thread that the signal has
struck.

The thread goes on when the handler has returned. SIGINT strikes a thread between two of its
steps; what becomes of one that strikes a critical section is a matter of its own
(`Interrupts`). Nothing else is different from `Process`, so that the bound carries over
(`exec_process`), and where no thread of `Process` waits, either the handlers or the threads
can go on (`goes_on`). The watchdog thread is left out.
-/

namespace OdroidPlayer

open Transition Transition.System

structure Struck where
  process : Process
  /-- the block that the handler on a thread executes next -/
  handler : Caller → Option SetAt

namespace Struck

inductive Action where
  | run (a : Process.Action)
  /-- SIGINT strikes the thread. -/
  | interrupt (c : Caller)
  /-- the next block of its handler -/
  | handle (c : Caller)
  deriving DecidableEq, Repr

/-- The thread that takes a step. -/
def thread : Process.Action → Option Caller
  | .loop l _ | .wakeUp l | .ready l _ => some (.loop l)
  | .receive _ => some (.loop .server)
  | .send => some (.loop .stream)
  | .dequeueCall | .dequeue | .execute | .command _ | .responseLeaves => some .response
  | .play _ => some .play
  | .set c => some c
  | .main _ => some .main
  | .setHandler _ | .interrupt | .exit _ | .spuriousWakeup => none

/-- SIGINT comes, or its handler takes a step. -/
def ofHandler : Process.Action → Bool
  | .setHandler _ | .interrupt => true
  | _ => false

/-- A thread that exists, and has no mutex that `set_player_running` locks. -/
def Open (s : Process) : Caller → Prop
  | .loop l => s.loop l ≠ .unborn ∧ ¬ s.Finished (.loop l)
  | .response => s.response ≠ .unborn ∧ ¬ s.Finished .response
  | .play => s.playing = true ∧ ¬ s.Finished .play ∧ s.player.play.holdsMutex = false
  | .main => ¬ s.Finished .main

instance (s : Process) (c : Caller) : Decidable (Open s c) :=
  match c with
  | .loop _ | .response => inferInstanceAs (Decidable (_ ∧ _))
  | .play => inferInstanceAs (Decidable (_ ∧ _ ∧ _))
  | .main => inferInstanceAs (Decidable (¬ _))

def machine : System Struck Action Process.Event where
  step s
    | .run a =>
        if ofHandler a = true ∨ ∃ c ∈ thread a, s.handler c ≠ none then none
        else (Process.machine.step s.process a).map fun out => ({ s with process := out.1 }, out.2)
    | .interrupt c =>
        -- SIGINT is blocked while its handler runs
        if s.handler c = none ∧ Open s.process c then
          (Process.machine.step s.process .interrupt).map fun out =>
            (⟨out.1, Function.update s.handler c (some .flag)⟩, out.2)
        else none
    | .handle c =>
        (s.handler c).bind fun at_ =>
          (Process.machine.step s.process (.setHandler at_)).map fun out =>
            (⟨out.1, Function.update s.handler c at_.next⟩, out.2)

def Init (s : Struck) : Prop := Process.Init s.process ∧ ∀ c, s.handler c = none

def Reachable (s : Struck) : Prop := machine.Reachable Init s

/-- The steps of the threads and handlers that bring the process on. -/
def Action.advances : Action → Bool
  | .run a => a.advances
  | .interrupt _ => false
  | .handle _ => true

/-- Those that need nothing from outside of the process. -/
def Action.own : Action → Bool
  | .run a => a.own
  | .interrupt _ => false
  | .handle _ => true

/-- What makes a thread do more. -/
def Action.disturbs : Action → Bool
  | .run a => a.disturbs
  | .interrupt _ => true
  | .handle _ => false

inductive Move (s : Struck) : Action → Struck → List Process.Event → Prop where
  | run {a : Process.Action} {process : Process} {es : List Process.Event}
      (own : ofHandler a = false) (code : ∀ c, thread a = some c → s.handler c = none)
      (step : Process.machine.step s.process a = some (process, es)) :
      Move s (.run a) { s with process } es
  | interrupt {c : Caller} {process : Process} {es : List Process.Event}
      (code : s.handler c = none) (open_ : Open s.process c)
      (step : Process.machine.step s.process .interrupt = some (process, es)) :
      Move s (.interrupt c) ⟨process, Function.update s.handler c (some .flag)⟩ es
  | handle {c : Caller} {at_ : SetAt} {process : Process} {es : List Process.Event}
      (here : s.handler c = some at_)
      (step : Process.machine.step s.process (.setHandler at_) = some (process, es)) :
      Move s (.handle c) ⟨process, Function.update s.handler c at_.next⟩ es

section Steps

variable {s t : Struck} {a : Action} {as : List Action} {es log : List Process.Event}

theorem step_move (step : machine.step s a = some (t, es)) : Move s a t es := by
  cases a with
  | run a =>
      obtain ⟨guard, moved⟩ := Option.ite_none_left_eq_some.mp step
      obtain ⟨⟨process, es⟩, stepped, eq⟩ := Option.map_eq_some_iff.mp moved
      cases eq
      rw [not_or] at guard
      refine .run (by simpa using guard.1) (fun c is => ?_) stepped
      by_contra there
      exact guard.2 ⟨c, is, there⟩
  | interrupt c =>
      obtain ⟨⟨code, open_⟩, moved⟩ := Option.ite_none_right_eq_some.mp step
      obtain ⟨⟨process, es⟩, stepped, eq⟩ := Option.map_eq_some_iff.mp moved
      cases eq
      exact .interrupt code open_ stepped
  | handle c =>
      obtain ⟨at_, here, moved⟩ := Option.bind_eq_some_iff.mp step
      obtain ⟨⟨process, es⟩, stepped, eq⟩ := Option.map_eq_some_iff.mp moved
      cases eq
      exact .handle here stepped

/-! ### The same process with the handlers beside its threads -/

/-- Each step is one of `Process`. -/
theorem Move.process (move : Move s a t es) :
    ∃ b, Process.machine.step s.process b = some (t.process, es) ∧
      b.advances = a.advances ∧ b.disturbs = a.disturbs := by
  cases move with
  | run _ _ step => exact ⟨_, step, rfl, rfl⟩
  | interrupt _ _ step => exact ⟨_, step, rfl, rfl⟩
  | handle _ step => exact ⟨_, step, rfl, rfl⟩

theorem exec_process (run : machine.exec s as = some (t, log)) :
    ∃ bs, Process.machine.exec s.process bs = some (t.process, log) ∧
      bs.countP Process.Action.advances = as.countP Action.advances ∧
      bs.countP Process.Action.disturbs = as.countP Action.disturbs := by
  induction as generalizing s log with
  | nil =>
      cases run
      exact ⟨[], rfl, rfl, rfl⟩
  | cons a as ih =>
      obtain ⟨m, es, rest, step, tail, rfl⟩ := exec_cons.mp run
      obtain ⟨b, first, advances, disturbs⟩ := (step_move step).process
      obtain ⟨bs, run', advances', disturbs'⟩ := ih tail
      refine ⟨b :: bs, exec_cons.mpr ⟨_, _, _, first, run', rfl⟩, ?_, ?_⟩
      · rw [List.countP_cons, List.countP_cons, advances, advances']
      · rw [List.countP_cons, List.countP_cons, disturbs, disturbs']

theorem Reachable.process (reach : Reachable s) : Process.Reachable s.process := by
  obtain ⟨log, first, ⟨init, _⟩, as, run⟩ := reach
  obtain ⟨bs, run', _⟩ := exec_process run
  exact ⟨log, first.process, init, bs, run'⟩

/-! ### Where the handlers are -/

/-- The handlers are on the threads, and none on one that has `play_mutex`. -/
structure Placed (s : Struck) : Prop where
  counted : ∀ at_, s.process.handlers at_ =
    Caller.all.countP fun c => decide (s.handler c = some at_)
  outside : s.handler .play ≠ none → s.process.player.play.holdsMutex = false

/-- No thread takes or gives `play_mutex` for the player thread. -/
theorem holdsMutex_of_other {s t : Process} {a : Process.Action} (move : Process.Move s a t es)
    (other : thread a ≠ some .play) :
    t.player.play.holdsMutex = s.player.play.holdsMutex := by
  have signalled (at_ : PlayAt) : at_.signalled.holdsMutex = at_.holdsMutex := by
    cases at_ <;> rfl
  have blocked {at_ : SetAt} {u : Process} (block : Process.Block s at_ u) :
      u.player.play.holdsMutex = s.player.play.holdsMutex := by
    cases block with
    | play => exact signalled _
    | flag | queue | unborn | kill => rfl
  cases move with
  | play | playCalls => exact absurd rfl other
  | execute node step => cases OdroidPlayer.step_move step <;> rfl
  | command step =>
      cases OdroidPlayer.step_move step
      exact signalled _
  | exit step =>
      cases OdroidPlayer.step_move step
      rfl
  | set call block =>
      have same := blocked block
      exact same
  | setHandler some_ block =>
      have same := blocked block
      exact same
  | clearChild => exact signalled _
  | _ => rfl

/-- A thread has no part in where the handlers are. -/
theorem handlers_of_thread {s t : Process} {a : Process.Action} (move : Process.Move s a t es)
    (own : ofHandler a = false) : t.handlers = s.handlers := by
  cases move with
  | set call block => exact block.frame.2.2.2.2.2.2
  | setHandler | interrupt => cases own
  | _ => rfl

theorem Placed.keep (placed : Placed s) (move : Move s a t es) : Placed t := by
  cases move with
  | @run b process _ own code step =>
      have moved := Process.step_move step
      refine ⟨fun at_ => ?_, fun there => ?_⟩
      · rw [handlers_of_thread moved own]
        exact placed.counted at_
      · rw [holdsMutex_of_other moved fun is => there (code .play is)]
        exact placed.outside there
  | @interrupt c process _ code open_ step =>
      have moved := Process.step_move step
      refine ⟨fun at_ => ?_, fun there => ?_⟩
      · have count := Process.countP_update s.handler c (some .flag) at_
        rw [code] at count
        cases moved
        have before := placed.counted at_
        by_cases flag : at_ = .flag
        · subst flag
          simp at count ⊢
          omega
        · simp [flag, Ne.symm flag] at count ⊢
          omega
      · rw [holdsMutex_of_other moved (by simp [thread])]
        by_cases here : c = .play
        · subst here
          exact open_.2.2
        · exact placed.outside (by simpa [Ne.symm here] using there)
  | @handle c here process _ at_ step =>
      have moved := Process.step_move step
      refine ⟨fun at' => ?_, fun there => ?_⟩
      · have count := Process.countP_update s.handler c here.next at'
        have before := placed.counted at'
        cases moved with
        | @setHandler _ u some_ block =>
            have handled := u.inCall_handled (by rwa [block.frame.2.2.2.2.2.2]) at'
            have calls : (u.handled here).call = u.call := rfl
            simp only [Process.inCall, calls] at handled
            rw [block.frame.2.2.2.2.2.2] at handled
            rw [at_] at count
            by_cases same : at' = here
            · simp [same] at count handled before ⊢
              omega
            · simp [same, Ne.symm same] at count handled before ⊢
              omega
      · rw [holdsMutex_of_other moved (by simp [thread])]
        refine placed.outside fun none => there ?_
        by_cases same : c = .play
        · subst same
          rw [none] at at_
          cases at_
        · simpa [Ne.symm same] using none

theorem Reachable.placed (reach : Reachable s) : Placed s := by
  refine reach.rec_inv ?_ fun _ _ _ _ placed step => placed.keep (step_move step)
  rintro ⟨process, handler⟩ ⟨⟨player, _, rfl⟩, none⟩
  refine ⟨fun at_ => ?_, fun there => absurd (none .play) there⟩
  have nobody : (Caller.all.countP fun c => decide (handler c = some at_)) = 0 :=
    List.countP_eq_zero.mpr fun c _ => by simp [show handler c = Option.none from none c]
  exact nobody.symm

/-- The handlers under way. -/
def handling (s : Struck) : Nat := Caller.all.countP fun c => (s.handler c).isSome

theorem Placed.handling (placed : Placed s) : s.process.handling = s.handling := by
  have each (at_ : Option SetAt) : (if at_.isSome = true then 1 else 0) =
      (if at_ = some .flag then 1 else 0) + (if at_ = some .queue then 1 else 0) +
        (if at_ = some .play then 1 else 0) + (if at_ = some (.kill .stream) then 1 else 0) +
          (if at_ = some (.kill .server) then 1 else 0) := by
    rcases at_ with _ | _ | _ | _ | l
    · rfl
    · rfl
    · rfl
    · rfl
    · cases l <;> rfl
  simp only [Process.handling, placed.counted, Struck.handling, Caller.all, List.countP_cons,
    List.countP_nil, decide_eq_true_eq, each]
  omega

/-! ### What can be done -/

theorem run_isSome {a : Process.Action} (own : ofHandler a = false)
    (code : ∀ c, thread a = some c → s.handler c = none)
    (enabled : (Process.machine.step s.process a).isSome = true) :
    (machine.step s (.run a)).isSome = true := by
  have free : ¬ (ofHandler a = true ∨ ∃ c ∈ thread a, s.handler c ≠ none) := by
    rintro (handler | ⟨c, is, there⟩)
    · rw [own] at handler
      cases handler
    · exact there (code c is)
  simp only [machine, if_neg free, Option.isSome_map]
  exact enabled

/-- A handler waits for `play_mutex` alone, and the player thread that has it goes on. -/
theorem handler_goes_on (placed : Placed s) (inv : Process.Inv s.process) {c : Caller} {at_ : SetAt}
    (here : s.handler c = some at_) : ∃ a, a.own = true ∧ (machine.step s a).isSome = true := by
  by_cases held : s.process.player.play.holdsMutex = true
  · have code : s.handler .play = none := by
      by_contra there
      rw [placed.outside there] at held
      cases held
    refine ⟨.run (.play .play), rfl, run_isSome rfl (fun c is => ?_) (Process.mutex_enabled inv held)⟩
    cases is
    exact code
  · have some_ : 0 < s.process.handlers at_ := by
      rw [placed.counted]
      refine List.countP_pos_iff.mpr ⟨c, ?_, decide_eq_true here⟩
      rcases c with l | _ | _ | _
      · cases l <;> decide
      all_goals decide
    have inside : 0 < s.process.inCall at_ := Nat.lt_of_lt_of_le some_ (Nat.le_add_right _ _)
    obtain ⟨u, block⟩ := Option.isSome_iff_exists.mp
      (Process.block_goes_on inv.counts (by simpa using held) inside)
    refine ⟨.handle c, rfl, ?_⟩
    simp [machine, here, Process.machine, Nat.ne_of_gt some_, block]

/-- Where no handler is under way the threads go on as in `Process`. -/
theorem goes_on (placed : Placed s) (inv : Process.Inv s.process)
    (off : s.process.player.player.running = false) :
    s.process.main = .freed ∨ s.process.main = .joinPlay ∧ WaitsForChild s.process.player ∨
      s.process.main = .joinResponse ∧ s.process.queue.LostWakeup ∨
        ∃ a, a.own = true ∧ (machine.step s a).isSome = true := by
  by_cases struck : ∃ c at_, s.handler c = some at_
  · obtain ⟨c, at_, here⟩ := struck
    exact .inr (.inr (.inr (handler_goes_on placed inv here)))
  have code (c : Caller) : s.handler c = none := by
    by_contra there
    exact struck ⟨c, Option.ne_none_iff_exists'.mp there⟩
  rcases Process.main_goes_on inv off with freed | child | lost | ⟨a, own, enabled⟩
  · exact .inl freed
  · exact .inr (.inl child)
  · exact .inr (.inr (.inl lost))
  · refine .inr (.inr (.inr ⟨.run a, own, run_isSome ?_ (fun c _ => code c) enabled⟩))
    cases a with
    | setHandler at_ =>
        have none : s.process.handlers at_ = 0 := by simp [placed.counted, code]
        simp [Process.machine, none] at enabled
    | interrupt => cases own
    | _ => rfl

end Steps

end Struck

end OdroidPlayer
