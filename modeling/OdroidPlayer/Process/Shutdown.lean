import OdroidPlayer.Process.Measure

/-!
Which threads can go on while the process is shut down.

Once `running` is clear no state is reached in which all of them wait but for two: the child
that plays has not ended, and the response thread has entered its wait behind the last signal of
the queue (`main_goes_on`). The handlers of SIGINT run beside the threads here.
-/

namespace OdroidPlayer

open Transition Transition.System

namespace Process

/-! ### What can be done -/

section GoesOn

variable {s : Process}

/-- There is a thread that can take a step by itself. -/
def GoesOn (s : Process) : Prop := ∃ a, a.own = true ∧ (machine.step s a).isSome = true

theorem onPlayer_isSome {s : Process} {a : OdroidPlayer.Action}
    (enabled : (OdroidPlayer.step s.player a).isSome = true) : (s.onPlayer [a]).isSome = true := by
  obtain ⟨⟨player, es⟩, step⟩ := Option.isSome_iff_exists.mp enabled
  have run : OdroidPlayer.machine.exec s.player [a] = some (player, es ++ []) :=
    exec_cons.mpr ⟨_, _, _, step, rfl, rfl⟩
  simp [onPlayer, run]

/-- The player thread can take its steps unless it is in a call. -/
theorem play_enabled (born : s.playing = true) (outside : s.call .play = none)
    {a : OdroidPlayer.Action} (own : OdroidPlayer.Action.own a = true)
    (enabled : (OdroidPlayer.step s.player a).isSome = true) :
    (machine.step s (.play a)).isSome = true := by
  have mine : a.ofPlayer = true := by
    cases a <;> first | rfl | cases own
  cases at_ : atCall s.player.play with
  | false => simpa [machine, runPlay, born, outside, mine, at_] using onPlayer_isSome enabled
  | true =>
      obtain ⟨⟨player, es⟩, step⟩ := Option.isSome_iff_exists.mp enabled
      obtain ⟨rfl, target, leads, -⟩ := call_step step at_ mine
      rcases leads with ⟨here, -⟩ | ⟨here, -⟩ <;>
        simp [machine, runPlay, atCall, born, outside, OdroidPlayer.Action.ofPlayer, onPlayer,
          exec, OdroidPlayer.machine, OdroidPlayer.step, runPlayer, here, onQueue,
          Shutdown.machine]

/-- The player thread gives `play_mutex` back. -/
theorem mutex_enabled (inv : Inv s) (held : s.player.play.holdsMutex = true) :
    (machine.step s (.play .play)).isSome = true := by
  have born : s.playing = true := by
    by_contra unborn
    rw [inv.fresh (by simpa using unborn)] at held
    cases held
  have outside : s.call .play = none := by
    by_contra calls
    rcases inv.placed.play calls with halted | halted <;> rw [halted] at held <;> cases held
  refine play_enabled born outside (a := .play) rfl ?_
  cases at_ : s.player.play with
  | waitTest | waitRunning | runningTest => simp [OdroidPlayer.step, runPlayer, at_]
  | stoppedTest =>
      simp only [OdroidPlayer.step, runPlayer, at_]
      split <;> rfl
  | _ =>
      rw [at_] at held
      cases held

/-- No block of a call waits for anything but `play_mutex`. -/
theorem block_goes_on (counts : Counts s) (free : s.player.play.holdsMutex = false) {at_ : SetAt}
    (here : 0 < s.inCall at_) : (s.block at_).isSome = true := by
  cases at_ with
  | flag => rfl
  | queue =>
      obtain ⟨left, some_⟩ := Nat.exists_eq_succ_of_ne_zero
        (show s.queue.signalling ≠ 0 by rw [counts.signalling]; omega)
      simp [block, onQueue, Shutdown.machine, some_]
  | play =>
      have coming : 0 < s.player.stopping := by rw [counts.stopping]; omega
      refine onPlayer_isSome ?_
      rw [(OdroidPlayer.Move.shutdownSignal coming free).step]
      rfl
  | kill l =>
      simp only [block]
      split <;> rfl

/-- Where no thread goes on, none is in a call and no handler is at a block. -/
theorem idle_of_stuck (inv : Inv s) (stuck : ¬ s.GoesOn) :
    s.player.play.holdsMutex = false ∧ (∀ c, s.call c = none) ∧ ∀ at_, s.inCall at_ = 0 := by
  have free : s.player.play.holdsMutex = false := by
    by_contra held
    exact stuck ⟨.play .play, rfl, mutex_enabled inv (by simpa using held)⟩
  have outside (c : Caller) : s.call c = none := by
    by_contra calls
    obtain ⟨at_, here⟩ := Option.ne_none_iff_exists'.mp calls
    have inside : 0 < s.inCall at_ := by
      refine Nat.lt_of_lt_of_le (List.countP_pos_iff.mpr ⟨c, ?_, decide_eq_true here⟩)
        (Nat.le_add_left _ _)
      rcases c with l | _ | _ | _
      · cases l <;> decide
      all_goals decide
    obtain ⟨t, block⟩ := Option.isSome_iff_exists.mp (block_goes_on inv.counts free inside)
    exact stuck ⟨.set c, rfl, by simp [machine, here, block]⟩
  refine ⟨free, outside, fun at_ => ?_⟩
  by_contra inside
  have handler : s.handlers at_ ≠ 0 := by
    simpa [inCall, outside] using inside
  obtain ⟨t, block⟩ := Option.isSome_iff_exists.mp
    (block_goes_on inv.counts free (Nat.pos_of_ne_zero inside))
  exact stuck ⟨.setHandler at_, rfl, by simp [machine, handler, block]⟩

/-- A loop that is not left goes on, and a loop that waits is interrupted. -/
theorem loop_left (inv : Inv s) (off : s.player.player.running = false) (stuck : ¬ s.GoesOn)
    {l : SelectLoop} (born : s.loop l ≠ .unborn) : s.loop l = .left := by
  by_contra inside
  have none := (idle_of_stuck inv stuck).2.2
  refine stuck ?_
  cases at_ : s.loop l with
  | waiting =>
      have pending : s.usr1 l = true := by
        rcases inv.counts.told l (.inr at_) with on | pending | coming
        · simp [off] at on
        · exact pending
        · cases l <;> simp [due, none] at coming
      exact ⟨.wakeUp l, rfl, by simp [machine, at_, pending]⟩
  | unborn => exact absurd at_ born
  | left => exact absurd at_ inside
  | serving slots => cases slots <;> exact ⟨.loop l true, rfl, by simp [machine, at_, LoopAt.next]⟩
  | opening | loopTest | pselect | woken =>
      exact ⟨.loop l true, rfl, by simp [machine, at_, LoopAt.next]⟩

/-- The response thread goes on unless it waits for a signal that does not come. -/
theorem response_left (inv : Inv s) (off : s.player.player.running = false)
    (stuck : ¬ s.GoesOn) (born : s.response ≠ .unborn) (found : ¬ s.queue.LostWakeup) :
    s.response = .left := by
  obtain ⟨free, outside, none⟩ := idle_of_stuck inv stuck
  by_contra inside
  have looping : s.response = .looping := by
    cases at_ : s.response <;> simp_all
  refine stuck ?_
  cases at_ : s.player.resp with
  | crashed => exact absurd at_ inv.player.inv.alive
  | calling r command reply =>
      refine ⟨.command ⟨0, 0⟩, rfl, ?_⟩
      have enabled : (OdroidPlayer.step s.player (.command ⟨0, 0⟩)).isSome = true := by
        rw [(OdroidPlayer.Move.command at_ free).step]
        rfl
      simpa [machine] using onPlayer_isSome enabled
  | idle =>
      rcases node : s.executing with _ | _ | r
      · cases here : s.queue.consumer with
        | outside =>
            refine ⟨.dequeueCall, rfl, ?_⟩
            simp [machine, looping, node, at_, onQueue, Shutdown.machine, here]
        | finished => exact ⟨.responseLeaves, rfl, by simp [machine, looping, here]⟩
        | dequeue place =>
            cases place with
            | entering | woken =>
                exact ⟨.dequeue, rfl, by simp [machine, looping, Shutdown.machine, here]⟩
            | waiting =>
                have unsignalled : s.queue.signalling = 0 := by rw [inv.counts.signalling, none]
                refine absurd ⟨here, inv.follows.waits here, ?_, unsignalled⟩ found
                by_contra on
                have coming := inv.follows.off (inv.counts.same.trans off) (by simpa using on)
                omega
      · exact ⟨.execute, rfl, by simp [machine, execute, node]⟩
      · refine ⟨.execute, rfl, ?_⟩
        have enabled : (OdroidPlayer.step s.player (.request r)).isSome = true := by
          simp only [OdroidPlayer.step, startRequest, at_, free]
          simp only [Bool.false_eq_true, and_false, if_false]
          split <;> rfl
        simpa [machine, execute, node] using onPlayer_isSome enabled

/-- So does the player thread unless the child has not ended. -/
theorem play_finished (inv : Inv s) (off : s.player.player.running = false)
    (stuck : ¬ s.GoesOn) (born : s.playing = true) (ended : ¬ WaitsForChild s.player) :
    s.player.play = .finished := by
  obtain ⟨free, outside, none⟩ := idle_of_stuck inv stuck
  rcases OdroidPlayer.goes_on inv.player.inv inv.player.attentive off with
    finished | waits | ⟨a, own | rfl, enabled⟩
  · exact finished
  · exact absurd waits ended
  · exact absurd ⟨.play a, own, play_enabled born (outside .play) own enabled⟩ stuck
  · have silent : s.player.stopping = 0 := by rw [inv.counts.stopping, none, none]
    simp [OdroidPlayer.step, silent] at enabled

/-- `main` gets on unless it joins a thread that is stuck for one of these reasons. -/
theorem main_goes_on (inv : Inv s) (off : s.player.player.running = false) :
    s.main = .freed ∨ s.main = .joinPlay ∧ WaitsForChild s.player ∨
      s.main = .joinResponse ∧ s.queue.LostWakeup ∨ s.GoesOn := by
  by_cases goes : s.GoesOn
  · exact .inr (.inr (.inr goes))
  obtain ⟨free, outside, -⟩ := idle_of_stuck inv goes
  have stays (step : (s.runMain true).isSome = true) : False :=
    goes ⟨.main true, rfl, by simpa [machine] using step⟩
  have born (joins : s.main.joins ≠ none ∨ s.main = .joinPlay) := by
    have playing := inv.born.joins joins
    exact And.intro playing (inv.born.all (.inl playing))
  cases at_ : s.main with
  | freed => exact .inl rfl
  | joinStream =>
      have created := (born (by simp [at_, MainAt.joins])).2.1 (by rw [at_]; decide)
      have left := loop_left inv off goes created
      exact (stays (by simp [runMain, at_, Process.join, Finished, left, outside])).elim
  | joinServer =>
      have created := (born (by simp [at_, MainAt.joins])).2.2.1 (by rw [at_]; decide)
      have left := loop_left inv off goes created
      exact (stays (by simp [runMain, at_, Process.join, Finished, left, outside])).elim
  | joinResponse =>
      have created := (born (by simp [at_, MainAt.joins])).2.2.2 (by rw [at_]; decide)
      by_cases lost : s.queue.LostWakeup
      · exact .inr (.inr (.inl ⟨rfl, lost⟩))
      · have left := response_left inv off goes created lost
        exact (stays (by simp [runMain, at_, Process.join, Finished, left, outside])).elim
  | joinPlay =>
      have playing := (born (.inr at_)).1
      by_cases waits : WaitsForChild s.player
      · exact .inr (.inl ⟨rfl, waits⟩)
      · have finished := play_finished inv off goes playing waits
        exact (stays (by
          simp [runMain, at_, Process.join, Finished, finished, outside, playing])).elim
  | clearChild => exact (stays (by simp [runMain, at_, free])).elim
  | clear => exact (stays (by simp [runMain, at_, outside])).elim
  | createStream | createServer | createResponse | createWatchdog | createPlay | joinAgain
  | free => exact (stays (by simp [runMain, at_])).elim

end GoesOn

end Process

end OdroidPlayer
