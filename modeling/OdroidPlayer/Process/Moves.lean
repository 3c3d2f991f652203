import OdroidPlayer.Process.Machine

/-!
What one step of the process can do, and that the player and the queue in it do what those
of `machine` and `Shutdown.machine` do.
-/

namespace OdroidPlayer

open Transition Transition.System

/-- `main` is about to call `pthread_create`. -/
def MainAt.creates : MainAt → Bool
  | .createStream | .createServer | .createResponse | .createWatchdog | .createPlay => true
  | _ => false

/-- The thread that `wait_player` joins next, but for the last one. -/
def MainAt.joins : MainAt → Option (Caller × MainAt)
  | .joinStream => some (.loop .stream, .joinServer)
  | .joinServer => some (.loop .server, .joinResponse)
  | .joinResponse => some (.response, .joinPlay)
  | _ => none

/-- A thread that is behind its loop does nothing more there, and one that has not been created
does nothing at all. -/
theorem LoopAt.next_inside {l : SelectLoop} {running ok : Bool} {at_ after : LoopAt}
    (next : at_.next l running ok = some after) : at_ ≠ .left ∧ at_ ≠ .unborn := by
  refine ⟨?_, ?_⟩ <;>
  · rintro rfl
    cases next

theorem LoopAt.next_born {l : SelectLoop} {running ok : Bool} {at_ after : LoopAt}
    (next : at_.next l running ok = some after) : after ≠ .unborn := by
  rintro rfl
  cases at_ with
  | serving slots => cases slots <;> cases next
  | opening | pselect => cases ok <;> cases next
  | loopTest => cases running <;> cases next
  | woken interrupted =>
      simp only [LoopAt.next, Option.some.injEq] at next
      split at next
      · cases next
      · split at next <;> cases next
  | unborn | waiting | left => cases next

/-- A loop calls `pselect` when it has seen that the player is running. -/
theorem LoopAt.next_asked {l : SelectLoop} {running ok : Bool} {at_ after : LoopAt}
    (next : at_.next l running ok = some after) (asked : after = .pselect ∨ after = .waiting) :
    running = true ∨ at_ = .pselect := by
  cases at_ with
  | pselect => exact .inr rfl
  | loopTest =>
      cases running with
      | true => exact .inl rfl
      | false =>
          cases next
          simp at asked
  | serving slots => cases slots <;> cases next <;> simp at asked
  | opening => cases ok <;> cases next <;> simp at asked
  | woken interrupted =>
      simp only [LoopAt.next, Option.some.injEq] at next
      split at next
      · simp [← next] at asked
      · split at next <;> simp [← next] at asked
  | unborn | waiting | left => cases next

namespace Process

/-- A block of `set_player_running(player, false)`. -/
inductive Block (s : Process) : SetAt → Process → Prop where
  | flag :
      Block s .flag { s with
        player := { s.player with
          player.running := false, stopping := s.player.stopping + 1 }
        queue := { s.queue with running := false, signalling := s.queue.signalling + 1 } }
  | queue {left : Nat} (some_ : s.queue.signalling = left + 1) :
      Block s .queue { s with
        queue := { s.queue with signalling := left }.signalled
          { s.queue.queue with running := false } }
  | play (waiting : 0 < s.player.stopping) (free : s.player.play.holdsMutex = false) :
      Block s .play { s with
        player := { s.player with
          play := s.player.play.signalled, stopping := s.player.stopping - 1 } }
  | unborn {l : SelectLoop} (at_ : s.loop l = .unborn) : Block s (.kill l) s
  | kill {l : SelectLoop} (born : s.loop l ≠ .unborn) :
      Block s (.kill l) { s with usr1 := Function.update s.usr1 l true }

/-- The handler that has executed a block. -/
def handled (s : Process) (at_ : SetAt) : Process :=
  let gone := Function.update s.handlers at_ (s.handlers at_ - 1)
  { s with handlers := match at_.next with
      | none => gone
      | some next => Function.update gone next (gone next + 1) }

inductive Move (s : Process) : Action → Process → List Event → Prop where
  | loop {l : SelectLoop} {ok : Bool} {at_ : LoopAt}
      (next : (s.loop l).next l s.player.player.running ok = some at_) :
      Move s (.loop l ok) (s.loopMoved l at_) []
  | wakeUp {l : SelectLoop} (at_ : s.loop l = .waiting) (pending : s.usr1 l = true) :
      Move s (.wakeUp l)
        { s.at' l (.woken true) with usr1 := Function.update s.usr1 l false } []
  | ready {l : SelectLoop} {interrupted : Bool} (at_ : s.loop l = .waiting) :
      Move s (.ready l interrupted) (s.at' l (.woken interrupted)) []
  | receive {node : PlayerNode} {slots : Nat} {queue : Shutdown PlayerNode} {es : List (Option PlayerNode)}
      (at_ : s.loop .server = .serving (slots + 1))
      (step : (Shutdown.machine .runResponse).step s.queue (.enqueue node) = some (queue, es)) :
      Move s (.receive node) { s.at' .server (.serving slots) with queue } []
  | send {slots : Nat} (at_ : s.loop .stream = .serving (slots + 1))
      (free : s.player.play.holdsMutex = false) :
      Move s .send (s.at' .stream (.serving slots)) []
  | dequeueCall {queue : Shutdown PlayerNode} {es : List (Option PlayerNode)}
      (looping : s.response = .looping) (free : s.executing = none) (idle : s.player.resp = .idle)
      (step : (Shutdown.machine .runResponse).step s.queue (.call true) = some (queue, es)) :
      Move s .dequeueCall { s with queue } []
  | dequeue {queue : Shutdown PlayerNode} {es : List (Option PlayerNode)} (looping : s.response = .looping)
      (step : (Shutdown.machine .runResponse).step s.queue .dequeue = some (queue, es)) :
      Move s .dequeue { s with queue, executing := es.head?.join } []
  | executeOther (node : s.executing = some none) :
      Move s .execute { s with executing := none } []
  | execute {r : Request} {player : State} {es : List OdroidPlayer.Event}
      (node : s.executing = some (some r))
      (step : OdroidPlayer.step s.player (.request r) = some (player, es)) :
      Move s .execute { s with player, executing := none } []
  | command {now : Timeval} {player : State} {es : List OdroidPlayer.Event}
      (step : OdroidPlayer.step s.player (.command now) = some (player, es)) :
      Move s (.command now) { s with player } []
  | responseLeaves (looping : s.response = .looping) (out : s.queue.consumer = .finished) :
      Move s .responseLeaves
        (({ s with response := .left } : Process).calls .response (some .flag)) []
  | play {a : OdroidPlayer.Action} {player : State} {es : List OdroidPlayer.Event}
      (born : s.playing = true) (outside : s.call .play = none) (own : a.ofPlayer = true)
      (at_ : atCall s.player.play = false)
      (step : OdroidPlayer.step s.player a = some (player, es)) :
      Move s (.play a) { s with player } []
  | playCalls {target : PlayAt} (born : s.playing = true) (outside : s.call .play = none)
      (at_ : s.player.play = .endOfPlaylist ∧ target = .stopPlayer ∨
        s.player.play = .stopPlayer ∧ target = .finished) :
      Move s (.play .play)
        (({ s with
          player := { s.player with
            player.running := false, stopping := s.player.stopping + 1, play := target }
          queue := { s.queue with running := false, signalling := s.queue.signalling + 1 } }
          : Process).calls .play (some .queue)) []
  | set {c : Caller} {at_ : SetAt} {t : Process} (call : s.call c = some at_)
      (block : Block s at_ t) : Move s (.set c) (t.calls c at_.next) []
  | setHandler {at_ : SetAt} {t : Process} (some_ : s.handlers at_ ≠ 0) (block : Block s at_ t) :
      Move s (.setHandler at_) (t.handled at_) []
  | createStream (at_ : s.main = .createStream) :
      Move s (.main true) ({ s with main := .createServer }.at' .stream .loopTest) []
  | createServer (at_ : s.main = .createServer) :
      Move s (.main true) ({ s with main := .createResponse }.at' .server .opening) []
  | createResponse (at_ : s.main = .createResponse) :
      Move s (.main true) { s with main := .createWatchdog, response := .looping } []
  | createWatchdog (at_ : s.main = .createWatchdog) :
      Move s (.main true) { s with main := .createPlay } []
  | createPlay (at_ : s.main = .createPlay) :
      Move s (.main true) { s with main := .joinStream, playing := true } []
  | createFailed (at_ : s.main.creates = true) :
      Move s (.main false) (({ s with main := .clear } : Process).calls .main (some .flag))
        [.createFailed]
  | join {c : Caller} {next : MainAt} {ok : Bool} (at_ : s.main.joins = some (c, next))
      (finished : s.Finished c) : Move s (.main ok) { s with main := next } [.joined c]
  | joinPlay {ok : Bool} (at_ : s.main = .joinPlay) (finished : s.Finished .play) :
      Move s (.main ok) (({ s with main := .clear } : Process).calls .main (some .flag))
        [.joined .play]
  | clear {ok : Bool} (at_ : s.main = .clear) (outside : s.call .main = none) :
      Move s (.main ok) { s with main := .clearChild } []
  | clearChild {ok : Bool} (at_ : s.main = .clearChild)
      (free : s.player.play.holdsMutex = false) :
      Move s (.main ok) { s with
        player.player := (clearPlayer s.player.player).1
        player.children := (clearPlayer s.player.player).2.foldl
          (kill s.player.player.childPid) s.player.children
        player.play := s.player.play.signalled
        main := .joinAgain } []
  | joinAgain {ok : Bool} (at_ : s.main = .joinAgain) :
      Move s (.main ok) { s with main := .free } (if s.playing then [.joined .play] else [])
  | free {ok : Bool} (at_ : s.main = .free) : Move s (.main ok) { s with main := .freed } [.freed]
  | interrupt :
      Move s .interrupt
        { s with handlers := Function.update s.handlers .flag (s.handlers .flag + 1) } []
  | exit {pid : Nat} {player : State} {es : List OdroidPlayer.Event}
      (step : OdroidPlayer.step s.player (.exit pid) = some (player, es)) :
      Move s (.exit pid) { s with player } []
  | spuriousWakeup {queue : Shutdown PlayerNode} {es : List (Option PlayerNode)}
      (step : (Shutdown.machine .runResponse).step s.queue .spuriousWakeup = some (queue, es)) :
      Move s .spuriousWakeup { s with queue } []

section Inversion

variable {s t : Process}

theorem onPlayer_single {a : OdroidPlayer.Action} (moved : s.onPlayer [a] = some t) :
    ∃ player es, OdroidPlayer.step s.player a = some (player, es) ∧ t = { s with player } := by
  obtain ⟨⟨player, log⟩, run, rfl⟩ := Option.map_eq_some_iff.mp moved
  obtain ⟨m, es, rest, first, tail, -⟩ := exec_cons.mp run
  cases tail
  exact ⟨_, es, first, rfl⟩

theorem onQueue_eq {a : Shutdown.Action PlayerNode} (moved : s.onQueue a = some t) :
    ∃ queue es, (Shutdown.machine .runResponse).step s.queue a = some (queue, es) ∧
      t = { s with queue } := by
  obtain ⟨⟨queue, es⟩, step, rfl⟩ := Option.map_eq_some_iff.mp moved
  exact ⟨queue, es, step, rfl⟩

theorem block_eq {at_ : SetAt} (block : s.block at_ = some t) : Block s at_ t := by
  cases at_ with
  | flag =>
      cases block
      exact .flag
  | queue =>
      obtain ⟨queue, es, step, rfl⟩ := onQueue_eq block
      simp only [Shutdown.machine] at step
      split at step
      · cases step
      next left some_ =>
          cases step
          exact .queue some_
  | play =>
      obtain ⟨player, es, step, rfl⟩ := onPlayer_single block
      cases step_move step with
      | shutdownSignal waiting free => exact .play waiting free
  | kill l =>
      simp only [Process.block] at block
      split at block
      next unborn =>
          cases block
          exact .unborn unborn
      next born =>
          cases block
          exact .kill born

/-- Where the player thread calls `set_player_running`, it does nothing else. -/
theorem call_step {s t : State} {a : OdroidPlayer.Action} {es : List OdroidPlayer.Event}
    (step : OdroidPlayer.step s a = some (t, es)) (at_ : atCall s.play = true)
    (own : a.ofPlayer = true) :
    a = .play ∧ ∃ target, (s.play = .endOfPlaylist ∧ target = .stopPlayer ∨
      s.play = .stopPlayer ∧ target = .finished) ∧
      t = { s with player.running := false, play := target } := by
  have calls : s.play = .endOfPlaylist ∨ s.play = .stopPlayer := by
    cases here : s.play with
    | endOfPlaylist => exact .inl rfl
    | stopPlayer => exact .inr rfl
    | _ => rw [here] at at_; cases at_
  have only : a = .play := by
    rcases calls with here | here <;>
      cases a <;> simp_all [OdroidPlayer.step, spawnChild, recordChild, waitChild,
        OdroidPlayer.Action.ofPlayer]
  subst only
  refine ⟨rfl, ?_⟩
  rcases calls with here | here
  · simp only [OdroidPlayer.step, runPlayer, here, Option.some.injEq, Prod.mk.injEq] at step
    exact ⟨.stopPlayer, .inl ⟨here, rfl⟩, step.1.symm⟩
  · simp only [OdroidPlayer.step, runPlayer, here, Option.some.injEq, Prod.mk.injEq] at step
    exact ⟨.finished, .inr ⟨here, rfl⟩, step.1.symm⟩

theorem runPlay_move {a : OdroidPlayer.Action} (play : s.runPlay a = some t) :
    Move s (.play a) t [] := by
  simp only [runPlay, Option.ite_none_right_eq_some] at play
  obtain ⟨⟨born, outside, own⟩, play⟩ := play
  cases at_ : atCall s.player.play with
  | false =>
      obtain ⟨player, es, step, rfl⟩ := onPlayer_single (by simpa [at_] using play)
      exact .play born outside own at_ step
  | true =>
      simp only [at_, if_true, Option.map_eq_some_iff, Option.bind_eq_some_iff] at play
      obtain ⟨u, ⟨v, moved, flagged⟩, rfl⟩ := play
      obtain ⟨⟨player, log⟩, run, rfl⟩ := Option.map_eq_some_iff.mp moved
      obtain ⟨m, es, rest, first, tail, -⟩ := exec_cons.mp run
      cases first
      obtain ⟨n, es', rest', second, tail', -⟩ := exec_cons.mp tail
      cases tail'
      cases flagged
      obtain ⟨rfl, target, leads, rfl⟩ := call_step second at_ own
      exact .playCalls born outside leads

theorem execute_move (execute : s.execute = some t) : Move s .execute t [] := by
  simp only [Process.execute] at execute
  split at execute
  · cases execute
  next node =>
      cases execute
      exact .executeOther node
  next r node =>
      obtain ⟨u, moved, rfl⟩ := Option.map_eq_some_iff.mp execute
      obtain ⟨player, es, step, rfl⟩ := onPlayer_single moved
      exact .execute node step

theorem runMain_move {ok : Bool} {es : List Event} (main : s.runMain ok = some (t, es)) :
    Move s (.main ok) t es := by
  have failed (creates : s.main.creates = true) (out : some s.createFailed = some (t, es)) :
      Move s (.main false) t es := by
    cases out
    exact .createFailed creates
  have joined {c : Caller} {next : MainAt} (joins : s.main.joins = some (c, next))
      (join : s.join c next = some (t, es)) : Move s (.main ok) t es := by
    simp only [Process.join, Option.ite_none_right_eq_some] at join
    obtain ⟨finished, out⟩ := join
    cases out
    exact .join joins finished
  unfold runMain at main
  cases at_ : s.main with
  | createStream =>
      rw [at_] at main
      cases ok with
      | true =>
          cases main
          exact .createStream at_
      | false => exact failed (by rw [at_]; rfl) main
  | createServer =>
      rw [at_] at main
      cases ok with
      | true =>
          cases main
          exact .createServer at_
      | false => exact failed (by rw [at_]; rfl) main
  | createResponse =>
      rw [at_] at main
      cases ok with
      | true =>
          cases main
          exact .createResponse at_
      | false => exact failed (by rw [at_]; rfl) main
  | createWatchdog =>
      rw [at_] at main
      cases ok with
      | true =>
          cases main
          exact .createWatchdog at_
      | false => exact failed (by rw [at_]; rfl) main
  | createPlay =>
      rw [at_] at main
      cases ok with
      | true =>
          cases main
          exact .createPlay at_
      | false => exact failed (by rw [at_]; rfl) main
  | joinStream | joinServer | joinResponse =>
      rw [at_] at main
      exact joined (by rw [at_]; rfl) main
  | joinPlay =>
      rw [at_] at main
      obtain ⟨⟨u, log⟩, join, out⟩ := Option.map_eq_some_iff.mp main
      simp only [Process.join, Option.ite_none_right_eq_some] at join
      obtain ⟨finished, here⟩ := join
      cases here
      cases out
      exact .joinPlay at_ finished
  | clear =>
      rw [at_] at main
      obtain ⟨outside, out⟩ := Option.ite_none_right_eq_some.mp main
      cases out
      exact .clear at_ outside
  | clearChild =>
      rw [at_] at main
      obtain ⟨free, out⟩ := Option.ite_none_left_eq_some.mp main
      cases out
      exact .clearChild at_ (by simpa using free)
  | joinAgain =>
      rw [at_] at main
      cases main
      exact .joinAgain at_
  | free =>
      rw [at_] at main
      cases main
      exact .free at_
  | freed =>
      rw [at_] at main
      cases main

theorem step_move {a : Action} {es : List Event} (step : machine.step s a = some (t, es)) :
    Move s a t es := by
  cases a with
  | loop l ok =>
      obtain ⟨at_, next, out⟩ := Option.map_eq_some_iff.mp step
      cases out
      exact .loop next
  | wakeUp l =>
      obtain ⟨⟨at_, pending⟩, out⟩ := Option.ite_none_right_eq_some.mp step
      cases out
      exact .wakeUp at_ pending
  | ready l interrupted =>
      obtain ⟨at_, out⟩ := Option.ite_none_right_eq_some.mp step
      cases out
      exact .ready at_
  | receive node =>
      simp only [machine] at step
      split at step
      next slots at_ =>
          obtain ⟨u, moved, out⟩ := Option.map_eq_some_iff.mp step
          cases out
          obtain ⟨queue, log, enqueued, rfl⟩ := onQueue_eq moved
          exact .receive at_ enqueued
      · cases step
  | send =>
      simp only [machine] at step
      split at step
      next slots at_ =>
          obtain ⟨free, out⟩ := Option.ite_none_left_eq_some.mp step
          cases out
          exact .send at_ (by simpa using free)
      · cases step
  | dequeueCall =>
      obtain ⟨⟨looping, free, idle⟩, mapped⟩ := Option.ite_none_right_eq_some.mp step
      obtain ⟨u, moved, out⟩ := Option.map_eq_some_iff.mp mapped
      cases out
      obtain ⟨queue, log, called, rfl⟩ := onQueue_eq moved
      exact .dequeueCall looping free idle called
  | dequeue =>
      obtain ⟨looping, moved⟩ := Option.ite_none_right_eq_some.mp step
      obtain ⟨⟨queue, log⟩, looked, out⟩ := Option.map_eq_some_iff.mp moved
      cases out
      exact .dequeue looping looked
  | execute =>
      obtain ⟨u, moved, out⟩ := Option.map_eq_some_iff.mp step
      cases out
      exact execute_move moved
  | command now =>
      obtain ⟨u, moved, out⟩ := Option.map_eq_some_iff.mp step
      cases out
      obtain ⟨player, log, executed, rfl⟩ := onPlayer_single moved
      exact .command executed
  | responseLeaves =>
      obtain ⟨⟨looping, out⟩, eq⟩ := Option.ite_none_right_eq_some.mp step
      cases eq
      exact .responseLeaves looping out
  | play a =>
      obtain ⟨u, moved, out⟩ := Option.map_eq_some_iff.mp step
      cases out
      exact runPlay_move moved
  | set c =>
      obtain ⟨at_, call, moved⟩ := Option.bind_eq_some_iff.mp step
      obtain ⟨u, block, out⟩ := Option.map_eq_some_iff.mp moved
      cases out
      exact .set call (block_eq block)
  | setHandler at_ =>
      obtain ⟨some_, moved⟩ := Option.ite_none_left_eq_some.mp step
      obtain ⟨u, block, out⟩ := Option.map_eq_some_iff.mp moved
      cases out
      exact .setHandler some_ (block_eq block)
  | main ok => exact runMain_move step
  | interrupt =>
      cases step
      exact .interrupt
  | exit pid =>
      simp only [machine, Option.map_eq_some_iff] at step
      obtain ⟨u, moved, out⟩ := step
      cases out
      obtain ⟨player, log, exited, rfl⟩ := onPlayer_single moved
      exact .exit exited
  | spuriousWakeup =>
      obtain ⟨u, moved, out⟩ := Option.map_eq_some_iff.mp step
      cases out
      obtain ⟨queue, log, woken, rfl⟩ := onQueue_eq moved
      exact .spuriousWakeup woken

end Inversion

end Process

end OdroidPlayer
