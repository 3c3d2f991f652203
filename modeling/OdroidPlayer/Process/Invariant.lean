import OdroidPlayer.Process.Moves

/-!
What holds in every state of the process: the calls of `set_player_running` that are under
way account for every wake-up that is still to come, and the threads are where `main` takes
them to be.
-/

namespace OdroidPlayer

open Transition Transition.System

def Caller.all : List Caller := [.loop .stream, .loop .server, .response, .play, .main]

/-! ### What the other steps of the player and of the queue keep -/

theorem Move.keeps_running {s t : State} {a : Action} {es : List Event} (move : Move s a t es)
    (outside : a.ofPlayer = true → Process.atCall s.play = false) (other : a ≠ .shutdown)
    (other' : a ≠ .shutdownSignal) :
    t.player.running = s.player.running ∧ t.stopping = s.stopping := by
  cases move with
  | command => exact ⟨commandPlayer_running .., rfl⟩
  | endOfPlaylist at_ | stopPlayer at_ =>
      have outside := outside rfl
      rw [at_] at outside
      cases outside
  | shutdown => exact absurd rfl other
  | shutdownSignal => exact absurd rfl other'
  | _ => exact ⟨rfl, rfl⟩

theorem Shutdown.dequeued_keeps (s : Shutdown PlayerNode)
    (looked : Option (Option PlayerNode × Queue PlayerNode)) :
    (s.dequeued .runResponse looked).1.running = s.running ∧
      (s.dequeued .runResponse looked).1.signalling = s.signalling := by
  cases looked <;> exact ⟨rfl, rfl⟩

theorem Shutdown.keeps_running {s t : Shutdown PlayerNode} {a : Shutdown.Action PlayerNode}
    {es : List (Option PlayerNode)} (step : (Shutdown.machine .runResponse).step s a = some (t, es))
    (other : a ≠ .clearFlag) (other' : a ≠ .signalQueue) :
    t.running = s.running ∧ t.signalling = s.signalling := by
  cases a with
  | clearFlag => exact absurd rfl other
  | signalQueue => exact absurd rfl other'
  | flushQueue => cases step
  | call created | spuriousWakeup | enqueue node =>
      simp only [Shutdown.machine] at step
      split at step <;> cases step
      all_goals exact ⟨rfl, rfl⟩
  | dequeue =>
      simp only [Shutdown.machine] at step
      split at step
      · rw [← show _ = t from congrArg Prod.fst (Option.some.inj step)]
        exact dequeued_keeps ..
      · rw [← show _ = t from congrArg Prod.fst (Option.some.inj step)]
        exact dequeued_keeps ..
      · cases step

/-- Nobody waits for a node that is there, and the flag of the queue follows that of the player. -/
structure Shutdown.Follows (s : Shutdown PlayerNode) : Prop where
  waits : s.consumer = .dequeue .waiting → s.queue.nodes = []
  off : s.running = false → s.queue.running = true → 0 < s.signalling

theorem Shutdown.signalled_awake (s : Shutdown PlayerNode) (queue : Queue PlayerNode) :
    (s.signalled queue).consumer ≠ .dequeue .waiting := by
  cases at_ : s.consumer with
  | dequeue at_' => simpa [signalled, ConsumerAt.signal, at_] using at_'.signal_ne_waiting
  | outside | finished => simp [signalled, ConsumerAt.signal, at_]

theorem Queue.look_running {queue after : Queue PlayerNode} {taken : Option PlayerNode}
    (look : queue.look Queue.dequeue = some (taken, after)) : after.running = queue.running := by
  unfold Queue.look at look
  split at look
  · cases look
  · cases look
    rfl

theorem Queue.lookAgain_running {queue after : Queue PlayerNode} {taken : Option PlayerNode}
    (look : queue.lookAgain Queue.dequeue = some (taken, after)) :
    after.running = queue.running := by
  unfold Queue.lookAgain at look
  split at look
  · exact Queue.look_running look
  · cases look
    rfl

theorem Shutdown.Follows.dequeued {s : Shutdown PlayerNode} (follows : s.Follows)
    {looked : Option (Option PlayerNode × Queue PlayerNode)}
    (empty : looked = none → s.queue.nodes = [])
    (running : ∀ taken queue, looked = some (taken, queue) → queue.running = s.queue.running) :
    (s.dequeued .runResponse looked).1.Follows := by
  cases looked with
  | none => exact ⟨fun _ => empty rfl, follows.off⟩
  | some out =>
      refine ⟨fun waits => absurd waits (got_ne_waiting .runResponse out.1), fun off on => ?_⟩
      exact follows.off off (running out.1 out.2 rfl ▸ on)

theorem Shutdown.Follows.keep {s t : Shutdown PlayerNode} {a : Shutdown.Action PlayerNode}
    {es : List (Option PlayerNode)} (follows : s.Follows)
    (step : (Shutdown.machine .runResponse).step s a = some (t, es)) : t.Follows := by
  cases a with
  | clearFlag =>
      cases step
      exact ⟨follows.waits, fun _ _ => Nat.succ_pos _⟩
  | signalQueue =>
      simp only [Shutdown.machine] at step
      split at step
      · cases step
      · cases step
        exact ⟨fun waits => absurd waits (signalled_awake _ _), fun _ on => by cases on⟩
  | flushQueue => cases step
  | call created =>
      simp only [Shutdown.machine] at step
      split at step
      · cases step
        exact ⟨fun waits => absurd waits (call_ne_waiting .runResponse s.running created),
          follows.off⟩
      · cases step
  | spuriousWakeup =>
      simp only [Shutdown.machine] at step
      split at step
      · cases step
        exact ⟨fun waits => (by cases waits), follows.off⟩
      · cases step
  | enqueue node =>
      simp only [Shutdown.machine] at step
      split at step
      next queue accepted =>
          cases step
          refine ⟨fun waits => absurd waits (signalled_awake _ _), fun off on => ?_⟩
          refine follows.off off ?_
          unfold Queue.enqueue at accepted
          split at accepted
          · cases accepted
          · cases accepted
            exact on
      · cases step
        exact follows
  | dequeue =>
      simp only [Shutdown.machine] at step
      split at step
      · rw [← show _ = t from congrArg Prod.fst (Option.some.inj step)]
        exact follows.dequeued (fun none => Queue.look_eq_none.mp none)
          fun _ _ => Queue.look_running
      · rw [← show _ = t from congrArg Prod.fst (Option.some.inj step)]
        exact follows.dequeued (fun none => (Queue.lookAgain_eq_none.mp none).2)
          fun _ _ => Queue.lookAgain_running
      · cases step

namespace Process

/-- The threads and handlers that are at a block of `set_player_running(player, false)`. -/
def inCall (s : Process) (at_ : SetAt) : Nat :=
  s.handlers at_ + Caller.all.countP fun c => decide (s.call c = some at_)

/-- The calls that have written `running` and have yet to send SIGUSR1 to a loop. -/
def due (s : Process) (l : SelectLoop) : Nat :=
  s.inCall .queue + s.inCall .play + s.inCall (.kill .stream) +
    match l with
    | .stream => 0
    | .server => s.inCall (.kill .server)

section Counting

variable (s : Process)

theorem countP_update (call : Caller → Option SetAt) (c : Caller) (after : Option SetAt)
    (at_ : SetAt) :
    Caller.all.countP (fun c' => decide (Function.update call c after c' = some at_)) +
        (if call c = some at_ then 1 else 0) =
      Caller.all.countP (fun c' => decide (call c' = some at_)) +
        (if after = some at_ then 1 else 0) := by
  rcases c with l | _ | _ | _
  · cases l <;> simp [Caller.all, List.countP_cons, Function.update_apply] <;> omega
  all_goals simp [Caller.all, List.countP_cons, Function.update_apply]; omega

theorem inCall_calls (c : Caller) (after : Option SetAt) (at_ : SetAt) :
    (s.calls c after).inCall at_ + (if s.call c = some at_ then 1 else 0) =
      s.inCall at_ + (if after = some at_ then 1 else 0) := by
  have count := countP_update s.call c after at_
  change s.handlers at_ +
    Caller.all.countP (fun c' => decide (Function.update s.call c after c' = some at_)) + _ = _
  unfold inCall
  omega

theorem inCall_handled {here : SetAt} (some_ : s.handlers here ≠ 0) (at_ : SetAt) :
    (s.handled here).inCall at_ + (if at_ = here then 1 else 0) =
      s.inCall at_ + (if here.next = some at_ then 1 else 0) := by
  have gone : Function.update s.handlers here (s.handlers here - 1) at_ +
      (if at_ = here then 1 else 0) = s.handlers at_ := by
    by_cases same : at_ = here
    · subst same
      simp
      omega
    · simp [same]
  cases next : here.next with
  | none =>
      simp only [inCall, handled, next]
      simp
      omega
  | some after =>
      simp only [inCall, handled, next, Option.some.injEq]
      by_cases same : at_ = after
      · subst same
        simp
        omega
      · simp [same, Ne.symm same]
        omega

end Counting

/-! ### The wake-ups that are still to come -/

/-- SIGUSR1 is pending for a loop that has to end, or a call is on its way to sending it. -/
def Told (s : Process) (l : SelectLoop) : Prop :=
  s.player.player.running = true ∨ s.usr1 l = true ∨ 0 < s.due l

/-- Each block of the calls under way is still to come, and a loop that has seen `running` before
it was cleared will be interrupted. -/
structure Counts (s : Process) : Prop where
  same : s.queue.running = s.player.player.running
  signalling : s.queue.signalling = s.inCall .queue
  stopping : s.player.stopping = s.inCall .queue + s.inCall .play
  told : ∀ l, s.loop l = .pselect ∨ s.loop l = .waiting → s.Told l

section Counts

variable {s t : Process} {a : Action} {es : List Event}

/-- Steps that are no block of a call, and that take a thread at most to its first one. -/
theorem Counts.of_same (counts : Counts s)
    (queue : t.queue.running = s.queue.running ∧ t.queue.signalling = s.queue.signalling)
    (player : t.player.player.running = s.player.player.running ∧
      t.player.stopping = s.player.stopping)
    (calls : ∀ at_, at_ ≠ .flag → t.inCall at_ = s.inCall at_)
    (loops : ∀ l, t.loop l = .pselect ∨ t.loop l = .waiting →
      s.player.player.running = true ∨
        (s.loop l = .pselect ∨ s.loop l = .waiting) ∧ t.usr1 l = s.usr1 l) : Counts t where
  same := by rw [queue.1, player.1, counts.same]
  signalling := by rw [queue.2, counts.signalling, calls .queue (by simp)]
  stopping := by rw [player.2, counts.stopping, calls .queue (by simp), calls .play (by simp)]
  told l at_ := by
    have due : t.due l = s.due l := by
      cases l <;> simp [Process.due, calls]
    rw [Told, player.1, due]
    rcases loops l at_ with on | ⟨before, usr1⟩
    · exact .inl on
    · rw [usr1]
      exact counts.told l before

theorem Block.inCall {at_ : SetAt} (block : Block s at_ t) (at' : SetAt) :
    t.inCall at' = s.inCall at' := by
  cases block <;> rfl

/-- A block is executed and its call goes on to the next one. -/
theorem Counts.blocked (counts : Counts s) {at_ : SetAt} (block : Block s at_ t) {u : Process}
    (player : u.player.player.running = t.player.player.running ∧
      u.player.stopping = t.player.stopping)
    (queue : u.queue = t.queue) (usr1 : u.usr1 = t.usr1) (loop : u.loop = t.loop)
    (moved : ∀ at', u.inCall at' + (if at' = at_ then 1 else 0) =
      s.inCall at' + (if at_.next = some at' then 1 else 0)) : Counts u := by
  have atQueue := moved .queue
  have atPlay := moved .play
  have atStream := moved (.kill .stream)
  have atServer := moved (.kill .server)
  have signalling := counts.signalling
  have stopping := counts.stopping
  cases block with
  | flag =>
      simp only [reduceCtorEq, if_false, SetAt.next, Option.some.injEq, if_true] at atQueue atPlay
      refine ⟨?_, ?_, ?_, fun l _ => .inr (.inr ?_)⟩
      · rw [player.1, queue]
      · simp only [queue]
        omega
      · simp only [player.2]
        omega
      · unfold due
        omega
  | queue some_ =>
      simp only [reduceCtorEq, if_false, SetAt.next, Option.some.injEq, if_true]
        at atQueue atPlay atStream atServer
      refine ⟨?_, ?_, ?_, fun l at_ => ?_⟩
      · rw [player.1, queue]
        exact counts.same
      · simp only [queue, Shutdown.signalled]
        omega
      · simp only [player.2]
        omega
      · rw [Told, player.1, usr1]
        rw [loop] at at_
        refine (counts.told l at_).imp_right (Or.imp_right fun due => ?_)
        cases l <;> simp only [Process.due] at due ⊢ <;> omega
  | play waiting free =>
      simp only [reduceCtorEq, if_false, SetAt.next, Option.some.injEq, if_true]
        at atQueue atPlay atStream atServer
      refine ⟨?_, ?_, ?_, fun l at_ => ?_⟩
      · rw [player.1, queue]
        exact counts.same
      · simp only [queue]
        omega
      · simp only [player.2]
        omega
      · rw [Told, player.1, usr1]
        rw [loop] at at_
        refine (counts.told l at_).imp_right (Or.imp_right fun due => ?_)
        cases l <;> simp only [Process.due] at due ⊢ <;> omega
  | @unborn l' unborn =>
      refine ⟨?_, ?_, ?_, fun l at_ => ?_⟩
      · rw [player.1, queue]
        exact counts.same
      · simp only [queue]
        cases l' <;> simp [SetAt.next] at atQueue <;> omega
      · simp only [player.2]
        cases l' <;> simp [SetAt.next] at atQueue atPlay <;> omega
      · rw [Told, player.1, usr1]
        rw [loop] at at_
        have other : l ≠ l' := by
          rintro rfl
          simp [unborn] at at_
        refine (counts.told l at_).imp_right (Or.imp_right fun due => ?_)
        cases l <;> cases l' <;> simp [SetAt.next] at other atQueue atPlay atStream atServer <;>
          simp only [Process.due] at due ⊢ <;> omega
  | @kill l' born =>
      refine ⟨?_, ?_, ?_, fun l at_ => ?_⟩
      · rw [player.1, queue]
        exact counts.same
      · simp only [queue]
        cases l' <;> simp [SetAt.next] at atQueue <;> omega
      · simp only [player.2]
        cases l' <;> simp [SetAt.next] at atQueue atPlay <;> omega
      · rw [Told, player.1, usr1]
        rw [loop] at at_
        by_cases same : l = l'
        · exact .inr (.inl (by simp [same]))
        · simp only [Function.update_of_ne same]
          refine (counts.told l at_).imp_right (Or.imp_right fun due => ?_)
          cases l <;> cases l' <;> simp [SetAt.next] at same atQueue atPlay atStream atServer <;>
            simp only [Process.due] at due ⊢ <;> omega

end Counts

/-! ### Where the threads are -/

end Process

/-- How many of the calls of `pthread_create` are behind `main`. -/
def MainAt.created : MainAt → Nat
  | .createStream => 0
  | .createServer => 1
  | .createResponse => 2
  | .createWatchdog => 3
  | .createPlay => 4
  | _ => 5

namespace Process

/-- Which threads exist. -/
structure Born (s : Process) : Prop where
  stream : s.main.created = 0 → s.loop .stream = .unborn
  server : s.main.created ≤ 1 → s.loop .server = .unborn
  response : s.main.created ≤ 2 → s.response = .unborn
  play : s.main.created ≤ 4 → s.playing = false
  all : s.playing = true ∨ s.main.created ≤ 4 →
    (1 ≤ s.main.created → s.loop .stream ≠ .unborn) ∧
      (2 ≤ s.main.created → s.loop .server ≠ .unborn) ∧
        (3 ≤ s.main.created → s.response ≠ .unborn)
  joins : s.main.joins ≠ none ∨ s.main = .joinPlay → s.playing = true

/-- A thread calls `set_player_running(player, false)` behind its loop, and `main` in
`clear_player`. -/
structure Placed (s : Process) : Prop where
  loop : ∀ l, s.call (.loop l) ≠ none → s.loop l = .left
  response : s.call .response ≠ none → s.response = .left
  play : s.call .play ≠ none → s.player.play.Halted
  main : s.call .main ≠ none → s.main = .clear

section Placed

variable {s t : Process} {a : Action} {es : List Event}

theorem Block.frame {at_ : SetAt} (block : Block s at_ t) :
    t.call = s.call ∧ t.loop = s.loop ∧ t.response = s.response ∧ t.main = s.main ∧
      t.executing = s.executing ∧ t.playing = s.playing ∧ t.handlers = s.handlers := by
  cases block <;> exact ⟨rfl, rfl, rfl, rfl, rfl, rfl, rfl⟩

/-- Steps that create no thread. -/
theorem Born.of_same (born : Born s) (main : t.main = s.main)
    (loop : ∀ l, t.loop l = .unborn ↔ s.loop l = .unborn)
    (response : t.response = .unborn ↔ s.response = .unborn) (playing : t.playing = s.playing) :
    Born t where
  stream at_ := (loop .stream).mpr (born.stream (main ▸ at_))
  server at_ := (loop .server).mpr (born.server (main ▸ at_))
  response at_ := response.mpr (born.response (main ▸ at_))
  play at_ := playing ▸ born.play (main ▸ at_)
  all some_ := by
    rw [main, playing] at some_
    rw [main, Ne, loop, Ne, loop, Ne, response]
    exact born.all some_
  joins at_ := playing ▸ born.joins (main ▸ at_)

/-- Steps of one loop. -/
theorem Born.of_loop (born : Born s) {l : SelectLoop} {at_ : LoopAt} (before : s.loop l ≠ .unborn)
    (after : at_ ≠ .unborn) (main : t.main = s.main)
    (loop : t.loop = Function.update s.loop l at_) (response : t.response = s.response)
    (playing : t.playing = s.playing) : Born t := by
  refine born.of_same main (fun l' => ?_) (by rw [response]) playing
  rw [loop]
  by_cases here : l' = l
  · subst here
    simp [before, after]
  · simp [here]

theorem Born.keep (born : Born s) (move : Move s a t es) : Born t := by
  cases move with
  | loop next =>
      exact born.of_loop (LoopAt.next_inside next).2 (LoopAt.next_born next) rfl rfl rfl rfl
  | wakeUp at_ | ready at_ | receive at_ | send at_ =>
      exact born.of_loop (by simp [at_]) (by simp) rfl rfl rfl rfl
  | responseLeaves looping =>
      exact born.of_same rfl (fun _ => Iff.rfl) (by simp [calls, looping]) rfl
  | set call block | setHandler some_ block =>
      obtain ⟨-, loop, response, main, -, playing, -⟩ := block.frame
      exact born.of_same main (fun l => by simp [calls, handled, loop])
        (by simp [calls, handled, response]) playing
  | createStream at_ =>
      have server := born.server (by rw [at_]; decide)
      have response := born.response (by rw [at_]; decide)
      have play := born.play (by rw [at_]; decide)
      constructor <;> simp [at', MainAt.created, MainAt.joins, server, response, play]
  | createServer at_ =>
      have stream := (born.all (.inr (by rw [at_]; decide))).1 (by rw [at_]; decide)
      have response := born.response (by rw [at_]; decide)
      have play := born.play (by rw [at_]; decide)
      constructor <;> simp [at', MainAt.created, MainAt.joins, stream, response, play]
  | createResponse at_ =>
      obtain ⟨stream, server, -⟩ := born.all (.inr (by rw [at_]; decide))
      have play := born.play (by rw [at_]; decide)
      simp [at_, MainAt.created] at stream server
      constructor <;> simp [MainAt.created, MainAt.joins, stream, server, play]
  | createWatchdog at_ =>
      obtain ⟨stream, server, response⟩ := born.all (.inr (by rw [at_]; decide))
      have play := born.play (by rw [at_]; decide)
      simp [at_, MainAt.created] at stream server response
      constructor <;> simp [MainAt.created, MainAt.joins, stream, server, response, play]
  | createPlay at_ =>
      obtain ⟨stream, server, response⟩ := born.all (.inr (by rw [at_]; decide))
      simp [at_, MainAt.created] at stream server response
      constructor <;> simp [MainAt.created, MainAt.joins, stream, server, response]
  | createFailed at_ =>
      have play := born.play (by cases here : s.main <;> simp_all [MainAt.creates, MainAt.created])
      constructor <;> simp [calls, MainAt.created, MainAt.joins, play]
  | @join c next ok at_ =>
      have play := born.joins (.inl (by simp [at_]))
      have later : s.main.created = 5 ∧ next.created = 5 := by
        cases here : s.main <;> simp_all [MainAt.joins, MainAt.created]
        all_goals obtain ⟨-, rfl⟩ := at_; rfl
      have all := born.all (.inl play)
      rw [later.1] at all
      constructor <;> simp [later, all, play]
  | joinPlay at_ =>
      have play := born.joins (.inr at_)
      have all := born.all (.inl play)
      simp [at_, MainAt.created] at all
      constructor <;> simp [calls, MainAt.created, MainAt.joins, play, all]
  | clear at_ | clearChild at_ | joinAgain at_ | free at_ =>
      have all := fun play : s.playing = true => born.all (.inl play)
      simp [at_, MainAt.created] at all
      exact ⟨by simp [MainAt.created], by simp [MainAt.created], by simp [MainAt.created],
        by simp [MainAt.created], by simpa [MainAt.created] using all, by simp [MainAt.joins]⟩
  | dequeueCall | dequeue | executeOther | execute | command | play | playCalls | interrupt
  | exit | spuriousWakeup =>
      exact born.of_same rfl (fun _ => Iff.rfl) Iff.rfl rfl

/-- A loop that has not ended is in no call. -/
theorem Placed.outside (placed : Placed s) {l : SelectLoop} (inside : s.loop l ≠ .left) :
    s.call (.loop l) = none := by
  by_contra calls
  exact inside (placed.loop l calls)

/-- Steps of one loop. -/
theorem Placed.of_loop (placed : Placed s) {l : SelectLoop} {at_ : LoopAt}
    (inside : s.loop l ≠ .left) (loop : t.loop = Function.update s.loop l at_)
    (call : t.call =
      if at_ = .left then Function.update s.call (.loop l) (some .flag) else s.call)
    (response : t.response = s.response) (player : t.player = s.player) (main : t.main = s.main) :
    Placed t := by
  have same : ∀ c, c ≠ .loop l → t.call c = s.call c := fun c other => by
    rw [call]
    split
    · exact Function.update_of_ne other _ _
    · rfl
  refine ⟨fun l' calls => ?_, fun calls => ?_, fun calls => ?_, fun calls => ?_⟩
  · rw [loop]
    by_cases here : l' = l
    · subst here
      rw [call] at calls
      split at calls
      next left => simpa using left
      next => exact absurd (placed.outside inside) calls
    · rw [Function.update_of_ne here]
      exact placed.loop l' (by rwa [← same (.loop l') (by simp [here])])
  · rw [response]
    exact placed.response (by rwa [← same .response (by simp)])
  · rw [player]
    exact placed.play (by rwa [← same .play (by simp)])
  · rw [main]
    exact placed.main (by rwa [← same .main (by simp)])

/-- Steps in which no thread enters a call and none leaves its place. -/
theorem Placed.of_same (placed : Placed s) (call : ∀ c, t.call c ≠ none → s.call c ≠ none)
    (loop : ∀ l, s.loop l = .left → t.loop l = .left)
    (response : s.response = .left → t.response = .left)
    (play : s.call .play ≠ none → s.player.play.Halted → t.player.play.Halted)
    (main : s.call .main ≠ none → s.main = .clear → t.main = .clear) : Placed t where
  loop l calls := loop l (placed.loop l (call _ calls))
  response calls := response (placed.response (call _ calls))
  play calls := play (call _ calls) (placed.play (call _ calls))
  main calls := main (call _ calls) (placed.main (call _ calls))

theorem Block.halted {at_ : SetAt} (block : Block s at_ t) (halted : s.player.play.Halted) :
    t.player.play.Halted := by
  cases block with
  | play => exact (PlayAt.signalled_halted _).mpr halted
  | _ => exact halted

theorem Placed.keep (placed : Placed s) (born : Born s) (move : Move s a t es) : Placed t := by
  have others {b : OdroidPlayer.Action} {player : State} {log : List OdroidPlayer.Event}
      (step : OdroidPlayer.step s.player b = some (player, log)) (other : b.ofPlayer = false)
      (halted : s.player.play.Halted) : player.play.Halted := by
    rcases ((OdroidPlayer.step_move step).untouched other).play with eq | eq
    · rwa [eq]
    · rwa [eq, PlayAt.signalled_halted]
  cases move with
  | loop next => exact placed.of_loop (LoopAt.next_inside next).1 rfl rfl rfl rfl rfl
  | wakeUp at_ | ready at_ | receive at_ | send at_ =>
      exact placed.of_loop (by simp [at_]) rfl (by simp [at']) rfl rfl rfl
  | responseLeaves looping =>
      exact ⟨fun l => by simpa [calls] using placed.loop l, fun _ => rfl,
        by simpa [calls] using placed.play, by simpa [calls] using placed.main⟩
  | playCalls born outside at_ =>
      refine ⟨fun l => by simpa [calls] using placed.loop l,
        by simpa [calls] using placed.response, fun _ => ?_, by simpa [calls] using placed.main⟩
      rcases at_ with ⟨-, rfl⟩ | ⟨-, rfl⟩
      · exact .inl rfl
      · exact .inr rfl
  | @set c at_ t inside block =>
      obtain ⟨call, loop, response, main, -⟩ := block.frame
      refine placed.of_same (fun c' => ?_) (fun l => by simp [calls, loop])
        (by simp [calls, response]) (fun _ => block.halted) (by simp [calls, main])
      by_cases here : c' = c
      · simp [here, inside]
      · simp [calls, here, call]
  | setHandler some_ block =>
      obtain ⟨call, loop, response, main, -⟩ := block.frame
      exact placed.of_same (by simp [handled, call]) (by simp [handled, loop])
        (by simp [handled, response]) (fun _ => block.halted) (by simp [handled, main])
  | createStream at_ =>
      have stream := born.stream (by rw [at_]; rfl)
      refine placed.of_same (fun _ => id) (fun l left => ?_) id (fun _ => id) fun _ clear => ?_
      · cases l with
        | stream => simp [stream] at left
        | server => simpa [at'] using left
      · simp [at_] at clear
  | createServer at_ =>
      have server := born.server (by rw [at_]; decide)
      refine placed.of_same (fun _ => id) (fun l left => ?_) id (fun _ => id) fun _ clear => ?_
      · cases l with
        | stream => simpa [at'] using left
        | server => simp [server] at left
      · simp [at_] at clear
  | createResponse at_ =>
      have response := born.response (by rw [at_]; decide)
      exact placed.of_same (fun _ => id) (fun _ => id) (by simp [response]) (fun _ => id)
        fun _ clear => by simp [at_] at clear
  | createFailed at_ | joinPlay at_ =>
      exact ⟨fun l => by simpa [calls] using placed.loop l,
        by simpa [calls] using placed.response, by simpa [calls] using placed.play, fun _ => rfl⟩
  | clear at_ outside =>
      exact placed.of_same (fun _ => id) (fun _ => id) id (fun _ => id)
        fun calls => absurd outside calls
  | join at_ =>
      exact placed.of_same (fun _ => id) (fun _ => id) id (fun _ => id)
        fun _ clear => by simp [clear, MainAt.joins] at at_
  | clearChild at_ =>
      exact placed.of_same (fun _ => id) (fun _ => id) id
        (fun _ halted => (PlayAt.signalled_halted _).mpr halted) fun _ clear => by simp [at_] at clear
  | createWatchdog at_ | createPlay at_ | joinAgain at_ | free at_ =>
      exact placed.of_same (fun _ => id) (fun _ => id) id (fun _ => id)
        fun _ clear => by simp [at_] at clear
  | execute _ step | command step | exit step =>
      exact placed.of_same (fun _ => id) (fun _ => id) id (fun _ => others step rfl) fun _ => id
  | play born outside =>
      exact placed.of_same (fun _ => id) (fun _ => id) id (fun calls => absurd outside calls)
        fun _ => id
  | dequeueCall | dequeue | executeOther | interrupt | spuriousWakeup =>
      exact placed.of_same (fun _ => id) (fun _ => id) id (fun _ => id) fun _ => id

/-- A thread at its first block. -/
theorem inCall_flagged (s : Process) {c : Caller} (outside : s.call c = none) {at_ : SetAt}
    (other : at_ ≠ .flag) : (s.calls c (some .flag)).inCall at_ = s.inCall at_ := by
  have count := s.inCall_calls c (some .flag) at_
  simpa [outside, Ne.symm other] using count

theorem clearPlayer_running (player : Player) :
    (clearPlayer player).1.running = player.running := by
  unfold clearPlayer
  split
  · split <;> rfl
  · rfl

theorem Counts.of_loop (counts : Counts s) {l : SelectLoop} {at_ : LoopAt}
    (queue : t.queue.running = s.queue.running ∧ t.queue.signalling = s.queue.signalling)
    (player : t.player = s.player) (loop : t.loop = Function.update s.loop l at_)
    (usr1 : ∀ l', l' ≠ l → t.usr1 l' = s.usr1 l')
    (calls : ∀ at_, at_ ≠ .flag → t.inCall at_ = s.inCall at_)
    (asked : at_ = .pselect ∨ at_ = .waiting →
      s.player.player.running = true ∨ s.loop l = .pselect ∧ t.usr1 l = s.usr1 l) : Counts t := by
  refine counts.of_same queue (by simp [player]) calls fun l' at_' => ?_
  rw [loop] at at_'
  by_cases here : l' = l
  · subst here
    exact (asked (by simpa using at_')).imp_right fun asked => ⟨.inl asked.1, asked.2⟩
  · exact .inr ⟨by simpa [here] using at_', usr1 l' here⟩

theorem Counts.keep (counts : Counts s) (placed : Placed s) (move : Move s a t es) :
    Counts t := by
  cases move with
  | @loop l ok at_ next =>
      refine counts.of_loop ⟨rfl, rfl⟩ rfl rfl (fun _ _ => rfl) (fun k other => ?_) fun asked =>
        (LoopAt.next_asked next asked).imp_right fun at_ => ⟨at_, rfl⟩
      by_cases left : at_ = .left
      · subst left
        exact s.inCall_flagged (placed.outside (LoopAt.next_inside next).1) other
      · simp [inCall, loopMoved, left, at']
  | wakeUp at_ | ready at_ | send at_ =>
      exact counts.of_loop ⟨rfl, rfl⟩ rfl rfl (fun l' other => by simp [at', other])
        (fun _ _ => rfl) (by simp)
  | receive at_ step =>
      exact counts.of_loop (Shutdown.keeps_running step (by simp) (by simp)) rfl rfl
        (fun _ _ => rfl) (fun _ _ => rfl) (by simp)
  | dequeueCall _ _ _ step | dequeue _ step | spuriousWakeup step =>
      exact counts.of_same (Shutdown.keeps_running step (by simp) (by simp)) ⟨rfl, rfl⟩
        (fun _ _ => rfl) fun _ at_ => .inr ⟨at_, rfl⟩
  | execute _ step | command step | exit step =>
      exact counts.of_same ⟨rfl, rfl⟩
        ((OdroidPlayer.step_move step).keeps_running (by simp [OdroidPlayer.Action.ofPlayer])
          (by simp) (by simp))
        (fun _ _ => rfl) fun _ at_ => .inr ⟨at_, rfl⟩
  | @play a _ _ _ _ own at_ step =>
      refine counts.of_same ⟨rfl, rfl⟩ ((OdroidPlayer.step_move step).keeps_running (fun _ => at_)
        ?_ ?_) (fun _ _ => rfl) fun _ at_ => .inr ⟨at_, rfl⟩
      · rintro rfl
        cases own
      · rintro rfl
        cases own
  | responseLeaves looping =>
      have outside : s.call .response = none := by
        by_contra calls
        simp [placed.response calls] at looping
      exact counts.of_same ⟨rfl, rfl⟩ ⟨rfl, rfl⟩ (fun _ other => s.inCall_flagged outside other)
        fun _ at_ => .inr ⟨at_, rfl⟩
  | playCalls born outside at_ =>
      -- the thread enters the call and executes its first block
      have entered : Counts (s.calls .play (some .flag)) :=
        counts.of_same ⟨rfl, rfl⟩ ⟨rfl, rfl⟩ (fun _ other => s.inCall_flagged outside other)
          fun _ at_ => .inr ⟨at_, rfl⟩
      refine entered.blocked .flag ⟨rfl, rfl⟩ rfl rfl rfl fun k => ?_
      have count := (s.calls .play (some .flag)).inCall_calls .play (some .queue) k
      simpa [inCall, Process.calls, SetAt.next, eq_comm] using count
  | @set c at_ t inside block =>
      refine counts.blocked block ⟨rfl, rfl⟩ rfl rfl rfl fun k => ?_
      have count := t.inCall_calls c at_.next k
      rw [block.frame.1, inside, block.inCall k] at count
      simpa [eq_comm] using count
  | @setHandler at_ t some_ block =>
      refine counts.blocked block ⟨rfl, rfl⟩ rfl rfl rfl fun k => ?_
      have count := t.inCall_handled (by rwa [block.frame.2.2.2.2.2.2]) k
      rw [block.inCall k] at count
      exact count
  | createFailed at_ =>
      have outside : s.call .main = none := by
        by_contra calls
        simp [placed.main calls, MainAt.creates] at at_
      exact counts.of_same ⟨rfl, rfl⟩ ⟨rfl, rfl⟩ (fun _ other => s.inCall_flagged outside other)
        fun _ at_ => .inr ⟨at_, rfl⟩
  | joinPlay at_ =>
      have outside : s.call .main = none := by
        by_contra calls
        simp [placed.main calls] at at_
      exact counts.of_same ⟨rfl, rfl⟩ ⟨rfl, rfl⟩ (fun _ other => s.inCall_flagged outside other)
        fun _ at_ => .inr ⟨at_, rfl⟩
  | createStream at_ | createServer at_ =>
      exact counts.of_loop ⟨rfl, rfl⟩ rfl rfl (fun _ _ => rfl) (fun _ _ => rfl) (by simp)
  | clearChild at_ =>
      exact counts.of_same ⟨rfl, rfl⟩ ⟨clearPlayer_running _, rfl⟩ (fun _ _ => rfl)
        fun _ at_ => .inr ⟨at_, rfl⟩
  | interrupt =>
      exact counts.of_same ⟨rfl, rfl⟩ ⟨rfl, rfl⟩ (fun k other => by simp [inCall, other])
        fun _ at_ => .inr ⟨at_, rfl⟩
  | executeOther | createResponse | createWatchdog | createPlay | join | clear | joinAgain
  | free =>
      exact counts.of_same ⟨rfl, rfl⟩ ⟨rfl, rfl⟩ (fun _ _ => rfl) fun _ at_ => .inr ⟨at_, rfl⟩

/-- The threads that `wait_player` has joined, where it has been called. -/
def past : MainAt → Caller → Bool
  | .joinServer, .loop .stream => true
  | .joinResponse, .loop _ => true
  | .joinPlay, .loop _ => true
  | .joinPlay, .response => true
  | .clear, c | .clearChild, c | .joinAgain, c | .free, c | .freed, c => decide (c ≠ .main)
  | _, _ => false

/-- The player and the queue are in states of their own machines, and `main` has joined what it
is behind. -/
structure Inv (s : Process) : Prop where
  counts : Counts s
  placed : Placed s
  born : Born s
  follows : s.queue.Follows
  player : OdroidPlayer.Reachable s.player
  fresh : s.playing = false → s.player.play = .loopTest
  joined : ∀ c, s.playing = true → past s.main c = true → s.Finished c

/-- What a thread that has returned rests on. -/
structure Stays (s t : Process) : Prop where
  loop : ∀ l, s.loop l = .left → t.loop l = .left
  response : s.response = .left → t.response = .left
  playing : s.playing = true → t.playing = true
  play : s.player.play = .finished → t.player.play = .finished
  call : ∀ c, c ≠ .main → s.Finished c → t.call c = none

theorem Finished.outside {c : Caller} (finished : s.Finished c) (other : c ≠ .main) :
    s.call c = none := by
  cases c with
  | loop l => exact finished.2
  | response => exact finished.2
  | play => exact finished.2.2
  | main => exact absurd rfl other

theorem Stays.finished (stays : Stays s t) {c : Caller} (other : c ≠ .main)
    (finished : s.Finished c) : t.Finished c := by
  have outside := stays.call c other finished
  cases c with
  | loop l => exact ⟨stays.loop l finished.1, outside⟩
  | response => exact ⟨stays.response finished.1, outside⟩
  | play => exact ⟨stays.playing finished.1, stays.play finished.2.1, outside⟩
  | main => exact absurd rfl other

/-- Steps of one loop. -/
theorem Stays.of_loop {l : SelectLoop} {at_ : LoopAt} (inside : s.loop l ≠ .left)
    (loop : t.loop = Function.update s.loop l at_)
    (call : ∀ c, c ≠ .loop l → t.call c = s.call c) (response : t.response = s.response)
    (playing : t.playing = s.playing) (player : t.player = s.player) : Stays s t where
  loop l' left := by
    rw [loop, Function.update_of_ne (by rintro rfl; exact inside left), left]
  response left := response ▸ left
  playing on := playing ▸ on
  play at_ := by rw [player, at_]
  call c other finished := by
    rw [call c (by rintro rfl; exact inside finished.1), finished.outside other]

/-- Steps that touch neither the loops nor the calls. -/
theorem Stays.of_same (loop : t.loop = s.loop) (response : t.response = s.response)
    (playing : s.playing = true → t.playing = true) (call : t.call = s.call)
    (play : s.player.play = .finished → t.player.play = .finished) : Stays s t where
  loop _ left := loop ▸ left
  response left := response ▸ left
  playing := playing
  play := play
  call _ other finished := call ▸ finished.outside other

theorem Block.play_finished {at_ : SetAt} (block : Block s at_ t)
    (finished : s.player.play = .finished) : t.player.play = .finished := by
  cases block with
  | play => simp [finished, PlayAt.signalled]
  | _ => exact finished

theorem Inv.stays (inv : Inv s) (move : Move s a t es) : Stays s t := by
  have stepped {b : OdroidPlayer.Action} {player : State} {log : List OdroidPlayer.Event}
      (step : OdroidPlayer.step s.player b = some (player, log))
      (at_ : s.player.play = .finished) : player.play = .finished :=
    ((OdroidPlayer.step_move step).finished inv.player.inv at_).1
  cases move with
  | loop next =>
      refine .of_loop (LoopAt.next_inside next).1 rfl (fun c other => ?_) rfl rfl rfl
      simp only [loopMoved]
      split
      · exact Function.update_of_ne other _ _
      · rfl
  | wakeUp at_ | ready at_ | receive at_ | send at_ =>
      exact .of_loop (by simp [at_]) rfl (fun _ _ => rfl) rfl rfl rfl
  | execute _ step | command step | exit step | play _ _ _ _ step =>
      exact .of_same rfl rfl id rfl (stepped step)
  | responseLeaves looping =>
      refine ⟨fun _ => id, fun _ => rfl, id, id, fun c other finished => ?_⟩
      have here : c ≠ .response := by
        rintro rfl
        simp [finished.1] at looping
      simpa [calls, here] using finished.outside other
  | playCalls born outside at_ =>
      refine ⟨fun _ => id, id, id, fun finished => ?_, fun c other finished => ?_⟩
      · simp [finished] at at_
      · have here : c ≠ .play := by
          rintro rfl
          simp [finished.2.1] at at_
        simpa [calls, here] using finished.outside other
  | @set c at_ t inside block =>
      obtain ⟨call, loop, response, -, -, playing, -⟩ := block.frame
      refine ⟨fun l left => ?_, fun left => ?_, fun on => ?_, block.play_finished,
        fun c' other finished => ?_⟩
      · simpa [calls, loop] using left
      · simpa [calls, response] using left
      · simpa [calls, playing] using on
      · have outside := finished.outside other
        have here : c' ≠ c := by
          rintro rfl
          simp [outside] at inside
        simpa [calls, here, call] using outside
  | setHandler some_ block =>
      obtain ⟨call, loop, response, -, -, playing, -⟩ := block.frame
      exact .of_same loop response (fun on => playing ▸ on) call block.play_finished
  | createStream at_ =>
      exact .of_loop (by simp [inv.born.stream (by rw [at_]; rfl)]) rfl (fun _ _ => rfl) rfl rfl rfl
  | createServer at_ =>
      exact .of_loop (by simp [inv.born.server (by rw [at_]; decide)]) rfl (fun _ _ => rfl) rfl rfl
        rfl
  | createResponse at_ =>
      have response := inv.born.response (by rw [at_]; decide)
      exact ⟨fun _ => id, by simp [response], id, id, fun _ other finished => finished.outside other⟩
  | createFailed | joinPlay =>
      refine ⟨fun _ => id, id, id, id, fun c other finished => ?_⟩
      simpa [calls, other] using finished.outside other
  | clearChild =>
      exact .of_same rfl rfl id rfl fun finished => by simp [finished, PlayAt.signalled]
  | createPlay => exact .of_same rfl rfl (fun _ => rfl) rfl id
  | dequeueCall | dequeue | executeOther | createWatchdog | join | clear | joinAgain | free
  | interrupt | spuriousWakeup => exact .of_same rfl rfl id rfl id

/-- `clear_player` finds no child: the player thread has been joined, or it has never run. -/
theorem Inv.cleared (inv : Inv s) (at_ : s.main = .clearChild) :
    { s.player with
      player := (clearPlayer s.player.player).1
      children := (clearPlayer s.player.player).2.foldl
        (kill s.player.player.childPid) s.player.children
      play := s.player.play.signalled } = s.player := by
  have rests : s.player.play = .finished ∨ s.player.play = .loopTest := by
    cases playing : s.playing with
    | false => exact .inr (inv.fresh playing)
    | true => exact .inl (inv.joined .play playing (by rw [at_]; rfl)).2.1
  have unrecorded : s.player.player.childPid = 0 := by
    rw [inv.player.inv.recorded]
    rcases rests with here | here <;> rw [here] <;> rfl
  have signalled : s.player.play.signalled = s.player.play := by
    rcases rests with here | here <;> rw [here] <;> rfl
  rw [signalled]
  simp [clearPlayer, unrecorded]

theorem Block.player {at_ : SetAt} (block : Block s at_ t) :
    ∃ log, OdroidPlayer.machine.Runs s.player t.player log := by
  cases block with
  | flag => exact ⟨_, Runs.single (a := OdroidPlayer.Action.shutdown) rfl⟩
  | play waiting free => exact ⟨_, (OdroidPlayer.Move.shutdownSignal waiting free).runs⟩
  | queue | unborn | kill => exact ⟨_, Runs.refl _⟩

/-- The player in the process is the one of `machine`. -/
theorem Inv.plays (inv : Inv s) (move : Move s a t es) :
    ∃ log, OdroidPlayer.machine.Runs s.player t.player log := by
  cases move with
  | execute _ step | command step | exit step | play _ _ _ _ step =>
      exact ⟨_, (OdroidPlayer.step_move step).runs⟩
  | playCalls born outside at_ =>
      let u : State := { s.player with
        player.running := false, stopping := s.player.stopping + 1 }
      have flagged : OdroidPlayer.machine.Runs s.player u [] :=
        Runs.single (a := OdroidPlayer.Action.shutdown) rfl
      rcases at_ with ⟨at_, rfl⟩ | ⟨at_, rfl⟩
      · exact ⟨_, flagged.trans (OdroidPlayer.Move.endOfPlaylist (s := u) at_).runs⟩
      · exact ⟨_, flagged.trans (OdroidPlayer.Move.stopPlayer (s := u) at_).runs⟩
  | set inside block => exact block.player
  | setHandler some_ block => exact block.player
  | clearChild at_ =>
      exact ⟨[], [], congrArg (fun player => some (player, [])) (inv.cleared at_).symm⟩
  | _ => exact ⟨_, Runs.refl _⟩

theorem Block.queues {at_ : SetAt} (block : Block s at_ t) :
    ∃ log, (Shutdown.machine .runResponse).Runs s.queue t.queue log := by
  cases block with
  | flag => exact ⟨_, Runs.single (a := Shutdown.Action.clearFlag) rfl⟩
  | queue some_ =>
      refine ⟨[], Runs.single (a := Shutdown.Action.signalQueue) ?_⟩
      simp [Shutdown.machine, some_]
  | play | unborn | kill => exact ⟨_, Runs.refl _⟩

/-- The queue in the process is the one of `Shutdown.machine`. -/
theorem Move.queues (move : Move s a t es) :
    ∃ log, (Shutdown.machine .runResponse).Runs s.queue t.queue log := by
  cases move with
  | receive _ step | dequeueCall _ _ _ step | dequeue _ step | spuriousWakeup step =>
      exact ⟨_, Runs.single step⟩
  | playCalls => exact ⟨_, Runs.single (a := Shutdown.Action.clearFlag) rfl⟩
  | set inside block => exact block.queues
  | setHandler some_ block => exact block.queues
  | _ => exact ⟨_, Runs.refl _⟩

/-- Before the player thread exists nothing moves it. -/
theorem Inv.rests (inv : Inv s) (move : Move s a t es) (unborn : t.playing = false) :
    t.player.play = .loopTest := by
  have signalled (at_ : s.player.play = .loopTest) : s.player.play.signalled = .loopTest := by
    rw [at_]
    rfl
  have others {b : OdroidPlayer.Action} {player : State} {log : List OdroidPlayer.Event}
      (step : OdroidPlayer.step s.player b = some (player, log)) (other : b.ofPlayer = false)
      (at_ : s.player.play = .loopTest) : player.play = .loopTest :=
    (((OdroidPlayer.step_move step).untouched other).play_eq (by simp [at_])).trans at_
  have blocked {at_ : SetAt} {u : Process} (block : Block s at_ u)
      (here : s.player.play = .loopTest) : u.player.play = .loopTest := by
    cases block with
    | play => exact signalled here
    | _ => exact here
  cases move with
  | execute _ step | command step | exit step => exact others step rfl (inv.fresh unborn)
  | play born | playCalls born => exact absurd born (by simpa [calls] using unborn)
  | set inside block | setHandler inside block =>
      have here := blocked block (inv.fresh (block.frame.2.2.2.2.2.1 ▸ unborn))
      exact here
  | createPlay => cases unborn
  | clearChild => exact signalled (inv.fresh unborn)
  | _ => exact inv.fresh unborn

/-- What `main` has joined it has seen to return. -/
theorem Inv.joins (inv : Inv s) (move : Move s a t es) {c : Caller} (playing : t.playing = true)
    (behind : past t.main c = true) :
    s.playing = true ∧ (past s.main c = true ∨ s.Finished c ∧ c ≠ .main) := by
  cases move with
  | createStream at_ | createServer at_ | createResponse at_ | createWatchdog at_ =>
      exact absurd playing (by simp [at', inv.born.play (by rw [at_]; decide)])
  | createPlay at_ => cases behind
  | createFailed at_ =>
      have play := inv.born.play
        (by cases here : s.main <;> simp_all [MainAt.creates, MainAt.created])
      exact absurd playing (by simp [calls, play])
  | @join c' next ok at_ finished =>
      refine ⟨playing, ?_⟩
      by_cases here : c = c'
      · subst here
        exact .inr ⟨finished, by rintro rfl; cases main : s.main <;> simp_all [MainAt.joins]⟩
      · left
        cases main : s.main <;> simp_all [MainAt.joins]
        all_goals
          obtain ⟨rfl, rfl⟩ := at_
          revert behind here
          cases c with
          | loop l => cases l <;> simp [past]
          | _ => simp [past]
  | joinPlay at_ finished =>
      refine ⟨playing, ?_⟩
      by_cases here : c = .play
      · subst here
        exact .inr ⟨finished, by simp⟩
      · left
        rw [at_]
        revert behind here
        cases c <;> simp [past, calls]
  | clear at_ | clearChild at_ | joinAgain at_ | free at_ =>
      exact ⟨playing, .inl (by rw [at_]; exact behind)⟩
  | set inside block | setHandler inside block =>
      obtain ⟨-, -, -, main, -, same, -⟩ := block.frame
      simp only [calls, handled, main, same] at playing behind
      exact ⟨playing, .inl behind⟩
  | _ => exact ⟨playing, .inl behind⟩

theorem Inv.keep (inv : Inv s) (move : Move s a t es) : Inv t := by
  obtain ⟨log, queued⟩ := move.queues
  obtain ⟨log', played⟩ := inv.plays move
  have stays := inv.stays move
  refine ⟨inv.counts.keep inv.placed move, inv.placed.keep inv.born move, inv.born.keep move,
    ?_, ?_, inv.rests move, fun c playing behind => ?_⟩
  · obtain ⟨as, run⟩ := queued
    exact exec_rec (I := fun s _ => s.Follows) (fun _ _ _ _ _ follows => follows.keep) []
      inv.follows run
  · obtain ⟨before, first, init, reached⟩ := inv.player
    exact ⟨_, first, init, reached.trans played⟩
  · obtain ⟨before, joined | ⟨finished, other⟩⟩ := inv.joins move playing behind
    · refine stays.finished ?_ (inv.joined c before joined)
      rintro rfl
      revert joined
      cases s.main <;> simp [past]
    · exact stays.finished other finished

theorem Init.inv (init : Init s) : Inv s := by
  obtain ⟨player, init, rfl⟩ := init
  have at_ : player.play = .loopTest ∧ player.stopping = 0 ∧ player.player.running = true := by
    obtain ⟨isLoop, filelist, prepared, -, rfl⟩ := init
    exact ⟨rfl, rfl, rfl⟩
  refine ⟨⟨at_.2.2.symm, rfl, at_.2.1, fun l at_ => ?_⟩, ⟨fun l calls => absurd rfl calls,
    fun calls => absurd rfl calls, fun calls => absurd rfl calls, fun calls => absurd rfl calls⟩,
    ?_, ⟨?_, ?_⟩, ⟨[], player, init, Runs.refl _⟩, fun _ => at_.1, fun c playing => ?_⟩
  · simp [startOf] at at_
  · constructor <;> simp [startOf, MainAt.created, MainAt.joins]
  · simp [startOf, Shutdown.init]
  · simp [startOf, Shutdown.init]
  · cases playing

theorem Reachable.inv (reach : Reachable s) : Inv s :=
  reach.rec_inv (fun _ => Init.inv) fun _ _ _ _ inv step => inv.keep (step_move step)

end Placed

end Process

end OdroidPlayer
