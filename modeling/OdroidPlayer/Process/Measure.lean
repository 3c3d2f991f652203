import OdroidPlayer.Process.Invariant

/-!
What the threads of the process have left to do once `running` is clear.

Every step of a thread leaves less of it; a signal handler adds the blocks of its call, and a
spurious wake-up one look at the queue.
-/

namespace OdroidPlayer

open Transition Transition.System

/-! ### What is left to do -/

/-- The blocks that are left, counted so that a block is worth more than what it wakes up. -/
def SetAt.toDo : SetAt → Nat
  | .flag => 6
  | .queue => 5
  | .play => 3
  | .kill .stream => 2
  | .kill .server => 1

/-- The statements that a loop has before it at most once `running` is clear. -/
def LoopAt.toDo : LoopAt → Nat
  | .left => 0
  | .loopTest | .woken _ => 7
  | .waiting | .opening => 8
  | .pselect | .unborn => 9
  | .serving slots => 2 * slots + 8

def ConsumerAt.toDo : ConsumerAt → Nat
  | .finished => 7
  | .outside => 8
  | .dequeue .waiting => 10
  | .dequeue .entering | .dequeue .woken => 11

def RespAt.toDo : RespAt → Nat
  | .calling .. => 1
  | .idle | .crashed => 0

def MainAt.toDo : MainAt → Nat
  | .freed => 0
  | .free => 1
  | .joinAgain => 2
  | .clearChild => 3
  | .clear => 4
  | .joinPlay => 11
  | .joinResponse => 12
  | .joinServer => 13
  | .joinStream => 14
  | .createPlay => 15
  | .createWatchdog => 16
  | .createResponse => 17
  | .createServer => 18
  | .createStream => 19

/-- A block is worth more than the block behind it and the response thread that it wakes up. -/
theorem SetAt.toDo_next (at_ : SetAt) :
    at_.next.elim 0 SetAt.toDo + 1 + (if at_ = .queue then 1 else 0) ≤ at_.toDo := by
  rcases at_ with _ | _ | _ | l
  · decide
  · decide
  · decide
  · cases l <;> decide

/-- What is left of a call, by the block that it is at. -/
theorem SetAt.toDo_eq (at_ : Option SetAt) : at_.elim 0 SetAt.toDo =
    6 * (if at_ = some .flag then 1 else 0) + 5 * (if at_ = some .queue then 1 else 0) +
      3 * (if at_ = some .play then 1 else 0) + 2 * (if at_ = some (.kill .stream) then 1 else 0) +
        (if at_ = some (.kill .server) then 1 else 0) := by
  rcases at_ with _ | _ | _ | _ | l
  · rfl
  · rfl
  · rfl
  · rfl
  · cases l <;> rfl

theorem SetAt.toDo_le (at_ : Option SetAt) : at_.elim 0 SetAt.toDo ≤ 6 := by
  rcases at_ with _ | _ | _ | _ | l
  · decide
  · decide
  · decide
  · decide
  · cases l <;> decide

/-- A step of a loop, after which it may have a call to do. -/
theorem LoopAt.toDo_next {l : SelectLoop} {ok : Bool} {at_ after : LoopAt}
    (next : at_.next l false ok = some after) :
    after.toDo + (if after = .left then 6 else 0) + 1 ≤ at_.toDo := by
  cases at_ with
  | serving slots =>
      cases slots with
      | zero =>
          cases next
          decide
      | succ slots =>
          cases next
          simp only [LoopAt.toDo, reduceCtorEq, if_false]
          omega
  | opening | pselect => cases ok <;> cases next <;> decide
  | loopTest | woken interrupted =>
      cases next
      simp [LoopAt.toDo]
  | unborn | waiting | left => cases next

theorem LoopAt.toDo_le {at_ : LoopAt} (left : ∀ slots, at_ = .serving slots → slots ≤ maxClients) :
    at_.toDo ≤ 24 := by
  cases at_ with
  | serving slots =>
      have less := left slots rfl
      simp only [maxClients] at less
      simp only [LoopAt.toDo]
      omega
  | _ => simp [LoopAt.toDo]

theorem ConsumerAt.toDo_signal (at_ : ConsumerAt) : at_.signal.toDo ≤ at_.toDo + 1 := by
  cases at_ with
  | dequeue here => cases here <;> simp [signal, DequeueAt.signal, toDo]
  | outside | finished => simp [signal]

/-- A block of `dequeue`, after which there may be a node to execute. -/
theorem Shutdown.toDo_dequeued (s : Shutdown PlayerNode)
    (looked : Option (Option PlayerNode × Queue PlayerNode)) :
    (s.dequeued .runResponse looked).1.consumer.toDo ≤ 10 ∧
      ((s.dequeued .runResponse looked).1.consumer.toDo ≤ 8 ∨
        (s.dequeued .runResponse looked).2 = []) := by
  rcases looked with _ | ⟨_ | node, queue⟩ <;>
    simp [dequeued, Consumer.got, ConsumerAt.toDo]

/-- What a step of the player leaves to the response thread. -/
theorem Move.toDo_resp {s t : State} {a : Action} {es : List Event} (move : Move s a t es) :
    t.resp.toDo ≤ s.resp.toDo + 1 ∧ ((∃ now, a = .command now) → t.resp.toDo + 1 ≤ s.resp.toDo) ∧
      ((∀ r, a ≠ .request r) → t.resp.toDo ≤ s.resp.toDo) := by
  cases move with
  | @answer r | @crash r => exact ⟨by simp [RespAt.toDo], by simp, fun other => absurd rfl (other r)⟩
  | @call r => exact ⟨by simp [RespAt.toDo], by simp, fun other => absurd rfl (other r)⟩
  | command calling =>
      have idle : RespAt.toDo .idle = 0 := rfl
      have busy : s.resp.toDo = 1 := by rw [calling]; rfl
      simp only [State.commanded, idle, busy]
      exact ⟨by omega, fun _ => by omega, fun _ => by omega⟩
  | _ => exact ⟨Nat.le_succ _, by simp, fun _ => Nat.le_refl _⟩

namespace Process

def callsToDo (s : Process) : Nat :=
  6 * s.inCall .flag + 5 * s.inCall .queue + 3 * s.inCall .play + 2 * s.inCall (.kill .stream) +
    s.inCall (.kill .server)

def responseToDo (s : Process) : Nat :=
  match s.response with
  | .unborn => s.queue.consumer.toDo + 1
  | .looping => s.queue.consumer.toDo
  | .left => 0

def toDo (s : Process) : Nat :=
  s.callsToDo + (s.loop .stream).toDo + (s.loop .server).toDo + s.responseToDo +
    s.executing.elim 0 (fun _ => 2) + s.player.resp.toDo + 7 * s.player.play.left + s.main.toDo

/-- The steps of the threads of the process that bring it on. -/
def Action.advances : Action → Bool
  | .play a => OdroidPlayer.Action.proceeds a
  | .interrupt | .exit _ | .spuriousWakeup => false
  | _ => true

/-- Those that need nothing from outside of the process. -/
def Action.own : Action → Bool
  | .play a => OdroidPlayer.Action.own a
  | .ready .. | .receive _ | .send => false
  | a => a.advances

/-- What makes a thread do more. -/
def Action.disturbs : Action → Bool
  | .interrupt | .spuriousWakeup => true
  | _ => false

section ToDo

variable {s t : Process} {a : Action} {es : List Event}

theorem callsToDo_calls (s : Process) (c : Caller) (after : Option SetAt) :
    (s.calls c after).callsToDo + (s.call c).elim 0 SetAt.toDo =
      s.callsToDo + after.elim 0 SetAt.toDo := by
  have flag := s.inCall_calls c after .flag
  have queue := s.inCall_calls c after .queue
  have play := s.inCall_calls c after .play
  have stream := s.inCall_calls c after (.kill .stream)
  have server := s.inCall_calls c after (.kill .server)
  rw [SetAt.toDo_eq, SetAt.toDo_eq]
  unfold callsToDo
  omega

theorem callsToDo_handled (s : Process) {here : SetAt} (some_ : s.handlers here ≠ 0) :
    (s.handled here).callsToDo + here.toDo = s.callsToDo + here.next.elim 0 SetAt.toDo := by
  have flag := s.inCall_handled some_ .flag
  have queue := s.inCall_handled some_ .queue
  have play := s.inCall_handled some_ .play
  have stream := s.inCall_handled some_ (.kill .stream)
  have server := s.inCall_handled some_ (.kill .server)
  unfold callsToDo
  cases here with
  | flag | queue | play =>
      simp [SetAt.next, SetAt.toDo] at flag queue play stream server ⊢
      omega
  | kill l =>
      cases l <;> simp [SetAt.next, SetAt.toDo] at flag queue play stream server ⊢ <;> omega

/-- A thread that enters the call has its five blocks to do. -/
theorem callsToDo_flagged (s : Process) {c : Caller} (outside : s.call c = none) :
    (s.calls c (some .flag)).callsToDo = s.callsToDo + 6 := by
  simpa [outside, SetAt.toDo] using s.callsToDo_calls c (some .flag)

/-- A handler that is called has its five blocks to do. -/
theorem callsToDo_interrupted (s : Process) :
    ({ s with handlers := Function.update s.handlers .flag (s.handlers .flag + 1) }
      : Process).callsToDo = s.callsToDo + 6 := by
  simp [callsToDo, inCall]
  omega

theorem callsToDo_congr (calls : t.inCall = s.inCall) : t.callsToDo = s.callsToDo := by
  simp [callsToDo, calls]

theorem responseToDo_le {woken : Nat} (response : t.response = s.response)
    (consumer : t.queue.consumer.toDo ≤ s.queue.consumer.toDo + woken) :
    t.responseToDo ≤ s.responseToDo + woken := by
  unfold responseToDo
  rw [response]
  cases s.response with
  | left => simp
  | unborn | looping => simp only; omega

theorem Block.toDo {at_ : SetAt} (block : Block s at_ t) :
    t.responseToDo ≤ s.responseToDo + (if at_ = .queue then 1 else 0) ∧
      t.player.resp = s.player.resp ∧ t.player.play.left ≤ s.player.play.left := by
  cases block with
  | queue some_ =>
      exact ⟨responseToDo_le rfl s.queue.consumer.toDo_signal, rfl, Nat.le_refl _⟩
  | play => exact ⟨Nat.le_refl _, rfl, s.player.play.left_signalled⟩
  | flag | unborn | kill => exact ⟨Nat.le_refl _, rfl, Nat.le_refl _⟩

/-- Steps of one loop. -/
theorem toDo_of_loop {l : SelectLoop} {at_ : LoopAt} (calls woken : Nat)
    (loop : t.loop = Function.update s.loop l at_) (call : t.callsToDo = s.callsToDo + calls)
    (response : t.responseToDo ≤ s.responseToDo + woken) (executing : t.executing = s.executing)
    (player : t.player = s.player) (main : t.main.toDo ≤ s.main.toDo)
    (less : at_.toDo + calls + woken + 1 ≤ (s.loop l).toDo) : t.toDo + 1 ≤ s.toDo := by
  unfold Process.toDo
  rw [loop, call, executing, player]
  cases l <;> simp <;> omega

/-- Steps of the response thread in `dequeue`. -/
theorem toDo_of_queue {queue : Shutdown PlayerNode} {executing : Option PlayerNode}
    (looping : s.response = .looping)
    (less : queue.consumer.toDo + executing.elim 0 (fun _ => 2) + 1 ≤
      s.queue.consumer.toDo + s.executing.elim 0 fun _ => 2) :
    ({ s with queue, executing } : Process).toDo + 1 ≤ s.toDo := by
  have calls : ({ s with queue, executing } : Process).callsToDo = s.callsToDo := rfl
  unfold Process.toDo
  rw [calls]
  simp only [responseToDo, looping]
  omega

/-- Steps of the player. -/
theorem toDo_of_player {player : State} {executing : Option PlayerNode} {less : Nat}
    (step : player.resp.toDo + executing.elim 0 (fun _ => 2) + 7 * player.play.left + less ≤
      s.player.resp.toDo + s.executing.elim 0 (fun _ => 2) + 7 * s.player.play.left) :
    ({ s with player, executing } : Process).toDo + less ≤ s.toDo := by
  have calls : ({ s with player, executing } : Process).callsToDo = s.callsToDo := rfl
  have response : ({ s with player, executing } : Process).responseToDo = s.responseToDo := rfl
  unfold Process.toDo
  rw [calls, response]
  simp only
  omega

/-- Steps of `main` that create no loop. -/
theorem toDo_of_main {main : MainAt} {response : ResponseAt} {playing : Bool}
    (less : ({ s with response } : Process).responseToDo ≤ s.responseToDo)
    (next : main.toDo + 1 ≤ s.main.toDo) :
    ({ s with main, response, playing } : Process).toDo + 1 ≤ s.toDo := by
  have calls : ({ s with main, response, playing } : Process).callsToDo = s.callsToDo := rfl
  have same : ({ s with main, response, playing } : Process).responseToDo =
    ({ s with response } : Process).responseToDo := rfl
  unfold Process.toDo
  rw [calls, same]
  simp only
  omega

/-- `main` enters `clear_player`. -/
theorem toDo_of_clear (outside : s.call .main = none) (before : 11 ≤ s.main.toDo) :
    (({ s with main := .clear } : Process).calls .main (some .flag)).toDo + 1 ≤ s.toDo := by
  have calls := ({ s with main := .clear } : Process).callsToDo_flagged outside
  have same : ({ s with main := .clear } : Process).callsToDo = s.callsToDo := rfl
  have clear : MainAt.toDo .clear = 4 := rfl
  unfold Process.toDo
  rw [calls, same]
  simp only [Process.calls, responseToDo, clear]
  omega

/-- A block of a call. -/
theorem toDo_of_block {at_ : SetAt} (block : Block s at_ t) {u : Process}
    (calls : u.callsToDo + at_.toDo = t.callsToDo + at_.next.elim 0 SetAt.toDo)
    (loop : u.loop = t.loop) (response : u.responseToDo = t.responseToDo)
    (executing : u.executing = t.executing) (player : u.player = t.player)
    (main : u.main = t.main) : u.toDo + 1 ≤ s.toDo := by
  obtain ⟨-, loop', -, main', executing', -⟩ := block.frame
  obtain ⟨woken, resp, left⟩ := block.toDo
  have next := at_.toDo_next
  rw [callsToDo_congr (funext block.inCall)] at calls
  unfold Process.toDo
  rw [loop, loop', response, executing, executing', player, resp, main, main']
  omega

theorem consumer_call {queue after : Shutdown PlayerNode} {es : List (Option PlayerNode)}
    (off : queue.running = false)
    (step : (Shutdown.machine .runResponse).step queue (.call true) = some (after, es)) :
    after.consumer.toDo + 1 ≤ queue.consumer.toDo := by
  simp only [Shutdown.machine] at step
  split at step
  next at_ =>
      cases step
      simp [at_, off, Consumer.call, ConsumerAt.toDo]
  · cases step

theorem consumer_dequeue {queue after : Shutdown PlayerNode} {es : List (Option PlayerNode)}
    (step : (Shutdown.machine .runResponse).step queue .dequeue = some (after, es)) :
    after.consumer.toDo + es.head?.join.elim 0 (fun _ => 2) + 1 ≤ queue.consumer.toDo := by
  have some_ (at_ : queue.consumer.toDo = 11) {looked : Option (Option PlayerNode × Queue PlayerNode)}
      (dequeued : queue.dequeued .runResponse looked = (after, es)) :
      after.consumer.toDo + es.head?.join.elim 0 (fun _ => 2) + 1 ≤ queue.consumer.toDo := by
    obtain ⟨most, few⟩ := Shutdown.toDo_dequeued queue looked
    simp only [dequeued] at most few
    have node : es.head?.join.elim 0 (fun _ => 2) ≤ 2 := by
      cases es.head?.join <;> simp
    rcases few with few | rfl
    · omega
    · simp only [List.head?_nil, Option.join_none, Option.elim_none]
      omega
  simp only [Shutdown.machine] at step
  split at step
  next at_ => exact some_ (by rw [at_]; rfl) (Option.some.inj step)
  next at_ => exact some_ (by rw [at_]; rfl) (Option.some.inj step)
  next => cases step

theorem consumer_enqueue {queue after : Shutdown PlayerNode} {node : PlayerNode}
    {es : List (Option PlayerNode)}
    (step : (Shutdown.machine .runResponse).step queue (.enqueue node) = some (after, es)) :
    after.consumer.toDo ≤ queue.consumer.toDo + 1 := by
  simp only [Shutdown.machine] at step
  split at step
  · cases step
    exact queue.consumer.toDo_signal
  · cases step
    omega

theorem consumer_woken {queue after : Shutdown PlayerNode} {es : List (Option PlayerNode)}
    (step : (Shutdown.machine .runResponse).step queue .spuriousWakeup = some (after, es)) :
    after.consumer.toDo ≤ queue.consumer.toDo + 1 := by
  simp only [Shutdown.machine] at step
  split at step
  next at_ =>
      cases step
      simp [at_, ConsumerAt.toDo]
  · cases step

/-- A step that leaves less to do. -/
theorem le_of_less {b : Bool} {more : Nat} (less : t.toDo + 1 ≤ s.toDo) :
    t.toDo + (if b = true then 1 else 0) ≤ s.toDo + more := by
  split <;> omega

/-- Once `running` is clear, every step of a thread leaves less to do, and SIGINT at most five
blocks more. -/
theorem Move.toDo (move : Move s a t es) (inv : Inv s) (off : s.player.player.running = false) :
    t.toDo + (if a.advances = true then 1 else 0) ≤
      s.toDo + (if a.disturbs = true then 6 else 0) := by
  cases move with
  | @loop l ok at_ next =>
      rw [off] at next
      have less := LoopAt.toDo_next next
      have inside := (LoopAt.next_inside next).1
      refine le_of_less (toDo_of_loop (if at_ = .left then 6 else 0) 0 rfl ?_ (Nat.le_refl _) rfl
        rfl (Nat.le_refl _) less)
      by_cases left : at_ = .left
      · subst left
        exact s.callsToDo_flagged (inv.placed.outside inside)
      · simp only [left, if_false]
        exact callsToDo_congr (by simp [loopMoved, left]; rfl)
  | wakeUp at_ | ready at_ | send at_ =>
      exact le_of_less (toDo_of_loop 0 0 rfl rfl (Nat.le_refl _) rfl rfl (Nat.le_refl _)
        (by rw [at_]; simp only [LoopAt.toDo]; omega))
  | receive at_ step =>
      exact le_of_less (toDo_of_loop 0 1 rfl rfl (responseToDo_le rfl (consumer_enqueue step)) rfl
        rfl (Nat.le_refl _) (by rw [at_]; simp only [LoopAt.toDo]; omega))
  | createStream at_ =>
      have stream := inv.born.stream (by rw [at_]; rfl)
      exact le_of_less (toDo_of_loop 0 0 rfl rfl (Nat.le_refl _) rfl rfl
        (by simp [at_, at', MainAt.toDo]) (by rw [stream]; decide))
  | createServer at_ =>
      have server := inv.born.server (by rw [at_]; decide)
      exact le_of_less (toDo_of_loop 0 0 rfl rfl (Nat.le_refl _) rfl rfl
        (by simp [at_, at', MainAt.toDo]) (by rw [server]; decide))
  | dequeueCall looping _ _ step =>
      have less := consumer_call (inv.counts.same.trans off) step
      exact le_of_less (toDo_of_queue looping (by omega))
  | dequeue looping step =>
      have less := consumer_dequeue step
      exact le_of_less (toDo_of_queue looping (by omega))
  | executeOther node =>
      refine le_of_less (toDo_of_player ?_)
      simp only [node, Option.elim_none, Option.elim_some]
      omega
  | execute node step =>
      have move := OdroidPlayer.step_move step
      have resp := move.toDo_resp
      have left := (move.left off).1
      exact le_of_less (toDo_of_player (by rw [node]; simp at left ⊢; omega))
  | command step =>
      have move := OdroidPlayer.step_move step
      have resp := move.toDo_resp.2.1 ⟨_, rfl⟩
      have left := (move.left off).1
      exact le_of_less (toDo_of_player (by omega))
  | responseLeaves looping out =>
      have outside : s.call .response = none := by
        by_contra calls
        simp [inv.placed.response calls] at looping
      have calls := ({ s with response := .left } : Process).callsToDo_flagged outside
      have same : ({ s with response := .left } : Process).callsToDo = s.callsToDo := rfl
      refine le_of_less ?_
      unfold Process.toDo
      rw [calls, same]
      simp only [Process.calls, responseToDo, looping, out, ConsumerAt.toDo]
      omega
  | @play b player _ born outside own at_ step =>
      have move := OdroidPlayer.step_move step
      have resp := move.toDo_resp.2.2 fun r eq => by
        rw [eq] at own
        cases own
      have left := (move.left off).1
      have less : ({ s with player } : Process).toDo +
          (if OdroidPlayer.Action.proceeds b = true then 1 else 0) ≤ s.toDo := by
        refine toDo_of_player ?_
        cases on : OdroidPlayer.Action.proceeds b <;> simp [on] at left ⊢ <;> omega
      exact Nat.le_trans less (Nat.le_add_right _ _)
  | @playCalls target born outside at_ =>
      have calls := s.callsToDo_calls .play (some .queue)
      simp only [outside, Option.elim_none, Option.elim_some, SetAt.toDo] at calls
      have left : target.left + 1 = s.player.play.left := by
        rcases at_ with ⟨at_, rfl⟩ | ⟨at_, rfl⟩ <;> rw [at_] <;> rfl
      have same : (({ s with
          player := { s.player with
            player.running := false, stopping := s.player.stopping + 1, play := target }
          queue := { s.queue with running := false, signalling := s.queue.signalling + 1 } }
          : Process).calls .play (some .queue)).callsToDo =
          (s.calls .play (some .queue)).callsToDo := rfl
      refine le_of_less ?_
      unfold Process.toDo
      rw [same]
      simp only [Process.calls, responseToDo] at calls ⊢
      omega
  | @set c at_ t inside block =>
      have calls := t.callsToDo_calls c at_.next
      rw [block.frame.1, inside] at calls
      exact le_of_less (toDo_of_block block calls rfl rfl rfl rfl rfl)
  | setHandler some_ block =>
      have calls := callsToDo_handled _ (by rwa [block.frame.2.2.2.2.2.2])
      exact le_of_less (toDo_of_block block calls rfl rfl rfl rfl rfl)
  | createResponse at_ =>
      have response := inv.born.response (by rw [at_]; decide)
      exact le_of_less (toDo_of_main (by simp [responseToDo, response]) (by rw [at_]; decide))
  | createFailed at_ =>
      have outside : s.call .main = none := by
        by_contra calls
        simp [inv.placed.main calls, MainAt.creates] at at_
      exact le_of_less (toDo_of_clear outside
        (by cases here : s.main <;> simp_all [MainAt.creates, MainAt.toDo]))
  | joinPlay at_ =>
      have outside : s.call .main = none := by
        by_contra calls
        simp [inv.placed.main calls] at at_
      exact le_of_less (toDo_of_clear outside (by rw [at_]; decide))
  | @join _ next _ at_ =>
      have less : next.toDo + 1 ≤ s.main.toDo := by
        cases here : s.main <;> simp_all [MainAt.joins]
        all_goals obtain ⟨-, rfl⟩ := at_; decide
      exact le_of_less (toDo_of_main (Nat.le_refl _) less)
  | createWatchdog at_ | createPlay at_ | joinAgain at_ | free at_ | clear at_ =>
      exact le_of_less (toDo_of_main (Nat.le_refl _) (by rw [at_]; decide))
  | clearChild at_ =>
      have less : ({ s with main := .joinAgain } : Process).toDo + 1 ≤ s.toDo :=
        toDo_of_main (Nat.le_refl _) (by rw [at_]; decide)
      rw [← inv.cleared at_] at less
      exact le_of_less less
  | interrupt =>
      have flagged := s.callsToDo_interrupted
      unfold Process.toDo
      rw [flagged]
      simp only [responseToDo, Action.advances, Action.disturbs, if_true]
      simp
      omega
  | @exit pid player _ step =>
      have move := OdroidPlayer.step_move step
      have resp := move.toDo_resp.2.2 fun r => by simp
      have left := (move.left off).1
      have less : ({ s with player } : Process).toDo + 0 ≤ s.toDo := toDo_of_player (by omega)
      exact less
  | @spuriousWakeup queue _ step =>
      have more : ({ s with queue } : Process).responseToDo ≤ s.responseToDo + 1 :=
        responseToDo_le rfl (consumer_woken step)
      have calls : ({ s with queue } : Process).callsToDo = s.callsToDo := rfl
      unfold Process.toDo
      rw [calls]
      simp only [Action.advances, Action.disturbs, if_true]
      simp
      omega

end ToDo

/-! ### How much there can be -/

/-- The handlers of SIGINT that have not returned. -/
def handling (s : Process) : Nat :=
  s.handlers .flag + s.handlers .queue + s.handlers .play + s.handlers (.kill .stream) +
    s.handlers (.kill .server)

/-- The slots of the client pool that a pass of a loop goes over. -/
def SlotsLeft (s : Process) : Prop := ∀ l slots, s.loop l = .serving slots → slots ≤ maxClients

section Bound

variable {s t : Process} {a : Action} {es : List Event}

theorem SlotsLeft.of_loop (left : SlotsLeft s) {l : SelectLoop} {at_ : LoopAt}
    (loop : t.loop = Function.update s.loop l at_)
    (less : ∀ slots, at_ = .serving slots → slots ≤ maxClients) : SlotsLeft t := by
  intro l' slots at_'
  rw [loop] at at_'
  by_cases here : l' = l
  · subst here
    exact less slots (by simpa using at_')
  · exact left l' slots (by simpa [here] using at_')

theorem SlotsLeft.keep (left : SlotsLeft s) (move : Move s a t es) : SlotsLeft t := by
  cases move with
  | @loop l ok at_ next =>
      refine left.of_loop rfl fun slots at_' => ?_
      subst at_'
      cases here : s.loop l with
      | serving before =>
          rw [here] at next
          cases before with
          | zero => cases next
          | succ before =>
              cases next
              exact Nat.le_of_succ_le (left l _ here)
      | opening | pselect => cases ok <;> simp [here, LoopAt.next] at next
      | loopTest =>
          rw [here] at next
          cases on : s.player.player.running <;> simp [on, LoopAt.next] at next
      | woken interrupted =>
          simp only [here, LoopAt.next, Option.some.injEq] at next
          split at next
          · cases next
          · split at next
            · cases next
            · cases next
              exact Nat.le_refl _
      | unborn | waiting | left => simp [here, LoopAt.next] at next
  | wakeUp | ready | createStream | createServer => exact left.of_loop rfl (by simp)
  | @receive _ slots _ _ at_ | @send slots at_ =>
      refine left.of_loop rfl fun _ at_' => ?_
      cases at_'
      exact Nat.le_of_succ_le (left _ _ at_)
  | set inside block | setHandler inside block =>
      intro l slots at_
      exact left l slots (block.frame.2.1 ▸ at_)
  | _ => exact left

theorem callsToDo_le (s : Process) : s.callsToDo ≤ 30 + 6 * s.handling := by
  have worth (c : Caller) := SetAt.toDo_le (s.call c)
  simp only [SetAt.toDo_eq] at worth
  have stream := worth (.loop .stream)
  have server := worth (.loop .server)
  have response := worth .response
  have play := worth .play
  have main := worth .main
  simp only [callsToDo, inCall, handling, Caller.all, List.countP_cons, List.countP_nil,
    decide_eq_true_eq]
  omega

theorem toDo_le (left : SlotsLeft s) : s.toDo ≤ 175 + 6 * s.handling := by
  have calls := s.callsToDo_le
  have stream := LoopAt.toDo_le (left .stream)
  have server := LoopAt.toDo_le (left .server)
  have response : s.responseToDo ≤ 12 := by
    unfold responseToDo
    have consumer : s.queue.consumer.toDo ≤ 11 := by
      cases s.queue.consumer with
      | dequeue at_ => cases at_ <;> decide
      | outside | finished => decide
    cases s.response <;> simp only <;> omega
  have node : s.executing.elim 0 (fun _ => 2) ≤ 2 := by
    cases s.executing <;> simp
  have resp : s.player.resp.toDo ≤ 1 := by
    cases s.player.resp <;> simp [RespAt.toDo]
  have play := s.player.play.left_le.1
  have main : s.main.toDo ≤ 19 := by
    cases s.main <;> decide
  unfold Process.toDo
  omega

end Bound

end Process

end OdroidPlayer
