import OdroidPlayer.Lib.Transition

/-!
The queues of the two programs and the thread that waits on one.

`t_queue` is the same in the server and in the client. A thread that dequeues holds
`queue_mutex` but for the time it spends in `pthread_cond_wait`, so a step is one of its
critical sections. The signal on `queue_cond` is not remembered: it wakes a thread that is
waiting and is lost on any other.

`dequeue` tests `running` when it has been woken and not when it is entered, so a thread
that enters after the last signal of a shutdown waits for ever.
-/

namespace OdroidPlayer

open Transition Transition.System

universe u

/-- `t_queue`; `size` is the number of the nodes. -/
structure Queue (ν : Type u) where
  nodes : List ν
  running : Bool
  deriving DecidableEq, Repr

namespace Queue

variable {ν : Type u}

/-- `QUEUE_SIZE` -/
def maxSize : Nat := 64

def createQueue : Queue ν := ⟨[], true⟩

/-- The queue after `enqueue`, and whether it has taken the node. -/
def enqueue (node : ν) (queue : Queue ν) : Queue ν × Bool :=
  if maxSize < queue.nodes.length then (queue, false)
  else ({ queue with nodes := queue.nodes ++ [node] }, true)

def flushQueue (queue : Queue ν) : Queue ν := { queue with nodes := [] }

/-- What follows the loop of `dequeue`: the node that is returned and those that stay. -/
def dequeue : List ν → Option ν × List ν
  | [] => (none, [])
  | node :: rest => (some node, rest)

/-- The loop test, and what follows the loop; `none` when the thread has to wait. -/
def look (take : List ν → Option ν × List ν) (queue : Queue ν) : Option (Option ν × Queue ν) :=
  match queue.nodes with
  | [] => none
  | node :: rest =>
      let (taken, nodes) := take (node :: rest)
      some (taken, { queue with nodes })

/-- The same, on the return of `pthread_cond_wait`. -/
def lookAgain (take : List ν → Option ν × List ν) (queue : Queue ν) :
    Option (Option ν × Queue ν) :=
  if queue.running then queue.look take else some (none, queue)

theorem look_eq_none {take : List ν → Option ν × List ν} {queue : Queue ν} :
    queue.look take = none ↔ queue.nodes = [] := by
  obtain ⟨nodes, running⟩ := queue
  cases nodes <;> simp [look]

theorem lookAgain_eq_none {take : List ν → Option ν × List ν} {queue : Queue ν} :
    queue.lookAgain take = none ↔ queue.running = true ∧ queue.nodes = [] := by
  cases on : queue.running <;> simp [lookAgain, on, look_eq_none]

end Queue

/-- Where a thread stands in a dequeue. -/
inductive DequeueAt where
  /-- `pthread_mutex_lock` -/
  | entering
  /-- asleep in `pthread_cond_wait` -/
  | waiting
  /-- woken, and still in `pthread_cond_wait` -/
  | woken
  deriving DecidableEq, Repr

/-- `pthread_cond_signal` -/
def DequeueAt.signal : DequeueAt → DequeueAt
  | .waiting => .woken
  | at_ => at_

theorem DequeueAt.signal_ne_waiting (at_ : DequeueAt) : at_.signal ≠ .waiting := by
  cases at_ <;> simp [signal]

/-! ### The consumers and the shutdown -/

inductive Consumer where
  | runResponse
  | getMessageResponse
  deriving DecidableEq, Repr

inductive ConsumerAt where
  /-- not in `dequeue` -/
  | outside
  | dequeue (at_ : DequeueAt)
  /-- out of the loop of `run_response` -/
  | finished
  deriving DecidableEq, Repr

def ConsumerAt.signal : ConsumerAt → ConsumerAt
  | .dequeue at_ => .dequeue at_.signal
  | at_ => at_

/-- `run_response` reads `running` before it calls `dequeue`; `get_message_response`
allocates the status. -/
def Consumer.call (running created : Bool) : Consumer → ConsumerAt
  | .runResponse => if running then .dequeue .entering else .finished
  | .getMessageResponse => if created then .dequeue .entering else .outside

/-- `run_response` leaves its loop when `dequeue` returns NULL. -/
def Consumer.got {ν : Type u} : Option ν → Consumer → ConsumerAt
  | none, .runResponse => .finished
  | _, _ => .outside

structure Shutdown (ν : Type u) where
  /-- `running` of the player, `play` of the monitor -/
  running : Bool
  /-- the queue of the player, `msg_queue` of the client -/
  queue : Queue ν
  consumer : ConsumerAt
  /-- the threads in `set_player_running(false)` or `set_monitor(false)` that have written the
  flag and have not signalled the queue -/
  signalling : Nat
  deriving DecidableEq, Repr

namespace Shutdown

variable {ν : Type u}

def signalled (s : Shutdown ν) (queue : Queue ν) : Shutdown ν :=
  { s with queue, consumer := s.consumer.signal }

inductive Action (ν : Type u) where
  | call (created : Bool)
  /-- a critical section of `dequeue` -/
  | dequeue
  | spuriousWakeup
  | enqueue (node : ν)
  | flushQueue
  /-- the first critical section of `set_player_running(false)` or `set_monitor(false)` -/
  | clearFlag
  /-- the second one -/
  | signalQueue
  deriving DecidableEq, Repr

/-- What one critical section of `dequeue` leads to. -/
def dequeued (consumer : Consumer) (s : Shutdown ν) :
    Option (Option ν × Queue ν) → Shutdown ν × List (Option ν)
  | none => ({ s with consumer := .dequeue .waiting }, [])
  | some (node, queue) => ({ s with queue, consumer := consumer.got node }, [node])

/-- The consumer, the threads that fill the queue and those that shut the program down.
The events are the results of `dequeue`. -/
def machine (consumer : Consumer) : System (Shutdown ν) (Action ν) (Option ν) where
  step s
    | .call created =>
        match s.consumer with
        | .outside => some ({ s with consumer := consumer.call s.running created }, [])
        | _ => none
    | .dequeue =>
        match s.consumer with
        | .dequeue .entering => some (s.dequeued consumer (s.queue.look Queue.dequeue))
        | .dequeue .woken => some (s.dequeued consumer (s.queue.lookAgain Queue.dequeue))
        | _ => none
    | .spuriousWakeup =>
        match s.consumer with
        | .dequeue .waiting => some ({ s with consumer := .dequeue .woken }, [])
        | _ => none
    | .enqueue node =>
        match s.queue.enqueue node with
        | (queue, true) => some (s.signalled queue, [])
        | (_, false) => some (s, [])
    | .flushQueue =>
        match consumer with
        | .runResponse => none
        | .getMessageResponse => some (s.signalled s.queue.flushQueue, [])
    | .clearFlag => some ({ s with running := false, signalling := s.signalling + 1 }, [])
    | .signalQueue =>
        match s.signalling with
        | 0 => none
        | left + 1 =>
            some ({ s with signalling := left }.signalled { s.queue with running := false }, [])

/-- `start_player` and `opc_prepare`, before there is a second thread. -/
def init : Shutdown ν := ⟨true, Queue.createQueue, .outside, 0⟩

/-- The consumer is asleep on an empty queue that has been switched off, and no signal is
still to come. -/
structure LostWakeup (s : Shutdown ν) : Prop where
  waiting : s.consumer = .dequeue .waiting
  empty : s.queue.nodes = []
  off : s.queue.running = false
  unsignalled : s.signalling = 0

/-- A `dequeue` that is entered on an empty queue will be signalled should it be shut down. -/
def EntersInTime (s : Shutdown ν) (a : Action ν) : Prop :=
  a = .dequeue → s.consumer = .dequeue .entering → s.queue.nodes = [] →
    s.queue.running = true ∨ 0 < s.signalling

instance (s : Shutdown ν) (a : Action ν) : Decidable (s.EntersInTime a) :=
  match a with
  | .dequeue =>
      decidable_of_iff (s.consumer = .dequeue .entering → s.queue.nodes.isEmpty →
          s.queue.running = true ∨ 0 < s.signalling) (by simp [EntersInTime])
  | .call _ | .spuriousWakeup | .enqueue _ | .flushQueue | .clearFlag | .signalQueue =>
      .isTrue (by rintro ⟨⟩)

/-! ### Which steps lose the wake-up -/

theorem not_lost_of_consumer {s : Shutdown ν} (awake : s.consumer ≠ .dequeue .waiting) :
    ¬ s.LostWakeup := fun lost => awake lost.waiting

theorem signalled_not_lost (s : Shutdown ν) (queue : Queue ν) :
    ¬ (s.signalled queue).LostWakeup := by
  refine not_lost_of_consumer ?_
  cases at_ : s.consumer with
  | dequeue at_' => simpa [signalled, ConsumerAt.signal, at_] using at_'.signal_ne_waiting
  | outside | finished => simp [signalled, ConsumerAt.signal, at_]

theorem call_ne_waiting (consumer : Consumer) (running created : Bool) :
    consumer.call running created ≠ .dequeue .waiting := by
  cases consumer <;> cases running <;> cases created <;> simp [Consumer.call]

theorem got_ne_waiting (consumer : Consumer) (node : Option ν) :
    consumer.got node ≠ .dequeue .waiting := by
  cases consumer <;> cases node <;> simp [Consumer.got]

/-- A critical section of `dequeue` loses the wake-up exactly when it ends in a wait that
nobody will end. -/
theorem dequeued_lost (consumer : Consumer) (s : Shutdown ν)
    (looked : Option (Option ν × Queue ν)) :
    (s.dequeued consumer looked).1.LostWakeup ↔
      looked = none ∧ s.queue.nodes = [] ∧ s.queue.running = false ∧ s.signalling = 0 := by
  cases looked with
  | none =>
      constructor
      · intro lost
        exact ⟨rfl, lost.empty, lost.off, lost.unsignalled⟩
      · rintro ⟨-, empty, off, unsignalled⟩
        exact ⟨rfl, empty, off, unsignalled⟩
  | some out =>
      constructor
      · intro lost
        exact absurd lost.waiting (got_ne_waiting consumer out.1)
      · rintro ⟨none, -⟩
        cases none

/-- A step from a state in which no wake-up is lost. -/
theorem step_lost {consumer : Consumer} {s t : Shutdown ν} {a : Action ν} {es : List (Option ν)}
    (kept : ¬ s.LostWakeup) (step : (machine consumer).step s a = some (t, es)) :
    ¬ t.LostWakeup ↔ s.EntersInTime a := by
  cases a with
  | dequeue =>
      cases at_ : s.consumer with
      | outside | finished => simp [machine, at_] at step
      | dequeue at_' =>
          cases at_' with
          | waiting => simp [machine, at_] at step
          | entering =>
              simp only [machine, at_, Option.some.injEq] at step
              rw [← show _ = t from congrArg Prod.fst step, dequeued_lost, Queue.look_eq_none]
              constructor
              · intro found _ _ empty
                by_contra late
                simp only [not_or, Bool.not_eq_true, Nat.not_lt, Nat.le_zero] at late
                exact found ⟨empty, empty, late.1, late.2⟩
              · rintro timely ⟨empty, -, off, unsignalled⟩
                rcases timely rfl at_ empty with on | some
                · simp [off] at on
                · omega
          | woken =>
              simp only [machine, at_, Option.some.injEq] at step
              rw [← show _ = t from congrArg Prod.fst step, dequeued_lost,
                Queue.lookAgain_eq_none]
              constructor
              · intro _ _ entering
                simp [at_] at entering
              · rintro - ⟨⟨on, -⟩, -, off, -⟩
                simp [off] at on
  | call created =>
      refine iff_of_true ?_ (by rintro ⟨⟩)
      cases at_ : s.consumer with
      | outside =>
          simp only [machine, at_, Option.some.injEq, Prod.mk.injEq] at step
          exact step.1 ▸ not_lost_of_consumer (call_ne_waiting consumer s.running created)
      | dequeue at_' => simp [machine, at_] at step
      | finished => simp [machine, at_] at step
  | spuriousWakeup =>
      refine iff_of_true ?_ (by rintro ⟨⟩)
      simp only [machine] at step
      split at step
      · simp only [Option.some.injEq, Prod.mk.injEq] at step
        exact step.1 ▸ not_lost_of_consumer (by simp)
      · cases step
  | enqueue node =>
      refine iff_of_true ?_ (by rintro ⟨⟩)
      simp only [machine] at step
      split at step
      · simp only [Option.some.injEq, Prod.mk.injEq] at step
        exact step.1 ▸ signalled_not_lost s _
      · simp only [Option.some.injEq, Prod.mk.injEq] at step
        exact step.1 ▸ kept
  | flushQueue =>
      refine iff_of_true ?_ (by rintro ⟨⟩)
      cases consumer with
      | runResponse => simp [machine] at step
      | getMessageResponse =>
          simp only [machine, Option.some.injEq, Prod.mk.injEq] at step
          exact step.1 ▸ signalled_not_lost s _
  | clearFlag =>
      refine iff_of_true ?_ (by rintro ⟨⟩)
      simp only [machine, Option.some.injEq, Prod.mk.injEq] at step
      exact step.1 ▸ fun lost => absurd lost.unsignalled (Nat.succ_ne_zero _)
  | signalQueue =>
      refine iff_of_true ?_ (by rintro ⟨⟩)
      simp only [machine] at step
      split at step
      · cases step
      · simp only [Option.some.injEq, Prod.mk.injEq] at step
        exact step.1 ▸ signalled_not_lost _ _

/-- A consumer that has lost its wake-up does nothing more, and the threads that have begun to
shut the program down are all done. -/
theorem LostWakeup.stuck {s : Shutdown ν} (lost : s.LostWakeup) (consumer : Consumer)
    (created : Bool) :
    (machine consumer).step s (.call created) = none ∧
      (machine consumer).step s .dequeue = none ∧
      (machine consumer).step s .signalQueue = none := by
  simp [machine, lost.waiting, lost.unsignalled]

/-- The wake-up is lost in no state of a run exactly when each `dequeue` that is entered on
an empty queue is entered before the last signal of the shutdown. -/
theorem not_lost_iff (consumer : Consumer) {t : Shutdown ν} {as : List (Action ν)}
    {log : List (Option ν)} (run : (machine consumer).exec init as = some (t, log)) :
    ((machine consumer).Along (fun s _ => ¬ s.LostWakeup) init as ∧ ¬ t.LostWakeup) ↔
      (machine consumer).Along EntersInTime init as :=
  along_iff_along (fun _ _ _ _ kept step => step_lost kept step)
    (not_lost_of_consumer (by simp [init])) run

/-- The consumer handles a message, waits, and is woken by the shutdown. -/
def wokenConsumer : List (Action Nat) :=
  [.enqueue 1, .call true, .dequeue, .call true, .dequeue, .clearFlag, .signalQueue, .dequeue]

theorem wokenConsumer_not_lost :
    (machine .runResponse).Along (fun s _ => ¬ s.LostWakeup) init wokenConsumer ∧
      (machine .getMessageResponse).Along (fun s _ => ¬ s.LostWakeup) init wokenConsumer :=
  ⟨((not_lost_iff .runResponse rfl).mpr (by decide)).1,
    ((not_lost_iff .getMessageResponse rfl).mpr (by decide)).1⟩

/-- Every other thread of the player shuts it down between the loop test of `run_response` and
its `dequeue`; `set_monitor(false)` is over before `get_message_response` dequeues. -/
def lateConsumer : Consumer → List (Action Nat)
  | .runResponse =>
      [.call true, .clearFlag, .signalQueue, .clearFlag, .signalQueue, .clearFlag, .signalQueue,
        .clearFlag, .signalQueue, .dequeue]
  | .getMessageResponse => [.clearFlag, .signalQueue, .call true, .dequeue]

theorem lateConsumer_lost :
    (∃ t log, (machine .runResponse).exec init (lateConsumer .runResponse) = some (t, log) ∧
        t.LostWakeup) ∧
      ∃ t log, (machine .getMessageResponse).exec init (lateConsumer .getMessageResponse) =
        some (t, log) ∧ t.LostWakeup := by
  constructor
  · exact ⟨_, _, rfl, ⟨rfl, rfl, rfl, rfl⟩⟩
  · exact ⟨_, _, rfl, ⟨rfl, rfl, rfl, rfl⟩⟩

end Shutdown

end OdroidPlayer
