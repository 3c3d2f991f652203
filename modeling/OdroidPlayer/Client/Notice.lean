import OdroidPlayer.Queue
import OdroidPlayer.Message

/-!
The notices of a lost and of a re-established connection.

`notice_reconnect` appends a notice to `msg_queue`. When `enqueue` refuses it, the notice is
dropped and then the queue is flushed, so nothing is left of either, nor of an older notice.
A run is one of the receiver thread, the application and the threads that shut the client
down; the receiver thread alone enqueues and flushes. Where it refuses no notice, a notice
that is in the queue stays there until `opc_recv_amsg` returns it.
-/

namespace OdroidPlayer

open Transition Transition.System

/-- A `t_node` with the fields that `set_status` copies; a string is NULL when its `strdup` has
failed. -/
structure MsgNode where
  address : Nat
  status : Int32
  type : Int32
  cmd : Int32
  msgIdx : Int32
  data : List (Option CString)
  deriving DecidableEq, Repr

def serverClosed : CString := cString "server closed"

/-- What the allocations in one `notice_reconnect` return. -/
structure Noticing where
  /-- `malloc` of `data` -/
  data : Bool
  /-- `strdup` of the text -/
  text : Bool
  /-- `malloc` of the node -/
  node : Option Nat
  /-- `malloc` of its `data` -/
  nodeData : Bool
  /-- `strdup` of its text -/
  nodeText : Bool
  deriving DecidableEq, Repr

namespace Noticing

/-- `create_node` with the arguments that all notices share; `data` may be NULL. -/
def createNode (r : Noticing) (status : Status) (data : Option (List (Option CString))) :
    Option MsgNode :=
  match r.node, data with
  | none, _ => none
  | some address, none =>
      some ⟨address, status.value, CmdType.notify.value, Cmd.none.value, -1, []⟩
  | some address, some data =>
      if r.nodeData = false then none
      else
        some ⟨address, status.value, CmdType.notify.value, Cmd.none.value, -1,
          data.map fun text => if r.nodeText then text else none⟩

/-- The node that `notice_reconnect` gives to `enqueue`. -/
def noticeNode (closed : Bool) (r : Noticing) : Option MsgNode :=
  if closed then r.createNode .eserver (some [if r.text then some serverClosed else none])
  else r.createNode .reconnt none

end Noticing

/-- The notice of a lost or a re-established connection. -/
def notice (address : Nat) : Bool → MsgNode
  | true =>
      ⟨address, Status.eserver.value, CmdType.notify.value, Cmd.none.value, -1,
        [some serverClosed]⟩
  | false => ⟨address, Status.reconnt.value, CmdType.notify.value, Cmd.none.value, -1, []⟩

namespace Shutdown

/-- Where `notice_reconnect` has come to. -/
inductive NoticeResult where
  | returned (ret : Int)
  /-- in front of `flush_queue`, without the notice -/
  | refused
  deriving DecidableEq, Repr

/-- What `notice_reconnect` does with the node; NULL fails the assertion of `enqueue`. -/
def enqueueNotice (s : Shutdown MsgNode) :
    Option MsgNode → Option (Shutdown MsgNode × NoticeResult)
  | none => none
  | some node =>
      match s.queue.enqueue node with
      | (queue, true) => some (s.signalled queue, .returned 1)
      | (_, false) => some (s, .refused)

/-- `notice_reconnect` up to `flush_queue`; `none` when the program is aborted. -/
def noticeReconnect (closed : Bool) (r : Noticing) (s : Shutdown MsgNode) :
    Option (Shutdown MsgNode × NoticeResult) :=
  if closed = true ∧ r.data = false then some (s, .returned 0)
  else s.enqueueNotice (r.noticeNode closed)

/-- The client with its `msg_queue` and the application that calls `opc_recv_amsg`. -/
abbrev msgMachine : System (Shutdown MsgNode) (Action MsgNode) (Option MsgNode) :=
  machine .getMessageResponse

end Shutdown

open Shutdown (msgMachine)

/-- The client beside the receiver thread. -/
structure Noticed where
  client : Shutdown MsgNode
  /-- the notice that has been refused, until the queue is flushed -/
  refused : Option Bool
  deriving DecidableEq, Repr

namespace Noticed

/-- Any state of the client outside of `notice_reconnect`: the application is in no call, or
somewhere in `dequeue`. -/
def start (running : Bool) (queue : Queue MsgNode) (call : Option DequeueAt) (signalling : Nat) :
    Noticed :=
  ⟨⟨running, queue, call.elim .outside .dequeue, signalling⟩, none⟩

inductive Action where
  /-- `notice_reconnect` up to `flush_queue`, should it get there -/
  | notice (closed : Bool) (r : Noticing)
  /-- the rest of `notice_reconnect` -/
  | flushQueue
  | other (a : Shutdown.Action MsgNode)
  deriving DecidableEq, Repr

inductive Event where
  | dequeued (node : Option MsgNode)
  /-- `notice_reconnect` returns -/
  | returned (closed : Bool) (ret : Int)
  deriving DecidableEq, Repr

/-- Only the receiver thread enqueues and flushes, and not while it is in `notice_reconnect`. -/
def enabled (refused : Option Bool) : Shutdown.Action MsgNode → Bool
  | .flushQueue => false
  | .enqueue _ => refused.isNone
  | _ => true

/-- The receiver thread, the application and the threads that shut the client down. `malloc`
returns no node that is in the queue. -/
def machine : System Noticed Action Event where
  step s
    | .notice closed r =>
        if s.refused.isSome ∨ ∃ node ∈ s.client.queue.nodes, r.node = some node.address then none
        else
          match s.client.noticeReconnect closed r with
          | none => none
          | some (client, .returned ret) => some (⟨client, none⟩, [.returned closed ret])
          | some (client, .refused) => some (⟨client, some closed⟩, [])
    | .flushQueue =>
        match s.refused with
        | none => none
        | some closed =>
            some (⟨s.client.signalled s.client.queue.flushQueue, none⟩, [.returned closed 1])
    | .other a =>
        if enabled s.refused a then
          (msgMachine.step s.client a).map fun out => ({ s with client := out.1 },
            out.2.map .dequeued)
        else none

/-- A notice that has returned is new and behind what was kept, and the application is told of
it: it has been, or the notice is still there, the application can go on, and it has been
through no more critical sections of `dequeue` than there are nodes up to the notice. -/
structure Told (node : MsgNode) (s t : Noticed) (as : List Action) : Prop where
  fresh : ∀ other ∈ s.client.queue.nodes, other.address ≠ node.address
  behind : ∃ kept, kept.Sublist s.client.queue.nodes ∧ t.client.queue.nodes = kept ++ [node]
  told : ∀ u log, machine.exec t as = some (u, log) →
    .dequeued (some node) ∈ log ∨
      node ∈ u.client.queue.nodes ∧ as.count (.other .dequeue) ≤ t.client.queue.nodes.length ∧
        ((msgMachine.step u.client (.call true)).isSome ∨
          (msgMachine.step u.client .dequeue).isSome)

/-- The application is told of every notice that returns in the run of `as`. -/
def EachTold (s : Noticed) (as : List Action) : Prop :=
  ∀ front a back m t log es closed ret, as = front ++ a :: back →
    machine.exec s front = some (m, log) → machine.step m a = some (t, es) →
      .returned closed ret ∈ es → ∃ address, Told (notice address closed) m t back

/-- There is memory for `data`, and if there is for the node, then also for the text, and the
queue takes the node. -/
def TakesNotice (s : Noticed) : Action → Prop
  | .notice closed r =>
      (closed = true → r.data = true) ∧
        (r.node ≠ none ∧ (closed = true → r.nodeData = true) →
          s.client.queue.nodes.length ≤ Queue.maxSize ∧
            (closed = true → r.text = true ∧ r.nodeText = true))
  | .flushQueue | .other _ => True

instance (s : Noticed) : (a : Action) → Decidable (s.TakesNotice a)
  | .notice _ _ => inferInstanceAs (Decidable (_ ∧ _))
  | .flushQueue | .other _ => .isTrue trivial

end Noticed

/-! ### The node -/

theorem Noticing.noticeNode_eq_none {closed : Bool} {r : Noticing} :
    r.noticeNode closed = none ↔ ¬ (r.node ≠ none ∧ (closed = true → r.nodeData = true)) := by
  cases closed <;> cases node : r.node <;> cases nodeData : r.nodeData <;>
    simp [noticeNode, createNode, node, nodeData]

theorem Noticing.eq_notice_iff {closed : Bool} {r : Noticing} {node : MsgNode}
    (made : r.noticeNode closed = some node) :
    r.node = some node.address ∧
      (node = notice node.address closed ↔
        (closed = true → r.text = true ∧ r.nodeText = true)) := by
  obtain ⟨data, text, address, nodeData, nodeText⟩ := r
  cases address with
  | none => cases closed <;> cases made
  | some address =>
      cases closed with
      | false =>
          cases made
          exact ⟨rfl, iff_of_true rfl (by rintro ⟨⟩)⟩
      | true =>
          cases nodeData with
          | false => cases made
          | true =>
              cases made
              refine ⟨rfl, ?_⟩
              cases text <;> cases nodeText <;> simp [notice]

namespace Shutdown

/-! ### What is in the queue is returned -/

section Returned

variable {s t : Shutdown MsgNode} {a : Action MsgNode} {as : List (Action MsgNode)}
  {es log : List (Option MsgNode)} {node : MsgNode} {front back : List MsgNode}

/-- A `dequeue` of the application may still return NULL. -/
def nulls (s : Shutdown MsgNode) : Nat := if s.consumer = .dequeue .woken then 1 else 0

/-- The node is in the queue behind so many others, and the application does not sleep. -/
structure Behind (s : Shutdown MsgNode) (node : MsgNode) (front : List MsgNode) : Prop where
  queued : ∃ back, s.queue.nodes = front ++ node :: back
  awake : s.consumer = .outside ∨ s.consumer = .dequeue .entering ∨ s.consumer = .dequeue .woken

theorem Behind.consumer_signal (behind : Behind s node front) : s.consumer.signal = s.consumer := by
  rcases behind.awake with at_ | at_ | at_ <;> rw [at_] <;> rfl

theorem Behind.signalled (behind : Behind s node front) (queue : Queue MsgNode) :
    s.signalled queue = { s with queue } := by
  rw [Shutdown.signalled, behind.consumer_signal]

theorem Behind.enabled (behind : Behind s node front) :
    (msgMachine.step s (.call true)).isSome ∨ (msgMachine.step s .dequeue).isSome := by
  rcases behind.awake with at_ | at_ | at_ <;> simp [machine, at_]

/-- `dequeue` takes the node, or one that was before it. -/
theorem Behind.look (behind : Behind s node front) :
    ∃ first queue, s.queue.look Queue.dequeue = some (some first, queue) ∧
      (first = node ∨ ∃ front', front = first :: front' ∧
        Behind { s with queue, consumer := .outside } node front') := by
  obtain ⟨⟨back, queued⟩, _⟩ := behind
  cases front with
  | nil =>
      refine ⟨node, { s.queue with nodes := back }, ?_, .inl rfl⟩
      simp only [Queue.look, queued, List.nil_append, Queue.dequeue]
  | cons first front =>
      refine ⟨first, { s.queue with nodes := front ++ node :: back }, ?_, .inr ⟨front, rfl, ?_⟩⟩
      · simp only [Queue.look, queued, List.cons_append, Queue.dequeue]
      · exact ⟨⟨back, rfl⟩, .inl rfl⟩

/-- A step leaves the node and what is before it, or takes the first one. -/
theorem Behind.step (behind : Behind s node front) (noFlush : a ≠ .flushQueue)
    (step : msgMachine.step s a = some (t, es)) :
    some node ∈ es ∨ ∃ front', Behind t node front' ∧
      front'.length + nulls t + [a].count .dequeue ≤ front.length + nulls s := by
  have same : ∀ u nodes, u.consumer = s.consumer.signal → u.queue.nodes = s.queue.nodes ++ nodes →
      ∃ front', Behind u node front' ∧ front'.length + nulls u + 0 ≤ front.length + nulls s := by
    intro u nodes consumer more
    rw [behind.consumer_signal] at consumer
    obtain ⟨⟨back, queued⟩, awake⟩ := behind
    refine ⟨front, ⟨⟨back ++ nodes, ?_⟩, ?_⟩, ?_⟩
    · rw [more, queued, List.append_assoc, List.cons_append]
    · rwa [consumer]
    · rw [nulls, consumer, nulls, Nat.add_zero]
  cases a with
  | flushQueue => exact absurd rfl noFlush
  | call created =>
      obtain ⟨queued, at_ | at_ | at_⟩ := behind
      · simp only [machine, at_, Option.some.injEq, Prod.mk.injEq] at step
        obtain ⟨rfl, rfl⟩ := step
        refine .inr ⟨front, ⟨queued, ?_⟩, ?_⟩
        · cases created <;> simp [Consumer.call]
        · cases created <;> simp [Consumer.call, nulls]
      · simp [machine, at_] at step
      · simp [machine, at_] at step
  | dequeue =>
      obtain ⟨first, queue, looked, which⟩ := behind.look
      have taken : es = [some first] → t = { s with queue, consumer := .outside } →
          some node ∈ es ∨ ∃ front', Behind t node front' ∧
            front'.length + nulls t + 1 ≤ front.length + nulls s := by
        rintro rfl rfl
        rcases which with rfl | ⟨front', rfl, behind'⟩
        · exact .inl (List.mem_singleton_self _)
        · exact .inr ⟨front', behind', by simp [nulls]⟩
      rcases behind.awake with at_ | at_ | at_
      · simp [machine, at_] at step
      · simp only [machine, at_, looked, dequeued, Consumer.got, Option.some.injEq,
          Prod.mk.injEq] at step
        exact taken step.2.symm step.1.symm
      · cases on : s.queue.running with
        | true =>
            simp only [machine, at_, Queue.lookAgain, on, if_true, looked, dequeued, Consumer.got,
              Option.some.injEq, Prod.mk.injEq] at step
            exact taken step.2.symm step.1.symm
        | false =>
            simp only [machine, at_, Queue.lookAgain, on, dequeued, Consumer.got,
              Bool.false_eq_true, if_false, Option.some.injEq, Prod.mk.injEq] at step
            obtain ⟨rfl, rfl⟩ := step
            refine .inr ⟨front, ⟨behind.queued, .inl rfl⟩, ?_⟩
            simp [nulls, at_]
  | spuriousWakeup =>
      rcases behind.awake with at_ | at_ | at_ <;> simp [machine, at_] at step
  | enqueue other =>
      simp only [machine, Queue.enqueue] at step
      split at step
      next queue taken =>
          cases step
          split at taken
          · cases taken
          · cases taken
            exact .inr (same _ [other] rfl rfl)
      next => cases step; exact .inr (same _ [] behind.consumer_signal.symm (by simp))
  | clearFlag => cases step; exact .inr (same _ [] behind.consumer_signal.symm (by simp))
  | signalQueue =>
      simp only [machine] at step
      split at step
      · cases step
      · cases step
        exact .inr (same _ [] rfl (by simp [Shutdown.signalled]))

theorem Behind.exec (behind : Behind s node front) (noFlush : .flushQueue ∉ as)
    (run : msgMachine.exec s as = some (t, log)) :
    some node ∈ log ∨ ∃ front', Behind t node front' ∧
      front'.length + nulls t + as.count .dequeue ≤ front.length + nulls s := by
  induction as generalizing s front log with
  | nil =>
      cases run
      exact .inr ⟨front, behind, le_rfl⟩
  | cons a as ih =>
      obtain ⟨m, es, rest, step, tail, rfl⟩ := exec_cons.mp run
      rw [List.mem_cons, not_or] at noFlush
      rcases behind.step (Ne.symm noFlush.1) step with told | ⟨between, behind', le⟩
      · exact .inl (List.mem_append_left _ told)
      · rcases ih behind' noFlush.2 tail with told | ⟨front', behind'', le'⟩
        · exact .inl (List.mem_append_right _ told)
        · refine .inr ⟨front', behind'', ?_⟩
          have count : (a :: as).count .dequeue = [a].count .dequeue + as.count .dequeue := by
            rw [← List.count_append, List.singleton_append]
          omega

/-- `get_message_response` has no loop to leave. -/
theorem signal_unfinished {at_ : ConsumerAt} (on : at_ ≠ .finished) : at_.signal ≠ .finished := by
  cases at_ with
  | outside => exact on
  | dequeue => exact fun eq => by cases eq
  | finished => exact absurd rfl on

theorem dequeued_unfinished (s : Shutdown MsgNode)
    (looked : Option (Option MsgNode × Queue MsgNode))
    (section_ : s.dequeued .getMessageResponse looked = (t, es)) : t.consumer ≠ .finished := by
  cases looked with
  | none =>
      cases section_
      exact fun eq => by cases eq
  | some out =>
      obtain ⟨node, queue⟩ := out
      cases section_
      cases node <;> exact fun eq => by cases eq

theorem step_unfinished (on : s.consumer ≠ .finished)
    (step : msgMachine.step s a = some (t, es)) : t.consumer ≠ .finished := by
  cases a with
  | call created =>
      simp only [machine] at step
      split at step
      · cases step
        cases created <;> exact fun eq => by cases eq
      · cases step
  | dequeue =>
      simp only [machine] at step
      split at step
      · exact dequeued_unfinished s _ (Option.some.inj step)
      · exact dequeued_unfinished s _ (Option.some.inj step)
      · cases step
  | spuriousWakeup =>
      simp only [machine] at step
      split at step
      · cases step
        exact fun eq => by cases eq
      · cases step
  | enqueue node =>
      simp only [machine] at step
      split at step
      · cases step
        exact signal_unfinished on
      · cases step
        exact on
  | flushQueue =>
      cases step
      exact signal_unfinished on
  | clearFlag =>
      cases step
      exact on
  | signalQueue =>
      simp only [machine] at step
      split at step
      · cases step
      · cases step
        exact signal_unfinished on

theorem awake_signal {at_ : ConsumerAt} (on : at_ ≠ .finished) :
    at_.signal = .outside ∨ at_.signal = .dequeue .entering ∨ at_.signal = .dequeue .woken := by
  cases at_ with
  | outside => exact .inl rfl
  | dequeue at_ => cases at_ <;> simp [ConsumerAt.signal, DequeueAt.signal]
  | finished => exact absurd rfl on

end Returned

end Shutdown

/-! ### The steps of the receiver thread -/

namespace Noticed

section Steps

variable {s t u : Noticed} {a : Action} {as : List Action} {es log : List Event}
  {closed : Bool} {r : Noticing} {node : MsgNode}

/-- The outcomes of `notice_reconnect`, up to `flush_queue`. -/
inductive Notices (s : Noticed) (closed : Bool) (r : Noticing) :
    Noticed → List Event → Prop where
  | noData (lost : closed = true) (none_ : r.data = false) :
      Notices s closed r s [.returned closed 0]
  | taken (node : MsgNode) (data : closed = true → r.data = true)
      (made : r.noticeNode closed = some node)
      (room : s.client.queue.nodes.length ≤ Queue.maxSize) :
      Notices s closed r
        { s with client := s.client.signalled { s.client.queue with
            nodes := s.client.queue.nodes ++ [node] } } [.returned closed 1]
  | refused (node : MsgNode) (data : closed = true → r.data = true)
      (made : r.noticeNode closed = some node)
      (full : Queue.maxSize < s.client.queue.nodes.length) :
      Notices s closed r { s with refused := some closed } []

theorem step_notice (step : machine.step s (.notice closed r) = some (t, es)) :
    s.refused = none ∧ (∀ node ∈ s.client.queue.nodes, r.node ≠ some node.address) ∧
      Notices s closed r t es := by
  simp only [machine] at step
  split at step
  · cases step
  next fresh =>
      obtain ⟨client, refused⟩ := s
      rw [not_or, not_exists] at fresh
      have idle : refused = none := Option.not_isSome_iff_eq_none.mp fresh.1
      subst idle
      refine ⟨rfl, fun node mem eq => fresh.2 node ⟨mem, eq⟩, ?_⟩
      rw [Shutdown.noticeReconnect] at step
      by_cases noData : closed = true ∧ r.data = false
      · rw [if_pos noData] at step
        cases step
        exact .noData noData.1 noData.2
      · have data : closed = true → r.data = true := fun lost => by simpa [lost] using noData
        rw [if_neg noData] at step
        cases made : r.noticeNode closed with
        | none =>
            rw [made] at step
            cases step
        | some node =>
            rw [made, Shutdown.enqueueNotice, Queue.enqueue] at step
            by_cases full : Queue.maxSize < client.queue.nodes.length
            · rw [if_pos full] at step
              cases step
              exact .refused node data made full
            · rw [if_neg full] at step
              cases step
              exact .taken node data made (Nat.le_of_not_lt full)

theorem step_other {a : Shutdown.Action MsgNode} (step : machine.step s (.other a) = some (t, es)) :
    enabled s.refused a = true ∧ t.refused = s.refused ∧
      ∃ nodes, msgMachine.step s.client a = some (t.client, nodes) ∧ es = nodes.map .dequeued := by
  simp only [machine] at step
  split at step
  next able =>
      obtain ⟨⟨client, nodes⟩, stepped, eq⟩ := Option.map_eq_some_iff.mp step
      cases eq
      exact ⟨able, rfl, nodes, stepped, rfl⟩
  · cases step

theorem step_flush (step : machine.step s .flushQueue = some (t, es)) :
    ∃ closed, s.refused = some closed ∧ es = [.returned closed 1] ∧ t.refused = none ∧
      t.client.queue.nodes = [] := by
  simp only [machine] at step
  split at step
  · cases step
  next closed refused =>
      cases step
      exact ⟨closed, refused, rfl, rfl, rfl⟩

/-- A notice that the queue takes, and that is right. -/
theorem taken_of_takes (takes : s.TakesNotice (.notice closed r))
    (step : machine.step s (.notice closed r) = some (t, es)) :
    ∃ address, (∀ other ∈ s.client.queue.nodes, other.address ≠ address) ∧
      t = { s with client := s.client.signalled { s.client.queue with
        nodes := s.client.queue.nodes ++ [notice address closed] } } ∧
      s.client.queue.nodes.length ≤ Queue.maxSize ∧ es = [.returned closed 1] := by
  obtain ⟨_, fresh, outcome⟩ := step_notice step
  obtain ⟨data, fits⟩ := takes
  have memory {node : MsgNode} (made : r.noticeNode closed = some node) := by
    by_contra none_
    rw [Noticing.noticeNode_eq_none.mpr none_] at made
    cases made
  cases outcome with
  | noData lost none_ =>
      rw [data lost] at none_
      cases none_
  | refused node _ made full => exact absurd (fits (memory made)).1 (Nat.not_le.mpr full)
  | taken node _ made room =>
      obtain ⟨address, right⟩ := Noticing.eq_notice_iff made
      have same := right.mpr (fits (memory made)).2
      refine ⟨node.address, fun other mem eq => fresh other mem ?_, ?_, room, rfl⟩
      · rw [address, eq]
      · rw [← same]

/-! ### Runs that refuse no notice -/

/-- A step that refuses no notice is one of `msg_queue`, which is not flushed. -/
theorem step_takes (takes : s.TakesNotice a) (idle : s.refused = none)
    (step : machine.step s a = some (t, es)) :
    t.refused = none ∧ ∃ b nodes, msgMachine.step s.client b = some (t.client, nodes) ∧
      b ≠ .flushQueue ∧ [b].count .dequeue = [a].count (.other .dequeue) ∧
      ∀ node, node ∈ nodes → .dequeued node ∈ es := by
  cases a with
  | notice closed r =>
      obtain ⟨address, _, rfl, room, rfl⟩ := taken_of_takes takes step
      refine ⟨idle, .enqueue (notice address closed), [], ?_, by simp, by simp, by simp⟩
      simp [Shutdown.machine, Queue.enqueue, Nat.not_lt.mpr room]
  | flushQueue =>
      obtain ⟨closed, refused, _⟩ := step_flush step
      rw [idle] at refused
      cases refused
  | other b =>
      obtain ⟨able, same, nodes, stepped, rfl⟩ := step_other step
      refine ⟨same.trans idle, b, nodes, stepped, ?_, ?_, fun node => List.mem_map_of_mem⟩
      · rintro rfl
        cases able
      · simp [List.count_singleton]

theorem exec_takes (takes : machine.Along TakesNotice s as) (idle : s.refused = none)
    (run : machine.exec s as = some (t, log)) :
    t.refused = none ∧ ∃ bs nodes, msgMachine.exec s.client bs = some (t.client, nodes) ∧
      .flushQueue ∉ bs ∧ bs.count .dequeue = as.count (.other .dequeue) ∧
      ∀ node, node ∈ nodes → .dequeued node ∈ log := by
  induction as generalizing s log with
  | nil =>
      cases run
      exact ⟨idle, [], [], rfl, by simp, rfl, by simp⟩
  | cons a as ih =>
      obtain ⟨m, es, rest, step, tail, rfl⟩ := exec_cons.mp run
      obtain ⟨idle', b, front, stepped, noFlush, count, here⟩ := step_takes takes.1 idle step
      obtain ⟨last, bs, nodes, run', noFlush', count', later⟩ := ih (takes.2 m es step) idle' tail
      refine ⟨last, b :: bs, front ++ nodes, exec_cons.mpr ⟨_, _, _, stepped, run', rfl⟩, ?_, ?_, ?_⟩
      · simp [noFlush.symm, noFlush']
      · rw [← List.singleton_append, ← List.singleton_append (l := as), List.count_append,
          List.count_append, count, count']
      · intro node mem
        rcases List.mem_append.mp mem with mem | mem
        · exact List.mem_append_left _ (here node mem)
        · exact List.mem_append_right _ (later node mem)

/-! ### What becomes of a notice -/

theorem exec_unfinished (on : s.client.consumer ≠ .finished)
    (run : machine.exec s as = some (t, log)) : t.client.consumer ≠ .finished := by
  refine exec_rec (I := fun t _ => t.client.consumer ≠ .finished) ?_ [] on run
  intro s log a t es on step
  cases a with
  | notice closed r =>
      obtain ⟨_, _, outcome⟩ := step_notice step
      cases outcome with
      | noData => exact on
      | taken => exact Shutdown.signal_unfinished on
      | refused => exact on
  | flushQueue =>
      simp only [machine] at step
      split at step
      · cases step
      · cases step
        exact Shutdown.signal_unfinished on
  | other a =>
      obtain ⟨_, _, nodes, stepped, _⟩ := step_other step
      exact Shutdown.step_unfinished on stepped

theorem notice_address (address : Nat) (closed : Bool) :
    (notice address closed).address = address := by
  cases closed <;> rfl

/-- A notice at the end of the queue is returned. -/
theorem told_of_last (fresh : ∀ other ∈ s.client.queue.nodes, other.address ≠ node.address)
    (last : t.client.queue.nodes = s.client.queue.nodes ++ [node])
    (awake : t.client.consumer = .outside ∨ t.client.consumer = .dequeue .entering ∨
      t.client.consumer = .dequeue .woken)
    (idle : t.refused = none) (takes : machine.Along TakesNotice t as) : Told node s t as := by
  refine ⟨fresh, ⟨_, List.Sublist.refl _, last⟩, fun u log run => ?_⟩
  have behind : Shutdown.Behind t.client node s.client.queue.nodes := ⟨⟨[], last⟩, awake⟩
  obtain ⟨_, bs, nodes, run', noFlush, count, reported⟩ := exec_takes takes idle run
  rcases behind.exec noFlush run' with told | ⟨front', behind', le⟩
  · exact .inl (reported _ told)
  · obtain ⟨back, queued⟩ := behind'.queued
    refine .inr ⟨?_, ?_, behind'.enabled⟩
    · rw [queued]
      exact List.mem_append_right _ List.mem_cons_self
    · have one : Shutdown.nulls t.client ≤ 1 := by
        unfold Shutdown.nulls
        split <;> omega
      rw [last, List.length_append, List.length_singleton]
      omega

theorem not_told_same (same : t.client.queue.nodes = s.client.queue.nodes) : ¬ Told node s t as := by
  intro told
  obtain ⟨kept, _, queued⟩ := told.behind
  refine told.fresh node ?_ rfl
  rw [← same, queued]
  exact List.mem_append_right _ (List.mem_singleton_self _)

theorem not_told_flushed (flushed : t.client.queue.nodes = []) : ¬ Told node s t as := by
  intro told
  obtain ⟨kept, _, queued⟩ := told.behind
  cases kept <;> cases flushed.symm.trans queued

/-- A node that the queue has taken is what the application is told of, so it has to be right. -/
theorem eq_notice_of_told {address : Nat} (last : t.client.queue.nodes =
    s.client.queue.nodes ++ [node]) (told : Told (notice address closed) s t as) :
    node = notice node.address closed := by
  obtain ⟨kept, _, queued⟩ := told.behind
  have same : node = notice address closed := by
    simpa using (List.append_inj' (last.symm.trans queued) rfl).2
  have there : node.address = address := by
    rw [same, notice_address]
  rw [there, same]

/-- A queue that has refused a notice is flushed before `notice_reconnect` returns. -/
theorem flushed_of_refused (refused : s.refused = some closed) (idle : t.refused = none)
    (run : machine.exec s as = some (t, log)) :
    ∃ front back m n log' es, as = front ++ .flushQueue :: back ∧
      machine.exec s front = some (m, log') ∧ machine.step m .flushQueue = some (n, es) ∧
      .returned closed 1 ∈ es ∧ n.client.queue.nodes = [] := by
  have keep : ∀ (s : Noticed) (log : List Event) (a : Action) (t : Noticed) (es : List Event),
      s.refused = some closed → a ≠ .flushQueue →
      machine.step s a = some (t, es) → t.refused = some closed := by
    intro s _ a t es refused other step
    cases a with
    | notice closed' r =>
        rw [(step_notice step).1] at refused
        cases refused
    | flushQueue => exact absurd rfl other
    | other a => exact (step_other step).2.1.trans refused
  rcases along_or_first_break (C := fun _ a => a ≠ .flushQueue) run with along |
    ⟨front, a, back, m, before, after, rfl, along, run', flush, rest, rfl⟩
  · have kept := exec_rec_of_along (I := fun t _ => t.refused = some closed) keep along [] refused run
    rw [idle] at kept
    cases kept
  · have held := exec_rec_of_along (I := fun t _ => t.refused = some closed) keep along [] refused
      run'
    rw [Decidable.not_not] at flush
    subst flush
    obtain ⟨n, es, _, step, _, _⟩ := exec_cons.mp rest
    obtain ⟨closed', same, rfl, _, empty⟩ := step_flush step
    obtain rfl : closed = closed' := Option.some.inj (held.symm.trans same)
    exact ⟨front, back, m, n, before, _, rfl, run', step, List.mem_singleton_self _, empty⟩

end Steps

/-- For every content of `msg_queue`, wherever the application is, and in every run from there
in which each `notice_reconnect` returns: all of them leave their notice behind what was kept,
and the application is told of it, exactly when the queue takes each notice and there is memory
for it. -/
theorem told_iff (running : Bool) (queue : Queue MsgNode) (call : Option DequeueAt)
    (signalling : Nat) {t : Noticed} {as : List Action} {log : List Event}
    (run : machine.exec (start running queue call signalling) as = some (t, log))
    (idle : t.refused = none) :
    EachTold (start running queue call signalling) as ↔
      machine.Along TakesNotice (start running queue call signalling) as := by
  have on : (start running queue call signalling).client.consumer ≠ .finished := by
    cases call <;> exact fun eq => by cases eq
  constructor
  · intro each
    rcases along_or_first_break run with along |
      ⟨front, a, back, m, before, after, rfl, along, run', breaks, rest, rfl⟩
    · exact along
    have quiet := (exec_takes along rfl run').1
    obtain ⟨n, es, after', step, tail, _⟩ := exec_cons.mp rest
    cases a with
    | flushQueue => exact absurd trivial breaks
    | other => exact absurd trivial breaks
    | notice closed r =>
        refine absurd ?_ breaks
        obtain ⟨_, _, outcome⟩ := step_notice step
        have returns := each front (.notice closed r) back m n before es closed
        cases outcome with
        | noData =>
            obtain ⟨_, told⟩ := returns 0 rfl run' step (List.mem_singleton_self _)
            exact absurd told (not_told_same rfl)
        | taken node data made room =>
            obtain ⟨_, told⟩ := returns 1 rfl run' step (List.mem_singleton_self _)
            have right := eq_notice_of_told rfl told
            exact ⟨data, fun _ => ⟨room, (Noticing.eq_notice_iff made).2.mp right⟩⟩
        | refused node data made full =>
            obtain ⟨mid, rest', u, v, log', es', rfl, run'', flush, returned, empty⟩ :=
              flushed_of_refused rfl idle tail
            have whole := exec_append.mpr ⟨m, before, _, run',
              exec_cons.mpr ⟨_, _, _, step, run'', rfl⟩, rfl⟩
            obtain ⟨_, told⟩ := each (front ++ .notice closed r :: mid) .flushQueue rest' u v _ es'
              closed 1 (by simp) whole flush returned
            exact absurd told (not_told_flushed empty)
  · rintro along front a back m n before es closed ret rfl run' step returned
    obtain ⟨first, later⟩ := along_of_append along run'
    have quiet := (exec_takes first rfl run').1
    cases a with
    | flushQueue =>
        obtain ⟨_, refused, _⟩ := step_flush step
        rw [quiet] at refused
        cases refused
    | other a =>
        obtain ⟨_, _, nodes, _, rfl⟩ := step_other step
        simp at returned
    | notice closed' r =>
        obtain ⟨address, fresh, rfl, _, rfl⟩ := taken_of_takes later.1 step
        cases List.mem_singleton.mp returned
        refine ⟨address, told_of_last ?_ rfl ?_ quiet (later.2 _ _ step)⟩
        · rwa [notice_address]
        · exact Shutdown.awake_signal (exec_unfinished on run')

/-- So many broadcasts that the application has not read. -/
def unread (count : Nat) : Queue MsgNode where
  nodes := (List.range count).map fun address =>
    ⟨address, Status.brdinfo.value, CmdType.brdcast.value, Cmd.uri.value, -1,
      [some (cString "file:///a.mp4")]⟩
  running := true

/-- A `notice_reconnect` with memory for everything. -/
def noticing (closed : Bool) (address : Nat) : Action :=
  .notice closed ⟨true, true, some address, true, true⟩

/-- The connection is lost and comes back while the application is in `dequeue`. -/
def losesConnection : List Action :=
  [.other (.call true), noticing true 2, .other .dequeue, noticing false 3, .other (.call true),
    .other .dequeue]

theorem unread_two_told :
    EachTold (start true (unread 2) none 0) losesConnection ∧
      (machine.exec (start true (unread 2) none 0) losesConnection).isSome := by
  refine ⟨(told_iff true (unread 2) none 0 rfl rfl).mpr ?_, rfl⟩
  decide

/-- The application has read nothing since the queue took its last node: the notice of the loss is
refused, or takes the last place and is flushed for that of the new connection. -/
theorem unread_all_lost :
    (¬ EachTold (start true (unread 65) none 0) [noticing true 65, .flushQueue] ∧
      (machine.exec (start true (unread 65) none 0)
        [noticing true 65, .flushQueue]).isSome) ∧
    ¬ EachTold (start true (unread 64) none 0)
        [noticing true 64, noticing false 65, .flushQueue] ∧
      (machine.exec (start true (unread 64) none 0)
        [noticing true 64, noticing false 65, .flushQueue]).isSome := by
  refine ⟨⟨fun each => ?_, rfl⟩, fun each => ?_, rfl⟩
  · obtain ⟨_, told⟩ := each [noticing true 65] .flushQueue [] _ _ _ _ true 1 rfl rfl rfl
      (List.mem_singleton_self _)
    exact not_told_flushed rfl told
  · obtain ⟨_, told⟩ := each [noticing true 64, noticing false 65] .flushQueue [] _ _ _ _ false 1
      rfl rfl rfl (List.mem_singleton_self _)
    exact not_told_flushed rfl told

end Noticed

end OdroidPlayer
