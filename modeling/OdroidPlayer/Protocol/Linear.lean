import OdroidPlayer.Protocol.Returned
import OdroidPlayer.Lib.Log

/-!
The requests of all clients take effect one after the other.

The response thread executes one node at a time, so the executions have an order. A request
takes effect between the moment it is sent and the moment it returns its status: a request
that returns before another one is sent is executed before it, whichever clients the two
belong to.
-/

namespace OdroidPlayer

open Transition Transition.System

namespace Exchange

/-- What must have happened before an event: a request has not been executed before it is
sent, what is executed has been sent and not been executed, and a status that is returned is
that of an execution. -/
def Causal (front : List Event) : Event → Prop
  | .sent c own _ => Int32.ofNat own ∉ (executedOn c front).map Node.msgIdx
  | .executed c node _ =>
      node.msgIdx ∉ (executedOn c front).map Node.msgIdx ∧
        ∃ own request, (own, request) ∈ sentOn c front ∧ requestOf node = message own request
  | .client c (.returned own (some status)) =>
      ∃ node response, Event.executed c node response ∈ front ∧
        node.msgIdx = Int32.ofNat own ∧ status = setStatus
          (OpClient.createNode (responseMessage node response.status response.data))
  | .client _ _ | .refused .. => True

/-- What has been executed has been sent. -/
theorem Inv.sent_of_executed {s : Exchange} {log : List Event} (inv : Inv s log) {c : Nat}
    {idx : Int32} (mem : idx ∈ (executedOn c log).map Node.msgIdx) :
    ∃ request ∈ sentOn c log, idx = Int32.ofNat request.1 := by
  obtain ⟨done, sub, eq⟩ := inv.executed c
  obtain ⟨node, executed, rfl⟩ := List.mem_map.mp mem
  have there : requestOf node ∈ done.map sentMessage := eq ▸ List.mem_map_of_mem executed
  obtain ⟨request, mine, same⟩ := List.mem_map.mp there
  exact ⟨request, sub.subset mine, (congrArg AMessage.idx same).symm⟩

/-- The status that a request returns is in its hand. -/
theorem returned_status {s : Exchange} {log : List Event} (matched : Matched s log) {c : Nat}
    {own : Nat} {node : ClientNode} (call : (s.clients c).call = some ⟨own, .comparing node⟩)
    (same : toSizeT node.msgIdx = (s.clients c).msgIdx) :
    Causal log (.client c (.returned own (some (setStatus node)))) := by
  have kept := matched.clients c
  have there := OpClient.mem_pending_of_comparing call
  have queued := mem_enqueuedOn (mem_clientLog.mp (kept.enqueued node there))
  obtain ⟨own', request, answered, response, -, executed, -, -, rfl⟩ :=
    matched.answer (List.mem_append_left _ queued)
  exact ⟨answered, response, executed, (kept.own_number call).mp same, rfl⟩

theorem causal_of_refused {front : List Event} {e : Event}
    (refused : ∃ c msg, e = .refused c msg) : Causal front e := by
  obtain ⟨c, msg, rfl⟩ := refused
  trivial

/-- An execution comes after its request has been sent and is the only one of it. -/
theorem executed_causal {s t : Exchange} {log es : List Event} {c : Nat} {node : Node}
    {rest : List (Nat × Node)} {response : Response} (inv : Inv s log)
    (after : Inv t (log ++ .executed c node response :: es))
    (queue : s.queue = (c, node) :: rest) : Causal log (.executed c node response) := by
  constructor
  · intro executed
    have once := after.nodup c
    have last : executedOn c (.executed c node response :: es) = node :: executedOn c es := by
      simp [executedOn]
    rw [executedOn_append, last, List.map_append, List.map_cons] at once
    exact (List.nodup_append.mp once).2.2 _ executed _ List.mem_cons_self rfl
  · have queued : requestOf node ∈ s.line c log := by simp [line, queuedOn, queue]
    obtain ⟨request, sent, same⟩ := (inv.ordered c).mem queued
    exact ⟨request.1, request.2, sent, same⟩

/-- The events of a step follow from what has happened before it. -/
theorem Matched.causal {s t : Exchange} {log es : List Event} {a : Action}
    (matched : Matched s log) (after : Inv t (log ++ es)) (move : Move s a t es)
    (each : EachAt Causal log) : EachAt Causal (log ++ es) := by
  have inv := matched.inv
  cases move with
  | @client c a client es inside move =>
      cases move with
      | answers call same => exact each.concat (returned_status matched call same)
      | fails => exact each.concat trivial
      | enqueues => exact each.concat trivial
      | _ => simpa using each
  | @sendCommand c own request known at_ =>
      refine each.concat fun executed => ?_
      obtain ⟨earlier, sent, same⟩ := inv.sent_of_executed executed
      obtain ⟨rfl, -, before⟩ := (inv.ordered c).unsent _ at_
      have less := before earlier sent
      exact less.ne' (ofNat_inj (inv.ordered c).small (inv.small sent) same)
  | connectNewClient | enqueue | sendNotifyMessage => simpa using each
  | refuse | drop => exact each.concat trivial
  | @execute env c node rest handled response t es queue run is delivered =>
      obtain ⟨lost, rfl, refused⟩ := deliver_events delivered
      have first := each.concat (executed_causal inv after queue)
      rw [← List.singleton_append, ← List.append_assoc]
      exact first.append fun e mem _ => causal_of_refused (refused e mem)
  | @disconnectClient fd =>
      exact each.append fun e mem _ => causal_of_refused (s.disconnect_events fd e mem)
  | receive down received =>
      rcases (OpClient.receive_cases received).2 with rfl | ⟨rfl, -⟩
      · simpa using each
      · exact each.concat trivial

theorem causal_of_run {t : Exchange} {as : List Action} {log : List Event}
    (vacated : machine.Along Vacated start as) (run : machine.exec start as = some (t, log)) :
    EachAt Causal log := by
  have keep : ∀ (s : Exchange) (before : List Event) (a : Action) (t : Exchange)
      (es : List Event), Matched s before ∧ EachAt Causal before → Vacated s a →
      machine.step s a = some (t, es) →
      Matched t (before ++ es) ∧ EachAt Causal (before ++ es) := by
    rintro s before a t es ⟨matched, each⟩ vacated step
    have after := matched.keep vacated step
    exact ⟨after, matched.causal after.inv (step_move step) each⟩
  exact (exec_rec_of_along keep vacated [] ⟨start_matched, EachAt.nil⟩ run).2

/-- Where no descriptor is given to a client while a request of another one that has had it is in
the queue, a run of all clients and the server is as if the requests took effect at their
executions: each execution comes after its request has been sent, is the only one of it, and
comes before the request returns its status. So a request that has returned its status before
another one is sent has been executed before it, and that one has not. -/
theorem requests_take_effect_in_order {t : Exchange} {as : List Action} {log : List Event}
    (vacated : machine.Along Vacated start as) (run : machine.exec start as = some (t, log)) :
    EachAt Causal log ∧
      ∀ front back c own status,
        log = front ++ Event.client c (.returned own (some status)) :: back →
        Int32.ofNat own ∈ (executedOn c front).map Node.msgIdx ∧
          ∀ c' own' request, Event.sent c' own' request ∈ back →
            Int32.ofNat own' ∉ (executedOn c' front).map Node.msgIdx := by
  have each := causal_of_run vacated run
  refine ⟨each, ?_⟩
  rintro front back c own status rfl
  constructor
  · have here := each front (.client c (.returned own (some status))) ⟨back, by simp⟩
    obtain ⟨node, response, executed, number, -⟩ := here
    exact number ▸ List.mem_map_of_mem (mem_executedOn executed)
  · intro c' own' request sent executed
    obtain ⟨between, later, rfl⟩ := List.append_of_mem sent
    have here := each (front ++ Event.client c (.returned own (some status)) :: between)
      (.sent c' own' request) ⟨later, by simp⟩
    refine here ?_
    rw [executedOn_append, List.map_append]
    exact List.mem_append_left _ executed

/-- The third client sends its request when the first has returned from its own. -/
theorem reused_in_order : ∃ t log, machine.exec start reused = some (t, log) ∧
    ∃ front back status,
      log = front ++ Event.client 0 (.returned 1 (some status)) :: back ∧
      Event.sent 2 1 opcSendPlay ∈ back ∧
      Int32.ofNat 1 ∉ (executedOn 2 front).map Node.msgIdx := by
  have run : ∃ t log, machine.exec start reused = some (t, log) ∧
      ∃ status, log = log.take 4 ++ Event.client 0 (.returned 1 (some status)) :: log.drop 5 ∧
        (log.drop 5)[3]? = some (Event.sent 2 1 opcSendPlay) :=
    ⟨_, _, rfl, _, rfl, rfl⟩
  obtain ⟨t, log, run, status, split, fourth⟩ := run
  have sent := List.mem_of_getElem? fourth
  refine ⟨t, log, run, log.take 4, log.drop 5, status, split, sent, ?_⟩
  have vacated : machine.Along Vacated start reused := by decide
  have order := requests_take_effect_in_order vacated run
  exact (order.2 _ _ 0 1 status split).2 2 1 opcSendPlay sent

end Exchange

end OdroidPlayer
