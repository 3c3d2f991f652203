import OdroidPlayer.Protocol.Once

/-!
A request that returns a status has been executed, exactly once.

The response of a node goes to the client that has its descriptor. As long as a descriptor is
given out only when the requests of the client that had it before have left the queue, that is
the client whose request has been executed. So a client finds no number in its queue that it
has not drawn, and a status that it returns is that of its own request.
-/

namespace OdroidPlayer

open Transition Transition.System

namespace Exchange

open OpClient (IsAnswer)

/-- No request of another client that has had the descriptor is still in the queue. -/
def Vacated (s : Exchange) : Action → Prop
  | .connectNewClient fd c => ∀ entry ∈ s.queue, entry.2.clientFd = fd → entry.1 = c
  | _ => True

instance (s : Exchange) (a : Action) : Decidable (Vacated s a) :=
  match a with
  | .connectNewClient fd c =>
      inferInstanceAs (Decidable (∀ entry ∈ s.queue, entry.2.clientFd = fd → entry.1 = c))
  | .client .. | .sendCommand .. | .runServer .. | .runResponse _ | .sendNotifyMessage ..
  | .disconnectClient _ | .receive _ => .isTrue trivial

/-! ### The responses to a client -/

/-- The responses to the requests of a client that have been sent, in order, as a client
enqueues them. -/
def answersOn (c : Nat) (log : List Event) : List ClientNode :=
  log.filterMap fun
    | .executed c' node response =>
        if c' = c ∧ response.delivery = .sent then
          some (OpClient.createNode (responseMessage node response.status response.data))
        else none
    | _ => none

/-- The responses that a client has enqueued, in order. -/
def enqueuedOn (c : Nat) (log : List Event) : List ClientNode :=
  log.filterMap fun
    | .client c' (.enqueued node) => if c' = c then some node else none
    | _ => none

section Events

variable (c : Nat) (front back : List Event)

@[simp] theorem answersOn_append :
    answersOn c (front ++ back) = answersOn c front ++ answersOn c back :=
  List.filterMap_append

@[simp] theorem enqueuedOn_append :
    enqueuedOn c (front ++ back) = enqueuedOn c front ++ enqueuedOn c back :=
  List.filterMap_append

variable (c' : Nat) (es : List OpClient.Event) (msgs : List AMessage)

@[simp] theorem answersOn_client : answersOn c (es.map (.client c')) = [] := by simp [answersOn]

@[simp] theorem answersOn_refused : answersOn c (msgs.map (.refused c')) = [] := by
  simp [answersOn]

@[simp] theorem enqueuedOn_refused : enqueuedOn c (msgs.map (.refused c')) = [] := by
  simp [enqueuedOn]

theorem enqueuedOn_of_quiet {es : List OpClient.Event} (quiet : ∀ node, .enqueued node ∉ es) :
    enqueuedOn c (es.map (.client c')) = [] := by
  simp only [enqueuedOn, List.filterMap_map, List.filterMap_eq_nil_iff]
  intro e mem
  cases e with
  | enqueued node => exact absurd mem (quiet node)
  | returned => rfl

theorem enqueuedOn_other {c c' : Nat} (other : c' ≠ c) :
    enqueuedOn c (es.map (.client c')) = [] := by
  simp only [enqueuedOn, List.filterMap_map, List.filterMap_eq_nil_iff]
  intro e _
  cases e with
  | enqueued node => simp [other]
  | returned => rfl

end Events

theorem mem_clientLog {c : Nat} {log : List Event} {event : OpClient.Event} :
    event ∈ clientLog c log ↔ Event.client c event ∈ log := by
  simp only [clientLog, List.mem_filterMap]
  constructor
  · rintro ⟨e, mem, is⟩
    split at is
    · split at is
      next same =>
          cases is
          exact same ▸ mem
      · cases is
    · cases is
  · exact fun mem => ⟨_, mem, by simp⟩

theorem mem_enqueuedOn {c : Nat} {log : List Event} {node : ClientNode}
    (enqueued : Event.client c (.enqueued node) ∈ log) : node ∈ enqueuedOn c log :=
  List.mem_filterMap.mpr ⟨_, enqueued, by simp⟩

theorem of_mem_answersOn {c : Nat} {log : List Event} {answer : ClientNode}
    (mem : answer ∈ answersOn c log) :
    ∃ node response, Event.executed c node response ∈ log ∧ response.delivery = .sent ∧
      answer = OpClient.createNode (responseMessage node response.status response.data) := by
  obtain ⟨e, there, is⟩ := List.mem_filterMap.mp mem
  split at is
  next c' node response =>
      split at is
      next mine =>
          cases is
          exact ⟨node, response, mine.1 ▸ there, mine.2, rfl⟩
      · cases is
  · cases is

/-- The responses that a client has enqueued and those that it has yet to read. -/
def replies (s : Exchange) (c : Nat) (log : List Event) : List ClientNode :=
  enqueuedOn c log ++ ((s.down c).filter fun msg => IsAnswer msg).map OpClient.createNode

theorem not_answer_of_notice {msg : CString} {msgIdx : Int32} {status : Status} {type : CmdType}
    {cmd : Int32} (notice : type = .notify ∨ type = .brdcast) :
    ¬ IsAnswer (notifyMessage msg msgIdx status type cmd) := by
  rcases notice with rfl | rfl
  · change ¬ (CmdType.notify.value = CmdType.command.value ∨
      CmdType.notify.value = CmdType.stream.value)
    decide
  · change ¬ (CmdType.brdcast.value = CmdType.command.value ∨
      CmdType.brdcast.value = CmdType.stream.value)
    decide

/-- The answers to a client on its connection, when something is written to it. -/
theorem replies_write (s : Exchange) (c c' : Nat) (msgs : List AMessage) (log : List Event) :
    (s.write c msgs).replies c' log =
      s.replies c' log ++ if c = c' then
        (msgs.filter fun msg => IsAnswer msg).map OpClient.createNode else [] := by
  by_cases same : c = c'
  · subst same
    simp [replies, write, setDown]
  · simp [replies, write, setDown, same, Ne.symm same]

/-! ### What every step keeps -/

structure Matched (s : Exchange) (log : List Event) : Prop where
  inv : Inv s log
  clients : ∀ c, (s.clients c).Kept (clientLog c log)
  answers : ∀ c, (s.replies c log).Sublist (answersOn c log)
  /-- A descriptor that a node names is that of its client, if it is in use. -/
  addressed : ∀ entry ∈ s.queue, ∀ c, s.peer entry.2.clientFd = some c → c = entry.1

theorem start_matched : Matched start [] where
  inv := start_inv
  clients _ := OpClient.start_kept
  answers _ := List.Sublist.refl _
  addressed _ mem := absurd mem List.not_mem_nil

namespace Matched

variable {s t : Exchange} {log es : List Event} {c : Nat}

/-- An answer on its way to a client is that to a request of the client. -/
theorem answer (matched : Matched s log) {answer : ClientNode} (mem : answer ∈ s.replies c log) :
    ∃ own request node response, (own, request) ∈ sentOn c log ∧
      Event.executed c node response ∈ log ∧ requestOf node = message own request ∧
      response.delivery = .sent ∧
      answer = OpClient.createNode (responseMessage node response.status response.data) := by
  obtain ⟨node, response, executed, sent, is⟩ :=
    of_mem_answersOn ((matched.answers c).subset mem)
  have there : requestOf node ∈ s.line c log := by
    rw [line, List.append_assoc]
    exact List.mem_append_left _ (List.mem_map_of_mem (mem_executedOn executed))
  obtain ⟨request, mine, same⟩ := (matched.inv.ordered c).mem there
  exact ⟨request.1, request.2, node, response, mine, executed, same, sent, is⟩

/-- An answer on a connection carries a number that the client has drawn. -/
theorem answers_down (matched : Matched s log) {msg : AMessage} (mem : msg ∈ s.down c) :
    (s.clients c).Answers msg := by
  intro type
  have reply : OpClient.createNode msg ∈ s.replies c log := by
    refine List.mem_append_right _ (List.mem_map_of_mem ?_)
    exact List.mem_filter.mpr ⟨mem, decide_eq_true type⟩
  obtain ⟨own, request, node, response, sent, -, same, -, is⟩ := matched.answer reply
  obtain ⟨pos, drawn, -⟩ := (matched.inv.ordered c).drawn _ sent
  refine ⟨own - 1, by dsimp only at pos drawn; omega, ?_⟩
  have idx : msg.idx = node.msgIdx := congrArg ClientNode.msgIdx is
  have own' : node.msgIdx = Int32.ofNat own := congrArg AMessage.idx same
  have back : own - 1 + 1 = own := Nat.sub_add_cancel pos
  rw [idx, own', back]

/-- The clients go on as `OpClient.machine` does. -/
theorem kept_client {a : OpClient.Action} {next : OpClient} {es : List OpClient.Event}
    (matched : Matched s log) (move : (s.clients c).Move a next es) (c' : Nat) :
    ((s.setClient c next).clients c').Kept (clientLog c' (log ++ es.map (.client c))) := by
  by_cases same : c = c'
  · subst same
    simpa [setClient] using (matched.clients c).keep move
  · simpa [setClient, same, Ne.symm same] using matched.clients c'

theorem client {a : OpClient.Action} {next : OpClient} {es : List OpClient.Event}
    (matched : Matched s log) (inv : Inv (s.setClient c next) (log ++ es.map (.client c)))
    (inside : onConnection a = false) (move : (s.clients c).Move a next es) :
    Matched (s.setClient c next) (log ++ es.map (.client c)) := by
  have quiet : ∀ node, .enqueued node ∉ es := by
    refine move.no_answer ?_
    rintro recvMsg rfl
    cases inside
  refine ⟨inv, matched.kept_client move, fun c' => ?_, matched.addressed⟩
  simpa [replies, setClient, enqueuedOn_of_quiet c' c quiet] using matched.answers c'

theorem receive {msg : AMessage} {rest : List AMessage} {next : OpClient}
    {es : List OpClient.Event} (matched : Matched s log)
    (inv : Inv ((s.setClient c next).setDown c rest) (log ++ es.map (.client c)))
    (down : s.down c = msg :: rest) (received : (s.clients c).receive msg = some (next, es)) :
    Matched ((s.setClient c next).setDown c rest) (log ++ es.map (.client c)) := by
  have first : msg ∈ s.down c := by simp [down]
  have move := OpClient.receive_move (matched.answers_down first) received
  refine ⟨inv, matched.kept_client move, fun c' => ?_, matched.addressed⟩
  have before := matched.answers c'
  by_cases same : c = c'
  · subst same
    rw [replies, down] at before
    rcases (OpClient.receive_cases received).2 with rfl | ⟨rfl, answer⟩
    · refine List.Sublist.trans ?_ (by simpa using before)
      simp only [replies, setDown, List.map_nil, List.append_nil, Function.update_self]
      exact (((List.sublist_cons_self msg rest).filter _).map _).append_left _
    · simpa [replies, setDown, enqueuedOn, answersOn, answer] using before
  · simpa [replies, setDown, setClient, enqueuedOn_other es same, same, Ne.symm same] using before

theorem disconnect (matched : Matched s log) (fd : Int) :
    Matched (s.disconnect fd).1 (log ++ (s.disconnect fd).2) := by
  refine ⟨matched.inv.disconnect fd, fun c' => ?_, fun c' => ?_, ?_⟩
  all_goals unfold Exchange.disconnect; split
  · simpa using matched.clients c'
  · simpa [setUp] using matched.clients c'
  · simpa using matched.answers c'
  · simpa [replies, setUp] using matched.answers c'
  · exact matched.addressed
  · intro entry mem c' peer
    by_cases closed : entry.2.clientFd = fd
    · simp [setUp, closed] at peer
    · simp only [setUp, Function.update_of_ne closed] at peer
      exact matched.addressed entry mem c' peer

/-- The response thread executes the node at the head of the queue. -/
theorem execute {env : Env} {node : Node} {rest : List (Nat × Node)} {handled : Handled}
    {response : Response} (matched : Matched s log) (inv : Inv t (log ++ es))
    (queue : s.queue = (c, node) :: rest)
    (run : OdroidPlayer.runResponse env s.prevResp node = .ok handled)
    (is : handled.response = some response)
    (delivered : { s with queue := rest, prevResp := handled.prevResp }.deliver c node response =
      some (t, es)) : Matched t (log ++ es) := by
  have head : ∀ c', s.peer node.clientFd = some c' → c' = c :=
    matched.addressed (c, node) (by simp [queue])
  have tail : ∀ entry ∈ rest, ∀ c', s.peer entry.2.clientFd = some c' → c' = entry.1 :=
    fun entry mem => matched.addressed entry (by simp [queue, mem])
  have answer : IsAnswer (responseMessage node response.status response.data) :=
    (runResponse_answer run (by simp [is])).2
  -- without a delivery the node leaves the queue and nothing else changes
  have taken : response.delivery ≠ .sent →
      Matched { s with queue := rest, prevResp := handled.prevResp }
        (log ++ [.executed c node response]) := by
    intro lost
    refine ⟨matched.inv.executes queue (matched.inv.present_handled run is), fun c' => ?_,
      fun c' => ?_, tail⟩
    · simpa [clientLog] using matched.clients c'
    · simpa [replies, enqueuedOn, answersOn, lost] using matched.answers c'
  unfold deliver at delivered
  split at delivered
  next sent =>
      obtain ⟨c', peer, eq⟩ := Option.map_eq_some_iff.mp delivered
      cases eq
      obtain rfl := head c' peer
      refine ⟨inv, fun c => ?_, fun c => ?_, tail⟩
      · simpa [clientLog, write, setDown] using matched.clients c
      · rw [replies_write, answersOn_append]
        have same : { s with queue := rest, prevResp := handled.prevResp }.replies c
            (log ++ [Event.executed c' node response]) = s.replies c log := by
          simp [replies, enqueuedOn]
        have own : answersOn c [Event.executed c' node response] = if c' = c then
            [OpClient.createNode (responseMessage node response.status response.data)] else [] := by
          by_cases mine : c' = c <;> simp [answersOn, sent, mine]
        rw [same, own, List.filter_singleton, decide_eq_true answer]
        exact (matched.answers c).append (List.Sublist.refl _)
  next gaveUp =>
      cases delivered
      exact taken (by rw [gaveUp]; decide)
  next disconnected =>
      cases delivered
      have closed := (taken (by rw [disconnected]; decide)).disconnect node.clientFd
      rwa [List.append_assoc] at closed

theorem keep {a : Action} (matched : Matched s log) (vacated : Vacated s a)
    (step : machine.step s a = some (t, es)) : Matched t (log ++ es) := by
  have inv := matched.inv.keep step
  cases step_move step with
  | client inside move => exact matched.client inv inside move
  | @sendCommand c own request known at_ =>
      refine ⟨inv, fun c' => ?_, fun c' => ?_, matched.addressed⟩
      · have sent := matched.kept_client (.sent at_) c'
        simpa [clientLog, setClient, setUp] using sent
      · simpa [replies, setClient, setUp, enqueuedOn, answersOn] using matched.answers c'
  | @connectNewClient fd c free =>
      rw [List.append_nil] at inv ⊢
      refine ⟨inv, matched.clients, fun c' => ?_, fun entry mem c' peer => ?_⟩
      · refine List.Sublist.trans ?_ (matched.answers c')
        by_cases same : c = c'
        · subst same
          simp [replies, setDown]
        · simp [replies, setDown, Ne.symm same]
      · by_cases given : entry.2.clientFd = fd
        · simp only [setDown, given, Function.update_self, Option.some.injEq] at peer
          exact peer ▸ (vacated entry mem given).symm
        · simp only [setDown, Function.update_of_ne given] at peer
          exact matched.addressed entry mem c' peer
  | @enqueue fd clientId env c msg rest peer up =>
      rw [List.append_nil] at inv ⊢
      refine ⟨inv, matched.clients, matched.answers, fun entry mem c' peer' => ?_⟩
      rcases List.mem_append.mp mem with old | new
      · exact matched.addressed entry old c' peer'
      · obtain rfl := List.mem_singleton.mp new
        exact Option.some.inj (peer'.symm.trans peer)
  | @refuse fd clientId env c msg rest notices up =>
      refine ⟨inv, fun c' => ?_, fun c' => ?_, matched.addressed⟩
      · simpa [clientLog, write, setDown, setUp] using matched.clients c'
      · have none : (notices.map noticeMessage).filter (fun msg => IsAnswer msg) = [] := by
          refine List.filter_eq_nil_iff.mpr fun m mem => ?_
          obtain ⟨notice, -, rfl⟩ := List.mem_map.mp mem
          have other : ¬ IsAnswer (noticeMessage notice) := not_answer_of_notice (.inl rfl)
          simpa using other
        rw [replies_write, none]
        simpa [replies, setUp, enqueuedOn, answersOn] using matched.answers c'
  | @drop env c node rest prevResp queue same =>
      refine ⟨inv, fun c' => ?_, fun c' => ?_, fun entry mem => ?_⟩
      · simpa [clientLog] using matched.clients c'
      · simpa [replies, enqueuedOn, answersOn] using matched.answers c'
      · exact matched.addressed entry (by simp [queue, mem])
  | execute queue run is delivered => exact matched.execute inv queue run is delivered
  | @sendNotifyMessage fd msg msgIdx status type cmd c notice =>
      rw [List.append_nil] at inv ⊢
      refine ⟨inv, matched.clients, fun c' => ?_, matched.addressed⟩
      simpa [replies_write, not_answer_of_notice notice] using matched.answers c'
  | disconnectClient => exact matched.disconnect _
  | receive down received => exact matched.receive inv down received

end Matched

theorem matched_of_run {t : Exchange} {as : List Action} {log : List Event}
    (vacated : machine.Along Vacated start as) (run : machine.exec start as = some (t, log)) :
    Matched t log :=
  exec_rec_of_along (fun _ _ _ _ _ matched vacated step => matched.keep vacated step) vacated []
    start_matched run

/-- Where no descriptor is given to a client while a request of another one that has had it is in
the queue: a request that returns a status has been executed exactly once, for the client that
made it, and the status is what that execution gave. -/
theorem returned_executed_once {t : Exchange} {as : List Action} {log : List Event}
    (vacated : machine.Along Vacated start as) (run : machine.exec start as = some (t, log))
    {c own : Nat} {status : OpStatus}
    (returned : Event.client c (.returned own (some status)) ∈ log) :
    ∃ request node response, (own, request) ∈ sentOn c log ∧
      Event.executed c node response ∈ log ∧ requestOf node = message own request ∧
      response.delivery = .sent ∧
      status = setStatus
        (OpClient.createNode (responseMessage node response.status response.data)) ∧
      ((executedOn c log).map Node.msgIdx).count (Int32.ofNat own) = 1 := by
  have matched := matched_of_run vacated run
  obtain ⟨below, answer, enqueued, number, rfl⟩ :=
    (matched.clients c).returned own status (mem_clientLog.mpr returned)
  have queued := mem_enqueuedOn (mem_clientLog.mp enqueued)
  obtain ⟨own', request, node, response, sent, executed, same, delivered, rfl⟩ :=
    matched.answer (List.mem_append_left _ queued)
  have idx : node.msgIdx = Int32.ofNat own' := congrArg AMessage.idx same
  have number' : node.msgIdx = Int32.ofNat own := number
  obtain rfl : own' = own := ofNat_inj (matched.inv.small sent) below (idx.symm.trans number')
  refine ⟨request, node, response, sent, executed, same, delivered, rfl, ?_⟩
  refine List.count_eq_one_of_mem (matched.inv.nodup c) ?_
  exact idx ▸ List.mem_map_of_mem (mem_executedOn executed)

theorem reused_returned : ∃ t log status, machine.exec start reused = some (t, log) ∧
    Event.client 2 (.returned 1 (some status)) ∈ log ∧
      ((executedOn 2 log).map Node.msgIdx).count (Int32.ofNat 1) = 1 := by
  have run : ∃ t log, machine.exec start reused = some (t, log) ∧
      ∃ status, log.getLast? = some (Event.client 2 (.returned 1 (some status))) :=
    ⟨_, _, rfl, _, rfl⟩
  obtain ⟨t, log, run, status, last⟩ := run
  have returned := List.mem_of_getLast? last
  have vacated : machine.Along Vacated start reused := by decide
  obtain ⟨_, _, _, _, _, _, _, _, once⟩ := returned_executed_once vacated run returned
  exact ⟨t, log, status, run, returned, once⟩

/-- The second client is given the descriptor while the pause of the first one is in the
queue. -/
def handedOn : List Action :=
  [.connectNewClient 5 0, .client 0 .request, .sendCommand 0 opcSendPause, .runServer 5 1 calmEnv,
    .disconnectClient 5, .connectNewClient 5 1, .client 1 .request, .sendCommand 1 opcRecvTime,
    .runResponse calmEnv] ++ takesAnswer 1

/-- Its first request returns with the response to that pause and has not been executed. -/
theorem handedOn_returns_early : ∃ t log status, machine.exec start handedOn = some (t, log) ∧
    Event.client 1 (.returned 1 (some status)) ∈ log ∧ executedOn 1 log = [] := by
  have run : ∃ t log, machine.exec start handedOn = some (t, log) ∧
      ∃ status, log.getLast? = some (Event.client 1 (.returned 1 (some status))) ∧
        executedOn 1 log = [] :=
    ⟨_, _, rfl, _, rfl, rfl⟩
  obtain ⟨t, log, run, status, last, none⟩ := run
  exact ⟨t, log, status, run, List.mem_of_getLast? last, none⟩

end Exchange

end OdroidPlayer
