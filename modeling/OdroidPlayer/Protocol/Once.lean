import OdroidPlayer.Protocol.Exchange

/-!
Each request is executed at most once.

The requests of a client go to the server in the order of their numbers and are executed
in that order; the server may drop one, or lose one when a connection is closed, but makes
none up and executes none twice (`Ordered`). That holds whoever gets the responses.
-/

namespace OdroidPlayer

open Transition Transition.System

namespace OpClient

/-- A step draws the next number, or it leaves the numbers alone. -/
def Draws (s t : OpClient) : Prop :=
  (t.msgIdx = s.msgIdx ∧
      ∀ own, t.call = some ⟨own, .sending⟩ → s.call = some ⟨own, .sending⟩) ∨
    (s.msgIdx + 1 < 2 ^ 31 ∧ t.msgIdx = s.msgIdx + 1 ∧ t.call = some ⟨t.msgIdx, .sending⟩)

theorem sending_of_signal {call : Option ClientRequest} {own : Nat}
    (eq : call.map ClientRequest.signal = some ⟨own, .sending⟩) : call = some ⟨own, .sending⟩ := by
  obtain ⟨request, rfl, is⟩ := Option.map_eq_some_iff.mp eq
  have sending : request.at_ = .sending := ClientRequest.signal_sending.mp (by rw [is])
  have same : request.own = own := by rw [← request.signal_own, is]
  rw [← sending, ← same]

theorem Move.draws {s t : OpClient} {a : Action} {es : List Event} (move : Move s a t es) :
    s.Draws t := by
  cases move with
  | request free small => exact .inr ⟨small, rfl, rfl⟩
  | sent | created | plays | waits | takes | skips | answers | fails | wakes =>
      refine .inl ⟨rfl, ?_⟩
      rintro own ⟨⟩
  | enqueues | signalCmdQueue => exact .inl ⟨rfl, fun own eq => sending_of_signal eq⟩
  | stopped | others | signalMsgQueue => exact .inl ⟨rfl, fun own eq => eq⟩

/-- Only the receiver thread enqueues an answer. -/
theorem Move.no_answer {s t : OpClient} {a : Action} {es : List Event} (move : Move s a t es)
    (other : ∀ recvMsg, a ≠ .receive recvMsg) (node : ClientNode) : .enqueued node ∉ es := by
  cases move with
  | @enqueues recvMsg => exact absurd rfl (other recvMsg)
  | _ => simp

/-- A message that `handle_message` takes for an answer. -/
def IsAnswer (msg : AMessage) : Prop :=
  msg.type = CmdType.command.value ∨ msg.type = CmdType.stream.value

instance (msg : AMessage) : Decidable (IsAnswer msg) :=
  inferInstanceAs (Decidable (_ ∨ _))

/-- What the receiver thread makes of a message: an answer is enqueued unless `cmd_queue` is
full, and nothing else is. -/
theorem receive_cases {s t : OpClient} {msg : AMessage} {es : List Event}
    (received : s.receive msg = some (t, es)) :
    s.Draws t ∧ (es = [] ∨ es = [.enqueued (createNode msg)] ∧ IsAnswer msg) := by
  obtain ⟨-, received⟩ := Option.ite_none_right_eq_some.mp received
  obtain ⟨out, handled, eq⟩ := Option.map_eq_some_iff.mp received
  cases eq
  simp only [handleMessage] at handled
  split at handled
  next answer =>
      split at handled <;> cases handled
      · exact ⟨.inl ⟨rfl, fun own eq => sending_of_signal eq⟩, .inr ⟨rfl, answer⟩⟩
      · exact ⟨.inl ⟨rfl, fun own eq => eq⟩, .inl rfl⟩
  · have quiet : out.1.msgIdx = s.msgIdx ∧ out.1.call = s.call ∧ out.2 = [] := by
      split at handled
      · split at handled
        · cases handled
          exact ⟨rfl, rfl, rfl⟩
        · split at handled <;> cases handled
          exact ⟨rfl, rfl, rfl⟩
      · cases handled
        exact ⟨rfl, rfl, rfl⟩
    obtain ⟨msgIdx, call, none⟩ := quiet
    exact ⟨.inl ⟨msgIdx, fun own eq => call ▸ eq⟩, .inl none⟩

end OpClient

namespace Exchange

open OpClient (IsAnswer)

/-! ### The events of one client -/

def clientLog (c : Nat) (log : List Event) : List OpClient.Event :=
  log.filterMap fun
    | .client c' event => if c' = c then some event else none
    | _ => none

/-- The requests that a client has sent, in order. -/
def sentOn (c : Nat) (log : List Event) : List (Nat × OpcRequest) :=
  log.filterMap fun
    | .sent c' own request => if c' = c then some (own, request) else none
    | _ => none

/-- The nodes of a client that have been executed, in order. -/
def executedOn (c : Nat) (log : List Event) : List Node :=
  log.filterMap fun
    | .executed c' node _ => if c' = c then some node else none
    | _ => none

def refusedOn (c : Nat) (log : List Event) : List AMessage :=
  log.filterMap fun
    | .refused c' msg => if c' = c then some msg else none
    | _ => none

section Events

variable (c : Nat) (front back : List Event)

@[simp] theorem clientLog_append :
    clientLog c (front ++ back) = clientLog c front ++ clientLog c back :=
  List.filterMap_append

@[simp] theorem sentOn_append : sentOn c (front ++ back) = sentOn c front ++ sentOn c back :=
  List.filterMap_append

@[simp] theorem executedOn_append :
    executedOn c (front ++ back) = executedOn c front ++ executedOn c back :=
  List.filterMap_append

@[simp] theorem refusedOn_append :
    refusedOn c (front ++ back) = refusedOn c front ++ refusedOn c back :=
  List.filterMap_append

variable (c' : Nat) (es : List OpClient.Event) (msgs : List AMessage)

@[simp] theorem clientLog_client :
    clientLog c (es.map (.client c')) = if c' = c then es else [] := by
  unfold clientLog
  rw [List.filterMap_map]
  split
  next same => simp [same]
  next other => simp [other]

@[simp] theorem sentOn_client : sentOn c (es.map (.client c')) = [] := by simp [sentOn]

@[simp] theorem executedOn_client : executedOn c (es.map (.client c')) = [] := by
  simp [executedOn]

@[simp] theorem refusedOn_client : refusedOn c (es.map (.client c')) = [] := by simp [refusedOn]

@[simp] theorem clientLog_refused : clientLog c (msgs.map (.refused c')) = [] := by
  simp [clientLog]

@[simp] theorem sentOn_refused : sentOn c (msgs.map (.refused c')) = [] := by simp [sentOn]

@[simp] theorem executedOn_refused : executedOn c (msgs.map (.refused c')) = [] := by
  simp [executedOn]

@[simp] theorem refusedOn_refused :
    refusedOn c (msgs.map (.refused c')) = if c' = c then msgs else [] := by
  unfold refusedOn
  rw [List.filterMap_map]
  split
  next same => simp [same]
  next other => simp [other]

end Events

/-! ### The line of a client's requests -/

/-- The nodes of a client in the queue. -/
def queuedOn (s : Exchange) (c : Nat) : List Node :=
  s.queue.filterMap fun entry => if entry.1 = c then some entry.2 else none

/-- The requests of a client that have not been dropped: those that have been executed, those
in the queue and those on the connection. -/
def line (s : Exchange) (c : Nat) (log : List Event) : List AMessage :=
  (executedOn c log).map requestOf ++ (s.queuedOn c).map requestOf ++ s.up c

/-- The message of a request that has been sent. -/
def sentMessage (request : Nat × OpcRequest) : AMessage := message request.1 request.2

/-- What a client has sent is in line or has been dropped, and the line keeps the order. -/
structure Ordered (client : OpClient) (sent : List (Nat × OpcRequest))
    (line refused : List AMessage) : Prop where
  inLine : line.Sublist (sent.map sentMessage)
  all : (line ++ refused).Perm (sent.map sentMessage)
  growing : sent.Pairwise fun first second => first.1 < second.1
  drawn : ∀ request ∈ sent, 0 < request.1 ∧ request.1 ≤ client.msgIdx ∧ request.2 ∈ opcRequests
  unsent : ∀ own, client.call = some ⟨own, .sending⟩ →
    own = client.msgIdx ∧ 0 < own ∧ ∀ request ∈ sent, request.1 < own
  small : client.msgIdx < 2 ^ 31

namespace Ordered

variable {client next : OpClient} {sent : List (Nat × OpcRequest)} {line refused : List AMessage}

theorem move (ordered : Ordered client sent line refused) (draws : client.Draws next) :
    Ordered next sent line refused := by
  have le : client.msgIdx ≤ next.msgIdx := by
    rcases draws with ⟨same, -⟩ | ⟨-, drawn, -⟩
    · exact same.ge
    · exact drawn ▸ Nat.le_succ _
  refine ⟨ordered.inLine, ordered.all, ordered.growing, fun request mem => ?_,
    fun own call => ?_, ?_⟩
  · obtain ⟨pos, small, known⟩ := ordered.drawn request mem
    exact ⟨pos, le_trans small le, known⟩
  · rcases draws with ⟨same, before⟩ | ⟨-, drawn, at_⟩
    · exact same ▸ ordered.unsent own (before own call)
    · rw [at_] at call
      cases call
      refine ⟨rfl, drawn ▸ Nat.succ_pos _, fun request mem => ?_⟩
      exact drawn ▸ Nat.lt_succ_of_le (ordered.drawn request mem).2.1
  · rcases draws with ⟨same, -⟩ | ⟨small, drawn, -⟩
    · exact same ▸ ordered.small
    · exact drawn ▸ small

theorem send (ordered : Ordered client sent line refused) {own : Nat} {request : OpcRequest}
    (known : request ∈ opcRequests) (at_ : client.call = some ⟨own, .sending⟩) :
    Ordered (client.goto own .creating) (sent ++ [(client.msgIdx, request)])
      (line ++ [message client.msgIdx request]) refused := by
  obtain ⟨rfl, pos, before⟩ := ordered.unsent own at_
  refine ⟨?_, ?_, ?_, ?_, ?_, ordered.small⟩
  · rw [List.map_append]
    exact ordered.inLine.append (List.Sublist.refl _)
  · have moved : (line ++ [message client.msgIdx request] ++ refused).Perm
        (line ++ refused ++ [message client.msgIdx request]) := by
      rw [List.append_assoc, List.append_assoc]
      exact List.perm_append_comm.append_left line
    rw [List.map_append]
    exact moved.trans (ordered.all.append_right _)
  · refine List.pairwise_append.mpr ⟨ordered.growing, List.pairwise_singleton _ _, ?_⟩
    intro first mem second last
    obtain rfl := List.mem_singleton.mp last
    exact before first mem
  · intro earlier mem
    rcases List.mem_append.mp mem with old | new
    · exact ordered.drawn earlier old
    · obtain rfl := List.mem_singleton.mp new
      exact ⟨pos, le_rfl, known⟩
  · rintro own' ⟨⟩

/-- Requests leave the line without being executed. -/
theorem refuse {front lost back : List AMessage}
    (ordered : Ordered client sent (front ++ lost ++ back) refused) :
    Ordered client sent (front ++ back) (refused ++ lost) := by
  refine ⟨?_, ?_, ordered.growing, ordered.drawn, ordered.unsent, ordered.small⟩
  · have fewer : (front ++ back).Sublist (front ++ lost ++ back) :=
      (List.sublist_append_left front lost).append_right back
    exact fewer.trans ordered.inLine
  · refine List.Perm.trans ?_ ordered.all
    have moved : (back ++ refused ++ lost).Perm (lost ++ (back ++ refused)) :=
      List.perm_append_comm
    simpa only [List.append_assoc] using moved.append_left front

theorem mem (ordered : Ordered client sent line refused) {msg : AMessage} (there : msg ∈ line) :
    ∃ request ∈ sent, msg = sentMessage request := by
  obtain ⟨request, is, rfl⟩ := List.mem_map.mp (ordered.inLine.subset there)
  exact ⟨request, is, rfl⟩

end Ordered

/-! ### What every step keeps -/

structure Inv (s : Exchange) (log : List Event) : Prop where
  ordered : ∀ c, Ordered (s.clients c) (sentOn c log) (s.line c log) (refusedOn c log)
  /-- A notice has a string, which `handle_message` may read. -/
  readable : ∀ c, ∀ msg ∈ s.down c, IsAnswer msg ∨ msg.data ≠ []
  present : Present s.prevResp

theorem start_inv : Inv start [] where
  ordered _ := ⟨List.Sublist.refl _, List.Perm.refl _, List.Pairwise.nil, by simp [sentOn], by
    rintro own ⟨⟩, Nat.two_pow_pos 31⟩
  readable _ _ mem := absurd mem List.not_mem_nil
  present := by
    rintro node ⟨⟩

namespace Inv

variable {s t : Exchange} {log : List Event} {c : Nat}

/-- One client goes on and nothing else changes. -/
theorem setClient {next : OpClient} {es : List OpClient.Event} (inv : Inv s log)
    (draws : (s.clients c).Draws next) :
    Inv (s.setClient c next) (log ++ es.map (.client c)) := by
  refine ⟨fun c' => ?_, inv.readable, inv.present⟩
  have before := inv.ordered c'
  by_cases same : c = c'
  · subst same
    simpa [Exchange.setClient, line, queuedOn] using before.move draws
  · simpa [Exchange.setClient, line, queuedOn, same, Ne.symm same] using before

theorem sendCommand {request : OpcRequest} {own : Nat} (inv : Inv s log)
    (known : request ∈ opcRequests) (at_ : (s.clients c).call = some ⟨own, .sending⟩) :
    Inv ((s.setClient c ((s.clients c).goto own .creating)).setUp c
        (s.up c ++ [message (s.clients c).msgIdx request]))
      (log ++ [.sent c (s.clients c).msgIdx request]) := by
  refine ⟨fun c' => ?_, inv.readable, inv.present⟩
  have before := inv.ordered c'
  by_cases same : c = c'
  · subst same
    simpa [Exchange.setClient, setUp, line, queuedOn, sentOn, executedOn, refusedOn] using
      before.send known at_
  · simpa [Exchange.setClient, setUp, line, queuedOn, sentOn, executedOn, refusedOn, same,
      Ne.symm same] using before

/-- A step that neither a client nor a request has a part in. -/
theorem quiet (inv : Inv s log) (clients : t.clients = s.clients) (up : t.up = s.up)
    (queue : t.queue = s.queue) (prevResp : t.prevResp = s.prevResp)
    (readable : ∀ c, ∀ msg ∈ t.down c, IsAnswer msg ∨ msg.data ≠ []) : Inv t log := by
  refine ⟨fun c => ?_, readable, prevResp ▸ inv.present⟩
  simpa only [line, queuedOn, clients, up, queue] using inv.ordered c

theorem write (inv : Inv s log) {msgs : List AMessage}
    (readable : ∀ msg ∈ msgs, IsAnswer msg ∨ msg.data ≠ []) : Inv (s.write c msgs) log := by
  refine inv.quiet rfl rfl rfl rfl fun c' msg mem => ?_
  by_cases same : c = c'
  · subst same
    simp only [Exchange.write, setDown, Function.update_self] at mem
    exact (List.mem_append.mp mem).elim (inv.readable c msg) (readable msg)
  · simp only [Exchange.write, setDown, Function.update_of_ne (Ne.symm same)] at mem
    exact inv.readable c' msg mem

/-- What is left on the connection of a client are some of the messages on it. -/
theorem setDown {msgs : List AMessage} (inv : Inv s log) (rest : msgs ⊆ s.down c) :
    Inv (s.setDown c msgs) log := by
  refine inv.quiet rfl rfl rfl rfl fun c' msg mem => ?_
  by_cases same : c = c'
  · subst same
    simp only [Exchange.setDown, Function.update_self] at mem
    exact inv.readable c msg (rest mem)
  · simp only [Exchange.setDown, Function.update_of_ne (Ne.symm same)] at mem
    exact inv.readable c' msg mem

/-- The server thread moves a request from the connection to the queue. -/
theorem enqueue {fd clientId : Int} {msg : AMessage} {rest : List AMessage} (inv : Inv s log)
    (up : s.up c = msg :: rest) :
    Inv { s.setUp c rest with
      queue := s.queue ++ [(c, ⟨clientId, fd, msg.idx, .success, msg.type, msg.cmd, msg.data⟩)] }
      log := by
  refine ⟨fun c' => ?_, inv.readable, inv.present⟩
  have before := inv.ordered c'
  by_cases same : c = c'
  · subst same
    have first : msg ∈ s.line c log := by simp [line, up]
    obtain ⟨request, -, is⟩ := before.mem first
    have whole : requestOf ⟨clientId, fd, msg.idx, .success, msg.type, msg.cmd, msg.data⟩ = msg := by
      rw [is]
      rfl
    simpa [line, queuedOn, setUp, up, whole] using before
  · simpa [line, queuedOn, setUp, same, Ne.symm same] using before

theorem refuse {msg : AMessage} {rest : List AMessage} (inv : Inv s log)
    (up : s.up c = msg :: rest) : Inv (s.setUp c rest) (log ++ [.refused c msg]) := by
  refine ⟨fun c' => ?_, inv.readable, inv.present⟩
  have before := inv.ordered c'
  by_cases same : c = c'
  · subst same
    rw [line, up, ← List.singleton_append, ← List.append_assoc] at before
    simpa [line, queuedOn, setUp, sentOn, executedOn, refusedOn] using before.refuse
  · simpa [line, queuedOn, setUp, sentOn, executedOn, refusedOn, same, Ne.symm same] using before

/-- The server closes a descriptor. -/
theorem disconnect (inv : Inv s log) (fd : Int) :
    Inv (s.disconnect fd).1 (log ++ (s.disconnect fd).2) := by
  unfold Exchange.disconnect
  split
  · rw [List.append_nil]
    exact inv
  next c peer =>
      refine ⟨fun c' => ?_, inv.readable, inv.present⟩
      have before := inv.ordered c'
      by_cases same : c = c'
      · subst same
        rw [line, ← List.append_nil (_ ++ s.up c)] at before
        simpa [line, queuedOn, setUp] using before.refuse
      · simpa [line, queuedOn, setUp, same, Ne.symm same] using before

/-- The response thread drops the node at the head of the queue. -/
theorem drop {node : Node} {rest : List (Nat × Node)} (inv : Inv s log)
    (queue : s.queue = (c, node) :: rest) :
    Inv { s with queue := rest } (log ++ [.refused c (requestOf node)]) := by
  refine ⟨fun c' => ?_, inv.readable, inv.present⟩
  have before := inv.ordered c'
  by_cases same : c = c'
  · subst same
    have split_ : s.line c log = (executedOn c log).map requestOf ++ [requestOf node] ++
        (({ s with queue := rest }.queuedOn c).map requestOf ++ s.up c) := by
      simp [line, queuedOn, queue]
    rw [split_] at before
    simpa [line, queuedOn, sentOn, executedOn, refusedOn] using before.refuse
  · simpa [line, queuedOn, queue, sentOn, executedOn, refusedOn, same] using before

/-- It executes it. -/
theorem executes {node : Node} {rest : List (Nat × Node)} {prevResp : Option Node}
    {response : Response} (inv : Inv s log) (queue : s.queue = (c, node) :: rest)
    (present : Present prevResp) :
    Inv { s with queue := rest, prevResp } (log ++ [.executed c node response]) := by
  refine ⟨fun c' => ?_, inv.readable, present⟩
  have before := inv.ordered c'
  have same : { s with queue := rest, prevResp }.line c' (log ++ [Event.executed c node response]) =
      s.line c' log := by
    by_cases same : c = c'
    · simp [line, queuedOn, queue, executedOn, same]
    · simp [line, queuedOn, queue, executedOn, same]
  rw [same]
  simpa [sentOn, refusedOn] using before

/-- It has kept no node without a string. -/
theorem present_handled {env : Env} {node : Node} {handled : Handled} {response : Response}
    (inv : Inv s log) (run : OdroidPlayer.runResponse env s.prevResp node = .ok handled)
    (is : handled.response = some response) : Present handled.prevResp := by
  obtain ⟨present, -, ⟨none, -⟩ | ⟨_, _, -, -, none | own | same⟩⟩ := runResponse_response run
  · rw [none] at is
    cases is
  · rw [none]
    rintro last ⟨⟩
  · rw [own]
    rintro last ⟨⟩
    exact present
  · rw [same]
    exact inv.present

/-- The response is sent, or it is not. -/
theorem deliver {node : Node} {response : Response} {es : List Event}
    (inv : Inv s (log ++ [.executed c node response]))
    (answer : IsAnswer (responseMessage node response.status response.data))
    (delivered : s.deliver c node response = some (t, es)) : Inv t (log ++ es) := by
  unfold Exchange.deliver at delivered
  split at delivered
  · obtain ⟨c', -, eq⟩ := Option.map_eq_some_iff.mp delivered
    cases eq
    refine inv.write fun msg mem => ?_
    exact .inl (List.mem_singleton.mp mem ▸ answer)
  · cases delivered
    exact inv
  · cases delivered
    simpa using inv.disconnect node.clientFd

end Inv

theorem noticeMessage_data (notices : List Notice) :
    ∀ msg ∈ notices.map noticeMessage, msg.data ≠ [] := by
  intro msg mem
  obtain ⟨notice, -, rfl⟩ := List.mem_map.mp mem
  exact List.cons_ne_nil _ _

theorem Inv.keep {s t : Exchange} {log es : List Event} {a : Action} (inv : Inv s log)
    (step : machine.step s a = some (t, es)) : Inv t (log ++ es) := by
  cases step_move step with
  | client inside move => exact inv.setClient move.draws
  | sendCommand known at_ => exact inv.sendCommand known at_
  | @connectNewClient fd c free =>
      rw [List.append_nil]
      have cleared : Inv (s.setDown c []) log := inv.setDown (List.nil_subset _)
      exact cleared.quiet rfl rfl rfl rfl cleared.readable
  | enqueue peer up =>
      rw [List.append_nil]
      exact inv.enqueue up
  | refuse up => exact (inv.refuse up).write fun msg mem => .inr (noticeMessage_data _ msg mem)
  | drop queue same => exact same ▸ inv.drop queue
  | execute queue run is delivered =>
      exact (inv.executes queue (inv.present_handled run is)).deliver
        (runResponse_answer run (by simp [is])).2 delivered
  | sendNotifyMessage notice =>
      rw [List.append_nil]
      refine inv.write fun msg mem => .inr ?_
      exact List.mem_singleton.mp mem ▸ List.cons_ne_nil _ _
  | disconnectClient => exact inv.disconnect _
  | @receive c msg rest client es down received =>
      have draws := (OpClient.receive_cases received).1
      refine (inv.setClient draws).setDown ?_
      change rest ⊆ s.down c
      rw [down]
      exact List.subset_cons_self msg rest

theorem inv_of_run {t : Exchange} {as : List Action} {log : List Event}
    (run : machine.exec start as = some (t, log)) : Inv t log :=
  exec_rec (fun _ _ _ _ _ inv step => inv.keep step) [] start_inv run

/-! ### Executions -/

theorem mem_executedOn {c : Nat} {log : List Event} {node : Node} {response : Response}
    (executed : Event.executed c node response ∈ log) : node ∈ executedOn c log :=
  List.mem_filterMap.mpr ⟨_, executed, by simp⟩

namespace Inv

variable {s : Exchange} {log : List Event}

/-- The executed requests of a client are some of those it has sent, in order. -/
theorem executed (inv : Inv s log) (c : Nat) :
    ∃ done : List (Nat × OpcRequest), done.Sublist (sentOn c log) ∧
      (executedOn c log).map requestOf = done.map sentMessage := by
  have first : ((executedOn c log).map requestOf).Sublist (s.line c log) := by
    rw [line, List.append_assoc]
    exact List.sublist_append_left _ _
  obtain ⟨done, sub, eq⟩ := List.sublist_map_iff.mp (first.trans (inv.ordered c).inLine)
  exact ⟨done, sub, eq⟩

theorem small (inv : Inv s log) {c : Nat} {request : Nat × OpcRequest}
    (sent : request ∈ sentOn c log) : request.1 < 2 ^ 31 :=
  lt_of_le_of_lt ((inv.ordered c).drawn request sent).2.1 (inv.ordered c).small

/-- No number is executed twice for a client. -/
theorem nodup (inv : Inv s log) (c : Nat) : ((executedOn c log).map Node.msgIdx).Nodup := by
  obtain ⟨done, sub, eq⟩ := inv.executed c
  have numbers : (executedOn c log).map Node.msgIdx =
      done.map fun request => Int32.ofNat request.1 := by
    have both := congrArg (List.map AMessage.idx) eq
    simpa [Function.comp_def, requestOf, sentMessage, message, prepareSendMessage] using both
  rw [numbers, List.Nodup, List.pairwise_map]
  refine ((inv.ordered c).growing.sublist sub).imp_of_mem ?_
  intro first second mem mem' less same
  exact less.ne (ofNat_inj (inv.small (sub.subset mem)) (inv.small (sub.subset mem')) same)

/-- What the server has of a client is what the library has prepared. -/
theorem prepared (inv : Inv s log) {c : Nat} {msg : AMessage} (mem : msg ∈ s.line c log) :
    ∃ own, ∃ request ∈ opcRequests, msg = message own request := by
  obtain ⟨request, sent, rfl⟩ := (inv.ordered c).mem mem
  exact ⟨request.1, request.2, ((inv.ordered c).drawn request sent).2.2, rfl⟩

end Inv

/-- In every run, whatever the order of the steps of clients and threads, whoever is given which
descriptor and wherever connections are closed: the numbers of the requests that a client sends
grow; what has been executed for it are some of these requests, in their order, none twice; and
each request that it has sent has been executed, is in the queue, is on the connection or has
been dropped. -/
theorem executed_at_most_once {t : Exchange} {as : List Action} {log : List Event}
    (run : machine.exec start as = some (t, log)) (c : Nat) :
    ((sentOn c log).Pairwise fun first second => first.1 < second.1) ∧
      (∃ done : List (Nat × OpcRequest), done.Sublist (sentOn c log) ∧
        (executedOn c log).map requestOf = done.map sentMessage) ∧
      ((executedOn c log).map Node.msgIdx).Nodup ∧
      (t.line c log ++ refusedOn c log).Perm ((sentOn c log).map sentMessage) := by
  have inv := inv_of_run run
  exact ⟨(inv.ordered c).growing, inv.executed c, inv.nodup c, (inv.ordered c).all⟩

/-- The statements of a request whose answer comes in. -/
def takesAnswer (c : Nat) : List Action :=
  [.client c .receiverTest, .receive c, .client c (.opcCreateStatus true),
    .client c .getMonitorPlay, .client c .dequeueConditional, .client c (.compare true)]

/-- The first client pauses and the second asks for the time before the pause has been
executed. -/
def twoRequests : List Action :=
  [.connectNewClient 5 0, .connectNewClient 7 1, .client 0 .request, .sendCommand 0 opcSendPause,
    .client 1 .request, .sendCommand 1 opcRecvTime, .runServer 5 1 calmEnv,
    .runServer 7 2 { calmEnv with queueLength := 1 }, .runResponse calmEnv] ++
    takesAnswer 0 ++ [.runResponse calmEnv] ++ takesAnswer 1

/-- Then the first client leaves and a third one is given its descriptor. -/
def reused : List Action :=
  twoRequests ++ [.disconnectClient 5, .connectNewClient 5 2, .client 2 .request,
    .sendCommand 2 opcSendPlay, .runServer 5 3 calmEnv, .runResponse calmEnv] ++ takesAnswer 2

theorem reused_executed : ∃ t log, machine.exec start reused = some (t, log) ∧
    t.queue = [] ∧ (executedOn 2 log).length = 1 ∧
      (t.line 2 log ++ refusedOn 2 log).Perm ((sentOn 2 log).map sentMessage) := by
  have run : ∃ t log, machine.exec start reused = some (t, log) ∧ t.queue = [] ∧
      (executedOn 2 log).length = 1 := ⟨_, _, rfl, rfl, rfl⟩
  obtain ⟨t, log, run, empty, one⟩ := run
  exact ⟨t, log, run, empty, one, (executed_at_most_once run 2).2.2.2⟩

end Exchange

end OdroidPlayer
