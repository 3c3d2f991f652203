import OdroidPlayer.Protocol.Once
import OdroidPlayer.Lib.Log

/-!
What an ACK acknowledges.

`run_response` keeps the last node whose response it has sent, and `cmd_ack` answers with the
first string of that node. All clients share it: an ACK names the command that has been
answered last, whichever client it was for, and an ACK itself counts.
-/

namespace OdroidPlayer

open Transition Transition.System

namespace Exchange

/-- The last node whose response has been sent. -/
def lastAnswered (log : List Event) : Option Node :=
  (log.filterMap fun
    | .executed _ node response => if response.delivery = .sent then some node else none
    | _ => none).getLast?

/-- `save_prev_resp` finds memory. -/
def Saves (_ : Exchange) : Action → Prop
  | .runResponse env => env.saved = true
  | _ => True

instance (s : Exchange) (a : Action) : Decidable (Saves s a) :=
  match a with
  | .runResponse env => inferInstanceAs (Decidable (env.saved = true))
  | .client .. | .sendCommand .. | .connectNewClient .. | .runServer .. | .sendNotifyMessage ..
  | .disconnectClient _ | .receive _ => .isTrue trivial

/-- An ACK that is executed is answered with the command that has been answered last. -/
def Acknowledges (front : List Event) : Event → Prop
  | .executed _ node response =>
      node.type = CmdType.command.value → node.cmd = Cmd.ack.value →
        response.status = .success ∧
          (lastAnswered front = none ∧
              response.data = [cString "couldn't find previous response"] ∨
            ∃ prev own, ∃ request ∈ opcRequests, lastAnswered front = some prev ∧
              requestOf prev = message own request ∧
              response.data = [commandToString request.cmd])
  | _ => True

/-- What is logged of no execution. -/
def Quiet (es : List Event) : Prop := ∀ c node response, Event.executed c node response ∉ es

theorem quiet_refused {es : List Event} (refused : ∀ e ∈ es, ∃ c msg, e = .refused c msg) :
    Quiet es := by
  intro c node response mem
  obtain ⟨_, _, is⟩ := refused _ mem
  cases is

theorem lastAnswered_quiet {log es : List Event} (quiet : Quiet es) :
    lastAnswered (log ++ es) = lastAnswered log := by
  have none : (es.filterMap fun
      | .executed _ node response => if response.delivery = .sent then some node else none
      | _ => (none : Option Node)) = [] := by
    refine List.filterMap_eq_nil_iff.mpr fun e mem => ?_
    cases e with
    | executed c node response => exact absurd mem (quiet c node response)
    | client | sent | refused => rfl
  rw [lastAnswered, List.filterMap_append, none, List.append_nil]
  rfl

theorem lastAnswered_executed (log : List Event) (c : Nat) (node : Node) (response : Response) :
    lastAnswered (log ++ [.executed c node response]) =
      if response.delivery = .sent then some node else lastAnswered log := by
  rw [lastAnswered, List.filterMap_append]
  by_cases sent : response.delivery = .sent
  · simp [sent]
  · simp [sent, lastAnswered]

theorem executed_of_lastAnswered {log : List Event} {node : Node}
    (last : lastAnswered log = some node) :
    ∃ c response, Event.executed c node response ∈ log := by
  obtain ⟨e, there, is⟩ := List.mem_filterMap.mp (List.mem_of_getLast? last)
  split at is
  next c _ response =>
      split at is
      · cases is
        exact ⟨c, response, there⟩
      · cases is
  · cases is

/-- `execute_command` on an ACK. -/
theorem executeCommand_ack {env : Env} {prevResp : Option Node} {node : Node} {status : Status}
    {data : List CString} (command : node.type = CmdType.command.value)
    (ack : node.cmd = Cmd.ack.value)
    (executed : executeCommand env prevResp node = .ok (some data, status)) :
    status = .success ∧
      (prevResp = none ∧ data = [cString "couldn't find previous response"] ∨
        ∃ prev first, prevResp = some prev ∧ firstString prev.data = .ok first ∧
          data = [first]) := by
  have entry : cmdArr Cmd.ack.value = .ok .ack := rfl
  unfold executeCommand at executed
  rw [if_pos command, ack, entry] at executed
  split at executed
  · cases executed
  · cases prevResp with
    | none =>
        cases executed
        exact ⟨rfl, .inl ⟨rfl, rfl⟩⟩
    | some prev =>
        cases read : firstString prev.data with
        | error fault =>
            simp only [AgmpCmd.call, read] at executed
            cases executed
        | ok first =>
            simp only [AgmpCmd.call, read] at executed
            cases executed
            exact ⟨rfl, .inr ⟨prev, first, rfl, read, rfl⟩⟩

/-- What is kept of the last response is its node. -/
structure Remembers (s : Exchange) (log : List Event) : Prop where
  inv : Inv s log
  last : s.prevResp = lastAnswered log
  each : EachAt Acknowledges log

namespace Remembers

variable {s t : Exchange} {log es : List Event}

theorem each_quiet {front : List Event} (each : EachAt Acknowledges front) (quiet : Quiet es) :
    EachAt Acknowledges (front ++ es) := by
  refine each.append fun e mem front => ?_
  cases e with
  | executed c node response => exact absurd mem (quiet c node response)
  | client | sent | refused => trivial

/-- A step of another kind. -/
theorem quiet (remembers : Remembers s log) (inv : Inv t (log ++ es))
    (same : t.prevResp = s.prevResp) (others : Quiet es) : Remembers t (log ++ es) :=
  ⟨inv, by rw [same, remembers.last, lastAnswered_quiet others], each_quiet remembers.each others⟩

theorem acknowledges (remembers : Remembers s log) {env : Env} {c : Nat} {node : Node}
    {handled : Handled} {response : Response}
    (run : OdroidPlayer.runResponse env s.prevResp node = .ok handled)
    (is : handled.response = some response) :
    Acknowledges log (.executed c node response) := by
  intro command ack
  obtain ⟨success, data⟩ := executeCommand_ack command ack (runResponse_some run is).1
  refine ⟨success, ?_⟩
  rcases data with ⟨none, data⟩ | ⟨prev, first, last, read, data⟩
  · exact .inl ⟨remembers.last ▸ none, data⟩
  · rw [remembers.last] at last
    obtain ⟨c', _, executed⟩ := executed_of_lastAnswered last
    have there : requestOf prev ∈ s.line c' log := by
      rw [line, List.append_assoc]
      exact List.mem_append_left _ (List.mem_map_of_mem (mem_executedOn executed))
    obtain ⟨own, request, library, made⟩ := remembers.inv.prepared there
    have strings : prev.data = [commandToString request.cmd] := congrArg AMessage.data made
    rw [strings] at read
    cases read
    exact .inr ⟨prev, own, request, library, last, made, data⟩

theorem keep {a : Action} (remembers : Remembers s log) (saves : Saves s a)
    (step : machine.step s a = some (t, es)) : Remembers t (log ++ es) := by
  have inv := remembers.inv.keep step
  cases step_move step with
  | client | receive => exact remembers.quiet inv rfl (by simp [Quiet])
  | sendCommand | connectNewClient | enqueue | sendNotifyMessage | refuse =>
      exact remembers.quiet inv rfl (by simp [Quiet])
  | drop _ same => exact remembers.quiet inv same (by simp [Quiet])
  | @disconnectClient fd =>
      exact remembers.quiet inv (s.disconnect_prevResp fd)
        (quiet_refused (s.disconnect_events fd))
  | @execute env c node rest handled response t es queue run is delivered =>
      obtain ⟨lost, rfl, refused⟩ := deliver_events delivered
      have others : Quiet lost := quiet_refused refused
      have first := remembers.each.concat (@acknowledges s log remembers env c node handled response run is)
      have split_ : log ++ .executed c node response :: lost =
          log ++ [.executed c node response] ++ lost := by simp
      rw [split_] at inv ⊢
      refine ⟨inv, ?_, each_quiet first others⟩
      have saved : savePrevResp env node = some node := if_pos saves
      rw [lastAnswered_quiet others, lastAnswered_executed, deliver_prevResp delivered,
        (runResponse_some run is).2.2, saved, remembers.last]

end Remembers

/-- In every run of all clients in which `save_prev_resp` finds memory, as the `strdup` of an ACK
does, an ACK that is executed is answered with success and with the name of the command whose
response has been sent last, to whichever client, or with the message that there has been none. -/
theorem ack_names_last_answered {t : Exchange} {as : List Action} {log : List Event}
    (saves : machine.Along Saves start as) (run : machine.exec start as = some (t, log)) :
    EachAt Acknowledges log := by
  have first : Remembers start [] := ⟨start_inv, rfl, EachAt.nil⟩
  exact (exec_rec_of_along (fun _ _ _ _ _ remembers saves step => remembers.keep saves step)
    saves [] first run).each

/-- The second client asks for an acknowledgement after the pause of the first and its own
TIME. -/
def ackAfterTwo : List Action :=
  twoRequests ++ [.client 1 .request, .sendCommand 1 opcSendAck, .runServer 7 2 calmEnv,
    .runResponse calmEnv]

theorem ackAfterTwo_names_time : ∃ t log, machine.exec start ackAfterTwo = some (t, log) ∧
    ∃ c node response, log.getLast? = some (.executed c node response) ∧
      node.cmd = Cmd.ack.value ∧ Acknowledges log.dropLast (.executed c node response) := by
  have run : ∃ t log, machine.exec start ackAfterTwo = some (t, log) ∧
      ∃ c node response, log.getLast? = some (.executed c node response) ∧
        node.cmd = Cmd.ack.value :=
    ⟨_, _, rfl, _, _, _, rfl, rfl⟩
  obtain ⟨t, log, run, c, node, response, last, ack⟩ := run
  have saves : machine.Along Saves start ackAfterTwo := by decide
  have each := ack_names_last_answered saves run
  have whole : log.dropLast ++ [Event.executed c node response] = log :=
    List.dropLast_append_getLast? _ last
  exact ⟨t, log, run, c, node, response, last, ack, each _ _ ⟨[], by rw [List.append_nil, whole]⟩⟩

end Exchange

end OdroidPlayer
