import OdroidPlayer.Server.Resend

/-!
How the handling of a node ends (`run_response`).

The loop of `run_response` tries three times. The test of its counter inside the loop
repeats the one of the loop, so it never fails, and the third timeout leaves the loop without
a response and without `disconnect_client`. In every other case the node is answered and
saved, or its client is disconnected (`answered_iff`).
-/

namespace OdroidPlayer

open Transition

/-! ### The loop and its calls of `send` -/

/-- The loop gives up when every attempt times out. -/
theorem sendLoop_gaveUp {sends : Nat → SendRet} {attempts : Nat} :
    sendLoop sends attempts = .gaveUp ↔ ∀ left < attempts, sends left = .timeout := by
  induction attempts with
  | zero => simp [sendLoop]
  | succ attempts ih =>
      rw [sendLoop]
      cases first : sends attempts with
      | sent =>
          constructor
          · intro is
            cases is
          · intro all
            cases first.symm.trans (all attempts (Nat.lt_succ_self _))
      | failed =>
          constructor
          · intro is
            cases is
          · intro all
            cases first.symm.trans (all attempts (Nat.lt_succ_self _))
      | timeout =>
          simp only [ih]
          constructor
          · intro all left less
            rcases Nat.lt_succ_iff_lt_or_eq.mp less with before | rfl
            · exact all left before
            · exact first
          · intro all left less
            exact all left (Nat.lt_succ_of_lt less)

section Loop

variable {codec : Codec} {response : AMessage} {s t : SendAt} {outcome : SendOutcome}
  {es log : List SendEvent} {as : List SendOutcome} {delivery : Delivery}

/-- The `count` of the loop. -/
def SendAt.count : SendAt → Nat
  | .length count | .message count | .noticeLength count _ | .noticeMessage count _ => count
  | .finished _ => resendCount

/-- What the loop does with the result of an attempt. -/
def afterAttempt (count : Nat) : SendRet → SendAt
  | .sent => .finished .sent
  | .timeout => resend count .timeout
  | .failed => .finished .disconnected

/-- A call ends the attempt with its result, or stays in it. -/
theorem SendMove.attempt (move : SendMove codec response s outcome t es) :
    (returns es = [] ∧ t.count = s.count ∧ ∀ delivery, t ≠ .finished delivery) ∨
      ∃ ret, returns es = [ret] ∧ t = afterAttempt s.count ret := by
  have notice : ∀ count failure, resend count failure = afterAttempt count failure.ret := by
    intro count failure
    cases failure <;> rfl
  cases s with
  | finished delivery =>
      cases move with
      | took is => cases is
      | failed is => cases is
  | length count =>
      cases move with
      | took => exact .inl ⟨rfl, rfl, by simp [SendAt.next]⟩
      | failed => exact .inl ⟨rfl, rfl, by simp [SendAt.next]⟩
  | message count =>
      cases move with
      | took => exact .inr ⟨.sent, rfl, rfl⟩
      | failed => exact .inl ⟨rfl, rfl, by simp [SendAt.next]⟩
  | noticeLength count failure =>
      cases move with
      | took => exact .inl ⟨rfl, rfl, by simp [SendAt.next]⟩
      | failed => exact .inr ⟨failure.ret, rfl, notice count failure⟩
  | noticeMessage count failure =>
      cases move with
      | took => exact .inr ⟨failure.ret, rfl, notice count failure⟩
      | failed => exact .inr ⟨failure.ret, rfl, notice count failure⟩

/-- The loop of `runResponse`, given what the attempts return, delivers what the calls of
`send` lead to. -/
theorem sendLoop_of_exec {sends : Nat → SendRet} (counting : s.Counting)
    (inside : ∀ delivery, s ≠ .finished delivery)
    (run : (resending codec response).exec s as = some (.finished delivery, log))
    (results : ∀ i ret, (returns log)[i]? = some ret →
      sends (resendCount - 1 - (s.count + i)) = ret) :
    sendLoop sends (resendCount - s.count) = delivery := by
  have count : resendCount = 3 := rfl
  induction as generalizing s log with
  | nil =>
      cases run
      exact absurd rfl (inside delivery)
  | cons outcome as ih =>
      obtain ⟨t, es, rest, step, tail, rfl⟩ := System.exec_cons.mp run
      have move := resending_move step
      rw [returns_append] at results
      rcases move.attempt with ⟨none, same, inside'⟩ | ⟨ret, one, rfl⟩
      · rw [none, List.nil_append] at results
        rw [← same] at results ⊢
        exact ih (move.doomed counting).1 inside' tail results
      · rw [one, List.singleton_append] at results
        have below : s.count < resendCount := by
          cases s with
          | finished delivery => exact absurd rfl (inside delivery)
          | _ => exact counting
        have first : sends (resendCount - 1 - s.count) = ret := results 0 ret rfl
        have left : resendCount - s.count = (resendCount - 1 - s.count) + 1 := by omega
        rw [left, sendLoop, first]
        cases ret with
        | sent =>
            obtain ⟨_, eq, _⟩ := finished_exec tail
            exact (SendAt.finished.inj eq).symm
        | failed =>
            obtain ⟨_, eq, _⟩ := finished_exec tail
            exact (SendAt.finished.inj eq).symm
        | timeout =>
            by_cases more : s.count + 1 < resendCount
            · have next : afterAttempt s.count .timeout = .length (s.count + 1) := by
                simp only [afterAttempt, resend, if_pos below, if_pos more]
              rw [next] at tail
              have later := ih (s := .length (s.count + 1)) more (by simp) tail fun i ret' at_ => by
                have shifted := results (i + 1) ret' at_
                have index : s.count + (i + 1) = s.count + 1 + i := by omega
                rwa [index] at shifted
              have rest_ : resendCount - 1 - s.count = resendCount - (s.count + 1) := by omega
              rw [rest_]
              exact later
            · have gives : afterAttempt s.count .timeout = .finished .gaveUp := by
                simp only [afterAttempt, resend, if_pos below, if_neg more]
              rw [gives] at tail
              obtain ⟨_, eq, _⟩ := finished_exec tail
              have none : resendCount - 1 - s.count = 0 := by omega
              rw [none]
              exact (SendAt.finished.inj eq).symm

end Loop

/-! ### The node and its client -/

/-- The descriptor is that of a client in the pool. -/
def Server.Connected (s : Server) (clientFd : Int) : Prop :=
  findClientIndex clientFd s.world.pool .clientFd ≠ none

/-- The body of the loop of `run_response`, with the server that it leaves. -/
def answerNode (env : Env) (prevResp : Option Node) (node : Node) (s : Server) :
    Except Fault (Handled × Server) :=
  (runResponse env prevResp node).map fun handled =>
    (handled, if handled.response.map Response.delivery = some .disconnected then
      disconnectClient node.clientFd s else s)

/-- The handling ends in exactly one of two ways: the response has been sent and the node is
kept for `ACK`, or the client is no longer in the pool. -/
def EndsWell (env : Env) (prevResp : Option Node) (node : Node) (s : Server) : Prop :=
  ∃ handled t response, answerNode env prevResp node s = .ok (handled, t) ∧
    handled.response = some response ∧
    Xor (response.delivery = .sent ∧ handled.prevResp = some node)
      (response.delivery ≠ .sent ∧ ¬ t.Connected node.clientFd)

/-- `disconnect_client` takes the client out of the pool. -/
theorem Tracked.not_connected {s : Server} (tracked : Tracked s) (clientFd : Int) :
    ¬ (disconnectClient clientFd s).Connected clientFd := by
  unfold Server.Connected
  rw [not_not]
  change findClientIndex clientFd (removeClient clientFd s.world).1.pool .clientFd = none
  cases found : findClientIndex clientFd s.world.pool .clientFd with
  | none => simp only [removeClient, found]
  | some idx =>
      obtain ⟨pos, bound, here⟩ := findClientIndex_slot found
      have removed : (removeClient clientFd s.world).1.pool = clearClient idx
          (removeClientStream (getClientStreamFd clientFd s.world.pool) s.world).1.pool := by
        simp only [removeClient, found]
      have same := removeClientStream_same (getClientStreamFd clientFd s.world.pool) s.world
      rw [removed]
      cases again : findClientIndex clientFd (clearClient idx
        (removeClientStream (getClientStreamFd clientFd s.world.pool) s.world).1.pool) .clientFd with
      | none => rfl
      | some other =>
          exfalso
          obtain ⟨_, _, there⟩ := findClientIndex_slot again
          by_cases is : other = idx
          · have cleared : (clearClient idx
                (removeClientStream (getClientStreamFd clientFd s.world.pool) s.world).1.pool).slot
                idx = emptyClient := Pool.slot_store_self _ _ bound
            rw [is, cleared] at there
            change 0 = clientFd at there
            omega
          · rw [clearClient_slot_ne is] at there
            change (Pool.slot _ other).clientFd = clientFd at there
            rw [Pool.slot_clientFd, same.fds, ← Pool.slot_clientFd] at there
            change (s.world.pool.slot idx).clientFd = clientFd at here
            refine tracked.agrees.distinct other idx is ?_ (there.trans here.symm)
            rw [there]
            exact pos

section EndsWell

variable {env : Env} {prevResp : Option Node} {node : Node} {s : Server}

/-- With the strings allocated, `execute_command` has an answer to a COMMAND or a STREAM. -/
theorem executeCommand_some (malloc : env.malloc = true)
    (known : node.type = CmdType.command.value ∨ node.type = CmdType.stream.value)
    {data : Option (List CString)} {status : Status}
    (executed : executeCommand env prevResp node = .ok (data, status)) :
    ∃ strings, data = some strings := by
  have allocated : ¬ env.malloc = false := by simp [malloc]
  unfold executeCommand at executed
  by_cases command : node.type = CmdType.command.value
  · rw [if_pos command, if_neg allocated] at executed
    split at executed
    · cases executed
    next cmd _ =>
        cases called : cmd.call env.player.player prevResp .success with
        | error fault =>
            rw [called] at executed
            cases executed
        | ok out =>
            rw [called] at executed
            cases executed
            exact ⟨_, rfl⟩
  · rw [if_neg command, if_pos (known.resolve_left command), if_neg allocated] at executed
    dsimp only at executed
    split at executed
    · cases executed
      exact ⟨_, rfl⟩
    · cases executed
      exact ⟨_, rfl⟩

/-- A node that has been executed is answered. -/
theorem answerNode_ok {data : List CString} {status : Status}
    (present : node.data ≠ [])
    (executed : executeCommand env prevResp node = .ok (some data, status)) :
    ∃ msg, answerNode env prevResp node s =
      .ok (⟨[], some ⟨node.clientFd, status, data, msg, sendLoop env.sends resendCount⟩,
          if sendLoop env.sends resendCount = .sent then savePrevResp env node else prevResp⟩,
        if sendLoop env.sends resendCount = .disconnected then disconnectClient node.clientFd s
          else s) := by
  obtain ⟨msg, first⟩ := firstString_of_ne present
  refine ⟨msg, ?_⟩
  rw [answerNode, runResponse, first]
  dsimp only
  rw [executed]
  simp [Except.map]

/-- A COMMAND outside of `cmd_arr` is not executed. -/
theorem entry_of_executed (malloc : env.malloc = true) {out : Option (List CString) × Status}
    (executed : executeCommand env prevResp node = .ok out)
    (command : node.type = CmdType.command.value) :
    0 ≤ node.cmd.toInt ∧ node.cmd.toInt < initCmdArray.length := by
  by_contra outside
  have allocated : ¬ env.malloc = false := by simp [malloc]
  rw [executeCommand, if_pos command, if_neg allocated, cmdArr_eq_error outside] at executed
  cases executed

/-- How the loop ends decides how the handling ends. -/
theorem answered_of_delivery (tracked : Tracked s) (saves : env.saved = true)
    {data : List CString} {status : Status} (present : node.data ≠ [])
    (executed : executeCommand env prevResp node = .ok (some data, status)) :
    EndsWell env prevResp node s ↔
      sendLoop env.sends resendCount ≠ .gaveUp ∨ ¬ s.Connected node.clientFd := by
  obtain ⟨msg, answers⟩ := answerNode_ok (s := s) present executed
  have unfolded : EndsWell env prevResp node s ↔
      Xor (sendLoop env.sends resendCount = .sent ∧
          (if sendLoop env.sends resendCount = .sent then savePrevResp env node else prevResp) =
            some node)
        (sendLoop env.sends resendCount ≠ .sent ∧
          ¬ (if sendLoop env.sends resendCount = .disconnected then
            disconnectClient node.clientFd s else s).Connected node.clientFd) := by
    constructor
    · rintro ⟨handled, t, response, answers', is, ends⟩
      rw [answers] at answers'
      cases answers'
      cases is
      exact ends
    · intro ends
      exact ⟨_, _, _, answers, rfl, ends⟩
  rw [unfolded]
  cases delivery : sendLoop env.sends resendCount with
  | sent => simp [savePrevResp, saves]
  | disconnected => simp [tracked.not_connected]
  | gaveUp => simp

/-- Without a fault before it, the handling ends in one of the two ways unless all three
attempts time out and the client is still connected. -/
theorem answered_iff (reach : servers.Reachable StartServer s)
    (kept : handling.Reachable (· = none) prevResp) (malloc : env.malloc = true)
    (saves : env.saved = true)
    (known : node.type = CmdType.command.value ∨ node.type = CmdType.stream.value) :
    EndsWell env prevResp node s ↔
      node.data ≠ [] ∧
      (node.type = CmdType.command.value →
        0 ≤ node.cmd.toInt ∧ node.cmd.toInt < initCmdArray.length) ∧
      ((∃ left < resendCount, env.sends left ≠ .timeout) ∨ ¬ s.Connected node.clientFd) := by
  have tracked := tracked_reached reach
  have tries : sendLoop env.sends resendCount ≠ .gaveUp ↔
      ∃ left < resendCount, env.sends left ≠ .timeout := by
    rw [Ne, sendLoop_gaveUp]
    simp
  constructor
  · intro answered
    have ends := answered
    obtain ⟨handled, t, response, answers, is, _⟩ := ends
    cases run : runResponse env prevResp node with
    | error fault =>
        rw [answerNode, run] at answers
        cases answers
    | ok out =>
        rw [answerNode, run] at answers
        cases answers
        have present := (runResponse_answer run (by simp [is])).1
        obtain ⟨_, _, ⟨none, _⟩ | ⟨response', data, _, executed, _⟩⟩ := runResponse_response run
        · cases none.symm.trans is
        · refine ⟨present, entry_of_executed malloc executed, ?_⟩
          rw [← tries]
          exact (answered_of_delivery tracked saves present executed).mp answered
  · rintro ⟨present, entry, ends⟩
    have executes : ∃ out, executeCommand env prevResp node = .ok out :=
      executeCommand_ok (present_of_reachable kept) entry
    obtain ⟨⟨data, status⟩, executed⟩ := executes
    obtain ⟨strings, rfl⟩ := executeCommand_some malloc known executed
    rw [← tries] at ends
    exact (answered_of_delivery tracked saves present executed).mpr ends

end EndsWell

/-- Client 5 has just connected. -/
def clientFive : Server := acceptClient (some 5) newServer

theorem clientFive_reachable : servers.Reachable StartServer clientFive :=
  ⟨_, newServer, newServer_start, [.accept (some 5)], rfl⟩

theorem clientFive_connected : clientFive.Connected 5 := by
  unfold Server.Connected
  decide

/-- `send_response` times out twice and then succeeds, or times out three times. -/
def timingOut (last : SendRet) : Env :=
  { calmEnv with sends := fun left => if left = 0 then last else .timeout }

theorem lastAttempt_answered : EndsWell (timingOut .sent) none answeredPlay clientFive := by
  refine (answered_iff clientFive_reachable ⟨[], none, rfl, [], rfl⟩ rfl rfl (.inl rfl)).mpr ?_
  exact ⟨by decide, fun _ => by decide, .inl ⟨0, by decide, by decide⟩⟩

/-- After three timeouts client 5 is connected and has no response. -/
theorem threeTimeouts_unanswered : ∃ handled,
    answerNode (timingOut .timeout) none answeredPlay clientFive = .ok (handled, clientFive) ∧
      handled.response.map Response.delivery = some .gaveUp ∧ handled.prevResp = none ∧
      clientFive.Connected 5 ∧ ¬ EndsWell (timingOut .timeout) none answeredPlay clientFive := by
  refine ⟨_, rfl, rfl, rfl, clientFive_connected, ?_⟩
  rintro ⟨handled, t, response, answers, is, ends⟩
  cases answers
  cases is
  rcases ends with ⟨⟨sent, _⟩, _⟩ | ⟨⟨_, gone⟩, _⟩
  · cases sent
  · exact gone clientFive_connected

end OdroidPlayer
