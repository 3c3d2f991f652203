import OdroidPlayer.Player.Invariant
import OdroidPlayer.Server.Pool
import OdroidPlayer.Wire.Send

/-!
What the server does with a message: the part of `run_server` behind `receive_message`
and `run_response` (`server/response/response.c`).

The server thread makes a node of the message and enqueues it, the response thread
executes it and answers it. Both log the first string of the message, the response thread
calls through `cmd_arr`. Nothing in between checks the message, so a message is handled as
it should be exactly when it has a string and a handler (`handled_iff`).
-/

namespace OdroidPlayer

open Transition

def queueSize : Nat := 64

def resendCount : Nat := 3

/-- What a statement can do that it must not. -/
inductive Fault where
  /-- `data[0]` of an array that is NULL -/
  | nullData
  /-- a call through `cmd_arr` outside of it -/
  | badIndex
  /-- `strdup` of a NULL uri -/
  | nullUri
  deriving DecidableEq, Repr

/-- `data[0]`. -/
def firstString : List CString → Except Fault CString
  | [] => .error .nullData
  | s :: _ => .ok s

/-! ### The commands -/

/-- The functions of `agmp/agmp_cmds.c`. -/
inductive AgmpCmd where
  | none
  /-- `cmd_play`, `cmd_stop`, `cmd_pause`, `cmd_next`, `cmd_prev` and `cmd_uri` -/
  | request (r : Request)
  | quit | seek | time | ack
  deriving DecidableEq, Repr

/-- `init_cmd_array`. -/
def initCmdArray : List AgmpCmd :=
  [.none, .request .play, .request .stop, .request .pause, .request .next, .request .prev, .quit,
    .seek, .time, .request .uri, .ack]

/-- `cmd_arr[cmd]`. -/
def cmdArr (cmd : Int32) : Except Fault AgmpCmd :=
  if cmd.toInt < 0 then .error .badIndex
  else match initCmdArray[cmd.toInt.toNat]? with
    | .none => .error .badIndex
    | .some entry => .ok entry

def Reply.cString : Reply → CString
  | .text s => OdroidPlayer.cString s
  | .uri s => OdroidPlayer.cString s

/-- The status and the string (`none` for NULL) of a command, whose `strdup` finds memory.
`cmd_uri` and `cmd_ack` leave the status as it is. -/
def AgmpCmd.call (player : Player) (prevResp : Option Node) (status : Status) :
    AgmpCmd → Except Fault (Status × Option CString)
  | .none => .ok (.invalid, .none)
  | .request r =>
      match r.decide player with
      | .answer reply | .call _ reply =>
          .ok (if r = .uri then status else .success, some reply.cString)
      | .crash => .error .nullUri
  | .quit | .seek => .ok (.invalid, some (cString "not implemented"))
  | .time => .ok (.invalid, some (cString "should be used with stream type"))
  | .ack =>
      match prevResp with
      | .none => .ok (status, some (cString "couldn't find previous response"))
      | .some prev => (firstString prev.data).map fun s => (status, some s)

/-! ### Everything that a message does not decide -/

inductive SendRet where
  | sent | timeout | failed
  deriving DecidableEq, Repr

/-- The player as the commands find it, and the results of calls while one message is
handled. -/
structure Env where
  player : State
  reach : Reachable player
  /-- `malloc` of the node -/
  createNode : Bool
  queueLength : Nat
  /-- `malloc` of the strings of the response -/
  malloc : Bool
  /-- the paths in the pool when they are read, after `set_new_stream` -/
  serverPath : Option CString
  clientPath : Option CString
  /-- `pthread_kill` of the stream thread -/
  killed : Bool
  /-- `send_response`, by the number of attempts left -/
  sends : Nat → SendRet
  /-- `malloc` of the node that `save_prev_resp` makes -/
  saved : Bool

/-- The function that `trigger_stream` sets, if any, and whether it reached the stream
thread. -/
def triggerStream (cmd : Int32) (killed : Bool) : Option StreamFunc × Bool :=
  (if cmd = Cmd.time.value then some .getStreamTime else none, killed)

/-- The strings (`none` for NULL) and the status of `execute_command`. -/
def executeCommand (env : Env) (prevResp : Option Node) (node : Node) :
    Except Fault (Option (List CString) × Status) :=
  if node.type = CmdType.command.value then
    if env.malloc = false then .ok (none, .success)
    else
      match cmdArr node.cmd with
      | .error fault => .error fault
      | .ok cmd =>
          (cmd.call env.player.player prevResp .success).map fun out =>
            (some [out.2.getD (cString "couldn't handle command\n")], out.1)
  else if node.type = CmdType.stream.value then
    if env.malloc = false then .ok (none, .success)
    else
      let data := [env.serverPath.getD (cString "couldn't get server stream path\n"),
        env.clientPath.getD (cString "couldn't get client stream path\n")]
      if env.serverPath = none ∨ env.clientPath = none then .ok (some data, .eserver)
      else .ok (some data, if (triggerStream node.cmd env.killed).2 then .success else .eserver)
  else .ok (none, .eserver)

inductive Delivery where
  | sent
  /-- three timeouts -/
  | gaveUp
  | disconnected
  deriving DecidableEq, Repr

/-- The loop around `send_response`, with the number of attempts left. -/
def sendLoop (sends : Nat → SendRet) : Nat → Delivery
  | 0 => .gaveUp
  | left + 1 =>
      match sends left with
      | .sent => .sent
      | .timeout => sendLoop sends left
      | .failed => .disconnected

/-- The response to a node and the message that is broadcast before it. -/
structure Response where
  clientFd : Int
  status : Status
  data : List CString
  broadcast : CString
  delivery : Delivery
  deriving DecidableEq, Repr

/-- How a message has been dealt with, and the `prev_resp` after it. -/
structure Handled where
  notices : List Notice
  response : Option Response
  prevResp : Option Node

/-- `save_prev_resp`: the old one is removed before the new one is made. -/
def savePrevResp (env : Env) (node : Node) : Option Node :=
  if env.saved then some node else none

/-- The body of the loop of `run_response`. -/
def runResponse (env : Env) (prevResp : Option Node) (node : Node) : Except Fault Handled :=
  match firstString node.data with
  | .error fault => .error fault
  | .ok msg =>
      match executeCommand env prevResp node with
      | .error fault => .error fault
      | .ok (none, _) => (firstString node.data).map fun _ => ⟨[], none, prevResp⟩
      | .ok (some data, status) =>
          let delivery := sendLoop env.sends resendCount
          .ok ⟨[], some ⟨node.clientFd, status, data, msg, delivery⟩,
            if delivery = .sent then savePrevResp env node else prevResp⟩

/-- What `run_server` does with a message of a client: the node that it enqueues, or the
notices it sends instead. -/
def runServer (env : Env) (clientId clientFd : Int) (msg : AMessage) :
    Except Fault (Option Node × List Notice) :=
  match firstString msg.data with
  | .error fault => .error fault
  | .ok _ =>
      if env.createNode = false then .ok (none, [])
      else if queueSize < env.queueLength then
        .ok (none, [⟨clientFd, cString "couldn't enqueue", .eserver⟩])
      else .ok (some ⟨clientId, clientFd, msg.idx, .success, msg.type, msg.cmd, msg.data⟩, [])

/-- A message from its receipt to its response. The queue keeps the order of the nodes,
and the server thread does not touch what the response thread reads. -/
def handle (env : Env) (prevResp : Option Node) (clientId clientFd : Int) (msg : AMessage) :
    Except Fault Handled :=
  match runServer env clientId clientFd msg with
  | .error fault => .error fault
  | .ok (none, notices) => .ok ⟨notices, none, prevResp⟩
  | .ok (some node, _) => runResponse env prevResp node

/-- One message that is handled. -/
structure Handling where
  env : Env
  clientId : Int
  clientFd : Int
  msg : AMessage

/-- The responses of the server; a fault ends the process. -/
def handling : System (Option Node) Handling Handled where
  step prevResp h :=
    match handle h.env prevResp h.clientId h.clientFd h.msg with
    | .error _ => none
    | .ok handled => some (handled.prevResp, [handled])

/-! ### Which messages are handled as they should be -/

/-- An entry of `cmd_arr` for a COMMAND, a function for the stream thread for a STREAM. -/
def HasHandler (msg : AMessage) : Prop :=
  (msg.type = CmdType.command.value ∧
      0 ≤ msg.cmd.toInt ∧ msg.cmd.toInt < initCmdArray.length) ∨
    (msg.type = CmdType.stream.value ∧ msg.cmd = Cmd.time.value)

instance (msg : AMessage) : Decidable (HasHandler msg) :=
  inferInstanceAs (Decidable (_ ∨ _))

/-- The client has been told that its message has failed. -/
def Handled.Refused (handled : Handled) : Prop :=
  (∃ response, handled.response = some response ∧ response.status ≠ .success) ∨
    ∃ notice ∈ handled.notices, notice.status ≠ .success

/-- Whatever has been handled before and whatever the calls return, the message is handled
without a fault, and refused if there is no handler for it. -/
def Safe (msg : AMessage) : Prop :=
  ∀ prevResp, handling.Reachable (· = none) prevResp → ∀ (env : Env) (clientId clientFd : Int),
    ∃ handled, handle env prevResp clientId clientFd msg = .ok handled ∧
      (¬ HasHandler msg → handled.Refused)

theorem firstString_ok {data : List CString} {s : CString} (ok : firstString data = .ok s) :
    data ≠ [] := by
  cases data with
  | nil => cases ok
  | cons first rest => exact List.cons_ne_nil first rest

theorem firstString_of_ne {data : List CString} (present : data ≠ []) :
    ∃ s, firstString data = .ok s := by
  cases data with
  | nil => exact absurd rfl present
  | cons first rest => exact ⟨first, rfl⟩

theorem cmdArr_eq_ok {cmd : Int32} (low : 0 ≤ cmd.toInt)
    (high : cmd.toInt < initCmdArray.length) : ∃ entry, cmdArr cmd = .ok entry := by
  have bound : cmd.toInt.toNat < initCmdArray.length := by omega
  refine ⟨initCmdArray[cmd.toInt.toNat], ?_⟩
  rw [cmdArr, if_neg (not_lt.mpr low), List.getElem?_eq_getElem bound]

theorem cmdArr_eq_error {cmd : Int32}
    (outside : ¬ (0 ≤ cmd.toInt ∧ cmd.toInt < initCmdArray.length)) :
    cmdArr cmd = .error .badIndex := by
  by_cases negative : cmd.toInt < 0
  · rw [cmdArr, if_pos negative]
  · have above : initCmdArray.length ≤ cmd.toInt.toNat := by omega
    rw [cmdArr, if_neg negative, List.getElem?_eq_none above]

/-- The last response that has been saved is one to a node with a string. -/
def Present (prevResp : Option Node) : Prop := ∀ node, prevResp = some node → node.data ≠ []

/-- Only `cmd_ack` reads the previous response. -/
theorem AgmpCmd.call_ok {player : State} (reach : Reachable player) {prevResp : Option Node}
    (present : Present prevResp) (status : Status) (cmd : AgmpCmd) :
    ∃ out, cmd.call player.player prevResp status = .ok out := by
  cases cmd with
  | none | quit | seek | time => exact ⟨_, rfl⟩
  | request r =>
      have range := reach.inv.range
      simp only [AgmpCmd.call]
      cases decided : r.decide player.player with
      | answer reply => exact ⟨_, rfl⟩
      | call command reply => exact ⟨_, rfl⟩
      | crash => exact absurd decided (r.decide_ne_crash range)
  | ack =>
      cases prevResp with
      | none => exact ⟨_, rfl⟩
      | some prev =>
          obtain ⟨s, first⟩ := firstString_of_ne (present prev rfl)
          exact ⟨(status, some s), by rw [AgmpCmd.call, first]; rfl⟩

theorem executeCommand_ok {env : Env} {prevResp : Option Node} (present : Present prevResp)
    {node : Node} (entry : node.type = CmdType.command.value →
      0 ≤ node.cmd.toInt ∧ node.cmd.toInt < initCmdArray.length) :
    ∃ out, executeCommand env prevResp node = .ok out := by
  unfold executeCommand
  by_cases command : node.type = CmdType.command.value
  · rw [if_pos command]
    split
    · exact ⟨_, rfl⟩
    · obtain ⟨cmd, found⟩ := cmdArr_eq_ok (entry command).1 (entry command).2
      obtain ⟨out, called⟩ := cmd.call_ok env.reach present .success
      rw [found]
      dsimp only
      rw [called]
      exact ⟨_, rfl⟩
  · rw [if_neg command]
    split
    · split
      · exact ⟨_, rfl⟩
      · dsimp only
        split <;> exact ⟨_, rfl⟩
    · exact ⟨_, rfl⟩

/-- A node is answered only after its first string has been read and with the strings that
`execute_command` has made for it. -/
theorem runResponse_response {env : Env} {prevResp : Option Node} {node : Node}
    {handled : Handled} (run : runResponse env prevResp node = .ok handled) :
    node.data ≠ [] ∧ handled.notices = [] ∧
      ((handled.response = none ∧ handled.prevResp = prevResp ∧
          ∃ status, executeCommand env prevResp node = .ok (none, status)) ∨
        ∃ response data, handled.response = some response ∧
          executeCommand env prevResp node = .ok (some data, response.status) ∧
          (handled.prevResp = none ∨ handled.prevResp = some node ∨
            handled.prevResp = prevResp)) := by
  unfold runResponse at run
  split at run
  · cases run
  next first =>
      have present := firstString_ok first
      split at run
      · cases run
      next executed =>
          rw [first] at run
          cases run
          exact ⟨present, rfl, .inl ⟨rfl, rfl, _, executed⟩⟩
      next data status executed =>
          cases run
          refine ⟨present, rfl, .inr ⟨_, data, rfl, executed, ?_⟩⟩
          dsimp only
          split
          · unfold savePrevResp
            split
            · exact .inr (.inl rfl)
            · exact .inl rfl
          · exact .inr (.inr rfl)

/-- The assumptions of `Answer` hold of every node that is answered. -/
theorem runResponse_answer {env : Env} {prevResp : Option Node} {node : Node} {handled : Handled}
    (run : runResponse env prevResp node = .ok handled) (answered : handled.response ≠ none) :
    node.data ≠ [] ∧
      (node.type = CmdType.command.value ∨ node.type = CmdType.stream.value) := by
  obtain ⟨present, _, ⟨unanswered, _⟩ | ⟨response, data, _, executed, _⟩⟩ :=
    runResponse_response run
  · exact absurd unanswered answered
  · refine ⟨present, ?_⟩
    by_contra other
    rw [not_or] at other
    rw [executeCommand, if_neg other.1, if_neg other.2] at executed
    cases executed

theorem runServer_node {env : Env} {clientId clientFd : Int} {msg : AMessage} {node : Node}
    {notices : List Notice}
    (run : runServer env clientId clientFd msg = .ok (some node, notices)) :
    msg.data ≠ [] ∧ node = ⟨clientId, clientFd, msg.idx, .success, msg.type, msg.cmd, msg.data⟩ := by
  unfold runServer at run
  split at run
  · cases run
  next first =>
      split at run
      · cases run
      split at run
      · cases run
      cases run
      exact ⟨firstString_ok first, rfl⟩

theorem present_of_reachable {prevResp : Option Node}
    (reach : handling.Reachable (· = none) prevResp) : Present prevResp := by
  refine reach.rec_inv ?_ ?_
  · rintro _ rfl node is
    cases is
  · intro prev h next es present step
    simp only [handling] at step
    split at step
    · cases step
    next handled run =>
        cases step
        unfold handle at run
        split at run
        · cases run
        · cases run
          exact present
        next node _ made =>
            obtain ⟨first, rfl⟩ := runServer_node made
            obtain ⟨_, _, ⟨_, same, _⟩ | ⟨_, _, _, _, none | own | same⟩⟩ :=
              runResponse_response run
            · rw [same]
              exact present
            · rw [none]
              rintro node is
              cases is
            · rw [own]
              rintro node is
              cases is
              exact first
            · rw [same]
              exact present

/-- A message with a string and a handler is handled without a fault. -/
theorem safe_of_hasHandler {msg : AMessage} (present : msg.data ≠ []) (handler : HasHandler msg) :
    Safe msg := by
  intro prevResp reach env clientId clientFd
  have saved := present_of_reachable reach
  have entry : msg.type = CmdType.command.value →
      0 ≤ msg.cmd.toInt ∧ msg.cmd.toInt < initCmdArray.length := by
    intro command
    rcases handler with ⟨_, inside⟩ | ⟨stream, _⟩
    · exact inside
    · rw [stream] at command
      exact absurd command (by decide)
  obtain ⟨first, read⟩ := firstString_of_ne present
  have handled : ∃ handled, handle env prevResp clientId clientFd msg = .ok handled := by
    unfold handle runServer
    rw [read]
    dsimp only
    by_cases made : env.createNode = false
    · rw [if_pos made]
      exact ⟨_, rfl⟩
    rw [if_neg made]
    by_cases full : queueSize < env.queueLength
    · rw [if_pos full]
      exact ⟨_, rfl⟩
    rw [if_neg full]
    have executes : ∃ out, executeCommand env prevResp
        ⟨clientId, clientFd, msg.idx, .success, msg.type, msg.cmd, msg.data⟩ = .ok out :=
      executeCommand_ok saved entry
    obtain ⟨⟨data, status⟩, executed⟩ := executes
    unfold runResponse
    dsimp only
    rw [read]
    dsimp only
    rw [executed]
    cases data with
    | none => exact ⟨_, rfl⟩
    | some data => exact ⟨_, rfl⟩
  obtain ⟨handled, run⟩ := handled
  exact ⟨handled, run, fun none => absurd handler none⟩

/-- A player of one file, as it is started. -/
def onePlayer : State := startPlayer { createPlayer false with playlist := ⟨["a.mp4"], 0⟩ }

theorem onePlayer_reachable : Reachable onePlayer :=
  ⟨[], onePlayer, ⟨false, ["a.mp4"], _, rfl, rfl⟩, [], rfl⟩

/-- Every call succeeds. -/
def calmEnv : Env where
  player := onePlayer
  reach := onePlayer_reachable
  createNode := true
  queueLength := 0
  malloc := true
  serverPath := some [115]
  clientPath := some [99]
  killed := true
  sends := fun _ => .sent
  saved := true

/-- What a message leads to when nothing has been answered yet and every call succeeds. -/
theorem handle_calmEnv {msg : AMessage} (present : msg.data ≠ []) :
    handle calmEnv none 0 4 msg =
      runResponse calmEnv none ⟨0, 4, msg.idx, .success, msg.type, msg.cmd, msg.data⟩ := by
  obtain ⟨first, read⟩ := firstString_of_ne present
  unfold handle runServer
  rw [read]
  rfl

theorem not_safe_of_absent {msg : AMessage} (absent : msg.data = []) : ¬ Safe msg := by
  intro safe
  obtain ⟨handled, run, _⟩ := safe none ⟨[], none, rfl, [], rfl⟩ calmEnv 0 4
  rw [handle, runServer, absent] at run
  cases run

theorem not_safe_of_no_handler {msg : AMessage} (missing : ¬ HasHandler msg) : ¬ Safe msg := by
  intro safe
  by_cases absent : msg.data = []
  · exact not_safe_of_absent absent safe
  obtain ⟨handled, run, refused⟩ := safe none ⟨[], none, rfl, [], rfl⟩ calmEnv 0 4
  rw [handle_calmEnv absent] at run
  obtain ⟨_, notices, answer⟩ := runResponse_response run
  have response : ∃ response, handled.response = some response ∧ response.status ≠ .success := by
    rcases refused missing with told | ⟨notice, mem, _⟩
    · exact told
    · rw [notices] at mem
      cases mem
  obtain ⟨response, is, failed⟩ := response
  rw [is] at answer
  rcases answer with ⟨none, _⟩ | ⟨response', data, same, executed, _⟩
  · cases none
  cases same
  by_cases command : msg.type = CmdType.command.value
  · -- the call goes outside of `cmd_arr`
    have outside := cmdArr_eq_error fun inside => missing (.inl ⟨command, inside⟩)
    simp only [executeCommand, if_pos command, calmEnv, outside] at executed
    cases executed
  by_cases stream : msg.type = CmdType.stream.value
  · -- the stream thread is woken up without a function
    simp only [executeCommand, if_neg command, if_pos stream, calmEnv, triggerStream] at executed
    exact failed (Prod.mk.inj (Except.ok.inj executed)).2.symm
  · simp only [executeCommand, if_neg command, if_neg stream] at executed
    cases executed

/-- A message is handled as it should be, in every state and whatever the calls return, if
and only if it has a string and a handler. -/
theorem handled_iff (msg : AMessage) : Safe msg ↔ msg.data ≠ [] ∧ HasHandler msg := by
  constructor
  · intro safe
    by_contra other
    rw [not_and_or, not_not] at other
    rcases other with absent | missing
    · exact not_safe_of_absent absent safe
    · exact not_safe_of_no_handler missing safe
  · rintro ⟨present, handler⟩
    exact safe_of_hasHandler present handler

/-- An ACK without a string, a command behind the last one, a NOTIFY and a STREAM of a
command other than TIME. -/
theorem not_safe_examples :
    ¬ Safe ⟨0, CmdType.command.value, Cmd.ack.value, 1, []⟩ ∧
      ¬ Safe ⟨0, CmdType.command.value, 11, 1, [[97]]⟩ ∧
      ¬ Safe ⟨0, CmdType.notify.value, Cmd.play.value, 1, [[97]]⟩ ∧
      ¬ Safe ⟨0, CmdType.stream.value, Cmd.play.value, 1, [[97]]⟩ := by
  refine ⟨not_safe_of_absent rfl, ?_, ?_, ?_⟩
  · exact not_safe_of_no_handler (by decide)
  · exact not_safe_of_no_handler (by decide)
  · exact not_safe_of_no_handler (by decide)

end OdroidPlayer
