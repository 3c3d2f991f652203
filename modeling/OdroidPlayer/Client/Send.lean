import OdroidPlayer.Server.Handle
import OdroidPlayer.Wire.Receive

/-!
What a client writes to the server: the requests of `client/opc/opclient.c` and
`send_command` (`client/opc/send/send.c`).

A request draws a number, packs its command and sends a length and the packed message by
two calls of `send`. A failed call ends the request, and the next one writes to the same
socket. What the server reads are the requests that have been sent, whole and in order, as
long as no call takes a part only and none fails behind a length (`requests_framed`).
-/

namespace OdroidPlayer

open Framing Transition

/-! ### The requests -/

/-- `init_cmd_array` and `command_to_string` of the client. -/
def commandToString : Cmd → CString
  | .none => cString "none"
  | .play => cString "play"
  | .stop => cString "stop"
  | .pause => cString "pause"
  | .next => cString "next"
  | .prev => cString "prev"
  | .quit => cString "quit"
  | .seek => cString "seek"
  | .time => cString "time"
  | .uri => cString "uri"
  | .ack => cString "ack"

/-- What a function of the library passes to `send_command`. -/
structure OpcRequest where
  type : CmdType
  cmd : Cmd
  deriving DecidableEq, Repr

def opcSendPlay : OpcRequest := ⟨.command, .play⟩

def opcSendStop : OpcRequest := ⟨.command, .stop⟩

def opcSendPause : OpcRequest := ⟨.command, .pause⟩

def opcSendNext : OpcRequest := ⟨.command, .next⟩

def opcSendPrev : OpcRequest := ⟨.command, .prev⟩

def opcSendAck : OpcRequest := ⟨.command, .ack⟩

def opcRecvTime : OpcRequest := ⟨.stream, .time⟩

def opcRecvUri : OpcRequest := ⟨.command, .uri⟩

/-- The functions of the library that send a request. -/
def opcRequests : List OpcRequest :=
  [opcSendPlay, opcSendStop, opcSendPause, opcSendNext, opcSendPrev, opcSendAck, opcRecvTime,
    opcRecvUri]

/-- The message of `prepare_send_message`; `AMESSAGE__INIT` sets the status. -/
def prepareSendMessage (type : CmdType) (cmd : Cmd) (idx : Nat) : AMessage :=
  ⟨Status.success.value, type.value, cmd.value, Int32.ofNat idx, [commandToString cmd]⟩

/-- `cmd_arr` of the server has an entry for every command. -/
theorem cmd_inside (cmd : Cmd) :
    0 ≤ cmd.value.toInt ∧ cmd.value.toInt < initCmdArray.length := by
  cases cmd <;> decide

/-- The server has an entry of `cmd_arr` or a stream function for every request. -/
theorem hasHandler_of_mem {request : OpcRequest} (mem : request ∈ opcRequests) (idx : Nat) :
    HasHandler (prepareSendMessage request.type request.cmd idx) := by
  have kinds : ∀ request ∈ opcRequests, request.type = .command ∨ request = opcRecvTime := by
    decide
  rcases kinds request mem with command | rfl
  · exact .inl ⟨by rw [command]; rfl, cmd_inside request.cmd⟩
  · exact .inr ⟨rfl, rfl⟩

/-! ### The calls of `send` -/

/-- `e_err_send`. -/
inductive ErrSend where
  | timeout | closed | internal
  deriving DecidableEq, Repr

/-- Where the thread that holds `client_mutex` is in `send_command`. -/
inductive CommandAt where
  | idle
  /-- `send_message_length` -/
  | length (sendMsg : AMessage)
  /-- `send_message_data` -/
  | data (sendMsg : AMessage)
  deriving DecidableEq, Repr

/-- The calls of `send` of the requests of one client. -/
structure Commands where
  msgIdx : Nat
  at_ : CommandAt
  deriving DecidableEq, Repr

namespace Commands

inductive Action where
  /-- a number is drawn, and the message is allocated and packed -/
  | prepare (request : OpcRequest) (malloc : Bool)
  | send (n : Nat)
  | sendFails (err : ErrSend)
  deriving DecidableEq, Repr

inductive Event where
  | wrote (bytes : List UInt8)
  /-- `send_command` returns true -/
  | sent (sendMsg : AMessage)
  /-- it returns false, with an `err` if `send` has failed -/
  | failed (err : Option ErrSend)
  deriving DecidableEq, Repr

/-- `opc_init` -/
def start : Commands := ⟨0, .idle⟩

section Sending

variable (codec : Codec)

/-- What is handed to `send`. -/
def write (s : Commands) : Option (Write UInt8) :=
  match s.at_ with
  | .idle => none
  | .length sendMsg => some (.header (codec.pack sendMsg).length)
  | .data sendMsg => some (.body (codec.pack sendMsg))

/-- The statement behind a call that has sent something. -/
def next (s : Commands) : Commands × List Event :=
  match s.at_ with
  | .idle => (s, [])
  | .length sendMsg => ({ s with at_ := .data sendMsg }, [])
  | .data sendMsg => ({ s with at_ := .idle }, [.sent sendMsg])

/-- A request, one call of `send` after the other. A call takes at least a byte, and not more
than its `int` can count. -/
def sending : System Commands Action Event where
  step s
    | .prepare request malloc =>
        if s.at_ = .idle ∧ request ∈ opcRequests then
          if malloc then
            let sendMsg := prepareSendMessage request.type request.cmd (s.msgIdx + 1)
            some (⟨s.msgIdx + 1, .length sendMsg⟩, [])
          else some ({ s with msgIdx := s.msgIdx + 1 }, [.failed none])
        else none
    | .send n =>
        match s.write codec with
        | none => none
        | some write =>
            if 0 < n ∧ n ≤ (lengthHeader.bytes write).length ∧ n < 2 ^ 31 then
              some (s.next.1, .wrote ((lengthHeader.bytes write).take n) :: s.next.2)
            else none
    | .sendFails err =>
        match s.write codec with
        | none => none
        | some _ => some ({ s with at_ := .idle }, [.failed (some err)])

/-- A call that sends something sends everything. -/
def NotShort (s : Commands) : Action → Prop
  | .send n => ∀ write ∈ s.write codec, n = (lengthHeader.bytes write).length
  | .prepare .. | .sendFails _ => True

/-- A call that sends something sends everything, and none fails behind a length. -/
def Unbroken (s : Commands) : Action → Prop
  | .send n => ∀ write ∈ s.write codec, n = (lengthHeader.bytes write).length
  | .sendFails _ => ∀ sendMsg, s.at_ ≠ .data sendMsg
  | .prepare .. => True

instance (s : Commands) (a : Action) : Decidable (NotShort codec s a) :=
  match a with
  | .send n => inferInstanceAs (Decidable (∀ write ∈ s.write codec, n = _))
  | .prepare .. | .sendFails _ => .isTrue trivial

instance (s : Commands) (a : Action) : Decidable (Unbroken codec s a) :=
  match a, s with
  | .send n, s => inferInstanceAs (Decidable (∀ write ∈ s.write codec, n = _))
  | .sendFails _, ⟨_, .idle⟩ | .sendFails _, ⟨_, .length _⟩ => .isTrue (by rintro _ ⟨⟩)
  | .sendFails _, ⟨_, .data sendMsg⟩ => .isFalse fun none => none sendMsg rfl
  | .prepare .., _ => .isTrue trivial

end Sending

/-- What the server reads. -/
def writtenBytes (log : List Event) : List UInt8 :=
  log.flatMap fun
    | .wrote bytes => bytes
    | .sent _ | .failed _ => []

/-- The requests that have been sent, in order. -/
def sentMessages (log : List Event) : List AMessage :=
  log.filterMap fun
    | .sent sendMsg => some sendMsg
    | .wrote _ | .failed _ => none

/-! ### What one statement does -/

/-- A message of `prepare_send_message` for a function of the library. -/
def Prepared (sendMsg : AMessage) : Prop :=
  ∃ request ∈ opcRequests, ∃ idx, sendMsg = prepareSendMessage request.type request.cmd idx

inductive Move (codec : Codec) (s : Commands) : Action → Commands → List Event → Prop where
  | prepare {request : OpcRequest} (idle : s.at_ = .idle) (known : request ∈ opcRequests) :
      Move codec s (.prepare request true)
        ⟨s.msgIdx + 1, .length (prepareSendMessage request.type request.cmd (s.msgIdx + 1))⟩ []
  | noMemory {request : OpcRequest} (idle : s.at_ = .idle) :
      Move codec s (.prepare request false) ⟨s.msgIdx + 1, .idle⟩ [.failed none]
  | length {sendMsg : AMessage} {n : Nat} (at_ : s.at_ = .length sendMsg) :
      Move codec s (.send n) ⟨s.msgIdx, .data sendMsg⟩
        [.wrote ((convLen (codec.pack sendMsg).length).take n)]
  | data {sendMsg : AMessage} {n : Nat} (at_ : s.at_ = .data sendMsg) (small : n < 2 ^ 31) :
      Move codec s (.send n) ⟨s.msgIdx, .idle⟩
        [.wrote ((codec.pack sendMsg).take n), .sent sendMsg]
  | lengthFails {sendMsg : AMessage} {err : ErrSend} (at_ : s.at_ = .length sendMsg) :
      Move codec s (.sendFails err) ⟨s.msgIdx, .idle⟩ [.failed (some err)]
  | dataFails {sendMsg : AMessage} {err : ErrSend} (at_ : s.at_ = .data sendMsg) :
      Move codec s (.sendFails err) ⟨s.msgIdx, .idle⟩ [.failed (some err)]

section Runs

variable {codec : Codec} {s t : Commands} {a : Action} {es log : List Event} {as : List Action}

theorem step_move (step : (sending codec).step s a = some (t, es)) : Move codec s a t es := by
  obtain ⟨msgIdx, at_⟩ := s
  cases a with
  | prepare request malloc =>
      simp only [sending] at step
      split at step
      · next ready =>
          obtain ⟨rfl, known⟩ := ready
          cases malloc with
          | true => cases step; exact .prepare rfl known
          | false => cases step; exact .noMemory rfl
      · cases step
  | send n =>
      cases at_ with
      | idle => cases step
      | length sendMsg =>
          simp only [sending, write] at step
          split at step
          · cases step; exact .length rfl
          · cases step
      | data sendMsg =>
          simp only [sending, write] at step
          split at step
          · next fits => cases step; exact .data rfl fits.2.2
          · cases step
  | sendFails err =>
      cases at_ with
      | idle => cases step
      | length sendMsg => cases step; exact .lengthFails rfl
      | data sendMsg => cases step; exact .dataFails rfl

/-- The requests sent and the one that is being sent have been prepared by the library. -/
def Known (s : Commands) (log : List Event) : Prop :=
  (∀ m ∈ sentMessages log, Prepared m) ∧
    ∀ sendMsg, s.at_ = .length sendMsg ∨ s.at_ = .data sendMsg → Prepared sendMsg

@[simp] theorem sentMessages_append (front back : List Event) :
    sentMessages (front ++ back) = sentMessages front ++ sentMessages back :=
  List.filterMap_append

@[simp] theorem writtenBytes_append (front back : List Event) :
    writtenBytes (front ++ back) = writtenBytes front ++ writtenBytes back :=
  List.flatMap_append

theorem Known.keep (known : Known s log) (move : Move codec s a t es) : Known t (log ++ es) := by
  obtain ⟨sent, sends⟩ := known
  cases move with
  | prepare idle mem =>
      refine ⟨by simpa using sent, ?_⟩
      rintro _ (⟨⟨⟩⟩ | ⟨⟨⟩⟩)
      exact ⟨_, mem, _, rfl⟩
  | noMemory | lengthFails | dataFails =>
      refine ⟨by simpa [sentMessages] using sent, ?_⟩
      rintro _ (⟨⟨⟩⟩ | ⟨⟨⟩⟩)
  | length at_ =>
      refine ⟨by simpa [sentMessages] using sent, ?_⟩
      rintro _ (⟨⟨⟩⟩ | ⟨⟨⟩⟩)
      exact sends _ (.inl at_)
  | data at_ =>
      constructor
      · intro m mem
        rw [sentMessages_append] at mem
        rcases List.mem_append.mp mem with old | new
        · exact sent m old
        · obtain rfl : m = _ := by simpa [sentMessages] using new
          exact sends _ (.inr at_)
      · rintro _ (⟨⟨⟩⟩ | ⟨⟨⟩⟩)

theorem known_of_run (idle : s.at_ = .idle)
    (run : (sending codec).exec s as = some (t, log)) : Known t log := by
  refine System.exec_rec (fun _ _ _ _ _ known step => known.keep (step_move step)) [] ?_ run
  refine ⟨by simp [sentMessages], ?_⟩
  rintro _ (at_ | at_) <;> rw [idle] at at_ <;> cases at_

/-! ### The frames of a run -/

/-- The length that the server has read and not yet the message behind it. -/
def unanswered (codec : Codec) (s : Commands) : List UInt8 :=
  match s.at_ with
  | .idle | .length _ => []
  | .data sendMsg => convLen (codec.pack sendMsg).length

/-- The frames that a run begins, the one that is open at its start included. -/
structure Frames (codec : Codec) (s : Commands) (as : List Action) (log : List Event)
    (fs : List (Begun UInt8)) : Prop where
  bytes : s.unanswered codec ++ writtenBytes log = fs.flatMap lengthHeader.begun
  sent : (fs.filter Begun.finished).map Begun.body = (sentMessages log).map codec.pack
  small : ∀ f ∈ fs, f.finished = true → f.body.length < 2 ^ 31
  whole : (sending codec).Along (Unbroken codec) s as ↔ ∀ f ∈ fs, f.finished = true

theorem frames_exec (closed : t.at_ = .idle)
    (full : (sending codec).Along (NotShort codec) s as)
    (run : (sending codec).exec s as = some (t, log)) : ∃ fs, Frames codec s as log fs := by
  induction as generalizing s log with
  | nil =>
      cases run
      refine ⟨[], ?_, rfl, by simp, by simp [System.Along]⟩
      simp [unanswered, closed, writtenBytes]
  | cons a as ih =>
      obtain ⟨m, es, rest, step, tail, rfl⟩ := System.exec_cons.mp run
      obtain ⟨fs, bytes, sent, small, whole⟩ := ih (full.2 m es step) tail
      have here := full.1
      cases step_move step with
      | prepare idle =>
          refine ⟨fs, ?_, sent, small, ?_⟩
          · rw [← bytes]
            simp [unanswered, idle]
          · rw [System.along_cons_iff step, whole]
            exact and_iff_right trivial
      | noMemory idle =>
          refine ⟨fs, ?_, sent, small, ?_⟩
          · rw [← bytes]
            simp [unanswered, idle, writtenBytes]
          · rw [System.along_cons_iff step, whole]
            exact and_iff_right trivial
      | @length sendMsg n at_ =>
          have all : n = (convLen (codec.pack sendMsg).length).length :=
            here (.header _) (by simp [write, at_])
          refine ⟨fs, ?_, sent, small, ?_⟩
          · rw [← bytes]
            simp [unanswered, at_, writtenBytes, all]
          · rw [System.along_cons_iff step, whole]
            exact and_iff_right here
      | @data sendMsg n at_ below =>
          have all : n = (codec.pack sendMsg).length := here (.body _) (by simp [write, at_])
          refine ⟨⟨codec.pack sendMsg, true⟩ :: fs, ?_, ?_, ?_, ?_⟩
          · rw [List.flatMap_cons, ← bytes]
            simp [unanswered, at_, writtenBytes, all, lengthHeader, Header.begun]
          · simpa [sentMessages] using sent
          · intro f mem finished
            rcases List.mem_cons.mp mem with rfl | later
            · exact all ▸ below
            · exact small f later finished
          · rw [System.along_cons_iff step, whole]
            have met : Unbroken codec s (.send n) := here
            simp [met]
      | @lengthFails sendMsg err at_ =>
          refine ⟨fs, ?_, sent, small, ?_⟩
          · rw [← bytes]
            simp [unanswered, at_, writtenBytes]
          · rw [System.along_cons_iff step, whole]
            exact and_iff_right fun _ => by simp [at_]
      | @dataFails sendMsg err at_ =>
          refine ⟨⟨codec.pack sendMsg, false⟩ :: fs, ?_, ?_, ?_, ?_⟩
          · rw [List.flatMap_cons, ← bytes]
            simp [unanswered, at_, writtenBytes, lengthHeader, Header.begun]
          · simpa [sentMessages] using sent
          · simpa using small
          · rw [System.along_cons_iff step]
            have broken : ¬ Unbroken codec s (.sendFails err) := fun met => met sendMsg at_
            simp [broken]

theorem Frames.stream {fs : List (Begun UInt8)} (idle : s.at_ = .idle)
    (made : Frames codec s as log fs) (finished : ∀ f ∈ fs, f.finished = true) :
    writtenBytes log = frames codec (sentMessages log) := by
  have all : fs.filter Begun.finished = fs := List.filter_eq_self.mpr finished
  have bytes := made.bytes
  rw [Header.begun_of_finished finished] at bytes
  rw [frames, ← made.sent, all, ← bytes]
  simp [unanswered, idle]

/-- A prepared message does not look like a length. -/
theorem Prepared.distinct (format : codec.WireFormat) {m : AMessage} (prepared : Prepared m) :
    lengthHeader.Distinct (codec.pack m) := by
  obtain ⟨request, -, idx, rfl⟩ := prepared
  exact distinct_of_wireFormat format ⟨.success, rfl⟩ ⟨request.type, rfl⟩

theorem Frames.finished {fs : List (Begun UInt8)} (format : codec.WireFormat)
    (idle : s.at_ = .idle) (known : ∀ m ∈ sentMessages log, Prepared m)
    (made : Frames codec s as log fs)
    (whole : writtenBytes log = frames codec (sentMessages log)) :
    ∀ f ∈ fs, f.finished = true := by
  have same : fs.flatMap lengthHeader.begun =
      lengthHeader.stream ((sentMessages log).map codec.pack) := by
    rw [← made.bytes, ← frames, ← whole]
    simp [unanswered, idle]
  have bound : lengthHeader.bound = 2 ^ 32 := rfl
  have smallBodies : ∀ body ∈ (sentMessages log).map codec.pack,
      body.length < lengthHeader.bound := by
    intro body mem
    rw [← made.sent] at mem
    obtain ⟨f, mine, rfl⟩ := List.mem_map.mp mem
    obtain ⟨there, finished⟩ := List.mem_filter.mp mine
    have small := made.small f there finished
    omega
  refine Header.finished_of_stream ?_ smallBodies ?_ same
  · intro f mem finished
    have small := made.small f mem finished
    omega
  · intro body mem
    obtain ⟨m, sent, rfl⟩ := List.mem_map.mp mem
    exact (known m sent).distinct format

end Runs

/-- Between two requests the server has been sent the messages of the requests that have
succeeded, whole and in order, if no call of `send` took a part only and none failed behind a
length; and where no call took a part only, just then. -/
theorem requests_framed {codec : Codec} (format : codec.WireFormat) {t : Commands}
    {as : List Action} {log : List Event} (idle : t.at_ = .idle)
    (run : (sending codec).exec start as = some (t, log)) :
    ((sending codec).Along (Unbroken codec) start as →
        writtenBytes log = frames codec (sentMessages log)) ∧
      ((sending codec).Along (NotShort codec) start as →
        (writtenBytes log = frames codec (sentMessages log) ↔
          (sending codec).Along (Unbroken codec) start as)) := by
  have known := (known_of_run (s := start) rfl run).1
  constructor
  · intro unbroken
    have full : (sending codec).Along (NotShort codec) start as := by
      refine System.along_mono (fun s a met => ?_) unbroken
      cases a with
      | send n => exact met
      | prepare | sendFails => trivial
    obtain ⟨fs, made⟩ := frames_exec idle full run
    exact made.stream rfl (made.whole.mp unbroken)
  · intro full
    obtain ⟨fs, made⟩ := frames_exec idle full run
    refine ⟨fun whole => made.whole.mpr (made.finished format rfl known whole), ?_⟩
    exact fun unbroken => made.stream rfl (made.whole.mp unbroken)

/-- A PLAY, and a STOP whose length times out. -/
def stopTimesOut : List Action :=
  [.prepare opcSendPlay true, .send 8, .send 14, .prepare opcSendStop true, .sendFails .timeout]

/-- The frame of the PLAY. -/
def playBytes : List UInt8 :=
  [0, 0, 0, 14, 0, 0, 0, 0, 8, 0, 16, 0, 24, 1, 32, 1, 42, 4, 112, 108, 97, 121]

theorem stopTimesOut_framed : ∃ log,
    (sending protobuf).exec start stopTimesOut = some (⟨2, .idle⟩, log) ∧
      writtenBytes log = playBytes ∧ writtenBytes log = frames protobuf (sentMessages log) := by
  have out : ((sending protobuf).exec start stopTimesOut).map
      (fun out => (out.1, writtenBytes out.2)) = some (⟨2, .idle⟩, playBytes) := by decide +kernel
  obtain ⟨⟨t, log⟩, run, is⟩ := Option.map_eq_some_iff.mp out
  obtain ⟨rfl, bytes⟩ := Prod.mk.inj is
  exact ⟨log, run, bytes, (requests_framed protobuf_wireFormat rfl run).1 (by decide +kernel)⟩

/-- The message of the PLAY times out behind its length, and the server reads the STOP in its
place. -/
theorem length_left_behind :
    ((sending protobuf).exec start
      [.prepare opcSendPlay true, .send 8, .sendFails .timeout, .prepare opcSendStop true, .send 8,
        .send 14]).map (fun out => (out.1.at_,
          decide (writtenBytes out.2 = frames protobuf (sentMessages out.2)))) =
      some (.idle, false) := by
  decide +kernel

/-! ### The way of a request to the server -/

end Commands

end OdroidPlayer
