import OdroidPlayer.Wire.Protobuf

/-!
What the server writes to its clients (`server/send/send.c`) and who writes it.

A message is sent as its length and then its packed form, by two calls of `send`. The
response thread broadcasts a command and answers it, the player thread broadcasts the
new uri, the server thread notifies of errors, and nothing holds two of them apart. With
every `send` complete, the stream of a client parses into the messages sent exactly when
no thread sends a length to that client while another has yet to send the message of its
own (`parses_iff_oneAtATime`).
-/

namespace OdroidPlayer

open Framing Transition

/-- A call of `send` on a client's socket. -/
structure Send where
  fd : Int
  write : Write UInt8
  deriving DecidableEq

/-- The fields of `t_node` that are answered. -/
structure Node where
  clientId : Int
  clientFd : Int
  msgIdx : Int32
  status : Status
  type : Int32
  cmd : Int32
  data : List CString
  deriving DecidableEq, Repr

section Codec

variable (codec : Codec)

/-- `send_len` and then `send_buf`, as `send_notify_message` and `send_response` send them. -/
def sendMessage (clientFd : Int) (sendMsg : AMessage) : List Send :=
  [⟨clientFd, .header (codec.pack sendMsg).length⟩, ⟨clientFd, .body (codec.pack sendMsg)⟩]

def notifyMessage (msg : CString) (msgIdx : Int32) (status : Status) (type : CmdType)
    (cmd : Int32) : AMessage :=
  ⟨status.value, type.value, cmd, msgIdx, [msg]⟩

def sendNotifyMessage (clientFd : Int) (msg : Option CString) (msgIdx : Int32) (status : Status)
    (type : CmdType) (cmd : Int32) : List Send :=
  match msg with
  | none => []
  | some msg => sendMessage codec clientFd (notifyMessage msg msgIdx status type cmd)

/-- `send_broadcast_message`, given the sockets in the array of `get_client_arr`. -/
def sendBroadcastMessage (clientArr : List Int) (msg : Option CString) (msgIdx : Int32)
    (status : Status) (cmd : Int32) : List Send :=
  match msg with
  | none => []
  | some msg => clientArr.flatMap fun fd =>
      sendNotifyMessage codec fd (some msg) msgIdx status .brdcast cmd

def responseMessage (node : Node) (status : Status) (data : List CString) : AMessage :=
  ⟨status.value, node.type, node.cmd, node.msgIdx, data⟩

def sendResponse (node : Node) (status : Status) (data : List CString) : List Send :=
  sendMessage codec node.clientFd (responseMessage node status data)

end Codec

/-! ### The three threads -/

inductive Sender where
  | response | player | server
  deriving DecidableEq, Repr

/-- A command that `run_response` has executed, with the clients it is broadcast to. The
first string of the node has been read, and a node of another type is not answered. -/
structure Answer where
  node : Node
  status : Status
  data : List CString
  clientArr : List Int
  present : node.data ≠ []
  known : node.type = CmdType.command.value ∨ node.type = CmdType.stream.value

/-- A broadcast of `forward_playlist` or `backward_playlist`. -/
structure Moved where
  clientArr : List Int
  uri : CString

/-- A `send_notify_message` of the server thread. -/
structure Notice where
  clientFd : Int
  msg : CString
  status : Status

/-- What the threads have to send. -/
structure Traffic where
  answers : List Answer
  moves : List Moved
  notices : List Notice

variable (codec : Codec)

/-- The broadcast and the response of `run_response`. -/
def Answer.sends (answer : Answer) : List Send :=
  sendBroadcastMessage codec answer.clientArr (some (answer.node.data.head answer.present)) (-1)
      answer.status answer.node.cmd ++
    sendResponse codec answer.node answer.status answer.data

def Moved.sends (moved : Moved) : List Send :=
  sendBroadcastMessage codec moved.clientArr (some moved.uri) (-1) .brdinfo Cmd.uri.value

def Notice.sends (notice : Notice) : List Send :=
  sendNotifyMessage codec notice.clientFd (some notice.msg) (-1) notice.status .notify
    Cmd.none.value

def Traffic.sends (traffic : Traffic) : Sender → List Send
  | .response => traffic.answers.flatMap (Answer.sends codec)
  | .player => traffic.moves.flatMap (Moved.sends codec)
  | .server => traffic.notices.flatMap (Notice.sends codec)

/-- The calls of `send` on one socket. -/
def onFd (fd : Int) (sends : List Send) : List (Write UInt8) :=
  (sends.filter fun send => send.fd = fd).map Send.write

def Traffic.on (traffic : Traffic) (fd : Int) (sender : Sender) : List (Write UInt8) :=
  onFd fd (traffic.sends codec sender)

/-- The interleavings of the calls of `send` on one socket. -/
abbrev sending : System (Sender → List (Write UInt8)) Sender (Write UInt8) := shared Sender UInt8

/-- An interleaving in which every length is followed by its message. -/
abbrev OneAtATime (s : Sender → List (Write UInt8)) (sender : Sender) : Prop := Exclusive s sender

/-! ### Every thread sends whole frames -/

/-- The messages of a list of sends, all of them with a status and a type of the protocol. -/
inductive Sends (codec : Codec) : List Send → Prop where
  | nil : Sends codec []
  | message {sends : List Send} (fd : Int) (m : AMessage) (status : ∃ s : Status, m.status = s.value)
      (type : ∃ t : CmdType, m.type = t.value) (rest : Sends codec sends) :
      Sends codec (sendMessage codec fd m ++ sends)

variable {codec}

theorem Sends.append {front back : List Send} (first : Sends codec front)
    (second : Sends codec back) : Sends codec (front ++ back) := by
  induction first with
  | nil => exact second
  | message fd m status type _ ih =>
      rw [List.append_assoc]
      exact .message fd m status type ih

theorem Sends.single (fd : Int) {m : AMessage} (status : ∃ s : Status, m.status = s.value)
    (type : ∃ t : CmdType, m.type = t.value) : Sends codec (sendMessage codec fd m) := by
  rw [← List.append_nil (sendMessage codec fd m)]
  exact .message fd m status type .nil

theorem Sends.flatMap {α : Type} {items : List α} {f : α → List Send}
    (each : ∀ item, Sends codec (f item)) : Sends codec (items.flatMap f) := by
  induction items with
  | nil => exact .nil
  | cons item items ih =>
      rw [List.flatMap_cons]
      exact (each item).append ih

theorem sendNotifyMessage_sends (fd : Int) (msg : Option CString) (msgIdx : Int32)
    (status : Status) (type : CmdType) (cmd : Int32) :
    Sends codec (sendNotifyMessage codec fd msg msgIdx status type cmd) := by
  cases msg with
  | none => exact .nil
  | some msg => exact .single fd ⟨status, rfl⟩ ⟨type, rfl⟩

theorem sendBroadcastMessage_sends (clientArr : List Int) (msg : Option CString)
    (msgIdx : Int32) (status : Status) (cmd : Int32) :
    Sends codec (sendBroadcastMessage codec clientArr msg msgIdx status cmd) := by
  cases msg with
  | none => exact .nil
  | some msg => exact .flatMap fun fd => sendNotifyMessage_sends fd _ msgIdx status .brdcast cmd

theorem Traffic.sends_sends (traffic : Traffic) (sender : Sender) :
    Sends codec (traffic.sends codec sender) := by
  cases sender with
  | player => exact .flatMap fun moved => sendBroadcastMessage_sends ..
  | server => exact .flatMap fun notice => sendNotifyMessage_sends ..
  | response =>
      refine .flatMap fun answer => (sendBroadcastMessage_sends ..).append (.single _ ⟨_, rfl⟩ ?_)
      rcases answer.known with command | stream
      · exact ⟨.command, command⟩
      · exact ⟨.stream, stream⟩

/-- On one socket the sends are whole frames. -/
theorem Sends.on {sends : List Send} (whole : Sends codec sends) (fd : Int) :
    ∃ todo, onFd fd sends = writes todo := by
  induction whole with
  | nil => exact ⟨[], rfl⟩
  | message fd' m _ _ _ ih =>
      obtain ⟨todo, eq⟩ := ih
      by_cases same : fd' = fd
      · refine ⟨codec.pack m :: todo, ?_⟩
        rw [writes_cons, ← eq]
        simp [onFd, sendMessage, same]
      · refine ⟨todo, ?_⟩
        rw [← eq]
        simp [onFd, sendMessage, same]

theorem Sends.mem {sends : List Send} (whole : Sends codec sends) {fd : Int} {body : List UInt8}
    (mem : .body body ∈ onFd fd sends) :
    ∃ m, body = codec.pack m ∧ (∃ s : Status, m.status = s.value) ∧
      ∃ t : CmdType, m.type = t.value := by
  induction whole with
  | nil => cases mem
  | message fd' m status type _ ih =>
      by_cases same : fd' = fd
      · simp only [onFd, sendMessage, same, decide_true, List.filter_cons_of_pos, List.cons_append,
          List.nil_append, List.map_cons, List.mem_cons, reduceCtorEq, false_or,
          Write.body.injEq] at mem
        rcases mem with rfl | later
        · exact ⟨m, rfl, status, type⟩
        · exact ih later
      · apply ih
        simpa [onFd, sendMessage, same] using mem

/-- A message of the server begins with its status and its type. -/
theorem packed_of_wireFormat (format : codec.WireFormat) {m : AMessage}
    (status : ∃ s : Status, m.status = s.value) (type : ∃ t : CmdType, m.type = t.value) :
    ∃ rest, codec.pack m =
      0x08 :: m.status.toInt.toNat.toUInt8 :: 0x10 :: m.type.toInt.toNat.toUInt8 :: 0x18 :: rest := by
  obtain ⟨s, status⟩ := status
  obtain ⟨t, type⟩ := type
  have smallStatus : 0 ≤ m.status ∧ m.status < 128 := by
    rw [status]
    cases s <;> decide
  have smallType : 0 ≤ m.type ∧ m.type < 128 := by
    rw [type]
    cases t <;> decide
  exact format m smallStatus.1 smallStatus.2 smallType.1 smallType.2

/-- The fifth byte tells a packed message of the server from a length. -/
theorem distinct_of_wireFormat (format : codec.WireFormat) {m : AMessage}
    (status : ∃ s : Status, m.status = s.value) (type : ∃ t : CmdType, m.type = t.value) :
    lengthHeader.Distinct (codec.pack m) := by
  obtain ⟨rest, packed⟩ := packed_of_wireFormat format status type
  intro n tail eq
  have tag : (codec.pack m)[4]? = some 0x18 := by rw [packed]; rfl
  have long : 4 < (codec.pack m).length := by
    rw [packed]
    simp
  have wide : 4 < (convLen n).length := by
    rw [convLen, Bytes.length_littleEndian]
    decide
  have zero : (codec.pack m)[4]? = some 0 := by
    rw [eq, List.getElem?_take_of_lt long]
    change (convLen n ++ tail)[4]? = some 0
    rw [List.getElem?_append_left wide, convLen_fifth]
  rw [tag] at zero
  exact absurd zero (by decide)

/-- With every `send` complete, what a client receives parses into exactly the messages
sent to it, in some order, if and only if no length was sent to it while a message was
outstanding. An `int` counts the bytes that one `send` has sent. -/
theorem parses_iff_oneAtATime (format : codec.WireFormat) (traffic : Traffic) (fd : Int)
    (complete : ∀ sender body, .body body ∈ traffic.on codec fd sender → body.length < 2 ^ 31)
    {left : Sender → List (Write UInt8)} {log : List (Write UInt8)} {as : List Sender}
    (run : sending.exec (traffic.on codec fd) as = some (left, log))
    (sent : ∀ sender, left sender = []) :
    lengthHeader.Parses log ↔ sending.Along OneAtATime (traffic.on codec fd) as := by
  have whole : ∀ sender, Sends codec (traffic.sends codec sender) := traffic.sends_sends
  refine parses_iff_exclusive (fun sender => (whole sender).on fd) ?_ ?_ run ?_
  · intro sender body mem
    have small := complete sender body mem
    exact lt_trans small (by decide)
  · intro sender body mem
    obtain ⟨m, rfl, status, type⟩ := (whole sender).mem mem
    exact distinct_of_wireFormat format status type
  · rintro sender ⟨body, rest, eq⟩
    rw [sent sender] at eq
    cases eq

/-- A PLAY of client 5 is answered while the player thread moves to another file. -/
def playAndMove : Traffic where
  answers := [{
    node := ⟨1, 5, 1, .success, 0, 1, [[112]]⟩
    status := .success
    data := [[112]]
    clientArr := [5]
    present := by decide
    known := .inl rfl }]
  moves := [⟨[5], [97]⟩]
  notices := []

/-- The broadcast of the player thread starts inside the one of the response thread, and
the client finds no message at all. -/
theorem interleaved_lengths : ∃ left log,
    sending.exec (playAndMove.on protobuf 5)
      [.response, .player, .response, .player, .response, .response] = some (left, log) ∧
    (∀ sender, left sender = []) ∧ ¬ lengthHeader.Parses log := by
  refine ⟨_, _, rfl, ?_, ?_⟩
  · intro sender
    cases sender <;> rfl
  · rintro ⟨parsed, parses, _⟩
    cases parses

theorem parses_one_after_another : ∃ left log,
    sending.exec (playAndMove.on protobuf 5)
      [.response, .response, .player, .player, .response, .response] = some (left, log) ∧
    (lengthHeader.Parses log ↔ sending.Along OneAtATime (playAndMove.on protobuf 5)
      [.response, .response, .player, .player, .response, .response]) := by
  have short : ∀ sender, ∀ w ∈ playAndMove.on protobuf 5 sender,
      (lengthHeader.bytes w).length < 2 ^ 31 := by
    intro sender
    cases sender <;> decide
  refine ⟨_, _, rfl, ?_⟩
  refine parses_iff_oneAtATime protobuf_wireFormat playAndMove 5 ?_ rfl ?_
  · intro sender body mem
    exact short sender (.body body) mem
  · intro sender
    cases sender <;> rfl

end OdroidPlayer
