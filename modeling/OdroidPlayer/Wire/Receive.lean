import OdroidPlayer.Wire.Send

/-!
How the two programs read messages: `receive_message` of the server
(`server/receive/receive.c`) with what `run_server` does with its result, and
`receive_message` of the client (`client/opc/receive/receive.c`).

Both read a length by one call of `recv` and then that many bytes by another one, and
neither looks at how many bytes a call has returned. A reader stays at a frame boundary as
long as no `recv` splits a frame (`reads_whole`).
-/

namespace OdroidPlayer

open Framing Transition

def messageMaxByte : Nat := 1048576

/-- The values of `errno` that the readers tell apart. -/
inductive Errno where
  /-- `EAGAIN` or `EWOULDBLOCK`: the receive timeout of the socket -/
  | again
  | connreset
  | other (strerror : String)
  deriving DecidableEq, Repr

def Errno.strerror : Errno → String
  | .again => "Resource temporarily unavailable"
  | .connreset => "Connection reset by peer"
  | .other text => text

/-- What a call of `recv` returns. -/
inductive Recv where
  | got (n : Nat)
  | closed
  | failed (errno : Errno)
  deriving DecidableEq, Repr

/-- A stream socket returns a non-empty prefix of what was asked for. -/
def Recv.Possible (asked : Nat) (stream : List UInt8) : Recv → Prop
  | .got n => 0 < n ∧ n ≤ asked ∧ n ≤ stream.length
  | .closed | .failed _ => True

instance (asked : Nat) (stream : List UInt8) (recv : Recv) :
    Decidable (recv.Possible asked stream) := by
  cases recv <;> unfold Recv.Possible <;> infer_instance

/-- The buffer after the call: the bytes that were not received stay. -/
def Recv.fill (buf stream : List UInt8) : Recv → List UInt8
  | .got n => stream.take n ++ buf.drop n
  | .closed | .failed _ => buf

def Recv.rest (stream : List UInt8) : Recv → List UInt8
  | .got n => stream.drop n
  | .closed | .failed _ => stream

/-- What the environment decides in a call of `receive_message`. -/
structure Call where
  lengthRecv : Recv
  /-- the eight bytes of the uninitialised `recv_len` -/
  recvLen : List UInt8
  malloc : Bool
  dataRecv : Recv
  /-- the result of `opc_connect`, on the client -/
  connects : Bool
  deriving DecidableEq, Repr

def Call.convLen (call : Call) (stream : List UInt8) : Nat :=
  lengthOf (call.lengthRecv.fill call.recvLen stream)

def createMessageBuffer (len : Nat) : List UInt8 := List.replicate len 0

/-- What the caller of `receive_message` does next: handle a message, call again, or give
the connection up, which on the client may be for a new one. -/
inductive Outcome where
  | message (m : AMessage)
  | again
  | reconnected
  | ended
  deriving DecidableEq, Repr

/-- The outcome of a call and the bytes it leaves on the stream. -/
structure Received where
  outcome : Outcome
  rest : List UInt8
  deriving DecidableEq, Repr

/-! ### The server -/

namespace Server

/-- `ret` and `*timeout` of `receive_message_length` and `receive_message_data`, which
differ in what they ask for, and the notice they send. -/
def receiveBytes (fd : Int) : Recv → Bool × Bool × List Notice
  | .got _ => (true, false, [])
  | .closed => (false, false, [])
  | .failed .again => (false, true, [⟨fd, cString "server recv timeout", .timeout⟩])
  | .failed errno =>
      (false, false, [⟨fd, cString ("recv error: " ++ errno.strerror), .eserver⟩])

def receiveMessageLength (fd : Int) (call : Call) : Bool × Bool × List Notice :=
  receiveBytes fd call.lengthRecv

def receiveMessageData (fd : Int) (call : Call) : Bool × Bool × List Notice :=
  receiveBytes fd call.dataRecv

/-- The message (`none` for NULL), `*timeout`, the bytes left and the notices sent. -/
def receiveMessage (codec : Codec) (fd : Int) (call : Call) (stream : List UInt8) :
    Option AMessage × Bool × List UInt8 × List Notice :=
  match receiveMessageLength fd call with
  | (false, timeout, notices) => (none, timeout, call.lengthRecv.rest stream, notices)
  | (true, _, _) =>
      let body := call.lengthRecv.rest stream
      let convLen := call.convLen stream
      if messageMaxByte < convLen then
        (none, false, body, [⟨fd, cString "invalid message length", .eserver⟩])
      else if call.malloc = false then (none, false, body, [])
      else
        match receiveMessageData fd call with
        | (false, timeout, notices) => (none, timeout, call.dataRecv.rest body, notices)
        | (true, _, _) =>
            match codec.unpack (call.dataRecv.fill (createMessageBuffer convLen) body) with
            | none => (none, false, call.dataRecv.rest body,
                [⟨fd, cString "couldn't unpack message", .eserver⟩])
            | some m => (some m, false, call.dataRecv.rest body, [])

/-- `run_server` on the result: it continues after a timeout, and disconnects the client
after any other NULL. -/
def received (codec : Codec) (fd : Int) (call : Call) (stream : List UInt8) : Received :=
  match receiveMessage codec fd call stream with
  | (some m, _, rest, _) => ⟨.message m, rest⟩
  | (none, true, rest, _) => ⟨.again, rest⟩
  | (none, false, rest, _) => ⟨.ended, rest⟩

end Server

/-! ### The client -/

namespace Client

inductive ErrRecv where
  | success | timeout | closed | unpack | internal
  deriving DecidableEq, Repr

def errRecv : Errno → ErrRecv
  | .again => .timeout
  | .connreset => .closed
  | .other _ => .internal

/-- The value of `recv_len`, or zero with the error. -/
def receiveMessageLength (call : Call) (stream : List UInt8) : Nat × ErrRecv :=
  match call.lengthRecv with
  | .got _ => (Bytes.ofLittleEndian (call.lengthRecv.fill call.recvLen stream), .success)
  | .closed => (0, .closed)
  | .failed errno => (0, errRecv errno)

def receiveMessageData (codec : Codec) (call : Call) (len : Nat) (stream : List UInt8) :
    Option AMessage × ErrRecv :=
  match call.dataRecv with
  | .got _ =>
      match codec.unpack (call.dataRecv.fill (createMessageBuffer len) stream) with
      | none => (none, .unpack)
      | some m => (some m, .success)
  | .closed => (none, .closed)
  | .failed errno => (none, errRecv errno)

/-- What `receive_message` returns on an error: 0 after a timeout, 0 after a reconnection,
-1 otherwise, for which `run_receiver` gives up. -/
def onError (call : Call) : ErrRecv → Outcome
  | .timeout => .again
  | .closed => if call.connects then .reconnected else .ended
  | .success | .unpack | .internal => .ended

def receiveMessage (codec : Codec) (call : Call) (stream : List UInt8) : Received :=
  match receiveMessageLength call stream with
  | (0, err) => ⟨onError call err, call.lengthRecv.rest stream⟩
  | (recvLen + 1, _) =>
      let body := call.lengthRecv.rest stream
      let convLen := ntohl (recvLen + 1)
      if messageMaxByte < convLen then ⟨.ended, body⟩
      else if call.malloc = false then ⟨.ended, body⟩
      else
        match receiveMessageData codec call convLen body with
        | (none, err) => ⟨onError call err, call.dataRecv.rest body⟩
        | (some m, _) => ⟨.message m, call.dataRecv.rest body⟩

end Client

/-! ### A connection that is read -/

inductive Side where
  | server (fd : Int)
  | client
  deriving DecidableEq, Repr

def Side.received (codec : Codec) (call : Call) (stream : List UInt8) : Side → Received
  | .server fd => Server.received codec fd call stream
  | .client => Client.receiveMessage codec call stream

/-- The connection is still read after the call. -/
def Outcome.keeps : Outcome → Bool
  | .message _ | .again => true
  | .reconnected | .ended => false

def Outcome.messages : Outcome → List AMessage
  | .message m => [m]
  | .again | .reconnected | .ended => []

/-- The two calls of `recv` can return what they return. -/
def Call.Possible (call : Call) (stream : List UInt8) : Prop :=
  call.recvLen.length = 8 ∧ call.lengthRecv.Possible 8 stream ∧
    call.dataRecv.Possible (call.convLen stream) (call.lengthRecv.rest stream)

instance (call : Call) (stream : List UInt8) : Decidable (call.Possible stream) :=
  inferInstanceAs (Decidable (_ ∧ _ ∧ _))

/-- The bytes that have not been received yet. -/
structure Reader where
  stream : List UInt8
  inUse : Bool
  deriving DecidableEq, Repr

/-- The calls of `receive_message` on a connection; the events are the messages returned. -/
def reading (codec : Codec) (side : Side) : System Reader Call AMessage where
  step s call :=
    if s.inUse = true ∧ call.Possible s.stream then
      let received := side.received codec call s.stream
      some (⟨received.rest, received.outcome.keeps⟩, received.outcome.messages)
    else none

/-- The messages as their sender writes them. -/
def frames (codec : Codec) (ms : List AMessage) : List UInt8 :=
  lengthHeader.stream (ms.map codec.pack)

/-- No `recv` splits a frame: a length that is received at all is received with all its
bytes, and the message behind it is then received with all its bytes and in time. -/
def Call.Whole (call : Call) (stream : List UInt8) : Prop :=
  ∀ n, call.lengthRecv = .got n → n = 8 ∧
    (call.malloc = true → call.dataRecv ≠ .failed .again ∧
      ∀ k, call.dataRecv = .got k → k = lengthOf (stream.take 8))

abbrev Whole (s : Reader) (call : Call) : Prop := call.Whole s.stream

/-- What a call that does not give the connection up has done, on either side. -/
inductive Reads (codec : Codec) (call : Call) (stream : List UInt8) : Received → Prop where
  | gaveUp {received : Received} (ends : received.outcome.keeps = false) :
      Reads codec call stream received
  | idle (timeout : call.lengthRecv = .failed .again) : Reads codec call stream ⟨.again, stream⟩
  | lengthOnly {n : Nat} (length : call.lengthRecv = .got n) (malloc : call.malloc = true)
      (timeout : call.dataRecv = .failed .again) :
      Reads codec call stream ⟨.again, stream.drop n⟩
  | message {n k : Nat} {m : AMessage} (length : call.lengthRecv = .got n)
      (malloc : call.malloc = true) (data : call.dataRecv = .got k)
      (unpacks : codec.unpack (((stream.drop n).take k) ++
        (createMessageBuffer (call.convLen stream)).drop k) = some m) :
      Reads codec call stream ⟨.message m, (stream.drop n).drop k⟩

variable {codec : Codec}

/-- Only a timeout is reported as one. -/
theorem Server.receiveBytes_timeout {fd : Int} {recv : Recv} {notices : List Notice}
    (eq : receiveBytes fd recv = (false, true, notices)) : recv = .failed .again := by
  cases recv with
  | got n => cases eq
  | closed => cases eq
  | failed errno =>
      cases errno with
      | again => rfl
      | connreset | other => cases eq

theorem Server.receiveBytes_true {fd : Int} {recv : Recv} {timeout : Bool × List Notice}
    (eq : receiveBytes fd recv = (true, timeout)) : ∃ n, recv = .got n := by
  cases recv with
  | got n => exact ⟨n, rfl⟩
  | closed => cases eq
  | failed errno =>
      cases errno <;> cases eq

theorem Server.receiveMessage_timeout {fd : Int} {call : Call} {stream rest : List UInt8}
    {notices : List Notice}
    (eq : receiveMessage codec fd call stream = (none, true, rest, notices)) :
    Reads codec call stream ⟨.again, rest⟩ := by
  unfold receiveMessage at eq
  split at eq
  next timeout sent length =>
      obtain ⟨rfl, rfl⟩ : timeout = true ∧ call.lengthRecv.rest stream = rest := by simp_all
      have timedOut := receiveBytes_timeout length
      rw [timedOut]
      exact .idle timedOut
  next length =>
      obtain ⟨n, length⟩ := receiveBytes_true length
      dsimp only at eq
      split at eq
      · cases eq
      split at eq
      · cases eq
      next malloc =>
      split at eq
      next timeout sent data =>
          obtain ⟨rfl, rfl⟩ : timeout = true ∧
            call.dataRecv.rest (call.lengthRecv.rest stream) = rest := by simp_all
          have timedOut := receiveBytes_timeout data
          rw [timedOut, length]
          exact .lengthOnly length (by simpa using malloc) timedOut
      next =>
          split at eq <;> cases eq

theorem Server.receiveMessage_message {fd : Int} {call : Call} {stream rest : List UInt8}
    {m : AMessage} {timeout : Bool} {notices : List Notice}
    (eq : receiveMessage codec fd call stream = (some m, timeout, rest, notices)) :
    Reads codec call stream ⟨.message m, rest⟩ := by
  unfold receiveMessage at eq
  split at eq
  · cases eq
  next length =>
      obtain ⟨n, length⟩ := receiveBytes_true length
      dsimp only at eq
      split at eq
      · cases eq
      split at eq
      · cases eq
      next malloc =>
      split at eq
      · cases eq
      next data =>
          obtain ⟨k, data⟩ := receiveBytes_true data
          split at eq
          · cases eq
          next unpacks =>
              cases eq
              rw [length, data] at unpacks ⊢
              exact .message length (by simpa using malloc) data unpacks

theorem Server.reads (fd : Int) (call : Call) (stream : List UInt8) :
    Reads codec call stream (Server.received codec fd call stream) := by
  unfold Server.received
  split
  next message => exact receiveMessage_message message
  next timeout => exact receiveMessage_timeout timeout
  next => exact .gaveUp rfl

/-- An error that is not a timeout gives the connection up. -/
theorem Client.onError_keeps {call : Call} {err : ErrRecv} (other : err ≠ .timeout) :
    (onError call err).keeps = false := by
  cases err with
  | timeout => exact absurd rfl other
  | closed =>
      unfold onError
      cases call.connects <;> rfl
  | success | unpack | internal => rfl

theorem Client.receiveMessageLength_timeout {call : Call} {stream : List UInt8} {recvLen : Nat}
    (eq : receiveMessageLength call stream = (recvLen, .timeout)) :
    call.lengthRecv = .failed .again := by
  unfold receiveMessageLength at eq
  split at eq
  · cases eq
  · cases eq
  next errno length =>
      cases errno with
      | again => exact length
      | connreset | other => cases eq

theorem Client.receiveMessageLength_succ {call : Call} {stream : List UInt8} {recvLen : Nat}
    {err : ErrRecv} (eq : receiveMessageLength call stream = (recvLen + 1, err)) :
    (∃ n, call.lengthRecv = .got n) ∧ ntohl (recvLen + 1) = call.convLen stream := by
  unfold receiveMessageLength at eq
  split at eq
  next n length =>
      obtain ⟨read, _⟩ := Prod.mk.inj eq
      exact ⟨⟨n, length⟩, by rw [← read, Call.convLen, lengthOf]⟩
  · cases eq
  · cases eq

theorem Client.receiveMessageData_timeout {call : Call} {len : Nat} {stream : List UInt8}
    {msg : Option AMessage} (eq : receiveMessageData codec call len stream = (msg, .timeout)) :
    call.dataRecv = .failed .again := by
  unfold receiveMessageData at eq
  split at eq
  · split at eq <;> cases eq
  · cases eq
  next errno data =>
      cases errno with
      | again => exact data
      | connreset | other => cases eq

theorem Client.receiveMessageData_some {call : Call} {len : Nat} {stream : List UInt8}
    {m : AMessage} {err : ErrRecv}
    (eq : receiveMessageData codec call len stream = (some m, err)) :
    ∃ k, call.dataRecv = .got k ∧
      codec.unpack (stream.take k ++ (createMessageBuffer len).drop k) = some m := by
  unfold receiveMessageData at eq
  split at eq
  next k data =>
      split at eq
      · cases eq
      next unpacks =>
          cases eq
          rw [data] at unpacks
          exact ⟨k, data, unpacks⟩
  · cases eq
  · cases eq

theorem Client.reads (call : Call) (stream : List UInt8) :
    Reads codec call stream (Client.receiveMessage codec call stream) := by
  unfold receiveMessage
  split
  next err length =>
      by_cases timeout : err = .timeout
      · subst timeout
        have timedOut := receiveMessageLength_timeout length
        rw [timedOut]
        exact .idle timedOut
      · exact .gaveUp (onError_keeps timeout)
  next recvLen _ length =>
      obtain ⟨⟨n, length⟩, conv⟩ := receiveMessageLength_succ length
      dsimp only
      rw [conv]
      split
      · exact .gaveUp rfl
      split
      · exact .gaveUp rfl
      next malloc =>
      split
      next err data =>
          by_cases timeout : err = .timeout
          · subst timeout
            have timedOut := receiveMessageData_timeout data
            rw [timedOut, length]
            exact .lengthOnly length (by simpa using malloc) timedOut
          · exact .gaveUp (onError_keeps timeout)
      next data =>
          obtain ⟨k, data, unpacks⟩ := receiveMessageData_some data
          rw [length] at unpacks
          rw [length, data]
          exact .message length (by simpa using malloc) data unpacks

theorem Side.reads (side : Side) (call : Call) (stream : List UInt8) :
    Reads codec call stream (side.received codec call stream) := by
  cases side with
  | server fd => exact Server.reads fd call stream
  | client => exact Client.reads call stream

theorem frames_cons (m : AMessage) (ms : List AMessage) :
    frames codec (m :: ms) =
      convLen (codec.pack m).length ++ (codec.pack m ++ frames codec ms) := by
  rw [frames, List.map_cons, Header.stream_cons]
  rfl

/-- The length of the first message. -/
theorem lengthOf_frames {m : AMessage} (small : (codec.pack m).length ≤ messageMaxByte)
    (ms : List AMessage) :
    lengthOf ((frames codec (m :: ms)).take 8) = (codec.pack m).length := by
  have width : (convLen (codec.pack m).length).length = 8 := Bytes.length_littleEndian 8 _
  have bound : (codec.pack m).length < 2 ^ 32 := lt_of_le_of_lt small (by decide)
  rw [frames_cons, ← width, List.take_left]
  exact lengthHeader.decode_encode _ bound

/-- The uninitialised bytes of `recv_len` are all overwritten. -/
theorem convLen_frames {m : AMessage} {call : Call} (size : (codec.pack m).length ≤ messageMaxByte)
    (eight : call.recvLen.length = 8) (length : call.lengthRecv = .got 8) (ms : List AMessage) :
    call.convLen (frames codec (m :: ms)) = (codec.pack m).length := by
  have none : call.recvLen.drop 8 = [] := List.drop_eq_nil_of_le (by omega)
  rw [Call.convLen, length, Recv.fill, none, List.append_nil, lengthOf_frames size ms]

theorem drop_frames (m : AMessage) (ms : List AMessage) :
    (frames codec (m :: ms)).drop 8 = codec.pack m ++ frames codec ms := by
  have width : (convLen (codec.pack m).length).length = 8 := Bytes.length_littleEndian 8 _
  rw [frames_cons, ← width, List.drop_left]

/-- A call at a frame boundary that splits no frame ends at one. -/
theorem Reads.keep (inverts : codec.Inverts) {ms : List AMessage} {call : Call}
    {received : Received} (sizes : ∀ m ∈ ms, (codec.pack m).length ≤ messageMaxByte)
    (reads : Reads codec call (frames codec ms) received)
    (possible : call.Possible (frames codec ms)) (whole : call.Whole (frames codec ms)) :
    received.outcome.keeps = false ∨
      ∃ rest, ms = received.outcome.messages ++ rest ∧ received.rest = frames codec rest := by
  cases reads with
  | gaveUp ends => exact .inl ends
  | idle => exact .inr ⟨ms, rfl, rfl⟩
  | lengthOnly length malloc timeout =>
      obtain ⟨_, data⟩ := whole _ length
      exact absurd timeout (data malloc).1
  | @message n k m length malloc data unpacks =>
      obtain ⟨rfl, read⟩ := whole n length
      have all := (read malloc).2 k data
      obtain ⟨eight, recv, _⟩ := possible
      rw [length] at recv
      cases ms with
      | nil =>
          have none : 8 ≤ 0 := recv.2.2
          exact absurd none (by decide)
      | cons first ms =>
          have len := lengthOf_frames (sizes first List.mem_cons_self) ms
          have conv := convLen_frames (sizes first List.mem_cons_self) eight length ms
          have zeros : (createMessageBuffer (codec.pack first).length).drop k = [] := by
            rw [all, len]
            exact List.drop_eq_nil_of_le (by simp [createMessageBuffer])
          rw [conv, zeros, List.append_nil, drop_frames, all, len, List.take_left,
            inverts first] at unpacks
          cases unpacks
          refine .inr ⟨ms, rfl, ?_⟩
          dsimp only
          rw [drop_frames, all, len, List.drop_left]

/-- A call that keeps the connection but splits the message behind a length, or times out
behind a length, does not end at a frame boundary. -/
theorem Reads.boundary_lost {m : AMessage} {ms front rest : List AMessage} {call : Call}
    {received : Received} (pos : 1 ≤ (codec.pack m).length)
    (size : (codec.pack m).length ≤ messageMaxByte)
    (reads : Reads codec call (frames codec (m :: ms)) received)
    (possible : call.Possible (frames codec (m :: ms))) (kept : received.outcome.keeps = true)
    (length : ∀ n, call.lengthRecv = .got n → n = 8 ∨ call.dataRecv = .failed .again)
    (split : ¬ call.Whole (frames codec (m :: ms))) (eq : m :: ms = front ++ rest) :
    received.rest ≠ frames codec rest := by
  have packed : codec.pack m :: ms.map codec.pack = front.map codec.pack ++ rest.map codec.pack := by
    rw [← List.map_append, ← eq, List.map_cons]
  have width : lengthHeader.width = 8 := rfl
  obtain ⟨eight, recv, recv'⟩ := possible
  cases reads with
  | gaveUp ends =>
      rw [ends] at kept
      cases kept
  | idle timeout =>
      refine absurd ?_ split
      intro n got
      rw [timeout] at got
      cases got
  | lengthOnly got =>
      rw [got] at recv
      have some := recv.1
      have asked := recv.2.1
      exact Header.drop_stream_ne packed some (by omega)
  | @message n k _ got malloc data =>
      obtain rfl : n = 8 := by
        rcases length n got with is | timeout
        · exact is
        · rw [data] at timeout
          cases timeout
      rw [data, convLen_frames size eight got ms] at recv'
      have short : k < (codec.pack m).length := by
        refine lt_of_le_of_ne recv'.2.1 fun all => split ?_
        intro n got'
        obtain rfl : 8 = n := by simpa [got] using got'
        refine ⟨rfl, fun _ => ⟨by simp [data], ?_⟩⟩
        intro k' data'
        obtain rfl : k = k' := by simpa [data] using data'
        rw [all, lengthOf_frames size ms]
      rw [List.drop_drop]
      exact Header.drop_stream_ne packed (by omega) (by omega)

/-- What has been returned is a prefix of what was sent, and the connection, while it is
in use, is at the boundary behind it. -/
def AtBoundary (codec : Codec) (ms : List AMessage) (s : Reader) (log : List AMessage) : Prop :=
  ∃ rest, ms = log ++ rest ∧ (s.inUse = true → s.stream = frames codec rest)

theorem reading_step {side : Side} {s t : Reader} {call : Call} {es : List AMessage}
    (step : (reading codec side).step s call = some (t, es)) :
    s.inUse = true ∧ call.Possible s.stream ∧
      t = ⟨(side.received codec call s.stream).rest, (side.received codec call s.stream).outcome.keeps⟩ ∧
      es = (side.received codec call s.stream).outcome.messages := by
  simp only [reading] at step
  split at step
  next enabled =>
      obtain ⟨rfl, rfl⟩ := Prod.mk.inj (Option.some.inj step)
      exact ⟨enabled.1, enabled.2, rfl, rfl⟩
  · cases step

theorem messages_of_ends {outcome : Outcome} (ends : outcome.keeps = false) :
    outcome.messages = [] := by
  cases outcome with
  | message m => cases ends
  | again => cases ends
  | reconnected | ended => rfl

/-- On either side, the messages returned are a prefix of those sent and the connection is
at a frame boundary whenever it is in use, as long as no `recv` splits a frame. -/
theorem reads_whole (inverts : codec.Inverts) (side : Side) {ms : List AMessage}
    (sizes : ∀ m ∈ ms, 1 ≤ (codec.pack m).length ∧ (codec.pack m).length ≤ messageMaxByte)
    {calls : List Call} {s : Reader} {log : List AMessage}
    (whole : (reading codec side).Along Whole ⟨frames codec ms, true⟩ calls)
    (run : (reading codec side).exec ⟨frames codec ms, true⟩ calls = some (s, log)) :
    AtBoundary codec ms s log := by
  have keep : ∀ (s : Reader) (log : List AMessage) (call : Call) (t : Reader)
      (es : List AMessage), AtBoundary codec ms s log → Whole s call →
      (reading codec side).step s call = some (t, es) → AtBoundary codec ms t (log ++ es) := by
    intro s log call t es boundary met step
    obtain ⟨rest, rfl, stream⟩ := boundary
    obtain ⟨used, possible, rfl, rfl⟩ := reading_step step
    have here := stream used
    have fits : ∀ m ∈ rest, (codec.pack m).length ≤ messageMaxByte := by
      intro m mem
      exact (sizes m (List.mem_append_right log mem)).2
    have reads : Reads codec call s.stream (side.received codec call s.stream) :=
      side.reads call s.stream
    rw [Whole, here] at met
    rw [here] at reads possible
    rw [here]
    rcases reads.keep inverts fits possible met with ends | ⟨rest', split, stream'⟩
    · refine ⟨rest, ?_, fun kept => ?_⟩
      · rw [messages_of_ends ends, List.append_nil]
      · exact absurd (ends.symm.trans kept) (by decide)
    · refine ⟨rest', ?_, fun _ => stream'⟩
      rw [List.append_assoc, ← split]
  have start : AtBoundary codec ms ⟨frames codec ms, true⟩ [] := ⟨ms, rfl, fun _ => rfl⟩
  exact System.exec_rec_of_along keep whole [] start run

/-- A PLAY and a STOP, one packed string each. -/
def playThenStop : List AMessage := [⟨0, 0, 1, 1, [[112]]⟩, ⟨0, 0, 2, 2, [[115]]⟩]

/-- A length is received and the message behind it comes after the timeout. -/
def lateMessage : Call := ⟨.got 8, List.replicate 8 0, true, .failed .again, false⟩

/-- Neither side has returned a message or given the connection up, and the next bytes on
it are those of a message without its length. -/
theorem late_message_lost :
    ∃ server client : Reader,
      (reading protobuf (.server 5)).exec ⟨frames protobuf playThenStop, true⟩ [lateMessage] =
        some (server, []) ∧
      (reading protobuf .client).exec ⟨frames protobuf playThenStop, true⟩ [lateMessage] =
        some (client, []) ∧
      ¬ AtBoundary protobuf playThenStop server [] ∧
      ¬ AtBoundary protobuf playThenStop client [] := by
  have inside : (frames protobuf playThenStop).drop 8 ≠ frames protobuf playThenStop := by decide
  refine ⟨⟨_, true⟩, ⟨_, true⟩, rfl, rfl, ?_, ?_⟩
  · rintro ⟨rest, rfl, stream⟩
    exact inside (stream rfl)
  · rintro ⟨rest, rfl, stream⟩
    exact inside (stream rfl)

/-- A timeout, then a length and its message. -/
def inTime : List Call :=
  [⟨.failed .again, List.replicate 8 0, true, .closed, false⟩,
    ⟨.got 8, List.replicate 8 255, true, .got 11, false⟩]

theorem timeouts_between : ∃ s,
    (reading protobuf (.server 5)).exec ⟨frames protobuf playThenStop, true⟩ (inTime ++ inTime) =
      some (s, playThenStop) ∧ AtBoundary protobuf playThenStop s playThenStop := by
  have idle : ∀ s, Whole s ⟨.failed .again, List.replicate 8 0, true, .closed, false⟩ := by
    intro s n got
    cases got
  have message : ∀ stream : List UInt8, lengthOf (stream.take 8) = 11 →
      Whole ⟨stream, true⟩ ⟨.got 8, List.replicate 8 255, true, .got 11, false⟩ := by
    intro stream length n got
    refine ⟨Recv.got.inj got.symm, fun _ => ⟨by decide, fun k data => ?_⟩⟩
    exact (Recv.got.inj data.symm).trans length.symm
  have whole : (reading protobuf (.server 5)).Along Whole ⟨frames protobuf playThenStop, true⟩
      (inTime ++ inTime) := by
    refine System.along_cons (idle _) rfl (System.along_cons (message _ (by decide)) rfl ?_)
    exact System.along_cons (idle _) rfl (System.along_cons (message _ (by decide)) rfl trivial)
  have run : (reading protobuf (.server 5)).exec ⟨frames protobuf playThenStop, true⟩
      (inTime ++ inTime) = some (⟨[], true⟩, playThenStop) := by
    decide
  exact ⟨_, run, reads_whole protobuf_inverts (.server 5) (by decide) whole run⟩

end OdroidPlayer
