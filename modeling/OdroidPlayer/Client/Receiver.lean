import OdroidPlayer.Wire.Receive
import OdroidPlayer.Lib.Log

/-!
The receiver thread over the connections of a client (`client/opc/receive/receive.c`).

`run_receiver` receives messages until it reads that `play` is clear. When the server has
closed the connection it enqueues a notice, connects again and enqueues another one; when
that fails, or on any other error, it leaves its loop. As long as no `recv` splits a frame
it handles on every connection what the server sends on it, from the first message on, and
the notices stand between the connections (`received_in_order`).
-/

namespace OdroidPlayer

open Framing Transition Transition.System

/-- The statement of `run_receiver` that is executed next. -/
inductive ReceiverAt where
  | loopTest
  | receive
  /-- `set_monitor(client, false, STATUS__ESERVER)` -/
  | ends
  | finished
  deriving DecidableEq, Repr

structure Receiver where
  at_ : ReceiverAt
  /-- `monitor->play` -/
  play : Bool
  /-- what the server sends on the connection and has not been received -/
  stream : List UInt8
  deriving DecidableEq, Repr

/-- `err` behind the calls of `recv`. -/
def Client.errOf (codec : Codec) (call : Call) (stream : List UInt8) : Client.ErrRecv :=
  match Client.receiveMessageLength call stream with
  | (0, err) => err
  | (recvLen + 1, _) =>
      let convLen := ntohl (recvLen + 1)
      if messageMaxByte < convLen then .success
      else if call.malloc = false then .success
      else (Client.receiveMessageData codec call convLen (call.lengthRecv.rest stream)).2

/-- The server has too many clients. -/
def AMessage.TooMany (m : AMessage) : Prop :=
  (m.type = CmdType.notify.value ∨ m.type = CmdType.brdcast.value) ∧
    m.status = Status.toomany.value

instance (m : AMessage) : Decidable m.TooMany := inferInstanceAs (Decidable (_ ∧ _))

namespace Receiver

inductive Action where
  /-- `get_monitor_play` -/
  | test
  /-- `receive_message` and `handle_message`; should a new connection be made, the server sends
  `next` on it. -/
  | receive (call : Call) (next : List AMessage)
  | finish
  /-- Another thread calls `set_monitor(client, false, ..)`. -/
  | stop
  deriving DecidableEq, Repr

inductive Event where
  /-- `handle_message` -/
  | received (m : AMessage)
  /-- `notice_reconnect(client, true)` -/
  | closed
  /-- `notice_reconnect(client, false)`, and what the server sends from now on -/
  | reconnected (ms : List AMessage)
  | finished
  deriving DecidableEq, Repr

/-- The client is connected. -/
def start (codec : Codec) (ms : List AMessage) : Receiver := ⟨.loopTest, true, frames codec ms⟩

/-- What `receive_message` and the body of the loop do. -/
def received (codec : Codec) (s : Receiver) (call : Call) (next : List AMessage) :
    Receiver × List Event :=
  let received := Client.receiveMessage codec call s.stream
  match received.outcome with
  | .message m =>
      ({ s with
        at_ := .loopTest, play := s.play && !decide m.TooMany, stream := received.rest },
        [.received m])
  | .again => ({ s with at_ := .loopTest, stream := received.rest }, [])
  | .reconnected =>
      ({ s with at_ := .loopTest, stream := frames codec next }, [.closed, .reconnected next])
  | .ended =>
      ({ s with at_ := .ends, stream := received.rest },
        if Client.errOf codec call s.stream = .closed then [.closed] else [])

def machine (codec : Codec) : System Receiver Action Event where
  step s
    | .test =>
        if s.at_ = .loopTest then
          some ({ s with at_ := if s.play then .receive else .ends }, [])
        else none
    | .receive call next =>
        if s.at_ = .receive ∧ call.Possible s.stream then some (s.received codec call next) else none
    | .finish =>
        if s.at_ = .ends then some ({ s with at_ := .finished, play := false }, [.finished]) else none
    | .stop => some ({ s with play := false }, [])

/-- No `recv` splits a frame, and a message has the size that a client accepts. -/
def WholeFrames (codec : Codec) (s : Receiver) : Action → Prop
  | .receive call next =>
      call.Whole s.stream ∧ ∀ m ∈ next, (codec.pack m).length ≤ messageMaxByte
  | _ => True

/-- The messages of a connection that have not been received. -/
def unread (first : List AMessage) : List Event → List AMessage :=
  List.foldl (fun rest e => match e with
    | .received _ => rest.tail
    | .reconnected ms => ms
    | .closed | .finished => rest) first

/-- A message is the next one of its connection; a connection is announced behind the loss of the
one before, and such a loss is followed by that or by the end; the end is the last event, and
the only one behind TOOMANY. -/
def InOrder (first : List AMessage) (front : List Event) (e : Event) : Prop :=
  (∀ m, e = .received m → (unread first front).head? = some m) ∧
    (∀ ms, e = .reconnected ms → front.getLast? = some .closed) ∧
    (front.getLast? = some .closed → e = .finished ∨ ∃ ms, e = .reconnected ms) ∧
    (∀ m, .received m ∈ front → m.TooMany → e = .finished) ∧ .finished ∉ front

/-- Where the connection is, and that the thread leaves its loop behind TOOMANY. -/
structure Connected (codec : Codec) (first : List AMessage) (s : Receiver) (log : List Event) :
    Prop where
  each : EachAt (InOrder first) log
  boundary : s.at_ = .loopTest ∨ s.at_ = .receive →
    s.stream = frames codec (unread first log) ∧
      ∀ m ∈ unread first log, (codec.pack m).length ≤ messageMaxByte
  open_ : s.at_ = .loopTest ∨ s.at_ = .receive → log.getLast? ≠ some .closed
  refused : ∀ m, .received m ∈ log → m.TooMany → s.at_ ≠ .receive ∧ s.play = false
  unfinished : s.at_ ≠ .finished → .finished ∉ log

section Steps

variable {codec : Codec} {first : List AMessage} {s t : Receiver} {a : Action}
  {es log : List Event}

@[simp] theorem unread_concat (log : List Event) (e : Event) :
    unread first (log ++ [e]) = match e with
      | .received _ => (unread first log).tail
      | .reconnected ms => ms
      | .closed | .finished => unread first log := by
  simp only [unread, List.foldl_append, List.foldl_cons, List.foldl_nil]

/-- The event of a step from a connection that is open. -/
theorem Connected.next (connected : Connected codec first s log) (at_ : s.at_ = .receive)
    {e : Event} (head : ∀ m, e = .received m → (unread first log).head? = some m)
    (known : ∀ ms, e ≠ .reconnected ms) : EachAt (InOrder first) (log ++ [e]) := by
  have open_ := connected.open_ (.inr at_)
  refine connected.each.concat ⟨head, fun ms is => absurd is (known ms), fun lost => ?_,
    fun m mem many => ?_, connected.unfinished (by simp [at_])⟩
  · exact absurd lost open_
  · exact absurd at_ (connected.refused m mem many).1

theorem Connected.received (inverts : codec.Inverts) (connected : Connected codec first s log)
    (at_ : s.at_ = .receive) {call : Call} (possible : call.Possible s.stream)
    {next : List AMessage} (whole : WholeFrames codec s (.receive call next)) :
    Connected codec first (s.received codec call next).1
      (log ++ (s.received codec call next).2) := by
  obtain ⟨stream, sizes⟩ := connected.boundary (.inr at_)
  have unfinished := connected.unfinished (by simp [at_])
  have open_ := connected.open_ (.inr at_)
  have quiet (m : AMessage) (mem : .received m ∈ log) : ¬ m.TooMany :=
    fun many => (connected.refused m mem many).1 at_
  have reads : Reads codec call (frames codec (unread first log))
      (Client.receiveMessage codec call s.stream) := by
    rw [← stream]
    exact Client.reads call s.stream
  have splits := reads.keep inverts sizes (by rwa [← stream]) (by rw [← stream]; exact whole.1)
  have kept (keeps : (Client.receiveMessage codec call s.stream).outcome.keeps = true) :=
    splits.resolve_left (by simp [keeps])
  cases is : (Client.receiveMessage codec call s.stream).outcome with
  | message m =>
      obtain ⟨rest, split, left⟩ := kept (by rw [is]; rfl)
      rw [is] at split
      have here : unread first log = m :: rest := split
      have eq : s.received codec call next =
          (⟨.loopTest, s.play && !decide m.TooMany,
            (Client.receiveMessage codec call s.stream).rest⟩, [.received m]) := by
        simp only [Receiver.received, is]
      rw [eq]
      have head (m' : AMessage) (same : Event.received m = .received m') :
          (unread first log).head? = some m' := by
        cases same
        simp [here]
      refine ⟨connected.next at_ head (by simp), fun _ => ?_, by simp,
        fun m' mem many => ⟨by simp, ?_⟩, by simp [unfinished]⟩
      · rw [unread_concat]
        simp only [here, List.tail_cons]
        exact ⟨left, fun m mem => sizes m (here ▸ List.mem_cons_of_mem _ mem)⟩
      · rcases List.mem_append.mp mem with before | new
        · exact absurd many (quiet m' before)
        · obtain rfl : m' = m := by simpa using new
          simp [many]
  | again =>
      obtain ⟨rest, split, left⟩ := kept (by rw [is]; rfl)
      rw [is] at split
      have here : unread first log = rest := split
      have eq : s.received codec call next =
          (⟨.loopTest, s.play, (Client.receiveMessage codec call s.stream).rest⟩, []) := by
        simp only [Receiver.received, is]
      rw [eq, List.append_nil]
      exact ⟨connected.each, fun _ => ⟨by rw [here]; exact left, sizes⟩, fun _ => open_,
        fun m mem many => absurd many (quiet m mem), fun _ => unfinished⟩
  | reconnected =>
      have lost := connected.next at_ (e := .closed) (by simp) (by simp)
      have eq : s.received codec call next =
          (⟨.loopTest, s.play, frames codec next⟩, [.closed, .reconnected next]) := by
        simp only [Receiver.received, is]
      have both : log ++ [Event.closed, .reconnected next] =
          log ++ [.closed] ++ [.reconnected next] := by simp
      rw [eq, both]
      have still (m : AMessage) (mem : Event.received m ∈ log ++ [.closed]) : ¬ m.TooMany :=
        quiet m (by simpa using mem)
      refine ⟨lost.concat ⟨by simp, by simp, by simp, fun m mem many => ?_, by simp [unfinished]⟩,
        fun _ => ?_, by simp, fun m mem many => ?_, by simp [unfinished]⟩
      · exact absurd many (still m mem)
      · rw [unread_concat]
        exact ⟨rfl, whole.2⟩
      · exact absurd many (quiet m (by simpa using mem))
  | ended =>
      have eq : s.received codec call next =
          (⟨.ends, s.play, (Client.receiveMessage codec call s.stream).rest⟩,
            if Client.errOf codec call s.stream = .closed then [.closed] else []) := by
        simp only [Receiver.received, is]
      rw [eq]
      split
      · exact ⟨connected.next at_ (by simp) (by simp), by simp, by simp,
          fun m mem many => absurd many (quiet m (by simpa using mem)), by simp [unfinished]⟩
      · rw [List.append_nil]
        exact ⟨connected.each, by simp, by simp, fun m mem many => absurd many (quiet m mem),
          fun _ => unfinished⟩

/-- A step that emits nothing and leaves the connection alone. -/
theorem Connected.silent (connected : Connected codec first s log) (stream : t.stream = s.stream)
    (open_ : t.at_ = .loopTest ∨ t.at_ = .receive → s.at_ = .loopTest ∨ s.at_ = .receive)
    (play : s.play = false → t.play = false) (tested : t.at_ = .receive → s.play = false →
      s.at_ = .receive)
    (finished : s.at_ = .finished → t.at_ = .finished) :
    Connected codec first t (log ++ []) := by
  rw [List.append_nil]
  refine ⟨connected.each, fun at_ => stream ▸ connected.boundary (open_ at_),
    fun at_ => connected.open_ (open_ at_), fun m mem many => ?_,
    fun other => connected.unfinished fun at_ => other (finished at_)⟩
  obtain ⟨away, refused⟩ := connected.refused m mem many
  exact ⟨fun at_ => away (tested at_ refused), play refused⟩

/-- Every step keeps the connection as it should be. -/
theorem Connected.keep (inverts : codec.Inverts) (connected : Connected codec first s log)
    (whole : WholeFrames codec s a) (step : (machine codec).step s a = some (t, es)) :
    Connected codec first t (log ++ es) := by
  cases a with
  | test =>
      simp only [machine] at step
      split at step
      next at_ =>
          cases step
          refine connected.silent rfl (fun _ => .inl at_) id (fun tested play => ?_)
            (fun finished => absurd (at_.symm.trans finished) (by decide))
          simp [play] at tested
      · cases step
  | receive call next =>
      simp only [machine] at step
      split at step
      next enabled =>
          obtain ⟨rfl, rfl⟩ := Prod.mk.inj (Option.some.inj step)
          exact connected.received inverts enabled.1 enabled.2 whole
      · cases step
  | finish =>
      simp only [machine] at step
      split at step
      next at_ =>
          cases step
          have unfinished := connected.unfinished (by simp [at_])
          refine ⟨connected.each.concat ⟨by simp, by simp, fun _ => .inl rfl, fun _ _ _ => rfl,
            unfinished⟩, by simp, by simp, fun _ _ _ => by simp, by simp⟩
      · cases step
  | stop =>
      simp only [machine] at step
      cases step
      exact connected.silent rfl id (fun _ => rfl) (fun at_ _ => at_) id

end Steps

/-- As long as no `recv` splits a frame, the receiver thread handles on every connection what the
server sends on it, from the first message on and in its order, and each notice stands where it
should. -/
theorem received_in_order {codec : Codec} (inverts : codec.Inverts) {first : List AMessage}
    (sizes : ∀ m ∈ first, (codec.pack m).length ≤ messageMaxByte) {actions : List Action}
    {s : Receiver} {log : List Event}
    (whole : (machine codec).Along (WholeFrames codec) (start codec first) actions)
    (run : (machine codec).exec (start codec first) actions = some (s, log)) :
    EachAt (InOrder first) log := by
  have started : Connected codec first (start codec first) [] :=
    ⟨.nil, fun _ => ⟨rfl, sizes⟩, by simp, by simp, by simp⟩
  have connected : Connected codec first s ([] ++ log) :=
    System.exec_rec_of_along (I := Connected codec first)
      (fun s log a t es connected met step => connected.keep inverts met step) whole [] started run
  exact connected.each

/-- The PLAY of two messages is received, the server closes the connection, and the STOP is
received on the next one. -/
def closedBetween : List Action :=
  [.test, .receive ⟨.got 8, List.replicate 8 255, true, .got 11, false⟩ [],
    .test, .receive ⟨.closed, List.replicate 8 0, true, .closed, true⟩ (playThenStop.drop 1),
    .test, .receive ⟨.got 8, List.replicate 8 255, true, .got 11, false⟩ [], .stop, .test, .finish]

theorem closedBetween_in_order : ∃ s play stop,
    playThenStop = [play, stop] ∧
      (machine protobuf).exec (start protobuf playThenStop) closedBetween =
        some (s, [.received play, .closed, .reconnected [stop], .received stop, .finished]) ∧
      EachAt (InOrder playThenStop)
        [.received play, .closed, .reconnected [stop], .received stop, .finished] := by
  have run : (machine protobuf).exec (start protobuf playThenStop) closedBetween =
      some (⟨.finished, false, []⟩, [.received ⟨0, 0, 1, 1, [[112]]⟩, .closed,
        .reconnected [⟨0, 0, 2, 2, [[115]]⟩], .received ⟨0, 0, 2, 2, [[115]]⟩, .finished]) := by
    decide +kernel
  have message : ∀ s : Receiver, lengthOf (s.stream.take 8) = 11 → WholeFrames protobuf s
      (.receive ⟨.got 8, List.replicate 8 255, true, .got 11, false⟩ []) := by
    intro s length
    refine ⟨fun n got => ⟨Recv.got.inj got.symm, fun _ => ⟨by decide, fun k data => ?_⟩⟩, by simp⟩
    exact (Recv.got.inj data.symm).trans length.symm
  have whole : (machine protobuf).Along (WholeFrames protobuf) (start protobuf playThenStop)
      closedBetween := by
    refine System.along_cons trivial rfl (System.along_cons (message _ (by decide)) rfl ?_)
    refine System.along_cons trivial rfl (System.along_cons ⟨?_, by decide⟩ rfl ?_)
    · rintro n ⟨⟩
    refine System.along_cons trivial rfl (System.along_cons (message _ (by decide)) rfl ?_)
    exact System.along_cons trivial rfl (System.along_cons trivial rfl
      (System.along_cons trivial rfl trivial))
  exact ⟨_, _, _, rfl, run, received_in_order protobuf_inverts (by decide) whole run⟩

end Receiver

end OdroidPlayer
