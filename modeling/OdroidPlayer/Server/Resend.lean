import OdroidPlayer.Server.Handle
import OdroidPlayer.Server.Select

/-!
The response of a node over a socket that does not take everything
(`send_response` and the loop around it in `run_response`).

A response is sent as its length and then its message. When one of the two calls of
`send` fails, a notice is sent on the same socket in the same way, and after a timeout the
whole response is sent again. What a client then reads are whole frames as long as every
call takes all that it is given and none fails behind a length (`framed_iff`).
-/

namespace OdroidPlayer

open Framing Transition

/-! ### The calls of `send` -/

/-- Why a call of `send` fails. -/
inductive Failure where
  /-- EAGAIN or EWOULDBLOCK, after `SO_SNDTIMEO` -/
  | timeout
  /-- any other error, with its `strerror` -/
  | failed (error : CString)
  deriving DecidableEq, Repr

inductive SendOutcome where
  /-- the number of bytes that have been sent -/
  | count (n : Nat)
  | error (failure : Failure)
  deriving DecidableEq, Repr

/-- The message of the notice. -/
def Failure.notice : Failure → AMessage
  | .timeout => notifyMessage (cString "server send timeout") (-1) .timeout .notify Cmd.none.value
  | .failed error =>
      notifyMessage (cString "send error: " ++ error) (-1) .eserver .notify Cmd.none.value

/-- The result of `send_response` after a failure, with its `timeout`. -/
def Failure.ret : Failure → SendRet
  | .timeout => .timeout
  | .failed _ => .failed

/-- The call of `send` that comes next, with the `count` of the loop in `run_response`. -/
inductive SendAt where
  /-- `send_response_length` -/
  | length (count : Nat)
  /-- `send_response_message` -/
  | message (count : Nat)
  /-- the two calls of `send_notify_message` after a failure -/
  | noticeLength (count : Nat) (failure : Failure)
  | noticeMessage (count : Nat) (failure : Failure)
  | finished (delivery : Delivery)
  deriving DecidableEq, Repr

inductive SendEvent where
  | wrote (bytes : List UInt8)
  /-- `send_response` returns -/
  | returned (ret : SendRet)
  deriving DecidableEq, Repr

/-- The rest of the loop's body when `send_response` has failed, and the test of the loop. -/
def resend (count : Nat) : Failure → SendAt
  | .timeout =>
      if count < resendCount then
        if count + 1 < resendCount then .length (count + 1) else .finished .gaveUp
      else .finished .disconnected
  | .failed _ => .finished .disconnected

section Resending

variable (codec : Codec) (response : AMessage)

/-- What is handed to `send`. -/
def SendAt.write : SendAt → Option (Write UInt8)
  | .length _ => some (.header (codec.pack response).length)
  | .message _ => some (.body (codec.pack response))
  | .noticeLength _ failure => some (.header (codec.pack failure.notice).length)
  | .noticeMessage _ failure => some (.body (codec.pack failure.notice))
  | .finished _ => none

/-- What comes after the call, and what `send_response` returns if it does. The result of
`send_notify_message` is not used. -/
def SendAt.next : SendAt → SendOutcome → SendAt × Option SendRet
  | .length count, .count _ => (.message count, none)
  | .message _, .count _ => (.finished .sent, some .sent)
  | .length count, .error failure | .message count, .error failure =>
      (.noticeLength count failure, none)
  | .noticeLength count failure, .count _ => (.noticeMessage count failure, none)
  | .noticeLength count failure, .error _ | .noticeMessage count failure, _ =>
      (resend count failure, some failure.ret)
  | .finished delivery, _ => (.finished delivery, none)

/-- The calls of `send` for one node. A call takes at least a byte, and not more than its
`int` can count. -/
def resending : System SendAt SendOutcome SendEvent where
  step at_ outcome :=
    match at_.write codec response with
    | none => none
    | some write =>
        let returned := ((at_.next outcome).2.map SendEvent.returned).toList
        match outcome with
        | .count n =>
            if 0 < n ∧ n ≤ (lengthHeader.bytes write).length ∧ n < 2 ^ 31 then
              some ((at_.next outcome).1,
                .wrote ((lengthHeader.bytes write).take n) :: returned)
            else none
        | .error _ => some ((at_.next outcome).1, returned)

/-- A call that sends something sends everything, and a body does not fail. -/
def Unbroken (at_ : SendAt) : SendOutcome → Prop
  | .count n => ∀ write ∈ at_.write codec response, n = (lengthHeader.bytes write).length
  | .error _ => ∀ write ∈ at_.write codec response, ∃ n, write = .header n

/-- A call that sends something sends everything. -/
def NotShort (at_ : SendAt) : SendOutcome → Prop
  | .count n => ∀ write ∈ at_.write codec response, n = (lengthHeader.bytes write).length
  | .error _ => True

/-- The length and the message of the response fail by a timeout only. -/
def OnlyTimeouts (at_ : SendAt) (outcome : SendOutcome) : Prop :=
  match at_, outcome with
  | .length _, .error failure | .message _, .error failure => failure = .timeout
  | _, _ => True

/-- The bytes are whole frames of the response and of notices, the response at most once. -/
def Framed (bytes : List UInt8) : Prop :=
  ∃ bodies, bytes = lengthHeader.stream bodies ∧
    (∀ body ∈ bodies, body.length < 2 ^ 32 ∧
      (body = codec.pack response ∨ ∃ failure : Failure, body = codec.pack failure.notice)) ∧
    bodies.count (codec.pack response) ≤ 1

end Resending

/-- What the client reads. -/
def writtenBytes (log : List SendEvent) : List UInt8 :=
  log.flatMap fun
    | .wrote bytes => bytes
    | .returned _ => []

/-- The results of the attempts, in order. -/
def returns (log : List SendEvent) : List SendRet :=
  log.filterMap fun
    | .wrote _ => none
    | .returned ret => some ret

@[simp] theorem writtenBytes_append (front back : List SendEvent) :
    writtenBytes (front ++ back) = writtenBytes front ++ writtenBytes back :=
  List.flatMap_append

@[simp] theorem writtenBytes_wrote (bytes : List UInt8) (log : List SendEvent) :
    writtenBytes (.wrote bytes :: log) = bytes ++ writtenBytes log :=
  List.flatMap_cons

@[simp] theorem returns_wrote (bytes : List UInt8) (log : List SendEvent) :
    returns (.wrote bytes :: log) = returns log := rfl

@[simp] theorem returns_append (front back : List SendEvent) :
    returns (front ++ back) = returns front ++ returns back :=
  List.filterMap_append

/-! ### What one call can do -/

section Calls

variable {codec : Codec} {response : AMessage} {s t : SendAt} {outcome : SendOutcome}
  {es log : List SendEvent} {as : List SendOutcome} {delivery : Delivery}

/-- What `send_response` returns after the call. -/
def SendAt.returned (s : SendAt) (outcome : SendOutcome) : List SendEvent :=
  ((s.next outcome).2.map SendEvent.returned).toList

inductive SendMove (codec : Codec) (response : AMessage) (s : SendAt) :
    SendOutcome → SendAt → List SendEvent → Prop where
  | took {write : Write UInt8} {n : Nat} (is : s.write codec response = some write) (pos : 0 < n)
      (fits : n ≤ (lengthHeader.bytes write).length) (small : n < 2 ^ 31) :
      SendMove codec response s (.count n) (s.next (.count n)).1
        (.wrote ((lengthHeader.bytes write).take n) :: s.returned (.count n))
  | failed {write : Write UInt8} {failure : Failure} (is : s.write codec response = some write) :
      SendMove codec response s (.error failure) (s.next (.error failure)).1
        (s.returned (.error failure))

theorem resending_move (step : (resending codec response).step s outcome = some (t, es)) :
    SendMove codec response s outcome t es := by
  simp only [resending] at step
  split at step
  · cases step
  next write is =>
      cases outcome with
      | count n =>
          simp only at step
          split at step
          next fits =>
              cases step
              exact .took is fits.1 fits.2.1 fits.2.2
          · cases step
      | error failure =>
          cases step
          exact .failed is

@[simp] theorem writtenBytes_returned (s : SendAt) (outcome : SendOutcome) :
    writtenBytes (s.returned outcome) = [] := by
  unfold SendAt.returned
  cases (s.next outcome).2 <;> rfl

@[simp] theorem returns_returned (s : SendAt) (outcome : SendOutcome) :
    returns (s.returned outcome) = (s.next outcome).2.toList := by
  unfold SendAt.returned
  cases (s.next outcome).2 <;> rfl

theorem finished_exec
    (run : (resending codec response).exec (.finished delivery) as = some (t, log)) :
    as = [] ∧ t = .finished delivery ∧ log = [] := by
  cases as with
  | nil =>
      cases run
      exact ⟨rfl, rfl, rfl⟩
  | cons outcome as => cases run

end Calls

/-! ### The frames of a run -/

section Frames

variable (codec : Codec) (response : AMessage)

/-- The length that the client has read and not yet the message behind it. -/
def SendAt.unanswered : SendAt → List UInt8
  | .message _ => convLen (codec.pack response).length
  | .noticeMessage _ failure => convLen (codec.pack failure.notice).length
  | _ => []

/-- The frames that a run begins, the one that is open at its start included. -/
structure Frames (s : SendAt) (as : List SendOutcome) (log : List SendEvent)
    (fs : List (Begun UInt8)) : Prop where
  bytes : s.unanswered codec response ++ writtenBytes log = fs.flatMap lengthHeader.begun
  bodies : ∀ f ∈ fs, f.body = codec.pack response ∨
    ∃ failure : Failure, f.body = codec.pack failure.notice
  small : ∀ f ∈ fs, f.finished = true → f.body.length < 2 ^ 31
  whole : (resending codec response).Along (Unbroken codec response) s as ↔
    ∀ f ∈ fs, f.finished = true
  once : (∀ f ∈ fs, f.finished = true) → (fs.map Begun.body).count (codec.pack response) ≤ 1

variable {codec response} {s : SendAt}

theorem resend_unanswered (count : Nat) (failure : Failure) :
    (resend count failure).unanswered codec response = [] := by
  unfold resend
  cases failure with
  | failed error => rfl
  | timeout =>
      simp only
      split
      · split <;> rfl
      · rfl

theorem SendAt.write_header {n : Nat} (is : s.write codec response = some (.header n)) :
    s.unanswered codec response = [] ∧
      (∀ k, ((s.next (.count k)).1).unanswered codec response = convLen n) ∧
      ∀ failure, ((s.next (.error failure)).1).unanswered codec response = [] := by
  cases s with
  | length count =>
      cases is
      exact ⟨rfl, fun _ => rfl, fun _ => rfl⟩
  | noticeLength count failure =>
      cases is
      exact ⟨rfl, fun _ => rfl, fun _ => resend_unanswered count failure⟩
  | _ => cases is

theorem SendAt.write_body {body : List UInt8} (is : s.write codec response = some (.body body)) :
    (s.unanswered codec response = convLen body.length ∧
        ∀ outcome, ((s.next outcome).1).unanswered codec response = []) ∧
      ((body = codec.pack response ∧ ∀ n, (s.next (.count n)).1 = .finished .sent) ∨
        ∃ failure : Failure, body = codec.pack failure.notice) := by
  cases s with
  | message count =>
      cases is
      refine ⟨⟨rfl, fun outcome => ?_⟩, .inl ⟨rfl, fun _ => rfl⟩⟩
      cases outcome <;> rfl
  | noticeMessage count failure =>
      cases is
      exact ⟨⟨rfl, fun _ => resend_unanswered count failure⟩, .inr ⟨failure, rfl⟩⟩
  | _ => cases is

/-- A call that sends all of a header. -/
theorem Frames.header {t : SendAt} {es rest : List SendEvent} {as : List SendOutcome}
    {outcome : SendOutcome} {fs : List (Begun UInt8)} {n : Nat}
    (is : s.write codec response = some (.header n))
    (full : NotShort codec response s outcome)
    (step : (resending codec response).step s outcome = some (t, es))
    (frames : Frames codec response t as rest fs) :
    Frames codec response s (outcome :: as) (es ++ rest) fs := by
  obtain ⟨closed, opens, stays⟩ := s.write_header is
  obtain ⟨bytes, bodies, small, whole, once⟩ := frames
  refine ⟨?_, bodies, small, ?_, once⟩
  · rw [closed, ← bytes]
    cases resending_move step with
    | @took write k is' =>
        obtain rfl := Option.some.inj (is.symm.trans is')
        have all : k = (convLen n).length := full _ is
        simp [opens, all, lengthHeader, Header.bytes]
    | failed => simp [stays]
  · rw [System.along_cons_iff step, whole]
    refine and_iff_right ?_
    cases outcome with
    | count k => exact full
    | error failure => exact fun write mem => ⟨n, Option.some.inj (mem.symm.trans is)⟩

/-- A body behind its header, if it is sent. -/
theorem Frames.body {t : SendAt} {es rest : List SendEvent} {as : List SendOutcome}
    {outcome : SendOutcome} {fs : List (Begun UInt8)} {body : List UInt8}
    (apart : ∀ failure : Failure, codec.pack failure.notice ≠ codec.pack response)
    (is : s.write codec response = some (.body body))
    (full : NotShort codec response s outcome)
    (step : (resending codec response).step s outcome = some (t, es))
    {u : SendAt} (tail : (resending codec response).exec t as = some (u, rest))
    (frames : Frames codec response t as rest fs) :
    ∃ fs, Frames codec response s (outcome :: as) (es ++ rest) fs := by
  obtain ⟨⟨opened, closes⟩, which⟩ := s.write_body is
  have known : body = codec.pack response ∨
      ∃ failure : Failure, body = codec.pack failure.notice := which.imp_left And.left
  obtain ⟨bytes, bodies, small, whole, once⟩ := frames
  cases resending_move step with
  | @took write k is' pos fits below =>
      obtain rfl := Option.some.inj (is.symm.trans is')
      have all : k = body.length := full _ is
      rw [closes, List.nil_append] at bytes
      refine ⟨⟨body, true⟩ :: fs, ?_, ?_, ?_, ?_, ?_⟩
      · rw [List.flatMap_cons, ← bytes, opened]
        simp [all, lengthHeader, Header.bytes, Header.begun]
      · simpa [known] using bodies
      · intro f mem finished
        rcases List.mem_cons.mp mem with rfl | later
        · exact all ▸ below
        · exact small f later finished
      · rw [System.along_cons_iff step, whole]
        have met : Unbroken codec response s (.count k) := full
        simp [met]
      · intro finished
        have later := once fun f mem => finished f (List.mem_cons_of_mem _ mem)
        rw [List.map_cons, List.count_cons]
        rcases which with ⟨_, ends⟩ | ⟨failure, notice⟩
        · -- the response is the last thing that is sent
          rw [ends] at tail
          have none : fs = [] := by
            obtain ⟨_, _, rfl⟩ := finished_exec tail
            exact Header.eq_nil_of_begun bytes.symm
          rw [none]
          simp only [List.map_nil, List.count_nil]
          split <;> omega
        · have other : (body == codec.pack response) = false := by
            simpa [notice] using apart failure
          rw [other]
          exact later
  | @failed write failure is' =>
      obtain rfl := Option.some.inj (is.symm.trans is')
      rw [closes, List.nil_append] at bytes
      refine ⟨⟨body, false⟩ :: fs, ?_, ?_, ?_, ?_, ?_⟩
      · rw [List.flatMap_cons, ← bytes, opened]
        simp [lengthHeader, Header.begun]
      · simpa [known] using bodies
      · simpa using small
      · rw [System.along_cons_iff step]
        have broken : ¬ Unbroken codec response s (.error failure) := by
          intro met
          obtain ⟨n, header⟩ := met _ is
          cases header
        simp [broken]
      · intro finished
        cases finished _ List.mem_cons_self

theorem frames_exec {as : List SendOutcome} {log : List SendEvent} {delivery : Delivery}
    (apart : ∀ failure : Failure, codec.pack failure.notice ≠ codec.pack response)
    (full : (resending codec response).Along (NotShort codec response) s as)
    (run : (resending codec response).exec s as = some (.finished delivery, log)) :
    ∃ fs, Frames codec response s as log fs := by
  induction as generalizing s log with
  | nil =>
      cases run
      exact ⟨[], rfl, by simp, by simp, by simp [System.Along], by simp⟩
  | cons outcome as ih =>
      obtain ⟨t, es, rest, step, tail, rfl⟩ := System.exec_cons.mp run
      obtain ⟨fs, frames⟩ := ih (full.2 t es step) tail
      have write : ∃ write, s.write codec response = some write := by
        cases resending_move step with
        | took is | failed is => exact ⟨_, is⟩
      obtain ⟨write, is⟩ := write
      cases write with
      | header n => exact ⟨fs, frames.header is full.1 step⟩
      | body body => exact frames.body apart is full.1 step tail

end Frames

/-! ### Who is left connected -/

section Doomed

variable {codec : Codec} {response : AMessage} {s t : SendAt} {outcome : SendOutcome}
  {es log : List SendEvent} {as : List SendOutcome} {delivery : Delivery}

/-- The client will be disconnected. -/
def SendAt.Doomed : SendAt → Prop
  | .noticeLength _ failure | .noticeMessage _ failure => failure ≠ .timeout
  | .finished delivery => delivery = .disconnected
  | _ => False

/-- The test of the loop has succeeded. -/
def SendAt.Counting : SendAt → Prop
  | .length count | .message count | .noticeLength count _ | .noticeMessage count _ =>
      count < resendCount
  | .finished _ => True

theorem resend_doomed {count : Nat} (counting : count < resendCount) (failure : Failure) :
    (resend count failure).Counting ∧ ((resend count failure).Doomed ↔ failure ≠ .timeout) := by
  unfold resend
  cases failure with
  | failed error => exact ⟨trivial, by simp [SendAt.Doomed]⟩
  | timeout =>
      simp only [if_pos counting]
      split
      next more => exact ⟨more, by simp [SendAt.Doomed]⟩
      · exact ⟨trivial, by simp [SendAt.Doomed]⟩

theorem SendMove.doomed (move : SendMove codec response s outcome t es) (counting : s.Counting) :
    t.Counting ∧ (t.Doomed ↔ s.Doomed ∨ ¬ OnlyTimeouts s outcome) := by
  cases s with
  | finished delivery =>
      cases move with
      | took is => cases is
      | failed is => cases is
  | length count | message count =>
      cases move with
      | took =>
          refine ⟨?_, by simp [SendAt.next, SendAt.Doomed, OnlyTimeouts]⟩
          first | exact counting | trivial
      | failed => exact ⟨counting, by simp [SendAt.next, SendAt.Doomed, OnlyTimeouts]⟩
  | noticeLength count failure =>
      cases move with
      | took => exact ⟨counting, by simp [SendAt.next, SendAt.Doomed, OnlyTimeouts]⟩
      | failed =>
          obtain ⟨counts, dooms⟩ := resend_doomed counting failure
          exact ⟨counts, dooms.trans (by simp [SendAt.Doomed, OnlyTimeouts])⟩
  | noticeMessage count failure =>
      obtain ⟨counts, dooms⟩ := resend_doomed counting failure
      have mine : ∀ outcome, failure ≠ .timeout ↔ (SendAt.noticeMessage count failure).Doomed ∨
          ¬ OnlyTimeouts (.noticeMessage count failure) outcome := by
        simp [SendAt.Doomed, OnlyTimeouts]
      cases move with
      | took => exact ⟨counts, dooms.trans (mine _)⟩
      | failed => exact ⟨counts, dooms.trans (mine _)⟩

/-- The client is disconnected exactly when the length or the message of the response fails
by another error than a timeout. -/
theorem disconnected_iff (counting : s.Counting)
    (run : (resending codec response).exec s as = some (.finished delivery, log)) :
    delivery = .disconnected ↔
      s.Doomed ∨ ¬ (resending codec response).Along OnlyTimeouts s as := by
  induction as generalizing s log with
  | nil =>
      cases run
      simp [SendAt.Doomed, System.Along]
  | cons outcome as ih =>
      obtain ⟨t, es, rest, step, tail, rfl⟩ := System.exec_cons.mp run
      obtain ⟨counts, dooms⟩ := (resending_move step).doomed counting
      rw [ih counts tail, System.along_cons_iff step, dooms, not_and_or, or_assoc]

end Doomed

/-! ### Whole frames -/

section Framed

variable {codec : Codec} {node : Node} {status : Status} {data : List CString}
  {as : List SendOutcome} {log : List SendEvent} {delivery : Delivery}

/-- The type of a notice is not one that is answered. -/
theorem pack_notice_ne (format : codec.WireFormat)
    (known : node.type = CmdType.command.value ∨ node.type = CmdType.stream.value)
    (failure : Failure) :
    codec.pack failure.notice ≠ codec.pack (responseMessage node status data) := by
  have third : ∀ m : AMessage, (∃ s : Status, m.status = s.value) →
      (∃ t : CmdType, m.type = t.value) →
      (codec.pack m)[3]? = some m.type.toInt.toNat.toUInt8 := by
    intro m status type
    obtain ⟨rest, packed⟩ := packed_of_wireFormat format status type
    rw [packed]
    rfl
  intro same
  have notice : (codec.pack failure.notice)[3]? = some 2 := by
    cases failure with
    | timeout => exact third _ ⟨.timeout, rfl⟩ ⟨.notify, rfl⟩
    | failed error => exact third _ ⟨.eserver, rfl⟩ ⟨.notify, rfl⟩
  rw [same] at notice
  rcases known with command | stream
  · rw [third _ ⟨status, rfl⟩ ⟨.command, command⟩] at notice
    simp only [responseMessage, command] at notice
    revert notice
    decide
  · rw [third _ ⟨status, rfl⟩ ⟨.stream, stream⟩] at notice
    simp only [responseMessage, stream] at notice
    revert notice
    decide

/-- A message of a run does not look like a header. -/
theorem distinct_body (format : codec.WireFormat)
    (known : node.type = CmdType.command.value ∨ node.type = CmdType.stream.value)
    {body : List UInt8} (is : body = codec.pack (responseMessage node status data) ∨
      ∃ failure : Failure, body = codec.pack failure.notice) :
    lengthHeader.Distinct body := by
  rcases is with rfl | ⟨failure, rfl⟩
  · refine distinct_of_wireFormat format ⟨status, rfl⟩ ?_
    rcases known with command | stream
    · exact ⟨.command, command⟩
    · exact ⟨.stream, stream⟩
  · cases failure with
    | timeout => exact distinct_of_wireFormat format ⟨.timeout, rfl⟩ ⟨.notify, rfl⟩
    | failed error => exact distinct_of_wireFormat format ⟨.eserver, rfl⟩ ⟨.notify, rfl⟩

theorem Frames.framed {response : AMessage} {fs : List (Begun UInt8)} {count : Nat}
    (frames : Frames codec response (.length count) as log fs)
    (finished : ∀ f ∈ fs, f.finished = true) : Framed codec response (writtenBytes log) := by
  refine ⟨fs.map Begun.body, ?_, ?_, frames.once finished⟩
  · rw [← Header.begun_of_finished finished, ← frames.bytes]
    rfl
  · intro body mem
    obtain ⟨f, mine, rfl⟩ := List.mem_map.mp mem
    have small := frames.small f mine (finished f mine)
    exact ⟨by omega, frames.bodies f mine⟩

theorem Frames.finished {fs : List (Begun UInt8)} {count : Nat} (format : codec.WireFormat)
    (known : node.type = CmdType.command.value ∨ node.type = CmdType.stream.value)
    (frames : Frames codec (responseMessage node status data) (.length count) as log fs)
    (framed : Framed codec (responseMessage node status data) (writtenBytes log)) :
    ∀ f ∈ fs, f.finished = true := by
  obtain ⟨bodies, eq, messages, _⟩ := framed
  have same : fs.flatMap lengthHeader.begun = lengthHeader.stream bodies := by
    rw [← frames.bytes, ← eq]
    rfl
  refine Header.finished_of_stream ?_ ?_ ?_ same
  · intro f mem finished
    have small := frames.small f mem finished
    exact lt_trans small (by decide)
  · exact fun body mem => (messages body mem).1
  · exact fun body mem => distinct_body format known (messages body mem).2

/-- A client that is left connected has read whole frames. -/
def LeavesFramed (codec : Codec) (response : AMessage) (delivery : Delivery)
    (log : List SendEvent) : Prop :=
  delivery ≠ .disconnected → Framed codec response (writtenBytes log)

/-- A send of the response fails by more than a timeout, or every call that sends something
sends everything and no body fails. -/
def Clean (codec : Codec) (response : AMessage) (as : List SendOutcome) : Prop :=
  ¬ (resending codec response).Along OnlyTimeouts (.length 0) as ∨
    (resending codec response).Along (Unbroken codec response) (.length 0) as

/-- A client that is left connected has read whole frames if no call sends a part only and none
fails behind a length; and where no call sends a part only, just then. -/
theorem framed_iff (format : codec.WireFormat)
    (known : node.type = CmdType.command.value ∨ node.type = CmdType.stream.value)
    (run : (resending codec (responseMessage node status data)).exec (.length 0) as =
      some (.finished delivery, log)) :
    (Clean codec (responseMessage node status data) as →
        LeavesFramed codec (responseMessage node status data) delivery log) ∧
      ((resending codec (responseMessage node status data)).Along
          (NotShort codec (responseMessage node status data)) (.length 0) as →
        (LeavesFramed codec (responseMessage node status data) delivery log ↔
          Clean codec (responseMessage node status data) as)) := by
  have counting : (SendAt.length 0).Counting := Nat.succ_pos 2
  have doomed := disconnected_iff counting run
  have apart : ∀ failure : Failure,
      codec.pack failure.notice ≠ codec.pack (responseMessage node status data) :=
    pack_notice_ne format known
  have sound : Clean codec (responseMessage node status data) as →
      LeavesFramed codec (responseMessage node status data) delivery log := by
    rintro (other | whole) connected
    · exact absurd (doomed.mpr (.inr other)) connected
    · have full : (resending codec (responseMessage node status data)).Along
          (NotShort codec (responseMessage node status data)) (.length 0) as := by
        refine System.along_mono (fun s outcome met => ?_) whole
        cases outcome with
        | count n => exact met
        | error failure => trivial
      obtain ⟨fs, frames⟩ := frames_exec apart full run
      exact frames.framed (frames.whole.mp whole)
  refine ⟨sound, fun full => ⟨fun leaves => ?_, sound⟩⟩
  obtain ⟨fs, frames⟩ := frames_exec apart full run
  by_cases gone : delivery = .disconnected
  · exact .inl ((doomed.mp gone).resolve_left (fun none => none))
  · exact .inr (frames.whole.mpr (frames.finished format known (leaves gone)))

end Framed

/-- The answer to a PLAY of client 5. -/
def answeredPlay : Node := ⟨1, 5, 1, .success, CmdType.command.value, Cmd.play.value, [[112]]⟩

def playResponse : AMessage := responseMessage answeredPlay .success [[112]]

/-- The length and its notice time out, and the second attempt gets through. -/
def secondAttempt : List SendOutcome :=
  [.error .timeout, .error .timeout, .count 8, .count (protobuf.pack playResponse).length]

/-- Three times the message times out, and the notices as well. -/
def threeTimeouts : List SendOutcome :=
  [.count 8, .error .timeout, .error .timeout, .count 8, .error .timeout, .error .timeout,
    .count 8, .error .timeout, .error .timeout]

instance (write : Write UInt8) : Decidable (∃ n, write = .header n) :=
  match write with
  | .header n => .isTrue ⟨n, rfl⟩
  | .body _ => .isFalse fun ⟨_, eq⟩ => by cases eq

instance (codec : Codec) (response : AMessage) (s : SendAt) (outcome : SendOutcome) :
    Decidable (Unbroken codec response s outcome) := by
  cases outcome <;> unfold Unbroken <;> infer_instance

theorem secondAttempt_framed : ∃ log,
    (resending protobuf playResponse).exec (.length 0) secondAttempt =
      some (.finished .sent, log) ∧ Framed protobuf playResponse (writtenBytes log) := by
  have whole : (resending protobuf playResponse).Along (Unbroken protobuf playResponse) (.length 0)
      secondAttempt := by decide
  refine ⟨_, rfl, ?_⟩
  have both := @framed_iff protobuf answeredPlay .success [[112]] secondAttempt _ .sent
    protobuf_wireFormat (.inl rfl) rfl
  exact both.1 (.inr whole) (by decide)

/-- The client is left with three lengths and no message. -/
theorem threeTimeouts_unframed : ∃ log,
    (resending protobuf playResponse).exec (.length 0) threeTimeouts =
      some (.finished .gaveUp, log) ∧ ¬ Framed protobuf playResponse (writtenBytes log) := by
  refine ⟨_, rfl, ?_⟩
  rintro ⟨bodies, eq, messages, _⟩
  have parses := Header.parse_stream (H := lengthHeader) fun body mem => (messages body mem).1
  rw [← eq] at parses
  cases parses

end OdroidPlayer
