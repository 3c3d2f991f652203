import OdroidPlayer.Server.Loops

/-!
The descriptors that `wait_fd` gives to `pselect`.

A descriptor is taken out of its set before it is closed, but `wait_fd` may have copied the
set before that and call `pselect` after it: then the call fails with EBADF, the loop ends
and the player stops. As long as no client or stream is added, this is the only way
(`Settled`). Where a descriptor is registered while its client is being disconnected, it may
also stay in a set after it has been closed.
-/

namespace OdroidPlayer

open Transition Transition.System

/-- Nothing is registered, and `pselect` is not called. -/
def LoopEvent.Plain : LoopEvent → Prop
  | .registered _ | .pselect _ | .loopFailed => False
  | .opened _ | .closed _ | .succeeded .. | .refused _ => True

def LoopEvent.closes : LoopEvent → Option Int
  | .closed fd => some fd
  | _ => none

theorem LoopEvent.eq_of_closes {e : LoopEvent} {fd : Int} (closes : fd ∈ e.closes) :
    e = .closed fd := by
  cases e <;> cases closes
  rfl

@[simp] theorem Descriptor.event_plain (d : Descriptor) : d.event.Plain := by
  cases d <;> trivial

namespace Loops

/-- No call of `pselect` has a closed descriptor in its set, and no loop ends for it. -/
def PselectsOpen (s : Loops) (a : LoopAction) : Prop :=
  ∀ t es, machine.step s a = some (t, es) →
    (∀ closed, .pselect closed ∈ es → closed = ∅) ∧ .loopFailed ∉ es

/-- A descriptor that is closed is in no copy that `wait_fd` has made and not yet given to
`pselect`. -/
def SparesCopies (s : Loops) (a : LoopAction) : Prop :=
  ∀ t es, machine.step s a = some (t, es) → ∀ fd, .closed fd ∈ es →
    fd ∉ s.server.copy ∧ fd ∉ s.stream.copy

/-- A descriptor that is closed is not in a set, and one that is registered is open. -/
def SparesSets (s : Loops) (a : LoopAction) : Prop :=
  ∀ t es, machine.step s a = some (t, es) →
    (∀ fd, .closed fd ∈ es → fd ∉ s.serv.set ∧ fd ∉ s.strm.set) ∧
      ∀ fd, .registered fd ∈ es → s.Open fd

/-- No client is accepted and no STREAM executed. -/
def NoNewcomers (_ : Loops) : LoopAction → Prop
  | .server r => r.accept = none
  | .request .. => False
  | .response _ | .stream _ | .disconnect _ | .stop => True

/-- A condition on the descriptors that a step closes can be tested. -/
def decidableClosed (s : Loops) (a : LoopAction) (p : Int → Prop) [DecidablePred p] :
    Decidable (∀ t es, machine.step s a = some (t, es) → ∀ fd, .closed fd ∈ es → p fd) :=
  decidable_of_iff (∀ out ∈ machine.step s a, ∀ e ∈ out.2, ∀ fd ∈ e.closes, p fd) <| by
    constructor
    · intro all t es step fd mem
      exact all (t, es) step _ mem fd rfl
    · intro all out step e mem fd closes
      exact all out.1 out.2 step fd (LoopEvent.eq_of_closes closes ▸ mem)

instance (s : Loops) (a : LoopAction) : Decidable (s.SparesCopies a) :=
  decidableClosed s a _

instance (s : Loops) : (a : LoopAction) → Decidable (s.NoNewcomers a)
  | .server r => decidable_of_iff (r.accept.isNone = true) Option.isNone_iff_eq_none
  | .request .. => .isFalse id
  | .response _ | .stream _ | .disconnect _ | .stop => .isTrue trivial

/-- The members of the sets and of the copies are open. -/
structure SetsOpen (s : Loops) : Prop where
  serv : ∀ fd ∈ s.serv.set, s.Open fd
  strm : ∀ fd ∈ s.strm.set, s.Open fd
  serverCopy : ∀ fd ∈ s.server.copy, s.Open fd
  streamCopy : ∀ fd ∈ s.stream.copy, s.Open fd

/-- What a step can do to the sets, the copies and the open descriptors. -/
structure Frame (s t : Loops) (es : List LoopEvent) : Prop where
  serv : ∀ fd ∈ t.serv.set, fd ∈ s.serv.set ∨ .registered fd ∈ es
  strm : ∀ fd ∈ t.strm.set, fd ∈ s.strm.set ∨ .registered fd ∈ es
  serverCopy : ∀ fd ∈ t.server.copy, fd ∈ s.server.copy ∨ fd ∈ s.serv.set
  streamCopy : ∀ fd ∈ t.stream.copy, fd ∈ s.stream.copy ∨ fd ∈ s.strm.set
  opens : ∀ fd, s.Open fd → t.Open fd ∨ .closed fd ∈ es
  registers : ∀ fd, .registered fd ∈ es → ∀ fd', .closed fd' ∉ es
  pselect : ∀ closed, .pselect closed ∈ es →
    closed = s.closedIn s.server.copy ∨ closed = s.closedIn s.stream.copy
  failed : .loopFailed ∈ es →
    (s.closedIn s.server.copy).Nonempty ∨ (s.closedIn s.stream.copy).Nonempty

variable {s t : Loops} {es : List LoopEvent}

theorem mem_of_mem_remove {fd fd' : Int} {watch : Watch}
    (mem : fd' ∈ (updateFdSet fd watch .remove).set) : fd' ∈ watch.set := by
  unfold updateFdSet at mem
  split at mem
  · exact mem
  · exact Finset.mem_of_mem_erase mem

theorem mem_of_mem_add {fd fd' : Int} {watch : Watch}
    (mem : fd' ∈ (updateFdSet fd watch .add).set) : fd' ∈ watch.set ∨ fd' = fd := by
  unfold updateFdSet at mem
  split at mem
  · exact .inl mem
  · exact (Finset.mem_insert.mp mem).symm

/-- A step that registers nothing and does not call `pselect`. -/
theorem Frame.of_plain (plain : ∀ e ∈ es, e.Plain)
    (serv : ∀ fd ∈ t.serv.set, fd ∈ s.serv.set) (strm : ∀ fd ∈ t.strm.set, fd ∈ s.strm.set)
    (serverCopy : ∀ fd ∈ t.server.copy, fd ∈ s.server.copy ∨ fd ∈ s.serv.set)
    (streamCopy : ∀ fd ∈ t.stream.copy, fd ∈ s.stream.copy ∨ fd ∈ s.strm.set)
    (opens : ∀ fd, s.Open fd → t.Open fd ∨ .closed fd ∈ es) : Frame s t es where
  serv fd mem := .inl (serv fd mem)
  strm fd mem := .inl (strm fd mem)
  serverCopy := serverCopy
  streamCopy := streamCopy
  opens := opens
  registers _ mem := (plain _ mem).elim
  pselect _ mem := (plain _ mem).elim
  failed mem := (plain _ mem).elim

/-! ### What is closed -/

theorem close_opens (s : Threads) {fd fd' : Int} (isOpen : s.sockets fd' ≠ none) :
    (s.close fd).sockets fd' ≠ none ∨ fd' = fd := by
  by_cases same : fd' = fd
  · exact .inr same
  · left
    simpa [Threads.close, Function.update_of_ne same] using isOpen

theorem openAs_opens (s : Threads) (fd : Int) (socket : Socket) {fd' : Int}
    (isOpen : s.sockets fd' ≠ none) : (s.openAs fd socket).sockets fd' ≠ none := by
  by_cases same : fd' = fd
  · simp [Threads.openAs, same]
  · simpa [Threads.openAs, Function.update_of_ne same] using isOpen

/-- A descriptor that is open stays so or is closed by the step. -/
theorem threads_opens {s t : Threads} {a : ThreadAction} {ds : List Descriptor}
    (step : threads.step s a = some (t, ds)) {fd : Int} (isOpen : s.sockets fd ≠ none) :
    t.sockets fd ≠ none ∨ .closed fd ∈ ds := by
  cases threads_move step with
  | accept => exact .inl (openAs_opens s _ _ isOpen)
  | refused | streamClosed | cleared =>
      exact (close_opens _ isOpen).imp_right fun same => by simp [same]
  | noSlot => exact (close_opens _ isOpen).imp_right fun same => by simp [same]
  | full | room | missing | found | walk => exact .inl isOpen
  | added => exact .inl (openAs_opens _ _ _ isOpen)

theorem streamSockets_opens {sockets : Int → Option Socket} {ds : List Descriptor} {fd : Int}
    (isOpen : sockets fd ≠ none) : streamSockets sockets ds fd ≠ none ∨ .closed fd ∈ ds := by
  induction ds generalizing sockets with
  | nil => exact .inl isOpen
  | cons d ds ih =>
      cases d with
      | opened fd' =>
          have still : Function.update sockets fd' (some .stream) fd ≠ none := by
            by_cases same : fd = fd'
            · simp [same]
            · simpa [Function.update_of_ne same] using isOpen
          exact (ih still).imp_right (List.mem_cons_of_mem _)
      | closed fd' =>
          by_cases same : fd = fd'
          · exact .inr (by simp [same])
          · have still : Function.update sockets fd' none fd ≠ none := by
              simpa [Function.update_of_ne same] using isOpen
            exact (ih still).imp_right (List.mem_cons_of_mem _)

theorem closed_event {ds : List Descriptor} {fd : Int} (mem : .closed fd ∈ ds) :
    .closed fd ∈ ds.map Descriptor.event :=
  List.mem_map.mpr ⟨_, mem, rfl⟩

theorem plain_events (ds : List Descriptor) : ∀ e ∈ ds.map Descriptor.event, e.Plain := by
  intro e mem
  obtain ⟨d, _, rfl⟩ := List.mem_map.mp mem
  exact d.event_plain

/-- The clients change and nothing else does. -/
theorem opens_of_clients {clients : Threads} {ds : List Descriptor}
    (opens : ∀ fd, s.clients.sockets fd ≠ none → clients.sockets fd ≠ none ∨ .closed fd ∈ ds)
    (serverFd : t.serverFd = s.serverFd) (eq : t.clients = clients) (fd : Int)
    (isOpen : s.Open fd) : t.Open fd ∨ .closed fd ∈ ds.map Descriptor.event := by
  rcases isOpen with rfl | isOpen
  · exact .inl (.inl serverFd.symm)
  · rcases opens fd isOpen with still | closed
    · exact .inl (.inr (eq ▸ still))
    · exact .inr (closed_event closed)

theorem StreamMove.frame (move : StreamMove s t es) : Frame s t es := by
  cases move with
  | copies =>
      exact .of_plain (by simp) (fun _ => id) (fun _ => id) (fun _ => .inl) (fun _ => .inr)
        fun _ => .inl
  | selects at_ copy _ selects =>
      refine ⟨fun _ => .inl, fun _ => .inl, fun _ => .inl, ?_, fun _ => .inl, ?_, ?_, ?_⟩
      · intro fd mem
        simp [copy] at mem
      · intro fd mem
        rcases selects.quiet _ mem with eq | ⟨_, eq⟩
        · cases eq
        · cases eq
      · intro closed mem
        rw [at_]
        exact .inr (selects.pselect closed mem)
      · intro mem
        rw [at_]
        exact .inr (selects.failed mem)
  | goes copy =>
      refine .of_plain (by simp) (fun _ => id) (fun _ => id) (fun _ => .inl) ?_ fun _ => .inl
      intro fd mem
      simp [copy] at mem
  | unwatches =>
      refine .of_plain (by simp) (fun _ => id) (fun _ => mem_of_mem_remove) (fun _ => .inl) ?_
        fun _ => .inl
      rintro fd ⟨⟩
  | @closes _ _ found streamFd =>
      refine .of_plain (by simp [LoopEvent.Plain]) (fun _ => id) (fun _ => id) (fun _ => .inl) ?_ ?_
      · rintro fd ⟨⟩
      · have opens : ∀ fd, s.clients.sockets fd ≠ none →
            (s.clients.closeStream streamFd found).sockets fd ≠ none ∨
              .closed fd ∈ [Descriptor.closed streamFd] := fun fd isOpen =>
          (close_opens _ isOpen).imp_right fun same => by simp [same]
        exact opens_of_clients opens rfl rfl

/-- A block of `disconnect_client` takes descriptors out of the sets, or works on the pool. -/
theorem disconnect_frame {w : Worker} {fd : Int} {at_ : DisconnectAt} {next : Option DisconnectAt}
    {ds : List Descriptor} (step : s.disconnect w fd at_ = some (t, next, ds)) :
    (∀ fd' ∈ t.serv.set, fd' ∈ s.serv.set) ∧ (∀ fd' ∈ t.strm.set, fd' ∈ s.strm.set) ∧
      t.server = s.server ∧ t.stream = s.stream ∧
      ∀ fd', s.Open fd' → t.Open fd' ∨ .closed fd' ∈ ds.map Descriptor.event := by
  cases at_ with
  | unwatch =>
      cases step
      exact ⟨fun _ => mem_of_mem_remove, fun _ => id, rfl, rfl, fun _ => .inl⟩
  | fdFind =>
      simp only [disconnect] at step
      split at step <;>
      · cases step
        exact ⟨fun _ => id, fun _ => id, rfl, rfl, fun _ => .inl⟩
  | fdRead idx =>
      cases step
      exact ⟨fun _ => id, fun _ => id, rfl, rfl, fun _ => .inl⟩
  | unwatchStream streamFd =>
      cases step
      exact ⟨fun _ => id, fun _ => mem_of_mem_remove, rfl, rfl, fun _ => .inl⟩
  | removeClient =>
      simp only [disconnect, Option.map_eq_some_iff] at step
      obtain ⟨out, removes, eq⟩ := step
      cases eq
      exact ⟨fun _ => id, fun _ => id, rfl, rfl,
        opens_of_clients (fun _ => threads_opens removes) rfl rfl⟩
  | removing =>
      simp only [disconnect, Option.map_eq_some_iff] at step
      obtain ⟨out, goes, eq⟩ := step
      cases eq
      have step : threads.step s.clients (.go w) = some out := goes
      exact ⟨fun _ => id, fun _ => id, rfl, rfl,
        opens_of_clients (fun _ => threads_opens step) rfl rfl⟩

theorem selects_frame {set : Finset Int} {running : Bool} {server : RunServerAt}
    (at_ : s.server = .selecting set) (copy : server.copy = ∅) (selects : Selects s set es) :
    Frame s { s with running, server } es := by
  refine ⟨fun _ => .inl, fun _ => .inl, ?_, fun _ => .inl, fun _ => .inl, ?_, ?_, ?_⟩
  · intro fd mem
    simp [copy] at mem
  · intro fd mem
    rcases selects.quiet _ mem with eq | ⟨_, eq⟩
    · cases eq
    · cases eq
  · intro closed mem
    rw [at_]
    exact .inl (selects.pselect closed mem)
  · intro mem
    rw [at_]
    exact .inl (selects.failed mem)

/-- The server thread goes on and changes nothing that the others see. -/
theorem serverGoes_frame {server : RunServerAt} (copy : server.copy = ∅) :
    Frame s { s with server } [] := by
  refine .of_plain (by simp) (fun _ => id) (fun _ => id) ?_ (fun _ => .inl) fun _ => .inl
  intro fd mem
  simp [copy] at mem

theorem connected_copy (readSet : Finset Int) (after : Threads) :
    (s.connected readSet after).copy = ∅ := by
  unfold connected
  split <;> split <;> rfl

theorem runServer_frame {r : Results} (step : s.runServer r = some (t, es)) : Frame s t es := by
  unfold runServer at step
  split at step
  next at_ =>
      split at step
      · cases step
        exact .of_plain (by simp) (fun _ => id) (fun _ => id) (fun _ => .inr) (fun _ => .inl)
          fun _ => .inl
      · cases step
        exact serverGoes_frame rfl
  next set at_ =>
      split at step
      next failed =>
          cases step
          exact selects_frame at_ rfl (selects_failed failed)
      · cases step
        exact selects_frame at_ rfl (selects_ok s set)
  next set at_ =>
      split at step
      · cases step
      all_goals
        cases step
        exact serverGoes_frame rfl
  next readSet at_ =>
      split at step
      · split at step
        · cases step
          exact serverGoes_frame rfl
        · split at step
          · cases step
          · simp only [Option.map_eq_some_iff] at step
            obtain ⟨out, accepts, eq⟩ := step
            cases eq
            exact .of_plain (plain_events out.2) (fun _ => id) (fun _ => id) (by rintro fd ⟨⟩)
              (fun _ => .inl) (opens_of_clients (fun _ => threads_opens accepts) rfl rfl)
      · cases step
        exact serverGoes_frame rfl
  next readSet at_ =>
      simp only [Option.map_eq_some_iff] at step
      obtain ⟨out, goes, eq⟩ := step
      cases eq
      have move : threads.step s.clients (.go .server) = some out := goes
      refine .of_plain (plain_events out.2) (fun _ => id) (fun _ => id) ?_ (fun _ => .inl)
        (opens_of_clients (fun _ => threads_opens move) rfl rfl)
      intro fd mem
      simp [connected_copy] at mem
  next readSet clientFd at_ =>
      cases step
      refine ⟨fun fd mem => ?_, fun _ => .inl, by rintro fd ⟨⟩, fun _ => .inl, fun _ => .inl,
        by simp, by simp, by simp⟩
      exact (mem_of_mem_add mem).imp_right fun same => by simp [same]
  next readSet idx at_ =>
      split at step
      · cases step
        exact serverGoes_frame rfl
      · dsimp only at step
        split at step <;>
        · cases step
          exact serverGoes_frame rfl
  next readSet idx fd at_ =>
      split at step <;>
      · cases step
        exact serverGoes_frame rfl
  next readSet idx fd at_' at_ =>
      simp only [Option.map_eq_some_iff] at step
      obtain ⟨⟨m, next, ds⟩, block, eq⟩ := step
      cases eq
      obtain ⟨serv, strm, -, stream, opens⟩ := disconnect_frame block
      refine .of_plain (plain_events ds) serv strm ?_ ?_ opens
      · intro fd' mem
        cases next <;> cases mem
      · intro fd' mem
        exact .inl (stream ▸ mem)
  · cases step

/-- The response thread goes on and changes nothing that the loops see. -/
theorem responseGoes_frame {response : RunResponseAt} (plain : ∀ e ∈ es, e.Plain) :
    Frame s { s with response } es :=
  .of_plain plain (fun _ => id) (fun _ => id) (fun _ => .inl) (fun _ => .inl) fun _ => .inl

theorem trigger_frame {clientFd : Int} {time : Bool} (serverPath clientPath : Option String) :
    Frame s (s.trigger clientFd time serverPath clientPath).1
      (s.trigger clientFd time serverPath clientPath).2 := by
  unfold Loops.trigger
  split
  · exact responseGoes_frame (by simp)
  · exact responseGoes_frame (by simp [LoopEvent.Plain])

theorem executeStream_frame {clientFd : Int} {time : Bool} {r : Results} {at_ : StreamRequestAt}
    (step : s.executeStream clientFd time r at_ = some (t, es)) : Frame s t es := by
  cases at_ with
  | setFind | createFind | fdFind | serverFind | funcFind =>
      simp only [executeStream] at step
      split at step <;>
      · cases step
        exact responseGoes_frame (by simp)
  | malloc =>
      simp only [executeStream] at step
      split at step
      · cases step
        exact responseGoes_frame (by simp)
      · cases step
        exact responseGoes_frame (by simp [LoopEvent.Plain])
  | setRead | fdRead | serverRead =>
      cases step
      exact responseGoes_frame (by simp)
  | createStore idx =>
      simp only [executeStream] at step
      split at step
      · cases step
        exact .of_plain (plain_events _) (fun _ => id) (fun _ => id) (fun _ => .inl)
          (fun _ => .inl) (opens_of_clients (fun _ => streamSockets_opens) rfl rfl)
      · cases step
  | watch streamFd =>
      cases step
      refine ⟨fun _ => .inl, fun fd mem => ?_, fun _ => .inl, fun _ => .inl, fun _ => .inl,
        by simp, by simp, by simp⟩
      exact (mem_of_mem_add mem).imp_right fun same => by simp [same]
  | clientFind path =>
      simp only [executeStream] at step
      split at step
      · obtain eq := Option.some.inj step
        rw [← show _ = t from congrArg Prod.fst eq, ← show _ = es from congrArg Prod.snd eq]
        exact trigger_frame path none
      · cases step
        exact responseGoes_frame (by simp)
  | clientRead path idx =>
      simp only [executeStream, Option.some.injEq] at step
      rw [← show _ = t from congrArg Prod.fst step, ← show _ = es from congrArg Prod.snd step]
      exact trigger_frame path _
  | funcStore =>
      cases step
      exact .of_plain (by simp) (fun _ => id) (fun _ => id) (fun _ => .inl) (fun _ => .inl)
        fun _ => .inl
  | kill =>
      cases step
      refine responseGoes_frame ?_
      split <;> simp [LoopEvent.Plain]

theorem runResponse_frame {r : Results} (step : s.runResponse r = some (t, es)) :
    Frame s t es := by
  unfold runResponse at step
  split at step
  · cases step
  · exact executeStream_frame step
  next clientFd at_ here =>
      simp only [Option.map_eq_some_iff] at step
      obtain ⟨⟨m, next, ds⟩, block, eq⟩ := step
      cases eq
      obtain ⟨serv, strm, server, stream, opens⟩ := disconnect_frame block
      exact .of_plain (plain_events ds) serv strm (fun _ mem => .inl (server ▸ mem))
        (fun _ mem => .inl (stream ▸ mem)) opens

theorem step_frame {a : LoopAction} (step : machine.step s a = some (t, es)) : Frame s t es := by
  cases a with
  | server r => exact runServer_frame step
  | response r => exact runResponse_frame step
  | stream r => exact (runStream_move step).frame
  | request | disconnect =>
      simp only [machine] at step
      split at step
      · cases step
        exact responseGoes_frame (by simp)
      · cases step
  | stop =>
      cases step
      exact .of_plain (by simp) (fun _ => id) (fun _ => id) (fun _ => .inl) (fun _ => .inl)
        fun _ => .inl

/-! ### The sets stay open -/

theorem closedIn_eq_empty {set : Finset Int} (all : ∀ fd ∈ set, s.Open fd) :
    s.closedIn set = ∅ :=
  Finset.filter_eq_empty_iff.mpr fun fd mem => not_not.mpr (all fd mem)

theorem SetsOpen.pselectsOpen {a : LoopAction} (sets : SetsOpen s) : s.PselectsOpen a := by
  intro t es step
  have frame := step_frame step
  have server := closedIn_eq_empty sets.serverCopy
  have stream := closedIn_eq_empty sets.streamCopy
  refine ⟨fun closed mem => ?_, fun mem => ?_⟩
  · rcases frame.pselect closed mem with rfl | rfl
    · exact server
    · exact stream
  · rcases frame.failed mem with some_ | some_
    · simp [server] at some_
    · simp [stream] at some_

theorem SetsOpen.keep {a : LoopAction} (sets : SetsOpen s)
    (spares : s.SparesCopies a ∧ s.SparesSets a) (step : machine.step s a = some (t, es)) :
    SetsOpen t := by
  have frame := step_frame step
  have copies := spares.1 t es step
  obtain ⟨closed, registered⟩ := spares.2 t es step
  have still : ∀ {fd}, s.Open fd → .closed fd ∉ es → t.Open fd := fun isOpen kept =>
    (frame.opens _ isOpen).resolve_right kept
  have new : ∀ {fd}, .registered fd ∈ es → t.Open fd := fun mem =>
    still (registered _ mem) (frame.registers _ mem _)
  refine ⟨fun fd mem => ?_, fun fd mem => ?_, fun fd mem => ?_, fun fd mem => ?_⟩
  · rcases frame.serv fd mem with old | added
    · exact still (sets.serv fd old) fun gone => (closed fd gone).1 old
    · exact new added
  · rcases frame.strm fd mem with old | added
    · exact still (sets.strm fd old) fun gone => (closed fd gone).2 old
    · exact new added
  · rcases frame.serverCopy fd mem with old | copied
    · exact still (sets.serverCopy fd old) fun gone => (copies fd gone).1 old
    · exact still (sets.serv fd copied) fun gone => (closed fd gone).1 copied
  · rcases frame.streamCopy fd mem with old | copied
    · exact still (sets.streamCopy fd old) fun gone => (copies fd gone).2 old
    · exact still (sets.strm fd copied) fun gone => (closed fd gone).2 copied

end Loops

end OdroidPlayer
