import OdroidPlayer.Server.Loops

/-!
A STREAM request for the time beside the stream thread.

`set_new_stream` puts the stream into `strm_set` before `trigger_stream` gives it its
function, and the stream thread removes a ready stream that has no function. A request
whose stream is removed before it has read both paths is refused. After that nothing tells
it: `execute_command` answers SUCCESS with the paths of a stream that is gone.
-/

namespace OdroidPlayer

open Transition Transition.System

/-- The client whose two paths `execute_command` has read. -/
def RunResponseAt.answering : RunResponseAt → Option Int
  | .request clientFd _ (.funcFind ..) | .request clientFd _ (.funcStore ..)
  | .request clientFd _ (.kill ..) => some clientFd
  | _ => none

/-- The slot whose stream the next statement closes. -/
def RunStreamAt.clearing : RunStreamAt → Option Nat
  | .removing _ _ (.close _ idx) => some idx
  | _ => none

namespace Loops

/-- The response thread executes requests for the time, the stream thread runs; no client is
accepted or disconnected. -/
def TimeRequests (_ : Loops) : LoopAction → Prop
  | .server _ | .disconnect _ => False
  | .request _ time => time = true
  | .response _ | .stream _ | .stop => True

/-- The stream thread does not close the stream of a client whose two paths the response
thread has read for the request it executes. -/
def Undisturbed (s : Loops) : LoopAction → Prop
  | .stream _ => ∀ idx ∈ s.stream.clearing, ∀ clientFd ∈ s.response.answering,
      findClientIndex clientFd s.pool .clientFd ≠ some idx
  | _ => True

instance (s : Loops) (a : LoopAction) : Decidable (s.TimeRequests a) := by
  cases a <;> unfold TimeRequests <;> infer_instance

instance (s : Loops) (a : LoopAction) : Decidable (s.Undisturbed a) := by
  cases a <;> unfold Undisturbed <;> infer_instance

/-- The client has a stream with these paths that sends the time. -/
def SendsTime (s : Loops) (clientFd : Int) (serverPath clientPath : String) : Prop :=
  ∃ idx, findClientIndex clientFd s.pool .clientFd = some idx ∧
    (s.pool.slot idx).serverStreamPath = some serverPath ∧
    (s.pool.slot idx).clientStreamPath = some clientPath ∧
    0 < (s.pool.slot idx).streamFd ∧ (s.pool.slot idx).streamFunc = some .getStreamTime

/-- A step that ends a request with SUCCESS leaves the client the stream it is told of. -/
def SucceedsRightly (s : Loops) (a : LoopAction) : Prop :=
  ∀ t es, machine.step s a = some (t, es) → ∀ clientFd serverPath clientPath,
    .succeeded clientFd serverPath clientPath ∈ es → t.SendsTime clientFd serverPath clientPath

end Loops

/-! ### What the request has found -/

/-- The slot still holds the stream of the two paths. -/
def Client.Holds (client : Client) (serverPath clientPath : String) : Prop :=
  0 < client.streamFd ∧ client.serverStreamPath = some serverPath ∧
    client.clientStreamPath = some clientPath

/-- A stream that has gone has not come back with another path. -/
def Client.KeepsPath (client : Client) (serverPath : Option String) : Prop :=
  ∀ path ∈ serverPath, client.NoStream ∨ client.serverStreamPath = some path

/-- What the request may rely on at its next statement. -/
def StreamRequestAt.Sound (pool : Pool) (clientFd : Int) : StreamRequestAt → Prop
  | .serverRead idx => findClientIndex clientFd pool .clientFd = some idx
  | .clientFind serverPath =>
      ∀ idx, findClientIndex clientFd pool .clientFd = some idx →
        (pool.slot idx).KeepsPath serverPath
  | .clientRead serverPath idx =>
      findClientIndex clientFd pool .clientFd = some idx ∧ (pool.slot idx).KeepsPath serverPath
  | .funcFind serverPath clientPath =>
      ∃ idx, findClientIndex clientFd pool .clientFd = some idx ∧
        (pool.slot idx).Holds serverPath clientPath
  | .funcStore serverPath clientPath idx =>
      findClientIndex clientFd pool .clientFd = some idx ∧
        (pool.slot idx).Holds serverPath clientPath
  | .kill serverPath clientPath =>
      ∃ idx, findClientIndex clientFd pool .clientFd = some idx ∧
        (pool.slot idx).Holds serverPath clientPath ∧
        (pool.slot idx).streamFunc = some .getStreamTime
  | _ => True

namespace Loops

structure Requesting (s : Loops) : Prop where
  whole : ∀ i, (s.pool.slot i).NoStream ∨ (s.pool.slot i).HasStream
  request : ∀ clientFd time at_, s.response = .request clientFd time at_ →
    time = true ∧ at_.Sound s.pool clientFd
  connected : ∀ clientFd at_, s.response ≠ .disconnecting clientFd at_

end Loops

section Slots

variable {pool pool' : Pool} {w : World} {clientFd : Int} {at_ : StreamRequestAt} {idx i : Nat}

/-- A slot that has a client path has the server path that was read before. -/
theorem Client.KeepsPath.holds {client : Client} {serverPath clientPath : String}
    (keeps : client.KeepsPath (some serverPath)) (whole : client.NoStream ∨ client.HasStream)
    (path : client.clientStreamPath = some clientPath) : client.Holds serverPath clientPath := by
  have stream : ¬ client.NoStream := fun none => by simp [none.2.2] at path
  exact ⟨(whole.resolve_left stream).1, (keeps serverPath rfl).resolve_left stream, path⟩

theorem findClientIndex_clearStream (fd : Int) (idx : Nat) (w : World) :
    findClientIndex fd (clearStream idx w).pool .clientFd =
      findClientIndex fd w.pool .clientFd := by
  have same : (clearStream idx w).pool.fds = w.pool.fds := w.pool.fds_store_slot idx rfl
  rw [findClientIndex_eq, same, ← findClientIndex_eq]

theorem clearStream_slot (idx i : Nat) (w : World) :
    (clearStream idx w).pool.slot i = w.pool.slot i ∨
      ((clearStream idx w).pool.slot i).NoStream := by
  rcases w.pool.slot_store idx i { w.pool.slot idx with
    streamFd := 0, serverStreamPath := none, clientStreamPath := none } with ⟨-, cleared⟩ | old
  · right
    rw [clearStream, cleared]
    exact ⟨rfl, rfl, rfl⟩
  · exact .inl old

theorem findClientIndex_setFuncAt (fd : Int) (idx : Nat) (pool : Pool) :
    findClientIndex fd (setFuncAt idx .getStreamTime pool) .clientFd =
      findClientIndex fd pool .clientFd := by
  have same : (setFuncAt idx .getStreamTime pool).fds = pool.fds := pool.fds_store_slot idx rfl
  rw [findClientIndex_eq, same, ← findClientIndex_eq]

/-- Another thread takes streams away, but not one that the request has found. -/
theorem StreamRequestAt.Sound.change (time : Bool) (sound : at_.Sound pool clientFd)
    (find : findClientIndex clientFd pool' .clientFd = findClientIndex clientFd pool .clientFd)
    (slots : ∀ i, pool'.slot i = pool.slot i ∨ (pool'.slot i).NoStream)
    (calm : ∀ idx, findClientIndex clientFd pool .clientFd = some idx →
      clientFd ∈ (RunResponseAt.request clientFd time at_).answering →
        pool'.slot idx = pool.slot idx) : at_.Sound pool' clientFd := by
  have keeps : ∀ {idx serverPath}, (pool.slot idx).KeepsPath serverPath →
      (pool'.slot idx).KeepsPath serverPath := by
    intro idx serverPath keeps path mem
    rcases slots idx with same | gone
    · rw [same]
      exact keeps path mem
    · exact .inl gone
  cases at_ with
  | serverRead idx => exact find.trans sound
  | clientFind serverPath => exact fun idx found => keeps (sound idx (find ▸ found))
  | clientRead serverPath idx => exact ⟨find.trans sound.1, keeps sound.2⟩
  | funcFind serverPath clientPath =>
      obtain ⟨idx, found, holds⟩ := sound
      exact ⟨idx, find.trans found, (calm idx found rfl).symm ▸ holds⟩
  | funcStore serverPath clientPath idx =>
      obtain ⟨found, holds⟩ := sound
      exact ⟨find.trans found, (calm idx found rfl).symm ▸ holds⟩
  | kill serverPath clientPath =>
      obtain ⟨idx, found, holds, func⟩ := sound
      have same := calm idx found rfl
      exact ⟨idx, find.trans found, same.symm ▸ holds, same.symm ▸ func⟩
  | setFind | setRead | createFind | createStore | fdFind | fdRead | watch | malloc | serverFind =>
      trivial

theorem createSocketUds_nonneg (env : SocketEnv) (type : SocketType) (path : String)
    (files : List String) : 0 ≤ (createSocketUds env type path files).1 := by
  unfold createSocketUds
  split
  · exact Int.le_refl 0
  · dsimp only
    split
    · exact Int.le_refl 0
    · split
      · exact Int.le_refl 0
      · exact Int.natCast_nonneg _

/-- `create_client_stream` leaves every slot as it is or gives one a stream. -/
theorem createStreamAt_slots (env : SocketEnv) (idx : Nat) (w : World) :
    (∀ fd, findClientIndex fd (createStreamAt env idx w).2.1.pool .clientFd =
      findClientIndex fd w.pool .clientFd) ∧
    ∀ i, (createStreamAt env idx w).2.1.pool.slot i = w.pool.slot i ∨
      ((createStreamAt env idx w).2.1.pool.slot i).HasStream := by
  have nonneg := fun path files => createSocketUds_nonneg env .dgram path files
  unfold createStreamAt
  dsimp only
  split
  next serverSocket clientSocket _ _ =>
      split
      · exact ⟨fun _ => rfl, fun _ => .inl rfl⟩
      next streamFd files es other result =>
          have pos : 0 < streamFd := by
            have le := nonneg serverSocket (unlink (w.pool.slot idx).clientStreamPath
              (unlink (w.pool.slot idx).serverStreamPath w.files))
            rw [result] at le
            have ne : streamFd ≠ 0 := other
            omega
          refine ⟨fun fd => findClientIndex_withStream streamFd fd w.pool idx serverSocket
            clientSocket, fun i => ?_⟩
          rcases w.pool.slot_store idx i
            ((w.pool.slot idx).withStream streamFd serverSocket clientSocket) with ⟨-, set⟩ | old
          · have stream : ((w.pool.slot idx).withStream streamFd serverSocket
                clientSocket).HasStream := ⟨pos, rfl, rfl⟩
            exact .inr (set ▸ stream)
          · exact .inl old
  · exact ⟨fun _ => rfl, fun _ => .inl rfl⟩

end Slots

namespace Loops

variable {s t : Loops} {es : List LoopEvent} {r : Results}

/-- The stream thread. -/
theorem Requesting.stream (requesting : Requesting s) (calm : s.Undisturbed (.stream r))
    (move : StreamMove s t es) : Requesting t := by
  cases move with
  | copies | selects | goes | unwatches =>
      exact ⟨requesting.whole, requesting.request, requesting.connected⟩
  | @closes writeSet idx found streamFd at_ =>
      have find := fun fd => findClientIndex_clearStream fd found s.clients.world
      have slots := fun i => clearStream_slot found i s.clients.world
      refine ⟨fun i => ?_, fun clientFd time at_' eq => ?_, requesting.connected⟩
      · rcases slots i with same | gone
        · exact same ▸ requesting.whole i
        · exact .inl gone
      · obtain ⟨time_, sound⟩ := requesting.request clientFd time at_' eq
        refine ⟨time_, sound.change time (find clientFd) slots fun idx' here answering => ?_⟩
        refine s.clients.world.pool.slot_store_ne _ ?_
        rintro rfl
        refine calm idx' ?_ clientFd ?_ here
        · rw [at_]
          rfl
        · rw [show s.response = _ from eq]
          exact answering

/-- The request goes to its next statement, and the pool is as it was. -/
theorem Requesting.atRequest (requesting : Requesting s) {clientFd : Int} {at_ : StreamRequestAt}
    (sound : at_.Sound s.pool clientFd) : Requesting (s.atRequest clientFd true at_) := by
  refine ⟨requesting.whole, ?_, ?_⟩
  · rintro _ _ _ ⟨⟩
    exact ⟨rfl, sound⟩
  · rintro _ _ ⟨⟩

/-- The request changes the pool and goes to its next statement. -/
theorem Requesting.setClients (_ : Requesting s) {clients : Threads} {clientFd : Int}
    {at_ : StreamRequestAt} (whole : ∀ i, (clients.pool.slot i).NoStream ∨
      (clients.pool.slot i).HasStream) (sound : at_.Sound clients.pool clientFd) :
    Requesting ({ s with clients }.atRequest clientFd true at_) := by
  refine ⟨whole, ?_, ?_⟩
  · rintro _ _ _ ⟨⟩
    exact ⟨rfl, sound⟩
  · rintro _ _ ⟨⟩

theorem Requesting.waiting (requesting : Requesting s) :
    Requesting { s with response := .waiting } := by
  refine ⟨requesting.whole, ?_, ?_⟩
  · rintro _ _ _ ⟨⟩
  · rintro _ _ ⟨⟩

/-- When both paths have been found the slot holds their stream. -/
theorem Requesting.trigger (requesting : Requesting s) {clientFd : Int}
    {serverPath clientPath : Option String}
    (sound : ∀ server path, serverPath = some server → clientPath = some path →
      (StreamRequestAt.funcFind server path).Sound s.pool clientFd) :
    Requesting (s.trigger clientFd true serverPath clientPath).1 := by
  cases serverPath with
  | none => exact requesting.waiting
  | some server =>
      cases clientPath with
      | none => exact requesting.waiting
      | some path => exact requesting.atRequest (sound server path rfl rfl)

theorem Requesting.response (requesting : Requesting s)
    (step : s.runResponse r = some (t, es)) : Requesting t := by
  unfold runResponse at step
  split at step
  · cases step
  next clientFd time at_ here =>
      obtain ⟨rfl, sound⟩ := requesting.request clientFd time at_ here
      cases at_ with
      | setFind | createFind | fdFind =>
          simp only [executeStream] at step
          split at step <;>
          · cases step
            exact requesting.atRequest trivial
      | setRead idx | fdRead idx =>
          simp only [executeStream, Option.some.injEq, Prod.mk.injEq] at step
          rw [← step.1]
          refine requesting.atRequest ?_
          split <;> trivial
      | createStore idx =>
          simp only [executeStream] at step
          split at step
          · simp only [Option.some.injEq, Prod.mk.injEq] at step
            rw [← step.1]
            refine requesting.setClients (fun i => ?_) (by split <;> trivial)
            rcases (createStreamAt_slots r.socket idx s.clients.world).2 i with same | stream
            · exact (congrArg (fun client => client.NoStream ∨ client.HasStream) same).mpr
                (requesting.whole i)
            · exact .inr stream
          · cases step
      | watch streamFd =>
          cases step
          exact ⟨requesting.whole, by rintro _ _ _ ⟨⟩; exact ⟨rfl, trivial⟩, by rintro _ _ ⟨⟩⟩
      | malloc =>
          simp only [executeStream] at step
          split at step
          · cases step
            exact requesting.atRequest trivial
          · cases step
            exact requesting.waiting
      | serverFind =>
          simp only [executeStream] at step
          split at step
          next none =>
              cases step
              exact requesting.atRequest (by simp [StreamRequestAt.Sound, none])
          next idx found =>
              cases step
              exact requesting.atRequest found
      | serverRead idx =>
          cases step
          refine requesting.atRequest fun idx' found path mem => .inr ?_
          obtain rfl : idx = idx' := Option.some.inj (sound.symm.trans found)
          split at mem
          · exact mem
          · cases mem
      | clientFind serverPath =>
          simp only [executeStream] at step
          split at step
          · rw [← show _ = t from congrArg Prod.fst (Option.some.inj step)]
            exact requesting.trigger (by rintro _ _ _ ⟨⟩)
          next idx found =>
              cases step
              exact requesting.atRequest ⟨found, sound idx found⟩
      | clientRead serverPath idx =>
          simp only [executeStream, Option.some.injEq] at step
          rw [← show _ = t from congrArg Prod.fst step]
          refine requesting.trigger fun server path eq eq' => ⟨idx, sound.1, ?_⟩
          subst eq
          split at eq'
          · exact sound.2.holds (requesting.whole idx) eq'
          · cases eq'
      | funcFind serverPath clientPath =>
          obtain ⟨idx, found, holds⟩ := sound
          simp only [executeStream, found, Option.some.injEq, Prod.mk.injEq] at step
          rw [← step.1]
          exact requesting.atRequest ⟨found, holds⟩
      | funcStore serverPath clientPath idx =>
          cases step
          obtain ⟨found, holds⟩ := sound
          have set : (setFuncAt idx .getStreamTime s.pool).slot idx =
              { s.pool.slot idx with streamFunc := some .getStreamTime } :=
            s.pool.slot_store_self _ (findClientIndex_slot found).2.1
          refine requesting.setClients (fun i => ?_) ⟨idx, ?_, ?_, ?_⟩
          · rcases s.pool.slot_store idx i
              { s.pool.slot idx with streamFunc := some .getStreamTime } with ⟨rfl, new⟩ | old
            · exact (congrArg (fun client => client.NoStream ∨ client.HasStream) new).mpr
                (requesting.whole i)
            · exact (congrArg (fun client => client.NoStream ∨ client.HasStream) old).mpr
                (requesting.whole i)
          · exact (findClientIndex_setFuncAt clientFd idx s.pool).trans found
          · exact (congrArg (fun client => client.Holds serverPath clientPath) set).mpr holds
          · exact congrArg Client.streamFunc set
      | kill serverPath clientPath =>
          cases step
          exact requesting.waiting
  next clientFd at_ here => exact absurd here (requesting.connected clientFd at_)

/-- A request ends with SUCCESS at `pthread_kill` and nowhere else. -/
theorem executeStream_succeeded {clientFd fd : Int} {time : Bool} {at_ : StreamRequestAt}
    {serverPath clientPath : String} (step : s.executeStream clientFd time r at_ = some (t, es))
    (ends : .succeeded fd serverPath clientPath ∈ es) :
    fd = clientFd ∧ at_ = .kill serverPath clientPath ∧ t = { s with response := .waiting } := by
  cases at_ with
  | setFind | createFind | fdFind | serverFind | malloc | funcFind =>
      simp only [executeStream] at step
      split at step <;>
      · cases step
        simp at ends
  | setRead | fdRead | watch | serverRead | funcStore =>
      cases step
      simp at ends
  | createStore idx =>
      simp only [executeStream] at step
      split at step
      · cases step
        obtain ⟨d, _, eq⟩ := List.mem_map.mp ends
        cases d <;> cases eq
      · cases step
  | clientFind path =>
      simp only [executeStream] at step
      split at step
      · rw [← show _ = es from congrArg Prod.snd (Option.some.inj step)] at ends
        simp [Loops.trigger] at ends
      · cases step
        simp at ends
  | clientRead path idx =>
      simp only [executeStream, Option.some.injEq] at step
      rw [← show _ = es from congrArg Prod.snd step] at ends
      unfold Loops.trigger at ends
      split at ends <;> simp at ends
  | kill =>
      cases step
      split at ends
      · cases List.mem_singleton.mp ends
        exact ⟨rfl, rfl, rfl⟩
      · cases List.mem_singleton.mp ends

theorem Requesting.keep {a : LoopAction} (requesting : Requesting s)
    (calm : s.TimeRequests a ∧ s.Undisturbed a) (step : machine.step s a = some (t, es)) :
    Requesting t := by
  cases a with
  | server | disconnect => exact calm.1.elim
  | response r => exact requesting.response step
  | stream r => exact requesting.stream calm.2 (runStream_move step)
  | request clientFd time =>
      obtain rfl : time = true := calm.1
      simp only [machine] at step
      split at step
      · cases step
        exact requesting.atRequest trivial
      · cases step
  | stop =>
      cases step
      exact ⟨requesting.whole, requesting.request, requesting.connected⟩

theorem Requesting.succeedsRightly {a : LoopAction} (requesting : Requesting s)
    (calm : s.TimeRequests a ∧ s.Undisturbed a) : s.SucceedsRightly a := by
  intro t es step clientFd serverPath clientPath ends
  cases a with
  | server | disconnect => exact calm.1.elim
  | response r =>
      simp only [machine, runResponse] at step
      split at step
      · cases step
      next fd time at_ here =>
          obtain ⟨rfl, rfl, rfl⟩ := executeStream_succeeded step ends
          obtain ⟨-, idx, found, ⟨pos, server, path⟩, func⟩ := requesting.request _ _ _ here
          exact ⟨idx, found, server, path, pos, func⟩
      next fd at_ here => exact absurd here (requesting.connected fd at_)
  | stream r =>
      cases runStream_move step with
      | copies | goes | unwatches | closes => simp at ends
      | selects _ _ _ selects =>
          rcases selects.quiet _ ends with eq | ⟨_, eq⟩
          · cases eq
          · cases eq
  | request =>
      simp only [machine] at step
      split at step
      · cases step
        simp at ends
      · cases step
  | stop =>
      cases step
      simp at ends

/-- Beside requests for the time and the stream thread nothing else runs. If the stream thread
closes no stream whose paths have been read for the request under way, each request that
ends with SUCCESS leaves its client the stream of the paths it is told, sending the time. -/
theorem succeeds_rightly {server : Server} {as : List LoopAction} (between : Between s server)
    (only : machine.Along TimeRequests s as) (calm : machine.Along Undisturbed s as) :
    machine.Along SucceedsRightly s as := by
  have start : Requesting s := by
    refine ⟨fun i => ?_, ?_, ?_⟩
    · have agrees := (agrees_reached between.reach).1
      rw [pool, Threads.pool, between.world]
      exact agrees.whole i
    · intro clientFd time at_ eq
      rw [between.response] at eq
      cases eq
    · intro clientFd at_ eq
      rw [between.response] at eq
      cases eq
  exact along_of_inv (fun _ _ _ _ requesting calm step => requesting.keep calm step)
    (fun _ _ requesting calm => requesting.succeedsRightly calm) start (along_and only calm)

/-- The steps of a request by client 4, up to the end of `get_client_stream_path`. -/
def makesStream : List LoopAction :=
  .request 4 true :: List.replicate 12 (.response (goesWell ∅))

/-- The stream thread serves client 5 meanwhile. -/
def triggered : List LoopAction :=
  List.replicate 9 (.stream (goesWell {6})) ++ makesStream ++
    List.replicate 3 (.response (goesWell ∅)) ++ List.replicate 12 (.stream (goesWell {6}))

/-- The stream thread comes to the new stream before it has its function. -/
def untriggered : List LoopAction :=
  makesStream ++ List.replicate 17 (.stream (goesWell {7})) ++
    List.replicate 3 (.response (goesWell ∅))

theorem triggered_rightly : machine.Along SucceedsRightly (ofServer twoClients) triggered :=
  succeeds_rightly twoClients_between (by decide) (by decide)

def removedEvents : List LoopEvent :=
  [.opened 7, .registered 7, .pselect ∅, .closed 7,
    .succeeded 4 "/tmp/ops_stream1.sock" "/tmp/opc_stream0.sock"]

theorem untriggered_removed : Between (ofServer twoClients) twoClients ∧
    machine.Along TimeRequests (ofServer twoClients) untriggered ∧
    ∃ t, machine.exec (ofServer twoClients) untriggered = some (t, removedEvents) ∧
      findClientIndex 4 t.pool .clientFd = some 0 ∧ (t.pool.slot 0).NoStream := by
  refine ⟨twoClients_between, along_of_forall ?_ _, _, rfl, rfl, rfl, rfl, rfl⟩
  simp [untriggered, makesStream, TimeRequests]

end Loops

end OdroidPlayer
