import OdroidPlayer.Server.Select
import OdroidPlayer.Message

/-!
What becomes of a connection that `accept` has returned.

`run_server` and `connect_new_client` are cut into the statements that read or write
something shared; between any two of them the other threads may change the pool, the
sets and the open descriptors. `connect_new_client` answers every failure with 0. When
the pool is full it has not closed the connection, and `run_server`, which has only the 0,
refuses and closes descriptor 0 in its place.
-/

namespace OdroidPlayer

open Transition.System

/-- The statement that the server thread executes next. -/
inductive AcceptAt where
  /-- `wait_fd`, up to the call of `accept` -/
  | waiting
  /-- `get_client_cnt` -/
  | counting (clientFd : Int)
  | adding (clientFd : Int)
  /-- the block of `run_server` for `full` -/
  | refusing
  /-- the block for an `add_client` that has failed -/
  | discarding (clientFd : Int)
  /-- `update_fd_set` -/
  | registering (clientFd : Int)
  /-- `assert(client_fd > 0)` in `add_client` has failed -/
  | aborted
  deriving DecidableEq, Repr

structure Acceptor where
  pool : Pool
  serv : Watch
  clientId : Int
  opened : Finset Int
  at_ : AcceptAt

inductive AcceptEvent where
  | accepted (fd : Int)
  /-- `*full = true` -/
  | refused (fd : Int)
  /-- `send_notify_message` -/
  | notified (fd : Int) (status : Status)
  | closed (fd : Int)
  | added (fd : Int)
  /-- in `serv_set` -/
  | watched (fd : Int)
  deriving DecidableEq, Repr

inductive AcceptAction where
  | accept (result : Option Int)
  | serve
  /-- the other threads, and the loop over the clients -/
  | others (pool : Pool) (serv : Watch) (opened : Finset Int)

/-- `accept` returns a descriptor that is not open. -/
def acceptConnection (s : Acceptor) : Option Int → Option (Acceptor × List AcceptEvent)
  | none => if s.at_ = .waiting then some (s, []) else none
  | some fd =>
      if s.at_ = .waiting ∧ 0 ≤ fd ∧ fd ∉ s.opened then
        some ({ s with opened := insert fd s.opened, at_ := .counting fd }, [.accepted fd])
      else none

/-- The rest of `connect_new_client`, and what `run_server` does with its result. -/
def serveConnection (s : Acceptor) : Option (Acceptor × List AcceptEvent) :=
  match s.at_ with
  | .counting fd =>
      if getClientCnt s.pool < 0 then
        some ({ s with opened := s.opened.erase fd, at_ := .waiting }, [.closed fd])
      else if maxClients ≤ getClientCnt s.pool then
        some ({ s with at_ := .refusing }, [.refused fd])
      else some ({ s with at_ := .adding fd }, [])
  | .adding fd =>
      if fd ≤ 0 then some ({ s with at_ := .aborted }, [])
      else match addClient s.clientId fd s.pool with
        | none => some ({ s with clientId := s.clientId + 1, at_ := .discarding fd }, [])
        | some pool =>
            some ({ s with pool, clientId := s.clientId + 1, at_ := .registering fd }, [.added fd])
  | .refusing =>
      some ({ s with opened := s.opened.erase 0, at_ := .waiting },
        [.notified 0 .toomany, .closed 0])
  | .discarding fd =>
      some ({ s with opened := s.opened.erase fd, at_ := .waiting },
        [.notified fd .eserver, .closed fd])
  | .registering fd =>
      some ({ s with serv := updateFdSet fd s.serv .add, at_ := .waiting }, [.watched fd])
  | .waiting | .aborted => none

/-- Nobody else closes descriptor 0. -/
def acceptStep (s : Acceptor) : AcceptAction → Option (Acceptor × List AcceptEvent)
  | .accept result => acceptConnection s result
  | .serve => serveConnection s
  | .others pool serv opened =>
      if 0 ∈ s.opened → 0 ∈ opened then some ({ s with pool, serv, opened }, []) else none

def acceptor : Transition.System Acceptor AcceptAction AcceptEvent := ⟨acceptStep⟩

/-! ### The account of a connection -/

/-- The connection that the events so far have not settled. -/
inductive Hand where
  | empty
  | held (fd : Int)
  | refused (fd : Int)
  /-- refused, and told so -/
  | told (fd : Int)
  | added (fd : Int)
  deriving DecidableEq, Repr

/-- A connection is added and watched, or it is closed, after a STATUS__TOOMANY when it is
refused; nothing else is written to or closed. -/
def Hand.follow : Hand → AcceptEvent → Option Hand
  | .empty, .accepted fd => some (.held fd)
  | .held fd, .refused fd' => if fd' = fd then some (.refused fd) else none
  | .held fd, .notified fd' _ => if fd' = fd then some (.held fd) else none
  | .held fd, .closed fd' => if fd' = fd then some .empty else none
  | .held fd, .added fd' => if fd' = fd then some (.added fd) else none
  | .refused fd, .notified fd' status =>
      if fd' = fd ∧ status = .toomany then some (.told fd) else none
  | .told fd, .closed fd' => if fd' = fd then some .empty else none
  | .added fd, .watched fd' => if fd' = fd then some .empty else none
  | _, _ => none

/-- The account of a run; `none` when an event is out of place. -/
def settle (log : List AcceptEvent) : Option Hand := log.foldlM Hand.follow .empty

theorem settle_append (front back : List AcceptEvent) :
    settle (front ++ back) = (settle front).bind fun hand => back.foldlM Hand.follow hand :=
  List.foldlM_append

/-- When the clients are counted there is room for one more. -/
def Room (s : Acceptor) (a : AcceptAction) : Prop :=
  a = .serve → ∀ fd, s.at_ = .counting fd → getClientCnt s.pool < maxClients

/-- What is in hand at a statement while every connection finds room. -/
def AcceptAt.hand : AcceptAt → Hand
  | .counting fd | .adding fd | .discarding fd => .held fd
  | .registering fd => .added fd
  | .waiting | .refusing | .aborted => .empty

/-- The connection of a statement is a client's. -/
def AcceptAt.Sound : AcceptAt → Prop
  | .counting fd | .adding fd | .discarding fd | .registering fd => 0 < fd
  | .waiting => True
  | .refusing | .aborted => False

structure Settled (s : Acceptor) (log : List AcceptEvent) : Prop where
  zero : 0 ∈ s.opened
  sound : s.at_.Sound
  account : settle log = some s.at_.hand

section Settled

variable {s t : Acceptor} {a : AcceptAction} {log es : List AcceptEvent}

theorem Settled.keep (settled : Settled s log) (room : Room s a)
    (step : acceptor.step s a = some (t, es)) : Settled t (log ++ es) := by
  obtain ⟨zero, sound, account⟩ := settled
  cases a with
  | others pool serv opened =>
      simp only [acceptor, acceptStep] at step
      split at step
      next keeps =>
          cases step
          exact ⟨keeps zero, sound, by simpa using account⟩
      · cases step
  | accept result =>
      simp only [acceptor, acceptStep] at step
      cases result with
      | none =>
          simp only [acceptConnection] at step
          split at step
          · cases step
            exact ⟨zero, sound, by simpa using account⟩
          · cases step
      | some fd =>
          simp only [acceptConnection] at step
          split at step
          next enabled =>
              cases step
              obtain ⟨here, nonneg, notOpen⟩ := enabled
              have pos : 0 < fd := lt_of_le_of_ne nonneg fun is => notOpen (is ▸ zero)
              refine ⟨Finset.mem_insert_of_mem zero, pos, ?_⟩
              rw [settle_append, account, here]
              rfl
          · cases step
  | serve =>
      simp only [acceptor, acceptStep] at step
      cases here : s.at_ with
      | waiting | aborted => simp [serveConnection, here] at step
      | refusing => simp [here, AcceptAt.Sound] at sound
      | counting fd =>
          have fits : ¬ (maxClients : Int) ≤ getClientCnt s.pool := not_le.mpr (room rfl fd here)
          have pos : 0 < fd := by simpa [here, AcceptAt.Sound] using sound
          simp only [serveConnection, here, if_neg fits] at step
          split at step
          · cases step
            refine ⟨Finset.mem_erase.mpr ⟨ne_of_lt pos, zero⟩, trivial, ?_⟩
            rw [settle_append, account, here]
            simp [AcceptAt.hand, Hand.follow]
          · cases step
            exact ⟨zero, pos, by simpa [here, AcceptAt.hand] using account⟩
      | adding fd =>
          have pos : 0 < fd := by simpa [here, AcceptAt.Sound] using sound
          simp only [serveConnection, here, if_neg (not_le.mpr pos)] at step
          split at step
          · cases step
            exact ⟨zero, pos, by simpa [here, AcceptAt.hand] using account⟩
          · cases step
            refine ⟨zero, pos, ?_⟩
            rw [settle_append, account, here]
            simp [AcceptAt.hand, Hand.follow]
      | discarding fd =>
          have pos : 0 < fd := by simpa [here, AcceptAt.Sound] using sound
          simp only [serveConnection, here, Option.some.injEq, Prod.mk.injEq] at step
          obtain ⟨rfl, rfl⟩ := step
          refine ⟨Finset.mem_erase.mpr ⟨ne_of_lt pos, zero⟩, trivial, ?_⟩
          rw [settle_append, account, here]
          simp [AcceptAt.hand, Hand.follow]
      | registering fd =>
          simp only [serveConnection, here, Option.some.injEq, Prod.mk.injEq] at step
          obtain ⟨rfl, rfl⟩ := step
          refine ⟨zero, trivial, ?_⟩
          rw [settle_append, account, here]
          simp [AcceptAt.hand, Hand.follow]

theorem Settled.exec {as : List AcceptAction} (start : Settled s [])
    (room : acceptor.Along Room s as) (run : acceptor.exec s as = some (t, log)) : Settled t log :=
  exec_rec_of_along (I := Settled) (fun _ _ _ _ _ settled room step => settled.keep room step)
    room [] start run

/-- A refused connection is not settled: 0 is notified and closed in its place. -/
theorem refusing_run {as : List AcceptAction} (here : s.at_ = .refusing)
    (run : acceptor.exec s as = some (t, log)) :
    (t.at_ = .refusing ∧ log = []) ∨ ∃ rest, log = .notified 0 .toomany :: rest := by
  let I := fun (u : Acceptor) (before : List AcceptEvent) =>
    (u.at_ = .refusing ∧ before = []) ∨ ∃ rest, before = .notified 0 .toomany :: rest
  have keep : ∀ (u : Acceptor) (before : List AcceptEvent) (a : AcceptAction) (v : Acceptor)
      (es : List AcceptEvent), I u before → acceptor.step u a = some (v, es) →
      I v (before ++ es) := by
    rintro u before a v es (⟨here, rfl⟩ | ⟨rest, rfl⟩) step
    · cases a with
      | accept result =>
          cases result <;> simp [acceptor, acceptStep, acceptConnection, here] at step
      | serve =>
          simp only [acceptor, acceptStep, serveConnection, here, Option.some.injEq,
            Prod.mk.injEq] at step
          obtain ⟨rfl, rfl⟩ := step
          exact .inr ⟨[.closed 0], rfl⟩
      | others pool serv opened =>
          simp only [acceptor, acceptStep] at step
          split at step
          · cases step
            exact .inl ⟨here, rfl⟩
          · cases step
    · exact .inr ⟨rest ++ es, rfl⟩
  exact exec_rec (I := I) keep [] (.inl ⟨here, rfl⟩) run

/-- A step that finds no room refuses the connection in hand. -/
theorem not_room_step {m : Acceptor} (broken : ¬ Room s a) (sound : s.at_.Sound)
    (step : acceptor.step s a = some (m, es)) :
    ∃ fd, s.at_ = .counting fd ∧ 0 < fd ∧ m.at_ = .refusing ∧ es = [.refused fd] := by
  simp only [Room, not_forall] at broken
  obtain ⟨rfl, fd, here, full⟩ := broken
  have full' : (maxClients : Int) ≤ getClientCnt s.pool := not_lt.mp full
  have counted : ¬ getClientCnt s.pool < 0 := by
    simp only [maxClients] at full'
    omega
  simp only [acceptor, acceptStep, serveConnection, here, if_neg counted, if_pos full',
    Option.some.injEq, Prod.mk.injEq] at step
  obtain ⟨rfl, rfl⟩ := step
  exact ⟨fd, here, by simpa [here, AcceptAt.Sound] using sound, rfl, rfl⟩

/-- What `added` and `watched` say is so. -/
theorem registered_step (step : acceptor.step s a = some (t, es)) (fd : Int) :
    (.added fd ∈ es → fd ∈ t.pool.fds) ∧ (.watched fd ∈ es → 0 < fd → fd ∈ t.serv.set) := by
  cases a with
  | others pool serv opened =>
      simp only [acceptor, acceptStep] at step
      split at step <;> cases step
      simp
  | accept result =>
      cases result <;> simp only [acceptor, acceptStep, acceptConnection] at step <;>
        split at step <;> cases step <;> simp
  | serve =>
      simp only [acceptor, acceptStep, serveConnection] at step
      split at step
      · split at step
        · cases step
          simp
        · split at step <;> cases step <;> simp
      · split at step
        · cases step
          simp
        · split at step
          · cases step
            simp
          next pool added =>
              obtain ⟨idx, _, free, rfl⟩ := addClient_some added
              cases step
              refine ⟨fun mem => ?_, by simp⟩
              obtain rfl : fd = _ := by simpa using mem
              rw [fillClient_fds]
              exact List.mem_set (List.getElem?_eq_some_iff.mp free).1 _
      · cases step
        simp
      · cases step
        simp
      · cases step
        refine ⟨by simp, fun mem pos => ?_⟩
        obtain rfl : fd = _ := by simpa using mem
        exact (mem_updateFdSet_add pos).mpr (.inl rfl)
      · cases step
      · cases step

/-- The connections of a run are settled exactly when each of them found room, and then
`add_client` is not called with 0. -/
theorem settled_iff {as : List AcceptAction} (zero : 0 ∈ s.opened) (first : s.at_ = .waiting)
    (run : acceptor.exec s as = some (t, log)) :
    (t.at_ = .waiting → (settle log = some .empty ↔ acceptor.Along Room s as)) ∧
      (acceptor.Along Room s as → t.at_ ≠ .aborted) ∧
      ∀ a u es fd, acceptor.step t a = some (u, es) →
        (.added fd ∈ es → fd ∈ u.pool.fds) ∧ (.watched fd ∈ es → 0 < fd → fd ∈ u.serv.set) := by
  have start : Settled s [] := ⟨zero, first ▸ trivial, by rw [first]; rfl⟩
  refine ⟨fun last => ⟨fun settled => ?_, fun room => ?_⟩, fun room aborted => ?_,
    fun _ _ _ fd step => registered_step step fd⟩
  · rcases along_or_first_break (C := Room) run with room |
      ⟨front, b, back, m, before, after, rfl, room, run', broken, tail, rfl⟩
    · exact room
    · exfalso
      have settled' := start.exec room run'
      obtain ⟨v, es, rest, step, tail', rfl⟩ := exec_cons.mp tail
      obtain ⟨fd, here, pos, refusing, rfl⟩ := not_room_step broken settled'.sound step
      rcases refusing_run refusing tail' with ⟨still, _⟩ | ⟨rest', rfl⟩
      · rw [last] at still
        cases still
      · rw [settle_append, settled'.account, here] at settled
        simp [AcceptAt.hand, Hand.follow, ne_of_lt pos] at settled
  · have account := (start.exec room run).account
    rwa [last] at account
  · have sound := (start.exec room run).sound
    rw [aborted] at sound
    exact sound

end Settled

/-- A server thread with socket 3 and no clients. -/
def newAcceptor : Acceptor where
  pool := createClientPool
  serv := ⟨{3}, 3⟩
  clientId := 0
  opened := {0, 1, 2, 3}
  at_ := .waiting

/-- One connection, up to its registration. -/
def connects (fd : Int) : List AcceptAction := [.accept (some fd), .serve, .serve, .serve]

/-- Eight clients and one too many. -/
def nineConnections : List AcceptAction :=
  [4, 5, 6, 7, 8, 9, 10, 11].flatMap connects ++ [.accept (some 12), .serve, .serve]

/-- One client leaves, and the next connection gets the descriptor that was closed. -/
def reconnects : List AcceptAction :=
  [.others createClientPool ⟨{3}, 3⟩ {1, 2, 3, 12}, .accept (some 0), .serve, .serve]

/-- The ninth connection stays open and unknown, descriptor 0 is closed in its place, and
the connection that gets it next ends the program. -/
theorem ninth_leaks : ∃ t log, acceptor.exec newAcceptor nineConnections = some (t, log) ∧
    t.at_ = .waiting ∧ settle log = none ∧ 12 ∈ t.opened ∧ 12 ∉ t.pool.fds ∧
    .notified 0 .toomany ∈ log ∧ .closed 0 ∈ log ∧
    ∃ u log', acceptor.exec t reconnects = some (u, log') ∧ u.at_ = .aborted :=
  ⟨_, _, rfl, rfl, by decide, by decide, by decide, by decide, by decide, _, _, rfl, rfl⟩

theorem eight_settled : ∃ t log,
    acceptor.exec newAcceptor ([4, 5, 6, 7, 8, 9, 10, 11].flatMap connects) = some (t, log) ∧
    acceptor.Along Room newAcceptor ([4, 5, 6, 7, 8, 9, 10, 11].flatMap connects) := by
  refine ⟨_, _, rfl, ?_⟩
  exact ((settled_iff (by decide) rfl rfl).1 rfl).mp (by decide)

end OdroidPlayer
