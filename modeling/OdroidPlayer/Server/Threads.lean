import OdroidPlayer.Lib.Transition
import OdroidPlayer.Server.Pool
import Mathlib.Data.Int.Basic
import Mathlib.Logic.Function.Basic

/-!
The threads that work on the client pool.

The server thread takes new clients in (`connect_new_client` of `server/server/server.c`)
and both it and the response thread disconnect clients (`disconnect_client`). A step is
one block under `client_mutex`, or one `accept`; the blocks of the two threads interleave.
`remove_client` looks its client up in the first of its blocks and clears the slot in the
last, `remove_client_stream` does the same with its stream. The descriptor sets that
`disconnect_client` keeps for `pselect` are left out, and so is the message to descriptor 0
with which `run_server` answers a full pool.
-/

namespace OdroidPlayer

open Transition

inductive Worker where
  | server | response
  deriving DecidableEq, Repr

def Worker.other : Worker → Worker
  | .server => .response
  | .response => .server

/-- What a descriptor is open for. -/
inductive Socket where
  /-- a client that is not in the pool -/
  | accepted
  | client (clientId : Int)
  | stream
  deriving DecidableEq, Repr

/-- The block of `remove_client_stream` that is executed next. -/
inductive StreamBlock where
  | find (streamFd : Int)
  /-- `check_stream_alive` looks for the stream once more -/
  | aliveFind (streamFd : Int) (idx : Nat)
  | aliveTest (streamFd : Int) (idx alive : Nat)
  | close (streamFd : Int) (idx : Nat)
  deriving DecidableEq, Repr

/-- `none` when `remove_client_stream` returns. -/
def StreamBlock.next (pool : Pool) : StreamBlock → Option StreamBlock
  | .find streamFd => (findClientIndex streamFd pool .streamFd).map (.aliveFind streamFd)
  | .aliveFind streamFd idx =>
      (findClientIndex streamFd pool .streamFd).map (.aliveTest streamFd idx)
  | .aliveTest streamFd idx alive =>
      if (pool.slot alive).streamSet then some (.close streamFd idx) else none
  | .close _ _ => none

/-- The block that a thread executes next. -/
inductive CallAt where
  | idle
  /-- `get_client_cnt` of `connect_new_client` -/
  | accepted (fd : Int)
  /-- `add_client` -/
  | adding (fd : Int)
  /-- `get_client_stream_fd` looks for the client that `remove_client` has found -/
  | streamIndex (fd : Int) (idx : Nat)
  | streamRead (fd : Int) (idx read : Nat)
  /-- `remove_client_stream` of `remove_client` -/
  | stream (fd : Int) (idx : Nat) (block : StreamBlock)
  /-- the last block of `remove_client` -/
  | clear (fd : Int) (idx : Nat)
  deriving DecidableEq, Repr

/-- The descriptor that is being removed and the slot it was found in. -/
def CallAt.removing : CallAt → Option (Int × Nat)
  | .idle | .accepted _ | .adding _ => none
  | .streamIndex fd idx | .streamRead fd idx _ | .stream fd idx _ | .clear fd idx => some (fd, idx)

/-- The descriptor that has been accepted and is not yet in the pool. -/
def CallAt.connecting : CallAt → Option Int
  | .accepted fd | .adding fd => some fd
  | _ => none

/-- A stream has been found that is to be removed as well. -/
def CallAt.inStream : CallAt → Bool
  | .stream .. => true
  | _ => false

structure Threads where
  world : World
  /-- the open descriptors of clients and streams -/
  sockets : Int → Option Socket
  /-- `static size_t client_id` -/
  clientId : Nat
  call : Worker → CallAt

namespace Threads

def pool (s : Threads) : Pool := s.world.pool

def goto (s : Threads) (w : Worker) (at_ : CallAt) : Threads :=
  { s with call := Function.update s.call w at_ }

def setPool (s : Threads) (pool : Pool) : Threads := { s with world.pool := pool }

def openAs (s : Threads) (fd : Int) (socket : Socket) : Threads :=
  { s with sockets := Function.update s.sockets fd (some socket) }

def close (s : Threads) (fd : Int) : Threads :=
  { s with sockets := Function.update s.sockets fd none }

/-- The last block of `remove_client_stream`. -/
def closeStream (s : Threads) (streamFd : Int) (idx : Nat) : Threads :=
  ({ s with world := clearStream idx s.world }).close streamFd

/-- The `client_id` argument of the next `add_client`, a `size_t` passed as an `int`. -/
def nextId (s : Threads) : Int := (Int32.ofNat s.clientId).toInt

/-- The next block of a thread that is in one of the functions. -/
def go (s : Threads) (w : Worker) : Option (Threads × List Descriptor) :=
  match s.call w with
  | .idle => none
  | .accepted fd =>
      if getClientCnt s.pool < 0 then some ((s.close fd).goto w .idle, [.closed fd])
      else if (maxClients : Int) ≤ getClientCnt s.pool then some (s.goto w .idle, [])
      else some (s.goto w (.adding fd), [])
  | .adding fd =>
      let next := { s with clientId := s.clientId + 1 }
      match addClient s.nextId fd s.pool with
      | none => some ((next.close fd).goto w .idle, [.closed fd])
      | some pool => some (((next.openAs fd (.client s.nextId)).setPool pool).goto w .idle, [])
  | .streamIndex fd idx =>
      match findClientIndex fd s.pool .clientFd with
      | none => some (s.goto w (.clear fd idx), [])
      | some read => some (s.goto w (.streamRead fd idx read), [])
  | .streamRead fd idx read =>
      let streamFd := (s.pool.slot read).streamFd
      if streamFd ≤ 0 then some (s.goto w (.clear fd idx), [])
      else some (s.goto w (.stream fd idx (.find streamFd)), [])
  | .stream fd idx (.close streamFd stream) =>
      some ((s.closeStream streamFd stream).goto w (.clear fd idx), [.closed streamFd])
  | .stream fd idx block =>
      match block.next s.pool with
      | none => some (s.goto w (.clear fd idx), [])
      | some block => some (s.goto w (.stream fd idx block), [])
  | .clear fd idx =>
      some (((s.setPool (clearClient idx s.pool)).close fd).goto w .idle, [.closed fd])

end Threads

inductive ThreadAction where
  /-- `accept` in `connect_new_client` -/
  | accept (fd : Int)
  /-- the lookup of `remove_client` -/
  | remove (w : Worker) (fd : Int)
  | go (w : Worker)
  deriving DecidableEq, Repr

/-- `accept` returns a descriptor that is not open, and both `add_client` and
`disconnect_client` assert that it is positive. -/
def threads : System Threads ThreadAction Descriptor where
  step s
    | .accept fd =>
        if s.call .server = .idle ∧ 0 < fd ∧ s.sockets fd = none then
          some ((s.openAs fd .accepted).goto .server (.accepted fd), [.opened fd])
        else none
    | .remove w fd =>
        if s.call w = .idle ∧ 0 < fd then
          match findClientIndex fd s.pool .clientFd with
          | none => some (s, [])
          | some idx => some (s.goto w (.streamIndex fd idx), [])
        else none
    | .go w => s.go w

/-- Both threads before their first call, the pool just created. -/
def NoCalls (s : Threads) : Prop :=
  s.pool = createClientPool ∧ (∀ fd, s.sockets fd = none) ∧ ∀ w, s.call w = .idle

/-! ### What one step can do -/

inductive ThreadMove (s : Threads) : ThreadAction → Threads → List Descriptor → Prop where
  | accept {fd : Int} (idle : s.call .server = .idle) (pos : 0 < fd)
      (unused : s.sockets fd = none) :
      ThreadMove s (.accept fd) ((s.openAs fd .accepted).goto .server (.accepted fd)) [.opened fd]
  | refused {w : Worker} {fd : Int} (at_ : s.call w = .accepted fd) :
      ThreadMove s (.go w) ((s.close fd).goto w .idle) [.closed fd]
  | full {w : Worker} {fd : Int} (at_ : s.call w = .accepted fd) :
      ThreadMove s (.go w) (s.goto w .idle) []
  | room {w : Worker} {fd : Int} (at_ : s.call w = .accepted fd) :
      ThreadMove s (.go w) (s.goto w (.adding fd)) []
  | noSlot {w : Worker} {fd : Int} (at_ : s.call w = .adding fd) :
      ThreadMove s (.go w)
        ((({ s with clientId := s.clientId + 1 }).close fd).goto w .idle) [.closed fd]
  | added {w : Worker} {fd : Int} {pool : Pool} (at_ : s.call w = .adding fd)
      (added : addClient s.nextId fd s.pool = some pool) :
      ThreadMove s (.go w)
        (((({ s with clientId := s.clientId + 1 }).openAs fd (.client s.nextId)).setPool
          pool).goto w .idle) []
  | missing {w : Worker} {fd : Int} (at_ : s.call w = .idle)
      (missing : findClientIndex fd s.pool .clientFd = none) :
      ThreadMove s (.remove w fd) s []
  | found {w : Worker} {fd : Int} {idx : Nat} (at_ : s.call w = .idle)
      (found : findClientIndex fd s.pool .clientFd = some idx) :
      ThreadMove s (.remove w fd) (s.goto w (.streamIndex fd idx)) []
  /-- `remove_client` goes on with the same descriptor and slot. -/
  | walk {w : Worker} {target : CallAt} {fd : Int} {idx : Nat}
      (at_ : (s.call w).removing = some (fd, idx)) (same : target.removing = some (fd, idx))
      (stream : target.inStream = true →
        (s.call w).inStream = true ∨ ∃ read, 0 < (s.pool.slot read).streamFd) :
      ThreadMove s (.go w) (s.goto w target) []
  | streamClosed {w : Worker} {fd streamFd : Int} {idx stream : Nat}
      (at_ : s.call w = .stream fd idx (.close streamFd stream)) :
      ThreadMove s (.go w) ((s.closeStream streamFd stream).goto w (.clear fd idx))
        [.closed streamFd]
  | cleared {w : Worker} {fd : Int} {idx : Nat} (at_ : s.call w = .clear fd idx) :
      ThreadMove s (.go w)
        (((s.setPool (clearClient idx s.pool)).close fd).goto w .idle) [.closed fd]

theorem go_move {s t : Threads} {w : Worker} {es : List Descriptor}
    (step : s.go w = some (t, es)) : ThreadMove s (.go w) t es := by
  unfold Threads.go at step
  cases here : s.call w with
  | idle =>
      rw [here] at step
      cases step
  | accepted fd =>
      simp only [here] at step
      split at step
      · cases step
        exact .refused here
      · split at step
        · cases step
          exact .full here
        · cases step
          exact .room here
  | adding fd =>
      simp only [here] at step
      split at step
      · cases step
        exact .noSlot here
      next pool added =>
          cases step
          exact .added here added
  | streamIndex fd idx =>
      simp only [here] at step
      have walks : ∀ target : CallAt, target.removing = some (fd, idx) → target.inStream = false →
          ThreadMove s (.go w) (s.goto w target) [] := by
        intro target same out
        refine .walk (by rw [here]; rfl) same fun stream => ?_
        rw [out] at stream
        cases stream
      split at step
      · cases step
        exact walks _ rfl rfl
      · cases step
        exact walks _ rfl rfl
  | streamRead fd idx read =>
      simp only [here] at step
      split at step
      · cases step
        have same : (s.call w).removing = some (fd, idx) := by rw [here]; rfl
        refine .walk same rfl fun stream => ?_
        cases stream
      next some_ =>
          cases step
          refine .walk (by rw [here]; rfl) rfl fun _ => .inr ⟨read, ?_⟩
          exact not_le.mp some_
  | stream fd idx block =>
      have walks : ∀ target : CallAt, target.removing = some (fd, idx) →
          ThreadMove s (.go w) (s.goto w target) [] := by
        intro target same
        exact .walk (by rw [here]; rfl) same fun _ => .inl (by rw [here]; rfl)
      cases block with
      | close streamFd stream =>
          simp only [here] at step
          cases step
          exact .streamClosed here
      | _ =>
          simp only [here] at step
          split at step
          · cases step
            exact walks _ rfl
          · cases step
            exact walks _ rfl
  | clear fd idx =>
      simp only [here] at step
      cases step
      exact .cleared here

theorem threads_move {s t : Threads} {a : ThreadAction} {es : List Descriptor}
    (step : threads.step s a = some (t, es)) : ThreadMove s a t es := by
  cases a with
  | accept fd =>
      simp only [threads] at step
      split at step
      next can =>
          cases step
          exact .accept can.1 can.2.1 can.2.2
      · cases step
  | remove w fd =>
      simp only [threads] at step
      split at step
      next can =>
          split at step
          next missing =>
              cases step
              exact .missing can.1 missing
          next found =>
              cases step
              exact .found can.1 found
      · cases step
  | go w => exact go_move step

end OdroidPlayer
