import OdroidPlayer.Server.Pool
import OdroidPlayer.Lib.Transition
import Mathlib.Data.Finset.Insert
import Mathlib.Logic.Function.Basic

/-!
The descriptor sets of the two select loops (`server/utils/fd_set.c`) beside the pool.

Four operations change the pool, `serv_set` and `strm_set` together: a client is
accepted and registered (`run_server`), a client is disconnected (`disconnect_client`), a
STREAM request is executed (`execute_command`) and a stream that cannot be sent to is
removed (`run_stream`). Here each is one step. The kernel hands out positive descriptors
that are not open, and the functions are called with descriptors that `accept` has
returned.
-/

namespace OdroidPlayer

/-! ### The sets -/

/-- `serv_set` and `serv_maxfd`, or `strm_set` and `strm_maxfd`. -/
structure Watch where
  set : Finset Int
  maxfd : Int
  deriving DecidableEq

/-- `UPDATE_CLIENT_ADD` and `UPDATE_CLIENT_REMOVE`. -/
inductive Update where
  | add | remove
  deriving DecidableEq, Repr

/-- A removal leaves the maximum as it is. -/
def updateFdSet (fd : Int) (watch : Watch) (update : Update) : Watch :=
  if fd ≤ 0 then watch
  else match update with
    | .add => ⟨insert fd watch.set, if watch.maxfd < fd then fd else watch.maxfd⟩
    | .remove => { watch with set := watch.set.erase fd }

/-- Every member is within the maximum. -/
def Watch.Bounded (watch : Watch) : Prop := ∀ fd ∈ watch.set, fd ≤ watch.maxfd

@[simp] theorem mem_updateFdSet_add {fd fd' : Int} {watch : Watch} (pos : 0 < fd) :
    fd' ∈ (updateFdSet fd watch .add).set ↔ fd' = fd ∨ fd' ∈ watch.set := by
  simp [updateFdSet, not_le.mpr pos]

@[simp] theorem mem_updateFdSet_remove {fd fd' : Int} {watch : Watch} (pos : 0 < fd) :
    fd' ∈ (updateFdSet fd watch .remove).set ↔ fd' ≠ fd ∧ fd' ∈ watch.set := by
  simp [updateFdSet, not_le.mpr pos]

theorem Watch.Bounded.update {watch : Watch} (bounded : watch.Bounded) (fd : Int)
    (update : Update) : (updateFdSet fd watch update).Bounded := by
  unfold updateFdSet
  split
  · exact bounded
  · intro fd' mem
    cases update with
    | add =>
        rcases Finset.mem_insert.mp mem with rfl | old
        · dsimp only
          split <;> omega
        · have below := bounded fd' old
          dsimp only
          split <;> omega
    | remove => exact bounded fd' (Finset.mem_of_mem_erase mem)

/-! ### The operations -/

/-- What the process has open after a system call. -/
def Descriptor.track (opened : Finset Int) : Descriptor → Finset Int
  | .opened fd => insert fd opened
  | .closed fd => opened.erase fd

/-- The parts of `t_player` that the select loops work on, and the open descriptors. -/
structure Server where
  world : World
  serv : Watch
  strm : Watch
  serverFd : Int
  /-- the static `client_id` of `connect_new_client` -/
  clientId : Int
  opened : Finset Int
  /-- the descriptors that `accept` has returned so far -/
  accepted : Finset Int

namespace Server

/-- The server after a function of the pool has run. -/
def after (s : Server) (out : World × List Descriptor) : Server :=
  { s with world := out.1, opened := out.2.foldl Descriptor.track s.opened }

def close (s : Server) (fd : Int) : Server := { s with opened := s.opened.erase fd }

/-- The server after `accept` has returned a descriptor. -/
def accepts (s : Server) (fd : Int) : Server :=
  { s with opened := insert fd s.opened, accepted := insert fd s.accepted }

end Server

/-- `connect_new_client`: the descriptor or 0, and `full`. -/
def connectNewClient (accept : Option Int) (s : Server) : Int × Bool × Server :=
  match accept with
  | none => (0, false, s)
  | some clientFd =>
      let clientCnt := getClientCnt s.world.pool
      if clientCnt < 0 then (0, false, (s.accepts clientFd).close clientFd)
      else if maxClients ≤ clientCnt then (0, true, s.accepts clientFd)
      else match addClient s.clientId clientFd s.world.pool with
        | none =>
            (0, false, { (s.accepts clientFd).close clientFd with clientId := s.clientId + 1 })
        | some pool =>
            (clientFd, false,
              { s.accepts clientFd with world.pool := pool, clientId := s.clientId + 1 })

/-- The block of `run_server` for an event on the server socket. -/
def acceptClient (accept : Option Int) (s : Server) : Server :=
  match connectNewClient accept s with
  | (clientFd, full, s') =>
      if clientFd = 0 then if full then s'.close clientFd else s'
      else { s' with serv := updateFdSet clientFd s'.serv .add }

def disconnectClient (clientFd : Int) (s : Server) : Server :=
  let streamFd := getClientStreamFd clientFd s.world.pool
  { s with
    serv := updateFdSet clientFd s.serv .remove
    strm := if 0 < streamFd then updateFdSet streamFd s.strm .remove else s.strm
  }.after (removeClient clientFd s.world)

def setNewStream (env : SocketEnv) (clientFd : Int) (s : Server) : Bool × Server :=
  match createClientStream env clientFd s.world with
  | (false, out) => (false, s.after out)
  | (true, out) =>
      let streamFd := getClientStreamFd clientFd out.1.pool
      if streamFd ≤ 0 then (false, s.after out)
      else (true, { s.after out with strm := updateFdSet streamFd s.strm .add })

/-- `get_server_stream_path` and `get_client_stream_path`. -/
def getServerStreamPath (clientFd : Int) (pool : Pool) : Option String :=
  (findClientIndex clientFd pool .clientFd).bind fun idx => (pool.slot idx).serverStreamPath

def getClientStreamPath (clientFd : Int) (pool : Pool) : Option String :=
  (findClientIndex clientFd pool .clientFd).bind fun idx => (pool.slot idx).clientStreamPath

/-- The first part of a STREAM request in `execute_command`. -/
def ensureStream (env : SocketEnv) (clientFd : Int) (s : Server) : Server :=
  if checkStreamIsSet clientFd s.world.pool then s else (setNewStream env clientFd s).2

/-- What a STREAM request does to the server; `time` says that its command is TIME. -/
def executeStream (env : SocketEnv) (time : Bool) (clientFd : Int) (s : Server) : Server :=
  let s := ensureStream env clientFd s
  let paths := (getServerStreamPath clientFd s.world.pool).isSome ∧
    (getClientStreamPath clientFd s.world.pool).isSome
  if paths ∧ time = true then
    { s with world.pool := (setClientStreamFunc clientFd .getStreamTime s.world.pool).2 }
  else s

/-- `find_stream` of an index below `MAX_CLIENTS`. -/
def findStream (index : Nat) (pool : Pool) : Int := (pool.slot index).streamFd

/-- What `run_stream` does when it cannot send to the stream of a slot. -/
def streamFailed (index : Nat) (s : Server) : Server :=
  let streamFd := findStream index s.world.pool
  if streamFd ≤ 0 then s
  else { s with strm := updateFdSet streamFd s.strm .remove }.after
    (removeClientStream streamFd s.world)

inductive Operation where
  /-- what `accept` returns -/
  | accept (result : Option Int)
  | disconnect (clientFd : Int)
  | stream (env : SocketEnv) (time : Bool) (clientFd : Int)
  | streamFailed (index : Nat)
  deriving DecidableEq, Repr

/-- The kernel hands out a positive descriptor that is not open. -/
def Server.HandsOut (s : Server) (fd : Int) : Prop := 0 < fd ∧ fd ∉ s.opened

instance (s : Server) (fd : Int) : Decidable (s.HandsOut fd) := by
  unfold Server.HandsOut
  infer_instance

/-- What the kernel and the callers of the functions keep to. -/
def Operation.Admitted (s : Server) : Operation → Prop
  | .accept result => ∀ fd ∈ result, s.HandsOut fd
  | .disconnect clientFd => clientFd ∈ s.accepted
  | .stream env _ clientFd => clientFd ∈ s.accepted ∧ ∀ fd ∈ env.socket, s.HandsOut fd
  | .streamFailed _ => True

instance (s : Server) (o : Operation) : Decidable (o.Admitted s) := by
  cases o <;> unfold Operation.Admitted <;> infer_instance

def Operation.apply (s : Server) : Operation → Server
  | .accept result => acceptClient result s
  | .disconnect clientFd => disconnectClient clientFd s
  | .stream env time clientFd => executeStream env time clientFd s
  | .streamFailed index => OdroidPlayer.streamFailed index s

def servers : Transition.System Server Operation Unit :=
  ⟨fun s o => if o.Admitted s then some (o.apply s, []) else none⟩

/-- A server that has just opened its socket. -/
def StartServer (s : Server) : Prop :=
  0 < s.serverFd ∧ s.serverFd ∈ s.opened ∧ s.world.pool = createClientPool ∧
    s.serv = ⟨{s.serverFd}, s.serverFd⟩ ∧ s.strm = ⟨∅, 0⟩ ∧ s.accepted = ∅

/-! ### The pool and the sets agree -/

/-- A slot has no stream: neither a descriptor nor a path. -/
def Client.NoStream (client : Client) : Prop :=
  client.streamFd = 0 ∧ client.serverStreamPath = none ∧ client.clientStreamPath = none

/-- A slot has a stream: a descriptor and both paths. -/
def Client.HasStream (client : Client) : Prop :=
  0 < client.streamFd ∧ client.serverStreamPath.isSome ∧ client.clientStreamPath.isSome

/-- The slots and the two sets say the same. -/
structure Server.Agrees (s : Server) : Prop where
  distinct : ∀ i j, i ≠ j → 0 < (s.world.pool.slot i).clientFd →
    (s.world.pool.slot i).clientFd ≠ (s.world.pool.slot j).clientFd
  empty : ∀ i, (s.world.pool.slot i).clientFd = 0 → (s.world.pool.slot i).NoStream
  whole : ∀ i, (s.world.pool.slot i).NoStream ∨ (s.world.pool.slot i).HasStream
  serv : ∀ fd, fd ∈ s.serv.set ↔
    fd = s.serverFd ∨ 0 < fd ∧ ∃ i, (s.world.pool.slot i).clientFd = fd
  strm : ∀ fd, fd ∈ s.strm.set ↔ 0 < fd ∧ ∃ i, (s.world.pool.slot i).streamFd = fd
  servMax : s.serv.Bounded
  strmMax : s.strm.Bounded

/-- What makes the agreement last: every descriptor in use is open and has one use. -/
structure Tracked (s : Server) : Prop where
  agrees : s.Agrees
  serverFd : 0 < s.serverFd ∧ s.serverFd ∈ s.opened
  clientFd : ∀ i, (s.world.pool.slot i).clientFd = 0 ∨
    0 < (s.world.pool.slot i).clientFd ∧ (s.world.pool.slot i).clientFd ∈ s.opened
  streamFd : ∀ i, 0 < (s.world.pool.slot i).streamFd →
    (s.world.pool.slot i).streamFd ∈ s.opened
  streams : ∀ i j, i ≠ j → 0 < (s.world.pool.slot i).streamFd →
    (s.world.pool.slot i).streamFd ≠ (s.world.pool.slot j).streamFd
  apart : ∀ i j, 0 < (s.world.pool.slot i).clientFd →
    (s.world.pool.slot i).clientFd ≠ (s.world.pool.slot j).streamFd
  notServer : ∀ i, (s.world.pool.slot i).clientFd ≠ s.serverFd ∧
    (s.world.pool.slot i).streamFd ≠ s.serverFd
  accepted : ∀ fd ∈ s.accepted, 0 < fd ∧ fd ≠ s.serverFd

/-- `t` has the slots of `s` but for one, and the same server socket. -/
structure Stored (s t : Server) (idx : Nat) (client : Client) : Prop where
  self : t.world.pool.slot idx = client
  other : ∀ i, i ≠ idx → t.world.pool.slot i = s.world.pool.slot i
  serverFd : t.serverFd = s.serverFd

section Stored

variable {s t : Server} {idx : Nat} {fd : Int}

theorem Stored.of_store {client : Client} (bound : idx < maxClients)
    (world : t.world.pool.slot = (s.world.pool.store idx client).slot)
    (serverFd : t.serverFd = s.serverFd) : Stored s t idx client where
  self := by rw [world, Pool.slot_store_self _ client bound]
  other := fun i ne => by rw [world, Pool.slot_store_ne _ client ne]
  serverFd := serverFd

theorem Stored.replaced {client : Client} (stored : Stored s t idx client) :
    Slots.Replaced s.world.pool.slot t.world.pool.slot idx client :=
  ⟨stored.self, stored.other⟩

/-- A set that has the positive numbers `f` of the slots, beside those with `b`, when one of
them comes to a slot that had none. -/
theorem Stored.mem_add {client : Client} {f : Client → Int} {b : Int → Prop} {watch : Watch}
    (stored : Stored s t idx client) (pos : 0 < fd) (new : f client = fd)
    (vacant : f (s.world.pool.slot idx) = 0)
    (before : ∀ x, x ∈ watch.set ↔ b x ∨ 0 < x ∧ ∃ i, f (s.world.pool.slot i) = x) (x : Int) :
    x ∈ (updateFdSet fd watch .add).set ↔ b x ∨ 0 < x ∧ ∃ i, f (t.world.pool.slot i) = x := by
  rw [mem_updateFdSet_add pos, before, stored.replaced.exists_iff (P := fun c => f c = x), new]
  constructor
  · rintro (rfl | old | ⟨xpos, i, here⟩)
    · exact .inr ⟨pos, .inl rfl⟩
    · exact .inl old
    · refine .inr ⟨xpos, .inr ⟨i, ?_, here⟩⟩
      rintro rfl
      omega
  · rintro (old | ⟨xpos, rfl | ⟨i, -, here⟩⟩)
    · exact .inr (.inl old)
    · exact .inl rfl
    · exact .inr (.inr ⟨xpos, i, here⟩)

/-- One of them, which no other slot has, leaves its slot. -/
theorem Stored.mem_remove {client : Client} {f : Client → Int} {b : Int → Prop} {watch : Watch}
    (stored : Stored s t idx client) (pos : 0 < fd) (here : f (s.world.pool.slot idx) = fd)
    (once : ∀ i, i ≠ idx → f (s.world.pool.slot i) ≠ fd) (new : f client = 0) (fresh : ¬ b fd)
    (before : ∀ x, x ∈ watch.set ↔ b x ∨ 0 < x ∧ ∃ i, f (s.world.pool.slot i) = x) (x : Int) :
    x ∈ (updateFdSet fd watch .remove).set ↔ b x ∨ 0 < x ∧ ∃ i, f (t.world.pool.slot i) = x := by
  rw [mem_updateFdSet_remove pos, before, stored.replaced.exists_iff (P := fun c => f c = x)]
  constructor
  · rintro ⟨ne, old | ⟨xpos, i, is⟩⟩
    · exact .inl old
    · refine .inr ⟨xpos, .inr ⟨i, ?_, is⟩⟩
      rintro rfl
      exact ne (is.symm.trans here)
  · rintro (old | ⟨xpos, none | ⟨i, ne, is⟩⟩)
    · exact ⟨fun eq => fresh (eq ▸ old), .inl old⟩
    · omega
    · exact ⟨fun eq => once i ne (is.trans eq), .inr ⟨xpos, i, is⟩⟩

theorem Stored.mem_same {client : Client} {f : Client → Int} {b : Int → Prop} {watch : Watch}
    (stored : Stored s t idx client) (same : f client = f (s.world.pool.slot idx))
    (before : ∀ x, x ∈ watch.set ↔ b x ∨ 0 < x ∧ ∃ i, f (s.world.pool.slot i) = x) (x : Int) :
    x ∈ watch.set ↔ b x ∨ 0 < x ∧ ∃ i, f (t.world.pool.slot i) = x := by
  have self : Slots.Replaced s.world.pool.slot s.world.pool.slot idx (s.world.pool.slot idx) :=
    ⟨rfl, fun _ _ => rfl⟩
  rw [before, stored.replaced.exists_iff (P := fun c => f c = x),
    self.exists_iff (P := fun c => f c = x), same]

theorem Tracked.unused (tracked : Tracked s) (fresh : s.HandsOut fd) :
    (∀ i, (s.world.pool.slot i).clientFd ≠ fd) ∧ ∀ i, (s.world.pool.slot i).streamFd ≠ fd := by
  obtain ⟨pos, notOpen⟩ := fresh
  refine ⟨fun i same => ?_, fun i same => ?_⟩
  · rcases tracked.clientFd i with none | ⟨_, isOpen⟩
    · omega
    · exact notOpen (same ▸ isOpen)
  · exact notOpen (same ▸ tracked.streamFd i (same ▸ pos))

theorem Tracked.not_server (tracked : Tracked s) (fresh : s.HandsOut fd) : fd ≠ s.serverFd :=
  fun same => fresh.2 (same ▸ tracked.serverFd.2)

/-- A client in a free slot, with a descriptor that was not open. -/
theorem Tracked.fill (tracked : Tracked s) {id : Int}
    (free : (s.world.pool.slot idx).clientFd = 0) (fresh : s.HandsOut fd)
    (stored : Stored s t idx { emptyClient with clientId := id, clientFd := fd })
    (serv : t.serv = updateFdSet fd s.serv .add) (strm : t.strm = s.strm)
    (opened : t.opened = insert fd s.opened) (accepted : t.accepted = insert fd s.accepted) :
    Tracked t := by
  have notServer := tracked.not_server fresh
  obtain ⟨notClient, notStream⟩ := tracked.unused fresh
  obtain ⟨pos, notOpen⟩ := fresh
  have replaced := stored.replaced
  have vacant := (tracked.agrees.empty idx free).1
  have serverPos := tracked.serverFd.1
  refine ⟨⟨?_, ?_, ?_, ?_, ?_, ?_, ?_⟩, ?_, ?_, ?_, ?_, ?_, ?_, ?_⟩
  · exact replaced.pairs (R := fun a b => 0 < a.clientFd → a.clientFd ≠ b.clientFd)
      (fun j _ _ => (notClient j).symm) (fun i _ _ => notClient i) tracked.agrees.distinct
  · exact replaced.all (P := fun c => c.clientFd = 0 → c.NoStream)
      (fun zero => absurd zero (ne_of_gt pos)) fun i _ => tracked.agrees.empty i
  · exact replaced.all (P := fun c => c.NoStream ∨ c.HasStream) (.inl ⟨rfl, rfl, rfl⟩)
      fun i _ => tracked.agrees.whole i
  · rw [serv, stored.serverFd]
    exact stored.mem_add pos rfl free tracked.agrees.serv
  · rw [strm]
    simpa using stored.mem_same (f := Client.streamFd) (b := fun _ => False) vacant.symm
      (by simpa using tracked.agrees.strm)
  · exact serv ▸ tracked.agrees.servMax.update fd .add
  · exact strm ▸ tracked.agrees.strmMax
  · rw [stored.serverFd, opened]
    exact ⟨serverPos, Finset.mem_insert_of_mem tracked.serverFd.2⟩
  · rw [opened]
    refine replaced.all (P := fun c => c.clientFd = 0 ∨ 0 < c.clientFd ∧
      c.clientFd ∈ insert fd s.opened) (.inr ⟨pos, Finset.mem_insert_self _ _⟩) fun i _ => ?_
    exact (tracked.clientFd i).imp_right (And.imp_right Finset.mem_insert_of_mem)
  · rw [opened]
    refine replaced.all (P := fun c => 0 < c.streamFd → c.streamFd ∈ insert fd s.opened)
      (by rintro ⟨⟩) fun i _ some_ => ?_
    exact Finset.mem_insert_of_mem (tracked.streamFd i some_)
  · exact replaced.pairs (R := fun a b => 0 < a.streamFd → a.streamFd ≠ b.streamFd)
      (by rintro j - ⟨⟩) (fun i _ some_ => ne_of_gt some_) tracked.streams
  · exact replaced.square (R := fun a b => 0 < a.clientFd → a.clientFd ≠ b.streamFd)
      (fun _ => ne_of_gt pos) (fun j _ _ => (notStream j).symm) (fun i _ some_ => ne_of_gt some_)
      tracked.apart
  · rw [stored.serverFd]
    exact replaced.all (P := fun c => c.clientFd ≠ s.serverFd ∧ c.streamFd ≠ s.serverFd)
      ⟨notServer, ne_of_lt serverPos⟩ fun i _ => tracked.notServer i
  · rw [stored.serverFd, accepted]
    intro fd' mem
    rcases Finset.mem_insert.mp mem with rfl | old
    · exact ⟨pos, notServer⟩
    · exact tracked.accepted fd' old

/-- The last client leaves a slot that has no stream. -/
theorem Tracked.clear (tracked : Tracked s) (here : (s.world.pool.slot idx).clientFd = fd)
    (pos : 0 < fd) (none : (s.world.pool.slot idx).NoStream)
    (stored : Stored s t idx emptyClient) (serv : t.serv = updateFdSet fd s.serv .remove)
    (strm : t.strm = s.strm) (opened : t.opened = s.opened.erase fd)
    (accepted : t.accepted = s.accepted) : Tracked t := by
  have replaced := stored.replaced
  have serverPos := tracked.serverFd.1
  have notServer : fd ≠ s.serverFd := here ▸ (tracked.notServer idx).1
  have once : ∀ i, i ≠ idx → (s.world.pool.slot i).clientFd ≠ fd := fun i ne same =>
    tracked.agrees.distinct i idx ne (same ▸ pos) (same.trans here.symm)
  have apart : ∀ i, (s.world.pool.slot i).streamFd ≠ fd := fun i same =>
    tracked.apart idx i (here ▸ pos) (here.trans same.symm)
  refine ⟨⟨?_, ?_, ?_, ?_, ?_, ?_, ?_⟩, ?_, ?_, ?_, ?_, ?_, ?_, ?_⟩
  · exact replaced.pairs (R := fun a b => 0 < a.clientFd → a.clientFd ≠ b.clientFd)
      (by rintro j - ⟨⟩) (fun i _ some_ => ne_of_gt some_) tracked.agrees.distinct
  · exact replaced.all (P := fun c => c.clientFd = 0 → c.NoStream) (fun _ => ⟨rfl, rfl, rfl⟩)
      fun i _ => tracked.agrees.empty i
  · exact replaced.all (P := fun c => c.NoStream ∨ c.HasStream) (.inl ⟨rfl, rfl, rfl⟩)
      fun i _ => tracked.agrees.whole i
  · rw [serv, stored.serverFd]
    exact stored.mem_remove pos here once rfl notServer tracked.agrees.serv
  · rw [strm]
    simpa using stored.mem_same (f := Client.streamFd) (b := fun _ => False) none.1.symm
      (by simpa using tracked.agrees.strm)
  · exact serv ▸ tracked.agrees.servMax.update fd .remove
  · exact strm ▸ tracked.agrees.strmMax
  · rw [stored.serverFd, opened]
    exact ⟨serverPos, Finset.mem_erase.mpr ⟨notServer.symm, tracked.serverFd.2⟩⟩
  · rw [opened]
    refine replaced.all (P := fun c => c.clientFd = 0 ∨ 0 < c.clientFd ∧
      c.clientFd ∈ s.opened.erase fd) (.inl rfl) fun i ne => ?_
    exact (tracked.clientFd i).imp_right
      (And.imp_right fun isOpen => Finset.mem_erase.mpr ⟨once i ne, isOpen⟩)
  · rw [opened]
    refine replaced.all (P := fun c => 0 < c.streamFd → c.streamFd ∈ s.opened.erase fd)
      (by rintro ⟨⟩) fun i _ some_ => ?_
    exact Finset.mem_erase.mpr ⟨apart i, tracked.streamFd i some_⟩
  · exact replaced.pairs (R := fun a b => 0 < a.streamFd → a.streamFd ≠ b.streamFd)
      (by rintro j - ⟨⟩) (fun i _ some_ => ne_of_gt some_) tracked.streams
  · exact replaced.square (R := fun a b => 0 < a.clientFd → a.clientFd ≠ b.streamFd)
      (by rintro ⟨⟩) (by rintro j - ⟨⟩) (fun i _ some_ => ne_of_gt some_) tracked.apart
  · rw [stored.serverFd]
    exact replaced.all (P := fun c => c.clientFd ≠ s.serverFd ∧ c.streamFd ≠ s.serverFd)
      ⟨ne_of_lt serverPos, ne_of_lt serverPos⟩ fun i _ => tracked.notServer i
  · rw [stored.serverFd, accepted]
    exact tracked.accepted

/-- A stream in the slot of a client that has none. -/
theorem Tracked.setStream (tracked : Tracked s) {client : Client}
    (known : 0 < (s.world.pool.slot idx).clientFd) (none : (s.world.pool.slot idx).NoStream)
    (fresh : s.HandsOut fd) (stored : Stored s t idx client)
    (same : client.clientFd = (s.world.pool.slot idx).clientFd) (streamFd : client.streamFd = fd)
    (whole : client.HasStream) (serv : t.serv = s.serv)
    (strm : t.strm = updateFdSet fd s.strm .add) (opened : t.opened = insert fd s.opened)
    (accepted : t.accepted = s.accepted) : Tracked t := by
  have notServer := tracked.not_server fresh
  obtain ⟨notClient, notStream⟩ := tracked.unused fresh
  obtain ⟨pos, notOpen⟩ := fresh
  have replaced := stored.replaced
  refine ⟨⟨?_, ?_, ?_, ?_, ?_, ?_, ?_⟩, ?_, ?_, ?_, ?_, ?_, ?_, ?_⟩
  · exact replaced.pairs (R := fun a b => 0 < a.clientFd → a.clientFd ≠ b.clientFd)
      (fun j ne => same ▸ tracked.agrees.distinct idx j ne.symm)
      (fun i ne => same ▸ tracked.agrees.distinct i idx ne) tracked.agrees.distinct
  · exact replaced.all (P := fun c => c.clientFd = 0 → c.NoStream)
      (fun zero => absurd (same.symm.trans zero) (ne_of_gt known))
      fun i _ => tracked.agrees.empty i
  · exact replaced.all (P := fun c => c.NoStream ∨ c.HasStream) (.inr whole)
      fun i _ => tracked.agrees.whole i
  · rw [serv, stored.serverFd]
    exact stored.mem_same same tracked.agrees.serv
  · rw [strm]
    simpa using stored.mem_add (f := Client.streamFd) (b := fun _ => False) pos streamFd none.1
      (by simpa using tracked.agrees.strm)
  · exact serv ▸ tracked.agrees.servMax
  · exact strm ▸ tracked.agrees.strmMax.update fd .add
  · rw [stored.serverFd, opened]
    exact ⟨tracked.serverFd.1, Finset.mem_insert_of_mem tracked.serverFd.2⟩
  · rw [opened]
    have still : ∀ i, (s.world.pool.slot i).clientFd = 0 ∨ 0 < (s.world.pool.slot i).clientFd ∧
        (s.world.pool.slot i).clientFd ∈ insert fd s.opened := fun i =>
      (tracked.clientFd i).imp_right (And.imp_right Finset.mem_insert_of_mem)
    exact replaced.all (P := fun c => c.clientFd = 0 ∨ 0 < c.clientFd ∧
      c.clientFd ∈ insert fd s.opened) (same ▸ still idx) fun i _ => still i
  · rw [opened]
    refine replaced.all (P := fun c => 0 < c.streamFd → c.streamFd ∈ insert fd s.opened)
      (fun _ => streamFd ▸ Finset.mem_insert_self _ _) fun i _ some_ => ?_
    exact Finset.mem_insert_of_mem (tracked.streamFd i some_)
  · exact replaced.pairs (R := fun a b => 0 < a.streamFd → a.streamFd ≠ b.streamFd)
      (fun j _ _ => streamFd ▸ (notStream j).symm) (fun i _ _ => streamFd ▸ notStream i)
      tracked.streams
  · exact replaced.square (R := fun a b => 0 < a.clientFd → a.clientFd ≠ b.streamFd)
      (fun _ => streamFd ▸ same ▸ notClient idx) (fun j _ => same ▸ tracked.apart idx j)
      (fun i _ _ => streamFd ▸ notClient i) tracked.apart
  · rw [stored.serverFd]
    exact replaced.all (P := fun c => c.clientFd ≠ s.serverFd ∧ c.streamFd ≠ s.serverFd)
      ⟨same ▸ (tracked.notServer idx).1, streamFd ▸ notServer⟩ fun i _ => tracked.notServer i
  · rw [stored.serverFd, accepted]
    exact tracked.accepted

/-- The stream of a slot is taken away. -/
theorem Tracked.unsetStream (tracked : Tracked s) {client : Client}
    (here : (s.world.pool.slot idx).streamFd = fd) (pos : 0 < fd) (stored : Stored s t idx client)
    (same : client.clientFd = (s.world.pool.slot idx).clientFd) (none : client.NoStream)
    (serv : t.serv = s.serv) (strm : t.strm = updateFdSet fd s.strm .remove)
    (opened : t.opened = s.opened.erase fd) (accepted : t.accepted = s.accepted) :
    Tracked t := by
  have replaced := stored.replaced
  have gone := none.1
  have serverPos := tracked.serverFd.1
  have notServer : fd ≠ s.serverFd := here ▸ (tracked.notServer idx).2
  have once : ∀ i, i ≠ idx → (s.world.pool.slot i).streamFd ≠ fd := fun i ne is =>
    tracked.streams i idx ne (is ▸ pos) (is.trans here.symm)
  refine ⟨⟨?_, ?_, ?_, ?_, ?_, ?_, ?_⟩, ?_, ?_, ?_, ?_, ?_, ?_, ?_⟩
  · exact replaced.pairs (R := fun a b => 0 < a.clientFd → a.clientFd ≠ b.clientFd)
      (fun j ne => same ▸ tracked.agrees.distinct idx j ne.symm)
      (fun i ne => same ▸ tracked.agrees.distinct i idx ne) tracked.agrees.distinct
  · exact replaced.all (P := fun c => c.clientFd = 0 → c.NoStream) (fun _ => none)
      fun i _ => tracked.agrees.empty i
  · exact replaced.all (P := fun c => c.NoStream ∨ c.HasStream) (.inl none)
      fun i _ => tracked.agrees.whole i
  · rw [serv, stored.serverFd]
    exact stored.mem_same same tracked.agrees.serv
  · rw [strm]
    simpa using stored.mem_remove (f := Client.streamFd) (b := fun _ => False) pos here once gone id
      (by simpa using tracked.agrees.strm)
  · exact serv ▸ tracked.agrees.servMax
  · exact strm ▸ tracked.agrees.strmMax.update fd .remove
  · rw [stored.serverFd, opened]
    exact ⟨serverPos, Finset.mem_erase.mpr ⟨notServer.symm, tracked.serverFd.2⟩⟩
  · rw [opened]
    have still : ∀ i, (s.world.pool.slot i).clientFd = 0 ∨ 0 < (s.world.pool.slot i).clientFd ∧
        (s.world.pool.slot i).clientFd ∈ s.opened.erase fd := by
      intro i
      refine (tracked.clientFd i).imp_right fun ⟨known, isOpen⟩ => ⟨known, ?_⟩
      exact Finset.mem_erase.mpr ⟨here ▸ tracked.apart i idx known, isOpen⟩
    exact replaced.all (P := fun c => c.clientFd = 0 ∨ 0 < c.clientFd ∧
      c.clientFd ∈ s.opened.erase fd) (same ▸ still idx) fun i _ => still i
  · rw [opened]
    refine replaced.all (P := fun c => 0 < c.streamFd → c.streamFd ∈ s.opened.erase fd)
      (fun some_ => absurd gone (ne_of_gt some_)) fun i ne some_ => ?_
    exact Finset.mem_erase.mpr ⟨once i ne, tracked.streamFd i some_⟩
  · exact replaced.pairs (R := fun a b => 0 < a.streamFd → a.streamFd ≠ b.streamFd)
      (fun j _ some_ => absurd gone (ne_of_gt some_)) (fun i _ some_ => gone ▸ ne_of_gt some_)
      tracked.streams
  · exact replaced.square (R := fun a b => 0 < a.clientFd → a.clientFd ≠ b.streamFd)
      (fun some_ => gone ▸ ne_of_gt some_) (fun j _ => same ▸ tracked.apart idx j)
      (fun i _ some_ => gone ▸ ne_of_gt some_) tracked.apart
  · rw [stored.serverFd]
    exact replaced.all (P := fun c => c.clientFd ≠ s.serverFd ∧ c.streamFd ≠ s.serverFd)
      ⟨same ▸ (tracked.notServer idx).1, gone ▸ ne_of_lt serverPos⟩ fun i _ => tracked.notServer i
  · rw [stored.serverFd, accepted]
    exact tracked.accepted

end Stored

/-- Nothing changes in what is tracked; more may be open. -/
theorem Tracked.congr {s t : Server} (tracked : Tracked s)
    (slots : ∀ i, (t.world.pool.slot i).clientFd = (s.world.pool.slot i).clientFd ∧
      (t.world.pool.slot i).streamFd = (s.world.pool.slot i).streamFd ∧
      (t.world.pool.slot i).serverStreamPath = (s.world.pool.slot i).serverStreamPath ∧
      (t.world.pool.slot i).clientStreamPath = (s.world.pool.slot i).clientStreamPath)
    (serv : t.serv = s.serv) (strm : t.strm = s.strm) (serverFd : t.serverFd = s.serverFd)
    (opened : ∀ fd ∈ s.opened, 0 < fd → fd ∈ t.opened)
    (accepted : ∀ fd ∈ t.accepted, 0 < fd ∧ fd ≠ s.serverFd) : Tracked t := by
  have sameNone : ∀ i, (t.world.pool.slot i).NoStream ↔ (s.world.pool.slot i).NoStream := by
    intro i
    obtain ⟨_, stream, server, client⟩ := slots i
    rw [Client.NoStream, Client.NoStream, stream, server, client]
  have sameSome : ∀ i, (t.world.pool.slot i).HasStream ↔ (s.world.pool.slot i).HasStream := by
    intro i
    obtain ⟨_, stream, server, client⟩ := slots i
    rw [Client.HasStream, Client.HasStream, stream, server, client]
  have client : ∀ i, (t.world.pool.slot i).clientFd = (s.world.pool.slot i).clientFd :=
    fun i => (slots i).1
  have stream : ∀ i, (t.world.pool.slot i).streamFd = (s.world.pool.slot i).streamFd :=
    fun i => (slots i).2.1
  refine ⟨⟨?_, ?_, ?_, ?_, ?_, ?_, ?_⟩, ?_, ?_, ?_, ?_, ?_, ?_, ?_⟩
  · simpa only [client] using tracked.agrees.distinct
  · simpa only [client, sameNone] using tracked.agrees.empty
  · simpa only [sameNone, sameSome] using tracked.agrees.whole
  · simpa only [client, serv, serverFd] using tracked.agrees.serv
  · simpa only [stream, strm] using tracked.agrees.strm
  · exact serv ▸ tracked.agrees.servMax
  · exact strm ▸ tracked.agrees.strmMax
  · rw [serverFd]
    exact ⟨tracked.serverFd.1, opened _ tracked.serverFd.2 tracked.serverFd.1⟩
  · intro i
    rw [client]
    exact (tracked.clientFd i).imp_right fun both => ⟨both.1, opened _ both.2 both.1⟩
  · intro i pos
    rw [stream] at pos ⊢
    exact opened _ (tracked.streamFd i pos) pos
  · simpa only [stream] using tracked.streams
  · simpa only [client, stream] using tracked.apart
  · simpa only [client, stream, serverFd] using tracked.notServer
  · rw [serverFd]
    exact accepted

/-! ### One operation -/

/-- The field that a search compares. -/
def FindType.field : FindType → Client → Int
  | .clientFd => Client.clientFd
  | .streamFd => Client.streamFd

theorem findClientIndex_slot {fd : Int} {pool : Pool} {find : FindType} {idx : Nat}
    (found : findClientIndex fd pool find = some idx) :
    0 < fd ∧ idx < maxClients ∧ find.field (pool.slot idx) = fd := by
  unfold findClientIndex at found
  split at found
  · cases found
  next pos =>
      refine ⟨not_le.mp pos, ?_⟩
      cases find <;>
        obtain ⟨bound, is, _⟩ := List.findIdx?_eq_some_iff_getElem.mp found <;>
        exact ⟨pool.size ▸ bound, by simpa [FindType.field, Pool.slot, bound] using is⟩

theorem findClientIndex_none {fd : Int} {pool : Pool} {find : FindType} (pos : 0 < fd)
    (absent : findClientIndex fd pool find = none) (i : Nat) : find.field (pool.slot i) ≠ fd := by
  unfold findClientIndex at absent
  rw [if_neg (not_le.mpr pos)] at absent
  by_cases bound : i < pool.clientArr.length
  · cases find <;>
      simpa [FindType.field, Pool.slot, bound] using
        List.findIdx?_eq_none_iff.mp absent _ (List.getElem_mem bound)
  · have past : pool.slot i = emptyClient := by
      rw [Pool.slot, List.getD_eq_getElem?_getD, List.getElem?_eq_none (not_lt.mp bound)]
      rfl
    rw [past]
    cases find <;> simp only [FindType.field, emptyClient] <;> omega

/-- What becomes of the server when `connect_new_client` returns. -/
theorem connectNewClient_some (fd : Int) (s : Server) :
    (∃ id, connectNewClient (some fd) s =
      (0, false, { (s.accepts fd).close fd with clientId := id })) ∨
    connectNewClient (some fd) s = (0, true, s.accepts fd) ∨
    ∃ pool, addClient s.clientId fd s.world.pool = some pool ∧
      connectNewClient (some fd) s =
        (fd, false, { s.accepts fd with world.pool := pool, clientId := s.clientId + 1 }) := by
  simp only [connectNewClient]
  by_cases bad : getClientCnt s.world.pool < 0
  · exact .inl ⟨s.clientId, by rw [if_pos bad]; rfl⟩
  · rw [if_neg bad]
    by_cases full : maxClients ≤ getClientCnt s.world.pool
    · exact .inr (.inl (by rw [if_pos full]))
    · rw [if_neg full]
      cases added : addClient s.clientId fd s.world.pool with
      | none => exact .inl ⟨s.clientId + 1, rfl⟩
      | some pool => exact .inr (.inr ⟨pool, rfl, rfl⟩)

theorem Tracked.accept {s : Server} (tracked : Tracked s) {result : Option Int}
    (fresh : ∀ fd ∈ result, s.HandsOut fd) : Tracked (acceptClient result s) := by
  cases result with
  | none => exact tracked
  | some fd =>
      have new : s.HandsOut fd := fresh fd rfl
      have kept : ∀ fd' ∈ s.opened, ∀ fd'', fd'' = fd ∨ fd'' = 0 → 0 < fd' →
          fd' ∈ (insert fd s.opened).erase fd'' := by
        rintro fd' mem fd'' is pos
        refine Finset.mem_erase.mpr ⟨?_, Finset.mem_insert_of_mem mem⟩
        rintro rfl
        rcases is with rfl | rfl
        · exact new.2 mem
        · exact lt_irrefl 0 pos
      have accepted : ∀ fd' ∈ insert fd s.accepted, 0 < fd' ∧ fd' ≠ s.serverFd := by
        intro fd' mem
        rcases Finset.mem_insert.mp mem with rfl | old
        · exact ⟨new.1, fun is => new.2 (is ▸ tracked.serverFd.2)⟩
        · exact tracked.accepted fd' old
      rcases connectNewClient_some fd s with ⟨id, made⟩ | made | ⟨pool, added, made⟩
      · simp only [acceptClient, made, if_true, Bool.false_eq_true, if_false]
        exact tracked.congr (fun _ => ⟨rfl, rfl, rfl, rfl⟩) rfl rfl rfl
          (fun fd' mem => kept fd' mem fd (.inl rfl)) accepted
      · simp only [acceptClient, made, if_true]
        exact tracked.congr (fun _ => ⟨rfl, rfl, rfl, rfl⟩) rfl rfl rfl
          (fun fd' mem => kept fd' mem 0 (.inr rfl)) accepted
      · obtain ⟨idx, _, free, rfl⟩ := addClient_some added
        have bound : idx < maxClients := by
          rw [← s.world.pool.length_fds]
          exact (List.getElem?_eq_some_iff.mp free).1
        have free' : (s.world.pool.slot idx).clientFd = 0 := by
          rw [Pool.slot_clientFd, List.getD_eq_getElem?_getD, free]
          rfl
        simp only [acceptClient, made, if_neg (ne_of_gt new.1)]
        exact tracked.fill free' new (.of_store bound rfl rfl) rfl rfl rfl rfl

theorem getClientStreamFd_of_found {fd : Int} {pool : Pool} {idx : Nat}
    (found : findClientIndex fd pool .clientFd = some idx) :
    getClientStreamFd fd pool = (pool.slot idx).streamFd := by
  rw [getClientStreamFd, found]

/-- The slot of a stream is found by its descriptor. -/
theorem Tracked.findStream {s : Server} (tracked : Tracked s) {idx : Nat}
    (pos : 0 < (s.world.pool.slot idx).streamFd) :
    findClientIndex (s.world.pool.slot idx).streamFd s.world.pool .streamFd = some idx := by
  cases found : findClientIndex (s.world.pool.slot idx).streamFd s.world.pool .streamFd with
  | none => exact absurd rfl (findClientIndex_none pos found idx)
  | some idx' =>
      have same := (findClientIndex_slot found).2.2
      by_contra other
      exact tracked.streams idx idx' (fun is => other (by rw [is])) pos same.symm

/-- `remove_client_stream` takes the stream of a slot away. -/
theorem Tracked.removeStream {s : Server} (tracked : Tracked s) {idx : Nat}
    (pos : 0 < (s.world.pool.slot idx).streamFd) :
    removeClientStream (s.world.pool.slot idx).streamFd s.world =
      (clearStream idx s.world, [.closed (s.world.pool.slot idx).streamFd]) := by
  have whole : (s.world.pool.slot idx).streamSet = true := by
    rcases tracked.agrees.whole idx with none | some_
    · exact absurd none.1 (ne_of_gt pos)
    · simp [Client.streamSet, some_.1, some_.2.1, some_.2.2]
  simp only [OdroidPlayer.removeClientStream, checkStreamAlive, tracked.findStream pos, whole,
    if_true]

theorem Tracked.streamFailed {s : Server} (tracked : Tracked s) (idx : Nat) :
    Tracked (streamFailed idx s) := by
  unfold OdroidPlayer.streamFailed OdroidPlayer.findStream
  dsimp only
  split
  · exact tracked
  next some_ =>
      have pos : 0 < (s.world.pool.slot idx).streamFd := not_le.mp some_
      have bound : idx < maxClients := (findClientIndex_slot (tracked.findStream pos)).2.1
      rw [tracked.removeStream pos]
      exact tracked.unsetStream rfl pos (.of_store bound rfl rfl) rfl ⟨rfl, rfl, rfl⟩ rfl rfl rfl
        rfl

theorem Tracked.disconnect {s : Server} (tracked : Tracked s) {fd : Int}
    (accepted : fd ∈ s.accepted) : Tracked (disconnectClient fd s) := by
  obtain ⟨pos, notServer⟩ := tracked.accepted fd accepted
  cases found : findClientIndex fd s.world.pool .clientFd with
  | none =>
      have absent : fd ∉ s.serv.set := by
        rw [tracked.agrees.serv]
        rintro (is | ⟨_, i, here⟩)
        · exact notServer is
        · exact findClientIndex_none pos found i here
      have serv : updateFdSet fd s.serv .remove = s.serv := by
        simp only [updateFdSet, if_neg (not_le.mpr pos), Finset.erase_eq_of_notMem absent]
      have unset : getClientStreamFd fd s.world.pool = -1 := by rw [getClientStreamFd, found]
      have removed : removeClient fd s.world = (s.world, []) := by rw [removeClient, found]
      have same : disconnectClient fd s = s := by
        simp only [disconnectClient, serv, unset, removed]
        rfl
      exact same.symm ▸ tracked
  | some idx =>
      obtain ⟨_, bound, here⟩ := findClientIndex_slot found
      have stream := getClientStreamFd_of_found found
      rcases tracked.agrees.whole idx with none | some_
      · have removed : removeClient fd s.world =
            ({ s.world with pool := clearClient idx s.world.pool }, [.closed fd]) := by
          simp only [removeClient, found, stream, none.1, OdroidPlayer.removeClientStream]
          rfl
        refine tracked.clear here pos none (.of_store bound ?_ rfl) rfl ?_ ?_ rfl
        · simp only [disconnectClient, removed]
          rfl
        · simp only [disconnectClient, stream, none.1]
          rfl
        · simp only [disconnectClient, removed]
          rfl
      · have removed : removeClient fd s.world =
            ({ clearStream idx s.world with
                pool := clearClient idx (clearStream idx s.world).pool },
              [.closed (s.world.pool.slot idx).streamFd, .closed fd]) := by
          simp only [removeClient, found, stream, tracked.removeStream some_.1]
          rfl
        have dropped := tracked.unsetStream rfl some_.1 (t := { s with
            world := clearStream idx s.world
            strm := updateFdSet (s.world.pool.slot idx).streamFd s.strm .remove
            opened := s.opened.erase (s.world.pool.slot idx).streamFd })
          (.of_store bound rfl rfl) rfl ⟨rfl, rfl, rfl⟩ rfl rfl rfl rfl
        have cleared : ((clearStream idx s.world).pool.slot idx) =
            { s.world.pool.slot idx with
              streamFd := 0, serverStreamPath := none, clientStreamPath := none } :=
          Pool.slot_store_self _ _ bound
        refine dropped.clear ?_ pos ?_ (.of_store bound ?_ rfl) rfl ?_ ?_ rfl
        · dsimp only
          rw [cleared]
          exact here
        · dsimp only
          rw [cleared]
          exact ⟨rfl, rfl, rfl⟩
        · simp only [disconnectClient, removed]
          rfl
        · simp only [disconnectClient, stream, if_pos some_.1]
          rfl
        · simp only [disconnectClient, removed]
          rfl

/-- The system calls for a datagram socket succeed. -/
def SocketEnv.Binds (env : SocketEnv) : Prop :=
  env.socket.isSome ∧ env.bind = true ∧ env.chmod = true

instance (env : SocketEnv) : Decidable env.Binds := by
  unfold SocketEnv.Binds
  infer_instance

/-- What a socket with a positive descriptor at a path that does not exist leaves. -/
theorem createSocketUds_cases {env : SocketEnv} {path : String} {files : List String}
    (pos : ∀ n ∈ env.socket, 0 < n) (free : path ∉ files) :
    (¬ env.Binds ∧ (createSocketUds env .dgram path files).1 = 0 ∧
      (createSocketUds env .dgram path files).2.1 = files ∧
      ∀ d ∈ (createSocketUds env .dgram path files).2.2,
        ∃ fd : Nat, env.socket = some fd ∧ (d = .opened fd ∨ d = .closed fd)) ∨
    ∃ fd : Nat, env.Binds ∧ env.socket = some fd ∧ 0 < fd ∧
      createSocketUds env .dgram path files = ((fd : Int), path :: files, [.opened fd]) := by
  have unlinked : unlink (some path) files = files :=
    List.filter_eq_self.mpr fun file mem => by
      simp only [decide_eq_true_eq]
      rintro rfl
      exact free mem
  unfold createSocketUds
  cases made : env.socket with
  | none => exact .inl ⟨fun binds => by simp [SocketEnv.Binds, made] at binds, rfl, rfl, by simp⟩
  | some fd =>
      simp only [unlinked]
      split
      next unbound =>
          exact .inl ⟨fun binds => by simp [binds.2.1] at unbound, rfl, rfl, by simp⟩
      next bound =>
          split
          next closed =>
              exact .inl ⟨fun binds => by simp [binds.2.2] at closed, rfl, rfl, by simp⟩
          next set =>
              refine .inr ⟨fd, ⟨?_, ?_, ?_⟩, rfl, pos fd made, rfl⟩
              · rw [made]
                rfl
              · simpa using bound
              · simpa using (not_or.mp set).1

/-- The files when the paths of a slot have been unlinked. -/
def filesWithout (client : Client) (files : List String) : List String :=
  unlink client.clientStreamPath (unlink client.serverStreamPath files)

/-- The slot of a client with a new stream. -/
def Client.withStream (client : Client) (streamFd : Int) (serverPath clientPath : String) :
    Client :=
  { client with
    streamFd := streamFd
    serverStreamPath := some serverPath
    clientStreamPath := some clientPath
    streamFunc := none }

@[simp] theorem Client.withStream_streamFd (client : Client) (fd : Int) (server path : String) :
    (client.withStream fd server path).streamFd = fd := rfl

/-- The search for a client does not see its stream. -/
theorem findClientIndex_withStream (fd fd' : Int) (pool : Pool) (idx : Nat)
    (server path : String) :
    findClientIndex fd' (pool.store idx ((pool.slot idx).withStream fd server path)) .clientFd =
      findClientIndex fd' pool .clientFd := by
  have same : (pool.store idx ((pool.slot idx).withStream fd server path)).fds = pool.fds :=
    pool.fds_store_slot idx rfl
  rw [findClientIndex_eq, same, ← findClientIndex_eq]

/-- What `create_client_stream` does to the slot of its client: nothing, or a stream with
the descriptor that `socket` has returned and two names that no file has. -/
theorem createStreamAt_cases {env : SocketEnv} (pos : ∀ n ∈ env.socket, 0 < n) (idx : Nat)
    (w : World) :
    (¬ env.Binds ∧ (createStreamAt env idx w).1 = false ∧
      (createStreamAt env idx w).2.1 = ⟨w.pool, filesWithout (w.pool.slot idx) w.files⟩ ∧
      ∀ d ∈ (createStreamAt env idx w).2.2,
        ∃ fd : Nat, env.socket = some fd ∧ (d = .opened fd ∨ d = .closed fd)) ∨
    ∃ (fd : Nat) (server client : String), env.Binds ∧ env.socket = some fd ∧ 0 < fd ∧
      createSocketName (filesWithout (w.pool.slot idx) w.files) "ops_stream" = some server ∧
      createSocketName (filesWithout (w.pool.slot idx) w.files) "opc_stream" = some client ∧
      createStreamAt env idx w =
        (true, ⟨w.pool.store idx ((w.pool.slot idx).withStream fd server client),
          server :: filesWithout (w.pool.slot idx) w.files⟩, [.opened fd]) := by
  obtain ⟨server, named, free⟩ :=
    createSocketName_of_files (filesWithout (w.pool.slot idx) w.files) "ops_stream"
  obtain ⟨client, named', _⟩ :=
    createSocketName_of_files (filesWithout (w.pool.slot idx) w.files) "opc_stream"
  have outcome := createSocketUds_cases pos free
  unfold filesWithout at named named' outcome ⊢
  simp only [createStreamAt, named, named']
  rcases outcome with ⟨fails, zero, files, events⟩ | ⟨fd, binds, made, pos', result⟩
  · generalize createSocketUds env .dgram server (unlink (w.pool.slot idx).clientStreamPath
      (unlink (w.pool.slot idx).serverStreamPath w.files)) = out at zero files events ⊢
    obtain ⟨fd, files', es⟩ := out
    dsimp only at zero files events
    subst zero files
    exact .inl ⟨fails, rfl, rfl, events⟩
  · obtain ⟨n, rfl⟩ := Nat.exists_eq_add_of_lt pos'
    rw [result]
    exact .inr ⟨0 + n + 1, server, client, binds, made, pos', rfl, rfl, rfl⟩

/-- The function of a stream is not tracked. -/
theorem Tracked.setFunc {s : Server} (tracked : Tracked s) (fd : Int) (func : StreamFunc) :
    Tracked { s with world.pool := (setClientStreamFunc fd func s.world.pool).2 } := by
  unfold setClientStreamFunc
  split
  · exact tracked
  next idx found =>
      have bound := (findClientIndex_slot found).2.1
      refine tracked.congr (fun i => ?_) rfl rfl rfl (fun _ mem _ => mem) tracked.accepted
      by_cases same : i = idx
      · subst same
        have stored : (setFuncAt i func s.world.pool).slot i = _ := Pool.slot_store_self _ _ bound
        dsimp only
        rw [stored]
        exact ⟨rfl, rfl, rfl, rfl⟩
      · have stored : (setFuncAt idx func s.world.pool).slot i = _ := Pool.slot_store_ne _ _ same
        dsimp only
        rw [stored]
        exact ⟨rfl, rfl, rfl, rfl⟩

/-- A slot that is not set has no stream. -/
theorem Tracked.noStream {s : Server} (tracked : Tracked s) {fd : Int} {idx : Nat}
    (found : findClientIndex fd s.world.pool .clientFd = some idx)
    (unset : checkStreamIsSet fd s.world.pool = false) : (s.world.pool.slot idx).NoStream := by
  rcases tracked.agrees.whole idx with none | some_
  · exact none
  · simp [checkStreamIsSet, found, Client.streamSet, some_.1, some_.2.1, some_.2.2] at unset

/-- System calls about other descriptors leave one open. -/
theorem mem_track {fd : Int} {es : List Descriptor} {opened : Finset Int}
    (others : ∀ d ∈ es, ∃ fd' ≠ fd, d = .opened fd' ∨ d = .closed fd') (mem : fd ∈ opened) :
    fd ∈ es.foldl Descriptor.track opened := by
  induction es generalizing opened with
  | nil => exact mem
  | cons d es ih =>
      refine ih (fun d' later => others d' (List.mem_cons_of_mem _ later)) ?_
      obtain ⟨fd', other, rfl | rfl⟩ := others d List.mem_cons_self
      · exact Finset.mem_insert_of_mem mem
      · exact Finset.mem_erase.mpr ⟨other.symm, mem⟩

/-- A client without a stream gets one, or a socket that is not used stays open. -/
theorem Tracked.setNewStream {s : Server} (tracked : Tracked s) {env : SocketEnv} {fd : Int}
    (fresh : ∀ n ∈ env.socket, s.HandsOut n) (unset : checkStreamIsSet fd s.world.pool = false) :
    Tracked (setNewStream env fd s).2 := by
  cases found : findClientIndex fd s.world.pool .clientFd with
  | none =>
      have same : (OdroidPlayer.setNewStream env fd s).2 = s := by
        simp only [OdroidPlayer.setNewStream, createClientStream, found]
        rfl
      exact same.symm ▸ tracked
  | some idx =>
      obtain ⟨pos, bound, here⟩ := findClientIndex_slot found
      have vacant := tracked.noStream found unset
      have positive : ∀ n ∈ env.socket, 0 < n := fun n made => by
        have := (fresh n made).1
        omega
      rcases createStreamAt_cases positive idx s.world with
        ⟨_, failed, world, events⟩ | ⟨n, server, client, _, made, _, _, _, result⟩
      · have same : (OdroidPlayer.setNewStream env fd s).2 =
            s.after (createStreamAt env idx s.world).2 := by
          simp only [OdroidPlayer.setNewStream, createClientStream, found]
          generalize createStreamAt env idx s.world = out at failed
          obtain ⟨result, out⟩ := out
          cases failed
          rfl
        rw [same]
        refine tracked.congr (fun i => ?_) rfl rfl rfl (fun fd' mem _ => ?_) tracked.accepted
        · simp only [Server.after, world, and_self]
        · refine mem_track (fun d later => ?_) mem
          obtain ⟨n, made, is⟩ := events d later
          exact ⟨n, fun eq => (fresh n made).2 (eq ▸ mem), is⟩
      · have found' : findClientIndex fd (s.world.pool.store idx
            ((s.world.pool.slot idx).withStream n server client)) .clientFd = some idx :=
          (findClientIndex_withStream ..).trans found
        have streamFd := getClientStreamFd_of_found found'
        rw [Pool.slot_store_self _ _ bound, Client.withStream_streamFd] at streamFd
        have new := fresh n made
        have known : 0 < (s.world.pool.slot idx).clientFd := pos.trans_eq here.symm
        have same : (OdroidPlayer.setNewStream env fd s).2 =
            { s.after (createStreamAt env idx s.world).2 with
              strm := updateFdSet n s.strm .add } := by
          simp only [OdroidPlayer.setNewStream, createClientStream, found, result, streamFd]
          rw [if_neg (not_le.mpr new.1)]
        rw [same, result]
        exact tracked.setStream known vacant new (.of_store bound rfl rfl) rfl rfl
          ⟨new.1, rfl, rfl⟩ rfl rfl rfl rfl

theorem Tracked.stream {s : Server} (tracked : Tracked s) {env : SocketEnv} {fd : Int}
    (fresh : ∀ n ∈ env.socket, s.HandsOut n) (time : Bool) :
    Tracked (executeStream env time fd s) := by
  have ensured : Tracked (ensureStream env fd s) := by
    unfold ensureStream
    split
    · exact tracked
    next unset => exact tracked.setNewStream fresh (by simpa using unset)
  unfold executeStream
  dsimp only
  split
  · exact ensured.setFunc fd .getStreamTime
  · exact ensured

theorem StartServer.slot {s : Server} (start : StartServer s) (i : Nat) :
    s.world.pool.slot i = emptyClient := by
  rw [start.2.2.1, Pool.slot, List.getD_eq_getElem?_getD]
  simp only [createClientPool, List.getElem?_replicate]
  split <;> rfl

theorem StartServer.tracked {s : Server} (start : StartServer s) : Tracked s := by
  have slot := start.slot
  obtain ⟨pos, isOpen, _, serv, strm, accepted⟩ := start
  refine ⟨⟨?_, ?_, ?_, ?_, ?_, ?_, ?_⟩, ⟨pos, isOpen⟩, ?_, ?_, ?_, ?_, ?_, ?_⟩
  · simp [slot, emptyClient]
  · simp [slot, emptyClient, Client.NoStream]
  · simp [slot, emptyClient, Client.NoStream]
  · intro fd
    simp only [serv, Finset.mem_singleton, slot, emptyClient]
    omega
  · intro fd
    simp only [strm, slot, emptyClient, Finset.notMem_empty, false_iff]
    omega
  · simp [serv, Watch.Bounded]
  · simp [strm, Watch.Bounded]
  · simp [slot, emptyClient]
  · simp [slot, emptyClient]
  · simp [slot, emptyClient]
  · simp [slot, emptyClient]
  · simp only [slot, emptyClient]
    omega
  · simp [accepted]

theorem Tracked.keep {s t : Server} {o : Operation} {es : List Unit} (tracked : Tracked s)
    (step : servers.step s o = some (t, es)) : Tracked t := by
  simp only [servers] at step
  split at step
  next admitted =>
      cases step
      cases o with
      | accept result => exact tracked.accept admitted
      | disconnect fd => exact tracked.disconnect admitted
      | stream env time fd => exact tracked.stream admitted.2 time
      | streamFailed idx => exact tracked.streamFailed idx
  · cases step

theorem tracked_reached {s : Server} (reach : servers.Reachable StartServer s) : Tracked s :=
  reach.rec_inv (fun _ => StartServer.tracked) fun _ _ _ _ tracked step => tracked.keep step

/-- After any sequence of operations the pool and the sets agree, and a STREAM request
that makes a stream finds a slot without one. -/
theorem agrees_reached {s : Server} (reach : servers.Reachable StartServer s) :
    s.Agrees ∧ ∀ fd idx, findClientIndex fd s.world.pool .clientFd = some idx →
      checkStreamIsSet fd s.world.pool = false → (s.world.pool.slot idx).NoStream := by
  have tracked := tracked_reached reach
  exact ⟨tracked.agrees, fun _ _ => tracked.noStream⟩

/-- A server with socket 3 and no files. -/
def newServer : Server where
  world := ⟨createClientPool, []⟩
  serv := ⟨{3}, 3⟩
  strm := ⟨∅, 0⟩
  serverFd := 3
  clientId := 0
  opened := {0, 1, 2, 3}
  accepted := ∅

theorem newServer_start : StartServer newServer := ⟨by decide, by decide, rfl, rfl, rfl, rfl⟩

/-- One client with a stream, after one whose stream could not be sent to and one that
has left. -/
def oneStream : List Operation :=
  [.accept (some 4), .accept (some 5), .stream ⟨some 6, true, true, true⟩ true 4,
    .stream ⟨some 7, true, true, true⟩ true 5, .streamFailed 0, .disconnect 4]

theorem oneStream_agrees : ∃ s, servers.Reachable StartServer s ∧ s.Agrees ∧ s.strm.set = {7} := by
  have reach : servers.Reachable StartServer _ :=
    ⟨_, newServer, newServer_start, oneStream, rfl⟩
  exact ⟨_, reach, (agrees_reached reach).1, by decide⟩

end OdroidPlayer
