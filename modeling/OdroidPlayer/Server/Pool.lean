import OdroidPlayer.Lib.Slots
import Mathlib.Data.List.Basic
import Mathlib.Data.Finset.Card

/-!
The client pool (`server/client/client.c`) and the sockets of its streams
(`server/socket/socket.c`).

Every block of the source that holds `client_mutex` is one definition here, and the
functions of the pool are made of them. `Descriptor` events say which descriptors the
process opens and closes. A path that the source frees without replacing it stays in its
slot, as the pointer does.
-/

namespace OdroidPlayer

def maxClients : Nat := 8

/-- What the stream thread sends to a client. -/
inductive StreamFunc where
  | getStreamTime
  deriving DecidableEq, Repr

/-- `t_client`. -/
structure Client where
  clientId : Int
  clientFd : Int
  streamFd : Int
  serverStreamPath : Option String
  clientStreamPath : Option String
  streamFunc : Option StreamFunc
  deriving DecidableEq, Repr

def Client.connected (client : Client) : Bool := 0 < client.clientFd

/-- A slot after `memset`. -/
def emptyClient : Client := ⟨0, 0, 0, none, none, none⟩

/-- `t_client_pool`. -/
structure Pool where
  clientArr : List Client
  clientCnt : Int
  size : clientArr.length = maxClients

instance : DecidableEq Pool := fun p q =>
  decidable_of_iff (p.clientArr = q.clientArr ∧ p.clientCnt = q.clientCnt) (by
    cases p
    cases q
    simp)

def createClientPool : Pool := ⟨List.replicate maxClients emptyClient, 0, by simp⟩

namespace Pool

def slot (pool : Pool) (idx : Nat) : Client := pool.clientArr.getD idx emptyClient

def store (pool : Pool) (idx : Nat) (client : Client) : Pool where
  clientArr := pool.clientArr.set idx client
  clientCnt := pool.clientCnt
  size := by rw [List.length_set, pool.size]

end Pool

/-! ### Lookups -/

inductive FindType where
  | clientFd | streamFd
  deriving DecidableEq, Repr

/-- `none` is the -1 of a descriptor that no slot has. -/
def findClientIndex (fd : Int) (pool : Pool) (find : FindType) : Option Nat :=
  if fd ≤ 0 then none
  else match find with
    | .clientFd => pool.clientArr.findIdx? fun client => client.clientFd = fd
    | .streamFd => pool.clientArr.findIdx? fun client => client.streamFd = fd

def getClientCnt (pool : Pool) : Int := pool.clientCnt

/-- `find_client` and `find_client_id` of an index below `MAX_CLIENTS`. -/
def findClient (index : Nat) (pool : Pool) : Int := (pool.slot index).clientFd

def findClientId (index : Nat) (pool : Pool) : Int := (pool.slot index).clientId

def getClientStreamFd (clientFd : Int) (pool : Pool) : Int :=
  match findClientIndex clientFd pool .clientFd with
  | none => -1
  | some idx => (pool.slot idx).streamFd

/-- The slot has both paths and a socket. -/
def Client.streamSet (client : Client) : Bool :=
  client.serverStreamPath.isSome && client.clientStreamPath.isSome && decide (0 < client.streamFd)

def checkStreamAlive (streamFd : Int) (pool : Pool) : Bool :=
  match findClientIndex streamFd pool .streamFd with
  | none => false
  | some idx => (pool.slot idx).streamSet

def checkStreamIsSet (clientFd : Int) (pool : Pool) : Bool :=
  match findClientIndex clientFd pool .clientFd with
  | none => false
  | some idx => (pool.slot idx).streamSet

/-- The copy of the first `client_cnt` slots; `none` for NULL. -/
def getClientArr (malloc : Bool) (pool : Pool) : Option (List Client) :=
  if getClientCnt pool ≤ 0 then none
  else if malloc = false then none
  else some (pool.clientArr.take (getClientCnt pool).toNat)

/-! ### Clients come and go -/

/-- What `add_client` does to the slot it has found. -/
def fillClient (idx : Nat) (clientId clientFd : Int) (pool : Pool) : Pool :=
  { pool.store idx { emptyClient with clientId := clientId, clientFd := clientFd } with
    clientCnt := pool.clientCnt + 1 }

/-- `none` when there is no free slot. -/
def addClient (clientId clientFd : Int) (pool : Pool) : Option Pool :=
  match pool.clientArr.findIdx? fun client => client.clientFd = 0 with
  | none => none
  | some idx => some (fillClient idx clientId clientFd pool)

/-- The last block of `remove_client`, without its `close`. -/
def clearClient (idx : Nat) (pool : Pool) : Pool :=
  { pool.store idx emptyClient with clientCnt := pool.clientCnt - 1 }

/-! ### Streams -/

inductive Descriptor where
  | opened (fd : Int)
  | closed (fd : Int)
  deriving DecidableEq, Repr

/-- The pool and the files that exist. -/
structure World where
  pool : Pool
  files : List String

def unlink (path : Option String) (files : List String) : List String :=
  match path with
  | none => files
  | some path => files.filter fun file => file ≠ path

/-- The last block of `remove_client_stream`, without its `close`. -/
def clearStream (idx : Nat) (w : World) : World :=
  let client := w.pool.slot idx
  { pool := w.pool.store idx
      { client with streamFd := 0, serverStreamPath := none, clientStreamPath := none }
    files := unlink client.clientStreamPath (unlink client.serverStreamPath w.files) }

def removeClientStream (streamFd : Int) (w : World) : World × List Descriptor :=
  match findClientIndex streamFd w.pool .streamFd with
  | none => (w, [])
  | some idx =>
      if checkStreamAlive streamFd w.pool then (clearStream idx w, [.closed streamFd]) else (w, [])

def removeClient (clientFd : Int) (w : World) : World × List Descriptor :=
  match findClientIndex clientFd w.pool .clientFd with
  | none => (w, [])
  | some idx =>
      let (w', es) := removeClientStream (getClientStreamFd clientFd w.pool) w
      ({ w' with pool := clearClient idx w'.pool }, es ++ [.closed clientFd])

def socketName (name : String) (cnt : Nat) : String := "/tmp/" ++ name ++ cnt.repr ++ ".sock"

/-- The first name that is not taken. There is one among `files.length + 1` names
(`createSocketName_of_files`). -/
def createSocketName (files : List String) (name : String) : Option String :=
  ((List.range (files.length + 1)).map (socketName name)).find? fun path => path ∉ files

inductive SocketType where
  | stream | dgram
  deriving DecidableEq, Repr

/-- The results of the system calls. -/
structure SocketEnv where
  /-- `none` when `socket` fails -/
  socket : Option Nat
  bind : Bool
  chmod : Bool
  listen : Bool
  deriving DecidableEq, Repr

/-- The descriptor, or 0. When `bind` fails the socket is not closed. -/
def createSocketUds (env : SocketEnv) (type : SocketType) (path : String) (files : List String) :
    Int × List String × List Descriptor :=
  match env.socket with
  | none => (0, files, [])
  | some fd =>
      let unlinked := unlink (some path) files
      if env.bind = false then (0, unlinked, [.opened fd])
      else if env.chmod = false ∨ (type = .stream ∧ env.listen = false) then
        (0, unlinked, [.opened fd, .closed fd])
      else (fd, path :: unlinked, [.opened fd])

/-- The block of `create_client_stream` that works on the slot it has found: the result,
and the sockets that are there after it. -/
def createStreamAt (env : SocketEnv) (idx : Nat) (w : World) :
    Bool × World × List Descriptor :=
  let client := w.pool.slot idx
  let files := unlink client.clientStreamPath (unlink client.serverStreamPath w.files)
  match createSocketName files "ops_stream", createSocketName files "opc_stream" with
  | some serverSocket, some clientSocket =>
      match createSocketUds env .dgram serverSocket files with
      | (0, files', es) => (false, { w with files := files' }, es)
      | (streamFd, files', es) =>
          let set := { client with
            streamFd := streamFd
            serverStreamPath := some serverSocket
            clientStreamPath := some clientSocket
            streamFunc := none }
          (true, ⟨w.pool.store idx set, files'⟩, es)
  | _, _ => (false, { w with files := files }, [])

def createClientStream (env : SocketEnv) (clientFd : Int) (w : World) :
    Bool × World × List Descriptor :=
  match findClientIndex clientFd w.pool .clientFd with
  | none => (false, w, [])
  | some idx => createStreamAt env idx w

/-- The block of `set_client_stream_func` that works on the slot it has found. -/
def setFuncAt (idx : Nat) (func : StreamFunc) (pool : Pool) : Pool :=
  pool.store idx { pool.slot idx with streamFunc := some func }

def setClientStreamFunc (clientFd : Int) (func : StreamFunc) (pool : Pool) : Bool × Pool :=
  match findClientIndex clientFd pool .clientFd with
  | none => (false, pool)
  | some idx => (true, setFuncAt idx func pool)

/-! ### The name of a new socket -/

theorem socketName_injective (name : String) : Function.Injective (socketName name) := by
  intro m n same
  have chars : Nat.toDigits 10 m = Nat.toDigits 10 n := by
    have lists := congrArg String.toList same
    simpa [socketName, String.toList_append, Nat.toList_repr] using lists
  rw [← Nat.ofDigitChars_ten_toDigits (n := m), chars, Nat.ofDigitChars_ten_toDigits]

/-- The loop of `create_socket_name` ends. -/
theorem createSocketName_of_files (files : List String) (name : String) :
    ∃ path, createSocketName files name = some path ∧ path ∉ files := by
  cases found : createSocketName files name with
  | some path => exact ⟨path, rfl, by simpa using List.find?_some found⟩
  | none =>
      exfalso
      have all : ∀ path ∈ (List.range (files.length + 1)).map (socketName name), path ∈ files := by
        intro path mem
        simpa using List.find?_eq_none.mp found path mem
      have nodup := List.nodup_range (n := files.length + 1).map (socketName_injective name)
      have short := (nodup.subperm all).length_le
      simp only [List.length_map, List.length_range] at short
      omega

/-! ### The descriptors of the clients -/

/-- What the blocks of the pool do to the descriptors is all that decides which slots are
free and which are found. -/
def Pool.fds (pool : Pool) : List Int := pool.clientArr.map Client.clientFd

@[simp] theorem Pool.fds_store (pool : Pool) (idx : Nat) (client : Client) :
    (pool.store idx client).fds = pool.fds.set idx client.clientFd :=
  List.map_set

/-- A slot after a store is the stored one or an old one. -/
theorem Pool.slot_store (pool : Pool) (idx i : Nat) (client : Client) :
    (i = idx ∧ (pool.store idx client).slot i = client) ∨
      (pool.store idx client).slot i = pool.slot i := by
  simp only [slot, store, List.getD_eq_getElem?_getD, List.getElem?_set]
  split
  next same =>
      split
      · exact .inl ⟨same.symm, rfl⟩
      next out =>
          subst same
          rw [List.getElem?_eq_none (not_lt.mp out)]
          exact .inr rfl
  · exact .inr rfl

theorem Pool.slot_store_self (pool : Pool) {idx : Nat} (client : Client) (bound : idx < maxClients) :
    (pool.store idx client).slot idx = client := by
  rw [← pool.size] at bound
  simp [slot, store, List.getD_eq_getElem?_getD, bound]

theorem Pool.slot_store_ne (pool : Pool) {idx i : Nat} (client : Client) (other : i ≠ idx) :
    (pool.store idx client).slot i = pool.slot i := by
  rcases pool.slot_store idx i client with ⟨same, _⟩ | old
  · exact absurd same other
  · exact old

theorem Pool.length_fds (pool : Pool) : pool.fds.length = maxClients := by
  rw [fds, List.length_map, pool.size]

theorem Pool.slot_clientFd (pool : Pool) (idx : Nat) :
    (pool.slot idx).clientFd = pool.fds.getD idx 0 := by
  rw [slot, fds, List.getD_eq_getElem?_getD, List.getD_eq_getElem?_getD, List.getElem?_map]
  cases pool.clientArr[idx]? <;> rfl

/-- A store that keeps the descriptor of its slot. -/
theorem Pool.fds_store_slot (pool : Pool) (idx : Nat) {client : Client}
    (same : client.clientFd = (pool.slot idx).clientFd) :
    (pool.store idx client).fds = pool.fds := by
  rw [fds_store, same, slot_clientFd]
  by_cases bound : idx < pool.fds.length
  · rw [List.getD_eq_getElem?_getD, List.getElem?_eq_getElem bound, Option.getD_some,
      List.set_getElem_self]
  · rw [List.set_eq_of_length_le (not_lt.mp bound)]

theorem findIdx?_spec {fds : List Int} {p : Int → Bool} {idx : Nat}
    (found : fds.findIdx? p = some idx) : ∃ fd, fds[idx]? = some fd ∧ p fd = true := by
  obtain ⟨bound, holds, _⟩ := List.findIdx?_eq_some_iff_getElem.mp found
  exact ⟨fds[idx], List.getElem?_eq_getElem bound, holds⟩

theorem findClientIndex_eq (fd : Int) (pool : Pool) :
    findClientIndex fd pool .clientFd =
      if fd ≤ 0 then none else pool.fds.findIdx? fun clientFd => clientFd = fd := by
  rw [findClientIndex, Pool.fds, List.findIdx?_map]
  rfl

theorem findClientIndex_some {fd : Int} {pool : Pool} {idx : Nat}
    (found : findClientIndex fd pool .clientFd = some idx) :
    0 < fd ∧ pool.fds[idx]? = some fd := by
  rw [findClientIndex_eq] at found
  split at found
  · cases found
  next pos =>
      obtain ⟨fd', here, is⟩ := findIdx?_spec found
      obtain rfl : fd' = fd := by simpa using is
      exact ⟨not_le.mp pos, here⟩

/-- The lowest free slot is filled. -/
theorem addClient_some {clientId clientFd : Int} {pool pool' : Pool}
    (added : addClient clientId clientFd pool = some pool') :
    ∃ idx, pool.fds.findIdx? (fun fd => fd = 0) = some idx ∧ pool.fds[idx]? = some 0 ∧
      pool' = fillClient idx clientId clientFd pool := by
  unfold addClient at added
  split at added
  · cases added
  next idx found =>
      have found' : pool.fds.findIdx? (fun fd => fd = 0) = some idx := by
        rw [Pool.fds, List.findIdx?_map]
        exact found
      obtain ⟨fd, here, is⟩ := findIdx?_spec found'
      obtain rfl : fd = 0 := by simpa using is
      exact ⟨idx, found', here, (Option.some.inj added).symm⟩

@[simp] theorem fillClient_fds (idx : Nat) (clientId clientFd : Int) (pool : Pool) :
    (fillClient idx clientId clientFd pool).fds = pool.fds.set idx clientFd :=
  pool.fds_store idx _

@[simp] theorem fillClient_clientCnt (idx : Nat) (clientId clientFd : Int) (pool : Pool) :
    (fillClient idx clientId clientFd pool).clientCnt = pool.clientCnt + 1 := rfl

@[simp] theorem clearClient_fds (idx : Nat) (pool : Pool) :
    (clearClient idx pool).fds = pool.fds.set idx 0 :=
  pool.fds_store idx emptyClient

@[simp] theorem clearClient_clientCnt (idx : Nat) (pool : Pool) :
    (clearClient idx pool).clientCnt = pool.clientCnt - 1 := rfl

theorem fillClient_slot_self (clientId clientFd : Int) {idx : Nat} {pool : Pool}
    (bound : idx < maxClients) : ((fillClient idx clientId clientFd pool).slot idx).clientId =
      clientId :=
  congrArg Client.clientId (pool.slot_store_self _ bound)

theorem fillClient_slot_ne (clientId clientFd : Int) {idx i : Nat} {pool : Pool}
    (other : i ≠ idx) : (fillClient idx clientId clientFd pool).slot i = pool.slot i :=
  pool.slot_store_ne _ other

theorem clearClient_slot_ne {idx i : Nat} {pool : Pool} (other : i ≠ idx) :
    (clearClient idx pool).slot i = pool.slot i :=
  pool.slot_store_ne _ other

/-! ### The count of the clients -/

/-- Every descriptor is 0 or positive, and the count is that of the positive ones. -/
structure Counted (pool : Pool) : Prop where
  nonneg : ∀ fd ∈ pool.fds, 0 ≤ fd
  count : pool.clientCnt = pool.fds.countP fun fd => 0 < fd

theorem createClientPool_counted : Counted createClientPool where
  nonneg := by decide
  count := by decide

/-- Nothing but the descriptors and the count is counted. -/
theorem Counted.congr {pool pool' : Pool} (counted : Counted pool) (fds : pool'.fds = pool.fds)
    (cnt : pool'.clientCnt = pool.clientCnt) : Counted pool' where
  nonneg := fds ▸ counted.nonneg
  count := by rw [cnt, fds, counted.count]

theorem Counted.addClient {pool pool' : Pool} (counted : Counted pool) {clientId clientFd : Int}
    (pos : 0 < clientFd) (added : addClient clientId clientFd pool = some pool') :
    Counted pool' := by
  obtain ⟨idx, _, free, rfl⟩ := addClient_some added
  constructor
  · intro fd mem
    rw [fillClient_fds] at mem
    rcases List.mem_or_eq_of_mem_set mem with old | rfl
    · exact counted.nonneg fd old
    · exact le_of_lt pos
  · rw [fillClient_fds, Slots.countP_fill free (by simp) (by simpa using pos),
      fillClient_clientCnt, counted.count]
    rfl

theorem Counted.clearClient {pool : Pool} (counted : Counted pool) {idx : Nat} {fd : Int}
    (here : pool.fds[idx]? = some fd) (pos : 0 < fd) : Counted (clearClient idx pool) := by
  constructor
  · intro fd mem
    rw [clearClient_fds] at mem
    rcases List.mem_or_eq_of_mem_set mem with old | rfl
    · exact counted.nonneg fd old
    · exact le_refl 0
  · have fewer : (pool.fds.set idx 0).countP (fun fd => 0 < fd) + 1 =
        pool.fds.countP (fun fd => 0 < fd) :=
      Slots.countP_clear here (by simpa using pos) (by simp)
    rw [clearClient_clientCnt, clearClient_fds, counted.count, ← fewer]
    omega

theorem Counted.connected {pool : Pool} (counted : Counted pool) :
    pool.clientCnt = pool.clientArr.countP Client.connected := by
  rw [counted.count, Pool.fds, List.countP_map]
  rfl

theorem Counted.bounds {pool : Pool} (counted : Counted pool) :
    0 ≤ pool.clientCnt ∧ pool.clientCnt ≤ maxClients := by
  have most := List.countP_le_length (p := fun fd : Int => 0 < fd) (l := pool.fds)
  rw [pool.length_fds] at most
  rw [counted.count]
  omega

/-! ### The clients while streams come and go -/

/-- The pools differ in nothing but their streams. -/
structure SameClients (pool pool' : Pool) : Prop where
  fds : pool'.fds = pool.fds
  ids : ∀ idx, (pool'.slot idx).clientId = (pool.slot idx).clientId
  cnt : pool'.clientCnt = pool.clientCnt

theorem SameClients.refl (pool : Pool) : SameClients pool pool := ⟨rfl, fun _ => rfl, rfl⟩

theorem SameClients.counted {pool pool' : Pool} (same : SameClients pool pool')
    (counted : Counted pool) : Counted pool' :=
  counted.congr same.fds same.cnt

theorem SameClients.store (pool : Pool) (idx : Nat) {client : Client}
    (fd : client.clientFd = (pool.slot idx).clientFd)
    (id : client.clientId = (pool.slot idx).clientId) :
    SameClients pool (pool.store idx client) where
  fds := pool.fds_store_slot idx fd
  ids := by
    intro i
    rcases pool.slot_store idx i client with ⟨rfl, new⟩ | old
    · rw [new, id]
    · rw [old]
  cnt := rfl

theorem clearStream_same (idx : Nat) (w : World) : SameClients w.pool (clearStream idx w).pool :=
  .store w.pool idx rfl rfl

theorem setFuncAt_same (idx : Nat) (func : StreamFunc) (pool : Pool) :
    SameClients pool (setFuncAt idx func pool) :=
  .store pool idx rfl rfl

theorem createStreamAt_same (env : SocketEnv) (idx : Nat) (w : World) :
    SameClients w.pool (createStreamAt env idx w).2.1.pool := by
  unfold createStreamAt
  dsimp only
  split
  · split
    · exact .refl w.pool
    · exact .store w.pool idx rfl rfl
  · exact .refl w.pool

theorem removeClientStream_same (streamFd : Int) (w : World) :
    SameClients w.pool (removeClientStream streamFd w).1.pool := by
  unfold removeClientStream
  split
  · exact .refl w.pool
  · split
    · exact clearStream_same _ w
    · exact .refl w.pool

theorem createClientStream_same (env : SocketEnv) (clientFd : Int) (w : World) :
    SameClients w.pool (createClientStream env clientFd w).2.1.pool := by
  unfold createClientStream
  split
  · exact .refl w.pool
  · exact createStreamAt_same env _ w

theorem Counted.removeClient {w : World} (counted : Counted w.pool) (clientFd : Int) :
    Counted (removeClient clientFd w).1.pool := by
  unfold OdroidPlayer.removeClient
  split
  · exact counted
  next idx found =>
      obtain ⟨pos, here⟩ := findClientIndex_some found
      have same := removeClientStream_same (getClientStreamFd clientFd w.pool) w
      refine Counted.clearClient (same.counted counted) ?_ pos
      rw [same.fds]
      exact here

end OdroidPlayer
