import OdroidPlayer.Lib.Transition
import OdroidPlayer.Server.Pool
import OdroidPlayer.Wire.Send

/-!
Who a broadcast reaches.

`get_client_arr` copies as many slots as there are clients, from the first slot on, while
`remove_client` leaves its slot free and `add_client` fills the lowest free one. The copy
has the connected clients exactly when they stand in the first slots (`returned_iff`).
-/

namespace OdroidPlayer

open Transition

/-- A call of one of the functions that change the pool. -/
inductive PoolCall where
  | addClient (clientId clientFd : Int)
  | removeClient (clientFd : Int)
  | createClientStream (env : SocketEnv) (clientFd : Int)
  | removeClientStream (streamFd : Int)
  deriving DecidableEq, Repr

/-- The calls one after another. `add_client` asserts that the descriptor is positive. -/
def pools : System World PoolCall Descriptor where
  step w
    | .addClient clientId clientFd =>
        if clientFd ≤ 0 then none
        else some ({ w with pool := (addClient clientId clientFd w.pool).getD w.pool }, [])
    | .removeClient clientFd => some (removeClient clientFd w)
    | .createClientStream env clientFd => some (createClientStream env clientFd w).2
    | .removeClientStream streamFd => some (removeClientStream streamFd w)

/-- A pool that has just been created. -/
def FreshPool (w : World) : Prop := w.pool = createClientPool

/-- The clients in the copy of `get_client_arr`; there are none behind NULL. -/
def returned (malloc : Bool) (pool : Pool) : List Client := (getClientArr malloc pool).getD []

def connectedClients (pool : Pool) : List Client := pool.clientArr.filter Client.connected

/-- `send_broadcast_message` on a pool. -/
def poolBroadcast (codec : Codec) (malloc : Bool) (pool : Pool) (msg : Option CString)
    (msgIdx : Int32) (status : Status) (cmd : Int32) : List Send :=
  sendBroadcastMessage codec ((returned malloc pool).map Client.clientFd) msg msgIdx status cmd

/-- The copy has every connected client once and nothing else, and so a broadcast whose
sends succeed goes to exactly the connected clients. -/
def ReachesAll (malloc : Bool) (pool : Pool) : Prop :=
  (returned malloc pool).Perm (connectedClients pool) ∧
    ∀ (codec : Codec) (msg : Option CString) (msgIdx : Int32) (status : Status) (cmd : Int32),
      (poolBroadcast codec malloc pool msg msgIdx status cmd).Perm
        ((connectedClients pool).flatMap fun client =>
          sendNotifyMessage codec client.clientFd msg msgIdx status .brdcast cmd)

theorem pools_counted {w : World} (reach : pools.Reachable FreshPool w) : Counted w.pool := by
  refine System.Reachable.rec_inv (I := fun w => Counted w.pool) reach ?_ ?_
  · intro w fresh
    rw [fresh]
    exact createClientPool_counted
  · intro w call t es counted step
    cases call with
    | addClient clientId clientFd =>
        simp only [pools] at step
        split at step
        · cases step
        next pos =>
            cases step
            cases added : addClient clientId clientFd w.pool with
            | none => exact counted
            | some pool => exact counted.addClient (not_le.mp pos) added
    | removeClient clientFd =>
        obtain rfl : (removeClient clientFd w).1 = t := congrArg Prod.fst (Option.some.inj step)
        exact counted.removeClient clientFd
    | createClientStream env clientFd =>
        obtain rfl : (createClientStream env clientFd w).2.1 = t :=
          congrArg Prod.fst (Option.some.inj step)
        exact (createClientStream_same env clientFd w).counted counted
    | removeClientStream streamFd =>
        obtain rfl : (removeClientStream streamFd w).1 = t :=
          congrArg Prod.fst (Option.some.inj step)
        exact (removeClientStream_same streamFd w).counted counted

theorem connectedClients_eq_nil {pool : Pool} :
    connectedClients pool = [] ↔ pool.clientArr.countP Client.connected = 0 := by
  rw [List.countP_eq_length_filter, List.length_eq_zero_iff]
  rfl

/-- The copy, in terms of the slots in use. -/
theorem Counted.returned {pool : Pool} (counted : Counted pool) (malloc : Bool) :
    returned malloc pool =
      if malloc then pool.clientArr.take (pool.clientArr.countP Client.connected) else [] := by
  have count := counted.connected
  unfold OdroidPlayer.returned getClientArr getClientCnt
  by_cases none : pool.clientCnt ≤ 0
  · have zero : pool.clientArr.countP Client.connected = 0 := by omega
    rw [if_pos none, zero]
    cases malloc <;> rfl
  · have number : pool.clientCnt.toNat = pool.clientArr.countP Client.connected := by omega
    rw [if_neg none, number]
    cases malloc <;> rfl

/-- The rest of `ReachesAll` follows from the copy. -/
theorem reachesAll_iff_perm (malloc : Bool) (pool : Pool) :
    ReachesAll malloc pool ↔ (returned malloc pool).Perm (connectedClients pool) := by
  constructor
  · intro reaches
    exact reaches.1
  · intro perm
    refine ⟨perm, ?_⟩
    intro codec msg msgIdx status cmd
    cases msg with
    | none =>
        have silent : (connectedClients pool).flatMap (fun client =>
            sendNotifyMessage codec client.clientFd none msgIdx status .brdcast cmd) = [] := by
          rw [List.flatMap_eq_nil_iff]
          intro client _
          rfl
        rw [silent]
        exact List.Perm.refl []
    | some msg =>
        simp only [poolBroadcast, sendBroadcastMessage, List.flatMap_map]
        exact perm.flatMap_right _

/-- A broadcast reaches exactly the connected clients if and only if no free slot is in
front of one of theirs and, when there are any, the copy can be allocated. -/
theorem returned_iff {w : World} (reach : pools.Reachable FreshPool w) (malloc : Bool) :
    ReachesAll malloc w.pool ↔
      Slots.Packed Client.connected w.pool.clientArr ∧
        (malloc = true ∨ connectedClients w.pool = []) := by
  have counted := pools_counted reach
  rw [reachesAll_iff_perm, counted.returned malloc]
  cases malloc with
  | true =>
      rw [if_pos rfl, connectedClients, Slots.take_perm_filter_iff]
      simp
  | false =>
      rw [if_neg Bool.false_ne_true, List.nil_perm]
      simp only [Bool.false_eq_true, false_or]
      constructor
      · intro none
        refine ⟨?_, none⟩
        rw [← Slots.take_perm_filter_iff]
        rw [connectedClients_eq_nil.mp none, List.take_zero]
        exact none ▸ List.Perm.refl _
      · rintro ⟨_, none⟩
        exact none

/-- Two clients come and the first one leaves. -/
def firstLeaves : List PoolCall := [.addClient 0 4, .addClient 1 5, .removeClient 4]

/-- The broadcast goes to descriptor 0 and the connected client gets nothing. -/
theorem firstLeaves_unreached : ∃ w es, pools.exec ⟨createClientPool, []⟩ firstLeaves = some (w, es) ∧
    connectedClients w.pool = [{ emptyClient with clientId := 1, clientFd := 5 }] ∧
    returned true w.pool = [emptyClient] ∧ ¬ ReachesAll true w.pool := by
  refine ⟨_, _, rfl, by decide, by decide, ?_⟩
  rintro ⟨perm, _⟩
  revert perm
  decide

def secondLeaves : List PoolCall := [.addClient 0 4, .addClient 1 5, .removeClient 5]

theorem secondLeaves_reached : ∃ w es,
    pools.exec ⟨createClientPool, []⟩ secondLeaves = some (w, es) ∧ ReachesAll true w.pool := by
  refine ⟨_, _, rfl, ?_⟩
  refine (returned_iff ⟨_, ⟨createClientPool, []⟩, rfl, secondLeaves, rfl⟩ true).mpr ?_
  exact ⟨by decide, .inl rfl⟩

end OdroidPlayer
