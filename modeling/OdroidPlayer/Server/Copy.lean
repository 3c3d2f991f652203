import OdroidPlayer.Server.Broadcast
import OdroidPlayer.Server.Connections

/-!
The loop of `send_broadcast_message` over the copy of `get_client_arr`.

The first part is the loop on its own: it ends at the first notification that fails, so
every client of the copy is tried exactly when none but the last one fails
(`notified_iff`). The second part puts the function beside the threads that add and remove
clients: the bound of the loop is a count that is read before the one that the copy is
allocated with, and the loop stays inside the copy as long as the count has not gone down in
between (`reads_inside`).
-/

namespace OdroidPlayer

open Transition

/-! ### The loop -/

/-- How `send_broadcast_message` ends. -/
inductive BroadcastEnd where
  | returned (ret : Bool)
  /-- `client_arr[i]` behind the end of the copy -/
  | outside
  deriving DecidableEq, Repr

/-- The clients for which `send_notify_message` has been called, in order, and the end. -/
structure Notified where
  clients : List Client
  ending : BroadcastEnd
  deriving DecidableEq, Repr

def Notified.after (client : Client) (rest : Notified) : Notified :=
  { rest with clients := client :: rest.clients }

/-- The loop from the index `i` on, with `left` passes to go; `notify` is what
`send_notify_message` returns at each index. -/
def notifyFrom (clientArr : List Client) (notify : Nat → Bool) : Nat → Nat → Notified
  | _, 0 => ⟨[], .returned true⟩
  | i, left + 1 =>
      match clientArr[i]? with
      | none => ⟨[], .outside⟩
      | some client =>
          if notify i = false then ⟨[client], .returned false⟩
          else (notifyFrom clientArr notify (i + 1) left).after client

/-- `send_broadcast_message`, given `client_cnt` and `client_arr` (`none` for NULL). -/
def broadcastTo (msg : Option CString) (clientCnt : Int) (clientArr : Option (List Client))
    (notify : Nat → Bool) : Notified :=
  match msg with
  | none => ⟨[], .returned true⟩
  | some _ =>
      if clientCnt < 0 then ⟨[], .returned false⟩
      else match clientArr with
        | none => ⟨[], .returned false⟩
        | some clientArr => notifyFrom clientArr notify 0 clientCnt.toNat

theorem notifyFrom_clients (clientArr : List Client) (notify : Nat → Bool) (i : Nat) :
    (notifyFrom clientArr notify i (clientArr.length - i)).clients = clientArr.drop i ↔
      ∀ j, i ≤ j → j + 1 < clientArr.length → notify j = true := by
  induction left : clientArr.length - i generalizing i with
  | zero =>
      have none : clientArr.drop i = [] := List.drop_eq_nil_of_le (by omega)
      rw [none]
      constructor
      · intro _ j le less
        omega
      · intro _
        rfl
  | succ left ih =>
      have bound : i < clientArr.length := by omega
      have rest := ih (i + 1) (by omega)
      rw [notifyFrom, List.getElem?_eq_getElem bound, List.drop_eq_getElem_cons bound]
      dsimp only
      by_cases fails : notify i = false
      · rw [if_pos fails]
        constructor
        · intro eq j le less
          -- the failure is the last client
          have last : clientArr.drop (i + 1) = [] := (List.cons.inj eq).2.symm
          have short := List.drop_eq_nil_iff.mp last
          omega
        · intro all
          have last : clientArr.length ≤ i + 1 := by
            by_contra more
            have holds := all i le_rfl (by omega)
            rw [fails] at holds
            cases holds
          rw [List.drop_eq_nil_of_le last]
      · have succeeds : notify i = true := by simpa using fails
        rw [if_neg fails]
        change _ :: _ = _ ↔ _
        rw [List.cons_inj_right, rest]
        constructor
        · intro all j le less
          rcases Nat.eq_or_lt_of_le le with rfl | later
          · exact succeeds
          · exact all j later less
        · intro all j le less
          exact all j (by omega) less

/-- Every client of the copy is tried, each once, if and only if there is a message (or no
client) and no notification but the last one fails. -/
theorem notified_iff (msg : Option CString) (clientArr : List Client) (notify : Nat → Bool) :
    (broadcastTo msg clientArr.length (some clientArr) notify).clients = clientArr ↔
      (msg = none → clientArr = []) ∧ ∀ i, i + 1 < clientArr.length → notify i = true := by
  cases msg with
  | none =>
      constructor
      · intro eq
        obtain rfl : [] = clientArr := eq
        exact ⟨fun _ => rfl, fun i less => by simp at less⟩
      · rintro ⟨none, _⟩
        rw [none rfl]
        rfl
  | some msg =>
      have loop := notifyFrom_clients clientArr notify 0
      have counted : ¬ (clientArr.length : Int) < 0 := by omega
      rw [List.drop_zero, Nat.sub_zero] at loop
      simp only [broadcastTo, if_neg counted, Int.toNat_natCast, loop]
      simp

/-- The first of two notifications fails, and the second client is not tried. -/
theorem firstFails_skips : ∃ first second : Client,
    (broadcastTo (some [112]) 2 (some [first, second]) fun i => i ≠ 0).clients = [first] ∧
      (broadcastTo (some [112]) 2 (some [first, second]) fun i => i ≠ 0).clients ≠
        [first, second] := by
  refine ⟨{ emptyClient with clientFd := 4 }, { emptyClient with clientFd := 5 }, rfl, ?_⟩
  intro same
  cases same

/-- As long as nobody changes the pool, the bound of the loop is the length of the copy. -/
theorem Counted.length_copy {pool : Pool} (counted : Counted pool) {malloc : Bool}
    {clientArr : List Client} (copy : getClientArr malloc pool = some clientArr) :
    getClientCnt pool = clientArr.length := by
  obtain ⟨low, high⟩ := counted.bounds
  unfold getClientArr at copy
  split at copy
  · cases copy
  · split at copy
    · cases copy
    · cases copy
      rw [List.length_take, pool.size]
      unfold getClientCnt
      omega

/-! ### The copy while clients come and go -/

/-- The critical section of `send_broadcast_message` that is executed next, with its locals. -/
inductive BroadcastAt where
  | idle
  /-- `get_client_cnt` -/
  | counting
  /-- `get_client_cnt` in `get_client_arr` -/
  | allocating (clientCnt : Int)
  /-- the copying of `size` slots -/
  | copying (clientCnt : Int) (size : Nat)
  /-- the test of the loop and its body -/
  | looping (clientCnt : Int) (size : Nat) (clientArr : List Client) (i : Nat)
  /-- behind the end of the copy -/
  | outside
  deriving DecidableEq, Repr

inductive BroadcastEvent where
  /-- `client_arr[index]` of an array that has been allocated for `size` clients -/
  | read (index size : Nat)
  deriving DecidableEq, Repr

/-- A thread that broadcasts beside the threads that work on the pool. -/
structure Broadcasting where
  threads : Threads
  at_ : BroadcastAt

inductive BroadcastAction where
  | other (a : ThreadAction)
  /-- `send_broadcast_message` is called, with a message -/
  | call
  | count
  | allocate (malloc : Bool)
  | copy
  /-- the next pass of the loop, with the result of `send_notify_message` -/
  | notify (ret : Bool)
  deriving DecidableEq, Repr

namespace Broadcasting

def goto (s : Broadcasting) (at_ : BroadcastAt) : Broadcasting := { s with at_ := at_ }

/-- The step of the broadcasting thread. -/
def go (s : Broadcasting) : BroadcastAction → Option (Broadcasting × List BroadcastEvent)
  | .other _ => none
  | .call => if s.at_ = .idle then some (s.goto .counting, []) else none
  | .count =>
      if s.at_ = .counting then
        some (s.goto (if getClientCnt s.threads.pool < 0 then .idle
          else .allocating (getClientCnt s.threads.pool)), [])
      else none
  | .allocate malloc =>
      match s.at_ with
      | .allocating clientCnt =>
          if getClientCnt s.threads.pool ≤ 0 ∨ malloc = false then some (s.goto .idle, [])
          else some (s.goto (.copying clientCnt (getClientCnt s.threads.pool).toNat), [])
      | _ => none
  | .copy =>
      match s.at_ with
      | .copying clientCnt size =>
          some (s.goto (.looping clientCnt size (s.threads.pool.clientArr.take size) 0), [])
      | _ => none
  | .notify ret =>
      match s.at_ with
      | .looping clientCnt size clientArr i =>
          if clientCnt ≤ i then some (s.goto .idle, [])
          else some (s.goto (if size ≤ i then .outside
            else if ret = false then .idle else .looping clientCnt size clientArr (i + 1)),
            [.read i size])
      | _ => none

end Broadcasting

/-- Each critical section of the pool is one step. -/
def broadcasting : System Broadcasting BroadcastAction BroadcastEvent where
  step s
    | .other a => (threads.step s.threads a).map fun out => ({ s with threads := out.1 }, [])
    | a => s.go a

/-- The threads before their first call. -/
def NoBroadcast (s : Broadcasting) : Prop := NoCalls s.threads ∧ s.at_ = .idle

/-- When `get_client_arr` reads the count and has the copy allocated, the count is not below
the one that bounds the loop. -/
def NotFewer (s : Broadcasting) (a : BroadcastAction) : Prop :=
  match a, s.at_ with
  | .allocate malloc, .allocating clientCnt =>
      malloc = true → 0 < getClientCnt s.threads.pool → clientCnt ≤ getClientCnt s.threads.pool
  | _, _ => True

def ReadsInside (log : List BroadcastEvent) : Prop :=
  ∀ index size, .read index size ∈ log → index < size

/-- The bound of the loop is within the allocated copy. -/
def BroadcastAt.Bounded : BroadcastAt → Prop
  | .copying clientCnt size | .looping clientCnt size _ _ => clientCnt ≤ size
  | .outside => False
  | _ => True

section Reads

variable {s t : Broadcasting} {a : BroadcastAction} {es log : List BroadcastEvent}
  {as : List BroadcastAction}

theorem BroadcastAt.Bounded.go (bounded : s.at_.Bounded) (met : NotFewer s a)
    (step : s.go a = some (t, es)) : t.at_.Bounded ∧ ReadsInside es := by
  have silent : ReadsInside [] := fun _ _ mem => by cases mem
  cases a with
  | other a => cases step
  | call =>
      simp only [Broadcasting.go] at step
      split at step
      · cases step
        exact ⟨trivial, silent⟩
      · cases step
  | count =>
      simp only [Broadcasting.go] at step
      split at step
      · cases step
        refine ⟨?_, silent⟩
        unfold Broadcasting.goto
        dsimp only
        split <;> trivial
      · cases step
  | allocate malloc =>
      cases at_ : s.at_ with
      | allocating clientCnt =>
          simp only [Broadcasting.go, at_] at step
          simp only [NotFewer, at_] at met
          split at step
          · cases step
            exact ⟨trivial, silent⟩
          next copies =>
              cases step
              rw [not_or, not_le, Bool.not_eq_false] at copies
              have enough := met copies.2 copies.1
              refine ⟨?_, silent⟩
              change clientCnt ≤ ((getClientCnt s.threads.pool).toNat : Int)
              omega
      | _ => simp [Broadcasting.go, at_] at step
  | copy =>
      cases at_ : s.at_ with
      | copying clientCnt size =>
          simp only [Broadcasting.go, at_] at step
          cases step
          rw [at_] at bounded
          exact ⟨bounded, silent⟩
      | _ => simp [Broadcasting.go, at_] at step
  | notify ret =>
      cases at_ : s.at_ with
      | looping clientCnt size clientArr i =>
          simp only [Broadcasting.go, at_] at step
          rw [at_] at bounded
          have bound : clientCnt ≤ size := bounded
          split at step
          · cases step
            exact ⟨trivial, silent⟩
          next more =>
              cases step
              have inside : i < size := by omega
              constructor
              · unfold Broadcasting.goto
                dsimp only
                rw [if_neg (not_le.mpr inside)]
                split
                · trivial
                · exact bound
              · intro index size' mem
                obtain ⟨rfl, rfl⟩ : index = i ∧ size' = size := by simpa using mem
                exact inside
      | _ => simp [Broadcasting.go, at_] at step

theorem BroadcastAt.Bounded.keep (bounded : s.at_.Bounded) (met : NotFewer s a)
    (step : broadcasting.step s a = some (t, es)) : t.at_.Bounded ∧ ReadsInside es := by
  cases a with
  | other a =>
      obtain ⟨out, _, same⟩ := Option.map_eq_some_iff.mp step
      cases same
      exact ⟨bounded, fun _ _ mem => by cases mem⟩
  | _ => exact bounded.go met step

/-- In every interleaving in which the count has not gone down between the two reads of it,
every read of the copy is inside the copy. -/
theorem reads_inside (init : NoBroadcast s) (along : broadcasting.Along NotFewer s as)
    (run : broadcasting.exec s as = some (t, log)) : ReadsInside log := by
  let I := fun (u : Broadcasting) (before : List BroadcastEvent) =>
    u.at_.Bounded ∧ ReadsInside before
  have keep : ∀ (u : Broadcasting) (before : List BroadcastEvent) (a : BroadcastAction)
      (v : Broadcasting) (es : List BroadcastEvent), I u before → NotFewer u a →
      broadcasting.step u a = some (v, es) → I v (before ++ es) := by
    rintro u before a v es ⟨bounded, inside⟩ met step
    obtain ⟨after, inside'⟩ := bounded.keep met step
    refine ⟨after, fun index size mem => ?_⟩
    rcases List.mem_append.mp mem with old | new
    · exact inside index size old
    · exact inside' index size new
  have start : I s [] := by
    refine ⟨?_, fun _ _ mem => by cases mem⟩
    rw [init.2]
    trivial
  simpa using (System.exec_rec_of_along keep along [] start run).2

end Reads

/-- The loop runs to the end of the copy when its bound is greater. -/
theorem runs_outside {s : Broadcasting} {clientCnt : Int} {size : Nat} {clientArr : List Client}
    {i : Nat} (at_ : s.at_ = .looping clientCnt size clientArr i) (before : i ≤ size)
    (more : size < clientCnt) :
    ∃ t log, broadcasting.Runs s t log ∧ .read size size ∈ log := by
  induction left : size - i generalizing s i with
  | zero =>
      obtain rfl : i = size := by omega
      have step : broadcasting.step s (.notify true) = some (s.goto .outside, [.read i i]) := by
        have inside : ¬ clientCnt ≤ i := not_le.mpr more
        change s.go (.notify true) = _
        simp only [Broadcasting.go, at_, if_neg inside, if_pos le_rfl]
      exact ⟨_, _, System.Runs.single step, List.mem_singleton_self _⟩
  | succ left ih =>
      have step : broadcasting.step s (.notify true) =
          some (s.goto (.looping clientCnt size clientArr (i + 1)), [.read i size]) := by
        have inside : ¬ clientCnt ≤ i := by omega
        have within : ¬ size ≤ i := by omega
        change s.go (.notify true) = _
        simp only [Broadcasting.go, at_, if_neg inside, if_neg within, Bool.true_eq_false, if_false]
      obtain ⟨t, log, run, mem⟩ := ih (s := s.goto (.looping clientCnt size clientArr (i + 1))) rfl
        (by omega) (by omega)
      exact ⟨t, _, (System.Runs.single step).trans run, List.mem_append_right _ mem⟩

/-- The condition leaves out only steps from which the copy is read outside, unless a
notification fails first. -/
theorem outside_of_fewer {s : Broadcasting} {a : BroadcastAction} (fewer : ¬ NotFewer s a) :
    ∃ t log, broadcasting.Runs s t log ∧ ¬ ReadsInside log := by
  cases a with
  | allocate malloc =>
      cases at_ : s.at_ with
      | allocating clientCnt =>
          simp only [NotFewer, at_] at fewer
          obtain ⟨rfl, some_, less⟩ : malloc = true ∧ 0 < getClientCnt s.threads.pool ∧
              getClientCnt s.threads.pool < clientCnt := by simpa using fewer
          have size : (((getClientCnt s.threads.pool).toNat : Nat) : Int) =
              getClientCnt s.threads.pool := Int.toNat_of_nonneg (le_of_lt some_)
          have allocates : broadcasting.step s (.allocate true) = some
              (s.goto (.copying clientCnt (getClientCnt s.threads.pool).toNat), []) := by
            have copies : ¬ (getClientCnt s.threads.pool ≤ 0 ∨ true = false) := by simp [some_]
            change s.go (.allocate true) = _
            simp only [Broadcasting.go, at_, if_neg copies]
          have copies : broadcasting.step
              (s.goto (.copying clientCnt (getClientCnt s.threads.pool).toNat)) .copy = some
              (s.goto (.looping clientCnt (getClientCnt s.threads.pool).toNat
                (s.threads.pool.clientArr.take (getClientCnt s.threads.pool).toNat) 0), []) := rfl
          obtain ⟨t, log, run, mem⟩ := runs_outside (s := s.goto (.looping clientCnt
            (getClientCnt s.threads.pool).toNat _ 0)) rfl (Nat.zero_le _) (size.symm ▸ less)
          refine ⟨t, _, (System.Runs.single allocates).trans
            ((System.Runs.single copies).trans run), fun inside => ?_⟩
          exact absurd (inside _ _ mem) (Nat.lt_irrefl _)
      | _ => exact absurd trivial (by simpa only [NotFewer, at_] using fewer)
  | _ => exact absurd trivial fewer

/-- Two clients connect, and one of them leaves before or after the copy is allocated. -/
def leavesBeside (early : Bool) : List BroadcastAction :=
  let connect : Int → List BroadcastAction := fun fd =>
    [.other (.accept fd), .other (.go .server), .other (.go .server)]
  let leave : List BroadcastAction :=
    [.other (.remove .response 5), .other (.go .response), .other (.go .response),
      .other (.go .response)]
  connect 4 ++ connect 5 ++ [.call, .count] ++
    (if early then leave ++ [.allocate true] else [.allocate true] ++ leave) ++
    [.copy, .notify true, .notify true]

instance (s : Broadcasting) (a : BroadcastAction) : Decidable (NotFewer s a) := by
  unfold NotFewer
  split <;> infer_instance

theorem leavesLate_inside : ∃ t log,
    broadcasting.exec ⟨noCalls, .idle⟩ (leavesBeside false) = some (t, log) ∧
      ReadsInside log := by
  have along : broadcasting.Along NotFewer ⟨noCalls, .idle⟩ (leavesBeside false) := by decide
  have init : NoBroadcast ⟨noCalls, .idle⟩ := ⟨noCalls_init, rfl⟩
  exact ⟨_, _, rfl, reads_inside init along rfl⟩

/-- The copy is allocated for one client, and the loop reads a second one. -/
theorem leavesEarly_outside : ∃ t log,
    broadcasting.exec ⟨noCalls, .idle⟩ (leavesBeside true) = some (t, log) ∧
      .read 1 1 ∈ log ∧ ¬ ReadsInside log := by
  refine ⟨_, _, rfl, by decide, fun inside => ?_⟩
  exact absurd (inside 1 1 (by decide)) (Nat.lt_irrefl 1)

end OdroidPlayer
