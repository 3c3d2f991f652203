import OdroidPlayer.Lib.Transition
import Mathlib.Data.Finset.Card

/-!
The socket of a client over its calls of `opc_connect`.

A call closes the descriptor that the last one has left in `client_fd`, opens a socket and
tries to connect it. The test after `socket` reads `client_fd`, which still is what the last
call has left, and not the new descriptor: after a `socket` that has failed no later call
gets past it, and the sockets that those calls open stay open.
-/

namespace OdroidPlayer

open Transition Transition.System

/-- `MAX_CONNECT_WAIT` -/
def maxConnectWait : Nat := 30

/-- What `connect` returns, with `errno`. -/
inductive ConnectRet where
  | connected
  | econnrefused
  | enoent
  | failed
  deriving DecidableEq, Repr

/-- The failures after which the loop of `opc_connect` tries again. -/
def ConnectRet.retried : ConnectRet → Bool
  | .econnrefused | .enoent => true
  | .connected | .failed => false

/-- What the calls in one `opc_connect` return. -/
structure Connecting where
  socket : Option Nat
  /-- each attempt, on an open socket -/
  connect : Nat → ConnectRet

namespace Connecting

/-- The descriptor, or -1. -/
def fd (r : Connecting) : Int :=
  match r.socket with
  | some fd => fd
  | none => -1

/-- On -1 `connect` fails with EBADF. -/
def attempt (r : Connecting) (count : Nat) : ConnectRet :=
  if r.fd < 0 then .failed else r.connect count

/-- The socket is opened, and connected after fewer than `MAX_CONNECT_WAIT` failures, each
ECONNREFUSED or ENOENT. -/
def Succeeds (r : Connecting) : Prop :=
  r.socket ≠ none ∧
    ∃ k < maxConnectWait, r.connect k = .connected ∧ ∀ i < k, (r.connect i).retried = true

instance (r : Connecting) : Decidable r.Succeeds := inferInstanceAs (Decidable (_ ∧ _))

end Connecting

/-- The loop of `opc_connect` behind `count` failures, for so many more. -/
def connectLoop (attempt : Nat → ConnectRet) : Nat → Nat → Bool
  | 0, _ => false
  | left + 1, count =>
      match attempt count with
      | .connected => true
      | .econnrefused | .enoent =>
          if maxConnectWait ≤ count + 1 then false else connectLoop attempt left (count + 1)
      | .failed => false

structure ClientSocket where
  clientFd : Int
  /-- the sockets of the client that are open -/
  opened : Finset Int
  deriving DecidableEq

namespace ClientSocket

/-- `opc_init` -/
def opcInit : ClientSocket := ⟨0, ∅⟩

/-- The sockets that stay open when `client_fd` is closed. -/
def leftOpen (s : ClientSocket) : Finset Int :=
  if s.clientFd ≠ 0 then s.opened.erase s.clientFd else s.opened

def opcConnect (r : Connecting) (s : ClientSocket) : ClientSocket × Bool :=
  let opened := if r.socket = none then s.leftOpen else insert r.fd s.leftOpen
  if s.clientFd < 0 then ({ s with opened }, false)
  else (⟨r.fd, opened⟩, connectLoop r.attempt maxConnectWait 0)

/-- The calls of one client; the events are the results. `socket` does not return a descriptor
that is open. -/
def calls : System ClientSocket Connecting Bool where
  step s r :=
    if r.socket ≠ none ∧ r.fd ∈ s.leftOpen then none
    else some ((s.opcConnect r).1, [(s.opcConnect r).2])

/-- The call returns what its own `socket` and `connect` amount to, and leaves one socket open
at most. -/
def Connects (s : ClientSocket) (r : Connecting) : Prop :=
  ∀ t ret, calls.step s r = some (t, [ret]) → (ret = true ↔ r.Succeeds) ∧ t.opened.card ≤ 1

/-- When `client_fd` is negative the call does not succeed by itself either, and when its
`socket` succeeds every open socket is the one that `client_fd` names, which is not 0. -/
def Unspoilt (s : ClientSocket) (r : Connecting) : Prop :=
  (s.clientFd < 0 → ¬ r.Succeeds) ∧ (r.socket ≠ none → s.leftOpen = ∅)

instance (s : ClientSocket) (r : Connecting) : Decidable (s.Unspoilt r) :=
  inferInstanceAs (Decidable (_ ∧ _))

/-! ### One call -/

/-- The loop is through with its attempts when `count` says so. -/
theorem connectLoop_iff {attempt : Nat → ConnectRet} {left count : Nat}
    (total : count + left = maxConnectWait) :
    connectLoop attempt left count = true ↔
      ∃ k < left, attempt (k + count) = .connected ∧
        ∀ i < k, (attempt (i + count)).retried = true := by
  induction left generalizing count with
  | zero => simp [connectLoop]
  | succ left ih =>
      have next : (if maxConnectWait ≤ count + 1 then false
            else connectLoop attempt left (count + 1)) = true ↔
          ∃ k < left, attempt (k + 1 + count) = .connected ∧
            ∀ i < k, (attempt (i + 1 + count)).retried = true := by
        have shift : ∀ k, k + 1 + count = k + (count + 1) := fun k => by omega
        simp only [shift]
        split
        · have none_ : left = 0 := by omega
          simp [none_]
        · exact ih (by omega)
      rw [Nat.exists_lt_succ_left]
      simp only [Nat.forall_lt_succ_left, Nat.zero_add, Nat.not_lt_zero, false_implies,
        implies_true, and_true]
      rw [connectLoop]
      cases ret : attempt count with
      | connected => simp
      | failed => simp [ConnectRet.retried]
      | econnrefused | enoent => simpa [ConnectRet.retried] using next

theorem connects_iff_succeeds (r : Connecting) :
    connectLoop r.attempt maxConnectWait 0 = true ↔ r.Succeeds := by
  rw [connectLoop_iff (Nat.zero_add _)]
  simp only [Nat.add_zero, Connecting.Succeeds]
  cases opened : r.socket with
  | none =>
      have closed : ∀ k, r.attempt k = .failed := fun k => by
        simp [Connecting.attempt, Connecting.fd, opened]
      simp [closed]
  | some fd =>
      have same : ∀ k, r.attempt k = r.connect k := fun k => by
        simp [Connecting.attempt, Connecting.fd, opened]
      simp [same]

/-- What is open after a call. -/
theorem opened_opcConnect (r : Connecting) (s : ClientSocket) :
    (s.opcConnect r).1.opened = if r.socket = none then s.leftOpen else insert r.fd s.leftOpen := by
  unfold opcConnect
  dsimp only
  split <;> rfl

theorem result_opcConnect (r : Connecting) (s : ClientSocket) :
    (s.opcConnect r).2 = true ↔ 0 ≤ s.clientFd ∧ r.Succeeds := by
  unfold opcConnect
  dsimp only
  split
  next negative => exact iff_of_false Bool.false_ne_true fun both => by omega
  next done => rw [connects_iff_succeeds, and_iff_right (not_lt.mp done)]

theorem card_leftOpen_le (s : ClientSocket) : s.leftOpen.card ≤ s.opened.card := by
  refine Finset.card_le_card ?_
  unfold leftOpen
  split
  · exact Finset.erase_subset _ _
  · exact subset_rfl

theorem step_calls {s t : ClientSocket} {r : Connecting} {es : List Bool}
    (step : calls.step s r = some (t, es)) :
    t = (s.opcConnect r).1 ∧ es = [(s.opcConnect r).2] ∧
      (r.socket ≠ none → r.fd ∉ s.leftOpen) := by
  simp only [calls] at step
  split at step
  · cases step
  next new =>
      cases step
      exact ⟨rfl, rfl, fun opened mem => new ⟨opened, mem⟩⟩

/-- A call keeps to its own outcomes and to one socket exactly under the condition. -/
theorem connects_iff_unspoilt {s t : ClientSocket} {r : Connecting} {es : List Bool}
    (one : s.opened.card ≤ 1) (step : calls.step s r = some (t, es)) :
    s.Connects r ↔ s.Unspoilt r := by
  obtain ⟨rfl, rfl, new⟩ := step_calls step
  have only : s.Connects r ↔ ((s.opcConnect r).2 = true ↔ r.Succeeds) ∧
      (s.opcConnect r).1.opened.card ≤ 1 := by
    constructor
    · intro connects
      exact connects _ _ step
    · rintro right u ret step'
      obtain ⟨rfl, same, _⟩ := step_calls step'
      cases same
      exact right
  have result : ((s.opcConnect r).2 = true ↔ r.Succeeds) ↔ (s.clientFd < 0 → ¬ r.Succeeds) := by
    rw [result_opcConnect, ← not_lt]
    tauto
  have count : (s.opcConnect r).1.opened.card ≤ 1 ↔ (r.socket ≠ none → s.leftOpen = ∅) := by
    have left := s.card_leftOpen_le
    rw [opened_opcConnect]
    by_cases opened : r.socket = none
    · rw [if_pos opened]
      exact iff_of_true (le_trans left one) fun some_ => absurd opened some_
    · rw [if_neg opened, Finset.card_insert_of_notMem (new opened), ← Finset.card_eq_zero]
      constructor
      · intro le _
        omega
      · intro none_
        rw [none_ opened]
  rw [only, result, count, Unspoilt]

/-- In a sequence of calls each one returns what its own `socket` and `connect` amount to, and
leaves one socket open at most, exactly when each one meets the condition. -/
theorem connects_iff {t : ClientSocket} {rs : List Connecting} {log : List Bool}
    (run : calls.exec opcInit rs = some (t, log)) :
    calls.Along Connects opcInit rs ↔ calls.Along Unspoilt opcInit rs := by
  refine along_congr (I := fun s => s.opened.card ≤ 1) ?_
    (fun s r t es one step => connects_iff_unspoilt one step) (Nat.zero_le 1) run
  intro s r t es _ connects step
  obtain ⟨rfl, rfl, _⟩ := step_calls step
  exact (connects _ _ step).2

/-- The server is not there for two seconds, and is restarted later. -/
def serverRestarts : List Connecting :=
  [⟨some 3, fun k => if k < 2 then .enoent else .connected⟩, ⟨some 3, fun _ => .econnrefused⟩,
    ⟨some 3, fun _ => .connected⟩]

theorem serverRestarts_connects : ∃ t log, calls.exec opcInit serverRestarts = some (t, log) ∧
    calls.Along Connects opcInit serverRestarts :=
  ⟨_, _, rfl, (connects_iff rfl).mpr (by decide)⟩

/-- There is no descriptor left for the first call. -/
def firstFails : List Connecting :=
  [⟨none, fun _ => .connected⟩, ⟨some 3, fun _ => .connected⟩, ⟨some 4, fun _ => .connected⟩]

theorem firstFails_spoilt : ∃ t log, calls.exec opcInit firstFails = some (t, log) ∧
    log = [false, false, false] ∧ t.opened.card = 2 ∧
    ¬ calls.Along Connects opcInit firstFails := by
  refine ⟨_, _, rfl, by decide, by decide, fun along => ?_⟩
  have second := (along.2 _ _ rfl).1 _ _ rfl
  exact absurd (second.1.mpr (by decide)) (by decide)

end ClientSocket

end OdroidPlayer
