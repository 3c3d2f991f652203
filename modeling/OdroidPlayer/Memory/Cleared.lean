import OdroidPlayer.Memory.Requests

/-!
What the runs of the server allocate and free, up to `clear_player`.

Nothing is freed twice or used behind its `free` exactly as long as every message has a
string, every command has a handler, an ACK finds the string that it copies and no path is
freed before it has been copied; and nothing is left behind `clear_player` exactly as long
as no slot is cleared over a path (`requests_freed`).
-/

namespace OdroidPlayer

open Blocks Transition Transition.System

namespace RequestMemory

/-- No slot is cleared or forgotten over its paths. -/
def Keeps (s : RequestMemory) : Action → Prop
  | .addClient idx | .removeClient idx => ∀ slot, s.slots[idx]? = some slot → slot.Empty
  | .clear => ∀ slot ∈ s.slots, slot.used = false → slot.Empty
  | _ => True

/-- The node that the response thread works on. -/
def node? (s : RequestMemory) : Option NodeBlocks :=
  match s.response with
  | .nothing | .returned => none
  | .taken node | .looking node _ | .copying node _ _ | .executed node _ | .broadcast node _
  | .answered node _ => some node

/-- The nodes have a string each, a slot has both paths or none, and nothing is left behind
`clear_player`. -/
structure Inv (s : RequestMemory) : Prop where
  server : ∀ msg node, s.server = .made msg node → HasString node.data
  queue : ∀ node ∈ s.queue, HasString node.data
  response : ∀ node, s.node? = some node → HasString node.data
  slots : ∀ slot ∈ s.slots, slot.Whole
  cleared : s.cleared = true → s.Joined ∧ s.queue = [] ∧ s.prevResp = none ∧ s.slots = []

section Steps

variable {s : RequestMemory} {a : Action} {c : Code RequestMemory} {msg node : NodeBlocks}
  {data : CharArray} {path : Option Nat}

/-- Each way in which one of the threads can go on. -/
inductive Move (s : RequestMemory) : Action → Code RequestMemory → Prop where
  | receive {results : ReceiveResults} (at_ : s.server = .nothing) :
      Move s (.receive results) (do
        let msg ← receiveBlocks results
        pure { s with server := msg.elim .nothing .message })
  | createNode {msg : NodeBlocks} {results : NodeMallocs} (at_ : s.server = .message msg) :
      Move s (.createNode results) (s.createNode msg results)
  | enqueue {msg node : NodeBlocks} {notify : NotifyResults} (at_ : s.server = .made msg node) :
      Move s (.enqueue notify) (s.enqueue msg node notify)
  | freeMessage {msg : NodeBlocks} (at_ : s.server = .enqueued msg) :
      Move s .freeMessage (do
        OdroidPlayer.freeMessage msg
        pure { s with server := .nothing })
  | dequeue {node : NodeBlocks} {queue : List NodeBlocks} (at_ : s.response = .nothing)
      (head : s.queue = node :: queue) :
      Move s .dequeue (do
        access (some node.block)
        pure { s with response := .taken node, queue })
  | execute {node : NodeBlocks} {results : ExecuteResults} (at_ : s.response = .taken node) :
      Move s (.execute results) (s.execute node results)
  | executeStream {node : NodeBlocks} {create : Option (Nat × StreamResults)}
      {array : Option Nat} (at_ : s.response = .taken node) :
      Move s (.executeStream create array) (s.executeStream node create array)
  | findPath {node : NodeBlocks} {data : CharArray} {idx : Option Nat}
      (at_ : s.response = .looking node data) :
      Move s (.findPath idx) (pure { s with response := .copying node data (s.nextPath data idx) })
  | copyPath {node : NodeBlocks} {data : CharArray} {path copy literal : Option Nat}
      (at_ : s.response = .copying node data path) :
      Move s (.copyPath copy literal) (s.copyPath node data path copy literal)
  | broadcast {node : NodeBlocks} {data : CharArray} {clientArr : Option Nat}
      {clients : List NotifyResults} (at_ : s.response = .executed node data) :
      Move s (.broadcast clientArr clients) (s.broadcast node data clientArr clients)
  | answer {node : NodeBlocks} {data : CharArray} {sends : Nat → SendResults}
      {saved : NodeMallocs} (at_ : s.response = .broadcast node data) :
      Move s (.answer sends saved) (do
        let prevResp ← respondBlocks node data s.prevResp sends saved resendCount
        pure { s with response := .answered node data, prevResp })
  | release {node : NodeBlocks} {data : CharArray} (at_ : s.response = .answered node data) :
      Move s .release (do
        freeData data
        removeNode node
        pure { s with response := .nothing })
  | findClient {idx : Option Nat} :
      Move s (.findClient idx)
        (pure { s with stream := .copying (OdroidPlayer.findPath s.slots idx (·.client)) })
  | prepare {path copy : Option Nat} (at_ : s.stream = .copying path) :
      Move s (.prepare copy) (s.prepare path copy)
  | sendData {data : Option Nat} : Move s (.sendData data) (s.sendData data)
  | addClient {idx : Nat} {slot : StreamSlot} (there : s.slots[idx]? = some slot) :
      Move s (.addClient idx) (pure (s.clearSlot idx slot true))
  | removeStream {idx : Nat} {slot : StreamSlot} (there : s.slots[idx]? = some slot) :
      Move s (.removeStream idx) (s.removeStream idx slot)
  | removeClient {idx : Nat} {slot : StreamSlot} (there : s.slots[idx]? = some slot) :
      Move s (.removeClient idx) (pure (s.clearSlot idx slot false))
  | serverReturns (at_ : s.server = .nothing) :
      Move s .serverReturns (pure { s with server := .returned })
  | responseReturns (at_ : s.response = .nothing) :
      Move s .responseReturns (pure { s with response := .returned })
  | streamReturns : Move s .streamReturns (pure { s with stream := .returned })
  | clear (joined : s.Joined) : Move s .clear s.clear

theorem step_move (step : s.step a = some c) : s.Move a c := by
  cases a with
  | receive | serverReturns | responseReturns =>
      obtain ⟨at_, eq⟩ := Option.ite_none_right_eq_some.mp step
      cases eq
      constructor
      exact at_
  | findClient | sendData | streamReturns =>
      obtain ⟨-, eq⟩ := Option.ite_none_right_eq_some.mp step
      cases eq
      constructor
  | clear =>
      obtain ⟨⟨joined, -⟩, eq⟩ := Option.ite_none_right_eq_some.mp step
      cases eq
      exact .clear joined
  | dequeue =>
      simp only [RequestMemory.step] at step
      split at step
      next node queue at_ head =>
          cases step
          exact .dequeue at_ head
      · cases step
  | execute =>
      simp only [RequestMemory.step] at step
      split at step
      next at_ =>
          obtain ⟨-, eq⟩ := Option.ite_none_left_eq_some.mp step
          cases eq
          exact .execute at_
      · cases step
  | executeStream =>
      simp only [RequestMemory.step] at step
      split at step
      next at_ =>
          obtain ⟨-, eq⟩ := Option.ite_none_right_eq_some.mp step
          cases eq
          exact .executeStream at_
      · cases step
  | addClient =>
      simp only [RequestMemory.step] at step
      split at step
      next there =>
          obtain ⟨-, eq⟩ := Option.ite_none_right_eq_some.mp step
          cases eq
          exact .addClient there
      · cases step
  | removeStream | removeClient =>
      simp only [RequestMemory.step] at step
      split at step
      next there =>
          obtain ⟨-, eq⟩ := Option.ite_none_left_eq_some.mp step
          cases eq
          constructor
          exact there
      · cases step
  | createNode | enqueue | freeMessage | findPath | copyPath | broadcast | answer | release
  | prepare =>
      simp only [RequestMemory.step] at step
      split at step
      next at_ =>
          cases step
          constructor
          exact at_
      · cases step

/-- A step that finds what it reads needs the blocks of the state and leaves those of the next
one. -/
theorem step_triple (inv : Inv s) (step : s.step a = some c) (finds : s.Finds a) :
    Triple s.blocks c blocks := by
  cases step_move step with
  | receive at_ => exact receive_triple at_ _
  | createNode at_ => exact createNode_triple at_ (finds _ at_) _
  | enqueue at_ => exact enqueue_triple at_ _
  | freeMessage at_ =>
      refine Triple.call (freeMessage_triple _) (at_server at_) (Triple.pure ?_)
      exact (blocks_server s .nothing).symm
  | dequeue at_ head => exact dequeue_triple at_ head
  | execute at_ =>
      refine execute_triple at_ (inv.response _ ?_) (finds _ at_)
      simp [node?, at_]
  | executeStream at_ =>
      refine executeStream_triple at_ (inv.response _ ?_) inv.slots _ _
      simp [node?, at_]
  | findPath at_ => exact findPath_triple at_ _
  | copyPath at_ => exact copyPath_triple at_ (finds _ _ _ at_) _ _
  | broadcast at_ =>
      refine broadcast_triple at_ (inv.response _ ?_) _ _
      simp [node?, at_]
  | answer at_ => exact answer_triple at_ _ _
  | release at_ => exact release_triple at_
  | findClient | streamReturns => exact Triple.pure rfl
  | prepare at_ => exact prepare_triple (finds _ at_) _
  | sendData => exact sendData_triple s _
  | addClient there | removeClient there => exact clearSlot_triple there _
  | removeStream there => exact removeStream_triple there
  | serverReturns at_ =>
      refine Triple.pure ?_
      rw [at_server at_, blocks_server]
      rfl
  | responseReturns at_ =>
      refine Triple.pure ?_
      rw [at_response at_, blocks_response]
      rfl
  | clear joined => exact clear_triple joined

/-- There is no step behind `clear_player`. -/
theorem step_on (inv : Inv s) (step : s.step a = some c) : s.cleared = false := by
  by_contra cleared
  obtain ⟨⟨server, response, stream⟩, queue, -, slots⟩ := inv.cleared (by simpa using cleared)
  cases a <;> simp [RequestMemory.step, Joined, server, response, stream, slots, cleared] at step

/-- The server thread changes what it holds. -/
theorem Inv.setServer (inv : Inv s) (on : s.cleared = false) {server : ServerHolds}
    (has : ∀ msg node, server = .made msg node → HasString node.data) : Inv { s with server } :=
  ⟨has, inv.queue, inv.response, inv.slots, by simp [on]⟩

/-- The response thread changes what it holds. -/
theorem Inv.setResponse (inv : Inv s) (on : s.cleared = false) {response : ResponseHolds}
    (has : ∀ node, { s with response }.node? = some node → HasString node.data) :
    Inv { s with response } :=
  ⟨inv.server, inv.queue, has, inv.slots, by simp [on]⟩

/-- The stream thread changes where it is. -/
theorem Inv.setStream (inv : Inv s) (on : s.cleared = false) (stream : StreamHolds) :
    Inv { s with stream } :=
  ⟨inv.server, inv.queue, inv.response, inv.slots, by simp [on]⟩

theorem Inv.setSlot (inv : Inv s) (on : s.cleared = false) (idx : Nat) {slot : StreamSlot}
    (whole : slot.Whole) (lost : Multiset Nat) :
    Inv { s with slots := s.slots.set idx slot, lost } :=
  ⟨inv.server, inv.queue, inv.response, whole_set inv.slots idx whole, by simp [on]⟩

theorem createNode_next (s : RequestMemory) (msg : NodeBlocks) (results : NodeMallocs) :
    (s.createNode msg results).value = { s with
      server := (OdroidPlayer.createNode msg.received msg.data results).value.elim .nothing
        (.made msg) } := by
  cases made : (OdroidPlayer.createNode msg.received msg.data results).value <;>
    simp [RequestMemory.createNode, made]

theorem createNode_inv (inv : Inv s) (on : s.cleared = false) (has : HasString msg.data)
    (results : NodeMallocs) : Inv (s.createNode msg results).value := by
  rw [createNode_next]
  refine inv.setServer on fun msg' node at_ => ?_
  cases made : (OdroidPlayer.createNode msg.received msg.data results).value with
  | none => simp [made] at at_
  | some node' =>
      obtain ⟨rfl, rfl⟩ : msg = msg' ∧ node' = node := by simpa [made] using at_
      exact (createNode_value made).2 has

theorem enqueue_inv (inv : Inv s) (on : s.cleared = false) (at_ : s.server = .made msg node)
    (notify : NotifyResults) : Inv (s.enqueue msg node notify).value := by
  unfold RequestMemory.enqueue
  split
  · exact inv.setServer on (by simp)
  · refine ⟨by simp, fun n mem => ?_, inv.response, inv.slots, by simp [on]⟩
    rcases List.mem_append.mp mem with old | new
    · exact inv.queue n old
    · obtain rfl : n = node := by simpa using new
      exact inv.server msg n at_

theorem execute_next (s : RequestMemory) (node : NodeBlocks) (results : ExecuteResults) :
    (s.execute node results).value = { s with
      response := (executeBlocks node.head s.prevResp results).value.elim .nothing
        (.executed node) } := by
  cases data : (executeBlocks node.head s.prevResp results).value <;>
    simp [RequestMemory.execute, data]

theorem execute_inv (inv : Inv s) (on : s.cleared = false) (has : HasString node.data)
    (results : ExecuteResults) : Inv (s.execute node results).value := by
  rw [execute_next]
  refine inv.setResponse on fun n is => ?_
  cases data : (executeBlocks node.head s.prevResp results).value with
  | none => simp [data, node?] at is
  | some data' =>
      obtain rfl : node = n := by simpa [data, node?] using is
      exact has

theorem executeStream_next (s : RequestMemory) (node : NodeBlocks)
    (create : Option (Nat × StreamResults)) (array : Option Nat) :
    (s.executeStream node create array).value = { s with
      response := array.elim .nothing (fun array => .looking node ⟨array, []⟩)
      slots := (setNewStreamBlocks s.slots create).value } := by
  cases array <;> rfl

theorem executeStream_inv (inv : Inv s) (on : s.cleared = false) (has : HasString node.data)
    (create : Option (Nat × StreamResults)) (array : Option Nat) :
    Inv (s.executeStream node create array).value := by
  rw [executeStream_next]
  refine ⟨inv.server, inv.queue, fun n is => ?_, setNewStreamBlocks_whole inv.slots create,
    by simp [on]⟩
  cases array with
  | none => cases is
  | some array =>
      cases is
      exact has

theorem copyPath_inv (inv : Inv s) (on : s.cleared = false) (has : HasString node.data)
    (path copy literal : Option Nat) : Inv (s.copyPath node data path copy literal).value := by
  refine inv.setResponse on fun n is => ?_
  by_cases first : data.strings = [] <;>
    simp only [node?, first, if_true, if_false, Option.some.injEq] at is <;>
    exact is ▸ has

theorem prepare_value (s : RequestMemory) (path copy : Option Nat) :
    ∃ stream, (s.prepare path copy).value = { s with stream } := by
  cases text : (OdroidPlayer.copyPath path copy).value with
  | none => exact ⟨.nothing, by simp [RequestMemory.prepare, text]⟩
  | some => exact ⟨.prepared, by simp [RequestMemory.prepare, text]⟩

theorem sendData_value (s : RequestMemory) (data : Option Nat) :
    (s.sendData data).value = { s with stream := .nothing } := by
  cases data <;> rfl

theorem step_inv (inv : Inv s) (step : s.step a = some c) (finds : s.Finds a) : Inv c.value := by
  have on := step_on inv step
  -- while the response thread works on a node, `node?` is that node
  have has {node : NodeBlocks} (at_ : s.node? = some node) : HasString node.data :=
    inv.response node at_
  cases step_move step with
  | @receive results at_ =>
      refine inv.setServer on fun msg node is => ?_
      cases received : (receiveBlocks results).value <;> simp [received] at is
  | createNode at_ => exact createNode_inv inv on (finds _ at_) _
  | enqueue at_ => exact enqueue_inv inv on at_ _
  | freeMessage | serverReturns => exact inv.setServer on (by simp)
  | dequeue at_ head =>
      refine ⟨inv.server, fun n mem => inv.queue n (head ▸ List.mem_cons_of_mem _ mem),
        fun n is => ?_, inv.slots, by simp [on]⟩
      cases is
      exact inv.queue _ (head ▸ List.mem_cons_self)
  | execute at_ => exact execute_inv inv on (has (by simp [node?, at_])) _
  | executeStream at_ => exact executeStream_inv inv on (has (by simp [node?, at_])) _ _
  | copyPath at_ => exact copyPath_inv inv on (has (by simp [node?, at_])) _ _ _
  | findPath at_ | broadcast at_ =>
      refine inv.setResponse on fun n is => ?_
      cases is
      exact has (by simp [node?, at_])
  | answer at_ =>
      refine ⟨inv.server, inv.queue, fun n is => ?_, inv.slots, by simp [on]⟩
      cases is
      exact has (by simp [node?, at_])
  | release | responseReturns => exact inv.setResponse on (by simp [node?])
  | findClient | streamReturns => exact inv.setStream on _
  | sendData =>
      rw [sendData_value]
      exact inv.setStream on .nothing
  | prepare at_ =>
      obtain ⟨stream, value⟩ := prepare_value s _ _
      rw [value]
      exact inv.setStream on stream
  | addClient there | removeClient there => exact inv.setSlot on _ (StreamSlot.clear_whole _) _
  | removeStream there => exact inv.setSlot on _ (removeStream_whole _) s.lost
  | clear joined =>
      obtain ⟨server, response, stream⟩ := joined
      refine ⟨fun _ _ is => ?_, by simp [RequestMemory.clear], fun n is => ?_,
        by simp [RequestMemory.clear], fun _ => ⟨⟨server, response, stream⟩, rfl, rfl, rfl⟩⟩
      · cases server.symm.trans is
      · simp [node?, RequestMemory.clear, response] at is

theorem createNode_faults (at_ : s.server = .message msg) (lacks : ¬ HasString msg.data)
    (results : NodeMallocs) : Faults s.blocks (s.createNode msg results) := by
  refine Faults.call (Triple.access msg.block) (R := arrayBlocks msg.data + s.besideServer) ?_
    (firstOf_faults _ lacks).bind_left
  rw [at_server at_, ServerHolds.blocks, NodeBlocks.blocks, add_assoc]

theorem execute_faults (at_ : s.response = .taken node) (has : HasString node.data)
    {results : ExecuteResults} (calls : Calls node.head results)
    (cannot : ¬ CanCall node.head.cmd s.prevResp) : Faults s.blocks (s.execute node results) := by
  refine Faults.call (Triple.access node.block)
    (R := arrayBlocks node.data + s.besideResponse) ?_ ?_
  · rw [at_response at_, ResponseHolds.blocks, NodeBlocks.blocks, add_assoc]
  refine Faults.call (firstOf_triple has) (R := {node.block} + s.besideResponse)
    (by abel) (Faults.bind_left ?_)
  have faults := (executeBlocks_faults calls cannot).frame (arrayBlocks node.data +
    ({node.block} + (s.server.blocks + (s.queue.map NodeBlocks.blocks).sum +
      (slotBlocks s.slots + s.lost))))
  refine (congrArg (Faults · _) ?_).mp faults
  rw [besideResponse]
  abel

/-- The path has been freed. -/
theorem not_live (dead : ¬ s.Live path) : ∃ b, path = some b ∧ b ∉ s.blocks := by
  simpa [Live] using dead

/-- A step that does not find what it reads. -/
theorem step_faults (inv : Inv s) (step : s.step a = some c) (lacks : ¬ s.Finds a) :
    FaultsAt s.blocks c := by
  cases step_move step with
  | createNode at_ =>
      refine (createNode_faults at_ ?_ _).at
      simpa [Finds, at_] using lacks
  | execute at_ =>
      obtain ⟨calls, cannot⟩ : Calls _ _ ∧ ¬ CanCall _ s.prevResp := by
        simpa [Finds, at_] using lacks
      refine (execute_faults at_ (inv.response _ ?_) calls cannot).at
      simp [node?, at_]
  | copyPath at_ =>
      obtain ⟨b, rfl, gone⟩ := not_live fun live => lacks fun _ _ _ is => by
        cases at_.symm.trans is
        exact live
      exact (copyPath_faults gone _).bind_left
  | prepare at_ =>
      obtain ⟨b, rfl, gone⟩ := not_live fun live => lacks fun _ is => by
        cases at_.symm.trans is
        exact live
      exact (copyPath_faults gone _).bind_left
  | receive | enqueue | freeMessage | dequeue | executeStream | findPath | broadcast | answer
  | release | findClient | sendData | addClient | removeStream | removeClient | serverReturns
  | responseReturns | streamReturns | clear =>
      exact absurd trivial lacks

theorem sound : program.Sound Finds Inv where
  keeps _ _ _ inv step finds := ⟨step_triple inv step finds, step_inv inv step finds⟩
  faults _ _ _ inv step lacks := step_faults inv step lacks

theorem clearSlot_loses {idx : Nat} {slot : StreamSlot} (there : s.slots[idx]? = some slot) :
    slot.blocks = 0 ↔ ∀ slot', s.slots[idx]? = some slot' → slot'.Empty := by
  rw [StreamSlot.blocks_eq_zero_iff, there]
  exact ⟨fun empty _ is => Option.some.inj is ▸ empty, fun all => all slot rfl⟩

theorem enqueue_lost (s : RequestMemory) (msg node : NodeBlocks) (notify : NotifyResults) :
    (s.enqueue msg node notify).value.lost = s.lost := by
  unfold RequestMemory.enqueue
  split <;> rfl

theorem loses : program.Loses Finds Keeps Inv lost := by
  intro s a c _ step _
  cases step_move step with
  | createNode =>
      rw [createNode_next]
      exact ⟨0, (add_zero _).symm, iff_of_true rfl trivial⟩
  | enqueue => exact ⟨0, (enqueue_lost s _ _ _).trans (add_zero _).symm, iff_of_true rfl trivial⟩
  | execute =>
      rw [execute_next]
      exact ⟨0, (add_zero _).symm, iff_of_true rfl trivial⟩
  | executeStream =>
      rw [executeStream_next]
      exact ⟨0, (add_zero _).symm, iff_of_true rfl trivial⟩
  | prepare =>
      obtain ⟨stream, value⟩ := prepare_value s _ _
      rw [value]
      exact ⟨0, (add_zero _).symm, iff_of_true rfl trivial⟩
  | sendData =>
      rw [sendData_value]
      exact ⟨0, (add_zero _).symm, iff_of_true rfl trivial⟩
  | addClient there | removeClient there => exact ⟨_, rfl, clearSlot_loses there⟩
  | clear => exact ⟨_, rfl, leftBlocks_eq_zero_iff⟩
  | receive | freeMessage | dequeue | findPath | copyPath | broadcast | answer | release
  | findClient | removeStream | serverReturns | responseReturns | streamReturns =>
      exact ⟨0, (add_zero _).symm, iff_of_true rfl trivial⟩

theorem start_inv : Inv start := by
  refine ⟨by simp [start], by simp [start], by simp [start, node?], fun slot mem => ?_,
    by simp [start]⟩
  rw [List.eq_of_mem_replicate mem]
  exact Iff.rfl

end Steps

/-- The client goes between the lookup of its path and the copy of it. -/
def pathFreed : List Action :=
  [.addClient 0, .receive (.message 0 ⟨1, ⟨0, 1, 5, 7⟩, some ⟨2, [some 3]⟩⟩),
    .createNode ⟨some 0, some 4, [some 5]⟩, .enqueue ⟨none, none, none, false⟩, .dequeue,
    .freeMessage, .executeStream (some (0, ⟨some 20, some 21, true⟩)) (some 1), .findPath (some 0),
    .removeStream 0, .removeClient 0, .copyPath (some 2) none]

theorem pathFreed_faults : ∃ t log,
    program.machine.exec init pathFreed = some (t, log) ∧ t.faulted = true :=
  ⟨_, _, rfl, rfl⟩

end RequestMemory

end OdroidPlayer
