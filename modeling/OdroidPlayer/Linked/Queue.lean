import OdroidPlayer.Client.Request
import OdroidPlayer.Lib.Cells

/-!
The queues as they lie in memory.

`enqueue` walks to the last node, and the four functions write `head` and `size` each on its
own. The two programs have a copy of the code each; the client has `dequeue_conditional` and
`flush_queue` besides. Beginning with an empty queue each operation does what the one on `Queue`
does, which is a list (`linked_step`).
-/

namespace OdroidPlayer

open Cells Transition Transition.System

universe u

variable {ν : Type u}

/-- `t_queue`, and the nodes that are allocated; the value of a node is what it has besides
`next`. -/
structure LinkedQueue (ν : Type u) where
  head : Option Nat
  size : UInt64
  running : Bool
  memory : Memory ν

namespace LinkedQueue

/-- `enqueue` of the node at `l`. The walk to the last node is over after as many steps as
there are nodes, or never. -/
def enqueue (l : Nat) (queue : LinkedQueue ν) : Option (LinkedQueue ν × Bool) :=
  if Queue.maxSize < queue.size.toNat then some (queue, false)
  else
    match queue.head with
    | none => some ({ queue with head := some l, size := 1 }, true)
    | some cur =>
        (lastFrom queue.memory queue.memory.keys.card cur).map fun last =>
          ({ queue with
            memory := setNext queue.memory last (some l)
            size := queue.size + 1 }, true)

/-- What follows the loop of `dequeue`: the node that is returned, and the queue. -/
def dequeue (cur : Nat) (queue : LinkedQueue ν) : Option (Option Nat × LinkedQueue ν) :=
  (queue.memory.lookup cur).map fun node =>
    (some cur, { queue with head := node.next, size := queue.size - 1 })

/-- The same for `dequeue_conditional`. -/
def dequeueConditional (idx : ν → Int32) (msgIdx : Int32) (cur : Nat) (queue : LinkedQueue ν) :
    Option (Option Nat × LinkedQueue ν) :=
  match queue.memory.lookup cur with
  | none => none
  | some ⟨_, none⟩ => queue.dequeue cur
  | some ⟨_, some next⟩ =>
      match queue.memory.lookup next with
      | none => none
      | some second => if msgIdx < idx second.value then some (none, queue) else queue.dequeue cur

/-- The loop test and what follows the loop, on the entry or on the return of
`pthread_cond_wait`; `none` when the thread waits. -/
def look (take : Nat → LinkedQueue ν → Option (Option Nat × LinkedQueue ν)) (woken : Bool)
    (queue : LinkedQueue ν) : Option (Option Nat × LinkedQueue ν) :=
  if woken ∧ queue.running = false then some (none, queue)
  else
    match queue.head with
    | none => none
    | some cur => take cur queue

/-- The nodes that `flush_queue` has freed, and the queue. -/
def flushQueue (queue : LinkedQueue ν) : Option (List (Nat × ν) × LinkedQueue ν) :=
  (freeFrom queue.memory queue.memory.keys.card queue.head).map fun out =>
    (out.1, { queue with head := none, size := 0, memory := out.2 })

end LinkedQueue

inductive Program where
  | server
  | client
  deriving DecidableEq, Repr

/-- A queue, and the nodes that are out of it and have not been removed. -/
structure Linked (ν : Type u) where
  queue : LinkedQueue ν
  owned : Finset Nat

namespace Linked

inductive Action (ν : Type u) where
  /-- `create_node` returns the address, and the node is enqueued -/
  | enqueue (l : Nat) (node : ν)
  /-- a critical section of `dequeue`, of a thread that enters it or that has been woken in it -/
  | dequeue (woken : Bool)
  | dequeueConditional (woken : Bool) (msgIdx : Int32)
  | flushQueue
  | removeNode (l : Nat)
  /-- `set_player_running` or `set_monitor` -/
  | setRunning (running : Bool)
  deriving DecidableEq, Repr

inductive Event (ν : Type u) where
  | accepted (node : Nat × ν)
  | refused (node : Nat × ν)
  /-- returned by a dequeue, or freed by `flush_queue` -/
  | departed (node : Nat × ν)
  /-- a dequeue returns NULL -/
  | returnedNull
  deriving DecidableEq, Repr

/-- The nodes that the queue has taken. -/
def accepted (log : List (Event ν)) : List (Nat × ν) :=
  log.filterMap fun
    | .accepted node => some node
    | _ => none

/-- The nodes that have left it. -/
def departed (log : List (Event ν)) : List (Nat × ν) :=
  log.filterMap fun
    | .departed node => some node
    | _ => none

/-- What a dequeue has returned is its caller's. -/
def returned (s : Linked ν) : Option Nat × LinkedQueue ν → Option (Linked ν × List (Event ν))
  | (none, queue) => some ({ s with queue }, [.returnedNull])
  | (some l, queue) =>
      (queue.memory.lookup l).map fun node =>
        (⟨queue, insert l s.owned⟩, [.departed (l, node.value)])

/-- `malloc` returns an address that is not in use, and `remove_node` is called for nodes that
have been refused or returned. -/
def machine (program : Program) (idx : ν → Int32) : System (Linked ν) (Action ν) (Event ν) where
  step s
    | .enqueue l node =>
        if l ∈ s.queue.memory then none
        else
          let queue := { s.queue with memory := s.queue.memory.insert l ⟨node, none⟩ }
          (queue.enqueue l).map fun out =>
            if out.2 then ({ s with queue := out.1 }, [.accepted (l, node)])
            else (⟨out.1, insert l s.owned⟩, [.refused (l, node)])
    | .dequeue woken => (s.queue.look LinkedQueue.dequeue woken).bind s.returned
    | .dequeueConditional woken msgIdx =>
        match program with
        | .server => none
        | .client =>
            (s.queue.look (LinkedQueue.dequeueConditional idx msgIdx) woken).bind s.returned
    | .flushQueue =>
        match program with
        | .server => none
        | .client =>
            s.queue.flushQueue.map fun out => ({ s with queue := out.2 }, out.1.map .departed)
    | .removeNode l =>
        if l ∈ s.owned then
          some (⟨{ s.queue with memory := s.queue.memory.erase l }, s.owned.erase l⟩, [])
        else none
    | .setRunning running => some ({ s with queue := { s.queue with running } }, [])

/-- `create_queue`, whatever else is in memory. -/
structure Created (s : Linked ν) : Prop where
  head : s.queue.head = none
  size : s.queue.size = 0
  running : s.queue.running = true
  owned : s.owned = ∅

/-! ### The list that it stands for -/

/-- What follows the loop of `dequeue_conditional`, on a list of nodes. -/
def dequeueConditional (idx : ν → Int32) (msgIdx : Int32) : List ν → Option ν × List ν
  | [] => (none, [])
  | [node] => (some node, [])
  | node :: next :: rest =>
      if msgIdx < idx next then (none, node :: next :: rest) else (some node, next :: rest)

/-- The client's nodes are told apart by their number. -/
theorem dequeueConditional_client (msgIdx : Int32) (nodes : List ClientNode) :
    dequeueConditional ClientNode.msgIdx msgIdx nodes =
      OdroidPlayer.dequeueConditional msgIdx nodes := by
  cases nodes with
  | nil => rfl
  | cons node rest => cases rest <;> rfl

def answer (out : Option (Nat × ν) × Queue (Nat × ν)) : Queue (Nat × ν) × List (Event ν) :=
  (out.2, [match out.1 with
    | none => .returnedNull
    | some node => .departed node])

/-- A list that is filled at one end and emptied at the other. -/
def fifo (program : Program) (idx : ν → Int32) :
    System (Queue (Nat × ν)) (Action ν) (Event ν) where
  step queue
    | .enqueue l node =>
        match queue.enqueue (l, node) with
        | (queue, true) => some (queue, [.accepted (l, node)])
        | (queue, false) => some (queue, [.refused (l, node)])
    | .dequeue woken =>
        (if woken then queue.lookAgain Queue.dequeue else queue.look Queue.dequeue).map answer
    | .dequeueConditional woken msgIdx =>
        let take := dequeueConditional (fun node : Nat × ν => idx node.2) msgIdx
        match program with
        | .server => none
        | .client => (if woken then queue.lookAgain take else queue.look take).map answer
    | .flushQueue =>
        match program with
        | .server => none
        | .client => some (queue.flushQueue, queue.nodes.map .departed)
    | .removeNode _ => some (queue, [])
    | .setRunning running => some ({ queue with running }, [])

/-- The nodes that are linked, in order. -/
structure Holds (s : Linked ν) (queue : Queue (Nat × ν)) : Prop where
  chain : Chain s.queue.memory s.queue.head queue.nodes
  size : s.queue.size.toNat = queue.nodes.length
  bounded : queue.nodes.length ≤ Queue.maxSize + 1
  running : s.queue.running = queue.running
  allocated : ∀ l ∈ s.owned, l ∈ s.queue.memory
  apart : ∀ node ∈ queue.nodes, node.1 ∉ s.owned

/-- The address is free, or the node is out of the queue. -/
def Admits (s : Linked ν) : Action ν → Prop
  | .enqueue l _ => l ∉ s.queue.memory
  | .removeNode l => l ∈ s.owned
  | _ => True

/-- What the code does is what the list does. -/
def Follows (out : Option (Linked ν × List (Event ν))) :
    Option (Queue (Nat × ν) × List (Event ν)) → Prop
  | none => out = none
  | some (queue, es) => ∃ t, out = some (t, es) ∧ Holds t queue

section Step

variable {program : Program} {idx : ν → Int32} {s t : Linked ν} {queue : Queue (Nat × ν)}
  {a : Action ν} {es log : List (Event ν)}

theorem Created.holds (created : Created s) : Holds s Queue.createQueue where
  chain := by
    rw [created.head]
    exact .nil
  size := by
    rw [created.size]
    rfl
  bounded := Nat.zero_le _
  running := created.running
  allocated := by simp [created.owned]
  apart := fun _ mem => by cases mem

/-- The size is incremented without overflow. -/
theorem Holds.size_succ (holds : Holds s queue) :
    (s.queue.size + 1).toNat = queue.nodes.length + 1 := by
  have size := holds.size
  have bounded := holds.bounded
  have word : queue.nodes.length + 1 < 2 ^ 64 := by
    rw [Queue.maxSize] at bounded
    omega
  rw [UInt64.toNat_add, size]
  exact Nat.mod_eq_of_lt word

theorem Holds.size_pred {node : Nat × ν} {rest : List (Nat × ν)} (holds : Holds s queue)
    (nodes : queue.nodes = node :: rest) : (s.queue.size - 1).toNat = rest.length := by
  have size := holds.size
  rw [nodes, List.length_cons] at size
  have one : (1 : UInt64) ≤ s.queue.size := by
    rw [UInt64.le_iff_toNat_le, size]
    exact Nat.succ_le_succ (Nat.zero_le _)
  rw [UInt64.toNat_sub_of_le _ _ one, size]
  rfl

theorem Holds.enqueue (holds : Holds s queue) (program : Program) (idx : ν → Int32) (node : ν)
    {l : Nat} (free : l ∉ s.queue.memory) :
    Follows ((machine program idx).step s (.enqueue l node))
      ((fifo program idx).step queue (.enqueue l node)) := by
  have chain : Chain (s.queue.memory.insert l ⟨node, none⟩) s.queue.head queue.nodes :=
    holds.chain.insert free
  have outside : ∀ n ∈ queue.nodes, n.1 ≠ l := fun n mem same => free (same ▸ holds.chain.mem mem)
  have unowned : l ∉ s.owned := fun mem => free (holds.allocated l mem)
  have allocated : ∀ l' ∈ s.owned, l' ∈ s.queue.memory.insert l ⟨node, none⟩ := fun l' mem =>
    Finmap.mem_insert.mpr (.inr (holds.allocated l' mem))
  simp only [machine, if_neg free, fifo, Queue.enqueue, LinkedQueue.enqueue, holds.size]
  by_cases full : Queue.maxSize < queue.nodes.length
  · simp only [if_pos full, Option.map_some, Bool.false_eq_true, if_false]
    refine ⟨_, rfl, chain, holds.size, holds.bounded, holds.running, ?_, ?_⟩
    · intro l' mem
      rcases Finset.mem_insert.mp mem with rfl | mem
      · exact Finmap.mem_insert.mpr (.inl rfl)
      · exact allocated l' mem
    · intro n mem again
      rcases Finset.mem_insert.mp again with same | again
      · exact outside n mem same
      · exact holds.apart n mem again
  · simp only [if_neg full]
    have bounded : (queue.nodes ++ [(l, node)]).length ≤ Queue.maxSize + 1 := by
      rw [List.length_append, List.length_singleton]
      omega
    have apart : ∀ n ∈ queue.nodes ++ [(l, node)], n.1 ∉ s.owned := by
      intro n mem
      rcases List.mem_append.mp mem with mem | mem
      · exact holds.apart n mem
      · cases List.mem_singleton.mp mem
        exact unowned
    have new : (s.queue.memory.insert l ⟨node, none⟩).lookup l = some ⟨node, none⟩ :=
      Finmap.lookup_insert _
    cases head : s.queue.head with
    | none =>
        have empty : queue.nodes = [] := holds.chain.eq_nil_iff.mpr head
        simp only [Option.map_some, if_true]
        refine ⟨_, rfl, ?_, ?_, bounded, holds.running, allocated, apart⟩
        · rw [empty]
          exact .cons new .nil
        · rw [empty]
          rfl
    | some cur =>
        rw [head] at chain
        obtain ⟨last, walk, linked⟩ := chain.walk_append new (fun again => by
          obtain ⟨n, mem, same⟩ := List.mem_map.mp again
          exact outside n mem same)
        simp only [walk, Option.map_some, if_true]
        refine ⟨_, rfl, linked, ?_, bounded, holds.running, ?_, apart⟩
        · rw [List.length_append, List.length_singleton]
          exact holds.size_succ
        · intro l' mem
          exact mem_setNext.mpr (allocated l' mem)

/-- The first node of a queue that has one. -/
theorem Holds.first {node : Nat × ν} {rest : List (Nat × ν)} (holds : Holds s queue)
    (nodes : queue.nodes = node :: rest) :
    ∃ next, s.queue.head = some node.1 ∧ s.queue.memory.lookup node.1 = some ⟨node.2, next⟩ ∧
      Chain s.queue.memory next rest := by
  have chain := holds.chain
  rw [nodes] at chain
  generalize s.queue.head = head at chain
  cases chain with
  | cons here after => exact ⟨_, rfl, here, after⟩

/-- The first node is unlinked and given to the caller. -/
theorem Holds.dequeue {node : Nat × ν} {rest : List (Nat × ν)} (holds : Holds s queue)
    (nodes : queue.nodes = node :: rest) :
    ∃ t, (s.queue.dequeue node.1).bind s.returned = some (t, [.departed node]) ∧
      Holds t { queue with nodes := rest } := by
  obtain ⟨next, _, here, after⟩ := holds.first nodes
  have nodup := holds.chain.nodup
  rw [nodes, List.map_cons, List.nodup_cons] at nodup
  simp only [LinkedQueue.dequeue, here, Option.map_some, Option.bind_some, returned]
  refine ⟨_, rfl, after, holds.size_pred nodes, ?_, holds.running, ?_, ?_⟩
  · have bounded := holds.bounded
    rw [nodes] at bounded
    exact Nat.le_of_succ_le bounded
  · intro l mem
    rcases Finset.mem_insert.mp mem with rfl | mem
    · exact Finmap.mem_of_lookup_eq_some here
    · exact holds.allocated l mem
  · intro n mem again
    rcases Finset.mem_insert.mp again with same | again
    · exact nodup.1 (List.mem_map.mpr ⟨n, mem, same⟩)
    · exact holds.apart n (nodes ▸ List.mem_cons_of_mem _ mem) again

/-- `dequeue_conditional` leaves the queue alone where it does not do what `dequeue` does. -/
theorem Holds.dequeueConditional {node : Nat × ν} {rest : List (Nat × ν)} (holds : Holds s queue)
    (nodes : queue.nodes = node :: rest) (msgIdx : Int32) :
    let out := Linked.dequeueConditional (fun node : Nat × ν => idx node.2) msgIdx (node :: rest)
    ∃ t, (s.queue.dequeueConditional idx msgIdx node.1).bind s.returned =
        some (t, (answer (out.1, { queue with nodes := out.2 })).2) ∧
      Holds t { queue with nodes := out.2 } := by
  have taken := holds.dequeue nodes
  obtain ⟨next, _, here, after⟩ := holds.first nodes
  cases after with
  | nil =>
      simp only [LinkedQueue.dequeueConditional, here]
      exact taken
  | @cons l w _ cells second _ =>
      by_cases greater : msgIdx < idx w
      · simp only [LinkedQueue.dequeueConditional, Linked.dequeueConditional, here, second,
          if_pos greater]
        have same : queue = { queue with nodes := node :: (l, w) :: cells } := by rw [← nodes]
        exact ⟨s, rfl, same ▸ holds⟩
      · simp only [LinkedQueue.dequeueConditional, Linked.dequeueConditional, here, second,
          if_neg greater]
        exact taken

/-- The loop of a dequeue, whatever follows it. -/
theorem Holds.look {take : Nat → LinkedQueue ν → Option (Option Nat × LinkedQueue ν)}
    {take' : List (Nat × ν) → Option (Nat × ν) × List (Nat × ν)} (holds : Holds s queue)
    (agree : ∀ node rest, queue.nodes = node :: rest →
      ∃ t, (take node.1 s.queue).bind s.returned =
          some (t, (answer ((take' (node :: rest)).1,
            { queue with nodes := (take' (node :: rest)).2 })).2) ∧
        Holds t { queue with nodes := (take' (node :: rest)).2 }) (woken : Bool) :
    Follows ((s.queue.look take woken).bind s.returned)
      ((if woken then queue.lookAgain take' else queue.look take').map answer) := by
  by_cases off : woken = true ∧ s.queue.running = false
  · have off' : queue.running = false := holds.running ▸ off.2
    simp only [LinkedQueue.look, if_pos off, Option.bind_some, if_pos off.1, Queue.lookAgain, off',
      Bool.false_eq_true, if_false, Option.map_some]
    exact ⟨s, rfl, holds⟩
  · have look : (if woken then queue.lookAgain take' else queue.look take') = queue.look take' := by
      cases woken with
      | false => rfl
      | true =>
          have on : queue.running = true := by
            rw [← holds.running]
            simpa using off
          simp only [if_true, Queue.lookAgain, on]
    rw [look, LinkedQueue.look, if_neg off]
    cases nodes : queue.nodes with
    | nil =>
        have head : s.queue.head = none := holds.chain.eq_nil_iff.mp nodes
        simp only [head, Queue.look, nodes]
        exact rfl
    | cons node rest =>
        obtain ⟨_, head, _⟩ := holds.first nodes
        simp only [head, Queue.look, nodes]
        exact agree node rest nodes

theorem Holds.flushQueue (holds : Holds s queue) :
    ∃ t, (s.queue.flushQueue.map fun out =>
        (({ s with queue := out.2 } : Linked ν), out.1.map Event.departed)) =
          some (t, queue.nodes.map .departed) ∧
      Holds t queue.flushQueue := by
  obtain ⟨memory, freed, same⟩ := freeFrom_of_chain holds.chain holds.chain.length_le
  simp only [LinkedQueue.flushQueue, freed, Option.map_some]
  refine ⟨_, rfl, .nil, rfl, Nat.zero_le _, holds.running, ?_, by simp [Queue.flushQueue]⟩
  intro l mem
  have outside : l ∉ queue.nodes.map Prod.fst := fun again => by
    obtain ⟨node, linked, rfl⟩ := List.mem_map.mp again
    exact holds.apart node linked mem
  change l ∈ memory
  rw [← Finmap.lookup_isSome, same l outside, Finmap.lookup_isSome]
  exact holds.allocated l mem

theorem Holds.removeNode {l : Nat} (holds : Holds s queue) (mem : l ∈ s.owned) :
    Holds ⟨{ s.queue with memory := s.queue.memory.erase l }, s.owned.erase l⟩ queue where
  chain := holds.chain.erase fun again => by
    obtain ⟨node, linked, rfl⟩ := List.mem_map.mp again
    exact holds.apart node linked mem
  size := holds.size
  bounded := holds.bounded
  running := holds.running
  allocated := fun l' mem' => Finmap.mem_erase.mpr
    ⟨Finset.ne_of_mem_erase mem', holds.allocated l' (Finset.mem_of_mem_erase mem')⟩
  apart := fun node linked mem' => holds.apart node linked (Finset.mem_of_mem_erase mem')

/-- Each operation on the memory is the one on the list: it ends, with the same answer. -/
theorem linked_step (program : Program) (idx : ν → Int32) (holds : Holds s queue)
    (admits : s.Admits a) :
    Follows ((machine program idx).step s a) ((fifo program idx).step queue a) := by
  cases a with
  | enqueue l node => exact holds.enqueue program idx node admits
  | dequeue woken => exact holds.look (fun node rest nodes => holds.dequeue nodes) woken
  | dequeueConditional woken msgIdx =>
      cases program with
      | server => exact rfl
      | client =>
          exact holds.look (fun node rest nodes => holds.dequeueConditional nodes msgIdx) woken
  | flushQueue =>
      cases program with
      | server => exact rfl
      | client => exact holds.flushQueue
  | removeNode l =>
      simp only [machine, if_pos (show l ∈ s.owned from admits)]
      exact ⟨_, rfl, holds.removeNode admits⟩
  | setRunning running =>
      exact ⟨_, rfl, holds.chain, holds.size, holds.bounded, rfl, holds.allocated, holds.apart⟩

/-- Only admitted operations are executed. -/
theorem admits_of_step (step : (machine program idx).step s a = some (t, es)) : s.Admits a := by
  cases a with
  | enqueue l node =>
      intro mem
      simp only [machine, if_pos mem] at step
      cases step
  | removeNode l =>
      by_contra outside
      simp only [machine, if_neg (show l ∉ s.owned from outside)] at step
      cases step
  | _ => trivial

theorem Holds.keep (holds : Holds s queue)
    (step : (machine program idx).step s a = some (t, es)) :
    ∃ queue', (fifo program idx).step queue a = some (queue', es) ∧ Holds t queue' := by
  have follows := linked_step program idx holds (admits_of_step step)
  cases spec : (fifo program idx).step queue a with
  | none =>
      rw [spec, step] at follows
      cases follows
  | some out =>
      rw [spec] at follows
      obtain ⟨t', step', holds'⟩ := follows
      cases step.symm.trans step'
      exact ⟨out.1, rfl, holds'⟩

end Step

end Linked

end OdroidPlayer
