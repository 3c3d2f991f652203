import OdroidPlayer.Linked.Queue

/-!
What the queues do to the nodes that pass through them.

Nodes leave in the order in which they were taken, by a dequeue or when the queue is flushed,
and the others are still linked (`first_in_first_out`).
-/

namespace OdroidPlayer

open Cells Transition Transition.System

universe u

variable {ν : Type u}

namespace Linked

section Runs

variable {program : Program} {idx : ν → Int32} {s t : Linked ν} {queue queue' : Queue (Nat × ν)}
  {a : Action ν} {as : List (Action ν)} {es log : List (Event ν)}

theorem accepted_append (front back : List (Event ν)) :
    accepted (front ++ back) = accepted front ++ accepted back := List.filterMap_append

theorem departed_append (front back : List (Event ν)) :
    departed (front ++ back) = departed front ++ departed back := List.filterMap_append

theorem accepted_departures (nodes : List (Nat × ν)) :
    accepted (nodes.map Event.departed) = [] := by
  simp [accepted, List.filterMap_map]

theorem departed_departures (nodes : List (Nat × ν)) :
    departed (nodes.map Event.departed) = nodes := by
  simp [departed, List.filterMap_map]

/-- What has been there and what comes is what goes and what stays. -/
def Passes (before after : List (Nat × ν)) (es : List (Event ν)) : Prop :=
  before ++ accepted es = departed es ++ after

theorem passes_of_taken {take : List (Nat × ν) → Option (Nat × ν) × List (Nat × ν)}
    (takes : ∀ node rest, take (node :: rest) = (some node, rest) ∨
      take (node :: rest) = (none, node :: rest)) {woken : Bool}
    (step : (if woken then queue.lookAgain take else queue.look take).map answer =
      some (queue', es)) : Passes queue.nodes queue'.nodes es := by
  have idle : ∀ nodes : List (Nat × ν), Passes nodes nodes [.returnedNull] := List.append_nil
  have looked : ∀ {out}, queue.look take = some out → answer out = (queue', es) →
      Passes queue.nodes queue'.nodes es := by
    intro out look same
    rw [Queue.look] at look
    split at look
    · cases look
    next node rest nodes =>
        cases look
        rcases takes node rest with taken | kept
        · rw [taken] at same
          cases same
          rw [nodes]
          exact List.append_nil _
        · rw [kept] at same
          cases same
          rw [nodes]
          exact idle _
  obtain ⟨out, look, same⟩ := Option.map_eq_some_iff.mp step
  cases woken with
  | false => exact looked look same
  | true =>
      simp only [if_true, Queue.lookAgain] at look
      split at look
      · exact looked look same
      · cases look
        cases same
        exact idle _

theorem dequeueConditional_cases (idx : ν → Int32) (msgIdx : Int32) (node : ν) (rest : List ν) :
    dequeueConditional idx msgIdx (node :: rest) = (some node, rest) ∨
      dequeueConditional idx msgIdx (node :: rest) = (none, node :: rest) := by
  cases rest with
  | nil => exact .inl rfl
  | cons next rest =>
      rw [dequeueConditional]
      split
      · exact .inr rfl
      · exact .inl rfl

theorem fifo_passes (step : (fifo program idx).step queue a = some (queue', es)) :
    Passes queue.nodes queue'.nodes es := by
  cases a with
  | enqueue l node =>
      simp only [fifo, Queue.enqueue] at step
      split at step
      next taken =>
          cases step
          split at taken
          · cases taken
          · cases taken
            exact rfl
      next kept =>
          cases step
          split at kept
          · cases kept
            exact List.append_nil _
          · cases kept
  | dequeue woken => exact passes_of_taken (fun node rest => .inl rfl) step
  | dequeueConditional woken msgIdx =>
      cases program with
      | server => cases step
      | client => exact passes_of_taken (dequeueConditional_cases _ msgIdx) step
  | flushQueue =>
      cases program with
      | server => cases step
      | client =>
          cases step
          rw [Passes, accepted_departures, departed_departures]
          rfl
  | removeNode l =>
      cases step
      exact List.append_nil _
  | setRunning running =>
      cases step
      exact List.append_nil _

/-- The nodes that leave are the first of those that were taken, in their order, and the others
are still there. -/
theorem holds_reached (reached : (machine program idx).Reached Created t log) :
    ∃ queue, Holds t queue ∧ accepted log = departed log ++ queue.nodes := by
  obtain ⟨s, created, as, run⟩ := reached
  refine exec_rec (I := fun t log => ∃ queue, Holds t queue ∧
    accepted log = departed log ++ queue.nodes) ?_ [] ⟨_, created.holds, rfl⟩ run
  rintro s log a t es ⟨queue, holds, order⟩ step
  obtain ⟨queue', spec, holds'⟩ := holds.keep step
  refine ⟨queue', holds', ?_⟩
  rw [accepted_append, departed_append, order, List.append_assoc, fifo_passes spec,
    List.append_assoc]

/-- What the operations do to a queue with these nodes. -/
structure Laws (program : Program) (idx : ν → Int32) (s : Linked ν) (nodes : List (Nat × ν)) :
    Prop where
  chain : Chain s.queue.memory s.queue.head nodes
  size : s.queue.size.toNat = nodes.length
  /-- An `enqueue` that refuses changes nothing. -/
  enqueue : ∀ l node, l ∉ s.queue.memory → ∃ t es,
    (machine program idx).step s (.enqueue l node) = some (t, es) ∧
      (es = [.accepted (l, node)] ∧
          Chain t.queue.memory t.queue.head (nodes ++ [(l, node)]) ∨
        es = [.refused (l, node)] ∧ t.queue.head = s.queue.head ∧
          t.queue.size = s.queue.size ∧ Chain t.queue.memory t.queue.head nodes)
  dequeue : ∀ woken first rest, (woken = true → s.queue.running = true) →
    nodes = first :: rest → ∃ t,
      (machine program idx).step s (.dequeue woken) = some (t, [.departed first]) ∧
        Chain t.queue.memory t.queue.head rest
  /-- The second node is looked at, and the first one is taken. -/
  dequeueConditional : program = .client → ∀ woken first rest msgIdx,
    (woken = true → s.queue.running = true) → nodes = first :: rest →
      (∃ second ∈ rest.head?, msgIdx < idx second.2) ∧
          (machine program idx).step s (.dequeueConditional woken msgIdx) =
            some (s, [.returnedNull]) ∨
        ¬ (∃ second ∈ rest.head?, msgIdx < idx second.2) ∧ ∃ t,
          (machine program idx).step s (.dequeueConditional woken msgIdx) =
            some (t, [.departed first]) ∧ Chain t.queue.memory t.queue.head rest
  flushQueue : program = .client → ∃ t,
    (machine program idx).step s .flushQueue = some (t, nodes.map .departed) ∧
      Chain t.queue.memory t.queue.head [] ∧ t.queue.size = 0

theorem Holds.enqueue_law (holds : Holds s queue) (program : Program) (idx : ν → Int32) (node : ν)
    {l : Nat} (free : l ∉ s.queue.memory) : ∃ t es,
    (machine program idx).step s (.enqueue l node) = some (t, es) ∧
      (es = [.accepted (l, node)] ∧
          Chain t.queue.memory t.queue.head (queue.nodes ++ [(l, node)]) ∨
        es = [.refused (l, node)] ∧ t.queue.head = s.queue.head ∧
          t.queue.size = s.queue.size ∧ Chain t.queue.memory t.queue.head queue.nodes) := by
  have follows := holds.enqueue program idx node free
  simp only [fifo, Queue.enqueue] at follows
  by_cases full : Queue.maxSize < queue.nodes.length
  · rw [if_pos full] at follows
    obtain ⟨t, step, after⟩ := follows
    refine ⟨t, _, step, .inr ⟨rfl, ?_, ?_, after.chain⟩⟩
    · rw [after.chain.head_eq, holds.chain.head_eq]
    · exact UInt64.toNat_inj.mp (after.size.trans holds.size.symm)
  · rw [if_neg full] at follows
    obtain ⟨t, step, after⟩ := follows
    exact ⟨t, _, step, .inl ⟨rfl, after.chain⟩⟩

/-- A thread that finds a first node and is not told to stop does not wait. -/
theorem look_of_first {take : Nat → LinkedQueue ν → Option (Option Nat × LinkedQueue ν)}
    {woken : Bool} {first : Nat} (head : s.queue.head = some first)
    (on : woken = true → s.queue.running = true) :
    s.queue.look take woken = take first s.queue := by
  have stays : ¬ (woken = true ∧ s.queue.running = false) := by
    rintro ⟨was, off⟩
    rw [on was] at off
    cases off
  simp only [LinkedQueue.look, if_neg stays, head]

theorem Holds.dequeueConditional_law (holds : Holds s queue) {first : Nat × ν}
    {rest : List (Nat × ν)} {woken : Bool} (on : woken = true → s.queue.running = true)
    (nodes : queue.nodes = first :: rest) (msgIdx : Int32) :
    (∃ second ∈ rest.head?, msgIdx < idx second.2) ∧
        (machine .client idx).step s (.dequeueConditional woken msgIdx) =
          some (s, [.returnedNull]) ∨
      ¬ (∃ second ∈ rest.head?, msgIdx < idx second.2) ∧ ∃ t,
        (machine .client idx).step s (.dequeueConditional woken msgIdx) =
          some (t, [.departed first]) ∧ Chain t.queue.memory t.queue.head rest := by
  obtain ⟨next, head, here, after⟩ := holds.first nodes
  obtain ⟨t, taken, later⟩ := holds.dequeue nodes
  simp only [machine, look_of_first head on, LinkedQueue.dequeueConditional]
  cases after with
  | nil =>
      refine .inr ⟨by simp, t, ?_, later.chain⟩
      simp only [here]
      exact taken
  | @cons l w _ cells second _ =>
      by_cases greater : msgIdx < idx w
      · refine .inl ⟨⟨(l, w), rfl, greater⟩, ?_⟩
        simp only [here, second, if_pos greater]
        rfl
      · refine .inr ⟨?_, t, ?_, later.chain⟩
        · rintro ⟨_, ⟨⟩, more⟩
          exact greater more
        · simp only [here, second, if_neg greater]
          exact taken

theorem Holds.laws (holds : Holds s queue) : Laws program idx s queue.nodes where
  chain := holds.chain
  size := holds.size
  enqueue := fun l node free => holds.enqueue_law program idx node free
  dequeue := by
    intro woken first rest on nodes
    obtain ⟨next, head, _⟩ := holds.first nodes
    obtain ⟨t, taken, later⟩ := holds.dequeue nodes
    refine ⟨t, ?_, later.chain⟩
    simp only [machine, look_of_first head on]
    exact taken
  dequeueConditional := by
    rintro rfl woken first rest msgIdx on nodes
    exact holds.dequeueConditional_law on nodes msgIdx
  flushQueue := by
    rintro rfl
    obtain ⟨t, step, after⟩ := holds.flushQueue
    exact ⟨t, step, after.chain, UInt64.toNat_inj.mp after.size⟩

/-- The queues of both programs are first in, first out: in every state that the operations
reach from an empty queue the linked nodes are the nodes taken that have not left, in order,
the size is their number, and each operation does what it does to the list. -/
theorem first_in_first_out (reached : (machine program idx).Reached Created s log) :
    ∃ nodes, accepted log = departed log ++ nodes ∧ Laws program idx s nodes := by
  obtain ⟨queue, holds, order⟩ := holds_reached reached
  exact ⟨queue.nodes, order, holds.laws⟩

/-- `create_queue` with nothing else in memory. -/
def created : Linked ν := ⟨⟨none, 0, true, ∅⟩, ∅⟩

theorem created_created : (created : Linked ν).Created := ⟨rfl, rfl, rfl, rfl⟩

/-- With a later answer behind it the first one is not taken by `dequeue_conditional`; a third
one comes, and the queue is flushed. -/
def twoAnswers : List (Action Int32) :=
  [.enqueue 7 1, .enqueue 3 2, .dequeueConditional false 1, .dequeue false, .enqueue 9 3,
    .flushQueue]

theorem twoAnswers_in_order : ∃ s log,
    (machine .client id).exec created twoAnswers = some (s, log) ∧
      ∃ nodes, accepted log = departed log ++ nodes ∧ Laws .client id s nodes :=
  ⟨_, _, rfl, first_in_first_out ⟨_, created_created, twoAnswers, rfl⟩⟩

end Runs

end Linked

end OdroidPlayer
