import OdroidPlayer.Linked.Order

/-!
How many nodes the queues hold.

`enqueue` refuses a node when the size is greater than `QUEUE_SIZE`, so at `QUEUE_SIZE` it
takes one more.
-/

namespace OdroidPlayer

open Cells Transition Transition.System

universe u

variable {ν : Type u}

namespace Linked

section Capacity

variable {program : Program} {idx : ν → Int32} {s t : Linked ν} {queue : Queue (Nat × ν)}
  {a : Action ν} {as : List (Action ν)} {es log : List (Event ν)}

/-- The number of nodes that it holds. -/
def Counts (s : Linked ν) (n : Nat) : Prop :=
  ∃ nodes, Chain s.queue.memory s.queue.head nodes ∧ nodes.length = n

def WithinSize (s : Linked ν) : Prop := ∃ n ≤ Queue.maxSize, s.Counts n

/-- A node is refused only when so many are held already. -/
def RefusesFull (program : Program) (idx : ν → Int32) (s : Linked ν) (a : Action ν) : Prop :=
  ∀ t es node, (machine program idx).step s a = some (t, es) → .refused node ∈ es →
    s.Counts Queue.maxSize

/-- No node is enqueued when `QUEUE_SIZE` nodes are held. -/
def BelowSize (s : Linked ν) : Action ν → Prop
  | .enqueue _ _ => s.queue.size.toNat ≠ Queue.maxSize
  | _ => True

instance (s : Linked ν) (a : Action ν) : Decidable (s.BelowSize a) :=
  match a with
  | .enqueue _ _ => inferInstanceAs (Decidable (s.queue.size.toNat ≠ Queue.maxSize))
  | .dequeue _ | .dequeueConditional _ _ | .flushQueue | .removeNode _ | .setRunning _ =>
      .isTrue trivial

theorem Holds.counts_iff (holds : Holds s queue) {n : Nat} :
    s.Counts n ↔ queue.nodes.length = n := by
  constructor
  · rintro ⟨nodes, chain, count⟩
    rw [← count, holds.chain.unique chain]
  · intro count
    exact ⟨queue.nodes, holds.chain, count⟩

theorem Holds.withinSize (holds : Holds s queue) :
    s.WithinSize ↔ queue.nodes.length ≤ Queue.maxSize := by
  constructor
  · rintro ⟨n, le, counts⟩
    rw [holds.counts_iff.mp counts]
    exact le
  · intro le
    exact ⟨_, le, holds.counts_iff.mpr rfl⟩

theorem length_of_taken {take : List (Nat × ν) → Option (Nat × ν) × List (Nat × ν)}
    {queue' : Queue (Nat × ν)} {woken : Bool}
    (takes : ∀ node rest, take (node :: rest) = (some node, rest) ∨
      take (node :: rest) = (none, node :: rest))
    (step : (if woken then queue.lookAgain take else queue.look take).map answer =
      some (queue', es)) :
    queue'.nodes.length ≤ queue.nodes.length ∧ ∀ node, .refused node ∉ es := by
  have passes := passes_of_taken takes step
  obtain ⟨⟨out, after⟩, _, same⟩ := Option.map_eq_some_iff.mp step
  cases same
  have shorter := congrArg List.length passes
  rw [List.length_append, List.length_append] at shorter
  cases out with
  | none =>
      refine ⟨?_, by simp⟩
      change _ + 0 = 0 + _ at shorter
      omega
  | some node =>
      refine ⟨?_, by simp⟩
      change _ + 0 = 1 + _ at shorter
      omega

theorem fifo_enqueue {queue' : Queue (Nat × ν)} {l : Nat} {node : ν}
    (le : queue.nodes.length ≤ Queue.maxSize)
    (step : (fifo program idx).step queue (.enqueue l node) = some (queue', es)) :
    queue'.nodes.length = queue.nodes.length + 1 ∧ es = [.accepted (l, node)] := by
  simp only [fifo, Queue.enqueue, if_neg (Nat.not_lt.mpr le)] at step
  cases step
  exact ⟨List.length_append, rfl⟩

/-- Only `enqueue` makes the queue longer, and only it refuses nodes. -/
theorem fifo_shrinks {queue' : Queue (Nat × ν)} (other : ∀ l node, a ≠ .enqueue l node)
    (step : (fifo program idx).step queue a = some (queue', es)) :
    queue'.nodes.length ≤ queue.nodes.length ∧ ∀ node, .refused node ∉ es := by
  cases a with
  | enqueue l node => exact absurd rfl (other l node)
  | dequeue woken => exact length_of_taken (fun node rest => .inl rfl) step
  | dequeueConditional woken msgIdx =>
      cases program with
      | server => cases step
      | client => exact length_of_taken (dequeueConditional_cases _ msgIdx) step
  | flushQueue =>
      cases program with
      | server => cases step
      | client =>
          cases step
          exact ⟨Nat.zero_le _, by simp⟩
  | removeNode l | setRunning running =>
      cases step
      exact ⟨le_rfl, by simp⟩

/-- Up to `QUEUE_SIZE` nodes, a step keeps the bound exactly when it does not enqueue at it, and
no node is refused. -/
theorem withinSize_step (holds : Holds s queue) (within : s.WithinSize)
    (step : (machine program idx).step s a = some (t, es)) :
    (t.WithinSize ↔ s.BelowSize a) ∧ ∀ node, .refused node ∉ es := by
  obtain ⟨queue', spec, holds'⟩ := holds.keep step
  have le := holds.withinSize.mp within
  rw [holds'.withinSize]
  by_cases enqueues : ∃ l node, a = .enqueue l node
  · obtain ⟨l, node, rfl⟩ := enqueues
    obtain ⟨longer, rfl⟩ := fifo_enqueue le spec
    rw [BelowSize, holds.size, longer]
    exact ⟨by omega, by simp⟩
  · have other : ∀ l node, a ≠ .enqueue l node := fun l node same => enqueues ⟨l, node, same⟩
    obtain ⟨shorter, none_⟩ := fifo_shrinks other spec
    have below : s.BelowSize a := by
      cases a with
      | enqueue l node => exact absurd rfl (other l node)
      | _ => trivial
    exact ⟨iff_of_true (le_trans shorter le) below, none_⟩

/-- A queue never holds more than `QUEUE_SIZE` nodes, and refuses a node only when it holds
`QUEUE_SIZE`, exactly when it is never given a node at that number. -/
theorem withinSize_iff (start : s.Created) (run : (machine program idx).exec s as = some (t, log)) :
    ((machine program idx).Along (fun s a => s.WithinSize ∧ RefusesFull program idx s a) s as ∧
        t.WithinSize) ↔
      (machine program idx).Along BelowSize s as := by
  have keep : ∀ s a t es, (∃ queue, Holds s queue) →
      (machine program idx).step s a = some (t, es) → ∃ queue, Holds t queue := by
    rintro s a t es ⟨queue, holds⟩ step
    obtain ⟨queue', _, holds'⟩ := holds.keep step
    exact ⟨queue', holds'⟩
  have holds : ∃ queue, Holds s queue := ⟨_, start.holds⟩
  have within : s.WithinSize := start.holds.withinSize.mpr (Nat.zero_le _)
  have bound := along_iff_along_of_inv keep
    (fun s a t es holds within step => (withinSize_step holds.choose_spec within step).1)
    holds within run
  rw [← bound]
  refine and_congr_left fun _ => ⟨along_mono fun s a both => both.1, fun along => ?_⟩
  refine along_of_inv (I := fun s : Linked ν => ∃ queue, Holds s queue)
    (fun s a t es holds _ step => keep s a t es holds step) ?_ holds along
  rintro s a ⟨queue, holds⟩ within
  refine ⟨within, fun t es node step refused => ?_⟩
  exact absurd refused ((withinSize_step holds within step).2 node)

theorem twoAnswers_below : ∃ s log,
    (machine .client id).exec created twoAnswers = some (s, log) ∧
      ((machine .client id).Along (fun s a => s.WithinSize ∧ RefusesFull .client id s a) created
        twoAnswers ∧ s.WithinSize) :=
  ⟨_, _, rfl, (withinSize_iff created_created rfl).mpr (by decide)⟩

/-- So many nodes, one after the other. -/
def fill (node : ν) (n : Nat) : List (Action ν) := (List.range n).map fun l => .enqueue l node

/-- `enqueue` allocates nothing. -/
theorem mem_of_enqueue {l l' : Nat} {node : ν}
    (step : (machine program idx).step s (.enqueue l node) = some (t, es))
    (mem : l' ∈ t.queue.memory) : l' = l ∨ l' ∈ s.queue.memory := by
  simp only [machine] at step
  split at step
  · cases step
  · obtain ⟨⟨after, taken⟩, enqueued, same⟩ := Option.map_eq_some_iff.mp step
    have queue : t.queue = after := by
      cases taken <;> cases same <;> rfl
    rw [queue] at mem
    have inserted : l' ∈ s.queue.memory.insert l ⟨node, none⟩ → l' = l ∨ l' ∈ s.queue.memory :=
      Finmap.mem_insert.mp
    apply inserted
    simp only [LinkedQueue.enqueue] at enqueued
    split at enqueued
    · cases enqueued
      exact mem
    · split at enqueued
      · cases enqueued
        exact mem
      · obtain ⟨last, _, same⟩ := Option.map_eq_some_iff.mp enqueued
        cases same
        exact mem_setNext.mp mem

/-- The queue takes one node more than `QUEUE_SIZE`. -/
theorem fill_counts (program : Program) (idx : ν → Int32) (node : ν) {n : Nat}
    (le : n ≤ Queue.maxSize + 1) :
    ∃ t log, (machine program idx).exec created (fill node n) = some (t, log) ∧ t.Counts n ∧
      ∀ l ∈ t.queue.memory, l < n := by
  induction n with
  | zero => exact ⟨created, [], rfl, ⟨[], .nil, rfl⟩, fun l mem => absurd mem Finmap.notMem_empty⟩
  | succ n ih =>
      obtain ⟨t, log, run, counts, used⟩ := ih (Nat.le_of_succ_le le)
      obtain ⟨queue, holds, _⟩ := holds_reached ⟨created, created_created, _, run⟩
      have count := holds.counts_iff.mp counts
      have free : n ∉ t.queue.memory := fun mem => Nat.lt_irrefl n (used n mem)
      obtain ⟨u, es, step, ⟨rfl, chain⟩ | ⟨rfl, _⟩⟩ :=
        holds.enqueue_law program idx node free
      · refine ⟨u, log ++ [.accepted (n, node)], ?_, ⟨_, chain, ?_⟩, fun l mem => ?_⟩
        · rw [fill, List.range_succ, List.map_append]
          exact exec_append.mpr ⟨t, log, _, run, exec_cons.mpr ⟨u, _, [], step, rfl, rfl⟩, rfl⟩
        · rw [List.length_append, count]
          rfl
        · rcases mem_of_enqueue step mem with rfl | mem
          · exact Nat.lt_succ_self _
          · exact Nat.lt_succ_of_lt (used l mem)
      · obtain ⟨queue', spec, _⟩ := holds.keep step
        cases (fifo_enqueue (by omega) spec).2

theorem sixtyFive_outside :
    (∃ s log, (machine .server id).exec created (fill (0 : Int32) 65) = some (s, log) ∧
        ¬ s.WithinSize) ∧
      ∃ s log, (machine .client id).exec created (fill (0 : Int32) 65) = some (s, log) ∧
        ¬ s.WithinSize := by
  have outside : ∀ program, ∃ s log,
      (machine program id).exec created (fill (0 : Int32) 65) = some (s, log) ∧
        ¬ s.WithinSize := by
    intro program
    obtain ⟨s, log, run, counts, _⟩ := fill_counts program id (0 : Int32) (n := 65) le_rfl
    obtain ⟨queue, holds, _⟩ := holds_reached ⟨created, created_created, _, run⟩
    refine ⟨s, log, run, fun within => ?_⟩
    have le := holds.withinSize.mp within
    rw [holds.counts_iff.mp counts] at le
    exact absurd le (by decide)
  exact ⟨outside .server, outside .client⟩

end Capacity

end Linked

end OdroidPlayer
