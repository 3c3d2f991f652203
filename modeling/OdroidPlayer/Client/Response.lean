import OdroidPlayer.Client.Request

/-!
The answer that a request returns.

Every node in `cmd_queue` carries the number of a request that has been made, so none has a
greater number than the latest (`Kept`): `dequeue_conditional` never stops at its second
node, and the nodes before the answer of the request under way are older ones, which are
skipped one by one.
-/

namespace OdroidPlayer

open Transition.System

/-! ### Numbers as `int` and as `size_t` -/

theorem toSizeT_ofNat {i : Nat} (small : i < 2 ^ 31) : toSizeT (Int32.ofNat i) = i := by
  have wide : (Int32.ofNat i).toInt64 = Int64.ofNat i := Int32.toInt64_ofNat' (by
    rw [Int32.toInt_maxValue]
    omega)
  rw [toSizeT, wide, Int64.toUInt64_ofNat', UInt64.toNat_ofNat_of_lt']
  simp only [UInt64.size]
  omega

theorem ofNat_inj {i j : Nat} (hi : i < 2 ^ 31) (hj : j < 2 ^ 31)
    (eq : Int32.ofNat i = Int32.ofNat j) : i = j := by
  rw [← toSizeT_ofNat hi, ← toSizeT_ofNat hj, eq]

theorem ofNat_not_lt {i j : Nat} (hj : j < 2 ^ 31) (le : i ≤ j) :
    ¬ Int32.ofNat j < Int32.ofNat i := by
  rw [Int32.lt_iff_toInt_lt, Int32.toInt_ofNat_of_lt hj,
    Int32.toInt_ofNat_of_lt (lt_of_le_of_lt le hj)]
  omega

/-! ### What a step leaves before the request -/

namespace ClientRequest

@[simp] theorem signal_own (request : ClientRequest) : request.signal.own = request.own := by
  unfold signal
  split <;> rfl

@[simp] theorem signal_node (request : ClientRequest) :
    request.signal.at_.node = request.at_.node := by
  unfold signal
  split
  · next at_ => rw [at_]; rfl
  · rfl

theorem signal_ne_waiting (request : ClientRequest) : request.signal.at_ ≠ .dequeuing .waiting := by
  unfold signal
  split
  · next at_ _ => simpa using at_.signal_ne_waiting
  · next other => exact other .waiting

theorem signal_sending {request : ClientRequest} :
    request.signal.at_ = .sending ↔ request.at_ = .sending := by
  unfold signal
  split
  · next at_ => simp [at_]
  · rfl

end ClientRequest

namespace OpClient

theorem pending_of_call {s : OpClient} {own : Nat} {at_ : RequestAt}
    (call : s.call = some ⟨own, at_⟩) : s.pending = at_.node ++ s.cmdQueue.nodes := by
  simp [pending, call]

theorem mem_pending_of_comparing {s : OpClient} {own : Nat} {node : ClientNode}
    (call : s.call = some ⟨own, .comparing node⟩) : node ∈ s.pending := by
  rw [pending_of_call call]
  exact List.mem_cons_self

theorem pending_of_free {s : OpClient} (free : s.call = none) : s.pending = s.cmdQueue.nodes := by
  simp [pending, free]

/-- A signal leaves the request the nodes it has. -/
theorem pending_signal (s : OpClient) (cmdQueue : Queue ClientNode) (left : Nat) :
    { s with call := s.call.map ClientRequest.signal, cmdQueue, toCmdQueue := left }.pending =
      (s.call.map fun request => request.at_.node).getD [] ++ cmdQueue.nodes := by
  cases call : s.call <;> simp [pending]

theorem pending_enqueued (s : OpClient) (node : ClientNode) (receiver : ReceivingAt) :
    { s with
      cmdQueue := { s.cmdQueue with nodes := s.cmdQueue.nodes ++ [node] }
      call := s.call.map ClientRequest.signal
      receiver }.pending = s.pending ++ [node] := by
  have eq := pending_signal s { s.cmdQueue with nodes := s.cmdQueue.nodes ++ [node] } s.toCmdQueue
  refine Eq.trans eq ?_
  rw [pending, List.append_assoc]

theorem signal_ne_waiting {call : Option ClientRequest} {own : Nat} :
    call.map ClientRequest.signal ≠ some ⟨own, .dequeuing .waiting⟩ := by
  intro eq
  obtain ⟨request, -, eq⟩ := Option.map_eq_some_iff.mp eq
  exact request.signal_ne_waiting (by rw [eq])

/-- What holds of a client and the events that led to it. -/
structure Kept (s : OpClient) (log : List Event) : Prop where
  own : ∀ request, s.call = some request → request.own = s.msgIdx
  small : s.msgIdx < 2 ^ 31
  enqueued : ∀ node ∈ s.pending, .enqueued node ∈ log
  requested : ∀ node, .enqueued node ∈ log → ∃ i < s.msgIdx, node.msgIdx = Int32.ofNat (i + 1)
  asleep : ∀ own, s.call = some ⟨own, .dequeuing .waiting⟩ → s.cmdQueue.nodes = []
  answered : ∀ request, s.call = some request → ∀ node, .enqueued node ∈ log →
    node.msgIdx = Int32.ofNat request.own → s.Answered request.own
  on : s.play = true → s.cmdQueue.running = true ∧ s.toMsgQueue = 0 ∧ s.toCmdQueue = 0
  returned : ∀ own status, .returned own (some status) ∈ log → own < 2 ^ 31 ∧
    ∃ node, .enqueued node ∈ log ∧ node.msgIdx = Int32.ofNat own ∧ status = setStatus node

theorem start_kept : Kept start [] := by
  refine ⟨?_, by decide, ?_, ?_, ?_, ?_, fun _ => ⟨rfl, rfl, rfl⟩, ?_⟩
  · rintro request ⟨⟩
  · rintro node ⟨⟩
  · rintro node ⟨⟩
  · rintro own ⟨⟩
  · rintro request ⟨⟩
  · rintro own status ⟨⟩

namespace Kept

variable {s t : OpClient} {log : List Event} {own : Nat} {at_ : RequestAt}

theorem number (kept : Kept s log) {node : ClientNode} (mem : node ∈ s.pending) :
    ∃ i < s.msgIdx, node.msgIdx = Int32.ofNat (i + 1) :=
  kept.requested node (kept.enqueued node mem)

/-- No node has a greater number than the request under way. -/
theorem not_greater (kept : Kept s log) {node : ClientNode} (mem : node ∈ s.pending) :
    ¬ Int32.ofNat s.msgIdx < node.msgIdx := by
  obtain ⟨i, requested, idx⟩ := kept.number mem
  rw [idx]
  exact ofNat_not_lt kept.small requested

/-- The test of `get_command_response` recognises the answer. -/
theorem same_number (kept : Kept s log) {node : ClientNode} (mem : node ∈ s.pending) :
    toSizeT node.msgIdx = s.msgIdx ↔ node.msgIdx = Int32.ofNat s.msgIdx := by
  obtain ⟨i, requested, idx⟩ := kept.number mem
  have small : i + 1 < 2 ^ 31 := lt_of_le_of_lt requested kept.small
  rw [idx, toSizeT_ofNat small]
  constructor
  · intro eq
    rw [eq]
  · exact ofNat_inj small kept.small

/-- So it does for the node that the request holds. -/
theorem own_number (kept : Kept s log) {node : ClientNode}
    (call : s.call = some ⟨own, .comparing node⟩) :
    toSizeT node.msgIdx = s.msgIdx ↔ node.msgIdx = Int32.ofNat own := by
  have drawn : own = s.msgIdx := kept.own _ call
  rw [drawn]
  exact kept.same_number (mem_pending_of_comparing call)

/-- A step that emits nothing: the request goes on with the nodes it had. -/
theorem frame (kept : Kept s log) (msgIdx : t.msgIdx = s.msgIdx)
    (call : ∀ request, t.call = some request →
      ∃ old, s.call = some old ∧ request.own = old.own ∧ (s.Answered old.own → t.Answered old.own))
    (pending : ∀ node ∈ t.pending, node ∈ s.pending)
    (asleep : ∀ own, t.call = some ⟨own, .dequeuing .waiting⟩ → t.cmdQueue.nodes = [])
    (on : t.play = true → t.cmdQueue.running = true ∧ t.toMsgQueue = 0 ∧ t.toCmdQueue = 0) :
    Kept t (log ++ []) := by
  rw [List.append_nil]
  refine ⟨?_, msgIdx ▸ kept.small, fun node mem => kept.enqueued node (pending node mem),
    msgIdx ▸ kept.requested, asleep, ?_, on, kept.returned⟩
  · intro request eq
    obtain ⟨old, before, own, -⟩ := call request eq
    rw [own, msgIdx]
    exact kept.own old before
  · intro request eq node there idx
    obtain ⟨old, before, own, answered⟩ := call request eq
    rw [own] at idx ⊢
    exact answered (kept.answered old before node there idx)

/-- The request goes to its next statement with the same nodes before it. -/
theorem goto (kept : Kept s log) (call : s.call = some ⟨own, at_⟩) {next : RequestAt}
    (cmdQueue : Queue ClientNode) (running : cmdQueue.running = s.cmdQueue.running)
    (nodes : next.node ++ cmdQueue.nodes = at_.node ++ s.cmdQueue.nodes)
    (sleep : next = .dequeuing .waiting → cmdQueue.nodes = []) :
    Kept ({ s with cmdQueue }.goto own next) (log ++ []) := by
  have same : ({ s with cmdQueue }.goto own next).pending = s.pending := by
    rw [pending_of_call call, ← nodes]
    rfl
  refine kept.frame rfl ?_ (fun node mem => same ▸ mem) ?_ ?_
  · rintro request ⟨⟩
    refine ⟨_, call, rfl, fun answered => ?_⟩
    unfold Answered
    rw [same]
    exact answered
  · rintro own' ⟨⟩
    exact sleep rfl
  · intro play
    exact ⟨running.trans (kept.on play).1, (kept.on play).2⟩

/-- A request returns, and what it returns is the status of its own answer. -/
theorem ret (kept : Kept s log) (call : s.call = some ⟨own, at_⟩) {status : Option OpStatus}
    (of : ∀ given, status = some given → ∃ node ∈ s.pending,
      node.msgIdx = Int32.ofNat own ∧ given = setStatus node) :
    Kept { s with call := none } (log ++ [.returned own status]) := by
  refine ⟨?_, kept.small, ?_, ?_, ?_, ?_, kept.on, ?_⟩
  · rintro request ⟨⟩
  · intro node mem
    refine List.mem_append_left _ (kept.enqueued node ?_)
    rw [pending_of_call call]
    exact List.mem_append_right _ mem
  · intro node there
    refine kept.requested node ?_
    simpa using there
  · rintro own' ⟨⟩
  · rintro request ⟨⟩
  · intro own' given there
    rcases List.mem_append.mp there with old | new
    · obtain ⟨small, node, enqueued, rest⟩ := kept.returned own' given old
      exact ⟨small, node, List.mem_append_left _ enqueued, rest⟩
    · obtain ⟨rfl, rfl⟩ : own' = own ∧ some given = status := by simpa using new
      obtain ⟨node, mem, idx, eq⟩ := of given rfl
      have drawn : own' = s.msgIdx := kept.own _ call
      exact ⟨drawn ▸ kept.small, node, List.mem_append_left _ (kept.enqueued node mem), idx, eq⟩

/-- Every step keeps the numbers in order. -/
theorem keep {a : Action} {es : List Event} (kept : Kept s log) (move : Move s a t es) :
    Kept t (log ++ es) := by
  cases move with
  | request free small =>
      rw [List.append_nil]
      refine ⟨?_, small, ?_, ?_, ?_, ?_, kept.on, kept.returned⟩
      · rintro request ⟨⟩
        rfl
      · intro node mem
        exact kept.enqueued node (by rw [pending_of_free free]; exact mem)
      · intro node there
        obtain ⟨i, requested, idx⟩ := kept.requested node there
        exact ⟨i, Nat.lt_succ_of_lt requested, idx⟩
      · rintro own ⟨⟩
      · rintro request ⟨⟩ node there idx
        -- an answer cannot be there before its request
        obtain ⟨i, requested, idx'⟩ := kept.requested node there
        have same : i + 1 = s.msgIdx + 1 :=
          ofNat_inj (lt_of_le_of_lt requested kept.small) small (idx'.symm.trans idx)
        omega
  | sent call | created call | plays call | wakes call =>
      exact kept.goto call s.cmdQueue rfl rfl (by rintro ⟨⟩)
  | waits call empty => exact kept.goto call s.cmdQueue rfl rfl (fun _ => empty)
  | takes call nodes => exact kept.goto call _ rfl (by rw [nodes]; rfl) (by rintro ⟨⟩)
  | @skips own node call other =>
      refine kept.frame rfl ?_ ?_ ?_ kept.on
      · rintro request ⟨⟩
        refine ⟨_, call, rfl, ?_⟩
        rintro ⟨found, mem, idx⟩
        rw [pending_of_call call] at mem
        rcases List.mem_append.mp mem with inHand | queued
        · -- the node in its hand is not the answer
          obtain rfl := List.mem_singleton.mp inHand
          exact absurd ((kept.own_number call).mpr idx) other
        · exact ⟨found, queued, idx⟩
      · intro found mem
        rw [pending_of_call call]
        exact List.mem_append_right _ mem
      · rintro own' ⟨⟩
  | @answers own node call same =>
      refine kept.ret call ?_
      rintro given ⟨⟩
      exact ⟨node, mem_pending_of_comparing call, (kept.own_number call).mp same, rfl⟩
  | fails call _ =>
      refine kept.ret call ?_
      rintro given ⟨⟩
  | @enqueues recvMsg i requested idx =>
      have grown := pending_enqueued s (createNode recvMsg) .testing
      refine ⟨?_, kept.small, ?_, ?_, fun own eq => absurd eq signal_ne_waiting, ?_, kept.on, ?_⟩
      · intro request eq
        obtain ⟨old, before, rfl⟩ := Option.map_eq_some_iff.mp eq
        rw [ClientRequest.signal_own]
        exact kept.own old before
      · intro node mem
        rw [grown] at mem
        exact List.mem_append.mpr ((List.mem_append.mp mem).imp (kept.enqueued node) (by simp))
      · intro node there
        rcases List.mem_append.mp there with old | new
        · exact kept.requested node old
        · obtain rfl : node = createNode recvMsg := by simpa using new
          exact ⟨i, requested, idx⟩
      · intro request eq node there idx'
        obtain ⟨old, before, rfl⟩ := Option.map_eq_some_iff.mp eq
        rw [ClientRequest.signal_own] at idx' ⊢
        rcases List.mem_append.mp there with earlier | new
        · obtain ⟨found, mem, eq'⟩ := kept.answered old before node earlier idx'
          exact ⟨found, grown ▸ List.mem_append_left _ mem, eq'⟩
        · obtain rfl : node = createNode recvMsg := by simpa using new
          exact ⟨_, grown ▸ List.mem_append_right _ List.mem_cons_self, idx'⟩
      · intro own status there
        have old : .returned own (some status) ∈ log := by simpa using there
        obtain ⟨small, node, enqueued, rest⟩ := kept.returned own status old
        exact ⟨small, node, List.mem_append_left _ enqueued, rest⟩
  | stopped _ =>
      refine kept.frame rfl ?_ (fun _ mem => mem) kept.asleep ?_
      · exact fun request eq => ⟨request, eq, rfl, id⟩
      · rintro ⟨⟩
  | others _ =>
      exact kept.frame rfl (fun request eq => ⟨request, eq, rfl, id⟩) (fun _ mem => mem)
        kept.asleep kept.on
  | signalMsgQueue some_ =>
      refine kept.frame rfl (fun request eq => ⟨request, eq, rfl, id⟩) (fun _ mem => mem)
        kept.asleep ?_
      intro play
      have none := (kept.on play).2.1
      omega
  | @signalCmdQueue left some_ =>
      have same := pending_signal s { s.cmdQueue with running := false } left
      refine kept.frame rfl ?_ (fun node mem => ?_) (fun own eq => absurd eq signal_ne_waiting) ?_
      · intro request eq
        obtain ⟨old, before, rfl⟩ := Option.map_eq_some_iff.mp eq
        refine ⟨old, before, ClientRequest.signal_own old, ?_⟩
        rintro ⟨node, mem, idx⟩
        exact ⟨node, same ▸ mem, idx⟩
      · rw [same] at mem
        exact mem
      · intro play
        have none := (kept.on play).2.2
        omega

end Kept

theorem kept_of_run {t : OpClient} {as : List Action} {log : List Event}
    (run : machine.exec start as = some (t, log)) : Kept t log :=
  exec_rec (fun _ _ _ _ _ kept step => kept.keep (step_move step)) [] start_kept run

/-! ### The way to the answer -/

/-- The allocations of `opc_create_status` and `set_status` succeed. -/
def Allocates (_ : OpClient) (a : Action) : Prop :=
  a ≠ .opcCreateStatus false ∧ a ≠ .compare false

instance (s : OpClient) (a : Action) : Decidable (s.Allocates a) :=
  inferInstanceAs (Decidable (_ ∧ _))

/-- How many statements a request takes at most from `at_` to the return of its answer, which
is behind `ahead` other nodes in the queue, or in its hand. -/
def stepsLeft (own ahead : Nat) : RequestAt → Nat
  | .sending => 3 * ahead + 5
  | .creating => 3 * ahead + 4
  | .testing => 3 * ahead + 3
  | .dequeuing _ => 3 * ahead + 2
  | .comparing node => if node.msgIdx = Int32.ofNat own then 1 else 3 * ahead + 4

def ahead (s : OpClient) (own : Nat) : Nat :=
  s.cmdQueue.nodes.findIdx fun node => node.msgIdx = Int32.ofNat own

/-- The request is under way, its answer is before it, and it returns within `bound` of its
own statements. -/
structure Due (s : OpClient) (own bound : Nat) : Prop where
  answered : s.Answered own
  call : ∃ at_, s.call = some ⟨own, at_⟩ ∧ at_ ≠ .sending ∧ stepsLeft own (s.ahead own) at_ ≤ bound

/-- The first return among the events is that of the answer. -/
def Returns (own : Nat) (before log : List Event) : Prop :=
  ∃ node front back, log = front ++ .returned own (some (setStatus node)) :: back ∧
    (∀ own' status, .returned own' status ∉ front) ∧ node.msgIdx = Int32.ofNat own ∧
    .enqueued node ∈ before ++ front

/-- An answer stays before a request that stays under way. -/
theorem Kept.stays {s t : OpClient} {log es : List Event} {own : Nat} {at_ : RequestAt}
    (kept : Kept s log) (after : Kept t (log ++ es)) (answered : s.Answered own)
    (call : t.call = some ⟨own, at_⟩) : t.Answered own := by
  obtain ⟨node, mem, idx⟩ := answered
  exact after.answered _ call node (List.mem_append_left _ (kept.enqueued node mem)) idx

theorem ahead_cons {s : OpClient} {own : Nat} {node : ClientNode} {rest : List ClientNode}
    (nodes : s.cmdQueue.nodes = node :: rest) (other : node.msgIdx ≠ Int32.ofNat own) :
    s.ahead own = { s with cmdQueue := { s.cmdQueue with nodes := rest } }.ahead own + 1 := by
  simp [ahead, nodes, List.findIdx_cons, other]

theorem stepsLeft_signal (own ahead : Nat) (request : ClientRequest) :
    stepsLeft own ahead request.signal.at_ = stepsLeft own ahead request.at_ := by
  unfold ClientRequest.signal
  split
  · next at_ => rw [at_]; rfl
  · rfl

/-- What is enqueued behind the answer does not matter. -/
theorem stepsLeft_enqueued {s : OpClient} {own : Nat} {at_ : RequestAt} (node : ClientNode)
    (call : s.call = some ⟨own, at_⟩) (answered : s.Answered own) :
    stepsLeft own ((s.cmdQueue.nodes ++ [node]).findIdx fun n => n.msgIdx = Int32.ofNat own) at_ =
      stepsLeft own (s.ahead own) at_ := by
  obtain ⟨found, mem, idx⟩ := answered
  rw [pending_of_call call] at mem
  rcases List.mem_append.mp mem with inHand | queued
  · cases at_ with
    | comparing hand =>
        obtain rfl : found = hand := List.mem_singleton.mp inHand
        simp [stepsLeft, idx]
    | sending | creating | testing | dequeuing => cases inHand
  · have there : (s.cmdQueue.nodes.findIdx fun n => n.msgIdx = Int32.ofNat own) <
        s.cmdQueue.nodes.length :=
      List.findIdx_lt_length_of_exists ⟨found, queued, by simpa using idx⟩
    rw [List.findIdx_append, if_pos there]
    rfl

/-- A step brings the answer nearer when it is one of the request, and no step takes it
further away. -/
theorem Due.step {s t : OpClient} {log es : List Event} {own bound : Nat} {a : Action}
    (due : Due s own bound) (kept : Kept s log) (move : Move s a t es) (alloc : s.Allocates a)
    (play : t.play = true) :
    Returns own log es ∨
      (∀ own' status, .returned own' status ∉ es) ∧
        ∃ left, Due t own left ∧ left + (if a.own then 1 else 0) ≤ bound := by
  have after := kept.keep move
  obtain ⟨answered, at_, call, sent, steps⟩ := due
  -- it is enough to say where the request is and how many statements are left
  have goes : ∀ {next left}, t.call = some ⟨own, next⟩ → next ≠ .sending →
      stepsLeft own (t.ahead own) next ≤ left → left + (if a.own then 1 else 0) ≤ bound →
      es = [] ∨ (∃ node, es = [.enqueued node]) →
      (∀ own' status, .returned own' status ∉ es) ∧
        ∃ left, Due t own left ∧ left + (if a.own then 1 else 0) ≤ bound := by
    intro next left call' sent' steps' le quiet
    refine ⟨?_, left, ⟨kept.stays after answered call', next, call', sent', steps'⟩, le⟩
    rcases quiet with rfl | ⟨node, rfl⟩
    · simp
    · simp
  cases move with
  | request free _ => simp [free] at call
  | sent call' =>
      rw [call] at call'
      cases call'
      exact absurd rfl sent
  | created call' =>
      rw [call] at call'
      cases call'
      refine .inr (goes rfl (by rintro ⟨⟩) (Nat.le_refl _) ?_ (.inl rfl))
      exact steps
  | plays call' _ =>
      rw [call] at call'
      cases call'
      refine .inr (goes rfl (by rintro ⟨⟩) (Nat.le_refl _) ?_ (.inl rfl))
      exact steps
  | waits call' empty =>
      rw [call] at call'
      cases call'
      obtain ⟨node, mem, -⟩ := answered
      rw [pending_of_call call, empty] at mem
      cases mem
  | @takes _ _ node rest call' nodes =>
      rw [call] at call'
      cases call'
      refine .inr (goes rfl (by rintro ⟨⟩) (Nat.le_refl _) ?_ (.inl rfl))
      by_cases idx : node.msgIdx = Int32.ofNat own
      · simp only [stepsLeft, idx, if_true, Action.own] at steps ⊢
        omega
      · have nearer := ahead_cons nodes idx
        simp only [stepsLeft, idx, if_false, if_true, Action.own] at steps ⊢
        simp only [OpClient.goto, ahead] at nearer steps ⊢
        omega
  | @skips _ node call' other =>
      rw [call] at call'
      cases call'
      have notOwn : node.msgIdx ≠ Int32.ofNat own := mt (kept.own_number call).mpr other
      refine .inr (goes rfl (by rintro ⟨⟩) (Nat.le_refl _) ?_ (.inl rfl))
      simp only [stepsLeft, notOwn, if_false] at steps
      exact steps
  | @answers _ node call' same =>
      rw [call] at call'
      cases call'
      exact .inl ⟨node, [], [], rfl, by simp, (kept.own_number call).mp same,
        List.mem_append_left _ (kept.enqueued node (mem_pending_of_comparing call))⟩
  | fails call' why =>
      rw [call] at call'
      cases call'
      cases why with
      | sendCommand => exact absurd rfl sent
      | opcCreateStatus => exact absurd rfl alloc.1
      | malloc => exact absurd rfl alloc.2
      | timeout early => exact absurd answered early
      | off off => exact absurd play (by simp [off])
      | queueOff off => exact absurd (kept.on play).1 (by simp [off])
      | greater nodes greater =>
          refine absurd greater (kept.not_greater ?_)
          rw [pending, nodes]
          simp
  | wakes call' =>
      rw [call] at call'
      cases call'
      refine .inr (goes rfl (by rintro ⟨⟩) (Nat.le_refl _) ?_ (.inl rfl))
      exact steps
  | @enqueues recvMsg _ requested idx =>
      have same := stepsLeft_enqueued (createNode recvMsg) call answered
      have signalled := stepsLeft_signal own
        ((s.cmdQueue.nodes ++ [createNode recvMsg]).findIdx fun n => n.msgIdx = Int32.ofNat own)
        ⟨own, at_⟩
      have call' : s.call.map ClientRequest.signal =
          some ⟨own, (ClientRequest.signal ⟨own, at_⟩).at_⟩ := by
        rw [call, Option.map_some, Option.some.injEq]
        exact ClientRequest.ext (ClientRequest.signal_own _) rfl
      exact .inr (goes call' (mt ClientRequest.signal_sending.mp sent) (Nat.le_refl _)
        (le_of_eq_of_le (signalled.trans same) steps) (.inr ⟨_, rfl⟩))
  | stopped _ => cases play
  | others other =>
      refine .inr (goes call sent (Nat.le_refl _) ?_ (.inl rfl))
      rw [other]
      exact steps
  | signalMsgQueue some_ => exact .inr (goes call sent (Nat.le_refl _) steps (.inl rfl))
  | signalCmdQueue some_ =>
      have none := (kept.on play).2.2
      omega

theorem Returns.append {own : Nat} {before log : List Event} (returns : Returns own before log)
    (more : List Event) : Returns own before (log ++ more) := by
  obtain ⟨node, front, back, rfl, rest⟩ := returns
  exact ⟨node, front, back ++ more, by simp, rest⟩

theorem Returns.after {own : Nat} {before es log : List Event}
    (quiet : ∀ own' status, .returned own' status ∉ es) (returns : Returns own (before ++ es) log) :
    Returns own before (es ++ log) := by
  obtain ⟨node, front, back, rfl, none, idx, enqueued⟩ := returns
  refine ⟨node, es ++ front, back, by simp, ?_, idx, by simpa using enqueued⟩
  intro own' status mem
  exact (List.mem_append.mp mem).elim (quiet own' status) (none own' status)

/-- A client that has been shut down stays so. -/
theorem Move.play {s t : OpClient} {a : Action} {es : List Event} (move : Move s a t es)
    (play : t.play = true) : s.play = true := by
  cases move with
  | stopped => cases play
  | request | sent | created | plays | waits | takes | skips | answers | fails | wakes | enqueues
  | others | signalMsgQueue | signalCmdQueue => exact play

theorem play_of_run {s t : OpClient} {as : List Action} {log : List Event}
    (run : machine.exec s as = some (t, log)) (play : t.play = true) : s.play = true := by
  induction as generalizing s log with
  | nil =>
      simp only [exec_nil, Option.some.injEq, Prod.mk.injEq] at run
      rw [run.1, play]
  | cons a as ih =>
      obtain ⟨m, es, rest, step, tail, rfl⟩ := exec_cons.mp run
      exact (step_move step).play (ih tail)

theorem Due.exec {s t : OpClient} {as : List Action} {log rest : List Event} {own bound : Nat}
    (due : Due s own bound) (kept : Kept s log) (allocs : machine.Along Allocates s as)
    (run : machine.exec s as = some (t, rest)) (play : t.play = true) :
    Returns own log rest ∨
      (∀ own' status, .returned own' status ∉ rest) ∧
        ∃ left, Due t own left ∧ left + as.countP Action.own ≤ bound := by
  induction as generalizing s log rest bound with
  | nil =>
      simp only [exec_nil, Option.some.injEq, Prod.mk.injEq] at run
      obtain ⟨rfl, rfl⟩ := run
      exact .inr ⟨by simp, bound, due, by simp⟩
  | cons a as ih =>
      obtain ⟨m, es, rest, step, tail, rfl⟩ := exec_cons.mp run
      have move := step_move step
      rcases due.step kept move allocs.1 (play_of_run tail play) with returns |
        ⟨quiet, left, due', le⟩
      · exact .inl (returns.append rest)
      · rcases ih due' (kept.keep move) (allocs.2 m es step) tail with returns |
          ⟨quiet', left', due'', le'⟩
        · exact .inl (returns.after quiet)
        · refine .inr ⟨?_, left', due'', ?_⟩
          · intro own' status mem
            exact (List.mem_append.mp mem).elim (quiet own' status) (quiet' own' status)
          · rw [List.countP_cons]
            omega

/-- A request whose answer is before it can go on. -/
theorem Due.enabled {s : OpClient} {log : List Event} {own bound : Nat} (due : Due s own bound)
    (kept : Kept s log) :
    ∃ a, a.own = true ∧ s.Allocates a ∧ (machine.step s a).isSome = true := by
  obtain ⟨answered, at_, call, sent, -⟩ := due
  cases at_ with
  | sending => exact absurd rfl sent
  | creating => exact ⟨.opcCreateStatus true, rfl, by simp [Allocates], by simp [machine, call]⟩
  | testing =>
      refine ⟨.getMonitorPlay, rfl, by simp [Allocates], ?_⟩
      cases play : s.play <;> simp [machine, call, play]
  | dequeuing at_ =>
      cases at_ with
      | entering | woken =>
          exact ⟨.dequeueConditional, rfl, by simp [Allocates], by simp [machine, call]⟩
      | waiting =>
          obtain ⟨node, mem, -⟩ := answered
          rw [pending_of_call call, kept.asleep own call] at mem
          cases mem
  | comparing node =>
      refine ⟨.compare true, rfl, by simp [Allocates], ?_⟩
      by_cases same : toSizeT node.msgIdx = s.msgIdx <;> simp [machine, call, same]

theorem Kept.due {s : OpClient} {log : List Event} (kept : Kept s log) {own : Nat}
    {at_ : RequestAt} (call : s.call = some ⟨own, at_⟩) (sent : at_ ≠ .sending)
    (enqueued : ∃ node, .enqueued node ∈ log ∧ node.msgIdx = Int32.ofNat own) :
    Due s own (3 * s.cmdQueue.nodes.length + 4) := by
  obtain ⟨node, there, idx⟩ := enqueued
  refine ⟨kept.answered _ call node there idx, at_, call, sent, ?_⟩
  have le : s.ahead own ≤ s.cmdQueue.nodes.length := List.findIdx_le_length
  cases at_ with
  | sending => exact absurd rfl sent
  | creating | testing | dequeuing =>
      simp only [stepsLeft]
      omega
  | comparing hand =>
      simp only [stepsLeft]
      split <;> omega

/-- In every run a request returns no status but that of its own answer, and
`dequeue_conditional` takes the first node of every queue it finds. An answer that has been
enqueued for the request under way is what the request returns, if the client is not shut
down and the allocations succeed, within a bounded number of its own statements, each of
them possible. -/
theorem answer_returned {t : OpClient} {as : List Action} {log : List Event}
    (run : machine.exec start as = some (t, log)) :
    (∀ own status, .returned own (some status) ∈ log → status.msgIdx = own ∧
      ∃ node, .enqueued node ∈ log ∧ node.msgIdx = Int32.ofNat own ∧ status = setStatus node) ∧
    (∀ node rest, t.cmdQueue.nodes = node :: rest →
      OdroidPlayer.dequeueConditional (Int32.ofNat t.msgIdx) (node :: rest) = (some node, rest)) ∧
    ∀ own at_, t.call = some ⟨own, at_⟩ → at_ ≠ .sending →
      (∃ node, .enqueued node ∈ log ∧ node.msgIdx = Int32.ofNat own) →
      ∀ bs u rest, machine.Along Allocates t bs → machine.exec t bs = some (u, rest) →
        u.play = true →
        Returns own log rest ∨
          (∀ own' status, .returned own' status ∉ rest) ∧
            bs.countP Action.own ≤ 3 * t.cmdQueue.nodes.length + 4 ∧
            ∃ a, a.own = true ∧ u.Allocates a ∧ (machine.step u a).isSome = true := by
  have kept := kept_of_run run
  refine ⟨fun own status there => ?_, fun node rest nodes => ?_, ?_⟩
  · obtain ⟨small, node, enqueued, idx, rfl⟩ := kept.returned own status there
    refine ⟨?_, node, enqueued, idx, rfl⟩
    rw [setStatus, idx, toSizeT_ofNat small]
  · rcases dequeueConditional_cases (Int32.ofNat t.msgIdx) node rest with taken |
      ⟨-, next, more, rfl, greater⟩
    · exact taken
    · refine absurd greater (kept.not_greater ?_)
      rw [pending, nodes]
      simp
  · intro own at_ call sent enqueued bs u rest allocs run' play
    rcases (kept.due call sent enqueued).exec kept allocs run' play with returns |
      ⟨quiet, left, due, le⟩
    · exact .inl returns
    · have keptAfter : Kept u (log ++ rest) :=
        exec_rec (fun _ _ _ _ _ kept step => kept.keep (step_move step)) log kept run'
      exact .inr ⟨quiet, by omega, due.enabled keptAfter⟩

/-- The answer of the server to the request `i`. -/
def answer (i : Nat) : AMessage :=
  ⟨Status.success.value, CmdType.command.value, Cmd.play.value, Int32.ofNat i, [cString "play"]⟩

/-- The first request times out; its answer comes twice, late, and then that of the second. -/
def lateAnswer : List Action :=
  [.request, .sendCommand true, .opcCreateStatus true, .getMonitorPlay, .dequeueConditional,
    .timeout, .receiverTest, .receive (answer 1), .request, .sendCommand true,
    .opcCreateStatus true, .receiverTest, .receive (answer 1), .receiverTest,
    .receive (answer 2), .getMonitorPlay, .dequeueConditional, .compare true,
    .getMonitorPlay, .dequeueConditional, .compare true, .getMonitorPlay, .dequeueConditional,
    .compare true]

def lateEvents : List Event :=
  [.returned 1 none, .enqueued (createNode (answer 1)), .enqueued (createNode (answer 1)),
    .enqueued (createNode (answer 2)), .returned 2 (some (setStatus (createNode (answer 2))))]

theorem lateAnswer_returned : ∃ t, machine.exec start lateAnswer = some (t, lateEvents) ∧
    (setStatus (createNode (answer 2))).msgIdx = 2 := by
  refine ⟨_, rfl, ?_⟩
  have facts := answer_returned (show machine.exec start lateAnswer = some (_, lateEvents) from rfl)
  exact (facts.1 2 _ (by simp [lateEvents])).1

/-- The answer is there and the client plays, but `set_status` finds no memory. -/
def noMemory : List Action :=
  [.request, .sendCommand true, .opcCreateStatus true, .getMonitorPlay, .dequeueConditional,
    .receiverTest, .receive (answer 1), .dequeueConditional, .compare false]

theorem noMemory_returns : ∃ t, machine.exec start noMemory =
    some (t, [.enqueued (createNode (answer 1)), .returned 1 none]) ∧ t.play = true ∧
      t.call = none ∧ t.cmdQueue.nodes = [] :=
  ⟨_, rfl, rfl, rfl, rfl⟩

end OpClient

end OdroidPlayer
