import OdroidPlayer.Client.Connect

/-!
A client from `opc_init` to `opc_destroy`.

`opc_prepare` creates a monitor, two queues and the receiver thread, and takes back what it has
created when a later step fails. `opc_destroy` goes by the fields alone: it joins the thread of
`recv_thread_id`, whatever that holds, and frees the objects that the fields name.
-/

namespace OdroidPlayer

open Transition Transition.System

/-- What `pthread_create` does to `recv_thread_id`: it stores the thread, or it fails and leaves
any value there. -/
inductive ThreadRet where
  | created (tid : Nat)
  | failed (left : Nat)
  deriving DecidableEq, Repr

def ThreadRet.succeeds : ThreadRet → Bool
  | .created _ => true
  | .failed _ => false

/-- Which steps of one `opc_prepare` succeed. -/
structure Preparing where
  monitor : Bool
  msgQueue : Bool
  cmdQueue : Bool
  thread : ThreadRet
  deriving DecidableEq, Repr

/-- `pthread_join` under the alarm of `opc_thread_timeout`: it returns, or SIGALRM ends it with
whatever `errno` is then. -/
inductive JoinRet where
  | returned (ret : Int)
  | timedOut (errno : Int)
  deriving DecidableEq, Repr

def opcThreadTimeout : JoinRet → Int
  | .returned ret => ret
  | .timedOut errno => errno

/-- `OP_CLIENT`; the monitors and queues are numbered as they are created. -/
structure ClientObjects where
  socket : ClientSocket
  monitor : Option Nat
  msgQueue : Option Nat
  cmdQueue : Option Nat
  recvThreadId : Nat
  /-- the number of the next object -/
  next : Nat
  deriving DecidableEq

namespace ClientObjects

inductive Event where
  | connected (ret : Bool)
  | prepared (ret : Bool)
  /-- a monitor or a queue -/
  | created (object : Nat)
  | freed (object : Nat)
  /-- `pthread_create` has succeeded and stored the thread -/
  | threadCreated (tid : Nat)
  /-- `pthread_join` is called -/
  | joined (tid : Nat)
  | closed (fd : Int)
  /-- `exit(EXIT_FAILURE)` -/
  | exited
  deriving DecidableEq, Repr

def opcInit : ClientObjects := ⟨ClientSocket.opcInit, none, none, none, 0, 0⟩

def opcPrepare (r : Preparing) (s : ClientObjects) : ClientObjects × List Event :=
  let monitor := s.next
  let msgQueue := s.next + 1
  let cmdQueue := s.next + 2
  if r.monitor = false then ({ s with monitor := none }, [.prepared false])
  else if r.msgQueue = false then
    ({ s with monitor := none, msgQueue := none, next := s.next + 1 },
      [.created monitor, .freed monitor, .prepared false])
  else if r.cmdQueue = false then
    ({ s with monitor := none, msgQueue := none, cmdQueue := none, next := s.next + 2 },
      [.created monitor, .created msgQueue, .freed monitor, .freed msgQueue, .prepared false])
  else
    match r.thread with
    | .failed left =>
        ({ s with
          monitor := none, msgQueue := none, cmdQueue := none, recvThreadId := left
          next := s.next + 3 },
          [.created monitor, .created msgQueue, .created cmdQueue, .freed monitor,
            .freed msgQueue, .freed cmdQueue, .prepared false])
    | .created tid =>
        ({ s with
          monitor := some monitor, msgQueue := some msgQueue, cmdQueue := some cmdQueue
          recvThreadId := tid, next := s.next + 3 },
          [.created monitor, .created msgQueue, .created cmdQueue, .threadCreated tid,
            .prepared true])

def freeObject (object : Option Nat) : List Event := object.toList.map .freed

def opcDestroy (join : JoinRet) (s : ClientObjects) : List Event :=
  .joined s.recvThreadId ::
    if opcThreadTimeout join ≠ 0 then [.exited]
    else
      freeObject s.msgQueue ++ freeObject s.cmdQueue ++ freeObject s.monitor ++
        [.closed s.socket.clientFd]

inductive Action where
  | connect (r : Connecting)
  | prepare (r : Preparing)
  | destroy (join : JoinRet)

/-- The calls of one client, in the thread that has made it; after `opc_destroy` it is gone. -/
def lifetime : System (Option ClientObjects) Action Event where
  step
    | none, _ => none
    | some s, .connect r =>
        if r.socket ≠ none ∧ r.fd ∈ s.socket.leftOpen then none
        else
          let (socket, ret) := s.socket.opcConnect r
          some (some { s with socket }, [.connected ret])
    | some s, .prepare r => some (some (s.opcPrepare r).1, (s.opcPrepare r).2)
    | some s, .destroy join => some (none, s.opcDestroy join)

/-- The monitors and queues that have been created. -/
def createds (log : List Event) : List Nat :=
  log.filterMap fun
    | .created object => some object
    | _ => none

def freeds (log : List Event) : List Nat :=
  log.filterMap fun
    | .freed object => some object
    | _ => none

/-- The threads that `pthread_create` has stored. -/
def threads (log : List Event) : List Nat :=
  log.filterMap fun
    | .threadCreated tid => some tid
    | _ => none

/-- The threads that `pthread_join` has been called for. -/
def joineds (log : List Event) : List Nat :=
  log.filterMap fun
    | .joined tid => some tid
    | _ => none

/-- Every thread that is joined has been created and stored, and every monitor and queue is freed
exactly once. -/
structure Released (log : List Event) : Prop where
  joined : ∀ tid ∈ joineds log, tid ∈ threads log
  freed : ∀ object ∈ createds log, (freeds log).count object = 1

end ClientObjects

/-- Every step succeeds. -/
def Preparing.Succeeds (r : Preparing) : Prop :=
  r.monitor = true ∧ r.msgQueue = true ∧ r.cmdQueue = true ∧ r.thread.succeeds = true

instance (r : Preparing) : Decidable r.Succeeds := inferInstanceAs (Decidable (_ ∧ _ ∧ _ ∧ _))

namespace ClientObjects

/-- The `opc_prepare` calls. -/
def preparings (calls : List Action) : List Preparing :=
  calls.filterMap fun
    | .prepare r => some r
    | .connect _ | .destroy _ => none

/-- The last `opc_prepare` succeeds, and no other. -/
def OnlyLastSucceeds (rs : List Preparing) : Prop :=
  ∃ earlier last, rs = earlier ++ [last] ∧ last.Succeeds ∧ ∀ r ∈ earlier, ¬ r.Succeeds

/-! ### One `opc_prepare` -/

section Prepare

variable {s t : ClientObjects} {r : Preparing} {rs : List Preparing} {log es : List Event}

/-- So many objects are created, and freed again. -/
def triedEvents (next count : Nat) : List Event :=
  (List.range' next count).map .created ++ (List.range' next count).map .freed ++ [.prepared false]

def madeEvents (next tid : Nat) : List Event :=
  (List.range' next 3).map .created ++ [.threadCreated tid, .prepared true]

/-- What a call does: the objects that the fields have named are overwritten, the monitor always. -/
inductive Prepares (s : ClientObjects) (r : Preparing) : ClientObjects → List Event → Prop where
  | fails {t : ClientObjects} (count : Nat) (not_ : ¬ r.Succeeds) (monitor : t.monitor = none)
      (msgQueue : t.msgQueue = none ∨ t.msgQueue = s.msgQueue)
      (cmdQueue : t.cmdQueue = none ∨ t.cmdQueue = s.cmdQueue) (next : t.next = s.next + count) :
      Prepares s r t (triedEvents s.next count)
  | succeeds {t : ClientObjects} (all : r.Succeeds) (monitor : t.monitor = some s.next)
      (msgQueue : t.msgQueue = some (s.next + 1)) (cmdQueue : t.cmdQueue = some (s.next + 2))
      (next : t.next = s.next + 3) :
      Prepares s r t (madeEvents s.next t.recvThreadId)

theorem opcPrepare_prepares (r : Preparing) (s : ClientObjects) :
    Prepares s r (s.opcPrepare r).1 (s.opcPrepare r).2 := by
  obtain ⟨monitor, msgQueue, cmdQueue, thread⟩ := r
  cases monitor with
  | false => exact .fails 0 (fun all => by cases all.1) rfl (.inr rfl) (.inr rfl) rfl
  | true =>
      cases msgQueue with
      | false => exact .fails 1 (fun all => by cases all.2.1) rfl (.inl rfl) (.inr rfl) rfl
      | true =>
          cases cmdQueue with
          | false => exact .fails 2 (fun all => by cases all.2.2.1) rfl (.inl rfl) (.inl rfl) rfl
          | true =>
              cases thread with
              | failed left =>
                  exact .fails 3 (fun all => by cases all.2.2.2) rfl (.inl rfl) (.inl rfl) rfl
              | created tid => exact .succeeds ⟨rfl, rfl, rfl, rfl⟩ rfl rfl rfl rfl

theorem createds_append (front back : List Event) :
    createds (front ++ back) = createds front ++ createds back := List.filterMap_append

theorem freeds_append (front back : List Event) :
    freeds (front ++ back) = freeds front ++ freeds back := List.filterMap_append

theorem threads_append (front back : List Event) :
    threads (front ++ back) = threads front ++ threads back := List.filterMap_append

theorem joineds_append (front back : List Event) :
    joineds (front ++ back) = joineds front ++ joineds back := List.filterMap_append

theorem tried_lists (next count : Nat) :
    createds (triedEvents next count) = List.range' next count ∧
      freeds (triedEvents next count) = List.range' next count ∧
      threads (triedEvents next count) = [] := by
  simp [createds, freeds, threads, triedEvents, List.filterMap_map]

theorem made_lists (next tid : Nat) :
    createds (madeEvents next tid) = List.range' next 3 ∧ freeds (madeEvents next tid) = [] ∧
      threads (madeEvents next tid) = [tid] := by
  simp [createds, freeds, threads, madeEvents, List.filterMap_map]

theorem joineds_prepare (prepares : Prepares s r t es) : joineds es = [] := by
  cases prepares <;> simp [joineds, triedEvents, madeEvents]

/-- The objects so far have smaller numbers than the next one. -/
def Numbered (s : ClientObjects) (log : List Event) : Prop :=
  (∀ object ∈ createds log, object < s.next) ∧ ∀ object ∈ freeds log, object < s.next

/-- What the calls so far have come to. -/
inductive Phase (rs : List Preparing) (s : ClientObjects) (log : List Event) : Prop where
  /-- None has succeeded, and nothing is left of them. -/
  | unprepared (none_ : ∀ r ∈ rs, ¬ r.Succeeds) (monitor : s.monitor = none)
      (msgQueue : s.msgQueue = none) (cmdQueue : s.cmdQueue = none)
      (freed : ∀ object ∈ createds log, (freeds log).count object = 1) (threads_ : threads log = [])
  | prepared (last : OnlyLastSucceeds rs) (first : Nat) (monitor : s.monitor = some first)
      (msgQueue : s.msgQueue = some (first + 1)) (cmdQueue : s.cmdQueue = some (first + 2))
      (held : first ∈ createds log)
      (freed : ∀ object ∈ createds log, (freeds log).count object =
        if first ≤ object ∧ object < first + 3 then 0 else 1)
      (thread : s.recvThreadId ∈ threads log)
  /-- The monitor of one that has succeeded is no longer named by any field. -/
  | leaked (not_ : ¬ OnlyLastSucceeds rs) (some_ : ∃ r ∈ rs, r.Succeeds) (object : Nat)
      (made : object ∈ createds log) (unfreed : object ∉ freeds log)
      (monitor : s.monitor ≠ some object) (msgQueue : s.msgQueue ≠ some object)
      (cmdQueue : s.cmdQueue ≠ some object)

theorem onlyLastSucceeds_append (rs : List Preparing) (r : Preparing) :
    OnlyLastSucceeds (rs ++ [r]) ↔ r.Succeeds ∧ ∀ r ∈ rs, ¬ r.Succeeds := by
  constructor
  · rintro ⟨earlier, last, same, succeeds, none_⟩
    obtain ⟨rfl, rfl⟩ := List.append_inj' same rfl |>.imp_right List.singleton_inj.mp
    exact ⟨succeeds, none_⟩
  · rintro ⟨succeeds, none_⟩
    exact ⟨rs, r, rfl, succeeds, none_⟩

theorem Numbered.prepare (numbered : Numbered s log) (prepares : Prepares s r t es) :
    Numbered t (log ++ es) := by
  unfold Numbered
  rw [createds_append, freeds_append]
  cases prepares with
  | fails count _ _ _ _ next =>
      obtain ⟨created, freed, _⟩ := tried_lists s.next count
      rw [created, freed, next]
      constructor <;> intro object mem <;> rcases List.mem_append.mp mem with before | now
      · exact Nat.lt_add_right _ (numbered.1 object before)
      · exact (List.mem_range'_1.mp now).2
      · exact Nat.lt_add_right _ (numbered.2 object before)
      · exact (List.mem_range'_1.mp now).2
  | succeeds _ _ _ _ next =>
      obtain ⟨created, freed, _⟩ := made_lists s.next t.recvThreadId
      rw [created, freed, next, List.append_nil]
      constructor <;> intro object mem
      · rcases List.mem_append.mp mem with before | now
        · exact Nat.lt_add_right _ (numbered.1 object before)
        · exact (List.mem_range'_1.mp now).2
      · exact Nat.lt_add_right _ (numbered.2 object mem)

/-- What is new is freed once or not at all, and what is not new as often as before. -/
theorem count_freeds_prepare (numbered : Numbered s log) (prepares : Prepares s r t es)
    {object : Nat} :
    (freeds (log ++ es)).count object =
      if s.next ≤ object ∧ object < t.next ∧ ¬ r.Succeeds then 1
      else (freeds log).count object := by
  rw [freeds_append, List.count_append]
  have none_ : s.next ≤ object → (freeds log).count object = 0 := fun le =>
    List.count_eq_zero.mpr fun mem => absurd (numbered.2 object mem) (Nat.not_lt.mpr le)
  cases prepares with
  | fails count not_ _ _ _ next =>
      have once : (List.range' s.next count).count object ≤ 1 :=
        List.nodup_iff_count_le_one.mp List.nodup_range' object
      have mem : object ∈ List.range' s.next count ↔ s.next ≤ object ∧ object < t.next := by
        rw [List.mem_range'_1, next]
      rw [(tried_lists s.next count).2.1]
      by_cases new : s.next ≤ object ∧ object < t.next
      · have here := List.count_pos_iff.mpr (mem.mpr new)
        rw [if_pos ⟨new.1, new.2, not_⟩, none_ new.1]
        omega
      · rw [if_neg fun all => new ⟨all.1, all.2.1⟩,
          List.count_eq_zero.mpr fun here => new (mem.mp here)]
        rfl
  | succeeds all =>
      rw [(made_lists s.next t.recvThreadId).2.1, if_neg fun both => both.2.2 all]
      rfl

theorem mem_createds_prepare (prepares : Prepares s r t es) {object : Nat} :
    object ∈ createds (log ++ es) ↔
      object ∈ createds log ∨ s.next ≤ object ∧ object < t.next := by
  rw [createds_append, List.mem_append]
  refine or_congr_right ?_
  cases prepares with
  | fails count _ _ _ _ next => rw [(tried_lists s.next count).1, List.mem_range'_1, next]
  | succeeds _ _ _ _ next =>
      rw [(made_lists s.next t.recvThreadId).1, List.mem_range'_1, next]

/-- No field comes to name an object of an earlier call, and the monitor of one is forgotten. -/
theorem fields_prepare (prepares : Prepares s r t es) {object : Nat} (old : object < s.next) :
    t.monitor ≠ some object ∧ (s.msgQueue ≠ some object → t.msgQueue ≠ some object) ∧
      (s.cmdQueue ≠ some object → t.cmdQueue ≠ some object) := by
  cases prepares with
  | fails _ _ monitor msgQueue cmdQueue _ =>
      refine ⟨by simp [monitor], fun other => ?_, fun other => ?_⟩
      · rcases msgQueue with none_ | same
        · simp [none_]
        · rwa [same]
      · rcases cmdQueue with none_ | same
        · simp [none_]
        · rwa [same]
  | succeeds _ monitor msgQueue cmdQueue _ =>
      rw [monitor, msgQueue, cmdQueue]
      refine ⟨?_, fun _ => ?_, fun _ => ?_⟩ <;>
      · rintro same
        cases same
        omega

/-- Once an object is leaked it stays so. -/
theorem Phase.leak (numbered : Numbered s log) (prepares : Prepares s r t es)
    (some_ : ∃ r ∈ rs, r.Succeeds) {object : Nat} (made : object ∈ createds log)
    (unfreed : object ∉ freeds log) (msgQueue : s.msgQueue ≠ some object)
    (cmdQueue : s.cmdQueue ≠ some object) : Phase (rs ++ [r]) t (log ++ es) := by
  have old := numbered.1 object made
  obtain ⟨monitor', msgQueue', cmdQueue'⟩ := fields_prepare prepares old
  obtain ⟨r', mem, succeeds⟩ := some_
  refine .leaked ?_ ⟨r', List.mem_append_left _ mem, succeeds⟩ object
    ((mem_createds_prepare prepares).mpr (.inl made)) ?_ monitor' (msgQueue' msgQueue)
    (cmdQueue' cmdQueue)
  · rw [onlyLastSucceeds_append]
    rintro ⟨_, none_⟩
    exact none_ r' mem succeeds
  · rw [← List.count_eq_zero, count_freeds_prepare numbered prepares,
      if_neg fun new => absurd new.1 (Nat.not_le.mpr old)]
    exact List.count_eq_zero.mpr unfreed

theorem Phase.prepare (phase : Phase rs s log) (numbered : Numbered s log)
    (prepares : Prepares s r t es) : Phase (rs ++ [r]) t (log ++ es) := by
  cases phase with
  | unprepared none_ monitor msgQueue cmdQueue freed threads_ =>
      have freed' : ∀ object ∈ createds (log ++ es), (freeds (log ++ es)).count object =
          if s.next ≤ object ∧ object < t.next ∧ r.Succeeds then 0 else 1 := by
        intro object mem
        rw [count_freeds_prepare numbered prepares]
        rcases (mem_createds_prepare prepares).mp mem with before | new
        · have old := Nat.not_le.mpr (numbered.1 object before)
          rw [if_neg fun new => old new.1, if_neg fun new => old new.1]
          exact freed object before
        · by_cases succeeds : r.Succeeds
          · rw [if_neg fun all => all.2.2 succeeds, if_pos ⟨new.1, new.2, succeeds⟩]
            exact List.count_eq_zero.mpr fun mem => absurd (numbered.2 object mem)
              (Nat.not_lt.mpr new.1)
          · rw [if_pos ⟨new.1, new.2, succeeds⟩, if_neg fun all => succeeds all.2.2]
      cases prepares with
      | fails count not_ monitor' msgQueue' cmdQueue' next =>
          refine .unprepared ?_ monitor' ?_ ?_ ?_ ?_
          · intro r' mem
            rcases List.mem_append.mp mem with before | last
            · exact none_ r' before
            · exact List.mem_singleton.mp last ▸ not_
          · exact msgQueue'.elim id fun same => same.trans msgQueue
          · exact cmdQueue'.elim id fun same => same.trans cmdQueue
          · intro object mem
            rw [freed' object mem, if_neg fun all => not_ all.2.2]
          · rw [threads_append, threads_, (tried_lists s.next count).2.2]
            rfl
      | succeeds all monitor' msgQueue' cmdQueue' next =>
          refine .prepared ((onlyLastSucceeds_append rs r).mpr ⟨all, none_⟩) s.next monitor' msgQueue'
            cmdQueue' ?_ ?_ ?_
          · refine (mem_createds_prepare (.succeeds all monitor' msgQueue' cmdQueue' next)).mpr ?_
            exact .inr ⟨le_rfl, by omega⟩
          · intro object mem
            rw [freed' object mem, next]
            simp only [all, and_true]
          · rw [threads_append, (made_lists s.next t.recvThreadId).2.2]
            exact List.mem_append_right _ (List.mem_singleton_self _)
  | prepared last first monitor msgQueue cmdQueue held freed thread =>
      obtain ⟨earlier, r', rfl, succeeds, _⟩ := last
      have some_ : ∃ r ∈ earlier ++ [r'], r.Succeeds := ⟨r', by simp, succeeds⟩
      have unfreed : first ∉ freeds log := by
        rw [← List.count_eq_zero, freed first held, if_pos ⟨le_rfl, by omega⟩]
      exact .leak numbered prepares some_ held unfreed (by simp [msgQueue]) (by simp [cmdQueue])
  | leaked not_ some_ object made unfreed monitor msgQueue cmdQueue =>
      exact .leak numbered prepares some_ made unfreed msgQueue cmdQueue

end Prepare

/-! ### A client's life -/

section Life

variable {s t : ClientObjects} {rs : List Preparing} {log back : List Event}

/-- The invariant of the calls before `opc_destroy`. -/
structure Before (rs : List Preparing) (s : ClientObjects) (log : List Event) : Prop where
  phase : Phase rs s log
  numbered : Numbered s log
  unjoined : joineds log = []

theorem before_opcInit : Before [] opcInit [] where
  phase := .unprepared (by simp) rfl rfl rfl (by simp [createds]) rfl
  numbered := ⟨by simp [createds], by simp [freeds]⟩
  unjoined := rfl

theorem Before.connect (before : Before rs s log) (socket : ClientSocket) (ret : Bool) :
    Before rs { s with socket } (log ++ [.connected ret]) := by
  have lists : createds (log ++ [.connected ret]) = createds log ∧
      freeds (log ++ [.connected ret]) = freeds log ∧
      threads (log ++ [.connected ret]) = threads log ∧
      joineds (log ++ [.connected ret]) = joineds log := by
    simp [createds, freeds, threads, joineds]
  obtain ⟨created, freed, stored, joined⟩ := lists
  obtain ⟨phase, numbered, unjoined⟩ := before
  refine ⟨?_, ?_, joined.trans unjoined⟩
  · cases phase with
    | unprepared none_ monitor msgQueue cmdQueue freed_ threads_ =>
        exact .unprepared none_ monitor msgQueue cmdQueue (by rwa [created, freed])
          (stored.trans threads_)
    | prepared last first monitor msgQueue cmdQueue held freed_ thread =>
        exact .prepared last first monitor msgQueue cmdQueue (by rwa [created])
          (by rwa [created, freed]) (by rwa [stored])
    | leaked not_ some_ object made unfreed monitor msgQueue cmdQueue =>
        exact .leaked not_ some_ object (by rwa [created]) (by rwa [freed]) monitor msgQueue cmdQueue
  · rw [Numbered, created, freed]
    exact numbered

theorem before_exec {calls : List Action} (before : Before rs s log)
    (run : lifetime.exec (some s) calls = some (some t, back)) :
    Before (rs ++ preparings calls) t (log ++ back) := by
  induction calls generalizing s rs log back with
  | nil =>
      cases run
      simpa [preparings] using before
  | cons call calls ih =>
      obtain ⟨m, es, rest, step, tail, rfl⟩ := exec_cons.mp run
      cases call with
      | connect r =>
          simp only [lifetime] at step
          split at step
          · cases step
          · cases step
            have later := ih (before.connect (s.socket.opcConnect r).1 (s.socket.opcConnect r).2) tail
            rwa [List.append_assoc] at later
      | prepare r =>
          cases step
          have prepares := opcPrepare_prepares r s
          have here : Before (rs ++ [r]) (s.opcPrepare r).1 (log ++ (s.opcPrepare r).2) := by
            refine ⟨before.phase.prepare before.numbered prepares,
              before.numbered.prepare prepares, ?_⟩
            rw [joineds_append, before.unjoined, joineds_prepare prepares]
            rfl
          have later := ih here tail
          rwa [List.append_assoc, List.append_assoc] at later
      | destroy join =>
          cases step
          cases calls with
          | nil => cases tail
          | cons call calls =>
              obtain ⟨_, _, _, none_, _⟩ := exec_cons.mp tail
              cases none_

/-- What `opc_destroy` frees is what the fields name, if the join is over in time. -/
theorem destroy_lists (join : JoinRet) (s : ClientObjects) :
    createds (s.opcDestroy join) = [] ∧ threads (s.opcDestroy join) = [] ∧
      joineds (s.opcDestroy join) = [s.recvThreadId] ∧
      freeds (s.opcDestroy join) = if opcThreadTimeout join ≠ 0 then []
        else s.msgQueue.toList ++ s.cmdQueue.toList ++ s.monitor.toList := by
  unfold opcDestroy
  split
  · exact ⟨rfl, rfl, rfl, rfl⟩
  · cases s.msgQueue <;> cases s.cmdQueue <;> cases s.monitor <;> exact ⟨rfl, rfl, rfl, rfl⟩

/-- What is left to `opc_destroy`: the thread that it joins, and what has not been freed. -/
theorem Before.released_append (before : Before rs s log) (join : JoinRet) :
    Released (log ++ s.opcDestroy join) ↔ s.recvThreadId ∈ threads log ∧
      ∀ object ∈ createds log, (freeds log).count object +
        (freeds (s.opcDestroy join)).count object = 1 := by
  obtain ⟨created, stored, joined, -⟩ := destroy_lists join s
  constructor
  · rintro ⟨threads_, objects⟩
    rw [joineds_append, threads_append, joined, stored, before.unjoined, List.append_nil]
      at threads_
    rw [createds_append, freeds_append, created, List.append_nil] at objects
    simp only [List.count_append] at objects
    exact ⟨threads_ _ (List.mem_singleton_self _), objects⟩
  · rintro ⟨thread, objects⟩
    refine ⟨?_, ?_⟩
    · rw [joineds_append, threads_append, joined, stored, before.unjoined, List.append_nil]
      intro tid mem
      exact List.mem_singleton.mp mem ▸ thread
    · rw [createds_append, freeds_append, created, List.append_nil]
      simp only [List.count_append]
      exact objects

theorem Before.destroyed_iff (before : Before rs s log) (join : JoinRet) :
    Released (log ++ s.opcDestroy join) ↔ OnlyLastSucceeds rs ∧ opcThreadTimeout join = 0 := by
  rw [before.released_append join, (destroy_lists join s).2.2.2]
  cases before.phase with
  | unprepared none_ monitor msgQueue cmdQueue freed_ threads_ =>
      refine iff_of_false (fun both => ?_) ?_
      · rw [threads_] at both
        cases both.1
      · rintro ⟨⟨earlier, last, rfl, succeeds, _⟩, _⟩
        exact none_ last (by simp) succeeds
  | prepared last first monitor msgQueue cmdQueue held freed_ thread =>
      rw [and_iff_right thread, and_iff_right last]
      constructor
      · intro objects
        by_contra late
        have unfreed := objects first held
        rw [freed_ first held, if_pos ⟨le_rfl, by omega⟩, if_pos late] at unfreed
        cases unfreed
      · intro inTime object mem
        rw [freed_ object mem, if_neg (not_not.mpr inTime), msgQueue, cmdQueue, monitor]
        simp only [Option.toList_some, List.cons_append, List.nil_append,
          List.count_cons, List.count_nil, beq_iff_eq]
        split_ifs <;> omega
  | leaked not_ some_ object made unfreed monitor msgQueue cmdQueue =>
      refine iff_of_false (fun both => ?_) fun both => not_ both.1
      have count := both.2 object made
      rw [List.count_eq_zero.mpr unfreed, Nat.zero_add] at count
      have mem : object ∈ if opcThreadTimeout join ≠ 0 then []
          else s.msgQueue.toList ++ s.cmdQueue.toList ++ s.monitor.toList :=
        List.count_pos_iff.mp (by omega)
      split at mem
      · cases mem
      · simp only [List.mem_append, Option.mem_toList] at mem
        rcases mem with (held | held) | held
        · exact msgQueue held
        · exact cmdQueue held
        · exact monitor held

/-- After any calls `opc_destroy` joins the created thread alone, and every monitor and queue is
freed exactly once, exactly when the last `opc_prepare` is the one that has succeeded and the
thread ends in time. -/
theorem released_iff {calls : List Action} {join : JoinRet} {t : Option ClientObjects}
    {log : List Event}
    (run : lifetime.exec (some opcInit) (calls ++ [.destroy join]) = some (t, log)) :
    Released log ↔ OnlyLastSucceeds (preparings calls) ∧ opcThreadTimeout join = 0 := by
  obtain ⟨m, front, back, first, last, rfl⟩ := exec_append.mp run
  obtain ⟨_, es, rest, step, tail, rfl⟩ := exec_cons.mp last
  cases m with
  | none => cases step
  | some s =>
      cases step
      cases tail
      rw [List.append_nil]
      have before := before_exec before_opcInit first
      exact before.destroyed_iff join

/-- The server is there, the queues are not created at once, and the thread ends. -/
def secondTry : List Action :=
  [.connect ⟨some 3, fun _ => .connected⟩, .prepare ⟨true, true, false, .created 7⟩,
    .prepare ⟨true, true, true, .created 7⟩]

theorem secondTry_released : ∃ t log,
    lifetime.exec (some opcInit) (secondTry ++ [.destroy (.returned 0)]) = some (t, log) ∧
      Released log := by
  refine ⟨_, _, rfl, (@released_iff secondTry (.returned 0) _ _ rfl).mpr ⟨?_, rfl⟩⟩
  exact ⟨[⟨true, true, false, .created 7⟩], ⟨true, true, true, .created 7⟩, rfl, by decide,
    by decide⟩

/-- `opc_connect` fails, and `main` destroys the client. -/
theorem unconnected_unreleased : ∃ t log,
    lifetime.exec (some opcInit)
      ([.connect ⟨some 3, fun _ => .failed⟩] ++ [.destroy (.returned 3)]) = some (t, log) ∧
        .joined 0 ∈ log ∧ ¬ Released log := by
  refine ⟨_, _, rfl, by decide, fun released => ?_⟩
  have stored := released.joined 0 (by decide)
  exact absurd stored (by decide)

end Life

end ClientObjects

end OdroidPlayer
