import OdroidPlayer.Server.WaitFd

/-!
The sends of the stream thread, and what its `pselect` has reported.

`wait_fd` fills the set of its caller before it waits, and a `pselect` that a signal interrupts
leaves it as it is. `run_server` then starts its loop again. `run_stream` does not look at the
result: it takes every stream of the copy for ready.
-/

namespace OdroidPlayer

open Transition Transition.System

/-- The loops, and what the `pselect` of the stream thread has reported in the iteration it is
in; `none` before it returns and when it has not succeeded. -/
structure Streaming where
  loops : Loops
  reported : Option (Finset Int)

/-- A call of `send_stream_data`, with what has been reported. -/
structure StreamSend where
  streamFd : Int
  reported : Option (Finset Int)
  deriving DecidableEq

def StreamSend.Reported (send : StreamSend) : Prop :=
  ∃ writeSet, send.reported = some writeSet ∧ send.streamFd ∈ writeSet

/-- The scan passes over the slot that it is at. -/
def RunStreamAt.Skips (at_ : RunStreamAt) (pool : Pool) : Prop :=
  match at_ with
  | .scanning writeSet idx =>
      idx < maxClients → findStream idx pool ≤ 0 ∨ findStream idx pool ∉ writeSet
  | _ => True

instance (pool : Pool) : (at_ : RunStreamAt) → Decidable (at_.Skips pool)
  | .scanning writeSet idx =>
      inferInstanceAs
        (Decidable (idx < maxClients → findStream idx pool ≤ 0 ∨ findStream idx pool ∉ writeSet))
  | .copying | .selecting _ | .waiting _ | .sending .. | .unwatching .. | .removing ..
  | .finished => .isTrue trivial

inductive StreamingAction where
  | loops (a : LoopAction)
  /-- the `pselect` of the stream thread fails with another error than EINTR or EBADF -/
  | pselectFails

namespace Streaming

/-- What has been reported after a step of the stream thread. -/
def report (s : Streaming) (r : Results) : Option (Finset Int) :=
  match s.loops.stream with
  | .copying => none
  | .waiting set => if r.interrupted then none else some (set ∩ r.ready)
  | _ => s.reported

/-- The call between two places of the stream thread. -/
def sends (reported : Option (Finset Int)) : RunStreamAt → RunStreamAt → List StreamSend
  | .scanning _ _, .sending _ _ streamFd _ => [⟨streamFd, reported⟩]
  | _, _ => []

/-- `wait_fd` returns 0, and the loop ends. -/
def failed (s : Streaming) : Streaming :=
  { s with loops := { s.loops with running := false, stream := .finished } }

/-- The three threads; `pselect` may fail at its call and while it waits. -/
def machine : System Streaming StreamingAction StreamSend where
  step s
    | .loops a =>
        (Loops.machine.step s.loops a).map fun out =>
          match a with
          | .stream r => (⟨out.1, s.report r⟩, sends s.reported s.loops.stream out.1.stream)
          | _ => (⟨out.1, s.reported⟩, [])
    | .pselectFails =>
        match s.loops.stream with
        | .selecting _ | .waiting _ => some (s.failed, [])
        | _ => none

/-- In an iteration without a report no slot holds a stream of the copy when it is looked at. -/
def SkipsUnreported (s : Streaming) : StreamingAction → Prop
  | .loops (.stream _) => s.reported = none → s.loops.stream.Skips s.loops.pool
  | _ => True

instance (s : Streaming) : (a : StreamingAction) → Decidable (s.SkipsUnreported a)
  | .loops (.stream _) =>
      inferInstanceAs (Decidable (s.reported = none → s.loops.stream.Skips s.loops.pool))
  | .loops (.server _) | .loops (.response _) | .loops (.request ..) | .loops (.disconnect _)
  | .loops .stop | .pselectFails => .isTrue trivial

/-- No signal interrupts the wait while the player runs and a stream is registered. -/
def Uninterrupted (s : Streaming) : StreamingAction → Prop
  | .loops (.stream r) => ∀ set, s.loops.stream = .waiting set → s.loops.running = true →
      set.Nonempty → r.interrupted = false
  | _ => True

end Streaming

/-- The set that the scan of `run_stream` goes by. -/
def RunStreamAt.writeSet : RunStreamAt → Option (Finset Int)
  | .scanning writeSet _ | .sending writeSet _ _ _ | .unwatching writeSet _ _
  | .removing writeSet _ _ => some writeSet
  | .copying | .selecting _ | .waiting _ | .finished => none

namespace Loops

variable {s t : Loops} {r : Results} {es : List LoopEvent}

/-! ### The other threads leave the stream thread where it is -/

theorem runServer_stream (step : s.runServer r = some (t, es)) : t.stream = s.stream := by
  unfold runServer at step
  split at step
  next at_ =>
      split at step <;>
      · cases step
        rfl
  next set at_ =>
      split at step <;>
      · cases step
        rfl
  next set at_ =>
      split at step
      · cases step
      all_goals
        cases step
        rfl
  next readSet at_ =>
      split at step
      · split at step
        · cases step
          rfl
        · split at step
          · cases step
          · obtain ⟨out, _, eq⟩ := Option.map_eq_some_iff.mp step
            cases eq
            rfl
      · cases step
        rfl
  next readSet at_ =>
      obtain ⟨out, _, eq⟩ := Option.map_eq_some_iff.mp step
      cases eq
      rfl
  next readSet clientFd at_ =>
      cases step
      rfl
  next readSet idx at_ =>
      split at step
      · cases step
        rfl
      · dsimp only at step
        split at step <;>
        · cases step
          rfl
  next readSet idx fd at_ =>
      split at step <;>
      · cases step
        rfl
  next readSet idx fd at_' at_ =>
      obtain ⟨⟨m, next, ds⟩, block, eq⟩ := Option.map_eq_some_iff.mp step
      cases eq
      exact (disconnect_frame block).2.2.2.1
  · cases step

theorem executeStream_stream {clientFd : Int} {time : Bool} {at_ : StreamRequestAt}
    (step : s.executeStream clientFd time r at_ = some (t, es)) : t.stream = s.stream := by
  have triggers : ∀ serverPath clientPath,
      (s.trigger clientFd time serverPath clientPath).1.stream = s.stream := by
    intro serverPath clientPath
    unfold Loops.trigger
    split <;> rfl
  cases at_ with
  | setFind | createFind | fdFind | serverFind | funcFind | malloc =>
      simp only [executeStream] at step
      split at step <;>
      · cases step
        rfl
  | setRead | fdRead | serverRead | watch | funcStore | kill =>
      cases step
      rfl
  | createStore idx =>
      simp only [executeStream] at step
      split at step
      · cases step
        rfl
      · cases step
  | clientFind path =>
      simp only [executeStream] at step
      split at step
      · rw [← show _ = t from congrArg Prod.fst (Option.some.inj step)]
        exact triggers path none
      · cases step
        rfl
  | clientRead path idx =>
      rw [← show _ = t from congrArg Prod.fst (Option.some.inj step)]
      exact triggers path _

theorem step_stream {a : LoopAction} (step : machine.step s a = some (t, es))
    (other : ∀ r, a ≠ .stream r) : t.stream = s.stream := by
  cases a with
  | server r => exact runServer_stream step
  | response r =>
      simp only [machine, runResponse] at step
      split at step
      · cases step
      · exact executeStream_stream step
      · obtain ⟨⟨m, next, ds⟩, block, eq⟩ := Option.map_eq_some_iff.mp step
        cases eq
        exact (disconnect_frame block).2.2.2.1
  | stream r => exact absurd rfl (other r)
  | request | disconnect =>
      simp only [machine] at step
      split at step
      · cases step
        rfl
      · cases step
  | stop =>
      cases step
      rfl

/-! ### A step of the stream thread -/

/-- Only the scan calls `send_stream_data`, and its set is what `pselect` has left of the copy. -/
inductive Scans (s : Loops) (r : Results) (stream : RunStreamAt) : Prop where
  | quiet (skips : s.stream.Skips s.pool)
      (none_ : ∀ reported, Streaming.sends reported s.stream stream = [])
      (scanned : ∀ writeSet ∈ stream.writeSet, s.stream.writeSet = some writeSet ∨
        ∃ set, s.stream = .waiting set ∧ writeSet = if r.interrupted then set else set ∩ r.ready)
  | sends (writeSet : Finset Int) (idx : Nat) (at_ : s.stream = .scanning writeSet idx)
      (small : idx < maxClients) (pos : 0 < findStream idx s.pool)
      (mem : findStream idx s.pool ∈ writeSet)
      (after : stream = .sending writeSet idx (findStream idx s.pool) .pathIndex)

/-- A step outside the scan, with the set of the scan it belongs to. -/
theorem Scans.stays {at_ stream : RunStreamAt} (here : s.stream = at_)
    (out : ∀ writeSet idx, at_ ≠ .scanning writeSet idx)
    (same : stream.writeSet = none ∨ stream.writeSet = at_.writeSet) : Scans s r stream := by
  subst here
  refine .quiet ?_ (fun _ => ?_) fun writeSet mem => ?_
  · unfold RunStreamAt.Skips
    split
    next at_ => exact absurd at_ (out _ _)
    · trivial
  · unfold Streaming.sends
    split
    next at_ => exact absurd at_ (out _ _)
    · rfl
  · rcases same with none_ | same
    · rw [none_] at mem
      cases mem
    · exact .inl (same ▸ mem)

theorem waitFd_interrupted {set : Finset Int} (waited : s.waitFd set r = some .interrupted) :
    r.interrupted = true := by
  by_contra returned
  simp only [waitFd, if_neg returned] at waited
  split_ifs at waited <;> cases waited

theorem waitFd_ready {set writeSet : Finset Int} (waited : s.waitFd set r = some (.ready writeSet)) :
    r.interrupted = false ∧ writeSet = set ∩ r.ready := by
  cases interrupted : r.interrupted with
  | false =>
      simp only [waitFd, interrupted, Bool.false_eq_true, if_false] at waited
      split_ifs at waited <;> cases waited
      exact ⟨rfl, rfl⟩
  | true =>
      simp only [waitFd, interrupted, if_true] at waited
      split_ifs at waited <;> cases waited

theorem runStream_scans (step : s.runStream r = some (t, es)) : Scans s r t.stream := by
  unfold runStream at step
  split at step
  next at_ =>
      split at step <;>
      · cases step
        exact .stays at_ (by simp) (.inl rfl)
  next set at_ =>
      split at step <;>
      · cases step
        exact .stays at_ (by simp) (.inl rfl)
  next set at_ =>
      have selected : ∀ writeSet, writeSet = (if r.interrupted then set else set ∩ r.ready) →
          Scans s r (.scanning writeSet 0) := by
        intro writeSet left
        refine .quiet (by rw [at_]; trivial) (fun _ => by rw [at_]; rfl) ?_
        rintro _ ⟨⟩
        exact .inr ⟨set, at_, left⟩
      split at step
      · cases step
      · cases step
        exact .stays at_ (by simp) (.inl rfl)
      next waited =>
          cases step
          exact selected set (by simp [waitFd_interrupted waited])
      next writeSet waited =>
          cases step
          obtain ⟨returned, rfl⟩ := waitFd_ready waited
          exact selected _ (by simp [returned])
  next writeSet idx at_ =>
      split at step
      next done =>
          cases step
          refine .quiet ?_ (fun _ => by rw [at_]; rfl) (by rintro _ ⟨⟩)
          rw [at_]
          exact fun small => absurd small (Nat.not_lt.mpr done)
      next small =>
          dsimp only at step
          split at step
          next skips =>
              cases step
              refine .quiet ?_ (fun _ => by rw [at_]; rfl) (fun _ mem => .inl (by rwa [at_]))
              rw [at_]
              exact fun _ => skips
          next ready =>
              cases step
              obtain ⟨pos, mem⟩ := not_or.mp ready
              exact .sends writeSet idx at_ (not_le.mp small) (not_le.mp pos) (not_not.mp mem) rfl
  next writeSet idx streamFd at_ =>
      split at step <;>
      · cases step
        exact .stays at_ (by simp) (.inr rfl)
  next writeSet idx streamFd at_' _ at_ =>
      split at step <;>
      · cases step
        exact .stays at_ (by simp) (.inr rfl)
  next at_ =>
      cases step
      exact .stays at_ (by simp) (.inr rfl)
  next at_ =>
      cases step
      exact .stays at_ (by simp) (.inr rfl)
  next writeSet idx block _ at_ =>
      split at step <;>
      · cases step
        exact .stays at_ (by simp) (.inr rfl)
  · cases step

/-- The scan is reached from the wait only while the player runs. -/
theorem runStream_running {set writeSet : Finset Int} (at_ : s.stream = .waiting set)
    (step : s.runStream r = some (t, es)) (scans : t.stream.writeSet = some writeSet) :
    s.running = true := by
  by_contra stopped
  rw [Bool.not_eq_true] at stopped
  simp only [runStream, at_, waitFd, stopped, if_true] at step
  split at step
  · cases step
  · cases step
    cases scans
  next waited =>
      split_ifs at waited
      cases waited
  next waited =>
      split_ifs at waited
      cases waited

end Loops

namespace Streaming

variable {s t : Streaming} {a : StreamingAction} {es log : List StreamSend}

/-- A scan goes by what has been reported, or nothing has been. -/
def Scanning (s : Streaming) : Prop :=
  ∀ writeSet ∈ s.loops.stream.writeSet, s.reported = none ∨ s.reported = some writeSet

/-- What the machine does in a step of the stream thread, and in one of another. -/
theorem step_cases (step : machine.step s a = some (t, es)) :
    (∃ r les, a = .loops (.stream r) ∧ s.loops.runStream r = some (t.loops, les) ∧
        t.reported = s.report r ∧ es = sends s.reported s.loops.stream t.loops.stream) ∨
      (∀ r, a ≠ .loops (.stream r)) ∧ t.reported = s.reported ∧ es = [] ∧
        (t.loops.stream = s.loops.stream ∨ t.loops.stream = .finished) := by
  cases a with
  | pselectFails =>
      simp only [machine] at step
      split at step
      · cases step
        exact .inr ⟨by simp, rfl, rfl, .inr rfl⟩
      · cases step
        exact .inr ⟨by simp, rfl, rfl, .inr rfl⟩
      · cases step
  | loops a =>
      obtain ⟨⟨loops, les⟩, moves, eq⟩ := Option.map_eq_some_iff.mp step
      cases a with
      | stream r =>
          cases eq
          exact .inl ⟨r, les, rfl, moves, rfl, rfl⟩
      | server | response | request | disconnect | stop =>
          cases eq
          exact .inr ⟨by simp, rfl, rfl, .inl (Loops.step_stream moves (by simp))⟩

theorem report_of_writeSet {r : Results} {writeSet : Finset Int}
    (scanned : s.loops.stream.writeSet = some writeSet) : s.report r = s.reported := by
  unfold report
  split
  next at_ => rw [at_] at scanned; cases scanned
  next at_ => rw [at_] at scanned; cases scanned
  · rfl

theorem Scanning.keep (scanning : Scanning s) (step : machine.step s a = some (t, es)) :
    Scanning t := by
  intro writeSet mem
  rcases step_cases step with ⟨r, les, rfl, moves, reported, -⟩ | ⟨-, reported, -, at_⟩
  · rw [reported]
    cases Loops.runStream_scans moves with
    | quiet _ _ scanned =>
        rcases scanned writeSet mem with same | ⟨set, at_, rfl⟩
        · rw [report_of_writeSet same]
          exact scanning writeSet same
        · simp only [report, at_]
          split
          · exact .inl rfl
          · exact .inr rfl
    | sends _ idx at_ _ _ _ after =>
        rw [after] at mem
        cases mem
        have same : s.loops.stream.writeSet = some writeSet := by rw [at_]; rfl
        rw [report_of_writeSet same]
        exact scanning writeSet same
  · rw [reported]
    rcases at_ with same | finished
    · exact scanning writeSet (same ▸ mem)
    · rw [finished] at mem
      cases mem

/-- A step sends to what has been reported exactly under the condition. -/
theorem Scanning.reported_iff (scanning : Scanning s) (step : machine.step s a = some (t, es)) :
    (∀ send ∈ es, send.Reported) ↔ s.SkipsUnreported a := by
  rcases step_cases step with ⟨r, les, rfl, moves, -, rfl⟩ | ⟨other, -, rfl, -⟩
  · cases Loops.runStream_scans moves with
    | quiet skips none_ _ =>
        rw [none_]
        exact iff_of_true (by simp) fun _ => skips
    | sends writeSet idx at_ small pos mem after =>
        rw [SkipsUnreported, at_, after]
        constructor
        · intro all none_
          obtain ⟨_, reported, _⟩ := all _ (List.mem_singleton_self _)
          cases none_.symm.trans reported
        · intro skips send here
          rw [List.mem_singleton.mp here]
          have same : s.loops.stream.writeSet = some writeSet := by rw [at_]; rfl
          rcases scanning writeSet same with none_ | reported
          · rcases skips none_ small with free | out
            · exact absurd free (not_le.mpr pos)
            · exact absurd mem out
          · exact ⟨writeSet, reported, mem⟩
  · refine iff_of_true (by simp) ?_
    cases a with
    | pselectFails => trivial
    | loops a =>
        cases a with
        | stream r => exact absurd rfl (other r)
        | server | response | request | disconnect | stop => trivial

/-! ### Waits that are not interrupted -/

/-- A scan without a report goes by an empty set. -/
def ScansNothing (s : Streaming) : Prop :=
  ∀ writeSet ∈ s.loops.stream.writeSet, s.reported = none → writeSet = ∅

theorem ScansNothing.keep (nothing : ScansNothing s) (uninterrupted : s.Uninterrupted a)
    (step : machine.step s a = some (t, es)) : ScansNothing t := by
  intro writeSet mem
  rcases step_cases step with ⟨r, les, rfl, moves, reported, -⟩ | ⟨-, reported, -, at_⟩
  · rw [reported]
    cases Loops.runStream_scans moves with
    | quiet _ _ scanned =>
        rcases scanned writeSet mem with same | ⟨set, at_, rfl⟩
        · rw [report_of_writeSet same]
          exact nothing writeSet same
        · intro none_
          have interrupted : r.interrupted = true := by
            by_contra returned
            simp [report, at_, returned] at none_
          have running := Loops.runStream_running at_ moves mem
          rw [if_pos interrupted, ← Finset.not_nonempty_iff_eq_empty]
          intro some_
          exact absurd (uninterrupted set at_ running some_) (by simp [interrupted])
    | sends _ idx at_ _ _ _ after =>
        rw [after] at mem
        cases mem
        have same : s.loops.stream.writeSet = some writeSet := by rw [at_]; rfl
        rw [report_of_writeSet same]
        exact nothing writeSet same
  · rw [reported]
    rcases at_ with same | finished
    · exact nothing writeSet (same ▸ mem)
    · rw [finished] at mem
      cases mem

theorem ScansNothing.skips (nothing : ScansNothing s) (a : StreamingAction) :
    s.SkipsUnreported a := by
  cases a with
  | pselectFails => trivial
  | loops a =>
      cases a with
      | server | response | request | disconnect | stop => trivial
      | stream r =>
          intro none_
          unfold RunStreamAt.Skips
          split
          next writeSet idx at_ =>
              have same : s.loops.stream.writeSet = some writeSet := by rw [at_]; rfl
              intro _
              rw [nothing writeSet same none_]
              exact .inr (Finset.notMem_empty _)
          · trivial

/-- A run in which no wait is interrupted while the player runs and a stream is registered. -/
theorem skips_of_uninterrupted {s : Loops} {as : List StreamingAction} (at_ : s.stream = .copying)
    (uninterrupted : machine.Along Uninterrupted ⟨s, none⟩ as) :
    machine.Along SkipsUnreported ⟨s, none⟩ as := by
  refine along_of_inv (I := ScansNothing)
    (fun _ _ _ _ nothing met step => nothing.keep met step)
    (fun _ a nothing _ => nothing.skips a) ?_ uninterrupted
  intro writeSet mem
  simp only [at_] at mem
  cases mem

/-! ### An interrupted wait -/

section Interrupted

variable {writeSet : Finset Int} {i idx : Nat}

/-- The slot that the scan is at holds a stream of its set, which nobody has reported. -/
theorem scan_ready (r : Results) (at_ : s.loops.stream = .scanning writeSet i)
    (none_ : s.reported = none) (inside : i < maxClients)
    (ready : ¬ (findStream i s.loops.pool ≤ 0 ∨ findStream i s.loops.pool ∉ writeSet)) :
    ∃ t log, machine.exec s [.loops (.stream r)] = some (t, log) ∧
      ∃ send ∈ log, ¬ send.Reported := by
  have step : machine.step s (.loops (.stream r)) =
      some (⟨{ s.loops with
          stream := .sending writeSet i (findStream i s.loops.pool) .pathIndex }, none⟩,
        [⟨findStream i s.loops.pool, none⟩]) := by
    simp only [machine, Loops.machine, Loops.runStream, at_, if_neg (not_le.mpr inside),
      if_neg ready, report, sends, Option.map_some, none_]
  refine ⟨_, _, exec_cons.mpr ⟨_, _, [], step, rfl, rfl⟩, _, List.mem_singleton_self _, ?_⟩
  rintro ⟨_, reported, _⟩
  cases reported

theorem scan_skips (r : Results) (at_ : s.loops.stream = .scanning writeSet i)
    (inside : i < maxClients)
    (skips : findStream i s.loops.pool ≤ 0 ∨ findStream i s.loops.pool ∉ writeSet) :
    machine.step s (.loops (.stream r)) =
      some (⟨{ s.loops with stream := .scanning writeSet (i + 1) }, s.reported⟩, []) := by
  simp only [machine, Loops.machine, Loops.runStream, at_, if_neg (not_le.mpr inside),
    if_pos skips, report, sends, Option.map_some]

/-- A scan without a report sends to the first stream of its set that it comes to. -/
theorem scan_sends (r : Results) (at_ : s.loops.stream = .scanning writeSet i)
    (none_ : s.reported = none) (le : i ≤ idx) (small : idx < maxClients)
    (pos : 0 < findStream idx s.loops.pool) (mem : findStream idx s.loops.pool ∈ writeSet) :
    ∃ n t log, machine.exec s (List.replicate n (.loops (.stream r))) = some (t, log) ∧
      ∃ send ∈ log, ¬ send.Reported := by
  induction left : idx - i generalizing s i with
  | zero =>
      have same : i = idx := by omega
      obtain ⟨t, log, run, sends_⟩ := scan_ready r at_ none_ (by omega) (by
        rw [same, not_or, not_not]
        exact ⟨not_le.mpr pos, mem⟩)
      exact ⟨1, t, log, run, sends_⟩
  | succ left ih =>
      by_cases skips : findStream i s.loops.pool ≤ 0 ∨ findStream i s.loops.pool ∉ writeSet
      · have step := scan_skips r at_ (by omega) skips
        obtain ⟨n, t, log, run, sends_⟩ :=
          ih (s := ⟨{ s.loops with stream := .scanning writeSet (i + 1) }, s.reported⟩) (i := i + 1)
            rfl none_ (by omega) pos mem (by omega)
        exact ⟨n + 1, t, _, exec_cons.mpr ⟨_, _, log, step, run, rfl⟩, sends_⟩
      · obtain ⟨t, log, run, sends_⟩ := scan_ready r at_ none_ (by omega) skips
        exact ⟨1, t, log, run, sends_⟩

/-- A signal that interrupts the wait while the player runs and a stream is registered has the
stream thread send to one that nobody has reported. -/
theorem interrupted_sends (r : Results) (at_ : s.loops.stream = .waiting writeSet)
    (interrupted : r.interrupted = true) (running : s.loops.running = true)
    (small : idx < maxClients) (pos : 0 < findStream idx s.loops.pool)
    (mem : findStream idx s.loops.pool ∈ writeSet) :
    ∃ n t log, machine.exec s (List.replicate n (.loops (.stream r))) = some (t, log) ∧
      ∃ send ∈ log, ¬ send.Reported := by
  have step : machine.step s (.loops (.stream r)) =
      some (⟨{ s.loops with stream := .scanning writeSet 0 }, none⟩, []) := by
    simp [machine, Loops.machine, Loops.runStream, at_, Loops.waitFd, running, interrupted, report,
      sends]
  obtain ⟨n, t, log, run, sends_⟩ :=
    scan_sends (s := ⟨{ s.loops with stream := .scanning writeSet 0 }, none⟩) r rfl rfl
      (Nat.zero_le _) small pos mem
  exact ⟨n + 1, t, _, exec_cons.mpr ⟨_, _, log, step, run, rfl⟩, sends_⟩

end Interrupted

/-! ### Runs -/

/-- Whatever streams are registered and whatever the calls of `pselect` and the other threads do:
`run_stream` sends to reported streams only exactly when no iteration without a report comes to
a stream of its copy. -/
theorem sends_reported_iff {s : Loops} {t : Streaming} {as : List StreamingAction}
    {log : List StreamSend} (at_ : s.stream = .copying)
    (run : machine.exec ⟨s, none⟩ as = some (t, log)) :
    (∀ send ∈ log, send.Reported) ↔ machine.Along SkipsUnreported ⟨s, none⟩ as := by
  refine forall_mem_iff_along (I := Scanning) (fun _ _ _ _ => Scanning.keep)
    (fun _ _ _ _ => Scanning.reported_iff) ?_ run
  intro writeSet mem
  simp only [at_] at mem
  cases mem

/-- A step of the stream thread in which `pselect` finds stream 6 ready. -/
def finds : StreamingAction := .loops (.stream (Loops.goesWell {6}))

/-- The same when a signal interrupts it. -/
def isInterrupted : StreamingAction :=
  .loops (.stream { Loops.goesWell ∅ with interrupted := true })

/-- Stream 6 is sent to in one iteration; in the next one the player is stopped, and a signal
interrupts the wait. -/
def stoppedLater : List StreamingAction := List.replicate 25 finds ++ [.loops .stop, isInterrupted]

theorem stoppedLater_reported : ∃ t,
    machine.exec ⟨Loops.ofServer Loops.twoClients, none⟩ stoppedLater =
        some (t, [⟨6, some {6}⟩]) ∧ t.loops.stream = .finished ∧
      ∀ send ∈ [StreamSend.mk 6 (some {6})], send.Reported := by
  have run : ∃ t, machine.exec ⟨Loops.ofServer Loops.twoClients, none⟩ stoppedLater =
      some (t, [⟨6, some {6}⟩]) ∧ t.loops.stream = .finished := ⟨_, rfl, rfl⟩
  obtain ⟨t, run, finished⟩ := run
  exact ⟨t, run, finished, (sends_reported_iff rfl run).mpr (by decide)⟩

/-- A signal interrupts the wait while stream 6 is registered and not ready. -/
def signalled : List StreamingAction := List.replicate 2 finds ++ List.replicate 3 isInterrupted

theorem signalled_unreported : ∃ t,
    machine.exec ⟨Loops.ofServer Loops.twoClients, none⟩ signalled = some (t, [⟨6, none⟩]) ∧
      ¬ ∀ send ∈ [StreamSend.mk 6 none], send.Reported := by
  refine ⟨_, rfl, fun all => ?_⟩
  obtain ⟨_, reported, _⟩ := all _ (List.mem_singleton_self _)
  cases reported

end Streaming

end OdroidPlayer
