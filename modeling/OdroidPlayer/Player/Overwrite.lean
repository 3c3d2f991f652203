import OdroidPlayer.Player.Runs
import Mathlib.Data.List.TakeWhile

/-!
A command on a recorded child and the requests that overwrite it.

`pending_command` is one cell. PAUSE, and a PLAY that resumes a paused child, write it
like NEXT, PREV and STOP do, and the default branch of `run_player` then moves forward.
So the branch taken for the child is the one of the command exactly when that branch is
the default one or no PAUSE came in between.
-/

namespace OdroidPlayer

open Transition.System

def Event.isCleaned : Event → Bool
  | .cleaned _ _ => true
  | _ => false

/-- The requests answered before the cleanup of the child. -/
def requestsBeforeCleanup (log : List Event) : List Request :=
  (answers (log.takeWhile fun e => !e.isCleaned)).map Prod.fst

/-- The branches that `run_player` has taken after reaping a child, in order. -/
def branches (log : List Event) : List Branch :=
  log.filterMap fun
    | .took branch => some branch
    | _ => none

/-- In every run from `s` that answers exactly `requests` before the cleanup of the
child, the branch then taken is the one that `command` asks for. -/
def Obeyed (s : State) (command : PlayerCmd) (requests : List Request) : Prop :=
  ∀ t log, machine.Runs s t log → requestsBeforeCleanup log = requests →
    ∀ b, (branches log).head? = some b → b = command.branch

/-! ### The pending command of a recorded child -/

/-- What is pending once `requests` have followed `command`. -/
def Pends (command : PlayerCmd) (requests : List Request) (pending : PlayerCmd) : Prop :=
  (.pause ∉ requests ∧ pending = command) ∨
    (.pause ∈ requests ∧ (pending = .pause ∨ pending = .resume))

/-- The child that `child_pid` records has not been cleaned up. -/
def State.Recorded (s : State) : Prop := ∃ pid, s.play = .waitpid pid ∨ s.play = .cleanup pid

theorem Inv.childPid_pos {s : State} (inv : Inv s) : 0 < s.player.childPid ↔ s.Recorded := by
  have pidOk := inv.pidOk
  rw [inv.recorded]
  cases at_ : s.play <;> simp_all [PlayAt.recordedPid, State.Recorded, PlayAt.PidOk]

/-- Only PAUSE and PLAY have been requested. -/
def OnlyPausePlay (requests : List Request) : Prop := ∀ r ∈ requests, r = .pause ∨ r = .play

structure Overwriting (s : State) (command : PlayerCmd) (requests : List Request) : Prop where
  paused : s.player.childPaused = true → .pause ∈ requests
  play : ∀ c reply, s.resp = .calling .play c reply → c = .resume ∧ .pause ∈ requests
  pause : ∀ c reply, s.resp = .calling .pause c reply → c = .pause
  pending : Pends command requests s.player.pendingCommand

theorem Pends.play {command pending : PlayerCmd} {requests : List Request}
    (pends : Pends command requests pending) : Pends command (requests ++ [.play]) pending := by
  simpa [Pends] using pends

theorem answers_nil : answers [] = [] := rfl

theorem answers_reaped (pid : Nat) : answers [.reaped pid] = [] := rfl

theorem Untouched.branches_eq {s t : State} {es : List Event} (same : Untouched s t es) :
    branches es = [] := by
  refine List.filterMap_eq_nil_iff.mpr fun e mem => ?_
  have other := same.events e mem
  cases e <;> first | rfl | cases other

theorem State.Recorded.awake {s : State} (at_ : s.Recorded) : s.play ≠ .condWait := by
  rcases at_ with ⟨pid, at_ | at_⟩
  · simp [at_]
  · simp [at_]

theorem State.Recorded.free {s : State} (at_ : s.Recorded) : s.play.holdsMutex = false := by
  rcases at_ with ⟨pid, at_ | at_⟩
  · rw [at_]; rfl
  · rw [at_]; rfl

/-- While the child is recorded a move of the player thread leaves it recorded, until
the cleanup takes what is pending. -/
theorem Move.recorded {s t : State} {a : Action} {es : List Event} (move : Move s a t es)
    (at_ : s.Recorded) :
    (∃ pid, es = [.cleaned pid s.player.pendingCommand] ∧
      t.play = .exitTest s.player.pendingCommand) ∨
    (t.Recorded ∧ (∀ e ∈ es, e.isCleaned = false) ∧ branches es = []) := by
  cases mine : a.ofPlayer with
  | false =>
      have same := move.untouched mine
      refine .inr ⟨?_, fun e mem => ?_, same.branches_eq⟩
      · simpa only [State.Recorded, same.play_eq at_.awake] using at_
      · have other := same.events e mem
        cases e <;> first | rfl | cases other
  | true =>
      obtain ⟨pid, at_ | at_⟩ := at_
      · cases move with
        | reap at' => exact .inr ⟨⟨_, .inr rfl⟩, by simp [Event.isCleaned], rfl⟩
        | eintr => exact .inr ⟨⟨pid, .inl at_⟩, by simp, rfl⟩
        | waitFailed => exact .inr ⟨⟨_, .inr rfl⟩, by simp, rfl⟩
        | _ => simp_all [Action.ofPlayer]
      · cases move with
        | cleanup at' => exact .inl ⟨_, rfl, rfl⟩
        | _ => simp_all [Action.ofPlayer]

theorem Overwriting.keep {s t : State} {a : Action} {es : List Event} {command : PlayerCmd}
    {requests : List Request} (ow : Overwriting s command requests) (inv : Inv s)
    (at_ : s.Recorded) (move : Move s a t es) (only : OnlyPausePlay ((answers es).map Prod.fst))
    (unclean : ∀ e ∈ es, e.isCleaned = false) :
    Overwriting t command (requests ++ (answers es).map Prod.fst) := by
  have recorded := inv.childPid_pos.mpr at_
  cases move with
  | @answer r reply idle free decided =>
      have isPlay : r = .play := by
        rcases only r (by simp [answers]) with rfl | rfl
        · cases decided
        · rfl
      subst isPlay
      exact ⟨fun on => by simp [ow.paused on], fun c reply calling => by simp [idle] at calling,
        fun c reply calling => by simp [idle] at calling, ow.pending.play⟩
  | @call r c reply idle free decided =>
      rw [answers_nil, List.map_nil, List.append_nil]
      refine ⟨ow.paused, ?_, ?_, ow.pending⟩
      · rintro c' reply' calling
        obtain ⟨rfl, rfl, rfl⟩ := RespAt.calling.inj calling
        simp only [Request.decide, cmdPlay] at decided
        cases paused : s.player.childPaused with
        | true =>
            simp only [paused, if_true, Decision.call.injEq] at decided
            exact ⟨decided.1.symm, ow.paused paused⟩
        | false =>
            have child : s.player.childPid ≠ 0 := by omega
            simp [paused, child] at decided
      · rintro c' reply' calling
        obtain ⟨rfl, rfl, rfl⟩ := RespAt.calling.inj calling
        simp only [Request.decide, cmdPause, Decision.call.injEq] at decided
        exact decided.1.symm
  | @command r c reply now calling free =>
      have answered : (answers (commandEvents s.player now r c reply)).map Prod.fst = [r] := by simp
      have only' : OnlyPausePlay [r] := answered ▸ only
      have goal : Overwriting (s.commanded now c) command (requests ++ [r]) := by
        rcases only' r List.mem_cons_self with rfl | rfl
        · obtain rfl := ow.pause _ _ calling
          refine ⟨fun _ => by simp, ?_, ?_, .inr ⟨by simp, .inl ?_⟩⟩ <;> simp [State.commanded]
        · obtain ⟨rfl, paused⟩ := ow.play _ _ calling
          refine ⟨fun _ => by simp [paused], ?_, ?_, .inr ⟨by simp [paused], .inr ?_⟩⟩ <;>
            simp [State.commanded]
      exact answered.symm ▸ goal
  | cleanup => simp [Event.isCleaned] at unclean
  | crash _ _ decided => exact absurd decided (Request.decide_ne_crash inv.range _)
  | reap =>
      rw [answers_reaped, List.map_nil, List.append_nil]
      exact ⟨ow.paused, ow.play, ow.pause, ow.pending⟩
  | eintr | waitFailed | exit | shutdown | shutdownSignal =>
      rw [answers_nil, List.map_nil, List.append_nil]
      exact ⟨ow.paused, ow.play, ow.pause, ow.pending⟩
  | _ => obtain ⟨pid, at' | at'⟩ := at_ <;> simp_all

@[simp] theorem branches_broadcastUri (uri : Option String) :
    branches (broadcastUri uri) = [] := by
  rcases broadcastUri_cases uri with none | ⟨s, some_⟩
  · rw [none]; rfl
  · rw [some_]; rfl

/-! ### The phases of a run -/

theorem requestsBeforeCleanup_append_of_unclean {front : List Event}
    (unclean : ∀ e ∈ front, e.isCleaned = false) (back : List Event) :
    requestsBeforeCleanup (front ++ back) =
      requestsBeforeCleanup front ++ requestsBeforeCleanup back := by
  have all : ∀ e ∈ front, (!e.isCleaned) = true := fun e mem => by simp [unclean e mem]
  rw [requestsBeforeCleanup, List.takeWhile_append_of_pos all, answers_append, List.map_append,
    requestsBeforeCleanup, List.takeWhile_eq_self_iff.mpr all, requestsBeforeCleanup]

theorem requestsBeforeCleanup_of_unclean {log : List Event}
    (unclean : ∀ e ∈ log, e.isCleaned = false) :
    requestsBeforeCleanup log = (answers log).map Prod.fst := by
  have all : ∀ e ∈ log, (!e.isCleaned) = true := fun e mem => by simp [unclean e mem]
  rw [requestsBeforeCleanup, List.takeWhile_eq_self_iff.mpr all]

/-- After the cleanup nothing is added. -/
theorem requestsBeforeCleanup_append_of_cleaned {front : List Event}
    (cleaned : ∃ e ∈ front, e.isCleaned = true) (back : List Event) :
    requestsBeforeCleanup (front ++ back) = requestsBeforeCleanup front := by
  have short : (front.takeWhile fun e => !e.isCleaned).length ≠ front.length := by
    intro full
    have whole := (List.takeWhile_prefix fun e : Event => !e.isCleaned).eq_of_length full
    obtain ⟨e, mem, is⟩ := cleaned
    simpa [is] using List.takeWhile_eq_self_iff.mp whole e mem
  rw [requestsBeforeCleanup, List.takeWhile_append, if_neg short, requestsBeforeCleanup]

@[simp] theorem branches_append (front back : List Event) :
    branches (front ++ back) = branches front ++ branches back :=
  List.filterMap_append

/-- Where the run of a command on a recorded child stands. -/
inductive Phase (command : PlayerCmd) (s : State) (log : List Event) : Prop where
  | living (unclean : ∀ e ∈ log, e.isCleaned = false) (untaken : branches log = [])
      (at_ : s.Recorded)
      (holds : OnlyPausePlay (requestsBeforeCleanup log) →
        Overwriting s command (requestsBeforeCleanup log))
  | deciding {pending : PlayerCmd} (cleaned : ∃ e ∈ log, e.isCleaned = true)
      (untaken : branches log = [])
      (at_ : s.play = .exitTest pending ∨ s.play = .dispatch pending)
      (holds : OnlyPausePlay (requestsBeforeCleanup log) →
        Pends command (requestsBeforeCleanup log) pending)
  | taken {pending : PlayerCmd} (cleaned : ∃ e ∈ log, e.isCleaned = true)
      (took : (branches log).head? = some pending.branch)
      (holds : OnlyPausePlay (requestsBeforeCleanup log) →
        Pends command (requestsBeforeCleanup log) pending)
  | ended (cleaned : ∃ e ∈ log, e.isCleaned = true) (untaken : branches log = [])
      (halted : s.play.Halted)

/-- Between the cleanup and the branch. -/
theorem Move.deciding {s t : State} {a : Action} {es : List Event} {pending : PlayerCmd}
    (move : Move s a t es) (at_ : s.play = .exitTest pending ∨ s.play = .dispatch pending) :
    ((t.play = .exitTest pending ∨ t.play = .dispatch pending) ∧ branches es = []) ∨
      (t.play.Halted ∧ branches es = []) ∨ branches es = [pending.branch] := by
  have awake : s.play ≠ .condWait := by rcases at_ with at_ | at_ <;> simp [at_]
  cases mine : a.ofPlayer with
  | false =>
      have same := move.untouched mine
      exact .inl ⟨by rw [same.play_eq awake]; exact at_, same.branches_eq⟩
  | true =>
      rcases at_ with at_ | at_
      · cases move with
        | @exitOn pending' at' =>
            obtain rfl : pending = pending' := PlayAt.exitTest.inj (at_.symm.trans at')
            exact .inl ⟨.inr rfl, rfl⟩
        | exitOff => exact .inr (.inl ⟨.inl rfl, rfl⟩)
        | _ => simp_all [Action.ofPlayer]
      · cases move with
        | tookStop at' | tookPrevStay at' | tookReplay at' =>
            obtain rfl := PlayAt.dispatch.inj (at_.symm.trans at')
            exact .inr (.inr rfl)
        | tookPrev at' =>
            obtain rfl := PlayAt.dispatch.inj (at_.symm.trans at')
            exact .inr (.inr (congrArg (Branch.prev :: ·) (branches_broadcastUri _)))
        | @tookForward pending' playlist uri at' forward =>
            obtain rfl : pending = pending' := PlayAt.dispatch.inj (at_.symm.trans at')
            refine .inr (.inr ?_)
            rw [forward]
            exact congrArg (Branch.forward :: ·) (branches_broadcastUri _)
        | @tookEnd pending' at' forward =>
            obtain rfl : pending = pending' := PlayAt.dispatch.inj (at_.symm.trans at')
            rw [forward]
            exact .inr (.inr rfl)
        | _ => simp_all [Action.ofPlayer]

theorem Move.halted {s t : State} {a : Action} {es : List Event} (move : Move s a t es)
    (at_ : s.play.Halted) : t.play.Halted ∧ branches es = [] := by
  have awake : s.play ≠ .condWait := by rcases at_ with at_ | at_ <;> simp [at_]
  cases mine : a.ofPlayer with
  | false =>
      have same := move.untouched mine
      exact ⟨by rw [same.play_eq awake]; exact at_, same.branches_eq⟩
  | true =>
      rcases at_ with at_ | at_ <;> cases move with
      | stopPlayer => exact ⟨.inr rfl, rfl⟩
      | _ => simp_all [Action.ofPlayer]

theorem Phase.keep {command : PlayerCmd} {s t : State} {a : Action} {log es : List Event}
    (phase : Phase command s log) (inv : Inv s) (move : Move s a t es) :
    Phase command t (log ++ es) := by
  cases phase with
  | living unclean untaken at_ holds =>
      have front := requestsBeforeCleanup_append_of_unclean unclean es
      rcases move.recorded at_ with ⟨pid, rfl, there⟩ | ⟨there, unclean', untaken'⟩
      · have same : requestsBeforeCleanup (log ++ [.cleaned pid s.player.pendingCommand]) =
            requestsBeforeCleanup log := front.trans (List.append_nil _)
        refine .deciding ⟨_, List.mem_concat_self, rfl⟩ ?_ (.inl there) fun only => ?_
        · rw [branches_append, untaken]; rfl
        · rw [same] at only ⊢
          exact (holds only).pending
      · have tail : requestsBeforeCleanup es = (answers es).map Prod.fst :=
          requestsBeforeCleanup_of_unclean unclean'
        refine .living ?_ (by rw [branches_append, untaken, untaken']; rfl) there fun only => ?_
        · intro e mem
          exact (List.mem_append.mp mem).elim (unclean e) (unclean' e)
        · rw [front, tail] at only ⊢
          exact (holds fun r mem => only r (List.mem_append_left _ mem)).keep inv at_ move
            (fun r mem => only r (List.mem_append_right _ mem)) unclean'
  | deciding cleaned untaken at_ holds =>
      have cleaned' : ∃ e ∈ log ++ es, e.isCleaned = true :=
        cleaned.imp fun e both => ⟨List.mem_append_left _ both.1, both.2⟩
      rw [← requestsBeforeCleanup_append_of_cleaned cleaned es] at holds
      rcases move.deciding at_ with ⟨there, none⟩ | ⟨halted, none⟩ | took
      · exact .deciding cleaned' (by rw [branches_append, untaken, none]; rfl) there holds
      · exact .ended cleaned' (by rw [branches_append, untaken, none]; rfl) halted
      · exact .taken cleaned' (by rw [branches_append, untaken, took]; rfl) holds
  | taken cleaned took holds =>
      have cleaned' : ∃ e ∈ log ++ es, e.isCleaned = true :=
        cleaned.imp fun e both => ⟨List.mem_append_left _ both.1, both.2⟩
      rw [← requestsBeforeCleanup_append_of_cleaned cleaned es] at holds
      exact .taken cleaned' (by rw [branches_append, List.head?_append, took]; rfl) holds
  | ended cleaned untaken halted =>
      have cleaned' : ∃ e ∈ log ++ es, e.isCleaned = true :=
        cleaned.imp fun e both => ⟨List.mem_append_left _ both.1, both.2⟩
      obtain ⟨there, none⟩ := move.halted halted
      exact .ended cleaned' (by rw [branches_append, untaken, none]; rfl) there

theorem Phase.exec {command : PlayerCmd} {s t : State} {log : List Event} (inv : Inv s)
    (phase : Phase command s []) (run : machine.Runs s t log) : Phase command t log := by
  obtain ⟨as, run⟩ := run
  have keep : ∀ (u : State) (before : List Event) (a : Action) (v : State) (es : List Event),
      Inv u ∧ Phase command u before → machine.step u a = some (v, es) →
      Inv v ∧ Phase command v (before ++ es) := by
    rintro u before a v es ⟨inv, phase⟩ move
    exact ⟨inv.keep (step_move move), phase.keep inv (step_move move)⟩
  exact (exec_rec keep [] ⟨inv, phase⟩ run).2

/-- A player that is shut down ends without a branch once its child is reaped. -/
structure Closing (s : State) : Prop where
  off : s.player.running = false
  at_ : s.Recorded ∨ (∃ pending, s.play = .exitTest pending) ∨ s.play.Halted

theorem Closing.keep {s t : State} {a : Action} {es : List Event} (closing : Closing s)
    (move : Move s a t es) : Closing t ∧ branches es = [] := by
  obtain ⟨off, at_⟩ := closing
  have off' := move.off off
  rcases at_ with recorded | ⟨pending, at_⟩ | halted
  · rcases move.recorded recorded with ⟨pid, rfl, there⟩ | ⟨still, -, none⟩
    · exact ⟨⟨off', .inr (.inl ⟨_, there⟩)⟩, rfl⟩
    · exact ⟨⟨off', .inl still⟩, none⟩
  · cases mine : a.ofPlayer with
    | false =>
        have same := move.untouched mine
        have there : t.play = .exitTest pending := (same.play_eq (by simp [at_])).trans at_
        exact ⟨⟨off', .inr (.inl ⟨pending, there⟩)⟩, same.branches_eq⟩
    | true =>
        cases move with
        | exitOff => exact ⟨⟨off', .inr (.inr (.inl rfl))⟩, rfl⟩
        | _ => simp_all [Action.ofPlayer]
  · obtain ⟨there, none⟩ := move.halted halted
    exact ⟨⟨off', .inr (.inr there)⟩, none⟩

theorem Closing.exec {s t : State} {log : List Event} (closing : Closing s)
    (run : machine.Runs s t log) : branches log = [] := by
  obtain ⟨as, run⟩ := run
  have keep : ∀ (u : State) (before : List Event) (a : Action) (v : State) (es : List Event),
      Closing u ∧ branches before = [] → machine.step u a = some (v, es) →
      Closing v ∧ branches (before ++ es) = [] := by
    rintro u before a v es ⟨closing, none⟩ move
    obtain ⟨after, still⟩ := closing.keep (step_move move)
    exact ⟨after, by rw [branches_append, none, still]; rfl⟩
  exact (exec_rec keep [] ⟨closing, rfl⟩ run).2

/-! ### Runs of requests on a recorded child -/

theorem commandEvents_isCleaned {player : Player} {now : Timeval} {r : Request}
    {command : PlayerCmd} {reply : Reply} :
    ∀ e ∈ commandEvents player now r command reply, e.isCleaned = false := by
  intro e mem
  have other := commandEvents_ofPlayer player now r command reply e mem
  cases e <;> first | rfl | cases other

/-- What a run of requests on a recorded child leaves. -/
structure Answered (s t : State) (log : List Event) (requests : List Request) : Prop where
  run : machine.Runs s t log
  answers : (answers log).map Prod.fst = requests
  unclean : ∀ e ∈ log, e.isCleaned = false
  play : t.play = s.play
  idle : t.resp = .idle
  running : t.player.running = s.player.running

theorem State.Recorded.calls {s : State} (at_ : s.Recorded) (idle : s.resp = .idle) {r : Request}
    {command : PlayerCmd} {reply : Reply} (decided : r.decide s.player = .call command reply) :
    ∃ t log, Answered s t log [r] := by
  have call : Move s (.request r) { s with resp := .calling r command reply } [] :=
    .call idle (fun _ => at_.free) decided
  have executed : Move { s with resp := .calling r command reply } (.command ⟨0, 0⟩)
      (State.commanded { s with resp := .calling r command reply } ⟨0, 0⟩ command)
      (commandEvents s.player ⟨0, 0⟩ r command reply) := .command rfl at_.free
  refine ⟨_, _, call.then executed.runs, by simp, commandEvents_isCleaned,
    PlayAt.signalled_of_ne at_.awake, rfl, ?_⟩
  simp [State.commanded]

/-- PAUSE and PLAY are answered while the child is recorded. -/
theorem State.Recorded.answers {s : State} (at_ : s.Recorded) (inv : Inv s)
    (idle : s.resp = .idle) {r : Request} (only : r = .pause ∨ r = .play) :
    ∃ t log, Answered s t log [r] := by
  have recorded := inv.childPid_pos.mpr at_
  rcases only with rfl | rfl
  · exact at_.calls idle rfl
  · cases paused : s.player.childPaused with
    | true =>
        have decided : Request.decide s.player .play = .call .resume (.text "play") := by
          simp [Request.decide, cmdPlay, paused]
        exact at_.calls idle decided
    | false =>
        have child : s.player.childPid ≠ 0 := by omega
        have decided : Request.decide s.player .play = .answer (.text "play") := by
          simp [Request.decide, cmdPlay, paused, child]
        exact ⟨s, _, (Move.answer idle (fun _ => at_.free) decided).runs, rfl,
          by simp [Event.isCleaned], rfl, idle, rfl⟩

theorem State.Recorded.answersAll {s : State} (at_ : s.Recorded) (inv : Inv s)
    (idle : s.resp = .idle) {requests : List Request} (only : OnlyPausePlay requests) :
    ∃ t log, Answered s t log requests := by
  induction requests generalizing s with
  | nil => exact ⟨s, [], Runs.refl s, rfl, by simp, rfl, idle, rfl⟩
  | cons r requests ih =>
      obtain ⟨m, front, first⟩ := at_.answers inv idle (only r List.mem_cons_self)
      obtain ⟨as, exec⟩ := first.run
      have there : m.Recorded := by simpa only [State.Recorded, first.play] using at_
      obtain ⟨t, back, rest⟩ := ih there (inv.exec exec) first.idle
        fun r mem => only r (List.mem_cons_of_mem _ mem)
      refine ⟨t, front ++ back, first.run.trans rest.run, ?_, fun e mem => ?_,
        rest.play.trans first.play, rest.idle, rest.running.trans first.running⟩
      · simp [first.answers, rest.answers]
      · exact (List.mem_append.mp mem).elim (first.unclean e) (rest.unclean e)

theorem dispatch_moves {s : State} {pending : PlayerCmd} (at_ : s.play = .dispatch pending) :
    ∃ t es, Move s .play t es ∧ branches es = [pending.branch] := by
  have forwards : pending.branch = .forward →
      ∃ t es, Move s .play t es ∧ branches es = [pending.branch] := by
    intro forward
    rw [forward]
    cases moved : forwardPlaylist s.player.loop s.player.playlist with
    | none => exact ⟨_, _, .tookEnd at_ forward moved, rfl⟩
    | some out =>
        exact ⟨_, _, .tookForward at_ forward moved,
          congrArg (Branch.forward :: ·) (branches_broadcastUri _)⟩
  cases pending with
  | stop => exact ⟨_, _, .tookStop at_, rfl⟩
  | replay => exact ⟨_, _, .tookReplay at_, rfl⟩
  | prev =>
      cases moved : backwardPlaylist s.player.playlist with
      | none => exact ⟨_, _, .tookPrevStay at_ moved, rfl⟩
      | some out =>
          exact ⟨_, _, .tookPrev at_ moved, congrArg (Branch.prev :: ·) (branches_broadcastUri _)⟩
  | none | next | pause | resume => exact forwards rfl

/-- The child may exit at once, and a running player then takes the branch of what is
pending. -/
theorem State.Recorded.branch {s : State} (at_ : s.Recorded) (inv : Inv s)
    (running : s.player.running = true) :
    ∃ t log, machine.Runs s t log ∧ requestsBeforeCleanup log = [] ∧
      branches log = [s.player.pendingCommand.branch] := by
  have fromCleanup : ∀ (u : State) (pid : Nat), u.play = .cleanup pid → u.player = s.player →
      ∃ t log, machine.Runs u t log ∧ requestsBeforeCleanup log = [] ∧
        branches log = [s.player.pendingCommand.branch] := by
    intro u pid here same
    have cleaned := Move.cleanup here
    have goesOn := Move.exitOn rfl (same ▸ running) (s := { u with
      player.pendingCommand := .none
      player.childPid := 0
      player.childPaused := false
      player.childStartTime := ⟨0, 0⟩
      play := .exitTest u.player.pendingCommand })
    obtain ⟨t, es, move, took⟩ := dispatch_moves (s := State.jump { u with
      player.pendingCommand := .none
      player.childPid := 0
      player.childPaused := false
      player.childStartTime := ⟨0, 0⟩
      play := .exitTest u.player.pendingCommand } (.dispatch u.player.pendingCommand)) rfl
    refine ⟨t, _, cleaned.runs.trans (goesOn.then move.runs), rfl, ?_⟩
    rw [branches_append, took, same]
    rfl
  obtain ⟨pid, here | here⟩ := at_
  · have pids : s.children.map Child.pid = [pid] := by rw [inv.children, here]; rfl
    obtain ⟨child, mem, is⟩ := List.mem_map.mp (pids ▸ List.mem_singleton_self pid)
    have exits : Move s (.exit pid) { s with
        children := s.children.map fun child =>
          if child.pid = pid then { child with exited := true } else child } [] := .exit
    have reaps := Move.reap here ⟨{ child with exited := true },
      List.mem_map.mpr ⟨child, mem, by rw [if_pos is]⟩, is, rfl⟩ (s := { s with
        children := s.children.map fun child =>
          if child.pid = pid then { child with exited := true } else child })
    obtain ⟨t, log, run, none, took⟩ := fromCleanup { s with
      children := (s.children.map fun child =>
        if child.pid = pid then { child with exited := true } else child).filter (·.pid ≠ pid)
      play := .cleanup pid } pid rfl rfl
    exact ⟨t, _, exits.then (reaps.runs.trans run), none, by rw [branches_append, took]; rfl⟩
  · exact fromCleanup s pid here rfl

theorem Pends.branch_of_pause {command pending : PlayerCmd} {requests : List Request}
    (pends : Pends command requests pending) (paused : .pause ∈ requests) :
    pending.branch = .forward := by
  rcases pends with ⟨none, _⟩ | ⟨_, is | is⟩
  · exact absurd paused none
  · rw [is]; rfl
  · rw [is]; rfl

theorem Pends.eq_of_unpaused {command pending : PlayerCmd} {requests : List Request}
    (pends : Pends command requests pending) (unpaused : .pause ∉ requests) :
    pending = command := by
  rcases pends with ⟨_, is⟩ | ⟨paused, _⟩
  · exact is
  · exact absurd paused unpaused

/-- Before the cleanup no branch has been taken. -/
theorem Phase.of_unclean {command : PlayerCmd} {s : State} {log : List Event}
    (phase : Phase command s log) (unclean : ∀ e ∈ log, e.isCleaned = false) :
    branches log = [] ∧ (OnlyPausePlay (requestsBeforeCleanup log) →
      Overwriting s command (requestsBeforeCleanup log)) := by
  cases phase with
  | living _ untaken _ holds => exact ⟨untaken, holds⟩
  | deciding cleaned | taken cleaned | ended cleaned =>
      obtain ⟨e, mem, is⟩ := cleaned
      simp [unclean e mem] at is

/-- The first branch is that of what was pending at the cleanup. -/
theorem Phase.of_head {command : PlayerCmd} {s : State} {log : List Event}
    (phase : Phase command s log) {b : Branch} (head : (branches log).head? = some b) :
    ∃ pending : PlayerCmd, b = pending.branch ∧ (OnlyPausePlay (requestsBeforeCleanup log) →
      Pends command (requestsBeforeCleanup log) pending) := by
  cases phase with
  | living _ untaken | deciding _ untaken | ended _ untaken => simp [untaken] at head
  | @taken pending _ took holds =>
      rw [took, Option.some.injEq] at head
      exact ⟨pending, head.symm, holds⟩

theorem State.Recorded.commanded {s : State} (at_ : s.Recorded) (now : Timeval)
    (command : PlayerCmd) : (s.commanded now command).Recorded := by
  simpa only [State.Recorded, State.commanded, PlayAt.signalled_of_ne at_.awake] using at_

/-- Where a run begins that has just executed NEXT, PREV or STOP on a recorded child. -/
theorem State.Recorded.phase {s : State} (at_ : s.Recorded) (recorded : 0 < s.player.childPid)
    {command : PlayerCmd} (ends : command.Ends) (now : Timeval) :
    Phase command (s.commanded now command) [] := by
  refine .living (by simp) rfl (at_.commanded now command) fun _ => ?_
  constructor
  · intro on
    have unpaused : (s.commanded now command).player.childPaused = false :=
      (commandPlayer_ends now recorded ends).1
    simp [unpaused] at on
  · simp [State.commanded]
  · simp [State.commanded]
  · exact .inl ⟨by simp [requestsBeforeCleanup, OdroidPlayer.answers], by simp [State.commanded]⟩

/-- A PAUSE among the requests turns the branch into the default one. -/
theorem State.Recorded.overwritten {s : State} (at_ : s.Recorded) (inv : Inv s)
    (idle : s.resp = .idle) (running : s.player.running = true) {command : PlayerCmd}
    (phase : Phase command s []) {requests : List Request} (only : OnlyPausePlay requests)
    (paused : .pause ∈ requests) :
    ∃ t log, machine.Runs s t log ∧ requestsBeforeCleanup log = requests ∧
      (branches log).head? = some .forward := by
  obtain ⟨m, log, answered⟩ := at_.answersAll inv idle only
  have listed : requestsBeforeCleanup log = requests :=
    (requestsBeforeCleanup_of_unclean answered.unclean).trans answered.answers
  have there : m.Recorded := by simpa only [State.Recorded, answered.play] using at_
  obtain ⟨untaken, holds⟩ := (phase.exec inv answered.run).of_unclean answered.unclean
  have pends := (holds (listed ▸ only)).pending.branch_of_pause (listed ▸ paused)
  obtain ⟨as, exec⟩ := answered.run
  obtain ⟨u, back, run, none, took⟩ :=
    there.branch (inv.exec exec) (by rw [answered.running, running])
  refine ⟨u, log ++ back, answered.run.trans run, ?_, ?_⟩
  · rw [requestsBeforeCleanup_append_of_unclean answered.unclean, listed, none, List.append_nil]
  · rw [branches_append, untaken, took, pends]
    rfl

/-- The command accepted for a recorded child decides the branch exactly when it asks
for the default branch, no PAUSE follows it, or the player is being shut down. -/
theorem obeyed_iff {s : State} (reach : Reachable s) (recorded : 0 < s.player.childPid)
    {r : Request} {command : PlayerCmd} {reply : Reply}
    (calling : s.resp = .calling r command reply)
    (asks : command = .next ∨ command = .prev ∨ command = .stop) {requests : List Request}
    (only : OnlyPausePlay requests) (now : Timeval) :
    Obeyed (s.commanded now command) command requests ↔
      command = .next ∨ .pause ∉ requests ∨ s.player.running = false := by
  have at_ : s.Recorded := reach.inv.childPid_pos.mp recorded
  have inv : Inv (s.commanded now command) := reach.inv.command now command at_.free
  have there := at_.commanded now command
  have same : (s.commanded now command).player.running = s.player.running := by
    simp [State.commanded]
  have ends : command.Ends := by rcases asks with rfl | rfl | rfl <;> trivial
  have start := at_.phase recorded ends now
  constructor
  · intro obeyed
    by_contra wrong
    simp only [not_or, not_not, Bool.not_eq_false] at wrong
    obtain ⟨notNext, paused, running⟩ := wrong
    obtain ⟨t, log, run, listed, took⟩ :=
      there.overwritten inv rfl (same.trans running) start only paused
    have asked := obeyed t log run listed .forward took
    rcases asks with rfl | rfl | rfl
    · exact notNext rfl
    · cases asked
    · cases asked
  · rintro holds t log run listed b head
    obtain ⟨pending, rfl, pends⟩ := (start.exec inv run).of_head head
    have pends := listed ▸ pends (listed ▸ only)
    rcases holds with next | unpaused | off
    · by_cases paused : .pause ∈ requests
      · rw [pends.branch_of_pause paused, next]
        rfl
      · rw [pends.eq_of_unpaused paused]
    · rw [pends.eq_of_unpaused unpaused]
    · have closing : Closing (s.commanded now command) := ⟨same.trans off, .inl there⟩
      simp [closing.exec run] at head

/-- A playing player of two files whose response thread is about to execute a STOP. -/
def playerAtStop : State where
  player := { createPlayer false with
    playlist := ⟨["a.mp4", "b.mp4"], 0⟩
    running := true
    childPid := 7 }
  children := [⟨7, "a.mp4", false, false, false⟩]
  play := .waitpid 7
  resp := .calling .stop .stop (.text "stop")
  stopping := 0

theorem playerAtStop_reachable : Reachable playerAtStop :=
  ⟨_, startPlayer { createPlayer false with playlist := ⟨["a.mp4", "b.mp4"], 0⟩ },
    ⟨false, ["a.mp4", "b.mp4"], _, rfl, rfl⟩,
    [.play, .play, .play, .play, .play, .play, .fork (some 7), .record ⟨0, 0⟩, .request .stop],
    rfl⟩

/-- A PAUSE between the STOP and the reaping turns the stop into a move forward. -/
theorem stop_overwritten_by_pause : Reachable playerAtStop ∧
    0 < playerAtStop.player.childPid ∧
    playerAtStop.resp = .calling .stop .stop (.text "stop") ∧
    ¬ Obeyed (playerAtStop.commanded ⟨0, 0⟩ .stop) .stop [.pause] := by
  refine ⟨playerAtStop_reachable, by decide, rfl, fun obeyed => ?_⟩
  have asked := obeyed _ _ ⟨[.exit 7, .request .pause, .command ⟨0, 0⟩, .waitpid .reaped, .play,
    .play, .play], rfl⟩ rfl .forward rfl
  cases asked

theorem obeyed_stop_play_play :
    Obeyed (playerAtStop.commanded ⟨0, 0⟩ .stop) .stop [.play, .play] ↔
      PlayerCmd.stop = .next ∨ Request.pause ∉ [Request.play, .play] ∨
        playerAtStop.player.running = false :=
  obeyed_iff playerAtStop_reachable (by decide) rfl (.inr (.inr rfl)) (by simp [OnlyPausePlay])
    ⟨0, 0⟩

end OdroidPlayer
