import OdroidPlayer.Player.Machine

/-!
What one step of the player can do.

`Move` lists the steps, one constructor for each branch of the source, with its guard
and the state it leaves. `step_move` shows that the step function makes no other step,
so an invariant is proved by cases on `Move` and never unfolds the step function.
-/

namespace OdroidPlayer

inductive Move (s : State) : Action → State → List Event → Prop where
  | loopOn (at_ : s.play = .loopTest) (on : s.player.running = true) :
      Move s .play (s.jump .waitLock) []
  | loopOff (at_ : s.play = .loopTest) (off : s.player.running = false) :
      Move s .play (s.jump .stopPlayer) []
  | lock (at_ : s.play = .waitLock) : Move s .play (s.jump .waitTest) []
  | mayWait (at_ : s.play = .waitTest) (stopped : s.player.childStopped = true)
      (nothing : s.player.pendingCommand = .none) : Move s .play (s.jump .waitRunning) []
  | noWait (at_ : s.play = .waitTest)
      (awake : s.player.childStopped = true → s.player.pendingCommand ≠ .none) :
      Move s .play (s.jump .runningTest) []
  | wait (at_ : s.play = .waitRunning) (on : s.player.running = true) :
      Move s .play (s.jump .condWait) []
  | waitOff (at_ : s.play = .waitRunning) (off : s.player.running = false) :
      Move s .play (s.jump .runningTest) []
  | goOn (at_ : s.play = .runningTest) (on : s.player.running = true) :
      Move s .play (s.jump .stoppedTest) []
  | goOff (at_ : s.play = .runningTest) (off : s.player.running = false) :
      Move s .play (s.jump .stopPlayer) []
  | consume (at_ : s.play = .stoppedTest) (stopped : s.player.childStopped = true)
      (some_ : s.player.pendingCommand ≠ .none) :
      Move s .play { s with
        player.pendingCommand := .none
        player.childStopped := false
        play := .wakeup s.player.pendingCommand } []
  | pass (at_ : s.play = .stoppedTest)
      (not_ : ¬ (s.player.childStopped = true ∧ s.player.pendingCommand ≠ .none)) :
      Move s .play (s.jump .readUri) []
  | wakeupMove {command : PlayerCmd} {playlist : Playlist} {uri : Option String}
      (at_ : s.play = .wakeup command)
      (moved : command = .next ∧
          forwardPlaylist s.player.loop s.player.playlist = some (playlist, uri) ∨
        command = .prev ∧ backwardPlaylist s.player.playlist = some (playlist, uri)) :
      Move s .play { s with player.playlist := playlist, play := .readUri } (broadcastUri uri)
  | wakeupStay {command : PlayerCmd} (at_ : s.play = .wakeup command)
      (next : command = .next → forwardPlaylist s.player.loop s.player.playlist = none)
      (prev : command = .prev → backwardPlaylist s.player.playlist = none) :
      Move s .play (s.jump .readUri) []
  | noUri (at_ : s.play = .readUri)
      (missing : getPlaylistUri s.player.playlist s.player.playlist.curIdx = none) :
      Move s .play (s.jump .stopPlayer) []
  | uri {uri : String} (at_ : s.play = .readUri)
      (found : getPlaylistUri s.player.playlist s.player.playlist.curIdx = some uri) :
      Move s .play (s.jump (.spawn uri)) []
  | retry (at_ : s.play = .retrySleep) : Move s .play (s.jump .loopTest) []
  | cleanup {pid : Nat} (at_ : s.play = .cleanup pid) :
      Move s .play { s with
        player.pendingCommand := .none
        player.childPid := 0
        player.childPaused := false
        player.childStartTime := ⟨0, 0⟩
        play := .exitTest s.player.pendingCommand } [.cleaned pid s.player.pendingCommand]
  | exitOn {pending : PlayerCmd} (at_ : s.play = .exitTest pending)
      (on : s.player.running = true) : Move s .play (s.jump (.dispatch pending)) []
  | exitOff {pending : PlayerCmd} (at_ : s.play = .exitTest pending)
      (off : s.player.running = false) : Move s .play (s.jump .stopPlayer) []
  | tookStop (at_ : s.play = .dispatch .stop) : Move s .play (s.jump .setStopped) [.took .stop]
  | tookPrev {playlist : Playlist} {uri : Option String} (at_ : s.play = .dispatch .prev)
      (moved : backwardPlaylist s.player.playlist = some (playlist, uri)) :
      Move s .play { s with player.playlist := playlist, play := .loopTest }
        (.took .prev :: broadcastUri uri)
  | tookPrevStay (at_ : s.play = .dispatch .prev)
      (refused : backwardPlaylist s.player.playlist = none) :
      Move s .play (s.jump .loopTest) [.took .prev]
  | tookReplay (at_ : s.play = .dispatch .replay) :
      Move s .play (s.jump .loopTest) [.took .replay]
  | tookForward {pending : PlayerCmd} {playlist : Playlist} {uri : Option String}
      (at_ : s.play = .dispatch pending) (forward : pending.branch = .forward)
      (moved : forwardPlaylist s.player.loop s.player.playlist = some (playlist, uri)) :
      Move s .play { s with player.playlist := playlist, play := .loopTest }
        (.took .forward :: broadcastUri uri)
  | tookEnd {pending : PlayerCmd} (at_ : s.play = .dispatch pending)
      (forward : pending.branch = .forward)
      (refused : forwardPlaylist s.player.loop s.player.playlist = none) :
      Move s .play (s.jump .endOfPlaylist) [.took .forward]
  | setStopped (at_ : s.play = .setStopped) :
      Move s .play { s with player.childStopped := true, play := .loopTest } []
  | endOfPlaylist (at_ : s.play = .endOfPlaylist) :
      Move s .play { s with player.running := false, play := .stopPlayer } []
  | stopPlayer (at_ : s.play = .stopPlayer) :
      Move s .play { s with player.running := false, play := .finished } []
  | forkFailed {uri : String} (at_ : s.play = .spawn uri) :
      Move s (.fork none) (s.jump .retrySleep) []
  | fork {uri : String} {pid : Nat} (at_ : s.play = .spawn uri) (pos : 0 < pid)
      (fresh : ∀ child ∈ s.children, child.pid ≠ pid) :
      Move s (.fork (some pid)) { s with
        children := s.children ++ [⟨pid, uri, false, false, false⟩]
        play := .record pid } [.spawned pid uri]
  | record {pid : Nat} {now : Timeval} (at_ : s.play = .record pid) :
      Move s (.record now) { s with
        player.childPid := pid
        player.childPaused := false
        player.pausedOffsetUs := 0
        player.childStartTime := now
        play := .waitpid pid } [.recorded pid]
  | reap {pid : Nat} (at_ : s.play = .waitpid pid)
      (zombie : ∃ child ∈ s.children, child.pid = pid ∧ child.exited = true) :
      Move s (.waitpid .reaped) { s with
        children := s.children.filter (·.pid ≠ pid)
        play := .cleanup pid } [.reaped pid]
  | eintr {pid : Nat} (at_ : s.play = .waitpid pid) : Move s (.waitpid .eintr) s []
  | waitFailed {pid : Nat} (at_ : s.play = .waitpid pid)
      (stranger : ∀ child ∈ s.children, child.pid ≠ pid) :
      Move s (.waitpid .failed) (s.jump (.cleanup pid)) []
  | spuriousWakeup (at_ : s.play = .condWait) : Move s .spuriousWakeup (s.jump .waitLock) []
  | answer {r : Request} {reply : Reply} (idle : s.resp = .idle)
      (free : r = .play → s.play.holdsMutex = false)
      (decided : r.decide s.player = .answer reply) : Move s (.request r) s [.answered r reply]
  | call {r : Request} {command : PlayerCmd} {reply : Reply} (idle : s.resp = .idle)
      (free : r = .play → s.play.holdsMutex = false)
      (decided : r.decide s.player = .call command reply) :
      Move s (.request r) { s with resp := .calling r command reply } []
  | crash {r : Request} (idle : s.resp = .idle) (free : r = .play → s.play.holdsMutex = false)
      (decided : r.decide s.player = .crash) : Move s (.request r) { s with resp := .crashed } []
  | command {r : Request} {command : PlayerCmd} {reply : Reply} {now : Timeval}
      (calling : s.resp = .calling r command reply) (free : s.play.holdsMutex = false) :
      Move s (.command now) (s.commanded now command)
        (.executed command :: (commandPlayer now command s.player).2.map (.killed s.player.childPid)
          ++ [.answered r reply])
  | exit {pid : Nat} :
      Move s (.exit pid) { s with
        children := s.children.map fun child =>
          if child.pid = pid then { child with exited := true } else child } []
  | shutdown :
      Move s .shutdown { s with player.running := false, stopping := s.stopping + 1 } []
  | shutdownSignal (waiting : 0 < s.stopping) (free : s.play.holdsMutex = false) :
      Move s .shutdownSignal
        { s with play := s.play.signalled, stopping := s.stopping - 1 } []

/-- `forward_playlist` and `backward_playlist` with the result thrown away. -/
theorem orStay_forward (s : State) :
    (∃ playlist uri, forwardPlaylist s.player.loop s.player.playlist = some (playlist, uri) ∧
      s.orStay s.forward = ({ s with player.playlist := playlist }, broadcastUri uri)) ∨
    (forwardPlaylist s.player.loop s.player.playlist = none ∧ s.orStay s.forward = (s, [])) := by
  cases h : forwardPlaylist s.player.loop s.player.playlist with
  | none => exact .inr ⟨rfl, by simp [State.orStay, State.forward, h]⟩
  | some out => exact .inl ⟨out.1, out.2, rfl, by simp [State.orStay, State.forward, h]⟩

theorem orStay_backward (s : State) :
    (∃ playlist uri, backwardPlaylist s.player.playlist = some (playlist, uri) ∧
      s.orStay s.backward = ({ s with player.playlist := playlist }, broadcastUri uri)) ∨
    (backwardPlaylist s.player.playlist = none ∧ s.orStay s.backward = (s, [])) := by
  cases h : backwardPlaylist s.player.playlist with
  | none => exact .inr ⟨rfl, by simp [State.orStay, State.backward, h]⟩
  | some out => exact .inl ⟨out.1, out.2, rfl, by simp [State.orStay, State.backward, h]⟩

/-- A branch on a flag of the player jumps to one of two statements. -/
theorem jump_ite {s t : State} {flag : Prop} [Decidable flag] {yes no : PlayAt} {es : List Event}
    (h : some (s.jump (if flag then yes else no), ([] : List Event)) = some (t, es)) :
    es = [] ∧ (flag ∧ t = s.jump yes ∨ ¬ flag ∧ t = s.jump no) := by
  simp only [Option.some.injEq, Prod.mk.injEq] at h
  obtain ⟨rfl, rfl⟩ := h
  by_cases holds : flag
  · exact ⟨rfl, .inl ⟨holds, by rw [if_pos holds]⟩⟩
  · exact ⟨rfl, .inr ⟨holds, by rw [if_neg holds]⟩⟩

theorem dispatch_move {s t : State} {pending : PlayerCmd} {es : List Event}
    (at_ : s.play = .dispatch pending) (h : runPlayer s = some (t, es)) : Move s .play t es := by
  have toForward : pending.branch = .forward → some s.takeForward = some (t, es) →
      Move s .play t es := by
    intro forward h
    rw [Option.some.injEq, State.takeForward] at h
    cases moved : forwardPlaylist s.player.loop s.player.playlist with
    | none =>
        simp only [State.forward, moved, Option.map_none, Prod.mk.injEq] at h
        obtain ⟨rfl, rfl⟩ := h
        exact .tookEnd at_ forward moved
    | some out =>
        simp only [State.forward, moved, Option.map_some, Prod.mk.injEq] at h
        obtain ⟨rfl, rfl⟩ := h
        exact .tookForward at_ forward moved
  cases pending with
  | stop =>
      simp only [runPlayer, at_, Option.some.injEq, Prod.mk.injEq] at h
      obtain ⟨rfl, rfl⟩ := h
      exact .tookStop at_
  | replay =>
      simp only [runPlayer, at_, Option.some.injEq, Prod.mk.injEq] at h
      obtain ⟨rfl, rfl⟩ := h
      exact .tookReplay at_
  | prev =>
      simp only [runPlayer, at_, Option.some.injEq, Prod.mk.injEq] at h
      obtain ⟨rfl, rfl⟩ := h
      rcases orStay_backward s with ⟨playlist, uri, moved, out⟩ | ⟨refused, out⟩
      · rw [out]
        exact .tookPrev at_ moved
      · rw [out]
        exact .tookPrevStay at_ refused
  | none | next | pause | resume =>
      simp only [runPlayer, at_] at h
      exact toForward rfl h

theorem runPlayer_move {s t : State} {es : List Event} (h : runPlayer s = some (t, es)) :
    Move s .play t es := by
  cases at_ : s.play with
  | dispatch pending => exact dispatch_move at_ h
  | loopTest =>
      simp only [runPlayer, at_] at h
      obtain ⟨rfl, ⟨on, rfl⟩ | ⟨off, rfl⟩⟩ := jump_ite h
      · exact .loopOn at_ on
      · exact .loopOff at_ (by simpa using off)
  | waitTest =>
      simp only [runPlayer, at_] at h
      obtain ⟨rfl, ⟨⟨stopped, nothing⟩, rfl⟩ | ⟨awake, rfl⟩⟩ := jump_ite h
      · exact .mayWait at_ stopped nothing
      · exact .noWait at_ fun stopped nothing => awake ⟨stopped, nothing⟩
  | waitRunning =>
      simp only [runPlayer, at_] at h
      obtain ⟨rfl, ⟨on, rfl⟩ | ⟨off, rfl⟩⟩ := jump_ite h
      · exact .wait at_ on
      · exact .waitOff at_ (by simpa using off)
  | runningTest =>
      simp only [runPlayer, at_] at h
      obtain ⟨rfl, ⟨on, rfl⟩ | ⟨off, rfl⟩⟩ := jump_ite h
      · exact .goOn at_ on
      · exact .goOff at_ (by simpa using off)
  | exitTest pending =>
      simp only [runPlayer, at_] at h
      obtain ⟨rfl, ⟨on, rfl⟩ | ⟨off, rfl⟩⟩ := jump_ite h
      · exact .exitOn at_ on
      · exact .exitOff at_ (by simpa using off)
  | stoppedTest =>
      simp only [runPlayer, at_] at h
      split at h <;> simp only [Option.some.injEq, Prod.mk.injEq] at h <;> obtain ⟨rfl, rfl⟩ := h
      · rename_i both
        exact .consume at_ both.1 both.2
      · rename_i not_
        exact .pass at_ not_
  | wakeup command =>
      simp only [runPlayer, at_, Option.some.injEq, Prod.mk.injEq] at h
      obtain ⟨rfl, rfl⟩ := h
      cases command with
      | next =>
          rcases orStay_forward s with ⟨playlist, uri, moved, out⟩ | ⟨refused, out⟩
          · rw [out]
            exact .wakeupMove at_ (.inl ⟨rfl, moved⟩)
          · rw [out]
            exact .wakeupStay at_ (fun _ => refused) (by simp)
      | prev =>
          rcases orStay_backward s with ⟨playlist, uri, moved, out⟩ | ⟨refused, out⟩
          · rw [out]
            exact .wakeupMove at_ (.inr ⟨rfl, moved⟩)
          · rw [out]
            exact .wakeupStay at_ (by simp) (fun _ => refused)
      | none | stop | pause | resume | replay => exact .wakeupStay at_ (by simp) (by simp)
  | readUri =>
      simp only [runPlayer, at_, getPlaylistCurIdx] at h
      cases found : getPlaylistUri s.player.playlist s.player.playlist.curIdx with
      | none =>
          simp only [found, Option.some.injEq, Prod.mk.injEq] at h
          obtain ⟨rfl, rfl⟩ := h
          exact .noUri at_ found
      | some uri =>
          simp only [found, Option.some.injEq, Prod.mk.injEq] at h
          obtain ⟨rfl, rfl⟩ := h
          exact .uri at_ found
  | waitLock | retrySleep | cleanup | setStopped | endOfPlaylist | stopPlayer =>
      simp only [runPlayer, at_, Option.some.injEq, Prod.mk.injEq] at h
      obtain ⟨rfl, rfl⟩ := h
      first
        | exact .lock at_
        | exact .retry at_
        | exact .cleanup at_
        | exact .setStopped at_
        | exact .endOfPlaylist at_
        | exact .stopPlayer at_
  | condWait | spawn | record | waitpid | finished => simp [runPlayer, at_] at h

theorem spawnChild_move {s t : State} {result : Option Nat} {es : List Event}
    (h : spawnChild s result = some (t, es)) : Move s (.fork result) t es := by
  unfold spawnChild at h
  split at h
  · rename_i at_
    simp only [Option.some.injEq, Prod.mk.injEq] at h
    obtain ⟨rfl, rfl⟩ := h
    exact .forkFailed at_
  · rename_i at_
    split at h
    · rename_i fresh
      simp only [Option.some.injEq, Prod.mk.injEq] at h
      obtain ⟨rfl, rfl⟩ := h
      exact .fork at_ fresh.1 fresh.2
    · cases h
  · cases h

theorem waitChild_move {s t : State} {result : WaitResult} {es : List Event}
    (h : waitChild s result = some (t, es)) : Move s (.waitpid result) t es := by
  unfold waitChild at h
  split at h
  · rename_i at_
    split at h
    · rename_i zombie
      simp only [Option.some.injEq, Prod.mk.injEq] at h
      obtain ⟨rfl, rfl⟩ := h
      exact .reap at_ zombie
    · cases h
  · rename_i at_
    simp only [Option.some.injEq, Prod.mk.injEq] at h
    obtain ⟨rfl, rfl⟩ := h
    exact .eintr at_
  · rename_i at_
    split at h
    · rename_i stranger
      simp only [Option.some.injEq, Prod.mk.injEq] at h
      obtain ⟨rfl, rfl⟩ := h
      exact .waitFailed at_ stranger
    · cases h
  · cases h

theorem startRequest_move {s t : State} {r : Request} {es : List Event}
    (h : startRequest s r = some (t, es)) : Move s (.request r) t es := by
  unfold startRequest at h
  cases idle : s.resp with
  | calling => simp [idle] at h
  | crashed => simp [idle] at h
  | idle =>
      simp only [idle] at h
      split at h
      · cases h
      · rename_i busy
        have free : r = .play → s.play.holdsMutex = false := by
          intro play
          simpa [play] using busy
        cases decided : r.decide s.player <;>
          simp only [decided, Option.some.injEq, Prod.mk.injEq] at h <;> obtain ⟨rfl, rfl⟩ := h
        · exact .answer idle free decided
        · exact .call idle free decided
        · exact .crash idle free decided

theorem callCommandPlayer_move {s t : State} {now : Timeval} {es : List Event}
    (h : callCommandPlayer s now = some (t, es)) : Move s (.command now) t es := by
  unfold callCommandPlayer at h
  cases calling : s.resp with
  | idle => simp [calling] at h
  | crashed => simp [calling] at h
  | calling r command reply =>
      simp only [calling] at h
      split at h
      · cases h
      · rename_i busy
        simp only [Option.some.injEq, Prod.mk.injEq] at h
        obtain ⟨rfl, rfl⟩ := h
        exact .command calling (by simpa using busy)

/-- The step function makes only the listed moves. -/
theorem step_move {s t : State} {a : Action} {es : List Event} (h : step s a = some (t, es)) :
    Move s a t es := by
  cases a with
  | play => exact runPlayer_move h
  | fork result => exact spawnChild_move h
  | waitpid result => exact waitChild_move h
  | request r => exact startRequest_move h
  | command now => exact callCommandPlayer_move h
  | record now =>
      simp only [step, recordChild] at h
      split at h
      · rename_i at_
        simp only [Option.some.injEq, Prod.mk.injEq] at h
        obtain ⟨rfl, rfl⟩ := h
        exact .record at_
      · cases h
  | spuriousWakeup =>
      simp only [step] at h
      split at h
      · rename_i at_
        simp only [Option.some.injEq, Prod.mk.injEq] at h
        obtain ⟨rfl, rfl⟩ := h
        exact .spuriousWakeup at_
      · cases h
  | exit pid =>
      simp only [step, Option.some.injEq, Prod.mk.injEq] at h
      obtain ⟨rfl, rfl⟩ := h
      exact .exit
  | shutdown =>
      simp only [step, Option.some.injEq, Prod.mk.injEq] at h
      obtain ⟨rfl, rfl⟩ := h
      exact .shutdown
  | shutdownSignal =>
      simp only [step] at h
      split at h
      · cases h
      · rename_i enabled
        simp only [not_or, Bool.not_eq_true] at enabled
        simp only [Option.some.injEq, Prod.mk.injEq] at h
        obtain ⟨rfl, rfl⟩ := h
        exact .shutdownSignal (by omega) enabled.2

/-- Conversely every listed move is one that the step function makes. -/
theorem Move.step {s t : State} {a : Action} {es : List Event} (move : Move s a t es) :
    step s a = some (t, es) := by
  cases move with
  | mayWait at_ stopped nothing => simp [OdroidPlayer.step, runPlayer, at_, stopped, nothing]
  | noWait at_ awake =>
      have not_ : ¬ (s.player.childStopped = true ∧ s.player.pendingCommand = .none) :=
        fun both => awake both.1 both.2
      simp only [OdroidPlayer.step, runPlayer, at_, if_neg not_]
  | consume at_ stopped some_ => simp [OdroidPlayer.step, runPlayer, at_, stopped, some_]
  | pass at_ not_ => simp only [OdroidPlayer.step, runPlayer, at_, if_neg not_]
  | wakeupMove at_ moved =>
      rcases moved with ⟨rfl, moved⟩ | ⟨rfl, moved⟩ <;>
        simp [OdroidPlayer.step, runPlayer, at_, State.orStay, State.forward, State.backward,
          moved, State.jump]
  | @wakeupStay command at_ next prev =>
      cases command <;>
        simp_all [OdroidPlayer.step, runPlayer, State.orStay, State.forward, State.backward]
  | noUri at_ found | uri at_ found =>
      simp [OdroidPlayer.step, runPlayer, at_, getPlaylistCurIdx, found]
  | tookPrev at_ moved | tookPrevStay at_ moved =>
      simp [OdroidPlayer.step, runPlayer, at_, State.orStay, State.backward, moved, State.jump]
  | @tookForward pending _ _ at_ forward moved | @tookEnd pending at_ forward moved =>
      cases pending with
      | stop | prev | replay => cases forward
      | none | next | pause | resume =>
          simp [OdroidPlayer.step, runPlayer, at_, State.takeForward, State.forward, moved,
            State.jump]
  | forkFailed at_ | record at_ | eintr at_ =>
      simp [OdroidPlayer.step, spawnChild, recordChild, waitChild, at_]
  | fork at_ pos fresh => simp only [OdroidPlayer.step, spawnChild, at_, if_pos (And.intro pos fresh)]
  | reap at_ found | waitFailed at_ found =>
      simp only [OdroidPlayer.step, waitChild, at_, if_pos found]
  | @answer r _ idle free decided | @call r _ _ idle free decided | @crash r idle free decided =>
      have enabled : ¬ (r = .play ∧ s.play.holdsMutex = true) := fun both => by
        simp [free both.1] at both
      simp only [OdroidPlayer.step, startRequest, idle, if_neg enabled, decided]
  | command calling free => simp [OdroidPlayer.step, callCommandPlayer, calling, free]
  | exit | shutdown => rfl
  | shutdownSignal waiting free =>
      have some_ : s.stopping ≠ 0 := by omega
      simp [OdroidPlayer.step, some_, free]
  | loopOn at_ flag | loopOff at_ flag | wait at_ flag | waitOff at_ flag | goOn at_ flag
  | goOff at_ flag | exitOn at_ flag | exitOff at_ flag =>
      simp [OdroidPlayer.step, runPlayer, at_, flag]
  | lock at_ | retry at_ | cleanup at_ | tookStop at_ | tookReplay at_ | setStopped at_
  | endOfPlaylist at_ | stopPlayer at_ | spuriousWakeup at_ =>
      simp [OdroidPlayer.step, runPlayer, at_]

end OdroidPlayer
