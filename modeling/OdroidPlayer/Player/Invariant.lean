import OdroidPlayer.Player.Moves

/-!
What holds in every state that the player reaches.

The statement at which the player thread stands fixes what is recorded: a pid is
recorded exactly at `waitpid` and at the cleanup (`Inv.recorded`), the one child not
yet reaped is known from the spawn to the reaping (`Inv.children`), and the player is
stopped only around the wait loop (`Inv.stopped`). The wait loop is left only for a
reason: a pending command or a shutdown (`Inv.drained`, `Inv.awake`).
-/

namespace OdroidPlayer

/-- The pid in `child_pid` while the player thread stands at a statement. -/
def PlayAt.recordedPid : PlayAt → Nat
  | .waitpid pid | .cleanup pid => pid
  | _ => 0

/-- The pids of the children spawned and not yet reaped. -/
def PlayAt.unreaped : PlayAt → List Nat
  | .record pid | .waitpid pid => [pid]
  | _ => []

def PlayAt.PidOk : PlayAt → Prop
  | .record pid | .waitpid pid | .cleanup pid => 0 < pid
  | _ => True

/-- The statements at which `child_stopped` may be set. -/
def PlayAt.mayBeStopped : PlayAt → Bool
  | .loopTest | .waitLock | .waitTest | .waitRunning | .condWait | .runningTest | .stoppedTest
  | .stopPlayer | .finished => true
  | _ => false

/-- The statements after the loop of `run_player`. -/
def PlayAt.Halted (at_ : PlayAt) : Prop := at_ = .stopPlayer ∨ at_ = .finished

section Signalled

variable (at_ : PlayAt)

@[simp] theorem PlayAt.signalled_recordedPid : at_.signalled.recordedPid = at_.recordedPid := by
  cases at_ <;> rfl

@[simp] theorem PlayAt.signalled_unreaped : at_.signalled.unreaped = at_.unreaped := by
  cases at_ <;> rfl

@[simp] theorem PlayAt.signalled_pidOk : at_.signalled.PidOk ↔ at_.PidOk := by
  cases at_ <;> exact Iff.rfl

@[simp] theorem PlayAt.signalled_mayBeStopped :
    at_.signalled.mayBeStopped = at_.mayBeStopped := by
  cases at_ <;> rfl

@[simp] theorem PlayAt.signalled_halted : at_.signalled.Halted ↔ at_.Halted := by
  cases at_ <;> simp [PlayAt.signalled, PlayAt.Halted]

variable {at_}

/-- A signal of `play_cond` only ever moves the thread to the lock. -/
theorem PlayAt.signalled_eq {target : PlayAt} (other : target ≠ .waitLock)
    (there : at_.signalled = target) : at_ = target := by
  cases at_ <;> simp_all [PlayAt.signalled]

end Signalled

@[simp] theorem Child.deliver_pid (child : Child) (signal : Signal) :
    (child.deliver signal).pid = child.pid := by
  unfold Child.deliver
  split
  · rfl
  · cases signal <;> rfl

@[simp] theorem Child.deliver_exited (child : Child) (signal : Signal) :
    (child.deliver signal).exited = child.exited := by
  unfold Child.deliver
  split
  · rfl
  · cases signal <;> rfl

/-- Signals leave the table of children as it is, but for the state of each child. -/
@[simp] theorem kill_pids (pid : Nat) (signals : List Signal) (children : List Child) :
    (signals.foldl (kill pid) children).map Child.pid = children.map Child.pid := by
  induction signals generalizing children with
  | nil => rfl
  | cons signal signals ih =>
      rw [List.foldl_cons, ih, kill, List.map_map]
      refine List.map_congr_left fun child _ => ?_
      simp only [Function.comp]
      split <;> simp

structure Inv (s : State) : Prop where
  range : s.player.playlist.InRange
  recorded : s.player.childPid = s.play.recordedPid
  children : s.children.map Child.pid = s.play.unreaped
  pidOk : s.play.PidOk
  stopped : s.player.childStopped = true → s.play.mayBeStopped = true
  drained : s.play = .runningTest → s.player.childStopped = true →
    s.player.pendingCommand = .none → s.player.running = false
  awake : s.play = .stoppedTest → s.player.childStopped = true →
    s.player.pendingCommand ≠ .none
  paused : s.player.childPaused = true → 0 < s.player.childPid
  halted : s.play.Halted → s.player.running = false
  alive : s.resp ≠ .crashed

/-- The two statements agree on what is recorded and unreaped. -/
structure PlayAt.Leads (source target : PlayAt) : Prop where
  recorded : target.recordedPid = source.recordedPid
  unreaped : target.unreaped = source.unreaped
  pidOk : target.PidOk

/-- A jump that changes nothing but the statement. -/
theorem Inv.jump {s : State} (inv : Inv s) {source target : PlayAt} (at_ : s.play = source)
    (leads : source.Leads target)
    (stopped : s.player.childStopped = true → target.mayBeStopped = true)
    (drained : target = .runningTest → s.player.childStopped = true →
      s.player.pendingCommand = .none → s.player.running = false)
    (awake : target = .stoppedTest → s.player.childStopped = true →
      s.player.pendingCommand ≠ .none)
    (halted : target.Halted → s.player.running = false) : Inv (s.jump target) where
  range := inv.range
  recorded := by rw [State.jump_player, inv.recorded, at_]; exact leads.recorded.symm
  children := by rw [State.jump_children, inv.children, at_]; exact leads.unreaped.symm
  pidOk := leads.pidOk
  stopped := stopped
  drained := drained
  awake := awake
  paused := inv.paused
  halted := halted
  alive := inv.alive

/-- Neither a test after the wait loop nor a statement after the main loop. -/
def PlayAt.Plain (at_ : PlayAt) : Prop := at_ ≠ .runningTest ∧ at_ ≠ .stoppedTest ∧ ¬ at_.Halted

/-- A jump to a plain statement that allows `child_stopped` where the source does. -/
theorem Inv.jump_plain {s : State} (inv : Inv s) {source target : PlayAt} (at_ : s.play = source)
    (leads : source.Leads target)
    (stopped : source.mayBeStopped = true → target.mayBeStopped = true)
    (plain : target.Plain) : Inv (s.jump target) :=
  inv.jump at_ leads (fun on => stopped (at_ ▸ inv.stopped on)) (fun there => absurd there plain.1)
    (fun there => absurd there plain.2.1) (fun there => absurd there plain.2.2)

/-- The loop is left once `running` is clear. -/
theorem Inv.halt {s : State} (inv : Inv s) {source target : PlayAt} (at_ : s.play = source)
    (leads : source.Leads target) (halted : target.Halted) (off : s.player.running = false) :
    Inv (s.jump target) := by
  rcases halted with rfl | rfl <;>
    exact inv.jump at_ leads (fun _ => rfl) (by simp) (by simp) (fun _ => off)

/-- A playlist function that moved left the index in range. -/
theorem forwardPlaylist_range {loop : Bool} {playlist moved : Playlist} {uri : Option String}
    (range : playlist.InRange) (move : forwardPlaylist loop playlist = some (moved, uri)) :
    moved.InRange ∧ moved.uriArr = playlist.uriArr := by
  rw [forwardPlaylist_eq range] at move
  obtain ⟨next, found, eq⟩ := Option.map_eq_some_iff.mp move
  cases eq
  exact ⟨forwardIdx_range range.1 range.2 found, rfl⟩

theorem backwardPlaylist_range {playlist moved : Playlist} {uri : Option String}
    (range : playlist.InRange) (move : backwardPlaylist playlist = some (moved, uri)) :
    moved.InRange ∧ moved.uriArr = playlist.uriArr := by
  rw [backwardPlaylist_eq range] at move
  obtain ⟨next, found, eq⟩ := Option.map_eq_some_iff.mp move
  cases eq
  exact ⟨backwardIdx_range range.2 found, rfl⟩

/-- A move of the playlist between two such statements. -/
theorem Inv.move {s : State} (inv : Inv s) {source target : PlayAt} {playlist : Playlist}
    (at_ : s.play = source) (range : playlist.InRange) (leads : source.Leads target)
    (stopped : source.mayBeStopped = true → target.mayBeStopped = true) (plain : target.Plain) :
    Inv { s with player.playlist := playlist, play := target } :=
  { inv.jump_plain at_ leads stopped plain with range := range }

/-- The flag `running` may be cleared at any statement. -/
theorem Inv.clearRunning {s : State} (inv : Inv s) : Inv { s with player.running := false } :=
  { inv with drained := fun _ _ _ => rfl, halted := fun _ => rfl }

theorem Inv.signalled {s : State} (inv : Inv s) : Inv { s with play := s.play.signalled } where
  range := inv.range
  recorded := by simpa using inv.recorded
  children := by simpa using inv.children
  pidOk := by simpa using inv.pidOk
  stopped := by simpa using inv.stopped
  drained := fun there => inv.drained (PlayAt.signalled_eq (by simp) there)
  awake := fun there => inv.awake (PlayAt.signalled_eq (by simp) there)
  paused := inv.paused
  halted := fun there => inv.halted (s.play.signalled_halted.mp there)
  alive := inv.alive

/-- `command_player` runs with `play_mutex` free, so not between the wait loop and the
unlock. -/
theorem Inv.command {s : State} (inv : Inv s) (now : Timeval) (command : PlayerCmd)
    (free : s.play.holdsMutex = false) :
    Inv (s.commanded now command) where
  range := by simpa [State.commanded] using inv.range
  recorded := by simpa [State.commanded] using inv.recorded
  children := by simpa [State.commanded] using inv.children
  pidOk := by simpa [State.commanded] using inv.pidOk
  stopped := by simpa [State.commanded] using inv.stopped
  drained := fun there => by simp [PlayAt.signalled_eq (by simp) there, PlayAt.holdsMutex] at free
  awake := fun there => by simp [PlayAt.signalled_eq (by simp) there, PlayAt.holdsMutex] at free
  paused := fun on => by
    by_contra none
    have unrecorded : s.player.childPid = 0 := by simpa [State.commanded] using none
    rw [State.commanded, commandPlayer_unrecorded now unrecorded] at on
    exact none (by simpa [State.commanded] using inv.paused on)
  halted := by simpa [State.commanded] using inv.halted
  alive := by simp [State.commanded]

/-- A spawned child is the only one. -/
theorem Inv.fork {s : State} (inv : Inv s) {uri : String} (at_ : s.play = .spawn uri) {pid : Nat}
    (pos : 0 < pid) :
    Inv { s with
      children := s.children ++ [⟨pid, uri, false, false, false⟩]
      play := .record pid } where
  range := inv.range
  recorded := by rw [inv.recorded, at_]; rfl
  children := by rw [List.map_append, inv.children, at_]; rfl
  pidOk := pos
  stopped := fun on => by simpa [at_, PlayAt.mayBeStopped] using inv.stopped on
  drained := by simp
  awake := by simp
  paused := inv.paused
  halted := by simp [PlayAt.Halted]
  alive := inv.alive

/-- The reaped child was the only one. -/
theorem Inv.reap {s : State} (inv : Inv s) {pid : Nat} (at_ : s.play = .waitpid pid) :
    Inv { s with children := s.children.filter (·.pid ≠ pid), play := .cleanup pid } where
  range := inv.range
  recorded := by rw [inv.recorded, at_]; rfl
  children := by
    have pids : s.children.map Child.pid = [pid] := by rw [inv.children, at_]; rfl
    have all : ∀ child ∈ s.children, child.pid = pid := fun child mem => by
      simpa [pids] using List.mem_map_of_mem (f := Child.pid) mem
    rw [List.filter_eq_nil_iff.mpr fun child mem => by simp [all child mem]]
    rfl
  pidOk := by simpa [at_, PlayAt.PidOk] using inv.pidOk
  stopped := fun on => by simpa [at_, PlayAt.mayBeStopped] using inv.stopped on
  drained := by simp
  awake := by simp
  paused := inv.paused
  halted := by simp [PlayAt.Halted]
  alive := inv.alive

/-- `cmd_next` answers with the uri that `forward_playlist` would move to, and refuses
exactly where it would. -/
theorem cmdNext_spec {player : Player} (range : player.playlist.InRange) :
    (forwardIdx player.loop player.playlist.uriArr.length player.playlist.curIdx = none ∧
      cmdNext player = .answer (.text "End of the playlist")) ∨
    ∃ next uri, forwardIdx player.loop player.playlist.uriArr.length player.playlist.curIdx =
        some next ∧ getPlaylistUri player.playlist next = some uri ∧
      cmdNext player = .call .next (.uri uri) := by
  obtain ⟨low, high⟩ := range
  by_cases inner : player.playlist.curIdx + 1 < player.playlist.uriArr.length
  · have notLast : ¬ (getPlaylistFilenum player.playlist : Int) ≤
        getPlaylistCurIdx player.playlist + 1 := not_le.mpr inner
    have low' : 0 ≤ player.playlist.curIdx + 1 := by omega
    obtain ⟨uri, found, _⟩ := getPlaylistUri_of_range low' inner
    refine .inr ⟨player.playlist.curIdx + 1, uri, if_pos inner, found, ?_⟩
    simp only [cmdNext, if_neg notLast, if_neg (fun both => notLast (And.left both))]
    simp only [getPlaylistCurIdx, found]
  · have last : (getPlaylistFilenum player.playlist : Int) ≤
        getPlaylistCurIdx player.playlist + 1 := not_lt.mp inner
    have first : (0 : Int) < player.playlist.uriArr.length := by omega
    obtain ⟨uri, found, _⟩ := getPlaylistUri_of_range (le_refl 0) first
    cases loop : player.loop with
    | false =>
        refine .inl ⟨by simp [forwardIdx, inner], ?_⟩
        simp only [cmdNext, if_pos (And.intro last loop)]
    | true =>
        have loops : ¬ ((getPlaylistFilenum player.playlist : Int) ≤
            getPlaylistCurIdx player.playlist + 1 ∧ player.loop = false) := by simp [loop]
        refine .inr ⟨0, uri, by simp [forwardIdx, inner], found, ?_⟩
        simp only [cmdNext, if_neg loops, if_pos last, found]

theorem cmdPrev_spec {player : Player} (range : player.playlist.InRange) :
    (backwardIdx player.playlist.curIdx = none ∧
      cmdPrev player = .answer (.text "Start of the playlist")) ∨
    ∃ next uri, backwardIdx player.playlist.curIdx = some next ∧
      getPlaylistUri player.playlist next = some uri ∧
      cmdPrev player = .call .prev (.uri uri) := by
  obtain ⟨low, high⟩ := range
  by_cases first : player.playlist.curIdx ≤ 0
  · have before : getPlaylistCurIdx player.playlist - 1 < 0 := by
      simp only [getPlaylistCurIdx]
      omega
    refine .inl ⟨if_pos first, ?_⟩
    simp only [cmdPrev, if_pos before]
  · have low' : 0 ≤ player.playlist.curIdx - 1 := by omega
    have high' : player.playlist.curIdx - 1 < player.playlist.uriArr.length := by omega
    have notBefore : ¬ getPlaylistCurIdx player.playlist - 1 < 0 := not_lt.mpr low'
    obtain ⟨uri, found, _⟩ := getPlaylistUri_of_range low' high'
    refine .inr ⟨player.playlist.curIdx - 1, uri, if_neg first, found, ?_⟩
    simp only [cmdPrev, if_neg notBefore]
    simp only [getPlaylistCurIdx, found]

/-- With an index in range no `cmd_*` function duplicates a NULL uri. -/
theorem Request.decide_ne_crash {player : Player} (range : player.playlist.InRange)
    (r : Request) : r.decide player ≠ .crash := by
  cases r with
  | stop | pause => simp [Request.decide, cmdStop, cmdPause]
  | play =>
      simp only [Request.decide, cmdPlay]
      split
      · simp
      · split <;> simp
  | next =>
      rcases cmdNext_spec range with ⟨_, decided⟩ | ⟨_, _, _, _, decided⟩ <;>
        simp [Request.decide, decided]
  | prev =>
      rcases cmdPrev_spec range with ⟨_, decided⟩ | ⟨_, _, _, _, decided⟩ <;>
        simp [Request.decide, decided]
  | uri =>
      obtain ⟨uri, _, found⟩ := getPlaylistUri_of_range range.1 range.2
      simp [Request.decide, cmdUri, getPlaylistCurrentUri, found]

/-- Every move keeps the invariant. -/
theorem Inv.keep {s t : State} {a : Action} {es : List Event} (inv : Inv s)
    (move : Move s a t es) : Inv t := by
  cases move with
  | loopOn at_ | lock at_ | mayWait at_ | wait at_ | wakeupStay at_ | uri at_ | retry at_
  | exitOn at_ | tookStop at_ | tookPrevStay at_ | tookReplay at_ | tookEnd at_ | forkFailed at_
  | spuriousWakeup at_ =>
      exact inv.jump_plain at_ ⟨rfl, rfl, trivial⟩ (by simp [PlayAt.mayBeStopped])
        (by simp [PlayAt.Plain, PlayAt.Halted])
  | loopOff at_ off | goOff at_ off | exitOff at_ off =>
      exact inv.halt at_ ⟨rfl, rfl, trivial⟩ (.inl rfl) off
  | noUri at_ missing =>
      obtain ⟨uri, found⟩ := inv.range.getPlaylistUri
      simp [missing] at found
  | noWait at_ awake =>
      exact inv.jump at_ ⟨rfl, rfl, trivial⟩ (fun _ => rfl)
        (fun _ stopped nothing => absurd nothing (awake stopped)) (by simp) (by simp [PlayAt.Halted])
  | waitOff at_ off =>
      exact inv.jump at_ ⟨rfl, rfl, trivial⟩ (fun _ => rfl) (fun _ _ _ => off) (by simp)
        (by simp [PlayAt.Halted])
  | goOn at_ on =>
      refine inv.jump at_ ⟨rfl, rfl, trivial⟩ (fun _ => rfl) (by simp) (fun _ stopped nothing => ?_)
        (by simp [PlayAt.Halted])
      simp [inv.drained at_ stopped nothing] at on
  | pass at_ not_ =>
      have unstopped : s.player.childStopped = true → False := fun stopped =>
        not_ ⟨stopped, inv.awake at_ stopped⟩
      exact inv.jump at_ ⟨rfl, rfl, trivial⟩ (fun stopped => (unstopped stopped).elim)
        (by simp) (by simp) (by simp [PlayAt.Halted])
  | consume at_ =>
      exact ⟨inv.range, by rw [inv.recorded, at_]; rfl, by rw [inv.children, at_]; rfl, trivial,
        by simp, by simp, by simp, inv.paused, by simp [PlayAt.Halted], inv.alive⟩
  | wakeupMove at_ moved =>
      have range := moved.elim (fun next => (forwardPlaylist_range inv.range next.2).1)
        (fun prev => (backwardPlaylist_range inv.range prev.2).1)
      exact inv.move at_ range ⟨rfl, rfl, trivial⟩ (by simp [PlayAt.mayBeStopped])
        (by simp [PlayAt.Plain, PlayAt.Halted])
  | tookPrev at_ moved =>
      exact inv.move at_ (backwardPlaylist_range inv.range moved).1 ⟨rfl, rfl, trivial⟩
        (fun _ => rfl) (by simp [PlayAt.Plain, PlayAt.Halted])
  | tookForward at_ _ moved =>
      exact inv.move at_ (forwardPlaylist_range inv.range moved).1 ⟨rfl, rfl, trivial⟩
        (fun _ => rfl) (by simp [PlayAt.Plain, PlayAt.Halted])
  | cleanup at_ =>
      refine ⟨inv.range, rfl, by rw [inv.children, at_]; rfl, trivial, fun on => ?_, by simp,
        by simp, by simp, by simp [PlayAt.Halted], inv.alive⟩
      simpa [at_, PlayAt.mayBeStopped] using inv.stopped on
  | setStopped at_ =>
      exact ⟨inv.range, by rw [inv.recorded, at_]; rfl, by rw [inv.children, at_]; rfl, trivial,
        fun _ => rfl, by simp, by simp, inv.paused, by simp [PlayAt.Halted], inv.alive⟩
  | endOfPlaylist at_ =>
      exact inv.clearRunning.halt at_ ⟨rfl, rfl, trivial⟩ (.inl rfl) rfl
  | stopPlayer at_ =>
      exact inv.clearRunning.halt at_ ⟨rfl, rfl, trivial⟩ (.inr rfl) rfl
  | fork at_ pos => exact inv.fork at_ pos
  | record at_ =>
      refine ⟨inv.range, rfl, by rw [inv.children, at_]; rfl, ?_, fun on => ?_, by simp, by simp,
        by simp, by simp [PlayAt.Halted], inv.alive⟩
      · simpa [at_, PlayAt.PidOk] using inv.pidOk
      · simpa [at_, PlayAt.mayBeStopped] using inv.stopped on
  | reap at_ => exact inv.reap at_
  | waitFailed at_ stranger =>
      have pids : s.children.map Child.pid = [_] := inv.children.trans (by rw [at_]; rfl)
      obtain ⟨child, mem, pid⟩ := List.mem_map.mp (pids ▸ List.mem_singleton_self _)
      exact absurd pid (stranger child mem)
  | eintr | answer => exact inv
  | call => exact { inv with alive := by simp }
  | crash _ _ decided => exact absurd decided (Request.decide_ne_crash inv.range _)
  | command _ free => exact inv.command _ _ free
  | exit =>
      refine { inv with children := ?_ }
      rw [← inv.children, List.map_map]
      refine List.map_congr_left fun child _ => ?_
      simp only [Function.comp]
      split <;> rfl
  | shutdown => exact { inv.clearRunning with }
  | shutdownSignal => exact { inv.signalled with }

theorem appendFiles_spec {playlist out : Playlist} {files : List String}
    (h : appendFiles playlist files = some out) :
    out.uriArr = playlist.uriArr ++ files ∧ out.curIdx = playlist.curIdx := by
  induction files generalizing playlist with
  | nil =>
      cases h
      simp
  | cons file files ih =>
      unfold appendFiles at h
      split at h
      · cases h
      · have rest := ih h
        simpa [appendPlaylist] using rest

/-- `prepare_player` accepts a nonempty list of files, in order, and starts at the first. -/
theorem preparePlayer_spec {isLoop : Bool} {filelist : List String} {player : Player}
    (h : preparePlayer (createPlayer isLoop) filelist = some player) :
    filelist ≠ [] ∧ player = { createPlayer isLoop with playlist := ⟨filelist, 0⟩ } := by
  unfold preparePlayer at h
  split at h
  · cases h
  · rename_i playlist appended
    obtain ⟨arr, idx⟩ := appendFiles_spec appended
    have eq : playlist = ⟨filelist, 0⟩ := by
      cases playlist
      simp_all [createPlayer, createPlaylist]
    split at h
    · cases h
    · rename_i some_
      cases h
      subst eq
      exact ⟨fun none => some_ (by simp [getPlaylistFilenum, none]), rfl⟩

theorem Init.inv {s : State} (init : Init s) : Inv s := by
  obtain ⟨isLoop, filelist, player, prepared, rfl⟩ := init
  obtain ⟨some_, rfl⟩ := preparePlayer_spec prepared
  have range : (⟨filelist, 0⟩ : Playlist).InRange := by
    have pos : 0 < filelist.length := List.length_pos_iff.mpr some_
    simp only [Playlist.InRange]
    omega
  exact ⟨range, rfl, rfl, trivial, by simp [startPlayer, createPlayer], by simp [startPlayer],
    by simp [startPlayer], by simp [startPlayer, createPlayer],
    by simp [startPlayer, PlayAt.Halted], by simp [startPlayer]⟩

theorem Reachable.inv {s : State} (reach : Reachable s) : Inv s :=
  Transition.System.Reachable.rec_inv reach (fun _ => Init.inv)
    fun _ _ _ _ inv move => inv.keep (step_move move)

/-- The invariant holds along every run. -/
theorem Inv.exec {s t : State} {as : List Action} {log : List Event} (inv : Inv s)
    (run : machine.exec s as = some (t, log)) : Inv t :=
  Transition.System.exec_rec (I := fun s _ => Inv s)
    (fun _ _ _ _ _ inv move => inv.keep (step_move move)) [] inv run

/-- A player of one file that has just been started. -/
def oneFile : State := startPlayer { createPlayer false with playlist := ⟨["a.mp4"], 0⟩ }

theorem oneFile_init : Init oneFile := ⟨false, ["a.mp4"], _, rfl, rfl⟩

end OdroidPlayer
