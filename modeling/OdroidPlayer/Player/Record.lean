import OdroidPlayer.Player.Runs

/-!
What `t_player` records of the playback child.

`run_player` writes the record in one critical section and forgets it in another, with
unlocked gaps before, between and after them, and `command_player` may run in every gap.
The record agrees with the child all the same: the pause flag says whether the child is
stopped, the start time whether there is one (`Recorded`), and the recorded child plays
the current entry of the playlist (`Playing`).
-/

namespace OdroidPlayer

open Transition.System

/-! ### The flags and the child -/

/-- `gettimeofday` does not report time zero when a child is recorded. -/
def NonzeroClock (_ : State) (a : Action) : Prop := ∀ now, a = .record now → now ≠ ⟨0, 0⟩

structure Recorded (s : State) : Prop where
  inv : Inv s
  clock : s.player.childStartTime = ⟨0, 0⟩ ↔ s.player.childPid = 0
  flag : ∀ child ∈ s.children, child.exited = false → child.stopped = s.player.childPaused

/-- The children reached by the signals are the old ones, the named child signalled. -/
theorem mem_foldl_kill {pid : Nat} {signals : List Signal} {children : List Child} {child : Child} :
    child ∈ signals.foldl (kill pid) children ↔
      ∃ old ∈ children, child = if old.pid = pid then signals.foldl Child.deliver old else old := by
  induction signals generalizing children with
  | nil => simp
  | cons signal signals ih =>
      rw [List.foldl_cons, ih]
      constructor
      · rintro ⟨mid, there, rfl⟩
        obtain ⟨old, mem, rfl⟩ := List.mem_map.mp there
        refine ⟨old, mem, ?_⟩
        by_cases named : old.pid = pid
        · simp only [named, if_true, Child.deliver_pid, List.foldl_cons]
        · simp only [named, if_false]
      · rintro ⟨old, mem, rfl⟩
        refine ⟨_, List.mem_map.mpr ⟨old, mem, rfl⟩, ?_⟩
        by_cases named : old.pid = pid
        · simp only [named, if_true, Child.deliver_pid, List.foldl_cons]
        · simp only [named, if_false]

@[simp] theorem foldl_deliver_exited (signals : List Signal) (child : Child) :
    (signals.foldl Child.deliver child).exited = child.exited := by
  induction signals generalizing child with
  | nil => rfl
  | cons signal signals ih => rw [List.foldl_cons, ih, Child.deliver_exited]

/-- While the player knows a living child, the pids of the table are the recorded one. -/
theorem Inv.pid_eq {s : State} (inv : Inv s) (known : 0 < s.player.childPid) {child : Child}
    (mem : child ∈ s.children) : child.pid = s.player.childPid := by
  have pid : child.pid ∈ s.play.unreaped := inv.children ▸ List.mem_map_of_mem mem
  rw [inv.recorded] at known ⊢
  cases at_ : s.play <;> simp_all [PlayAt.recordedPid, PlayAt.unreaped]

/-- No pause outlives the record. -/
theorem Inv.unpaused {s : State} (inv : Inv s) (none : s.player.childPid = 0) :
    s.player.childPaused = false := by
  cases on : s.player.childPaused with
  | false => rfl
  | true => exact absurd (inv.paused on) (by simp [none])

/-- The signals of `command_player` stop a living child exactly when they set the flag. -/
theorem signals_stopped (now : Timeval) (command : PlayerCmd) {player : Player} {child : Child}
    (known : 0 < player.childPid) (living : child.exited = false)
    (flag : child.stopped = player.childPaused) :
    ((commandPlayer now command player).2.foldl Child.deliver child).stopped =
      (commandPlayer now command player).1.childPaused := by
  cases paused : player.childPaused <;> cases command <;>
    simp [commandPlayer, known, paused, Child.deliver, living, flag]

/-- A SIGTERM finds the child running: a SIGCONT goes before it where it was stopped. -/
theorem signals_before_sigterm (now : Timeval) (command : PlayerCmd) {player : Player}
    {child : Child} {front back : List Signal} (living : child.exited = false)
    (flag : child.stopped = player.childPaused)
    (sent : (commandPlayer now command player).2 = front ++ .sigterm :: back) :
    (front.foldl Child.deliver child).stopped = false := by
  have signals : (commandPlayer now command player).2 = [.sigterm] ∧ player.childPaused = false ∨
      (commandPlayer now command player).2 = [.sigcont, .sigterm] ∨
      .sigterm ∉ (commandPlayer now command player).2 := by
    cases paused : player.childPaused <;> cases command <;>
      by_cases known : 0 < player.childPid <;> simp [commandPlayer, known, paused]
  rcases signals with ⟨plain, unpaused⟩ | resumed | none
  · rw [plain, eq_comm, List.append_eq_singleton_iff] at sent
    rcases sent with ⟨rfl, _⟩ | ⟨_, more⟩
    · exact flag.trans unpaused
    · cases more
  · rw [resumed, eq_comm, List.append_eq_cons_iff] at sent
    rcases sent with ⟨_, first⟩ | ⟨rest, rfl, second⟩
    · cases first
    · rw [eq_comm, List.append_eq_singleton_iff] at second
      rcases second with ⟨rfl, _⟩ | ⟨_, more⟩
      · simp [Child.deliver, living]
      · cases more
  · exact absurd (sent ▸ List.mem_append_right front List.mem_cons_self) none

theorem Recorded.command {s : State} (recorded : Recorded s) (now : Timeval)
    (command : PlayerCmd) (free : s.play.holdsMutex = false) :
    Recorded (s.commanded now command) := by
  refine ⟨recorded.inv.command now command free, ?_, ?_⟩
  · have frame := commandPlayer_frame now command s.player
    simp only [State.commanded, frame.2.2.2.1, frame.2.2.2.2.2]
    exact recorded.clock
  · intro child there living
    rcases Nat.eq_zero_or_pos s.player.childPid with none | known
    · simp only [State.commanded, commandPlayer_unrecorded now none, List.foldl_nil] at there ⊢
      exact recorded.flag child there living
    · obtain ⟨old, mem, rfl⟩ := mem_foldl_kill.mp there
      simp only [recorded.inv.pid_eq known mem, if_true] at living ⊢
      rw [foldl_deliver_exited] at living
      exact signals_stopped now command known living (recorded.flag old mem living)

/-- Every move keeps the record in step with the child. -/
theorem Recorded.keep {s t : State} {a : Action} {es : List Event} (recorded : Recorded s)
    (clock : NonzeroClock s a) (move : Move s a t es) : Recorded t := by
  have after := recorded.inv.keep move
  cases move with
  | cleanup at_ =>
      have empty : s.children = [] := by
        simpa [at_, PlayAt.unreaped] using recorded.inv.children
      exact ⟨after, by simp, fun child mem => by simp [empty] at mem⟩
  | fork at_ =>
      refine ⟨after, recorded.clock, fun child mem living => ?_⟩
      have unpaused : s.player.childPaused = false :=
        recorded.inv.unpaused (by rw [recorded.inv.recorded, at_]; rfl)
      rcases List.mem_append.mp mem with mem | mem
      · exact recorded.flag child mem living
      · rw [List.mem_singleton.mp mem]
        exact unpaused.symm
  | @record pid now at_ =>
      have pos : 0 < pid := by simpa [at_, PlayAt.PidOk] using recorded.inv.pidOk
      have unpaused : s.player.childPaused = false :=
        recorded.inv.unpaused (by rw [recorded.inv.recorded, at_]; rfl)
      refine ⟨after, ?_, fun child mem living => (recorded.flag child mem living).trans unpaused⟩
      simpa [clock now rfl] using Nat.pos_iff_ne_zero.mp pos
  | reap =>
      exact ⟨after, recorded.clock, fun child mem living =>
        recorded.flag child (List.mem_of_mem_filter mem) living⟩
  | command _ free => exact recorded.command _ _ free
  | @exit pid =>
      refine ⟨after, recorded.clock, fun child there living => ?_⟩
      obtain ⟨old, mem, rfl⟩ := List.mem_map.mp there
      by_cases named : old.pid = pid
      · simp [named] at living
      · simp only [named, if_false] at living ⊢
        exact recorded.flag old mem living
  | _ => exact ⟨after, recorded.clock, recorded.flag⟩

theorem Init.recorded {s : State} (init : Init s) : Recorded s := by
  have inv := init.inv
  obtain ⟨isLoop, filelist, player, prepared, rfl⟩ := init
  obtain ⟨_, rfl⟩ := preparePlayer_spec prepared
  exact ⟨inv, by simp [startPlayer, createPlayer], fun child mem => by cases mem⟩

/-- In every state that is reached the flags of the record agree with the child. -/
theorem recorded_reached {s t : State} {as : List Action} {log : List Event} (init : Init s)
    (clock : machine.Along NonzeroClock s as) (run : machine.exec s as = some (t, log)) :
    t.children.length ≤ 1 ∧
      (t.player.childStopped = true → t.player.childPid = 0) ∧
      (t.player.childPaused = true → 0 < t.player.childPid) ∧
      (t.player.childStartTime = ⟨0, 0⟩ ↔ t.player.childPid = 0) ∧
      (∀ child ∈ t.children, child.pid = t.player.childPid → child.exited = false →
        (child.stopped = true ↔ t.player.childPaused = true)) ∧
      ∀ now command front back, (commandPlayer now command t.player).2 = front ++ .sigterm :: back →
        ∀ child ∈ front.foldl (kill t.player.childPid) t.children,
          child.pid = t.player.childPid → child.exited = false → child.stopped = false := by
  have recorded : Recorded t := exec_rec_of_along (I := fun s _ => Recorded s)
    (fun s _ a t es recorded met move => recorded.keep met (step_move move)) clock []
    init.recorded run
  refine ⟨?_, ?_, recorded.inv.paused, recorded.clock, ?_, ?_⟩
  · rw [← List.length_map Child.pid, recorded.inv.children]
    cases t.play <;> simp [PlayAt.unreaped]
  · intro stopped
    have here := recorded.inv.stopped stopped
    rw [recorded.inv.recorded]
    cases at_ : t.play <;> simp_all [PlayAt.mayBeStopped, PlayAt.recordedPid]
  · intro child mem _ living
    rw [recorded.flag child mem living]
  · intro now command front back sent child there pid living
    obtain ⟨old, mem, rfl⟩ := mem_foldl_kill.mp there
    by_cases named : old.pid = t.player.childPid
    · simp only [named, if_true, foldl_deliver_exited] at living ⊢
      exact signals_before_sigterm now command living (recorded.flag old mem living) sent
    · simp only [named, if_false] at pid

/-- A paused child, with a PLAY between its two critical sections. -/
def pausedChild : List Action :=
  [.play, .play, .play, .play, .play, .play, .fork (some 7), .record ⟨1, 0⟩, .request .pause,
    .command ⟨2, 0⟩, .request .play]

theorem pausedChild_recorded : ∃ t log,
    machine.exec (startPlayer { createPlayer false with playlist := ⟨["a.mp4"], 0⟩ }) pausedChild =
        some (t, log) ∧ t.player.childPaused = true ∧ 0 < t.player.childPid := by
  have clock : ∀ s, machine.Along NonzeroClock s pausedChild := by
    apply along_of_forall
    intro a mem s now is
    subst is
    simp only [pausedChild, List.mem_cons, List.not_mem_nil, or_false, reduceCtorEq, false_or,
      Action.record.injEq] at mem
    simp [mem]
  refine ⟨_, _, rfl, rfl, ?_⟩
  exact (recorded_reached ⟨false, ["a.mp4"], _, rfl, rfl⟩ (clock _) rfl).2.2.1 rfl

/-! ### The recorded child and the playlist -/

/-- The child spawned at a statement and not yet forgotten. -/
def PlayAt.spawnedPid : PlayAt → Option Nat
  | .record pid | .waitpid pid | .cleanup pid => some pid
  | _ => none

/-- The uri that is about to be spawned and the child spawned last are those of the
current entry of the playlist. -/
structure Playing (s : State) (log : List Event) : Prop where
  inv : Inv s
  chosen : ∀ uri, s.play = .spawn uri →
    getPlaylistUri s.player.playlist s.player.playlist.curIdx = some uri
  spawned : ∀ pid, s.play.spawnedPid = some pid → ∃ uri,
    getPlaylistUri s.player.playlist s.player.playlist.curIdx = some uri ∧
      (spawns log).getLast? = some (pid, uri)

theorem spawns_of_others {es : List Event} (others : ∀ e ∈ es, e.ofPlayer = false) :
    spawns es = [] := by
  refine List.filterMap_eq_nil_iff.mpr fun e mem => ?_
  have other := others e mem
  cases e <;> first | rfl | cases other

@[simp] theorem spawns_broadcastUri (uri : Option String) : spawns (broadcastUri uri) = [] := by
  rcases broadcastUri_cases uri with none | ⟨s, some_⟩
  · rw [none]; rfl
  · rw [some_]; rfl

/-- A statement at which nothing is spawned or about to be. -/
theorem Playing.between {s : State} {log : List Event} (inv : Inv s)
    (idle : s.play.spawnedPid = none) (unchosen : ∀ uri, s.play ≠ .spawn uri) : Playing s log :=
  ⟨inv, fun uri at_ => absurd at_ (unchosen uri), fun pid at_ => by simp [idle] at at_⟩

theorem Playing.keep {s t : State} {a : Action} {log es : List Event} (playing : Playing s log)
    (move : Move s a t es) : Playing t (log ++ es) := by
  have after := playing.inv.keep move
  cases thread : a.ofPlayer with
  | false =>
      have same := move.untouched thread
      refine ⟨after, fun uri at_ => ?_, fun pid at_ => ?_⟩
      · rw [same.playlist]
        exact playing.chosen uri (same.at (by simp) at_)
      · rw [same.playlist, spawns_append, spawns_of_others same.events, List.append_nil]
        refine playing.spawned pid ?_
        rcases same.play with eq | eq
        · rw [← eq, at_]
        · cases here : s.play <;> simp_all [PlayAt.signalled, PlayAt.spawnedPid]
  | true =>
      cases move with
      | uri at_ found =>
          refine ⟨after, fun uri is => ?_, by rintro pid ⟨⟩⟩
          cases is
          exact found
      | fork at_ =>
          refine ⟨after, by rintro uri ⟨⟩, fun pid is => ?_⟩
          cases is
          exact ⟨_, playing.chosen _ at_, by simp [spawns]⟩
      | eintr => simpa using playing
      | record at_ | reap at_ | waitFailed at_ =>
          refine ⟨after, by rintro uri ⟨⟩, fun pid is => ?_⟩
          cases is
          simpa [spawns] using playing.spawned _ (by rw [at_]; rfl)
      | answer | call | crash | command | exit | shutdown | shutdownSignal => cases thread
      | _ => exact Playing.between after rfl (by simp)

theorem Init.playing {s : State} (init : Init s) : Playing s [] := by
  have inv := init.inv
  obtain ⟨isLoop, filelist, player, prepared, rfl⟩ := init
  exact Playing.between inv rfl (by simp [startPlayer])

/-- On an index in range `forward_playlist` takes the index that it asks for and
broadcasts the uri found there. -/
theorem forwardPlaylist_moves {loop : Bool} {playlist moved : Playlist} {uri : Option String}
    (range : playlist.InRange) (move : forwardPlaylist loop playlist = some (moved, uri)) :
    ∃ index name, forwardIdx loop playlist.uriArr.length playlist.curIdx = some index ∧
      moved = { playlist with curIdx := index } ∧ uri = some name := by
  rw [forwardPlaylist_eq range] at move
  obtain ⟨index, found, eq⟩ := Option.map_eq_some_iff.mp move
  cases eq
  obtain ⟨low, high⟩ := forwardIdx_range range.1 range.2 found
  obtain ⟨name, some_, _⟩ := getPlaylistUri_of_range low high
  exact ⟨index, name, found, rfl, some_⟩

theorem backwardPlaylist_moves {playlist moved : Playlist} {uri : Option String}
    (range : playlist.InRange) (move : backwardPlaylist playlist = some (moved, uri)) :
    ∃ index name, backwardIdx playlist.curIdx = some index ∧
      moved = { playlist with curIdx := index } ∧ uri = some name := by
  rw [backwardPlaylist_eq range] at move
  obtain ⟨index, found, eq⟩ := Option.map_eq_some_iff.mp move
  cases eq
  obtain ⟨low, high⟩ := backwardIdx_range range.2 found
  obtain ⟨name, some_, _⟩ := getPlaylistUri_of_range low high
  exact ⟨index, name, found, rfl, some_⟩

/-- The index stays in range, the recorded child plays the current entry, and so no
lookup in the playlist fails and no index is refused. -/
theorem playing_reached {t : State} {log : List Event} (reached : machine.Reached Init t log) :
    t.player.playlist.InRange ∧
      (0 < t.player.childPid → ∃ uri,
        t.player.playlist.uriArr[t.player.playlist.curIdx.toNat]? = some uri ∧
        (spawns log).getLast? = some (t.player.childPid, uri) ∧
        cmdUri t.player = .answer (.uri uri)) ∧
      getPlaylistUri t.player.playlist t.player.playlist.curIdx ≠ none ∧
      (∀ moved uri, forwardPlaylist t.player.loop t.player.playlist = some (moved, uri) →
        ∃ index name,
          forwardIdx t.player.loop t.player.playlist.uriArr.length t.player.playlist.curIdx =
            some index ∧ moved = { t.player.playlist with curIdx := index } ∧ uri = some name) ∧
      (∀ moved uri, backwardPlaylist t.player.playlist = some (moved, uri) → ∃ index name,
        backwardIdx t.player.playlist.curIdx = some index ∧
          moved = { t.player.playlist with curIdx := index } ∧ uri = some name) ∧
      cmdNext t.player ≠ .crash ∧ cmdPrev t.player ≠ .crash ∧ cmdUri t.player ≠ .crash := by
  obtain ⟨s, init, as, run⟩ := reached
  have playing : Playing t log := exec_rec (I := Playing)
    (fun s log a t es playing move => playing.keep (step_move move)) [] init.playing run
  obtain ⟨inv, _, spawned⟩ := playing
  obtain ⟨current, found, entry⟩ := getPlaylistUri_of_range inv.range.1 inv.range.2
  refine ⟨inv.range, fun known => ?_, by simp [found],
    fun _ _ => forwardPlaylist_moves inv.range, fun _ _ => backwardPlaylist_moves inv.range,
    Request.decide_ne_crash inv.range .next,
    Request.decide_ne_crash inv.range .prev, Request.decide_ne_crash inv.range .uri⟩
  have pid : t.play.spawnedPid = some t.player.childPid := by
    rw [inv.recorded] at known ⊢
    cases at_ : t.play <;> simp_all [PlayAt.recordedPid, PlayAt.spawnedPid]
  obtain ⟨uri, found', last⟩ := spawned _ pid
  have same : uri = current := by simpa [found'] using found
  subst same
  exact ⟨uri, entry, last, by simp [cmdUri, getPlaylistCurrentUri, entry]⟩

theorem playing_paused : ∃ t log uri, machine.Reached Init t log ∧
    (spawns log).getLast? = some (t.player.childPid, uri) ∧
    cmdUri t.player = .answer (.uri uri) := by
  have reached : machine.Reached Init _ _ :=
    ⟨_, ⟨false, ["a.mp4"], _, rfl, rfl⟩, pausedChild, rfl⟩
  obtain ⟨uri, _, last, answer⟩ := (playing_reached reached).2.1 (by decide)
  exact ⟨_, _, uri, reached, last, answer⟩

end OdroidPlayer
