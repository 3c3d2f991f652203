import OdroidPlayer.Player.Navigation
import OdroidPlayer.Player.Record
import OdroidPlayer.Player.Stopped

/-!
From one NEXT or PREV to the next child.

The response thread computes a uri and answers with it; the player thread computes the
index again when it has reaped the child, or when it wakes up from a stop. In a settled
player the two agree: what a command was answered with is what is broadcast and spawned,
and it is refused exactly where the playlist function refuses (`nextChild`).
-/

namespace OdroidPlayer

open Transition.System

/-- The uris that are broadcast with `CMD__URI`, in order. -/
def broadcasts (log : List Event) : List String :=
  log.filterMap fun
    | .broadcast uri => some uri
    | _ => none

/-- The events before the first cleanup. -/
def beforeCleanup (log : List Event) : List Event := log.takeWhile fun e => !e.isCleaned

/-- What `forward_playlist` or `backward_playlist` does for a NEXT or a PREV. -/
def Request.playlistMove (player : Player) : Request → Option (Playlist × Option String)
  | .next => forwardPlaylist player.loop player.playlist
  | _ => backwardPlaylist player.playlist

def Request.refusal : Request → Reply
  | .next => .text "End of the playlist"
  | _ => .text "Start of the playlist"

/-- A child is recorded and no command that ends it is pending, or the player is stopped with
nothing pending. -/
structure State.Settled (s : State) : Prop where
  inv : Inv s
  idle : s.resp = .idle
  at_ : 0 < s.player.childPid ∧ (s.player.pendingCommand = .none ∨
      s.player.pendingCommand = .pause ∨ s.player.pendingCommand = .resume) ∨
    s.player.childStopped = true ∧ s.player.pendingCommand = .none

/-- The response thread has decided on the answer `uri` and calls `command_player` next. -/
def State.asked (s : State) (r : Request) (uri : String) : State :=
  { s with resp := .calling r r.command (.uri uri) }

/-- The run executes the one command of `r`, and no child is cleaned up before that. -/
structure OneCommand (r : Request) (log : List Event) : Prop where
  once : executedCmds log = [r.command]
  inTime : executedCmds (beforeCleanup log) = [r.command]

@[simp] theorem broadcasts_append (front back : List Event) :
    broadcasts (front ++ back) = broadcasts front ++ broadcasts back :=
  List.filterMap_append

/-- Only the player thread broadcasts. -/
theorem broadcasts_of_others {es : List Event} (others : ∀ e ∈ es, e.ofPlayer = false) :
    broadcasts es = [] := by
  refine List.filterMap_eq_nil_iff.mpr fun e mem => ?_
  have other := others e mem
  cases e <;> first | rfl | cases other

theorem executedCmds_beforeCleanup {log : List Event} (unheard : executedCmds log = []) :
    executedCmds (beforeCleanup log) = [] := by
  unfold executedCmds at unheard ⊢
  rw [List.filterMap_eq_nil_iff] at unheard ⊢
  exact fun e mem => unheard e ((List.takeWhile_prefix _).subset mem)

/-- The response thread refuses where the player thread would, and otherwise answers with
what the player thread would find. -/
theorem Request.decide_iff {player : Player} (range : player.playlist.InRange) {r : Request}
    (navigation : r = .next ∨ r = .prev) :
    (r.playlistMove player = none ∧ r.decide player = .answer r.refusal) ∨
      ∃ idx uri, r.playlistMove player = some ({ player.playlist with curIdx := idx }, some uri) ∧
        getPlaylistUri player.playlist idx = some uri ∧
        r.decide player = .call r.command (.uri uri) := by
  rcases navigation with rfl | rfl
  · have moves := forwardPlaylist_eq range player.loop
    rcases cmdNext_spec range with ⟨refused, decided⟩ | ⟨idx, uri, some_, found, decided⟩
    · rw [refused] at moves
      exact .inl ⟨moves, decided⟩
    · rw [some_] at moves
      exact .inr ⟨idx, uri, moves.trans (congrArg (fun u => some (_, u)) found), found, decided⟩
  · have moves := backwardPlaylist_eq range
    rcases cmdPrev_spec range with ⟨refused, decided⟩ | ⟨idx, uri, some_, found, decided⟩
    · rw [refused] at moves
      exact .inl ⟨moves, decided⟩
    · rw [some_] at moves
      exact .inr ⟨idx, uri, moves.trans (congrArg (fun u => some (_, u)) found), found, decided⟩

/-- Neither function looks at more than the playlist and the loop flag. -/
theorem Request.playlistMove_congr {player other : Player} (r : Request)
    (playlist : player.playlist = other.playlist) (loop : player.loop = other.loop) :
    r.playlistMove player = r.playlistMove other := by
  cases r <;> simp only [playlistMove, playlist, loop]

/-! ### What the moves leave alone -/

/-- The playlist stays and nothing is broadcast. -/
structure Still (s t : State) (es : List Event) : Prop where
  playlist : t.player.playlist = s.player.playlist
  loop : t.player.loop = s.player.loop
  sent : broadcasts es = []

section Still

variable {s t : State} {a : Action} {es : List Event}

theorem Untouched.still (same : Untouched s t es) : Still s t es :=
  ⟨same.playlist, same.loop, broadcasts_of_others same.events⟩

theorem Move.still_of_recorded (move : Move s a t es) (at_ : s.Recorded) :
    Still s t es ∧ t.player.childStopped = s.player.childStopped := by
  cases mine : a.ofPlayer with
  | false =>
      have same := move.untouched mine
      exact ⟨same.still, same.childStopped⟩
  | true =>
      obtain ⟨pid, at_ | at_⟩ := at_ <;> cases move with
      | reap | eintr | waitFailed | cleanup => exact ⟨⟨rfl, rfl, rfl⟩, rfl⟩
      | _ => simp_all [Action.ofPlayer]

/-- A stopped player stays where it is until it consumes the pending command. -/
theorem Move.still_of_stopped (move : Move s a t es) (inv : Inv s)
    (stopped : s.player.childStopped = true) :
    Still s t es ∧ (t.player.childStopped = true ∨
      t.play = .wakeup s.player.pendingCommand ∧ t.player.childStopped = false) := by
  have here := inv.stopped stopped
  cases mine : a.ofPlayer with
  | false =>
      have same := move.untouched mine
      exact ⟨same.still, .inl (same.childStopped.trans stopped)⟩
  | true =>
      cases move with
      | consume => exact ⟨⟨rfl, rfl, rfl⟩, .inr ⟨rfl, rfl⟩⟩
      | pass at_ not_ => exact absurd ⟨stopped, inv.awake at_ stopped⟩ not_
      | loopOn | loopOff | lock | mayWait | noWait | wait | waitOff | goOn | goOff | stopPlayer
      | spuriousWakeup => exact ⟨⟨rfl, rfl, rfl⟩, .inl stopped⟩
      | _ => simp_all [Action.ofPlayer, PlayAt.mayBeStopped]

/-- Only a command, the cleanup and the wake-up touch the pending command. -/
theorem Move.pendingCommand_eq (move : Move s a t es) (unheard : executedCmds es = []) :
    t.player.pendingCommand = s.player.pendingCommand ∨
      t.play = .exitTest s.player.pendingCommand ∨ t.play = .wakeup s.player.pendingCommand := by
  cases move with
  | cleanup => exact .inr (.inl rfl)
  | consume => exact .inr (.inr rfl)
  | @command r command reply now =>
      cases (executedCmds_commandEvents s.player now r command reply).symm.trans unheard
  | _ => exact .inl rfl

/-- Inside a `cmd_*` function the response thread stays until it executes the command. -/
theorem Move.resp_eq {r : Request} {command : PlayerCmd} {reply : Reply} (move : Move s a t es)
    (calling : s.resp = .calling r command reply) (unheard : executedCmds es = []) :
    t.resp = .calling r command reply := by
  cases move with
  | answer idle | call idle | crash idle => simp [calling] at idle
  | @command r' command' reply' now =>
      cases (executedCmds_commandEvents s.player now r' command' reply').symm.trans unheard
  | _ => exact calling

end Still

/-! ### The phases of the run -/

/-- What the run has said once the command has been executed. -/
structure Said (r : Request) (uri : String) (sent : List String) (log : List Event) : Prop where
  heard : executedCmds log = [r.command]
  told : (r, .uri uri) ∈ answers log
  sent : broadcasts log = sent

theorem Said.append {r : Request} {uri : String} {sent sent' : List String} {log es : List Event}
    (said : Said r uri sent log) (unheard : executedCmds es = []) (now : broadcasts es = sent') :
    Said r uri (sent ++ sent') (log ++ es) := by
  refine ⟨?_, ?_, ?_⟩
  · rw [executedCmds_append, said.heard, unheard]
    rfl
  · rw [answers_append]
    exact List.mem_append_left _ said.told
  · rw [broadcasts_append, said.sent, now]

theorem Said.still {r : Request} {uri : String} {sent : List String} {log es : List Event}
    (said : Said r uri sent log) (unheard : executedCmds es = []) (none : broadcasts es = []) :
    Said r uri sent (log ++ es) := by
  simpa using said.append unheard none

/-- The command came after a cleanup, or was not the only one. -/
def Strays (log : List Event) : Prop :=
  (∃ e ∈ log, e.isCleaned = true) ∧ executedCmds (beforeCleanup log) = [] ∨
    1 < (executedCmds log).length

theorem Strays.append {log : List Event} (strays : Strays log) (es : List Event) :
    Strays (log ++ es) := by
  rcases strays with ⟨⟨e, mem, cleaned⟩, late⟩ | more
  · refine .inl ⟨⟨e, List.mem_append_left _ mem, cleaned⟩, ?_⟩
    have short : (log.takeWhile fun e => !e.isCleaned).length ≠ log.length := by
      intro full
      have whole := (List.takeWhile_prefix fun e : Event => !e.isCleaned).eq_of_length full
      simpa [cleaned] using List.takeWhile_eq_self_iff.mp whole e mem
    rwa [beforeCleanup, List.takeWhile_append, if_neg short]
  · refine .inr (lt_of_lt_of_le more ?_)
    rw [executedCmds_append, List.length_append]
    exact Nat.le_add_right _ _

theorem OneCommand.not_strays {r : Request} {log : List Event} (one : OneCommand r log) :
    ¬ Strays log := by
  rintro (⟨_, late⟩ | more)
  · cases one.inTime.symm.trans late
  · simp [one.once] at more

/-- From the answer of `r`, which found `uri` at the index `idx` of `first`, to the spawn. -/
inductive Heading (first : Player) (r : Request) (idx : Int) (uri : String) (s : State)
    (log : List Event) : Prop where
  | asked (calling : s.resp = .calling r r.command (.uri uri))
      (playlist : s.player.playlist = first.playlist) (loop : s.player.loop = first.loop)
      (at_ : s.Recorded ∧ s.player.childStopped = false ∨ Quiet s)
      (unheard : executedCmds log = []) (sent : broadcasts log = [])
  | pending (playlist : s.player.playlist = first.playlist) (loop : s.player.loop = first.loop)
      (at_ : s.Recorded ∧ s.player.childStopped = false ∨ s.player.childStopped = true)
      (pends : s.player.pendingCommand = r.command) (said : Said r uri [] log)
  | taken (playlist : s.player.playlist = first.playlist) (loop : s.player.loop = first.loop)
      (at_ : s.play = .exitTest r.command ∨ s.play = .dispatch r.command ∨
        s.play = .wakeup r.command)
      (stopped : s.player.childStopped = false) (said : Said r uri [] log)
  | moved (playlist : s.player.playlist = { first.playlist with curIdx := idx })
      (at_ : s.play.BeforeSpawn) (names : ∀ u, s.play = .spawn u → u = uri)
      (stopped : s.player.childStopped = false) (said : Said r uri [uri] log)
  | ended (halted : s.play.Halted)
  | spawned (some_ : spawnedPids log ≠ [])
  | strayed (strays : Strays log)

section Heading

variable {first : Player} {r : Request} {idx : Int} {uri : String} {s t : State} {a : Action}
  {log es : List Event}

/-- A second command. -/
theorem Said.strays {sent : List String} (said : Said r uri sent log) {command : PlayerCmd}
    (again : executedCmds es = [command]) : Strays (log ++ es) := by
  refine .inr ?_
  rw [executedCmds_append, said.heard, again]
  exact Nat.one_lt_two

theorem Heading.asked_keep (calling : s.resp = .calling r r.command (.uri uri))
    (playlist : s.player.playlist = first.playlist) (loop : s.player.loop = first.loop)
    (at_ : s.Recorded ∧ s.player.childStopped = false ∨ Quiet s)
    (unheard : executedCmds log = []) (sent : broadcasts log = []) (move : Move s a t es) :
    Heading first r idx uri t (log ++ es) := by
  rcases move.executedCmds_eq with none | ⟨now, r', command, reply, calling', free, rfl, rfl⟩
  · have resp := move.resp_eq calling none
    have unheard' : executedCmds (log ++ es) = [] := by
      rw [executedCmds_append, unheard, none]
      rfl
    have silent : broadcasts es = [] → broadcasts (log ++ es) = [] := fun still => by
      rw [broadcasts_append, sent, still]
      rfl
    rcases at_ with ⟨recorded, stopped⟩ | quiet
    · obtain ⟨still, same⟩ := move.still_of_recorded recorded
      rcases move.recorded recorded with ⟨pid, rfl, _⟩ | ⟨after, _, _⟩
      · exact .strayed (.inl ⟨⟨_, List.mem_append_right _ (List.mem_singleton_self _), rfl⟩,
          executedCmds_beforeCleanup unheard'⟩)
      · exact .asked resp (still.playlist.trans playlist) (still.loop.trans loop)
          (.inl ⟨after, same.trans stopped⟩) unheard' (silent still.sent)
    · obtain ⟨still, _⟩ := move.still_of_stopped quiet.inv quiet.stopped
      exact .asked resp (still.playlist.trans playlist) (still.loop.trans loop)
        (.inr (quiet.keep move none).1) unheard' (silent still.sent)
  · obtain ⟨rfl, rfl, rfl⟩ := RespAt.calling.inj (calling.symm.trans calling')
    have said : Said r uri [] (log ++ commandEvents s.player now r r.command (.uri uri)) := by
      refine ⟨?_, ?_, ?_⟩
      · rw [executedCmds_append, unheard, executedCmds_commandEvents]
        rfl
      · rw [answers_append, answers_commandEvents]
        exact List.mem_append_right _ (List.mem_singleton_self _)
      · rw [broadcasts_append, sent, broadcasts_of_others (commandEvents_ofPlayer _ _ _ _ _)]
        rfl
    refine .pending (by simpa [State.commanded] using playlist)
      (by simpa [State.commanded] using loop) ?_ (by simp [State.commanded]) said
    rcases at_ with ⟨recorded, stopped⟩ | quiet
    · refine .inl ⟨?_, by simpa [State.commanded] using stopped⟩
      simpa only [State.Recorded, State.commanded, PlayAt.signalled_of_ne recorded.awake]
        using recorded
    · exact .inr (by simpa [State.commanded] using quiet.stopped)

theorem Heading.pending_keep (playlist : s.player.playlist = first.playlist)
    (loop : s.player.loop = first.loop)
    (at_ : s.Recorded ∧ s.player.childStopped = false ∨ s.player.childStopped = true)
    (pends : s.player.pendingCommand = r.command) (said : Said r uri [] log) (inv : Inv s)
    (move : Move s a t es) : Heading first r idx uri t (log ++ es) := by
  rcases move.executedCmds_eq with none | ⟨now, r', command, reply, _, _, rfl, rfl⟩
  · have after := move.pendingCommand_eq none
    rw [pends] at after
    rcases at_ with ⟨recorded, stopped⟩ | stopped
    · obtain ⟨still, same⟩ := move.still_of_recorded recorded
      have said' := said.still none still.sent
      rcases move.recorded recorded with ⟨pid, rfl, there⟩ | ⟨recorded', _, _⟩
      · exact .taken (still.playlist.trans playlist) (still.loop.trans loop)
          (.inl (pends ▸ there)) (same.trans stopped) said'
      · have pends' : t.player.pendingCommand = r.command := by
          rcases after with eq | there | there
          · exact eq
          · obtain ⟨pid, at' | at'⟩ := recorded' <;> simp [there] at at'
          · obtain ⟨pid, at' | at'⟩ := recorded' <;> simp [there] at at'
        exact .pending (still.playlist.trans playlist) (still.loop.trans loop)
          (.inl ⟨recorded', same.trans stopped⟩) pends' said'
    · obtain ⟨still, on | ⟨there, off⟩⟩ := move.still_of_stopped inv stopped
      · have here := (inv.keep move).stopped on
        have pends' : t.player.pendingCommand = r.command := by
          rcases after with eq | there | there
          · exact eq
          · simp [there, PlayAt.mayBeStopped] at here
          · simp [there, PlayAt.mayBeStopped] at here
        exact .pending (still.playlist.trans playlist) (still.loop.trans loop) (.inr on) pends'
          (said.still none still.sent)
      · exact .taken (still.playlist.trans playlist) (still.loop.trans loop)
          (.inr (.inr (pends ▸ there))) off (said.still none still.sent)
  · exact .strayed (said.strays (executedCmds_commandEvents ..))

/-- The step of the playlist that the request asks for has been made and broadcast. -/
structure Steps (s t : State) (es : List Event) (playlist : Playlist) (uri : String) : Prop where
  playlist : t.player.playlist = playlist
  stopped : t.player.childStopped = s.player.childStopped
  at_ : t.play = .loopTest ∨ t.play = .readUri
  sent : broadcasts es = [uri]

/-- The two branches after the reaping. -/
theorem Move.steps_of_dispatch {playlist : Playlist} (navigation : r = .next ∨ r = .prev)
    (target : r.playlistMove s.player = some (playlist, some uri))
    (at_ : s.play = .dispatch r.command) (own : a.ofPlayer = true) (move : Move s a t es) :
    Steps s t es playlist uri := by
  cases move with
  | @tookForward pending moved name at' forward went =>
      obtain rfl := PlayAt.dispatch.inj (at'.symm.trans at_)
      obtain rfl := Request.next_of_forward navigation forward
      obtain ⟨rfl, rfl⟩ := Prod.mk.inj (Option.some.inj (went.symm.trans target))
      exact ⟨rfl, rfl, .inl rfl, rfl⟩
  | @tookPrev moved name at' went =>
      have isPrev := Request.prev_of_command navigation
        (PlayAt.dispatch.inj (at'.symm.trans at_)).symm
      subst isPrev
      obtain ⟨rfl, rfl⟩ := Prod.mk.inj (Option.some.inj (went.symm.trans target))
      exact ⟨rfl, rfl, .inl rfl, rfl⟩
  | @tookEnd pending at' forward refused =>
      obtain rfl := PlayAt.dispatch.inj (at'.symm.trans at_)
      obtain rfl := Request.next_of_forward navigation forward
      cases refused.symm.trans target
  | tookPrevStay at' refused =>
      have isPrev := Request.prev_of_command navigation
        (PlayAt.dispatch.inj (at'.symm.trans at_)).symm
      subst isPrev
      cases refused.symm.trans target
  | tookStop at' | tookReplay at' =>
      rcases navigation with is | is <;> rw [at', is] at at_ <;> cases at_
  | _ => simp_all [Action.ofPlayer]

/-- The two branches after the wake-up. -/
theorem Move.steps_of_wakeup {playlist : Playlist} (navigation : r = .next ∨ r = .prev)
    (target : r.playlistMove s.player = some (playlist, some uri))
    (at_ : s.play = .wakeup r.command) (own : a.ofPlayer = true) (move : Move s a t es) :
    Steps s t es playlist uri := by
  cases move with
  | @wakeupMove command moved name at' went =>
      obtain rfl := PlayAt.wakeup.inj (at'.symm.trans at_)
      have same : moved = playlist ∧ name = some uri := by
        rcases navigation with rfl | rfl
        · rcases went with ⟨_, went⟩ | ⟨is, _⟩
          · exact Prod.mk.inj (Option.some.inj (went.symm.trans target))
          · cases is
        · rcases went with ⟨is, _⟩ | ⟨_, went⟩
          · cases is
          · exact Prod.mk.inj (Option.some.inj (went.symm.trans target))
      obtain ⟨rfl, rfl⟩ := same
      exact ⟨rfl, rfl, .inr rfl, rfl⟩
  | @wakeupStay command at' next prev =>
      obtain rfl := PlayAt.wakeup.inj (at'.symm.trans at_)
      rcases navigation with rfl | rfl
      · cases (next rfl).symm.trans target
      · cases (prev rfl).symm.trans target
  | _ => simp_all [Action.ofPlayer]

theorem Heading.of_steps {playlist : Playlist} (steps : Steps s t es playlist uri)
    (is : playlist = { first.playlist with curIdx := idx })
    (stopped : s.player.childStopped = false) (said : Said r uri [] log)
    (unheard : executedCmds es = []) : Heading first r idx uri t (log ++ es) := by
  have before : t.play.BeforeSpawn := by
    rcases steps.at_ with at_ | at_ <;> rw [at_] <;> trivial
  refine .moved (steps.playlist.trans is) before (fun u there => ?_) (steps.stopped.trans stopped)
    (said.append unheard steps.sent)
  rcases steps.at_ with at_ | at_ <;> simp [at_] at there

theorem Heading.taken_keep (navigation : r = .next ∨ r = .prev)
    (target : r.playlistMove first = some ({ first.playlist with curIdx := idx }, some uri))
    (playlist : s.player.playlist = first.playlist) (loop : s.player.loop = first.loop)
    (at_ : s.play = .exitTest r.command ∨ s.play = .dispatch r.command ∨
      s.play = .wakeup r.command)
    (stopped : s.player.childStopped = false) (said : Said r uri [] log)
    (move : Move s a t es) : Heading first r idx uri t (log ++ es) := by
  have target' := (r.playlistMove_congr playlist loop).trans target
  rcases move.executedCmds_eq with none | ⟨now, r', command, reply, _, _, rfl, rfl⟩
  · cases mine : a.ofPlayer with
    | false =>
        have same := move.untouched mine
        have awake : s.play ≠ .condWait := by
          rcases at_ with at_ | at_ | at_ <;> simp [at_]
        have there := same.play_eq awake
        exact .taken (same.playlist.trans playlist) (same.loop.trans loop) (by rwa [there])
          (same.childStopped.trans stopped) (said.still none same.still.sent)
    | true =>
        rcases at_ with at_ | at_ | at_
        · cases move with
          | @exitOn pending at' =>
              obtain rfl := PlayAt.exitTest.inj (at'.symm.trans at_)
              exact .taken playlist loop (.inr (.inl rfl)) stopped (said.still none rfl)
          | exitOff => exact .ended (.inl rfl)
          | _ => simp_all [Action.ofPlayer]
        · exact of_steps (move.steps_of_dispatch navigation target' at_ mine) rfl stopped said none
        · exact of_steps (move.steps_of_wakeup navigation target' at_ mine) rfl stopped said none
  · exact .strayed (said.strays (executedCmds_commandEvents ..))

theorem Heading.moved_keep (found : getPlaylistUri first.playlist idx = some uri)
    (playlist : s.player.playlist = { first.playlist with curIdx := idx })
    (at_ : s.play.BeforeSpawn) (names : ∀ u, s.play = .spawn u → u = uri)
    (stopped : s.player.childStopped = false) (said : Said r uri [uri] log)
    (move : Move s a t es) : Heading first r idx uri t (log ++ es) := by
  rcases move.executedCmds_eq with none | ⟨now, r', command, reply, _, _, rfl, rfl⟩
  · cases mine : a.ofPlayer with
    | false =>
        have same := move.untouched mine
        have awake : s.play ≠ .condWait := fun is => by simp [is, PlayAt.BeforeSpawn] at at_
        have there := same.play_eq awake
        exact .moved (same.playlist.trans playlist) (by rwa [there])
          (fun u is => names u (there ▸ is)) (same.childStopped.trans stopped)
          (said.still none same.still.sent)
    | true =>
        cases move with
        | loopOff | goOff | noUri => exact .ended (.inl rfl)
        | loopOn | lock | noWait | goOn | pass | retry | forkFailed =>
            exact .moved playlist trivial (by simp) stopped (said.still none rfl)
        | @uri name at' found' =>
            refine .moved playlist trivial (fun u is => ?_) stopped (said.still none rfl)
            obtain rfl := PlayAt.spawn.inj is
            rw [playlist] at found'
            exact Option.some.inj (found'.symm.trans found)
        | fork => exact .spawned (by simp [spawnedPids])
        | mayWait _ on | consume _ on => simp [stopped] at on
        | _ => simp_all [Action.ofPlayer, PlayAt.BeforeSpawn]
  · exact .strayed (said.strays (executedCmds_commandEvents ..))

/-- The decision that the answer `uri` at the index `idx` was made on. -/
structure Target (first : Player) (r : Request) (idx : Int) (uri : String) : Prop where
  navigation : r = .next ∨ r = .prev
  moves : r.playlistMove first = some ({ first.playlist with curIdx := idx }, some uri)
  found : getPlaylistUri first.playlist idx = some uri

theorem Heading.keep (heading : Heading first r idx uri s log) (target : Target first r idx uri)
    (inv : Inv s) (move : Move s a t es) : Heading first r idx uri t (log ++ es) := by
  cases heading with
  | asked calling playlist loop at_ unheard sent =>
      exact asked_keep calling playlist loop at_ unheard sent move
  | pending playlist loop at_ pends said => exact pending_keep playlist loop at_ pends said inv move
  | taken playlist loop at_ stopped said =>
      exact taken_keep target.navigation target.moves playlist loop at_ stopped said move
  | moved playlist at_ names stopped said =>
      exact moved_keep target.found playlist at_ names stopped said move
  | ended halted => exact .ended (move.halted halted).1
  | spawned some_ => exact .spawned (by simp [some_])
  | strayed strays => exact .strayed (strays.append es)

theorem Heading.exec {m : State} {front : List Event} (target : Target first r idx uri)
    (inv : Inv s) (heading : Heading first r idx uri s []) (run : machine.Runs s m front) :
    Heading first r idx uri m front := by
  obtain ⟨as, run⟩ := run
  let I := fun (u : State) (before : List Event) => Inv u ∧ Heading first r idx uri u before
  have keep : ∀ (u : State) (before : List Event) (a : Action) (v : State) (es : List Event),
      I u before → machine.step u a = some (v, es) → I v (before ++ es) := by
    rintro u before a v es ⟨inv, heading⟩ step
    have move := step_move step
    exact ⟨inv.keep move, heading.keep target inv move⟩
  simpa using (exec_rec keep [] ⟨inv, heading⟩ run).2

/-- At the next spawn everything has been done. -/
theorem Heading.fork {pid : Nat} (inv : Inv s) (heading : Heading first r idx uri s log)
    (one : OneCommand r log) (silent : spawnedPids log = [])
    (fork : machine.step s (.fork (some pid)) = some (t, es)) :
    Said r uri [uri] log ∧ es = [.spawned pid uri] := by
  have move : Move s (.fork (some pid)) t es := step_move fork
  cases move with
  | @fork name _ there =>
      cases heading with
      | asked _ _ _ _ unheard => cases unheard.symm.trans one.once
      | pending _ _ at_ =>
          rcases at_ with ⟨⟨pid', at' | at'⟩, _⟩ | stopped
          · simp [there] at at'
          · simp [there] at at'
          · have here := inv.stopped stopped
            simp [there, PlayAt.mayBeStopped] at here
      | taken _ _ at_ => rcases at_ with at_ | at_ | at_ <;> simp [there] at at_
      | moved _ _ names _ said => exact ⟨said, by rw [names name there]⟩
      | ended halted => simp [there, PlayAt.Halted] at halted
      | spawned some_ => exact absurd silent some_
      | strayed strays => exact absurd strays one.not_strays

end Heading

/-! ### The run exists -/

section Spawns

variable {s : State} {r : Request} {playlist : Playlist} {uri : String}

theorem OneCommand.of_first (player : Player) (now : Timeval) (r : Request) (reply : Reply)
    {rest : List Event} (unheard : executedCmds rest = []) :
    OneCommand r (commandEvents player now r r.command reply ++ rest) := by
  have unclean : ∀ e ∈ commandEvents player now r r.command reply, (!e.isCleaned) = true := by
    intro e mem
    have other := commandEvents_ofPlayer player now r r.command reply e mem
    cases e <;> first | rfl | cases other
  constructor
  · rw [executedCmds_append, executedCmds_commandEvents, unheard]
    rfl
  · rw [beforeCleanup, List.takeWhile_append_of_pos unclean, executedCmds_append,
      executedCmds_commandEvents]
    exact congrArg (r.command :: ·) (executedCmds_beforeCleanup unheard)

/-- Nothing holds a player that is not stopped on the way to its next uri. -/
theorem runs_readUri (on : s.player.running = true) (unstopped : s.player.childStopped = false)
    (at_ : s.play = .loopTest) : machine.Runs s (s.jump .readUri) [] := by
  have awake : s.player.childStopped = true → s.player.pendingCommand ≠ .none := fun is => by
    simp [unstopped] at is
  have passes : ¬ (s.player.childStopped = true ∧ s.player.pendingCommand ≠ .none) := fun both => by
    simp [unstopped] at both
  have locked := Move.lock (s := s.jump .waitLock) rfl
  have through := Move.noWait (s := s.jump .waitTest) rfl awake
  have goes := Move.goOn (s := s.jump .runningTest) rfl on
  have passed := Move.pass (s := s.jump .stoppedTest) rfl passes
  exact (Move.loopOn at_ on).then (locked.then (through.then (goes.then passed.runs)))

/-- Past the move of the playlist the way to the next spawn is free. -/
theorem runs_spawn (inv : Inv s) (on : s.player.running = true)
    (unstopped : s.player.childStopped = false) (at_ : s.play = .loopTest ∨ s.play = .readUri) :
    ∃ m name, machine.Runs s m [] ∧ m.play = .spawn name ∧ m.children = [] := by
  obtain ⟨name, found⟩ := inv.range.getPlaylistUri
  have unreaped : s.children = [] := by
    rcases at_ with at_ | at_ <;> simpa [at_, PlayAt.unreaped] using inv.children
  refine ⟨s.jump (.spawn name), name, ?_, rfl, unreaped⟩
  rcases at_ with at_ | at_
  · have reads := Move.uri (s := s.jump .readUri) rfl found
    exact (runs_readUri on unstopped at_).trans reads.runs
  · exact (Move.uri at_ found).runs

/-- A settled player is recorded and not stopped, or waits with nothing pending. -/
theorem State.Settled.cases_at (settled : s.Settled) :
    s.Recorded ∧ s.player.childStopped = false ∨ Quiet s := by
  rcases settled.at_ with ⟨known, _⟩ | ⟨stopped, nothing⟩
  · have recorded := settled.inv.childPid_pos.mp known
    refine .inl ⟨recorded, ?_⟩
    by_contra on
    have here := settled.inv.stopped (Bool.eq_true_of_not_eq_false on)
    obtain ⟨pid, at_ | at_⟩ := recorded <;> simp [at_, PlayAt.mayBeStopped] at here
  · exact .inr ⟨settled.inv, stopped, nothing⟩

/-- The run makes the move of the playlist, and a spawn comes next. -/
structure Ahead (s t : State) (log : List Event) : Prop where
  run : machine.Runs s t log
  unheard : executedCmds log = []
  silent : spawnedPids log = []
  inv : Inv t
  on : t.player.running = true
  unstopped : t.player.childStopped = false
  at_ : t.play = .loopTest ∨ t.play = .readUri

theorem Ahead.after {t u : State} {front back : List Event} (ahead : Ahead t u back)
    (run : machine.Runs s t front) (unheard : executedCmds front = [])
    (silent : spawnedPids front = []) : Ahead s u (front ++ back) :=
  { ahead with
    run := run.trans ahead.run
    unheard := by rw [executedCmds_append, unheard, ahead.unheard]; rfl
    silent := by rw [spawnedPids_append, silent, ahead.silent]; rfl }

/-- The branches of a NEXT and of a PREV after the reaping. -/
theorem ahead_of_dispatch (inv : Inv s) (on : s.player.running = true)
    (unstopped : s.player.childStopped = false) (navigation : r = .next ∨ r = .prev)
    (at_ : s.play = .dispatch r.command)
    (target : r.playlistMove s.player = some (playlist, some uri)) :
    ∃ t log, Ahead s t log := by
  rcases navigation with rfl | rfl
  · have move := Move.tookForward at_ rfl target
    exact ⟨_, _, move.runs, rfl, rfl, inv.keep move, on, unstopped, .inl rfl⟩
  · have move := Move.tookPrev at_ target
    exact ⟨_, _, move.runs, rfl, rfl, inv.keep move, on, unstopped, .inl rfl⟩

/-- What the cleanup of a child leaves, with the thread at another statement. -/
def State.cleanedAt (s : State) (target : PlayAt) : State :=
  { s with
    player.pendingCommand := .none
    player.childPid := 0
    player.childPaused := false
    player.childStartTime := ⟨0, 0⟩
    play := target }

theorem ahead_of_cleanup (inv : Inv s) (on : s.player.running = true)
    (unstopped : s.player.childStopped = false) (navigation : r = .next ∨ r = .prev) {pid : Nat}
    (at_ : s.play = .cleanup pid) (pends : s.player.pendingCommand = r.command)
    (target : r.playlistMove s.player = some (playlist, some uri)) :
    ∃ t log, Ahead s t log := by
  have cleans := Move.cleanup at_
  have goes := Move.exitOn (s := s.cleanedAt (.exitTest s.player.pendingCommand)) rfl on
  have target' : r.playlistMove (s.cleanedAt (.dispatch s.player.pendingCommand)).player =
      some (playlist, some uri) := by
    rw [← target]
    exact r.playlistMove_congr rfl rfl
  obtain ⟨t, log, ahead⟩ := ahead_of_dispatch ((inv.keep cleans).keep goes) on unstopped navigation
    (congrArg PlayAt.dispatch pends) target'
  exact ⟨t, _, (ahead.after goes.runs rfl rfl).after cleans.runs rfl rfl⟩

/-- A recorded child exits and is reaped. -/
theorem runs_cleanup (inv : Inv s) (recorded : s.Recorded) :
    ∃ t pid log, machine.Runs s t log ∧ t.play = .cleanup pid ∧ t.player = s.player ∧
      executedCmds log = [] ∧ spawnedPids log = [] := by
  obtain ⟨pid, at_ | at_⟩ := recorded
  · obtain ⟨child, mem, is⟩ := inv.mem_children at_
    have exits : Move s (.exit pid) _ _ := .exit
    have zombie : ∃ child' ∈ s.children.map (fun child =>
        if child.pid = pid then { child with exited := true } else child),
        child'.pid = pid ∧ child'.exited = true := by
      refine ⟨_, List.mem_map_of_mem mem, ?_⟩
      rw [if_pos is]
      exact ⟨is, rfl⟩
    have reaps := Move.reap (s := { s with
        children := s.children.map fun child =>
          if child.pid = pid then { child with exited := true } else child }) at_ zombie
    exact ⟨_, pid, _, exits.then reaps.runs, rfl, rfl, rfl, rfl⟩
  · exact ⟨s, pid, [], Runs.refl s, at_, rfl, rfl, rfl⟩

/-- A stopped player that has been told wakes up. -/
theorem ahead_of_armed (armed : Armed s) (navigation : r = .next ∨ r = .prev)
    (pends : s.player.pendingCommand = r.command)
    (target : r.playlistMove s.player = some (playlist, some uri)) :
    ∃ t log, Ahead s t log := by
  have some_ : s.player.pendingCommand ≠ .none := pends ▸ (Request.command_ne navigation).1
  have locks := Move.lock armed.waiting
  have through := Move.noWait (s := s.jump .waitTest) rfl fun _ => some_
  have goes := Move.goOn (s := s.jump .runningTest) rfl armed.running
  have consumes := Move.consume (s := s.jump .stoppedTest) rfl armed.stopped some_
  have run := locks.then (through.then (goes.then consumes.runs))
  have inv := (((armed.inv.keep locks).keep through).keep goes).keep consumes
  have went : r.command = .next ∧
        forwardPlaylist s.player.loop s.player.playlist = some (playlist, some uri) ∨
      r.command = .prev ∧ backwardPlaylist s.player.playlist = some (playlist, some uri) := by
    rcases navigation with rfl | rfl
    · exact .inl ⟨rfl, target⟩
    · exact .inr ⟨rfl, target⟩
  have wakes := Move.wakeupMove (s := { s with
      player.pendingCommand := .none
      player.childStopped := false
      play := .wakeup s.player.pendingCommand }) (congrArg PlayAt.wakeup pends) went
  have ahead : Ahead _ _ _ := ⟨wakes.runs, rfl, rfl, inv.keep wakes, armed.running, rfl, .inr rfl⟩
  exact ⟨_, _, ahead.after run rfl rfl⟩

/-- Once `command_player` has been executed nothing else is needed for the next spawn. -/
theorem State.Settled.ahead (settled : s.Settled) (on : s.player.running = true)
    (navigation : r = .next ∨ r = .prev)
    (target : r.playlistMove s.player = some (playlist, some uri)) :
    ∃ m t player back, machine.Runs (s.asked r uri) m
        (commandEvents player ⟨0, 0⟩ r r.command (.uri uri)) ∧ Ahead m t back := by
  have inv : Inv (s.asked r uri) := { settled.inv with alive := by simp [State.asked] }
  rcases settled.cases_at with ⟨recorded, unstopped⟩ | quiet
  · have command : Move (s.asked r uri) (.command ⟨0, 0⟩) _ _ := .command rfl recorded.free
    have recorded' : ((s.asked r uri).commanded ⟨0, 0⟩ r.command).Recorded := by
      simpa only [State.Recorded, State.commanded, State.asked,
        PlayAt.signalled_of_ne recorded.awake] using recorded
    obtain ⟨m, pid, log, run, at_, same, unheard, silent⟩ :=
      runs_cleanup (inv.keep command) recorded'
    obtain ⟨as, exec⟩ := run
    have inv' := (inv.keep command).exec exec
    have target' : r.playlistMove m.player = some (playlist, some uri) := by
      rw [← target]
      refine r.playlistMove_congr ?_ ?_ <;> rw [same] <;> simp [State.commanded, State.asked]
    obtain ⟨t, back, ahead⟩ := ahead_of_cleanup inv'
      (by rw [same]; simpa [State.commanded, State.asked] using on)
      (by rw [same]; simpa [State.commanded, State.asked] using unstopped) navigation at_
      (by rw [same]; simp [State.commanded]) target'
    exact ⟨_, t, _, _, command.runs, ahead.after ⟨as, exec⟩ unheard silent⟩
  · have waits := runs_condWait inv on quiet.stopped quiet.nothing
    obtain ⟨as, exec⟩ := waits
    obtain ⟨armed, run⟩ := commanded_armed (inv.exec exec) on quiet.stopped (.inr rfl) rfl ⟨0, 0⟩
    have target' : r.playlistMove (((s.asked r uri).jump .condWait).commanded ⟨0, 0⟩
        r.command).player = some (playlist, some uri) := by
      rw [← target]
      refine r.playlistMove_congr ?_ ?_ <;> simp [State.commanded, State.asked]
    obtain ⟨t, back, ahead⟩ := ahead_of_armed armed navigation (by simp [State.commanded]) target'
    exact ⟨_, t, _, back, by simpa using Runs.trans ⟨as, exec⟩ run, ahead⟩

end Spawns

/-- A NEXT or PREV in a settled player is refused, changing nothing, exactly where the playlist
function would refuse, or it is answered with a uri; then every run of this one command up to the
next spawn broadcasts that uri and spawns the child with it, and a running player has such a run. -/
theorem nextChild {s : State} (settled : s.Settled) {r : Request}
    (navigation : r = .next ∨ r = .prev) :
    (r.playlistMove s.player = none ∧
      machine.step s (.request r) = some (s, [.answered r r.refusal])) ∨
    ∃ uri, machine.step s (.request r) = some (s.asked r uri, []) ∧
      (∀ m front pid t es, machine.Runs (s.asked r uri) m front → OneCommand r front →
        spawnedPids front = [] → machine.step m (.fork (some pid)) = some (t, es) →
        (r, .uri uri) ∈ answers front ∧ broadcasts front = [uri] ∧ es = [.spawned pid uri]) ∧
      (s.player.running = true → ∃ m front pid t es, machine.Runs (s.asked r uri) m front ∧
        OneCommand r front ∧ spawnedPids front = [] ∧
        machine.step m (.fork (some pid)) = some (t, es)) := by
  have free : r = .play → s.play.holdsMutex = false := fun play => by
    rcases navigation with rfl | rfl <;> cases play
  rcases Request.decide_iff settled.inv.range navigation with
    ⟨refused, decided⟩ | ⟨idx, uri, target, found, decided⟩
  · exact .inl ⟨refused, (Move.answer settled.idle free decided).step⟩
  · refine .inr ⟨uri, (Move.call settled.idle free decided).step, ?_, ?_⟩
    · intro m front pid t es run one silent fork
      have inv : Inv (s.asked r uri) := { settled.inv with alive := by simp [State.asked] }
      have at_ : (s.asked r uri).Recorded ∧ (s.asked r uri).player.childStopped = false ∨
          Quiet (s.asked r uri) := by
        rcases settled.cases_at with recorded | quiet
        · exact .inl recorded
        · exact .inr ⟨inv, quiet.stopped, quiet.nothing⟩
      have start : Heading s.player r idx uri (s.asked r uri) [] :=
        .asked rfl rfl rfl at_ rfl rfl
      have heading := start.exec ⟨navigation, target, found⟩ inv run
      obtain ⟨as, exec⟩ := run
      obtain ⟨said, is⟩ := heading.fork (inv.exec exec) one silent fork
      exact ⟨said.told, said.sent, is⟩
    · intro on
      obtain ⟨m, t, player, back, run, ahead⟩ := settled.ahead on navigation target
      obtain ⟨u, name, toSpawn, there, unreaped⟩ :=
        runs_spawn ahead.inv ahead.on ahead.unstopped ahead.at_
      have one : 0 < 1 := Nat.one_pos
      have forks := (Move.fork there one (by simp [unreaped])).step
      refine ⟨u, _, 1, _, _, run.trans (ahead.run.trans toSpawn), ?_, ?_, forks⟩
      · apply OneCommand.of_first
        rw [executedCmds_append, ahead.unheard]
        rfl
      · rw [spawnedPids_append, spawnedPids_append, spawnedPids_commandEvents, ahead.silent]
        rfl

/-- PREV of the playing second file of two. -/
def secondFile : State where
  player := { createPlayer false with
    playlist := ⟨["a.mp4", "b.mp4"], 1⟩
    running := true
    childPid := 7 }
  children := [⟨7, "b.mp4", false, false, false⟩]
  play := .waitpid 7
  resp := .idle
  stopping := 0

theorem secondFile_settled : secondFile.Settled where
  inv :=
    { range := ⟨by decide, by decide⟩
      recorded := rfl
      children := rfl
      pidOk := Nat.succ_pos 6
      stopped := fun on => by cases on
      drained := fun at_ => by cases at_
      awake := fun at_ => by cases at_
      paused := fun on => by cases on
      halted := fun halted => by rcases halted with at_ | at_ <;> cases at_
      alive := by simp [secondFile] }
  idle := rfl
  at_ := .inl ⟨Nat.succ_pos 6, .inl rfl⟩

theorem secondFile_goes_back : ∃ uri m front t es,
    machine.Runs (secondFile.asked .prev uri) m front ∧ OneCommand .prev front ∧
      machine.step m (.fork (some 8)) = some (t, es) ∧ broadcasts front = [uri] ∧
      es = [.spawned 8 uri] := by
  rcases nextChild secondFile_settled (.inr rfl : Request.prev = .next ∨ Request.prev = .prev) with
    ⟨refused, _⟩ | ⟨uri, _, each, _⟩
  · cases refused
  · have run : ∃ m front t es, machine.Runs (secondFile.asked .prev uri) m front ∧
        OneCommand .prev front ∧ spawnedPids front = [] ∧
        machine.step m (.fork (some 8)) = some (t, es) :=
      ⟨_, _, _, _, ⟨[.command ⟨0, 0⟩, .exit 7, .waitpid .reaped, .play, .play, .play, .play, .play,
        .play, .play, .play, .play], rfl⟩, ⟨rfl, rfl⟩, rfl, rfl⟩
    obtain ⟨m, front, t, es, run, one, silent, fork⟩ := run
    obtain ⟨_, sent, is⟩ := each m front 8 t es run one silent fork
    exact ⟨uri, m, front, t, es, run, one, fork, sent, is⟩

end OdroidPlayer
