import OdroidPlayer.Player.Overwrite

/-!
NEXT and PREV in the life of one child.

`cmd_next` and `cmd_prev` answer with the uri one step from the current index, which
only the player thread advances, once, after the child has been reaped. Commands that
come before share the one `pending_command` cell. So the player moves by a single step,
the one of the last accepted command, and plays what that command was answered with.
-/

namespace OdroidPlayer

open Transition.System

/-- The single step that a navigation request asks for. -/
def Request.moves (player : Player) : Request → Option Int
  | .next => forwardIdx player.loop player.playlist.uriArr.length player.playlist.curIdx
  | .prev => backwardIdx player.playlist.curIdx
  | _ => none

def Request.command : Request → PlayerCmd
  | .next => .next
  | .prev => .prev
  | _ => .none

/-- The navigation requests answered with a uri of the playlist, in order. -/
def accepted (log : List Event) : List (Request × String) :=
  (answers log).filterMap fun
    | (r, .uri uri) => some (r, uri)
    | _ => none

/-- The steps of a run of NEXT and PREV in which the child exits only because of them. -/
def Navigating (s : State) : Action → Prop
  | .request r => r = .next ∨ r = .prev
  | .exit pid => ∃ child ∈ s.children, child.pid = pid ∧ child.terminated = true
  | _ => True

/-- What one accepted request after the other would do to the index. -/
def navigate (player : Player) (requests : List (Request × String)) : Player :=
  requests.foldl (fun player request => match request.1.moves player with
    | some idx => { player with playlist.curIdx := idx }
    | none => player) player

/-- The request was answered with the uri one step from the index of `player`. -/
def Offered (player : Player) (request : Request × String) : Prop :=
  (request.1 = .next ∨ request.1 = .prev) ∧
    ∃ idx, request.1.moves player = some idx ∧
      getPlaylistUri player.playlist idx = some request.2

@[simp] theorem accepted_append (front back : List Event) :
    accepted (front ++ back) = accepted front ++ accepted back := by
  simp [accepted]

theorem accepted_of_answers {es : List Event} (none : answers es = []) : accepted es = [] := by
  rw [accepted, none]
  rfl

theorem accepted_commandEvents (player : Player) (now : Timeval) (r : Request)
    (command : PlayerCmd) (uri : String) :
    accepted (commandEvents player now r command (.uri uri)) = [(r, uri)] := by
  rw [accepted, answers_commandEvents]
  rfl

/-! ### What a navigation request decides -/

/-- A navigation request is refused with a text or calls its command with the uri. -/
theorem Request.decide_navigation {player : Player} (range : player.playlist.InRange)
    {r : Request} (navigation : r = .next ∨ r = .prev) :
    (∃ text, r.decide player = .answer (.text text)) ∨
      ∃ uri, r.decide player = .call r.command (.uri uri) ∧ Offered player (r, uri) := by
  rcases navigation with rfl | rfl
  · rcases cmdNext_spec range with ⟨_, decided⟩ | ⟨idx, uri, moves, found, decided⟩
    · exact .inl ⟨_, decided⟩
    · exact .inr ⟨uri, decided, .inl rfl, idx, moves, found⟩
  · rcases cmdPrev_spec range with ⟨_, decided⟩ | ⟨idx, uri, moves, found, decided⟩
    · exact .inl ⟨_, decided⟩
    · exact .inr ⟨uri, decided, .inr rfl, idx, moves, found⟩

/-- The playlist functions of the player thread make the step that was asked for. -/
theorem forwardPlaylist_of_moves {player : Player} {idx : Int} (range : player.playlist.InRange)
    (moves : Request.moves player .next = some idx) :
    ∃ uri, forwardPlaylist player.loop player.playlist =
      some ({ player.playlist with curIdx := idx }, uri) := by
  have found : forwardIdx player.loop player.playlist.uriArr.length player.playlist.curIdx =
      some idx := moves
  rw [forwardPlaylist_eq range, found]
  exact ⟨_, rfl⟩

theorem backwardPlaylist_of_moves {player : Player} {idx : Int}
    (range : player.playlist.InRange) (moves : Request.moves player .prev = some idx) :
    ∃ uri, backwardPlaylist player.playlist =
      some ({ player.playlist with curIdx := idx }, uri) := by
  have found : backwardIdx player.playlist.curIdx = some idx := moves
  rw [backwardPlaylist_eq range, found]
  exact ⟨_, rfl⟩

/-- The response thread is idle or inside a navigation request. -/
def CallsNavigation (s : State) : Prop :=
  ∀ r command reply, s.resp = .calling r command reply →
    (r = .next ∨ r = .prev) ∧ command = r.command ∧ ∃ uri, reply = .uri uri

theorem Request.command_ne {r : Request} (navigation : r = .next ∨ r = .prev) :
    r.command ≠ .none ∧ r.command ≠ .stop := by
  rcases navigation with rfl | rfl <;> simp [Request.command]

theorem Request.next_of_forward {r : Request} (navigation : r = .next ∨ r = .prev)
    (forward : r.command.branch = .forward) : r = .next := by
  rcases navigation with is | rfl
  · exact is
  · cases forward

theorem Request.prev_of_command {r : Request} (navigation : r = .next ∨ r = .prev)
    (command : r.command = .prev) : r = .prev := by
  rcases navigation with rfl | is
  · cases command
  · exact is

theorem CallsNavigation.keep {s t : State} {a : Action} {es : List Event}
    (calls : CallsNavigation s) (inv : Inv s) (navigating : Navigating s a) (move : Move s a t es) :
    CallsNavigation t := by
  cases move with
  | @call r command reply idle free decided =>
      rcases Request.decide_navigation inv.range navigating with ⟨text, is⟩ | ⟨uri, is, _⟩
      · simp [is] at decided
      · obtain ⟨rfl, rfl⟩ : r.command = command ∧ Reply.uri uri = reply := by
          simpa [is] using decided
        intro r' command' reply' calling
        obtain ⟨rfl, rfl, rfl⟩ := RespAt.calling.inj calling
        exact ⟨navigating, rfl, uri, rfl⟩
  | crash => exact fun r command reply calling => by simp at calling
  | command => exact fun r command reply calling => by simp [State.commanded] at calling
  | _ => exact calls

/-- Only a command adds an accepted request. -/
theorem Move.accepted_eq {s t : State} {a : Action} {es : List Event} (move : Move s a t es)
    (inv : Inv s) (navigating : Navigating s a) (calls : CallsNavigation s) :
    accepted es = [] ∨ ∃ now r uri, s.resp = .calling r r.command (.uri uri) ∧
      (r = .next ∨ r = .prev) ∧ a = .command now ∧ t = s.commanded now r.command ∧
      accepted es = [(r, uri)] := by
  cases move with
  | @command r command reply now calling =>
      obtain ⟨navigation, rfl, uri, rfl⟩ := calls r command reply calling
      exact .inr ⟨now, r, uri, calling, navigation, rfl, rfl, accepted_commandEvents ..⟩
  | @answer r reply idle free decided =>
      rcases Request.decide_navigation inv.range navigating with ⟨text, is⟩ | ⟨uri, is, _⟩
      · obtain rfl : Reply.text text = reply := by simpa [is] using decided
        exact .inl rfl
      · simp [is] at decided
  | wakeupMove => exact .inl (accepted_of_answers (answers_broadcastUri _))
  | tookPrev | tookForward => exact .inl (accepted_of_answers (answers_broadcastUri _))
  | _ => exact .inl rfl

/-! ### The phases of the run -/

/-- The last accepted request is `request`, and each was offered from the first index. -/
structure Last (player : Player) (log : List Event) (request : Request × String) : Prop where
  last : (accepted log).getLast? = some request
  offered : ∀ other ∈ accepted log, Offered player other

inductive Course (first : Player) (s : State) (log : List Event) : Prop where
  /-- the child is recorded, and alive and well before the first accepted request -/
  | living (at_ : s.Recorded) (playlist : s.player.playlist = first.playlist)
      (loop : s.player.loop = first.loop) (stopped : s.player.childStopped = false)
      (before : accepted log = [] → s.player.pendingCommand = .none ∧
        (∃ pid, s.play = .waitpid pid) ∧
        ∀ child ∈ s.children, child.exited = false ∧ child.terminated = false)
      (pending : ∀ request, Last first log request →
        s.player.pendingCommand = request.1.command)
      (offered : ∀ request ∈ accepted log, Offered first request)
      (calls : ∀ r command uri, s.resp = .calling r command (.uri uri) → Offered first (r, uri))
  | deciding {request : Request × String} (last : Last first log request)
      (at_ : s.play = .exitTest request.1.command ∨ s.play = .dispatch request.1.command)
      (playlist : s.player.playlist = first.playlist) (loop : s.player.loop = first.loop)
      (stopped : s.player.childStopped = false)
  | moved {request : Request × String} {idx : Int} (last : Last first log request)
      (at_ : s.play.BeforeSpawn) (moves : request.1.moves first = some idx)
      (playlist : s.player.playlist = { first.playlist with curIdx := idx })
      (uri : ∀ uri, s.play = .spawn uri → uri = request.2)
      (stopped : s.player.childStopped = false)
  /-- a command was executed after the cleanup and will be pending at the spawn -/
  | disturbed (pending : s.player.pendingCommand ≠ .none)
      (stopped : s.player.childStopped = false)
      (at_ : s.play.BeforeSpawn ∨ s.play = .endOfPlaylist ∨
        ∃ p, p ≠ .stop ∧ (s.play = .exitTest p ∨ s.play = .dispatch p))
  | ended (halted : s.play.Halted)
  | spawned (some_ : spawnedPids log ≠ [])

section Keep

variable {first : Player} {s t : State} {a : Action} {log es : List Event}

theorem Last.append {request : Request × String} (last : Last first log request)
    (none : accepted es = []) : Last first (log ++ es) request := by
  have same : accepted (log ++ es) = accepted log := by
    rw [accepted_append, none, List.append_nil]
  exact ⟨same ▸ last.last, same ▸ last.offered⟩

/-- A command executed after the cleanup. -/
theorem Course.disturb {now : Timeval} {r : Request} (navigation : r = .next ∨ r = .prev)
    (stopped : s.player.childStopped = false)
    (at_ : s.play.BeforeSpawn ∨ s.play = .endOfPlaylist ∨
      ∃ p, p ≠ .stop ∧ (s.play = .exitTest p ∨ s.play = .dispatch p)) :
    Course first (s.commanded now r.command) log := by
  have awake : s.play ≠ .condWait := by
    rintro is
    simp [is, PlayAt.BeforeSpawn] at at_
  refine .disturbed ?_ ?_ ?_
  · simpa [State.commanded] using (Request.command_ne navigation).1
  · simpa [State.commanded] using stopped
  · simpa only [State.commanded, PlayAt.signalled_of_ne awake] using at_

theorem Course.living_command (at_ : s.Recorded)
    (playlist : s.player.playlist = first.playlist) (loop : s.player.loop = first.loop)
    (stopped : s.player.childStopped = false)
    (offered : ∀ request ∈ accepted log, Offered first request) {now : Timeval} {r : Request}
    {uri : String} (offer : Offered first (r, uri)) (accepts : accepted es = [(r, uri)]) :
    Course first (s.commanded now r.command) (log ++ es) := by
  have awake : s.play ≠ .condWait := by rcases at_ with ⟨pid, at_ | at_⟩ <;> simp [at_]
  have all : accepted (log ++ es) = accepted log ++ [(r, uri)] := by
    rw [accepted_append, accepts]
  refine .living ?_ ?_ ?_ ?_ (fun none => ?_) (fun request last => ?_) (fun other mem => ?_) ?_
  · simpa only [State.Recorded, State.commanded, PlayAt.signalled_of_ne awake] using at_
  · simpa [State.commanded] using playlist
  · simpa [State.commanded] using loop
  · simpa [State.commanded] using stopped
  · rw [all] at none
    simp at none
  · have is := last.last
    rw [all, List.getLast?_concat, Option.some.injEq] at is
    simp [State.commanded, ← is]
  · rw [all] at mem
    rcases List.mem_append.mp mem with old | new
    · exact offered other old
    · rwa [List.mem_singleton.mp new]
  · simp [State.commanded]

theorem Inv.mem_children (inv : Inv s) {pid : Nat} (at_ : s.play = .waitpid pid) :
    ∃ child ∈ s.children, child.pid = pid := by
  have pids : s.children.map Child.pid = [pid] := inv.children.trans (by rw [at_]; rfl)
  exact List.mem_map.mp (pids ▸ List.mem_singleton_self pid)

theorem Last.of_ne {first : Player} {log : List Event}
    (offered : ∀ request ∈ accepted log, Offered first request) (some_ : accepted log ≠ []) :
    ∃ request, Last first log request :=
  ⟨(accepted log).getLast some_, List.getLast?_eq_getLast_of_ne_nil some_, offered⟩

theorem Course.living_keep (at_ : s.Recorded) (playlist : s.player.playlist = first.playlist)
    (loop : s.player.loop = first.loop) (stopped : s.player.childStopped = false)
    (before : accepted log = [] → s.player.pendingCommand = .none ∧
      (∃ pid, s.play = .waitpid pid) ∧
      ∀ child ∈ s.children, child.exited = false ∧ child.terminated = false)
    (pending : ∀ request, Last first log request → s.player.pendingCommand = request.1.command)
    (offered : ∀ request ∈ accepted log, Offered first request)
    (calls : ∀ r command uri, s.resp = .calling r command (.uri uri) → Offered first (r, uri))
    (callsNav : CallsNavigation s) (inv : Inv s) (navigating : Navigating s a)
    (move : Move s a t es) : Course first t (log ++ es) := by
  rcases move.accepted_eq inv navigating callsNav with
    none | ⟨now, r, uri, calling, navigation, rfl, rfl, accepts⟩
  · have same : accepted (log ++ es) = accepted log := by
      rw [accepted_append, none, List.append_nil]
    have lastSame : ∀ request, Last first (log ++ es) request → Last first log request :=
      fun request last => ⟨same ▸ last.last, same ▸ last.offered⟩
    have offered' : ∀ request ∈ accepted (log ++ es), Offered first request := same.symm ▸ offered
    cases move with
    | reap at' zombie =>
        refine .living ⟨_, .inr rfl⟩ playlist loop stopped (fun none' => ?_)
          (fun request last => pending request (lastSame request last)) offered' calls
        obtain ⟨child, mem, _, exited⟩ := zombie
        simp [((before (same ▸ none')).2.2 child mem).1] at exited
    | waitFailed at' stranger =>
        obtain ⟨child, mem, is⟩ := inv.mem_children at'
        exact absurd is (stranger child mem)
    | cleanup at' =>
        have some_ : accepted log ≠ [] := fun none' => by
          obtain ⟨pid, there⟩ := (before none').2.1
          simp [at'] at there
        obtain ⟨request, last⟩ := Last.of_ne offered some_
        refine .deciding (last.append none) (.inl ?_) playlist loop stopped
        exact congrArg PlayAt.exitTest (pending request last)
    | eintr | answer | shutdown =>
        exact .living at_ playlist loop stopped (fun none' => before (same ▸ none'))
          (fun request last => pending request (lastSame request last)) offered' calls
    | shutdownSignal =>
        have there : s.play.signalled = s.play := PlayAt.signalled_of_ne at_.awake
        refine .living (by simpa only [State.Recorded, there] using at_) playlist loop stopped
          (fun none' => ?_) (fun request last => pending request (lastSame request last)) offered'
          calls
        simpa only [there] using before (same ▸ none')
    | @exit pid =>
        refine .living at_ playlist loop stopped (fun none' => ?_)
          (fun request last => pending request (lastSame request last)) offered' calls
        obtain ⟨child, mem, _, terminated⟩ := navigating
        simp [((before (same ▸ none')).2.2 child mem).2] at terminated
    | @call r command reply idle free decided =>
        refine .living at_ playlist loop stopped (fun none' => before (same ▸ none'))
          (fun request last => pending request (lastSame request last)) offered' ?_
        rintro r' command' uri calling
        obtain ⟨rfl, rfl, rfl⟩ := RespAt.calling.inj calling
        rcases Request.decide_navigation inv.range navigating with ⟨text, is⟩ | ⟨uri', is, offer⟩
        · simp [is] at decided
        · obtain ⟨_, rfl⟩ : _ ∧ uri' = uri := by simpa [is] using decided
          obtain ⟨navigation, idx, moves, found⟩ := offer
          refine ⟨navigation, idx, ?_, playlist ▸ found⟩
          rcases navigation with rfl | rfl <;>
            simpa only [Request.moves, ← playlist, ← loop] using moves
    | crash _ _ decided => exact absurd decided (Request.decide_ne_crash inv.range _)
    | @command r command reply now calling =>
        obtain ⟨navigation, rfl, uri, rfl⟩ := callsNav r command reply calling
        cases (accepted_commandEvents s.player now r r.command uri).symm.trans none
    | _ => obtain ⟨pid, at' | at'⟩ := at_ <;> simp_all
  · exact living_command at_ playlist loop stopped offered (calls r _ uri calling) accepts

theorem Course.deciding_keep {request : Request × String} (last : Last first log request)
    (at_ : s.play = .exitTest request.1.command ∨ s.play = .dispatch request.1.command)
    (playlist : s.player.playlist = first.playlist) (loop : s.player.loop = first.loop)
    (stopped : s.player.childStopped = false) (callsNav : CallsNavigation s) (inv : Inv s)
    (navigating : Navigating s a) (move : Move s a t es) : Course first t (log ++ es) := by
  obtain ⟨navigation, idx, moves, found⟩ := last.offered request (List.mem_of_getLast? last.last)
  have range : first.playlist.InRange := playlist ▸ inv.range
  rcases move.accepted_eq inv navigating callsNav with
    none | ⟨now, r, uri, calling, navigation', rfl, rfl, accepts⟩
  · have last' := last.append none
    cases mine : a.ofPlayer with
    | false =>
        have same := move.untouched mine
        have awake : s.play ≠ .condWait := by rcases at_ with at_ | at_ <;> simp [at_]
        exact .deciding last' (by rw [same.play_eq awake]; exact at_)
          (same.playlist.trans playlist) (same.loop.trans loop) (same.childStopped.trans stopped)
    | true =>
        rcases at_ with at_ | at_
        · cases move with
          | @exitOn pending at' =>
              obtain rfl := PlayAt.exitTest.inj (at'.symm.trans at_)
              exact .deciding last' (.inr rfl) playlist loop stopped
          | exitOff => exact .ended (.inl rfl)
          | _ => simp_all [Action.ofPlayer]
        · cases move with
          | @tookForward pending moved uri at' forward went =>
              obtain rfl := PlayAt.dispatch.inj (at'.symm.trans at_)
              have isNext := Request.next_of_forward navigation forward
              obtain ⟨uri', steps⟩ := forwardPlaylist_of_moves range (isNext ▸ moves)
              rw [playlist, loop, steps] at went
              obtain ⟨rfl, _⟩ := Prod.mk.inj (Option.some.inj went)
              exact .moved last' trivial moves rfl (by simp) stopped
          | @tookEnd pending at' forward refused =>
              obtain rfl := PlayAt.dispatch.inj (at'.symm.trans at_)
              have isNext := Request.next_of_forward navigation forward
              obtain ⟨uri', steps⟩ := forwardPlaylist_of_moves range (isNext ▸ moves)
              rw [playlist, loop, steps] at refused
              cases refused
          | @tookPrev moved uri at' went =>
              have isPrev := Request.prev_of_command navigation
                (PlayAt.dispatch.inj (at'.symm.trans at_)).symm
              obtain ⟨uri', steps⟩ := backwardPlaylist_of_moves range (isPrev ▸ moves)
              rw [playlist, steps] at went
              obtain ⟨rfl, _⟩ := Prod.mk.inj (Option.some.inj went)
              exact .moved last' trivial moves rfl (by simp) stopped
          | tookPrevStay at' refused =>
              have isPrev := Request.prev_of_command navigation
                (PlayAt.dispatch.inj (at'.symm.trans at_)).symm
              obtain ⟨uri', steps⟩ := backwardPlaylist_of_moves range (isPrev ▸ moves)
              rw [playlist, steps] at refused
              cases refused
          | tookStop at' | tookReplay at' =>
              rcases navigation with is | is <;> rw [at', is] at at_ <;> cases at_
          | _ => simp_all [Action.ofPlayer]
  · refine disturb navigation' stopped (.inr (.inr ⟨request.1.command, ?_, at_⟩))
    exact (Request.command_ne navigation).2

theorem Course.moved_keep {request : Request × String} {idx : Int}
    (last : Last first log request) (at_ : s.play.BeforeSpawn)
    (moves : request.1.moves first = some idx)
    (playlist : s.player.playlist = { first.playlist with curIdx := idx })
    (uri : ∀ uri, s.play = .spawn uri → uri = request.2)
    (stopped : s.player.childStopped = false) (callsNav : CallsNavigation s) (inv : Inv s)
    (navigating : Navigating s a) (move : Move s a t es) : Course first t (log ++ es) := by
  obtain ⟨_, idx', moves', found⟩ := last.offered request (List.mem_of_getLast? last.last)
  obtain rfl : idx = idx' := Option.some.inj (moves.symm.trans moves')
  rcases move.accepted_eq inv navigating callsNav with
    none | ⟨now, r, uri', calling, navigation, rfl, rfl, accepts⟩
  · have last' := last.append none
    cases mine : a.ofPlayer with
    | false =>
        have same := move.untouched mine
        have awake : s.play ≠ .condWait := fun is => by simp [is, PlayAt.BeforeSpawn] at at_
        have there := same.play_eq awake
        exact .moved last' (there ▸ at_) moves (same.playlist.trans playlist)
          (fun u is => uri u (there ▸ is)) (same.childStopped.trans stopped)
    | true =>
        cases move with
        | loopOff | goOff | noUri => exact .ended (.inl rfl)
        | loopOn | lock | noWait | goOn | pass | retry | forkFailed =>
            exact .moved last' trivial moves playlist (by simp) stopped
        | @uri uri' at' found' =>
            refine .moved last' trivial moves playlist (fun u is => ?_) stopped
            obtain rfl := PlayAt.spawn.inj is
            rw [playlist] at found'
            exact Option.some.inj (found'.symm.trans found)
        | fork => exact .spawned (by simp [spawnedPids])
        | mayWait _ on | consume _ on => simp [stopped] at on
        | _ => simp_all [Action.ofPlayer, PlayAt.BeforeSpawn]
  · exact disturb navigation stopped (.inl at_)

theorem Course.disturbed_keep (pending : s.player.pendingCommand ≠ .none)
    (stopped : s.player.childStopped = false)
    (at_ : s.play.BeforeSpawn ∨ s.play = .endOfPlaylist ∨
      ∃ p, p ≠ .stop ∧ (s.play = .exitTest p ∨ s.play = .dispatch p))
    (callsNav : CallsNavigation s) (move : Move s a t es) : Course first t (log ++ es) := by
  cases mine : a.ofPlayer with
  | false =>
      have same := move.untouched mine
      have awake : s.play ≠ .condWait := by
        rintro is
        simp [is, PlayAt.BeforeSpawn] at at_
      have there := same.play_eq awake
      cases move with
      | command calling =>
          obtain ⟨navigation, rfl, _⟩ := callsNav _ _ _ calling
          exact disturb navigation stopped at_
      | answer | call | crash | exit | shutdown | shutdownSignal =>
          exact .disturbed pending stopped (by rw [there]; exact at_)
      | _ => cases mine
  | true =>
      cases move with
      | loopOff | goOff | noUri | exitOff | endOfPlaylist => exact .ended (.inl rfl)
      | loopOn | lock | noWait | goOn | pass | uri | retry | forkFailed | tookPrev | tookPrevStay
      | tookReplay | tookForward => exact .disturbed pending stopped (.inl trivial)
      | tookEnd => exact .disturbed pending stopped (.inr (.inl rfl))
      | exitOn at' =>
          rcases at_ with at_ | at_ | ⟨p, notStop, at_ | at_⟩
          · simp [at', PlayAt.BeforeSpawn] at at_
          · simp [at'] at at_
          · obtain rfl := PlayAt.exitTest.inj (at'.symm.trans at_)
            exact .disturbed pending stopped (.inr (.inr ⟨_, notStop, .inr rfl⟩))
          · simp [at'] at at_
      | fork => exact .spawned (by simp [spawnedPids])
      | mayWait _ on | consume _ on => simp [stopped] at on
      | _ => simp_all [Action.ofPlayer, PlayAt.BeforeSpawn]

theorem Course.keep (course : Course first s log) (callsNav : CallsNavigation s) (inv : Inv s)
    (navigating : Navigating s a) (move : Move s a t es) : Course first t (log ++ es) := by
  cases course with
  | living at_ playlist loop stopped before pending offered calls =>
      exact living_keep at_ playlist loop stopped before pending offered calls callsNav inv
        navigating move
  | deciding last at_ playlist loop stopped =>
      exact deciding_keep last at_ playlist loop stopped callsNav inv navigating move
  | moved last at_ moves playlist uri stopped =>
      exact moved_keep last at_ moves playlist uri stopped callsNav inv navigating move
  | disturbed pending stopped at_ => exact disturbed_keep pending stopped at_ callsNav move
  | ended halted => exact .ended (move.halted halted).1
  | spawned some_ => exact .spawned (by simp [some_])

end Keep

theorem Course.exec {s m : State} {as : List Action} {log : List Event} (inv : Inv s)
    (callsNav : CallsNavigation s) (course : Course s.player s [])
    (navigating : machine.Along Navigating s as) (run : machine.exec s as = some (m, log)) :
    Course s.player m log := by
  let I := fun (u : State) (before : List Event) =>
    Inv u ∧ CallsNavigation u ∧ Course s.player u before
  have keep : ∀ (u : State) (before : List Event) (a : Action) (v : State) (es : List Event),
      I u before → Navigating u a → machine.step u a = some (v, es) → I v (before ++ es) := by
    rintro u before a v es ⟨inv, callsNav, course⟩ navigating step
    have move := step_move step
    exact ⟨inv.keep move, callsNav.keep inv navigating move,
      course.keep callsNav inv navigating move⟩
  simpa using (exec_rec_of_along keep navigating [] ⟨inv, callsNav, course⟩ run).2.2

/-- The player moves by the single step of the last accepted command, whatever was
accepted before, and plays the uri that this command was answered with. -/
theorem last_navigation_wins {s m t : State} {pid next : Nat} {as : List Action}
    {log es : List Event} (reach : Reachable s) (recorded : s.play = .waitpid pid)
    (nothing : s.player.pendingCommand = .none) (idle : s.resp = .idle)
    (alive : ∀ child ∈ s.children, child.exited = false ∧ child.terminated = false)
    (navigating : machine.Along Navigating s as) (run : machine.exec s as = some (m, log))
    (first : spawnedPids log = []) (fork : machine.step m (.fork (some next)) = some (t, es))
    (undisturbed : t.player.pendingCommand = .none) :
    (∀ request ∈ accepted log, Offered s.player request) ∧
      ∃ r uri, (accepted log).getLast? = some (r, uri) ∧
        r.moves s.player = some t.player.playlist.curIdx ∧ es = [.spawned next uri] := by
  have stopped : s.player.childStopped = false := by
    cases on : s.player.childStopped with
    | false => rfl
    | true => simpa [recorded, PlayAt.mayBeStopped] using reach.inv.stopped on
  have start : Course s.player s [] :=
    .living ⟨pid, .inl recorded⟩ rfl rfl stopped (fun _ => ⟨nothing, ⟨pid, recorded⟩, alive⟩)
      (fun request last => by cases last.last) (fun request mem => by cases mem)
      (fun r command uri calling => by simp [idle] at calling)
  have course := start.exec reach.inv (fun r command reply calling => by simp [idle] at calling)
    navigating run
  have move : Move m (.fork (some next)) t es := step_move fork
  cases move with
  | @fork uri _ at_ =>
      cases course with
      | living at' => obtain ⟨pid', at' | at'⟩ := at' <;> simp [at_] at at'
      | deciding _ at' => simp [at_] at at'
      | ended halted => simp [at_, PlayAt.Halted] at halted
      | spawned some_ => exact absurd first some_
      | disturbed pending => exact absurd undisturbed pending
      | @moved request idx last _ moves playlist uri' =>
          refine ⟨last.offered, request.1, request.2, last.last, ?_, ?_⟩
          · simpa [playlist] using moves
          · rw [uri' uri at_]

/-- A playing player of three files with nothing pending. -/
def threeFiles : State where
  player := { createPlayer false with
    playlist := ⟨["a.mp4", "b.mp4", "c.mp4"], 0⟩
    running := true
    childPid := 7 }
  children := [⟨7, "a.mp4", false, false, false⟩]
  play := .waitpid 7
  resp := .idle
  stopping := 0

theorem threeFiles_reachable : Reachable threeFiles :=
  ⟨_, startPlayer { createPlayer false with playlist := ⟨["a.mp4", "b.mp4", "c.mp4"], 0⟩ },
    ⟨false, ["a.mp4", "b.mp4", "c.mp4"], _, rfl, rfl⟩,
    [.play, .play, .play, .play, .play, .play, .fork (some 7), .record ⟨0, 0⟩], rfl⟩

/-- Two NEXT in the life of one child, up to the spawn of the following one. -/
def nextNext : List Action :=
  [.request .next, .command ⟨0, 0⟩, .request .next, .command ⟨0, 0⟩, .exit 7, .waitpid .reaped,
    .play, .play, .play, .play, .play, .play, .play, .play, .play]

theorem nextNext_navigating : machine.Along Navigating threeFiles nextNext := by
  have front : machine.Along Navigating threeFiles
      [.request .next, .command ⟨0, 0⟩, .request .next, .command ⟨0, 0⟩] := by
    apply along_of_forall
    intro a mem t
    simp only [List.mem_cons, List.not_mem_nil, or_false] at mem
    rcases mem with rfl | rfl | rfl | rfl <;> simp [Navigating]
  have back : ∀ t, machine.Along Navigating t [.waitpid .reaped, .play, .play, .play, .play, .play,
      .play, .play, .play, .play] := along_of_forall (by simp [Navigating])
  exact along_append front rfl ⟨by simp only [Navigating]; decide, fun t _ _ => back t⟩

theorem nextNext_run : ∃ m log t es, machine.exec threeFiles nextNext = some (m, log) ∧
    spawnedPids log = [] ∧ machine.step m (.fork (some 8)) = some (t, es) ∧
    t.player.pendingCommand = .none ∧ accepted log = [(.next, "b.mp4"), (.next, "b.mp4")] ∧
    t.player.playlist.curIdx = 1 :=
  ⟨_, _, _, _, rfl, rfl, rfl, rfl, rfl, rfl⟩

/-- Both NEXT are accepted, both with the second file, and the player moves to it. -/
theorem nextNext_loses_one : ∃ m log t es, machine.exec threeFiles nextNext = some (m, log) ∧
    machine.Along Navigating threeFiles nextNext ∧ spawnedPids log = [] ∧
    machine.step m (.fork (some 8)) = some (t, es) ∧ t.player.pendingCommand = .none ∧
    t.player.playlist.curIdx ≠ (navigate threeFiles.player (accepted log)).playlist.curIdx := by
  obtain ⟨m, log, t, es, run, first, fork, undisturbed, accepts, idx⟩ := nextNext_run
  refine ⟨m, log, t, es, run, nextNext_navigating, first, fork, undisturbed, ?_⟩
  rw [accepts, idx]
  decide

theorem nextNext_moves_once : ∃ m log t es r uri,
    machine.exec threeFiles nextNext = some (m, log) ∧
    machine.step m (.fork (some 8)) = some (t, es) ∧
    (accepted log).getLast? = some (r, uri) ∧
    Request.moves threeFiles.player r = some t.player.playlist.curIdx := by
  obtain ⟨m, log, t, es, run, first, fork, undisturbed, _, _⟩ := nextNext_run
  obtain ⟨_, r, uri, last, moves, _⟩ := last_navigation_wins threeFiles_reachable rfl rfl rfl
    (by decide) nextNext_navigating run first fork undisturbed
  exact ⟨m, log, t, es, r, uri, run, fork, last, moves⟩

end OdroidPlayer
