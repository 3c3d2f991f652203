import OdroidPlayer.Player.Record

/-!
Playback under PAUSE and PLAY alone.

Neither of the two ends a child, so `run_player` goes round its main loop once for each
media, through every pause and every failed fork. A PAUSE or a RESUME that arrives
between two children stays in `pending_command` until the next cleanup, which treats it
like none. `InOrder` follows the thread around the loop, and `PlayAt.stepsLeft` counts
the steps that are left to it when the playlist is played once.
-/

namespace OdroidPlayer

open Transition.System

/-- The requests are PAUSE, and PLAY while a child is recorded; no other thread stops
the player. -/
def Listening (s : State) : Action → Prop
  | .request r => r = .pause ∨ r = .play ∧ 0 < s.player.childPid
  | .shutdown | .shutdownSignal => False
  | _ => True

instance (s : State) (a : Action) : Decidable (Listening s a) := by
  cases a <;> unfold Listening <;> infer_instance

/-- The uris of the children spawned, in order. -/
def spawnedUris (log : List Event) : List String := (spawns log).map Prod.snd

@[simp] theorem spawnedUris_append (front back : List Event) :
    spawnedUris (front ++ back) = spawnedUris front ++ spawnedUris back := by
  simp [spawnedUris]

/-- The commands that leave a living child to play on. -/
def PlayerCmd.Passive : PlayerCmd → Prop
  | .none | .pause | .resume => True
  | .next | .prev | .stop | .replay => False

/-- The statements from the fork to the end of the main loop, taken by a child that no
command has ended. -/
def PlayAt.AfterSpawn : PlayAt → Prop
  | .record _ | .waitpid _ | .cleanup _ => True
  | .exitTest pending | .dispatch pending => pending.Passive
  | _ => False

/-- The statements from the end of the playlist on. -/
def PlayAt.AtEnd : PlayAt → Prop
  | .endOfPlaylist | .stopPlayer | .finished => True
  | _ => False

/-- Where the player thread stands in the playlist once it has spawned `count` children. -/
inductive Stage (filenum : Nat) (loop : Bool) (s : State) (count : Nat) : Prop where
  | before (at_ : s.play.BeforeSpawn) (on : s.player.running = true)
      (idx : s.player.playlist.curIdx = (count % filenum : Nat))
      (more : loop = false → count < filenum)
  | after {last : Nat} (at_ : s.play.AfterSpawn) (on : s.player.running = true)
      (spawned : count = last + 1) (idx : s.player.playlist.curIdx = (last % filenum : Nat))
      (more : loop = false → last < filenum)
  | ended (at_ : s.play.AtEnd) (once : loop = false) (all : count = filenum)

structure InOrder (files : List String) (loop : Bool) (s : State) (log : List Event) : Prop where
  playing : Playing s log
  uriArr : s.player.playlist.uriArr = files
  looping : s.player.loop = loop
  unstopped : s.player.childStopped = false
  pending : s.player.pendingCommand.Passive
  calling : ∀ r command reply, s.resp = .calling r command reply → command.Passive
  order : ∀ i uri, (spawnedUris log)[i]? = some uri → files[i % files.length]? = some uri
  stage : Stage files.length loop s (spawnedUris log).length

section Keep

variable {files : List String} {loop : Bool} {s t : State} {a : Action} {log es : List Event}

/-- The player thread is at one of the statements of the three stages. -/
theorem InOrder.somewhere (order : InOrder files loop s log) :
    s.play.BeforeSpawn ∨ s.play.AfterSpawn ∨ s.play.AtEnd := by
  cases order.stage with
  | before at_ => exact .inl at_
  | after at_ => exact .inr (.inl at_)
  | ended at_ => exact .inr (.inr at_)

theorem InOrder.awake (order : InOrder files loop s log) : s.play ≠ .condWait := by
  intro at_
  have here := order.somewhere
  simp [at_, PlayAt.BeforeSpawn, PlayAt.AfterSpawn, PlayAt.AtEnd] at here

theorem InOrder.running (order : InOrder files loop s log) (notEnd : ¬ s.play.AtEnd) :
    s.player.running = true := by
  cases order.stage with
  | before _ on => exact on
  | after _ on => exact on
  | ended at_ => exact absurd at_ notEnd

theorem PlayAt.BeforeSpawn.only {at_ : PlayAt} (before : at_.BeforeSpawn) :
    ¬ at_.AfterSpawn ∧ ¬ at_.AtEnd := by
  cases at_ <;> first | exact before.elim | exact ⟨id, id⟩

/-- In front of the next fork. -/
theorem InOrder.before (order : InOrder files loop s log) (at_ : s.play.BeforeSpawn) :
    s.player.running = true ∧
      s.player.playlist.curIdx = ((spawnedUris log).length % files.length : Nat) ∧
      (loop = false → (spawnedUris log).length < files.length) := by
  obtain ⟨notAfter, notEnd⟩ := at_.only
  cases order.stage with
  | before _ on idx more => exact ⟨on, idx, more⟩
  | after there => exact absurd there notAfter
  | ended there => exact absurd there notEnd

/-- Behind the fork of the child `last`. -/
theorem InOrder.after (order : InOrder files loop s log) (notBefore : ¬ s.play.BeforeSpawn)
    (notEnd : ¬ s.play.AtEnd) :
    s.play.AfterSpawn ∧ s.player.running = true ∧ ∃ last, (spawnedUris log).length = last + 1 ∧
      s.player.playlist.curIdx = (last % files.length : Nat) ∧
      (loop = false → last < files.length) := by
  cases order.stage with
  | before there => exact absurd there notBefore
  | @after last there on spawned idx more => exact ⟨there, on, last, spawned, idx, more⟩
  | ended there => exact absurd there notEnd

theorem InOrder.files_pos (order : InOrder files loop s log) : 0 < files.length := by
  have range := order.playing.inv.range
  rw [Playlist.InRange, order.uriArr] at range
  omega

/-- What the requests decide: PLAY only ever calls RESUME. -/
theorem decide_passive {r : Request} {command : PlayerCmd} {reply : Reply}
    (listening : r = .pause ∨ r = .play ∧ 0 < s.player.childPid)
    (decided : r.decide s.player = .call command reply) : command.Passive := by
  rcases listening with rfl | ⟨rfl, known⟩
  · cases decided
    trivial
  · simp only [Request.decide, cmdPlay, Nat.pos_iff_ne_zero.mp known, if_false] at decided
    split at decided
    · cases decided
      trivial
    · cases decided

/-- A stage is told by the statement, the flag and the index. -/
theorem Stage.congr {filenum count : Nat} (stage : Stage filenum loop s count)
    (play : t.play = s.play) (running : t.player.running = s.player.running)
    (playlist : t.player.playlist = s.player.playlist) : Stage filenum loop t count := by
  cases stage with
  | before at_ on idx more =>
      exact .before (play ▸ at_) (running.trans on) (playlist ▸ idx) more
  | after at_ on spawned idx more =>
      exact .after (play ▸ at_) (running.trans on) spawned (playlist ▸ idx) more
  | ended at_ once all => exact .ended (play ▸ at_) once all

/-- A step that spawns nothing and leaves the lists and the flags as they have to be. -/
theorem InOrder.silent (order : InOrder files loop s log) (playing : Playing t (log ++ es))
    (uriArr : t.player.playlist.uriArr = s.player.playlist.uriArr)
    (looping : t.player.loop = s.player.loop) (unstopped : t.player.childStopped = false)
    (pending : t.player.pendingCommand.Passive)
    (calling : ∀ r command reply, t.resp = .calling r command reply → command.Passive)
    (silent : spawns es = [])
    (stage : Stage files.length loop t (spawnedUris log).length) :
    InOrder files loop t (log ++ es) := by
  have uris : spawnedUris (log ++ es) = spawnedUris log := by simp [spawnedUris, silent]
  refine ⟨playing, uriArr.trans order.uriArr, looping.trans order.looping, unstopped, pending,
    calling, ?_, ?_⟩
  · rw [uris]
    exact order.order
  · rw [uris]
    exact stage

/-- From the entry of the last child `forward_playlist` goes on to that of the next. -/
theorem forwardIdx_mod {filenum last : Nat} {index : Int} (some_ : 0 < filenum)
    (more : loop = false → last < filenum)
    (move : forwardIdx loop filenum (last % filenum : Nat) = some index) :
    index = ((last + 1) % filenum : Nat) ∧ (loop = false → last + 1 < filenum) := by
  have step : (last + 1) % filenum = (last % filenum + 1) % filenum := by rw [Nat.mod_add_mod]
  unfold forwardIdx at move
  split at move
  · rename_i inner
    cases move
    have inner : last % filenum + 1 < filenum := by omega
    refine ⟨by rw [step, Nat.mod_eq_of_lt inner]; rfl, fun once => ?_⟩
    rwa [Nat.mod_eq_of_lt (more once)] at inner
  · rename_i last_
    split at move
    · rename_i loops
      cases move
      refine ⟨?_, fun once => by simp [once] at loops⟩
      have bound := Nat.mod_lt last some_
      have all : last % filenum + 1 = filenum := by omega
      rw [step, all, Nat.mod_self]
      rfl
    · cases move

/-- It refuses at the end of a playlist that is played once. -/
theorem forwardIdx_mod_none {filenum last : Nat} (more : loop = false → last < filenum)
    (refused : forwardIdx loop filenum (last % filenum : Nat) = none) :
    loop = false ∧ last + 1 = filenum := by
  unfold forwardIdx at refused
  split at refused
  · cases refused
  · rename_i last_
    split at refused
    · cases refused
    · rename_i once
      have once : loop = false := by simpa using once
      have bound := more once
      rw [Nat.mod_eq_of_lt bound] at last_
      exact ⟨once, by omega⟩

/-- The forked child plays the entry after the last one. -/
theorem InOrder.fork (order : InOrder files loop s log) {uri : String} {pid : Nat}
    (playing : Playing { s with
      children := s.children ++ [⟨pid, uri, false, false, false⟩]
      play := .record pid } (log ++ [.spawned pid uri]))
    (chosen : getPlaylistUri s.player.playlist s.player.playlist.curIdx = some uri)
    (on : s.player.running = true)
    (idx : s.player.playlist.curIdx = ((spawnedUris log).length % files.length : Nat))
    (more : loop = false → (spawnedUris log).length < files.length) :
    InOrder files loop { s with
      children := s.children ++ [⟨pid, uri, false, false, false⟩]
      play := .record pid } (log ++ [.spawned pid uri]) := by
  have uris : spawnedUris (log ++ [.spawned pid uri]) = spawnedUris log ++ [uri] := by
    simp [spawnedUris, spawns]
  obtain ⟨uri', found, entry⟩ := getPlaylistUri_of_range order.playing.inv.range.1
    order.playing.inv.range.2
  have same : uri' = uri := by simpa [chosen] using found.symm
  rw [order.uriArr, idx, Int.toNat_natCast, same] at entry
  refine ⟨playing, order.uriArr, order.looping, order.unstopped, order.pending, order.calling,
    fun i name there => ?_, ?_⟩
  · rw [uris] at there
    rcases Nat.lt_or_ge i (spawnedUris log).length with old | new
    · rw [List.getElem?_append_left old] at there
      exact order.order i name there
    · rw [List.getElem?_append_right new, List.getElem?_singleton] at there
      split at there
      · rename_i last
        cases there
        rwa [show i = (spawnedUris log).length by omega]
      · cases there
  · rw [uris, List.length_append]
    exact .after trivial on rfl idx more

/-- The other threads leave the player thread in its stage. -/
theorem InOrder.others (order : InOrder files loop s log) (listening : Listening s a)
    (other : a.ofPlayer = false) (move : Move s a t es) : InOrder files loop t (log ++ es) := by
  have playing := order.playing.keep move
  have same := move.untouched other
  have running : t.player.running = s.player.running := by
    cases move with
    | shutdown | shutdownSignal => exact listening.elim
    | command => exact commandPlayer_running ..
    | answer | call | crash | exit => rfl
    | _ => cases other
  have stage := order.stage.congr (same.play_eq order.awake) running same.playlist
  have unstopped := same.childStopped.trans order.unstopped
  refine order.silent playing (by rw [same.playlist]) same.loop unstopped ?_ ?_
    (spawns_of_others same.events) stage
  · cases move with
    | shutdown | shutdownSignal => exact listening.elim
    | @command r command reply now calling =>
        simp only [State.commanded, commandPlayer_pendingCommand]
        exact order.calling r command reply calling
    | answer | call | crash | exit => exact order.pending
    | _ => cases other
  · intro r command reply calling
    cases move with
    | shutdown | shutdownSignal => exact listening.elim
    | call _ _ decided =>
        cases calling
        exact decide_passive listening decided
    | command => cases calling
    | crash => cases calling
    | answer | exit => exact order.calling r command reply calling
    | _ => cases other

/-- The player thread goes from stage to stage. -/
theorem InOrder.player (order : InOrder files loop s log) (own : a.ofPlayer = true)
    (move : Move s a t es) : InOrder files loop t (log ++ es) := by
  have playing := order.playing.keep move
  have here := order.somewhere
  cases move with
  | answer | call | crash | command | exit | shutdown | shutdownSignal => cases own
  | mayWait _ stopped | consume _ stopped => simp [order.unstopped] at stopped
  | wait at_ | waitOff at_ | wakeupMove at_ | wakeupStay at_ | tookStop at_ | tookPrev at_
  | tookPrevStay at_ | tookReplay at_ | setStopped at_ | spuriousWakeup at_ =>
      simp [at_, PlayAt.BeforeSpawn, PlayAt.AfterSpawn, PlayAt.AtEnd, PlayerCmd.Passive] at here
  | loopOff at_ off | goOff at_ off | exitOff at_ off =>
      rw [order.running (by simp [at_, PlayAt.AtEnd])] at off
      cases off
  | noUri at_ missing =>
      obtain ⟨uri, found⟩ := order.playing.inv.range.getPlaylistUri
      simp [missing] at found
  | waitFailed at_ stranger =>
      have pids : s.children.map Child.pid = [_] :=
        order.playing.inv.children.trans (by rw [at_]; rfl)
      obtain ⟨child, mem, pid⟩ := List.mem_map.mp (pids ▸ List.mem_singleton_self _)
      exact absurd pid (stranger child mem)
  | loopOn at_ | lock at_ | noWait at_ | goOn at_ | pass at_ | uri at_ | retry at_
  | forkFailed at_ =>
      obtain ⟨on, idx, more⟩ := order.before (by rw [at_]; trivial)
      exact order.silent playing rfl rfl order.unstopped order.pending order.calling rfl
        (.before trivial on idx more)
  | @fork uri pid at_ =>
      obtain ⟨on, idx, more⟩ := order.before (by rw [at_]; trivial)
      exact order.fork playing (order.playing.chosen uri at_) on idx more
  | eintr at_ => simpa using order
  | record at_ | reap at_ =>
      obtain ⟨-, on, last, spawned, idx, more⟩ :=
        order.after (by rw [at_]; exact id) (by rw [at_]; exact id)
      exact order.silent playing rfl rfl order.unstopped order.pending order.calling rfl
        (.after trivial on spawned idx more)
  | cleanup at_ =>
      obtain ⟨-, on, last, spawned, idx, more⟩ :=
        order.after (by rw [at_]; exact id) (by rw [at_]; exact id)
      exact order.silent playing rfl rfl order.unstopped trivial order.calling rfl
        (.after order.pending on spawned idx more)
  | exitOn at_ =>
      obtain ⟨there, on, last, spawned, idx, more⟩ :=
        order.after (by rw [at_]; exact id) (by rw [at_]; exact id)
      rw [at_] at there
      exact order.silent playing rfl rfl order.unstopped order.pending order.calling rfl
        (.after there on spawned idx more)
  | tookForward at_ _ moved =>
      obtain ⟨-, on, last, spawned, idx, more⟩ :=
        order.after (by rw [at_]; exact id) (by rw [at_]; exact id)
      obtain ⟨index, name, found, rfl, rfl⟩ := forwardPlaylist_moves order.playing.inv.range moved
      rw [order.uriArr, order.looping, idx] at found
      obtain ⟨next, more'⟩ := forwardIdx_mod order.files_pos more found
      refine order.silent playing rfl rfl order.unstopped order.pending order.calling ?_
        (.before trivial on ?_ ?_)
      · exact spawns_broadcastUri (some name)
      · rw [spawned]
        exact next
      · rw [spawned]
        exact more'
  | tookEnd at_ _ refused =>
      obtain ⟨-, on, last, spawned, idx, more⟩ :=
        order.after (by rw [at_]; exact id) (by rw [at_]; exact id)
      rw [forwardPlaylist_eq order.playing.inv.range, Option.map_eq_none_iff, order.uriArr,
        order.looping, idx] at refused
      obtain ⟨once, all⟩ := forwardIdx_mod_none more refused
      exact order.silent playing rfl rfl order.unstopped order.pending order.calling rfl
        (.ended trivial once (spawned.trans all))
  | endOfPlaylist at_ | stopPlayer at_ =>
      cases order.stage with
      | ended _ once all =>
          exact order.silent playing rfl rfl order.unstopped order.pending order.calling rfl
            (.ended trivial once all)
      | before there | after there =>
          rw [at_] at there
          exact there.elim

theorem InOrder.keep (order : InOrder files loop s log) (listening : Listening s a)
    (move : Move s a t es) : InOrder files loop t (log ++ es) := by
  cases own : a.ofPlayer with
  | false => exact order.others listening own move
  | true => exact order.player own move

/-! ### The playlist played once -/

/-- The actions by which the player thread gets on: neither a failed fork nor an
interrupted `waitpid`. -/
def Action.advances : Action → Bool
  | .fork none | .waitpid .eintr => false
  | a => a.ofPlayer

/-- A bound on the steps to the end of the thread, less twelve for each media that is
still to be spawned. -/
def PlayAt.stepsLeft : PlayAt → Nat
  | .record _ => 14
  | .waitpid _ => 13
  | .cleanup _ => 12
  | .exitTest _ => 11
  | .dispatch _ | .retrySleep => 10
  | .loopTest => 9
  | .waitLock => 8
  | .waitTest => 7
  | .runningTest => 6
  | .stoppedTest => 5
  | .readUri => 4
  | .spawn _ => 3
  | .endOfPlaylist => 2
  | .stopPlayer => 1
  | _ => 0

def stepsLeft (filenum : Nat) (s : State) (log : List Event) : Nat :=
  s.play.stepsLeft + 12 * (filenum - (spawnedUris log).length)

/-- Only a fork that succeeds spawns. -/
theorem Move.spawns_eq (move : Move s a t es) :
    spawns es = [] ∨ ∃ uri pid, s.play = .spawn uri ∧ a = .fork (some pid) ∧
      t.play = .record pid ∧ spawns es = [(pid, uri)] := by
  cases move with
  | @fork uri pid at_ => exact .inr ⟨uri, pid, at_, rfl, rfl, rfl⟩
  | wakeupMove | tookPrev | tookForward => exact .inl (spawns_broadcastUri _)
  | @command r command reply now =>
      exact .inl (spawns_of_others (commandEvents_ofPlayer s.player now r command reply))
  | _ => exact .inl rfl

/-- Without a spawn the statement alone tells the steps: it comes nearer to the end, but
for a fork that fails and a `waitpid` that is interrupted. -/
theorem InOrder.stepsLeft_play (order : InOrder files false s log) (move : Move s a t es)
    (silent : spawns es = []) :
    t.play.stepsLeft + (if a.advances then 1 else 0) ≤
      s.play.stepsLeft + (if a = .fork none then 7 else 0) := by
  cases own : a.ofPlayer with
  | false =>
      have idle : a.advances = false := by
        cases a <;> first | rfl | cases own
      rw [(move.untouched own).play_eq order.awake, idle]
      exact Nat.le_add_right _ _
  | true =>
      have here := order.somewhere
      cases move with
      | answer | call | crash | command | exit | shutdown | shutdownSignal => cases own
      | wait at_ | waitOff at_ | wakeupMove at_ | wakeupStay at_ | setStopped at_
      | spuriousWakeup at_ =>
          simp [at_, PlayAt.BeforeSpawn, PlayAt.AfterSpawn, PlayAt.AtEnd] at here
      | fork => cases silent
      | eintr => exact Nat.le_add_right _ _
      | forkFailed at_ => simp only [at_, State.jump_play, PlayAt.stepsLeft, Action.advances,
          Bool.false_eq_true, if_false, if_true, Nat.reduceAdd, le_refl]
      | _ at_ =>
          simp only [at_, State.jump_play, PlayAt.stepsLeft, Action.advances, Action.ofPlayer,
            if_true, reduceCtorEq, if_false, Nat.reduceAdd, Nat.add_zero, Nat.reduceLeDiff]

/-- Each advance takes a step off; a failed fork costs seven. -/
theorem InOrder.advance (order : InOrder files false s log) (move : Move s a t es) :
    stepsLeft files.length t (log ++ es) + (if a.advances then 1 else 0) ≤
      stepsLeft files.length s log + (if a = .fork none then 7 else 0) := by
  have uris : spawnedUris (log ++ es) = spawnedUris log ++ (spawns es).map Prod.snd := by
    rw [spawnedUris_append, spawnedUris, spawnedUris]
  rcases move.spawns_eq with silent | ⟨uri, pid, at_, rfl, recorded, one⟩
  · have nearer := order.stepsLeft_play move silent
    rw [silent, List.map_nil, List.append_nil] at uris
    rw [stepsLeft, stepsLeft, uris]
    omega
  · have more : (spawnedUris log).length < files.length :=
      (order.before (by rw [at_]; trivial)).2.2 rfl
    have count : (spawnedUris (log ++ es)).length = (spawnedUris log).length + 1 := by
      rw [uris, one, List.length_append]
      rfl
    simp only [stepsLeft, count, recorded, at_, PlayAt.stepsLeft, Action.advances,
      Action.ofPlayer, if_true, reduceCtorEq, if_false, Action.fork.injEq]
    omega

/-- The steps of a whole run. -/
theorem InOrder.advances {as : List Action} {log' : List Event}
    (order : InOrder files false s log) (only : machine.Along Listening s as)
    (run : machine.exec s as = some (t, log')) :
    stepsLeft files.length t (log ++ log') + as.countP Action.advances ≤
      stepsLeft files.length s log + 7 * as.count (.fork none) := by
  induction as generalizing s log log' with
  | nil =>
      simp only [exec_nil, Option.some.injEq, Prod.mk.injEq] at run
      obtain ⟨rfl, rfl⟩ := run
      simp
  | cons a as ih =>
      obtain ⟨m, es, rest, first, tail, rfl⟩ := exec_cons.mp run
      have move := step_move first
      have one := order.advance move
      have more := ih (order.keep only.1 move) (only.2 m es first) tail
      rw [List.append_assoc] at more
      have seven : (if a = .fork none then 7 else 0) = 7 * if a = .fork none then 1 else 0 := by
        split <;> rfl
      rw [seven] at one
      simp only [List.countP_cons, List.count_cons, beq_iff_eq]
      omega

/-- At a statement that leaves nothing to the environment the thread can go on. -/
theorem runPlayer_enabled {s : State} (thread : s.play ≠ .condWait)
    (spawn : ∀ uri, s.play ≠ .spawn uri) (record : ∀ pid, s.play ≠ .record pid)
    (waitpid : ∀ pid, s.play ≠ .waitpid pid) (finished : s.play ≠ .finished) :
    ∃ out, runPlayer s = some out := by
  cases at_ : s.play with
  | condWait => exact absurd at_ thread
  | spawn uri => exact absurd at_ (spawn uri)
  | record pid => exact absurd at_ (record pid)
  | waitpid pid => exact absurd at_ (waitpid pid)
  | finished => exact absurd at_ finished
  | stoppedTest =>
      simp only [runPlayer, at_]
      split <;> exact ⟨_, rfl⟩
  | readUri =>
      simp only [runPlayer, at_]
      split <;> exact ⟨_, rfl⟩
  | dispatch pending => cases pending <;> simp only [runPlayer, at_] <;> exact ⟨_, rfl⟩
  | _ =>
      simp only [runPlayer, at_]
      exact ⟨_, rfl⟩

/-- A player that is on and whose child, if it has one, has exited can get on. -/
theorem InOrder.canAdvance (order : InOrder files loop s log) (on : s.player.running = true)
    (dead : ∀ child ∈ s.children, child.exited = true) :
    ∃ a out, a.advances = true ∧ machine.step s a = some out := by
  have inv := order.playing.inv
  cases at_ : s.play with
  | condWait => exact absurd at_ order.awake
  | finished => simp [inv.halted (.inr at_)] at on
  | spawn uri =>
      have empty : s.children = [] := by simpa [at_, PlayAt.unreaped] using inv.children
      exact ⟨.fork (some 1), _, rfl, (Move.fork at_ Nat.one_pos (by simp [empty])).step⟩
  | record pid => exact ⟨.record ⟨0, 0⟩, _, rfl, (Move.record at_).step⟩
  | waitpid pid =>
      have pids : s.children.map Child.pid = [pid] := inv.children.trans (by rw [at_]; rfl)
      obtain ⟨child, mem, is⟩ := List.mem_map.mp (pids ▸ List.mem_singleton_self _)
      exact ⟨.waitpid .reaped, _, rfl, (Move.reap at_ ⟨child, mem, is, dead child mem⟩).step⟩
  | _ =>
      obtain ⟨out, enabled⟩ := runPlayer_enabled (s := s) (by simp [at_]) (by simp [at_])
        (by simp [at_]) (by simp [at_]) (by simp [at_])
      exact ⟨.play, out, rfl, enabled⟩

end Keep

/-- A playlist that is played once is spawned from the front. -/
theorem InOrder.isPrefix {files : List String} {s : State} {log : List Event}
    (order : InOrder files false s log) : spawnedUris log <+: files := by
  have bound : (spawnedUris log).length ≤ files.length := by
    cases order.stage with
    | before _ _ _ more => exact Nat.le_of_lt (more rfl)
    | after _ _ spawned _ more =>
        have := more rfl
        omega
    | ended _ _ all => exact Nat.le_of_eq all
  refine List.prefix_iff_getElem?.mpr fun i small => ?_
  have entry := order.order i _ (List.getElem?_eq_getElem small)
  rwa [Nat.mod_eq_of_lt (Nat.lt_of_lt_of_le small bound)] at entry

/-- The player is switched off only at the end of a playlist that is played once. -/
theorem InOrder.off {files : List String} {loop : Bool} {s : State} {log : List Event}
    (order : InOrder files loop s log) (off : s.player.running = false) :
    loop = false ∧ (spawnedUris log).length = files.length := by
  cases order.stage with
  | before _ on | after _ on => simp [off] at on
  | ended _ once all => exact ⟨once, all⟩

theorem Init.inOrder {s : State} (init : Init s) :
    InOrder s.player.playlist.uriArr s.player.loop s [] := by
  have playing := init.playing
  have inv := init.inv
  obtain ⟨isLoop, filelist, player, prepared, rfl⟩ := init
  obtain ⟨_, rfl⟩ := preparePlayer_spec prepared
  refine ⟨playing, rfl, rfl, rfl, trivial, by rintro r command reply ⟨⟩, by rintro i uri ⟨⟩, ?_⟩
  refine .before trivial rfl ?_ fun _ => ?_
  · simp [startPlayer, createPlayer, spawnedUris, spawns]
  · have range := inv.range
    simp only [Playlist.InRange] at range
    simp only [spawnedUris, spawns, List.filterMap_nil, List.map_nil, List.length_nil]
    omega

theorem InOrder.exec {files : List String} {loop : Bool} {s t : State} {as : List Action}
    {before log : List Event} (order : InOrder files loop s before)
    (only : machine.Along Listening s as) (run : machine.exec s as = some (t, log)) :
    InOrder files loop t (before ++ log) :=
  exec_rec_of_along (fun _ _ _ _ _ order listening move => order.keep listening (step_move move))
    only before order run

/-- Under PAUSE and PLAY alone the media are spawned in the order of the playlist. With
the loop flag they go round and the player stays on. Without it each is spawned once:
the player is switched off after the last of them and no earlier, which takes a bounded
number of steps, each of them possible unless a child is still alive. -/
theorem spawned_in_order {s t : State} {as : List Action} {log : List Event} (init : Init s)
    (only : machine.Along Listening s as) (run : machine.exec s as = some (t, log)) :
    (∀ i uri, (spawnedUris log)[i]? = some uri →
      s.player.playlist.uriArr[i % s.player.playlist.uriArr.length]? = some uri) ∧
    (t.player.running = true → (∀ child ∈ t.children, child.exited = true) →
      ∃ a out, a.advances = true ∧ machine.step t a = some out) ∧
    (s.player.loop = true → t.player.running = true) ∧
    (s.player.loop = false →
      spawnedUris log <+: s.player.playlist.uriArr ∧
      as.countP Action.advances ≤
        12 * s.player.playlist.uriArr.length + 9 + 7 * as.count (.fork none) ∧
      (t.player.running = false → spawnedUris log = s.player.playlist.uriArr ∧
        ∀ bs u rest, machine.Along Listening t bs → machine.exec t bs = some (u, rest) →
          spawnedUris rest = [])) := by
  have order : InOrder s.player.playlist.uriArr s.player.loop t log :=
    init.inOrder.exec only run
  refine ⟨order.order, order.canAdvance, fun loops => ?_, fun once => ?_⟩
  · by_contra off
    have once := (order.off (by simpa using off)).1
    simp [loops] at once
  · rw [once] at order
    have start : InOrder s.player.playlist.uriArr false s [] := once ▸ init.inOrder
    refine ⟨order.isPrefix, ?_, fun off => ?_⟩
    · have steps := start.advances only run
      have at_ : s.play = .loopTest := by
        obtain ⟨_, _, _, _, rfl⟩ := init
        rfl
      have first : stepsLeft s.player.playlist.uriArr.length s [] =
          9 + 12 * s.player.playlist.uriArr.length := by
        rw [stepsLeft, at_]
        rfl
      omega
    · have all := order.isPrefix.eq_of_length (order.off off).2
      refine ⟨all, fun bs u rest only' run' => ?_⟩
      have more := (order.exec only' run').isPrefix.length_le
      rw [spawnedUris_append, List.length_append, all] at more
      exact List.eq_nil_of_length_eq_zero (by omega)

/-- One file, played once: a fork fails, the child is paused and resumed, and a PAUSE comes
after its exit. -/
def playedOnce : List Action :=
  [.play, .play, .play, .play, .play, .play, .fork none, .play, .play, .play, .play, .play, .play,
    .play, .fork (some 7), .record ⟨1, 0⟩, .request .pause, .command ⟨2, 0⟩, .request .play,
    .command ⟨3, 0⟩, .exit 7, .waitpid .reaped, .request .pause, .command ⟨4, 0⟩, .play, .play,
    .play, .play, .play]

theorem playedOnce_in_order : ∃ t log,
    machine.exec (startPlayer { createPlayer false with playlist := ⟨["a.mp4"], 0⟩ }) playedOnce =
      some (t, log) ∧ t.player.running = false ∧ spawnedUris log = ["a.mp4"] := by
  refine ⟨_, _, rfl, rfl, ?_⟩
  have only : machine.Along Listening
      (startPlayer { createPlayer false with playlist := ⟨["a.mp4"], 0⟩ }) playedOnce := by decide
  exact ((spawned_in_order ⟨false, ["a.mp4"], _, rfl, rfl⟩ only rfl).2.2.2 rfl).2.2 rfl |>.1

end OdroidPlayer
