import OdroidPlayer.Player.NextChild
import OdroidPlayer.Startup.Capacity

/-!
The way of one path from the command line to `gst-launch`.

`fgets`, the `file://` of `handle_filelist` and the `uri=` of `spawn_child` each have a
buffer of `BUFFER_SIZE` bytes and cut what does not fit without a word. The last of the
three is the narrowest, so a path that is read arrives whole exactly when it leaves
`uri=file://` room there. A FILE is not read beside a playlist file, and a line is not when
the NAME of its file is cut at a space (`carried_iff`).
-/

namespace OdroidPlayer

open Transition.System

/-! ### Every entry has its turn -/

section Turn

variable {s t : State} {a : Action} {es log : List Event} {index : Nat}

theorem Move.uriArr (inv : Inv s) (move : Move s a t es) :
    t.player.playlist.uriArr = s.player.playlist.uriArr := by
  cases move with
  | wakeupMove _ moved =>
      rcases moved with ⟨_, moved⟩ | ⟨_, moved⟩
      · exact (forwardPlaylist_range inv.range moved).2
      · exact (backwardPlaylist_range inv.range moved).2
  | tookPrev _ moved => exact (backwardPlaylist_range inv.range moved).2
  | tookForward _ _ moved => exact (forwardPlaylist_range inv.range moved).2
  | command => exact congrArg Playlist.uriArr (commandPlayer_playlist ..)
  | _ => rfl

/-- The playlist keeps its entries. -/
theorem runs_uriArr (inv : Inv s) (run : machine.Runs s t log) :
    Inv t ∧ t.player.playlist.uriArr = s.player.playlist.uriArr := by
  obtain ⟨as, run⟩ := run
  refine exec_rec (I := fun t _ => Inv t ∧ t.player.playlist.uriArr = s.player.playlist.uriArr)
    ?_ [] ⟨inv, rfl⟩ run
  intro t log a u es held move
  exact ⟨held.1.keep (step_move move), ((step_move move).uriArr held.1).trans held.2⟩

/-- `run_player` reads the uri of the entry `index` next, and no command is pending. -/
structure Turn (s : State) (index : Nat) : Prop where
  inv : Inv s
  at_ : s.play = .readUri
  on : s.player.running = true
  unstopped : s.player.childStopped = false
  nothing : s.player.pendingCommand = .none
  idx : s.player.playlist.curIdx = index

theorem forwardPlaylist_inner {playlist : Playlist} (range : playlist.InRange) (loop : Bool)
    (more : playlist.curIdx + 1 < playlist.uriArr.length) :
    ∃ uri, forwardPlaylist loop playlist =
      some ({ playlist with curIdx := playlist.curIdx + 1 }, uri) := by
  rw [forwardPlaylist_eq range, forwardIdx, if_pos more]
  exact ⟨_, rfl⟩

/-- A reaped child gives the turn to the next entry. -/
theorem turn_of_cleanup {pid : Nat} (inv : Inv s) (at_ : s.play = .cleanup pid)
    (on : s.player.running = true) (unstopped : s.player.childStopped = false)
    (nothing : s.player.pendingCommand = .none) (idx : s.player.playlist.curIdx = index)
    (more : index + 1 < s.player.playlist.uriArr.length) :
    ∃ t log, machine.Runs s t log ∧ Turn t (index + 1) := by
  obtain ⟨uri, forward⟩ := forwardPlaylist_inner inv.range s.player.loop (by omega)
  have plain : s.player.pendingCommand.branch = .forward := by rw [nothing]; rfl
  have cleans := Move.cleanup at_
  have goes := Move.exitOn (s := s.cleanedAt (.exitTest s.player.pendingCommand)) rfl on
  have took := Move.tookForward (s := s.cleanedAt (.dispatch s.player.pendingCommand)) rfl plain
    forward
  have back := runs_readUri (s := { s.cleanedAt .loopTest with
    player.playlist.curIdx := s.player.playlist.curIdx + 1 }) on unstopped rfl
  have run := cleans.runs.trans (goes.runs.trans (took.runs.trans back))
  exact ⟨_, _, run, (runs_uriArr inv run).1, rfl, on, unstopped, rfl, congrArg (· + 1) idx⟩

/-- A child that is left to itself gives the turn to the next entry. -/
theorem Turn.next (turn : Turn s index) (more : index + 1 < s.player.playlist.uriArr.length) :
    ∃ t log, machine.Runs s t log ∧ Turn t (index + 1) := by
  have unreaped : s.children = [] := by
    simpa [turn.at_, PlayAt.unreaped] using turn.inv.children
  obtain ⟨uri, found⟩ := turn.inv.range.getPlaylistUri
  have reads := Move.uri turn.at_ found
  have forks := Move.fork (s := s.jump (.spawn uri)) rfl Nat.one_pos (by simp [unreaped])
  have records : Move { s with
      children := s.children ++ [⟨1, uri, false, false, false⟩]
      play := .record 1 } (.record ⟨1, 0⟩) _ [.recorded 1] := Move.record rfl
  have spawned := reads.runs.trans (forks.runs.trans records.runs)
  obtain ⟨t, pid, log, waits, at_, same, _⟩ :=
    runs_cleanup (runs_uriArr turn.inv spawned).1 ⟨1, .inl rfl⟩
  have run := spawned.trans waits
  obtain ⟨inv, arr⟩ := runs_uriArr turn.inv run
  obtain ⟨u, rest, back, next⟩ := turn_of_cleanup inv at_ (same ▸ turn.on) (same ▸ turn.unstopped)
    (same ▸ turn.nothing) (same ▸ turn.idx) (arr ▸ more)
  exact ⟨u, _, run.trans back, next⟩

theorem Init.turn (init : Init s) : ∃ t, machine.Runs s t [] ∧ Turn t 0 := by
  have inv := init.inv
  obtain ⟨isLoop, filelist, player, prepared, rfl⟩ := init
  obtain ⟨_, rfl⟩ := preparePlayer_spec prepared
  have run := runs_readUri (s := startPlayer { createPlayer isLoop with
    playlist := ⟨filelist, 0⟩ }) rfl rfl rfl
  exact ⟨_, run, (runs_uriArr inv run).1, rfl, rfl, rfl, rfl, rfl⟩

/-- Every entry of the playlist has its turn in some run. -/
theorem turn_reached (init : Init s) (inside : index < s.player.playlist.uriArr.length) :
    ∃ t log, machine.Runs s t log ∧ Turn t index := by
  induction index with
  | zero =>
      obtain ⟨t, run, turn⟩ := init.turn
      exact ⟨t, [], run, turn⟩
  | succ index ih =>
      obtain ⟨t, front, run, turn⟩ := ih (Nat.lt_of_succ_lt inside)
      have arr := (runs_uriArr init.inv run).2
      obtain ⟨u, back, rest, next⟩ := turn.next (arr ▸ inside)
      exact ⟨u, front ++ back, run.trans rest, next⟩

end Turn

end OdroidPlayer

namespace OdroidPlayer.Startup

open Stdio Transition.System

/-- The array `argv` of `spawn_child` around its `uri_arg`, up to the NULL. -/
def launchArgv (uriArg : List UInt8) : List (List UInt8) :=
  [bytes "gst-launch-1.0", bytes "-e", bytes "playbin", uriArg,
    bytes "video-sink=amlvideosink show-first-frame-asap=true", bytes "audio-sink=amlhalasink"]

/-- The arguments that `spawn_child` gives `execvp`. -/
def spawnArgv (uri : String) : List (List UInt8) :=
  launchArgv (snprintf bufferSize (bytes "uri=" ++ bytes uri))

/-- The argument that names the media of a path. -/
def uriArg (path : List UInt8) : List UInt8 := bytes "uri=" ++ pathUri path

/-- The strings of these arguments and lines in the playlist. -/
def playlistOf (host : Host) (given : List Source) : List String := (entries host given).map text

/-- `run_player` spawns a child for the entry `index`, with these arguments. -/
def SpawnedWith (argv : List (List UInt8)) (index : Nat) (player : Player) : Prop :=
  ∀ t log, machine.Runs (startPlayer player) t log → t.play = .readUri →
    t.player.playlist.curIdx = index → ∀ pid, 0 < pid → ∃ uri u,
      machine.exec t [.play, .fork (some pid)] = some (u, [.spawned pid uri]) ∧
        spawnArgv uri = argv

/-- What the playlist should hold of a FILE, or of the file that an option gives: the path of
`source`, behind what comes of the lines `before` and in front of what comes of those
`after`. -/
def lineEntries (host : Host) (before : List Source) (source : Source) (after : List Source) :
    List String :=
  playlistOf host before ++ text (pathUri source.path) :: playlistOf host after

/-- The playlist holds the path of `source`, which `arg` names between `before` and `after`, and
nothing else of it, at its place between what is read of the arguments in front of `arg` and
behind it, and its child is spawned with `uri=file://` and the path. -/
def Carried (host : Host) (args front back : List (List UInt8)) (before : List Source)
    (source : Source) (after : List Source) : Prop :=
  ∃ s player, handleArgument host args .initial = .ok s ∧
    preparePlayer (createPlayer s.isLoop) s.filelist.slots = .ok (some player) ∧
    player.playlist.uriArr =
      playlistOf host (front.flatMap (readIn host (hasPlaylist args))) ++
        (lineEntries host before source after ++
          playlistOf host (back.flatMap (readIn host (hasPlaylist args)))) ∧
    SpawnedWith (launchArgv (uriArg source.path))
      (playlistOf host (front.flatMap (readIn host (hasPlaylist args)) ++ before)).length player

/-- The file that is opened for an option gives what the file of its NAME gives, and a FILE
stands beside no playlist file. -/
def ReadFrom (host : Host) (args : List (List UInt8)) (arg : List UInt8) : Prop :=
  if dashed arg then entries host (openedIn host arg) = entries host (namedIn host arg)
  else hasPlaylist args = false

instance (host : Host) (args : List (List UInt8)) (arg : List UInt8) :
    Decidable (ReadFrom host args arg) :=
  inferInstanceAs (Decidable (if dashed arg then _ = _ else _ = _))

section Carried

variable {host : Host} {args front back : List (List UInt8)} {arg : List UInt8}
variable {before after : List Source} {source : Source}

/-- The child of an entry is given the whole of it if it fits behind `uri=`. -/
theorem spawnArgv_iff (path : List UInt8) :
    spawnArgv (text (pathUri path)) = launchArgv (uriArg path) ↔
      (uriArg path).length < bufferSize := by
  have whole : snprintf bufferSize (uriArg path) = uriArg path ↔
      (uriArg path).length < bufferSize := snprintf_eq_self (by decide)
  rw [← whole, spawnArgv, bytes_text]
  constructor
  · intro same
    simp only [launchArgv, List.cons.injEq, true_and] at same
    exact same.1
  · exact congrArg launchArgv

/-- Whoever has the turn is spawned. -/
theorem spawned_at_turn {s t : State} {log : List Event} {index pid : Nat} {uri : String}
    (init : Init s) (run : machine.Runs s t log) (at_ : t.play = .readUri)
    (idx : t.player.playlist.curIdx = index) (entry : s.player.playlist.uriArr[index]? = some uri)
    (pos : 0 < pid) :
    ∃ u, machine.exec t [.play, .fork (some pid)] = some (u, [.spawned pid uri]) := by
  obtain ⟨inv, arr⟩ := runs_uriArr init.inv run
  obtain ⟨name, found, here⟩ := getPlaylistUri_of_range inv.range.1 inv.range.2
  have same : name = uri := by
    rw [idx, Int.toNat_natCast, arr, entry] at here
    exact (Option.some.inj here).symm
  subst same
  have unreaped : t.children = [] := by
    simpa [at_, PlayAt.unreaped] using inv.children
  have reads := (Move.uri at_ found).step
  have forks := (Move.fork (s := t.jump (.spawn name)) rfl pos (by simp [unreaped])).step
  exact ⟨_, exec_cons.mpr ⟨_, _, _, reads, exec_cons.mpr ⟨_, _, _, forks, rfl, rfl⟩, rfl⟩⟩

theorem playlistOf_append (host : Host) (front back : List Source) :
    playlistOf host (front ++ back) = playlistOf host front ++ playlistOf host back := by
  rw [playlistOf, entries_append, List.map_append, playlistOf, playlistOf]

/-- `prepare_player` accepts what `handle_argument` has read if there is a NULL behind it. -/
theorem prepared_iff_room {s : Settings} {player : Player}
    (holds : s.filelist = .holding (entries host (sources host args)))
    (fits : (entries host (sources host args)).length ≤ maxFilenum) :
    preparePlayer (createPlayer s.isLoop) s.filelist.slots = .ok (some player) ↔
      (entries host (sources host args)).length < maxFilenum ∧
      OdroidPlayer.preparePlayer (createPlayer s.isLoop) (playlistOf host (sources host args)) =
        some player := by
  rw [holds, preparePlayer_holding _ fits rfl]
  by_cases room : (entries host (sources host args)).length < maxFilenum
  · rw [if_pos room, Except.ok.injEq]
    exact (and_iff_right room).symm
  · rw [if_neg room]
    exact iff_of_false (fun eq => by cases eq) fun both => room both.1

/-- Whatever fits behind `uri=` fits without it. -/
theorem pathUri_lt {path : List UInt8} (short : (uriArg path).length < bufferSize) :
    (pathUri path).length < bufferSize := by
  rw [uriArg, List.length_append] at short
  omega

theorem proper_namedIn (mem : source ∈ namedIn host arg) : source.Proper := by
  rw [namedIn] at mem
  split at mem
  · cases given : playlistName arg with
    | none =>
        rw [given] at mem
        cases mem
    | some name =>
        rw [given] at mem
        exact proper_linesOf mem
  · cases List.mem_singleton.mp mem
    trivial

/-- A path that fits comes between its neighbours. -/
theorem playlistOf_namedIn (given : namedIn host arg = before ++ source :: after)
    (accessible : host.accessible source.path = true)
    (short : (pathUri source.path).length < bufferSize) :
    playlistOf host (namedIn host arg) = lineEntries host before source after := by
  have mem : source ∈ namedIn host arg := by
    rw [given]
    exact List.mem_append_right _ List.mem_cons_self
  have whole : ReadWhole host source := by rwa [ReadWhole, if_pos accessible]
  have one : entries host [source] = [pathUri source.path] :=
    ((entries_eq_wanted_iff (proper_namedIn mem)).mpr whole).trans (if_pos accessible)
  rw [given, lineEntries, playlistOf_append, ← List.singleton_append, playlistOf_append]
  rw [playlistOf, playlistOf, one]
  rfl

/-- What is read of an argument is what it names, or nothing beside a playlist file. -/
theorem readIn_iff (given : namedIn host arg = before ++ source :: after)
    (accessible : host.accessible source.path = true)
    (short : (pathUri source.path).length < bufferSize) :
    playlistOf host (readIn host (hasPlaylist args) arg) = lineEntries host before source after ↔
      ReadFrom host args arg := by
  rw [← playlistOf_namedIn given accessible short, playlistOf, playlistOf,
    (List.map_injective_iff.mpr fun _ _ => text_injective).eq_iff, readIn, ReadFrom]
  by_cases option : dashed arg = true
  · rw [if_pos option, if_pos option]
  · rw [if_neg option, if_neg option]
    cases hasPlaylist args with
    | true =>
        -- the entry of the path is missing
        have some_ := congrArg List.length (playlistOf_namedIn given accessible short)
        refine iff_of_false (fun eq => ?_) (by decide)
        rw [playlistOf, ← eq, lineEntries, List.length_append, List.length_cons] at some_
        change 0 = _ at some_
        omega
    | false =>
        rw [namedIn, if_neg option, if_neg (by decide)]
        exact iff_of_true rfl rfl

/-- A NAME that is one word is the name of the file that is opened. -/
theorem readFrom_of_word (option : dashed arg = true)
    (word : ∀ name ∈ playlistName arg, firstWord name = name) : ReadFrom host args arg := by
  rw [ReadFrom, if_pos option, namedIn, if_pos option, openedIn]
  cases given : playlistName arg with
  | none => rfl
  | some name => rw [Option.map_some, Option.map_some, word name given]

theorem playlistOf_sources (returns : ¬ Exits args) (given : args = front ++ arg :: back) :
    playlistOf host (sources host args) =
      playlistOf host (front.flatMap (readIn host (hasPlaylist args))) ++
        (playlistOf host (readIn host (hasPlaylist args) arg) ++
          playlistOf host (back.flatMap (readIn host (hasPlaylist args)))) := by
  rw [sources, if_neg returns, ← playlistOf_append, ← playlistOf_append, ← List.flatMap_cons,
    ← List.flatMap_append, ← given]

section Spawn

variable {player : Player} {front back : List String} {path : List UInt8}

theorem getElem?_given {files : List String} {uri : String} (arr : files = front ++ uri :: back) :
    files[front.length]? = some uri := by
  rw [arr, List.getElem?_append_right (Nat.le_refl _), Nat.sub_self]
  rfl

/-- Where the arguments of the child are right, `uri=` and the entry have fitted. -/
theorem length_of_spawned (init : Init (startPlayer player))
    (arr : player.playlist.uriArr = front ++ text (pathUri path) :: back)
    (spawned : SpawnedWith (launchArgv (uriArg path)) front.length player) :
    (uriArg path).length < bufferSize := by
  have entry := getElem?_given arr
  have inside : front.length < player.playlist.uriArr.length :=
    (List.getElem?_eq_some_iff.mp entry).1
  obtain ⟨t, log, run, turn⟩ := turn_reached init inside
  obtain ⟨uri, u, forked, argv⟩ := spawned t log run turn.at_ turn.idx 1 Nat.one_pos
  obtain ⟨u', forked'⟩ := spawned_at_turn init run turn.at_ turn.idx entry Nat.one_pos
  have same : text (pathUri path) = uri := by
    rw [forked'] at forked
    simpa using congrArg (Option.map Prod.snd) forked
  subst same
  exact (spawnArgv_iff path).mp argv

theorem spawnedWith (init : Init (startPlayer player))
    (arr : player.playlist.uriArr = front ++ text (pathUri path) :: back)
    (short : (uriArg path).length < bufferSize) :
    SpawnedWith (launchArgv (uriArg path)) front.length player := by
  intro t log run at_ idx pid pos
  obtain ⟨u, forked⟩ := spawned_at_turn init run at_ idx (getElem?_given arr) pos
  exact ⟨_, u, forked, (spawnArgv_iff path).mpr short⟩

end Spawn

theorem lineEntries_split (front back : List String) :
    front ++ (lineEntries host before source after ++ back) =
      (front ++ playlistOf host before) ++
        text (pathUri source.path) :: (playlistOf host after ++ back) := by
  rw [lineEntries, List.append_assoc, List.append_assoc, List.cons_append]

theorem Carried.needs (carried : Carried host args front back before source after)
    (split : args = front ++ arg :: back) (given : namedIn host arg = before ++ source :: after)
    (accessible : host.accessible source.path = true) :
    ¬ Exits args ∧ (found host args).length < maxFilenum ∧
      (uriArg source.path).length < bufferSize ∧ ReadFrom host args arg := by
  obtain ⟨s, player, returned, prepared, arr, spawned⟩ := carried
  have fills := handleArgument_fills host (s := .initial) rfl args
  rw [returned] at fills
  cases fills with
  | ok fits returns _ holds _ =>
      obtain ⟨room, accepted⟩ := (prepared_iff_room holds fits).mp prepared
      have count : (entries host (sources host args)).length = (found host args).length :=
        List.length_map ..
      have one := arr.trans (lineEntries_split _ _)
      rw [playlistOf_append] at spawned
      have short := length_of_spawned ⟨_, _, player, accepted, rfl⟩ one spawned
      have read : playlistOf host (sources host args) = player.playlist.uriArr := by
        obtain ⟨_, rfl⟩ := preparePlayer_spec accepted
        rfl
      rw [playlistOf_sources returns split, arr, List.append_cancel_left_eq,
        List.append_cancel_right_eq] at read
      exact ⟨returns, count ▸ room, short, (readIn_iff given accessible (pathUri_lt short)).mp read⟩

/-- The path of an accessible file that an argument names, itself or on a line of its playlist
file, arrives at `gst-launch`, and it alone does, if and only if the argument is read, `uri=file://`
and the path fit into the buffer of `spawn_child`, and the array of the names holds a NULL
behind the last file. -/
theorem carried_iff (split : args = front ++ arg :: back)
    (given : namedIn host arg = before ++ source :: after)
    (accessible : host.accessible source.path = true) :
    Carried host args front back before source after ↔
      ¬ Exits args ∧ (found host args).length < maxFilenum ∧
      (uriArg source.path).length < bufferSize ∧ ReadFrom host args arg := by
  refine ⟨fun carried => carried.needs split given accessible, ?_⟩
  rintro ⟨returns, room, short, read⟩
  have count : (entries host (sources host args)).length = (found host args).length :=
    List.length_map ..
  have arr : playlistOf host (sources host args) = _ := playlistOf_sources returns split
  rw [(readIn_iff given accessible (pathUri_lt short)).mpr read] at arr
  rw [← count] at room
  have some_ : 1 ≤ (playlistOf host (sources host args)).length := by
    rw [arr, lineEntries_split, List.length_append, List.length_cons]
    omega
  have most : (playlistOf host (sources host args)).length ≤ maxFilenum := by
    rw [playlistOf, List.length_map]
    exact room.le
  have fills := handleArgument_fills host (s := .initial) rfl args
  generalize result_ : handleArgument host args .initial = result at fills
  cases fills with
  | fault full => exact absurd room (Nat.lt_asymm full)
  | exit _ exits => exact absurd exits returns
  | ok fits _ s holds _ =>
      have accepted := (preparePlayer_eq s.isLoop _).trans (if_pos ⟨some_, most⟩)
      refine ⟨s, _, result_, (prepared_iff_room holds fits).mpr ⟨room, accepted⟩, arr, ?_⟩
      rw [playlistOf_append]
      exact spawnedWith ⟨_, _, _, accepted, rfl⟩ (arr.trans (lineEntries_split _ _)) short

theorem shortPath_carried :
    Carried anyFile [bytes "a"] [] [] [] (.argument (bytes "a")) [] :=
  (carried_iff (rfl : _ = [] ++ bytes "a" :: []) rfl (by decide)).mpr (by decide)

/-- A path of 1013 bytes. -/
def longPath : List UInt8 := List.replicate 1013 97

/-- It is cut behind `uri=file://`. -/
theorem longPath_cut :
    namedIn anyFile longPath = [] ++ .argument longPath :: [] ∧
      anyFile.accessible longPath = true ∧
      ¬ Carried anyFile [longPath] [] [] [] (.argument longPath) [] := by
  have name : dashed longPath = false := by decide
  have given : namedIn anyFile longPath = [] ++ .argument longPath :: [] := by
    rw [namedIn, name]
    rfl
  have exists_ : ∀ n, anyFile.accessible (List.replicate n 97) = true := fun n => by
    simp [anyFile]
  refine ⟨given, exists_ 1013, fun carried => ?_⟩
  have long : (uriArg longPath).length = bufferSize := by
    rw [uriArg, pathUri, List.length_append, List.length_append, longPath, List.length_replicate]
    decide
  exact Nat.lt_irrefl _ (long ▸ (carried.needs rfl given (exists_ 1013)).2.2.1)

end Carried

end OdroidPlayer.Startup
