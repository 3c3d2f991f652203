import OdroidPlayer.Startup.Arguments

/-!
How many files the start can carry.

`filelist` has `MAX_FILENUM` slots and ends at its first NULL, so it carries one file less
than the playlist takes. `handle_filelist` refuses a file when the index is above
`MAX_FILENUM`, two files too late: the one that fills the last slot takes the NULL, and
the one after it is written behind the array. `bounded_iff` says on which command lines
that happens to none of the loops and `prepare_player` gets what has been named.
-/

namespace OdroidPlayer.Startup

open Stdio

/-- The accessible files that a command line names, in order. -/
def named (host : Host) (args : List (List UInt8)) : List (List UInt8) :=
  ((args.flatMap (namedIn host)).map Source.path).filter host.accessible

/-- The playlist entry for a path. -/
def pathUri (path : List UInt8) : List UInt8 := bytes "file://" ++ path

/-- The arguments are handled without an access outside of `filelist` and leave it with a
NULL, and `prepare_player` succeeds on all that they name exactly when it is one file or
more and no more than `MAX_FILENUM`. -/
def Bounded (host : Host) (args : List (List UInt8)) : Prop :=
  match handleArgument host args .initial with
  | .error stop => stop ≠ .fault
  | .ok s =>
      none ∈ s.filelist.slots ∧ (∃ freed, freeFilelist s.filelist.slots = .ok freed) ∧
      preparePlayer (createPlayer s.isLoop) s.filelist.slots =
        .ok (if 1 ≤ (named host args).length ∧ (named host args).length ≤ maxFilenum then
          some { createPlayer s.isLoop with
            playlist := ⟨(named host args).map fun path => text (pathUri path), 0⟩ }
        else none)

/-- The path of an accessible file fits behind `file://`, and a line that is not the path of
one has no accessible piece either. -/
def ReadWhole (host : Host) (source : Source) : Prop :=
  if host.accessible source.path then (pathUri source.path).length < bufferSize
  else ∀ name ∈ source.names, host.accessible name = false

/-- The names under which `handle_filelist` finds a file. -/
def found (host : Host) (args : List (List UInt8)) : List (List UInt8) :=
  ((sources host args).flatMap Source.names).filter host.accessible

/-- The NAME of a playlist file is one word that its buffer holds, and beside a playlist file no
FILE is accessible. -/
def Plain (host : Host) (args : List (List UInt8)) : Prop :=
  ∀ arg ∈ args, if dashed arg then ∀ name ∈ playlistName arg, firstWord name = name
    else hasPlaylist args = true → host.accessible arg = false

/-- The bytes of a path for which there is room behind `file://`. -/
def fileRoom : Nat := bufferSize - 8

/-- Everything is read whole. On a command line that is not plain, what is found in the files
that are opened may happen to be what is named. -/
def ReadAsNamed (host : Host) (args : List (List UInt8)) : Prop :=
  (Plain host args ∧ ∀ source ∈ sources host args, ReadWhole host source) ∨
    (¬ Plain host args ∧ (found host args).map (List.take fileRoom) = named host args)

/-- Fewer than `MAX_FILENUM` files are named and all of them are read; or more than that are
named and none is found. When `handle_argument` exits it is enough that no more than
`MAX_FILENUM` are found before. -/
def Fits (host : Host) (args : List (List UInt8)) : Prop :=
  if Exits args then (found host args).length ≤ maxFilenum
  else
    (named host args).length < maxFilenum ∧ ReadAsNamed host args ∨
    maxFilenum < (named host args).length ∧ found host args = []

/-! ### What is read and what is named -/

section Read

variable {host : Host} {args : List (List UInt8)}

/-- A line has no newline, and is not empty. -/
def Source.Proper : Source → Prop
  | .argument _ => True
  | .line path => newline ∉ path ∧ path ≠ []

theorem proper_linesOf {content : List UInt8} {source : Source} (mem : source ∈ linesOf content) :
    source.Proper := by
  obtain ⟨path, line, rfl⟩ := List.mem_map.mp mem
  obtain ⟨split, nonempty⟩ := List.mem_filter.mp line
  exact ⟨plain_of_mem_splitOn split, of_decide_eq_true nonempty⟩

theorem proper_openedIn {arg : List UInt8} {source : Source} (mem : source ∈ openedIn host arg) :
    source.Proper := by
  rw [openedIn] at mem
  cases given : playlistName arg with
  | none =>
      rw [given] at mem
      cases mem
  | some name =>
      rw [given] at mem
      exact proper_linesOf mem

theorem proper_sources {source : Source} (mem : source ∈ sources host args) : source.Proper := by
  rw [sources] at mem
  split at mem
  · obtain ⟨arg, _, mem⟩ := List.mem_flatMap.mp mem
    exact proper_openedIn mem
  · obtain ⟨arg, _, mem⟩ := List.mem_flatMap.mp mem
    rw [readIn] at mem
    split at mem
    · exact proper_openedIn mem
    · split at mem
      · cases mem
      · cases List.mem_singleton.mp mem
        trivial

theorem length_fileUri_lt (file : List UInt8) : (fileUri file).length < bufferSize := by
  have cut : (fileUri file).length ≤ bufferSize - 1 := by
    rw [fileUri, snprintf, List.length_take]
    exact Nat.min_le_left ..
  exact Nat.lt_of_le_of_lt cut (by decide)

theorem fileUri_eq (path : List UInt8) :
    fileUri path = pathUri path ↔ (pathUri path).length < bufferSize :=
  snprintf_eq_self (by decide)

theorem mem_entries_lt {given : List Source} {entry : List UInt8}
    (mem : entry ∈ entries host given) : entry.length < bufferSize := by
  obtain ⟨name, _, rfl⟩ := List.mem_map.mp mem
  exact length_fileUri_lt name

theorem fileUri_take (file : List UInt8) : fileUri file = pathUri (file.take fileRoom) := by
  have room : bufferSize - 1 = (bytes "file://").length + fileRoom := by decide
  rw [fileUri, snprintf, room, List.take_length_add_append, pathUri]

theorem pathUri_injective : Function.Injective pathUri :=
  fun _ _ => List.append_cancel_left

/-- What should come of an argument or of a line. -/
def wanted (host : Host) (source : Source) : List (List UInt8) :=
  if host.accessible source.path then [pathUri source.path] else []

/-- A path that fits behind `file://` fits into the buffer of `fgets`. -/
theorem names_of_short {source : Source} (proper : source.Proper)
    (accessible : host.accessible source.path = true)
    (short : (pathUri source.path).length < bufferSize) : source.names = [source.path] := by
  cases source with
  | argument path => rfl
  | line path =>
      obtain ⟨plain, nonempty⟩ := proper
      refine tokens_line plain (host.noNul _ accessible) nonempty ?_
      have prefix_ : (bytes "file://").length = 7 := by decide
      rw [pathUri, List.length_append, prefix_] at short
      simp only [Source.path, bufferSize] at short ⊢
      omega

theorem entries_eq_wanted_iff {source : Source} (proper : source.Proper) :
    entries host [source] = wanted host source ↔ ReadWhole host source := by
  have single : entries host [source] = uris host source.names := by
    rw [entries, List.flatMap_cons, List.flatMap_nil, List.append_nil]
  by_cases accessible : host.accessible source.path = true
  · rw [wanted, if_pos accessible, ReadWhole, if_pos accessible]
    constructor
    · intro eq
      exact mem_entries_lt (eq ▸ List.mem_singleton_self _)
    · intro short
      rw [single, names_of_short proper accessible short, uris, List.filter_cons_of_pos accessible]
      exact congrArg (fun uri => [uri]) ((fileUri_eq _).mpr short)
  · rw [wanted, if_neg accessible, ReadWhole, if_neg accessible, single, uris, List.map_eq_nil_iff,
      List.filter_eq_nil_iff]
    simp only [Bool.not_eq_true]

theorem wanted_named (given : List Source) :
    given.flatMap (wanted host) = ((given.map Source.path).filter host.accessible).map pathUri := by
  induction given with
  | nil => rfl
  | cons source given ih =>
      rw [List.flatMap_cons, ih, List.map_cons, List.filter_cons, wanted]
      split <;> rfl

/-- Where every accessible file is read whole there are at least as many entries as files,
and more if anything else is read. -/
theorem entries_length {given : List Source} (proper : ∀ source ∈ given, source.Proper)
    (short : ∀ source ∈ given, host.accessible source.path = true → ReadWhole host source) :
    (given.flatMap (wanted host)).length ≤ (entries host given).length ∧
      ((entries host given).length = (given.flatMap (wanted host)).length →
        ∀ source ∈ given, ReadWhole host source) := by
  induction given with
  | nil => exact ⟨Nat.le_refl _, fun _ _ mem => absurd mem List.not_mem_nil⟩
  | cons source given ih =>
      have here := proper source List.mem_cons_self
      obtain ⟨le, whole⟩ := ih (fun source mem => proper source (.tail _ mem))
        fun source mem => short source (.tail _ mem)
      have split : (entries host (source :: given)).length =
          (entries host [source]).length + (entries host given).length := by
        rw [← List.singleton_append, entries_append, List.length_append]
      have one : (wanted host source).length ≤ (entries host [source]).length ∧
          ((entries host [source]).length = (wanted host source).length →
            ReadWhole host source) := by
        by_cases accessible : host.accessible source.path = true
        · have read := short source List.mem_cons_self accessible
          rw [(entries_eq_wanted_iff here).mpr read]
          exact ⟨Nat.le_refl _, fun _ => read⟩
        · have nothing : wanted host source = [] := if_neg accessible
          rw [nothing, ← entries_eq_wanted_iff here, nothing]
          exact ⟨Nat.zero_le _, List.length_eq_zero_iff.mp⟩
      rw [List.flatMap_cons, List.length_append, split]
      refine ⟨Nat.add_le_add one.1 le, fun same other mem => ?_⟩
      rcases List.mem_cons.mp mem with rfl | mem
      · exact one.2 (by omega)
      · exact whole (by omega) other mem

/-- An entry comes of its own argument or line. -/
theorem entries_eq_iff {given : List Source} (proper : ∀ source ∈ given, source.Proper) :
    entries host given = given.flatMap (wanted host) ↔ ∀ source ∈ given, ReadWhole host source := by
  constructor
  · intro eq
    have short : ∀ source ∈ given, host.accessible source.path = true → ReadWhole host source := by
      intro source mem accessible
      have entry : pathUri source.path ∈ given.flatMap (wanted host) :=
        List.mem_flatMap.mpr ⟨source, mem, by simp [wanted, accessible]⟩
      rw [ReadWhole, if_pos accessible]
      exact mem_entries_lt (eq ▸ entry)
    exact (entries_length proper short).2 (congrArg List.length eq)
  · intro whole
    induction given with
    | nil => rfl
    | cons source given ih =>
        have first := (entries_eq_wanted_iff (proper source List.mem_cons_self)).mpr
          (whole source List.mem_cons_self)
        have rest := ih (fun source mem => proper source (.tail _ mem))
          fun source mem => whole source (.tail _ mem)
        rw [← List.singleton_append, entries_append, first, rest]
        rfl

/-- On a plain command line the accessible paths are those of what is read. -/
theorem named_of_plain (returns : ¬ Exits args) (plain : Plain host args) :
    named host args = ((sources host args).map Source.path).filter host.accessible := by
  have each : ∀ arg ∈ args, ((namedIn host arg).map Source.path).filter host.accessible =
      ((readIn host (hasPlaylist args) arg).map Source.path).filter host.accessible := by
    intro arg mem
    have here := plain arg mem
    rw [namedIn, readIn]
    split at here
    next option =>
        rw [if_pos option, if_pos option, openedIn]
        cases given : playlistName arg with
        | none => rfl
        | some name => rw [Option.map_some, Option.map_some, here name given]
    next file =>
        rw [if_neg file, if_neg file]
        cases list : hasPlaylist args with
        | true => simp [Source.path, here list]
        | false => rfl
  rw [named, sources, if_neg returns, List.map_flatMap, List.filter_flatMap, List.map_flatMap,
    List.filter_flatMap]
  exact List.flatMap_congr each

/-- What is read gives the entries that are named. -/
theorem entries_eq_named_iff (returns : ¬ Exits args) :
    entries host (sources host args) = (named host args).map pathUri ↔ ReadAsNamed host args := by
  by_cases plain : Plain host args
  · have whole : entries host (sources host args) = (named host args).map pathUri ↔
        ∀ source ∈ sources host args, ReadWhole host source := by
      rw [named_of_plain returns plain, ← wanted_named]
      exact entries_eq_iff fun source => proper_sources
    rw [whole, ReadAsNamed]
    exact ⟨fun whole => .inl ⟨plain, whole⟩, fun read => read.elim And.right fun other =>
      absurd plain other.1⟩
  · have cut : entries host (sources host args) = ((found host args).map (List.take fileRoom)).map
        pathUri := by
      rw [List.map_map]
      exact List.map_congr_left fun file _ => fileUri_take file
    rw [cut, (List.map_injective_iff.mpr pathUri_injective).eq_iff, ReadAsNamed]
    exact ⟨fun eq => .inr ⟨plain, eq⟩, fun read => read.elim (fun one => absurd one.1 plain)
      And.right⟩

end Read

/-! ### What `prepare_player` makes of it -/

theorem appendFiles_eq {playlist : Playlist} (fits : getPlaylistFilenum playlist ≤ maxFilenum)
    (files : List String) :
    appendFiles playlist files =
      if getPlaylistFilenum playlist + files.length ≤ maxFilenum then
        some { playlist with uriArr := playlist.uriArr ++ files }
      else none := by
  induction files generalizing playlist with
  | nil => rw [appendFiles, List.append_nil, List.length_nil, Nat.add_zero, if_pos fits]
  | cons file files ih =>
      rw [appendFiles]
      by_cases full : maxFilenum ≤ getPlaylistFilenum playlist
      · have more : ¬ getPlaylistFilenum playlist + (file :: files).length ≤ maxFilenum := by
          rw [List.length_cons]
          omega
        rw [if_pos full, if_neg more]
      · have longer : getPlaylistFilenum (appendPlaylist playlist file) =
            getPlaylistFilenum playlist + 1 := List.length_append
        have count : getPlaylistFilenum playlist + 1 + files.length =
            getPlaylistFilenum playlist + (file :: files).length := by
          rw [List.length_cons]
          omega
        rw [if_neg full, ih (by omega), longer, count, appendPlaylist, List.append_assoc]
        rfl

/-- `prepare_player` takes one file or more, and no more than `MAX_FILENUM`. -/
theorem preparePlayer_eq (isLoop : Bool) (files : List String) :
    OdroidPlayer.preparePlayer (createPlayer isLoop) files =
      if 1 ≤ files.length ∧ files.length ≤ maxFilenum then
        some { createPlayer isLoop with playlist := ⟨files, 0⟩ }
      else none := by
  have fresh : getPlaylistFilenum (createPlayer isLoop).playlist ≤ maxFilenum := Nat.zero_le _
  have taken := appendFiles_eq fresh files
  have count : getPlaylistFilenum (createPlayer isLoop).playlist + files.length = files.length :=
    Nat.zero_add _
  rw [count] at taken
  rw [OdroidPlayer.preparePlayer, taken]
  by_cases fits : files.length ≤ maxFilenum
  · rw [if_pos fits]
    cases files with
    | nil => rfl
    | cons file files => exact (if_pos ⟨Nat.succ_le_succ (Nat.zero_le _), fits⟩).symm
  · rw [if_neg fits, if_neg fun both => fits both.2]

/-- `prepare_player` on a NULL-terminated array makes of the strings what it should make of
the paths. -/
theorem prepared_iff {isLoop : Bool} {files paths : List (List UInt8)}
    (room : files.length < maxFilenum) :
    OdroidPlayer.preparePlayer (createPlayer isLoop) (files.map text) =
        (if 1 ≤ paths.length ∧ paths.length ≤ maxFilenum then
          some { createPlayer isLoop with
            playlist := ⟨paths.map fun path => text (pathUri path), 0⟩ }
        else none) ↔
      (paths.length ≤ maxFilenum → files = paths.map pathUri) ∧
        (maxFilenum < paths.length → files = []) := by
  have strings : files.map text = (paths.map fun path => text (pathUri path)) ↔
      files = paths.map pathUri := by
    have composed : (paths.map fun path => text (pathUri path)) = (paths.map pathUri).map text := by
      rw [List.map_map]
      rfl
    rw [composed]
    exact (List.map_injective_iff.mpr fun _ _ => text_injective).eq_iff
  rw [preparePlayer_eq, List.length_map]
  by_cases many : maxFilenum < paths.length
  · -- too many are named: nothing may have been read
    have refuse : ¬ (1 ≤ paths.length ∧ paths.length ≤ maxFilenum) := by omega
    rw [if_neg refuse]
    constructor
    · intro same
      refine ⟨fun le => absurd many (Nat.not_lt.mpr le), fun _ => ?_⟩
      by_contra some_
      rw [if_pos ⟨List.length_pos_iff.mpr some_, room.le⟩] at same
      cases same
    · rintro ⟨_, unread⟩
      rw [unread many]
      rfl
  · have le : paths.length ≤ maxFilenum := Nat.le_of_not_lt many
    have only : ((paths.length ≤ maxFilenum → files = paths.map pathUri) ∧
        (maxFilenum < paths.length → files = [])) ↔ files = paths.map pathUri :=
      ⟨fun both => both.1 le, fun eq => ⟨fun _ => eq, fun more => absurd more many⟩⟩
    rw [only]
    by_cases unread : files = []
    · have empty : ¬ (1 ≤ files.length ∧ files.length ≤ maxFilenum) := by simp [unread]
      rw [if_neg empty, unread]
      cases paths with
      | nil => exact iff_of_true rfl rfl
      | cons path paths =>
          rw [if_pos ⟨Nat.succ_le_succ (Nat.zero_le _), le⟩]
          exact iff_of_false (fun same => by cases same) fun eq => by cases eq
    · rw [if_pos ⟨List.length_pos_iff.mpr unread, room.le⟩]
      constructor
      · intro same
        split at same
        · rw [← strings]
          simpa using same
        · cases same
      · intro eq
        have count : files.length = paths.length := by rw [eq, List.length_map]
        rw [if_pos ⟨count ▸ List.length_pos_iff.mpr unread, le⟩, strings.mpr eq]

section Bounded

variable {host : Host} {args : List (List UInt8)}

/-- What is asked of a run that does not exit, in terms of the entries that are read. -/
theorem bounded_of_ok {s : Settings} (returned : handleArgument host args .initial = .ok s)
    (holds : s.filelist = .holding (entries host (sources host args)))
    (fits : (entries host (sources host args)).length ≤ maxFilenum) :
    Bounded host args ↔ (entries host (sources host args)).length < maxFilenum ∧
      ((named host args).length ≤ maxFilenum →
        entries host (sources host args) = (named host args).map pathUri) ∧
      (maxFilenum < (named host args).length → entries host (sources host args) = []) := by
  rw [Bounded, returned]
  simp only [holds]
  generalize entries host (sources host args) = files at fits
  by_cases room : files.length < maxFilenum
  · have null : none ∈ (Filelist.holding files).slots := by
      rw [Filelist.slots_holding room]
      exact List.mem_append_right _ List.mem_cons_self
    have freed : ∃ freed, freeFilelist (Filelist.holding files).slots = .ok freed :=
      ⟨files, (freeFilelist_holding fits).trans (if_pos room)⟩
    rw [preparePlayer_holding _ fits rfl, if_pos room, Except.ok.injEq, prepared_iff room]
    exact ⟨fun bounded => ⟨room, bounded.2.2⟩, fun exact_ => ⟨null, freed, exact_.2⟩⟩
  · have full := Nat.le_antisymm fits (Nat.le_of_not_lt room)
    refine iff_of_false (fun bounded => ?_) fun both => room both.1
    have null := bounded.1
    rw [Filelist.slots_full full] at null
    simp at null

/-- Exactly the command lines that fit are handled as they should be. -/
theorem bounded_iff (host : Host) (args : List (List UInt8)) :
    Bounded host args ↔ Fits host args := by
  have fills := handleArgument_fills host (s := .initial) rfl args
  have count : (entries host (sources host args)).length = (found host args).length :=
    List.length_map ..
  have unfound : entries host (sources host args) = [] ↔ found host args = [] :=
    List.map_eq_nil_iff
  rw [Fits, ← count, ← unfound]
  generalize result_ : handleArgument host args .initial = result at fills
  cases fills with
  | fault full =>
      have faults : ¬ Bounded host args := by
        rw [Bounded, result_]
        exact fun other => other rfl
      refine iff_of_false faults fun fits => ?_
      split at fits
      · omega
      next returns =>
          rcases fits with ⟨few, read⟩ | ⟨_, eq⟩
          · rw [(entries_eq_named_iff returns).mpr read, List.length_map] at full
            omega
          · rw [eq] at full
            cases full
  | exit fits exits code =>
      have bounded : Bounded host args := by
        rw [Bounded, result_]
        exact fun eq => by cases eq
      rw [if_pos exits]
      exact iff_of_true bounded fits
  | ok fits returns s holds flag =>
      rw [bounded_of_ok result_ holds fits, if_neg returns, ← entries_eq_named_iff returns]
      constructor
      · rintro ⟨room, few, many⟩
        rcases Nat.lt_or_ge maxFilenum (named host args).length with more | le
        · exact .inr ⟨more, many more⟩
        · refine .inl ⟨?_, few le⟩
          rwa [few le, List.length_map] at room
      · rintro (⟨room, eq⟩ | ⟨more, none_⟩)
        · refine ⟨?_, fun _ => eq, fun more => absurd room (Nat.lt_asymm more)⟩
          rwa [eq, List.length_map]
        · exact ⟨none_ ▸ by decide, fun le => absurd more (Nat.not_lt.mpr le), fun _ => none_⟩

/-- Whatever ends the start, `main` stays inside the array as well. -/
theorem main_ne_fault (bounded : Bounded host args) (launch : Launch) :
    main host launch args ≠ .error .fault := by
  rw [Bounded] at bounded
  rw [main]
  split
  · exact fun eq => by cases eq
  · generalize handleArgument host args .initial = result at bounded
    cases result with
    | error stop => exact fun eq => bounded (Except.error.inj eq)
    | ok s =>
        obtain ⟨_, ⟨freed, frees⟩, prepares⟩ := bounded
        simp only [frees, prepares]
        split
        · exact fun eq => by cases eq
        · split
          · rename_i eq
            cases eq
          · exact fun eq => by cases eq
          · exact fun eq => by cases eq

/-- A command line without options is a list of names. -/
theorem sources_names (host : Host) (names : ∀ arg ∈ args, dashed arg = false) :
    ¬ Exits args ∧ sources host args = args.map .argument := by
  have returns : ¬ Exits args := fun ⟨arg, mem, option, _⟩ => by
    rw [names arg mem] at option
    cases option
  have none_ : hasPlaylist args = false :=
    List.any_eq_false.mpr fun arg mem => by simp [names arg mem]
  have all : (args.filter fun arg => !dashed arg) = args :=
    List.filter_eq_self.mpr fun arg mem => by simp [names arg mem]
  refine ⟨returns, ?_⟩
  rw [sources, if_neg returns, none_, (readIn_files host none_).1, all]

theorem entries_names (names : ∀ arg ∈ args, dashed arg = false)
    (accessible : ∀ arg ∈ args, host.accessible arg = true) :
    entries host (sources host args) = args.map fileUri := by
  have all : args.filter host.accessible = args := List.filter_eq_self.mpr accessible
  rw [(sources_names host names).2, entries, names_arguments, uris, all]

/-- The file that fills the last slot takes the NULL. -/
theorem not_bounded_of_full (returns : ¬ Exits args)
    (full : (entries host (sources host args)).length = maxFilenum) : ¬ Bounded host args := by
  intro bounded
  have fills := handleArgument_fills host (s := .initial) rfl args
  rw [Bounded] at bounded
  generalize handleArgument host args .initial = result at bounded fills
  cases fills with
  | fault => exact bounded rfl
  | exit _ exits => exact returns exits
  | ok _ _ s holds =>
      have null := bounded.1
      rw [holds, Filelist.slots_full full] at null
      obtain ⟨file, _, eq⟩ := List.mem_map.mp null
      cases eq

end Bounded

/-- A host on which every path is the path of a file. -/
def anyFile : Host where
  accessible path := !path.contains 0
  fopen _ := none
  noNul path accessible := by simpa using accessible

theorem lastSlot_unbounded : ¬ Bounded anyFile (List.replicate maxFilenum (bytes "a")) := by
  have names : ∀ arg ∈ List.replicate maxFilenum (bytes "a"), dashed arg = false :=
    fun arg mem => List.eq_of_mem_replicate mem ▸ by decide
  have accessible : ∀ arg ∈ List.replicate maxFilenum (bytes "a"),
      anyFile.accessible arg = true :=
    fun arg mem => List.eq_of_mem_replicate mem ▸ by decide
  apply not_bounded_of_full (sources_names anyFile names).1
  rw [entries_names names accessible, List.length_map, List.length_replicate]

end OdroidPlayer.Startup
