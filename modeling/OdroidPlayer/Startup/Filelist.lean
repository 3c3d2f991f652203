import OdroidPlayer.Lib.Stdio
import OdroidPlayer.Player.Command

/-!
`filelist`, the array of `main` that carries the names of the files from the command line
to `prepare_player`.

`handle_filelist` appends to the array and compares its index with `>`, the loops of
`free_filelist` and of `prepare_player` stop at a NULL, and nothing else keeps any of
them inside the `MAX_FILENUM` slots. An access outside of the array ends the run with a
fault. `strdup` is taken to succeed.
-/

namespace OdroidPlayer.Startup

open Stdio

/-- `BUFFER_SIZE` of `server/player/player.h`. -/
def bufferSize : Nat := 1024

/-- The files that the program can see, as `access` and `fopen` know them. -/
structure Host where
  /-- `access(file, F_OK) == 0` -/
  accessible : List UInt8 → Bool
  /-- the bytes of a file that can be opened -/
  fopen : List UInt8 → Option (List UInt8)
  /-- a path is a C string -/
  noNul : ∀ path, accessible path = true → (0 : UInt8) ∉ path

inductive ExitCode where
  | success | failure
  deriving DecidableEq, Repr

/-- Why the start goes no further. -/
inductive Stop where
  /-- an access outside of `filelist` -/
  | fault
  | exit (code : ExitCode)
  deriving DecidableEq, Repr

/-- The array and the static `file_idx` of `handle_filelist`; `none` is NULL. -/
structure Filelist where
  slots : List (Option (List UInt8))
  fileIdx : Nat
  deriving DecidableEq, Repr

/-- The array after the `memset` of `main`. -/
def Filelist.cleared : Filelist := ⟨List.replicate maxFilenum none, 0⟩

/-- The string that `handle_filelist` makes of a name. -/
def fileUri (file : List UInt8) : List UInt8 := snprintf bufferSize (bytes "file://" ++ file)

def handleFilelist (host : Host) (file : Option (List UInt8)) (filelist : Filelist) :
    Except Stop Filelist :=
  if maxFilenum < filelist.fileIdx then .ok filelist
  else match file with
    | none => .ok filelist
    | some file =>
        if host.accessible file then
          if filelist.fileIdx < filelist.slots.length then
            .ok ⟨filelist.slots.set filelist.fileIdx (some (fileUri file)), filelist.fileIdx + 1⟩
          else .error .fault
        else .ok filelist

/-- `free_filelist` from a slot on: the strings that it frees. -/
def freeFilelist : List (Option (List UInt8)) → Except Stop (List (List UInt8))
  | [] => .error .fault
  | none :: _ => .ok []
  | some file :: slots => (freeFilelist slots).map (file :: ·)

/-- The first loop of `prepare_player` from a slot on; `none` when the playlist is full. -/
def appendSlots (playlist : Playlist) :
    List (Option (List UInt8)) → Except Stop (Option Playlist)
  | [] => .error .fault
  | none :: _ => .ok (some playlist)
  | some file :: slots =>
      if maxFilenum ≤ getPlaylistFilenum playlist then .ok none
      else appendSlots (appendPlaylist playlist (text file)) slots

/-- `prepare_player` on the array; `none` when it returns false. -/
def preparePlayer (player : Player) (slots : List (Option (List UInt8))) :
    Except Stop (Option Player) :=
  match appendSlots player.playlist slots with
  | .error stop => .error stop
  | .ok none => .ok none
  | .ok (some playlist) =>
      if getPlaylistFilenum playlist = 0 then .ok none
      else (freeFilelist slots).map fun _ => some { player with playlist }

/-! ### The array as a list of strings -/

/-- The array that holds these strings. -/
def Filelist.holding (files : List (List UInt8)) : Filelist :=
  ⟨files.map some ++ List.replicate (maxFilenum - files.length) none, files.length⟩

theorem Filelist.cleared_eq : Filelist.cleared = Filelist.holding [] := rfl

/-- The array that these strings are stored in one by one; there is no slot for the last of
more than `MAX_FILENUM`. -/
def Filelist.fill (files : List (List UInt8)) : Except Stop Filelist :=
  if files.length ≤ maxFilenum then .ok (.holding files) else .error .fault

section Holding

variable {host : Host} {files : List (List UInt8)}

theorem Filelist.length_holding (fits : files.length ≤ maxFilenum) :
    (Filelist.holding files).slots.length = maxFilenum := by
  simp only [Filelist.holding, List.length_append, List.length_map, List.length_replicate]
  omega

theorem Filelist.slots_holding (room : files.length < maxFilenum) :
    (Filelist.holding files).slots =
      files.map some ++ none :: List.replicate (maxFilenum - files.length - 1) none := by
  have free : maxFilenum - files.length = maxFilenum - files.length - 1 + 1 := by omega
  rw [Filelist.holding, free, List.replicate_succ, Nat.add_sub_cancel]

theorem Filelist.slots_full (full : files.length = maxFilenum) :
    (Filelist.holding files).slots = files.map some := by
  rw [Filelist.holding, full, Nat.sub_self, List.replicate_zero, List.append_nil]

/-- The next free slot is behind the strings. -/
theorem Filelist.holding_set (room : files.length < maxFilenum) (file : List UInt8) :
    (⟨(Filelist.holding files).slots.set files.length (some file), files.length + 1⟩ : Filelist) =
      Filelist.holding (files ++ [file]) := by
  have behind : (files.map some).length = files.length := List.length_map ..
  have left : maxFilenum - (files ++ [file]).length = maxFilenum - files.length - 1 := by
    rw [List.length_append, List.length_singleton, Nat.sub_sub]
  rw [Filelist.slots_holding room, ← behind, List.set_append_right _ _ (Nat.le_refl _),
    Nat.sub_self, List.set_cons_zero, behind, Filelist.holding, left, List.map_append,
    List.append_assoc, List.length_append]
  rfl

theorem handleFilelist_holding (fits : files.length ≤ maxFilenum) (file : List UInt8) :
    handleFilelist host (some file) (Filelist.holding files) =
      if host.accessible file then
        if files.length < maxFilenum then .ok (Filelist.holding (files ++ [fileUri file]))
        else .error .fault
      else .ok (Filelist.holding files) := by
  have inside : ¬ maxFilenum < (Filelist.holding files).fileIdx := Nat.not_lt.mpr fits
  rw [handleFilelist, if_neg inside]
  simp only [Filelist.length_holding fits]
  congr 1
  by_cases room : files.length < maxFilenum
  · rw [if_pos room, if_pos (show (Filelist.holding files).fileIdx < maxFilenum from room)]
    exact congrArg Except.ok (Filelist.holding_set room _)
  · rw [if_neg room, if_neg (show ¬ (Filelist.holding files).fileIdx < maxFilenum from room)]

theorem handleFilelist_none (filelist : Filelist) :
    handleFilelist host none filelist = .ok filelist := by
  rw [handleFilelist]
  split <;> rfl

/-- What `handle_filelist` appends for names that it is handed in this order. -/
def uris (host : Host) (names : List (List UInt8)) : List (List UInt8) :=
  (names.filter host.accessible).map fileUri

/-- Names that are handed one after the other fill the array, until one finds it full. -/
theorem foldlM_handleFilelist (names : List (List UInt8)) (fits : files.length ≤ maxFilenum) :
    names.foldlM (fun filelist name => handleFilelist host (some name) filelist)
        (Filelist.holding files) = Filelist.fill (files ++ uris host names) := by
  induction names generalizing files with
  | nil =>
      have same : files ++ uris host [] = files := List.append_nil files
      rw [List.foldlM_nil, same, Filelist.fill, if_pos fits]
      rfl
  | cons name names ih =>
      rw [List.foldlM_cons, handleFilelist_holding fits]
      by_cases found : host.accessible name = true
      · have more : uris host (name :: names) = fileUri name :: uris host names := by
          simp [uris, found]
        rw [if_pos found, more]
        by_cases room : files.length < maxFilenum
        · have longer : (files ++ [fileUri name]).length ≤ maxFilenum := by
            rw [List.length_append, List.length_singleton]
            exact room
          have strings : files ++ [fileUri name] ++ uris host names =
              files ++ fileUri name :: uris host names := by simp
          rw [if_pos room, ← strings]
          exact ih longer
        · have full : ¬ (files ++ fileUri name :: uris host names).length ≤ maxFilenum := by
            rw [List.length_append, List.length_cons]
            omega
          rw [if_neg room, Filelist.fill, if_neg full]
          rfl
      · have same : uris host (name :: names) = uris host names := by
          simp [uris, found]
        rw [if_neg found, same]
        exact ih fits

theorem freeFilelist_terminated (rest : List (Option (List UInt8))) :
    freeFilelist (files.map some ++ none :: rest) = .ok files := by
  induction files with
  | nil => rfl
  | cons file files ih =>
      rw [List.map_cons, List.cons_append, freeFilelist, ih]
      rfl

theorem freeFilelist_full : freeFilelist (files.map some) = .error .fault := by
  induction files with
  | nil => rfl
  | cons file files ih =>
      rw [List.map_cons, freeFilelist, ih]
      rfl

/-- `free_filelist` frees every string, unless there is one in every slot. -/
theorem freeFilelist_holding (fits : files.length ≤ maxFilenum) :
    freeFilelist (Filelist.holding files).slots =
      if files.length < maxFilenum then .ok files else .error .fault := by
  by_cases room : files.length < maxFilenum
  · rw [if_pos room, Filelist.slots_holding room, freeFilelist_terminated]
  · rw [if_neg room, Filelist.slots_full (Nat.le_antisymm fits (Nat.le_of_not_lt room)),
      freeFilelist_full]

theorem appendSlots_terminated (playlist : Playlist) (rest : List (Option (List UInt8))) :
    appendSlots playlist (files.map some ++ none :: rest) =
      .ok (appendFiles playlist (files.map text)) := by
  induction files generalizing playlist with
  | nil => rfl
  | cons file files ih =>
      rw [List.map_cons, List.cons_append, List.map_cons, appendSlots, appendFiles, ih]
      split <;> rfl

theorem appendSlots_full {playlist : Playlist}
    (fits : getPlaylistFilenum playlist + files.length ≤ maxFilenum) :
    appendSlots playlist (files.map some) = .error .fault := by
  induction files generalizing playlist with
  | nil => rfl
  | cons file files ih =>
      rw [List.length_cons] at fits
      have room : ¬ maxFilenum ≤ getPlaylistFilenum playlist := by omega
      have longer : getPlaylistFilenum (appendPlaylist playlist (text file)) =
          getPlaylistFilenum playlist + 1 := by
        rw [getPlaylistFilenum, appendPlaylist, List.length_append]
        rfl
      rw [List.map_cons, appendSlots, if_neg room]
      apply ih
      omega

/-- `prepare_player` on the array is `prepare_player` on the strings that it holds, unless
there is one in every slot. -/
theorem preparePlayer_holding (player : Player) (fits : files.length ≤ maxFilenum)
    (fresh : player.playlist = createPlaylist) :
    preparePlayer player (Filelist.holding files).slots =
      if files.length < maxFilenum then .ok (OdroidPlayer.preparePlayer player (files.map text))
      else .error .fault := by
  by_cases room : files.length < maxFilenum
  · rw [if_pos room, Filelist.slots_holding room, preparePlayer, appendSlots_terminated,
      freeFilelist_terminated, OdroidPlayer.preparePlayer]
    cases appendFiles player.playlist (files.map text) with
    | none => rfl
    | some playlist => exact (apply_ite Except.ok _ _ _).symm
  · have full := Nat.le_antisymm fits (Nat.le_of_not_lt room)
    have none_ : getPlaylistFilenum player.playlist = 0 := by rw [fresh]; rfl
    rw [if_neg room, Filelist.slots_full full, preparePlayer, appendSlots_full (by omega)]

end Holding

end OdroidPlayer.Startup
