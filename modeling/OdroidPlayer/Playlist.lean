import Mathlib.Data.List.Basic

/-!
The playlist (`server/playlist/playlist.c`) and the two functions that move its
current index (`forward_playlist`, `backward_playlist` of `server/player/player.c`).

`uri_arr` is modelled by the list of its first `filenum` entries. `cur_idx` is a C
`int`, so it stays an integer here and the range is a property (`Playlist.InRange`)
that the callers keep, not one that the functions check.
-/

namespace OdroidPlayer

def maxFilenum : Nat := 128

structure Playlist where
  uriArr : List String
  curIdx : Int
  deriving DecidableEq, Repr

def createPlaylist : Playlist := ⟨[], 0⟩

def appendPlaylist (playlist : Playlist) (uri : String) : Playlist :=
  { playlist with uriArr := playlist.uriArr ++ [uri] }

def getPlaylistFilenum (playlist : Playlist) : Nat := playlist.uriArr.length

def getPlaylistCurIdx (playlist : Playlist) : Int := playlist.curIdx

/-- An index outside the playlist is refused and the index stays. -/
def setPlaylistCurIdx (playlist : Playlist) (index : Int) : Playlist :=
  if index < 0 ∨ (getPlaylistFilenum playlist : Int) ≤ index then playlist
  else { playlist with curIdx := index }

/-- `none` is the NULL that an index outside the playlist is answered with. -/
def getPlaylistUri (playlist : Playlist) (index : Int) : Option String :=
  if index < 0 ∨ (getPlaylistFilenum playlist : Int) ≤ index then none
  else playlist.uriArr[index.toNat]?

/-- `uri_arr[cur_idx]`, read without a check of the index. -/
def getPlaylistCurrentUri (playlist : Playlist) : Option String :=
  playlist.uriArr[playlist.curIdx.toNat]?

/-- `forward_playlist`: `none` when it returns false, else the moved playlist and
the uri it broadcasts. The comparison `++cur >= filenum` is between `size_t`s, so a
negative `cur` counts as past the end. -/
def forwardPlaylist (loop : Bool) (playlist : Playlist) : Option (Playlist × Option String) :=
  let cur := getPlaylistCurIdx playlist + 1
  if cur < 0 ∨ (getPlaylistFilenum playlist : Int) ≤ cur then
    if loop then
      let moved := setPlaylistCurIdx playlist 0
      some (moved, getPlaylistUri moved 0)
    else none
  else
    let moved := setPlaylistCurIdx playlist cur
    some (moved, getPlaylistUri moved cur)

/-- `backward_playlist`: `none` when it returns false. -/
def backwardPlaylist (playlist : Playlist) : Option (Playlist × Option String) :=
  let cur := getPlaylistCurIdx playlist
  if cur ≤ 0 then none
  else
    let moved := setPlaylistCurIdx playlist (cur - 1)
    some (moved, getPlaylistUri moved (cur - 1))

/-! ### The index stays inside the playlist -/

/-- The current index names an entry. -/
def Playlist.InRange (playlist : Playlist) : Prop :=
  0 ≤ playlist.curIdx ∧ playlist.curIdx < playlist.uriArr.length

theorem getPlaylistUri_of_range {playlist : Playlist} {index : Int} (low : 0 ≤ index)
    (high : index < playlist.uriArr.length) :
    ∃ uri, getPlaylistUri playlist index = some uri ∧
      playlist.uriArr[index.toNat]? = some uri := by
  have bound : index.toNat < playlist.uriArr.length := by omega
  have inside : ¬ (index < 0 ∨ (getPlaylistFilenum playlist : Int) ≤ index) := by
    simp only [getPlaylistFilenum]
    omega
  refine ⟨playlist.uriArr[index.toNat], ?_, List.getElem?_eq_getElem bound⟩
  rw [getPlaylistUri, if_neg inside, List.getElem?_eq_getElem bound]

theorem Playlist.InRange.getPlaylistUri {playlist : Playlist} (range : playlist.InRange) :
    ∃ uri, getPlaylistUri playlist playlist.curIdx = some uri := by
  obtain ⟨uri, found, _⟩ := getPlaylistUri_of_range range.1 range.2
  exact ⟨uri, found⟩

theorem setPlaylistCurIdx_of_range {playlist : Playlist} {index : Int} (low : 0 ≤ index)
    (high : index < playlist.uriArr.length) :
    setPlaylistCurIdx playlist index = { playlist with curIdx := index } := by
  have inside : ¬ (index < 0 ∨ (getPlaylistFilenum playlist : Int) ≤ index) := by
    simp only [getPlaylistFilenum]
    omega
  rw [setPlaylistCurIdx, if_neg inside]

/-- The index that `forward_playlist` moves to; `none` when it refuses. -/
def forwardIdx (loop : Bool) (filenum : Nat) (cur : Int) : Option Int :=
  if cur + 1 < filenum then some (cur + 1) else if loop then some 0 else none

/-- The index that `backward_playlist` moves to; `none` when it refuses. -/
def backwardIdx (cur : Int) : Option Int := if cur ≤ 0 then none else some (cur - 1)

theorem forwardIdx_range {loop : Bool} {filenum : Nat} {cur next : Int} (low : 0 ≤ cur)
    (high : cur < filenum) (move : forwardIdx loop filenum cur = some next) :
    0 ≤ next ∧ next < filenum := by
  unfold forwardIdx at move
  split at move
  · cases move
    omega
  · split at move
    · cases move
      omega
    · cases move

theorem backwardIdx_range {filenum : Nat} {cur next : Int} (high : cur < filenum)
    (move : backwardIdx cur = some next) : 0 ≤ next ∧ next < filenum := by
  unfold backwardIdx at move
  split at move
  · cases move
  · cases move
    omega

/-- On an index in range `forward_playlist` moves to `forwardIdx` and broadcasts the
uri found there. -/
theorem forwardPlaylist_eq {playlist : Playlist} (range : playlist.InRange) (loop : Bool) :
    forwardPlaylist loop playlist =
      (forwardIdx loop playlist.uriArr.length playlist.curIdx).map fun next =>
        ({ playlist with curIdx := next }, getPlaylistUri { playlist with curIdx := next } next) := by
  obtain ⟨low, high⟩ := range
  by_cases last : playlist.curIdx + 1 < playlist.uriArr.length
  · have inside : ¬ (playlist.curIdx + 1 < 0 ∨
        (playlist.uriArr.length : Int) ≤ playlist.curIdx + 1) := by omega
    have moved : setPlaylistCurIdx playlist (playlist.curIdx + 1) =
        { playlist with curIdx := playlist.curIdx + 1 } :=
      setPlaylistCurIdx_of_range (by omega) last
    simp only [forwardPlaylist, getPlaylistCurIdx, getPlaylistFilenum, forwardIdx, moved,
      if_neg inside, if_pos last, Option.map_some]
  · have past : playlist.curIdx + 1 < 0 ∨
        (playlist.uriArr.length : Int) ≤ playlist.curIdx + 1 := by omega
    have first : setPlaylistCurIdx playlist 0 = { playlist with curIdx := 0 } :=
      setPlaylistCurIdx_of_range (by omega) (by omega)
    simp only [forwardPlaylist, getPlaylistCurIdx, getPlaylistFilenum, forwardIdx, first,
      if_pos past, if_neg last]
    cases loop <;> rfl

/-- On an index in range `backward_playlist` moves to `backwardIdx`. -/
theorem backwardPlaylist_eq {playlist : Playlist} (range : playlist.InRange) :
    backwardPlaylist playlist =
      (backwardIdx playlist.curIdx).map fun next =>
        ({ playlist with curIdx := next }, getPlaylistUri { playlist with curIdx := next } next) := by
  obtain ⟨low, high⟩ := range
  unfold backwardPlaylist backwardIdx getPlaylistCurIdx
  by_cases first : playlist.curIdx ≤ 0
  · rw [if_pos first, if_pos first, Option.map_none]
  · have moved : setPlaylistCurIdx playlist (playlist.curIdx - 1) =
        { playlist with curIdx := playlist.curIdx - 1 } :=
      setPlaylistCurIdx_of_range (by omega) (by omega)
    rw [if_neg first, if_neg first, Option.map_some, moved]

end OdroidPlayer
