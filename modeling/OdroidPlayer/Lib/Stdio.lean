import Mathlib.Data.List.TakeDrop
import Mathlib.Data.List.TakeWhile

/-!
Bytes as the C library moves them through buffers of a fixed size.

A C string is the list of its bytes before the NUL. A text that is read by lines is cut
at its newlines and, where a line is longer than the buffer of `fgets`, inside the line as
well: `tokens_eq_lines` is the exact account, and `tokens_line` is the case in which
nothing is cut.
-/

namespace Stdio

/-- The bytes of an ASCII string. -/
def bytes (s : String) : List UInt8 := s.toList.map fun c => UInt8.ofNat c.toNat

/-- One character for each byte. -/
def text (bytes : List UInt8) : String := String.ofList (bytes.map fun b => Char.ofNat b.toNat)

theorem bytes_text (s : List UInt8) : bytes (text s) = s := by
  simp only [bytes, text, String.toList_ofList, List.map_map]
  refine (List.map_congr_left fun b _ => ?_).trans (List.map_id s)
  have small : b.toNat < 256 := b.toNat_lt
  have valid : (Char.ofNat b.toNat).toNat = b.toNat := by
    rw [Char.ofNat, dif_pos (.inl (by omega))]
    rfl
  simp only [Function.comp, valid, UInt8.ofNat_toNat, id]

theorem text_injective {s t : List UInt8} (same : text s = text t) : s = t := by
  rw [← bytes_text s, same, bytes_text]

/-- `strncmp(s, t, n) == 0`; neither string holds a NUL. -/
def strncmpEq (s t : List UInt8) (n : Nat) : Bool := (s ++ [0]).take n == (t ++ [0]).take n

/-- What `snprintf` leaves in a buffer of `size` bytes, the last one kept for the NUL. -/
def snprintf (size : Nat) (text : List UInt8) : List UInt8 := text.take (size - 1)

theorem snprintf_eq_self {size : Nat} {text : List UInt8} (pos : 0 < size) :
    snprintf size text = text ↔ text.length < size := by
  rw [snprintf, List.take_eq_self_iff]
  omega

def newline : UInt8 := 10

/-- One call of `fgets` with room for so many bytes before the NUL: the bytes that it
reads and those that stay in the stream. -/
def fgets : Nat → List UInt8 → List UInt8 × List UInt8
  | 0, stream => ([], stream)
  | _ + 1, [] => ([], [])
  | room + 1, b :: stream =>
      if b = newline then ([b], stream) else (b :: (fgets room stream).1, (fgets room stream).2)

theorem length_fgets_rest_le (room : Nat) (stream : List UInt8) :
    (fgets room stream).2.length ≤ stream.length := by
  induction room generalizing stream with
  | zero => exact Nat.le_refl _
  | succ room ih =>
      cases stream with
      | nil => exact Nat.le_refl _
      | cons b stream =>
          rw [fgets]
          split
          · exact Nat.le_succ _
          · exact Nat.le_succ_of_le (ih stream)

theorem length_fgets_rest_lt (room : Nat) {stream : List UInt8} (more : stream ≠ []) :
    (fgets (room + 1) stream).2.length < stream.length := by
  obtain ⟨b, stream, rfl⟩ := List.exists_cons_of_ne_nil more
  rw [fgets]
  split
  · exact Nat.lt_succ_self _
  · exact Nat.lt_succ_of_le (length_fgets_rest_le room stream)

/-- What `while (fgets(...) != NULL)` finds in its buffer of `room + 2` bytes, a call at a
time. -/
def fgetsAll (room : Nat) (stream : List UInt8) : List (List UInt8) :=
  if more : stream = [] then []
  else (fgets (room + 1) stream).1 :: fgetsAll room (fgets (room + 1) stream).2
termination_by stream.length
decreasing_by exact length_fgets_rest_lt room more

/-- The first call of `strtok` on a string, with one delimiter. -/
def strtok (delim : UInt8) (s : List UInt8) : Option (List UInt8) :=
  match s.dropWhile (· == delim) with
  | [] => none
  | b :: rest => some ((b :: rest).takeWhile (· != delim))

/-- The string that a buffer holds. -/
def untilNul (buffer : List UInt8) : List UInt8 := buffer.takeWhile (· != 0)

/-- The names that a loop of `fgets` and `strtok` finds in a stream. -/
def tokens (room : Nat) (stream : List UInt8) : List (List UInt8) :=
  (fgetsAll room stream).filterMap fun buffer => strtok newline (untilNul buffer)

section Lines

variable {room : Nat} {line rest : List UInt8}

@[simp] theorem tokens_nil : tokens room [] = [] := by
  simp [tokens, fgetsAll]

theorem tokens_of_ne_nil {stream : List UInt8} (more : stream ≠ []) :
    tokens room stream = (strtok newline (untilNul (fgets (room + 1) stream).1)).toList ++
      tokens room (fgets (room + 1) stream).2 := by
  rw [tokens, fgetsAll, dif_neg more, List.filterMap_cons]
  cases strtok newline (untilNul (fgets (room + 1) stream).1) <;> rfl

/-- A line that does not fit is cut. -/
theorem fgets_cut (plain : newline ∉ line) {n : Nat} (long : n ≤ line.length) :
    fgets n (line ++ rest) = (line.take n, line.drop n ++ rest) := by
  induction n generalizing line with
  | zero => rfl
  | succ n ih =>
      cases line with
      | nil => simp at long
      | cons b line =>
          have other : b ≠ newline := fun eq => plain (eq ▸ List.mem_cons_self)
          have short : n ≤ line.length := Nat.le_of_succ_le_succ long
          rw [List.cons_append, fgets, if_neg other, ih (fun mem => plain (.tail _ mem)) short]
          rfl

/-- A line that fits is read with its newline. -/
theorem fgets_line (plain : newline ∉ line) {n : Nat} (short : line.length < n) :
    fgets n (line ++ newline :: rest) = (line ++ [newline], rest) := by
  induction n generalizing line with
  | zero => simp at short
  | succ n ih =>
      cases line with
      | nil => rw [List.nil_append, fgets, if_pos rfl, List.nil_append]
      | cons b line =>
          have other : b ≠ newline := fun eq => plain (eq ▸ List.mem_cons_self)
          have fits : line.length < n := Nat.lt_of_succ_lt_succ short
          rw [List.cons_append, fgets, if_neg other, ih (fun mem => plain (.tail _ mem)) fits]
          rfl

/-- A last line that fits is read to the end of the stream. -/
theorem fgets_last (plain : newline ∉ line) {n : Nat} (short : line.length ≤ n) :
    fgets n line = (line, []) := by
  induction n generalizing line with
  | zero =>
      obtain rfl : line = [] := List.length_eq_zero_iff.mp (Nat.le_zero.mp short)
      rfl
  | succ n ih =>
      cases line with
      | nil => rfl
      | cons b line =>
          have other : b ≠ newline := fun eq => plain (eq ▸ List.mem_cons_self)
          have fits : line.length ≤ n := Nat.le_of_succ_le_succ short
          rw [fgets, if_neg other, ih (fun mem => plain (.tail _ mem)) fits]

theorem strtok_plain (plain : newline ∉ line) (nonempty : line ≠ []) :
    strtok newline line = some line := by
  obtain ⟨b, line, rfl⟩ := List.exists_cons_of_ne_nil nonempty
  have other : b ≠ newline := fun eq => plain (eq ▸ List.mem_cons_self)
  have whole : (b :: line).takeWhile (· != newline) = b :: line :=
    List.takeWhile_eq_self_iff.mpr fun c mem => bne_iff_ne.mpr fun eq => plain (eq ▸ mem)
  rw [strtok, List.dropWhile_cons_of_neg (by simp [other])]
  exact congrArg some whole

theorem strtok_ended (plain : newline ∉ line) (nonempty : line ≠ []) :
    strtok newline (line ++ [newline]) = some line := by
  obtain ⟨b, line, rfl⟩ := List.exists_cons_of_ne_nil nonempty
  have other : b ≠ newline := fun eq => plain (eq ▸ List.mem_cons_self)
  have whole : (b :: line ++ [newline]).takeWhile (· != newline) = b :: line := by
    have passes : ∀ c ∈ b :: line, (c != newline) = true := fun c mem =>
      bne_iff_ne.mpr fun eq => plain (eq ▸ mem)
    rw [List.takeWhile_append_of_pos passes]
    simp
  rw [List.cons_append, strtok, List.dropWhile_cons_of_neg (by simp [other])]
  exact congrArg some whole

theorem untilNul_eq_self (noNul : (0 : UInt8) ∉ line) : untilNul line = line :=
  List.takeWhile_eq_self_iff.mpr fun _ mem => bne_iff_ne.mpr fun eq => noNul (eq ▸ mem)

/-- The newline behind a line does not count. -/
theorem strtok_line (plain : newline ∉ line) :
    strtok newline (untilNul (line ++ [newline])) = strtok newline (untilNul line) := by
  by_cases nul : (0 : UInt8) ∈ line
  · -- what follows the NUL is not part of the string
    obtain ⟨front, back, rfl, noNul⟩ := List.eq_append_cons_of_mem nul
    have before : ∀ b ∈ front, (b != 0) = true := fun b mem =>
      bne_iff_ne.mpr fun eq => noNul (eq ▸ mem)
    have cut : ∀ behind, untilNul (front ++ 0 :: behind) = front := by
      intro behind
      rw [untilNul, List.takeWhile_append_of_pos before]
      simp
    rw [List.append_assoc, List.cons_append, cut, cut]
  · have noNul : (0 : UInt8) ∉ line ++ [newline] := by simp [nul, newline]
    rw [untilNul_eq_self noNul, untilNul_eq_self nul]
    by_cases nonempty : line = []
    · rw [nonempty]
      rfl
    · rw [strtok_ended plain nonempty, strtok_plain plain nonempty]

/-- The end of a line separates what is found before it from what is found behind it. -/
theorem tokens_append {line : List UInt8} (plain : newline ∉ line) :
    tokens room (line ++ newline :: rest) = tokens room line ++ tokens room rest := by
  have more : line ++ newline :: rest ≠ [] := by simp
  rw [tokens_of_ne_nil more]
  by_cases fits : line.length < room + 1
  · rw [fgets_line plain fits, strtok_line plain]
    by_cases nonempty : line = []
    · rw [nonempty, tokens_nil]
      rfl
    · rw [tokens_of_ne_nil nonempty, fgets_last plain (Nat.le_of_lt fits), tokens_nil,
        List.append_nil]
  · -- the buffer is full before the newline, with the same bytes as without it
    have long : room + 1 ≤ line.length := Nat.le_of_not_lt fits
    have nonempty : line ≠ [] := fun none => by simp [none] at long
    have alone : fgets (room + 1) line = (line.take (room + 1), line.drop (room + 1)) := by
      have cut := @fgets_cut line [] plain (room + 1) long
      rwa [List.append_nil, List.append_nil] at cut
    have behind : newline ∉ line.drop (room + 1) := fun mem => plain (List.mem_of_mem_drop mem)
    have ih := tokens_append behind
    rw [fgets_cut plain long, tokens_of_ne_nil nonempty, alone, ih, List.append_assoc]
termination_by line.length
decreasing_by
  rw [List.length_drop]
  omega

theorem tokens_eq_lines (stream : List UInt8) :
    tokens room stream = (stream.splitOn newline).flatMap (tokens room) := by
  by_cases ends : newline ∈ stream
  · obtain ⟨line, rest, split, plain⟩ := List.eq_append_cons_of_mem ends
    rw [split, tokens_append plain, List.splitOn_append_cons_self_of_not_mem plain,
      List.flatMap_cons, tokens_eq_lines rest]
  · rw [List.splitOn_eq_singleton ends, List.flatMap_cons, List.flatMap_nil, List.append_nil]
termination_by stream.length
decreasing_by
  rw [split, List.length_append, List.length_cons]
  omega

theorem plain_of_mem_splitOn {stream line : List UInt8} (mem : line ∈ stream.splitOn newline) :
    newline ∉ line := by
  by_cases ends : newline ∈ stream
  · obtain ⟨first, rest, split, plain⟩ := List.eq_append_cons_of_mem ends
    rw [split, List.splitOn_append_cons_self_of_not_mem plain, List.mem_cons] at mem
    rcases mem with rfl | mem
    · exact plain
    · exact plain_of_mem_splitOn mem
  · rw [List.splitOn_eq_singleton ends, List.mem_singleton] at mem
    exact mem ▸ ends
termination_by stream.length
decreasing_by
  rw [split, List.length_append, List.length_cons]
  omega

/-- A line that fits into the buffer is one name. -/
theorem tokens_line (plain : newline ∉ line) (noNul : (0 : UInt8) ∉ line) (nonempty : line ≠ [])
    (short : line.length ≤ room + 1) : tokens room line = [line] := by
  rw [tokens_of_ne_nil nonempty, fgets_last plain short, untilNul_eq_self noNul,
    strtok_plain plain nonempty, tokens_nil]
  rfl

end Lines

end Stdio
