import OdroidPlayer.Lib.Decimal
import OdroidPlayer.Player.Position

/-!
The text of the position that the stream thread sends (`get_stream_time`).

The four fields are cut out of the nanoseconds separately. Together they are the tenths of a
second that have passed, and the text can be read back.
-/

namespace OdroidPlayer

/-- `STREAM_BUFFER_SIZE` -/
def streamBufferSize : Nat := 64

/-- `SECOND` -/
def nsPerSecond : Int64 := 1000000000

structure StreamTime where
  hour : Nat
  minute : Nat
  second : Nat
  tenth : Nat
  deriving DecidableEq, Repr

namespace StreamTime

def tenths (t : StreamTime) : Nat := ((t.hour * 60 + t.minute) * 60 + t.second) * 10 + t.tenth

/-- `H:MM:SS.D` -/
def text (t : StreamTime) : List Char :=
  Nat.toDigits 10 t.hour ++ ':' :: [(t.minute / 10).digitChar, (t.minute % 10).digitChar] ++
    ':' :: [(t.second / 10).digitChar, (t.second % 10).digitChar] ++ '.' :: [t.tenth.digitChar]

structure Regular (t : StreamTime) : Prop where
  minute : t.minute < 60
  second : t.second < 60
  tenth : t.tenth ≤ 9

def read (text : List Char) : Option StreamTime := do
  let (hour, text) ← Decimal.readField ':' text
  let (minute, text) ← Decimal.readField ':' text
  let (second, text) ← Decimal.readField '.' text
  let (tenth, text) ← Decimal.read text
  if text = [] then some ⟨hour, minute, second, tenth⟩ else none

end StreamTime

/-- The text that `get_stream_time` builds of what `get_player_position` has returned. -/
def streamTimeText (pos : Int64) : List Char :=
  let pos := if pos < 0 then 0 else pos
  let hour := pos / (nsPerSecond * 60 * 60)
  let minute := pos / (nsPerSecond * 60) % 60
  let second := pos / nsPerSecond % 60
  let msecond := pos % nsPerSecond / 100000000
  Decimal.formatLong 0 hour.toInt ++ ':' :: Decimal.formatLong 2 minute.toInt ++
    ':' :: Decimal.formatLong 2 second.toInt ++ '.' :: Decimal.formatLong 0 msecond.toInt

def getStreamTime (now : Timeval) (player : Player) : List Char :=
  streamTimeText (Int64.ofInt (getPlayerPosition now player))

/-- The four fields of so many nanoseconds. -/
def streamTimeOf (ns : Nat) : StreamTime where
  hour := ns / 3600000000000
  minute := ns / 60000000000 % 60
  second := ns / 1000000000 % 60
  tenth := ns % 1000000000 / 100000000

theorem streamTimeOf_regular (ns : Nat) : (streamTimeOf ns).Regular where
  minute := Nat.mod_lt _ (by omega)
  second := Nat.mod_lt _ (by omega)
  tenth := by
    simp only [streamTimeOf]
    omega

/-- The carries between the fields. -/
theorem tenths_streamTimeOf (ns : Nat) : (streamTimeOf ns).tenths = ns / 100000000 := by
  simp only [streamTimeOf, StreamTime.tenths]
  omega

/-- The fields change with the tenth only. -/
theorem streamTimeOf_congr {ns ns' : Nat} (same : ns / 100000000 = ns' / 100000000) :
    streamTimeOf ns = streamTimeOf ns' := by
  simp only [streamTimeOf, StreamTime.mk.injEq]
  refine ⟨?_, ?_, ?_, ?_⟩ <;> omega

theorem hour_lt (pos : Int64) : (streamTimeOf pos.toInt.toNat).hour < 10000000 := by
  have small := pos.toInt_lt
  simp only [streamTimeOf]
  omega

/-! ### The text -/

/-- The same with what `printf` makes of each field. -/
theorem StreamTime.text_eq {t : StreamTime} (regular : t.Regular) :
    t.text = Decimal.padded 0 t.hour ++ ':' :: Decimal.padded 2 t.minute ++
      ':' :: Decimal.padded 2 t.second ++ '.' :: Decimal.padded 0 t.tenth := by
  have tenth := regular.tenth
  rw [text, Decimal.padded_zero, Decimal.padded_two (lt_trans regular.minute (by omega)),
    Decimal.padded_two (lt_trans regular.second (by omega)), Decimal.padded_zero,
    Nat.toDigits_of_lt_base (by omega : t.tenth < 10)]

theorem StreamTime.read_text {t : StreamTime} (regular : t.Regular) : read t.text = some t := by
  have tenth : Decimal.read (Decimal.padded 0 t.tenth) = some (t.tenth, []) := by
    rw [← List.append_nil (Decimal.padded 0 t.tenth)]
    exact Decimal.read_padded (by simp)
  rw [text_eq regular, List.append_assoc, List.append_assoc, List.cons_append, read,
    Decimal.readField_padded rfl]
  simp only [Option.bind_eq_bind, Option.bind_some]
  rw [List.cons_append, Decimal.readField_padded rfl]
  simp only [Option.bind_some]
  rw [Decimal.readField_padded rfl]
  simp only [Option.bind_some, tenth, if_true]

theorem StreamTime.length_text {t : StreamTime} (small : t.hour < 10000000) :
    t.text.length < streamBufferSize := by
  have hour : (Nat.toDigits 10 t.hour).length ≤ 7 :=
    (Nat.length_toDigits_le_iff (by omega) (by omega)).mpr small
  simp only [text, List.length_append, List.length_cons, List.length_nil, streamBufferSize]
  omega

/-! ### The fields as the code computes them -/

section Fields

variable {p c : Int64} {ns d : Nat}

theorem toInt_div (value : p.toInt = ns) (divisor : c.toInt = d) (pos : 0 < d) :
    (p / c).toInt = (ns / d : Nat) := by
  have other : c ≠ -1 := by
    rintro rfl
    have minusOne : (-1 : Int64).toInt = -1 := by decide
    omega
  rw [Int64.toInt_div_of_ne_right _ _ other, value, divisor,
    Int.tdiv_eq_ediv_of_nonneg (by omega), Int.natCast_ediv]

theorem toInt_mod (value : p.toInt = ns) (divisor : c.toInt = d) :
    (p % c).toInt = (ns % d : Nat) := by
  rw [Int64.toInt_mod, value, divisor, Int.tmod_eq_emod_of_nonneg (by omega), Int.natCast_emod]

/-- A position below zero counts as zero. -/
theorem toInt_clipped (pos : Int64) : (if pos < 0 then 0 else pos).toInt = pos.toInt.toNat := by
  by_cases negative : pos < 0
  · rw [if_pos negative, Int64.toInt_zero]
    rw [Int64.lt_iff_toInt_lt, Int64.toInt_zero] at negative
    omega
  · rw [if_neg negative]
    rw [Int64.lt_iff_toInt_lt, Int64.toInt_zero] at negative
    omega

theorem streamTimeText_eq (pos : Int64) :
    streamTimeText pos = (streamTimeOf pos.toInt.toNat).text := by
  have value := toInt_clipped pos
  have sixty : (60 : Int64).toInt = (60 : Nat) := by decide
  have perSecond : nsPerSecond.toInt = (1000000000 : Nat) := by decide
  have hour := toInt_div value (c := nsPerSecond * 60 * 60) (d := 3600000000000) (by decide)
    (by omega)
  have minute := toInt_mod (toInt_div value (c := nsPerSecond * 60) (d := 60000000000)
    (by decide) (by omega)) sixty
  have second := toInt_mod (toInt_div value perSecond (by omega)) sixty
  have msecond := toInt_div (toInt_mod value perSecond) (c := 100000000) (d := 100000000)
    (by decide) (by omega)
  rw [StreamTime.text_eq (streamTimeOf_regular _)]
  simp only [streamTimeText, hour, minute, second, msecond, Decimal.formatLong_natCast,
    streamTimeOf]

end Fields

/-! ### The position -/

theorem read_streamTimeText (pos : Int64) :
    StreamTime.read (streamTimeText pos) = some (streamTimeOf pos.toInt.toNat) := by
  rw [streamTimeText_eq, StreamTime.read_text (streamTimeOf_regular _)]

theorem streamTimeText_eq_iff (pos pos' : Int64) :
    streamTimeText pos = streamTimeText pos' ↔
      pos.toInt.toNat / 100000000 = pos'.toInt.toNat / 100000000 := by
  constructor
  · intro same
    have fields : streamTimeOf pos.toInt.toNat = streamTimeOf pos'.toInt.toNat := by
      rw [← Option.some.injEq, ← read_streamTimeText, same, read_streamTimeText]
    rw [← tenths_streamTimeOf, fields, tenths_streamTimeOf]
  · intro same
    rw [streamTimeText_eq, streamTimeText_eq, streamTimeOf_congr same]

/-- For every position: the text has the form `H:MM:SS.D` and fits the buffer, it is read back as
the tenths of a second, and so two positions have the same text exactly in the same tenth and
what is read never decreases. -/
theorem streamTimeText_tenths (pos pos' : Int64) :
    (∃ t : StreamTime, streamTimeText pos = t.text ∧ t.Regular ∧
      (streamTimeText pos).length < streamBufferSize ∧
      StreamTime.read (streamTimeText pos) = some t ∧
      (t.tenths : Int) = max pos.toInt 0 / 100000000) ∧
    (streamTimeText pos = streamTimeText pos' ↔
      max pos.toInt 0 / 100000000 = max pos'.toInt 0 / 100000000) ∧
    (pos ≤ pos' → ∃ t t', StreamTime.read (streamTimeText pos) = some t ∧
      StreamTime.read (streamTimeText pos') = some t' ∧ t.tenths ≤ t'.tenths) := by
  refine ⟨⟨streamTimeOf pos.toInt.toNat, streamTimeText_eq pos, streamTimeOf_regular _, ?_,
    read_streamTimeText pos, ?_⟩, ?_, fun le => ?_⟩
  · rw [streamTimeText_eq]
    exact StreamTime.length_text (hour_lt pos)
  · rw [tenths_streamTimeOf]
    omega
  · rw [streamTimeText_eq_iff]
    omega
  · refine ⟨_, _, read_streamTimeText pos, read_streamTimeText pos', ?_⟩
    rw [Int64.le_iff_toInt_le] at le
    rw [tenths_streamTimeOf, tenths_streamTimeOf]
    exact Nat.div_le_div_right (Int.toNat_le_toNat le)

/-- The last tenth of an hour, and the next one. -/
theorem hour_carries :
    streamTimeText 3599999999999 = "0:59:59.9".toList ∧
    streamTimeText 3600000000000 = "1:00:00.0".toList ∧
    ∃ t t', StreamTime.read (streamTimeText 3599999999999) = some t ∧
      StreamTime.read (streamTimeText 3600000000000) = some t' ∧ t.tenths ≤ t'.tenths :=
  ⟨by decide, by decide, (streamTimeText_tenths 3599999999999 3600000000000).2.2 (by decide)⟩

/-- For a player: the text is that of its position, as far as a `long long` holds it. -/
theorem read_getStreamTime (now : Timeval) (player : Player)
    (small : getPlayerPosition now player ≤ Int64.maxValue.toInt) :
    StreamTime.read (getStreamTime now player) =
      some (streamTimeOf (getPlayerPosition now player).toNat) := by
  have large : -1 ≤ getPlayerPosition now player := by
    unfold getPlayerPosition
    dsimp only
    split_ifs <;> omega
  have maxValue : Int64.maxValue.toInt = 9223372036854775807 := by decide
  rw [getStreamTime, read_streamTimeText, Int64.toInt_ofInt_of_le (by omega) (by omega)]

end OdroidPlayer
