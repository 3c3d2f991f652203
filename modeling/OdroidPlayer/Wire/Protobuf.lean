import OdroidPlayer.Message

/-!
A codec with the wire format of `message.proto`.

Fields are packed in the order of their numbers; an enumeration or an `int32` is the
varint of its sign-extended 64 bits, a string its length and its bytes. `unpackAMessage`
reads the fields in that order. The results about the frames hold for every codec; this
one shows that their assumptions about `protobuf-c` can be met, and runs examples.
-/

namespace OdroidPlayer

open Bytes

/-- The 64 bits of a sign-extended `int32`. -/
def signExtended (v : Int32) : Nat := (v.toInt % 18446744073709551616).toNat

def packInt32 (v : Int32) : List UInt8 := varintUpTo 9 (signExtended v)

def packString (s : CString) : List UInt8 := 0x2a :: varint s.length ++ s

def packAMessage (m : AMessage) : List UInt8 :=
  0x08 :: packInt32 m.status ++ (0x10 :: packInt32 m.type) ++ (0x18 :: packInt32 m.cmd) ++
    (0x20 :: packInt32 m.idx) ++ m.data.flatMap packString

/-- A field with a number: its tag, its varint and what follows. -/
def readInt32 (tag : UInt8) : List UInt8 → Option (Int32 × List UInt8)
  | [] => none
  | b :: bytes =>
      if b = tag then (readVarint bytes).map fun out => (Int32.ofNat out.1, out.2) else none

/-- The strings of field 5, at most `fuel` of them. -/
def readStrings : Nat → List UInt8 → Option (List CString)
  | _, [] => some []
  | 0, _ :: _ => none
  | fuel + 1, b :: bytes =>
      if b = 0x2a then
        match readVarint bytes with
        | none => none
        | some (n, rest) =>
            if rest.length < n then none
            else (readStrings fuel (rest.drop n)).map (rest.take n :: ·)
      else none

def unpackAMessage (bytes : List UInt8) : Option AMessage :=
  (readInt32 0x08 bytes).bind fun (status, bytes) =>
    (readInt32 0x10 bytes).bind fun (type, bytes) =>
      (readInt32 0x18 bytes).bind fun (cmd, bytes) =>
        (readInt32 0x20 bytes).bind fun (idx, bytes) =>
          (readStrings bytes.length bytes).map fun data => ⟨status, type, cmd, idx, data⟩

def protobuf : Codec := ⟨packAMessage, unpackAMessage⟩

theorem ofNat_signExtended (v : Int32) : Int32.ofNat (signExtended v) = v := by
  have low := v.minValue_le_toInt
  have high := v.toInt_le
  have min : Int32.minValue.toInt = -2147483648 := by decide
  have max : Int32.maxValue.toInt = 2147483647 := by decide
  rw [min] at low
  rw [max] at high
  apply Int32.toInt_inj.mp
  rw [← Int32.ofInt_eq_ofNat, Int32.toInt_ofInt, signExtended]
  have word : Int32.size = 4294967296 := rfl
  rw [word]
  by_cases negative : v.toInt < 0
  · have wraps : v.toInt % 18446744073709551616 = v.toInt + 18446744073709551616 := by omega
    rw [wraps, Int.toNat_of_nonneg (by omega), Int.bmod_def]
    split <;> omega
  · have stays : v.toInt % 18446744073709551616 = v.toInt := by omega
    rw [stays, Int.toNat_of_nonneg (by omega), Int.bmod_def]
    split <;> omega

theorem readInt32_packInt32 (tag : UInt8) (v : Int32) (rest : List UInt8) :
    readInt32 tag (tag :: packInt32 v ++ rest) = some (v, rest) := by
  have small : signExtended v < 128 ^ (9 + 1) := by
    have bound : signExtended v < 18446744073709551616 := by
      unfold signExtended
      omega
    exact lt_trans bound (by decide)
  rw [List.cons_append, readInt32, if_pos rfl, packInt32, readVarint_varintUpTo small,
    Option.map_some, ofNat_signExtended]

theorem readStrings_packStrings {data : List CString} {fuel : Nat} (enough : data.length ≤ fuel) :
    readStrings fuel (data.flatMap packString) = some data := by
  induction data generalizing fuel with
  | nil => cases fuel <;> rfl
  | cons s data ih =>
      obtain ⟨fuel, rfl⟩ : ∃ k, fuel = k + 1 := ⟨fuel - 1, by
        rw [List.length_cons] at enough
        omega⟩
      have rest := ih (Nat.le_of_succ_le_succ enough)
      have split : (s :: data).flatMap packString =
          0x2a :: (varint s.length ++ (s ++ data.flatMap packString)) := by
        simp [packString]
      have long : ¬ (s ++ data.flatMap packString).length < s.length := by
        rw [List.length_append]
        omega
      rw [split, readStrings, if_pos rfl, readVarint_varint]
      simp only [if_neg long, List.drop_left, List.take_left, rest, Option.map_some]

/-- A packed string has at least its tag byte, so the bytes are fuel enough. -/
theorem length_le_packStrings (data : List CString) :
    data.length ≤ (data.flatMap packString).length := by
  induction data with
  | nil => exact le_rfl
  | cons s data ih =>
      rw [List.flatMap_cons, List.length_append, packString, List.length_cons, List.cons_append,
        List.length_cons]
      omega

theorem protobuf_inverts : protobuf.Inverts := by
  intro m
  change unpackAMessage (packAMessage m) = some m
  have fields : packAMessage m = 0x08 :: packInt32 m.status ++ (0x10 :: packInt32 m.type ++
      (0x18 :: packInt32 m.cmd ++ (0x20 :: packInt32 m.idx ++ m.data.flatMap packString))) := by
    simp [packAMessage]
  rw [fields, unpackAMessage]
  simp only [readInt32_packInt32, Option.bind_some,
    readStrings_packStrings (length_le_packStrings m.data), Option.map_some]

theorem packInt32_of_small {v : Int32} (low : 0 ≤ v) (high : v < 128) :
    packInt32 v = [v.toInt.toNat.toUInt8] := by
  have low' : 0 ≤ v.toInt := Int32.le_iff_toInt_le.mp low
  have high' : v.toInt < 128 := Int32.lt_iff_toInt_lt.mp high
  have same : signExtended v = v.toInt.toNat := by
    unfold signExtended
    omega
  have digit : v.toInt.toNat < 128 := by omega
  rw [packInt32, same, varintUpTo, if_pos digit]

theorem protobuf_wireFormat : protobuf.WireFormat := by
  intro m statusLow statusHigh typeLow typeHigh
  refine ⟨packInt32 m.cmd ++ (0x20 :: packInt32 m.idx) ++ m.data.flatMap packString, ?_⟩
  change packAMessage m = _
  rw [packAMessage, packInt32_of_small statusLow statusHigh, packInt32_of_small typeLow typeHigh]
  simp

end OdroidPlayer
