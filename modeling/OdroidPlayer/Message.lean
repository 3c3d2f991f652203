import OdroidPlayer.Lib.Bytes
import OdroidPlayer.Lib.Framing

/-!
The messages of `message.proto` and their frames.

The enumerations of the protocol are what the programs put into a message; a received
message carries any `int32` in those fields, so the fields of `AMessage` are `Int32`.
The strings are the bytes before the terminating NUL. `protobuf-c` is not part of the
repository: `Codec` stands for `amessage__pack` and `amessage__unpack`, and
`amessage__get_packed_size` is the length of what `amessage__pack` writes.
-/

namespace OdroidPlayer

abbrev CString := List UInt8

def cString (text : String) : CString := text.toUTF8.toList

inductive Status where
  | success | invalid | toomany | timeout | eserver | eclient | reconnt | brdinfo
  deriving DecidableEq, Repr

def Status.value : Status → Int32
  | .success => 0
  | .invalid => 1
  | .toomany => 2
  | .timeout => 3
  | .eserver => 4
  | .eclient => 5
  | .reconnt => 6
  | .brdinfo => 7

inductive CmdType where
  | command | stream | notify | brdcast
  deriving DecidableEq, Repr

def CmdType.value : CmdType → Int32
  | .command => 0
  | .stream => 1
  | .notify => 2
  | .brdcast => 3

inductive Cmd where
  | none | play | stop | pause | next | prev | quit | seek | time | uri | ack
  deriving DecidableEq, Repr

def Cmd.value : Cmd → Int32
  | .none => 0
  | .play => 1
  | .stop => 2
  | .pause => 3
  | .next => 4
  | .prev => 5
  | .quit => 6
  | .seek => 7
  | .time => 8
  | .uri => 9
  | .ack => 10

structure AMessage where
  status : Int32
  type : Int32
  cmd : Int32
  idx : Int32
  data : List CString
  deriving DecidableEq, Repr

/-- `amessage__pack` and `amessage__unpack`. -/
structure Codec where
  pack : AMessage → List UInt8
  unpack : List UInt8 → Option AMessage

/-- `amessage__unpack` inverts `amessage__pack`. -/
def Codec.Inverts (codec : Codec) : Prop := ∀ m, codec.unpack (codec.pack m) = some m

/-- The wire format packs the required fields in the order of their numbers, each as a
tag byte and a varint, which is one byte for a value below 128. -/
def Codec.WireFormat (codec : Codec) : Prop :=
  ∀ m, 0 ≤ m.status → m.status < 128 → 0 ≤ m.type → m.type < 128 →
    ∃ rest, codec.pack m =
      0x08 :: m.status.toInt.toNat.toUInt8 :: 0x10 :: m.type.toInt.toNat.toUInt8 :: 0x18 :: rest

/-! ### The length in front of a message -/

/-- `htonl` on a little-endian machine, of the low 32 bits of its argument. -/
def htonl (n : Nat) : Nat :=
  n % 256 * 16777216 + n / 256 % 256 * 65536 + n / 65536 % 256 * 256 + n / 16777216 % 256

def ntohl (n : Nat) : Nat := htonl n

theorem htonl_lt (n : Nat) : htonl n < 2 ^ 32 := by
  unfold htonl
  omega

/-- The four bytes change places. -/
theorem htonl_digits {a b c d : Nat} (ha : a < 256) (hb : b < 256) (hc : c < 256) (hd : d < 256) :
    htonl (a + 256 * b + 65536 * c + 16777216 * d) =
      d + 256 * c + 65536 * b + 16777216 * a := by
  have first : (a + 256 * b + 65536 * c + 16777216 * d) % 256 = a := by omega
  have second : (a + 256 * b + 65536 * c + 16777216 * d) / 256 % 256 = b := by omega
  have third : (a + 256 * b + 65536 * c + 16777216 * d) / 65536 % 256 = c := by omega
  have fourth : (a + 256 * b + 65536 * c + 16777216 * d) / 16777216 % 256 = d := by omega
  rw [htonl, first, second, third, fourth]
  omega

theorem ntohl_htonl {n : Nat} (small : n < 2 ^ 32) : ntohl (htonl n) = n := by
  obtain ⟨a, b, c, d, ha, hb, hc, hd, rfl⟩ : ∃ a b c d : Nat, a < 256 ∧ b < 256 ∧ c < 256 ∧
      d < 256 ∧ n = a + 256 * b + 65536 * c + 16777216 * d := by
    refine ⟨n % 256, n / 256 % 256, n / 65536 % 256, n / 16777216, ?_⟩
    omega
  rw [ntohl, htonl_digits ha hb hc hd, htonl_digits hd hc hb ha]

/-- The bytes of `conv_len = htonl(send_len)`, a `size_t` of 8 bytes, lowest byte first. -/
def convLen (sendLen : Nat) : List UInt8 := Bytes.littleEndian 8 (htonl sendLen)

/-- `ntohl(recv_len)` of the 8 bytes of a `size_t`. -/
def lengthOf (recvLen : List UInt8) : Nat := ntohl (Bytes.ofLittleEndian recvLen)

/-- The length that is sent in front of a message. -/
def lengthHeader : Framing.Header UInt8 where
  width := 8
  bound := 2 ^ 32
  encode := convLen
  decode := lengthOf
  width_pos := by decide
  length_encode := fun n => Bytes.length_littleEndian 8 (htonl n)
  decode_encode := by
    intro n small
    have word : htonl n < 256 ^ 8 := lt_trans (htonl_lt n) (by decide)
    rw [lengthOf, convLen, Bytes.ofLittleEndian_littleEndian word, ntohl_htonl small]

/-- Only the low four bytes of the length are ever set. -/
theorem convLen_fifth (n : Nat) : (convLen n)[4]? = some 0 := by
  have small := htonl_lt n
  have zero : htonl n / 256 / 256 / 256 / 256 = 0 := by omega
  simp [convLen, Bytes.littleEndian, zero]

end OdroidPlayer
