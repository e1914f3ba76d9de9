import NetUtils.HexDump

/-!
# The text of a dump

There are two copies of the dump: `IOHelper::hexdump`, over `unsigned char`
with a length of type `size_t`, and `ThreadsClientHandle::dumpHex`, over plain
`char` with a length of type `int`. Where plain `char` is signed the second
sees a byte from `0x80` up as a negative number; the `& 0xff` behind the
conversion takes the sign extension off again, and the two loops are one
(`dumpHexFrom_eq`).

The stream carries one thing from byte to byte that the next output depends
on, the width: it is `0` again after each output, so that of `"0x"`, the
number and `" "` only the number is padded. Fill character and base are set
anew for each byte. `dumpText` is the text this comes to, and `readDump` reads
it back.
-/

variable {w : ℕ}

namespace OStringStream

variable {oss : OStringStream}

/-- Nothing is padded at width `0`. -/
theorem put_text (hwidth : oss.width = 0) (chars : List Char) :
    (oss.put chars).text = oss.text ++ chars := by
  rw [put, hwidth, Nat.zero_sub, List.replicate_zero, List.append_nil]

@[simp] theorem put_width (chars : List Char) : (oss.put chars).width = 0 := rfl

@[simp] theorem endl_width : oss.endl.width = oss.width := rfl

@[simp] theorem endl_text : oss.endl.text = oss.text ++ ['\n'] := rfl

end OStringStream

namespace ThreadsClientHandle

open IOHelper

/-! ## The other copy -/

/-- `(int)c` for a plain `char`, which is signed on some platforms. -/
def charToInt (signed : Bool) (c : UInt8) : BitVec 32 :=
  if signed then c.toBitVec.signExtend 32 else c.toBitVec.setWidth 32

/-- The output of `dumpHex` for the byte at `i`. -/
def dumpHexByte (signed : Bool) (oss : OStringStream) (i : ℕ) (c : UInt8) : OStringStream :=
  let oss := ((oss.put ['0', 'x']).setw 2).setfill '0'
  let oss := (oss.hex.putInt (charToInt signed c &&& 0xff#32).toNat).put [' ']
  if (i + 1) % 0x10 = 0 then oss.endl else oss

/-- The loop of `dumpHex` from `i` on, where `rest` is what follows in the
buffer from there. -/
def dumpHexFrom (signed : Bool) (len : BitVec 32) (oss : OStringStream) (i : ℕ) :
    List UInt8 → Except DumpFault OStringStream
  | [] => if BitVec.ofNat 32 i = len then .ok oss else .error .outOfBounds
  | c :: rest =>
    if BitVec.ofNat 32 i = len then .ok oss
    else if i = INT_MAX then .error .overflow
    else dumpHexFrom signed len (dumpHexByte signed oss i c) (i + 1) rest

/-- **`ThreadsClientHandle::dumpHex(buf, len)`**, with the bytes of the
buffer. -/
def dumpHex (signed : Bool) (buf : List UInt8) (len : BitVec 32) :
    Except DumpFault (List Char) :=
  (dumpHexFrom signed len .empty 0 buf).map OStringStream.text

/-- **The sign extension is masked off.** -/
theorem charToInt_and (signed : Bool) (c : UInt8) :
    charToInt signed c &&& 0xff#32 = c.toBitVec.setWidth 32 := by
  ext i hi
  have hmask : (0xff#32)[i] = decide (i < 8) := by
    rw [show 0xff#32 = (BitVec.allOnes 8).setWidth 32 from rfl, BitVec.getElem_setWidth,
      BitVec.getLsbD_allOnes]
  rw [BitVec.getElem_and, hmask]
  by_cases hlow : i < 8
  · cases signed <;> simp [charToInt, BitVec.getElem_signExtend, hlow]
  · simp [hlow, BitVec.getLsbD_of_ge _ i (not_lt.mp hlow)]

/-- So both copies put out the same for a byte. -/
theorem dumpHexByte_eq (signed : Bool) (oss : OStringStream) (i : ℕ) (c : UInt8) :
    dumpHexByte signed oss i c = dumpByte oss i c := by
  have hmask : (charToInt signed c &&& 0xff#32).toNat = c.toNat &&& 0xff := by
    rw [charToInt_and, BitVec.toNat_setWidth_of_le (by decide), UInt8.toNat_toBitVec]
    exact (Nat.and_two_pow_sub_one_of_lt_two_pow (n := 8) c.toNat_lt).symm
  rw [dumpHexByte, dumpByte, hmask]

/-- **The loop of `dumpHex` is that of `hexdump`**, over a length that is an
`int`. -/
theorem dumpHexFrom_eq (signed : Bool) (len : BitVec 32) (oss : OStringStream) (i : ℕ)
    (rest : List UInt8) : dumpHexFrom signed len oss i rest = dumpFrom len oss i rest := by
  induction rest generalizing oss i with
  | nil => rfl
  | cons c rest ih => rw [dumpHexFrom, dumpFrom, dumpHexByte_eq, ih]

theorem dumpHex_eq (signed : Bool) (buf : List UInt8) (len : BitVec 32) :
    dumpHex signed buf len = hexdump buf len := by
  rw [dumpHex, dumpHexFrom_eq, hexdump]

end ThreadsClientHandle

namespace IOHelper

/-! ## The format -/

/-- A byte in a dump: `0x`, its two digits, and a space. -/
def byteText (byte : UInt8) : List Char :=
  ['0', 'x', Nat.digitChar (byte.toNat / 0x10), Nat.digitChar (byte.toNat % 0x10), ' ']

/-- What stands behind the byte at `i`: the end of the line after every
sixteenth. -/
def lineEnd (i : ℕ) : List Char := if (i + 1) % 0x10 = 0 then ['\n'] else []

/-- **The text of a dump**, from the byte at `i` on. -/
def dumpText (i : ℕ) (bytes : List UInt8) : List Char :=
  (bytes.zipIdx i).flatMap fun p => byteText p.1 ++ lineEnd p.2

theorem dumpText_cons (i : ℕ) (byte : UInt8) (rest : List UInt8) :
    dumpText i (byte :: rest) = byteText byte ++ lineEnd i ++ dumpText (i + 1) rest :=
  List.flatMap_cons

/-- Two digits, padded with a `0` where there is only one. -/
theorem padded_toDigits {n : ℕ} (h : n < 0x100) :
    List.replicate (2 - (Nat.toDigits 0x10 n).length) '0' ++ Nat.toDigits 0x10 n
      = [Nat.digitChar (n / 0x10), Nat.digitChar (n % 0x10)] := by
  rcases Nat.lt_or_ge n 0x10 with hlt | hge
  · rw [Nat.toDigits_of_lt_base hlt, Nat.div_eq_of_lt hlt, Nat.mod_eq_of_lt hlt]
    rfl
  · have hhigh : n / 0x10 < 0x10 := by omega
    have hlow : n % 0x10 < 0x10 := by omega
    have hdigits : Nat.toDigits 0x10 n
        = [Nat.digitChar (n / 0x10), Nat.digitChar (n % 0x10)] := by
      have hjoin := Nat.toDigits_append_toDigits (by decide : 1 < 0x10)
        (by omega : 0 < n / 0x10) hlow
      rw [Nat.div_add_mod, Nat.toDigits_of_lt_base hhigh, Nat.toDigits_of_lt_base hlow] at hjoin
      exact hjoin.symm
    rw [hdigits]
    rfl

section Text

variable {oss : OStringStream} {i : ℕ}

/-- **What is put out for a byte**, at width `0`. -/
theorem dumpByte_text (hwidth : oss.width = 0) (byte : UInt8) :
    (dumpByte oss i byte).text = oss.text ++ byteText byte ++ lineEnd i := by
  have hbyte : byte.toNat < 0x100 := byte.toNat_lt
  have hmask : byte.toNat &&& 0xff = byte.toNat :=
    Nat.and_two_pow_sub_one_of_lt_two_pow (n := 8) hbyte
  have hnumber : ((((oss.put ['0', 'x']).setw 2).setfill '0').hex.putInt
      (byte.toNat &&& 0xff)).text
      = oss.text ++ ['0', 'x', Nat.digitChar (byte.toNat / 0x10),
        Nat.digitChar (byte.toNat % 0x10)] := by
    rw [hmask]
    change (oss.put ['0', 'x']).text
      ++ List.replicate (2 - (Nat.toDigits 0x10 byte.toNat).length) '0'
      ++ Nat.toDigits 0x10 byte.toNat = _
    rw [OStringStream.put_text hwidth, List.append_assoc, padded_toDigits hbyte,
      List.append_assoc]
    rfl
  have hspace : (((((oss.put ['0', 'x']).setw 2).setfill '0').hex.putInt
      (byte.toNat &&& 0xff)).put [' ']).text = oss.text ++ byteText byte := by
    rw [OStringStream.put_text rfl, hnumber, List.append_assoc]
    rfl
  rw [dumpByte, lineEnd]
  split
  · rw [OStringStream.endl_text, hspace]
  · rw [hspace, List.append_nil]

/-- The width is `0` again behind a byte. -/
theorem dumpByte_width (byte : UInt8) : (dumpByte oss i byte).width = 0 := by
  rw [dumpByte]
  split <;> rfl

/-- **The loop puts out the text of the bytes that are left**, at width `0`,
where the length is the end of the buffer. -/
theorem dumpFrom_text (len : BitVec w) {rest : List UInt8} (hwidth : oss.width = 0)
    (hlen : len.toNat = i + rest.length) (hmax : len.toNat ≤ INT_MAX) :
    (dumpFrom len oss i rest).map OStringStream.text = .ok (oss.text ++ dumpText i rest) := by
  induction rest generalizing oss i with
  | nil =>
    have hend : BitVec.ofNat w i = len := by
      have hword := len.isLt
      rw [List.length_nil, Nat.add_zero] at hlen
      rw [← BitVec.toNat_inj, BitVec.toNat_ofNat, ← hlen, Nat.mod_eq_of_lt hword]
    rw [dumpFrom, if_pos hend, dumpText, List.zipIdx_nil, List.flatMap_nil, List.append_nil]
    rfl
  | cons byte rest ih =>
    rw [List.length_cons] at hlen
    have hword := len.isLt
    have hmore : BitVec.ofNat w i ≠ len := by
      intro h
      have := congrArg BitVec.toNat h
      rw [BitVec.toNat_ofNat, Nat.mod_eq_of_lt (by omega)] at this
      omega
    rw [dumpFrom, if_neg hmore, if_neg (by omega), ih (dumpByte_width byte) (by omega),
      dumpByte_text hwidth, dumpText_cons, List.append_assoc, List.append_assoc,
      List.append_assoc]

/-- **`hexdump` of a whole buffer.** -/
theorem hexdump_text {bytes : List UInt8} {len : BitVec w} (hlen : len.toNat = bytes.length)
    (hmax : bytes.length ≤ INT_MAX) : hexdump bytes len = .ok (dumpText 0 bytes) :=
  dumpFrom_text len rfl (by omega) (by omega)

end Text

/-! ## Reading a dump back -/

/-- The value of a digit, lower-case. -/
def hexValue (c : Char) : Option ℕ :=
  ['0', '1', '2', '3', '4', '5', '6', '7', '8', '9', 'a', 'b', 'c', 'd', 'e', 'f'].idxOf? c

/-- The byte of two digits. -/
def readByte (high low : Char) : Option UInt8 :=
  (hexValue high).bind fun high => (hexValue low).map fun low => UInt8.ofNat (0x10 * high + low)

/-- **The bytes of a dump**, from that at `i` on, or `none` where the text is
not that of a dump. -/
def readDump (i : ℕ) : List Char → Option (List UInt8)
  | [] => some []
  | zero :: x :: high :: low :: space :: rest =>
    if zero = '0' ∧ x = 'x' ∧ space = ' ' then
      if (i + 1) % 0x10 = 0 then
        match rest with
        | [] => none
        | newline :: rest =>
          if newline = '\n' then
            (readByte high low).bind fun byte => (readDump (i + 1) rest).map (byte :: ·)
          else none
      else (readByte high low).bind fun byte => (readDump (i + 1) rest).map (byte :: ·)
    else none
  | _ => none

theorem hexValue_digitChar : ∀ d < 0x10, hexValue (Nat.digitChar d) = some d := by
  decide

/-- The two digits of a byte are read back as the byte. -/
theorem readByte_digits (byte : UInt8) :
    readByte (Nat.digitChar (byte.toNat / 0x10)) (Nat.digitChar (byte.toNat % 0x10))
      = some byte := by
  have hbyte : byte.toNat < 0x100 := byte.toNat_lt
  rw [readByte, hexValue_digitChar _ (by omega), hexValue_digitChar _ (by omega),
    Option.bind_some, Option.map_some, Nat.div_add_mod, UInt8.ofNat_toNat]

/-- A byte within its line is read off the front of a dump. -/
theorem readDump_byteText {i : ℕ} (hmid : (i + 1) % 0x10 ≠ 0) (byte : UInt8)
    (rest : List Char) :
    readDump i (byteText byte ++ rest) = (readDump (i + 1) rest).map (byte :: ·) := by
  rw [byteText, readDump.eq_def]
  simp only [List.cons_append, List.nil_append, if_neg hmid, readByte_digits]
  rfl

/-- So is one at the end of its line. -/
theorem readDump_byteText_newline {i : ℕ} (hlast : (i + 1) % 0x10 = 0) (byte : UInt8)
    (rest : List Char) :
    readDump i (byteText byte ++ '\n' :: rest) = (readDump (i + 1) rest).map (byte :: ·) := by
  rw [byteText]
  simp only [List.cons_append, List.nil_append, readDump, if_pos hlast, readByte_digits]
  rfl

/-- **A dump is read back as what was dumped.** -/
theorem readDump_dumpText (i : ℕ) (bytes : List UInt8) :
    readDump i (dumpText i bytes) = some bytes := by
  induction bytes generalizing i with
  | nil => rfl
  | cons byte rest ih =>
    rw [dumpText_cons, lineEnd, List.append_assoc]
    split
    case isTrue hlast =>
      rw [List.singleton_append, readDump_byteText_newline hlast, ih, Option.map_some]
    case isFalse hmid => rw [List.nil_append, readDump_byteText hmid, ih, Option.map_some]

/-- **The dump is a faithful encoding**, in both copies: they give one text, in
which each byte stands as `0x`, two digits and a space, with the line ended
after every sixteenth; the text is read back as the bytes, and no other bytes
have it. -/
theorem hexdump_faithful (b : Transfer.Buffer w UInt8) (hmax : b.bytes.length ≤ INT_MAX)
    (signed : Bool) :
    hexdump b.bytes b.size = .ok (dumpText 0 b.bytes)
      ∧ ThreadsClientHandle.dumpHex signed b.bytes (BitVec.ofNat 32 b.bytes.length)
          = .ok (dumpText 0 b.bytes)
      ∧ readDump 0 (dumpText 0 b.bytes) = some b.bytes
      ∧ ∀ b' : Transfer.Buffer w UInt8, b'.bytes.length ≤ INT_MAX →
          hexdump b'.bytes b'.size = hexdump b.bytes b.size → b'.bytes = b.bytes := by
  have htext (b : Transfer.Buffer w UInt8) (hmax : b.bytes.length ≤ INT_MAX) :
      hexdump b.bytes b.size = .ok (dumpText 0 b.bytes) := hexdump_text b.toNat_size hmax
  have hint : (BitVec.ofNat 32 b.bytes.length).toNat = b.bytes.length := by
    rw [BitVec.toNat_ofNat, Nat.mod_eq_of_lt]
    exact lt_of_le_of_lt hmax (by decide)
  refine ⟨htext b hmax, ?_, readDump_dumpText 0 b.bytes, fun b' hmax' hsame => ?_⟩
  · rw [ThreadsClientHandle.dumpHex_eq]
    exact hexdump_text hint hmax
  · rw [htext b hmax, htext b' hmax'] at hsame
    have hread := congrArg (readDump 0) (Except.ok.inj hsame)
    rw [readDump_dumpText, readDump_dumpText] at hread
    exact Option.some.inj hread

/-- Sixteen bytes, and on the next line one with its top bit set. -/
def twoLines : List UInt8 := List.replicate 16 0x0a ++ [0x80]

/-- The dump of two lines, where plain `char` is signed. -/
theorem hexdump_faithful_signed :
    '\n' ∈ dumpText 0 twoLines
      ∧ hexdump twoLines 17#64 = .ok (dumpText 0 twoLines)
      ∧ ThreadsClientHandle.dumpHex true twoLines 17#32 = .ok (dumpText 0 twoLines)
      ∧ readDump 0 (dumpText 0 twoLines) = some twoLines
      ∧ ∀ b' : Transfer.Buffer 64 UInt8, b'.bytes.length ≤ INT_MAX →
          hexdump b'.bytes b'.size = hexdump twoLines 17#64 → b'.bytes = twoLines :=
  ⟨by decide,
    hexdump_faithful (⟨twoLines, by decide⟩ : Transfer.Buffer 64 UInt8) (by decide) true⟩

end IOHelper
