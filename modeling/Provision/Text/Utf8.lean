/-!
# Utf8 — reading bytes as text

A byte sequence is read by the well-formedness table of Unicode (a first byte fixes how many bytes
follow and the range of each).  Where the bytes stop being well formed, the longest start of a
well-formed sequence is one fault, and so is a byte that starts none.  This file defines:

* `decode bs` — the characters of `bs`, with `none` for each fault;
* `lossy bs` — the text in which every fault is the replacement character U+FFFD;
* `strict bs` — the text, if there is no fault.
-/

namespace Provision
namespace Text
namespace Utf8

/-! ## The table -/

/-- The bytes that may come at one place of a sequence. -/
structure ByteRange where
  least : UInt8
  greatest : UInt8
  deriving DecidableEq, Repr

def ByteRange.contains (r : ByteRange) (b : UInt8) : Bool :=
  r.least ≤ b && b ≤ r.greatest

def continuing : ByteRange := ⟨0x80, 0xBF⟩

/-- What a first byte of several announces: the bits that it carries, and the ranges of the bytes to
come.  The narrow ranges leave out overlong forms, surrogates and code points after U+10FFFF. -/
def announced (b : UInt8) : Option (Nat × List ByteRange) :=
  if 0xC2 ≤ b && b ≤ 0xDF then some (b.toNat - 0xC0, [continuing])
  else if b = 0xE0 then some (0, [⟨0xA0, 0xBF⟩, continuing])
  else if b = 0xED then some (0xD, [⟨0x80, 0x9F⟩, continuing])
  else if 0xE1 ≤ b && b ≤ 0xEF then some (b.toNat - 0xE0, [continuing, continuing])
  else if b = 0xF0 then some (0, [⟨0x90, 0xBF⟩, continuing, continuing])
  else if b = 0xF4 then some (4, [⟨0x80, 0x8F⟩, continuing, continuing])
  else if 0xF1 ≤ b && b ≤ 0xF3 then some (b.toNat - 0xF0, [continuing, continuing, continuing])
  else none

/-! ## Decoding -/

/-- A sequence that has begun: the bits read so far and the ranges of the bytes that are missing. -/
structure Pending where
  bits : Nat
  missing : List ByteRange
  deriving DecidableEq, Repr

/-- Read a byte where no sequence has begun. -/
def start (b : UInt8) : List (Option Char) × Option Pending :=
  if b < 0x80 then ([some (Char.ofNat b.toNat)], none)
  else
    match announced b with
    | some (bits, missing) => ([], some ⟨bits, missing⟩)
    | none => ([none], none)

/-- Read a byte: continue the sequence that has begun, or give it up as one fault and start
again. -/
def feed : Option Pending → UInt8 → List (Option Char) × Option Pending
  | some ⟨bits, r :: missing⟩, b =>
      if r.contains b then
        let bits := bits * 64 + (b.toNat - 0x80)
        if missing.isEmpty then ([some (Char.ofNat bits)], none) else ([], some ⟨bits, missing⟩)
      else
        let (out, next) := start b
        (none :: out, next)
  | _, b => start b

/-- Decode the bytes that follow a sequence begun or not. -/
def decodeFrom : Option Pending → List UInt8 → List (Option Char)
  | none, [] => []
  | some _, [] => [none]
  | state, b :: bs =>
      let (out, next) := feed state b
      out ++ decodeFrom next bs

/-- The characters of a byte sequence, and `none` for each fault. -/
def decode (bs : List UInt8) : List (Option Char) :=
  decodeFrom none bs

/-- The text with U+FFFD in the place of each fault. -/
def lossy (bs : List UInt8) : List Char :=
  (decode bs).map fun c => c.getD '\uFFFD'

/-- The text, if the bytes are well formed. -/
def strict (bs : List UInt8) : Option (List Char) :=
  (decode bs).mapM id

end Utf8

def bytes (s : String) : List UInt8 :=
  s.toUTF8.data.toList

/-- The text that bytes stand for, faults replaced. -/
def ofBytes (bs : List UInt8) : String :=
  String.ofList (Utf8.lossy bs)

end Text
end Provision
