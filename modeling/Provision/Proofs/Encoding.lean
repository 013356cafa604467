import Provision.Text.Utf8

/-!
# Encoding — what is written as UTF-8 is read back, and nothing else is text

The bytes of a text are those of its characters one after another, and reading them gives these
characters: a first byte announces how many follow, and each of those adds six bits.  Bytes that are
read without a fault are the bytes of what is read.  This file defines:

* `decodeFrom_begin`, `decodeFrom_continue`, `decodeFrom_end` — the steps through a sequence of
  bytes;
* `decode_encode` — the sequence of one character is read as this character;
* `lossy_bytes` — reading the bytes of a text gives its characters;
* `exists_char_of_decode` — where no fault is found, a character with its sequence comes first;
* `strict_iff` — bytes are read as a text exactly if they are its bytes.
-/

namespace Provision
namespace Text
namespace Utf8

variable {b : UInt8} {bs : List UInt8} {bits : Nat} {r : ByteRange} {missing : List ByteRange}

/-! ## Steps -/

theorem contains_iff :
    r.contains b = true ↔ r.least.toNat ≤ b.toNat ∧ b.toNat ≤ r.greatest.toNat := by
  simp [ByteRange.contains, UInt8.le_iff_toNat_le]

theorem decodeFrom_single (h : b.toNat < 0x80) :
    decodeFrom none (b :: bs) = some (Char.ofNat b.toNat) :: decodeFrom none bs := by
  have hsmall : b < 0x80 := UInt8.lt_iff_toNat_lt.2 h
  simp [decodeFrom, feed, start, hsmall]

/-- A first byte announces what is to come. -/
theorem decodeFrom_begin (h : announced b = some (bits, missing)) (hb : 0x80 ≤ b.toNat) :
    decodeFrom none (b :: bs) = decodeFrom (some ⟨bits, missing⟩) bs := by
  have hlarge : ¬ b < 0x80 :=
    fun hsmall => absurd (UInt8.lt_iff_toNat_lt.1 hsmall) (Nat.not_lt.2 hb)
  simp [decodeFrom, feed, start, hlarge, h]

/-- A byte in its range adds six bits, and the sequence goes on. -/
theorem decodeFrom_continue (h : r.contains b = true) (hmissing : missing ≠ []) :
    decodeFrom (some ⟨bits, r :: missing⟩) (b :: bs) =
      decodeFrom (some ⟨bits * 64 + (b.toNat - 0x80), missing⟩) bs := by
  simp [decodeFrom, feed, h, hmissing]

/-- The last byte of a sequence completes its character. -/
theorem decodeFrom_end (h : r.contains b = true) :
    decodeFrom (some ⟨bits, [r]⟩) (b :: bs) =
      some (Char.ofNat (bits * 64 + (b.toNat - 0x80))) :: decodeFrom none bs := by
  simp [decodeFrom, feed, h]

/-! ## First bytes -/

/-- The range of the second byte of three, by the bits that the first one carries. -/
def secondOfThree (bits : Nat) : ByteRange :=
  if bits = 0 then ⟨0xA0, 0xBF⟩ else if bits = 0xD then ⟨0x80, 0x9F⟩ else continuing

/-- The range of the second byte of four, by the bits that the first one carries. -/
def secondOfFour (bits : Nat) : ByteRange :=
  if bits = 0 then ⟨0x90, 0xBF⟩ else if bits = 4 then ⟨0x80, 0x8F⟩ else continuing

theorem announced_two (h : bits < 0x20) (hoverlong : 2 ≤ bits) :
    announced (UInt8.ofNat (bits + 0xC0)) = some (bits, [continuing]) := by
  have hall : ∀ n < 0x20, 2 ≤ n → announced (UInt8.ofNat (n + 0xC0)) = some (n, [continuing]) := by
    decide
  exact hall bits h hoverlong

theorem announced_three (h : bits < 0x10) :
    announced (UInt8.ofNat (bits + 0xE0)) = some (bits, [secondOfThree bits, continuing]) := by
  have hall : ∀ n < 0x10, announced (UInt8.ofNat (n + 0xE0)) =
      some (n, [secondOfThree n, continuing]) := by
    decide
  exact hall bits h

theorem announced_four (h : bits < 5) :
    announced (UInt8.ofNat (bits + 0xF0)) =
      some (bits, [secondOfFour bits, continuing, continuing]) := by
  have hall : ∀ n < 5, announced (UInt8.ofNat (n + 0xF0)) =
      some (n, [secondOfFour n, continuing, continuing]) := by
    decide
  exact hall bits h

/-! ## Sequences -/

/-- A byte that carries six bits of a character. -/
theorem toNat_tail (n : Nat) : (UInt8.ofNat (n % 64 + 128)).toNat = n % 64 + 128 := by
  have hbyte : n % 64 + 128 < 256 := by omega
  simpa using Nat.mod_eq_of_lt hbyte

theorem contains_tail (n : Nat) : continuing.contains (UInt8.ofNat (n % 64 + 128)) = true := by
  refine contains_iff.2 ?_
  simp only [toNat_tail, continuing, UInt8.reduceToNat]
  omega

theorem contains_secondOfThree {n : Nat} (hoverlong : 0x800 ≤ n) (hlarge : n < 0x10000)
    (hsurrogate : n < 0xD800 ∨ 0xDFFF < n) :
    (secondOfThree (n / 64 / 64)).contains (UInt8.ofNat (n / 64 % 64 + 128)) = true := by
  unfold secondOfThree
  -- an overlong form and a surrogate would begin with the same byte, but be outside of the range
  split
  · refine contains_iff.2 ?_
    simp only [toNat_tail, UInt8.reduceToNat]
    omega
  · split
    · refine contains_iff.2 ?_
      simp only [toNat_tail, UInt8.reduceToNat]
      omega
    · exact contains_tail (n / 64)

theorem contains_secondOfFour {n : Nat} (hoverlong : 0x10000 ≤ n) (hlarge : n < 0x110000) :
    (secondOfFour (n / 64 / 64 / 64)).contains (UInt8.ofNat (n / 64 / 64 % 64 + 128)) = true := by
  unfold secondOfFour
  split
  · refine contains_iff.2 ?_
    simp only [toNat_tail, UInt8.reduceToNat]
    omega
  · split
    · refine contains_iff.2 ?_
      simp only [toNat_tail, UInt8.reduceToNat]
      omega
    · exact contains_tail (n / 64 / 64)

/-- Six more bits of a character. -/
theorem bits_tail (n : Nat) : n / 64 * 64 + ((UInt8.ofNat (n % 64 + 128)).toNat - 0x80) = n := by
  rw [toNat_tail]
  omega

theorem decode_one {n : Nat} (h : n < 0x80) :
    decodeFrom none (UInt8.ofNat n :: bs) = some (Char.ofNat n) :: decodeFrom none bs := by
  have hbyte : (UInt8.ofNat n).toNat = n := by
    have hsmall : n < 256 := by omega
    simpa using Nat.mod_eq_of_lt hsmall
  calc
    decodeFrom none (UInt8.ofNat n :: bs)
        = some (Char.ofNat (UInt8.ofNat n).toNat) :: decodeFrom none bs :=
          decodeFrom_single (by omega)
    _ = some (Char.ofNat n) :: decodeFrom none bs := by rw [hbyte]

theorem decode_two {n : Nat} (hoverlong : 0x80 ≤ n) (hlarge : n < 0x800) :
    decodeFrom none (UInt8.ofNat (n / 64 % 32 + 192) :: UInt8.ofNat (n % 64 + 128) :: bs) =
      some (Char.ofNat n) :: decodeFrom none bs := by
  have hbits : n / 64 % 32 = n / 64 := by omega
  have hfirst : announced (UInt8.ofNat (n / 64 + 0xC0)) = some (n / 64, [continuing]) :=
    announced_two (by omega) (by omega)
  have hbyte : 0x80 ≤ (UInt8.ofNat (n / 64 + 0xC0)).toNat := by
    simp only [UInt8.toNat_ofNat']
    omega
  calc
    decodeFrom none (UInt8.ofNat (n / 64 % 32 + 192) :: UInt8.ofNat (n % 64 + 128) :: bs)
        = decodeFrom none (UInt8.ofNat (n / 64 + 0xC0) :: UInt8.ofNat (n % 64 + 128) :: bs) := by
          rw [hbits]
    _ = decodeFrom (some ⟨n / 64, [continuing]⟩) (UInt8.ofNat (n % 64 + 128) :: bs) :=
          decodeFrom_begin hfirst hbyte
    _ = some (Char.ofNat (n / 64 * 64 + ((UInt8.ofNat (n % 64 + 128)).toNat - 0x80))) ::
          decodeFrom none bs := decodeFrom_end (contains_tail n)
    _ = some (Char.ofNat n) :: decodeFrom none bs := by rw [bits_tail]

theorem decode_three {n : Nat} (hoverlong : 0x800 ≤ n) (hlarge : n < 0x10000)
    (hsurrogate : n < 0xD800 ∨ 0xDFFF < n) :
    decodeFrom none (UInt8.ofNat (n / 4096 % 16 + 224) :: UInt8.ofNat (n / 64 % 64 + 128) ::
        UInt8.ofNat (n % 64 + 128) :: bs) =
      some (Char.ofNat n) :: decodeFrom none bs := by
  have hbits : n / 4096 % 16 = n / 64 / 64 := by omega
  have hfirst : announced (UInt8.ofNat (n / 64 / 64 + 0xE0)) =
      some (n / 64 / 64, [secondOfThree (n / 64 / 64), continuing]) :=
    announced_three (by omega)
  have hbyte : 0x80 ≤ (UInt8.ofNat (n / 64 / 64 + 0xE0)).toNat := by
    simp only [UInt8.toNat_ofNat']
    omega
  have hsecond : (secondOfThree (n / 64 / 64)).contains (UInt8.ofNat (n / 64 % 64 + 128)) = true :=
    contains_secondOfThree hoverlong hlarge hsurrogate
  -- the bits read are those of the character without the last twelve, then without the last six
  calc
    decodeFrom none (UInt8.ofNat (n / 4096 % 16 + 224) :: UInt8.ofNat (n / 64 % 64 + 128) ::
          UInt8.ofNat (n % 64 + 128) :: bs)
        = decodeFrom (some ⟨n / 64 / 64, [secondOfThree (n / 64 / 64), continuing]⟩)
            (UInt8.ofNat (n / 64 % 64 + 128) :: UInt8.ofNat (n % 64 + 128) :: bs) := by
          rw [hbits]
          exact decodeFrom_begin hfirst hbyte
    _ = decodeFrom (some ⟨n / 64, [continuing]⟩) (UInt8.ofNat (n % 64 + 128) :: bs) := by
          rw [decodeFrom_continue hsecond (by simp), bits_tail]
    _ = some (Char.ofNat n) :: decodeFrom none bs := by
          rw [decodeFrom_end (contains_tail n), bits_tail]

theorem decode_four {n : Nat} (hoverlong : 0x10000 ≤ n) (hlarge : n < 0x110000) :
    decodeFrom none (UInt8.ofNat (n / 262144 % 8 + 240) :: UInt8.ofNat (n / 4096 % 64 + 128) ::
        UInt8.ofNat (n / 64 % 64 + 128) :: UInt8.ofNat (n % 64 + 128) :: bs) =
      some (Char.ofNat n) :: decodeFrom none bs := by
  have hbits : n / 262144 % 8 = n / 64 / 64 / 64 := by omega
  have hmiddle : n / 4096 = n / 64 / 64 := by omega
  have hfirst : announced (UInt8.ofNat (n / 64 / 64 / 64 + 0xF0)) =
      some (n / 64 / 64 / 64, [secondOfFour (n / 64 / 64 / 64), continuing, continuing]) :=
    announced_four (by omega)
  have hbyte : 0x80 ≤ (UInt8.ofNat (n / 64 / 64 / 64 + 0xF0)).toNat := by
    simp only [UInt8.toNat_ofNat']
    omega
  have hsecond : (secondOfFour (n / 64 / 64 / 64)).contains (UInt8.ofNat (n / 64 / 64 % 64 + 128)) =
      true :=
    contains_secondOfFour hoverlong hlarge
  -- each byte gives back six of the bits that the character was cut into
  calc
    decodeFrom none (UInt8.ofNat (n / 262144 % 8 + 240) :: UInt8.ofNat (n / 4096 % 64 + 128) ::
          UInt8.ofNat (n / 64 % 64 + 128) :: UInt8.ofNat (n % 64 + 128) :: bs)
        = decodeFrom
            (some ⟨n / 64 / 64 / 64, [secondOfFour (n / 64 / 64 / 64), continuing, continuing]⟩)
            (UInt8.ofNat (n / 64 / 64 % 64 + 128) :: UInt8.ofNat (n / 64 % 64 + 128) ::
              UInt8.ofNat (n % 64 + 128) :: bs) := by
          rw [hbits, hmiddle]
          exact decodeFrom_begin hfirst hbyte
    _ = decodeFrom (some ⟨n / 64 / 64, [continuing, continuing]⟩)
          (UInt8.ofNat (n / 64 % 64 + 128) :: UInt8.ofNat (n % 64 + 128) :: bs) := by
          rw [decodeFrom_continue hsecond (by simp), bits_tail]
    _ = decodeFrom (some ⟨n / 64, [continuing]⟩) (UInt8.ofNat (n % 64 + 128) :: bs) := by
          rw [decodeFrom_continue (contains_tail (n / 64)) (by simp), bits_tail]
    _ = some (Char.ofNat n) :: decodeFrom none bs := by
          rw [decodeFrom_end (contains_tail n), bits_tail]

/-- The sequence of a character is read as this character. -/
theorem decode_encode (c : Char) (bs : List UInt8) :
    decodeFrom none (String.utf8EncodeChar c ++ bs) = some c :: decodeFrom none bs := by
  have hvalid : c.toNat < 0xD800 ∨ 0xDFFF < c.toNat ∧ c.toNat < 0x110000 := c.valid
  have hchar : Char.ofNat c.toNat = c := Char.ofNat_toNat c
  have hval : c.val.toNat = c.toNat := rfl
  simp only [String.utf8EncodeChar, hval]
  -- the four widths
  split
  · simpa [hchar] using decode_one (n := c.toNat) (by omega)
  · split
    · simpa [hchar] using decode_two (n := c.toNat) (by omega) (by omega)
    · split
      · simpa [hchar] using decode_three (n := c.toNat) (by omega) (by omega) (by omega)
      · simpa [hchar] using decode_four (n := c.toNat) (by omega) (by omega)

/-! ## Texts -/

/-- The bytes of a text are those of its characters. -/
theorem bytes_eq (s : String) : bytes s = s.toList.flatMap String.utf8EncodeChar := by
  have hlist : s.toByteArray = s.toList.utf8Encode := by
    calc
      s.toByteArray = (String.ofList s.toList).toByteArray := by rw [String.ofList_toList]
      _ = s.toList.utf8Encode := String.toByteArray_ofList
  calc
    bytes s = s.toByteArray.data.toList := rfl
    _ = s.toList.utf8Encode.data.toList := by rw [hlist]
    _ = s.toList.flatMap String.utf8EncodeChar := by simp [List.utf8Encode, List.data_toByteArray]

theorem decode_flatMap (cs : List Char) :
    decode (cs.flatMap String.utf8EncodeChar) = cs.map some := by
  induction cs with
  | nil =>
      rfl
  | cons c cs ih =>
      calc
        decode ((c :: cs).flatMap String.utf8EncodeChar)
            = some c :: decode (cs.flatMap String.utf8EncodeChar) := decode_encode c _
        _ = (c :: cs).map some := by rw [ih]; rfl

/-- A text is read back from its bytes, without a fault. -/
theorem decode_bytes (s : String) : decode (bytes s) = s.toList.map some := by
  rw [bytes_eq, decode_flatMap]

/-- A text is read back from its bytes. -/
theorem lossy_bytes (s : String) : lossy (bytes s) = s.toList := by
  simp [lossy, decode_bytes, Function.comp_def]

/-! ## Bytes without a fault -/

/-- A first byte carries the bits that it announces, and these fix the ranges to come. -/
theorem announced_cases (h : announced b = some (bits, missing)) :
    (b.toNat = bits + 0xC0 ∧ 2 ≤ bits ∧ bits < 0x20 ∧ missing = [continuing]) ∨
      (b.toNat = bits + 0xE0 ∧ bits < 0x10 ∧ missing = [secondOfThree bits, continuing]) ∨
        (b.toNat = bits + 0xF0 ∧ bits < 5 ∧
            missing = [secondOfFour bits, continuing, continuing]) := by
  simp only [announced, Bool.and_eq_true, decide_eq_true_eq, UInt8.le_iff_toNat_le,
    UInt8.reduceToNat, ← UInt8.toNat_inj] at h
  -- one case for each row of the table
  split at h
  next => grind
  next =>
    split at h
    next => grind [secondOfThree]
    next =>
      split at h
      next => grind [secondOfThree]
      next =>
        split at h
        next => grind [secondOfThree]
        next => grind [secondOfFour]

/-- A sequence that has begun goes on without a fault only by a byte in its range. -/
theorem exists_of_pending {cs : List Char}
    (h : decodeFrom (some ⟨bits, r :: missing⟩) bs = cs.map some) :
    ∃ b rest, bs = b :: rest ∧ r.contains b = true := by
  cases bs with
  | nil =>
      cases cs <;> cases h
  | cons b rest =>
      by_cases hb : r.contains b = true
      · exact ⟨b, rest, rfl, hb⟩
      · cases cs <;> simp [decodeFrom, feed, hb] at h

/-- A code point in the range of Unicode is that of its character. -/
theorem code_ofNat {n : Nat} (h : n < 0xD800 ∨ 0xDFFF < n ∧ n < 0x110000) :
    (Char.ofNat n).val.toNat = n := by
  have hvalid : n.isValidChar := h
  rw [Char.ofNat, dif_pos hvalid]
  rfl

section Encoded

variable {n : Nat}

theorem encode_one (h : n < 0x80) : String.utf8EncodeChar (Char.ofNat n) = [UInt8.ofNat n] := by
  have hn : n ≤ 0x7F := by omega
  simp [String.utf8EncodeChar, code_ofNat (n := n) (by omega), hn]

theorem encode_two (hoverlong : 0x80 ≤ n) (hlarge : n < 0x800) :
    String.utf8EncodeChar (Char.ofNat n) =
      [UInt8.ofNat (n / 64 % 32 + 192), UInt8.ofNat (n % 64 + 128)] := by
  have hone : ¬ n ≤ 0x7F := by omega
  have htwo : n ≤ 0x7FF := by omega
  simp [String.utf8EncodeChar, code_ofNat (n := n) (by omega), hone, htwo]

theorem encode_three (hoverlong : 0x800 ≤ n) (hlarge : n < 0x10000)
    (hsurrogate : n < 0xD800 ∨ 0xDFFF < n) :
    String.utf8EncodeChar (Char.ofNat n) =
      [UInt8.ofNat (n / 4096 % 16 + 224), UInt8.ofNat (n / 64 % 64 + 128),
        UInt8.ofNat (n % 64 + 128)] := by
  have hone : ¬ n ≤ 0x7F := by omega
  have htwo : ¬ n ≤ 0x7FF := by omega
  have hthree : n ≤ 0xFFFF := by omega
  simp [String.utf8EncodeChar, code_ofNat (n := n) (by omega), hone, htwo, hthree]

theorem encode_four (hoverlong : 0x10000 ≤ n) (hlarge : n < 0x110000) :
    String.utf8EncodeChar (Char.ofNat n) =
      [UInt8.ofNat (n / 262144 % 8 + 240), UInt8.ofNat (n / 4096 % 64 + 128),
        UInt8.ofNat (n / 64 % 64 + 128), UInt8.ofNat (n % 64 + 128)] := by
  have hone : ¬ n ≤ 0x7F := by omega
  have htwo : ¬ n ≤ 0x7FF := by omega
  have hthree : ¬ n ≤ 0xFFFF := by omega
  simp [String.utf8EncodeChar, code_ofNat (n := n) (by omega), hone, htwo, hthree]

end Encoded

theorem eq_ofNat {n : Nat} (h : b.toNat = n) : b = UInt8.ofNat n := by
  rw [← h, UInt8.ofNat_toNat]

section Sequences

variable {b₁ b₂ b₃ : UInt8}

theorem bounds_tail (h : continuing.contains b = true) : 0x80 ≤ b.toNat ∧ b.toNat ≤ 0xBF := by
  simpa only [continuing, UInt8.reduceToNat] using contains_iff.1 h

theorem bounds_secondOfThree (h : (secondOfThree bits).contains b = true) :
    0x80 ≤ b.toNat ∧ b.toNat ≤ 0xBF ∧ (bits = 0 → 0xA0 ≤ b.toNat) ∧
      (bits = 0xD → b.toNat ≤ 0x9F) := by
  have hb := contains_iff.1 h
  unfold secondOfThree at hb
  split at hb
  · simp only [UInt8.reduceToNat] at hb
    omega
  · split at hb
    · simp only [UInt8.reduceToNat] at hb
      omega
    · simp only [continuing, UInt8.reduceToNat] at hb
      omega

theorem bounds_secondOfFour (h : (secondOfFour bits).contains b = true) :
    0x80 ≤ b.toNat ∧ b.toNat ≤ 0xBF ∧ (bits = 0 → 0x90 ≤ b.toNat) ∧
      (bits = 4 → b.toNat ≤ 0x8F) := by
  have hb := contains_iff.1 h
  unfold secondOfFour at hb
  split at hb
  · simp only [UInt8.reduceToNat] at hb
    omega
  · split at hb
    · simp only [UInt8.reduceToNat] at hb
      omega
    · simp only [continuing, UInt8.reduceToNat] at hb
      omega

/-- Two bytes in their ranges are the sequence of the character that they are read as. -/
theorem encode_pair (hb : b.toNat = bits + 0xC0) (hoverlong : 2 ≤ bits) (hbits : bits < 0x20)
    (h₁ : continuing.contains b₁ = true) :
    String.utf8EncodeChar (Char.ofNat (bits * 64 + (b₁.toNat - 0x80))) = [b, b₁] := by
  have hr₁ := bounds_tail h₁
  rw [encode_two (by omega) (by omega), ← eq_ofNat (b := b) (by omega),
    ← eq_ofNat (b := b₁) (by omega)]

theorem encode_triple (hb : b.toNat = bits + 0xE0) (hbits : bits < 0x10)
    (h₁ : (secondOfThree bits).contains b₁ = true) (h₂ : continuing.contains b₂ = true) :
    String.utf8EncodeChar (Char.ofNat ((bits * 64 + (b₁.toNat - 0x80)) * 64 + (b₂.toNat - 0x80))) =
      [b, b₁, b₂] := by
  have hr₁ := bounds_secondOfThree h₁
  have hr₂ := bounds_tail h₂
  rw [encode_three (by omega) (by omega) (by omega), ← eq_ofNat (b := b) (by omega),
    ← eq_ofNat (b := b₁) (by omega), ← eq_ofNat (b := b₂) (by omega)]

theorem encode_quadruple (hb : b.toNat = bits + 0xF0) (hbits : bits < 5)
    (h₁ : (secondOfFour bits).contains b₁ = true) (h₂ : continuing.contains b₂ = true)
    (h₃ : continuing.contains b₃ = true) :
    String.utf8EncodeChar (Char.ofNat
        (((bits * 64 + (b₁.toNat - 0x80)) * 64 + (b₂.toNat - 0x80)) * 64 + (b₃.toNat - 0x80))) =
      [b, b₁, b₂, b₃] := by
  have hr₁ := bounds_secondOfFour h₁
  have hr₂ := bounds_tail h₂
  have hr₃ := bounds_tail h₃
  rw [encode_four (by omega) (by omega), ← eq_ofNat (b := b) (by omega),
    ← eq_ofNat (b := b₁) (by omega), ← eq_ofNat (b := b₂) (by omega),
    ← eq_ofNat (b := b₃) (by omega)]

end Sequences

theorem cons_eq_map_some {α : Type} {a : α} {as : List (Option α)} {cs : List α}
    (h : some a :: as = cs.map some) : ∃ cs', cs = a :: cs' ∧ as = cs'.map some := by
  cases cs with
  | nil =>
      cases h
  | cons c cs =>
      cases h
      exact ⟨cs, rfl, rfl⟩

/-- Without a fault the first bytes are the sequence of the first character. -/
theorem exists_char_of_decode {cs : List Char} (h : decodeFrom none (b :: bs) = cs.map some) :
    ∃ c cs' rest, cs = c :: cs' ∧ b :: bs = String.utf8EncodeChar c ++ rest ∧
      decodeFrom none rest = cs'.map some := by
  by_cases hsmall : b.toNat < 0x80
  · rw [decodeFrom_single hsmall] at h
    rcases cons_eq_map_some h with ⟨cs', rfl, hrest⟩
    refine ⟨_, cs', bs, rfl, ?_, hrest⟩
    rw [encode_one hsmall, UInt8.ofNat_toNat]
    rfl
  · have hlarge : ¬ b < 0x80 := fun hlt => hsmall (UInt8.lt_iff_toNat_lt.1 hlt)
    cases hannounced : announced b with
    | none =>
        cases cs <;> simp [decodeFrom, feed, start, hlarge, hannounced] at h
    | some begun =>
        rcases begun with ⟨bits, missing⟩
        rw [decodeFrom_begin hannounced (by omega)] at h
        -- as many bytes follow as the first one has announced
        rcases announced_cases hannounced with
          ⟨hb, hoverlong, hbits, rfl⟩ | ⟨hb, hbits, rfl⟩ | ⟨hb, hbits, rfl⟩
        · rcases exists_of_pending h with ⟨b₁, rest, rfl, h₁⟩
          rw [decodeFrom_end h₁] at h
          rcases cons_eq_map_some h with ⟨cs', rfl, hrest⟩
          refine ⟨_, cs', rest, rfl, ?_, hrest⟩
          rw [encode_pair hb hoverlong hbits h₁]
          rfl
        · rcases exists_of_pending h with ⟨b₁, rest, rfl, h₁⟩
          rw [decodeFrom_continue h₁ (by simp)] at h
          rcases exists_of_pending h with ⟨b₂, rest, rfl, h₂⟩
          rw [decodeFrom_end h₂] at h
          rcases cons_eq_map_some h with ⟨cs', rfl, hrest⟩
          refine ⟨_, cs', rest, rfl, ?_, hrest⟩
          rw [encode_triple hb hbits h₁ h₂]
          rfl
        · rcases exists_of_pending h with ⟨b₁, rest, rfl, h₁⟩
          rw [decodeFrom_continue h₁ (by simp)] at h
          rcases exists_of_pending h with ⟨b₂, rest, rfl, h₂⟩
          rw [decodeFrom_continue h₂ (by simp)] at h
          rcases exists_of_pending h with ⟨b₃, rest, rfl, h₃⟩
          rw [decodeFrom_end h₃] at h
          rcases cons_eq_map_some h with ⟨cs', rfl, hrest⟩
          refine ⟨_, cs', rest, rfl, ?_, hrest⟩
          rw [encode_quadruple hb hbits h₁ h₂ h₃]
          rfl

/-- Bytes that are decoded without a fault are those of the characters. -/
theorem eq_flatMap_of_decode {cs : List Char} (h : decode bs = cs.map some) :
    bs = cs.flatMap String.utf8EncodeChar := by
  induction cs generalizing bs with
  | nil =>
      cases bs with
      | nil =>
          rfl
      | cons b bs =>
          rcases exists_char_of_decode h with ⟨c, cs', rest, hcs, -, -⟩
          cases hcs
  | cons c cs ih =>
      cases bs with
      | nil =>
          cases h
      | cons b bs =>
          rcases exists_char_of_decode h with ⟨c', cs', rest, hcs, hbytes, hrest⟩
          cases hcs
          rw [hbytes, List.flatMap_cons, ← ih hrest]

theorem mapM_id_eq_some_iff {α : Type} {ds : List (Option α)} {cs : List α} :
    ds.mapM id = some cs ↔ ds = cs.map some := by
  induction ds generalizing cs with
  | nil =>
      cases cs <;> simp
  | cons d ds ih =>
      cases d with
      | none =>
          cases cs <;> simp
      | some c =>
          simp only [List.mapM_cons, id, Option.bind_eq_bind, Option.bind_some,
            Option.bind_eq_some_iff, Option.pure_def, Option.some.injEq, ih]
          constructor
          · intro hcase
            rcases hcase with ⟨cs', rfl, rfl⟩
            rfl
          · intro h
            rcases cons_eq_map_some h with ⟨cs', rfl, hrest⟩
            exact ⟨cs', hrest, rfl⟩

/-- Bytes are read as a text exactly if they are the bytes of this text. -/
theorem strict_iff {s : String} : strict bs = some s.toList ↔ bs = bytes s := by
  rw [strict, mapM_id_eq_some_iff, bytes_eq]
  constructor
  · exact eq_flatMap_of_decode
  · intro h
    rw [h]
    exact decode_flatMap s.toList

end Utf8
end Text
end Provision
