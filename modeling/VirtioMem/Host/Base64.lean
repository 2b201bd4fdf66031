import Mathlib.Algebra.GroupWithZero.Nat
import Mathlib.Data.List.GetD
import Mathlib.Tactic.Common
import VirtioMem.Lib.Result

/-!
# The base64 codec of the guest agent

The agent carries the contents of files as padded base64. The encoder cuts a word of three bytes into
four sextets with 32-bit shifts; the decoder puts the bytes together with 8-bit shifts that lose what
they push out, and checks the padding of every block on its way.

Both are brought to arithmetic on the sextets first. Then the round trip is an induction over the
chunks, with its three tails, and what is accepted and what is lost are inductions over the blocks
(`base64_codec`).
-/

namespace VirtioMem.Host

open VirtioMem.Result

/-- The bytes of a text. -/
def asBytes (text : String) : List UInt8 := text.toList.flatMap String.utf8EncodeChar

/-! ## Encoding -/

def base64Alphabet : List Char :=
  "ABCDEFGHIJKLMNOPQRSTUVWXYZabcdefghijklmnopqrstuvwxyz0123456789+/".toList

def fromBeBytes (bytes : List UInt8) : UInt32 :=
  .ofNat (bytes.foldl (fun value byte => value * 256 + byte.toNat) 0)

/-- The characters of one chunk, which is of one to three bytes. -/
def encodeChunk (chunk : List UInt8) : List Char :=
  let value := fromBeBytes [0, chunk.getD 0 0, chunk.getD 1 0, chunk.getD 2 0]
  (List.range 4).map fun index =>
    if index ≤ chunk.length then
      base64Alphabet.getD ((value >>> .ofNat (18 - 6 * index)) &&& 0x3f).toNat '='
    else '='

def encodeChunks : List UInt8 → List Char
  | [] => []
  | a :: b :: c :: rest => encodeChunk [a, b, c] ++ encodeChunks rest
  | chunk => encodeChunk chunk

def encodeBase64 (input : List UInt8) : String := String.ofList (encodeChunks input)

/-! ## Decoding -/

def base64Value (byte : UInt8) : Except String UInt8 :=
  if 'A'.toUInt8 ≤ byte ∧ byte ≤ 'Z'.toUInt8 then .ok (byte - 'A'.toUInt8)
  else if 'a'.toUInt8 ≤ byte ∧ byte ≤ 'z'.toUInt8 then .ok (byte - 'a'.toUInt8 + 26)
  else if '0'.toUInt8 ≤ byte ∧ byte ≤ '9'.toUInt8 then .ok (byte - '0'.toUInt8 + 52)
  else if byte = '+'.toUInt8 then .ok 62
  else if byte = '/'.toUInt8 then .ok 63
  else .error "QGA base64 payload contains an invalid character"

def padByte : UInt8 := '='.toUInt8

/-- The bytes of one block of four characters. -/
def decodeBlock (last : Bool) (w x y z : UInt8) : Except String (List UInt8) :=
  let padding := if y = padByte ∧ z = padByte then 2 else if z = padByte then 1 else 0
  if padding > 0 ∧ last = false then
    .error "QGA base64 padding appears before the final block"
  else do
    let a ← base64Value w
    let b ← base64Value x
    let c ← if y = padByte then .ok 0 else base64Value y
    let d ← if z = padByte then .ok 0 else base64Value z
    if w = padByte ∨ x = padByte ∨ (y = padByte ∧ z ≠ padByte) then
      .error "QGA base64 padding is invalid"
    else .ok ([(a <<< 2) ||| (b >>> 4)] ++ (if padding < 2 then [(b <<< 4) ||| (c >>> 2)] else []) ++
      if padding = 0 then [(c <<< 6) ||| d] else [])

def decodeBlocks : List UInt8 → Except String (List UInt8)
  | w :: x :: y :: z :: rest => do
    let bytes ← decodeBlock rest.isEmpty w x y z
    let more ← decodeBlocks rest
    return bytes ++ more
  | _ => .ok []

def decodeBase64 (input : String) : Except String (List UInt8) :=
  if (asBytes input).length % 4 ≠ 0 then .error "QGA base64 payload length is invalid"
  else decodeBlocks (asBytes input)

example : decodeBase64 "YWI=" = .ok [97, 98] := by decide +kernel

/-! ## Letters and their sextets -/

/-- The letter for a sextet, as a character of a text and as a byte of it. -/
def letterChar (sextet : Nat) : Char := base64Alphabet.getD sextet '='

def letter (sextet : Nat) : UInt8 := (letterChar sextet).toUInt8

theorem base64Value_letter {sextet : Nat} (h : sextet < 64) :
    base64Value (letter sextet) = .ok (.ofNat sextet) := by
  have hall : ∀ sextet < 64, base64Value (letter sextet) = .ok (.ofNat sextet) := by decide +kernel
  exact hall sextet h

/-- Only letters have a value. -/
theorem base64Value_eq_ok {byte value : UInt8} (h : base64Value byte = .ok value) :
    ∃ sextet < 64, byte = letter sextet ∧ value = .ofNat sextet := by
  have hall : ∀ n < 256, (base64Value (.ofNat n)).toBool →
      ∃ sextet < 64, UInt8.ofNat n = letter sextet := by decide +kernel
  have hok : (base64Value (.ofNat byte.toNat)).toBool := by simp [h, Except.toBool]
  obtain ⟨sextet, hsextet, hbyte⟩ := hall byte.toNat byte.toNat_lt hok
  rw [UInt8.ofNat_toNat] at hbyte
  rw [hbyte, base64Value_letter hsextet] at h
  exact ⟨sextet, hsextet, hbyte, (Except.ok.inj h).symm⟩

theorem letter_ne_pad {sextet : Nat} (h : sextet < 64) : letter sextet ≠ padByte := by
  intro hpad
  have hvalue := base64Value_letter h
  rw [hpad] at hvalue
  exact absurd hvalue (by simp [show base64Value padByte =
    .error "QGA base64 payload contains an invalid character" by decide])

theorem utf8_letterChar {sextet : Nat} (h : sextet < 64) :
    String.utf8EncodeChar (letterChar sextet) = [letter sextet] := by
  have hall : ∀ sextet < 64, String.utf8EncodeChar (letterChar sextet) = [letter sextet] := by
    decide +kernel
  exact hall sextet h

theorem base64Alphabet_length : base64Alphabet.length = 64 := by decide +kernel

theorem letterChar_mem {sextet : Nat} (h : sextet < 64) : letterChar sextet ∈ base64Alphabet := by
  rw [letterChar, List.getD_eq_getElem _ _ (base64Alphabet_length ▸ h)]
  exact List.getElem_mem _

/-! ## Blocks in arithmetic -/

/-- Two sextets put together in one byte: what a shift pushes out of the byte is lost. -/
theorem joined_byte {a b i j : Nat} (hi : i < 8) (hj : j < 8) (ha : a < 64) (hb : b < 64)
    (hlow : b / 2 ^ j < 2 ^ i) :
    (UInt8.ofNat a <<< UInt8.ofNat i) ||| (UInt8.ofNat b >>> UInt8.ofNat j) =
      .ofNat (a % 2 ^ (8 - i) * 2 ^ i + b / 2 ^ j) := by
  have hkept : a * 2 ^ i % 2 ^ 8 = a % 2 ^ (8 - i) * 2 ^ i := by
    rw [← Nat.mul_mod_mul_right, ← Nat.pow_add, Nat.sub_add_cancel (Nat.le_of_lt hi)]
  have hsmall : ∀ {n : Nat}, n < 64 → n % 2 ^ 8 = n := fun h => Nat.mod_eq_of_lt (by omega)
  have hshift : ∀ {n : Nat}, n < 8 → n % 2 ^ 8 % 8 = n := fun h => by omega
  apply UInt8.toNat_inj.mp
  simp only [UInt8.toNat_or, UInt8.toNat_shiftLeft, UInt8.toNat_shiftRight, UInt8.toNat_ofNat',
    Nat.shiftLeft_eq, Nat.shiftRight_eq_div_pow, hsmall ha, hsmall hb, hshift hi, hshift hj, hkept]
  have hfits : a % 2 ^ (8 - i) * 2 ^ i + b / 2 ^ j < 2 ^ 8 := by
    have hupper := Nat.mul_le_mul_right (2 ^ i)
      (Nat.succ_le_of_lt (Nat.mod_lt a (Nat.two_pow_pos (8 - i))))
    rw [← Nat.pow_add, Nat.sub_add_cancel (Nat.le_of_lt hi), Nat.succ_mul] at hupper
    omega
  rw [← Nat.shiftLeft_eq, ← Nat.shiftLeft_add_eq_or_of_lt hlow, Nat.shiftLeft_eq,
    Nat.mod_eq_of_lt hfits]

theorem first_byte {a b : Nat} (ha : a < 64) (hb : b < 64) :
    (UInt8.ofNat a <<< 2) ||| (UInt8.ofNat b >>> 4) = .ofNat (a * 4 + b / 16) := by
  have hjoined := joined_byte (i := 2) (j := 4) (by decide) (by decide) ha hb (by omega)
  rwa [Nat.mod_eq_of_lt (by omega)] at hjoined

theorem second_byte {b c : Nat} (hb : b < 64) (hc : c < 64) :
    (UInt8.ofNat b <<< 4) ||| (UInt8.ofNat c >>> 2) = .ofNat (b % 16 * 16 + c / 4) :=
  joined_byte (i := 4) (j := 2) (by decide) (by decide) hb hc (by omega)

theorem third_byte {c d : Nat} (hc : c < 64) (hd : d < 64) :
    (UInt8.ofNat c <<< 6) ||| UInt8.ofNat d = .ofNat (c % 4 * 64 + d) := by
  have hjoined := joined_byte (i := 6) (j := 0) (by decide) (by decide) hc hd (by omega)
  rwa [Nat.pow_zero, Nat.div_one, show UInt8.ofNat d >>> UInt8.ofNat 0 = .ofNat d from
    UInt8.toNat_inj.mp (by simp)] at hjoined

/-- The bytes that sextets stand for: three for every four of them, and of a last group one less
than it has sextets. -/
def packed : List Nat → List UInt8
  | a :: b :: c :: d :: rest =>
      .ofNat (a * 4 + b / 16) :: .ofNat (b % 16 * 16 + c / 4) :: .ofNat (c % 4 * 64 + d) ::
        packed rest
  | [a, b, c] => [.ofNat (a * 4 + b / 16), .ofNat (b % 16 * 16 + c / 4)]
  | [a, b] => [.ofNat (a * 4 + b / 16)]
  | [_] | [] => []

theorem decodeBlock_letters {last : Bool} {a b c d : Nat} (ha : a < 64) (hb : b < 64)
    (hc : c < 64) (hd : d < 64) :
    decodeBlock last (letter a) (letter b) (letter c) (letter d) = .ok (packed [a, b, c, d]) := by
  simp [decodeBlock, packed, base64Value_letter, letter_ne_pad, first_byte, second_byte,
    third_byte, ha, hb, hc, hd, bind, Except.bind]

theorem decodeBlock_one_pad {a b c : Nat} (ha : a < 64) (hb : b < 64) (hc : c < 64) :
    decodeBlock true (letter a) (letter b) (letter c) padByte = .ok (packed [a, b, c]) := by
  simp [decodeBlock, packed, base64Value_letter, letter_ne_pad, first_byte, second_byte, ha, hb, hc,
    bind, Except.bind]

theorem decodeBlock_two_pads {a b : Nat} (ha : a < 64) (hb : b < 64) :
    decodeBlock true (letter a) (letter b) padByte padByte = .ok (packed [a, b]) := by
  simp [decodeBlock, packed, base64Value_letter, letter_ne_pad, first_byte, ha, hb, bind,
    Except.bind]

/-- **What a block may be.** Four letters anywhere; two or three of them, filled up with padding, at
the end. -/
theorem decodeBlock_eq_ok {last : Bool} {w x y z : UInt8} {bytes : List UInt8}
    (h : decodeBlock last w x y z = .ok bytes) :
    ∃ a < 64, ∃ b < 64, w = letter a ∧ x = letter b ∧
      ((∃ c < 64, ∃ d < 64, y = letter c ∧ z = letter d) ∨
        (last = true ∧ (∃ c < 64, y = letter c) ∧ z = padByte) ∨
        (last = true ∧ y = padByte ∧ z = padByte)) := by
  by_cases hz : z = padByte
  · have hlast : last = true := by
      cases last with
      | true => rfl
      | false => by_cases hy : y = padByte <;> simp [decodeBlock, hz, hy] at h
    by_cases hy : y = padByte
    · simp only [decodeBlock, hz, hy, hlast] at h
      obtain ⟨_, hw, h⟩ := bind_eq_ok.mp h
      obtain ⟨_, hx, h⟩ := bind_eq_ok.mp h
      obtain ⟨a, ha, rfl, -⟩ := base64Value_eq_ok hw
      obtain ⟨b, hb, rfl, -⟩ := base64Value_eq_ok hx
      exact ⟨a, ha, b, hb, rfl, rfl, .inr (.inr ⟨hlast, hy, hz⟩)⟩
    · simp only [decodeBlock, hz, hy, hlast] at h
      obtain ⟨_, hw, h⟩ := bind_eq_ok.mp h
      obtain ⟨_, hx, h⟩ := bind_eq_ok.mp h
      obtain ⟨_, hy, h⟩ := bind_eq_ok.mp h
      obtain ⟨a, ha, rfl, -⟩ := base64Value_eq_ok hw
      obtain ⟨b, hb, rfl, -⟩ := base64Value_eq_ok hx
      obtain ⟨c, hc, rfl, -⟩ := base64Value_eq_ok hy
      exact ⟨a, ha, b, hb, rfl, rfl, .inr (.inl ⟨hlast, ⟨c, hc, rfl⟩, hz⟩)⟩
  · -- padding that does not reach the end of the block is refused at the very end
    by_cases hy : y = padByte
    · simp [decodeBlock, hz, hy, bind_eq_ok] at h
    · simp only [decodeBlock, hz, hy] at h
      obtain ⟨_, hw, h⟩ := bind_eq_ok.mp h
      obtain ⟨_, hx, h⟩ := bind_eq_ok.mp h
      obtain ⟨_, hy, h⟩ := bind_eq_ok.mp h
      obtain ⟨_, hz, h⟩ := bind_eq_ok.mp h
      obtain ⟨a, ha, rfl, -⟩ := base64Value_eq_ok hw
      obtain ⟨b, hb, rfl, -⟩ := base64Value_eq_ok hx
      obtain ⟨c, hc, rfl, -⟩ := base64Value_eq_ok hy
      obtain ⟨d, hd, rfl, -⟩ := base64Value_eq_ok hz
      exact ⟨a, ha, b, hb, rfl, rfl, .inl ⟨c, hc, d, hd, rfl, rfl⟩⟩

/-! ## Whole payloads -/

/-- A payload: sextets as letters, and padding up to a whole block. -/
structure Payload (bytes : List UInt8) (sextets : List Nat) (padding : Nat) : Prop where
  small : ∀ sextet ∈ sextets, sextet < 64
  short : padding ≤ 2
  whole : 4 ∣ sextets.length + padding
  written : bytes = sextets.map letter ++ List.replicate padding padByte

theorem decodeBlocks_payload {sextets : List Nat} {padding : Nat}
    (hsmall : ∀ sextet ∈ sextets, sextet < 64) (hshort : padding ≤ 2)
    (hwhole : 4 ∣ sextets.length + padding) :
    decodeBlocks (sextets.map letter ++ List.replicate padding padByte) = .ok (packed sextets) := by
  induction sextets using packed.induct with
  | case1 a b c d rest ih =>
    simp only [List.mem_cons, forall_eq_or_imp] at hsmall
    obtain ⟨ha, hb, hc, hd, hrest⟩ := hsmall
    simp only [List.length_cons] at hwhole
    simp only [List.map_cons, List.cons_append, decodeBlocks, decodeBlock_letters ha hb hc hd,
      ih hrest (by omega), packed]
    rfl
  | case2 a b c =>
    obtain rfl : padding = 1 := by simp at hwhole; omega
    simp only [List.mem_cons, forall_eq_or_imp] at hsmall
    obtain ⟨ha, hb, hc, -⟩ := hsmall
    simp only [List.map_cons, List.map_nil, List.cons_append, List.nil_append, List.replicate,
      decodeBlocks, List.isEmpty_nil, decodeBlock_one_pad ha hb hc, packed]
    rfl
  | case3 a b =>
    obtain rfl : padding = 2 := by simp at hwhole; omega
    simp only [List.mem_cons, forall_eq_or_imp] at hsmall
    obtain ⟨ha, hb, -⟩ := hsmall
    simp only [List.map_cons, List.map_nil, List.cons_append, List.nil_append, List.replicate,
      decodeBlocks, List.isEmpty_nil, decodeBlock_two_pads ha hb, packed]
    rfl
  | case4 a =>
    simp only [List.length_singleton] at hwhole
    omega
  | case5 =>
    obtain rfl : padding = 0 := by simp only [List.length_nil] at hwhole; omega
    rfl

theorem decodeBlocks_eq_ok {bytes out : List UInt8} (hwhole : 4 ∣ bytes.length)
    (h : decodeBlocks bytes = .ok out) : ∃ sextets padding, Payload bytes sextets padding := by
  induction bytes using decodeBlocks.induct generalizing out with
  | case1 w x y z rest ih =>
    simp only [decodeBlocks] at h
    obtain ⟨block, hblock, h⟩ := bind_eq_ok.mp h
    obtain ⟨more, hmore, -⟩ := bind_eq_ok.mp h
    obtain ⟨a, ha, b, hb, rfl, rfl, htail⟩ := decodeBlock_eq_ok hblock
    rcases htail with ⟨c, hc, d, hd, rfl, rfl⟩ | ⟨hlast, ⟨c, hc, rfl⟩, rfl⟩ | ⟨hlast, rfl, rfl⟩
    · obtain ⟨sextets, padding, hrest⟩ := ih (by simp only [List.length_cons] at hwhole; omega) hmore
      refine ⟨a :: b :: c :: d :: sextets, padding, ?_, hrest.short, ?_, ?_⟩
      · simpa only [List.mem_cons, forall_eq_or_imp] using ⟨ha, hb, hc, hd, hrest.small⟩
      · have := hrest.whole
        simp only [List.length_cons]
        omega
      · simp [hrest.written]
    · obtain rfl := List.isEmpty_iff.mp hlast
      exact ⟨[a, b, c], 1, by simp [ha, hb, hc], by decide, by simp, by simp⟩
    · obtain rfl := List.isEmpty_iff.mp hlast
      exact ⟨[a, b], 2, by simp [ha, hb], by decide, by simp, by simp⟩
  | case2 bytes hnone =>
    rcases bytes with _ | ⟨w, _ | ⟨x, _ | ⟨y, _ | ⟨z, rest⟩⟩⟩⟩
    · exact ⟨[], 0, ⟨by simp, by decide, by simp, rfl⟩⟩
    · simp at hwhole
    · simp at hwhole
    · simp at hwhole
    · exact (hnone w x y z rest rfl).elim

/-! ## The two texts -/

theorem asBytes_inj {text text' : String} (h : asBytes text = asBytes text') : text = text' := by
  have hutf8 : text.toList.utf8Encode = text'.toList.utf8Encode := by
    rw [List.utf8Encode, List.utf8Encode]
    exact congrArg List.toByteArray h
  rwa [String.utf8Encode_toList, String.utf8Encode_toList, String.toByteArray_inj] at hutf8

/-- A payload as it is written in a text. -/
def written (sextets : List Nat) (padding : Nat) : List Char :=
  sextets.map letterChar ++ List.replicate padding '='

theorem asBytes_written {sextets : List Nat} {padding : Nat} (h : ∀ sextet ∈ sextets, sextet < 64) :
    asBytes (.ofList (written sextets padding)) =
      sextets.map letter ++ List.replicate padding padByte := by
  have hletters : sextets.flatMap (fun sextet => String.utf8EncodeChar (letterChar sextet)) =
      sextets.map letter := by
    induction sextets with
    | nil => rfl
    | cons sextet rest ih =>
      simp only [List.mem_cons, forall_eq_or_imp] at h
      rw [List.flatMap_cons, utf8_letterChar h.1, ih h.2]
      rfl
  have hpads : (List.replicate padding '=').flatMap String.utf8EncodeChar =
      List.replicate padding padByte := by
    rw [List.flatMap_replicate, show String.utf8EncodeChar '=' = [padByte] by decide,
      List.flatten_replicate_singleton]
  rw [asBytes, String.toList_ofList, written, List.flatMap_append, List.flatMap_map, hletters, hpads]

/-- The sextets of bytes: four for every three of them, and of a last group one more than it has
bytes. -/
def unpacked : List UInt8 → List Nat
  | a :: b :: c :: rest =>
      a.toNat / 4 :: (a.toNat % 4 * 16 + b.toNat / 16) :: (b.toNat % 16 * 4 + c.toNat / 64) ::
        c.toNat % 64 :: unpacked rest
  | [a, b] => [a.toNat / 4, a.toNat % 4 * 16 + b.toNat / 16, b.toNat % 16 * 4]
  | [a] => [a.toNat / 4, a.toNat % 4 * 16]
  | [] => []

theorem unpacked_small (input : List UInt8) : ∀ sextet ∈ unpacked input, sextet < 64 := by
  induction input using unpacked.induct with
  | case1 a b c rest ih =>
    have := a.toNat_lt
    have := b.toNat_lt
    have := c.toNat_lt
    simp only [unpacked, List.mem_cons, forall_eq_or_imp]
    exact ⟨by omega, by omega, by omega, by omega, ih⟩
  | case2 a b =>
    have := a.toNat_lt
    have := b.toNat_lt
    simp only [unpacked, List.mem_cons, forall_eq_or_imp, List.not_mem_nil, false_implies,
      implies_true, and_true]
    omega
  | case3 a =>
    have := a.toNat_lt
    simp only [unpacked, List.mem_cons, forall_eq_or_imp, List.not_mem_nil, false_implies,
      implies_true, and_true]
    omega
  | case4 => simp [unpacked]

/-- The pieces of a byte put together again. -/
theorem rejoined {n : Nat} {b : UInt8} (h : n = b.toNat) : UInt8.ofNat n = b := by
  rw [h, UInt8.ofNat_toNat]

theorem packed_unpacked (input : List UInt8) : packed (unpacked input) = input := by
  induction input using unpacked.induct with
  | case1 a b c rest ih =>
    have := b.toNat_lt
    have := c.toNat_lt
    simp only [unpacked, packed, ih]
    rw [rejoined (b := a) (by omega), rejoined (b := b) (by omega),
      rejoined (b := c) (by omega)]
  | case2 a b =>
    have := b.toNat_lt
    simp only [unpacked, packed]
    rw [rejoined (b := a) (by omega), rejoined (b := b) (by omega)]
  | case3 a =>
    simp only [unpacked, packed]
    rw [rejoined (b := a) (by omega)]
  | case4 => rfl

/-- The padding that fills up what is left of `length` bytes. -/
def paddingOf (length : Nat) : Nat := (3 - length % 3) % 3

/-- The sextets of a word of three bytes. -/
theorem word_sextet {a b c : UInt8} {shift : Nat} (h : shift < 32) :
    ((fromBeBytes [0, a, b, c] >>> .ofNat shift) &&& 0x3f).toNat =
      (a.toNat * 65536 + b.toNat * 256 + c.toNat) / 2 ^ shift % 64 := by
  have := a.toNat_lt
  have := b.toNat_lt
  have := c.toNat_lt
  have hmask : (0x3f : UInt32).toNat = 2 ^ 6 - 1 := rfl
  have hword : (fromBeBytes [0, a, b, c]).toNat = a.toNat * 65536 + b.toNat * 256 + c.toNat := by
    simp only [fromBeBytes, List.foldl_cons, List.foldl_nil, UInt32.toNat_ofNat', UInt8.toNat_zero]
    omega
  rw [UInt32.toNat_and, UInt32.toNat_shiftRight, hmask, Nat.and_two_pow_sub_one_eq_mod, hword,
    UInt32.toNat_ofNat', Nat.shiftRight_eq_div_pow, Nat.mod_eq_of_lt (b := 2 ^ 32) (by omega),
    Nat.mod_eq_of_lt h]

/-- The letter that the encoder takes from a word of three bytes. -/
def wordLetter (a b c : UInt8) (shift : Nat) : Char :=
  letterChar ((fromBeBytes [0, a, b, c] >>> .ofNat shift) &&& 0x3f).toNat

theorem wordLetter_eq {a b c : UInt8} {shift sextet : Nat} (h : shift < 32)
    (hsextet : (a.toNat * 65536 + b.toNat * 256 + c.toNat) / 2 ^ shift % 64 = sextet) :
    wordLetter a b c shift = letterChar sextet := by
  rw [wordLetter, word_sextet h, hsextet]

theorem word_letters (a b c : UInt8) :
    wordLetter a b c 18 = letterChar (a.toNat / 4) ∧
      wordLetter a b c 12 = letterChar (a.toNat % 4 * 16 + b.toNat / 16) ∧
      wordLetter a b c 6 = letterChar (b.toNat % 16 * 4 + c.toNat / 64) ∧
      wordLetter a b c 0 = letterChar (c.toNat % 64) := by
  have := a.toNat_lt
  have := b.toNat_lt
  have := c.toNat_lt
  refine ⟨wordLetter_eq ?_ ?_, wordLetter_eq ?_ ?_, wordLetter_eq ?_ ?_, wordLetter_eq ?_ ?_⟩ <;>
    omega

theorem encodeChunk_three (a b c : UInt8) :
    encodeChunk [a, b, c] = written (unpacked [a, b, c]) 0 := by
  obtain ⟨h₀, h₁, h₂, h₃⟩ := word_letters a b c
  show [wordLetter a b c 18, wordLetter a b c 12, wordLetter a b c 6, wordLetter a b c 0] = _
  rw [h₀, h₁, h₂, h₃]
  rfl

theorem encodeChunk_two (a b : UInt8) : encodeChunk [a, b] = written (unpacked [a, b]) 1 := by
  obtain ⟨h₀, h₁, h₂, -⟩ := word_letters a b 0
  show [wordLetter a b 0 18, wordLetter a b 0 12, wordLetter a b 0 6, '='] = _
  rw [h₀, h₁, h₂]
  rfl

theorem encodeChunk_one (a : UInt8) : encodeChunk [a] = written (unpacked [a]) 2 := by
  obtain ⟨h₀, h₁, -, -⟩ := word_letters a 0 0
  show [wordLetter a 0 0 18, wordLetter a 0 0 12, '=', '='] = _
  rw [h₀, h₁]
  rfl

theorem encodeChunks_written (input : List UInt8) :
    encodeChunks input = written (unpacked input) (paddingOf input.length) := by
  induction input using unpacked.induct with
  | case1 a b c rest ih =>
    have hpadding : paddingOf (a :: b :: c :: rest).length = paddingOf rest.length := by
      simp only [paddingOf, List.length_cons]
      omega
    rw [encodeChunks, encodeChunk_three, ih, hpadding]
    rfl
  | case2 a b => exact encodeChunk_two a b
  | case3 a => exact encodeChunk_one a
  | case4 => rfl

theorem unpacked_whole (input : List UInt8) :
    4 ∣ (unpacked input).length + paddingOf input.length := by
  induction input using unpacked.induct with
  | case1 a b c rest ih =>
    simp only [unpacked, paddingOf, List.length_cons] at ih ⊢
    omega
  | case2 a b => simp [unpacked, paddingOf]
  | case3 a => simp [unpacked, paddingOf]
  | case4 => simp [unpacked, paddingOf]

/-! ## What is lost -/

theorem packed_length {sextets : List Nat} {padding : Nat} (hshort : padding ≤ 2)
    (hwhole : 4 ∣ sextets.length + padding) :
    (packed sextets).length + padding = 3 * ((sextets.length + padding) / 4) := by
  induction sextets using packed.induct with
  | case1 a b c d rest ih =>
    simp only [packed, List.length_cons] at hwhole ⊢
    have := ih (by omega)
    omega
  | case2 a b c =>
    simp only [packed, List.length_cons, List.length_nil] at hwhole ⊢
    omega
  | case3 a b =>
    simp only [packed, List.length_cons, List.length_nil] at hwhole ⊢
    omega
  | case4 a =>
    simp only [packed, List.length_cons, List.length_nil] at hwhole ⊢
    omega
  | case5 =>
    simp only [packed, List.length_nil] at hwhole ⊢
    omega

theorem ofNat_byte_inj {n m : Nat} (hn : n < 256) (hm : m < 256)
    (h : UInt8.ofNat n = UInt8.ofNat m) : n = m := by
  have := congrArg UInt8.toNat h
  rw [UInt8.toNat_ofNat', UInt8.toNat_ofNat'] at this
  omega

/-- **What the padding hides.** Sextets that stand for the same bytes are the same up to the bits of
the last one that do not reach a byte. -/
theorem packed_inj {sextets sextets' : List Nat} {padding : Nat} (hshort : padding ≤ 2)
    (hwhole : 4 ∣ sextets.length + padding) (hlength : sextets.length = sextets'.length)
    (hsmall : ∀ sextet ∈ sextets, sextet < 64) (hsmall' : ∀ sextet ∈ sextets', sextet < 64)
    (h : packed sextets = packed sextets') :
    sextets = sextets' ∨ 0 < padding ∧ ∃ same last last', sextets = same ++ [last] ∧
      sextets' = same ++ [last'] ∧ last / 2 ^ (2 * padding) = last' / 2 ^ (2 * padding) := by
  induction sextets using packed.induct generalizing sextets' with
  | case1 a b c d rest ih =>
    rcases sextets' with _ | ⟨a', _ | ⟨b', _ | ⟨c', _ | ⟨d', rest'⟩⟩⟩⟩ <;> simp at hlength
    simp only [List.mem_cons, forall_eq_or_imp] at hsmall hsmall'
    obtain ⟨ha, hb, hc, hd, hrest⟩ := hsmall
    obtain ⟨ha', hb', hc', hd', hrest'⟩ := hsmall'
    simp only [packed, List.cons.injEq] at h
    have h₁ := ofNat_byte_inj (by omega) (by omega) h.1
    have h₂ := ofNat_byte_inj (by omega) (by omega) h.2.1
    have h₃ := ofNat_byte_inj (by omega) (by omega) h.2.2.1
    obtain ⟨rfl, rfl, rfl, rfl⟩ : a = a' ∧ b = b' ∧ c = c' ∧ d = d' := by omega
    simp only [List.length_cons] at hwhole
    rcases ih (by omega) hlength hrest hrest' h.2.2.2 with rfl | ⟨hpadding, same, last, last', rfl, rfl, hlast⟩
    · exact .inl rfl
    · exact .inr ⟨hpadding, a :: b :: c :: d :: same, last, last', rfl, rfl, hlast⟩
  | case2 a b c =>
    rcases sextets' with _ | ⟨a', _ | ⟨b', _ | ⟨c', _ | ⟨d', rest'⟩⟩⟩⟩ <;> simp at hlength
    -- Three sextets at the end: the last two bits of the third are not read.
    obtain rfl : padding = 1 := by simp at hwhole; omega
    simp only [List.mem_cons, forall_eq_or_imp] at hsmall hsmall'
    simp only [packed, List.cons.injEq] at h
    have h₁ := ofNat_byte_inj (by omega) (by omega) h.1
    have h₂ := ofNat_byte_inj (by omega) (by omega) h.2.1
    obtain ⟨rfl, rfl, hc⟩ : a = a' ∧ b = b' ∧ c / 2 ^ (2 * 1) = c' / 2 ^ (2 * 1) := by omega
    exact .inr ⟨by decide, [a, b], c, c', rfl, rfl, hc⟩
  | case3 a b =>
    rcases sextets' with _ | ⟨a', _ | ⟨b', _ | ⟨c', rest'⟩⟩⟩ <;> simp at hlength
    -- Two at the end: of the second only two bits are.
    obtain rfl : padding = 2 := by simp at hwhole; omega
    simp only [List.mem_cons, forall_eq_or_imp] at hsmall hsmall'
    simp only [packed, List.cons.injEq] at h
    have h₁ := ofNat_byte_inj (by omega) (by omega) h.1
    obtain ⟨rfl, hb⟩ : a = a' ∧ b / 2 ^ (2 * 2) = b' / 2 ^ (2 * 2) := by omega
    exact .inr ⟨by decide, [a], b, b', rfl, rfl, hb⟩
  | case4 a =>
    simp only [List.length_singleton] at hwhole
    omega
  | case5 => exact .inl (List.length_eq_zero_iff.mp hlength.symm).symm

theorem decodeBase64_written {sextets : List Nat} {padding : Nat}
    (hsmall : ∀ sextet ∈ sextets, sextet < 64) (hshort : padding ≤ 2)
    (hwhole : 4 ∣ sextets.length + padding) :
    decodeBase64 (.ofList (written sextets padding)) = .ok (packed sextets) := by
  have hlength : 4 ∣ (asBytes (.ofList (written sextets padding))).length := by
    simpa [asBytes_written hsmall] using hwhole
  rw [decodeBase64, if_neg (by simp [Nat.mod_eq_zero_of_dvd hlength]), asBytes_written hsmall]
  exact decodeBlocks_payload hsmall hshort hwhole

/-- Only payloads are accepted. -/
theorem decodeBase64_eq_ok {text : String} {bytes : List UInt8} (h : decodeBase64 text = .ok bytes) :
    ∃ sextets padding, (∀ sextet ∈ sextets, sextet < 64) ∧ padding ≤ 2 ∧
      4 ∣ sextets.length + padding ∧ text = .ofList (written sextets padding) ∧
      bytes = packed sextets := by
  unfold decodeBase64 at h
  split at h
  · cases h
  next hlength =>
    obtain ⟨sextets, padding, hpayload⟩ := decodeBlocks_eq_ok (by omega) h
    have htext : text = .ofList (written sextets padding) :=
      asBytes_inj (by rw [asBytes_written hpayload.small, hpayload.written])
    rw [hpayload.written, decodeBlocks_payload hpayload.small hpayload.short hpayload.whole] at h
    exact ⟨sextets, padding, hpayload.small, hpayload.short, hpayload.whole, htext,
      (Except.ok.inj h).symm⟩

/-! ## The codec -/

/-- A text in the standard form: letters, and up to two characters of padding that complete the last
block. -/
def Padded (text : String) (padding : Nat) : Prop :=
  4 ∣ text.length ∧ padding ≤ 2 ∧ ∃ letters, (∀ char ∈ letters, char ∈ base64Alphabet) ∧
    text.toList = letters ++ List.replicate padding '='

theorem exists_sextets {letters : List Char} (h : ∀ char ∈ letters, char ∈ base64Alphabet) :
    ∃ sextets : List Nat, (∀ sextet ∈ sextets, sextet < 64) ∧ letters = sextets.map letterChar := by
  induction letters with
  | nil => exact ⟨[], by simp, rfl⟩
  | cons char rest ih =>
    simp only [List.mem_cons, forall_eq_or_imp] at h
    obtain ⟨sextets, hsmall, hrest⟩ := ih h.2
    obtain ⟨sextet, hsextet, hchar⟩ := List.mem_iff_getElem.mp h.1
    have hsextets : ∀ s ∈ sextet :: sextets, s < 64 := by
      simpa only [List.mem_cons, forall_eq_or_imp] using ⟨base64Alphabet_length ▸ hsextet, hsmall⟩
    refine ⟨sextet :: sextets, hsextets, ?_⟩
    rw [List.map_cons, ← hrest, letterChar, List.getD_eq_getElem _ _ hsextet, hchar]

theorem padded_iff {text : String} {padding : Nat} :
    Padded text padding ↔ ∃ sextets : List Nat, (∀ sextet ∈ sextets, sextet < 64) ∧ padding ≤ 2 ∧
      4 ∣ sextets.length + padding ∧ text = .ofList (written sextets padding) := by
  constructor
  · rintro ⟨hwhole, hshort, letters, hletters, htext⟩
    obtain ⟨sextets, hsmall, rfl⟩ := exists_sextets hletters
    refine ⟨sextets, hsmall, hshort, ?_, ?_⟩
    · rw [← String.length_toList, htext] at hwhole
      simpa using hwhole
    · rw [written, ← htext, String.ofList_toList]
  · rintro ⟨sextets, hsmall, hshort, hwhole, rfl⟩
    refine ⟨by simpa [written] using hwhole, hshort, sextets.map letterChar, ?_, by simp [written]⟩
    simp only [List.mem_map, forall_exists_index, and_imp, forall_apply_eq_imp_iff₂]
    exact fun sextet hsextet => letterChar_mem (hsmall sextet hsextet)

/-- **The codec over the whole format.** What is encoded decodes to itself; the texts in standard
form are accepted and no others, three bytes for a block less those that are padding; and where two
texts decode to the same bytes, they differ in nothing but the bits of the last letter that the
padding hides. -/
theorem base64_codec :
    (∀ input, decodeBase64 (encodeBase64 input) = .ok input) ∧
      (∀ text, (∃ bytes, decodeBase64 text = .ok bytes) ↔ ∃ padding, Padded text padding) ∧
      (∀ text bytes padding, decodeBase64 text = .ok bytes → Padded text padding →
        bytes.length + padding = 3 * (text.length / 4)) ∧
      ∀ text text' bytes, decodeBase64 text = .ok bytes → decodeBase64 text' = .ok bytes →
        text = text' ∨ ∃ same last last' padding, last < 64 ∧ last' < 64 ∧ 0 < padding ∧
          padding ≤ 2 ∧ text.toList = same ++ letterChar last :: List.replicate padding '=' ∧
          text'.toList = same ++ letterChar last' :: List.replicate padding '=' ∧
          last / 2 ^ (2 * padding) = last' / 2 ^ (2 * padding) := by
  refine ⟨fun input => ?_, fun text => ⟨?_, ?_⟩, ?_, ?_⟩
  · rw [encodeBase64, encodeChunks_written, decodeBase64_written (unpacked_small input)
      (by rw [paddingOf]; omega) (unpacked_whole input), packed_unpacked]
  · rintro ⟨bytes, h⟩
    obtain ⟨sextets, padding, hsmall, hshort, hwhole, rfl, -⟩ := decodeBase64_eq_ok h
    exact ⟨padding, padded_iff.mpr ⟨sextets, hsmall, hshort, hwhole, rfl⟩⟩
  · rintro ⟨padding, h⟩
    obtain ⟨sextets, hsmall, hshort, hwhole, rfl⟩ := padded_iff.mp h
    exact ⟨_, decodeBase64_written hsmall hshort hwhole⟩
  · intro text bytes padding h hpadded
    obtain ⟨sextets, hsmall, hshort, hwhole, rfl⟩ := padded_iff.mp hpadded
    rw [decodeBase64_written hsmall hshort hwhole] at h
    obtain rfl := Except.ok.inj h
    have := packed_length hshort hwhole
    simp only [written, String.length_ofList, List.length_append, List.length_map,
      List.length_replicate]
    omega
  · intro text text' bytes h h'
    obtain ⟨sextets, padding, hsmall, hshort, hwhole, rfl, rfl⟩ := decodeBase64_eq_ok h
    obtain ⟨sextets', padding', hsmall', hshort', hwhole', rfl, hpacked⟩ := decodeBase64_eq_ok h'
    have hlength := packed_length hshort hwhole
    have hlength' := packed_length hshort' hwhole'
    rw [hpacked] at hlength
    -- As many bytes, so as much padding.
    obtain rfl : padding = padding' := by omega
    rcases packed_inj hshort hwhole (by omega) hsmall hsmall' hpacked with
      rfl | ⟨hpadding, same, last, last', rfl, rfl, hlast⟩
    · exact .inl rfl
    · refine .inr ⟨same.map letterChar, last, last', padding, hsmall last (by simp),
        hsmall' last' (by simp), hpadding, hshort, ?_, ?_, hlast⟩ <;> simp [written]

end VirtioMem.Host
