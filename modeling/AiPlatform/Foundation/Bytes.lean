import AiPlatform.Foundation.JsonRoundTrip

/-!
# Byte strings

Texts are hashed as UTF-8, often with numbers of fixed width between them. UTF-8 is a prefix code,
so two encoded texts that start the same bytes start the same text; this is what makes a
concatenation of encoded pieces decodable.
-/
namespace AiPlatform.Foundation

open List

abbrev Bytes := List UInt8

/-! ## UTF-8 -/

/-- `text.encode("utf-8")` -/
def utf8 (text : List Char) : Bytes := text.flatMap String.utf8EncodeChar

theorem utf8_cons (c : Char) (text : List Char) :
    utf8 (c :: text) = String.utf8EncodeChar c ++ utf8 text :=
  flatMap_cons

theorem utf8_append (a b : List Char) : utf8 (a ++ b) = utf8 a ++ utf8 b :=
  flatMap_append

/-- The bytes of a character tell which character it is, whatever follows. -/
theorem utf8EncodeChar_inj {c d : Char} {rest rest' : Bytes}
    (h : String.utf8EncodeChar c ++ rest = String.utf8EncodeChar d ++ rest') : c = d := by
  have hdecode : ∀ (e : Char) (tail : Bytes),
      (String.utf8EncodeChar e ++ tail).toByteArray.utf8DecodeChar? 0 = some e := by
    intro e tail
    have happend : (String.utf8EncodeChar e ++ tail).toByteArray =
        [e].utf8Encode ++ tail.toByteArray := by
      rw [toByteArray_append]
      simp [List.utf8Encode]
    rw [happend]
    exact utf8DecodeChar?_utf8Encode_singleton_append
  have hc := hdecode c rest
  rw [h, hdecode d rest'] at hc
  exact (Option.some.inj hc).symm

/-- Texts whose encodings start the same bytes are comparable, and so are the remainders. -/
theorem utf8_append_cases {a b : List Char} {rest rest' : Bytes}
    (h : utf8 a ++ rest = utf8 b ++ rest') :
    (∃ more, b = a ++ more ∧ rest = utf8 more ++ rest') ∨
      ∃ more, a = b ++ more ∧ rest' = utf8 more ++ rest := by
  induction a generalizing b with
  | nil => exact .inl ⟨b, rfl, h⟩
  | cons c a ih =>
    cases b with
    | nil => exact .inr ⟨c :: a, rfl, h.symm⟩
    | cons d b =>
      rw [utf8_cons, utf8_cons, append_assoc, append_assoc] at h
      obtain rfl := utf8EncodeChar_inj h
      obtain ⟨more, rfl, hrest⟩ | ⟨more, rfl, hrest⟩ := ih (append_cancel_left h)
      · exact .inl ⟨more, rfl, hrest⟩
      · exact .inr ⟨more, rfl, hrest⟩

/-- Encoded texts of one length can be split from what follows. -/
theorem utf8_append_inj {a b : List Char} {rest rest' : Bytes} (hlength : a.length = b.length)
    (h : utf8 a ++ rest = utf8 b ++ rest') : a = b ∧ rest = rest' := by
  obtain ⟨more, rfl, hrest⟩ | ⟨more, rfl, hrest⟩ := utf8_append_cases h
  · obtain rfl : more = [] := by simpa using hlength
    exact ⟨(append_nil a).symm, hrest⟩
  · obtain rfl : more = [] := by simpa using hlength
    exact ⟨append_nil b, hrest.symm⟩

theorem utf8_injective : Function.Injective utf8 := by
  intro a b h
  have happend : utf8 a ++ [] = utf8 b ++ [] := by rw [h]
  obtain ⟨more, rfl, hrest⟩ | ⟨more, rfl, hrest⟩ := utf8_append_cases happend
  all_goals
    cases more with
    | nil => simp
    | cons c more =>
      have hlength := congrArg List.length hrest
      have hpos := c.utf8Size_pos
      simp [utf8_cons, String.length_utf8EncodeChar] at hlength
      omega

/-! ## Numbers of fixed width -/

/-- `n.to_bytes(width, "big")` for a number that fits. -/
def bigEndian : Nat → Nat → Bytes
  | 0, _ => []
  | width + 1, n => bigEndian width (n / 256) ++ [UInt8.ofNat (n % 256)]

@[simp] theorem length_bigEndian (width n : Nat) : (bigEndian width n).length = width := by
  induction width generalizing n with
  | zero => rfl
  | succ width ih => rw [bigEndian, length_append, ih, length_singleton]

theorem bigEndian_inj {width n m : Nat} (hn : n < 256 ^ width) (hm : m < 256 ^ width)
    (h : bigEndian width n = bigEndian width m) : n = m := by
  induction width generalizing n m with
  | zero =>
    rw [Nat.pow_zero] at hn hm
    omega
  | succ width ih =>
    obtain ⟨hinit, hlast⟩ := append_inj h (by simp)
    have hhigh := ih (Nat.div_lt_of_lt_mul (by rwa [Nat.pow_succ'] at hn))
      (Nat.div_lt_of_lt_mul (by rwa [Nat.pow_succ'] at hm)) hinit
    have hlow := congrArg UInt8.toNat (List.cons.inj hlast).1
    simp only [UInt8.toNat_ofNat', Nat.reducePow, Nat.mod_mod] at hlow
    omega

/-- A number that leaves the highest byte unused. -/
theorem bigEndian_eq_cons_zero {width n : Nat} (h : n < 256 ^ width) :
    ∃ rest, bigEndian (width + 1) n = 0 :: rest := by
  induction width generalizing n with
  | zero =>
    obtain rfl : n = 0 := by simpa using h
    exact ⟨[], rfl⟩
  | succ width ih =>
    obtain ⟨rest, hrest⟩ := ih (Nat.div_lt_of_lt_mul (by rwa [Nat.pow_succ'] at h))
    exact ⟨rest ++ [UInt8.ofNat (n % 256)], by rw [bigEndian, hrest, cons_append]⟩

/-! ## Hexadecimal texts -/

def hexByte (b : UInt8) : List Char :=
  [Nat.digitChar (b.toNat / 16), Nat.digitChar (b.toNat % 16)]

/-- `digest.hex()` -/
def toHex (bytes : Bytes) : String := String.ofList (bytes.flatMap hexByte)

def isHexBlank (c : Char) : Bool :=
  c = ' ' || c = '\t' || c = '\n' || c = '\r' || c = '\x0b' || c = '\x0c'

/-- `bytes.fromhex(text)`: blanks may stand between two bytes. -/
def fromHexChars : List Char → Option Bytes
  | [] => some []
  | [c] => if isHexBlank c then some [] else none
  | c :: d :: rest =>
    if isHexBlank c then fromHexChars (d :: rest)
    else do
      let high ← Json.hexValue? c
      let low ← Json.hexValue? d
      let bytes ← fromHexChars rest
      some (UInt8.ofNat (high * 16 + low) :: bytes)

def fromHex (text : String) : Option Bytes := fromHexChars text.toList

theorem isHexBlank_digitChar : ∀ n < 16, isHexBlank (Nat.digitChar n) = false := by decide

theorem fromHex_toHex (bytes : Bytes) : fromHex (toHex bytes) = some bytes := by
  unfold fromHex toHex
  rw [String.toList_ofList]
  induction bytes with
  | nil => rfl
  | cons b bytes ih =>
    have hb := b.toNat_lt
    have hhigh : b.toNat / 16 < 16 := by omega
    have hlow : b.toNat % 16 < 16 := Nat.mod_lt _ (by decide)
    rw [flatMap_cons, hexByte]
    simp only [cons_append, nil_append, fromHexChars, isHexBlank_digitChar _ hhigh,
      Json.hexValue?_digitChar _ hhigh, Json.hexValue?_digitChar _ hlow, ih, Bool.false_eq_true,
      if_false, Option.bind_eq_bind, Option.bind_some]
    rw [Nat.mul_comm, Nat.div_add_mod, UInt8.ofNat_toNat]

/-! ## Digests -/

/-- A hash function with digests of 32 bytes. -/
structure Sha256 where
  digest : Bytes → Bytes
  length_digest : ∀ bytes, (digest bytes).length = 32

/-- The hash tells the inputs of one list from those of the other. -/
def Sha256.Separates (sha : Sha256) (inputs inputs' : List Bytes) : Prop :=
  ∀ x ∈ inputs, ∀ y ∈ inputs', sha.digest x = sha.digest y → x = y

/-- The last 32 bytes stand in for a digest. -/
def tailDigest : Sha256 where
  digest bytes := (bytes.reverse ++ List.replicate 32 0).take 32
  length_digest bytes := by simp

end AiPlatform.Foundation
