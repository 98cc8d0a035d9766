import Mathlib.Data.List.Count
import Mathlib.Data.Nat.Digits.Defs

namespace Encoding

def hexDigit (n : ℕ) : Char := (Nat.digitChar n).toUpper

def percentByte (b : UInt8) : List Char := ['%', hexDigit (b.toNat / 16), hexDigit (b.toNat % 16)]

section Encode

variable (safe : Char → Bool)

def encodeChar (c : Char) : List Char :=
  if safe c then [c] else (String.utf8EncodeChar c).flatMap percentByte

/-- Percent-encoding of the UTF-8 bytes of every character that is not safe. -/
def encode (text : List Char) : List Char := text.flatMap (encodeChar safe)

end Encode

def hexValue (c : Char) : Option ℕ :=
  if '0' ≤ c ∧ c ≤ '9' then some (c.toNat - '0'.toNat)
  else if 'A' ≤ c ∧ c ≤ 'F' then some (c.toNat - 'A'.toNat + 10)
  else none

/-- The bytes that a percent-encoded text stands for. -/
def decodeBytes : List Char → Option (List UInt8)
  | [] => some []
  | c :: rest =>
    if c = '%' then
      match rest with
      | high :: low :: rest => do
        let high ← hexValue high
        let low ← hexValue low
        let bytes ← decodeBytes rest
        return UInt8.ofNat (16 * high + low) :: bytes
      | _ => none
    else if c.toNat < 128 then do
      let bytes ← decodeBytes rest
      return UInt8.ofNat c.toNat :: bytes
    else none

/-- The text that a percent-encoded text stands for. -/
def decode (text : List Char) : Option (List Char) := do
  let bytes ← decodeBytes text
  let chars ← bytes.toByteArray.utf8Decode?
  return chars.toList

theorem hexValue_hexDigit {n : ℕ} (h : n < 16) : hexValue (hexDigit n) = some n := by
  have hall : ∀ digit : Fin 16, hexValue (hexDigit digit) = some digit.val := by decide
  exact hall ⟨n, h⟩

theorem decodeBytes_percentByte (b : UInt8) (rest : List Char) :
    decodeBytes (percentByte b ++ rest) = (decodeBytes rest).map (b :: ·) := by
  have hb := b.toNat_lt
  have hhigh : hexValue (hexDigit (b.toNat / 16)) = some (b.toNat / 16) :=
    hexValue_hexDigit (by omega)
  have hlow : hexValue (hexDigit (b.toNat % 16)) = some (b.toNat % 16) :=
    hexValue_hexDigit (by omega)
  have hbyte : 16 * (b.toNat / 16) + b.toNat % 16 = b.toNat := by omega
  simp only [percentByte, List.cons_append, List.nil_append, decodeBytes, if_true, hhigh, hlow,
    Option.bind_eq_bind, Option.bind_some, hbyte, UInt8.ofNat_toNat]
  cases decodeBytes rest <;> rfl

theorem decodeBytes_percentBytes (bytes : List UInt8) (rest : List Char) :
    decodeBytes (bytes.flatMap percentByte ++ rest) = (decodeBytes rest).map (bytes ++ ·) := by
  induction bytes with
  | nil => simp
  | cons b bytes ih =>
    rw [List.flatMap_cons, List.append_assoc, decodeBytes_percentByte, ih, Option.map_map]
    rfl

theorem decodeBytes_ascii {c : Char} (hc : c ≠ '%') (h : c.toNat < 128) (rest : List Char) :
    decodeBytes (c :: rest) = (decodeBytes rest).map (UInt8.ofNat c.toNat :: ·) := by
  rw [decodeBytes.eq_def]
  simp only [hc, h, if_true, if_false]
  cases decodeBytes rest <;> rfl

theorem utf8EncodeChar_ascii {c : Char} (h : c.toNat < 128) :
    String.utf8EncodeChar c = [UInt8.ofNat c.toNat] := by
  simp only [String.utf8EncodeChar]
  exact if_pos (Nat.le_of_lt_succ h)

theorem notMem_percentByte {x : Char} (hpercent : x ≠ '%') (hdigit : ∀ n < 16, hexDigit n ≠ x)
    (b : UInt8) : x ∉ percentByte b := by
  have hb := b.toNat_lt
  have hhigh := hdigit (b.toNat / 16) (by omega)
  have hlow := hdigit (b.toNat % 16) (by omega)
  simp [percentByte, hpercent, hhigh.symm, hlow.symm]

/-- A safe character stays, and no other one turns into it. -/
theorem mem_encode {safe : Char → Bool} {x : Char} (hx : safe x = true) (hpercent : x ≠ '%')
    (hdigit : ∀ n < 16, hexDigit n ≠ x) (text : List Char) :
    x ∈ encode safe text ↔ x ∈ text := by
  have hchar : ∀ c, x ∈ encodeChar safe c ↔ x = c := by
    intro c
    unfold encodeChar
    by_cases hc : safe c = true
    · simp [hc]
    · rw [if_neg hc]
      constructor
      · intro hmem
        obtain ⟨b, _, hb⟩ := List.mem_flatMap.mp hmem
        exact absurd hb (notMem_percentByte hpercent hdigit b)
      · intro heq
        rw [heq] at hx
        exact absurd hx hc
  simp [encode, List.mem_flatMap, hchar]

section Safe

variable {safe : Char → Bool} (hsafe : ∀ c, safe c = true → c ≠ '%' ∧ c.toNat < 128)

include hsafe

theorem decodeBytes_encode (text : List Char) :
    decodeBytes (encode safe text) = some (text.flatMap String.utf8EncodeChar) := by
  induction text with
  | nil => rfl
  | cons c text ih =>
    have hstep : encode safe (c :: text) = encodeChar safe c ++ encode safe text := rfl
    rw [hstep, List.flatMap_cons]
    unfold encodeChar
    by_cases hc : safe c = true
    · obtain ⟨hpercent, hascii⟩ := hsafe c hc
      rw [if_pos hc, List.singleton_append, decodeBytes_ascii hpercent hascii, ih,
        utf8EncodeChar_ascii hascii]
      rfl
    · rw [if_neg hc, decodeBytes_percentBytes, ih]
      rfl

/-- Decoding undoes encoding. -/
theorem decode_encode (text : List Char) : decode (encode safe text) = some text := by
  have hutf8 : (text.flatMap String.utf8EncodeChar).toByteArray = text.utf8Encode := rfl
  unfold decode
  rw [decodeBytes_encode hsafe]
  simp only [Option.bind_eq_bind, Option.bind_some, hutf8, List.utf8Decode?_utf8Encode]
  rfl

theorem encode_injective : Function.Injective (encode safe) := by
  intro text text' h
  have hdecode := decode_encode hsafe text
  rw [h, decode_encode hsafe text'] at hdecode
  exact (Option.some.inj hdecode).symm

end Safe

end Encoding
