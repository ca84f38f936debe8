import WovenTeam.Lib.JsonText

/-!
# What a JSON string stands for

The bytes of a string in UTF-8: bytes stand for themselves, a short escape for its character, and
the digits of an escape for a unit of UTF-16, of which two surrogates make one character. A surrogate
without its partner stands for nothing.
-/

namespace JsonText

open CText

def isHighSurrogate (unit : Nat) : Bool := Nat.ble 0xD800 unit && Nat.ble unit 0xDBFF
def isLowSurrogate (unit : Nat) : Bool := Nat.ble 0xDC00 unit && Nat.ble unit 0xDFFF

def utf8 (code : Nat) : Bytes := String.utf8EncodeChar (Char.ofNat code)

def surrogatePair (high low : Nat) : Nat := 0x10000 + (high - 0xD800) * 1024 + (low - 0xDC00)

/-- The bytes of the characters behind a high surrogate, or behind none. -/
def decodeFrom : Option Nat → List JsonChar → Option Bytes
  | none, [] => some []
  | none, .byte b _ :: s => (decodeFrom none s).map (b :: ·)
  | none, .short _ unit _ :: s => (decodeFrom none s).map (utf8 unit ++ ·)
  | none, .digits _ _ _ _ unit _ :: s =>
    if isHighSurrogate unit then decodeFrom (some unit) s
    else if isLowSurrogate unit then none
    else (decodeFrom none s).map (utf8 unit ++ ·)
  | some high, .digits _ _ _ _ low _ :: s =>
    if isLowSurrogate low then (decodeFrom none s).map (utf8 (surrogatePair high low) ++ ·)
    else none
  | some _, _ => none

/-- The bytes the string stands for. -/
def JsonString.decode (s : JsonString) : Option Bytes := decodeFrom none s

theorem utf8_length (code : Nat) : (utf8 code).length ≤ 4 := by
  rw [utf8, String.length_utf8EncodeChar]
  exact Char.utf8Size_le_four _

theorem utf8_of_short {letter : UInt8} {unit : Nat} (h : (letter, unit) ∈ shortEscapes) :
    utf8 unit = [unit.toUInt8] := by
  have hall : ∀ escape ∈ shortEscapes, utf8 escape.2 = [escape.2.toUInt8] := by decide +kernel
  exact hall _ h

end JsonText
