import Framewise.Text.Quoted

/-! # UTF-8

  Bytes become text by the strict rules of UTF-8: no overlong forms, no
  surrogates, nothing above `U+10FFFF`. Bytes that break them are an error that
  names the first bad sequence: where it begins, how long it is, and whether its
  first byte is wrong, a later byte is wrong, or the data ends too early.
-/

namespace Framewise.Text.Utf8

/-! ### Errors -/

/-- What is wrong with a sequence of bytes. -/
inductive Reason where
  /-- The first byte starts no sequence. -/
  | badStart
  /-- A later byte does not continue the sequence. -/
  | badContinuation
  /-- The data ends inside the sequence. -/
  | cutShort
  deriving DecidableEq, Repr, Inhabited

/-- The wording of a reason. -/
def Reason.message : Reason → String
  | .badStart => "invalid start byte"
  | .badContinuation => "invalid continuation byte"
  | .cutShort => "unexpected end of data"

/-- A sequence of bytes that is no character. -/
structure DecodeError where
  /-- Its first byte. -/
  first : UInt8
  /-- Where it begins, from 0. -/
  position : Nat
  /-- How many bytes belong to it. -/
  length : Nat
  /-- What is wrong. -/
  reason : Reason
  deriving DecidableEq, Repr, Inhabited

/-- The wording of an error. -/
def DecodeError.message (e : DecodeError) : String :=
  let place :=
    if e.length ≤ 1 then
      "byte 0x" ++ String.ofList (hexDigits 2 e.first.toNat) ++ " in position " ++
        toString e.position
    else
      "bytes in position " ++ toString e.position ++ "-" ++ toString (e.position + e.length - 1)
  "'utf-8' codec can't decode " ++ place ++ ": " ++ e.reason.message

/-! ### Decoding -/

/-- True for a byte that continues a sequence. -/
def continues (b : UInt8) : Bool := 0x80 ≤ b.toNat && b.toNat < 0xC0

/-- True if `second` can follow the first byte of a sequence of three or four: it continues
    the sequence, which is neither overlong nor out of range. -/
def mayFollow (first second : UInt8) : Bool :=
  continues second &&
    (first.toNat != 0xE0 || 0xA0 ≤ second.toNat) && (first.toNat != 0xED || second.toNat < 0xA0) &&
    (first.toNat != 0xF0 || 0x90 ≤ second.toNat) && (first.toNat != 0xF4 || second.toNat < 0x90)

/-- The bits that a continuation byte carries. -/
def payload (b : UInt8) : Nat := b.toNat % 0x40

/-- Decodes bytes of which the first is number `position`. -/
def decodeFrom (position : Nat) : List UInt8 → Except DecodeError (List Char)
  | [] => .ok []
  | a :: as =>
    let n := a.toNat
    let fail (length : Nat) (reason : Reason) : Except DecodeError (List Char) :=
      .error ⟨a, position, length, reason⟩
    if n < 0x80 then (decodeFrom (position + 1) as).map (Char.ofNat n :: ·)
    else if n < 0xC2 || 0xF4 < n then fail 1 .badStart
    else if n < 0xE0 then
      match as with
      | [] => fail 1 .cutShort
      | b :: bs =>
        if continues b then
          (decodeFrom (position + 2) bs).map (Char.ofNat (n % 0x20 * 0x40 + payload b) :: ·)
        else fail 1 .badContinuation
    else
      match as with
      | [] => fail 1 .cutShort
      | b :: bs =>
        if !mayFollow a b then fail 1 .badContinuation
        else
          match bs with
          | [] => fail 2 .cutShort
          | c :: cs =>
            if !continues c then fail 2 .badContinuation
            else
              let low := payload b * 0x40 + payload c
              if n < 0xF0 then
                (decodeFrom (position + 3) cs).map (Char.ofNat (n % 0x10 * 0x1000 + low) :: ·)
              else
                match cs with
                | [] => fail 3 .cutShort
                | d :: ds =>
                  if continues d then
                    (decodeFrom (position + 4) ds).map
                      (Char.ofNat (n % 0x08 * 0x40000 + low * 0x40 + payload d) :: ·)
                  else fail 3 .badContinuation

/-- The characters that bytes write. -/
def decode (data : List UInt8) : Except DecodeError (List Char) := decodeFrom 0 data

end Framewise.Text.Utf8
