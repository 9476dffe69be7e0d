import StructuralRules.Text.Basic

/-!
# UTF-8

The bytes of a text, and the text of bytes. Bytes that are no text are met in
pieces: each longest start of a character that does not go on, and each byte
that starts none.
-/

set_option autoImplicit false

namespace StructuralRules

abbrev Bytes := List UInt8

namespace Text

def toBytes (t : Text) : Bytes :=
  t.flatMap String.utf8EncodeChar

end Text

namespace Bytes

/-- A character that has been started: its bits so far, and the ranges of the bytes to come. -/
structure Started where
  bits : Nat
  ranges : List (Nat × Nat)

/-- What a byte of 128 or more starts. -/
def start? (b : Nat) : Option Started :=
  let more := (0x80, 0xBF)
  if 0xC2 ≤ b && b ≤ 0xDF then some ⟨b - 0xC0, [more]⟩
  else if b == 0xE0 then some ⟨0, [(0xA0, 0xBF), more]⟩
  else if b == 0xED then some ⟨13, [(0x80, 0x9F), more]⟩
  else if 0xE1 ≤ b && b ≤ 0xEF then some ⟨b - 0xE0, [more, more]⟩
  else if b == 0xF0 then some ⟨0, [(0x90, 0xBF), more, more]⟩
  else if 0xF1 ≤ b && b ≤ 0xF3 then some ⟨b - 0xF0, [more, more, more]⟩
  else if b == 0xF4 then some ⟨4, [(0x80, 0x8F), more, more]⟩
  else none

/-- The characters of the bytes; `none` stands for a piece that is no character. -/
def charsFrom (started : Option Started) : Bytes → List (Option Char)
  | [] => if started.isSome then [none] else []
  | b :: bs =>
      let n := b.toNat
      let afresh :=
        if n < 128 then some (Char.ofNat n) :: charsFrom none bs
        else
          match start? n with
          | some s => charsFrom (some s) bs
          | none => none :: charsFrom none bs
      match started with
      | some ⟨bits, (lo, hi) :: ranges⟩ =>
          if lo ≤ n && n ≤ hi then
            let bits := bits * 64 + n % 64
            if ranges.isEmpty then some (Char.ofNat bits) :: charsFrom none bs
            else charsFrom (some ⟨bits, ranges⟩) bs
          else none :: afresh
      | _ => afresh

/-- The text of the bytes, if all of them are text. -/
def toText? (bs : Bytes) : Option Text :=
  (charsFrom none bs).mapM fun c => c

/-- The text of the bytes, with a replacement character for each piece that is none. -/
def toTextLossy (bs : Bytes) : Text :=
  (charsFrom none bs).map (·.getD '\ufffd')

end Bytes
end StructuralRules
