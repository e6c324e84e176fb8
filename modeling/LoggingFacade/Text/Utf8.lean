/-!
# UTF-8

Decoding bytes as UTF-8. Every maximal run of bytes that begins a character
but does not end it, and every byte that begins none, is one fault.
-/

namespace LoggingFacade
namespace Text

abbrev Bytes := List UInt8

def encodeUtf8 (cs : List Char) : Bytes := cs.flatMap String.utf8EncodeChar

@[simp] theorem encodeUtf8_append (a b : List Char) :
    encodeUtf8 (a ++ b) = encodeUtf8 a ++ encodeUtf8 b := by
  simp [encodeUtf8]

/-- A byte between the two bounds, both included. -/
def byteIn (low high : Nat) (b : UInt8) : Bool := low ≤ b.toNat && b.toNat ≤ high

def isContinuation (b : UInt8) : Bool := byteIn 0x80 0xBF b

/-- What a leading byte announces: how many bytes follow, the payload of the
leading byte and the bounds of the second byte. -/
structure Lead where
  following : Nat
  payload : Nat
  low : Nat
  high : Nat

def lead? (b : UInt8) : Option Lead :=
  let n := b.toNat
  if 0xC2 ≤ n && n ≤ 0xDF then some ⟨1, n - 0xC0, 0x80, 0xBF⟩
  else if n == 0xE0 then some ⟨2, 0, 0xA0, 0xBF⟩
  else if n == 0xED then some ⟨2, 0xD, 0x80, 0x9F⟩
  else if 0xE1 ≤ n && n ≤ 0xEF then some ⟨2, n - 0xE0, 0x80, 0xBF⟩
  else if n == 0xF0 then some ⟨3, 0, 0x90, 0xBF⟩
  else if 0xF1 ≤ n && n ≤ 0xF3 then some ⟨3, n - 0xF0, 0x80, 0xBF⟩
  else if n == 0xF4 then some ⟨3, 4, 0x80, 0x8F⟩
  else none

/-- The code point accumulated over the bytes that follow, or `none` where one
of them is missing; with it the bytes used up. -/
def followers (low high : Nat) : Nat → Nat → Bytes → Option Nat × Nat
  | 0, value, _ => (some value, 0)
  | _ + 1, _, [] => (none, 0)
  | more + 1, value, b :: rest =>
    if byteIn low high b then
      let (result, used) := followers 0x80 0xBF more (value * 64 + (b.toNat - 0x80)) rest
      (result, used + 1)
    else (none, 0)

/-- Characters in order, `none` for each fault. -/
def decodeUtf8 (bytes : Bytes) : List (Option Char) :=
  match bytes with
  | [] => []
  | b :: rest =>
    if b.toNat < 0x80 then some (Char.ofNat b.toNat) :: decodeUtf8 rest
    else
      match lead? b with
      | none => none :: decodeUtf8 rest
      | some lead =>
        let (value, used) := followers lead.low lead.high lead.following lead.payload rest
        value.map Char.ofNat :: decodeUtf8 (rest.drop used)
termination_by bytes.length
decreasing_by all_goals simp +arith

/-- The text, if the bytes are without fault. -/
def ofUtf8? (bytes : Bytes) : Option String :=
  ((decodeUtf8 bytes).mapM id).map .ofList

/-- The text with the replacement character for each fault. -/
def ofUtf8Lossy (bytes : Bytes) : String :=
  .ofList ((decodeUtf8 bytes).map (·.getD '\uFFFD'))

end Text
end LoggingFacade
