import LoggingFacade.Error
import LoggingFacade.Text.Blank
import LoggingFacade.Text.Letter
import LoggingFacade.Text.Utf8

/-!
# Output charsets

The charsets a layout may declare. `UTF-16` is big endian and writes no byte
order mark; the single-byte charsets write a question mark for a character
they do not have.
-/

namespace LoggingFacade

open Text (Bytes)

inductive Charset where
  | utf8
  | utf16
  | utf16be
  | utf16le
  | usAscii
  | iso88591
  deriving DecidableEq, Repr, Inhabited

namespace Charset

def name : Charset → String
  | utf8 => "UTF-8"
  | utf16 => "UTF-16"
  | utf16be => "UTF-16BE"
  | utf16le => "UTF-16LE"
  | usAscii => "US-ASCII"
  | iso88591 => "ISO-8859-1"

/-- The name as a constructor in a debugging view. -/
def viewName : Charset → String
  | utf8 => "Utf8"
  | utf16 => "Utf16"
  | utf16be => "Utf16Be"
  | utf16le => "Utf16Le"
  | usAscii => "UsAscii"
  | iso88591 => "Iso8859_1"

/-- Upper case with hyphens for underscores, the spelling names are known by. -/
def canonical (text : String) : String :=
  .ofList ((Text.upper (Text.trim text)).toList.map fun c => if c == '_' then '-' else c)

def ofName (text : String) : Except Error Charset :=
  match canonical text with
  | "UTF-8" => .ok utf8
  | "UTF8" => .ok utf8
  | "UTF-16" => .ok utf16
  | "UTF16" => .ok utf16
  | "UTF-16BE" => .ok utf16be
  | "UTF-16LE" => .ok utf16le
  | "US-ASCII" => .ok usAscii
  | "ASCII" => .ok usAscii
  | "ISO-8859-1" => .ok iso88591
  | "ISO8859-1" => .ok iso88591
  | "LATIN1" => .ok iso88591
  | "LATIN-1" => .ok iso88591
  | _ => .error (.configuration ("Unsupported charset: " ++ text) [])

/-- The UTF-16 code units of a character: itself, or a surrogate pair. -/
def units (c : Char) : List Nat :=
  let n := c.toNat
  if n < 0x10000 then [n]
  else [0xD800 + (n - 0x10000) / 0x400, 0xDC00 + (n - 0x10000) % 0x400]

def bigEndian (unit : Nat) : Bytes := [.ofNat (unit / 256), .ofNat (unit % 256)]

def littleEndian (unit : Nat) : Bytes := [.ofNat (unit % 256), .ofNat (unit / 256)]

/-- The byte of a character not above `greatest`, a question mark otherwise. -/
def singleByte (greatest : Nat) (c : Char) : UInt8 :=
  if c.toNat ≤ greatest then .ofNat c.toNat else .ofNat '?'.toNat

def encodeChar : Charset → Char → Bytes
  | utf8, c => String.utf8EncodeChar c
  | utf16, c => (units c).flatMap bigEndian
  | utf16be, c => (units c).flatMap bigEndian
  | utf16le, c => (units c).flatMap littleEndian
  | usAscii, c => [singleByte 0x7F c]
  | iso88591, c => [singleByte 0xFF c]

/-- Characters are encoded one by one, without a mark at the start. -/
def encode (charset : Charset) (text : String) : Bytes :=
  text.toList.flatMap charset.encodeChar

@[simp] theorem encode_empty (charset : Charset) : charset.encode "" = [] := by
  simp [encode]

@[simp] theorem encode_append (charset : Charset) (a b : String) :
    charset.encode (a ++ b) = charset.encode a ++ charset.encode b := by
  simp [encode]

end Charset
end LoggingFacade
