import LoggingFacade.Charset
import Mathlib.Data.List.Basic

/-!
# Decoding what a charset encodes

A reader of each charset, and what it makes of an encoded text: the text itself,
with a question mark for every character the charset does not have. Encoded
pieces can be joined, as each character is encoded on its own.
-/

namespace LoggingFacade

open Text (Bytes)

namespace Charset

/-- The charset has the character. -/
def has : Charset → Char → Bool
  | usAscii, c => c.toNat ≤ 0x7F
  | iso88591, c => c.toNat ≤ 0xFF
  | _, _ => true

/-- What is written for a character. -/
def written (charset : Charset) (c : Char) : Char := if charset.has c then c else '?'

/-- A text as it is written. -/
def writtenText (charset : Charset) (s : String) : String := s.map charset.written

/-! ## Readers -/

/-- Reads code units as characters: a unit outside the surrogates is one, and so
is a high surrogate with the low one behind it. -/
def ofUnits? : List Nat → Option (List Char)
  | [] => some []
  | unit :: rest =>
    if unit < 0xD800 ∨ 0xE000 ≤ unit then (ofUnits? rest).map (Char.ofNat unit :: ·)
    else
      match rest with
      | low :: rest =>
        if unit < 0xDC00 ∧ 0xDC00 ≤ low ∧ low < 0xE000 then
          (ofUnits? rest).map
            (Char.ofNat (0x10000 + (unit - 0xD800) * 0x400 + (low - 0xDC00)) :: ·)
        else none
      | [] => none

/-- Joins bytes to code units, two by two. -/
def unitsOf? (join : UInt8 → UInt8 → Nat) : Bytes → Option (List Nat)
  | [] => some []
  | [_] => none
  | a :: b :: rest => (unitsOf? join rest).map (join a b :: ·)

def ofBigEndian (a b : UInt8) : Nat := a.toNat * 256 + b.toNat

def ofLittleEndian (a b : UInt8) : Nat := b.toNat * 256 + a.toNat

/-- Reads each byte as a character not above `greatest`. -/
def ofSingleBytes? (greatest : Nat) : Bytes → Option (List Char)
  | [] => some []
  | b :: rest =>
    if b.toNat ≤ greatest then (ofSingleBytes? greatest rest).map (Char.ofNat b.toNat :: ·)
    else none

def characters? : Charset → Bytes → Option (List Char)
  | utf8, bytes => (ByteArray.mk bytes.toArray).utf8Decode?.map Array.toList
  | utf16, bytes => (unitsOf? ofBigEndian bytes).bind ofUnits?
  | utf16be, bytes => (unitsOf? ofBigEndian bytes).bind ofUnits?
  | utf16le, bytes => (unitsOf? ofLittleEndian bytes).bind ofUnits?
  | usAscii, bytes => ofSingleBytes? 0x7F bytes
  | iso88591, bytes => ofSingleBytes? 0xFF bytes

/-- The text that bytes stand for, if they are without fault. -/
def decode? (charset : Charset) (bytes : Bytes) : Option String :=
  (charset.characters? bytes).map .ofList

/-! ## Two-byte charsets -/

theorem toNat_bounds (c : Char) : c.toNat < 0xD800 ∨ (0xE000 ≤ c.toNat ∧ c.toNat < 0x110000) := by
  rcases c.valid with h | ⟨hlow, hhigh⟩
  · exact .inl h
  · exact .inr ⟨hlow, hhigh⟩

theorem lt_of_mem_units {c : Char} {unit : Nat} (h : unit ∈ units c) : unit < 0x10000 := by
  have hc := toNat_bounds c
  simp only [units] at h
  split at h
  · simp only [List.mem_singleton] at h
    omega
  · simp only [List.mem_cons, List.not_mem_nil, or_false] at h
    omega

theorem ofUnits?_single {unit : Nat} (h : unit < 0xD800 ∨ 0xE000 ≤ unit) (rest : List Nat) :
    ofUnits? (unit :: rest) = (ofUnits? rest).map (Char.ofNat unit :: ·) := by
  rw [ofUnits?.eq_def]
  exact if_pos h

theorem ofUnits?_pair {n : Nat} (hlow : 0x10000 ≤ n) (hhigh : n < 0x110000) (rest : List Nat) :
    ofUnits? ((0xD800 + (n - 0x10000) / 0x400) :: (0xDC00 + (n - 0x10000) % 0x400) :: rest) =
      (ofUnits? rest).map (Char.ofNat n :: ·) := by
  have hunit : ¬(0xD800 + (n - 0x10000) / 0x400 < 0xD800 ∨
      0xE000 ≤ 0xD800 + (n - 0x10000) / 0x400) := by omega
  have hpair : 0xD800 + (n - 0x10000) / 0x400 < 0xDC00 ∧
      0xDC00 ≤ 0xDC00 + (n - 0x10000) % 0x400 ∧
      0xDC00 + (n - 0x10000) % 0x400 < 0xE000 := by omega
  have hvalue : 0x10000 + (0xD800 + (n - 0x10000) / 0x400 - 0xD800) * 0x400 +
      (0xDC00 + (n - 0x10000) % 0x400 - 0xDC00) = n := by omega
  rw [ofUnits?.eq_def]
  simp only [if_neg hunit, if_pos hpair, hvalue]

theorem ofUnits?_units (c : Char) (rest : List Nat) :
    ofUnits? (units c ++ rest) = (ofUnits? rest).map (c :: ·) := by
  have hc := toNat_bounds c
  simp only [units]
  split
  · rw [List.singleton_append, ofUnits?_single (by omega), Char.ofNat_toNat]
  · have hlow : 0x10000 ≤ c.toNat := by omega
    have hhigh : c.toNat < 0x110000 := by omega
    rw [List.cons_append, List.singleton_append, ofUnits?_pair hlow hhigh, Char.ofNat_toNat]

theorem ofUnits?_flatMap_units (cs : List Char) : ofUnits? (cs.flatMap units) = some cs := by
  induction cs with
  | nil => rfl
  | cons c cs ih =>
    rw [List.flatMap_cons, ofUnits?_units, ih]
    rfl

/-- Bytes that were split off from code units join to the units again. -/
theorem unitsOf?_flatMap {join : UInt8 → UInt8 → Nat} {split : Nat → Bytes}
    (hsplit : ∀ unit < 0x10000, ∃ a b, split unit = [a, b] ∧ join a b = unit) {units : List Nat}
    (h : ∀ unit ∈ units, unit < 0x10000) : unitsOf? join (units.flatMap split) = some units := by
  induction units with
  | nil => rfl
  | cons unit units ih =>
    obtain ⟨a, b, hbytes, hjoin⟩ := hsplit unit (h unit List.mem_cons_self)
    rw [List.flatMap_cons, hbytes, List.cons_append, List.cons_append, List.nil_append, unitsOf?,
      ih fun u hu => h u (List.mem_cons_of_mem _ hu), hjoin]
    rfl

theorem bigEndian_join (unit : Nat) (h : unit < 0x10000) :
    ∃ a b, bigEndian unit = [a, b] ∧ ofBigEndian a b = unit := by
  refine ⟨_, _, rfl, ?_⟩
  simp [ofBigEndian]
  omega

theorem littleEndian_join (unit : Nat) (h : unit < 0x10000) :
    ∃ a b, littleEndian unit = [a, b] ∧ ofLittleEndian a b = unit := by
  refine ⟨_, _, rfl, ?_⟩
  simp [ofLittleEndian]
  omega

theorem units_of_text_lt (cs : List Char) : ∀ unit ∈ cs.flatMap units, unit < 0x10000 := by
  intro unit hunit
  obtain ⟨c, -, hc⟩ := List.mem_flatMap.1 hunit
  exact lt_of_mem_units hc

theorem characters?_twoBytes {join : UInt8 → UInt8 → Nat} {split : Nat → Bytes}
    (hsplit : ∀ unit < 0x10000, ∃ a b, split unit = [a, b] ∧ join a b = unit) (cs : List Char) :
    (unitsOf? join (cs.flatMap fun c => (units c).flatMap split)).bind ofUnits? = some cs := by
  rw [← List.flatMap_assoc, unitsOf?_flatMap hsplit (units_of_text_lt cs), Option.bind_some,
    ofUnits?_flatMap_units]

/-! ## Single-byte charsets -/

theorem toNat_singleByte (greatest : Nat) (hlow : 0x3F ≤ greatest) (hhigh : greatest < 0x100)
    (c : Char) : (singleByte greatest c).toNat ≤ greatest ∧
      Char.ofNat (singleByte greatest c).toNat = if c.toNat ≤ greatest then c else '?' := by
  unfold singleByte
  split
  · rename_i h
    have hbyte : (UInt8.ofNat c.toNat).toNat = c.toNat := by
      rw [UInt8.toNat_ofNat']
      omega
    rw [hbyte, Char.ofNat_toNat]
    exact ⟨h, rfl⟩
  · exact ⟨hlow, by decide⟩

theorem ofSingleBytes?_map {greatest : Nat} (hlow : 0x3F ≤ greatest) (hhigh : greatest < 0x100)
    (cs : List Char) : ofSingleBytes? greatest (cs.map (singleByte greatest)) =
      some (cs.map fun c => if c.toNat ≤ greatest then c else '?') := by
  induction cs with
  | nil => rfl
  | cons c cs ih =>
    obtain ⟨hbyte, hchar⟩ := toNat_singleByte greatest hlow hhigh c
    rw [List.map_cons, ofSingleBytes?, if_pos hbyte, ih, hchar]
    rfl

/-! ## All charsets -/

theorem map_written_of_has {charset : Charset} (h : ∀ c, charset.has c = true) (cs : List Char) :
    cs.map charset.written = cs := by
  have hid : charset.written = id := by
    funext c
    rw [written, if_pos (h c), id]
  rw [hid, List.map_id]

theorem characters?_encode (charset : Charset) (s : String) :
    charset.characters? (charset.encode s) = some (s.toList.map charset.written) := by
  cases charset with
  | utf8 =>
    rw [map_written_of_has fun _ => rfl]
    have hbytes : ByteArray.mk (utf8.encode s).toArray = s.toList.utf8Encode := by
      rw [List.utf8Encode, ← List.data_toByteArray]
      rfl
    rw [characters?, hbytes, List.utf8Decode?_utf8Encode]
    rfl
  | utf16 =>
    rw [map_written_of_has fun _ => rfl]
    exact characters?_twoBytes bigEndian_join s.toList
  | utf16be =>
    rw [map_written_of_has fun _ => rfl]
    exact characters?_twoBytes bigEndian_join s.toList
  | utf16le =>
    rw [map_written_of_has fun _ => rfl]
    exact characters?_twoBytes littleEndian_join s.toList
  | usAscii =>
    have hbytes : usAscii.encode s = s.toList.map (singleByte 0x7F) :=
      List.map_eq_flatMap.symm
    rw [characters?, hbytes, ofSingleBytes?_map (by decide) (by decide)]
    simp [written, has]
  | iso88591 =>
    have hbytes : iso88591.encode s = s.toList.map (singleByte 0xFF) :=
      List.map_eq_flatMap.symm
    rw [characters?, hbytes, ofSingleBytes?_map (by decide) (by decide)]
    simp [written, has]

theorem decode?_encode (charset : Charset) (s : String) :
    charset.decode? (charset.encode s) = some (charset.writtenText s) := by
  rw [decode?, characters?_encode, writtenText, Option.map_some, ← String.toList_map,
    String.ofList_toList]

/-- Pieces that are encoded one by one are one stream. -/
theorem encode_join (charset : Charset) (l : List String) :
    charset.encode (String.join l) = l.flatMap charset.encode := by
  induction l with
  | nil => simp
  | cons s l ih => rw [String.join_cons, encode_append, ih, List.flatMap_cons]

end Charset
end LoggingFacade
