import LoggingFacade.Proofs.Charset.Decoding
import LoggingFacade.Proofs.Text.Lossy

/-!
# Bytes and texts correspond

The reader of a charset accepts exactly the bytes that a text of its characters
is encoded by: no other bytes, and each text in one form alone. Together with
what it makes of any encoded text, this gives the law of the charsets, for
whole texts and for texts that are encoded piece by piece.
-/

namespace LoggingFacade

open Text (Bytes)

namespace Charset

theorem toNat_ofNat {n : Nat} (h : n.isValidChar) : (Char.ofNat n).toNat = n := by
  rw [Char.ofNat, dif_pos h]
  rfl

/-! ## Two-byte charsets -/

theorem units_of_single {unit : Nat} (h : unit < 0xD800 ∨ 0xE000 ≤ unit) (hlt : unit < 0x10000) :
    units (Char.ofNat unit) = [unit] := by
  have hvalid : unit.isValidChar := by
    rcases h with hlow | hhigh
    · exact .inl hlow
    · exact .inr ⟨by omega, by omega⟩
  rw [units, toNat_ofNat hvalid]
  exact if_pos hlt

theorem units_of_pair {high low : Nat} (hhigh : 0xD800 ≤ high ∧ high < 0xDC00)
    (hlow : 0xDC00 ≤ low ∧ low < 0xE000) :
    units (Char.ofNat (0x10000 + (high - 0xD800) * 0x400 + (low - 0xDC00))) = [high, low] := by
  have hvalid : (0x10000 + (high - 0xD800) * 0x400 + (low - 0xDC00)).isValidChar :=
    .inr ⟨by omega, by omega⟩
  have hlarge : ¬0x10000 + (high - 0xD800) * 0x400 + (low - 0xDC00) < 0x10000 := by omega
  rw [units, toNat_ofNat hvalid]
  simp only [if_neg hlarge, List.cons.injEq, and_true]
  constructor <;> omega

/-- Code units that read as characters are the units of these characters. -/
theorem flatMap_units {us : List Nat} {cs : List Char} (h : ofUnits? us = some cs)
    (hlt : ∀ unit ∈ us, unit < 0x10000) : cs.flatMap units = us := by
  fun_induction ofUnits? us generalizing cs with
  | case1 =>
    obtain rfl := Option.some.inj h
    rfl
  | case2 unit rest hsingle ih =>
    obtain ⟨more, hmore, rfl⟩ := Option.map_eq_some_iff.1 h
    rw [List.forall_mem_cons] at hlt
    rw [List.flatMap_cons, units_of_single hsingle hlt.1, ih hmore hlt.2]
    rfl
  | case3 high hsingle low rest hpair ih =>
    obtain ⟨more, hmore, rfl⟩ := Option.map_eq_some_iff.1 h
    rw [List.forall_mem_cons, List.forall_mem_cons] at hlt
    rw [List.flatMap_cons, units_of_pair ⟨by omega, hpair.1⟩ hpair.2, ih hmore hlt.2.2]
    rfl
  | case4 => simp at h
  | case5 => simp at h

/-- Bytes that join to code units are those that the units are split into. -/
theorem flatMap_split {join : UInt8 → UInt8 → Nat} {split : Nat → Bytes}
    (hjoin : ∀ a b, join a b < 0x10000 ∧ split (join a b) = [a, b]) {bytes : Bytes}
    {us : List Nat} (h : unitsOf? join bytes = some us) :
    us.flatMap split = bytes ∧ ∀ unit ∈ us, unit < 0x10000 := by
  fun_induction unitsOf? join bytes generalizing us with
  | case1 =>
    obtain rfl := Option.some.inj h
    exact ⟨rfl, by simp⟩
  | case2 => simp at h
  | case3 a b rest ih =>
    obtain ⟨more, hmore, rfl⟩ := Option.map_eq_some_iff.1 h
    obtain ⟨hbytes, hlt⟩ := ih hmore
    rw [List.flatMap_cons, (hjoin a b).2, hbytes, List.forall_mem_cons]
    exact ⟨rfl, (hjoin a b).1, hlt⟩

theorem bigEndian_split (a b : UInt8) :
    ofBigEndian a b < 0x10000 ∧ bigEndian (ofBigEndian a b) = [a, b] := by
  have ha := a.toNat_lt
  have hb := b.toNat_lt
  have hquotient : (a.toNat * 256 + b.toNat) / 256 = a.toNat := by omega
  have hremainder : (a.toNat * 256 + b.toNat) % 256 = b.toNat := by omega
  rw [bigEndian, ofBigEndian, hquotient, hremainder, UInt8.ofNat_toNat, UInt8.ofNat_toNat]
  exact ⟨by omega, rfl⟩

theorem littleEndian_split (a b : UInt8) :
    ofLittleEndian a b < 0x10000 ∧ littleEndian (ofLittleEndian a b) = [a, b] := by
  have ha := a.toNat_lt
  have hb := b.toNat_lt
  have hquotient : (b.toNat * 256 + a.toNat) / 256 = b.toNat := by omega
  have hremainder : (b.toNat * 256 + a.toNat) % 256 = a.toNat := by omega
  rw [littleEndian, ofLittleEndian, hquotient, hremainder, UInt8.ofNat_toNat, UInt8.ofNat_toNat]
  exact ⟨by omega, rfl⟩

theorem twoBytes_of_characters {join : UInt8 → UInt8 → Nat} {split : Nat → Bytes}
    (hjoin : ∀ a b, join a b < 0x10000 ∧ split (join a b) = [a, b]) {bytes : Bytes}
    {cs : List Char} (h : (unitsOf? join bytes).bind ofUnits? = some cs) :
    bytes = cs.flatMap fun c => (units c).flatMap split := by
  obtain ⟨us, hus, hcs⟩ := Option.bind_eq_some_iff.1 h
  obtain ⟨hbytes, hlt⟩ := flatMap_split hjoin hus
  rw [← hbytes, ← flatMap_units hcs hlt, List.flatMap_assoc]

/-! ## Single-byte charsets -/

theorem singleByte_ofNat {greatest : Nat} {b : UInt8} (h : b.toNat ≤ greatest) :
    (Char.ofNat b.toNat).toNat ≤ greatest ∧ singleByte greatest (Char.ofNat b.toNat) = b := by
  have hb := b.toNat_lt
  have hcode : (Char.ofNat b.toNat).toNat = b.toNat := toNat_ofNat (.inl (by omega))
  rw [singleByte, hcode, if_pos h, UInt8.ofNat_toNat]
  exact ⟨h, rfl⟩

theorem singleBytes_of_characters {greatest : Nat} {bytes : Bytes} {cs : List Char}
    (h : ofSingleBytes? greatest bytes = some cs) :
    bytes = cs.flatMap (fun c => [singleByte greatest c]) ∧ ∀ c ∈ cs, c.toNat ≤ greatest := by
  induction bytes generalizing cs with
  | nil =>
    obtain rfl := Option.some.inj h
    exact ⟨rfl, by simp⟩
  | cons b rest ih =>
    rw [ofSingleBytes?] at h
    split at h
    · rename_i hb
      obtain ⟨more, hmore, rfl⟩ := Option.map_eq_some_iff.1 h
      obtain ⟨hbytes, hall⟩ := ih hmore
      obtain ⟨hle, hbyte⟩ := singleByte_ofNat hb
      rw [List.flatMap_cons, hbyte, ← hbytes, List.forall_mem_cons]
      exact ⟨rfl, hle, hall⟩
    · contradiction

/-! ## All charsets -/

theorem utf8_of_characters {bytes : Bytes} {cs : List Char}
    (h : (ByteArray.mk bytes.toArray).utf8Decode?.map Array.toList = some cs) :
    bytes = cs.flatMap String.utf8EncodeChar := by
  obtain ⟨chars, hchars, rfl⟩ := Option.map_eq_some_iff.1 h
  have hsome : (ByteArray.mk bytes.toArray).utf8Decode?.isSome = true := by
    rw [hchars]
    rfl
  have hencode := ByteArray.utf8Encode_get_utf8Decode? (h := hsome)
  simp only [hchars, Option.get_some] at hencode
  have hdata := congrArg (fun b => b.data.toList) hencode
  simp only [List.utf8Encode, List.data_toByteArray] at hdata
  exact hdata.symm

/-- Bytes that are read are those that the text is encoded by, and the charset
has all characters of the text. -/
theorem encode_of_characters? {charset : Charset} {bytes : Bytes} {cs : List Char}
    (h : charset.characters? bytes = some cs) :
    bytes = charset.encode (.ofList cs) ∧ ∀ c ∈ cs, charset.has c = true := by
  rw [encode, String.toList_ofList]
  cases charset with
  | utf8 => exact ⟨utf8_of_characters h, fun _ _ => rfl⟩
  | utf16 => exact ⟨twoBytes_of_characters bigEndian_split h, fun _ _ => rfl⟩
  | utf16be => exact ⟨twoBytes_of_characters bigEndian_split h, fun _ _ => rfl⟩
  | utf16le => exact ⟨twoBytes_of_characters littleEndian_split h, fun _ _ => rfl⟩
  | usAscii =>
    obtain ⟨hbytes, hall⟩ := singleBytes_of_characters h
    exact ⟨hbytes, fun c hc => decide_eq_true (hall c hc)⟩
  | iso88591 =>
    obtain ⟨hbytes, hall⟩ := singleBytes_of_characters h
    exact ⟨hbytes, fun c hc => decide_eq_true (hall c hc)⟩

theorem has_eq_false_iff {charset : Charset} {c : Char} : charset.has c = false ↔
    charset = .usAscii ∧ 0x7F < c.toNat ∨ charset = .iso88591 ∧ 0xFF < c.toNat := by
  cases charset <;> simp [has]

theorem writtenText_of_has {charset : Charset} {s : String}
    (h : ∀ c ∈ s.toList, charset.has c = true) : charset.writtenText s = s := by
  rw [writtenText, ← String.toList_inj, String.toList_map]
  exact (List.map_congr_left fun c hc => if_pos (h c hc)).trans (List.map_id _)

theorem decode?_eq_some_iff {charset : Charset} {bytes : Bytes} {s : String} :
    charset.decode? bytes = some s ↔
      bytes = charset.encode s ∧ ∀ c ∈ s.toList, charset.has c = true := by
  constructor
  · intro h
    obtain ⟨cs, hcs, rfl⟩ := Option.map_eq_some_iff.1 h
    rw [String.toList_ofList]
    exact encode_of_characters? hcs
  · rintro ⟨rfl, hhas⟩
    rw [decode?_encode, writtenText_of_has hhas]

/-- A text that is encoded reads as itself with a question mark for exactly the
characters that the charset lacks: none in UTF-8 and UTF-16, those above U+007F
in US-ASCII and those above U+00FF in ISO-8859-1. Encoding respects joins, so
pieces that are encoded one by one are one stream, which reads as the pieces in
a row. The readers accept no other bytes than those that encode a text of the
charset's characters, and give that text. -/
theorem encodings_read_and_join (charset : Charset) :
    (∀ c, charset.has c = false ↔
      charset = .usAscii ∧ 0x7F < c.toNat ∨ charset = .iso88591 ∧ 0xFF < c.toNat) ∧
    (∀ s : String, charset.decode? (charset.encode s) =
      some (s.map fun c => if charset.has c then c else '?')) ∧
    (∀ a b : String, charset.encode (a ++ b) = charset.encode a ++ charset.encode b) ∧
    (∀ pieces : List String, charset.decode? (pieces.flatMap charset.encode) =
      some (String.join (pieces.map charset.writtenText))) ∧
    ∀ (bytes : Bytes) (s : String), charset.decode? bytes = some s ↔
      bytes = charset.encode s ∧ s.toList.all charset.has = true := by
  refine ⟨fun c => has_eq_false_iff, charset.decode?_encode, charset.encode_append,
    fun pieces => ?_, fun bytes s => ?_⟩
  · rw [← encode_join, decode?_encode, writtenText, Text.map_join]
    rfl
  · rw [decode?_eq_some_iff, List.all_eq_true]

end Charset
end LoggingFacade
