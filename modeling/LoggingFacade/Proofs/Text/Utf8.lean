import LoggingFacade.Text.Utf8
import Mathlib.Data.List.Basic
import Mathlib.Tactic.SplitIfs

/-!
# Decoding encoded text

The bytes that a text is encoded by are decoded as its characters, without
fault.
-/

namespace LoggingFacade
namespace Text

theorem byteIn_ofNat {low high n : Nat} (h : n < 256) :
    byteIn low high (.ofNat n) = true ↔ low ≤ n ∧ n ≤ high := by
  rw [byteIn, UInt8.toNat_ofNat_of_lt' h]
  simp

/-- A continuation byte adds six bits. -/
theorem followers_succ {low high more value n : Nat} {rest : Bytes} (hlow : low ≤ n + 0x80)
    (hhigh : n + 0x80 ≤ high) (hn : n < 0x40) :
    followers low high (more + 1) value (.ofNat (n + 0x80) :: rest) =
      ((followers 0x80 0xBF more (value * 64 + n) rest).1,
        (followers 0x80 0xBF more (value * 64 + n) rest).2 + 1) := by
  have hbyte : n + 0x80 < 256 := by omega
  rw [followers, if_pos ((byteIn_ofNat hbyte).2 ⟨hlow, hhigh⟩), UInt8.toNat_ofNat_of_lt' hbyte,
    Nat.add_sub_cancel]

/-- Continuation bytes behind the second byte are within the usual bounds. -/
theorem followers_usual {more value n : Nat} {rest : Bytes} (hn : n < 0x40) :
    followers 0x80 0xBF (more + 1) value (.ofNat (n + 0x80) :: rest) =
      ((followers 0x80 0xBF more (value * 64 + n) rest).1,
        (followers 0x80 0xBF more (value * 64 + n) rest).2 + 1) :=
  followers_succ (by omega) (by omega) hn

/-- What the leading byte of a code point announces; `second` is what the byte
behind it adds. -/
theorem exists_lead {n following payload second : Nat}
    (h : following = 1 ∧ n = payload + 0xC0 ∧ 2 ≤ payload ∧ payload < 0x20 ∨
      following = 2 ∧ n = payload + 0xE0 ∧ payload < 0x10 ∧ (payload = 0 → 0x20 ≤ second) ∧
        (payload = 0xD → second < 0x20) ∨
      following = 3 ∧ n = payload + 0xF0 ∧ payload ≤ 4 ∧ (payload = 0 → 0x10 ≤ second) ∧
        (payload = 4 → second < 0x10)) (hsecond : second < 0x40) :
    0x80 ≤ (UInt8.ofNat n).toNat ∧ ∃ lead, lead? (.ofNat n) = some lead ∧
      lead.following = following ∧ lead.payload = payload ∧
      lead.low ≤ second + 0x80 ∧ second + 0x80 ≤ lead.high := by
  have hn : n < 256 := by omega
  rw [lead?, UInt8.toNat_ofNat_of_lt' hn]
  refine ⟨by omega, ?_⟩
  simp only [Bool.and_eq_true, decide_eq_true_eq, beq_iff_eq]
  split_ifs
  all_goals first
    | exact ⟨_, rfl, by dsimp only; omega, by dsimp only; omega, by dsimp only; omega,
        by dsimp only; omega⟩
    | omega

theorem decodeUtf8_of_lead {b : UInt8} {lead : Lead} {rest : Bytes} (hb : 0x80 ≤ b.toNat)
    (hlead : lead? b = some lead) {value used : Nat}
    (h : followers lead.low lead.high lead.following lead.payload rest = (some value, used)) :
    decodeUtf8 (b :: rest) = some (Char.ofNat value) :: decodeUtf8 (rest.drop used) := by
  rw [decodeUtf8, if_neg (Nat.not_lt.2 hb), hlead]
  simp only [h]
  rfl

/-- The bytes of a character are those of its code point, in pieces of six bits. -/
theorem decodeUtf8_char (c : Char) (rest : Bytes) :
    decodeUtf8 (String.utf8EncodeChar c ++ rest) = some c :: decodeUtf8 rest := by
  have hback : Char.ofNat c.val.toNat = c := Char.ofNat_toNat c
  have hvalid : c.val.toNat < 0xD800 ∨ 0xDFFF < c.val.toNat ∧ c.val.toNat < 0x110000 := c.valid
  rw [String.utf8EncodeChar]
  generalize c.val.toNat = v at *
  split_ifs with hone htwo hthree
  · have hbyte : v < 256 := by omega
    have hv : (UInt8.ofNat v).toNat = v := UInt8.toNat_ofNat_of_lt' hbyte
    rw [List.cons_append, decodeUtf8, hv, if_pos (by omega), hback]
    rfl
  · obtain ⟨hb, lead, hlead, hfollowing, hpayload, hlow, hhigh⟩ :=
      exists_lead (n := v / 64 % 0x20 + 0xC0) (.inl ⟨rfl, rfl, by omega, by omega⟩)
        (Nat.mod_lt v (by omega))
    have hvalue : followers lead.low lead.high lead.following lead.payload
        (.ofNat (v % 0x40 + 0x80) :: rest) = (some v, 1) := by
      have hjoin : v / 64 % 0x20 * 64 + v % 0x40 = v := by omega
      rw [hfollowing, hpayload, followers_succ hlow hhigh (by omega), followers, hjoin]
    exact (decodeUtf8_of_lead hb hlead hvalue).trans (by rw [hback]; rfl)
  · obtain ⟨hb, lead, hlead, hfollowing, hpayload, hlow, hhigh⟩ :=
      exists_lead (n := v / 4096 % 0x10 + 0xE0)
        (.inr (.inl ⟨rfl, rfl, by omega, by omega, by omega⟩))
        (Nat.mod_lt (v / 64) (by omega))
    have hvalue : followers lead.low lead.high lead.following lead.payload
        (.ofNat (v / 64 % 0x40 + 0x80) :: .ofNat (v % 0x40 + 0x80) :: rest) = (some v, 2) := by
      have hjoin : (v / 4096 % 0x10 * 64 + v / 64 % 0x40) * 64 + v % 0x40 = v := by omega
      rw [hfollowing, hpayload, followers_succ hlow hhigh (by omega), followers_usual (by omega),
        followers, hjoin]
    exact (decodeUtf8_of_lead hb hlead hvalue).trans (by rw [hback]; rfl)
  · obtain ⟨hb, lead, hlead, hfollowing, hpayload, hlow, hhigh⟩ :=
      exists_lead (n := v / 262144 % 0x08 + 0xF0)
        (.inr (.inr ⟨rfl, rfl, by omega, by omega, by omega⟩))
        (Nat.mod_lt (v / 4096) (by omega))
    have hvalue : followers lead.low lead.high lead.following lead.payload
        (.ofNat (v / 4096 % 0x40 + 0x80) :: .ofNat (v / 64 % 0x40 + 0x80) ::
          .ofNat (v % 0x40 + 0x80) :: rest) = (some v, 3) := by
      have hjoin : ((v / 262144 % 0x08 * 64 + v / 4096 % 0x40) * 64 + v / 64 % 0x40) * 64 +
          v % 0x40 = v := by omega
      rw [hfollowing, hpayload, followers_succ hlow hhigh (by omega), followers_usual (by omega),
        followers_usual (by omega), followers, hjoin]
    exact (decodeUtf8_of_lead hb hlead hvalue).trans (by rw [hback]; rfl)

theorem decodeUtf8_encodeUtf8 (cs : List Char) : decodeUtf8 (encodeUtf8 cs) = cs.map some := by
  induction cs with
  | nil => rw [encodeUtf8, List.flatMap_nil, decodeUtf8, List.map_nil]
  | cons c cs ih =>
    rw [encodeUtf8, List.flatMap_cons, decodeUtf8_char, ← encodeUtf8, ih, List.map_cons]

theorem ofUtf8?_encodeUtf8 (s : String) : ofUtf8? (encodeUtf8 s.toList) = some s := by
  have hchars : (s.toList.map some).mapM id = some s.toList := by
    rw [List.mapM_map]
    exact List.mapM_pure.trans (congrArg some (List.map_id _))
  rw [ofUtf8?, decodeUtf8_encodeUtf8, hchars, Option.map_some, String.ofList_toList]

end Text
end LoggingFacade
