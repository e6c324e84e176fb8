import LoggingFacade.Text.Letter
import LoggingFacade.Text.Lowercase
import Mathlib.Data.List.Forall2

/-!
# Letters in both cases

Names are compared up to the case of ASCII letters, in upper or in lower case alike. Where the
lower case of all scripts is taken instead, it makes no difference to a name in ASCII without a
`k`: of the characters outside ASCII only the Kelvin sign has all of its lower case in ASCII.
-/

namespace LoggingFacade
namespace Text

/-! ## ASCII letters -/

/-- Equal characters, or one ASCII letter in both cases. -/
def SameLetter (c d : Char) : Prop :=
  c = d ∨ ('A' ≤ c ∧ c ≤ 'Z' ∧ d.toNat = c.toNat + 32) ∨
    ('A' ≤ d ∧ d ≤ 'Z' ∧ c.toNat = d.toNat + 32)

/-- Equal names up to the case of ASCII letters. -/
def SameLetters (a b : String) : Prop := List.Forall₂ SameLetter a.toList b.toList

theorem toNat_toLower (c : Char) :
    c.toLower.toNat = if 65 ≤ c.toNat ∧ c.toNat ≤ 90 then c.toNat + 32 else c.toNat := by
  by_cases h : c.val ≥ 'A'.val ∧ c.val ≤ 'Z'.val
  · have hrange : 65 ≤ c.toNat ∧ c.toNat ≤ 90 := h
    have hlower : c.toLower.val = c.val + 32 := congrArg Char.val (dif_pos h)
    rw [if_pos hrange]
    change c.toLower.val.toNat = c.toNat + 32
    rw [hlower, UInt32.toNat_add, Nat.mod_eq_of_lt]
    · rfl
    · change c.toNat + 32 < 2 ^ 32
      omega
  · have hrange : ¬(65 ≤ c.toNat ∧ c.toNat ≤ 90) := h
    have hlower : c.toLower = c := dif_neg h
    rw [hlower, if_neg hrange]

theorem toNat_toUpper (c : Char) :
    c.toUpper.toNat = if 97 ≤ c.toNat ∧ c.toNat ≤ 122 then c.toNat - 32 else c.toNat := by
  by_cases h : 'a'.val ≤ c.val ∧ c.val ≤ 'z'.val
  · have hrange : 97 ≤ c.toNat ∧ c.toNat ≤ 122 := h
    have hupper : c.toUpper = ⟨c.val + ('A'.val - 'a'.val), _⟩ := dif_pos h
    have hdown : ('A'.val - 'a'.val).toNat = 2 ^ 32 - 32 := by decide
    have hcode : c.val.toNat = c.toNat := rfl
    rw [hupper, if_pos hrange]
    change (c.val + ('A'.val - 'a'.val)).toNat = c.toNat - 32
    rw [UInt32.toNat_add, hdown, hcode]
    omega
  · have hrange : ¬(97 ≤ c.toNat ∧ c.toNat ≤ 122) := h
    have hupper : c.toUpper = c := dif_neg h
    rw [hupper, if_neg hrange]

theorem isCapital_iff (c : Char) : 'A' ≤ c ∧ c ≤ 'Z' ↔ 65 ≤ c.toNat ∧ c.toNat ≤ 90 := Iff.rfl

/-- Characters beyond ASCII have no other case. -/
theorem toLower_eq_toLower (c d : Char) : c.toLower = d.toLower ↔ SameLetter c d := by
  rw [← Char.toNat_inj, toNat_toLower, toNat_toLower, SameLetter, ← Char.toNat_inj]
  simp only [← and_assoc, isCapital_iff]
  split <;> split <;> omega

theorem toUpper_eq_toUpper (c d : Char) : c.toUpper = d.toUpper ↔ SameLetter c d := by
  rw [← Char.toNat_inj, toNat_toUpper, toNat_toUpper, SameLetter, ← Char.toNat_inj]
  simp only [← and_assoc, isCapital_iff]
  split <;> split <;> omega

theorem lower_eq_lower (a b : String) : lower a = lower b ↔ SameLetters a b := by
  rw [← String.toList_inj, toList_lower, toList_lower, SameLetters, ← List.forall₂_eq_eq_eq,
    List.forall₂_map_left_iff, List.forall₂_map_right_iff]
  simp only [toLower_eq_toLower]

theorem upper_eq_upper (a b : String) : upper a = upper b ↔ SameLetters a b := by
  rw [← String.toList_inj, toList_upper, toList_upper, SameLetters, ← List.forall₂_eq_eq_eq,
    List.forall₂_map_left_iff, List.forall₂_map_right_iff]
  simp only [toUpper_eq_toUpper]

instance (a b : String) : Decidable (SameLetters a b) :=
  decidable_of_iff _ (lower_eq_lower a b)

theorem sameName_iff_upper (a b : String) : sameName a b = true ↔ upper a = upper b := by
  rw [sameName_iff, lower_eq_lower, upper_eq_upper]

/-! ## Letters of all scripts -/

theorem contains_latin_iff (n : Nat) :
    Capitals.contains ⟨65, 90, 1, 97⟩ n = true ↔ 65 ≤ n ∧ n ≤ 90 := by
  simp [Capitals.contains, Nat.mod_one]

theorem find?_capitals_of_lt {n : Nat} (h : n < 128) :
    capitals.find? (·.contains n) = if 65 ≤ n ∧ n ≤ 90 then some ⟨65, 90, 1, 97⟩ else none := by
  have hlatin : capitals = ⟨65, 90, 1, 97⟩ :: capitals.tail := rfl
  have hbeyond : (capitals.tail.all fun r => decide (128 ≤ r.first)) = true := by decide +kernel
  have htail : capitals.tail.find? (·.contains n) = none := by
    rw [List.find?_eq_none]
    intro r hr hcontains
    have hfirst := of_decide_eq_true (List.all_eq_true.1 hbeyond r hr)
    simp only [Capitals.contains, Bool.and_eq_true, decide_eq_true_eq] at hcontains
    omega
  rw [hlatin]
  split
  · rename_i hcapital
    exact List.find?_cons_of_pos ((contains_latin_iff n).2 hcapital)
  · rename_i hother
    rw [List.find?_cons_of_neg (p := fun r : Capitals => r.contains n)
      (mt (contains_latin_iff n).1 hother),
      htail]

/-- In ASCII both lower cases are one. -/
theorem lowercaseChar_of_lt {c : Char} (h : c.toNat < 128) : lowercaseChar c = [c.toLower] := by
  have hdotted : c ≠ '\u0130' := by
    rintro rfl
    contradiction
  have hlower := toNat_toLower c
  rw [lowercaseChar, if_neg hdotted, find?_capitals_of_lt h]
  by_cases hcapital : 65 ≤ c.toNat ∧ c.toNat ≤ 90
  · have hcode : (⟨65, 90, 1, 97⟩ : Capitals).lower c.toNat = c.toLower.toNat := by
      rw [hlower, if_pos hcapital]
      change 97 + (c.toNat - 65) = c.toNat + 32
      omega
    simp only [if_pos hcapital, hcode, Char.ofNat_toNat]
  · rw [if_neg hcapital, Char.toNat_inj] at hlower
    simp only [if_neg hcapital, hlower]

/-- A capital outside ASCII has its lower case there too, unless it is the Kelvin sign. -/
theorem Capitals.lower_of_mem {r : Capitals} (hr : r ∈ capitals) {n : Nat} (hn : 128 ≤ n)
    (hcontains : r.contains n = true) :
    r.lower n = 'k'.toNat ∨ 128 ≤ r.lower n ∧ (r.lower n).isValidChar := by
  have hall : (capitals.all fun r => decide (r.last < 128 ∨ r = ⟨0x212A, 0x212A, 1, 'k'.toNat⟩ ∨
      128 ≤ r.lowerFirst ∧ (r.lower r.last < 0xD800 ∨
        0xDFFF < r.lowerFirst ∧ r.lower r.last < 0x110000))) = true := by
    decide +kernel
  have hrange := of_decide_eq_true (List.all_eq_true.1 hall r hr)
  simp only [contains, Bool.and_eq_true, decide_eq_true_eq] at hcontains
  obtain ⟨⟨hfirst, hlast⟩, -⟩ := hcontains
  obtain hsmall | rfl | hrange := hrange
  · omega
  · left
    have hn : n = 0x212A := Nat.le_antisymm hlast hfirst
    rw [hn]
    rfl
  · right
    unfold Capitals.lower at hrange ⊢
    exact ⟨by omega, by rw [Nat.isValidChar]; omega⟩

/-- What a character outside ASCII becomes is not all in ASCII, or it is a `k`. -/
theorem exists_mem_lowercaseChar {c : Char} (h : 128 ≤ c.toNat) :
    ∃ d ∈ lowercaseChar c, 128 ≤ d.toNat ∨ d = 'k' := by
  rw [lowercaseChar]
  split
  · exact ⟨'\u0307', by simp, .inl (by decide)⟩
  · split
    · rename_i r hfound
      have hcontains := List.find?_some (p := fun r : Capitals => r.contains c.toNat) hfound
      refine ⟨_, List.mem_singleton_self _, ?_⟩
      obtain hk | ⟨hlarge, hvalid⟩ :=
        Capitals.lower_of_mem (List.mem_of_find?_eq_some hfound) h hcontains
      · right
        rw [hk, Char.ofNat_toNat]
      · left
        rw [Char.ofNat, dif_pos hvalid]
        exact hlarge
    · exact ⟨c, List.mem_singleton_self c, .inl h⟩

/-- Nothing but ASCII, and no `k`. -/
def isPlain (s : String) : Bool := s.toList.all fun c => c.toNat < 128 && c != 'k'

theorem flatMap_lowercaseChar_eq_iff {name : List Char}
    (hname : ∀ c ∈ name, c.toNat < 128 ∧ c ≠ 'k') (l : List Char) :
    l.flatMap lowercaseChar = name ↔ l.map Char.toLower = name := by
  induction l generalizing name with
  | nil => rfl
  | cons c l ih =>
    rw [List.flatMap_cons, List.map_cons]
    by_cases hc : c.toNat < 128
    · rw [lowercaseChar_of_lt hc, List.singleton_append]
      cases name with
      | nil => simp
      | cons d name => rw [List.cons.injEq, List.cons.injEq,
          ih fun e he => hname e (List.mem_cons_of_mem d he)]
    · -- one of the characters that it becomes has no place in the name
      constructor
      · rintro rfl
        obtain ⟨d, hd, hforeign⟩ := exists_mem_lowercaseChar (Nat.le_of_not_lt hc)
        obtain ⟨hascii, hk⟩ := hname d (List.mem_append_left _ hd)
        obtain hlarge | rfl := hforeign
        · omega
        · exact absurd rfl hk
      · rintro rfl
        obtain ⟨hascii, -⟩ := hname c.toLower List.mem_cons_self
        rw [toNat_toLower] at hascii
        split at hascii <;> omega

/-- A plain name is the lower case of the same texts, whatever is known of other scripts. -/
theorem lowercase_eq_iff {name : String} (hname : isPlain name = true) (s : String) :
    lowercase s = name ↔ lower s = name := by
  have hplain : ∀ c ∈ name.toList, c.toNat < 128 ∧ c ≠ 'k' := by
    intro c hc
    simpa using List.all_eq_true.1 hname c hc
  rw [← String.toList_inj, ← String.toList_inj, toList_lower, lowercase, String.toList_ofList,
    flatMap_lowercaseChar_eq_iff hplain]

theorem lowercase_mem_iff {names : List String} (hnames : names.all isPlain = true) (s : String) :
    lowercase s ∈ names ↔ lower s ∈ names := by
  rw [List.all_eq_true] at hnames
  constructor
  · intro h
    rwa [(lowercase_eq_iff (hnames _ h) s).1 rfl]
  · intro h
    rwa [(lowercase_eq_iff (hnames _ h) s).2 rfl]

/-- The Kelvin sign is a `k` in lower case, but not up to the case of ASCII letters. -/
example : lowercase "\u212A" = "k" ∧ lower "\u212A" ≠ "k" := by decide +kernel

end Text
end LoggingFacade
