import LoggingFacade.Number.Integer
import LoggingFacade.Number.Radix

/-!
# Numerals

A numeral is a sign or none and then ASCII digits, at least one. Reading an
integer between two bounds accepts exactly the numerals of the integers between
them: a magnitude that leaves the bounds on the way never comes back.
-/

namespace LoggingFacade
namespace Number

/-- At least one ASCII digit and nothing else. -/
def IsDigits (cs : List Char) : Prop := cs ≠ [] ∧ ∀ c ∈ cs, c.isDigit = true

/-- The text stands for the integer: digits, with a sign or without. -/
inductive IsNumeral : List Char → Int → Prop
  | plain {digits : List Char} (h : IsDigits digits) :
      IsNumeral digits (decimalNatural digits)
  | plus {digits : List Char} (h : IsDigits digits) :
      IsNumeral ('+' :: digits) (decimalNatural digits)
  | minus {digits : List Char} (h : IsDigits digits) :
      IsNumeral ('-' :: digits) (-decimalNatural digits)

theorem digit?_eq (c : Char) :
    digit? c = if c.isDigit = true then some (c.toNat - '0'.toNat) else none := by
  simp [digit?, Char.isDigit, Char.le_def]

/-- The value of digits behind those that came to the magnitude. -/
def valueFrom (magnitude : Nat) (digits : List Char) : Nat :=
  digits.foldl (fun n c => n * 10 + (c.toNat - '0'.toNat)) magnitude

theorem le_valueFrom (magnitude : Nat) (digits : List Char) :
    magnitude ≤ valueFrom magnitude digits := by
  induction digits generalizing magnitude with
  | nil => exact Nat.le_refl magnitude
  | cons c rest ih =>
    have hrest := ih (magnitude * 10 + (c.toNat - '0'.toNat))
    simp only [valueFrom, List.foldl_cons] at hrest ⊢
    omega

/-- The integer of a magnitude, below zero or not. -/
def signed (negative : Bool) (magnitude : Nat) : Int :=
  if negative then -magnitude else magnitude

/-- The bound that magnitudes grow towards is not passed. -/
def Bounds.Admits (b : Bounds) (negative : Bool) (magnitude : Nat) : Prop :=
  if negative then b.low ≤ -(magnitude : Int) else (magnitude : Int) ≤ b.high

theorem Bounds.Admits.anti {b : Bounds} {negative : Bool} {small large : Nat}
    (h : b.Admits negative large) (hle : small ≤ large) : b.Admits negative small := by
  unfold Admits at *
  cases negative <;> simp only [if_true, if_false, Bool.false_eq_true] at * <;> omega

theorem readDigits_cons (b : Bounds) (negative : Bool) (magnitude : Nat) (c : Char)
    (rest : List Char) (n : Int) : readDigits b negative magnitude (c :: rest) = .ok n ↔
      c.isDigit = true ∧ b.Admits negative (magnitude * 10 + (c.toNat - '0'.toNat)) ∧
        readDigits b negative (magnitude * 10 + (c.toNat - '0'.toNat)) rest = .ok n := by
  rw [readDigits, digit?_eq]
  unfold Bounds.Admits
  by_cases hdigit : c.isDigit = true
  · simp only [hdigit, if_true, true_and]
    cases negative with
    | true =>
      simp only [if_true]
      split
      · rename_i hlow
        simp only [reduceCtorEq, false_iff, not_and]
        intro hadmits
        omega
      · rename_i hlow
        exact ⟨fun h => ⟨by omega, h⟩, fun h => h.2⟩
    | false =>
      simp only [if_false, Bool.false_eq_true]
      split
      · rename_i hhigh
        simp only [reduceCtorEq, false_iff, not_and]
        intro hadmits
        omega
      · rename_i hhigh
        exact ⟨fun h => ⟨by omega, h⟩, fun h => h.2⟩
  · simp [hdigit]

/-- Digits are read exactly if their value does not pass the bound. -/
theorem readDigits_eq_ok {b : Bounds} {negative : Bool} {magnitude : Nat}
    (hstart : b.Admits negative magnitude) (digits : List Char) (n : Int) :
    readDigits b negative magnitude digits = .ok n ↔ (∀ c ∈ digits, c.isDigit = true) ∧
      b.Admits negative (valueFrom magnitude digits) ∧
        n = signed negative (valueFrom magnitude digits) := by
  induction digits generalizing magnitude with
  | nil =>
    rw [readDigits, Except.ok.injEq, eq_comm]
    exact ⟨fun hn => ⟨by simp, hstart, hn⟩, fun h => h.2.2⟩
  | cons c rest ih =>
    have hvalue : valueFrom magnitude (c :: rest) =
        valueFrom (magnitude * 10 + (c.toNat - '0'.toNat)) rest := rfl
    rw [readDigits_cons, hvalue, List.forall_mem_cons]
    constructor
    · rintro ⟨hdigit, hadmits, hread⟩
      obtain ⟨hdigits, hfinal, hn⟩ := (ih hadmits).1 hread
      exact ⟨⟨hdigit, hdigits⟩, hfinal, hn⟩
    · rintro ⟨⟨hdigit, hdigits⟩, hfinal, hn⟩
      have hadmits := hfinal.anti (le_valueFrom _ rest)
      exact ⟨hdigit, hadmits, (ih hadmits).2 ⟨hdigits, hfinal, hn⟩⟩

/-- Reading digits alone, from the beginning. -/
theorem readDigits_zero_eq_ok {b : Bounds} (hlow : b.low < 0) (hhigh : 0 ≤ b.high)
    (negative : Bool) {digits : List Char} (hne : digits ≠ []) (n : Int) :
    readDigits b negative 0 digits = .ok n ↔ IsDigits digits ∧ b.contains n = true ∧
      n = signed negative (decimalNatural digits) := by
  have hstart : b.Admits negative 0 := by
    unfold Bounds.Admits
    cases negative <;> simp <;> omega
  have hvalue : valueFrom 0 digits = decimalNatural digits := rfl
  rw [readDigits_eq_ok hstart, hvalue, IsDigits]
  simp only [Bounds.contains, Bool.and_eq_true, decide_eq_true_eq, Bounds.Admits, signed]
  cases negative with
  | true =>
    simp only [if_true]
    constructor
    · rintro ⟨hdigits, hadmits, rfl⟩
      exact ⟨⟨hne, hdigits⟩, ⟨hadmits, by omega⟩, rfl⟩
    · rintro ⟨⟨-, hdigits⟩, ⟨hadmits, -⟩, rfl⟩
      exact ⟨hdigits, hadmits, rfl⟩
  | false =>
    simp only [if_false, Bool.false_eq_true]
    constructor
    · rintro ⟨hdigits, hadmits, rfl⟩
      exact ⟨⟨hne, hdigits⟩, ⟨by omega, hadmits⟩, rfl⟩
    · rintro ⟨⟨-, hdigits⟩, ⟨-, hadmits⟩, rfl⟩
      exact ⟨hdigits, hadmits, rfl⟩

theorem isNumeral_plus (digits : List Char) (n : Int) :
    IsNumeral ('+' :: digits) n ↔ IsDigits digits ∧ n = decimalNatural digits := by
  constructor
  · intro h
    cases h with
    | plain h => exact absurd (h.2 '+' List.mem_cons_self) (by decide)
    | plus h => exact ⟨h, rfl⟩
  · rintro ⟨h, rfl⟩
    exact .plus h

theorem isNumeral_minus (digits : List Char) (n : Int) :
    IsNumeral ('-' :: digits) n ↔ IsDigits digits ∧ n = -decimalNatural digits := by
  constructor
  · intro h
    cases h with
    | plain h => exact absurd (h.2 '-' List.mem_cons_self) (by decide)
    | minus h => exact ⟨h, rfl⟩
  · rintro ⟨h, rfl⟩
    exact .minus h

theorem isNumeral_unsigned {digits : List Char} (hplus : ∀ rest, digits ≠ '+' :: rest)
    (hminus : ∀ rest, digits ≠ '-' :: rest) (n : Int) :
    IsNumeral digits n ↔ IsDigits digits ∧ n = decimalNatural digits := by
  constructor
  · intro h
    cases h with
    | plain h => exact ⟨h, rfl⟩
    | plus h => exact absurd rfl (hplus _)
    | minus h => exact absurd rfl (hminus _)
  · rintro ⟨h, rfl⟩
    exact .plain h

theorem not_isDigits_nil : ¬IsDigits [] := fun h => h.1 rfl

/-- Between bounds around zero exactly the numerals of the integers between them
are read. -/
theorem readInteger_eq_ok {b : Bounds} (hlow : b.low < 0) (hhigh : 0 ≤ b.high) (s : String)
    (n : Int) : readInteger b s = .ok n ↔ IsNumeral s.toList n ∧ b.contains n = true := by
  rw [readInteger]
  split
  · rename_i hs
    rw [hs, isNumeral_unsigned (by simp) (by simp)]
    simp [not_isDigits_nil]
  · rename_i hs
    rw [hs, isNumeral_plus]
    simp [not_isDigits_nil]
  · rename_i hs
    rw [hs, isNumeral_minus]
    simp [not_isDigits_nil]
  · rename_i digits hne hs
    have hdigits : digits ≠ [] := hne
    rw [hs, isNumeral_plus, readDigits_zero_eq_ok hlow hhigh false hdigits]
    rw [and_comm (a := b.contains n = true), and_assoc]
    rfl
  · rename_i digits hne hs
    have hdigits : digits ≠ [] := hne
    rw [hs, isNumeral_minus, if_pos hlow, readDigits_zero_eq_ok hlow hhigh true hdigits]
    rw [and_comm (a := b.contains n = true), and_assoc]
    rfl
  · rename_i hnil _ _ hplus hminus
    rw [isNumeral_unsigned hplus hminus, readDigits_zero_eq_ok hlow hhigh false hnil]
    rw [and_comm (a := b.contains n = true), and_assoc]
    rfl

end Number
end LoggingFacade
