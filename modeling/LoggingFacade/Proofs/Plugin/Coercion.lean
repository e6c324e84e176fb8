import LoggingFacade.Proofs.Number.Numeral
import LoggingFacade.Proofs.Plugin.Endings
import LoggingFacade.Proofs.Plugin.Reading
import LoggingFacade.Proofs.Text.Lossy
import Mathlib.Algebra.Group.Int.Defs
import Mathlib.Data.List.TakeWhile

/-!
# Texts that stand for values

An attribute is a text. A boolean is read from its name in any case and an integer from a
numeral within 64 bits, both with white space around them or without, and from nothing else;
any other text is a failure that names component and parameter. The text that a boolean, an
integer or a text is kept as is read as that value again.
-/

namespace LoggingFacade

namespace Text

/-- The text is the core with white space around it, or without. -/
def Surrounds (raw : String) (core : List Char) : Prop :=
  ∃ before after, raw.toList = before ++ core ++ after ∧
    (∀ c ∈ before, isBlank c = true) ∧ ∀ c ∈ after, isBlank c = true

theorem exists_strip (p : Char → Bool) (cs : List Char) :
    ∃ before after, cs = before ++ strip p cs ++ after ∧
      (∀ c ∈ before, p c = true) ∧ ∀ c ∈ after, p c = true := by
  have hback := List.takeWhile_append_dropWhile (p := p) (l := (cs.dropWhile p).reverse)
  refine ⟨cs.takeWhile p, ((cs.dropWhile p).reverse.takeWhile p).reverse, ?_, ?_, ?_⟩
  · rw [strip, List.append_assoc, ← List.reverse_append, hback, List.reverse_reverse,
      List.takeWhile_append_dropWhile]
  · intro c hc
    exact List.mem_takeWhile_imp hc
  · intro c hc
    exact List.mem_takeWhile_imp (List.mem_reverse.1 hc)

/-- Nothing is removed at a visible character. -/
theorem dropWhile_append_of_visible {p : Char → Bool} {core : List Char}
    (hcore : ∀ c ∈ core, p c = false) {after : List Char} (hafter : ∀ c ∈ after, p c = true) :
    (core ++ after).dropWhile p = if core = [] then [] else core ++ after := by
  cases core with
  | nil => rw [List.nil_append, if_pos rfl, dropWhile_eq_nil_iff_all]; exact hafter
  | cons c rest =>
    have hc : p c = false := hcore c List.mem_cons_self
    rw [List.cons_append, List.dropWhile_cons, hc]
    simp

theorem strip_of_visible {p : Char → Bool} {before core after : List Char}
    (hcore : ∀ c ∈ core, p c = false) (hbefore : ∀ c ∈ before, p c = true)
    (hafter : ∀ c ∈ after, p c = true) : strip p (before ++ core ++ after) = core := by
  rw [strip, List.append_assoc, List.dropWhile_append_of_pos hbefore,
    dropWhile_append_of_visible hcore hafter]
  split
  · rename_i hnil
    rw [hnil]
    rfl
  · rename_i hne
    have hreverse : ∀ c ∈ core.reverse, p c = false := fun c hc => hcore c (List.mem_reverse.1 hc)
    have hnothing : ∀ c ∈ ([] : List Char), p c = true := by simp
    have hstop := dropWhile_append_of_visible hreverse hnothing
    rw [List.append_nil, if_neg (by simpa using hne)] at hstop
    rw [List.reverse_append, List.dropWhile_append_of_pos (by simpa using hafter), hstop,
      List.reverse_reverse]

theorem surrounds_trim (raw : String) : Surrounds raw (trim raw).toList := by
  rw [trim, String.toList_ofList]
  exact exists_strip isBlank raw.toList

/-- A core without blanks is what trimming leaves. -/
theorem surrounds_iff {raw : String} {core : List Char} (h : ∀ c ∈ core, isBlank c = false) :
    Surrounds raw core ↔ (trim raw).toList = core := by
  constructor
  · rintro ⟨before, after, hraw, hbefore, hafter⟩
    rw [trim, String.toList_ofList, hraw, strip_of_visible h hbefore hafter]
  · rintro rfl
    exact surrounds_trim raw

theorem isBlank_of_isDigit {c : Char} (h : c.isDigit = true) : isBlank c = false := by
  simp only [Char.isDigit, Bool.and_eq_true, decide_eq_true_eq, ge_iff_le,
    UInt32.le_iff_toNat_le] at h
  have hlow : 48 ≤ c.toNat := h.1
  have hhigh : c.toNat ≤ 57 := h.2
  unfold isBlank
  simp only [Bool.or_eq_false_iff, Bool.and_eq_false_iff, decide_eq_false_iff_not,
    beq_eq_false_iff_ne]
  omega

/-- No blank is a letter. -/
theorem toLower_of_isBlank {c : Char} (h : isBlank c = true) : c.toLower = c := by
  have hletter : ¬(c.val ≥ 'A'.val ∧ c.val ≤ 'Z'.val) := by
    simp only [ge_iff_le, UInt32.le_iff_toNat_le]
    rintro ⟨hlow, hhigh⟩
    have hlow : 65 ≤ c.toNat := hlow
    have hhigh : c.toNat ≤ 90 := hhigh
    unfold isBlank at h
    simp only [Bool.or_eq_true, Bool.and_eq_true, decide_eq_true_eq, beq_iff_eq] at h
    omega
  exact dif_neg hletter

/-- A name without blanks has none in any case of its letters. -/
theorem visible_of_sameName {core : List Char} {name : String}
    (hname : ∀ c ∈ name.toList, isBlank c = false) (hlower : lower name = name)
    (h : sameName (.ofList core) name = true) : ∀ c ∈ core, isBlank c = false := by
  intro c hc
  by_contra hblank
  rw [Bool.not_eq_false] at hblank
  have hcore : core.map Char.toLower = name.toList := by
    rw [sameName_iff, hlower, ← String.toList_inj, toList_lower, String.toList_ofList] at h
    exact h
  have hmem : c ∈ name.toList := by
    rw [← hcore, List.mem_map]
    exact ⟨c, hc, toLower_of_isBlank hblank⟩
  rw [hname c hmem] at hblank
  contradiction

end Text

namespace Number

theorem IsDigits.visible {cs : List Char} (h : IsDigits cs) : ∀ c ∈ cs, Text.isBlank c = false :=
  fun c hc => Text.isBlank_of_isDigit (h.2 c hc)

theorem IsNumeral.visible {cs : List Char} {n : Int} (h : IsNumeral cs n) :
    ∀ c ∈ cs, Text.isBlank c = false := by
  cases h with
  | plain h => exact h.visible
  | plus h => exact List.forall_mem_cons.2 ⟨by decide, h.visible⟩
  | minus h => exact List.forall_mem_cons.2 ⟨by decide, h.visible⟩

theorem decimalNatural_toString (n : Nat) : decimalNatural (toString n).toList = n := by
  have hdigits : (toString n).toList = Nat.toDigits 10 n := Nat.toList_repr
  have hvalue : Nat.ofDigitChars 10 (Nat.toDigits 10 n) 0 = n := Nat.ofDigitChars_ten_toDigits
  rw [Nat.ofDigitChars_eq_foldl] at hvalue
  rw [hdigits, decimalNatural]
  simpa only [Nat.mul_comm] using hvalue

theorem isDigits_toString (n : Nat) : IsDigits (toString n).toList := by
  refine ⟨?_, fun c hc => Text.isDigit_of_mem_toString_nat hc⟩
  have hdigits : (toString n).toList = Nat.toDigits 10 n := Nat.toList_repr
  rw [hdigits]
  exact Nat.toDigits_ne_nil

/-- The decimal text of an integer is a numeral of it. -/
theorem isNumeral_toString (n : Int) : IsNumeral (toString n).toList n := by
  cases n with
  | ofNat n =>
    have h := IsNumeral.plain (isDigits_toString n)
    rw [decimalNatural_toString] at h
    exact h
  | negSucc n =>
    have hsign : (toString (Int.negSucc n)).toList = '-' :: (toString (n + 1)).toList :=
      String.toList_append
    have h := IsNumeral.minus (isDigits_toString (n + 1))
    rw [decimalNatural_toString] at h
    rw [hsign]
    exact h

theorem contains_int64 (n : Int) :
    Bounds.int64.contains n = true ↔ -2 ^ 63 ≤ n ∧ n < 2 ^ 63 := by
  have hbound : (2 : Int) ^ 63 = 9223372036854775808 := rfl
  rw [Bounds.contains, Bool.and_eq_true, decide_eq_true_eq, decide_eq_true_eq, hbound]
  exact and_congr_right fun _ => Int.lt_add_one_iff.symm

end Number

namespace Coercion

open Number (IsNumeral)

/-- The name of a boolean. -/
def nameOf (b : Bool) : String := if b then "true" else "false"

/-- What a text stands for as a boolean or an integer. -/
inductive StandsFor (raw : String) : ParameterKind → Argument → Prop
  | bool {core : List Char} {b : Bool} : Text.Surrounds raw core →
      Text.sameName (.ofList core) (nameOf b) = true → StandsFor raw .bool (.bool b)
  | int {core : List Char} {n : Int} : Text.Surrounds raw core → IsNumeral core n →
      -2 ^ 63 ≤ n → n < 2 ^ 63 → StandsFor raw .int (.int n)

variable {component parameter raw : String} {value : Argument}

theorem readBool?_eq_some (raw : String) (b : Bool) : readBool? raw = some b ↔
    Text.sameName (Text.trim raw) (nameOf b) = true := by
  have hnames : ¬Text.lower "true" = Text.lower "false" := by decide
  rw [readBool?]
  simp only [Text.sameName_iff, nameOf]
  cases b <;> grind

theorem visible_nameOf (b : Bool) : ∀ c ∈ (nameOf b).toList, Text.isBlank c = false := by
  have hall : (nameOf b).toList.all (fun c => !Text.isBlank c) = true := by cases b <;> rfl
  simpa using hall

theorem coerce_int_eq_ok : coerce component parameter .int raw = .ok value ↔
    ∃ n, readInt raw = .ok n ∧ value = .int n := by
  unfold coerce
  cases readInt raw <;> simp [eq_comm]

theorem coerce_bool_iff : coerce component parameter .bool raw = .ok value ↔
    StandsFor raw .bool value := by
  rw [coerce_bool_eq_ok]
  simp only [readBool?_eq_some]
  constructor
  · rintro ⟨b, hname, rfl⟩
    exact .bool (Text.surrounds_trim raw) (by rwa [String.ofList_toList])
  · intro h
    cases h with
    | @bool core b hsurrounds hname =>
      have hlower : Text.lower (nameOf b) = nameOf b := by cases b <;> rfl
      have hvisible : ∀ c ∈ core, Text.isBlank c = false :=
        Text.visible_of_sameName (visible_nameOf b) hlower hname
      rw [Text.surrounds_iff hvisible] at hsurrounds
      rw [← hsurrounds, String.ofList_toList] at hname
      exact ⟨b, hname, rfl⟩

theorem coerce_int_iff : coerce component parameter .int raw = .ok value ↔
    StandsFor raw .int value := by
  rw [coerce_int_eq_ok]
  simp only [readInt, Number.readInteger_eq_ok (b := .int64) (by decide) (by decide),
    Number.contains_int64]
  constructor
  · rintro ⟨n, ⟨hnumeral, hlow, hhigh⟩, rfl⟩
    exact .int (Text.surrounds_trim raw) hnumeral hlow hhigh
  · intro h
    cases h with
    | @int core n hsurrounds hnumeral hlow hhigh =>
      rw [Text.surrounds_iff hnumeral.visible] at hsurrounds
      exact ⟨n, ⟨hsurrounds ▸ hnumeral, hlow, hhigh⟩, rfl⟩

/-- What does not stand for a value is a failure that names component and parameter. -/
theorem coerce_cases (component parameter : String) (kind : ParameterKind) (raw : String) :
    (∃ value, coerce component parameter kind raw = .ok value) ∨
      ∃ reason, coerce component parameter kind raw =
        .error (.coercion component parameter reason) := by
  cases hread : coerce component parameter kind raw with
  | ok value => exact .inl ⟨value, rfl⟩
  | error e =>
    obtain ⟨reason, rfl⟩ := eq_coercion_of_coerce hread
    exact .inr ⟨reason, rfl⟩

end Coercion
end LoggingFacade
