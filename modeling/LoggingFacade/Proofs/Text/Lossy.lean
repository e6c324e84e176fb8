import LoggingFacade.Text.Lines
import Mathlib.Data.List.Basic

/-!
# Lossy changes of characters

A change that keeps every ASCII character and turns no other one into anything
but itself or a question mark. It keeps ASCII texts, goes through the ways in
which texts are put together, and leaves every text with the same lines.
-/

namespace LoggingFacade
namespace Text

def IsAscii (c : Char) : Prop := c.toNat < 0x80

instance (c : Char) : Decidable (IsAscii c) := Nat.decLt c.toNat 0x80

def AsciiChars (cs : List Char) : Prop := ∀ c ∈ cs, IsAscii c

-- By the list, as the instance for all characters would try each of them.
instance (cs : List Char) : Decidable (AsciiChars cs) :=
  List.decidableBAll IsAscii cs

def AsciiText (s : String) : Prop := AsciiChars s.toList

instance (s : String) : Decidable (AsciiText s) :=
  inferInstanceAs (Decidable (AsciiChars s.toList))

def Lossy (f : Char → Char) : Prop := ∀ c, f c = c ∨ (¬IsAscii c ∧ f c = '?')

variable {f : Char → Char}

theorem Lossy.eq_of_isAscii (h : Lossy f) {c : Char} (hc : IsAscii c) : f c = c := by
  rcases h c with heq | ⟨hnot, -⟩
  · exact heq
  · exact absurd hc hnot

/-- No character becomes an ASCII character other than a question mark. -/
theorem Lossy.eq_iff (h : Lossy f) {c d : Char} (hd : IsAscii d) (hmark : d ≠ '?') :
    f c = d ↔ c = d := by
  constructor
  · intro heq
    rcases h c with hsame | ⟨-, hlost⟩
    · exact hsame.symm.trans heq
    · exact absurd (heq.symm.trans hlost) hmark
  · rintro rfl
    exact h.eq_of_isAscii hd

theorem Lossy.map_eq_of_isAscii (h : Lossy f) {cs : List Char} (hcs : AsciiChars cs) :
    cs.map f = cs := by
  rw [List.map_congr_left fun c hc => h.eq_of_isAscii (hcs c hc), List.map_id']

/-! ## Texts -/

theorem Lossy.map_ascii (h : Lossy f) {s : String} (hs : AsciiText s) : s.map f = s := by
  rw [← String.toList_inj, String.toList_map, h.map_eq_of_isAscii hs]

theorem map_append (f : Char → Char) (s t : String) : (s ++ t).map f = s.map f ++ t.map f := by
  simp [← String.toList_inj]

theorem map_join (f : Char → Char) (l : List String) :
    (String.join l).map f = String.join (l.map fun s => s.map f) := by
  induction l with
  | nil => simp
  | cons s l ih => rw [String.join_cons, map_append, ih, List.map_cons, String.join_cons]

theorem map_intercalate (f : Char → Char) (s : String) (l : List String) :
    (s.intercalate l).map f = (s.map f).intercalate (l.map fun t => t.map f) := by
  induction l with
  | nil => simp
  | cons t l ih =>
    cases l with
    | nil => simp
    | cons u l =>
      rw [String.intercalate_cons_cons, map_append, map_append, ih, List.map_cons, List.map_cons,
        List.map_cons, String.intercalate_cons_cons]

theorem isAscii_of_isDigit {c : Char} (h : c.isDigit = true) : IsAscii c := by
  simp only [Char.isDigit, Bool.and_eq_true, decide_eq_true_eq] at h
  have hle : c.val.toNat ≤ 57 := UInt32.le_iff_toNat_le.1 h.2
  change c.val.toNat < 128
  omega

theorem isDigit_of_mem_toString_nat {n : Nat} {c : Char} (h : c ∈ (toString n).toList) :
    c.isDigit = true := by
  have hdigits : (toString n).toList = Nat.toDigits 10 n := Nat.toList_repr
  rw [hdigits] at h
  exact Nat.isDigit_of_mem_toDigits (by decide) (by decide) h

theorem mem_toString_int {n : Int} {c : Char} (h : c ∈ (toString n).toList) :
    c = '-' ∨ c.isDigit = true := by
  cases n with
  | ofNat n => exact .inr (isDigit_of_mem_toString_nat h)
  | negSucc n =>
    have hsign : (toString (Int.negSucc n)).toList = '-' :: (toString (n + 1)).toList :=
      String.toList_append
    rw [hsign, List.mem_cons] at h
    exact h.imp_right isDigit_of_mem_toString_nat

theorem asciiText_toString_nat (n : Nat) : AsciiText (toString n) := fun _ hc =>
  isAscii_of_isDigit (isDigit_of_mem_toString_nat hc)

theorem asciiText_toString_int (n : Int) : AsciiText (toString n) := by
  intro c hc
  rcases mem_toString_int hc with rfl | hdigit
  · decide
  · exact isAscii_of_isDigit hdigit

/-! ## Lines -/

/-- Line ends are ASCII, so none is lost and none appears. -/
theorem splitLines_map (h : Lossy f) (cs : List Char) :
    splitLines (cs.map f) = (splitLines cs).map (List.map f) := by
  have hreturn : f '\r' = '\r' := h.eq_of_isAscii (by decide)
  have hfeed : f '\n' = '\n' := h.eq_of_isAscii (by decide)
  have hother : ∀ {c : Char} {rest : List Char},
      (∀ tail, c = '\r' → rest = '\n' :: tail → False) →
      ∀ tail, f c = '\r' → rest.map f = '\n' :: tail → False := by
    intro c rest hne tail hc hrest
    obtain ⟨d, more, rfl, hd, -⟩ := List.map_eq_cons_iff.1 hrest
    rw [h.eq_iff (by decide) (by decide)] at hc hd
    exact hne more hc (by rw [hd])
  fun_induction splitLines cs with
  | case1 => rfl
  | case2 rest ih => rw [List.map_cons, List.map_cons, hreturn, hfeed, splitLines, ih]; rfl
  | case3 rest ih => rw [List.map_cons, hfeed, splitLines, ih]; rfl
  | case4 c rest hpair hc hnil ih =>
    have hline : ¬f c = '\n' := fun heq => hc ((h.eq_iff (by decide) (by decide)).1 heq)
    rw [List.map_cons, splitLines.eq_4 _ _ (hother hpair) hline, ih, hnil]
    rfl
  | case5 c rest hpair hc line more hlines ih =>
    have hline : ¬f c = '\n' := fun heq => hc ((h.eq_iff (by decide) (by decide)).1 heq)
    rw [List.map_cons, splitLines.eq_4 _ _ (hother hpair) hline, ih, hlines]
    rfl

theorem lines_map (h : Lossy f) (s : String) :
    lines (s.map f) = (lines s).map fun line => line.map f := by
  rw [lines, lines, String.toList_map, splitLines_map h, List.map_map, List.map_map]
  refine List.map_congr_left fun line _ => ?_
  simp [← String.toList_inj]

end Text
end LoggingFacade
