import LoggingFacade.Document.Toml
import LoggingFacade.Document.Toml.Style
import Mathlib.Data.List.Basic
import Mathlib.Data.List.Infix
import Mathlib.Data.List.TakeWhile
import Mathlib.Tactic.SplitIfs

/-!
# Strings and keys that are read back

Whatever form a string is written in, it is read as the same string, and so is a
key. Escapes are the only backslashes in what is written; a run of quotes inside
a text of several lines never closes it, unless it stands at its end, where the
reader counts it to the text.
-/

namespace LoggingFacade
namespace Toml

open Number (naturalIn? characterOf?)

/-! ## Escapes -/

/-- A control character is written by the four digits of its code point. -/
theorem hexDigits_control : ∀ n : Fin 128, isControl (Char.ofNat n) = true →
    let digits := List.replicate (4 - (upperHex n).length) '0' ++ upperHex n
    digits.length = 4 ∧ naturalIn? 16 digits = some n.val ∧
      characterOf? n = some (Char.ofNat n) := by
  decide +kernel

/-- The characters behind the backslash stand for the character. -/
def EscapedAs (c : Char) (tail : List Char) : Prop :=
  (∀ e rest, escaped? e (tail ++ rest) = some (c, rest)) ∧
    ∀ rest, continuation? (tail ++ rest) = none

theorem escapedAs_hex {c : Char} (h : isControl c = true) :
    EscapedAs c ('u' :: (List.replicate (4 - (upperHex c.toNat).length) '0' ++
      upperHex c.toNat)) := by
  have hsmall : c.toNat < 128 := by
    simp only [isControl, Bool.or_eq_true, Bool.and_eq_true, decide_eq_true_eq,
      beq_iff_eq] at h
    omega
  have hcontrol : isControl (Char.ofNat c.toNat) = true := by rwa [Char.ofNat_toNat]
  obtain ⟨hlength, hvalue, hchar⟩ := hexDigits_control ⟨c.toNat, hsmall⟩ hcontrol
  rw [Char.ofNat_toNat] at hchar
  refine ⟨?_, fun _ => rfl⟩
  intro e rest
  match hdigits : List.replicate (4 - (upperHex c.toNat).length) '0' ++ upperHex c.toNat with
  | [a, b, d, f] =>
    rw [hdigits] at hvalue
    rw [List.cons_append, List.cons_append, List.cons_append, List.cons_append, List.cons_append,
      escaped?, hvalue]
    simp [hchar]
  | [] | [_] | [_, _] | [_, _, _] | _ :: _ :: _ :: _ :: _ :: _ => simp [hdigits] at hlength

/-- A character is written as it is, or behind a backslash. -/
theorem escapeChar_cases (c : Char) :
    escapeChar c = [c] ∧ isControl c = false ∧ c ≠ '"' ∧ c ≠ '\\' ∨
      ∃ tail, escapeChar c = '\\' :: tail ∧ EscapedAs c tail := by
  rw [escapeChar]
  simp only [beq_iff_eq]
  split_ifs with hb ht hn hf hr hquote hbackslash hcontrol
  · subst hb
    exact .inr ⟨['b'], rfl, fun _ _ => rfl, fun _ => rfl⟩
  · subst ht
    exact .inr ⟨['t'], rfl, fun _ _ => rfl, fun _ => rfl⟩
  · subst hn
    exact .inr ⟨['n'], rfl, fun _ _ => rfl, fun _ => rfl⟩
  · subst hf
    exact .inr ⟨['f'], rfl, fun _ _ => rfl, fun _ => rfl⟩
  · subst hr
    exact .inr ⟨['r'], rfl, fun _ _ => rfl, fun _ => rfl⟩
  · subst hquote
    exact .inr ⟨['"'], rfl, fun _ _ => rfl, fun _ => rfl⟩
  · subst hbackslash
    exact .inr ⟨['\\'], rfl, fun _ _ => rfl, fun _ => rfl⟩
  · exact .inr ⟨_, rfl, escapedAs_hex hcontrol⟩
  · exact .inl ⟨rfl, by simpa using hcontrol, hquote, hbackslash⟩

/-! ## Text on one line -/

theorem basic?_escape (e : Edition) (cs rest : List Char) {fuel : Nat} (h : cs.length < fuel) :
    basic? e fuel (cs.flatMap escapeChar ++ '"' :: rest) = some (cs, rest) := by
  induction cs generalizing fuel with
  | nil =>
    cases fuel with
    | zero => contradiction
    | succ fuel => rfl
  | cons c cs ih =>
    cases fuel with
    | zero => contradiction
    | succ fuel =>
      have hrest := ih (Nat.lt_of_succ_lt_succ h)
      rw [List.flatMap_cons, List.append_assoc]
      obtain ⟨hplain, hcontrol, hquote, hbackslash⟩ | ⟨tail, hescape, hread, -⟩ :=
        escapeChar_cases c
      · rw [hplain, List.singleton_append, basic?, hrest]
        · simp [hcontrol, consed]
        · simpa using hquote
        · simpa using hbackslash
      · rw [hescape, List.cons_append, basic?, hread]
        simp [hrest, consed]

theorem literal?_append (cs rest : List Char) (h : ∀ c ∈ cs, isControl c = false ∧ c ≠ '\'') :
    literal? (cs ++ '\'' :: rest) = some (cs, rest) := by
  induction cs with
  | nil => rfl
  | cons c cs ih =>
    obtain ⟨hcontrol, hquote⟩ := h c List.mem_cons_self
    rw [List.cons_append, literal?, ih fun d hd => h d (List.mem_cons_of_mem _ hd)]
    · simp [hcontrol, consed]
    · simpa using hquote

/-! ## Text on several lines -/

theorem closing?_of_quotes {quote : Char} {run rest : List Char} (hrun : ∀ c ∈ run, c = quote)
    (hlength : run.length ≤ 2) (hrest : rest.head? ≠ some quote) :
    closing? quote (run ++ quote :: quote :: quote :: rest) = some (run, rest) := by
  have hextra : ∀ n, (rest.take n).takeWhile (· == quote) = [] := by
    intro n
    cases rest with
    | nil => rw [List.take_nil, List.takeWhile_nil]
    | cons c rest =>
      have hc : c ≠ quote := by simpa using hrest
      cases n with
      | zero => rfl
      | succ n => rw [List.take_succ_cons, List.takeWhile_cons_of_neg (by simpa using hc)]
  match run with
  | [] => simp [closing?, hextra]
  | [a] =>
    obtain rfl := hrun a (by simp)
    simp [closing?, hextra]
  | [a, b] =>
    obtain rfl := hrun a (by simp)
    obtain rfl := hrun b (by simp)
    simp [closing?]
  | _ :: _ :: _ :: _ => simp at hlength

/-- Three quotes close a text only if nothing else stands among them. -/
theorem closing?_append {quote d : Char} {run : List Char} (hd : d ≠ quote)
    (hrun : run.length ≤ 2) (tail : List Char) (htail : 2 ≤ tail.length) :
    closing? quote (run ++ d :: tail) = none := by
  match run, tail with
  | [], a :: b :: tail => simp [closing?, hd]
  | [a], b :: tail => simp [closing?, hd]
  | [a, b], tail => simp [closing?, hd]
  | _ :: _ :: _ :: _, _ => simp at hrun
  | [], [] | [], [_] | [_], [] => simp at htail

theorem innerNewline?_of_ne (e : Edition) {c : Char} (hfeed : c ≠ '\n') (hreturn : c ≠ '\r')
    (rest : List Char) : innerNewline? e (c :: rest) = none := by
  rw [innerNewline?]
  · simpa using hfeed
  · simp [hreturn]

theorem ne_lineEnd_of_not_control {c : Char} (h : isControl c = false) : c ≠ '\n' ∧ c ≠ '\r' := by
  constructor
  · rintro rfl
    contradiction
  · rintro rfl
    contradiction

theorem escapeLines_of_ne {c : Char} (hfeed : c ≠ '\n') (hquote : c ≠ '"') (quotes : Nat)
    (cs : List Char) : escapeLines quotes (c :: cs) = escapeChar c ++ escapeLines 0 cs := by
  rw [escapeLines]
  · simpa using hfeed
  · simpa using hquote

/-- The raw quotes in front of what is written on several lines: that is all, or
something else follows. -/
theorem escapeLines_cases (cs : List Char) {quotes : Nat} (h : quotes ≤ 2) :
    ((∀ c ∈ cs, c = '"') ∧ quotes + cs.length ≤ 2 ∧ escapeLines quotes cs = cs) ∨
      ∃ run d tail, quotes + run.length ≤ 2 ∧ d ≠ '"' ∧
        escapeLines quotes cs = run ++ d :: tail := by
  induction cs generalizing quotes with
  | nil => exact .inl ⟨nofun, h, rfl⟩
  | cons c cs ih =>
    by_cases hfeed : c = '\n'
    · subst hfeed
      exact .inr ⟨[], '\n', _, h, by decide, rfl⟩
    by_cases hquote : c = '"'
    · subst hquote
      rw [escapeLines]
      by_cases hroom : quotes < 2
      · rw [if_pos hroom]
        obtain ⟨hall, hlength, hsame⟩ | ⟨run, d, tail, hlength, hd, hwritten⟩ := ih hroom
        · refine .inl ⟨List.forall_mem_cons.2 ⟨rfl, hall⟩, ?_, by rw [hsame]⟩
          rw [List.length_cons]
          omega
        · refine .inr ⟨'"' :: run, d, tail, ?_, hd, by rw [hwritten, List.cons_append]⟩
          rw [List.length_cons]
          omega
      · rw [if_neg hroom]
        exact .inr ⟨[], '\\', _, h, by decide, rfl⟩
    · rw [escapeLines_of_ne hfeed hquote]
      obtain ⟨hplain, -⟩ | ⟨tail, hescape, -⟩ := escapeChar_cases c
      · rw [hplain]
        exact .inr ⟨[], c, _, h, hquote, rfl⟩
      · rw [hescape]
        exact .inr ⟨[], '\\', _, h, by decide, rfl⟩

section MultilineBasic

variable (e : Edition) {fuel : Nat} {rest : List Char}

theorem multilineBasic?_closed {cs content : List Char}
    (h : closing? '"' cs = some (content, rest)) :
    multilineBasic? e (fuel + 1) cs = some (content, rest) := by
  rw [multilineBasic?.eq_def e (fuel + 1)]
  simp only
  rw [h]

theorem multilineBasic?_feed : multilineBasic? e (fuel + 1) ('\n' :: rest) =
    (multilineBasic? e fuel rest).map (consed '\n') := by
  have hopen : closing? '"' ('\n' :: rest) = none := by
    rw [closing?.eq_def]
    split
    · rename_i heq
      obtain ⟨rfl, -⟩ := List.cons.inj heq
      rfl
    · rfl
  rw [multilineBasic?.eq_def e (fuel + 1)]
  simp only
  rw [hopen]
  rfl

theorem multilineBasic?_plain {c : Char} (hopen : closing? '"' (c :: rest) = none)
    (hcontrol : isControl c = false) (hbackslash : c ≠ '\\') :
    multilineBasic? e (fuel + 1) (c :: rest) = (multilineBasic? e fuel rest).map (consed c) := by
  obtain ⟨hfeed, hreturn⟩ := ne_lineEnd_of_not_control hcontrol
  rw [multilineBasic?.eq_def e (fuel + 1)]
  simp only
  rw [hopen, innerNewline?_of_ne e hfeed hreturn]
  simp [hcontrol]

theorem multilineBasic?_escaped {c : Char} {tail : List Char} (h : EscapedAs c tail) :
    multilineBasic? e (fuel + 1) ('\\' :: tail ++ rest) =
      (multilineBasic? e fuel rest).map (consed c) := by
  have hopen : closing? '"' ('\\' :: tail ++ rest) = none := by
    rw [List.cons_append, closing?.eq_def]
    split
    · rename_i heq
      obtain ⟨rfl, -⟩ := List.cons.inj heq
      rfl
    · rfl
  rw [multilineBasic?.eq_def e (fuel + 1)]
  simp only
  rw [hopen, List.cons_append, innerNewline?_of_ne e (by decide) (by decide)]
  simp only [h.2, h.1, Option.bind_eq_bind, Option.bind_some]
  cases multilineBasic? e fuel rest <;> rfl

/-- Unless the text closes here, its first character is read from what is written
for it. -/
theorem multilineBasic?_step (c : Char) (cs : List Char) {quotes : Nat}
    (hopen : closing? '"' (escapeLines quotes (c :: cs) ++ rest) = none) :
    ∃ next ≤ 2, multilineBasic? e (fuel + 1) (escapeLines quotes (c :: cs) ++ rest) =
      (multilineBasic? e fuel (escapeLines next cs ++ rest)).map (consed c) := by
  by_cases hfeed : c = '\n'
  · subst hfeed
    exact ⟨0, Nat.zero_le 2, multilineBasic?_feed e⟩
  by_cases hquote : c = '"'
  · subst hquote
    rw [escapeLines] at hopen ⊢
    by_cases hroom : quotes < 2
    · rw [if_pos hroom] at hopen ⊢
      exact ⟨quotes + 1, hroom, multilineBasic?_plain e hopen rfl (by decide)⟩
    · have hescaped : EscapedAs '"' ['"'] := ⟨fun _ _ => rfl, fun _ => rfl⟩
      rw [if_neg hroom]
      exact ⟨0, Nat.zero_le 2, multilineBasic?_escaped e hescaped⟩
  · rw [escapeLines_of_ne hfeed hquote, List.append_assoc] at hopen ⊢
    refine ⟨0, Nat.zero_le 2, ?_⟩
    obtain ⟨hplain, hcontrol, -, hbackslash⟩ | ⟨tail, hescape, hescaped⟩ := escapeChar_cases c
    · rw [hplain, List.singleton_append] at hopen ⊢
      exact multilineBasic?_plain e hopen hcontrol hbackslash
    · rw [hescape]
      exact multilineBasic?_escaped e hescaped

theorem multilineBasic?_escapeLines (cs : List Char) {quotes : Nat} (hquotes : quotes ≤ 2)
    (h : cs.length < fuel) (hrest : rest.head? ≠ some '"') :
    multilineBasic? e fuel (escapeLines quotes cs ++ '"' :: '"' :: '"' :: rest) =
      some (cs, rest) := by
  induction cs generalizing quotes fuel with
  | nil =>
    cases fuel with
    | zero => contradiction
    | succ fuel => exact multilineBasic?_closed e (closing?_of_quotes nofun (Nat.zero_le 2) hrest)
  | cons c cs ih =>
    cases fuel with
    | zero => contradiction
    | succ fuel =>
      obtain ⟨hall, hlength, hsame⟩ | ⟨run, d, tail, hlength, hd, hwritten⟩ :=
        escapeLines_cases (c :: cs) hquotes
      · rw [hsame]
        exact multilineBasic?_closed e (closing?_of_quotes hall (by omega) hrest)
      · have hopen : closing? '"' (escapeLines quotes (c :: cs) ++ '"' :: '"' :: '"' :: rest) =
            none := by
          rw [hwritten, List.append_assoc, List.cons_append]
          refine closing?_append hd (by omega) _ ?_
          simp only [List.length_append, List.length_cons]
          omega
        obtain ⟨next, hnext, hstep⟩ := multilineBasic?_step e c cs hopen
        rw [hstep, ih hnext (Nat.lt_of_succ_lt_succ h)]
        rfl

end MultilineBasic

/-! ## Runs of quotes -/

theorem le_longestRun_go (quote : Char) (longest run : Nat) (cs : List Char) :
    max longest run ≤ longestRun.go quote longest run cs := by
  induction cs generalizing longest run with
  | nil => exact Nat.le_refl _
  | cons c cs ih =>
    rw [longestRun.go]
    split
    · have := ih longest (run + 1)
      omega
    · have := ih (max longest run) 0
      omega

theorem le_longestRun_go_replicate (quote : Char) (n longest run : Nat) (back : List Char) :
    run + n ≤ longestRun.go quote longest run (List.replicate n quote ++ back) := by
  induction n generalizing run with
  | zero =>
    have := le_longestRun_go quote longest run back
    rw [List.replicate_zero, List.nil_append]
    omega
  | succ n ih =>
    have := ih (run + 1)
    rw [List.replicate_succ, List.cons_append, longestRun.go, if_pos (beq_self_eq_true quote)]
    omega

/-- So many quotes in a row are noticed wherever they stand. -/
theorem le_longestRun_of_run {quote : Char} {n : Nat} {cs : List Char}
    (h : List.replicate n quote <:+: cs) : n ≤ longestRun quote cs := by
  obtain ⟨front, back, rfl⟩ := h
  have hgo : ∀ longest run,
      n ≤ longestRun.go quote longest run (front ++ (List.replicate n quote ++ back)) := by
    induction front with
    | nil =>
      intro longest run
      have := le_longestRun_go_replicate quote n longest run back
      rw [List.nil_append]
      omega
    | cons c front ih =>
      intro longest run
      rw [List.cons_append, longestRun.go]
      split
      · exact ih _ _
      · exact ih _ _
  rw [List.append_assoc]
  exact hgo 0 0

theorem not_mem_of_longestRun {quote : Char} {cs : List Char} (h : longestRun quote cs = 0) :
    quote ∉ cs := by
  intro hmem
  obtain ⟨front, back, hsplit⟩ := List.append_of_mem hmem
  have hrun : List.replicate 1 quote <:+: cs := ⟨front, back, by simp [hsplit]⟩
  have := le_longestRun_of_run hrun
  omega

/-- The raw quotes in front of literal text without three of them in a row. -/
theorem literal_cases {quote : Char} {cs : List Char} (h : ¬List.replicate 3 quote <:+: cs) :
    ((∀ c ∈ cs, c = quote) ∧ cs.length ≤ 2) ∨
      ∃ run d tail, run.length ≤ 2 ∧ d ≠ quote ∧ cs = run ++ d :: tail := by
  have hall : ∀ c ∈ cs.takeWhile (· == quote), c = quote := by
    intro c hc
    simpa using List.mem_takeWhile_imp hc
  have hlength : (cs.takeWhile (· == quote)).length ≤ 2 := by
    by_contra hlong
    have htake : (cs.takeWhile (· == quote)).take 3 = List.replicate 3 quote := by
      rw [List.eq_replicate_of_mem hall, List.take_replicate, Nat.min_eq_left (by omega)]
    refine h (htake ▸ ?_)
    exact ((List.take_prefix _ _).trans (List.takeWhile_prefix _)).isInfix
  have hsplit : cs.takeWhile (· == quote) ++ cs.dropWhile (· == quote) = cs :=
    List.takeWhile_append_dropWhile
  cases hrest : cs.dropWhile (· == quote) with
  | nil =>
    rw [hrest, List.append_nil] at hsplit
    rw [hsplit] at hall hlength
    exact .inl ⟨hall, hlength⟩
  | cons d tail =>
    rw [hrest] at hsplit
    have hd : d ≠ quote := by
      have := List.head?_dropWhile_not (· == quote) cs
      simpa [hrest] using this
    exact .inr ⟨_, d, tail, hlength, hd, hsplit.symm⟩

theorem not_control_of_plain {c : Char} (h : needsEscape c = false) (hfeed : c ≠ '\n') :
    isControl c = false := by
  rw [needsEscape, Bool.and_eq_false_iff] at h
  simpa [hfeed] using h

section MultilineLiteral

variable (e : Edition) {fuel : Nat} {rest : List Char}

theorem multilineLiteral?_closed {cs content : List Char}
    (h : closing? '\'' cs = some (content, rest)) :
    multilineLiteral? e (fuel + 1) cs = some (content, rest) := by
  rw [multilineLiteral?.eq_def e (fuel + 1)]
  simp only
  rw [h]

theorem multilineLiteral?_step {c : Char} (hopen : closing? '\'' (c :: rest) = none)
    (hplain : needsEscape c = false) : multilineLiteral? e (fuel + 1) (c :: rest) =
      (multilineLiteral? e fuel rest).map (consed c) := by
  rw [multilineLiteral?.eq_def e (fuel + 1)]
  simp only
  rw [hopen]
  by_cases hfeed : c = '\n'
  · subst hfeed
    rfl
  · have hcontrol := not_control_of_plain hplain hfeed
    rw [innerNewline?_of_ne e hfeed (ne_lineEnd_of_not_control hcontrol).2]
    simp [hcontrol]

theorem multilineLiteral?_append {cs : List Char} (h : cs.length < fuel)
    (hplain : ∀ c ∈ cs, needsEscape c = false) (hruns : ¬List.replicate 3 '\'' <:+: cs)
    (hrest : rest.head? ≠ some '\'') :
    multilineLiteral? e fuel (cs ++ '\'' :: '\'' :: '\'' :: rest) = some (cs, rest) := by
  induction cs generalizing fuel with
  | nil =>
    cases fuel with
    | zero => exact absurd h (Nat.not_lt_zero _)
    | succ fuel =>
      exact multilineLiteral?_closed e (closing?_of_quotes nofun (Nat.zero_le 2) hrest)
  | cons c cs ih =>
    cases fuel with
    | zero => contradiction
    | succ fuel =>
      rw [List.forall_mem_cons] at hplain
      have htail : ¬List.replicate 3 '\'' <:+: cs :=
        fun hrun => hruns (hrun.trans (List.suffix_cons c cs).isInfix)
      obtain ⟨hall, hlength⟩ | ⟨run, d, tail, hlength, hd, hsplit⟩ := literal_cases hruns
      · exact multilineLiteral?_closed e (closing?_of_quotes hall hlength hrest)
      · have hopen : closing? '\'' (c :: cs ++ '\'' :: '\'' :: '\'' :: rest) = none := by
          rw [hsplit, List.append_assoc, List.cons_append]
          refine closing?_append hd hlength _ ?_
          simp only [List.length_append, List.length_cons]
          omega
        rw [List.cons_append] at hopen ⊢
        rw [multilineLiteral?_step e hopen hplain.1,
          ih (Nat.lt_of_succ_lt_succ h) hplain.2 htail]
        rfl

end MultilineLiteral

/-! ## Strings -/

/-- No quote stands at the start of the text. -/
def Unquoted (cs : List Char) : Prop := cs.head? ≠ some '"' ∧ cs.head? ≠ some '\''

namespace StringForm

/-- The form can hold the text. -/
def Holds : StringForm → List Char → Prop
  | basic, _ => True
  | literal, cs => ∀ c ∈ cs, isControl c = false ∧ c ≠ '\''
  | multilineBasic, _ => True
  | multilineLiteral, cs =>
    (∀ c ∈ cs, needsEscape c = false) ∧ ¬List.replicate 3 '\'' <:+: cs

theorem holds_formOf (multiline : Bool) (cs : List Char) : (formOf multiline cs).Holds cs := by
  rw [formOf]
  split
  · trivial
  · split
    · rename_i h
      have hfits : (∀ c ∈ cs, needsEscape c = false) ∧ longestRun '\'' cs = 0 ∧ '\n' ∉ cs := by
        simpa [and_assoc] using h
      obtain ⟨hplain, hquotes, hfeed⟩ := hfits
      intro c hc
      refine ⟨?_, ?_⟩
      · exact not_control_of_plain (hplain c hc) fun heq => hfeed (heq ▸ hc)
      · rintro rfl
        exact not_mem_of_longestRun hquotes hc
    · split
      · trivial
      · split
        · rename_i h
          have hfits : multiline = true ∧ (∀ c ∈ cs, needsEscape c = false) ∧
              longestRun '\'' cs ≤ 2 := by
            simpa [and_assoc] using h
          obtain ⟨-, hplain, hquotes⟩ := hfits
          exact ⟨hplain, fun hrun => absurd (le_longestRun_of_run hrun) (by omega)⟩
        · split <;> trivial

end StringForm

theorem length_escapeChar_pos (c : Char) : 1 ≤ (escapeChar c).length := by
  obtain ⟨hplain, -⟩ | ⟨tail, hescape, -⟩ := escapeChar_cases c
  · rw [hplain, List.length_singleton]
  · rw [hescape, List.length_cons]
    omega

theorem length_le_escape (cs : List Char) : cs.length ≤ (cs.flatMap escapeChar).length := by
  induction cs with
  | nil => exact Nat.le_refl _
  | cons c cs ih =>
    have hc := length_escapeChar_pos c
    rw [List.flatMap_cons, List.length_append, List.length_cons]
    omega

theorem length_le_escapeLines (quotes : Nat) (cs : List Char) :
    cs.length ≤ (escapeLines quotes cs).length := by
  fun_induction escapeLines quotes cs with
  | case1 => exact Nat.le_refl _
  | case2 quotes cs ih => exact Nat.succ_le_succ ih
  | case3 quotes cs hroom ih => exact Nat.succ_le_succ ih
  | case4 quotes cs hroom ih =>
    rw [List.length_cons, List.length_cons, List.length_cons]
    omega
  | case5 quotes c cs hfeed hquote ih =>
    have hc := length_escapeChar_pos c
    rw [List.length_append, List.length_cons]
    omega

/-- What is escaped does not start with a quote. -/
theorem escape_append_ne (cs rest : List Char) (hrest : rest.head? ≠ some '"')
    (more : List Char) : cs.flatMap escapeChar ++ '"' :: rest ≠ '"' :: '"' :: more := by
  cases cs with
  | nil =>
    rintro heq
    obtain rfl : rest = '"' :: more := (List.cons.inj heq).2
    exact hrest rfl
  | cons c cs =>
    rw [List.flatMap_cons, List.append_assoc]
    obtain ⟨hplain, -, hquote, -⟩ | ⟨tail, hescape, -⟩ := escapeChar_cases c
    · rw [hplain, List.singleton_append]
      exact fun heq => hquote (List.cons.inj heq).1
    · rw [hescape, List.cons_append]
      exact fun heq => absurd (List.cons.inj heq).1 (by decide)

theorem literal_append_ne {cs rest : List Char} (hcs : ∀ c ∈ cs, c ≠ '\'')
    (hrest : rest.head? ≠ some '\'') (more : List Char) :
    cs ++ '\'' :: rest ≠ '\'' :: '\'' :: more := by
  cases cs with
  | nil =>
    rintro heq
    obtain rfl : rest = '\'' :: more := (List.cons.inj heq).2
    exact hrest rfl
  | cons c cs => exact fun heq => hcs c List.mem_cons_self (List.cons.inj heq).1

theorem string?_basic (e : Edition) {cs : List Char} (h : ∀ more, cs ≠ '"' :: '"' :: more) :
    string? e ('"' :: cs) = basic? e (cs.length + 1) cs := by
  rw [string?]
  exact h

theorem string?_literal (e : Edition) {cs : List Char} (h : ∀ more, cs ≠ '\'' :: '\'' :: more) :
    string? e ('\'' :: cs) = literal? cs := by
  rw [string?]
  exact h

/-- A line end that was put in front is skipped, and no other. -/
theorem skipFirstNewline_opening {cs content : List Char}
    (h : '\n' ∉ cs → newline? content = none) :
    skipFirstNewline ((if cs.contains '\n' then ['\n'] else []) ++ content) = content := by
  split
  · rfl
  · rename_i hfeed
    have hnone := h (by simpa using hfeed)
    rw [List.nil_append, skipFirstNewline, hnone]
    rfl

theorem newline?_of_ne {c : Char} (hfeed : c ≠ '\n') (hreturn : c ≠ '\r') (rest : List Char) :
    newline? (c :: rest) = none := by
  rw [newline?]
  · simpa using hfeed
  · simp [hreturn]

theorem newline?_escapeLines {cs : List Char} (h : '\n' ∉ cs) (rest : List Char) :
    newline? (escapeLines 0 cs ++ '"' :: rest) = none := by
  cases cs with
  | nil => rfl
  | cons c cs =>
    have hfeed : c ≠ '\n' := fun heq => h (heq ▸ List.mem_cons_self)
    by_cases hquote : c = '"'
    · subst hquote
      rfl
    · rw [escapeLines_of_ne hfeed hquote]
      obtain ⟨hplain, hcontrol, -⟩ | ⟨tail, hescape, -⟩ := escapeChar_cases c
      · rw [hplain]
        exact newline?_of_ne hfeed (ne_lineEnd_of_not_control hcontrol).2 _
      · rw [hescape]
        rfl

theorem newline?_literal {cs : List Char} (hplain : ∀ c ∈ cs, needsEscape c = false)
    (h : '\n' ∉ cs) (rest : List Char) : newline? (cs ++ '\'' :: rest) = none := by
  cases cs with
  | nil => rfl
  | cons c cs =>
    have hfeed : c ≠ '\n' := fun heq => h (heq ▸ List.mem_cons_self)
    have hcontrol := not_control_of_plain (hplain c List.mem_cons_self) hfeed
    exact newline?_of_ne hfeed (ne_lineEnd_of_not_control hcontrol).2 _

section Written

variable (cs rest : List Char)

theorem written_basic : (written .basic cs).toList ++ rest =
    '"' :: (cs.flatMap escapeChar ++ '"' :: rest) := by
  simp [written, StringForm.delimiter, StringForm.isMultiline, content]

theorem written_literal : (written .literal cs).toList ++ rest = '\'' :: (cs ++ '\'' :: rest) := by
  simp [written, StringForm.delimiter, StringForm.isMultiline, content]

theorem written_multilineBasic : (written .multilineBasic cs).toList ++ rest =
    '"' :: '"' :: '"' :: ((if cs.contains '\n' then ['\n'] else []) ++
      (escapeLines 0 cs ++ '"' :: '"' :: '"' :: rest)) := by
  by_cases hfeed : '\n' ∈ cs <;>
    simp [written, StringForm.delimiter, StringForm.isMultiline, content, hfeed]

theorem written_multilineLiteral : (written .multilineLiteral cs).toList ++ rest =
    '\'' :: '\'' :: '\'' :: ((if cs.contains '\n' then ['\n'] else []) ++
      (cs ++ '\'' :: '\'' :: '\'' :: rest)) := by
  by_cases hfeed : '\n' ∈ cs <;>
    simp [written, StringForm.delimiter, StringForm.isMultiline, content, hfeed]

end Written

/-- A string of any form is read back. -/
theorem string?_written (e : Edition) {form : StringForm} {cs rest : List Char}
    (hform : form.Holds cs) (hrest : Unquoted rest) :
    string? e ((written form cs).toList ++ rest) = some (cs, rest) := by
  cases form with
  | basic =>
    have hlength := length_le_escape cs
    rw [written_basic, string?_basic e (escape_append_ne cs rest hrest.1)]
    refine basic?_escape e cs rest ?_
    rw [List.length_append]
    omega
  | literal =>
    rw [written_literal, string?_literal e (literal_append_ne (fun c hc => (hform c hc).2) hrest.2)]
    exact literal?_append cs rest hform
  | multilineBasic =>
    have hlength := length_le_escapeLines 0 cs
    rw [written_multilineBasic, string?, skipFirstNewline_opening fun h => newline?_escapeLines h _]
    refine multilineBasic?_escapeLines e cs (Nat.zero_le 2) ?_ hrest.1
    rw [List.length_append, List.length_append]
    omega
  | multilineLiteral =>
    obtain ⟨hplain, hruns⟩ := hform
    rw [written_multilineLiteral, string?,
      skipFirstNewline_opening fun h => newline?_literal hplain h _]
    refine multilineLiteral?_append e ?_ hplain hruns hrest.2
    rw [List.length_append, List.length_append]
    omega

/-- A string is read back. -/
theorem string?_stringText (e : Edition) (s : String) {rest : List Char} (hrest : Unquoted rest) :
    string? e ((stringText s).toList ++ rest) = some (s.toList, rest) :=
  string?_written e (StringForm.holds_formOf true s.toList) hrest

/-! ## Keys -/

theorem formOf_false (cs : List Char) : formOf false cs = .basic ∨ formOf false cs = .literal := by
  rw [formOf]
  simp only [Bool.false_and, Bool.false_eq_true, if_false]
  split
  · exact .inl rfl
  · split
    · exact .inr rfl
    · exact .inl rfl

theorem bareKey_of_isBareKey {cs : List Char} (h : isBareKey cs = true) :
    cs ≠ [] ∧ ∀ c ∈ cs, isBareKeyChar c = true := by
  rw [isBareKey, Bool.and_eq_true] at h
  refine ⟨by simpa using h.1, ?_⟩
  exact List.all_eq_true.1 h.2

theorem simpleKey?_bare (e : Edition) {cs rest : List Char} (hcs : cs ≠ [])
    (hbare : ∀ c ∈ cs, isBareKeyChar c = true)
    (hrest : ∀ c, rest.head? = some c → isBareKeyChar c = false) :
    simpleKey? e (cs ++ rest) = some (.ofList cs, rest) := by
  obtain ⟨c, tail, rfl⟩ := List.exists_cons_of_ne_nil hcs
  have hc := hbare c List.mem_cons_self
  have hstop : rest.takeWhile isBareKeyChar = [] ∧ rest.dropWhile isBareKeyChar = rest := by
    cases rest with
    | nil => exact ⟨rfl, rfl⟩
    | cons d rest =>
      have hd := hrest d rfl
      exact ⟨List.takeWhile_cons_of_neg (by simp [hd]), List.dropWhile_cons_of_neg (by simp [hd])⟩
  have htake : (c :: tail ++ rest).takeWhile isBareKeyChar = c :: tail := by
    rw [List.takeWhile_append_of_pos hbare, hstop.1, List.append_nil]
  have hdrop : (c :: tail ++ rest).dropWhile isBareKeyChar = rest := by
    rw [List.dropWhile_append_of_pos hbare, hstop.2]
  rw [List.cons_append] at htake hdrop ⊢
  rw [simpleKey?]
  · simp only [htake, hdrop]
  · intro _ heq
    rw [(List.cons.inj heq).1] at hc
    contradiction
  · intro _ heq
    rw [(List.cons.inj heq).1] at hc
    contradiction

/-- A key is read back, bare or as a string. -/
theorem simpleKey?_keyText (e : Edition) (key : String) {rest : List Char}
    (hrest : ∀ c, rest.head? = some c → isBareKeyChar c = false) :
    simpleKey? e ((keyText key).toList ++ rest) = some (key, rest) := by
  rw [keyText]
  split
  · rename_i hbare
    obtain ⟨hne, hall⟩ := bareKey_of_isBareKey hbare
    rw [simpleKey?_bare e hne hall hrest, String.ofList_toList]
  · have hholds := StringForm.holds_formOf false key.toList
    obtain hform | hform := formOf_false key.toList
    · have hlength := length_le_escape key.toList
      rw [hform, written_basic, simpleKey?, basic?_escape]
      · simp only [Option.map_some, String.ofList_toList]
      · rw [List.length_append]
        omega
    · rw [hform] at hholds
      rw [hform, written_literal, simpleKey?, literal?_append _ _ hholds]
      simp only [Option.map_some, String.ofList_toList]

end Toml
end LoggingFacade
