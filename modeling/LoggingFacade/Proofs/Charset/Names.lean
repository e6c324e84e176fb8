import LoggingFacade.Charset
import LoggingFacade.Proofs.Text.Letter

/-!
# Names of charsets

Each charset is known by a few names, and no text but these names denotes one. The letters of a
name may be in any case, underscores may stand for its hyphens, and white space may be around
it.
-/

namespace LoggingFacade

namespace Text

/-- The text with hyphens for underscores. -/
def hyphened (s : String) : String :=
  .ofList (s.toList.map fun c => if c = '_' then '-' else c)

end Text

open Text (hyphened sameName trim)

namespace Charset

def names : Charset → List String
  | utf8 => ["UTF-8", "UTF8"]
  | utf16 => ["UTF-16", "UTF16"]
  | utf16be => ["UTF-16BE"]
  | utf16le => ["UTF-16LE"]
  | usAscii => ["US-ASCII", "ASCII"]
  | iso88591 => ["ISO-8859-1", "ISO8859-1", "LATIN1", "LATIN-1"]

def IsNamed (charset : Charset) (text : String) : Prop :=
  ∃ name ∈ charset.names, sameName (hyphened (trim text)) name = true

instance (charset : Charset) (text : String) : Decidable (charset.IsNamed text) :=
  inferInstanceAs (Decidable (∃ name ∈ charset.names, _))

/-- The charset that a text names. -/
def named? (text : String) : Option Charset :=
  [utf8, utf16, utf16be, utf16le, usAscii, iso88591].find? fun charset => charset.IsNamed text

/-! ## Reading a name -/

theorem toUpper_hyphen (c : Char) :
    (if c = '_' then '-' else c).toUpper = if c.toUpper = '_' then '-' else c.toUpper := by
  by_cases hc : c = '_'
  · subst hc
    rfl
  · have hupper : c.toUpper ≠ '_' := by
      intro h
      have hcode : c.toUpper.toNat = 95 := by rw [h]; rfl
      rw [Text.toNat_toUpper] at hcode
      have hline : c.toNat = 95 := by
        split at hcode <;> omega
      exact hc (Char.toNat_inj.1 hline)
    rw [if_neg hc, if_neg hupper]

theorem canonical_eq (text : String) : canonical text = Text.upper (hyphened (trim text)) := by
  rw [← String.toList_inj]
  simp [canonical, hyphened, toUpper_hyphen]

theorem upper_of_mem_names {charset : Charset} {name : String} (h : name ∈ charset.names) :
    Text.upper name = name := by
  revert name
  cases charset <;> decide

theorem canonical_eq_iff {charset : Charset} {name : String} (h : name ∈ charset.names)
    (text : String) : canonical text = name ↔ sameName (hyphened (trim text)) name = true := by
  rw [canonical_eq, Text.sameName_iff_upper, upper_of_mem_names h]

theorem isNamed_iff (charset : Charset) (text : String) :
    charset.IsNamed text ↔ canonical text ∈ charset.names := by
  constructor
  · rintro ⟨name, hname, hsame⟩
    rwa [(canonical_eq_iff hname text).2 hsame]
  · intro h
    exact ⟨_, h, (canonical_eq_iff h text).1 rfl⟩

theorem ofName_eq_ok_iff (text : String) (charset : Charset) :
    ofName text = .ok charset ↔ charset.IsNamed text := by
  rw [isNamed_iff, ofName]
  constructor
  · intro h
    split at h
    case h_13 => cases h
    all_goals
      rename_i hname
      cases h
      rw [hname]
      decide
  · generalize canonical text = name
    revert name
    cases charset <;> simp [names]

/-- A text that names no charset is refused, and shown as it was given. -/
theorem ofName_eq_error {text : String} (h : ∀ charset : Charset, ¬charset.IsNamed text) :
    ofName text = .error (.configuration ("Unsupported charset: " ++ text) []) := by
  cases hread : ofName text with
  | ok charset => exact absurd ((ofName_eq_ok_iff text charset).1 hread) (h charset)
  | error e =>
    rw [ofName] at hread
    split at hread
    case h_13 => exact hread.symm
    all_goals cases hread

theorem named?_eq_some_iff (text : String) (charset : Charset) :
    named? text = some charset ↔ charset.IsNamed text := by
  constructor
  · intro h
    simpa using List.find?_some h
  · intro h
    cases hfound : named? text with
    | none =>
      have hother := List.find?_eq_none.1 hfound charset (by cases charset <;> decide)
      exact absurd h (by simpa using hother)
    | some other =>
      have hnamed : other.IsNamed text := by simpa using List.find?_some hfound
      rw [← ofName_eq_ok_iff] at h hnamed
      rw [Except.ok.inj (hnamed.symm.trans h)]

theorem toOption_ofName (text : String) : (ofName text).toOption = named? text := by
  ext charset
  rw [named?_eq_some_iff, ← ofName_eq_ok_iff]
  cases ofName text <;> simp [Except.toOption]

/-- Spellings differ in case, hyphens and white space alone. -/
example : named? " utf_16le" = some utf16le ∧ named? "Latin1" = some iso88591 ∧
    named? "EBCDIC" = none := by
  decide

end Charset
end LoggingFacade
