import LoggingFacade.Document.Toml.Printer
import LoggingFacade.Proofs.Toml.Quoted

/-!
# Lines that are read back

The lines of a document without tables in its lists: a key with its value, and
the headers of tables. What a line is written as is read as its key and value,
whatever follows on the next lines.
-/

namespace LoggingFacade
namespace Toml

/-! ## Starts of keys and values -/

/-- What is written of a string starts with a quote. -/
theorem exists_quote (form : StringForm) (cs : List Char) :
    ∃ quote more, (written form cs).toList = quote :: more ∧ (quote = '"' ∨ quote = '\'') := by
  have htext : ∃ text : String, written form cs = form.delimiter ++ text :=
    ⟨_, by rw [written, String.append_assoc, String.append_assoc]⟩
  obtain ⟨text, htext⟩ := htext
  rw [htext, String.toList_append]
  cases form with
  | basic => exact ⟨'"', _, rfl, .inl rfl⟩
  | literal => exact ⟨'\'', _, rfl, .inr rfl⟩
  | multilineBasic => exact ⟨'"', _, rfl, .inl rfl⟩
  | multilineLiteral => exact ⟨'\'', _, rfl, .inr rfl⟩

/-- A character that a key may start with. -/
def StartsKey (c : Char) : Prop := isBareKeyChar c = true ∨ c = '"' ∨ c = '\''

theorem exists_keyStart (key : String) :
    ∃ c more, (keyText key).toList = c :: more ∧ StartsKey c := by
  rw [keyText]
  split
  · rename_i hbare
    obtain ⟨hne, hall⟩ := bareKey_of_isBareKey hbare
    obtain ⟨c, more, hkey⟩ := List.exists_cons_of_ne_nil hne
    exact ⟨c, more, hkey, .inl (hall c (by simp [hkey]))⟩
  · obtain ⟨quote, more, htext, hquote⟩ := exists_quote (formOf false key.toList) key.toList
    exact ⟨quote, more, htext, .inr hquote⟩

theorem StartsKey.visible {c : Char} (h : StartsKey c) :
    isBlank c = false ∧ c ≠ '[' ∧ c ≠ '#' ∧ c ≠ '\n' ∧ c ≠ '\r' := by
  have hne : ∀ d, isBareKeyChar d = false → d ≠ '"' → d ≠ '\'' → c ≠ d := by
    rintro d hbare hdouble hsingle rfl
    rcases h with h | h | h
    · rw [h] at hbare
      contradiction
    · exact hdouble h
    · exact hsingle h
  have hblank : c ≠ ' ' ∧ c ≠ '\t' :=
    ⟨hne _ (by decide) (by decide) (by decide), hne _ (by decide) (by decide) (by decide)⟩
  refine ⟨?_, ?_, ?_, ?_, ?_⟩
  · simp [isBlank, hblank]
  all_goals exact hne _ (by decide) (by decide) (by decide)

theorem skipBlank_of_visible {c : Char} (h : isBlank c = false) (rest : List Char) :
    skipBlank (c :: rest) = c :: rest :=
  List.dropWhile_cons_of_neg (by simp [h])

/-! ## Keys -/

theorem skipBlank_keyText (key : String) (rest : List Char) :
    skipBlank ((keyText key).toList ++ rest) = (keyText key).toList ++ rest := by
  obtain ⟨c, more, htext, hstart⟩ := exists_keyStart key
  rw [htext]
  exact skipBlank_of_visible hstart.visible.1 _

theorem pathText_singleton (key : String) : pathText [key] = keyText key := by
  rw [pathText, List.map_singleton, String.intercalate_singleton]

theorem pathText_cons_cons (key next : String) (path : List String) :
    pathText (key :: next :: path) = keyText key ++ "." ++ pathText (next :: path) := by
  rw [pathText, pathText, List.map_cons, List.map_cons, String.intercalate_cons_cons]

/-- The last part of a key, with what follows behind blanks. -/
theorem keyParts?_last (e : Edition) (parts : Nat) (key : String) {c : Char}
    {rest more : List Char} (hbare : ∀ d, rest.head? = some d → isBareKeyChar d = false)
    (hskip : skipBlank rest = c :: more) (hdot : c ≠ '.') :
    keyParts? e (parts + 1) ((keyText key).toList ++ rest) = some (([], key), c :: more) := by
  rw [keyParts?, skipBlank_keyText, simpleKey?_keyText e key hbare]
  simp only [Option.bind_eq_bind, Option.bind_some, hskip]
  split
  · rename_i heq
    exact absurd (List.cons.inj heq).1 hdot
  · rfl

/-- A key of several parts is read back, as long as the edition admits so many. -/
theorem keyParts?_pathText (e : Edition) {parts : Nat} (front : List String) (key : String)
    (h : front.length < parts) (rest : List Char) :
    keyParts? e parts ((pathText (front ++ [key])).toList ++ ']' :: rest) =
      some ((front, key), ']' :: rest) := by
  induction front generalizing parts with
  | nil =>
    obtain ⟨parts, rfl⟩ := Nat.exists_eq_add_of_lt h
    rw [List.nil_append, pathText_singleton]
    exact keyParts?_last e _ key (by simp; decide) rfl (by decide)
  | cons first front ih =>
    cases parts with
    | zero => contradiction
    | succ parts =>
      have hread := ih (Nat.lt_of_succ_lt_succ h)
      obtain ⟨next, path, hpath⟩ := List.exists_cons_of_ne_nil
        (List.append_ne_nil_of_right_ne_nil front (List.cons_ne_nil key []))
      have htext : (pathText (first :: front ++ [key])).toList ++ ']' :: rest =
          (keyText first).toList ++ '.' :: ((pathText (front ++ [key])).toList ++ ']' :: rest) := by
        rw [List.cons_append, hpath, pathText_cons_cons, String.toList_append, String.toList_append]
        simp
      rw [htext, keyParts?, skipBlank_keyText, simpleKey?_keyText e first (by simp; decide)]
      have hdot : isBlank '.' = false := rfl
      simp only [Option.bind_eq_bind, Option.bind_some, skipBlank_of_visible hdot, hread]
      rfl

/-! ## Values -/

/-- A text or a boolean. -/
inductive Scalar : Document → Prop
  | bool (b : Bool) : Scalar (.bool b)
  | text (s : String) : Scalar (.text s)

/-- A value ends where its line, its item or its list ends. -/
def Ends (rest : List Char) : Prop :=
  ∃ c more, rest = c :: more ∧ (c = '\n' ∨ c = ',' ∨ c = ']')

theorem Ends.unquoted {rest : List Char} (h : Ends rest) : Unquoted rest := by
  obtain ⟨c, more, rfl, rfl | rfl | rfl⟩ := h
  · exact ⟨by simp, by simp⟩
  · exact ⟨by simp, by simp⟩
  · exact ⟨by simp, by simp⟩

theorem value?_text (e : Edition) (fuel depth : Nat) (s : String) {rest : List Char}
    (hrest : Unquoted rest) :
    value? e (fuel + 1) depth ((stringText s).toList ++ rest) = some (.text s, rest) := by
  have hread := string?_stringText e s hrest
  obtain ⟨quote, more, htext, hquote⟩ := exists_quote (formOf true s.toList) s.toList
  rw [← stringText] at htext
  rw [htext, List.cons_append] at hread ⊢
  rcases hquote with rfl | rfl
  · rw [value?, hread]
    simp
  · rw [value?, hread]
    simp

theorem value?_scalar (e : Edition) (fuel depth : Nat) {d : Document} (h : Scalar d)
    {rest : List Char} (hrest : Ends rest) :
    value? e (fuel + 1) depth ((valueText d).toList ++ rest) = some (d, rest) := by
  cases h with
  | text s => exact value?_text e fuel depth s hrest.unquoted
  | bool b =>
    obtain ⟨c, more, rfl, rfl | rfl | rfl⟩ := hrest
    all_goals cases b <;> rfl

/-- What is written of a scalar starts an item of a list. -/
theorem Scalar.exists_start {d : Document} (h : Scalar d) :
    ∃ c more, (valueText d).toList = c :: more ∧ isBlank c = false ∧ c ≠ '#' ∧ c ≠ '\n' ∧
      c ≠ '\r' ∧ c ≠ ']' := by
  cases h with
  | text s =>
    obtain ⟨quote, more, htext, rfl | rfl⟩ := exists_quote (formOf true s.toList) s.toList
    · exact ⟨_, more, htext, by decide⟩
    · exact ⟨_, more, htext, by decide⟩
  | bool b =>
    cases b with
    | true => exact ⟨'t', _, rfl, by decide⟩
    | false => exact ⟨'f', _, rfl, by decide⟩

theorem skipFiller?_feed (fuel : Nat) (cs : List Char) :
    skipFiller? (fuel + 1) ('\n' :: cs) = skipFiller? fuel cs := rfl

theorem skipFiller?_of_visible {fuel : Nat} {cs : List Char} {c : Char} {rest : List Char}
    (hskip : skipBlank cs = c :: rest) (hhash : c ≠ '#') (hfeed : c ≠ '\n') (hreturn : c ≠ '\r') :
    skipFiller? (fuel + 1) cs = some (c :: rest) := by
  rw [skipFiller?, hskip]
  split
  · rename_i heq
    exact absurd (List.cons.inj heq).1 hhash
  · rw [newline?_of_ne hfeed hreturn]

/-- An item on a line of its own. -/
def itemLine (d : Document) : List Char :=
  [' ', ' ', ' ', ' '] ++ (valueText d).toList ++ [',', '\n']

/-- One item up to the comma behind it. -/
theorem items?_item (e : Edition) {fuel depth : Nat} {cs more rest next : List Char} {c : Char}
    {d : Document} (hstart : skipFiller? (cs.length + 1) cs = some (c :: more)) (hclose : c ≠ ']')
    (hvalue : value? e fuel depth (c :: more) = some (d, rest))
    (hcomma : skipFiller? (rest.length + 1) rest = some (',' :: next)) {items : List Document}
    {after : List Char} (hitems : items? e fuel depth next = some (items, after)) :
    items? e (fuel + 1) depth cs = some (d :: items, after) := by
  rw [items?, hstart]
  simp only [Option.bind_eq_bind, Option.bind_some]
  split
  · rename_i heq
    exact absurd (List.cons.inj heq).1 hclose
  · simp only [hvalue, Option.bind_some, hcomma, hitems]
    rfl

theorem items?_last (e : Edition) {fuel depth : Nat} {cs more rest after : List Char} {c : Char}
    {d : Document} (hstart : skipFiller? (cs.length + 1) cs = some (c :: more)) (hclose : c ≠ ']')
    (hvalue : value? e fuel depth (c :: more) = some (d, rest))
    (hend : skipFiller? (rest.length + 1) rest = some (']' :: after)) :
    items? e (fuel + 1) depth cs = some ([d], after) := by
  rw [items?, hstart]
  simp only [Option.bind_eq_bind, Option.bind_some]
  split
  · rename_i heq
    exact absurd (List.cons.inj heq).1 hclose
  · simp only [hvalue, Option.bind_some, hend]
    rfl

theorem items?_nil (e : Edition) (fuel depth : Nat) (rest : List Char) :
    items? e (fuel + 1) depth (']' :: rest) = some ([], rest) := rfl

theorem items?_lines (e : Edition) (depth : Nat) {items : List Document}
    (h : ∀ d ∈ items, Scalar d) {fuel : Nat} (hfuel : items.length + 1 < fuel)
    (rest : List Char) :
    items? e fuel depth ('\n' :: (items.flatMap itemLine ++ ']' :: rest)) =
      some (items, rest) := by
  induction items generalizing fuel with
  | nil =>
    cases fuel with
    | zero => contradiction
    | succ fuel => rfl
  | cons d items ih =>
    obtain ⟨fuel, rfl⟩ : ∃ n, fuel = n + 2 := ⟨fuel - 2, by omega⟩
    have hd := h d List.mem_cons_self
    have htail := ih (fun d hd => h d (List.mem_cons_of_mem _ hd)) (Nat.lt_of_succ_lt_succ hfuel)
    obtain ⟨c, more, hc, hblank, hhash, hfeed, hreturn, hclose⟩ := hd.exists_start
    have hvalue : value? e (fuel + 1) depth ((valueText d).toList ++ ',' :: '\n' ::
        (items.flatMap itemLine ++ ']' :: rest)) = some (d, ',' :: '\n' ::
        (items.flatMap itemLine ++ ']' :: rest)) :=
      value?_scalar e fuel depth hd ⟨_, _, rfl, .inr (.inl rfl)⟩
    have htext : '\n' :: ((d :: items).flatMap itemLine ++ ']' :: rest) =
        '\n' :: ' ' :: ' ' :: ' ' :: ' ' :: c :: (more ++ ',' :: '\n' ::
          (items.flatMap itemLine ++ ']' :: rest)) := by
      simp [itemLine, hc]
    rw [hc] at hvalue
    rw [htext]
    refine items?_item e ?_ hclose hvalue ?_ htail
    · rw [skipFiller?_feed, List.length_cons]
      exact skipFiller?_of_visible (skipBlank_of_visible hblank _) hhash hfeed hreturn
    · exact skipFiller?_of_visible rfl (by decide) (by decide) (by decide)

/-! ## Fields -/

/-- A value that is written behind its key: a scalar or a list of scalars. -/
inductive FieldValue : Document → Prop
  | scalar {d : Document} : Scalar d → FieldValue d
  | list {items : List Document} : (∀ d ∈ items, Scalar d) → FieldValue (.list items)

/-- What stands between a key and the end of its line. -/
def fieldValueText (d : Document) : List Char :=
  match d with
  | .list (a :: b :: rest) => '[' :: '\n' :: ((a :: b :: rest).flatMap itemLine ++ [']'])
  | d => (valueText d).toList

theorem Scalar.fieldValueText_eq {d : Document} (h : Scalar d) :
    fieldValueText d = (valueText d).toList := by
  cases h <;> rfl

theorem toList_fieldText (key : String) (d : Document) : (fieldText key d).toList =
    (keyText key).toList ++ ' ' :: '=' :: ' ' :: (fieldValueText d ++ ['\n']) := by
  have htext : ∀ value : String, (keyText key ++ " = " ++ value ++ "\n").toList =
      (keyText key).toList ++ ' ' :: '=' :: ' ' :: (value.toList ++ ['\n']) := by
    intro value
    simp
  match d with
  | .list (a :: b :: rest) =>
    have hitem : (fun d => "    ".toList ++ (valueText d).toList ++ ",\n".toList) = itemLine := rfl
    rw [fieldText, htext, fieldValueText]
    simp only [String.toList_append, String.toList_join, List.flatMap_map, hitem]
    rfl
  | .list [] | .list [_] | .null | .bool _ | .integer _ | .float _ | .moment _ | .text _
  | .character _ | .unreadable | .table _ => exact htext _

theorem fieldValueText_nil : fieldValueText (.list []) = ['[', ']'] := rfl

theorem fieldValueText_singleton (d : Document) :
    fieldValueText (.list [d]) = '[' :: ((valueText d).toList ++ [']']) := by
  have htext : valueText (.list [d]) = "[" ++ ", ".intercalate [valueText d] ++ "]" := rfl
  change (valueText (.list [d])).toList = _
  rw [htext, String.intercalate_singleton, String.toList_append, String.toList_append]
  rfl

theorem value?_list (e : Edition) {fuel depth : Nat} {cs after : List Char}
    {items : List Document} (h : items? e fuel depth cs = some (items, after)) :
    value? e (fuel + 1) (depth + 1) ('[' :: cs) = some (.list items, after) := by
  rw [value?]
  simp [h]

theorem length_le_flatMap_itemLine (items : List Document) :
    items.length ≤ (items.flatMap itemLine).length := by
  induction items with
  | nil => exact Nat.le_refl _
  | cons d items ih =>
    have hline : 1 ≤ (itemLine d).length := by
      simp [itemLine]
    rw [List.flatMap_cons, List.length_append, List.length_cons]
    omega

/-- A value is read back up to the end of its line. -/
theorem value?_fieldValueText (e : Edition) (depth : Nat) {d : Document} (h : FieldValue d)
    {fuel : Nat} (rest : List Char) (hfuel : (fieldValueText d).length + 1 < fuel) :
    value? e fuel (depth + 1) (fieldValueText d ++ '\n' :: rest) = some (d, '\n' :: rest) := by
  cases h with
  | @scalar d hd =>
    obtain ⟨fuel, rfl⟩ : ∃ n, fuel = n + 1 := ⟨fuel - 1, by omega⟩
    rw [hd.fieldValueText_eq]
    exact value?_scalar e fuel (depth + 1) hd ⟨_, _, rfl, .inl rfl⟩
  | @list items hitems =>
    match items with
    | [] =>
      rw [fieldValueText_nil] at hfuel ⊢
      obtain ⟨fuel, rfl⟩ : ∃ n, fuel = n + 2 := ⟨fuel - 2, by omega⟩
      exact value?_list e (items?_nil e fuel depth ('\n' :: rest))
    | [d] =>
      rw [fieldValueText_singleton] at hfuel ⊢
      rw [List.length_cons, List.length_append] at hfuel
      obtain ⟨fuel, rfl⟩ : ∃ n, fuel = n + 3 := ⟨fuel - 3, by omega⟩
      have hd := hitems d (List.mem_singleton_self d)
      obtain ⟨c, more, hc, hblank, hhash, hfeed, hreturn, hclose⟩ := hd.exists_start
      have hvalue : value? e (fuel + 1) depth ((valueText d).toList ++ ']' :: '\n' :: rest) =
          some (d, ']' :: '\n' :: rest) :=
        value?_scalar e fuel depth hd ⟨_, _, rfl, .inr (.inr rfl)⟩
      rw [List.cons_append, List.append_assoc]
      refine value?_list e (items?_last e ?_ hclose (hc ▸ hvalue) ?_)
      · rw [hc]
        exact skipFiller?_of_visible (skipBlank_of_visible hblank _) hhash hfeed hreturn
      · exact skipFiller?_of_visible rfl (by decide) (by decide) (by decide)
    | a :: b :: more =>
      have hlength := length_le_flatMap_itemLine (a :: b :: more)
      rw [fieldValueText] at hfuel ⊢
      rw [List.length_cons, List.length_cons, List.length_append, List.length_singleton] at hfuel
      obtain ⟨fuel, rfl⟩ : ∃ n, fuel = n + 1 := ⟨fuel - 1, by omega⟩
      rw [List.cons_append, List.cons_append, List.append_assoc]
      exact value?_list e (items?_lines e depth hitems (by omega) ('\n' :: rest))

/-! ## Lines -/

theorem exists_pathStart (key : String) (path : List String) :
    ∃ c more, (pathText (key :: path)).toList = c :: more ∧ StartsKey c := by
  obtain ⟨c, more, hkey, hstart⟩ := exists_keyStart key
  cases path with
  | nil => exact ⟨c, more, by rw [pathText_singleton, hkey], hstart⟩
  | cons next path =>
    refine ⟨c, more ++ ".".toList ++ (pathText (next :: path)).toList, ?_, hstart⟩
    rw [pathText_cons_cons, String.toList_append, String.toList_append, hkey]
    rfl

theorem exists_greatestDepth (e : Edition) : ∃ n, e.greatestDepth = n + 1 := by
  cases e with
  | v1_0 => exact ⟨78, rfl⟩
  | v1_1 => exact ⟨79, rfl⟩

theorem lineEnd?_of_visible {c : Char} (hblank : isBlank c = false) (hhash : c ≠ '#')
    (hfeed : c ≠ '\n') (hreturn : c ≠ '\r') (rest : List Char) : lineEnd? (c :: rest) = none := by
  have hcomment : skipComment? (c :: rest) = some (c :: rest) := by
    rw [skipComment?]
    intro more heq
    exact hhash (List.cons.inj heq).1
  rw [lineEnd?, skipBlank_of_visible hblank, hcomment]
  exact newline?_of_ne hfeed hreturn rest

theorem line?_blank (e : Edition) (p : Position) (rest : List Char) :
    line? e p ('\n' :: rest) = some (p, rest) := rfl

theorem FieldValue.skipBlank_text {d : Document} (h : FieldValue d) (rest : List Char) :
    skipBlank (' ' :: (fieldValueText d ++ rest)) = fieldValueText d ++ rest := by
  have hstart : ∃ c more, fieldValueText d = c :: more ∧ isBlank c = false := by
    cases h with
    | scalar hd =>
      obtain ⟨c, more, hc, hblank, -⟩ := hd.exists_start
      exact ⟨c, more, hd.fieldValueText_eq.trans hc, hblank⟩
    | @list items hitems =>
      match items with
      | [] => exact ⟨'[', _, rfl, rfl⟩
      | [d] => exact ⟨'[', _, fieldValueText_singleton d, rfl⟩
      | a :: b :: more => exact ⟨'[', _, rfl, rfl⟩
  obtain ⟨c, more, htext, hblank⟩ := hstart
  rw [htext]
  exact skipBlank_of_visible hblank _

/-- The line of a key and its value. -/
theorem line?_field (e : Edition) {p q : Position} {key : String} {d : Document}
    (hd : FieldValue d) (hq : p.insertValue [] key d = some q) (rest : List Char) :
    line? e p ((fieldText key d).toList ++ rest) = some (q, rest) := by
  obtain ⟨depth, hdepth⟩ := exists_greatestDepth e
  obtain ⟨c, more, htext, hstart⟩ := exists_keyStart key
  obtain ⟨hblank, hopen, hhash, hfeed, hreturn⟩ := hstart.visible
  have hline : (fieldText key d).toList ++ rest =
      (keyText key).toList ++ ' ' :: '=' :: ' ' :: (fieldValueText d ++ '\n' :: rest) := by
    rw [toList_fieldText]
    simp
  have hkey : key? e ((keyText key).toList ++ ' ' :: '=' :: ' ' ::
      (fieldValueText d ++ '\n' :: rest)) =
      some (([], key), '=' :: ' ' :: (fieldValueText d ++ '\n' :: rest)) := by
    rw [key?, hdepth]
    exact keyParts?_last e depth key (by simp; decide) rfl (by decide)
  have hvalue : value? e ((' ' :: (fieldValueText d ++ '\n' :: rest)).length + 1) (depth + 1)
      (fieldValueText d ++ '\n' :: rest) = some (d, '\n' :: rest) := by
    refine value?_fieldValueText e depth hd rest ?_
    rw [List.length_cons, List.length_append, List.length_cons]
    omega
  rw [hline, line?, skipBlank_keyText, htext, List.cons_append]
  split
  · rename_i heq
    exact absurd (List.cons.inj heq).1 hopen
  · rename_i heq
    exact absurd (List.cons.inj heq).1 hopen
  · rw [htext, List.cons_append] at hkey
    rw [lineEnd?_of_visible hblank hhash hfeed hreturn, hkey]
    simp only [Option.bind_eq_bind, Option.bind_some, hdepth, hd.skipBlank_text, hvalue, hq]
    rfl

/-- The header of a table. -/
theorem line?_header (e : Edition) (p : Position) {front : List String} {key : String}
    {root : Entries} (hdepth : front.length < e.greatestDepth)
    (hroot : Entries.openTable front key p.root = some root) (rest : List Char) :
    line? e p ('[' :: ((pathText (front ++ [key])).toList ++ ']' :: '\n' :: rest)) =
      some (⟨root, front ++ [key]⟩, rest) := by
  have hkey := keyParts?_pathText e front key hdepth ('\n' :: rest)
  obtain ⟨first, path, hpath⟩ := List.exists_cons_of_ne_nil
    (List.append_ne_nil_of_right_ne_nil front (List.cons_ne_nil key []))
  obtain ⟨c, more, htext, hstart⟩ := exists_pathStart first path
  rw [← hpath] at htext
  have hopen : isBlank '[' = false := rfl
  rw [line?, skipBlank_of_visible hopen]
  split
  · rename_i heq
    rw [htext, List.cons_append] at heq
    exact absurd (List.cons.inj (List.cons.inj heq).2).1 hstart.visible.2.1
  · rename_i heq
    obtain rfl := (List.cons.inj heq).2
    rw [key?, hkey]
    simp only [Option.bind_eq_bind, Option.bind_some, hroot]
    rfl
  · rename_i hsingle
    exact absurd rfl (hsingle _)

/-- The header of a table in an array. -/
theorem line?_itemHeader (e : Edition) (p : Position) {front : List String} {key : String}
    {root : Entries} (hdepth : front.length < e.greatestDepth)
    (hroot : Entries.appendTable front key p.root = some root) (rest : List Char) :
    line? e p ('[' :: '[' :: ((pathText (front ++ [key])).toList ++ ']' :: ']' :: '\n' :: rest)) =
      some (⟨root, front ++ [key]⟩, rest) := by
  have hkey := keyParts?_pathText e front key hdepth (']' :: '\n' :: rest)
  have hopen : isBlank '[' = false := rfl
  rw [line?, skipBlank_of_visible hopen]
  simp only [key?, hkey, Option.bind_eq_bind, Option.bind_some, hroot]
  rfl

/-! ## Reading line by line -/

/-- From one position, the reader passes over the text to the other one,
whatever follows. -/
def Reads (e : Edition) (text : List Char) (p q : Position) : Prop :=
  ∀ rest fuel, (text ++ rest).length < fuel →
    ∃ left, rest.length < left ∧ lines? e fuel p (text ++ rest) = lines? e left q rest

section Reads

variable {e : Edition} {p q r : Position}

theorem reads_nil (e : Edition) (p : Position) : Reads e [] p p :=
  fun _ fuel hfuel => ⟨fuel, hfuel, rfl⟩

theorem Reads.append {a b : List Char} (ha : Reads e a p q) (hb : Reads e b q r) :
    Reads e (a ++ b) p r := by
  intro rest fuel hfuel
  rw [List.append_assoc] at hfuel ⊢
  obtain ⟨middle, hmiddle, hread⟩ := ha (b ++ rest) fuel hfuel
  obtain ⟨left, hleft, hrest⟩ := hb rest middle hmiddle
  exact ⟨left, hleft, hread.trans hrest⟩

theorem reads_line {c : Char} {text : List Char}
    (h : ∀ rest, line? e p (c :: text ++ rest) = some (q, rest)) : Reads e (c :: text) p q := by
  intro rest fuel hfuel
  cases fuel with
  | zero => contradiction
  | succ fuel =>
    refine ⟨fuel, ?_, ?_⟩
    · rw [List.length_append, List.length_cons] at hfuel
      omega
    · have hline := h rest
      rw [List.cons_append] at hline ⊢
      rw [lines?, hline]
      · rfl
      · exact nofun

/-- A blank line changes nothing. -/
theorem reads_blank (e : Edition) (p : Position) : Reads e ['\n'] p p :=
  reads_line fun rest => line?_blank e p rest

theorem reads_header {front : List String} {key : String} {root : Entries}
    (hdepth : front.length < e.greatestDepth)
    (hroot : Entries.openTable front key p.root = some root) :
    Reads e ("\n[" ++ pathText (front ++ [key]) ++ "]\n").toList p ⟨root, front ++ [key]⟩ := by
  have htext : ("\n[" ++ pathText (front ++ [key]) ++ "]\n").toList =
      ['\n'] ++ '[' :: ((pathText (front ++ [key])).toList ++ [']', '\n']) := by
    simp
  rw [htext]
  refine (reads_blank e p).append (reads_line ?_)
  intro rest
  simpa using line?_header e p hdepth hroot rest

theorem reads_itemHeader {front : List String} {key : String} {root : Entries}
    (hdepth : front.length < e.greatestDepth)
    (hroot : Entries.appendTable front key p.root = some root) :
    Reads e ("\n[[" ++ pathText (front ++ [key]) ++ "]]\n").toList p ⟨root, front ++ [key]⟩ := by
  have htext : ("\n[[" ++ pathText (front ++ [key]) ++ "]]\n").toList =
      ['\n'] ++ '[' :: '[' :: ((pathText (front ++ [key])).toList ++ [']', ']', '\n']) := by
    simp
  rw [htext]
  refine (reads_blank e p).append (reads_line ?_)
  intro rest
  simpa using line?_itemHeader e p hdepth hroot rest

/-- Nothing depends on a blank line in front. -/
theorem Reads.of_blank {text : List Char} (h : Reads e ('\n' :: text) p q) : Reads e text p q := by
  intro rest fuel hfuel
  exact h rest (fuel + 1) (Nat.succ_lt_succ hfuel)

/-- What is left when the whole text is read. -/
theorem Reads.lines? {text : List Char} (h : Reads e text p q) {fuel : Nat}
    (hfuel : text.length < fuel) : Toml.lines? e fuel p text = some q.root := by
  obtain ⟨left, hleft, hread⟩ := h [] fuel (by rwa [List.append_nil])
  rw [List.append_nil] at hread
  cases left with
  | zero => contradiction
  | succ left => exact hread

end Reads

end Toml
end LoggingFacade
