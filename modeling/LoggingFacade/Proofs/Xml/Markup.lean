import LoggingFacade.Layout.Xml
import LoggingFacade.Proofs.Xml.Sections

/-!
# Reading markup back

What the reader makes of the pieces that the layouts write. Attributes give
back their values, CDATA their text, and an element with tags around its
content gives back the contributions of the content.
-/

namespace LoggingFacade
namespace Xml

/-! ## Names and attributes -/

def IsName (name : String) : Prop := name ≠ "" ∧ name.toList.all isNameChar = true

instance (name : String) : Decidable (IsName name) :=
  inferInstanceAs (Decidable (_ ∧ _))

theorem name?_append {name : String} (h : IsName name) {rest : List Char}
    (hrest : ∀ c ∈ rest.head?, isNameChar c = false) :
    name? (name.toList ++ rest) = some (name, rest) := by
  have hchars : ∀ c ∈ name.toList, isNameChar c = true := List.all_eq_true.1 h.2
  have htake : (name.toList ++ rest).takeWhile isNameChar = name.toList := by
    rw [List.takeWhile_append_of_pos hchars]
    cases rest with
    | nil => simp
    | cons c rest => simp [hrest c rfl]
  have hdrop : (name.toList ++ rest).dropWhile isNameChar = rest := by
    rw [List.dropWhile_append_of_pos hchars]
    cases rest with
    | nil => rfl
    | cons c rest => simp [hrest c rfl]
  rw [name?, htake, hdrop]
  simp [h.1]

theorem isSpace_of_isNameChar {c : Char} (h : isNameChar c = true) : isSpace c = false := by
  cases hs : isSpace c with
  | false => rfl
  | true =>
    simp only [isSpace, Bool.or_eq_true, beq_iff_eq] at hs
    rcases hs with ((rfl | rfl) | rfl) | rfl <;> revert h <;> decide

theorem dropWhile_isSpace_name {name : String} (h : IsName name) (rest : List Char) :
    (name.toList ++ rest).dropWhile isSpace = name.toList ++ rest := by
  obtain ⟨hne, hchars⟩ := h
  cases hcs : name.toList with
  | nil => exact absurd (String.toList_eq_nil_iff.1 hcs) hne
  | cons c cs =>
    have hc := isSpace_of_isNameChar (List.all_eq_true.1 hchars c (by simp [hcs]))
    simp [hc]

theorem value?_of_not_mem {c : Char} (h : c ∉ markup) (rest : List Char) :
    value? (c :: rest) = (value? rest).map fun (value, after) => (c :: value, after) := by
  have hspace : (if isSpace c then ' ' else c) = c := by
    simp only [markup, List.mem_cons, not_or] at h
    simp only [isSpace, Bool.or_eq_true, beq_iff_eq]
    grind
  rw [value?, hspace]
  all_goals
    rintro rfl
    exact h (by decide)

/-- No white space but spaces is left in an escaped value, so none is lost. -/
theorem value?_escape (cs rest : List Char) :
    value? (cs.flatMap escapeChar ++ '"' :: rest) = some (cs, rest) := by
  induction cs with
  | nil => simp [value?]
  | cons c cs ih =>
    rw [List.flatMap_cons, List.append_assoc]
    by_cases hc : c ∈ markup
    · obtain ⟨name, hname, hread⟩ := reference?_escapeChar hc (cs.flatMap escapeChar ++ '"' :: rest)
      rw [hname, List.cons_append, value?]
      split
      · rename_i d more h
        obtain ⟨rfl, rfl⟩ := Prod.mk.inj (Option.some.inj (hread.symm.trans h))
        rw [ih]
        rfl
      · rename_i h
        rw [hread] at h
        contradiction
    · rw [escapeChar_of_not_mem hc, List.singleton_append, value?_of_not_mem hc, ih]
      rfl

theorem attribute?_attr {name : String} (h : IsName name) (value : String) (rest : List Char) :
    attribute? ((XmlLayout.attr name value).toList ++ rest) = some ((name, value), rest) := by
  have hvalue := value?_escape value.toList rest
  have hname : ∀ more : List Char, name? (name.toList ++ '=' :: more) = some (name, '=' :: more) :=
    fun more => name?_append h (by simp; decide)
  simp [attribute?, XmlLayout.attr, toList_escapeTags, hname, dropWhile_isSpace_name h, hvalue,
    isSpace]

def attributesText (given : List (String × String)) : String :=
  String.join (given.map fun a => XmlLayout.attr a.1 a.2)

@[simp] theorem attributesText_nil : attributesText [] = "" := rfl

@[simp] theorem attributesText_cons (a : String × String) (given : List (String × String)) :
    attributesText (a :: given) = XmlLayout.attr a.1 a.2 ++ attributesText given :=
  String.join_cons

/-- No attribute begins here, as no white space does. -/
theorem attributes_of_not_isSpace {c : Char} (h : isSpace c = false) (rest : List Char) :
    attributes (c :: rest) = ([], c :: rest) := by
  rw [attributes]
  simp [attribute?, h]

theorem attributes_append {given : List (String × String)} (h : ∀ a ∈ given, IsName a.1)
    {rest : List Char} (hrest : attributes rest = ([], rest)) :
    attributes ((attributesText given).toList ++ rest) = (given, rest) := by
  induction given with
  | nil => simpa [attributesText, String.join] using hrest
  | cons a given ih =>
    have htext : (attributesText (a :: given)).toList ++ rest =
        (XmlLayout.attr a.1 a.2).toList ++ ((attributesText given).toList ++ rest) := by
      simp [attributesText]
    have hlt : ((attributesText given).toList ++ rest).length <
        ((XmlLayout.attr a.1 a.2).toList ++ ((attributesText given).toList ++ rest)).length := by
      simp [XmlLayout.attr]
      omega
    rw [htext, attributes, attribute?_attr (h a List.mem_cons_self)]
    simp only [if_pos hlt]
    rw [ih fun b hb => h b (List.mem_cons_of_mem _ hb)]

/-- A tag as it may be written: it has a name, and its attributes have
different ones. -/
structure IsTag (name : String) (given : List (String × String)) : Prop where
  name : IsName name
  attributes : ∀ a ∈ given, IsName a.1
  distinct : (given.map (·.1)).Nodup

theorem name?_tag {name : String} {given : List (String × String)} (h : IsTag name given)
    {c : Char} (hc : isNameChar c = false) (rest : List Char) :
    name? (name.toList ++ ((attributesText given).toList ++ c :: rest)) =
      some (name, (attributesText given).toList ++ c :: rest) := by
  refine name?_append h.name ?_
  cases given with
  | nil => simpa [attributesText, String.join] using hc
  | cons a given => simp [attributesText, XmlLayout.attr]; decide

theorem token?_tag {name : String} (h : IsName name) (rest : List Char) :
    token? ('<' :: (name.toList ++ rest)) = tag? (name.toList ++ rest) := by
  obtain ⟨hne, hchars⟩ := h
  cases hcs : name.toList with
  | nil => exact absurd (String.toList_eq_nil_iff.1 hcs) hne
  | cons c cs =>
    have hc : isNameChar c = true := List.all_eq_true.1 hchars c (by simp [hcs])
    rw [List.cons_append, token?]
    all_goals
      intro more he
      obtain ⟨rfl, -⟩ := List.cons.inj he
      revert hc
      decide

theorem token?_opening {name : String} {given : List (String × String)} (h : IsTag name given)
    (rest : List Char) :
    token? ('<' :: (name.toList ++ ((attributesText given).toList ++ '>' :: rest))) =
      some (.opening name given, rest) := by
  have hend : isSpace '>' = false := by decide
  rw [token?_tag h.name, tag?, name?_tag h (by decide)]
  simp [attributes_append h.attributes (attributes_of_not_isSpace hend rest), h.distinct, hend]

theorem token?_empty {name : String} {given : List (String × String)} (h : IsTag name given)
    (rest : List Char) :
    token? ('<' :: (name.toList ++ ((attributesText given).toList ++ '/' :: '>' :: rest))) =
      some (.empty name given, rest) := by
  have hend : isSpace '/' = false := by decide
  rw [token?_tag h.name, tag?, name?_tag h (by decide)]
  simp [attributes_append h.attributes (attributes_of_not_isSpace hend _), h.distinct, hend]

theorem token?_closing {name : String} (h : IsName name) (rest : List Char) :
    token? ('<' :: '/' :: (name.toList ++ '>' :: rest)) = some (.closing name, rest) := by
  have hend : isSpace '>' = false := by decide
  rw [token?, closing?, name?_append h (by simp; decide)]
  simp [hend]

/-! ## Contributions -/

/-- Read anywhere inside an element, the piece adds the given character data
and elements to it. -/
def Reads (piece text : String) (children : List Element) : Prop :=
  ∃ ts, (∀ rest, tokens? (piece.toList ++ rest) = (tokens? rest).map (ts ++ ·)) ∧
    ∀ outer inner more,
      build? outer inner (ts ++ more) = build? outer (inner.add text children) more

theorem Element.add_nothing (e : Element) : e.add "" [] = e := by
  cases e
  simp [add]

theorem Element.add_add (e : Element) (s t : String) (c d : List Element) :
    (e.add s c).add t d = e.add (s ++ t) (c ++ d) := by
  simp [add, String.append_assoc]

theorem reads_nothing : Reads "" "" [] :=
  ⟨[], by simp, by simp [Element.add_nothing]⟩

theorem Reads.append {a b s t : String} {c d : List Element} (ha : Reads a s c)
    (hb : Reads b t d) : Reads (a ++ b) (s ++ t) (c ++ d) := by
  obtain ⟨ts, hts, hbuild⟩ := ha
  obtain ⟨us, hus, hbuild'⟩ := hb
  refine ⟨ts ++ us, fun rest => ?_, fun outer inner more => ?_⟩
  · rw [String.toList_append, List.append_assoc, hts, hus, Option.map_map]
    simp [Function.comp_def]
  · rw [List.append_assoc, hbuild, hbuild', Element.add_add]

theorem tokens?_of_token? {cs rest : List Char} {t : Token} (h : token? cs = some (t, rest))
    (hlt : rest.length < cs.length) : tokens? cs = (tokens? rest).map (t :: ·) := by
  have hne : cs ≠ [] := by
    rintro rfl
    simp [token?] at h
  rw [tokens?, if_neg hne, h]
  simp only [if_pos hlt]

/-- One token that adds character data. -/
theorem reads_of_token? {piece text : String}
    (h : ∀ rest, token? (piece.toList ++ rest) = some (.text text, rest)) (hne : piece ≠ "") :
    Reads piece text [] := by
  refine ⟨[.text text], fun rest => ?_, fun outer inner more => rfl⟩
  refine tokens?_of_token? (h rest) ?_
  have hpos : 0 < piece.toList.length := by
    simpa [List.length_pos_iff] using hne
  rw [List.length_append]
  omega

theorem reads_empty {name : String} {given : List (String × String)} (h : IsTag name given) :
    Reads ("<" ++ name ++ attributesText given ++ "/>") "" [⟨name, given, "", []⟩] := by
  refine ⟨[.empty name given], fun rest => ?_, fun outer inner more => rfl⟩
  have htoken := token?_empty h rest
  simpa using tokens?_of_token? htoken (by simp; omega)

theorem reads_element {name : String} {given : List (String × String)} (h : IsTag name given)
    {content text : String} {children : List Element} (hc : Reads content text children) :
    Reads ("<" ++ name ++ attributesText given ++ ">" ++ content ++ "</" ++ name ++ ">") ""
      [⟨name, given, text, children⟩] := by
  obtain ⟨ts, hts, hbuild⟩ := hc
  refine ⟨.opening name given :: ts ++ [.closing name], fun rest => ?_,
    fun outer inner more => ?_⟩
  · have hopen := token?_opening h (content.toList ++ '<' :: '/' :: (name.toList ++ '>' :: rest))
    have hclose := token?_closing h.name rest
    have htokens := tokens?_of_token? hopen (by simp; omega)
    rw [hts, tokens?_of_token? hclose (by simp; omega)] at htokens
    simpa [Function.comp_def] using htokens
  · simp only [List.cons_append, List.append_assoc, build?, hbuild]
    simp [Element.add]

theorem reads_char {c : Char} (hlt : c ≠ '<') (hamp : c ≠ '&') :
    Reads (.singleton c) (.singleton c) [] := by
  refine reads_of_token? (fun rest => ?_) (by simp)
  rw [String.toList_singleton, List.singleton_append, token?]
  · exact fun _ h _ => hlt h
  · exact fun _ h _ => hlt h
  · exact fun h => hlt h
  · exact fun h => hamp h

/-- Text without markup is read as it is. -/
theorem reads_plain (cs : List Char) (h : ∀ c ∈ cs, c ≠ '<' ∧ c ≠ '&') :
    Reads (.ofList cs) (.ofList cs) [] := by
  induction cs with
  | nil => exact reads_nothing
  | cons c cs ih =>
    obtain ⟨hlt, hamp⟩ := h c List.mem_cons_self
    have hrest := ih fun d hd => h d (List.mem_cons_of_mem _ hd)
    have hcons : String.ofList (c :: cs) = .singleton c ++ .ofList cs := by simp
    rw [hcons]
    exact (reads_char hlt hamp).append hrest

theorem reads_lineEnd : Reads XmlLayout.lineEnd XmlLayout.lineEnd [] :=
  reads_plain ['\r', '\n'] (by simp)

/-- A text is read as an element if it is that element and white space behind
its declaration. -/
theorem read?_of_reads {s piece text : String} {root : Element} (h : Reads piece text [root])
    (hbody : body? s.toList = some piece.toList) (hspace : text.toList.all isSpace = true) :
    read? s = some root := by
  obtain ⟨ts, hts, hbuild⟩ := h
  have htokens : tokens? piece.toList = some ts := by
    have hnil : tokens? [] = some [] := by
      rw [tokens?]
      rfl
    have hend := hts []
    rwa [List.append_nil, hnil, Option.map_some, List.append_nil] at hend
  have helement : build? [] ⟨"", [], "", []⟩ ts = some ⟨"", [], text, [root]⟩ := by
    have hend := hbuild [] ⟨"", [], "", []⟩ []
    rw [List.append_nil] at hend
    simpa [build?, Element.add] using hend
  simp only [read?, hbody, htokens, helement, Option.bind_eq_bind, Option.bind_some, hspace]
  rfl

/-! ## CDATA -/

theorem reads_section {p : List Char} (h : until? cdataEnd.toList p = none) :
    Reads (.ofList (Segment.written (.cdata p))) (.ofList p) [] := by
  refine reads_of_token? (fun rest => ?_) (by simp [Segment.written, cdataStart])
  have hcut := until?_of_borderless (by decide) (by decide) h rest
  have hsplit : (String.ofList (Segment.written (.cdata p))).toList ++ rest =
      '<' :: '!' :: ("[CDATA[".toList ++ (p ++ (cdataEnd.toList ++ rest))) := by
    simp [Segment.written, cdataStart]
  rw [hsplit, token?, section?, List.isPrefixOf?_eq_some_iff_append_eq.2 rfl]
  simp [hcut]

theorem reads_terminator : Reads (.ofList (Segment.written (.run cdataEnd.toList))) cdataEnd [] := by
  have hgt : Reads "&gt;" ">" [] := reads_of_token? (fun rest => rfl) (by decide)
  exact (reads_plain [']', ']'] (by simp)).append hgt

theorem reads_sections {ps : List (List Char)} (h : ∀ p ∈ ps, until? cdataEnd.toList p = none) :
    Reads (.ofList ((sections ps).flatMap Segment.written))
      (.ofList ((sections ps).flatMap Segment.text)) [] := by
  induction ps with
  | nil => exact reads_nothing
  | cons p ps ih =>
    obtain ⟨hp, hps⟩ := List.forall_mem_cons.1 h
    cases ps with
    | nil => simpa [sections, Segment.text] using reads_section hp
    | cons q ps =>
      have hparts := (reads_section hp).append (reads_terminator.append (ih hps))
      simpa [sections_cons_cons, Segment.text, String.ofList_append] using hparts

theorem reads_cdata (s : String) : Reads (cdata s) s [] := by
  have h := reads_sections (until?_of_mem_pieces s.toList)
  rwa [← toList_cdata, String.ofList_toList, flatMap_text_sections, intercalate_pieces,
    String.ofList_toList] at h

theorem splitTerminators_append_cons {c : Char} (hbracket : c ≠ ']') (hgt : c ≠ '>')
    (cs more : List Char) :
    splitTerminators (cs ++ c :: more) = splitTerminators cs ++ c :: splitTerminators more := by
  fun_induction splitTerminators cs with
  | case1 rest ih =>
    rw [List.cons_append, List.cons_append, List.cons_append, splitTerminators, ih,
      List.append_assoc]
  | case2 d rest hne ih =>
    rw [List.cons_append, splitTerminators, ih, List.cons_append]
    intro tail hd htail
    match rest with
    | [] => simp_all
    | [_] => simp_all
    | _ :: _ :: _ => simp_all
  | case3 =>
    rw [List.nil_append, List.nil_append, splitTerminators]
    exact fun _ h _ => hbracket h

end Xml
end LoggingFacade
