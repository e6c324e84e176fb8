import LoggingFacade.Declaration
import LoggingFacade.Proofs.Plugin.Attributes
import LoggingFacade.Proofs.Plugin.CallOrder
import LoggingFacade.Proofs.TextMap

/-!
# Declarations and the documents they are read from

The declaration at an address was read from the document at the same address, and its
attributes are the texts of the entries there. Of several entries under one key the last one
counts, and of several keys that a name matches in any case the smallest one.
-/

namespace LoggingFacade

/-- All items are read, or none. -/
theorem mapM_eq_some {α β : Type} {f : α → Option β} {l : List α} {m : List β} :
    l.mapM f = some m ↔ l.map f = m.map some := by
  induction l generalizing m with
  | nil => cases m <;> simp
  | cons a rest ih =>
    rw [List.mapM_cons, List.map_cons]
    cases hfirst : f a with
    | none => cases m <;> simp
    | some b =>
      cases m with
      | nil => simp [Option.bind_eq_some_iff]
      | cons c more =>
        rw [List.map_cons, List.cons.injEq, ← ih]
        simp [Option.bind_eq_some_iff]
        grind

namespace TextMap

variable {α : Type}

/-- Of the entries of a list, the last one of its key. -/
def LastOf (l : List (String × α)) (e : String × α) : Prop :=
  ∃ before after, l = before ++ e :: after ∧ e.1 ∉ after.map Prod.fst

theorem lastOf_concat (l : List (String × α)) (d e : String × α) :
    LastOf (l ++ [d]) e ↔ e = d ∨ LastOf l e ∧ e.1 ≠ d.1 := by
  constructor
  · rintro ⟨before, after, hsplit, habsent⟩
    obtain rfl | ⟨after, last, rfl⟩ := List.eq_nil_or_concat' after
    · exact .inl (List.singleton_inj.1 (List.append_inj' hsplit rfl).2).symm
    · rw [← List.cons_append, ← List.append_assoc] at hsplit
      obtain ⟨hl, hlast⟩ := List.append_inj' hsplit rfl
      rw [List.map_append, List.mem_append, not_or, ← hlast] at habsent
      exact .inr ⟨⟨before, after, hl, habsent.1⟩, fun heq => habsent.2 (by simp [heq])⟩
  · rintro (rfl | ⟨⟨before, after, rfl, habsent⟩, hne⟩)
    · exact ⟨l, [], rfl, List.not_mem_nil⟩
    · refine ⟨before, after ++ [d], by simp, ?_⟩
      rw [List.map_append, List.mem_append, not_or]
      exact ⟨habsent, by simpa using hne⟩

theorem mem_insert (m : TextMap α) (key : String) (value : α) (e : String × α) :
    e ∈ (m.insert key value).entries ↔ e = (key, value) ∨ e ∈ m.entries ∧ e.1 ≠ key := by
  rw [mem_iff_lookup (m.insert key value).nodup_keys, mem_iff_lookup m.nodup_keys]
  change (m.insert key value).get? e.1 = _ ↔ _ ∨ m.get? e.1 = _ ∧ _
  rw [get?_insert, Prod.ext_iff]
  by_cases h : e.1 = key
  · simp [h, eq_comm]
  · simp [h]

theorem mem_ofList (l : List (String × α)) (e : String × α) :
    e ∈ (ofList l).entries ↔ LastOf l e := by
  induction l using List.reverseRecOn with
  | nil =>
    constructor
    · intro h
      contradiction
    · rintro ⟨before, after, hsplit, -⟩
      simp at hsplit
  | append_singleton l d ih => rw [ofList_concat, mem_insert, lastOf_concat, ih]

end TextMap

namespace Document

/-- The entry counts for a name: it is the last one of its key, and its key is the smallest of
those that match the name in any case of the letters. -/
structure CountsFor (entries : List (String × Document)) (name : String)
    (e : String × Document) : Prop where
  last : TextMap.LastOf entries e
  named : Text.sameName e.1 name = true
  smallest : ∀ other ∈ entries, other.1 < e.1 → Text.sameName other.1 name = false

end Document

namespace Declaration

/-- What a document gives under a key of a declaration. -/
def field? (strict : Bool) (document : Document) (key : String) : Option Document :=
  (document.fields? strict ["type", "attributes", "children"]).bind fun fields =>
    (Document.unique? fields key).join

/-- The entries of the attributes that a document gives. -/
def attributeEntries (strict : Bool) (document : Document) : List (String × Document) :=
  match field? strict document "attributes" with
  | some (.table entries) => entries
  | _ => []

/-- The documents that a document gives for nested declarations. -/
def nestedDocuments (strict : Bool) (document : Document) : List Document :=
  match field? strict document "children" with
  | some (.list items) => items
  | _ => []

/-- The document at an address: the places of the nested ones on the way there. -/
def documentAt? (strict : Bool) : Document → List Nat → Option Document
  | document, [] => some document
  | document, i :: rest =>
    (nestedDocuments strict document)[i]?.bind fun nested => documentAt? strict nested rest

/-- The last part of reading a declaration makes it of the nested ones, if any are given. -/
theorem children_of_rest {strict : Bool} {fuel : Nat} {document : Document} {d : Declaration}
    {typeName : String} {attributes : TextMap String} {found : Option (Option Document)}
    {rest : Option Document → Option Declaration}
    (hfield : ∀ given, found = some given → field? strict document "children" = given)
    (hnone : rest none = some ⟨typeName, attributes, []⟩)
    (hsome : ∀ given, rest (some given) = given.asList?.bind fun items =>
      (items.mapM (read? strict fuel)).bind fun children => some ⟨typeName, attributes, children⟩)
    (h : found.bind rest = some d) : d.attributes = attributes ∧
      (nestedDocuments strict document).mapM (read? strict fuel) = some d.children := by
  obtain ⟨given, hgiven, h⟩ := Option.bind_eq_some_iff.1 h
  rw [nestedDocuments, hfield given hgiven]
  cases given with
  | none =>
    rw [hnone] at h
    cases h
    exact ⟨rfl, rfl⟩
  | some given =>
    simp only [hsome, Option.bind_eq_some_iff] at h
    obtain ⟨items, hitems, children, hread, hd⟩ := h
    cases hd
    cases given <;> cases hitems
    exact ⟨rfl, hread⟩

/-- What a declaration is read from. -/
theorem given_of_read? {strict : Bool} {fuel : Nat} {document : Document} {d : Declaration}
    (h : read? strict (fuel + 1) document = some d) :
    attributes? (.table (attributeEntries strict document)) = some d.attributes ∧
      (nestedDocuments strict document).mapM (read? strict fuel) = some d.children := by
  rw [read?] at h
  simp only [Option.bind_eq_bind, Option.bind_eq_some_iff] at h
  obtain ⟨fields, hfields, -, -, -, -, typeName, -, attributesField, hattributes, h⟩ := h
  have hfield : ∀ key given, Document.unique? fields key = some given →
      field? strict document key = given := by
    intro key given hgiven
    rw [field?, hfields, Option.bind_some, hgiven, Option.join_some]
  rw [attributeEntries, hfield _ _ hattributes]
  cases attributesField with
  | none =>
    obtain ⟨hempty, hnested⟩ := children_of_rest (hfield "children") rfl (fun _ => rfl) h
    exact ⟨by rw [hempty]; rfl, hnested⟩
  | some given =>
    obtain ⟨attributes, hread, h⟩ := Option.bind_eq_some_iff.1 h
    obtain ⟨hsame, hnested⟩ := children_of_rest (hfield "children") rfl (fun _ => rfl) h
    refine ⟨?_, hnested⟩
    rw [hsame, ← hread]
    cases given <;> first | rfl | contradiction

/-- The document at the address of a declaration is the one that it is read from. -/
theorem documentAt?_of_at? {strict : Bool} {fuel : Nat} {document : Document}
    {d node : Declaration} {address : List Nat} (hread : read? strict fuel document = some d)
    (hnode : d.at? address = some node) :
    ∃ given, documentAt? strict document address = some given ∧
      attributes? (.table (attributeEntries strict given)) = some node.attributes := by
  induction address generalizing fuel document d with
  | nil =>
    cases hnode
    cases fuel with
    | zero => contradiction
    | succ fuel => exact ⟨document, rfl, (given_of_read? hread).1⟩
  | cons i rest ih =>
    cases fuel with
    | zero => contradiction
    | succ fuel =>
      rw [at?, Option.bind_eq_some_iff] at hnode
      obtain ⟨child, hchild, hrest⟩ := hnode
      have hitems := congrArg (·[i]?) (mapM_eq_some.1 (given_of_read? hread).2)
      simp only [List.getElem?_map, hchild, Option.map_some, Option.map_eq_some_iff] at hitems
      obtain ⟨item, hitem, hitemRead⟩ := hitems
      obtain ⟨given, hgiven, hattributes⟩ := ih hitemRead hrest
      exact ⟨given, by rw [documentAt?, hitem, Option.bind_some, hgiven], hattributes⟩

/-- The attributes are the texts of the entries, if all of them are scalars. -/
theorem entries_of_attributes? {entries : List (String × Document)} {m : TextMap String}
    (h : attributes? (.table entries) = some m) : m.entries =
      (TextMap.ofList entries).entries.map fun e => (e.1, e.2.scalarText?.getD "") := by
  simp only [attributes?, Option.bind_eq_bind, Option.bind_eq_some_iff] at h
  obtain ⟨texts, htexts, hm⟩ := h
  have hread : texts = entries.map fun e => (e.1, e.2.scalarText?.getD "") := by
    have hpairs := mapM_eq_some.1 htexts
    rw [← List.map_inj_right (f := some) fun _ _ => Option.some.inj, ← hpairs, List.map_map]
    refine List.map_congr_left fun e he => ?_
    have hmem : (e.2.scalarText?.map fun s => (e.1, s)) ∈ texts.map some := by
      rw [← hpairs]
      exact List.mem_map_of_mem he
    obtain ⟨text, -, htext⟩ := List.mem_map.1 hmem
    cases hscalar : e.2.scalarText? with
    | none => simp [hscalar] at htext
    | some s => simp [hscalar]
  cases hm
  rw [hread]
  exact TextMap.entries_ofList_map (fun d : Document => d.scalarText?.getD "") entries

/-- The attribute found under a name has the text of the entry that counts for it. -/
theorem attr?_of_countsFor {entries : List (String × Document)} {d : Declaration}
    {name raw : String} {e : String × Document}
    (hattributes : attributes? (.table entries) = some d.attributes)
    (he : Document.CountsFor entries name e) (hraw : e.2.scalarText? = some raw) :
    d.attr? name = some raw := by
  have hentries := entries_of_attributes? hattributes
  have hfound : (d.attributes.entries.find? fun f => Text.sameName f.1 name) =
      some (e.1, raw) := by
    rw [TextMap.find?_eq_some_iff, hentries]
    refine ⟨?_, he.named, ?_⟩
    · have hmem := List.mem_map_of_mem
        (f := fun e : String × Document => (e.1, e.2.scalarText?.getD ""))
        ((TextMap.mem_ofList entries e).2 he.last)
      rwa [hraw] at hmem
    · intro f hf hlt
      obtain ⟨given, hgiven, rfl⟩ := List.mem_map.1 hf
      exact he.smallest given (TextMap.mem_of_mem_ofList hgiven) hlt
  rw [attr?, hfound]
  rfl

end Declaration
end LoggingFacade
