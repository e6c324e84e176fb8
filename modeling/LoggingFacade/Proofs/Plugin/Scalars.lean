import LoggingFacade.Proofs.Declaration.Given
import LoggingFacade.Proofs.Plugin.Coercion

/-!
# Scalars from documents to factories

A boolean, an integer of 64 signed bits and a text that a document gives as an attribute are
kept as texts in the declaration. A parameter of their kind reads them from there as they
were, at every depth, and that is what the factory is called with.
-/

namespace LoggingFacade

/-- The argument that a scalar is for a parameter of its kind. -/
inductive Document.Carries : Document → ParameterKind → Argument → Prop
  | bool (b : Bool) : Carries (.bool b) .bool (.bool b)
  | int {n : Int} (hlow : -2 ^ 63 ≤ n) (hhigh : n < 2 ^ 63) : Carries (.integer n) .int (.int n)
  | text (s : String) : Carries (.text s) .text (.text s)

/-- The parameter is the last one of its name, so its argument is the one under this name. -/
def Plugin.Settles {σ : Type} (p : Plugin σ) (q : Parameter) : Prop :=
  ∃ before after, p.parameters = before ++ q :: after ∧ q.name ∉ after.map Parameter.name

namespace Document

open Coercion (StandsFor coerce coerce_bool_iff coerce_int_iff)

theorem Carries.isAttribute {document : Document} {kind : ParameterKind} {value : Argument}
    (h : document.Carries kind value) : kind.isAttribute = true := by
  cases h <;> rfl

/-- A scalar is kept as a text that is read as the same scalar. -/
theorem Carries.exists_raw {document : Document} {kind : ParameterKind} {value : Argument}
    (h : document.Carries kind value) : ∃ raw, document.scalarText? = some raw ∧
      ∀ component parameter, coerce component parameter kind raw = .ok value := by
  cases h with
  | bool b =>
    refine ⟨Coercion.nameOf b, rfl, ?_⟩
    intro component parameter
    cases b <;> rfl
  | @int n hlow hhigh =>
    have hcontains := (Number.contains_int64 n).2 ⟨hlow, hhigh⟩
    refine ⟨toString n, by rw [scalarText?, if_pos hcontains], ?_⟩
    intro component parameter
    have hnumeral := Number.isNumeral_toString n
    exact coerce_int_iff.2 (.int ⟨[], [], by simp, by simp, by simp⟩ hnumeral hlow hhigh)
  | text s => exact ⟨s, rfl, fun _ _ => rfl⟩

end Document

namespace Build

variable {σ : Type} {b : Binding σ} {p : Plugin σ} {d : Declaration} {a : Arguments}
  {components : List Component}

theorem names_of_sets {component : String} {picks : List (Parameter × List Component)}
    {given : List (String × Argument)}
    (h : List.Forall₂ (fun s x => s.1.Sets component d s.2 x) picks given) :
    given.map Prod.fst = (picks.map Prod.fst).map Parameter.name := by
  induction h with
  | nil => rfl
  | cons hset _ ih => rw [List.map_cons, List.map_cons, List.map_cons, ih, hset.name]

/-- What the last parameter of a name sets stands behind all else under this name. -/
theorem exists_last_set {q : Parameter} {before after : List Parameter} {component : String}
    {given : List (String × Argument)} (hlast : q.name ∉ after.map Parameter.name)
    (h : List.Forall₂ (fun s x => s.1.Sets component d s.2 x)
      (shares (before ++ q :: after) components) given) :
    ∃ picked value, q.read component d picked = .ok value ∧
      ∃ front back, given = front ++ (q.name, value) :: back ∧ q.name ∉ back.map Prod.fst := by
  induction before generalizing components given with
  | nil =>
    obtain ⟨⟨name, value⟩, back, ⟨hname, hread, -⟩, hback, rfl⟩ := List.forall₂_cons_left_iff.1 h
    obtain rfl : name = q.name := hname
    refine ⟨_, value, hread, [], back, rfl, ?_⟩
    rwa [names_of_sets hback, map_fst_shares]
  | cons r before ih =>
    obtain ⟨x, later, -, hlater, rfl⟩ := List.forall₂_cons_left_iff.1 h
    obtain ⟨picked, value, hread, front, back, rfl, hback⟩ := ih hlater
    exact ⟨picked, value, hread, x :: front, back, rfl, hback⟩

/-- The argument under the name of a parameter that settles it is the one it reads. -/
theorem get?_of_setBy {q : Parameter} (hset : SetBy a p d components) (hq : p.Settles q) :
    ∃ picked value, q.read p.name d picked = .ok value ∧ a.get? q.name = some value := by
  obtain ⟨before, after, hsplit, hlast⟩ := hq
  have hvalues := hset.values
  rw [hsplit] at hvalues
  obtain ⟨picked, value, hread, front, back, hgiven, hback⟩ := exists_last_set hlast hvalues
  refine ⟨picked, value, hread, ?_⟩
  have hreverse : a.values = back.reverse ++ (q.name, value) :: front.reverse := by
    rw [← List.reverse_reverse a.values, hgiven]
    simp
  have habsent : back.reverse.lookup q.name = none := by
    rw [TextMap.lookup_eq_none, List.map_reverse, List.mem_reverse]
    exact hback
  rw [Arguments.get?, hreverse, List.lookup_append, habsent]
  simp

theorem mem_calls_of_setBy {t : Tried σ} (hp : b.lookup t.node.typeName = some p)
    (hset : SetBy a p t.node (nested b t.node t.state)) : (p, a) ∈ t.calls b := by
  rw [Tried.calls, hp]
  simp only [ownInvocation, assembled_eq_ok_iff.2 hset]
  exact List.mem_singleton_self _

/-- For every declaration that is tried, at any depth, the document has an entry at the same
address. A scalar that counts there for a parameter of its kind is read as it is, so it never
stands in the way of a call, and each call gets it. An integer is read from the numerals within
64 bits and from nothing else, a boolean from its name in any case, and what is not read is a
failure that names component and parameter. -/
theorem scalars_reach_factories {strict : Bool} {document : Document}
    (hread : Declaration.ofDocument? strict document = some d) (b : Binding σ) (w : σ) :
    (invoked b d w = (tried b d w).flatMap (Tried.calls b) ∧
      ∀ t ∈ tried b d w, ∃ given, Declaration.documentAt? strict document t.address = some given ∧
        ∀ (q : Parameter) (e : String × Document) (value : Argument),
          Document.CountsFor (Declaration.attributeEntries strict given) q.name e →
          e.2.Carries q.kind value →
          (∀ component picked, q.read component t.node picked = .ok value) ∧
            ∀ call ∈ t.calls b, call.1.Settles q → call.2.get? q.name = some value) ∧
    ∀ component parameter raw,
      (∀ value, Coercion.coerce component parameter .int raw = .ok value ↔
        Coercion.StandsFor raw .int value) ∧
      (∀ value, Coercion.coerce component parameter .bool raw = .ok value ↔
        Coercion.StandsFor raw .bool value) ∧
      ∀ kind, (∃ value, Coercion.coerce component parameter kind raw = .ok value) ∨
        ∃ reason, Coercion.coerce component parameter kind raw =
          .error (.coercion component parameter reason) := by
  refine ⟨⟨by rw [flatMap_calls_tried, invoked_eq], ?_⟩, ?_⟩
  · intro t ht
    obtain ⟨given, hgiven, hattributes⟩ :=
      Declaration.documentAt?_of_at? hread (at?_of_mem_tried b d w ht)
    refine ⟨given, hgiven, ?_⟩
    intro q e value he hcarries
    obtain ⟨raw, hraw, hcoerce⟩ := hcarries.exists_raw
    have hfound : q.raw? t.node = some raw := by
      rw [Parameter.raw?, Declaration.attr?_of_countsFor hattributes he hraw, Option.some_or]
    have hreads : ∀ component picked, q.read component t.node picked = .ok value := by
      intro component picked
      rw [Parameter.read_attribute hcarries.isAttribute, hfound]
      exact hcoerce component q.name
    refine ⟨hreads, ?_⟩
    intro call hcall hq
    obtain ⟨-, hset⟩ := mem_calls hcall
    obtain ⟨picked, argument, hargument, hget⟩ := get?_of_setBy hset hq
    rw [hreads] at hargument
    cases hargument
    exact hget
  · intro component parameter raw
    exact ⟨fun _ => Coercion.coerce_int_iff, fun _ => Coercion.coerce_bool_iff,
      fun kind => Coercion.coerce_cases component parameter kind raw⟩

/-- A nested declaration with an integer under two keys, one of them given twice. -/
theorem scalars_reach_factories_nested :
    let probe : Plugin Unit := ⟨"Probe", .layout, "",
      [.mandatory "depth" .int, .mandatory "on" .bool, .optional "title" .text],
      fun _ => pure (.failed (.internal "no product"))⟩
    let b : Binding Unit := ⟨TextMap.empty.insert "probe" probe⟩
    let entries : List (String × Document) := [("depth", .integer 1), ("Depth", .integer 2),
      ("Depth", .integer (-9223372036854775808)), ("ON", .bool false), ("title", .text " 7 ")]
    let document : Document := .table [("type", .text "PROBE"), ("children", .list
      [.table [("type", .text "probe"), ("attributes", .table entries)]])]
    ∃ d a, Declaration.ofDocument? true document = some d ∧ (probe, a) ∈ invoked b d () ∧
      Document.CountsFor entries "depth" ("Depth", .integer (-9223372036854775808)) ∧
      probe.Settles (.mandatory "depth" .int) ∧
      a.get? "depth" = some (.int (-9223372036854775808)) := by
  intro probe b entries document
  let node : Declaration := ⟨"probe", .ofList [("depth", "1"), ("Depth", "-9223372036854775808"),
    ("ON", "false"), ("title", " 7 ")], []⟩
  let d : Declaration := ⟨"PROBE", .empty, [node]⟩
  let a : Arguments := ⟨"Probe", [("title", .text " 7 "), ("on", .bool false),
    ("depth", .int (-9223372036854775808))]⟩
  have hread : Declaration.ofDocument? true document = some d := by decide +kernel
  obtain ⟨⟨hinvoked, hcalls⟩, -⟩ := scalars_reach_factories hread b ()
  have ht : ⟨[0], node, ()⟩ ∈ tried b d () := List.mem_cons_self
  have hset : SetBy a probe node [] :=
    ⟨rfl, .cons ⟨rfl, by rfl, fun _ => rfl⟩ (.cons ⟨rfl, by rfl, fun _ => rfl⟩
      (.cons ⟨rfl, by rfl, fun h => nomatch h⟩ .nil))⟩
  have hlookup : b.lookup "probe" = some probe := by rfl
  have hcall : (probe, a) ∈ Tried.calls b ⟨[0], node, ()⟩ := mem_calls_of_setBy hlookup hset
  have hcounts : Document.CountsFor entries "depth"
      ("Depth", .integer (-9223372036854775808)) := by
    refine ⟨⟨entries.take 2, entries.drop 3, rfl, by decide⟩, by decide, by decide⟩
  have hsettles : probe.Settles (.mandatory "depth" .int) := ⟨[], _, rfl, by decide⟩
  obtain ⟨given, hgiven, hscalars⟩ := hcalls _ ht
  obtain rfl : given = .table [("type", .text "probe"), ("attributes", .table entries)] :=
    (Option.some.inj hgiven).symm
  have hget := (hscalars (.mandatory "depth" .int) _ _ hcounts (.int (by decide) (by decide))).2 _
    hcall hsettles
  refine ⟨d, a, hread, ?_, hcounts, hsettles, hget⟩
  rw [hinvoked]
  exact List.mem_flatMap_of_mem ht hcall

end Build
end LoggingFacade
