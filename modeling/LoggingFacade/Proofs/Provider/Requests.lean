import LoggingFacade.Proofs.Calls.Recording
import LoggingFacade.Proofs.Number.Numeral
import LoggingFacade.Proofs.Provider.Selection

/-!
# What is asked of providers

Run over a log, discovery and selection show what they ask of the locator and of
the catalog, and when. Discovery asks for the backend of a class only where the
record is trusted, once for each such source and in their order, whatever became
of the requests before. Selection asks for the configured class first, and for
nothing else if that can be made.
-/

namespace LoggingFacade

open Number (Bounds IsNumeral)
open Traced (Records)

namespace Metadata

/-- A record gives no priority, an integer of 32 signed bits, or the numeral of
one in a text, with white space around it. -/
inductive ValidPriority : Option Document → Prop
  | absent : ValidPriority none
  | integer {n : Int} (hlow : -2147483648 ≤ n) (hhigh : n ≤ 2147483647) :
      ValidPriority (some (.integer n))
  | text {s : String} {n : Int} (h : IsNumeral (Text.trim s).toList n)
      (hlow : -2147483648 ≤ n) (hhigh : n ≤ 2147483647) : ValidPriority (some (.text s))

theorem contains_int32 (n : Int) :
    Bounds.int32.contains n = true ↔ -2147483648 ≤ n ∧ n ≤ 2147483647 := by
  rw [Bounds.contains, Bool.and_eq_true, decide_eq_true_eq, decide_eq_true_eq]
  rfl

theorem validPriority_iff (m : Metadata) (source : String) :
    ValidPriority m.priorityValue ↔ ∃ p, m.priority source = .ok p := by
  have hread := fun s n => Number.readInteger_eq_ok (b := .int32) (by decide) (by decide) s n
  rw [priority]
  generalize m.priorityValue = value
  constructor
  · intro h
    cases h with
    | absent => exact ⟨standardPriority, rfl⟩
    | @integer n hlow hhigh =>
      have hcontains := (contains_int32 n).2 ⟨hlow, hhigh⟩
      exact ⟨n, if_pos hcontains⟩
    | @text s n h hlow hhigh =>
      have hcontains := (contains_int32 n).2 ⟨hlow, hhigh⟩
      simp only [(hread (Text.trim s) n).2 ⟨h, hcontains⟩]
      exact ⟨n, rfl⟩
  · rintro ⟨p, hp⟩
    split at hp
    · exact .absent
    · split at hp
      · rename_i hcontains
        obtain ⟨hlow, hhigh⟩ := (contains_int32 _).1 hcontains
        exact .integer hlow hhigh
      · contradiction
    · split at hp
      · rename_i n hn
        obtain ⟨hnumeral, hcontains⟩ := (hread _ n).1 hn
        obtain ⟨hlow, hhigh⟩ := (contains_int32 _).1 hcontains
        exact .text hnumeral hlow hhigh
      · contradiction
    · contradiction

end Metadata

/-- A request to code that is not part of the facade: to a locator for its
sources, or to a catalog for the backend of a class. -/
inductive ProviderRequest where
  | sources
  | backend (className source : String)
  deriving DecidableEq, Repr

namespace Source

/-- The record of the source can be read and is a document. It names an accepted
version and a class, and its priority is left out or valid. -/
def Trusted (s : Source) (className : String) : Prop :=
  ∃ text d version, s.read = .ok text ∧ Metadata.document? text = some d ∧
    (d.get? Metadata.versionKey).bind Document.asText? = some version ∧
    Provider.isCompatible (some version) = true ∧
    (d.get? Metadata.factoryKey).bind Document.asText? = some className ∧
    Metadata.ValidPriority (d.get? Metadata.priorityKey)

/-- The requests for backends that sources lead to: one for each trusted source,
in order. -/
inductive Requests : List Source → List ProviderRequest → Prop
  | nil : Requests [] []
  | trusted {s : Source} {className : String} {rest : List Source}
      {requests : List ProviderRequest} :
      s.Trusted className → Requests rest requests →
      Requests (s :: rest) (.backend className s.id :: requests)
  | other {s : Source} {rest : List Source} {requests : List ProviderRequest} :
      (∀ className, ¬s.Trusted className) → Requests rest requests →
      Requests (s :: rest) requests

/-- The request that the examination of a source leads to. -/
def requests (s : Source) : List ProviderRequest :=
  match s.examine with
  | .trusted c => [.backend c.className c.source]
  | .passedOver _ => []
  | .broken _ => []

theorem trusted_iff (s : Source) (className : String) :
    s.Trusted className ↔ ∃ c, s.examine = .trusted c ∧ c.className = className := by
  simp only [examine_eq_trusted, Claims, Trusted, Metadata.read]
  constructor
  · rintro ⟨text, d, version, htext, hd, hversion, hcompatible, hfactory, hvalid⟩
    obtain ⟨p, hp⟩ := ((Metadata.ofDocument d).validPriority_iff s.id).1 hvalid
    refine ⟨⟨className, version, p, s.id⟩, ⟨rfl, text, .ofDocument d, htext, ?_⟩, rfl⟩
    rw [hd]
    have haccepted : Provider.isCompatible (Metadata.ofDocument d).apiVersion = true := by
      rwa [Metadata.ofDocument, hversion]
    exact ⟨rfl, hversion, haccepted, hfactory, hp⟩
  · rintro ⟨c, ⟨-, text, m, htext, hm, hversion, hcompatible, hfactory, hp⟩, rfl⟩
    split at hm
    · rename_i d hd
      injection hm with hm
      subst hm
      rw [hversion] at hcompatible
      exact ⟨text, d, c.apiVersion, htext, hd, hversion, hcompatible, hfactory,
        ((Metadata.ofDocument d).validPriority_iff s.id).2 ⟨_, hp⟩⟩
    · contradiction

theorem requests_eq_of_trusted {s : Source} {className : String} (h : s.Trusted className) :
    s.requests = [.backend className s.id] := by
  obtain ⟨c, hc, rfl⟩ := (s.trusted_iff className).1 h
  have hsource : c.source = s.id := (examine_eq_trusted.1 hc).1
  rw [requests, hc, ← hsource]

theorem requests_eq_nil {s : Source} (h : ∀ className, ¬s.Trusted className) :
    s.requests = [] := by
  rw [requests]
  split
  · rename_i c hc
    exact absurd ((s.trusted_iff c.className).2 ⟨c, hc, rfl⟩) (h c.className)
  · rfl
  · rfl

/-- Sources lead to one list of requests only. -/
theorem requests_iff (sources : List Source) (requests : List ProviderRequest) :
    Requests sources requests ↔ requests = sources.flatMap Source.requests := by
  constructor
  · intro h
    induction h with
    | nil => rfl
    | trusted htrusted _ ih => rw [List.flatMap_cons, requests_eq_of_trusted htrusted, ← ih]; rfl
    | other hother _ ih => rw [List.flatMap_cons, requests_eq_nil hother, ← ih]; rfl
  · rintro rfl
    induction sources with
    | nil => exact .nil
    | cons s rest ih =>
      rw [List.flatMap_cons]
      by_cases htrusted : ∃ className, s.Trusted className
      · obtain ⟨className, htrusted⟩ := htrusted
        rw [requests_eq_of_trusted htrusted]
        exact .trusted htrusted ih
      · have hother : ∀ className, ¬s.Trusted className := not_exists.1 htrusted
        rw [requests_eq_nil hother]
        exact .other hother ih

/-- The second record has no version that is a text, the third one no valid
priority. -/
example :
    let record (version priority : String) : SourceBody := .inline
      ("LoggerContextFactory = \"b\"\nApiVersion = " ++ version ++ "\nFactoryPriority = " ++
        priority)
    Requests [⟨"1", record "\"2.0.0\"" "7"⟩, ⟨"2", record "2" "7"⟩,
      ⟨"3", record "\"2.0.1\"" "\"high\""⟩, ⟨"4", record "\"2.0.1\"" "\" +7 \""⟩]
      [.backend "b" "1", .backend "b" "4"] :=
  (requests_iff _ _).2 (by decide +kernel)

end Source

/-! ## Discovery over a log -/

section Recording

variable {σ β : Type}

/-- The same locator, noting that it is asked. -/
def Locator.recording (l : Locator σ) : Locator (σ × List ProviderRequest) :=
  ⟨l.description, l.sources.noted .sources⟩

/-- The same catalog, noting what it is asked for. -/
def Catalog.recording (c : Catalog σ β) : Catalog (σ × List ProviderRequest) β :=
  ⟨fun className source => (c.instantiate className source).noted (.backend className source)⟩

def Registry.recording (r : Registry σ β) : Registry (σ × List ProviderRequest) β :=
  ⟨r.locator.recording, r.catalog.recording⟩

/-- The same selector over a log. The fallback is no provider. -/
def Selector.recording (s : Selector σ β) : Selector (σ × List ProviderRequest) β :=
  ⟨s.overrideClass, s.registry.recording, s.fallbackLevel, fun level => (s.fallback level).unnoted⟩

namespace Registry

variable (r : Registry σ β)

theorem records_instantiate (className source : String) :
    Records (r.recording.instantiate className source) (r.instantiate className source)
      fun _ => [.backend className source] :=
  (Traced.records_noted _ (r.catalog.instantiate className source)).bind_of_silent
    fun _ => Traced.records_pure _

theorem records_fulfil (c : Claim) :
    Records (r.recording.fulfil c) (r.fulfil c) fun _ => [.backend c.className c.source] := by
  refine (r.records_instantiate c.className c.source).bind_of_silent ?_
  intro result
  cases result with
  | ok backend => exact Traced.records_pure _
  | error e => exact Traced.records_pure _

theorem records_load (s : Source) :
    Records (r.recording.load s) (r.load s) fun _ => s.requests := by
  unfold load Source.requests
  cases s.examine with
  | passedOver reason => exact (Traced.records_report _).bind_of_silent fun _ => Traced.records_pure _
  | broken e => exact (Traced.records_report _).bind_of_silent fun _ => Traced.records_pure _
  | trusted c =>
    refine (r.records_fulfil c).bind_of_silent ?_
    intro result
    cases result with
    | ok d => exact Traced.records_pure _
    | error e => exact (Traced.records_report _).bind_of_silent fun _ => Traced.records_pure _

theorem records_keep (d : Descriptor β) (kept : List (Descriptor β)) :
    Records (keep d kept : Traced (σ × List ProviderRequest) _) (keep d kept) fun _ => [] := by
  unfold keep
  cases kept.find? (·.priority = d.priority) with
  | none => exact (Traced.records_pure _).bind_of_silent fun _ => Traced.records_pure _
  | some replaced => exact (Traced.records_report _).bind_of_silent fun _ => Traced.records_pure _

/-- What becomes of one request has no influence on the next ones. -/
theorem records_gather (kept : List (Descriptor β)) (sources : List Source) :
    Records (r.recording.gather kept sources) (r.gather kept sources)
      fun _ => sources.flatMap Source.requests := by
  induction sources generalizing kept with
  | nil => exact Traced.records_pure _
  | cons s rest ih =>
    refine (r.records_load s).bind (fun _ _ => rest.flatMap Source.requests) ?_
    intro found
    cases found with
    | none => exact ih kept
    | some d => exact (records_keep d kept).bind_silent _ fun kept => ih kept

/-- The sources that the locator finds from a state; none if it fails. -/
def found (w : σ) : List Source :=
  match (r.locator.sources.run w).value with
  | .ok sources => sources
  | .error _ => []

theorem value_sources (w : σ) : (r.sources.run w).value = r.found w := by
  rw [sources, Traced.value_bind, found]
  cases (r.locator.sources.run w).value <;> rfl

theorem records_sources : Records r.recording.sources r.sources fun _ => [.sources] := by
  refine (Traced.records_noted _ r.locator.sources).bind_of_silent ?_
  intro result
  cases result with
  | ok found => exact Traced.records_pure _
  | error e => exact (Traced.records_report _).bind_of_silent fun _ => Traced.records_pure _

theorem records_discover : Records r.recording.discover r.discover
    fun w => .sources :: (r.found w).flatMap Source.requests := by
  refine (r.records_sources.bind _ fun sources => r.records_gather [] sources).congr ?_
  intro w
  rw [value_sources]
  rfl

end Registry

/-! ## Selection over a log -/

namespace Selector

variable (s : Selector σ β)

/-- The request for the configured class, if there is one. -/
def overrideRequests : List ProviderRequest :=
  match s.overrideClass with
  | none => []
  | some className => [.backend className overrideSource]

theorem records_selectOverride :
    Records s.recording.selectOverride s.selectOverride fun _ => s.overrideRequests := by
  unfold selectOverride overrideRequests
  change Records (match s.overrideClass with | none => _ | some _ => _) _ _
  cases s.overrideClass with
  | none => exact Traced.records_pure _
  | some className =>
    refine (s.registry.records_instantiate className overrideSource).bind_of_silent ?_
    intro result
    cases result with
    | ok backend => exact (Traced.records_report _).bind_of_silent fun _ => Traced.records_pure _
    | error e => exact (Traced.records_report _).bind_of_silent fun _ => Traced.records_pure _

theorem records_selectDiscovered (candidates : List (Descriptor β)) :
    Records (selectDiscovered candidates : Traced (σ × List ProviderRequest) _)
      (selectDiscovered candidates) fun _ => [] := by
  unfold selectDiscovered
  cases candidates.getLast? with
  | none => exact Traced.records_pure _
  | some winner =>
    simp only
    split
    · exact (Traced.records_report _).bind_of_silent fun _ => Traced.records_pure _
    · exact (Traced.records_report _).bind_of_silent fun _ => Traced.records_pure _

theorem records_selectCandidate (candidates : List (Descriptor β)) :
    Records (s.recording.selectCandidate candidates) (s.selectCandidate candidates)
      fun _ => [] := by
  refine (records_selectDiscovered candidates).bind_of_silent ?_
  intro selected
  cases selected with
  | some selected => exact Traced.records_pure _
  | none =>
    refine (Traced.records_report _).bind_of_silent ?_
    intro _
    exact (Traced.records_unnoted _).bind_of_silent fun _ => Traced.records_pure _

/-- What selection asks for from a state. -/
inductive Requests (w : σ) : List ProviderRequest → Prop
  | unconfigured {requests : List ProviderRequest} :
      s.overrideClass = none → Source.Requests (s.registry.found w) requests →
      Requests w (.sources :: requests)
  | configured {className : String} {b : β} :
      s.overrideClass = some className →
      s.registry.catalog.made? w className overrideSource = some b →
      Requests w [.backend className overrideSource]
  | failed {className : String} {requests : List ProviderRequest} :
      s.overrideClass = some className →
      s.registry.catalog.made? w className overrideSource = none →
      Source.Requests (s.registry.found (s.afterOverride w)) requests →
      Requests w (.backend className overrideSource :: .sources :: requests)

theorem records_select : Records s.recording.select s.select fun w =>
    s.overrideRequests ++ match s.configured? w with
      | some _ => []
      | none => .sources :: (s.registry.found (s.afterOverride w)).flatMap Source.requests := by
  refine (s.records_selectOverride.bind (fun selected w => selected.elim
    (.sources :: (s.registry.found w).flatMap Source.requests) fun _ => []) ?_).congr ?_
  · intro selected
    cases selected with
    | some selected => exact Traced.records_pure _
    | none =>
      exact s.registry.records_discover.bind_of_silent fun found => s.records_selectCandidate found
  · intro w
    rw [value_selectOverride]
    cases s.configured? w <;> rfl

theorem requests_select (w : σ) : s.Requests w (s.overrideRequests ++ match s.configured? w with
    | some _ => []
    | none => .sources :: (s.registry.found (s.afterOverride w)).flatMap Source.requests) := by
  have hfound := fun w => (Source.requests_iff (s.registry.found w) _).2 rfl
  cases hclass : s.overrideClass with
  | none =>
    have hstate : s.afterOverride w = w := by rw [afterOverride, selectOverride, hclass]; rfl
    simp only [overrideRequests, configured?, hclass, Option.bind_none, hstate]
    exact .unconfigured hclass (hfound w)
  | some className =>
    simp only [overrideRequests, configured?, hclass, Option.bind_some]
    cases hmade : s.registry.catalog.made? w className overrideSource with
    | some b => exact .configured hclass hmade
    | none => exact .failed hclass hmade (hfound _)

/-- Noting the requests changes neither discovery nor selection. Discovery asks
the locator, and then the catalog for the class of each trusted source, once and
in their order, and for nothing else. Selection asks for the configured class
before that; if it can be made, nothing follows. -/
theorem requests_of_trusted_sources_only (w : σ) (log : List ProviderRequest) :
    (∃ requests, Source.Requests (s.registry.found w) requests ∧
      let found := s.registry.discover.run w
      s.registry.recording.discover.run (w, log) =
        ⟨found.value, (found.state, log ++ .sources :: requests), found.diagnostics⟩) ∧
    ∃ requests, s.Requests w requests ∧
      let selected := s.select.run w
      s.recording.select.run (w, log) =
        ⟨selected.value, (selected.state, log ++ requests), selected.diagnostics⟩ := by
  constructor
  · have hrequests := (Source.requests_iff (s.registry.found w) _).2 rfl
    exact ⟨_, hrequests, s.registry.records_discover w log⟩
  · exact ⟨_, s.requests_select w, s.records_select w log⟩

end Selector

end Recording
end LoggingFacade
