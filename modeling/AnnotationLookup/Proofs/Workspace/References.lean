import AnnotationLookup.Proofs.Provider.Serving
import AnnotationLookup.Proofs.Workspace.Presence

/-!
# References of values

A class value becomes a reference, and an array becomes a list of references if it holds nothing but
classes. The references are bound to the factory of the enclosing type, which was served when the
annotation was completed, however long ago.

* `Value.toReference`, `Value.toReferences`: the references that values become;
* `Value.toReferences_eq_ok_iff`, `Value.toReferences_of_first`: all items, or the first that is not a
  class;
* `Workspace.Later.lookup_value_or_references`: what lookups of one use and key come to in all forms;
* `Workspace.Later.serves_of_reference`: the references that are found are bound to a served factory;
* **`Workspace.Later.references_all_or_nothing`**: the main statement.
-/

namespace AnnotationLookup

/-! ## References of one value -/

namespace Value

variable (factory : Factory) (v : Value)

/-- The reference that a class becomes under a factory. -/
def toReference : Except Cause TypeReference := do
  let type : TypeName ← v.toPlain .classRef
  pure ⟨type.text, factory⟩

/-- The references that an array of classes becomes under a factory. -/
def toReferences : Except Cause (List TypeReference) := do
  let items : List Value ← v.toPlain .array
  items.mapM (toReference factory)

variable {factory v} {x : TypeReference} {rs : List TypeReference}

theorem toReference_of_ne (h : ∀ type, v ≠ .classRef type) :
    v.toReference factory = .error (.unexpectedValue ⟨"class", v.kindName⟩) := by
  cases v with
  | classRef type => exact absurd rfl (h type)
  | _ => rfl

theorem toReference_eq_ok_iff :
    v.toReference factory = .ok x ↔ ∃ type, v = .classRef type ∧ x = ⟨type.text, factory⟩ := by
  constructor
  · intro h
    cases v with
    | classRef type => exact ⟨type, rfl, (Except.ok.inj h).symm⟩
    | _ => cases h
  · rintro ⟨type, rfl, rfl⟩
    rfl

theorem mapM_toReference_cons (item : Value) (items : List Value) :
    (item :: items).mapM (toReference factory) = (item.toReference factory).bind fun x =>
      (items.mapM (toReference factory)).map (x :: ·) := by
  rw [List.mapM_cons]
  cases item.toReference factory with
  | error cause => rfl
  | ok x => cases items.mapM (toReference factory) <;> rfl

theorem mapM_toReference_map (types : List TypeName) :
    (types.map Value.classRef).mapM (toReference factory) = .ok (types.map (⟨·.text, factory⟩)) := by
  induction types with
  | nil => rfl
  | cons type types ih =>
    rw [List.map_cons, mapM_toReference_cons, ih]
    rfl

theorem exists_of_mapM_toReference {items : List Value}
    (h : items.mapM (toReference factory) = .ok rs) :
    ∃ types : List TypeName, items = types.map .classRef := by
  induction items generalizing rs with
  | nil => exact ⟨[], rfl⟩
  | cons item items ih =>
    rw [mapM_toReference_cons] at h
    cases hitem : item.toReference factory with
    | error cause =>
      rw [hitem] at h
      cases h
    | ok x =>
      rw [hitem] at h
      cases hitems : items.mapM (toReference factory) with
      | error cause =>
        rw [hitems] at h
        cases h
      | ok rs =>
        obtain ⟨type, rfl, -⟩ := toReference_eq_ok_iff.1 hitem
        obtain ⟨types, rfl⟩ := ih hitems
        exact ⟨type :: types, rfl⟩

theorem toReferences_of_ne (h : ∀ items, v ≠ .array items) :
    v.toReferences factory = .error (.unexpectedValue ⟨"array", v.kindName⟩) := by
  cases v with
  | array items => exact absurd rfl (h items)
  | _ => rfl

/-- **All of the items become references, or none.** -/
theorem toReferences_eq_ok_iff :
    v.toReferences factory = .ok rs ↔
      ∃ types : List TypeName, v = .array (types.map .classRef) ∧
        rs = types.map (⟨·.text, factory⟩) := by
  constructor
  · intro h
    cases v with
    | array items =>
      obtain ⟨types, rfl⟩ := exists_of_mapM_toReference h
      rw [toReferences] at h
      exact ⟨types, rfl, (Except.ok.inj ((mapM_toReference_map types).symm.trans h)).symm⟩
    | _ => cases h
  · rintro ⟨types, rfl, rfl⟩
    exact mapM_toReference_map types

/-- **The first item that is not a class** is the one of which the failure tells. -/
theorem toReferences_of_first (before : List TypeName) {item : Value} (after : List Value)
    (h : ∀ type, item ≠ .classRef type) :
    (Value.array (before.map .classRef ++ item :: after)).toReferences factory =
      .error (.unexpectedValue ⟨"class", item.kindName⟩) := by
  change (before.map Value.classRef ++ item :: after).mapM (toReference factory) = _
  induction before with
  | nil =>
    rw [List.map_nil, List.nil_append, mapM_toReference_cons, toReference_of_ne h]
    rfl
  | cons type before ih =>
    rw [List.map_cons, List.cons_append, mapM_toReference_cons, ih]
    rfl

end Value

/-! ## Lookups -/

theorem map_mapError_eq_ok_iff {ε ε' α β : Type} {o : Except ε α} {g : α → β} {F : ε → ε'} {b : β} :
    (o.map g).mapError F = .ok b ↔ ∃ a, o = .ok a ∧ b = g a := by
  cases o with
  | error e =>
    refine iff_of_false (fun h => ?_) fun ⟨a, ha, _⟩ => ?_
    · cases h
    · cases ha
  | ok a =>
    constructor
    · intro h
      exact ⟨a, rfl, (Except.ok.inj h).symm⟩
    · rintro ⟨a, ⟨⟩, rfl⟩
      rfl

namespace Completed

variable {t : Tree} {id : UseId} {factory : Factory}

theorem reference_eq (a : Completed) (key : String) (h : t.enclosingFactory id = .ok factory) :
    a.reference t id key = (a.value key).bind (Value.toReference factory) := by
  simp only [reference, h]
  cases hvalue : a.value key with
  | error cause => simp only [plain, hvalue]; rfl
  | ok v => simp only [plain, hvalue]; rfl

theorem references_eq (a : Completed) (key : String) (h : t.enclosingFactory id = .ok factory) :
    a.references t id key = (a.value key).bind (Value.toReferences factory) := by
  simp only [references, h]
  cases hvalue : a.value key with
  | error cause => simp only [plain, hvalue]; rfl
  | ok v => simp only [plain, hvalue]; rfl

end Completed

namespace Workspace

variable {σ : Type} {host : Host σ} {ts : List Tree} {w₀ w : World σ} {ws : Workspace σ} {i k : Nat}
  {r : Resolver} {t : Tree}

section Lookup

variable (h : Later host (fun _ => True) (holding ts w₀) ws) (hr : ws.resolvers[i]? = some r)
  (ht : ws.trees[k]? = some t)
include h hr ht

/-- A use and a key are looked up in vain in every form, or have a value, and then lookups of
references come to what the value becomes under the factory of the enclosing type, which is served. -/
theorem Later.lookup_value_or_references (use : UseId) (key : String) (w : World σ) :
    (∃ f, ∀ query, (r.lookup host t use key query w).1 = .error f) ∨
      ∃ v factory, (r.lookup host t use key .value w).1 = .ok (.value v) ∧
        t.enclosingFactory use = .ok factory ∧ r.provider.serves factory = true ∧
        (r.lookup host t use key .reference w).1 =
          ((v.toReference factory).map Reply.reference).mapError (⟨use, key, ·⟩) ∧
        (r.lookup host t use key .references w).1 =
          ((v.toReferences factory).map Reply.references).mapError (⟨use, key, ·⟩) := by
  have hlookup (query : Query) : (r.lookup host t use key query w).1 =
      ((r.complete host t use w).1.bind fun a => a.reply t use key query).mapError
        (⟨use, key, ·⟩) := rfl
  cases ha : (r.complete host t use w).1 with
  | error cause => exact .inl ⟨⟨use, key, cause⟩, fun query => by rw [hlookup, ha]; rfl⟩
  | ok a =>
    obtain ⟨g, hg, hserves⟩ := h.served_of_complete hr ht ha
    have hfactory := Tree.enclosingFactory_of_target hg
    cases hvalue : a.value key with
    | error cause =>
      -- every form asks for the value first, and fails as it does
      refine .inl ⟨⟨use, key, cause⟩, fun query => ?_⟩
      rw [hlookup, ha]
      cases query <;>
        simp only [Except.bind, Completed.reply, Completed.plain, hvalue,
          a.reference_eq key hfactory, a.references_eq key hfactory] <;> rfl
    | ok v =>
      refine .inr ⟨v, g.enclosing.factory, ?_, hfactory, hserves, ?_, ?_⟩
      · rw [hlookup, ha]
        simp only [Except.bind, Completed.reply, hvalue]
        rfl
      · rw [hlookup, ha]
        simp only [Except.bind, Completed.reply, a.reference_eq key hfactory, hvalue]
      · rw [hlookup, ha]
        simp only [Except.bind, Completed.reply, a.references_eq key hfactory, hvalue]

theorem Later.lookup_of_value {use : UseId} {key : String} {v : Value}
    (hv : (r.lookup host t use key .value w).1 = .ok (.value v)) :
    ∃ factory, t.enclosingFactory use = .ok factory ∧
      (r.lookup host t use key .reference w).1 =
        ((v.toReference factory).map Reply.reference).mapError (⟨use, key, ·⟩) ∧
      (r.lookup host t use key .references w).1 =
        ((v.toReferences factory).map Reply.references).mapError (⟨use, key, ·⟩) := by
  rcases h.lookup_value_or_references hr ht use key w with
    ⟨f, hf⟩ | ⟨v', factory, hv', hfactory, -, hreplies⟩
  · rw [hf] at hv
    cases hv
  · cases hv.symm.trans hv'
    exact ⟨factory, hfactory, hreplies⟩

/-- References are found exactly if the value is an array of classes. -/
theorem Later.lookup_references_iff {use : UseId} {key : String} {reply : Reply} :
    (r.lookup host t use key .references w).1 = .ok reply ↔
      ∃ (types : List TypeName) (factory : Factory),
        (r.lookup host t use key .value w).1 = .ok (.value (.array (types.map .classRef))) ∧
        t.enclosingFactory use = .ok factory ∧
        reply = .references (types.map (⟨·.text, factory⟩)) := by
  rcases h.lookup_value_or_references hr ht use key w with
    ⟨f, hf⟩ | ⟨v, factory, hvalue, hfactory, -, -, hreferences⟩
  · simp only [hf, reduceCtorEq, false_and, exists_false]
  rw [hreferences, hvalue, hfactory, map_mapError_eq_ok_iff]
  constructor
  · rintro ⟨rs, hrs, rfl⟩
    obtain ⟨types, rfl, rfl⟩ := Value.toReferences_eq_ok_iff.1 hrs
    exact ⟨types, factory, rfl, rfl, rfl⟩
  · rintro ⟨types, factory', hv, hfactory', rfl⟩
    cases hv
    cases hfactory'
    exact ⟨_, Value.toReferences_eq_ok_iff.2 ⟨types, rfl, rfl⟩, rfl⟩

theorem Later.lookup_reference_iff {use : UseId} {key : String} {reply : Reply} :
    (r.lookup host t use key .reference w).1 = .ok reply ↔
      ∃ type factory, (r.lookup host t use key .value w).1 = .ok (.value (.classRef type)) ∧
        t.enclosingFactory use = .ok factory ∧ reply = .reference ⟨type.text, factory⟩ := by
  rcases h.lookup_value_or_references hr ht use key w with
    ⟨f, hf⟩ | ⟨v, factory, hvalue, hfactory, -, hreference, -⟩
  · simp only [hf, reduceCtorEq, false_and, exists_false]
  rw [hreference, hvalue, hfactory, map_mapError_eq_ok_iff]
  constructor
  · rintro ⟨x, hx, rfl⟩
    obtain ⟨type, rfl, rfl⟩ := Value.toReference_eq_ok_iff.1 hx
    exact ⟨type, factory, rfl, rfl, rfl⟩
  · rintro ⟨type, factory', hv, hfactory', rfl⟩
    cases hv
    cases hfactory'
    exact ⟨_, Value.toReference_eq_ok_iff.2 ⟨type, rfl, rfl⟩, rfl⟩

theorem Later.serves_of_found {use : UseId} {key : String} {query : Query} {reply : Reply}
    (hfound : (r.lookup host t use key query w).1 = .ok reply) :
    ∃ factory, t.enclosingFactory use = .ok factory ∧ r.provider.serves factory = true := by
  rcases h.lookup_value_or_references hr ht use key w with
    ⟨f, hf⟩ | ⟨v, factory, -, hfactory, hserves, -⟩
  · rw [hf] at hfound
    cases hfound
  · exact ⟨factory, hfactory, hserves⟩

/-- The references that are found are bound to a factory that is served. -/
theorem Later.serves_of_reference {use : UseId} {key : String} {x : TypeReference}
    (hx : (r.lookup host t use key .reference w).1 = .ok (.reference x) ∨
      ∃ rs, (r.lookup host t use key .references w).1 = .ok (.references rs) ∧ x ∈ rs) :
    r.provider.serves x.factory = true := by
  rcases hx with hfound | ⟨rs, hfound, hmem⟩
  · obtain ⟨type, factory, -, hfactory, hreply⟩ := (h.lookup_reference_iff hr ht).1 hfound
    obtain ⟨factory', hfactory', hserves⟩ := h.serves_of_found hr ht hfound
    cases hreply
    cases hfactory.symm.trans hfactory'
    exact hserves
  · obtain ⟨types, factory, -, hfactory, hreply⟩ := (h.lookup_references_iff hr ht).1 hfound
    obtain ⟨factory', hfactory', hserves⟩ := h.serves_of_found hr ht hfound
    cases hreply
    cases hfactory.symm.trans hfactory'
    obtain ⟨type, -, rfl⟩ := List.mem_map.1 hmem
    exact hserves

end Lookup

/-- **References are found all or none, and can be loaded.** In any history, whatever trees it begins
with, a lookup of references succeeds exactly if the value is an array of nothing but classes. It gives a
reference for each of them, in order, of its name and bound to the factory of the enclosing type. A value
that is no array is told of by its kind, and an array by the kind of its first item that is no class. So
it is with a single class. The provider serves the factory of every reference that is found, and so it
does not fail to load one for want of a class path, if no loader does. -/
theorem Later.references_all_or_nothing (h : Later host (fun _ => True) (holding ts w₀) ws)
    (hr : ws.resolvers[i]? = some r) (ht : ws.trees[k]? = some t) (use : UseId) (key : String)
    (w : World σ) :
    ((∀ reply, (r.lookup host t use key .references w).1 = .ok reply ↔
        ∃ (types : List TypeName) (factory : Factory),
          (r.lookup host t use key .value w).1 = .ok (.value (.array (types.map .classRef))) ∧
          t.enclosingFactory use = .ok factory ∧
          reply = .references (types.map (⟨·.text, factory⟩))) ∧
      ((∃ reply, (r.lookup host t use key .references w).1 = .ok reply) ↔
        ∃ types : List TypeName,
          (r.lookup host t use key .value w).1 = .ok (.value (.array (types.map .classRef)))) ∧
      (∀ v, (r.lookup host t use key .value w).1 = .ok (.value v) → (∀ items, v ≠ .array items) →
        (r.lookup host t use key .references w).1 =
          .error ⟨use, key, .unexpectedValue ⟨"array", v.kindName⟩⟩) ∧
      ∀ (before : List TypeName) item after, (r.lookup host t use key .value w).1 =
          .ok (.value (.array (before.map .classRef ++ item :: after))) →
        (∀ type, item ≠ .classRef type) →
        (r.lookup host t use key .references w).1 =
          .error ⟨use, key, .unexpectedValue ⟨"class", item.kindName⟩⟩) ∧
    ((∀ reply, (r.lookup host t use key .reference w).1 = .ok reply ↔
        ∃ type factory, (r.lookup host t use key .value w).1 = .ok (.value (.classRef type)) ∧
          t.enclosingFactory use = .ok factory ∧ reply = .reference ⟨type.text, factory⟩) ∧
      ((∃ reply, (r.lookup host t use key .reference w).1 = .ok reply) ↔
        ∃ type, (r.lookup host t use key .value w).1 = .ok (.value (.classRef type))) ∧
      ∀ v, (r.lookup host t use key .value w).1 = .ok (.value v) → (∀ type, v ≠ .classRef type) →
        (r.lookup host t use key .reference w).1 =
          .error ⟨use, key, .unexpectedValue ⟨"class", v.kindName⟩⟩) ∧
    (∀ f, (r.lookup host t use key .value w).1 = .error f →
      (r.lookup host t use key .reference w).1 = .error f ∧
      (r.lookup host t use key .references w).1 = .error f) ∧
    ∀ x, ((r.lookup host t use key .reference w).1 = .ok (.reference x) ∨
        ∃ rs, (r.lookup host t use key .references w).1 = .ok (.references rs) ∧ x ∈ rs) →
      r.provider.serves x.factory = true ∧
      ∀ I, host.Bound I → ∀ t' v factory, I v.host →
        Task.outcome (r.provider.load host t' x) v ≠ .error (.unbound factory) := by
  refine ⟨⟨fun reply => h.lookup_references_iff hr ht, ⟨?_, ?_⟩, ?_, ?_⟩,
    ⟨fun reply => h.lookup_reference_iff hr ht, ⟨?_, ?_⟩, ?_⟩, ?_, fun x hx => ?_⟩
  · rintro ⟨reply, hreply⟩
    obtain ⟨types, -, hvalue, -⟩ := (h.lookup_references_iff hr ht).1 hreply
    exact ⟨types, hvalue⟩
  · rintro ⟨types, hvalue⟩
    obtain ⟨factory, hfactory, -⟩ := h.serves_of_found hr ht hvalue
    exact ⟨_, (h.lookup_references_iff hr ht).2 ⟨types, factory, hvalue, hfactory, rfl⟩⟩
  · intro v hv hne
    obtain ⟨factory, -, -, hreply⟩ := h.lookup_of_value hr ht hv
    rw [hreply, Value.toReferences_of_ne hne]
    rfl
  · intro before item after hv hne
    obtain ⟨factory, -, -, hreply⟩ := h.lookup_of_value hr ht hv
    rw [hreply, Value.toReferences_of_first before after hne]
    rfl
  · rintro ⟨reply, hreply⟩
    obtain ⟨type, -, hvalue, -⟩ := (h.lookup_reference_iff hr ht).1 hreply
    exact ⟨type, hvalue⟩
  · rintro ⟨type, hvalue⟩
    obtain ⟨factory, hfactory, -⟩ := h.serves_of_found hr ht hvalue
    exact ⟨_, (h.lookup_reference_iff hr ht).2 ⟨type, factory, hvalue, hfactory, rfl⟩⟩
  · intro v hv hne
    obtain ⟨factory, -, hreply, -⟩ := h.lookup_of_value hr ht hv
    rw [hreply, Value.toReference_of_ne hne]
    rfl
  · intro f hf
    rcases h.lookup_value_or_references hr ht use key w with ⟨f', hf'⟩ | ⟨v, factory, hv, -⟩
    · cases hf.symm.trans (hf' .value)
      exact ⟨hf' .reference, hf' .references⟩
    · rw [hv] at hf
      cases hf
  · have hserves := h.serves_of_reference hr ht hx
    refine ⟨hserves, fun I bound t' v factory hv hload => ?_⟩
    have hunserved := ((r.provider.outcome_load_eq_unbound_iff bound hv factory).1 hload).1
    rw [hserves] at hunserved
    cases hunserved

/-- `@Route(value, peers = {Server, Route}, mixed = {Server, 80})`. -/
def linking : CompiledClass where
  name := "Route"
  kind := .annotationType
  methods := [
    { name := "value" },
    { name := "peers", defaultValue := some (.array [.classRef ⟨"Server"⟩, .classRef ⟨"Route"⟩]) },
    { name := "mixed", defaultValue := some (.array [.classRef ⟨"Server"⟩, .int 80]) }]

open Sample in
/-- The sample tree, after a lookup that has cached the annotation. -/
def linked : Workspace (List Loader) :=
  ((holding [tree abroad] { host := [{ classes := .ofList [linking, server] }] }).run Loader.host
    [.newResolver provider {}, .lookup 0 0 ⟨0⟩ "peers" .references]).2

open Sample in
/-- The references of a cached annotation, and an array that is no list of classes. -/
theorem references_all_or_nothing_of_cached : ∃ r t, linked.resolvers[0]? = some r ∧
    linked.trees[0]? = some t ∧ (r.cache.get? t.id ⟨0⟩).isSome = true ∧
    (r.lookup Loader.host t ⟨0⟩ "peers" .references linked.world).1 =
      .ok (.references [⟨"Server", home⟩, ⟨"Route", home⟩]) ∧
    Task.outcome (r.provider.load Loader.host t ⟨"Server", home⟩) linked.world ≠
      .error (.unbound home) ∧
    (r.lookup Loader.host t ⟨0⟩ "mixed" .references linked.world).1 =
      .error ⟨⟨0⟩, "mixed", .unexpectedValue ⟨"class", "int"⟩⟩ := by
  have hlater : Later Loader.host (fun _ => True) (holding [tree abroad] _) linked :=
    Later.refl.run _
  obtain ⟨r, hr⟩ : ∃ r, linked.resolvers[0]? = some r :=
    Option.isSome_iff_exists.1 (by decide +kernel)
  obtain ⟨t, ht⟩ : ∃ t, linked.trees[0]? = some t :=
    Option.isSome_iff_exists.1 (by decide +kernel)
  have hcached : (linked.resolvers[0]?.bind fun r => linked.trees[0]?.map fun t =>
      (r.cache.get? t.id ⟨0⟩).isSome) = some true := by decide +kernel
  have hpeers : (linked.step Loader.host (.lookup 0 0 ⟨0⟩ "peers" .value)).1 =
      .found (.ok (.value (.array ([⟨"Server"⟩, ⟨"Route"⟩].map .classRef)))) :=
    Answer.eq_of_atoms? [.classRef ⟨"Server"⟩, .classRef ⟨"Route"⟩] (by decide +kernel)
  have hmixed : (linked.step Loader.host (.lookup 0 0 ⟨0⟩ "mixed" .value)).1 =
      .found (.ok (.value (.array ([⟨"Server"⟩].map .classRef ++ [.int 80])))) :=
    Answer.eq_of_atoms? [.classRef ⟨"Server"⟩, .int 80] (by decide +kernel)
  have hsite : (linked.trees[0]?.bind fun t => (t.use? ⟨0⟩).bind fun use => t.factoryOf? use.site) =
      some home := by decide +kernel
  have hbound : Loader.NoneUnbound linked.world.host := by
    have hplans : linked.world.host.all (·.plan.isEmpty) = true := by decide +kernel
    intro l hl factory hfault
    rw [List.isEmpty_iff.1 (List.all_eq_true.1 hplans l hl)] at hfault
    cases hfault
  rw [step_lookup hr ht, Answer.found.injEq] at hpeers hmixed
  simp only [hr, ht, Option.bind_some, Option.map_some, Option.some.injEq] at hcached hsite
  have hfactory : t.enclosingFactory ⟨0⟩ = .ok home := by rw [Tree.enclosingFactory, hsite]
  obtain ⟨⟨hiff, -⟩, -, -, husable⟩ :=
    hlater.references_all_or_nothing hr ht ⟨0⟩ "peers" linked.world
  obtain ⟨⟨-, -, -, hfirst⟩, -⟩ :=
    hlater.references_all_or_nothing hr ht ⟨0⟩ "mixed" linked.world
  have hfound := (hiff _).2 ⟨_, home, hpeers, hfactory, rfl⟩
  refine ⟨r, t, hr, ht, hcached, hfound, ?_, ?_⟩
  · exact (husable _ (.inr ⟨_, hfound, List.mem_cons_self⟩)).2 _ Loader.bound_host _ _ _ hbound
  · exact hfirst _ _ [] hmixed fun _ h => by cases h

end Workspace

end AnnotationLookup
