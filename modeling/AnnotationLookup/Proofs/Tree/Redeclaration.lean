import AnnotationLookup.Proofs.Sample
import AnnotationLookup.Proofs.Tree.Run

/-!
# Types that are declared again

A type is known by its name alone. What is declared first under a name decides the kind, the origin and
the factory of the type for good, and a later declaration of the name, under whatever factory, comes to
the same type and changes nothing.

* `Tree.exists_declared`: the type that the first declaration of a name has made;
* `Tree.disjoint_members`: the members of different types;
* `Provider.sourceClass?_of_type?`: under which factory a type is described;
* **`Tree.first_declaration_decides`**: the main statement;
* `Tree.not_apart_by_factory`: declarations of one name under two factories are not told apart.
-/

namespace AnnotationLookup

theorem Provider.sourceClass?_of_type? {t : Tree} (h : t.types.Indexes TypeNode.name) {i : TypeId}
    {d : TypeNode} (hd : t.type? i = some d) (factory : Factory) :
    sourceClass? t factory d.name =
      if d.origin = .source ∧ factory = d.factory then some (t.describe d) else none := by
  have hfound : t.typeByName? d.name = some d := (Tree.typeByName?_eq_some_iff h).2 ⟨i, hd, rfl⟩
  rw [sourceClass?, hfound]
  by_cases hmatch : d.origin = .source ∧ factory = d.factory
  · rw [if_pos hmatch, hmatch.2, Option.filter_some, hmatch.1, beq_self_eq_true, beq_self_eq_true]
    rfl
  · rw [if_neg hmatch, Option.filter_some, if_neg, Option.map_none]
    simpa only [Bool.and_eq_true, beq_iff_eq, @eq_comm _ factory] using hmatch

namespace Tree

variable {es : List Edit} {m : Nat} {name : String} {kind : ClassKind}
  {origin : Origin} {factory : Factory}

/-- The first declaration of a name makes a type, which stays as it was declared. -/
theorem exists_declared (id : TreeId)
    (hm : es[m]? = some (.addType name kind origin factory))
    (hfirst : ∀ l < m, ∀ kind' origin' factory',
      es[l]? ≠ some (.addType name kind' origin' factory')) :
    ∃ i d, (({ id } : Tree).run es).2.type? i = some d ∧ d.name = name ∧ d.kind = kind ∧
      d.origin = origin ∧ d.factory = factory := by
  obtain ⟨-, hend⟩ := ({ id } : Tree).getElem?_run hm
  have hunknown : (({ id } : Tree).run (es.take m)).2.types.idOf? name = none := by
    refine idOf?_run fun kind' origin' factory' hmem => ?_
    obtain ⟨l, hl⟩ := List.mem_iff_getElem?.1 hmem
    rw [List.getElem?_take] at hl
    split at hl
    · next hlt => exact hfirst l hlt kind' origin' factory' hl
    · cases hl
  generalize (({ id } : Tree).run (es.take m)).2 = u at hend hunknown
  let d : TypeNode := { name := name, kind := kind, origin := origin, factory := factory }
  have hdeclared : (u.addType name kind origin factory).1.type? ⟨u.types.values.freeIndex⟩ =
      some d := by
    simp only [type?, addType, NamedArena.insert_of_new _ hunknown]
    exact (Arena.get?_insert _ d _).trans (if_pos rfl)
  obtain ⟨d', hd', hbare⟩ := (grows_run _ (es.drop (m + 1))).type? hdeclared
  rw [hend]
  exact ⟨_, d', hd', TypeNode.eq_of_bare hbare⟩

theorem disjoint_members (id : TreeId) (es : List Edit) {i i' : TypeId} {d d' : TypeNode}
    (hne : i' ≠ i) (hd : (({ id } : Tree).run es).2.type? i = some d)
    (hd' : (({ id } : Tree).run es).2.type? i' = some d') :
    (∀ x ∈ d'.methods, x ∉ d.methods) ∧ ∀ x ∈ d'.fields, x ∉ d.fields := by
  have hnew (k : TypeId) : ({ id } : Tree).type? k = none := by
    rw [type?, NamedArena.get?, NamedArena.empty, Arena.get?_empty]
  constructor
  · intro x hx' hx
    refine hne ((gathers_methods_run ({ id } : Tree) es).eq_of_listed
      (fun k => by rw [methodsOf?, hnew]; rfl) (i := x) ⟨_, ?_, hx'⟩ ⟨_, ?_, hx⟩)
    · rw [methodsOf?, hd', Option.map_some]
    · rw [methodsOf?, hd, Option.map_some]
  · intro x hx' hx
    refine hne ((gathers_fields_run ({ id } : Tree) es).eq_of_listed
      (fun k => by rw [fieldsOf?, hnew]; rfl) (i := x) ⟨_, ?_, hx'⟩ ⟨_, ?_, hx⟩)
    · rw [fieldsOf?, hd', Option.map_some]
    · rw [fieldsOf?, hd, Option.map_some]

/-- **The first declaration of a name decides**, whatever other edits a new tree goes through, refused
ones included. The type keeps the kind, the origin and the factory that it was first declared with.
Declarations come to this type exactly if they are of its name, whatever factory they are under. The
members that are added to it are its own, and those of no other type. As a source declaration it is
described under the factory of the first declaration, and under no other factory is there anything of
its name. -/
theorem first_declaration_decides {id : TreeId} {outcomes : List (Except Refusal Nat)} {t : Tree}
    (hrun : ({ id } : Tree).run es = (outcomes, t))
    (hm : es[m]? = some (.addType name kind origin factory))
    (hfirst : ∀ l < m, ∀ kind' origin' factory',
      es[l]? ≠ some (.addType name kind' origin' factory')) :
    ∃ i d, t.type? ⟨i⟩ = some d ∧ d.kind = kind ∧ d.origin = origin ∧
      t.referenceTo? ⟨i⟩ = some ⟨name, factory⟩ ∧
      (∀ (l : Nat) name' kind' origin' factory',
        es[l]? = some (.addType name' kind' origin' factory') →
        ∃ j, outcomes[l]? = some (.ok j) ∧ (j = i ↔ name' = name)) ∧
      (∀ (l : Nat) e j, es[l]? = some e → outcomes[l]? = some (.ok j) →
        (e.methodOwner? = some ⟨i⟩ → ⟨j⟩ ∈ d.methods) ∧
        (e.fieldOwner? = some ⟨i⟩ → ⟨j⟩ ∈ d.fields)) ∧
      (∀ i' d', i' ≠ i → t.type? ⟨i'⟩ = some d' →
        (∀ x ∈ d'.methods, x ∉ d.methods) ∧ ∀ x ∈ d'.fields, x ∉ d.fields) ∧
      ∀ (σ : Type) (host : Host σ) factory',
        (Provider.source factory').load host t ⟨name, factory'⟩ =
          pure (if origin = .source ∧ factory' = factory then some (t.describe d) else none) := by
  obtain rfl : (({ id } : Tree).run es).1 = outcomes := congrArg Prod.fst hrun
  obtain rfl : (({ id } : Tree).run es).2 = t := congrArg Prod.snd hrun
  obtain ⟨⟨i⟩, d, hd, rfl, rfl, rfl, rfl⟩ := exists_declared id hm hfirst
  have hindexes : (({ id } : Tree).run es).2.types.Indexes TypeNode.name :=
    indexes_run NamedArena.indexes_empty es
  refine ⟨i, d, hd, rfl, rfl, by rw [referenceTo?, hd, Option.map_some], ?_, ?_, ?_, ?_⟩
  · intro l name' kind' origin' factory' hl
    obtain ⟨j, hj, hname⟩ := idOf?_of_run (t := { id }) NamedArena.indexes_empty hl
    refine ⟨j, hj, ?_⟩
    obtain ⟨d', hd', rfl⟩ := (hindexes.idOf?_iff _ _).1 hname
    constructor
    · rintro rfl
      exact congrArg TypeNode.name (Option.some.inj (hd'.symm.trans hd))
    · intro heq
      rw [heq] at hname
      exact Option.some.inj (hname.symm.trans ((hindexes.idOf?_iff _ _).2 ⟨d, hd, rfl⟩))
  · intro l e j hl hj
    constructor
    · intro howner
      obtain ⟨items, hitems, hmem⟩ := mem_methods_of_run hl howner hj
      rw [methodsOf?, hd, Option.map_some] at hitems
      exact Option.some.inj hitems ▸ hmem
    · intro howner
      obtain ⟨items, hitems, hmem⟩ := mem_fields_of_run hl howner hj
      rw [fieldsOf?, hd, Option.map_some] at hitems
      exact Option.some.inj hitems ▸ hmem
  · intro i' d' hne hd'
    exact disjoint_members id es (fun h => hne (congrArg NodeId.index h)) hd hd'
  · intro σ host factory'
    rw [← Provider.sourceClass?_of_type? hindexes hd factory']
    simp only [Provider.load, if_true]

/-- A class that is read from source under one factory, declared again under another one as an
interface that is known from its compiled form, and given a method. -/
def redeclare : List Edit :=
  [.addType "Server" .ordinary .source Sample.home, .addType "Server" .interface .shadow Sample.abroad,
    .addMethod ⟨0⟩ "serve" []]

/-- A class that is declared again is still the one of the first declaration. -/
theorem first_declaration_decides_again : ∃ i d,
    (({ id := ⟨0⟩ } : Tree).run redeclare).2.type? ⟨i⟩ = some d ∧ d.origin = .source ∧
      (({ id := ⟨0⟩ } : Tree).run redeclare).2.referenceTo? ⟨i⟩ = some ⟨"Server", Sample.home⟩ ∧
      ∀ (σ : Type) (host : Host σ), (Provider.source Sample.abroad).load host
        (({ id := ⟨0⟩ } : Tree).run redeclare).2 ⟨"Server", Sample.abroad⟩ = pure none := by
  have hrun : ({ id := ⟨0⟩ } : Tree).run redeclare = _ := rfl
  have hm : redeclare[0]? = some (.addType "Server" .ordinary .source Sample.home) := rfl
  obtain ⟨i, d, hd, -, horigin, href, -, -, -, hload⟩ :=
    first_declaration_decides hrun hm fun l hl => absurd hl (Nat.not_lt_zero l)
  exact ⟨i, d, hd, horigin, href, fun σ host => hload σ host Sample.abroad⟩

/-- Declarations of one name under two factories are not kept apart. -/
theorem not_apart_by_factory :
    ¬ ∀ (id : TreeId) (es : List Edit) (outcomes : List (Except Refusal Nat)) (t : Tree)
      (m m' : Nat) (name : String) (kind kind' : ClassKind) (origin origin' : Origin)
      (factory factory' : Factory) (i i' : Nat), ({ id } : Tree).run es = (outcomes, t) →
      es[m]? = some (.addType name kind origin factory) → outcomes[m]? = some (.ok i) →
      es[m']? = some (.addType name kind' origin' factory') → outcomes[m']? = some (.ok i') →
      factory ≠ factory' →
        i ≠ i' ∧ t.referenceTo? ⟨i⟩ = some ⟨name, factory⟩ ∧
        t.referenceTo? ⟨i'⟩ = some ⟨name, factory'⟩ ∧
        (∀ d d', t.type? ⟨i⟩ = some d → t.type? ⟨i'⟩ = some d' →
          (∀ x ∈ d'.methods, x ∉ d.methods) ∧ ∀ x ∈ d'.fields, x ∉ d.fields) ∧
        (origin = .source → origin' = .source → ∃ d d', t.type? ⟨i⟩ = some d ∧
          t.type? ⟨i'⟩ = some d' ∧ Provider.sourceClass? t factory name = some (t.describe d) ∧
          Provider.sourceClass? t factory' name = some (t.describe d')) := by
  intro h
  have hapart := h ⟨0⟩ redeclare _ _ 0 1 "Server" .ordinary .interface .source .shadow Sample.home
    Sample.abroad 0 0 rfl rfl rfl rfl rfl (by decide)
  exact hapart.1 rfl

end Tree

end AnnotationLookup
