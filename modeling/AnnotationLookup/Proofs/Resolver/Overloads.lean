import AnnotationLookup.Proofs.Provider.Naming
import AnnotationLookup.Proofs.Resolver.Order
import AnnotationLookup.Proofs.Tree.Description

/-!
# Methods of one signature

A method of a type that was read from source is found in the description of the type by its name and
the types of its parameters, unless the type declares another method of that signature.

* `Tree.overloads`: the methods of a signature that a type declares;
* `Tree.perm_ids`, `Tree.perm_methods`: the methods that a type lists, among all that there are;
* **`Tree.length_methodsMatching`**: the description shows each method of a signature once;
* `Metadata.loads_of_mem_exchanges`: what answers the references of a lookup;
* `CompiledClass.recordFor_eq_methodMismatch_iff`: when a class has not one method of a signature;
* **`Resolver.lookup_methodMismatch_iff`**: the main statement.
-/

namespace AnnotationLookup

/-! ## Methods that are declared -/

namespace Tree

variable {t : Tree}

/-- The methods of a signature that a type declares: those that name the type as their owner, with the
name, and with parameters of the types, in order. -/
def overloads (t : Tree) (owner : TypeId) (name : String) (types : List TypeName) :
    List MethodNode :=
  (t.methods.toList.map (·.2)).filter fun m =>
    m.owner = owner ∧ m.name = name ∧ m.parameters.map (·.type.typeName) = types

theorem mem_overloads_iff {owner : TypeId} {name : String} {types : List TypeName}
    {m : MethodNode} : m ∈ t.overloads owner name types ↔ (∃ id, t.method? id = some m) ∧
      m.owner = owner ∧ m.name = name ∧ m.parameters.map (·.type.typeName) = types := by
  simp only [overloads, List.mem_filter, List.mem_map, Prod.exists, Arena.mem_toList_iff,
    decide_eq_true_eq]
  refine and_congr_left fun _ => ⟨?_, ?_⟩
  · rintro ⟨i, _, hi, rfl⟩
    exact ⟨⟨i⟩, hi⟩
  · rintro ⟨id, hid⟩
    exact ⟨id.index, m, hid, rfl⟩

/-- The ids that a type lists are those of the methods that name it as their owner, up to order. -/
theorem perm_ids (h : Lists t.methodsOf? t.methodOwner?) {T : TypeId} {ids : List MethodId}
    (hids : t.methodsOf? T = some ids) :
    ids.Perm ((t.methods.toList.filter fun p => p.2.owner = T).map fun p => ⟨p.1⟩) := by
  refine (List.perm_ext_iff_of_nodup (h.nodup hids) ?_).2 fun id => ?_
  · rw [List.Nodup, List.pairwise_map]
    exact (t.methods.pairwise_toList.filter _).imp fun hlt heq =>
      absurd (NodeId.mk.inj heq) (Nat.ne_of_lt hlt)
  · rw [h.mem_iff hids, methodOwner?, Option.map_eq_some_iff]
    simp only [List.mem_map, List.mem_filter, Prod.exists, Arena.mem_toList_iff, decide_eq_true_eq]
    constructor
    · rintro ⟨m, hm, howner⟩
      exact ⟨id.index, m, ⟨hm, howner⟩, rfl⟩
    · rintro ⟨i, m, ⟨hm, howner⟩, rfl⟩
      exact ⟨m, hm, howner⟩

theorem perm_methods (h : Lists t.methodsOf? t.methodOwner?) {T : TypeId} {ids : List MethodId}
    (hids : t.methodsOf? T = some ids) : (ids.filterMap t.method?).Perm
      ((t.methods.toList.map (·.2)).filter fun m => m.owner = T) := by
  have hnodes : ((t.methods.toList.filter fun p => p.2.owner = T).map fun p =>
      (⟨p.1⟩ : MethodId)).filterMap t.method? =
        (t.methods.toList.filter fun p => p.2.owner = T).map (·.2) := by
    rw [List.filterMap_map, ← List.filterMap_eq_map]
    refine List.filterMap_congr fun p hp => ?_
    exact Arena.mem_toList_iff.1 (List.mem_filter.1 hp).1
  have hperm := (perm_ids h hids).filterMap t.method?
  rw [hnodes] at hperm
  rw [List.filter_map]
  exact hperm

/-- **The description of a type shows each method of a signature once.** -/
theorem length_methodsMatching (h : Lists t.methodsOf? t.methodOwner?) {T : TypeId} {d : TypeNode}
    (hd : t.type? T = some d) (name : String) (types : List TypeName) :
    ((t.describe d).methodsMatching name types).length = (t.overloads T name types).length := by
  have hmatches (m : MethodNode) : (t.describeMethod m).matchesSignature name types =
      decide (m.name = name ∧ m.parameters.map (·.type.typeName) = types) := by
    rw [Bool.eq_iff_iff]
    simp [CompiledMethod.matchesSignature, describeMethod]
  rw [CompiledClass.methodsMatching, describe, List.filter_map, List.length_map,
    ((perm_methods h (methodsOf?_eq_some hd)).filter _).length_eq, List.filter_filter, overloads]
  refine congrArg List.length (List.filter_congr fun m _ => ?_)
  rw [Function.comp_apply, hmatches]
  simp [Bool.and_comm]

end Tree

/-! ## Methods that are looked for -/

namespace CompiledClass

variable (c : CompiledClass)

theorem exactMethod_eq_methodMismatch_iff {name : String} {types : List TypeName}
    {owner method signature : String} {n : Nat} :
    c.exactMethod name types = .error (.methodMismatch owner method signature n) ↔
      owner = c.name ∧ method = name ∧ signature = signatureOf types ∧
        n = (c.methodsMatching name types).length ∧ n ≠ 1 := by
  unfold exactMethod
  split
  · next m hone =>
    rw [hone]
    simp
  · next hmany =>
    have hlength : (c.methodsMatching name types).length ≠ 1 := fun h => by
      obtain ⟨m, hm⟩ := List.length_eq_one_iff.1 h
      exact hmany m hm
    simp only [Except.error.injEq, Cause.methodMismatch.injEq]
    constructor
    · rintro ⟨rfl, rfl, rfl, rfl⟩
      exact ⟨rfl, rfl, rfl, rfl, hlength⟩
    · rintro ⟨rfl, rfl, rfl, rfl, -⟩
      exact ⟨rfl, rfl, rfl, rfl⟩

theorem recordFor_eq_methodMismatch_iff {annotationType : String} {elements : List CompiledClass}
    {name : String} {types : List TypeName} (helements : compiledAs types elements = types)
    {owner method signature : String} {n : Nat} :
    c.recordFor annotationType elements (some (name, types)) =
        .error (.methodMismatch owner method signature n) ↔
      owner = c.name ∧ method = name ∧ signature = signatureOf types ∧
        n = (c.methodsMatching name types).length ∧ n ≠ 1 := by
  rw [← c.exactMethod_eq_methodMismatch_iff, recordFor, helements]
  cases hexact : c.exactMethod name types with
  | error cause => simp only [bind, Except.bind, Except.error.injEq]
  | ok m =>
    refine iff_of_false (fun h => ?_) fun h => by cases h
    obtain ⟨element, hcause⟩ := c.onlyFails_recordOnMethod m annotationType _ h
    cases hcause

end CompiledClass

namespace Metadata

variable {σ : Type} {source : Metadata σ} {t : Tree} {settings : Settings} {cache : Cache Completed}
  {id : UseId}

theorem loads_of_mem_exchanges {w : World σ} :
    ∀ x ∈ source.exchanges t settings cache id w, ∀ c, x.answer = .ok (some c) →
      source.Loads t x.reference c := by
  let Loaded (v : World (σ × List Exchange)) : Prop :=
    True ∧ ∀ x ∈ v.host.2, ∀ c, x.answer = .ok (some c) → source.Loads t x.reference c
  have hload (r : TypeReference) : Task.Keeps Loaded (source.exchanging.load t r) := by
    refine keeps_noting_load (P := fun _ => True) fun v _ => ⟨trivial, fun c hc => ?_⟩
    unfold Task.outcome at hc
    cases hload : source.load t r v with
    | ok answer u =>
      rw [hload] at hc
      obtain rfl := Except.ok.inj hc
      exact ⟨_, _, hload⟩
    | error e u =>
      rw [hload] at hc
      cases hc
  have hsay (level : Level) (event : Event) :
      Task.Keeps Loaded (report level event : Task (σ × List Exchange) Cause Unit) :=
    Task.keeps_of_after fun _ hw => hw
  obtain ⟨v, ⟨-, hanswers⟩, hv⟩ : ∃ v, Loaded v ∧
      v.host.2 = source.exchanges t settings cache id w :=
    exists_exchanges_of_keeps hsay (fun _ name _ => hload _) ⟨trivial, fun _ hx => by cases hx⟩
  rw [← hv]
  exact hanswers

end Metadata

/-- Where source declarations come first, the enclosing class is the description of its type, and the
classes of elements leave the types of the parameters as they were declared. -/
theorem Provider.eq_describe_of_asks {σ : Type} {host : Host σ} (keyed : host.Keyed) {t : Tree}
    (hindexes : t.types.Indexes TypeNode.name) {T : TypeId} {d : TypeNode} (hd : t.type? T = some d)
    (hsource : d.origin = .source) {p : Provider} {rest : List Provider}
    (hp : p = .layered (.source d.factory :: rest)) {annotationType : String}
    {method? : Option (String × List TypeName)} {asked : List Exchange} {a c : CompiledClass}
    {es : List CompiledClass}
    (hasks : Asks (referencesFor annotationType ⟨d.name, d.factory⟩ method?) asked
      (.ok (a :: c :: es)))
    (hanswers : ∀ x ∈ asked, ∀ c, x.answer = .ok (some c) →
      (p.metadata host).Loads t x.reference c) :
    c = t.describe d ∧ compiledAs (method?.elim [] (·.2)) es = method?.elim [] (·.2) := by
  have hall := hasks.forall₂ rfl hanswers
  rw [referencesFor] at hall
  cases hall with
  | cons ha hall =>
    cases hall with
    | cons hc hes =>
      refine ⟨?_, compiledAs_of_forall₂ (hes.imp fun r c h => keyed_metadata keyed hindexes p r c h)⟩
      rw [hp] at hc
      refine loads_source_first ?_ hc
      rw [sourceClass?_of_type? hindexes hd, if_pos ⟨hsource, rfl⟩]

namespace Resolver

/-- **A method that was read from source always finds itself.** In a tree none of whose edits was
refused, let a use be applied to a method of a type that was read from source, and let the source
declarations of the factory of the type come first, before any nest of class paths in memory. The type
declares the method, so that the methods of its signature are at least one. If they are one, no lookup
fails for want of one method of the signature. If they are more, a lookup does so exactly if it has to
load classes and finds all of them, and it reports how many methods of the signature the type
declares. -/
theorem lookup_methodMismatch_iff {t : Tree} (ht : t.Unrefused) {id : UseId} {use : UseNode}
    (huse : t.use? id = some use) {i : MethodId} (hsite : use.site = .method i) {m : MethodNode}
    (hm : t.method? i = some m) {d : TypeNode} (hd : t.type? m.owner = some d)
    (hsource : d.origin = .source) {r : Resolver} {rest : List Provider}
    (hprovider : r.provider = .layered (.source d.factory :: rest))
    (classes : LoaderId → List CompiledClass) (key : String) (query : Query) (w : World Unit) :
    let host := Universe.host fun loader => .ofList (classes loader)
    let types := m.parameters.map (·.type.typeName)
    let found := (t.overloads m.owner m.name types).length
    1 ≤ found ∧ ∀ owner method signature n,
      (∃ f, (r.lookup host t id key query w).1 = .error f ∧
          f.cause = .methodMismatch owner method signature n) ↔
        r.cache.get? t.id id = none ∧
        (∀ x ∈ (r.provider.metadata host).exchanges t r.settings r.cache id w,
          ∃ c, x.answer = .ok (some c)) ∧
        owner = d.name ∧ method = m.name ∧ signature = signatureOf types ∧ n = found ∧ 2 ≤ n := by
  intro host types found
  have hlinked := ht.linked
  have hcount : ((t.describe d).methodsMatching m.name types).length = found :=
    Tree.length_methodsMatching hlinked.methods hd m.name types
  have hself : 1 ≤ found :=
    List.length_pos_of_mem (Tree.mem_overloads_iff.2 ⟨⟨i, hm⟩, rfl, rfl, rfl⟩)
  refine ⟨hself, fun owner method signature n => ?_⟩
  refine (Completed.exists_failure_iff (by rintro ⟨⟨⟩⟩) _).trans ?_
  change (r.complete host t id w).1 = _ ↔ _
  cases hcache : r.cache.get? t.id id with
  | some a =>
    rw [complete_of_known hcache]
    exact iff_of_false (fun h => by cases h) fun h => by cases h.1
  | none =>
    have hkeyed : host.Keyed :=
      Universe.keyed_host fun loader => Universe.keyed_ofList (classes loader)
    have hserves : (r.provider.metadata host).serves d.factory = true := by
      simp [hprovider, Provider.metadata, Provider.serves, Provider.anyServes]
    rw [(complete_of_new hcache w).1]
    rcases Metadata.resolve_of_annotates r.settings hcache (.method huse hsite hm hd) hserves w with
      ⟨cause, hasks, houtcome⟩ | ⟨a, c, es, hasks, houtcome⟩
    · rw [houtcome]
      refine iff_of_false (fun h => ?_) fun h => ?_
      · cases h
        cases hasks.onlyFails _ rfl
      · obtain ⟨cs, hcs⟩ := hasks.forall_answered_iff.1 h.2.1
        cases hcs
    · obtain ⟨rfl, (hcompiled : compiledAs types es = types)⟩ := Provider.eq_describe_of_asks hkeyed
        hlinked.types hd hsource hprovider hasks Metadata.loads_of_mem_exchanges
      have hanswered := hasks.forall_answered_iff.2 ⟨_, rfl⟩
      rw [houtcome, Cause.map_eq_error_iff,
        CompiledClass.recordFor_eq_methodMismatch_iff _ hcompiled, hcount]
      constructor
      · rintro ⟨howner, hname, hsignature, hn, hmany⟩
        exact ⟨rfl, hanswered, howner, hname, hsignature, hn, by omega⟩
      · rintro ⟨-, -, howner, hname, hsignature, hn, hmany⟩
        exact ⟨howner, hname, hsignature, hn, by omega⟩

open Sample in
/-- Two methods of one signature are found where one is looked for. -/
theorem lookup_methodMismatch_of_overloaded :
    (overloaded.overloads ⟨0⟩ "serve" [⟨"int[]"⟩]).length = 2 ∧
      ∃ f, (Resolver.lookup { provider := .layered [.source home, .classPath [(home, ⟨0⟩)]] }
          (Universe.host fun _ => .ofList [route]) overloaded ⟨0⟩ "value" .value
          { host := () }).1 = .error f ∧
        f.cause = .methodMismatch "Server" "serve" "int[]" 2 := by
  let r : Resolver := { provider := .layered [.source home, .classPath [(home, ⟨0⟩)]] }
  have huse : overloaded.use? ⟨0⟩ = some ⟨⟨"Route", home⟩, .method ⟨1⟩, none⟩ := rfl
  have hm : overloaded.method? ⟨1⟩ =
      some ⟨"serve", ⟨0⟩, [⟨"ports", ⟨"int[]", abroad⟩, []⟩], none, [⟨0⟩]⟩ := rfl
  have hd : overloaded.type? ⟨0⟩ = some ⟨"Server", .ordinary, .source, home, [⟨0⟩, ⟨1⟩], [], []⟩ :=
    rfl
  have hfound : (overloaded.overloads ⟨0⟩ "serve" [⟨"int[]"⟩]).length = 2 := by decide
  obtain ⟨-, hiff⟩ := lookup_methodMismatch_iff unrefused_overloaded huse rfl hm hd rfl (r := r) rfl
    (fun _ => [route]) "value" .value { host := () }
  refine ⟨hfound, (hiff "Server" "serve" "int[]" 2).2 ⟨rfl, ?_, rfl, rfl, rfl, hfound.symm, Nat.le_refl 2⟩⟩
  intro x hx
  have hexchanges : (r.provider.metadata (Universe.host fun _ => .ofList [route])).exchanges overloaded
      r.settings r.cache ⟨0⟩ { host := () } = [⟨⟨"Route", home⟩, .ok (some route)⟩,
        ⟨⟨"Server", home⟩, .ok (some (overloaded.describe
          ⟨"Server", .ordinary, .source, home, [⟨0⟩, ⟨1⟩], [], []⟩))⟩] := rfl
  rw [hexchanges] at hx
  simp only [List.mem_cons, List.not_mem_nil, or_false] at hx
  rcases hx with rfl | rfl
  · exact ⟨_, rfl⟩
  · exact ⟨_, rfl⟩

end Resolver

end AnnotationLookup
