import AnnotationLookup.Proofs.Resolver.Target
import AnnotationLookup.Resolver.Query

/-!
# Completion through a cache

* `Cache.stored?`: a cached object, told apart from the others of its cache by a number;
  **`Cache.stored?_insert`**: what is stored stays the same object;
* `Metadata.Completion`, `Metadata.completion`: the three ways in which a use is completed;
* `Metadata.get?_complete`: what the cache knows after a completion;
* `Metadata.complete_alike_of`, `Metadata.complete_alike`: completions go alike where resolutions do;
* `Completed.reply_of_enclosingFactory`: what a reply reads from a tree.
-/

namespace AnnotationLookup

/-! ## Stored objects -/

namespace Cache

variable {α : Type}

/-- The latest entry of a key, with the number of entries before it. -/
def storedAmong? (key : TreeId × UseId) : List ((TreeId × UseId) × α) → Option (Nat × α)
  | [] => none
  | (k, a) :: older => if k = key then some (older.length, a) else storedAmong? key older

/-- What is stored for a use, with the number of objects that were stored before it. -/
def stored? (c : Cache α) (tree : TreeId) (use : UseId) : Option (Nat × α) :=
  storedAmong? (tree, use) c.entries

theorem map_snd_storedAmong? (key : TreeId × UseId) (entries : List ((TreeId × UseId) × α)) :
    (storedAmong? key entries).map (·.2) = entries.lookup key := by
  induction entries with
  | nil => rfl
  | cons e older ih =>
    obtain ⟨k, a⟩ := e
    rw [storedAmong?, List.lookup_cons]
    by_cases hk : k = key
    · subst hk; simp
    · rw [if_neg hk, ih, beq_false_of_ne (Ne.symm hk)]

theorem map_snd_stored? (c : Cache α) (tree : TreeId) (use : UseId) :
    (c.stored? tree use).map (·.2) = c.get? tree use :=
  map_snd_storedAmong? _ _

theorem stored?_eq_none_iff {c : Cache α} {tree : TreeId} {use : UseId} :
    c.stored? tree use = none ↔ c.get? tree use = none := by
  rw [← map_snd_stored?, Option.map_eq_none_iff]

theorem get?_of_stored? {c : Cache α} {tree : TreeId} {use : UseId} {n : Nat} {a : α}
    (h : c.stored? tree use = some (n, a)) : c.get? tree use = some a := by
  rw [← map_snd_stored?, h, Option.map_some]

/-- **What is stored stays the same object**, and what is added is numbered next. -/
theorem stored?_insert (c : Cache α) (tree tree' : TreeId) (use use' : UseId) (a : α) :
    (c.insert tree use a).1.stored? tree' use' =
      if (tree', use') = (tree, use) ∧ c.get? tree use = none then some (c.size, a)
      else c.stored? tree' use' := by
  unfold insert
  cases h : c.get? tree use with
  | some kept => simp
  | none =>
    change (if (tree, use) = (tree', use') then some (c.entries.length, a) else _) = _
    by_cases hk : (tree', use') = (tree, use)
    · rw [if_pos hk.symm, if_pos ⟨hk, rfl⟩]; rfl
    · rw [if_neg (Ne.symm hk), if_neg fun hh => hk hh.1]; rfl

theorem stored?_insert_of_stored? {c : Cache α} {tree : TreeId} {use : UseId} {e : Nat × α}
    (h : c.stored? tree use = some e) (tree' : TreeId) (use' : UseId) (a : α) :
    (c.insert tree' use' a).1.stored? tree use = some e := by
  rw [stored?_insert, if_neg, h]
  rintro ⟨hk, hnone⟩
  cases hk
  rw [stored?_eq_none_iff.2 hnone] at h
  cases h

end Cache

/-! ## The ways of completion -/

namespace Metadata

variable {σ σ' : Type} (source : Metadata σ) (t : Tree) (settings : Settings)
  (cache : Cache Completed) (id : UseId) (w : World σ)

/-- The ways in which a use is completed: it is known, or its resolution fails and is forgotten, or
its resolution succeeds and is stored. -/
inductive Completion : Except Cause Completed × Cache Completed × World σ → Prop
  | known {a : Completed} (h : cache.get? t.id id = some a) :
    Completion (.ok a, cache, { w with log := w.log ++ [⟨.trace, .known id⟩] })
  | failed {cause : Cause} {w' : World σ} (h : cache.get? t.id id = none)
    (hr : source.resolve t settings id w = .error cause w') : Completion (.error cause, cache, w')
  | resolved {a : Completed} {w' : World σ} (h : cache.get? t.id id = none)
    (hr : source.resolve t settings id w = .ok a w') :
    Completion (.ok a, (cache.insert t.id id a).1, w')

theorem completion :
    source.Completion t settings cache id w (source.complete t settings cache id w) := by
  unfold complete
  cases h : cache.get? t.id id with
  | some a => exact .known h
  | none =>
    cases hr : source.resolve t settings id w with
    | error cause w' => exact .failed h hr
    | ok a w' =>
      have hkept : (cache.insert t.id id a).2 = a := by simp only [Cache.insert, h]
      simp only [hkept]
      exact .resolved h hr

variable {source t settings cache id w}

theorem complete_of_known {a : Completed} (h : cache.get? t.id id = some a) :
    source.complete t settings cache id w =
      (.ok a, cache, { w with log := w.log ++ [⟨.trace, .known id⟩] }) := by
  simp only [complete, h]

theorem complete_of_error {cause : Cause} {w' : World σ} (h : cache.get? t.id id = none)
    (hr : source.resolve t settings id w = .error cause w') :
    source.complete t settings cache id w = (.error cause, cache, w') := by
  simp only [complete, h, hr]

theorem complete_of_ok {a : Completed} {w' : World σ} (h : cache.get? t.id id = none)
    (hr : source.resolve t settings id w = .ok a w') :
    source.complete t settings cache id w = (.ok a, (cache.insert t.id id a).1, w') := by
  have hkept : (cache.insert t.id id a).2 = a := by simp only [Cache.insert, h]
  simp only [complete, h, hr, hkept]

theorem complete_of_new (hnew : cache.get? t.id id = none) (w : World σ) :
    (source.complete t settings cache id w).1 = Task.outcome (source.resolve t settings id) w ∧
      (source.complete t settings cache id w).2.2 = Task.after (source.resolve t settings id) w := by
  unfold Task.outcome Task.after
  cases hr : source.resolve t settings id w with
  | ok a v => simp only [complete_of_ok hnew hr, and_self]
  | error cause v => simp only [complete_of_error hnew hr, and_self]

theorem cache_of_complete_error {cause : Cause}
    (h : (source.complete t settings cache id w).1 = .error cause) :
    (source.complete t settings cache id w).2.1 = cache := by
  have hc := source.completion t settings cache id w
  generalize source.complete t settings cache id w = p at hc h
  cases hc with
  | known _ => cases h
  | failed _ _ => rfl
  | resolved _ _ => cases h

/-- After a completion, the cache knows of the use what the completion came to, and of other uses what it
knew before. -/
theorem get?_complete (tree : TreeId) (use : UseId) :
    (source.complete t settings cache id w).2.1.get? tree use =
      if (tree, use) = (t.id, id) then (source.complete t settings cache id w).1.toOption
      else cache.get? tree use := by
  have hc := source.completion t settings cache id w
  generalize source.complete t settings cache id w = p at hc
  cases hc with
  | known h =>
    split
    · next heq =>
      cases heq
      exact h
    · rfl
  | failed h _ =>
    split
    · next heq =>
      cases heq
      exact h
    · rfl
  | resolved h _ => rw [Cache.get?_insert, h]; rfl

/-- **Completions go alike where resolutions do**, through caches that know as much of the use. -/
theorem complete_alike_of {source' : Metadata σ'} {settings' : Settings} {cache' : Cache Completed}
    {t' : Tree} {R : World σ → World σ' → Prop} (hknown : cache'.get? t'.id id = cache.get? t.id id)
    (say : Task.Alike R (report .trace (.known id) : Task σ Cause Unit) (report .trace (.known id)))
    (resolve : Task.Alike R (source.resolve t settings id) (source'.resolve t' settings' id))
    {w' : World σ'} (hw : R w w') :
    (source.complete t settings cache id w).1 = (source'.complete t' settings' cache' id w').1 ∧
      (t'.id = t.id → cache' = cache → (source.complete t settings cache id w).2.1 =
        (source'.complete t' settings' cache' id w').2.1) ∧
      R (source.complete t settings cache id w).2.2
        (source'.complete t' settings' cache' id w').2.2 := by
  cases h : cache.get? t.id id with
  | some a =>
    rw [complete_of_known h, complete_of_known (hknown.trans h)]
    exact ⟨rfl, fun _ hcache => hcache.symm, say.after hw⟩
  | none =>
    have hr := resolve w w' hw
    generalize hp : source.resolve t settings id w = p at hr
    generalize hq : source'.resolve t' settings' id w' = q at hr
    cases hr with
    | ok a hv =>
      rw [complete_of_ok h hp, complete_of_ok (hknown.trans h) hq]
      exact ⟨rfl, fun hid hcache => by rw [hid, hcache], hv⟩
    | error cause hv =>
      rw [complete_of_error h hp, complete_of_error (hknown.trans h) hq]
      exact ⟨rfl, fun _ hcache => hcache.symm, hv⟩

theorem complete_alike {source' : Metadata σ'} {settings' : Settings} {cache' : Cache Completed}
    {t' : Tree} {H : σ → σ' → Prop} (hknown : cache'.get? t'.id id = cache.get? t.id id)
    (resolve : Task.Alike (World.Hosts H) (source.resolve t settings id)
      (source'.resolve t' settings' id)) {w' : World σ'} (hw : H w.host w'.host) :
    (source.complete t settings cache id w).1 = (source'.complete t' settings' cache' id w').1 ∧
      (t'.id = t.id → cache' = cache → (source.complete t settings cache id w).2.1 =
        (source'.complete t' settings' cache' id w').2.1) ∧
      H (source.complete t settings cache id w).2.2.host
        (source'.complete t' settings' cache' id w').2.2.host :=
  complete_alike_of (R := World.Hosts H) hknown (.report _ _ _ _) resolve hw

end Metadata

/-! ## Resolvers -/

namespace Resolver

variable {σ : Type} {r : Resolver} {host : Host σ} {t : Tree} {use : UseId} {w : World σ}

theorem get?_complete (tree : TreeId) (use' : UseId) :
    (r.complete host t use w).2.1.cache.get? tree use' =
      if (tree, use') = (t.id, use) then (r.complete host t use w).1.toOption
      else r.cache.get? tree use' :=
  Metadata.get?_complete tree use'

theorem complete_of_known {a : Completed} (h : r.cache.get? t.id use = some a) :
    r.complete host t use w = (.ok a, r, { w with log := w.log ++ [⟨.trace, .known use⟩] }) := by
  unfold complete
  rw [Metadata.complete_of_known h]

theorem complete_of_new (hnew : r.cache.get? t.id use = none) (w : World σ) :
    (r.complete host t use w).1 =
        Task.outcome ((r.provider.metadata host).resolve t r.settings use) w ∧
      (r.complete host t use w).2.2 =
        Task.after ((r.provider.metadata host).resolve t r.settings use) w :=
  Metadata.complete_of_new hnew w

theorem eq_of_complete_error {cause : Cause} (h : (r.complete host t use w).1 = .error cause) :
    (r.complete host t use w).2.1 = r := by
  have hcache : (r.complete host t use w).2.1.cache = r.cache := Metadata.cache_of_complete_error h
  change { r with cache := (r.complete host t use w).2.1.cache } = r
  rw [hcache]

end Resolver

/-! ## Replies -/

/-- A reply reads no more from a tree than the factory of the site. -/
theorem Completed.reply_of_enclosingFactory (a : Completed) {t t' : Tree} {id : UseId}
    (h : t.enclosingFactory id = t'.enclosingFactory id) (key : String) (query : Query) :
    a.reply t id key query = a.reply t' id key query := by
  cases query with
  | value => rfl
  | plain shape => rfl
  | reference => simp only [reply, reference, h]
  | references => simp only [reply, references, h]

end AnnotationLookup
