import AnnotationLookup.Resolver.Basic

/-!
# Lookups

* `Query`: in which form a parameter of an annotation is asked for;
* `Reply`: the answer in that form;
* `Completed.reply`: the answer that a completed annotation gives;
* `Resolver.lookup`: the answer for a use of a tree.
-/

namespace AnnotationLookup

/-- The forms in which a value can be asked for. -/
inductive Query
  | value
  | plain (shape : Shape)
  /-- A class, as a reference bound to the factory of the annotated declaration. -/
  | reference
  /-- An array of classes, each as such a reference. -/
  | references
deriving DecidableEq, Repr

/-- What is found, in the form that was asked for. -/
inductive Reply
  | value (v : Value)
  | plain (shape : Shape) (x : shape.Carrier)
  | reference (r : TypeReference)
  | references (rs : List TypeReference)

/-- The plain value of a shape, or the cause of its absence. -/
def Value.toPlain (v : Value) (shape : Shape) : Except Cause shape.Carrier :=
  (shape.toPlain v).mapError .unexpectedValue

namespace Completed

variable (a : Completed) (t : Tree) (id : UseId) (key : String)

/-- The value of a key as a plain value of a shape. -/
def plain (shape : Shape) : Except Cause shape.Carrier := do
  (← a.value key).toPlain shape

/-- A class value bound to the factory of the site. -/
def reference : Except Cause TypeReference := do
  let type : TypeName ← a.plain key .classRef
  let factory ← t.enclosingFactory id
  pure ⟨type.text, factory⟩

/-- The classes of an array bound to the factory of the site. -/
def references : Except Cause (List TypeReference) := do
  let items : List Value ← a.plain key .array
  let factory ← t.enclosingFactory id
  items.mapM fun item => do
    let type : TypeName ← item.toPlain .classRef
    pure ⟨type.text, factory⟩

/-- The reply to a query. -/
def reply : Query → Except Cause Reply
  | .value => (a.value key).map .value
  | .plain shape => (a.plain key shape).map (.plain shape)
  | .reference => (a.reference t id key).map .reference
  | .references => (a.references t id key).map .references

end Completed

namespace Resolver

variable {σ : Type} (r : Resolver) (host : Host σ) (t : Tree)

/-- The answer to a query, with the resolver and the world afterwards. -/
def lookup (id : UseId) (key : String) (query : Query) (w : World σ) :
    Except Failure Reply × Resolver × World σ :=
  let (outcome, r, w) := r.complete host t id w
  ((outcome.bind fun a => a.reply t id key query).mapError (⟨id, key, ·⟩), r, w)

end Resolver

end AnnotationLookup
