import AnnotationLookup.Resolver.Query

/-!
# Causes of failures

What may go wrong at each stage of a lookup: classes are loaded, then a record is looked for, and then
the reply is made.

* `Cause.OnlyFails`: the failures of an outcome are of a kind, with one rule for each way in which
  outcomes are composed;
* `Cause.OfLoading`, `Cause.OfRecord`, `Cause.OfValue`, `Cause.OfReply`: the kinds of failures of the
  stages;
* `CompiledClass.onlyFails_recordOnMethod` and the like: what may go wrong in looking for a record;
* `Completed.onlyFails_reply_of`, **`Completed.onlyFails_reply`**: what may go wrong in making a reply;
* `Completed.exists_failure_iff`: failures that no reply has.
-/

namespace AnnotationLookup

namespace Cause

/-- If the outcome is a failure, its cause is of the kind. -/
def OnlyFails {α : Type} (kind : Cause → Prop) (o : Except Cause α) : Prop :=
  ∀ cause, o = .error cause → kind cause

variable {α β : Type} {kind : Cause → Prop}

theorem onlyFails_ok (a : α) : OnlyFails kind (.ok a) := fun _ h => by cases h

theorem onlyFails_error {cause : Cause} (h : kind cause) :
    OnlyFails kind (.error cause : Except Cause α) := by
  rintro cause' ⟨⟩
  exact h

theorem map_eq_error_iff {o : Except Cause α} {f : α → β} {cause : Cause} :
    o.map f = .error cause ↔ o = .error cause := by
  cases o <;> simp [Except.map]

namespace OnlyFails

variable {o : Except Cause α}

theorem mono {kind' : Cause → Prop} (ho : OnlyFails kind o) (h : ∀ cause, kind cause → kind' cause) :
    OnlyFails kind' o :=
  fun cause hcause => h cause (ho cause hcause)

theorem bind {f : α → Except Cause β} (ho : OnlyFails kind o) (hf : ∀ a, OnlyFails kind (f a)) :
    OnlyFails kind (o >>= f) := by
  cases o with
  | ok a => exact hf a
  | error cause => exact onlyFails_error (ho cause rfl)

theorem map (ho : OnlyFails kind o) (f : α → β) : OnlyFails kind (o.map f) := by
  cases o with
  | ok a => exact onlyFails_ok (f a)
  | error cause => exact onlyFails_error (ho cause rfl)

theorem mapM {f : α → Except Cause β} (hf : ∀ a, OnlyFails kind (f a)) (as : List α) :
    OnlyFails kind (as.mapM f) := by
  induction as with
  | nil => exact onlyFails_ok []
  | cons a as ih =>
    rw [List.mapM_cons]
    exact (hf a).bind fun b => ih.bind fun bs => onlyFails_ok (b :: bs)

end OnlyFails

/-- A class is not there, its factory is not served, or loading it fails. -/
inductive OfLoading : Cause → Prop
  | classMissing (name : String) : OfLoading (.classMissing name)
  | unservedFactory (factory : Factory) : OfLoading (.unservedFactory factory)
  | loading (error : LoadError) : OfLoading (.loading error)

/-- The class has not one method of the signature, or the declaration no record. -/
inductive OfRecord : Cause → Prop
  | methodMismatch (owner method signature : String) (found : Nat) :
    OfRecord (.methodMismatch owner method signature found)
  | recordMissing (element annotationType : String) : OfRecord (.recordMissing element annotationType)

/-- The parameter is not known or has no value, or the value is of another shape. -/
inductive OfValue : Cause → Prop
  | unknownParameter (annotationType key : String) : OfValue (.unknownParameter annotationType key)
  | noValue (annotationType key : String) : OfValue (.noValue annotationType key)
  | unexpectedValue (error : ConversionError) : OfValue (.unexpectedValue error)

/-- The value fails, or the site of the use is not there. -/
inductive OfReply : Cause → Prop
  | value {cause : Cause} (h : OfValue cause) : OfReply cause
  | siteOf (id : UseId) : OfReply (.dangling (.siteOf id))

end Cause

open Cause

/-! ## Records -/

namespace CompiledClass

variable (c : CompiledClass)

theorem onlyFails_exactMethod (name : String) (parameterTypes : List TypeName) :
    OnlyFails OfRecord (c.exactMethod name parameterTypes) := by
  unfold exactMethod
  split
  · exact onlyFails_ok _
  · exact onlyFails_error (.methodMismatch _ _ _ _)

theorem onlyFails_recordOnMethod (m : CompiledMethod) (annotationType : String) :
    OnlyFails (fun cause => ∃ element, cause = .recordMissing element annotationType)
      (c.recordOnMethod m annotationType) := by
  unfold recordOnMethod
  split
  · exact onlyFails_ok _
  · exact onlyFails_error ⟨_, rfl⟩

theorem onlyFails_recordOnClass (annotationType : String) :
    OnlyFails (· = .recordMissing c.name annotationType) (c.recordOnClass annotationType) := by
  unfold recordOnClass
  split
  · exact onlyFails_ok _
  · exact onlyFails_error rfl

end CompiledClass

/-! ## Replies -/

theorem Value.onlyFails_toPlain (v : Value) (shape : Shape) :
    OnlyFails OfValue (v.toPlain shape) := by
  unfold toPlain
  cases shape.toPlain v with
  | ok x => exact onlyFails_ok x
  | error e => exact onlyFails_error (.unexpectedValue e)

theorem Tree.onlyFails_enclosingFactory (t : Tree) (id : UseId) :
    OnlyFails OfReply (t.enclosingFactory id) := by
  unfold enclosingFactory
  split
  · exact onlyFails_ok _
  · exact onlyFails_error (.siteOf id)

namespace Completed

variable (a : Completed) (t : Tree) (id : UseId) (key : String)

theorem onlyFails_value : OnlyFails OfValue (a.value key) := by
  unfold value
  split
  · split
    · exact onlyFails_ok _
    · exact onlyFails_error (.noValue _ _)
  · exact onlyFails_error (.unknownParameter _ _)

theorem onlyFails_plain (shape : Shape) : OnlyFails OfValue (a.plain key shape) :=
  (a.onlyFails_value key).bind fun v => v.onlyFails_toPlain shape

variable {t id} in
/-- A reply fails as values fail, or as the tree fails to tell the factory of the site. -/
theorem onlyFails_reply_of {kind : Cause → Prop} (hvalue : ∀ cause, OfValue cause → kind cause)
    (hfactory : OnlyFails kind (t.enclosingFactory id)) (query : Query) :
    OnlyFails kind (a.reply t id key query) := by
  cases query with
  | value => exact ((a.onlyFails_value key).mono hvalue).map _
  | plain shape => exact ((a.onlyFails_plain key shape).mono hvalue).map _
  | reference =>
    exact (((a.onlyFails_plain key .classRef).mono hvalue).bind fun type =>
      hfactory.bind fun factory => onlyFails_ok _).map _
  | references =>
    exact (((a.onlyFails_plain key .array).mono hvalue).bind fun items =>
      hfactory.bind fun factory => .mapM (fun item =>
        ((item.onlyFails_toPlain .classRef).mono hvalue).bind fun type => onlyFails_ok _) _).map _

/-- **The failures of a reply**, in whatever form it is asked for. -/
theorem onlyFails_reply (query : Query) : OnlyFails OfReply (a.reply t id key query) :=
  a.onlyFails_reply_of key (fun _ h => .value h) (t.onlyFails_enclosingFactory id) query

variable {t id key} in
theorem exists_failure_iff {query : Query} {cause : Cause} (hcause : ¬ OfReply cause)
    (o : Except Cause Completed) :
    (∃ f : Failure, (o.bind fun a => a.reply t id key query).mapError (⟨id, key, ·⟩) = .error f ∧
      f.cause = cause) ↔ o = .error cause := by
  cases o with
  | error cause' =>
    constructor
    · rintro ⟨f, hf, rfl⟩
      cases hf
      rfl
    · rintro ⟨⟩
      exact ⟨_, rfl, rfl⟩
  | ok a =>
    refine iff_of_false ?_ fun h => by cases h
    rintro ⟨f, hf, rfl⟩
    cases hreply : a.reply t id key query with
    | ok reply =>
      simp only [Except.bind, hreply] at hf
      cases hf
    | error cause' =>
      simp only [Except.bind, hreply] at hf
      cases hf
      exact hcause (a.onlyFails_reply t id key query _ hreply)

end Completed

end AnnotationLookup
