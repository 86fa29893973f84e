import AnnotationLookup.Proofs.Sample
import AnnotationLookup.Proofs.Value.Conversion
import AnnotationLookup.Workspace

/-!
# Lookups of plain values

A lookup of a plain value finds it exactly if the lookup of the value finds what is made of it. What
the two leave behind is the same.

* `Command.untyped`, `Command.extract`: a lookup of the value in place of one of a plain value, and the
  answer to the one from that to the other;
* `Workspace.step_eq_extract`, **`Workspace.run_eq_extract`**: one command, and a run;
* `Workspace.Extracts`, `Workspace.ReadsIntegers`, **`Workspace.typed_lookup_inverts`**: the main
  statement.
-/

namespace AnnotationLookup

variable {σ : Type}

/-! ## Answers -/

/-- The command, with a lookup of the value in place of one of a plain value. -/
def Command.untyped : Command → Command
  | .lookup i k use key (.plain _) => .lookup i k use key .value
  | c => c

/-- The answer to a command, from the answer to the untyped one. -/
def Command.extract : Command → Answer → Answer
  | .lookup _ _ use key (.plain shape), .found (.ok (.value v)) =>
    .found (((v.toPlain shape).map (.plain shape)).mapError (⟨use, key, ·⟩))
  | _, answer => answer

theorem Resolver.lookup_value_cases (r : Resolver) (host : Host σ) (t : Tree) (use : UseId)
    (key : String) (w : World σ) :
    (∃ f, ∀ shape, (r.lookup host t use key .value w).1 = .error f ∧
      (r.lookup host t use key (.plain shape) w).1 = .error f) ∨
    ∃ v, (r.lookup host t use key .value w).1 = .ok (.value v) ∧
      ∀ shape, (r.lookup host t use key (.plain shape) w).1 =
        ((v.toPlain shape).map (.plain shape)).mapError (⟨use, key, ·⟩) := by
  unfold lookup
  generalize r.complete host t use w = p
  obtain ⟨outcome, r', w'⟩ := p
  cases outcome with
  | error cause => exact .inl ⟨⟨use, key, cause⟩, fun shape => ⟨rfl, rfl⟩⟩
  | ok a =>
    cases hvalue : a.value key with
    | error cause =>
      refine .inl ⟨⟨use, key, cause⟩, fun shape => ?_⟩
      simp only [Except.bind, Completed.reply, Completed.plain, hvalue]
      exact ⟨rfl, rfl⟩
    | ok v =>
      refine .inr ⟨v, ?_, fun shape => ?_⟩ <;>
        simp only [Except.bind, Completed.reply, Completed.plain, hvalue] <;> rfl

namespace Workspace

/-- **A lookup of a plain value** answers from the answer of a lookup of the value, and leaves the same
workspace. -/
theorem step_eq_extract (host : Host σ) (ws : Workspace σ) (c : Command) :
    ws.step host c = (c.extract (ws.step host c.untyped).1, (ws.step host c.untyped).2) := by
  cases c with
  | lookup i k use key query =>
    cases query with
    | plain shape =>
      simp only [Command.untyped, step]
      split
      · next r t hr ht =>
        obtain ⟨f, hf⟩ | ⟨v, hv, hplain⟩ := r.lookup_value_cases host t use key ws.world
        · obtain ⟨hvalue, hplain⟩ := hf shape
          simp only [hvalue, hplain]
          rfl
        · simp only [hv, hplain]
          rfl
      · rfl
    | _ => rfl
  | _ => rfl

/-- **A run with lookups of plain values** goes as the run with lookups of the values does, and answers
from its answers. -/
theorem run_eq_extract (host : Host σ) (ws : Workspace σ) (cs : List Command) :
    ws.run host cs = (List.zipWith Command.extract cs (ws.run host (cs.map Command.untyped)).1,
      (ws.run host (cs.map Command.untyped)).2) := by
  induction cs generalizing ws with
  | nil => rfl
  | cons c cs ih =>
    simp only [List.map_cons, run]
    rw [step_eq_extract host ws c, ih]
    rfl

variable (host : Host σ) (ws : Workspace σ) (i k : Nat) (use : UseId) (key : String)

/-- The answer to a lookup. -/
def answer (query : Query) : Answer := (ws.step host (.lookup i k use key query)).1

theorem answer_plain (shape : Shape) : ws.answer host i k use key (.plain shape) =
    (Command.lookup i k use key (.plain shape)).extract (ws.answer host i k use key .value) :=
  congrArg Prod.fst (ws.step_eq_extract host _)

theorem answer_value_cases : ws.answer host i k use key .value = .unknown ∨
    (∃ f, ws.answer host i k use key .value = .found (.error f)) ∨
    ∃ v, ws.answer host i k use key .value = .found (.ok (.value v)) := by
  unfold answer step
  dsimp only
  split
  · next r t hr ht =>
    obtain ⟨f, hf⟩ | ⟨v, hv, -⟩ := r.lookup_value_cases host t use key ws.world
    · exact .inr (.inl ⟨f, congrArg Answer.found (hf .bool).1⟩)
    · exact .inr (.inr ⟨v, congrArg Answer.found hv⟩)
  · exact .inl rfl

/-! ## Plain values -/

/-- A lookup of a plain value finds what the value that is looked up is made of. -/
structure Extracts (shape : Shape) : Prop where
  found : ∀ reply, ws.answer host i k use key (.plain shape) = .found (.ok reply) ↔
    ∃ x, reply = .plain shape x ∧
      ws.answer host i k use key .value = .found (.ok (.value (shape.ofPlain x)))
  failed : ∀ f, ws.answer host i k use key .value = .found (.error f) →
    ws.answer host i k use key (.plain shape) = .found (.error f)
  refused : ∀ v, ws.answer host i k use key .value = .found (.ok (.value v)) →
    (∀ x, v ≠ shape.ofPlain x) → ws.answer host i k use key (.plain shape) =
      .found (.error ⟨use, key, .unexpectedValue ⟨shape.wanted v, v.kindName⟩⟩)
  /-- The caches are the same afterwards, with all the rest. -/
  workspace : (ws.step host (.lookup i k use key (.plain shape))).2 =
    (ws.step host (.lookup i k use key .value)).2

variable {host ws i k use key}

theorem answer_plain_of_value {v : Value}
    (hv : ws.answer host i k use key .value = .found (.ok (.value v))) (shape : Shape) :
    ws.answer host i k use key (.plain shape) =
      .found (((v.toPlain shape).map (.plain shape)).mapError (⟨use, key, ·⟩)) := by
  rw [answer_plain, hv]
  rfl

theorem found_iff_of_value {v : Value}
    (hv : ws.answer host i k use key .value = .found (.ok (.value v))) {shape : Shape}
    {reply : Reply} : ws.answer host i k use key (.plain shape) = .found (.ok reply) ↔
      ∃ x, reply = .plain shape x ∧ v = shape.ofPlain x := by
  rw [answer_plain_of_value hv, Value.toPlain]
  simp only [← Shape.toPlain_eq_ok_iff]
  cases shape.toPlain v with
  | error e =>
    refine iff_of_false nofun ?_
    rintro ⟨x, -, ⟨⟩⟩
  | ok x =>
    constructor
    · rintro ⟨⟩
      exact ⟨x, rfl, rfl⟩
    · rintro ⟨_, rfl, ⟨⟩⟩
      rfl

variable (host ws i k use key) in
theorem extracts (shape : Shape) : Extracts host ws i k use key shape where
  found reply := by
    rcases ws.answer_value_cases host i k use key with hvalue | ⟨f, hvalue⟩ | ⟨v, hvalue⟩
    · rw [answer_plain, hvalue]
      exact iff_of_false nofun fun ⟨_, _, h⟩ => nomatch h
    · rw [answer_plain, hvalue]
      exact iff_of_false nofun fun ⟨_, _, h⟩ => nomatch h
    · simp only [found_iff_of_value hvalue, hvalue, Answer.found.injEq, Except.ok.injEq,
        Reply.value.injEq]
  failed f hf := by
    rw [answer_plain, hf]
    rfl
  refused v hv hne := by
    rw [answer_plain_of_value hv, Value.toPlain, Shape.toPlain_eq_error hne]
    rfl
  workspace := by
    rw [step_eq_extract]
    rfl

/-- No value is found under two shapes, but for integers, which are found under both integer shapes if
they fit 32 bits. -/
structure ReadsIntegers (host : Host σ) (ws : Workspace σ) (i k : Nat) (use : UseId) (key : String) :
    Prop where
  one_shape : ∀ s s' reply reply', ws.answer host i k use key (.plain s) = .found (.ok reply) →
    ws.answer host i k use key (.plain s') = .found (.ok reply') → s = s' ∨
      (∃ n, ws.answer host i k use key .value = .found (.ok (.value (.int n)))) ∧
        (s = .int64 ∧ s' = .int32 ∨ s = .int32 ∧ s' = .int64)
  wide : ∀ n, ws.answer host i k use key .value = .found (.ok (.value (.int n))) →
    ws.answer host i k use key (.plain .int64) = .found (.ok (.plain .int64 n))
  narrow : ∀ n, ws.answer host i k use key .value = .found (.ok (.value (.int n))) →
    ((∃ reply, ws.answer host i k use key (.plain .int32) = .found (.ok reply)) ↔
      -2 ^ 31 ≤ n.toInt ∧ n.toInt ≤ 2 ^ 31 - 1) ∧
    ∀ m : Int32, ws.answer host i k use key (.plain .int32) = .found (.ok (.plain .int32 m)) ↔
      m.toInt = n.toInt

variable (host ws i k use key) in
theorem readsIntegers : ReadsIntegers host ws i k use key where
  one_shape s s' reply reply' h h' := by
    obtain ⟨x, -, hx⟩ := ((extracts host ws i k use key s).found reply).1 h
    obtain ⟨x', -, hx'⟩ := ((extracts host ws i k use key s').found reply').1 h'
    have hsame : s.ofPlain x = s'.ofPlain x' := by
      rw [hx] at hx'
      simpa using hx'
    refine (Shape.eq_or_int_of_ofPlain_eq hsame).imp id fun ⟨⟨n, hn⟩, hshapes⟩ => ⟨⟨n, ?_⟩, hshapes⟩
    rw [hx, hn]
  wide n hn := (found_iff_of_value hn).2 ⟨n, rfl, rfl⟩
  narrow n hn := by
    have hiff (m : Int32) : Value.int n = Shape.int32.ofPlain m ↔ m.toInt = n.toInt :=
      (Value.int.injEq _ _).to_iff.trans Shape.eq_toInt64_iff
    constructor
    · rw [← Shape.exists_toInt_eq_iff]
      constructor
      · rintro ⟨reply, hreply⟩
        obtain ⟨m, -, hm⟩ := (found_iff_of_value hn).1 hreply
        exact ⟨m, (hiff m).1 hm⟩
      · rintro ⟨m, hm⟩
        exact ⟨_, (found_iff_of_value hn).2 ⟨m, rfl, (hiff m).2 hm⟩⟩
    · intro m
      rw [found_iff_of_value hn, ← hiff]
      constructor
      · rintro ⟨_, ⟨⟩, hm⟩
        exact hm
      · exact fun hm => ⟨m, rfl, hm⟩

/-- **Lookups of plain values invert the making of values.** In any workspace, a lookup of a plain value
finds it exactly if the lookup of the value finds what is made of it. It fails as this does, and where
another value is found, it names the kind of this. The two leave the same caches. A value is found under
one shape only, but for integers, which are found unchanged under the shape of 64 bits, and under that
of 32 bits exactly if they fit it. A run goes on alike with either kind of lookups. -/
theorem typed_lookup_inverts (host : Host σ) (ws : Workspace σ) :
    (∀ i k use key, (∀ shape, Extracts host ws i k use key shape) ∧
      ReadsIntegers host ws i k use key) ∧
    ∀ cs : List Command, ws.run host cs =
      (List.zipWith Command.extract cs (ws.run host (cs.map Command.untyped)).1,
        (ws.run host (cs.map Command.untyped)).2) :=
  ⟨fun i k use key => ⟨extracts host ws i k use key, readsIntegers host ws i k use key⟩,
    ws.run_eq_extract host⟩

open Sample in
/-- The sample program, declared. -/
def declared : Workspace (List Loader) := ((start initial).run Loader.host declare).2

/-- The default port fits 32 bits, and is no truth value. -/
theorem typed_lookup_inverts_of_port :
    declared.answer Loader.host 0 0 ⟨0⟩ "port" .value = .found (.ok (.value (.int 80))) ∧
    declared.answer Loader.host 0 0 ⟨0⟩ "port" (.plain .int32) = .found (.ok (.plain .int32 80)) ∧
    declared.answer Loader.host 0 0 ⟨0⟩ "port" (.plain .bool) =
      .found (.error ⟨⟨0⟩, "port", .unexpectedValue ⟨"boolean", "int"⟩⟩) := by
  have hvalue : declared.answer Loader.host 0 0 ⟨0⟩ "port" .value =
      .found (.ok (.value (.int 80))) := Answer.eq_of_atom? (.int 80) (by decide +kernel)
  obtain ⟨hextracts, hintegers⟩ := (typed_lookup_inverts Loader.host declared).1 0 0 ⟨0⟩ "port"
  refine ⟨hvalue, ((hintegers.narrow 80 hvalue).2 80).2 (by decide), ?_⟩
  exact (hextracts .bool).refused _ hvalue nofun

end Workspace

end AnnotationLookup
