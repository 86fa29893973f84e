import AnnotationLookup.Proofs.Environment.Boolean
import AnnotationLookup.Settings
import Mathlib.Logic.Relation

/-!
# Stacked environments flatten

Stacks of stacks answer as one list of tables and of the variables of the process does, and the first
of these that defines a variable decides. It is not passed over where its value spells no truth value.

* `Environment.Leaf`, `Environment.leaves`: what is stacked, in order;
* `Environment.FirstDefines`, `Environment.Undefined`: the first leaf that defines a variable, or none;
* `Environment.Regrouped`: one change of how environments are stacked, at any depth;
* `Environment.get?_eq_findSome?`: a stack looks variables up as its leaves do;
* `Environment.Decides`, **`Environment.first_definition_decides`**: the main statement.
-/

namespace AnnotationLookup

namespace Environment

/-! ## Leaves -/

/-- Where variables are defined. -/
inductive Leaf
  | table (entries : Entries String)
  | process

mutual

/-- What is stacked in an environment, in the order in which it is asked. -/
def leaves (env : Environment) : List Leaf :=
  match env with
  | .table entries => [.table entries]
  | .process => [.process]
  | .stack environments => allLeaves environments
termination_by structural env

/-- The leaves of environments, one after the other. -/
def allLeaves (environments : List Environment) : List Leaf :=
  match environments with
  | [] => []
  | env :: environments => env.leaves ++ allLeaves environments
termination_by structural environments

end

theorem allLeaves_append (environments environments' : List Environment) :
    allLeaves (environments ++ environments') =
      allLeaves environments ++ allLeaves environments' := by
  induction environments with
  | nil => rfl
  | cons env environments ih => rw [List.cons_append, allLeaves, allLeaves, ih, List.append_assoc]

/-- One change of how environments are stacked, somewhere in a stack. -/
inductive Regrouped : Environment → Environment → Prop
  /-- A stack in a stack gives way to what it stacks, which may be nothing. -/
  | splice (before inner after : List Environment) :
    Regrouped (.stack (before ++ .stack inner :: after)) (.stack (before ++ inner ++ after))
  /-- An environment is stacked alone. -/
  | wrap (env : Environment) : Regrouped env (.stack [env])
  /-- One of the stacked environments is changed in this way. -/
  | within (before after : List Environment) {env env' : Environment} (h : Regrouped env env') :
    Regrouped (.stack (before ++ env :: after)) (.stack (before ++ env' :: after))

theorem Regrouped.leaves_eq {env env' : Environment} (h : Regrouped env env') :
    env.leaves = env'.leaves := by
  induction h with
  | splice before inner after => simp only [leaves, allLeaves_append, allLeaves, List.append_assoc]
  | wrap env => simp only [leaves, allLeaves, List.append_nil]
  | within before after h ih => simp only [leaves, allLeaves_append, allLeaves, ih]

/-! ## Variables -/

variable (process : Entries String)

/-- The value of a key in a leaf. -/
def Leaf.get? (leaf : Leaf) (key : String) : Option String :=
  match leaf with
  | .table entries => Entries.get? entries key
  | .process => Entries.get? process key

/-- The first of the leaves that define the variable gives it the value. -/
def FirstDefines (leaves : List Leaf) (key value : String) : Prop :=
  ∃ before leaf after, leaves = before ++ leaf :: after ∧
    leaf.get? process key = some value ∧ ∀ l ∈ before, l.get? process key = none

/-- None of the leaves defines the variable. -/
def Undefined (leaves : List Leaf) (key : String) : Prop :=
  ∀ leaf ∈ leaves, leaf.get? process key = none

mutual

/-- **A variable is looked up in the leaves**, one after another. -/
theorem get?_eq_findSome? (env : Environment) (key : String) :
    env.get? process key = env.leaves.findSome? (·.get? process key) := by
  match env with
  | .table entries => rw [get?, leaves, List.findSome?_singleton, Leaf.get?]
  | .process => rw [get?, leaves, List.findSome?_singleton, Leaf.get?]
  | .stack environments => rw [get?, leaves, getFirst?_eq_findSome? environments key]
termination_by structural env

theorem getFirst?_eq_findSome? (environments : List Environment) (key : String) :
    getFirst? process environments key =
      (allLeaves environments).findSome? (·.get? process key) := by
  match environments with
  | [] => rfl
  | env :: environments =>
    rw [getFirst?, allLeaves, List.findSome?_append, ← get?_eq_findSome? env key,
      ← getFirst?_eq_findSome? environments key]
    cases env.get? process key <;> rfl
termination_by structural environments

end

variable {process} {env : Environment} {key : String}

theorem get?_eq_some_iff {value : String} :
    env.get? process key = some value ↔ FirstDefines process env.leaves key value := by
  rw [get?_eq_findSome?, List.findSome?_eq_some_iff]
  rfl

theorem get?_eq_none_iff :
    env.get? process key = none ↔ Undefined process env.leaves key := by
  rw [get?_eq_findSome?, List.findSome?_eq_none_iff]
  rfl

/-! ## Truth values -/

theorem enabled_of_undefined (h : Undefined process env.leaves key) (default : Bool) :
    env.enabled process key default = .ok default := by
  rw [enabled, get?_eq_none_iff.2 h]

theorem enabled_of_firstDefines {value : String} (h : FirstDefines process env.leaves key value)
    (default : Bool) : env.enabled process key default = readBoolean key value := by
  rw [enabled, get?_eq_some_iff.2 h]

variable (process env key) in
theorem undefined_or_firstDefines :
    Undefined process env.leaves key ∨ ∃ value, FirstDefines process env.leaves key value := by
  cases h : env.get? process key with
  | none => exact .inl (get?_eq_none_iff.1 h)
  | some value => exact .inr ⟨value, get?_eq_some_iff.1 h⟩

theorem FirstDefines.not_undefined {value : String} (h : FirstDefines process env.leaves key value) :
    ¬ Undefined process env.leaves key := by
  rw [← get?_eq_none_iff, get?_eq_some_iff.2 h]
  exact nofun

theorem FirstDefines.unique {value value' : String} (h : FirstDefines process env.leaves key value)
    (h' : FirstDefines process env.leaves key value') : value = value' :=
  Option.some.inj ((get?_eq_some_iff.2 h).symm.trans (get?_eq_some_iff.2 h'))

/-- Nothing but the first definition of a variable decides what an environment answers about it. -/
structure Decides (process : Entries String) (env : Environment) (key : String) : Prop where
  value : ∀ value, env.get? process key = some value ↔ FirstDefines process env.leaves key value
  no_value : env.get? process key = none ↔ Undefined process env.leaves key
  /-- The default counts where there is no definition. -/
  by_default : (∀ default, env.enabled process key default = .ok default) ↔
    Undefined process env.leaves key
  ok : ∀ default b, env.enabled process key default = .ok b ↔
    Undefined process env.leaves key ∧ b = default ∨
      ∃ value, FirstDefines process env.leaves key value ∧ Spells (wordsOf b) value
  /-- A first definition that spells no truth value is an error, whatever comes after it. -/
  error : ∀ default e, env.enabled process key default = .error e ↔
    ∃ value, FirstDefines process env.leaves key value ∧ e = ⟨key, value⟩ ∧
      ∀ b, ¬ Spells (wordsOf b) value

variable (process env key) in
theorem decides : Decides process env key where
  value _ := get?_eq_some_iff
  no_value := get?_eq_none_iff
  by_default := by
    refine ⟨fun h => ?_, enabled_of_undefined⟩
    rcases undefined_or_firstDefines process env key with hundefined | ⟨value, hvalue⟩
    · exact hundefined
    · -- the value is read as one truth value at most, and there are two defaults
      simp only [enabled_of_firstDefines hvalue] at h
      cases (h true).symm.trans (h false)
  ok default b := by
    rcases undefined_or_firstDefines process env key with hundefined | ⟨value, hvalue⟩
    · rw [enabled_of_undefined hundefined, Except.ok.injEq]
      constructor
      · exact fun h => .inl ⟨hundefined, h.symm⟩
      · rintro (⟨-, h⟩ | ⟨value, hvalue, -⟩)
        · exact h.symm
        · exact absurd hundefined hvalue.not_undefined
    · rw [enabled_of_firstDefines hvalue, readBoolean_eq_ok_iff]
      constructor
      · exact fun h => .inr ⟨value, hvalue, h⟩
      · rintro (⟨hundefined, -⟩ | ⟨value', hvalue', h⟩)
        · exact absurd hundefined hvalue.not_undefined
        · rwa [hvalue.unique hvalue']
  error default e := by
    rcases undefined_or_firstDefines process env key with hundefined | ⟨value, hvalue⟩
    · rw [enabled_of_undefined hundefined]
      refine iff_of_false nofun ?_
      rintro ⟨value, hvalue, -⟩
      exact hvalue.not_undefined hundefined
    · rw [enabled_of_firstDefines hvalue, readBoolean_eq_error_iff]
      constructor
      · exact fun h => ⟨value, hvalue, h⟩
      · rintro ⟨value', hvalue', h⟩
        rwa [hvalue.unique hvalue']

/-! ## Settings -/

theorem leaves_overrides (overrides : Environment) :
    (stack [overrides, .process]).leaves = overrides.leaves ++ [.process] := by
  simp only [leaves, allLeaves, List.append_nil]

theorem ofEnvironment_eq_ok_iff {s : Settings} :
    Settings.ofEnvironment process env = .ok s ↔
      env.enabled process Settings.warnVariable false = .ok s.warnOnRebinding := by
  rw [Settings.ofEnvironment, Settings.readWarnOnRebinding]
  cases env.enabled process Settings.warnVariable false with
  | error e => exact iff_of_false nofun nofun
  | ok b =>
    cases s
    simp [Except.map]

theorem ofEnvironment_eq_error_iff {e : InvalidBoolean} :
    Settings.ofEnvironment process env = .error e ↔
      env.enabled process Settings.warnVariable false = .error e := by
  rw [Settings.ofEnvironment, Settings.readWarnOnRebinding]
  cases env.enabled process Settings.warnVariable false <;> simp [Except.map]

/-- **Stacked environments flatten, and the first definition decides.** The value of a variable is that
of the first leaf that defines it, and stacking the leaves in other ways changes no answer. The truth
value of a variable is the default exactly if no leaf defines it, and depends on the value in the first
one otherwise: where this spells no truth value, the error names the variable and the whole value. The
settings that others take precedence over are read by the same law from the leaves of the others and the
variables of the process after them. -/
theorem first_definition_decides (process : Entries String) (env : Environment) :
    (∀ key, Decides process env key) ∧
    (∀ env', Relation.EqvGen Regrouped env env' → ∀ key,
      env'.get? process key = env.get? process key ∧
      ∀ default, env'.enabled process key default = env.enabled process key default) ∧
    Settings.ofProcessWith process env = Settings.ofEnvironment process (.stack [env, .process]) ∧
    (∀ s, Settings.ofProcessWith process env = .ok s ↔
      Undefined process (env.leaves ++ [.process]) Settings.warnVariable ∧ s = {} ∨
        ∃ value, FirstDefines process (env.leaves ++ [.process]) Settings.warnVariable value ∧
          Spells (wordsOf s.warnOnRebinding) value) ∧
    ∀ e, Settings.ofProcessWith process env = .error e ↔
      ∃ value, FirstDefines process (env.leaves ++ [.process]) Settings.warnVariable value ∧
        e = ⟨Settings.warnVariable, value⟩ ∧ ∀ b, ¬ Spells (wordsOf b) value := by
  have hsettings := decides process (.stack [env, .process]) Settings.warnVariable
  refine ⟨fun key => decides process env key, fun env' h key => ?_, rfl, fun s => ?_, fun e => ?_⟩
  · have hleaves : env.leaves = env'.leaves :=
      congrArg (Quot.lift leaves fun _ _ => Regrouped.leaves_eq) (Quot.eqvGen_sound h)
    have hget : env'.get? process key = env.get? process key := by
      rw [get?_eq_findSome?, ← hleaves, ← get?_eq_findSome?]
    exact ⟨hget, fun default => by rw [enabled, hget, ← enabled]⟩
  · have hdefault : s = {} ↔ s.warnOnRebinding = false := by
      cases s
      exact Settings.mk.injEq _ _ |>.to_iff
    rw [← leaves_overrides, hdefault, ← hsettings.ok]
    exact ofEnvironment_eq_ok_iff
  · rw [← leaves_overrides, ← hsettings.error]
    exact ofEnvironment_eq_error_iff

/-- An empty value in a stack of a stack, before the process, which would turn warnings on. -/
def emptied : Environment :=
  .stack [.stack [], .stack [.table [], .table [(Settings.warnVariable, "")]]]

/-- An empty value is a definition, and an error. -/
theorem first_definition_decides_of_emptied :
    Relation.EqvGen Regrouped emptied (.stack [.table [], .table [(Settings.warnVariable, "")]]) ∧
    (Environment.stack [.table [], .table [(Settings.warnVariable, "")]]).get?
      [(Settings.warnVariable, "on")] Settings.warnVariable = some "" ∧
    Settings.ofProcessWith [(Settings.warnVariable, "on")] emptied =
      .error ⟨Settings.warnVariable, ""⟩ := by
  have hregrouped : Relation.EqvGen Regrouped emptied
      (.stack [.table [], .table [(Settings.warnVariable, "")]]) :=
    .trans _ _ _ (.rel _ _ (.splice [] [] _)) (.symm _ _ (.rel _ _ (.wrap _)))
  obtain ⟨-, halike, -, -, herror⟩ :=
    first_definition_decides [(Settings.warnVariable, "on")] emptied
  refine ⟨hregrouped, (halike _ hregrouped _).1, (herror _).2 ⟨"", ?_, rfl, ?_⟩⟩
  · exact ⟨[.table []], .table [(Settings.warnVariable, "")], [.process], rfl, by decide, by decide⟩
  · intro b h
    exact h.ascii.1 rfl

end Environment

end AnnotationLookup
