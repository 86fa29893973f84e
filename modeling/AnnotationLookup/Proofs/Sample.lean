import AnnotationLookup.Workspace

/-!
# A sample program

A class with one annotated method, on a class path of two classes, and the steps that declare it. The
annotation type and the type of the parameter may be bound to another factory than the class.

Values can be compared as numbers only, so that an answer is evaluated by way of its atoms.

* `Sample.route`, `Sample.server`, `Sample.declare`: the classes, and the steps;
* `Answer.atom?`, `Answer.atoms?`, `Answer.eq_of_atom?`, `Answer.eq_of_atoms?`: what an answer tells.
-/

namespace AnnotationLookup.Sample

/-- The factory that the class is declared under. -/
def home : Factory := ⟨1⟩

/-- A factory without a class path. -/
def abroad : Factory := ⟨2⟩

/-- `@Route(value, port = 80)`. -/
def route : CompiledClass where
  name := "Route"
  kind := .annotationType
  methods := [{ name := "value" }, { name := "port", defaultValue := some (.int 80) }]

/-- `class Server`, with `@Route("/") void serve(Server[] peers)`. -/
def server : CompiledClass where
  name := "Server"
  kind := .ordinary
  methods := [{
    name := "serve"
    parameterTypes := [⟨"Server[]"⟩]
    annotations := [⟨"Route", [("value", .string "/")]⟩] }]

/-- The two classes. -/
def classes : Universe := .ofList [route, server]

/-- The class path of the home factory. -/
def provider : Provider := .classPath [(home, ⟨0⟩)]

/-- The same class path for the home factory, and another one for the other factory. -/
def provider' : Provider := .classPath [(abroad, ⟨1⟩), (home, ⟨0⟩)]

/-- A world of one loader, which knows both classes. -/
def initial : World (List Loader) := { host := [{ classes := classes }] }

/-- Declares the class with its method and annotation, whose references are bound to a factory. -/
def edits (binding : Factory) : List Edit :=
  [.addType "Server" .ordinary .shadow home,
    .addMethod ⟨0⟩ "serve" [("peers", ⟨"Server[]", binding⟩)],
    .annotate (.method ⟨0⟩) ⟨"Route", binding⟩ none]

/-- The tree after these edits. -/
def tree (binding : Factory) : Tree :=
  (edits binding).foldl (fun t e => (e.apply t).1) { id := ⟨0⟩ }

/-- Makes a tree and a resolver, and declares the class in the tree. -/
def declare : List Command :=
  [.newTree, .newResolver provider {}] ++ (edits abroad).map (.edit 0)

/-- The tree with a resolver of the provider, and with an empty record of what loaders are asked. -/
def watched (p : Provider) (binding : Factory) :
    Workspace (List Loader × List (LoaderId × String)) where
  trees := [tree binding]
  resolvers := [{ provider := p }]
  world := { host := (initial.host, []) }

/-- Looks into the annotation, and declares another method of the same name afterwards. -/
def declareMore : List Command :=
  declare ++ [.lookup 0 0 ⟨0⟩ "port" .value, .edit 0 (.addMethod ⟨0⟩ "serve" [])]

end AnnotationLookup.Sample

namespace AnnotationLookup

/-! ## Answers by their atoms -/

/-- A value of one of the simplest kinds. -/
inductive Atom
  | int (n : Int64)
  | string (s : String)
  | classRef (t : TypeName)
deriving DecidableEq

/-- The value that the atom is. -/
def Atom.value : Atom → Value
  | .int n => .int n
  | .string s => .string s
  | .classRef t => .classRef t

/-- The atom that the value is, if it is one. -/
def Value.atom? : Value → Option Atom
  | .int n => some (.int n)
  | .string s => some (.string s)
  | .classRef t => some (.classRef t)
  | _ => none

theorem Value.eq_of_atom? {v : Value} {a : Atom} (h : v.atom? = some a) : v = a.value := by
  cases v with
  | int n | string s | classRef t =>
    cases h
    rfl
  | _ => cases h

theorem Value.eq_of_map_atom? {items : List Value} {as : List Atom}
    (h : items.map atom? = as.map some) : items = as.map Atom.value := by
  induction items generalizing as with
  | nil =>
    cases as with
    | nil => rfl
    | cons a as => cases h
  | cons v items ih =>
    cases as with
    | nil => cases h
    | cons a as =>
      obtain ⟨hv, hrest⟩ := List.cons.inj h
      rw [eq_of_atom? hv, ih hrest, List.map_cons]

namespace Answer

/-- The atom that is found, if it is one. -/
def atom? : Answer → Option Atom
  | .found (.ok (.value v)) => v.atom?
  | _ => none

/-- The atoms in the array that is found, and what are none. -/
def atoms? : Answer → Option (List (Option Atom))
  | .found (.ok (.value (.array items))) => some (items.map Value.atom?)
  | _ => none

variable {answer : Answer}

theorem eq_of_atom? (a : Atom) (h : answer.atom? = some a) :
    answer = .found (.ok (.value a.value)) := by
  unfold atom? at h
  split at h
  · next v => rw [Value.eq_of_atom? h]
  · cases h

theorem eq_of_atoms? (as : List Atom) (h : answer.atoms? = some (as.map some)) :
    answer = .found (.ok (.value (.array (as.map Atom.value)))) := by
  unfold atoms? at h
  split at h
  · next items => rw [Value.eq_of_map_atom? (Option.some.inj h)]
  · cases h

end Answer

end AnnotationLookup
