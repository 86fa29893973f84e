import AnnotationLookup.Resolver.Basic

/-!
# Computations that go alike

Two computations go alike if, from related worlds, they come to the same outcome in related worlds.
Statements about two runs are shown step by step in this form; with a relation that a world has to
itself only, the same form says what a single run preserves.

* `Task.Agree`, `Task.Alike`, with one lemma for each way of putting computations together;
* `Task.AlikeUnless`: the same, unless the first computation breaks off early;
* `Task.Congruence`: what the two forms have in common;
* `Task.after`, `Task.outcome`, `Task.Keeps`: the world after a single run, what it comes to, and what
  is preserved by it;
* `Task.Gives`: the values that a computation comes to, again with a lemma for each way;
* `Task.Returns`: what holds of the values that a computation comes to, if it does;
* `Task.Raises`: what holds of the errors that a computation breaks off with, if it does;
* `World.Hosts`: the relations between worlds that do not look at the log.
-/

namespace AnnotationLookup

variable {σ σ' ε ε' α β : Type}

namespace Task

/-- The same outcome in related worlds. -/
inductive Agree (R : World σ → World σ' → Prop) :
    EStateM.Result ε (World σ) α → EStateM.Result ε (World σ') α → Prop
  | ok (a : α) {w : World σ} {w' : World σ'} (h : R w w') : Agree R (.ok a w) (.ok a w')
  | error (e : ε) {w : World σ} {w' : World σ'} (h : R w w') : Agree R (.error e w) (.error e w')

/-- From related worlds, the same outcome in related worlds. -/
def Alike (R : World σ → World σ' → Prop) (x : Task σ ε α) (y : Task σ' ε α) : Prop :=
  ∀ w w', R w w' → Agree R (x w) (y w')

variable {R : World σ → World σ' → Prop}

theorem Agree.exists_ok {a : α} {w : World σ} {q : EStateM.Result ε (World σ') α}
    (h : Agree R (.ok a w) q) : ∃ w', q = .ok a w' := by
  cases h with
  | ok _ _ => exact ⟨_, rfl⟩

namespace Alike

theorem pure (a : α) : Alike R (Pure.pure a : Task σ ε α) (Pure.pure a : Task σ' ε α) :=
  fun _ _ h => .ok a h

theorem throw (e : ε) : Alike R (MonadExcept.throw e : Task σ ε α) (MonadExcept.throw e) :=
  fun _ _ h => .error e h

theorem bind {x : Task σ ε α} {y : Task σ' ε α} {f : α → Task σ ε β} {g : α → Task σ' ε β}
    (hx : Alike R x y) (hf : ∀ a, Alike R (f a) (g a)) : Alike R (x >>= f) (y >>= g) := by
  intro w w' h
  have hxy := hx w w' h
  change Agree R (EStateM.bind x f w) (EStateM.bind y g w')
  unfold EStateM.bind
  generalize x w = p, y w' = q at hxy
  cases hxy with
  | ok a h => exact hf a _ _ h
  | error e h => exact .error e h

theorem adaptExcept {x : Task σ ε α} {y : Task σ' ε α} (hx : Alike R x y) (f : ε → ε') :
    Alike R (EStateM.adaptExcept f x) (EStateM.adaptExcept f y) := by
  intro w w' h
  have hxy := hx w w' h
  unfold EStateM.adaptExcept
  generalize x w = p, y w' = q at hxy
  cases hxy with
  | ok a h => exact .ok a h
  | error e h => exact .error (f e) h

end Alike

/-! ## Computations that may break off early -/

/-- The same outcome in related worlds, unless the first computation has broken off with an error of
`B`. -/
inductive AgreeUnless (B : ε → World σ → Prop) (R : World σ → World σ' → Prop) :
    EStateM.Result ε (World σ) α → EStateM.Result ε (World σ') α → Prop
  | agree {p : EStateM.Result ε (World σ) α} {q : EStateM.Result ε (World σ') α}
    (h : Agree R p q) : AgreeUnless B R p q
  | early {e : ε} {w : World σ} (h : B e w) (q : EStateM.Result ε (World σ') α) :
    AgreeUnless B R (.error e w) q

/-- From related worlds, the same outcome in related worlds, unless the first computation breaks off
with an error of `B`. -/
def AlikeUnless (B : ε → World σ → Prop) (R : World σ → World σ' → Prop) (x : Task σ ε α)
    (y : Task σ' ε α) : Prop :=
  ∀ w w', R w w' → AgreeUnless B R (x w) (y w')

namespace AlikeUnless

variable {B : ε → World σ → Prop}

theorem of_alike {x : Task σ ε α} {y : Task σ' ε α} (h : Alike R x y) : AlikeUnless B R x y :=
  fun w w' hw => .agree (h w w' hw)

theorem bind {x : Task σ ε α} {y : Task σ' ε α} {f : α → Task σ ε β} {g : α → Task σ' ε β}
    (hx : AlikeUnless B R x y) (hf : ∀ a, AlikeUnless B R (f a) (g a)) :
    AlikeUnless B R (x >>= f) (y >>= g) := by
  intro w w' h
  have hxy := hx w w' h
  change AgreeUnless B R (EStateM.bind x f w) (EStateM.bind y g w')
  unfold EStateM.bind
  generalize x w = p, y w' = q at hxy
  cases hxy with
  | agree hpq =>
    cases hpq with
    | ok a h => exact hf a _ _ h
    | error e h => exact .agree (.error e h)
  | early he q => exact .early he _

theorem adaptExcept {B' : ε' → World σ → Prop} {x : Task σ ε α} {y : Task σ' ε α}
    (hx : AlikeUnless B R x y) (f : ε → ε') (hB : ∀ e w, B e w → B' (f e) w) :
    AlikeUnless B' R (EStateM.adaptExcept f x) (EStateM.adaptExcept f y) := by
  intro w w' h
  have hxy := hx w w' h
  unfold EStateM.adaptExcept
  generalize x w = p, y w' = q at hxy
  cases hxy with
  | agree hpq =>
    cases hpq with
    | ok a h => exact .agree (.ok a h)
    | error e h => exact .agree (.error (f e) h)
  | early he q => exact .early (hB _ _ he) _

end AlikeUnless

/-! ## What the two forms have in common -/

/-- A relation between computations that is respected by the ways of putting them together. -/
structure Congruence (C : ∀ {α : Type}, Task σ ε α → Task σ' ε α → Prop) : Prop where
  pure : ∀ {α : Type} (a : α), C (Pure.pure a : Task σ ε α) (Pure.pure a)
  throw : ∀ {α : Type} (e : ε), C (MonadExcept.throw e : Task σ ε α) (MonadExcept.throw e)
  bind : ∀ {α β : Type} {x : Task σ ε α} {y : Task σ' ε α} {f : α → Task σ ε β}
    {g : α → Task σ' ε β}, C x y → (∀ a, C (f a) (g a)) → C (x >>= f) (y >>= g)

theorem Congruence.ofExcept {C : ∀ {α : Type}, Task σ ε α → Task σ' ε α → Prop}
    (hC : Congruence @C) (o : Except ε α) : C (Task.ofExcept o : Task σ ε α) (Task.ofExcept o) := by
  cases o with
  | ok a => exact hC.pure a
  | error e => exact hC.throw e

theorem Alike.congruence :
    Congruence fun {α : Type} (x : Task σ ε α) (y : Task σ' ε α) => Alike R x y :=
  ⟨.pure, .throw, .bind⟩

theorem AlikeUnless.congruence {B : ε → World σ → Prop} :
    Congruence fun {α : Type} (x : Task σ ε α) (y : Task σ' ε α) => AlikeUnless B R x y :=
  ⟨fun a => .of_alike (.pure a), fun e => .of_alike (.throw e), .bind⟩

/-! ## Single runs -/

/-- The world after a computation, also after one that fails. -/
def after (x : Task σ ε α) (w : World σ) : World σ :=
  match x w with
  | .ok _ v => v
  | .error _ v => v

/-- What a computation comes to. -/
def outcome (x : Task σ ε α) (w : World σ) : Except ε α :=
  match x w with
  | .ok a _ => .ok a
  | .error e _ => .error e

theorem bind_of_ok {x : Task σ ε α} {w v : World σ} {a : α} (h : x w = .ok a v)
    (f : α → Task σ ε β) : (x >>= f) w = f a v := by
  change EStateM.bind x f w = _
  rw [EStateM.bind, h]

theorem bind_of_error {x : Task σ ε α} {w v : World σ} {e : ε} (h : x w = .error e v)
    (f : α → Task σ ε β) : (x >>= f) w = .error e v := by
  change EStateM.bind x f w = _
  rw [EStateM.bind, h]

theorem ofExcept_bind (o : Except ε α) (f : α → Except ε β) :
    (Task.ofExcept o >>= fun a => Task.ofExcept (f a) : Task σ ε β) = Task.ofExcept (o.bind f) := by
  cases o <;> rfl

/-- From any world of `P`, a world of `P`. -/
def Keeps (P : World σ → Prop) (x : Task σ ε α) : Prop := Alike (fun w w' => w' = w ∧ P w) x x

theorem Alike.after {x : Task σ ε α} {y : Task σ' ε α} (h : Alike R x y) {w : World σ}
    {w' : World σ'} (hw : R w w') : R (after x w) (after y w') := by
  have hxy := h w w' hw
  unfold Task.after
  generalize x w = p, y w' = q at hxy
  cases hxy with
  | ok a h => exact h
  | error e h => exact h

theorem Alike.outcome {x : Task σ ε α} {y : Task σ' ε α} (h : Alike R x y) {w : World σ}
    {w' : World σ'} (hw : R w w') : outcome y w' = outcome x w := by
  have hxy := h w w' hw
  unfold Task.outcome
  generalize x w = p, y w' = q at hxy
  cases hxy <;> rfl

/-- The first run has broken off with an error of `B`, or both come to the same. -/
theorem AlikeUnless.early_or_agree {B : ε → World σ → Prop} {x : Task σ ε α} {y : Task σ' ε α}
    (h : AlikeUnless B R x y) {w : World σ} {w' : World σ'} (hw : R w w') :
    (∃ e, outcome x w = .error e ∧ B e (Task.after x w)) ∨
      outcome x w = outcome y w' ∧ R (Task.after x w) (Task.after y w') := by
  have hxy := h w w' hw
  unfold Task.outcome Task.after
  generalize x w = p, y w' = q at hxy
  cases hxy with
  | agree hpq =>
    cases hpq with
    | ok a h => exact .inr ⟨rfl, h⟩
    | error e h => exact .inr ⟨rfl, h⟩
  | early he q => exact .inl ⟨_, rfl, he⟩

variable {P : World σ → Prop}

theorem Keeps.after {x : Task σ ε α} (h : Keeps P x) {w : World σ} (hw : P w) :
    P (after x w) :=
  (Alike.after h ⟨rfl, hw⟩).2

theorem keeps_of_after {x : Task σ ε α} (h : ∀ w, P w → P (Task.after x w)) : Keeps P x := by
  rintro w w' ⟨heq, hw⟩
  rw [heq]
  have hv := h w hw
  unfold Task.after at hv
  cases hx : x w with
  | ok a v =>
    rw [hx] at hv
    exact .ok a ⟨rfl, hv⟩
  | error e v =>
    rw [hx] at hv
    exact .error e ⟨rfl, hv⟩

/-! ## Outcomes -/

/-- From any world, the values that the computation comes to are those of `P`. -/
def Gives (x : Task σ ε α) (P : α → Prop) : Prop := ∀ w a, (∃ w', x w = .ok a w') ↔ P a

namespace Gives

theorem congr {x : Task σ ε α} {P Q : α → Prop} (hx : Gives x P) (h : ∀ a, P a ↔ Q a) :
    Gives x Q :=
  fun w a => (hx w a).trans (h a)

theorem pure (a : α) : Gives (Pure.pure a : Task σ ε α) fun b => b = a := by
  intro w b
  constructor
  · rintro ⟨w', h⟩
    cases h
    rfl
  · rintro rfl
    exact ⟨w, rfl⟩

theorem throw (e : ε) : Gives (MonadExcept.throw e : Task σ ε α) fun _ => False :=
  fun _ _ => ⟨fun ⟨_, h⟩ => (by cases h), False.elim⟩

theorem ofExcept (o : Except ε α) : Gives (Task.ofExcept o : Task σ ε α) fun a => o = .ok a := by
  cases o with
  | ok a => exact (Gives.pure a).congr fun b => ⟨fun h => by rw [h], fun h => by cases h; rfl⟩
  | error e => exact (Gives.throw e).congr fun b => ⟨False.elim, fun h => by cases h⟩

theorem report (level : Level) (event : Event) :
    Gives (AnnotationLookup.report level event : Task σ ε Unit) fun _ => True :=
  fun _ _ => ⟨fun _ => trivial, fun _ => ⟨_, rfl⟩⟩

theorem bind {x : Task σ ε α} {f : α → Task σ ε β} {P : α → Prop} {Q : α → β → Prop}
    (hx : Gives x P) (hf : ∀ a, P a → Gives (f a) (Q a)) :
    Gives (x >>= f) fun b => ∃ a, P a ∧ Q a b := by
  intro w b
  change (∃ w', EStateM.bind x f w = .ok b w') ↔ _
  unfold EStateM.bind
  cases hv : x w with
  | ok a v =>
    have ha : P a := (hx w a).1 ⟨v, hv⟩
    refine (hf a ha v b).trans ⟨fun hb => ⟨a, ha, hb⟩, fun ⟨a', ha', hb⟩ => ?_⟩
    obtain ⟨v', hv'⟩ := (hx w a').2 ha'
    rw [hv] at hv'
    cases hv'
    exact hb
  | error e v =>
    refine ⟨fun ⟨_, h⟩ => (by cases h), fun ⟨a, ha, _⟩ => ?_⟩
    obtain ⟨v', hv'⟩ := (hx w a).2 ha
    rw [hv] at hv'
    cases hv'

theorem adaptExcept {x : Task σ ε α} {P : α → Prop} (hx : Gives x P) (f : ε → ε') :
    Gives (EStateM.adaptExcept f x) P := by
  intro w a
  rw [← hx w a]
  unfold EStateM.adaptExcept
  cases x w with
  | ok b v => exact ⟨fun ⟨w', h⟩ => ⟨w', by cases h; rfl⟩, fun ⟨w', h⟩ => ⟨w', by cases h; rfl⟩⟩
  | error e v => exact ⟨fun ⟨_, h⟩ => (by cases h), fun ⟨_, h⟩ => (by cases h)⟩

end Gives

/-- From any world, what the computation comes to, if it does not fail, is in `P`. -/
def Returns (x : Task σ ε α) (P : α → Prop) : Prop := ∀ w a w', x w = .ok a w' → P a

namespace Returns

theorem pure {a : α} {P : α → Prop} (h : P a) : Returns (Pure.pure a : Task σ ε α) P := by
  intro w b w' hb
  cases hb
  exact h

theorem throw (e : ε) (P : α → Prop) : Returns (MonadExcept.throw e : Task σ ε α) P := by
  intro w a w' ha
  cases ha

theorem ofExcept {o : Except ε α} {P : α → Prop} (h : ∀ a, o = .ok a → P a) :
    Returns (Task.ofExcept o : Task σ ε α) P := by
  cases o with
  | ok a => exact Returns.pure (h a rfl)
  | error e => exact Returns.throw e P

theorem bind {x : Task σ ε α} {f : α → Task σ ε β} {P : α → Prop} {Q : β → Prop}
    (hx : Returns x P) (hf : ∀ a, P a → Returns (f a) Q) : Returns (x >>= f) Q := by
  intro w b w' hb
  change EStateM.bind x f w = .ok b w' at hb
  unfold EStateM.bind at hb
  cases hv : x w with
  | ok a v =>
    rw [hv] at hb
    exact hf a (hx w a v hv) v b w' hb
  | error e v =>
    rw [hv] at hb
    cases hb

theorem adaptExcept {x : Task σ ε α} {P : α → Prop} (hx : Returns x P) (f : ε → ε') :
    Returns (EStateM.adaptExcept f x) P := by
  intro w a w' ha
  unfold EStateM.adaptExcept at ha
  cases hv : x w with
  | ok b v =>
    rw [hv] at ha
    cases ha
    exact hx w a w' hv
  | error e v =>
    rw [hv] at ha
    cases ha

end Returns

/-- From any world of `P`, a world of `P`, and what the computation breaks off with, if it does, is in
`E`. -/
def Raises (P : World σ → Prop) (E : ε → Prop) (x : Task σ ε α) : Prop :=
  ∀ w, P w → P (Task.after x w) ∧ ∀ e, Task.outcome x w = .error e → E e

namespace Raises

variable {E : ε → Prop}

theorem pure (a : α) : Raises P E (Pure.pure a : Task σ ε α) :=
  fun _ hw => ⟨hw, fun _ h => by cases h⟩

theorem bind {x : Task σ ε α} {f : α → Task σ ε β} (hx : Raises P E x)
    (hf : ∀ a, Raises P E (f a)) : Raises P E (x >>= f) := by
  intro w hw
  obtain ⟨hafter, herror⟩ := hx w hw
  unfold Task.after at hafter
  unfold Task.outcome at herror
  unfold Task.after Task.outcome
  cases hv : x w with
  | ok a v =>
    rw [hv] at hafter
    rw [bind_of_ok hv]
    exact hf a v hafter
  | error e v =>
    rw [hv] at hafter herror
    rw [bind_of_error hv]
    exact ⟨hafter, fun e' h => by cases h; exact herror e rfl⟩

end Raises

end Task

/-! ## Relations that do not look at the log -/

/-- Worlds whose hosts are related, whatever has been reported in them. -/
def World.Hosts (H : σ → σ' → Prop) (w : World σ) (w' : World σ') : Prop := H w.host w'.host

namespace Task.Alike

variable {H : σ → σ' → Prop}

theorem report (level level' : Level) (event event' : Event) :
    Alike (World.Hosts H) (AnnotationLookup.report level event : Task σ ε Unit)
      (AnnotationLookup.report level' event') :=
  fun _ _ h => .ok () h

end Task.Alike

end AnnotationLookup
