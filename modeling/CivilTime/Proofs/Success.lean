/-!
# Computations that succeed

The library computes in `Except Failure`.  A proof about a result takes the
computation apart at its sequencing points: `bind_eq_ok` splits a sequence
into its two parts, `map_eq_ok` and `mapError_eq_ok` undo a map, and `pure_eq_ok`
reads off the value that a computation ends with.

A failure has one cause: `bind_eq_error` says which part of a sequence it comes from.
What does not fail succeeds (`exists_eq_ok_iff`).

`Together` relates two computations that succeed or fail together, and
`Together.bind` goes through two sequences side by side.
-/

namespace CivilTime

variable {ε α β : Type}

/-- A sequence succeeds exactly when its parts succeed one after the other. -/
theorem bind_eq_ok {x : Except ε α} {f : α → Except ε β} {b : β} :
    x >>= f = .ok b ↔ ∃ a, x = .ok a ∧ f a = .ok b := by
  cases x with
  | error e =>
    constructor
    · intro h
      contradiction
    · rintro ⟨a, h, _⟩
      contradiction
  | ok a =>
    constructor
    · intro h
      exact ⟨a, rfl, h⟩
    · rintro ⟨a', h, hf⟩
      cases h
      exact hf

/-- A mapped result is the image of a result. -/
theorem map_eq_ok {x : Except ε α} {f : α → β} {b : β} :
    x.map f = .ok b ↔ ∃ a, x = .ok a ∧ f a = b := by
  cases x with
  | error e =>
    constructor
    · intro h
      contradiction
    · rintro ⟨a, h, _⟩
      contradiction
  | ok a =>
    constructor
    · intro h
      exact ⟨a, rfl, Except.ok.inj h⟩
    · rintro ⟨a', h, rfl⟩
      cases h
      rfl

/-- Renaming the failure keeps the result. -/
theorem mapError_eq_ok {ε' : Type} {x : Except ε α} {f : ε → ε'} {a : α} :
    x.mapError f = .ok a ↔ x = .ok a := by
  cases x with
  | error e => constructor <;> intro h <;> contradiction
  | ok found => exact ⟨fun h => congrArg _ (Except.ok.inj h), fun h => congrArg _ (Except.ok.inj h)⟩

theorem pure_eq_ok {a b : α} : (pure a : Except ε α) = .ok b ↔ a = b :=
  ⟨Except.ok.inj, congrArg Except.ok⟩

/-! ## Failures -/

/-- A sequence fails where one of its parts is the first to fail. -/
theorem bind_eq_error {x : Except ε α} {f : α → Except ε β} {e : ε} :
    x >>= f = .error e ↔ x = .error e ∨ ∃ a, x = .ok a ∧ f a = .error e := by
  cases x with
  | error found =>
    constructor
    · intro h
      cases h
      exact Or.inl rfl
    · rintro (h | ⟨a, h, -⟩)
      · cases h
        rfl
      · contradiction
  | ok a =>
    constructor
    · intro h
      exact Or.inr ⟨a, rfl, h⟩
    · rintro (h | ⟨a', h, hf⟩)
      · contradiction
      · cases h
        exact hf

/-- What is made of a result does not fail. -/
theorem bind_pure_eq_error {x : Except ε α} {f : α → β} {e : ε} :
    (x >>= fun a => pure (f a)) = .error e ↔ x = .error e := by
  rw [bind_eq_error]
  constructor
  · rintro (h | ⟨a, -, h⟩)
    · exact h
    · contradiction
  · exact Or.inl

/-- A map fails where what it maps does. -/
theorem map_eq_error {x : Except ε α} {f : α → β} {e : ε} :
    x.map f = .error e ↔ x = .error e := by
  cases x with
  | error found =>
    constructor
    · intro h
      exact congrArg _ (Except.error.inj h)
    · intro h
      exact congrArg _ (Except.error.inj h)
  | ok a => constructor <;> intro h <;> contradiction

/-- A computation that has no failure has a result. -/
theorem exists_eq_ok_iff {x : Except ε α} : (∃ a, x = .ok a) ↔ ∀ e, x ≠ .error e := by
  cases x with
  | error e => simp
  | ok a => simp

/-! ## Computations side by side -/

section Together

variable {γ δ : Type} {R : α → β → Prop} {S : γ → δ → Prop}

/-- Both computations fail, or both succeed with related results. -/
inductive Together (R : α → β → Prop) : Except ε α → Except ε β → Prop
  | ok {a : α} {b : β} (h : R a b) : Together R (.ok a) (.ok b)
  | error (e e' : ε) : Together R (.error e) (.error e')

theorem Together.bind {x : Except ε α} {y : Except ε β} {f : α → Except ε γ}
    {g : β → Except ε δ} (h : Together R x y) (hfg : ∀ a b, R a b → Together S (f a) (g b)) :
    Together S (x >>= f) (y >>= g) := by
  cases h with
  | ok h => exact hfg _ _ h
  | error e e' => exact .error e e'

/-- Computations that end in a failure. -/
theorem Together.of_then_error (x : Except ε α) (y : Except ε β)
    (failure failure' : ε) :
    Together S (x >>= fun _ => .error failure) (y >>= fun _ => .error failure') := by
  cases x with
  | error e =>
    cases y with
    | error e' => exact .error e e'
    | ok b => exact .error e failure'
  | ok a =>
    cases y with
    | error e' => exact .error failure e'
    | ok b => exact .error failure failure'

/-- A computation beside itself. -/
theorem Together.of_refl {R : α → α → Prop} (hR : ∀ a, R a a) (x : Except ε α) :
    Together R x x := by
  cases x with
  | ok a => exact .ok (hR a)
  | error e => exact .error e e

end Together

end CivilTime
