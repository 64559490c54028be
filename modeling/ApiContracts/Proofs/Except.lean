/-!
# Results of steps that may fail

What it takes for a chain of steps to succeed: every step does, and each goes on from what the one before
it answered. What holds of whatever a chain answers is carried along it in the same way, step by step.
-/

namespace ApiContracts

variable {ε α β : Type}

theorem isOk_bind {x : Except ε α} {f : α → Except ε β} :
    (x >>= f).isOk = true ↔ ∃ a, x = .ok a ∧ (f a).isOk = true := by
  cases x with
  | error e => simp [bind, Except.bind, Except.isOk, Except.toBool]
  | ok a => simp [bind, Except.bind]

theorem bind_eq_ok {x : Except ε α} {f : α → Except ε β} {b : β} :
    x >>= f = .ok b ↔ ∃ a, x = .ok a ∧ f a = .ok b := by
  cases x with
  | error e => simp [bind, Except.bind]
  | ok a => simp [bind, Except.bind]

theorem map_eq_ok {x : Except ε α} {f : α → β} {b : β} :
    x.map f = .ok b ↔ ∃ a, x = .ok a ∧ f a = b := by
  cases x with
  | error e => simp [Except.map]
  | ok a => simp [Except.map]

theorem map_eq_error {x : Except ε α} {f : α → β} {e : ε} : x.map f = .error e ↔ x = .error e := by
  cases x <;> simp [Except.map]

theorem mapError_eq_ok {φ : Type} {x : Except ε α} {f : ε → φ} {a : α} : x.mapError f = .ok a ↔ x = .ok a := by
  cases x with
  | error e => exact iff_of_false (fun h => by cases h) (fun h => by cases h)
  | ok b =>
      have hf : (Except.ok b : Except ε α).mapError f = .ok b := rfl
      rw [hf, Except.ok.injEq, Except.ok.injEq]

theorem mapError_eq_error {φ : Type} {x : Except ε α} {f : ε → φ} {e : φ} :
    x.mapError f = .error e ↔ ∃ fault, x = .error fault ∧ f fault = e := by
  cases x with
  | error fault =>
      have hf : (Except.error fault : Except ε α).mapError f = .error (f fault) := rfl
      rw [hf, Except.error.injEq]
      exact ⟨fun h => ⟨fault, rfl, h⟩, fun ⟨_, hfault, h⟩ => Except.error.inj hfault ▸ h⟩
  | ok b => exact iff_of_false (fun h => by cases h) (fun ⟨_, h, _⟩ => by cases h)

theorem isOk_iff {x : Except ε α} : x.isOk = true ↔ ∃ a, x = .ok a := by
  cases x <;> simp [Except.isOk, Except.toBool]

theorem isOk_iff_ne_error {x : Except ε α} : x.isOk = true ↔ ∀ e, x ≠ .error e := by
  cases x <;> simp [Except.isOk, Except.toBool]

@[simp] theorem isOk_ok {a : α} : (Except.ok a : Except ε α).isOk = true := by
  rfl

@[simp] theorem isOk_pure {a : α} : (pure a : Except ε α).isOk = true := by
  rfl

@[simp] theorem isOk_error {e : ε} : (Except.error e : Except ε α).isOk = false := by
  rfl

@[simp] theorem isOk_map {x : Except ε α} {f : α → β} : (x.map f).isOk = x.isOk := by
  cases x <;> rfl

/-- Whether whatever a step answers satisfies a condition. -/
def Ensures (x : Except ε α) (P : α → Prop) : Prop := ∀ a, x = .ok a → P a

theorem ensures_ok {P : α → Prop} {a : α} (h : P a) : Ensures (.ok a : Except ε α) P := by
  intro b hb
  cases hb
  exact h

theorem ensures_error {P : α → Prop} {e : ε} : Ensures (.error e : Except ε α) P := by
  intro b hb
  cases hb

theorem ensures_bind {x : Except ε α} {f : α → Except ε β} {P : α → Prop} {Q : β → Prop} (hx : Ensures x P)
    (hf : ∀ a, P a → Ensures (f a) Q) : Ensures (x >>= f) Q := by
  intro b hb
  obtain ⟨a, ha, hb⟩ := bind_eq_ok.1 hb
  exact hf a (hx a ha) b hb

theorem ensures_map {x : Except ε α} {f : α → β} {P : α → Prop} {Q : β → Prop} (hx : Ensures x P)
    (hf : ∀ a, P a → Q (f a)) : Ensures (x.map f) Q := by
  intro b hb
  obtain ⟨a, ha, rfl⟩ := map_eq_ok.1 hb
  exact hf a (hx a ha)

end ApiContracts
