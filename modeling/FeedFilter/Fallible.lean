namespace Except

variable {ε φ α β γ : Type}

theorem map_map (f : α → β) (g : β → γ) (found : Except ε α) :
    (found.map f).map g = found.map fun value => g (f value) := by
  cases found with
  | error e => rfl
  | ok value => rfl

-- What a step can have been that gave a result, or a failure.

theorem map_eq_ok {f : α → β} {found : Except ε α} {result : β}
    (h : found.map f = .ok result) : ∃ value, found = .ok value ∧ f value = result := by
  cases found with
  | error e => cases h
  | ok value => cases h; exact ⟨value, rfl, rfl⟩

theorem mapError_eq_ok {f : ε → φ} {found : Except ε α} {value : α}
    (h : found.mapError f = .ok value) : found = .ok value := by
  cases found with
  | error e => cases h
  | ok value => cases h; rfl

theorem bind_eq_ok {f : α → Except ε β} {found : Except ε α} {result : β}
    (h : found >>= f = .ok result) : ∃ value, found = .ok value ∧ f value = .ok result := by
  cases found with
  | error e => cases h
  | ok value => exact ⟨value, rfl, h⟩

theorem map_eq_error {f : α → β} {found : Except ε α} {failure : ε}
    (h : found.map f = .error failure) : found = .error failure := by
  cases found with
  | error e => cases h; rfl
  | ok value => cases h

theorem bind_eq_error {f : α → Except ε β} {found : Except ε α} {failure : ε}
    (h : found >>= f = .error failure) :
    found = .error failure ∨ ∃ value, found = .ok value ∧ f value = .error failure := by
  cases found with
  | error e => cases h; exact .inl rfl
  | ok value => exact .inr ⟨value, rfl, h⟩

end Except
