/-!
# Results that may be errors

Many functions end in an `Except`: a result, or the first error they have met. What is known of a
result that is no error is taken apart here, along the ways in which such functions are put
together: one after the other, over a list, and with errors that are renamed.
-/

namespace Pagesmith

variable {ε ε' α β : Type}

/-- Of two steps that succeed, the first has succeeded, and the second with what it gave. -/
theorem bind_eq_ok_iff {x : Except ε α} {f : α → Except ε β} {b : β} :
    x >>= f = .ok b ↔ ∃ a, x = .ok a ∧ f a = .ok b := by
  cases x with
  | error e => exact ⟨nofun, fun ⟨_, h, _⟩ ↦ nomatch h⟩
  | ok a => exact ⟨fun h ↦ ⟨a, rfl, h⟩, fun | ⟨_, rfl, h⟩ => h⟩

/-- Of two steps that fail, it is the first that has failed, or else the second. -/
theorem bind_eq_error_iff {x : Except ε α} {f : α → Except ε β} {e : ε} :
    x >>= f = .error e ↔ x = .error e ∨ ∃ a, x = .ok a ∧ f a = .error e := by
  cases x with
  | error d => exact ⟨fun h ↦ .inl (by cases h; rfl), fun | .inl rfl => rfl⟩
  | ok a => exact ⟨fun h ↦ .inr ⟨a, rfl, h⟩, fun | .inr ⟨_, rfl, h⟩ => h⟩

theorem mapError_eq_ok_iff {x : Except ε α} {f : ε → ε'} {a : α} :
    x.mapError f = .ok a ↔ x = .ok a := by
  cases x with
  | error e => exact ⟨nofun, nofun⟩
  | ok b => exact ⟨fun | rfl => rfl, fun | rfl => rfl⟩

theorem mapError_eq_error_iff {x : Except ε α} {f : ε → ε'} {e : ε'} :
    x.mapError f = .error e ↔ ∃ d, x = .error d ∧ e = f d := by
  cases x with
  | error d =>
    constructor
    · rintro ⟨⟩
      exact ⟨d, rfl, rfl⟩
    · rintro ⟨_, ⟨⟩, rfl⟩
      rfl
  | ok b => exact ⟨nofun, fun ⟨d, hd, _⟩ ↦ nomatch hd⟩

/-- What every step of a fold keeps holds at its end. -/
theorem of_foldlM_eq_ok {p : β → Prop} {step : β → α → Except ε β}
    (hstep : ∀ b a b', p b → step b a = .ok b' → p b') {l : List α} {b b' : β} (hb : p b)
    (h : l.foldlM step b = .ok b') : p b' := by
  induction l generalizing b with
  | nil =>
    cases h
    exact hb
  | cons a l ih =>
    rw [List.foldlM_cons] at h
    obtain ⟨c, hfirst, hrest⟩ := bind_eq_ok_iff.mp h
    exact ih (hstep b a c hb hfirst) hrest

theorem mapM_eq_ok_map {read : α → Except ε β} {f : α → β} {l : List α}
    (h : ∀ a ∈ l, read a = .ok (f a)) : l.mapM read = .ok (l.map f) := by
  induction l with
  | nil => rfl
  | cons a l ih =>
    obtain ⟨ha, hl⟩ := List.forall_mem_cons.mp h
    rw [List.mapM_cons, ha, ih hl]
    rfl

end Pagesmith
