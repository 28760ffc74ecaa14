/-!
# Results that may be errors

When a chain of computations succeeds and when it fails, in terms of its first part and what follows it.
-/

namespace Calculator

variable {ε ε' α β : Type} {first : Except ε α}

theorem pure_eq_ok_iff {value result : α} : (pure value : Except ε α) = .ok result ↔ value = result := by
  simp [pure, Except.pure]

theorem bind_eq_ok_iff {next : α → Except ε β} {result : β} :
    first >>= next = .ok result ↔ ∃ value, first = .ok value ∧ next value = .ok result := by
  cases first <;> simp [bind, Except.bind]

theorem bind_eq_error_iff {next : α → Except ε β} {error : ε} :
    first >>= next = .error error ↔
      first = .error error ∨ ∃ value, first = .ok value ∧ next value = .error error := by
  cases first <;> simp [bind, Except.bind]

theorem map_eq_ok_iff {f : α → β} {result : β} :
    f <$> first = .ok result ↔ ∃ value, first = .ok value ∧ f value = result := by
  cases first <;> simp [Functor.map, Except.map]

theorem map_eq_error_iff {f : α → β} {error : ε} : f <$> first = .error error ↔ first = .error error := by
  cases first <;> simp [Functor.map, Except.map]

theorem mapError_eq_ok_iff {f : ε → ε'} {result : α} : first.mapError f = .ok result ↔ first = .ok result := by
  cases first with
  | error error =>
    show Except.error (f error) = .ok result ↔ _
    simp
  | ok value =>
    show Except.ok value = .ok result ↔ _
    simp

theorem mapError_eq_error_iff {f : ε → ε'} {error : ε'} :
    first.mapError f = .error error ↔ ∃ cause, first = .error cause ∧ f cause = error := by
  cases first with
  | error cause =>
    show Except.error (f cause) = .error error ↔ _
    simp
  | ok value =>
    show Except.ok value = .error error ↔ _
    simp

theorem mapError_bind (f : ε → ε') (next : α → Except ε β) :
    (first >>= next).mapError f = first.mapError f >>= fun value => (next value).mapError f := by
  cases first <;> rfl

theorem mapError_map (f : ε → ε') (g : α → β) : (g <$> first).mapError f = g <$> first.mapError f := by
  cases first <;> rfl

theorem toOption_eq_some_iff {result : α} : first.toOption = some result ↔ first = .ok result := by
  cases first <;> simp [Except.toOption]

theorem toOption_eq_none_iff : first.toOption = none ↔ ∃ error, first = .error error := by
  cases first <;> simp [Except.toOption]

/-- Of two results with the same errors, both are values or none is. -/
theorem exists_ok_of_error_iff {second : Except ε β} {value : β}
    (herror : ∀ error, first = .error error ↔ second = .error error) (hvalue : second = .ok value) :
    ∃ other, first = .ok other := by
  cases hfirst : first with
  | ok other => exact ⟨other, rfl⟩
  | error error =>
    rw [(herror error).1 hfirst] at hvalue
    nomatch hvalue

theorem foldlM_congr {f g : α → β → Except ε α} {list : List β}
    (h : ∀ member ∈ list, ∀ state, f state member = g state member) (state : α) :
    list.foldlM f state = list.foldlM g state := by
  induction list generalizing state with
  | nil => rfl
  | cons member rest ih =>
    obtain ⟨hmember, hrest⟩ := List.forall_mem_cons.1 h
    rw [List.foldlM_cons, List.foldlM_cons, hmember]
    exact congrArg _ (funext fun state => ih hrest state)

end Calculator
