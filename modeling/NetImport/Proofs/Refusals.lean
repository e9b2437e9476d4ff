import NetImport.Proofs.Sequencing

/-!
# Causes of refusals

A sequence of steps refuses for the causes of its steps.  Each step after the first is
reached only with what the steps before it have come to.
-/

namespace NetImport

variable {ε α β : Type} {cause : ε → Prop}

/-- A step that refuses, if it does, for one of some causes. -/
structure RefusesOnly (cause : ε → Prop) (x : Except ε α) : Prop where
  holds : ∀ {error : ε}, x = .error error → cause error

theorem RefusesOnly.mono {cause' : ε → Prop} {x : Except ε α} (hx : RefusesOnly cause x)
    (hweaker : ∀ {error : ε}, cause error → cause' error) : RefusesOnly cause' x :=
  ⟨fun hrefused => hweaker (hx.holds hrefused)⟩

theorem refusesOnly_ok (a : α) : RefusesOnly cause (.ok a : Except ε α) := by
  refine ⟨fun hrefused => ?_⟩
  cases hrefused

theorem refusesOnly_of_eq_ok {x : Except ε α} {a : α} (hx : x = .ok a) : RefusesOnly cause x :=
  hx ▸ refusesOnly_ok a

theorem refusesOnly_error {error : ε} (herror : cause error) :
    RefusesOnly cause (.error error : Except ε α) := by
  refine ⟨fun hrefused => ?_⟩
  rwa [← Except.error.inj hrefused]

theorem refusesOnly_bind {x : Except ε α} {f : α → Except ε β} (hx : RefusesOnly cause x)
    (hf : ∀ a, x = .ok a → RefusesOnly cause (f a)) :
    RefusesOnly cause (x >>= f) := by
  cases x with
  | error error => exact refusesOnly_error (hx.holds rfl)
  | ok a => exact hf a rfl

theorem refusesOnly_map {x : Except ε α} (hx : RefusesOnly cause x) (f : α → β) :
    RefusesOnly cause (x >>= fun a => pure (f a)) :=
  refusesOnly_bind hx fun a _ => refusesOnly_ok (f a)

theorem refusesOnly_ite {c : Prop} [Decidable c] {yes no : Except ε α}
    (hyes : c → RefusesOnly cause yes) (hno : ¬c → RefusesOnly cause no) :
    RefusesOnly cause (if c then yes else no) := by
  split
  · next hc => exact hyes hc
  · next hc => exact hno hc

theorem refusesOnly_mapM {f : α → Except ε β} {xs : List α}
    (hf : ∀ x ∈ xs, RefusesOnly cause (f x)) :
    RefusesOnly cause (xs.mapM f) := by
  refine ⟨fun hrefused => ?_⟩
  obtain ⟨x, hx, herror⟩ := exists_mem_of_mapM_eq_error hrefused
  exact (hf x hx).holds herror

theorem refusesOnly_forM {f : α → Except ε Unit} {xs : List α}
    (hf : ∀ x ∈ xs, RefusesOnly cause (f x)) :
    RefusesOnly cause (xs.forM f) := by
  refine ⟨fun hrefused => ?_⟩
  obtain ⟨x, hx, herror⟩ := exists_mem_of_forM_eq_error hrefused
  exact (hf x hx).holds herror

end NetImport
