import Mathlib.Data.List.Basic
import Mathlib.Data.List.Forall2

/-!
# Steps that may fail, one after the other

A sequence of steps succeeds exactly when each of its steps does, and the first
refusal of a walk over a list is a refusal of one of its elements.
-/

namespace NetImport

variable {ε α β : Type}

@[simp] theorem bind_eq_ok_iff {x : Except ε α} {f : α → Except ε β} {b : β} :
    (x >>= f) = .ok b ↔ ∃ a, x = .ok a ∧ f a = .ok b := by
  cases x <;> simp [bind, Except.bind]

@[simp] theorem pure_eq_ok_iff {a b : α} :
    (pure a : Except ε α) = .ok b ↔ a = b := by
  simp [pure, Except.pure]

@[simp] theorem ok_bind (a : α) (f : α → Except ε β) :
    ((.ok a : Except ε α) >>= f) = f a :=
  rfl

@[simp] theorem error_bind (e : ε) (f : α → Except ε β) :
    ((.error e : Except ε α) >>= f) = .error e :=
  rfl

/-- Steps that go on in the same way from each value that there is. -/
theorem bind_congr_ok {x : Except ε α} {f g : α → Except ε β}
    (hagree : ∀ a, x = .ok a → f a = g a) : (x >>= f) = (x >>= g) := by
  cases x with
  | error e => rfl
  | ok a => exact hagree a rfl

@[simp] theorem map_eq_ok_iff {x : Except ε α} {f : α → β} {b : β} :
    f <$> x = .ok b ↔ ∃ a, x = .ok a ∧ f a = b := by
  cases x <;> simp [Functor.map, Except.map]

@[simp] theorem mapError_eq_ok_iff {δ : Type} {x : Except ε α} {f : ε → δ} {a : α} :
    x.mapError f = .ok a ↔ x = .ok a := by
  cases x <;> simp [Except.mapError]

@[simp] theorem mapError_eq_error_iff {δ : Type} {x : Except ε α} {f : ε → δ} {d : δ} :
    x.mapError f = .error d ↔ ∃ e, x = .error e ∧ f e = d := by
  cases x <;> simp [Except.mapError]

theorem forM_cons_eq (f : α → Except ε Unit) (x : α) (xs : List α) :
    (x :: xs).forM f = (f x >>= fun _ => xs.forM f) :=
  rfl

theorem forM_eq_ok_iff {f : α → Except ε Unit} {xs : List α} {u : Unit} :
    xs.forM f = .ok u ↔ ∀ x ∈ xs, f x = .ok () := by
  induction xs with
  | nil => simp [List.forM, pure, Except.pure]
  | cons x xs ih =>
      rw [forM_cons_eq, List.forall_mem_cons, ← ih]
      cases f x <;> simp

/-- The first refusal ends the walk. -/
theorem forM_eq_error_iff {f : α → Except ε Unit} {xs : List α} {e : ε} :
    xs.forM f = .error e ↔
      ∃ before x after, xs = before ++ x :: after ∧ (∀ y ∈ before, f y = .ok ()) ∧
        f x = .error e := by
  induction xs with
  | nil => simp [List.forM, pure, Except.pure]
  | cons x xs ih =>
      rw [forM_cons_eq]
      cases hx : f x with
      | error first =>
          rw [error_bind]
          constructor
          · intro herror
            exact ⟨[], x, xs, rfl, by simp, hx.trans herror⟩
          · rintro ⟨before, y, after, hsplit, hbefore, hy⟩
            cases before with
            | nil =>
                obtain ⟨rfl, -⟩ := List.cons.inj hsplit
                exact hx.symm.trans hy
            | cons z before =>
                obtain ⟨rfl, -⟩ := List.cons.inj hsplit
                cases hx.symm.trans (hbefore x (List.mem_cons_self ..))
      | ok value =>
          rw [ok_bind, ih]
          constructor
          · rintro ⟨before, y, after, rfl, hbefore, hy⟩
            exact ⟨x :: before, y, after, rfl, List.forall_mem_cons.mpr ⟨hx, hbefore⟩, hy⟩
          · rintro ⟨before, y, after, hsplit, hbefore, hy⟩
            cases before with
            | nil =>
                obtain ⟨rfl, -⟩ := List.cons.inj hsplit
                cases hx.symm.trans hy
            | cons z before =>
                obtain ⟨rfl, rfl⟩ := List.cons.inj hsplit
                exact ⟨before, y, after, rfl, (List.forall_mem_cons.mp hbefore).2, hy⟩

theorem exists_mem_of_forM_eq_error {f : α → Except ε Unit} {xs : List α} {e : ε}
    (herror : xs.forM f = .error e) :
    ∃ x ∈ xs, f x = .error e := by
  obtain ⟨before, x, after, rfl, -, hx⟩ := forM_eq_error_iff.mp herror
  exact ⟨x, by simp, hx⟩

theorem mapM_eq_ok_iff {f : α → Except ε β} {xs : List α} {ys : List β} :
    xs.mapM f = .ok ys ↔ List.Forall₂ (fun x y => f x = .ok y) xs ys := by
  induction xs generalizing ys with
  | nil =>
      rw [List.mapM_nil, pure_eq_ok_iff, List.forall₂_nil_left_iff]
      exact eq_comm
  | cons x xs ih =>
      simp only [List.mapM_cons, bind_eq_ok_iff, pure_eq_ok_iff, ih]
      constructor
      · rintro ⟨y, hy, rest, hrest, rfl⟩
        exact .cons hy hrest
      · intro hall
        cases hall with
        | cons hy hrest => exact ⟨_, hy, _, hrest, rfl⟩

theorem length_of_mapM_eq_ok {f : α → Except ε β} {xs : List α} {ys : List β}
    (hmap : xs.mapM f = .ok ys) :
    ys.length = xs.length :=
  (mapM_eq_ok_iff.mp hmap).length_eq.symm

theorem exists_forall₂_iff {R : α → β → Prop} {xs : List α} :
    (∃ ys, List.Forall₂ R xs ys) ↔ ∀ x ∈ xs, ∃ y, R x y := by
  induction xs with
  | nil => simp
  | cons x xs ih =>
      rw [List.forall_mem_cons, ← ih]
      constructor
      · rintro ⟨ys, hall⟩
        cases hall with
        | cons hy hrest => exact ⟨⟨_, hy⟩, _, hrest⟩
      · rintro ⟨⟨y, hy⟩, ys, hrest⟩
        exact ⟨y :: ys, .cons hy hrest⟩

/-- Two lists with the same view at each position. -/
theorem forall₂_view_iff {γ : Type} {f : α → γ} {g : β → γ} {xs : List α} {ys : List β} :
    List.Forall₂ (fun x y => f x = g y) xs ys ↔ xs.map f = ys.map g := by
  induction xs generalizing ys with
  | nil => cases ys <;> simp
  | cons x xs ih => cases ys <;> simp [ih]

theorem exists_mapM_eq_ok_iff {f : α → Except ε β} {xs : List α} :
    (∃ ys, xs.mapM f = .ok ys) ↔ ∀ x ∈ xs, ∃ y, f x = .ok y := by
  simp only [mapM_eq_ok_iff]
  exact exists_forall₂_iff

theorem exists_mem_of_mapM_eq_ok {f : α → Except ε β} {xs : List α} {ys : List β}
    (hmap : xs.mapM f = .ok ys) {x : α} (hx : x ∈ xs) :
    ∃ y ∈ ys, f x = .ok y := by
  induction mapM_eq_ok_iff.mp hmap with
  | nil => cases hx
  | @cons a b as bs hab hrest ih =>
      rcases List.mem_cons.mp hx with rfl | hx
      · exact ⟨b, List.mem_cons_self .., hab⟩
      · obtain ⟨y, hy, hxy⟩ := ih (mapM_eq_ok_iff.mpr hrest) hx
        exact ⟨y, List.mem_cons_of_mem b hy, hxy⟩

theorem exists_mem_of_mapM_eq_error {f : α → Except ε β} {xs : List α} {e : ε}
    (herror : xs.mapM f = .error e) : ∃ x ∈ xs, f x = .error e := by
  induction xs with
  | nil => cases herror
  | cons x xs ih =>
      rw [List.mapM_cons] at herror
      cases hx : f x with
      | error e' =>
          rw [hx] at herror
          cases herror
          exact ⟨x, List.mem_cons_self .., hx⟩
      | ok y =>
          cases hrest : xs.mapM f with
          | error e' =>
              rw [hx, hrest] at herror
              cases herror
              obtain ⟨z, hz, hfails⟩ := ih hrest
              exact ⟨z, List.mem_cons_of_mem x hz, hfails⟩
          | ok ys =>
              rw [hx, hrest] at herror
              cases herror

theorem getElem?_of_forall₂ {R : α → β → Prop} {xs : List α} {ys : List β}
    (hall : List.Forall₂ R xs ys) {index : Nat} {y : β} (hy : ys[index]? = some y) :
    ∃ x, xs[index]? = some x ∧ R x y := by
  induction hall generalizing index with
  | nil => cases hy
  | @cons a b as bs hab hrest ih =>
      cases index with
      | zero =>
          obtain rfl := Option.some.inj hy
          exact ⟨a, rfl, hab⟩
      | succ index => exact ih hy

theorem getElem?_of_mapM_eq_ok {f : α → Except ε β} {xs : List α} {ys : List β}
    (hmap : xs.mapM f = .ok ys) {index : Nat} {y : β} (hy : ys[index]? = some y) :
    ∃ x, xs[index]? = some x ∧ f x = .ok y :=
  getElem?_of_forall₂ (mapM_eq_ok_iff.mp hmap) hy

/-- A walk none of whose steps has an effect. -/
theorem mapM_eq_pure_map {m : Type → Type} [Monad m] [LawfulMonad m] {f : α → m β} {g : α → β}
    {xs : List α} (hstep : ∀ x ∈ xs, f x = pure (g x)) : xs.mapM f = pure (xs.map g) := by
  induction xs with
  | nil => rfl
  | cons x xs ih =>
      rw [List.forall_mem_cons] at hstep
      rw [List.mapM_cons, hstep.1, ih hstep.2, pure_bind, pure_bind, List.map_cons]

theorem mapM_eq_ok_map {f : α → Except ε β} {g : α → β} {xs : List α}
    (hstep : ∀ x ∈ xs, f x = .ok (g x)) : xs.mapM f = .ok (xs.map g) :=
  mapM_eq_pure_map hstep

theorem mapM_congr {f g : α → Except ε β} {xs : List α} (hagree : ∀ x ∈ xs, f x = g x) :
    xs.mapM f = xs.mapM g := by
  induction xs with
  | nil => rfl
  | cons x xs ih =>
      rw [List.forall_mem_cons] at hagree
      rw [List.mapM_cons, List.mapM_cons, hagree.1, ih hagree.2]

theorem forM_congr {f g : α → Except ε Unit} {xs : List α} (hagree : ∀ x ∈ xs, f x = g x) :
    xs.forM f = xs.forM g := by
  induction xs with
  | nil => rfl
  | cons x xs ih =>
      rw [List.forall_mem_cons] at hagree
      rw [forM_cons_eq, forM_cons_eq, hagree.1, ih hagree.2]

theorem mapM_eq_ok_replicate {f : α → Except ε β} {xs : List α} {y : β}
    (hxs : ∀ x ∈ xs, f x = .ok y) :
    xs.mapM f = .ok (List.replicate xs.length y) := by
  rw [mapM_eq_ok_map hxs, List.map_const']

theorem mapM_flatMap {γ : Type} {f : β → Except ε γ} {g : α → List β} (xs : List α) :
    (xs.flatMap g).mapM f = List.flatten <$> xs.mapM fun x => (g x).mapM f := by
  induction xs with
  | nil => rfl
  | cons x xs ih =>
      rw [List.flatMap_cons, List.mapM_append, ih, List.mapM_cons]
      cases (g x).mapM f <;> cases xs.mapM fun x => (g x).mapM f <;> rfl

/-- A walk on which every failure is the same one, and some step fails. -/
theorem mapM_eq_error {f : α → Except ε β} {e : ε} {xs : List α}
    (hall : ∀ x ∈ xs, (∃ y, f x = .ok y) ∨ f x = .error e) (hsome : ∃ x ∈ xs, f x = .error e) :
    xs.mapM f = .error e := by
  cases hmap : xs.mapM f with
  | ok ys =>
      obtain ⟨x, hx, hfails⟩ := hsome
      obtain ⟨y, -, hy⟩ := exists_mem_of_mapM_eq_ok hmap hx
      cases hy.symm.trans hfails
  | error e' =>
      obtain ⟨x, hx, hfails⟩ := exists_mem_of_mapM_eq_error hmap
      rcases hall x hx with ⟨y, hy⟩ | hsame
      · cases hy.symm.trans hfails
      · rw [Except.error.inj (hfails.symm.trans hsame)]

/-! ## Steps without a message -/

theorem mapM_eq_some_map {f : α → Option β} {view : α → β} {xs : List α}
    (hxs : ∀ x ∈ xs, f x = some (view x)) :
    xs.mapM f = some (xs.map view) :=
  mapM_eq_pure_map hxs

theorem mapM_eq_none {f : α → Option β} {xs : List α} {x : α} (hx : x ∈ xs) (hfails : f x = none) :
    xs.mapM f = none := by
  induction xs with
  | nil => cases hx
  | cons first xs ih =>
      rw [List.mapM_cons]
      rcases List.mem_cons.mp hx with rfl | hx
      · rw [hfails]
        rfl
      · rw [ih hx]
        cases f first <;> rfl

/-! ## Folds -/

/-- A fold none of whose steps has an effect. -/
theorem foldlM_eq_pure_foldl {m : Type → Type} [Monad m] [LawfulMonad m] {σ : Type}
    {f : σ → α → m σ} {g : σ → α → σ} {xs : List α}
    (hstep : ∀ x ∈ xs, ∀ state, f state x = pure (g state x)) (state : σ) :
    xs.foldlM f state = pure (xs.foldl g state) := by
  induction xs generalizing state with
  | nil => rfl
  | cons x xs ih =>
      rw [List.forall_mem_cons] at hstep
      rw [List.foldlM_cons, hstep.1, pure_bind, ih hstep.2, List.foldl_cons]

theorem foldlM_eq_some_foldl {σ : Type} {f : σ → α → Option σ} {g : σ → α → σ} {xs : List α}
    (hstep : ∀ x ∈ xs, ∀ state, f state x = some (g state x)) (state : σ) :
    xs.foldlM f state = some (xs.foldl g state) :=
  foldlM_eq_pure_foldl hstep state

theorem foldlM_eq_ok_foldl {σ : Type} {f : σ → α → Except ε σ} {g : σ → α → σ} {xs : List α}
    (hstep : ∀ x ∈ xs, ∀ state, f state x = .ok (g state x)) (state : σ) :
    xs.foldlM f state = .ok (xs.foldl g state) :=
  foldlM_eq_pure_foldl hstep state

/-- The first refusal ends the fold. -/
theorem foldlM_eq_error_iff {σ : Type} {f : σ → α → Except ε σ} {xs : List α} {start : σ} {e : ε} :
    xs.foldlM f start = .error e ↔
      ∃ before x after state, xs = before ++ x :: after ∧ before.foldlM f start = .ok state ∧
        f state x = .error e := by
  induction xs generalizing start with
  | nil => simp [pure, Except.pure]
  | cons x xs ih =>
      rw [List.foldlM_cons]
      constructor
      · intro herror
        cases hx : f start x with
        | error first =>
            rw [hx] at herror
            exact ⟨[], x, xs, start, rfl, rfl, hx.trans herror⟩
        | ok next =>
            rw [hx, ok_bind] at herror
            obtain ⟨before, y, after, state, rfl, hbefore, hy⟩ := ih.mp herror
            refine ⟨x :: before, y, after, state, rfl, ?_, hy⟩
            rw [List.foldlM_cons, hx, ok_bind, hbefore]
      · rintro ⟨before, y, after, state, hsplit, hbefore, hy⟩
        cases before with
        | nil =>
            obtain ⟨rfl, rfl⟩ := List.cons.inj hsplit
            obtain rfl := Except.ok.inj hbefore
            rw [hy, error_bind]
        | cons z before =>
            obtain ⟨rfl, rfl⟩ := List.cons.inj hsplit
            rw [List.foldlM_cons] at hbefore
            obtain ⟨next, hnext, hrest⟩ := bind_eq_ok_iff.mp hbefore
            rw [hnext, ok_bind]
            exact ih.mpr ⟨before, y, after, state, rfl, hrest, hy⟩

end NetImport
