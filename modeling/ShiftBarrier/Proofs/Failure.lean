import Mathlib.Data.List.Forall2

/-!
# Computations that may fail

How a computation in `Except` that came out well is taken apart.

* `bind_eq_ok_iff` and `mapM_eq_ok_iff` say what it takes for a sequence of steps to succeed.
* `foldlM_invariant` is the induction over a fold: what every step keeps, the fold keeps.
* `bind_eq_error_iff` and `mapM_eq_error_iff` say where a sequence of steps fails.
* `Alike` says of two computations that they succeed together, and how their results are related.
-/

set_option autoImplicit false

namespace ShiftBarrier

variable {ε α β : Type}

theorem bind_eq_ok_iff {x : Except ε α} {f : α → Except ε β} {b : β} :
    (x >>= f) = .ok b ↔ ∃ a, x = .ok a ∧ f a = .ok b := by
  cases x with
  | error e => simp [bind, Except.bind]
  | ok a => simp [bind, Except.bind]

theorem mapError_eq_ok_iff {δ : Type} {g : ε → δ} {x : Except ε α} {a : α} :
    x.mapError g = .ok a ↔ x = .ok a := by
  cases x with
  | error e => simp [Except.mapError]
  | ok b => simp [Except.mapError]

theorem map_eq_ok_iff {x : Except ε α} {f : α → β} {b : β} :
    x.map f = .ok b ↔ ∃ a, x = .ok a ∧ f a = b := by
  cases x <;> simp [Except.map]

/-- A result that does not depend on the value. -/
theorem eq_of_map_const {x : Except ε α} {b b' : β} (h : x.map (fun _ => b) = .ok b') : b' = b := by
  cases x with
  | error e => cases h
  | ok a => cases h; rfl

/-- A result that is put in place of another, and dropped again. -/
theorem map_map_unit (x : Except ε Unit) (a : α) :
    (x.map fun _ => a).map (fun _ => ()) = x := by
  cases x <;> rfl

theorem toOption_eq_some_iff {x : Except ε α} {a : α} : x.toOption = some a ↔ x = .ok a := by
  cases x <;> simp [Except.toOption]

theorem mapM_eq_ok_iff {f : α → Except ε β} {xs : List α} {ys : List β} :
    xs.mapM f = .ok ys ↔ List.Forall₂ (fun x y => f x = .ok y) xs ys := by
  induction xs generalizing ys with
  | nil => cases ys <;> simp [pure, Except.pure]
  | cons x xs ih =>
    rw [List.mapM_cons]
    simp only [bind_eq_ok_iff]
    cases ys with
    | nil => simp [pure, Except.pure]
    | cons y ys =>
      simp only [pure, Except.pure, Except.ok.injEq, List.cons.injEq, List.forall₂_cons, ← ih]
      constructor
      · rintro ⟨a, ha, b, hb, rfl, rfl⟩
        exact ⟨ha, hb⟩
      · rintro ⟨ha, hb⟩
        exact ⟨y, ha, ys, hb, rfl, rfl⟩

theorem exists_mapM_eq_ok {f : α → Except ε β} {xs : List α} (h : ∀ x ∈ xs, ∃ y, f x = .ok y) :
    ∃ ys, xs.mapM f = .ok ys := by
  induction xs with
  | nil => exact ⟨[], rfl⟩
  | cons x xs ih =>
    obtain ⟨hx, hxs⟩ := List.forall_mem_cons.1 h
    obtain ⟨y, hy⟩ := hx
    obtain ⟨ys, hys⟩ := ih hxs
    exact ⟨y :: ys, mapM_eq_ok_iff.2 (.cons hy (mapM_eq_ok_iff.1 hys))⟩

theorem mapM_congr {f g : α → Except ε β} {xs : List α} (h : ∀ x ∈ xs, f x = g x) :
    xs.mapM f = xs.mapM g := by
  induction xs with
  | nil => rfl
  | cons x xs ih =>
    rw [List.mapM_cons, List.mapM_cons, h x List.mem_cons_self,
      ih fun y hy => h y (List.mem_cons_of_mem _ hy)]

theorem forM_eq_ok_iff {f : α → Except ε Unit} {xs : List α} :
    xs.forM f = .ok () ↔ ∀ x ∈ xs, f x = .ok () := by
  induction xs with
  | nil => simp [pure, Except.pure]
  | cons x xs ih =>
    rw [List.forM, bind_eq_ok_iff, List.forall_mem_cons, ← ih]
    exact ⟨fun ⟨_, hx, hxs⟩ => ⟨hx, hxs⟩, fun ⟨hx, hxs⟩ => ⟨(), hx, hxs⟩⟩

theorem exists_right_of_mem {R : α → β → Prop} {xs : List α} {ys : List β}
    (h : List.Forall₂ R xs ys) {x : α} (hx : x ∈ xs) : ∃ y ∈ ys, R x y := by
  induction h with
  | nil => exact absurd hx List.not_mem_nil
  | @cons x' y xs ys hxy _ ih =>
    rcases List.mem_cons.1 hx with rfl | hx
    · exact ⟨y, List.mem_cons_self, hxy⟩
    · obtain ⟨y', hy', hxy'⟩ := ih hx
      exact ⟨y', List.mem_cons_of_mem _ hy', hxy'⟩

theorem exists_left_of_mem {R : α → β → Prop} {xs : List α} {ys : List β}
    (h : List.Forall₂ R xs ys) {y : β} (hy : y ∈ ys) : ∃ x ∈ xs, R x y :=
  exists_right_of_mem h.flip hy

/-- Every result of a `mapM` comes from an element. -/
theorem exists_of_mem_result {f : α → Except ε β} {xs : List α} {ys : List β}
    (h : xs.mapM f = .ok ys) {y : β} (hy : y ∈ ys) : ∃ x ∈ xs, f x = .ok y :=
  exists_left_of_mem (mapM_eq_ok_iff.1 h) hy

/-- Every element has its result. -/
theorem exists_result_of_mem {f : α → Except ε β} {xs : List α} {ys : List β}
    (h : xs.mapM f = .ok ys) {x : α} (hx : x ∈ xs) : ∃ y ∈ ys, f x = .ok y :=
  exists_right_of_mem (mapM_eq_ok_iff.1 h) hx

/-- What is known of every result is known of all of them in order. -/
theorem map_eq_of_mapM {γ : Type} {f : α → Except ε β} {g : β → γ} {k : α → γ} {xs : List α}
    {ys : List β} (h : xs.mapM f = .ok ys) (hfg : ∀ x y, f x = .ok y → g y = k x) :
    ys.map g = xs.map k := by
  induction mapM_eq_ok_iff.1 h with
  | nil => rfl
  | @cons x y xs ys hxy hrest ih =>
    rw [List.map_cons, List.map_cons, hfg x y hxy, ih (mapM_eq_ok_iff.2 hrest)]

theorem foldlM_invariant {f : β → α → Except ε β} (P : β → Prop) {xs : List α}
    (hstep : ∀ b a b', a ∈ xs → P b → f b a = .ok b' → P b') {b b' : β} (hb : P b)
    (h : xs.foldlM f b = .ok b') : P b' := by
  induction xs generalizing b with
  | nil =>
    rw [List.foldlM_nil] at h
    cases h
    exact hb
  | cons a xs ih =>
    rw [List.foldlM_cons, bind_eq_ok_iff] at h
    obtain ⟨c, hc, hrest⟩ := h
    exact ih (fun b a b' ha => hstep b a b' (List.mem_cons_of_mem _ ha))
      (hstep b a c List.mem_cons_self hb hc) hrest

/-! ## Where a computation failed

Of computations in a row the first one without a result decides about the error. -/

theorem bind_eq_error_iff {x : Except ε α} {f : α → Except ε β} {e : ε} :
    (x >>= f) = .error e ↔ x = .error e ∨ ∃ a, x = .ok a ∧ f a = .error e := by
  cases x with
  | error e' => simp [bind, Except.bind]
  | ok a => simp [bind, Except.bind]

theorem map_eq_error_iff {x : Except ε α} {f : α → β} {e : ε} :
    x.map f = .error e ↔ x = .error e := by
  cases x <;> simp [Except.map]

theorem mapError_eq_error_iff {δ : Type} {g : ε → δ} {x : Except ε α} {e : δ} :
    x.mapError g = .error e ↔ ∃ e', x = .error e' ∧ g e' = e := by
  cases x <;> simp [Except.mapError]

/-- It is the first element without a result that counts. -/
theorem mapM_eq_error_iff {f : α → Except ε β} {xs : List α} {e : ε} :
    xs.mapM f = .error e ↔ ∃ before x after, xs = before ++ x :: after ∧
      (∀ y ∈ before, ∃ b, f y = .ok b) ∧ f x = .error e := by
  induction xs with
  | nil => simp [pure, Except.pure]
  | cons x xs ih =>
    rw [List.mapM_cons, bind_eq_error_iff]
    constructor
    · rintro (hx | ⟨b, hb, hrest⟩)
      · exact ⟨[], x, xs, rfl, List.forall_mem_nil _, hx⟩
      · obtain hxs | ⟨bs, -, ⟨⟩⟩ := bind_eq_error_iff.1 hrest
        obtain ⟨before, y, after, rfl, hbefore, hy⟩ := ih.1 hxs
        exact ⟨x :: before, y, after, rfl, List.forall_mem_cons.2 ⟨⟨b, hb⟩, hbefore⟩, hy⟩
    · rintro ⟨before, y, after, hsplit, hbefore, hy⟩
      cases before with
      | nil =>
        cases hsplit
        exact .inl hy
      | cons z before =>
        cases hsplit
        obtain ⟨⟨b, hb⟩, hbefore⟩ := List.forall_mem_cons.1 hbefore
        refine .inr ⟨b, hb, bind_eq_error_iff.2 (.inl ?_)⟩
        exact ih.2 ⟨before, y, after, rfl, hbefore, hy⟩

/-! ## Computations that fail -/

/-- A computation that has no result. -/
def Fails (x : Except ε α) : Prop := ∀ a, x ≠ .ok a

theorem fails_throw (e : ε) : Fails (throw e : Except ε α) := nofun

/-- Steps before the failure do not matter. -/
theorem Fails.bind {x : Except ε α} {f : α → Except ε β} (h : ∀ a, Fails (f a)) :
    Fails (x >>= f) := by
  intro b hb
  obtain ⟨a, -, ha⟩ := bind_eq_ok_iff.1 hb
  exact h a b ha

/-! ## Two computations

Two readings of related texts succeed together or fail together.  Their errors may differ, as they
name different places. -/

/-- Two computations succeed together, with related results, or fail together. -/
def Alike {δ : Type} (R : α → β → Prop) : Except ε α → Except δ β → Prop
  | .ok a, .ok b => R a b
  | .error _, .error _ => True
  | _, _ => False

section Alike

variable {γ δ α' β' : Type} {R : α → β → Prop} {x : Except ε α} {y : Except δ β}

theorem Alike.bind {S : α' → β' → Prop} {f : α → Except ε α'} {g : β → Except δ β'}
    (h : Alike R x y) (hfg : ∀ a b, R a b → Alike S (f a) (g b)) :
    Alike S (x >>= f) (y >>= g) := by
  cases x with
  | error e => cases y with
    | error e' => trivial
    | ok b => cases h
  | ok a => cases y with
    | error e' => cases h
    | ok b => exact hfg a b h

theorem Alike.mapM {f : α → Except ε α'} {g : α → Except δ β'} {k : α' → β'} {xs : List α}
    (h : ∀ x ∈ xs, Alike (fun a b => b = k a) (f x) (g x)) :
    Alike (fun as bs => bs = as.map k) (xs.mapM f) (xs.mapM g) := by
  induction xs with
  | nil => rfl
  | cons x xs ih =>
    obtain ⟨hx, hxs⟩ := List.forall_mem_cons.1 h
    rw [List.mapM_cons, List.mapM_cons]
    refine hx.bind fun a b hb => (ih hxs).bind fun as bs hbs => ?_
    rw [hb, hbs]
    rfl

theorem Alike.foldlM {f : β → α → Except ε β} {g : β → α → Except δ β} {xs : List α}
    (h : ∀ b, ∀ x ∈ xs, Alike Eq (f b x) (g b x)) (b : β) :
    Alike Eq (xs.foldlM f b) (xs.foldlM g b) := by
  induction xs generalizing b with
  | nil => rfl
  | cons x xs ih =>
    rw [List.foldlM_cons, List.foldlM_cons]
    refine (h b x List.mem_cons_self).bind fun a b hab => hab ▸ ?_
    exact ih (fun b x hx => h b x (List.mem_cons_of_mem _ hx)) a

theorem alike_refl (x : Except ε α) : Alike Eq x x := by
  cases x with
  | error e => trivial
  | ok a => rfl

/-- The results may be assumed to be what came out. -/
theorem Alike.with_ok (h : Alike R x y) :
    Alike (fun a b => R a b ∧ x = .ok a ∧ y = .ok b) x y := by
  cases x with
  | error e => cases y with
    | error e' => trivial
    | ok b => cases h
  | ok a => cases y with
    | error e' => cases h
    | ok b => exact ⟨h, rfl, rfl⟩

theorem Fails.alike (hx : Fails x) (hy : Fails y) : Alike R x y := by
  cases x with
  | error e => cases y with
    | error e' => trivial
    | ok b => exact absurd rfl (hy b)
  | ok a => exact absurd rfl (hx a)

theorem Alike.exists_ok_iff (h : Alike R x y) : (∃ a, x = .ok a) ↔ ∃ b, y = .ok b := by
  cases x <;> cases y <;> simp_all [Alike]

theorem Alike.of_ok {a : α} {b : β} (h : Alike R x y) (hx : x = .ok a) (hy : y = .ok b) :
    R a b := by
  rw [hx, hy] at h
  exact h

theorem Alike.eq_ok_iff {x' : Except δ α} (h : Alike Eq x x') {a : α} :
    x = .ok a ↔ x' = .ok a := by
  cases x <;> cases x' <;> simp_all [Alike]

theorem alike_eq_of_iff {x' : Except δ α} (h : ∀ a, x = .ok a ↔ x' = .ok a) : Alike Eq x x' := by
  cases x with
  | error e => cases x' with
    | error e' => trivial
    | ok b => cases (h b).2 rfl
  | ok a =>
    rw [(h a).1 rfl]
    exact rfl

end Alike
end ShiftBarrier
