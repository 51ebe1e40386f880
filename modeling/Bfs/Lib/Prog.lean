import Mathlib

/-! Programs over a state that may end with an exception and keep the state they have reached then:
execution, and the rules by which a sequence is executed or taken apart. -/

def Prog (σ ε α : Type*) : Type _ := σ → Except ε α × σ

namespace Prog

universe u v
variable {σ : Type u} {ε : Type v}

instance : Monad (Prog.{u, v, 0} σ ε) where
  pure a := fun s => (.ok a, s)
  bind x f := fun s =>
    match x s with
    | (.ok a, s') => f a s'
    | (.error e, s') => (.error e, s')

variable {α β : Type} {s s' s'' : σ} {e : ε}

def raise (e : ε) : Prog σ ε α := fun s => (.error e, s)

def reads (f : σ → Except ε α) : Prog σ ε α := fun s => (f s, s)

def gets (f : σ → α) : Prog σ ε α := fun s => (.ok (f s), s)

def update (f : σ → σ) : Prog σ ε Unit := fun s => (.ok (), f s)

def require (p : Prop) [Decidable p] (e : ε) : Prog σ ε Unit := if p then pure () else raise e

@[simp] theorem pure_apply (a : α) (s : σ) : (pure a : Prog σ ε α) s = (.ok a, s) := rfl
@[simp] theorem raise_apply (e : ε) (s : σ) : (raise e : Prog σ ε α) s = (.error e, s) := rfl
@[simp] theorem reads_apply (f : σ → Except ε α) (s : σ) : reads f s = (f s, s) := rfl
@[simp] theorem gets_apply (f : σ → α) (s : σ) : (gets f : Prog σ ε α) s = (.ok (f s), s) := rfl
@[simp] theorem update_apply (f : σ → σ) (s : σ) : (update f : Prog σ ε Unit) s = (.ok (), f s) := rfl

theorem require_of {p : Prop} [Decidable p] (hp : p) (e : ε) (s : σ) :
    (require p e : Prog σ ε Unit) s = (.ok (), s) := by rw [require, if_pos hp, pure_apply]

theorem require_of_not {p : Prop} [Decidable p] (hp : ¬p) (e : ε) (s : σ) :
    (require p e : Prog σ ε Unit) s = (.error e, s) := by rw [require, if_neg hp, raise_apply]

section Sequence

variable {x : Prog σ ε α} {f : α → Prog σ ε β} {a : α} {b : β}

theorem bind_of_ok (hx : x s = (.ok a, s')) : (x >>= f) s = f a s' := by
  show (match x s with | (.ok a, s') => f a s' | (.error e, s') => (.error e, s')) = _
  rw [hx]

theorem bind_of_error (hx : x s = (.error e, s')) : (x >>= f) s = (.error e, s') := by
  show (match x s with | (.ok a, s') => f a s' | (.error e, s') => (.error e, s')) = _
  rw [hx]

theorem bind_eq_ok :
    (x >>= f) s = (.ok b, s'') ↔ ∃ a s', x s = (.ok a, s') ∧ f a s' = (.ok b, s'') := by
  rcases hx : x s with ⟨r | r, t⟩
  · rw [bind_of_error hx]
    simp
  · rw [bind_of_ok hx]
    simp

theorem bind_eq_error :
    (x >>= f) s = (.error e, s'') ↔
      x s = (.error e, s'') ∨ ∃ a s', x s = (.ok a, s') ∧ f a s' = (.error e, s'') := by
  rcases hx : x s with ⟨r | r, t⟩
  · rw [bind_of_error hx]
    simp
  · rw [bind_of_ok hx]
    simp

end Sequence

@[simp] theorem gets_bind_apply (g : σ → α) (f : α → Prog σ ε β) (s : σ) :
    (gets g >>= f) s = f (g s) s := rfl

@[simp] theorem update_bind_apply (g : σ → σ) (f : Unit → Prog σ ε β) (s : σ) :
    (update g >>= f) s = f () (g s) := rfl

theorem require_eq_ok {p : Prop} [Decidable p] {u : Unit} :
    (require p e : Prog σ ε Unit) s = (.ok u, s') ↔ p ∧ s' = s := by
  by_cases hp : p
  · rw [require_of hp]
    simp [hp, eq_comm]
  · rw [require_of_not hp]
    simp [hp]

theorem reads_eq_ok {f : σ → Except ε α} {a : α} :
    reads f s = (.ok a, s') ↔ f s = .ok a ∧ s' = s := by
  simp [eq_comm]

section Steps

variable {f : σ → Except ε α} {g : α → Prog σ ε β} {a : α} {b : β}

theorem reads_bind_of_ok (hf : f s = .ok a) : (reads f >>= g) s = g a s :=
  bind_of_ok (reads_eq_ok.mpr ⟨hf, rfl⟩)

theorem reads_bind_of_error (hf : f s = .error e) : (reads f >>= g) s = (.error e, s) :=
  bind_of_error (by rw [reads_apply, hf])

theorem reads_bind_eq_ok :
    (reads f >>= g) s = (.ok b, s') ↔ ∃ a, f s = .ok a ∧ g a s = (.ok b, s') := by
  cases hf : f s with
  | error e =>
    rw [reads_bind_of_error hf]
    simp
  | ok a =>
    rw [reads_bind_of_ok hf]
    simp

theorem reads_bind_eq_error :
    (reads f >>= g) s = (.error e, s') ↔
      f s = .error e ∧ s' = s ∨ ∃ a, f s = .ok a ∧ g a s = (.error e, s') := by
  cases hf : f s with
  | error e =>
    rw [reads_bind_of_error hf]
    simp [eq_comm]
  | ok a =>
    rw [reads_bind_of_ok hf]
    simp

variable {p : Prop} [Decidable p] {g : Unit → Prog σ ε β}

theorem require_bind_of (hp : p) : (require p e >>= g) s = g () s := bind_of_ok (require_of hp e s)

theorem require_bind_of_not (hp : ¬p) : (require p e >>= g) s = (.error e, s) :=
  bind_of_error (require_of_not hp e s)

theorem require_bind_eq_ok :
    (require p e >>= g) s = (.ok b, s') ↔ p ∧ g () s = (.ok b, s') := by
  by_cases hp : p
  · rw [require_bind_of hp]
    simp [hp]
  · rw [require_bind_of_not hp]
    simp [hp]

end Steps

section Exceptions

def Raises (P : ε → Prop) (x : Prog σ ε α) : Prop := ∀ ⦃s e s'⦄, x s = (.error e, s') → P e

variable {P : ε → Prop}

theorem Raises.bind {x : Prog σ ε α} {f : α → Prog σ ε β} (hx : x.Raises P)
    (hf : ∀ a, (f a).Raises P) : (x >>= f).Raises P := by
  intro s e s' h
  rcases bind_eq_error.mp h with hfst | ⟨a, t, -, hsnd⟩
  · exact hx hfst
  · exact hf a hsnd

theorem Raises.pure (a : α) : (pure a : Prog σ ε α).Raises P := by
  intro s e s' h
  rw [pure_apply] at h
  cases h

theorem Raises.raise {e : ε} (he : P e) : (raise e : Prog σ ε α).Raises P := by
  intro s e' s' h
  cases h
  exact he

theorem Raises.require {p : Prop} [Decidable p] {e : ε} (he : P e) :
    (require p e : Prog σ ε Unit).Raises P := by
  by_cases hp : p
  · rw [Prog.require, if_pos hp]
    exact Raises.pure ()
  · rw [Prog.require, if_neg hp]
    exact Raises.raise he

theorem Raises.gets (f : σ → α) : (gets f : Prog σ ε α).Raises P := by
  intro s e s' h
  cases h

theorem Raises.update (f : σ → σ) : (update f : Prog σ ε Unit).Raises P := by
  intro s e s' h
  cases h

theorem Raises.reads {f : σ → Except ε α} (hf : ∀ s e, f s = .error e → P e) :
    (reads f).Raises P := by
  intro s e s' h
  rw [reads_apply, Prod.mk.injEq] at h
  exact hf s e h.1

end Exceptions

section Relations

variable {R : σ → σ → Prop}

def Along (R : σ → σ → Prop) (x : Prog σ ε α) : Prop := ∀ s, R s (x s).2

theorem Along.of_eq {x : Prog σ ε α} (hx : x.Along R) {s s' : σ} {v : Except ε α} (h : x s = (v, s')) :
    R s s' := by
  have hrel := hx s
  rw [h] at hrel
  exact hrel

theorem Along.pure [Std.Refl R] (a : α) : (pure a : Prog σ ε α).Along R := refl

theorem Along.raise [Std.Refl R] (e : ε) : (raise e : Prog σ ε α).Along R := refl

theorem Along.reads [Std.Refl R] (f : σ → Except ε α) : (reads f).Along R := refl

theorem Along.gets [Std.Refl R] (f : σ → α) : (gets f : Prog σ ε α).Along R := refl

theorem Along.bind [IsTrans σ R] {x : Prog σ ε α} {f : α → Prog σ ε β} (hx : x.Along R)
    (hf : ∀ a, (f a).Along R) : (x >>= f).Along R := by
  intro s
  rcases hxs : x s with ⟨r | a, t⟩
  · rw [bind_of_error hxs]
    exact hx.of_eq hxs
  · rw [bind_of_ok hxs]
    exact trans_of R (hx.of_eq hxs) (hf a t)

end Relations

end Prog
