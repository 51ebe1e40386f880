import Mathlib

/-! Rules for fallible computations in `Except`: a computation that went well or failed is passed to
the next one, and a sequence that went well is taken apart. -/
namespace Fallible

universe u v w
variable {ε : Type u} {α β : Type v}

@[simp] theorem ok_bind (a : α) (f : α → Except ε β) : (Except.ok a >>= f) = f a := rfl

@[simp] theorem error_bind (e : ε) (f : α → Except ε β) :
    ((Except.error e : Except ε α) >>= f) = .error e := rfl

theorem bind_eq_ok {x : Except ε α} {f : α → Except ε β} {b : β} :
    (x >>= f) = .ok b ↔ ∃ a, x = .ok a ∧ f a = .ok b := by
  cases x with
  | error e => simp
  | ok a => simp

theorem map_eq_ok {x : Except ε α} {f : α → β} {b : β} :
    x.map f = .ok b ↔ ∃ a, x = .ok a ∧ f a = b := by
  cases x with
  | error e => simp [Except.map]
  | ok a => simp [Except.map]

theorem mapM_eq_ok_iff {γ : Type w} {f : γ → Except ε β} {as : List γ} {bs : List β} :
    as.mapM f = .ok bs ↔ List.Forall₂ (fun a b => f a = .ok b) as bs := by
  induction as generalizing bs with
  | nil =>
    rw [List.mapM_nil, List.forall₂_nil_left_iff]
    exact ⟨fun h => (Except.ok.inj h).symm, fun h => h ▸ rfl⟩
  | cons a as ih =>
    rw [List.mapM_cons, bind_eq_ok, List.forall₂_cons_left_iff]
    simp only [bind_eq_ok, ih]
    constructor
    · rintro ⟨b, hb, bs', hbs, hcons⟩
      exact ⟨b, bs', hb, hbs, (Except.ok.inj hcons).symm⟩
    · rintro ⟨b, bs', hb, hbs, rfl⟩
      exact ⟨b, hb, bs', hbs, rfl⟩

theorem exists_mapM_ok {γ : Type w} {f : γ → Except ε β} {as : List γ} (h : ∀ a ∈ as, ∃ b, f a = .ok b) :
    ∃ bs, as.mapM f = .ok bs := by
  induction as with
  | nil => exact ⟨[], rfl⟩
  | cons a as ih =>
    obtain ⟨b, hb⟩ := h a List.mem_cons_self
    obtain ⟨bs, hbs⟩ := ih fun a ha => h a (List.mem_cons_of_mem _ ha)
    exact ⟨b :: bs, by rw [List.mapM_cons, hb, ok_bind, hbs]; rfl⟩

theorem exists_mapM_error {γ : Type w} {f : γ → Except ε β} {as : List γ} {a : γ} (ha : a ∈ as)
    (hne : ∀ b, f a ≠ .ok b) : ∃ e, as.mapM f = .error e := by
  cases hmap : as.mapM f with
  | error e => exact ⟨e, rfl⟩
  | ok bs =>
    have hall := List.forall₂_iff_get.mp (mapM_eq_ok_iff.mp hmap)
    obtain ⟨i, hi, rfl⟩ := List.getElem_of_mem ha
    exact absurd (hall.2 i hi (hall.1 ▸ hi)) (hne _)

section Exceptions

variable {P : ε → Prop}

def Fails (P : ε → Prop) (x : Except ε α) : Prop := ∀ e, x = .error e → P e

theorem Fails.ok (a : α) : Fails P (.ok a : Except ε α) := by
  intro e h
  cases h

theorem Fails.error {e : ε} (he : P e) : Fails P (.error e : Except ε α) := by
  intro e' h
  cases h
  exact he

theorem Fails.bind {x : Except ε α} {f : α → Except ε β} (hx : Fails P x)
    (hf : ∀ a, x = .ok a → Fails P (f a)) : Fails P (x >>= f) := by
  cases h : x with
  | error e => exact Fails.error (hx e h)
  | ok a => exact hf a h

theorem Fails.mapM {γ : Type w} {f : γ → Except ε β} {as : List γ} (h : ∀ a ∈ as, Fails P (f a)) :
    Fails P (as.mapM f) := by
  induction as with
  | nil => exact Fails.ok []
  | cons a as ih =>
    rw [List.mapM_cons]
    apply Fails.bind (h a List.mem_cons_self)
    intro b _
    apply Fails.bind (ih fun a ha => h a (List.mem_cons_of_mem _ ha))
    intro bs _
    exact Fails.ok _

end Exceptions

end Fallible
