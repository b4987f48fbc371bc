/-
Steps that may fail.

How a sequence of steps with a state runs, one equation for each way to make a
step, and what is known of a sequence that succeeds: it did so step by step. A
proof about a sequence rewrites with these and need not open the monad.
-/
import Mathlib.Data.List.Forall2

set_option autoImplicit false

namespace ManagedImage

theorem Except.bind_ok {ε α β : Type} {x : Except ε α} {f : α → Except ε β} {b : β}
    (h : (x >>= f) = .ok b) : ∃ a, x = .ok a ∧ f a = .ok b := by
  cases x with
  | error e => cases h
  | ok a => exact ⟨a, rfl, h⟩

theorem exists_mem_of_forall₂ {α β : Type} {R : α → β → Prop} {xs : List α} {ys : List β}
    (h : List.Forall₂ R xs ys) : ∀ y ∈ ys, ∃ x ∈ xs, R x y := by
  intro y hy
  obtain ⟨i, hi, rfl⟩ := List.mem_iff_getElem.mp hy
  obtain ⟨hlen, hget⟩ := List.forall₂_iff_get.mp h
  have hx : i < xs.length := hlen ▸ hi
  exact ⟨xs[i], List.getElem_mem hx, hget i hx hi⟩

/-- The results of a list of steps that all succeeded. -/
theorem Except.mapM_ok {ε α β : Type} {f : α → Except ε β} : ∀ {xs : List α} {ys : List β},
    xs.mapM f = .ok ys → List.Forall₂ (fun x y => f x = .ok y) xs ys := by
  intro xs
  induction xs with
  | nil =>
    intro ys h
    cases h
    exact .nil
  | cons x xs ih =>
    intro ys h
    rw [List.mapM_cons] at h
    obtain ⟨y, hy, h⟩ := Except.bind_ok h
    obtain ⟨rest, hrest, h⟩ := Except.bind_ok h
    cases h
    exact .cons hy (ih hrest)

theorem Except.mapM_eq_ok {ε α β : Type} {f : α → Except ε β} {xs : List α} {ys : List β}
    (h : List.Forall₂ (fun x y => f x = .ok y) xs ys) : xs.mapM f = .ok ys := by
  induction h with
  | nil => rfl
  | cons hx _ ih =>
    rw [List.mapM_cons, hx, ih]
    rfl

theorem Except.map_ok {ε α β : Type} {x : Except ε α} {g : α → β} {b : β}
    (h : (x >>= fun a => pure (g a)) = .ok b) : ∃ a, x = .ok a ∧ b = g a := by
  obtain ⟨a, hx, hg⟩ := Except.bind_ok h
  exact ⟨a, hx, (Except.ok.inj hg).symm⟩

namespace EStateM

variable {ε σ α β : Type}

theorem bind_apply (x : EStateM ε σ α) (f : α → EStateM ε σ β) (s : σ) :
    (x >>= f) s = match x s with
      | .ok a s' => f a s'
      | .error e s' => .error e s' := rfl

theorem pure_apply (a : α) (s : σ) : (pure a : EStateM ε σ α) s = .ok a s := rfl

theorem get_apply (s : σ) : (get : EStateM ε σ σ) s = .ok s s := rfl

theorem set_apply (s t : σ) : (set t : EStateM ε σ PUnit) s = .ok ⟨⟩ t := rfl

theorem modify_apply (f : σ → σ) (s : σ) : (modify f : EStateM ε σ PUnit) s = .ok ⟨⟩ (f s) := rfl

theorem bind_ok {x : EStateM ε σ α} {f : α → EStateM ε σ β} {s s'' : σ} {b : β}
    (h : (x >>= f) s = .ok b s'') : ∃ a s', x s = .ok a s' ∧ f a s' = .ok b s'' := by
  rw [bind_apply] at h
  cases hx : x s with
  | ok a s' =>
    rw [hx] at h
    exact ⟨a, s', rfl, h⟩
  | error e s' =>
    rw [hx] at h
    cases h

end EStateM

namespace StateT

variable {ε σ α β : Type}

theorem bind_apply {x : StateT σ (Except ε) α} {f : α → StateT σ (Except ε) β} {s t : σ} {a : α}
    (h : x s = .ok (a, t)) : (x >>= f) s = f a t := by
  show Except.bind (x s) (fun r => f r.1 r.2) = f a t
  rw [h]
  rfl

/-- A success of a sequence is one of each part. -/
theorem bind_ok {x : StateT σ (Except ε) α} {f : α → StateT σ (Except ε) β} {s u : σ} {b : β}
    (h : (x >>= f) s = .ok (b, u)) : ∃ a t, x s = .ok (a, t) ∧ f a t = .ok (b, u) := by
  cases hx : x s with
  | ok r => exact ⟨r.1, r.2, rfl, by rwa [bind_apply hx] at h⟩
  | error e =>
    have herror : (x >>= f) s = .error e := by
      show Except.bind (x s) (fun r => f r.1 r.2) = _
      rw [hx]
      rfl
    rw [herror] at h
    cases h

theorem lift_apply {x : Except ε α} {a : α} (h : x = .ok a) (s : σ) :
    (liftM x : StateT σ (Except ε) α) s = .ok (a, s) := by
  subst h
  rfl

end StateT

end ManagedImage
