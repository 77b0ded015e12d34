import Mathlib.Tactic

/-!
# Computations that fail and keep what they did

A computation on a state returns a value or fails; either way the changes it made
before stay.
-/

namespace Runnel

variable {ε δ σ α β : Type}

/-- From this state, what holds when the computation returns and when it fails. -/
def Ensures (m : EStateM ε σ α) (s : σ) (returns : α → σ → Prop) (fails : ε → σ → Prop) : Prop :=
  match m s with
  | .ok a t => returns a t
  | .error e t => fails e t

/-- What the computation answers, and the state it leaves. -/
def execute (m : EStateM ε σ α) (s : σ) : Except ε α × σ :=
  match m s with
  | .ok a t => (.ok a, t)
  | .error e t => (.error e, t)

variable {m : EStateM ε σ α} {s : σ} {returns returns' : α → σ → Prop}
  {fails fails' : ε → σ → Prop}

theorem Ensures.mono (h : Ensures m s returns fails) (hreturns : ∀ a t, returns a t → returns' a t)
    (hfails : ∀ e t, fails e t → fails' e t) : Ensures m s returns' fails' := by
  unfold Ensures at h ⊢
  cases hrun : m s with
  | ok a t =>
    rw [hrun] at h
    exact hreturns a t h
  | error e t =>
    rw [hrun] at h
    exact hfails e t h

theorem Ensures.congr {m' : EStateM ε σ α} (h : Ensures m' s returns fails) (heq : m s = m' s) :
    Ensures m s returns fails := by
  rw [Ensures, heq]
  exact h

theorem execute_of_ok {a : α} {t : σ} (h : m s = .ok a t) : execute m s = (.ok a, t) := by
  rw [execute, h]

theorem execute_of_error {e : ε} {t : σ} (h : m s = .error e t) :
    execute m s = (.error e, t) := by
  rw [execute, h]

theorem Ensures.execute (h : Ensures m s returns fails) :
    (∃ a t, execute m s = (.ok a, t) ∧ returns a t) ∨
      ∃ e t, execute m s = (.error e, t) ∧ fails e t := by
  unfold Ensures at h
  unfold Runnel.execute
  cases hrun : m s with
  | ok a t =>
    rw [hrun] at h
    exact Or.inl ⟨a, t, rfl, h⟩
  | error e t =>
    rw [hrun] at h
    exact Or.inr ⟨e, t, rfl, h⟩

@[simp] theorem ensures_get {returns : σ → σ → Prop} :
    Ensures (get : EStateM ε σ σ) s returns fails ↔ returns s s := Iff.rfl

@[simp] theorem ensures_modifyGet {f : σ → α × σ} :
    Ensures (modifyGet f : EStateM ε σ α) s returns fails ↔ returns (f s).1 (f s).2 := Iff.rfl

theorem ensures_ofExcept {r : Except ε α} :
    Ensures (MonadExcept.ofExcept r : EStateM ε σ α) s returns fails ↔
      (∀ a, r = .ok a → returns a s) ∧ ∀ e, r = .error e → fails e s := by
  cases r with
  | ok a =>
    refine ⟨fun h => ⟨?_, by simp⟩, fun h => h.1 a rfl⟩
    rintro b ⟨⟩
    exact h
  | error e =>
    refine ⟨fun h => ⟨by simp, ?_⟩, fun h => h.2 e rfl⟩
    rintro f ⟨⟩
    exact h

theorem ensures_bind {f : α → EStateM ε σ β} {returns : β → σ → Prop} :
    Ensures (m >>= f) s returns fails ↔
      Ensures m s (fun a t => Ensures (f a) t returns fails) fails := by
  simp only [Ensures, bind, EStateM.bind]
  cases m s <;> rfl

theorem ensures_adaptExcept {f : ε → δ} {fails : δ → σ → Prop} :
    Ensures (EStateM.adaptExcept f m) s returns fails ↔
      Ensures m s returns fun e t => fails (f e) t := by
  simp only [Ensures, EStateM.adaptExcept]
  cases m s <;> rfl

theorem except_bind_eq_ok_iff {first : Except ε α} {next : α → Except ε β} {b : β} :
    (first >>= next) = .ok b ↔ ∃ a, first = .ok a ∧ next a = .ok b := by
  cases first with
  | error error => simp [bind, Except.bind]
  | ok a => simp [bind, Except.bind]

theorem eq_ok_of_toOption {result : Except ε α} {a : α} (h : result.toOption = some a) :
    result = .ok a := by
  cases result with
  | error error => cases h
  | ok found => rw [Option.some.inj h]

theorem forall₂_of_mapM {f : α → Except ε β} {xs : List α} {ys : List β}
    (h : xs.mapM f = .ok ys) : List.Forall₂ (fun x y => f x = .ok y) xs ys := by
  induction xs generalizing ys with
  | nil =>
    obtain rfl := Except.ok.inj h
    exact .nil
  | cons x xs ih =>
    rw [List.mapM_cons] at h
    cases hx : f x with
    | error e =>
      rw [hx] at h
      cases h
    | ok y =>
      rw [hx] at h
      cases hxs : xs.mapM f with
      | error e =>
        rw [hxs] at h
        cases h
      | ok rest =>
        rw [hxs] at h
        obtain rfl := Except.ok.inj h
        exact .cons hx (ih hxs)

theorem mapM_of_forall₂ {f : α → Except ε β} {xs : List α} {ys : List β}
    (h : List.Forall₂ (fun x y => f x = .ok y) xs ys) : xs.mapM f = .ok ys := by
  induction h with
  | nil => rfl
  | cons hfirst _ ih =>
    rw [List.mapM_cons, hfirst, ih]
    rfl

end Runnel
