import Mathlib.Tactic

/-!
# Runs of labelled transition systems

A run records every earlier state together with the label that left it, newest
first. Safety results are proved once for a single transition and lifted to
whole runs by the induction rules below; a guard restricts the transitions a
run may take without changing the system itself.
-/

namespace Runnel.Transition

variable {σ l : Type*}

/-- A finite run from an initial state, with the history of states it left. -/
inductive Run (init : σ → Prop) (step : σ → l → σ → Prop) : List (σ × l) → σ → Prop
  | start {s} : init s → Run init step [] s
  | next {past s a t} : Run init step past s → step s a t → Run init step ((s, a) :: past) t

def guarded (guard : σ → l → Prop) (step : σ → l → σ → Prop) : σ → l → σ → Prop :=
  fun s a t => guard s a ∧ step s a t

def allowed (guard : σ → l → Prop) [∀ s a, Decidable (guard s a)] (next? : σ → l → Option σ)
    (s : σ) (a : l) : Option σ :=
  if guard s a then next? s a else none

theorem guarded_of_allowed {guard : σ → l → Prop} [∀ s a, Decidable (guard s a)]
    {next? : σ → l → Option σ} {step : σ → l → σ → Prop} {s t : σ} {a : l}
    (hnext : next? s a = some t → step s a t) (h : allowed guard next? s a = some t) :
    guarded guard step s a t := by
  rw [allowed] at h
  split_ifs at h with hguard
  exact ⟨hguard, hnext h⟩

/-- Follows a list of labels where the next state is computed, and keeps the history. -/
def follow (next? : σ → l → Option σ) : List l → List (σ × l) → σ → Option (List (σ × l) × σ)
  | [], past, s => some (past, s)
  | a :: labels, past, s => (next? s a).bind fun t => follow next? labels ((s, a) :: past) t

theorem suffix_of_follow {next? : σ → l → Option σ} {labels : List l}
    {past past' : List (σ × l)} {s t : σ}
    (h : follow next? labels past s = some (past', t)) : past <:+ past' := by
  induction labels generalizing past s with
  | nil =>
    obtain ⟨rfl, rfl⟩ := Prod.mk.inj (Option.some.inj h)
    exact List.suffix_refl past
  | cons a labels ih =>
    obtain ⟨middle, -, hrest⟩ := Option.bind_eq_some_iff.1 h
    exact (List.suffix_cons _ past).trans (ih hrest)

namespace Run

variable {init : σ → Prop} {step : σ → l → σ → Prop}

variable {past : List (σ × l)} {s : σ}

/-- Invariant rule: what holds initially and is kept by each transition holds in every
state a run reaches. -/
theorem invariant {I : σ → Prop} (hinit : ∀ s, init s → I s)
    (hstep : ∀ s a t, I s → step s a t → I t)
    (h : Run init step past s) : I s := by
  induction h with
  | start hs => exact hinit _ hs
  | next _ ht ih => exact hstep _ _ _ ih ht

theorem history_invariant {P : List (σ × l) → σ → Prop} (hinit : ∀ s, init s → P [] s)
    (hstep : ∀ past s a t, P past s → step s a t → P ((s, a) :: past) t)
    (h : Run init step past s) : P past s := by
  induction h with
  | start hs => exact hinit _ hs
  | next _ ht ih => exact hstep _ _ _ _ ih ht

/-- A run keeps what its transitions keep: each recorded transition leads to a state that
stands in the relation to the last one. -/
theorem later {I : σ → Prop} {R : σ → σ → Prop} (hinit : ∀ s, init s → I s)
    (hstep : ∀ s a t, I s → step s a t → I t ∧ R s t) (hrefl : ∀ s, R s s)
    (htrans : ∀ r s t, R r s → R s t → R r t)
    (h : Run init step past s) {before : σ} {a : l} (hmem : (before, a) ∈ past) :
    I before ∧ ∃ after, step before a after ∧ R after s := by
  induction h with
  | start _ => cases hmem
  | @next past s b t hrun ht ih =>
    have hinvariant : I s := hrun.invariant hinit fun s a t hs ht => (hstep s a t hs ht).1
    rcases List.mem_cons.1 hmem with heq | hmem
    · obtain ⟨rfl, rfl⟩ := Prod.mk.inj heq
      exact ⟨hinvariant, t, ht, hrefl t⟩
    · obtain ⟨hbefore, after, hafter, hkept⟩ := ih hmem
      exact ⟨hbefore, after, hafter, htrans _ _ _ hkept (hstep _ _ _ hinvariant ht).2⟩

theorem mono {step' : σ → l → σ → Prop} (hsub : ∀ s a t, step s a t → step' s a t)
    (h : Run init step past s) : Run init step' past s := by
  induction h with
  | start hs => exact .start hs
  | next _ ht ih => exact .next ih (hsub _ _ _ ht)

theorem of_guarded {guard : σ → l → Prop}
    (h : Run init (guarded guard step) past s) : Run init step past s :=
  h.mono fun _ _ _ ht => ht.2

theorem guard_of_mem {guard : σ → l → Prop}
    (h : Run init (guarded guard step) past s) : ∀ left ∈ past, guard left.1 left.2 := by
  induction h with
  | start _ => simp
  | next _ ht ih => exact List.forall_mem_cons.2 ⟨ht.1, ih⟩

theorem of_follow {next? : σ → l → Option σ} {labels : List l}
    (hnext : ∀ a ∈ labels, ∀ s t, next? s a = some t → step s a t)
    {past' : List (σ × l)} {t : σ} (h : Run init step past s)
    (hfollow : follow next? labels past s = some (past', t)) : Run init step past' t := by
  induction labels generalizing past s with
  | nil =>
    obtain ⟨rfl, rfl⟩ := Prod.mk.inj (Option.some.inj hfollow)
    exact h
  | cons a labels ih =>
    obtain ⟨ha, hlabels⟩ := List.forall_mem_cons.1 hnext
    obtain ⟨middle, hmiddle, hrest⟩ := Option.bind_eq_some_iff.1 hfollow
    exact ih hlabels (h.next (ha s middle hmiddle)) hrest

end Run

end Runnel.Transition
