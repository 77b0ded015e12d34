import Mathlib.Tactic

/-!
# Repeated search as one pass

A loop that searches a list from its start in every round, acts on the first
eligible element and repeats, equals one pass over the list when acting never
makes an earlier element eligible again.
-/

namespace Runnel.Search

variable {α σ ρ : Type*}

/-- A search loop: when it goes on, which elements it considers, what it does with the first
one found (continue with a new state, or end), and its result otherwise. -/
structure Program (α σ ρ : Type*) where
  ready : σ → Bool
  eligible : σ → α → Bool
  act : σ → α → σ ⊕ ρ
  finish : σ → ρ

def loop (p : Program α σ ρ) (xs : List α) : ℕ → σ → Option ρ
  | 0, _ => none
  | fuel + 1, s =>
    if p.ready s then
      match xs.find? (p.eligible s) with
      | none => some (p.finish s)
      | some x =>
        match p.act s x with
        | .inl s' => loop p xs fuel s'
        | .inr r => some r
    else some (p.finish s)

def scan (p : Program α σ ρ) : List α → σ → ρ
  | [], s => p.finish s
  | x :: xs, s =>
    if p.ready s then
      if p.eligible s x then
        match p.act s x with
        | .inl s' => scan p xs s'
        | .inr r => r
      else scan p xs s
    else p.finish s

variable {p : Program α σ ρ} {s : σ}

theorem scan_of_not_ready (h : p.ready s = false) (xs : List α) :
    scan p xs s = p.finish s := by
  cases xs with
  | nil => rfl
  | cons x xs => simp [scan, h]

variable {x : α}

theorem scan_cons_of_skip (h : p.eligible s x = false)
    (xs : List α) : scan p (x :: xs) s = scan p xs s := by
  cases hready : p.ready s with
  | false => rw [scan_of_not_ready hready, scan_of_not_ready hready]
  | true => simp [scan, hready, h]

theorem scan_cons_of_act {s' : σ} (hready : p.ready s = true)
    (h : p.eligible s x = true) (hact : p.act s x = .inl s') (xs : List α) :
    scan p (x :: xs) s = scan p xs s' := by
  simp [scan, hready, h, hact]

theorem scan_cons_of_stop {r : ρ} (hready : p.ready s = true)
    (h : p.eligible s x = true) (hact : p.act s x = .inr r) (xs : List α) :
    scan p (x :: xs) s = r := by
  simp [scan, hready, h, hact]

theorem scan_append_of_forall {before : List α}
    (h : ∀ y ∈ before, p.eligible s y = false) (after : List α) :
    scan p (before ++ after) s = scan p after s := by
  induction before with
  | nil => rfl
  | cons y before ih =>
    obtain ⟨hhead, hrest⟩ := List.forall_mem_cons.1 h
    rw [List.cons_append, scan_cons_of_skip hhead, ih hrest]

/-- When a search may be done in one pass. `Seen before s` says what the state knows of the
elements behind the pass; there the test of the pass agrees with the one of the search. -/
structure OnePass (p : Program α σ ρ) (onPass : σ → α → Bool) (xs : List α)
    (Seen : List α → σ → Prop) : Prop where
  onPass_eq : ∀ before x after s, xs = before ++ x :: after → Seen before s →
    p.eligible s x = onPass s x
  skip : ∀ before x s, Seen before s → Seen (before ++ [x]) s
  act : ∀ before x s s', Seen before s → p.act s x = .inl s' → Seen (before ++ [x]) s'
  mono : ∀ s x s' y, p.act s x = .inl s' → p.eligible s' y = true → p.eligible s y = true
  gone : ∀ s x s', p.act s x = .inl s' → p.eligible s' x = false

namespace OnePass

variable {p : Program α σ ρ} {onPass : σ → α → Bool} {xs : List α} {Seen : List α → σ → Prop}

theorem loop_eq_scan_of_split (h : OnePass p onPass xs Seen)
    (before after : List α) (s : σ) (fuel : ℕ) (hsplit : xs = before ++ after)
    (hseen : Seen before s) (hbefore : ∀ y ∈ before, p.eligible s y = false)
    (hfuel : after.length < fuel) :
    loop p xs fuel s = some (scan { p with eligible := onPass } after s) := by
  induction after generalizing before s fuel with
  | nil =>
    cases fuel with
    | zero => simp at hfuel
    | succ fuel =>
      rw [List.append_nil] at hsplit
      have hnone : xs.find? (p.eligible s) = none := by
        rw [hsplit]
        exact List.find?_eq_none.2 fun y hy => by simp [hbefore y hy]
      simp [loop, scan, hnone]
  | cons x after ih =>
    cases fuel with
    | zero => simp at hfuel
    | succ fuel =>
      have hsplit' : xs = (before ++ [x]) ++ after := by simp [hsplit]
      cases hready : p.ready s with
      | false => simp [loop, scan, hready]
      | true =>
        cases heligible : p.eligible s x with
        | false =>
          -- The element stays behind: the search of this round looks further on.
          rw [ih (before ++ [x]) s (fuel + 1) hsplit' (h.skip before x s hseen) ?_
            (by simpa using Nat.lt_of_succ_lt hfuel)]
          · simp [scan, hready, ← h.onPass_eq before x after s hsplit hseen, heligible]
          · intro y hy
            rcases List.mem_append.1 hy with hy | hy
            · exact hbefore y hy
            · rwa [List.mem_singleton.1 hy]
        | true =>
          have hfind : xs.find? (p.eligible s) = some x := by
            rw [hsplit, List.find?_append, List.find?_eq_none.2 fun y hy => by simp [hbefore y hy]]
            simp [heligible]
          simp only [loop, scan, hready, hfind, if_true,
            ← h.onPass_eq before x after s hsplit hseen, heligible]
          cases haction : p.act s x with
          | inr r => rfl
          | inl s' =>
            refine ih (before ++ [x]) s' fuel hsplit' (h.act before x s s' hseen haction) ?_
              (by simpa using hfuel)
            intro y hy
            rcases List.mem_append.1 hy with hy | hy
            · by_contra hnot
              have := h.mono s x s' y haction (by simpa using hnot)
              rw [hbefore y hy] at this
              cases this
            · rw [List.mem_singleton.1 hy]
              exact h.gone s x s' haction

theorem loop_eq_scan (h : OnePass p onPass xs Seen) {s : σ} (hseen : Seen [] s) {fuel : ℕ}
    (hfuel : xs.length < fuel) :
    loop p xs fuel s = some (scan { p with eligible := onPass } xs s) :=
  h.loop_eq_scan_of_split [] xs s fuel rfl hseen (by simp) hfuel

end OnePass

end Runnel.Search
