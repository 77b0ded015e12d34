import Mathlib.Tactic

/-!
# Searching an indexed list

`enumerate` pairs every element with its position, as an enumerating iterator
does. A search over it returns the least position that satisfies the test.
-/

namespace Runnel

variable {α : Type*}

def enumerate (xs : List α) : List (ℕ × α) := xs.zipIdx.map Prod.swap

@[simp] theorem mem_enumerate {xs : List α} {i : ℕ} {x : α} :
    (i, x) ∈ enumerate xs ↔ xs[i]? = some x := by
  simp only [enumerate, List.mem_map, Prod.exists, Prod.swap_prod_mk, Prod.mk.injEq]
  constructor
  · rintro ⟨y, j, hmem, rfl, rfl⟩
    exact List.mem_zipIdx_iff_getElem?.1 hmem
  · intro h
    exact ⟨x, i, List.mem_zipIdx_iff_getElem?.2 h, rfl, rfl⟩

theorem pairwise_enumerate (xs : List α) : (enumerate xs).Pairwise (·.1 < ·.1) := by
  rw [enumerate, List.pairwise_map]
  have h : ((xs.zipIdx).map Prod.snd).Pairwise (· < ·) := by
    rw [List.zipIdx_map_snd]
    exact List.pairwise_lt_range'
  exact List.pairwise_map.1 h

theorem find?_eq_some_of_pairwise {β : Type*} {r : β → β → Prop} [Std.Asymm r] {p : β → Bool}
    {entries : List β} (hsorted : entries.Pairwise r) {entry : β}
    (h : entries.find? p = some entry) :
    entry ∈ entries ∧ p entry = true ∧
      ∀ other ∈ entries, r other entry → p other = false := by
  obtain ⟨hp, before, after, rfl, hbefore⟩ := List.find?_eq_some_iff_append.1 h
  refine ⟨by simp, hp, fun other hmem hlt => ?_⟩
  rcases List.mem_append.1 hmem with hmem | hmem
  · simpa using hbefore other hmem
  · rcases List.mem_cons.1 hmem with rfl | hmem
    · exact absurd hlt (Std.Asymm.asymm _ _ hlt)
    · have hrel := (List.pairwise_cons.1 (List.pairwise_append.1 hsorted).2.1).1 other hmem
      exact absurd hlt (Std.Asymm.asymm _ _ hrel)

theorem find?_enumerate_eq_some {xs : List α} {start : ℕ} {p : ℕ × α → Bool} {i : ℕ} {x : α}
    (h : ((enumerate xs).filter (fun entry => start ≤ entry.1)).find? p = some (i, x)) :
    xs[i]? = some x ∧ start ≤ i ∧ p (i, x) = true ∧
      ∀ j y, start ≤ j → j < i → xs[j]? = some y → p (j, y) = false := by
  have : Std.Asymm (fun a b : ℕ × α => a.1 < b.1) := ⟨fun _ _ h => Nat.lt_asymm h⟩
  obtain ⟨hmem, hp, hleast⟩ :=
    find?_eq_some_of_pairwise ((pairwise_enumerate xs).filter _) h
  rw [List.mem_filter] at hmem
  refine ⟨mem_enumerate.1 hmem.1, by simpa using hmem.2, hp, fun j y hstart hlt hget => ?_⟩
  exact hleast (j, y) (List.mem_filter.2 ⟨mem_enumerate.2 hget, by simpa using hstart⟩) hlt

theorem find?_enumerate_eq_none {xs : List α} {start : ℕ} {p : ℕ × α → Bool}
    (h : ((enumerate xs).filter (fun entry => start ≤ entry.1)).find? p = none)
    {j : ℕ} {y : α} (hstart : start ≤ j) (hget : xs[j]? = some y) : p (j, y) = false := by
  have := List.find?_eq_none.1 h (j, y)
    (List.mem_filter.2 ⟨mem_enumerate.2 hget, by simpa using hstart⟩)
  simpa using this

section Least

variable {xs : List α} {start : ℕ} {p : ℕ × α → Bool} {P : ℕ → Prop}

theorem isLeast_of_find?_enumerate
    (hP : ∀ j y, xs[j]? = some y → (P j ↔ start ≤ j ∧ p (j, y) = true))
    (hstored : ∀ j, P j → j < xs.length) {i : ℕ} {x : α}
    (h : ((enumerate xs).filter (fun entry => start ≤ entry.1)).find? p = some (i, x)) :
    xs[i]? = some x ∧ IsLeast {j | P j} i := by
  obtain ⟨hget, hstart, htest, hleast⟩ := find?_enumerate_eq_some h
  refine ⟨hget, (hP i x hget).2 ⟨hstart, htest⟩, ?_⟩
  intro j hj
  by_contra hlt
  have hgetj := List.getElem?_eq_getElem (hstored j hj)
  obtain ⟨hstartj, htestj⟩ := (hP j _ hgetj).1 hj
  rw [hleast j _ hstartj (Nat.lt_of_not_le hlt) hgetj] at htestj
  cases htestj

theorem not_of_find?_enumerate
    (hP : ∀ j y, xs[j]? = some y → (P j ↔ start ≤ j ∧ p (j, y) = true))
    (hstored : ∀ j, P j → j < xs.length)
    (h : ((enumerate xs).filter (fun entry => start ≤ entry.1)).find? p = none) (j : ℕ) :
    ¬ P j := by
  intro hj
  have hget := List.getElem?_eq_getElem (hstored j hj)
  obtain ⟨hstart, htest⟩ := (hP j _ hget).1 hj
  rw [find?_enumerate_eq_none h hstart hget] at htest
  cases htest

end Least

end Runnel
