import Mathlib.Tactic

/-!
# Machine integers and ordered maps

Unsigned machine integers are natural numbers; an operation whose overflow
behaviour matters names it.
-/

namespace Runnel

abbrev BTreeMap (κ ν : Type) [Ord κ] := Std.ExtTreeMap κ ν compare

abbrev BTreeSet (κ : Type) [Ord κ] := Std.ExtTreeSet κ compare

/-- Pairs are compared lexicographically, as tuples of ordered keys are. -/
instance instOrdNames : Ord (String × String) := lexOrd

instance instOrdNumbered : Ord (String × ℕ) := lexOrd

theorem mem_iff_exists_getElem? {κ ν : Type} [Ord κ] [Std.TransOrd κ] {m : BTreeMap κ ν} {k : κ} :
    k ∈ m ↔ ∃ v, m[k]? = some v := by
  rw [Std.ExtTreeMap.mem_iff_isSome_getElem?, Option.isSome_iff_exists]

theorem getElem?_insertIfNew_eq {κ ν : Type} [Ord κ] [Std.TransOrd κ] [Std.LawfulEqOrd κ]
    [DecidableEq κ] (m : BTreeMap κ ν) (k other : κ) (v : ν) :
    (m.insertIfNew k v)[other]? = (m[other]?).or (if k = other then some v else none) := by
  rw [Std.ExtTreeMap.getElem?_insertIfNew]
  simp only [Std.LawfulEqCmp.compare_eq_iff_eq]
  by_cases hsame : k = other
  · subst hsame
    by_cases hmem : k ∈ m
    · simp [hmem]
    · simp [hmem]
  · simp [hsame]

@[simp] theorem toList_empty {κ ν : Type} [Ord κ] [Std.TransOrd κ] :
    Std.ExtTreeMap.toList (∅ : BTreeMap κ ν) = [] :=
  Std.ExtTreeMap.toList_eq_nil_iff.2 rfl

theorem mem_of_getElem?_ofList {κ ν : Type} [Ord κ] [Std.TransOrd κ] [Std.LawfulEqOrd κ]
    {entries : List (κ × ν)} (hdistinct : entries.Pairwise fun a b => ¬ compare a.1 b.1 = .eq)
    {k : κ} {v : ν} (h : (Std.ExtTreeMap.ofList entries compare)[k]? = some v) :
    (k, v) ∈ entries := by
  let _ : BEq κ := ⟨fun a b => compare a b == .eq⟩
  have : Std.LawfulBEqCmp (compare : κ → κ → Ordering) := ⟨(beq_iff_eq (α := Ordering)).symm⟩
  have hmem : k ∈ Std.ExtTreeMap.ofList entries compare := mem_iff_exists_getElem?.2 ⟨v, h⟩
  rw [Std.ExtTreeMap.mem_ofList, List.contains_iff_exists_mem_beq] at hmem
  obtain ⟨key, hkey, heq⟩ := hmem
  obtain ⟨entry, hentry, rfl⟩ := List.mem_map.1 hkey
  have hsame : k = entry.1 := Std.LawfulEqCmp.eq_of_compare (beq_iff_eq.1 heq)
  have hget : (Std.ExtTreeMap.ofList entries compare)[k]? = some entry.2 :=
    Std.ExtTreeMap.getElem?_ofList_of_mem (beq_iff_eq.1 (hsame ▸ heq)) hdistinct hentry
  rw [h] at hget
  rw [Option.some.inj hget, hsame]
  exact hentry

theorem ofList_toList {κ ν : Type} [Ord κ] [Std.TransOrd κ] [Std.LawfulEqOrd κ]
    (m : BTreeMap κ ν) : Std.ExtTreeMap.ofList m.toList compare = m := by
  refine Std.ExtTreeMap.ext_getElem? fun k => ?_
  cases hget : m[k]? with
  | some v =>
    exact Std.ExtTreeMap.getElem?_ofList_of_mem Std.ReflCmp.compare_self
      Std.ExtTreeMap.distinct_keys_toList (Std.ExtTreeMap.mem_toList_iff_getElem?_eq_some.2 hget)
  | none =>
    cases hlist : (Std.ExtTreeMap.ofList m.toList compare)[k]? with
    | none => rfl
    | some v =>
      have hmem := mem_of_getElem?_ofList Std.ExtTreeMap.distinct_keys_toList hlist
      rw [Std.ExtTreeMap.mem_toList_iff_getElem?_eq_some, hget] at hmem
      cases hmem

theorem keys_eq_of_mem_iff {κ ν μ : Type} [Ord κ] [Std.TransOrd κ] [Std.LawfulEqOrd κ]
    {m : BTreeMap κ ν} {n : BTreeMap κ μ} (h : ∀ k, k ∈ m ↔ k ∈ n) : m.keys = n.keys := by
  have hperm : m.keys.Perm n.keys := by
    refine (List.perm_ext_iff_of_nodup Std.ExtTreeMap.nodup_keys Std.ExtTreeMap.nodup_keys).2 ?_
    intro k
    rw [Std.ExtTreeMap.mem_keys, Std.ExtTreeMap.mem_keys]
    exact h k
  refine hperm.eq_of_pairwise ?_ Std.ExtTreeMap.ordered_keys Std.ExtTreeMap.ordered_keys
  intro a b _ _ hab hba
  rw [Std.OrientedCmp.gt_of_lt hab] at hba
  cases hba

theorem lt_succ_or_mem_erase {set : BTreeSet ℕ} {mark : ℕ} (hmem : mark ∈ set) (n : ℕ) :
    n < mark + 1 ∨ n ∈ set.erase mark ↔ n < mark ∨ n ∈ set := by
  simp only [Std.ExtTreeSet.mem_erase, ne_eq, Nat.compare_eq_eq]
  constructor
  · rintro (hlt | ⟨-, hin⟩)
    · rcases Nat.lt_succ_iff_lt_or_eq.1 hlt with hlt | rfl
      · exact Or.inl hlt
      · exact Or.inr hmem
    · exact Or.inr hin
  · rintro (hlt | hin)
    · exact Or.inl (by omega)
    · by_cases heq : mark = n
      · exact Or.inl (by omega)
      · exact Or.inr ⟨heq, hin⟩

@[simp] theorem empty_union {κ : Type} [Ord κ] [Std.TransOrd κ] [Std.LawfulEqOrd κ]
    (s : BTreeSet κ) : (∅ : BTreeSet κ) ∪ s = s := by
  apply Std.ExtTreeSet.ext_mem
  simp [Std.ExtTreeSet.mem_union_iff]

@[simp] theorem union_empty {κ : Type} [Ord κ] [Std.TransOrd κ] [Std.LawfulEqOrd κ]
    (s : BTreeSet κ) : s ∪ (∅ : BTreeSet κ) = s := by
  apply Std.ExtTreeSet.ext_mem
  simp [Std.ExtTreeSet.mem_union_iff]

def u32Max : ℕ := 2 ^ 32 - 1

def u64Max : ℕ := 2 ^ 64 - 1

def satAdd32 (a b : ℕ) : ℕ := min (a + b) u32Max

def satAdd64 (a b : ℕ) : ℕ := min (a + b) u64Max

theorem satAdd64_le (a b : ℕ) : satAdd64 a b ≤ u64Max := Nat.min_le_right _ _

theorem satAdd64_eq {a b : ℕ} (h : a + b ≤ u64Max) : satAdd64 a b = a + b := Nat.min_eq_left h

theorem le_satAdd64 {a b : ℕ} (h : a ≤ u64Max) : a ≤ satAdd64 a b := by
  unfold satAdd64
  omega

theorem satAdd64_mono {a b c d : ℕ} (h : a ≤ c) (h' : b ≤ d) :
    satAdd64 a b ≤ satAdd64 c d := by
  unfold satAdd64
  omega

/-- A queue that drops its oldest element once it holds as many as the limit. -/
def pushBounded {α : Type*} (limit : ℕ) (queue : List α) (a : α) : List α :=
  (if queue.length = limit then queue.tail else queue) ++ [a]

theorem mem_of_mem_pushBounded {α : Type*} {limit : ℕ} {queue : List α} {a b : α}
    (h : b ∈ pushBounded limit queue a) : b ∈ queue ∨ b = a := by
  unfold pushBounded at h
  split_ifs at h
  · exact (List.mem_append.1 h).imp List.mem_of_mem_tail List.mem_singleton.1
  · exact (List.mem_append.1 h).imp id List.mem_singleton.1

theorem pushBounded_drop {α : Type*} {limit : ℕ} (hlimit : 0 < limit) (all : List α) (a : α) :
    pushBounded limit (all.drop (all.length - limit)) a =
      (all ++ [a]).drop ((all ++ [a]).length - limit) := by
  unfold pushBounded
  rw [List.length_drop, List.length_append, List.length_singleton]
  split_ifs with hfull
  · rw [List.tail_drop, List.drop_append_of_le_length (by omega)]
    congr 2
    omega
  · rw [List.drop_append_of_le_length (by omega)]
    congr 2
    omega

/-- Removes the element at a position; the last one takes its place. -/
def swapRemove {α : Type*} (xs : List α) (i : ℕ) : List α :=
  match xs.getLast? with
  | some last => (xs.set i last).dropLast
  | none => []

theorem swapRemove_perm {α : Type*} {xs : List α} {i : ℕ} (h : i < xs.length) :
    (swapRemove xs i).Perm (xs.eraseIdx i) := by
  rcases List.eq_nil_or_concat xs with rfl | ⟨front, last, rfl⟩
  · cases h
  · rw [List.concat_eq_append] at h ⊢
    have hset : (front ++ [last]).set i last =
        ((front ++ [last]).set i last).dropLast ++ [last] := by
      rw [List.length_append, List.length_singleton] at h
      rcases Nat.lt_succ_iff_lt_or_eq.1 h with hlt | rfl
      · rw [List.set_append_left _ _ hlt, List.dropLast_concat]
      · simp
    have hperm := List.set_perm_cons_eraseIdx h last
    rw [hset] at hperm
    have hswap : swapRemove (front ++ [last]) i = ((front ++ [last]).set i last).dropLast := by
      simp [swapRemove]
    rw [hswap]
    exact ((List.perm_append_singleton _ _).symm.trans hperm).cons_inv

/-- Lower-case hexadecimal digits without leading zeros. -/
def hex (n : ℕ) : String := String.ofList (Nat.toDigits 16 n)

/-- Hexadecimal digits padded with zeros to a width of sixteen. -/
def hex16 (n : ℕ) : String :=
  let digits := Nat.toDigits 16 n
  String.ofList (List.replicate (16 - digits.length) '0' ++ digits)

end Runnel
