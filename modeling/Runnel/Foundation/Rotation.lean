import Mathlib.Data.List.Rotate
import Mathlib.Order.Basic
import Mathlib.Tactic

/-!
# Rotating through a sorted list

A reader that takes a bounded window of a sorted list at a time and remembers the
last key it saw.
-/

namespace Runnel.Rotation

variable {α β : Type*} [LinearOrder α] (key : β → α)

/-- The entries in the order in which a reader with this cursor meets them. -/
def turned (cursor : Option α) (entries : List β) : List β :=
  match cursor with
  | some last => entries.filter (last < key ·) ++ entries.filter (key · ≤ last)
  | none => entries

def window (limit : ℕ) (cursor : Option α) (entries : List β) : List β :=
  (turned key cursor entries).take limit

/-- The cursor after a window: its last key, if it has one. -/
def next (limit : ℕ) (entries : List β) (cursor : Option α) : Option α :=
  match (window key limit cursor entries).getLast? with
  | some last => some (key last)
  | none => cursor

theorem turned_perm (cursor : Option α) (entries : List β) :
    (turned key cursor entries).Perm entries := by
  cases cursor with
  | none => exact .refl _
  | some last =>
    have hsplit := List.filter_append_perm (fun entry => decide (last < key entry)) entries
    have hrest : (fun entry => decide (key entry ≤ last)) =
        fun entry => !decide (last < key entry) := by
      funext entry
      rw [← decide_not, decide_eq_decide, not_lt]
    rw [turned, hrest]
    exact hsplit

variable {key}

variable {entries : List β}

theorem filter_append_of_sorted (last : α) (hsorted : entries.Pairwise fun a b => key a < key b) :
    entries.filter (key · ≤ last) ++ entries.filter (last < key ·) = entries := by
  induction entries with
  | nil => rfl
  | cons entry entries ih =>
    obtain ⟨hentry, hrest⟩ := List.pairwise_cons.1 hsorted
    by_cases h : key entry ≤ last
    · rw [List.filter_cons_of_pos (by simpa using h), List.filter_cons_of_neg (by simpa using h),
        List.cons_append, ih hrest]
    · have habove : ∀ a ∈ entry :: entries, last < key a := by
        rintro a (_ | ⟨_, ha⟩)
        · exact not_le.1 h
        · exact (not_le.1 h).trans (hentry a ha)
      rw [List.filter_eq_nil_iff.2 (by simpa using habove), List.nil_append,
        List.filter_eq_self.2 (by simpa using habove)]

variable {entry : β}

theorem turned_of_split {before after : List β}
    (hsorted : (before ++ entry :: after).Pairwise fun a b => key a < key b) :
    turned key (some (key entry)) (before ++ entry :: after) = after ++ (before ++ [entry]) := by
  obtain ⟨-, hrest, hbefore⟩ := List.pairwise_append.1 hsorted
  have hafter : ∀ a ∈ after, key entry < key a := (List.pairwise_cons.1 hrest).1
  have hlow : ∀ a ∈ before, key a ≤ key entry := by
    intro a ha
    exact (hbefore a ha entry List.mem_cons_self).le
  have habove : (before ++ entry :: after).filter (key entry < key ·) = after := by
    rw [List.filter_append, List.filter_eq_nil_iff.2 (by simpa using hlow), List.nil_append,
      List.filter_cons_of_neg (by simp), List.filter_eq_self.2 (by simpa using hafter)]
  have hbelow : (before ++ entry :: after).filter (key · ≤ key entry) = before ++ [entry] := by
    rw [List.filter_append, List.filter_eq_self.2 (by simpa using hlow),
      List.filter_cons_of_pos (by simp), List.filter_eq_nil_iff.2 (by simpa using hafter)]
  rw [turned, habove, hbelow]

variable {cursor : Option α}

/-- A reader that has come to an entry goes on with what follows it and ends with it. -/
theorem turned_of_eq {before after : List β} (hsorted : entries.Pairwise fun a b => key a < key b)
    (h : turned key cursor entries = before ++ entry :: after) :
    turned key (some (key entry)) entries = after ++ (before ++ [entry]) := by
  cases cursor with
  | none =>
    rw [turned] at h
    subst h
    exact turned_of_split hsorted
  | some last =>
    -- The entry lies above the old cursor or below it; the list is cut there accordingly.
    have hlist := filter_append_of_sorted last hsorted
    rw [turned] at h
    generalize entries.filter (key · ≤ last) = low at h hlist
    generalize entries.filter (last < key ·) = high at h hlist
    subst hlist
    rcases List.append_eq_append_iff.1 h with ⟨middle, rfl, rfl⟩ | ⟨middle, rfl, hmiddle⟩
    · have hcut : middle ++ entry :: after ++ high = middle ++ entry :: (after ++ high) := by
        rw [List.append_assoc, List.cons_append]
      rw [hcut] at hsorted ⊢
      rw [turned_of_split hsorted]
      simp only [List.append_assoc]
    · cases middle with
      | nil =>
        rw [List.nil_append] at hmiddle
        subst hmiddle
        rw [List.append_nil] at hsorted ⊢
        have hsplit : turned key (some (key entry)) ([] ++ entry :: (after ++ before)) =
            after ++ before ++ ([] ++ [entry]) := turned_of_split hsorted
        rw [List.append_assoc] at hsplit
        exact hsplit
      | cons first middle =>
        rw [List.cons_append, List.cons.injEq] at hmiddle
        obtain ⟨rfl, rfl⟩ := hmiddle
        have hcut : low ++ (before ++ entry :: middle) = low ++ before ++ entry :: middle :=
          (List.append_assoc _ _ _).symm
        rw [hcut] at hsorted ⊢
        rw [turned_of_split hsorted]
        simp only [List.append_assoc]

variable {limit : ℕ}

theorem turned_next
    (hsorted : entries.Pairwise fun a b => key a < key b) (hlimit : limit ≤ entries.length) :
    turned key (next key limit entries cursor) entries =
      (turned key cursor entries).rotate limit := by
  have hlength := (turned_perm key cursor entries).length_eq
  rw [List.rotate_eq_drop_append_take (by omega), next, window]
  rcases List.eq_nil_or_concat ((turned key cursor entries).take limit) with
    hnil | ⟨front, last, hlast⟩
  · have hdrop := List.take_append_drop limit (turned key cursor entries)
    rw [hnil, List.nil_append] at hdrop
    rw [hnil, List.append_nil, hdrop, List.getLast?_nil]
  · rw [hlast, List.concat_eq_append, List.getLast?_append, List.getLast?_singleton, Option.some_or]
    have htake := List.take_append_drop limit (turned key cursor entries)
    rw [hlast, List.concat_eq_append, List.append_assoc, List.singleton_append] at htake
    exact turned_of_eq hsorted htake.symm

theorem turned_iterate (cursor : Option α) (count : ℕ)
    (hsorted : entries.Pairwise fun a b => key a < key b) (hlimit : limit ≤ entries.length) :
    turned key ((next key limit entries)^[count] cursor) entries =
      (turned key cursor entries).rotate (count * limit) := by
  induction count with
  | zero => rw [Nat.zero_mul, List.rotate_zero, Function.iterate_zero, id]
  | succ count ih =>
    rw [Function.iterate_succ_apply', turned_next hsorted hlimit, ih, List.rotate_rotate,
      Nat.add_mul, Nat.one_mul]

theorem nodup_window (hsorted : entries.Pairwise fun a b => key a < key b) :
    ((window key limit cursor entries).map key).Nodup := by
  have hkeys : (entries.map key).Nodup := List.pairwise_map.2 (hsorted.imp ne_of_lt)
  have hturned := ((turned_perm key cursor entries).map key).nodup_iff.2 hkeys
  exact hturned.sublist ((List.take_sublist _ _).map key)

theorem mem_of_mem_window (h : entry ∈ window key limit cursor entries) : entry ∈ entries :=
  (turned_perm key cursor entries).mem_iff.1 (List.mem_of_mem_take h)

theorem exists_mem_window {rounds : ℕ} (cursor : Option α)
    (hsorted : entries.Pairwise fun a b => key a < key b) (hrounds : 0 < rounds)
    (hlength : entries.length ≤ rounds * limit) (hentry : entry ∈ entries) :
    ∃ round < rounds,
      entry ∈ window key limit ((next key limit entries)^[round] cursor) entries := by
  have hperm := turned_perm key cursor entries
  by_cases hlimit : limit ≤ entries.length
  · obtain ⟨index, hindex, rfl⟩ := List.getElem_of_mem (hperm.mem_iff.2 hentry)
    have hpositive : 0 < limit := by
      rcases Nat.eq_zero_or_pos limit with rfl | h
      · rw [hperm.length_eq] at hindex
        omega
      · exact h
    have hround : index / limit * limit ≤ index := Nat.div_mul_le_self index limit
    refine ⟨index / limit, ?_, ?_⟩
    · rw [Nat.div_lt_iff_lt_mul hpositive]
      rw [hperm.length_eq] at hindex
      omega
    · have hoffset : index - index / limit * limit < limit := by
        have := Nat.lt_div_mul_add (a := index) hpositive
        omega
      rw [window, turned_iterate _ _ hsorted hlimit,
        List.rotate_eq_drop_append_take (hround.trans hindex.le), List.mem_take_iff_getElem]
      refine ⟨index - index / limit * limit, ?_, ?_⟩
      · rw [List.length_append, List.length_drop, List.length_take]
        omega
      · rw [List.getElem_append_left (by rw [List.length_drop]; omega), List.getElem_drop]
        congr 1
        omega
  · refine ⟨0, hrounds, ?_⟩
    rw [window, Function.iterate_zero, id, List.take_of_length_le (by rw [hperm.length_eq]; omega)]
    exact hperm.mem_iff.2 hentry

end Runnel.Rotation
