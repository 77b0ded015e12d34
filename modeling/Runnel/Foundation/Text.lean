import Runnel.Foundation.Machine

/-!
# Identifiers written as text

Numbers written in a base of at most sixteen determine the number, and a text
with a separator behind which it does not occur again determines its two parts.
-/

namespace Runnel

theorem digitChar_inj : ∀ a < 16, ∀ b < 16, Nat.digitChar a = Nat.digitChar b → a = b := by
  decide

theorem mem_toDigits {base n : ℕ} (hbase : 1 < base) {c : Char} (h : c ∈ Nat.toDigits base n) :
    ∃ digit < base, c = Nat.digitChar digit := by
  induction n using Nat.strongRecOn with
  | ind n ih =>
    rw [Nat.toDigits_eq_if hbase] at h
    split_ifs at h with hlt
    · exact ⟨n, hlt, List.mem_singleton.1 h⟩
    · rcases List.mem_append.1 h with hmem | hmem
      · exact ih (n / base) (Nat.div_lt_self (by omega) hbase) hmem
      · exact ⟨n % base, Nat.mod_lt n (by omega), List.mem_singleton.1 hmem⟩

theorem toDigits_injective {base : ℕ} (hbase : 1 < base) (hsmall : base ≤ 16) :
    Function.Injective (Nat.toDigits base) := by
  intro n m
  induction n using Nat.strongRecOn generalizing m with
  | ind n ih =>
    intro heq
    have hlength : ∀ k, base ≤ k → 2 ≤ (Nat.toDigits base k).length := by
      intro k hk
      have hpos := List.length_pos_iff.2 (Nat.toDigits_ne_nil (n := k / base) (b := base))
      rw [Nat.toDigits_of_base_le hbase hk, List.length_append, List.length_singleton]
      omega
    by_cases hn : n < base <;> by_cases hm : m < base
    · rw [Nat.toDigits_of_lt_base hn, Nat.toDigits_of_lt_base hm, List.singleton_inj] at heq
      exact digitChar_inj n (by omega) m (by omega) heq
    · have hlong := hlength m (by omega)
      rw [← heq, Nat.toDigits_of_lt_base hn, List.length_singleton] at hlong
      omega
    · have hlong := hlength n (by omega)
      rw [heq, Nat.toDigits_of_lt_base hm, List.length_singleton] at hlong
      omega
    · rw [Nat.toDigits_of_base_le hbase (Nat.le_of_not_lt hn),
        Nat.toDigits_of_base_le hbase (Nat.le_of_not_lt hm)] at heq
      obtain ⟨hhigh, hlow⟩ := List.append_inj' heq rfl
      have hdiv : n / base = m / base := ih _ (Nat.div_lt_self (by omega) hbase) hhigh
      have hmod : n % base = m % base :=
        digitChar_inj _ ((Nat.mod_lt n (by omega)).trans_le hsmall) _
          ((Nat.mod_lt m (by omega)).trans_le hsmall) (List.singleton_inj.1 hlow)
      rw [← Nat.div_add_mod n base, ← Nat.div_add_mod m base, hdiv, hmod]

theorem hex_injective : Function.Injective hex := by
  intro n m h
  exact toDigits_injective (by decide) (le_refl 16) (String.ofList_injective h)

theorem notMem_toDigits {base : ℕ} {c : Char} (hbase : 1 < base)
    (hc : ∀ digit < base, c ≠ Nat.digitChar digit) (n : ℕ) : c ∉ Nat.toDigits base n := by
  intro hmem
  obtain ⟨digit, hlt, heq⟩ := mem_toDigits hbase hmem
  exact hc digit hlt heq

theorem dash_notMem_hex (n : ℕ) : '-' ∉ (hex n).toList := by
  rw [hex, String.toList_ofList]
  exact notMem_toDigits (by decide) (by decide) n

theorem append_separator_inj {α : Type*} {c : α} {a a' b b' : List α} (hb : c ∉ b) (hb' : c ∉ b')
    (h : a ++ c :: b = a' ++ c :: b') : a = a' ∧ b = b' := by
  rcases List.append_eq_append_iff.1 h with ⟨more, rfl, heq⟩ | ⟨more, rfl, heq⟩
  · cases more with
    | nil => simpa using heq
    | cons head rest =>
      obtain ⟨rfl, rfl⟩ := List.cons.inj heq
      simp at hb
  · cases more with
    | nil => simpa using heq.symm
    | cons head rest =>
      obtain ⟨rfl, rfl⟩ := List.cons.inj heq
      simp at hb'

theorem append_singleton_inj {c : Char} {a b s t : String} (hs : c ∉ s.toList)
    (ht : c ∉ t.toList) (h : a ++ String.singleton c ++ s = b ++ String.singleton c ++ t) :
    a = b ∧ s = t := by
  have hlists := congrArg String.toList h
  simp only [String.toList_append, String.toList_singleton, List.append_assoc] at hlists
  obtain ⟨hfront, hback⟩ := append_separator_inj hs ht hlists
  exact ⟨String.toList_inj.1 hfront, String.toList_inj.1 hback⟩

theorem append_dash_inj {a b s t : String} (hs : '-' ∉ s.toList) (ht : '-' ∉ t.toList)
    (h : a ++ "-" ++ s = b ++ "-" ++ t) : a = b ∧ s = t :=
  append_singleton_inj hs ht h

theorem append_toString_inj {c : Char} {a b : String} {n m : ℕ}
    (hc : ∀ digit < 10, c ≠ Nat.digitChar digit)
    (h : a ++ String.singleton c ++ toString n = b ++ String.singleton c ++ toString m) :
    a = b ∧ n = m := by
  have hnot : ∀ k : ℕ, c ∉ (toString k).toList := by
    intro k
    rw [Nat.toString_eq_ofList_toDigits, String.toList_ofList]
    exact notMem_toDigits (by decide) hc k
  obtain ⟨hfront, hback⟩ := append_singleton_inj (hnot n) (hnot m) h
  rw [Nat.toString_eq_ofList_toDigits, Nat.toString_eq_ofList_toDigits] at hback
  exact ⟨hfront, toDigits_injective (by decide) (by decide) (String.ofList_injective hback)⟩

theorem utf8ByteSize_ofList_le (cs : List Char) :
    (String.ofList cs).utf8ByteSize ≤ 4 * cs.length := by
  induction cs with
  | nil => simp
  | cons c cs ih =>
    have hchar := c.utf8Size_le_four
    rw [String.ofList_cons, String.utf8ByteSize_append, String.utf8ByteSize_singleton,
      List.length_cons]
    omega

theorem utf8ByteSize_hex16_le (n : UInt64) : (hex16 n.toNat).utf8ByteSize ≤ 64 := by
  have hdigits : (Nat.toDigits 16 n.toNat).length ≤ 16 :=
    (Nat.length_toDigits_le_iff (by decide) (by decide)).2 n.toNat_lt
  refine (utf8ByteSize_ofList_le _).trans ?_
  rw [List.length_append, List.length_replicate]
  omega

end Runnel
