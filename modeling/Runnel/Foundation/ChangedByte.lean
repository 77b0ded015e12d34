import Runnel.Foundation.Bytes

/-!
# A changed byte

What one changed byte does to the parts of a byte string, to the numbers in it, and
to a checksum that can be told from its value before any byte and from the byte.
-/

namespace Runnel.Bytes

variable {bytes : Bytes} {position start len : ℕ} {old new : UInt8}

theorem getElem?_slice (bytes : Bytes) (start len index : ℕ) :
    (slice bytes start len)[index]? = if index < len then bytes[start + index]? else none := by
  rw [slice, List.getElem?_take, List.getElem?_drop]

theorem slice_set_outside (h : position < start ∨ start + len ≤ position) :
    slice (bytes.set position new) start len = slice bytes start len := by
  apply List.ext_getElem?
  intro index
  rw [getElem?_slice, getElem?_slice]
  split_ifs with hindex
  · rw [List.getElem?_set_ne (by omega)]
  · rfl

theorem slice_set_inside (h : start ≤ position) :
    slice (bytes.set position new) start len =
      (slice bytes start len).set (position - start) new := by
  apply List.ext_getElem?
  intro index
  rw [getElem?_slice, List.getElem?_set, List.getElem?_set, getElem?_slice, length_slice]
  split_ifs <;> first | rfl | omega

theorem getElem?_slice_inside (hold : bytes[position]? = some old) (h : start ≤ position)
    (h' : position < start + len) : (slice bytes start len)[position - start]? = some old := by
  rw [getElem?_slice, if_pos (by omega), Nat.add_sub_cancel' h, hold]

theorem ofLe_set_ne (hold : bytes[position]? = some old) (hne : old ≠ new) :
    ofLe (bytes.set position new) ≠ ofLe bytes := by
  induction bytes generalizing position with
  | nil => simp at hold
  | cons byte rest ih =>
    have hlt := byte.toNat_lt
    have hlt' := new.toNat_lt
    cases position with
    | zero =>
      obtain rfl : byte = old := by simpa using hold
      intro heq
      rw [List.set_cons_zero, ofLe, ofLe] at heq
      exact hne (UInt8.toNat_inj.1 (by omega))
    | succ position =>
      intro heq
      rw [List.set_cons_succ, ofLe, ofLe] at heq
      exact ih (by simpa using hold) (by omega)

theorem ofLe_slice_set_ne (hold : bytes[position]? = some old) (hne : old ≠ new)
    (h : start ≤ position) (h' : position < start + len) :
    ofLe (slice (bytes.set position new) start len) ≠ ofLe (slice bytes start len) := by
  rw [slice_set_inside h]
  exact ofLe_set_ne (getElem?_slice_inside hold h h') hne

section Fold

variable {σ : Type*} {step : σ → UInt8 → σ}

theorem foldl_injective (hstate : ∀ byte, Function.Injective (step · byte)) (bytes : Bytes) :
    Function.Injective fun s => bytes.foldl step s := by
  induction bytes with
  | nil => exact fun _ _ h => h
  | cons byte rest ih => exact fun _ _ h => hstate byte (ih h)

theorem foldl_set_ne (hstate : ∀ byte, Function.Injective (step · byte))
    (hbyte : ∀ s, Function.Injective (step s)) (hold : bytes[position]? = some old)
    (hne : old ≠ new) (s : σ) : (bytes.set position new).foldl step s ≠ bytes.foldl step s := by
  induction bytes generalizing position s with
  | nil => simp at hold
  | cons byte rest ih =>
    cases position with
    | zero =>
      obtain rfl : byte = old := by simpa using hold
      intro heq
      exact hne (hbyte s (foldl_injective hstate rest heq)).symm
    | succ position => exact ih (by simpa using hold) _

end Fold

end Runnel.Bytes
