import Mathlib.Data.Countable.Basic
import Mathlib.Logic.Equiv.List
import Runnel.Foundation.Bytes
import Runnel.Foundation.Machine

/-!
# Codecs

An encoding into bytes that is read back. The text of the bytes belongs to a
serialization library; what a proof may use of it is that values round-trip and,
where it matters, how an encoding starts.
-/

namespace Runnel

structure Codec (α : Type) where
  encode : α → Bytes
  decode : Bytes → Except String α
  decode_encode : ∀ a, decode (encode a) = .ok a

instance instCountableByte : Countable UInt8 :=
  Function.Injective.countable (f := UInt8.toNat) fun _ _ h => UInt8.toNat_inj.1 h

instance instCountableText : Countable String := utf8_injective.countable

instance {κ ν : Type} [Ord κ] [Std.TransOrd κ] [Countable κ] [Countable ν] :
    Countable (BTreeMap κ ν) :=
  Function.Injective.countable (f := Std.ExtTreeMap.toList) fun _ _ h =>
    Std.ExtTreeMap.toList_inj.1 h

instance {κ : Type} [Ord κ] [Std.TransOrd κ] [Countable κ] : Countable (BTreeSet κ) :=
  Function.Injective.countable (f := Std.ExtTreeSet.toList) fun _ _ h =>
    Std.ExtTreeSet.toList_inj.1 h

/-- The listed values are numbered first, the others behind them. -/
theorem exists_numbering (α : Type) [Countable α] (first : List α) :
    ∃ number : α → ℕ, Function.Injective number ∧ ∀ a ∈ first, number a < first.length := by
  classical
  obtain ⟨other, hother⟩ := exists_injective_nat α
  refine ⟨fun a => if a ∈ first then first.idxOf a else first.length + other a, ?_, ?_⟩
  · intro a b h
    have hlt : ∀ {c : α}, c ∈ first → first.idxOf c < first.length := List.idxOf_lt_length_of_mem
    by_cases ha : a ∈ first <;> by_cases hb : b ∈ first <;>
      simp only [ha, hb, if_true, if_false] at h
    · exact (List.idxOf_inj ha).1 h
    · have := hlt ha
      omega
    · have := hlt hb
      omega
    · exact hother (Nat.add_left_cancel h)
  · intro a ha
    simp only [ha, if_true]
    exact List.idxOf_lt_length_of_mem ha

/-- A countable type has a codec whose encodings all start with the given bytes, and in which the
listed values are short. -/
theorem exists_codec (α : Type) [Countable α] (start : Bytes) (short : List α) :
    ∃ codec : Codec α, (∀ a, start <+: codec.encode a) ∧
      ∀ a ∈ short, (codec.encode a).length ≤ start.length + short.length := by
  classical
  obtain ⟨number, hnumber, hfirst⟩ := exists_numbering α short
  let encode : α → Bytes := fun a => start ++ List.replicate (number a) 0
  have hinjective : Function.Injective encode := by
    intro a b h
    have hlen := congrArg List.length (List.append_cancel_left h)
    rw [List.length_replicate, List.length_replicate] at hlen
    exact hnumber hlen
  refine ⟨{ encode := encode
            decode := fun bytes =>
              if h : ∃ a, encode a = bytes then .ok h.choose else .error "malformed"
            decode_encode := ?_ }, fun a => List.prefix_append _ _, fun a ha => ?_⟩
  · intro a
    have hsome : ∃ b, encode b = encode a := ⟨a, rfl⟩
    rw [dif_pos hsome, hinjective hsome.choose_spec]
  · have := hfirst a ha
    simp only [encode, List.length_append, List.length_replicate]
    omega

end Runnel
