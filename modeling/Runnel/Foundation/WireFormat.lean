import Runnel.Foundation.Bytes

/-!
# Protobuf bytes that readers accept

Which byte strings are numbers, fields and messages. Numbers may be longer than
they need to be, up to ten bytes, and fields may come in any order and more than
once, so that a message has more than one encoding; but a byte string is at most
one message.
-/

namespace Runnel.WireFormat

/-- Seven bits a byte, the least significant first; only the last byte has its high bit clear. -/
inductive Digits : Bytes → ℕ → Prop
  | last {byte : UInt8} : byte.toNat < 128 → Digits [byte] byte.toNat
  | more {byte : UInt8} {bytes : Bytes} {value : ℕ} : 128 ≤ byte.toNat → Digits bytes value →
    Digits (byte :: bytes) (byte.toNat - 128 + 128 * value)

/-- A number of at most 64 bits in at most ten bytes. -/
structure IsVarint (bytes : Bytes) (value : ℕ) : Prop where
  digits : Digits bytes value
  length : bytes.length ≤ 10
  lt : value < 2 ^ 64

inductive RawValue where
  | varint (value : ℕ)
  | fixed64 (bytes : Bytes)
  | delimited (bytes : Bytes)
  | fixed32 (bytes : Bytes)
deriving DecidableEq, Repr

def RawValue.wireType : RawValue → ℕ
  | .varint _ => 0
  | .fixed64 _ => 1
  | .delimited _ => 2
  | .fixed32 _ => 5

inductive IsValue : Bytes → RawValue → Prop
  | varint {bytes value} : IsVarint bytes value → IsValue bytes (.varint value)
  | fixed64 {bytes} : bytes.length = 8 → IsValue bytes (.fixed64 bytes)
  | delimited {length bytes} : IsVarint length bytes.length →
    IsValue (length ++ bytes) (.delimited bytes)
  | fixed32 {bytes} : bytes.length = 4 → IsValue bytes (.fixed32 bytes)

structure RawField where
  number : ℕ
  value : RawValue
deriving DecidableEq, Repr

def maxFieldNumber : ℕ := 0x1fffffff

inductive IsField : Bytes → RawField → Prop
  | intro {key payload field} : 1 ≤ field.number → field.number ≤ maxFieldNumber →
    IsVarint key (field.number * 8 + field.value.wireType) → IsValue payload field.value →
    IsField (key ++ payload) field

inductive IsMessage : Bytes → List RawField → Prop
  | nil : IsMessage [] []
  | cons {bytes field rest fields} : IsField bytes field → IsMessage rest fields →
    IsMessage (bytes ++ rest) (field :: fields)

theorem Digits.ne_nil {bytes : Bytes} {value : ℕ} (h : Digits bytes value) : bytes ≠ [] := by
  cases h <;> exact List.cons_ne_nil _ _

theorem Digits.unique {a b c d : Bytes} {x y : ℕ} (h : Digits a x) (h' : Digits b y)
    (heq : a ++ c = b ++ d) : a = b ∧ x = y ∧ c = d := by
  induction h generalizing b y with
  | @last byte hbyte =>
    cases h' with
    | last _ =>
      obtain ⟨rfl, rfl⟩ := List.cons.inj heq
      exact ⟨rfl, rfl, rfl⟩
    | more hmore _ =>
      obtain ⟨rfl, -⟩ := List.cons.inj heq
      exact absurd hbyte (not_lt.2 hmore)
  | @more byte bytes value hbyte _ ih =>
    cases h' with
    | last hlast =>
      obtain ⟨rfl, -⟩ := List.cons.inj heq
      exact absurd hlast (not_lt.2 hbyte)
    | more _ hrest =>
      obtain ⟨rfl, htail⟩ := List.cons.inj heq
      obtain ⟨rfl, rfl, rfl⟩ := ih hrest htail
      exact ⟨rfl, rfl, rfl⟩

theorem IsVarint.unique {a b c d : Bytes} {x y : ℕ} (h : IsVarint a x) (h' : IsVarint b y)
    (heq : a ++ c = b ++ d) : a = b ∧ x = y ∧ c = d := h.digits.unique h'.digits heq

theorem IsValue.unique {a b c d : Bytes} {x y : RawValue} (h : IsValue a x) (h' : IsValue b y)
    (htype : x.wireType = y.wireType) (heq : a ++ c = b ++ d) : a = b ∧ x = y ∧ c = d := by
  cases h with
  | varint hx =>
    cases h' with
    | varint hy =>
      obtain ⟨rfl, rfl, rfl⟩ := hx.unique hy heq
      exact ⟨rfl, rfl, rfl⟩
    | fixed64 => cases htype
    | delimited => cases htype
    | fixed32 => cases htype
  | fixed64 hx =>
    cases h' with
    | fixed64 hy =>
      obtain ⟨rfl, rfl⟩ := List.append_inj heq (hx.trans hy.symm)
      exact ⟨rfl, rfl, rfl⟩
    | varint => cases htype
    | delimited => cases htype
    | fixed32 => cases htype
  | delimited hx =>
    cases h' with
    | delimited hy =>
      rw [List.append_assoc, List.append_assoc] at heq
      obtain ⟨rfl, hlength, hrest⟩ := hx.unique hy heq
      obtain ⟨rfl, rfl⟩ := List.append_inj hrest hlength
      exact ⟨rfl, rfl, rfl⟩
    | varint => cases htype
    | fixed64 => cases htype
    | fixed32 => cases htype
  | fixed32 hx =>
    cases h' with
    | fixed32 hy =>
      obtain ⟨rfl, rfl⟩ := List.append_inj heq (hx.trans hy.symm)
      exact ⟨rfl, rfl, rfl⟩
    | varint => cases htype
    | fixed64 => cases htype
    | delimited => cases htype

theorem RawValue.wireType_lt (value : RawValue) : value.wireType < 8 := by
  cases value <;> simp [wireType]

theorem IsField.unique {a b c d : Bytes} {x y : RawField} (h : IsField a x) (h' : IsField b y)
    (heq : a ++ c = b ++ d) : x = y ∧ c = d := by
  obtain ⟨-, -, hkey, hvalue⟩ := h
  obtain ⟨-, -, hkey', hvalue'⟩ := h'
  rw [List.append_assoc, List.append_assoc] at heq
  obtain ⟨-, hkeys, hrest⟩ := hkey.unique hkey' heq
  have hx := x.value.wireType_lt
  have hy := y.value.wireType_lt
  obtain ⟨-, hvalues, hend⟩ := hvalue.unique hvalue' (by omega) hrest
  have hnumbers : x.number = y.number := by omega
  obtain ⟨number, value⟩ := x
  obtain ⟨number', value'⟩ := y
  obtain rfl : number = number' := hnumbers
  obtain rfl : value = value' := hvalues
  exact ⟨rfl, hend⟩

theorem IsField.ne_nil {bytes : Bytes} {field : RawField} (h : IsField bytes field) :
    bytes ≠ [] := by
  obtain ⟨-, -, hkey, -⟩ := h
  exact List.append_ne_nil_of_left_ne_nil hkey.digits.ne_nil _

theorem IsMessage.unique {bytes : Bytes} {fields others : List RawField}
    (h : IsMessage bytes fields) (h' : IsMessage bytes others) : fields = others := by
  induction h generalizing others with
  | nil =>
    generalize hbytes : ([] : Bytes) = bytes at h'
    cases h' with
    | nil => rfl
    | cons hother _ => exact absurd (List.append_eq_nil_iff.1 hbytes.symm).1 hother.ne_nil
  | @cons first field rest fields hfield _ ih =>
    generalize hbytes : first ++ rest = bytes at h'
    cases h' with
    | nil => exact absurd (List.append_eq_nil_iff.1 hbytes).1 hfield.ne_nil
    | cons hother hothers =>
      obtain ⟨rfl, rfl⟩ := hfield.unique hother hbytes
      rw [ih hothers]

end Runnel.WireFormat
