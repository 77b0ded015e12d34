import Runnel.Foundation.Bytes

/-!
# Protobuf messages

Messages as lists of numbered fields, written the standard way: a key, then a
base-128 number or a length and that many bytes.
-/

namespace Runnel.Protobuf

/-- A base-128 number, seven bits a byte and the least significant first; the fuel bounds the
bytes. -/
def varintFrom : ℕ → ℕ → Bytes
  | 0, value => [UInt8.ofNat value]
  | fuel + 1, value =>
    if 0x80 ≤ value then UInt8.ofNat (value % 128 + 128) :: varintFrom fuel (value / 128)
    else [UInt8.ofNat value]

def varint (value : ℕ) : Bytes := varintFrom value value

inductive Value where
  | varint (value : ℕ)
  | bytes (value : Bytes)
deriving DecidableEq, Repr

structure Field where
  number : ℕ
  value : Value
deriving DecidableEq, Repr

def Value.wireType : Value → ℕ
  | .varint _ => 0
  | .bytes _ => 2

def Value.encode : Value → Bytes
  | .varint value => Protobuf.varint value
  | .bytes value => Protobuf.varint value.length ++ value

def Field.encode (field : Field) : Bytes :=
  varint (field.number * 8 + field.value.wireType) ++ field.value.encode

def encode (fields : List Field) : Bytes := fields.flatMap Field.encode

/-- A field without presence: the empty value is not written. -/
def implicitBytes (number : ℕ) (value : Bytes) : List Field :=
  if value = [] then [] else [⟨number, .bytes value⟩]

def implicitString (number : ℕ) (value : String) : List Field := implicitBytes number (utf8 value)

def implicitUint (number value : ℕ) : List Field :=
  if value = 0 then [] else [⟨number, .varint value⟩]

def implicitBool (number : ℕ) (value : Bool) : List Field := implicitUint number value.toNat

def optionalString (number : ℕ) : Option String → List Field
  | some value => [⟨number, .bytes (utf8 value)⟩]
  | none => []

def optionalUint (number : ℕ) : Option ℕ → List Field
  | some value => [⟨number, .varint value⟩]
  | none => []

def embedded (number : ℕ) (fields : List Field) : List Field := [⟨number, .bytes (encode fields)⟩]

def varintLen (value : ℕ) : ℕ := (varint value).length

/-- The length of a field that starts with a key of one byte and the length of its value. -/
def delimitedLen (valueLen : ℕ) : ℕ := 1 + varintLen valueLen + valueLen

theorem varintLen_of_lt {value : ℕ} (h : value < 0x80) : varintLen value = 1 := by
  rw [varintLen, varint]
  cases value with
  | zero => rfl
  | succ fuel => rw [varintFrom, if_neg (Nat.not_le.2 h), List.length_singleton]

theorem varintFrom_eq {value fuel : ℕ} (h : value ≤ fuel) :
    varintFrom fuel value = varint value := by
  induction value using Nat.strong_induction_on generalizing fuel with
  | _ value ih =>
    cases fuel with
    | zero =>
      obtain rfl : value = 0 := by omega
      rfl
    | succ fuel =>
      cases value with
      | zero => rfl
      | succ rest =>
        rw [varint, varintFrom, varintFrom]
        split_ifs
        · rw [ih _ (by omega) (show (rest + 1) / 128 ≤ fuel by omega),
            ih _ (by omega) (show (rest + 1) / 128 ≤ rest by omega)]
        · rfl

theorem varintLen_of_le {value : ℕ} (h : 0x80 ≤ value) :
    varintLen value = varintLen (value / 128) + 1 := by
  cases value with
  | zero => omega
  | succ fuel =>
    rw [varintLen, varint, varintFrom, if_pos h, List.length_cons,
      varintFrom_eq (by omega), varintLen]

theorem varintLen_mono {a b : ℕ} (h : a ≤ b) : varintLen a ≤ varintLen b := by
  induction b using Nat.strong_induction_on generalizing a with
  | _ b ih =>
    by_cases hb : b < 0x80
    · rw [varintLen_of_lt hb, varintLen_of_lt (h.trans_lt hb)]
    · rw [varintLen_of_le (Nat.not_lt.1 hb)]
      by_cases ha : a < 0x80
      · rw [varintLen_of_lt ha]
        exact Nat.le_add_left _ _
      · rw [varintLen_of_le (Nat.not_lt.1 ha)]
        exact Nat.succ_le_succ (ih _ (by omega) (Nat.div_le_div_right h))

theorem delimitedLen_mono {a b : ℕ} (h : a ≤ b) : delimitedLen a ≤ delimitedLen b := by
  have hlen := varintLen_mono h
  unfold delimitedLen
  omega

theorem length_key {number : ℕ} (hnumber : number ≤ 15) (value : Value) :
    (varint (number * 8 + value.wireType)).length = 1 := by
  apply varintLen_of_lt
  cases value with
  | varint => simp only [Value.wireType]; omega
  | bytes => simp only [Value.wireType]; omega

theorem length_encode_append (first second : List Field) :
    (encode (first ++ second)).length = (encode first).length + (encode second).length := by
  rw [encode, List.flatMap_append, List.length_append, ← encode, ← encode]

section Fields

variable {number : ℕ} (hnumber : number ≤ 15)

include hnumber

theorem length_encode_bytes (value : Bytes) :
    (encode [⟨number, .bytes value⟩]).length = delimitedLen value.length := by
  rw [encode, List.flatMap_singleton, Field.encode, List.length_append,
    length_key hnumber, Value.encode, List.length_append, ← varintLen, delimitedLen,
    Nat.add_assoc]

theorem length_encode_varint (value : ℕ) :
    (encode [⟨number, .varint value⟩]).length = 1 + varintLen value := by
  rw [encode, List.flatMap_singleton, Field.encode, List.length_append,
    length_key hnumber, Value.encode, ← varintLen]

theorem length_embedded (fields : List Field) :
    (encode (embedded number fields)).length = delimitedLen (encode fields).length :=
  length_encode_bytes hnumber _

theorem length_implicitBytes (value : Bytes) :
    (encode (implicitBytes number value)).length =
      if value = [] then 0 else delimitedLen value.length := by
  unfold implicitBytes
  split_ifs
  · rfl
  · exact length_encode_bytes hnumber value

theorem length_implicitUint (value : ℕ) :
    (encode (implicitUint number value)).length = if value = 0 then 0 else 1 + varintLen value := by
  unfold implicitUint
  split_ifs
  · rfl
  · exact length_encode_varint hnumber value

theorem length_optionalString (value : Option String) :
    (encode (optionalString number value)).length =
      value.elim 0 fun value => delimitedLen (utf8 value).length := by
  cases value with
  | none => rfl
  | some value => exact length_encode_bytes hnumber _

theorem length_optionalUint (value : Option ℕ) :
    (encode (optionalUint number value)).length =
      value.elim 0 fun value => 1 + varintLen value := by
  cases value with
  | none => rfl
  | some value => exact length_encode_varint hnumber value

end Fields

example : encode (implicitString 2 "testing") =
    [0x12, 7, 0x74, 0x65, 0x73, 0x74, 0x69, 0x6e, 0x67] := by
  decide

end Runnel.Protobuf
