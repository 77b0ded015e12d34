import Mathlib.Tactic

/-!
# Byte strings

Fixed-width little-endian numbers, slices at fixed positions, and text as UTF-8.
Writers concatenate fields and readers take slices; the lemmas here let a reader
recover each field from the widths of the ones before it.
-/

namespace Runnel

abbrev Bytes := List UInt8

namespace Bytes

/-- The number in `width` bytes, the least significant first. -/
def le : ℕ → ℕ → Bytes
  | 0, _ => []
  | width + 1, value => UInt8.ofNat value :: le width (value / 256)

/-- The number that little-endian bytes stand for. -/
def ofLe : Bytes → ℕ
  | [] => 0
  | byte :: rest => byte.toNat + 256 * ofLe rest

@[simp] theorem length_le (width value : ℕ) : (le width value).length = width := by
  induction width generalizing value with
  | zero => rfl
  | succ width ih => simp [le, ih]

theorem ofLe_le (width value : ℕ) : ofLe (le width value) = value % 256 ^ width := by
  induction width generalizing value with
  | zero => simp [le, ofLe, Nat.mod_one]
  | succ width ih =>
    rw [le, ofLe, ih, pow_succ', Nat.mod_mul]
    simp

theorem ofLe_le_of_lt {width value : ℕ} (h : value < 256 ^ width) :
    ofLe (le width value) = value := by
  rw [ofLe_le, Nat.mod_eq_of_lt h]

theorem ofLe_lt (bytes : Bytes) : ofLe bytes < 256 ^ bytes.length := by
  induction bytes with
  | nil => simp [ofLe]
  | cons byte rest ih =>
    have hbyte := byte.toNat_lt
    rw [ofLe, List.length_cons, pow_succ']
    omega

theorem le_ofLe (bytes : Bytes) : le bytes.length (ofLe bytes) = bytes := by
  induction bytes with
  | nil => rfl
  | cons byte rest ih =>
    have hbyte := byte.toNat_lt
    have hdiv : (byte.toNat + 256 * ofLe rest) / 256 = ofLe rest := by omega
    have hmod : UInt8.ofNat (byte.toNat + 256 * ofLe rest) = byte := by
      apply UInt8.toNat_inj.1
      rw [UInt8.toNat_ofNat']
      omega
    rw [List.length_cons, ofLe, le, hdiv, hmod, ih]

def slice (bytes : Bytes) (start len : ℕ) : Bytes := (bytes.drop start).take len

theorem slice_eq {bytes a b c : Bytes} {start len : ℕ} (h : bytes = a ++ b ++ c)
    (ha : a.length = start) (hb : b.length = len) : slice bytes start len = b := by
  subst h ha hb
  simp [slice]

theorem length_slice (bytes : Bytes) (start len : ℕ) :
    (slice bytes start len).length = min len (bytes.length - start) := by
  simp [slice]

theorem slice_add (bytes : Bytes) (start m n : ℕ) :
    slice bytes start (m + n) = slice bytes start m ++ slice bytes (start + m) n := by
  rw [slice, List.take_add, slice, slice, List.drop_drop]

/-- Splits behind every separator; what is left behind the last one is a piece of its own. -/
def splitInclusive (separator : UInt8) : Bytes → List Bytes
  | [] => []
  | byte :: rest =>
    if byte = separator then [byte] :: splitInclusive separator rest
    else
      match splitInclusive separator rest with
      | [] => [[byte]]
      | piece :: pieces => (byte :: piece) :: pieces

theorem splitInclusive_append {separator : UInt8} {piece : Bytes} (h : separator ∉ piece)
    (rest : Bytes) : splitInclusive separator (piece ++ separator :: rest) =
      (piece ++ [separator]) :: splitInclusive separator rest := by
  induction piece with
  | nil => simp [splitInclusive]
  | cons byte piece ih =>
    rw [List.mem_cons, not_or] at h
    obtain ⟨hne, hpiece⟩ := h
    rw [List.cons_append, splitInclusive, if_neg (Ne.symm hne), ih hpiece]
    rfl

theorem splitInclusive_of_notMem {separator : UInt8} {piece : Bytes} (h : separator ∉ piece)
    (hpiece : piece ≠ []) : splitInclusive separator piece = [piece] := by
  induction piece with
  | nil => exact absurd rfl hpiece
  | cons byte piece ih =>
    rw [List.mem_cons, not_or] at h
    obtain ⟨hne, hrest⟩ := h
    rw [splitInclusive, if_neg (Ne.symm hne)]
    cases piece with
    | nil => rfl
    | cons next piece => rw [ih hrest (List.cons_ne_nil _ _)]

end Bytes

def utf8 (text : String) : Bytes := text.toByteArray.data.toList

def fromUtf8? (bytes : Bytes) : Option String := String.fromUTF8? ⟨bytes.toArray⟩

theorem fromUtf8?_utf8 (text : String) : fromUtf8? (utf8 text) = some text := by
  unfold fromUtf8? utf8 String.fromUTF8?
  rw [Array.toArray_toList, dif_pos text.isValidUTF8]
  rfl

theorem utf8_of_fromUtf8? {bytes : Bytes} {text : String} (h : fromUtf8? bytes = some text) :
    utf8 text = bytes := by
  unfold fromUtf8? String.fromUTF8? at h
  split_ifs at h
  obtain rfl := Option.some.inj h
  rfl

def fnv1a (bytes : Bytes) : UInt64 :=
  bytes.foldl (fun hash byte => (hash ^^^ byte.toUInt64) * 0x100000001b3) 0xcbf29ce484222325

theorem utf8_injective : Function.Injective utf8 := by
  intro a b h
  have hread := fromUtf8?_utf8 a
  rw [h, fromUtf8?_utf8] at hread
  exact (Option.some.inj hread).symm

theorem utf8_append (a b : String) : utf8 (a ++ b) = utf8 a ++ utf8 b := by
  simp [utf8, String.toByteArray_append]

theorem utf8_eq_nil_iff {text : String} : utf8 text = [] ↔ text = "" := by
  rw [utf8, Array.toList_eq_nil_iff]
  constructor
  · intro h
    exact String.toByteArray_inj.1 (ByteArray.ext h)
  · rintro rfl
    rfl

end Runnel
