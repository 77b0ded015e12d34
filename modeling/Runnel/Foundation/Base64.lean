import Runnel.Foundation.Json

/-!
# Base64

The standard alphabet with padding: four letters for every three bytes, and for
what is left at the end.
-/

namespace Runnel.Base64

def letters : List Char :=
  "ABCDEFGHIJKLMNOPQRSTUVWXYZabcdefghijklmnopqrstuvwxyz0123456789+/".toList

def letter (sextet : ℕ) : Char := (letters[sextet]?).getD '='

def encodeChars : Bytes → List Char
  | [] => []
  | [a] => [letter (a.toNat / 4), letter (a.toNat % 4 * 16), '=', '=']
  | [a, b] =>
    [letter (a.toNat / 4), letter (a.toNat % 4 * 16 + b.toNat / 16), letter (b.toNat % 16 * 4), '=']
  | a :: b :: c :: rest =>
    letter (a.toNat / 4) :: letter (a.toNat % 4 * 16 + b.toNat / 16) ::
      letter (b.toNat % 16 * 4 + c.toNat / 64) :: letter (c.toNat % 64) :: encodeChars rest

def encode (bytes : Bytes) : String := String.ofList (encodeChars bytes)

example : encode (utf8 "runnel") = "cnVubmVs" ∧ encode [0xff] = "/w==" := by decide +kernel

theorem length_encodeChars (bytes : Bytes) :
    (encodeChars bytes).length = 4 * ((bytes.length + 2) / 3) := by
  induction bytes using encodeChars.induct with
  | case1 => rfl
  | case2 a => simp [encodeChars]
  | case3 a b => simp [encodeChars]
  | case4 a b c rest ih =>
    simp only [encodeChars, List.length_cons, ih]
    omega

theorem letter_mem (sextet : ℕ) : letter sextet ∈ '=' :: letters := by
  unfold letter
  cases h : letters[sextet]? with
  | none => exact List.mem_cons_self
  | some c => exact List.mem_cons_of_mem _ (List.mem_of_getElem? h)

theorem mem_of_mem_encodeChars {bytes : Bytes} {c : Char} (h : c ∈ encodeChars bytes) :
    c ∈ '=' :: letters := by
  have hpad : '=' ∈ '=' :: letters := List.mem_cons_self
  induction bytes using encodeChars.induct with
  | case1 => cases h
  | case2 a =>
    simp only [encodeChars, List.mem_cons, List.not_mem_nil, or_false] at h
    rcases h with rfl | rfl | rfl | rfl
    exacts [letter_mem _, letter_mem _, hpad, hpad]
  | case3 a b =>
    simp only [encodeChars, List.mem_cons, List.not_mem_nil, or_false] at h
    rcases h with rfl | rfl | rfl | rfl
    exacts [letter_mem _, letter_mem _, letter_mem _, hpad]
  | case4 a b d rest ih =>
    simp only [encodeChars, List.mem_cons] at h
    rcases h with rfl | rfl | rfl | rfl | h
    exacts [letter_mem _, letter_mem _, letter_mem _, letter_mem _, ih h]

theorem utf8_letter {c : Char} (h : c ∈ '=' :: letters) :
    (utf8 (String.singleton c)).length = 1 ∧
      ∀ byte ∈ utf8 (String.singleton c), byte ∉ Json.special := by
  have hall : (('=' :: letters).all fun c => (utf8 (String.singleton c)).length == 1 &&
      (utf8 (String.singleton c)).all fun byte => !Json.special.contains byte) = true := by
    decide +kernel
  have hletter := List.all_eq_true.1 hall c h
  simpa using hletter

theorem utf8_encode (bytes : Bytes) :
    (utf8 (encode bytes)).length = 4 * ((bytes.length + 2) / 3) ∧
      ∀ byte ∈ utf8 (encode bytes), byte ∉ Json.special := by
  suffices hchars : ∀ cs : List Char, (∀ c ∈ cs, c ∈ '=' :: letters) →
      (utf8 (String.ofList cs)).length = cs.length ∧
        ∀ byte ∈ utf8 (String.ofList cs), byte ∉ Json.special by
    rw [← length_encodeChars]
    exact hchars _ fun _ => mem_of_mem_encodeChars
  intro cs hcs
  induction cs with
  | nil => exact ⟨rfl, by simp [utf8]⟩
  | cons c cs ih =>
    obtain ⟨hlength, hplain⟩ := ih fun other hmem => hcs other (List.mem_cons_of_mem _ hmem)
    obtain ⟨hone, hspecial⟩ := utf8_letter (hcs c List.mem_cons_self)
    rw [String.ofList_cons, utf8_append, List.length_append, List.length_cons]
    refine ⟨by omega, fun byte hmem => ?_⟩
    rcases List.mem_append.1 hmem with hmem | hmem
    · exact hspecial byte hmem
    · exact hplain byte hmem

end Runnel.Base64
