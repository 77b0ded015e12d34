import Runnel.Foundation.Bytes
import Runnel.Foundation.Text

/-!
# Compact JSON

The text a serializer writes for a value: no blanks, fields in the order they are
given, control characters, quotes and backslashes escaped.
-/

namespace Runnel

inductive Json where
  | null
  | bool (value : Bool)
  | number (value : ℕ)
  | text (value : String)
  | array (items : List Json)
  | object (fields : List (String × Json))

namespace Json

def escape (byte : UInt8) : Bytes :=
  if byte = 0x22 then [0x5c, 0x22]
  else if byte = 0x5c then [0x5c, 0x5c]
  else if byte = 0x08 then [0x5c, 0x62]
  else if byte = 0x09 then [0x5c, 0x74]
  else if byte = 0x0a then [0x5c, 0x6e]
  else if byte = 0x0c then [0x5c, 0x66]
  else if byte = 0x0d then [0x5c, 0x72]
  else if byte < 0x20 then
    [0x5c, 0x75, 0x30, 0x30, if byte < 0x10 then 0x30 else 0x31,
      if byte % 0x10 < 0x0a then 0x30 + byte % 0x10 else 0x57 + byte % 0x10]
  else [byte]

def quote (text : String) : Bytes := 0x22 :: ((utf8 text).flatMap escape ++ [0x22])

def decimal (n : ℕ) : Bytes := (Nat.toDigits 10 n).map fun digit => UInt8.ofNat digit.toNat

mutual

def render : Json → Bytes
  | .null => utf8 "null"
  | .bool true => utf8 "true"
  | .bool false => utf8 "false"
  | .number n => decimal n
  | .text value => quote value
  | .array [] => [0x5b, 0x5d]
  | .array (item :: items) => 0x5b :: (render item ++ renderItems items)
  | .object [] => [0x7b, 0x7d]
  | .object ((name, value) :: fields) =>
    0x7b :: (quote name ++ 0x3a :: (render value ++ renderFields fields))

def renderItems : List Json → Bytes
  | [] => [0x5d]
  | item :: items => 0x2c :: (render item ++ renderItems items)

def renderFields : List (String × Json) → Bytes
  | [] => [0x7d]
  | (name, value) :: fields =>
    0x2c :: (quote name ++ 0x3a :: (render value ++ renderFields fields))

end

def IsDigit (byte : UInt8) : Prop := 0x30 ≤ byte ∧ byte ≤ 0x39

instance : DecidablePred IsDigit := fun byte =>
  inferInstanceAs (Decidable (0x30 ≤ byte ∧ byte ≤ 0x39))

variable {n : ℕ} {byte : UInt8}

theorem isDigit_of_mem_decimal (h : byte ∈ decimal n) : IsDigit byte := by
  obtain ⟨c, hc, rfl⟩ := List.mem_map.1 h
  obtain ⟨digit, hlt, rfl⟩ := mem_toDigits (by decide) hc
  have hall : ∀ digit < 10, IsDigit (UInt8.ofNat (Nat.digitChar digit).toNat) := by decide
  exact hall digit hlt

theorem decimal_ne_nil (n : ℕ) : decimal n ≠ [] := by
  intro h
  exact Nat.toDigits_ne_nil (List.map_eq_nil_iff.1 h)

theorem decimal_injective : Function.Injective decimal := by
  have hread : ∀ n, (decimal n).map (fun byte => Char.ofNat byte.toNat) = Nat.toDigits 10 n := by
    intro n
    rw [decimal, List.map_map, List.map_congr_left, List.map_id]
    intro c hc
    obtain ⟨digit, hlt, rfl⟩ := mem_toDigits (by decide) hc
    have hall : ∀ digit < 10, Char.ofNat (UInt8.ofNat (Nat.digitChar digit).toNat).toNat =
        Nat.digitChar digit := by decide
    exact hall digit hlt
  intro n m h
  apply @toDigits_injective 10 (by decide) (by decide)
  rw [← hread n, h, hread m]

/-- What stands behind a number is not one of its digits. -/
def Stops : Bytes → Prop
  | [] => True
  | byte :: _ => ¬ IsDigit byte

variable {rest rest' : Bytes}

theorem decimal_unique {m : ℕ} (hrest : Stops rest) (hrest' : Stops rest')
    (h : decimal n ++ rest = decimal m ++ rest') : n = m ∧ rest = rest' := by
  -- the shorter of two numbers would be followed by a digit of the longer one
  have hcut : ∀ n m more tail, decimal n = decimal m ++ more → Stops (more ++ tail) →
      more = [] := by
    intro n m more tail heq hstops
    cases more with
    | nil => rfl
    | cons byte more =>
      refine absurd (isDigit_of_mem_decimal (n := n) ?_) hstops
      rw [heq]
      simp
  rcases List.append_eq_append_iff.1 h with ⟨more, hm, hrest''⟩ | ⟨more, hn, hrest''⟩
  · obtain rfl := hcut m n more rest' hm (hrest'' ▸ hrest)
    rw [List.append_nil] at hm
    exact ⟨decimal_injective hm.symm, hrest''⟩
  · obtain rfl := hcut n m more rest hn (hrest'' ▸ hrest')
    rw [List.append_nil] at hn
    exact ⟨decimal_injective hn, hrest''.symm⟩

def special : Bytes := (List.range 0x20).map UInt8.ofNat ++ [0x22, 0x5c]

theorem escape_of_notMem (h : byte ∉ special) : escape byte = [byte] := by
  have hquote : byte ≠ 0x22 := by
    rintro rfl
    exact h (by decide)
  have hbackslash : byte ≠ 0x5c := by
    rintro rfl
    exact h (by decide)
  have hcontrol : ¬ byte < 0x20 := by
    intro hlt
    apply h
    simp only [special, List.mem_append, List.mem_map, List.mem_range]
    exact Or.inl ⟨byte.toNat, UInt8.lt_iff_toNat_lt.1 hlt, by simp⟩
  have hne : ∀ other : UInt8, other < 0x20 → byte ≠ other := by
    rintro other hlt rfl
    exact hcontrol hlt
  simp [escape, hquote, hbackslash, hcontrol, hne]

theorem head_escape : ∀ byte ∈ special, ∃ rest, escape byte = 0x5c :: rest := by
  have hhead : ∀ byte ∈ special, (escape byte).head? = some 0x5c := by decide +kernel
  intro byte hmem
  obtain ⟨rest, hrest⟩ := List.head?_eq_some_iff.1 (hhead byte hmem)
  exact ⟨rest, hrest⟩

theorem eq_of_escape_isPrefix {a b : UInt8} (h : escape a <+: escape b) : a = b := by
  have hboth : ∀ a ∈ special, ∀ b ∈ special, escape a <+: escape b → a = b := by decide +kernel
  by_cases ha : a ∈ special <;> by_cases hb : b ∈ special
  · exact hboth a ha b hb h
  · obtain ⟨rest, hrest⟩ := head_escape a ha
    rw [hrest, escape_of_notMem hb, List.cons_prefix_cons] at h
    exact absurd (by decide) (h.1 ▸ hb)
  · obtain ⟨rest, hrest⟩ := head_escape b hb
    rw [hrest, escape_of_notMem ha, List.cons_prefix_cons] at h
    exact absurd (by decide) (h.1 ▸ ha)
  · rw [escape_of_notMem ha, escape_of_notMem hb, List.cons_prefix_cons] at h
    exact h.1

theorem escape_unique {a b : UInt8}
    (h : escape a ++ rest = escape b ++ rest') : a = b ∧ rest = rest' := by
  have hsame : a = b := by
    rcases List.append_eq_append_iff.1 h with ⟨more, hb, -⟩ | ⟨more, ha, -⟩
    · exact eq_of_escape_isPrefix (hb ▸ List.prefix_append _ _)
    · exact (eq_of_escape_isPrefix (ha ▸ List.prefix_append _ _)).symm
  subst hsame
  exact ⟨rfl, List.append_cancel_left h⟩

theorem quote_ne_escape (byte : UInt8) (rest rest' : Bytes) :
    0x22 :: rest ≠ escape byte ++ rest' := by
  intro h
  by_cases hspecial : byte ∈ special
  · obtain ⟨more, hmore⟩ := head_escape byte hspecial
    rw [hmore, List.cons_append] at h
    exact absurd (List.cons.inj h).1 (by decide)
  · rw [escape_of_notMem hspecial] at h
    obtain ⟨rfl, -⟩ := List.cons.inj h
    exact hspecial (by decide)

theorem flatMap_escape_unique {a b : Bytes}
    (h : a.flatMap escape ++ 0x22 :: rest = b.flatMap escape ++ 0x22 :: rest') :
    a = b ∧ rest = rest' := by
  induction a generalizing b with
  | nil =>
    cases b with
    | nil => exact ⟨rfl, (List.cons.inj h).2⟩
    | cons y b =>
      rw [List.flatMap_cons, List.append_assoc] at h
      exact absurd h (quote_ne_escape y _ _)
  | cons x a ih =>
    cases b with
    | nil =>
      rw [List.flatMap_cons, List.append_assoc] at h
      exact absurd h.symm (quote_ne_escape x _ _)
    | cons y b =>
      rw [List.flatMap_cons, List.flatMap_cons, List.append_assoc, List.append_assoc] at h
      obtain ⟨rfl, htail⟩ := escape_unique h
      obtain ⟨rfl, hrest⟩ := ih htail
      exact ⟨rfl, hrest⟩

theorem quote_unique {a b : String} (h : quote a ++ rest = quote b ++ rest') :
    a = b ∧ rest = rest' := by
  simp only [quote, List.cons_append, List.append_assoc, List.nil_append, List.cons.injEq,
    true_and] at h
  obtain ⟨htext, hrest⟩ := flatMap_escape_unique h
  exact ⟨utf8_injective htext, hrest⟩

def shape : Json → ℕ
  | .null => 0
  | .bool true => 1
  | .bool false => 2
  | .number _ => 3
  | .text _ => 4
  | .array _ => 5
  | .object _ => 6

def shapeOf (byte : UInt8) : ℕ :=
  if byte = 0x6e then 0 else if byte = 0x74 then 1 else if byte = 0x66 then 2
  else if IsDigit byte then 3 else if byte = 0x22 then 4 else if byte = 0x5b then 5
  else if byte = 0x7b then 6 else 7

theorem shapeOf_render (value : Json) :
    ∃ byte rest, render value = byte :: rest ∧ shapeOf byte = shape value := by
  match value with
  | .null => exact ⟨_, _, rfl, rfl⟩
  | .bool true => exact ⟨_, _, rfl, rfl⟩
  | .bool false => exact ⟨_, _, rfl, rfl⟩
  | .number n =>
    obtain ⟨byte, rest, hrest⟩ := List.exists_cons_of_ne_nil (decimal_ne_nil n)
    have hdigit : IsDigit byte := isDigit_of_mem_decimal (n := n) (by simp [hrest])
    have hne : ∀ other : UInt8, ¬ IsDigit other → byte ≠ other := by
      rintro other hother rfl
      exact hother hdigit
    refine ⟨byte, rest, by rw [render, hrest], ?_⟩
    rw [shapeOf, if_neg (hne _ (by decide)), if_neg (hne _ (by decide)),
      if_neg (hne _ (by decide)), if_pos hdigit, shape]
  | .text _ => exact ⟨_, _, rfl, rfl⟩
  | .array [] => exact ⟨_, _, rfl, rfl⟩
  | .array (_ :: _) => exact ⟨_, _, rfl, rfl⟩
  | .object [] => exact ⟨_, _, rfl, rfl⟩
  | .object (_ :: _) => exact ⟨_, _, rfl, rfl⟩

theorem shape_eq {a b : Json} (h : render a ++ rest = render b ++ rest') :
    shape a = shape b := by
  obtain ⟨x, more, hx, hshape⟩ := shapeOf_render a
  obtain ⟨y, more', hy, hshape'⟩ := shapeOf_render b
  rw [hx, hy, List.cons_append, List.cons_append] at h
  rw [← hshape, ← hshape', (List.cons.inj h).1]

theorem ne_render (hbyte : shapeOf byte = 7) (rest rest' : Bytes) (value : Json) :
    byte :: rest ≠ render value ++ rest' := by
  intro h
  obtain ⟨first, more, hfirst, hshape⟩ := shapeOf_render value
  rw [hfirst, List.cons_append] at h
  rw [← (List.cons.inj h).1, hbyte] at hshape
  match value with
  | .null | .bool true | .bool false | .number _ | .text _ | .array _ | .object _ => cases hshape

theorem stops_renderItems (items : List Json) (rest : Bytes) :
    Stops (renderItems items ++ rest) := by
  cases items <;> exact of_decide_eq_false rfl

theorem stops_renderFields (fields : List (String × Json)) (rest : Bytes) :
    Stops (renderFields fields ++ rest) := by
  cases fields <;> exact of_decide_eq_false rfl

mutual

/-- Two texts with something behind them; only behind a number it matters what that is. -/
theorem render_unique (a b : Json) (rest rest' : Bytes)
    (hstops : shape a = 3 → Stops rest ∧ Stops rest')
    (h : render a ++ rest = render b ++ rest') : a = b ∧ rest = rest' := by
  have hshape := shape_eq h
  match a, b with
  | .null, .null => exact ⟨rfl, List.append_cancel_left h⟩
  | .bool true, .bool true => exact ⟨rfl, List.append_cancel_left h⟩
  | .bool false, .bool false => exact ⟨rfl, List.append_cancel_left h⟩
  | .number n, .number m =>
    obtain ⟨rfl, hrest⟩ := decimal_unique (hstops rfl).1 (hstops rfl).2 h
    exact ⟨rfl, hrest⟩
  | .text value, .text value' =>
    obtain ⟨rfl, hrest⟩ := quote_unique h
    exact ⟨rfl, hrest⟩
  | .array [], .array [] => exact ⟨rfl, List.append_cancel_left h⟩
  | .array [], .array (item :: items) =>
    simp only [render, List.cons_append, List.append_assoc, List.nil_append, List.cons.injEq,
      true_and] at h
    exact absurd h (ne_render rfl _ _ _)
  | .array (item :: items), .array [] =>
    simp only [render, List.cons_append, List.append_assoc, List.nil_append, List.cons.injEq,
      true_and] at h
    exact absurd h.symm (ne_render rfl _ _ _)
  | .array (item :: items), .array (item' :: items') =>
    simp only [render, List.cons_append, List.append_assoc, List.cons.injEq, true_and] at h
    obtain ⟨rfl, htail⟩ := render_unique item item' _ _
      (fun _ => ⟨stops_renderItems _ _, stops_renderItems _ _⟩) h
    obtain ⟨rfl, hrest⟩ := renderItems_unique items items' rest rest' htail
    exact ⟨rfl, hrest⟩
  | .object [], .object [] => exact ⟨rfl, List.append_cancel_left h⟩
  | .object [], .object ((name, value) :: fields) =>
    simp only [render, quote, List.cons_append, List.nil_append, List.cons.injEq,
      true_and] at h
    exact absurd h.1 (by decide)
  | .object ((name, value) :: fields), .object [] =>
    simp only [render, quote, List.cons_append, List.nil_append, List.cons.injEq,
      true_and] at h
    exact absurd h.1 (by decide)
  | .object ((name, value) :: fields), .object ((name', value') :: fields') =>
    simp only [render, List.cons_append, List.append_assoc, List.cons.injEq, true_and] at h
    obtain ⟨rfl, hvalue⟩ := quote_unique h
    obtain ⟨rfl, htail⟩ := render_unique value value' _ _
      (fun _ => ⟨stops_renderFields _ _, stops_renderFields _ _⟩) (List.cons.inj hvalue).2
    obtain ⟨rfl, hrest⟩ := renderFields_unique fields fields' rest rest' htail
    exact ⟨rfl, hrest⟩

theorem renderItems_unique (items items' : List Json) (rest rest' : Bytes)
    (h : renderItems items ++ rest = renderItems items' ++ rest') :
    items = items' ∧ rest = rest' := by
  match items, items' with
  | [], [] => exact ⟨rfl, List.append_cancel_left h⟩
  | [], _ :: _ => exact absurd (List.cons.inj h).1 (by decide)
  | _ :: _, [] => exact absurd (List.cons.inj h).1 (by decide)
  | item :: items, item' :: items' =>
    simp only [renderItems, List.cons_append, List.append_assoc, List.cons.injEq, true_and] at h
    obtain ⟨rfl, htail⟩ := render_unique item item' _ _
      (fun _ => ⟨stops_renderItems _ _, stops_renderItems _ _⟩) h
    obtain ⟨rfl, hrest⟩ := renderItems_unique items items' rest rest' htail
    exact ⟨rfl, hrest⟩

theorem renderFields_unique (fields fields' : List (String × Json)) (rest rest' : Bytes)
    (h : renderFields fields ++ rest = renderFields fields' ++ rest') :
    fields = fields' ∧ rest = rest' := by
  match fields, fields' with
  | [], [] => exact ⟨rfl, List.append_cancel_left h⟩
  | [], _ :: _ => exact absurd (List.cons.inj h).1 (by decide)
  | _ :: _, [] => exact absurd (List.cons.inj h).1 (by decide)
  | (name, value) :: fields, (name', value') :: fields' =>
    simp only [renderFields, List.cons_append, List.append_assoc, List.cons.injEq, true_and] at h
    obtain ⟨rfl, hvalue⟩ := quote_unique h
    obtain ⟨rfl, htail⟩ := render_unique value value' _ _
      (fun _ => ⟨stops_renderFields _ _, stops_renderFields _ _⟩) (List.cons.inj hvalue).2
    obtain ⟨rfl, hrest⟩ := renderFields_unique fields fields' rest rest' htail
    exact ⟨rfl, hrest⟩

end

theorem render_injective : Function.Injective render := by
  intro a b h
  have happend : render a ++ [] = render b ++ [] := by rw [h]
  exact (render_unique a b [] [] (fun _ => ⟨trivial, trivial⟩) happend).1

theorem render_object_unique {fields : List (String × Json)} {value : Json}
    (h : render value ++ rest = render (.object fields)) : value = .object fields ∧ rest = [] := by
  have happend : render (.object fields) ++ [] = render value ++ rest := by
    rw [h, List.append_nil]
  obtain ⟨rfl, hrest⟩ := render_unique (.object fields) value [] rest (by simp [shape]) happend
  exact ⟨rfl, hrest.symm⟩

theorem newline_notMem_escape (byte : UInt8) : 0x0a ∉ escape byte := by
  by_cases hspecial : byte ∈ special
  · have hall : ∀ byte ∈ special, 0x0a ∉ escape byte := by decide +kernel
    exact hall byte hspecial
  · rw [escape_of_notMem hspecial, List.mem_singleton]
    rintro rfl
    exact hspecial (by decide)

theorem newline_notMem_quote (text : String) : 0x0a ∉ quote text := by
  simp only [quote, List.mem_cons, List.mem_append, List.mem_flatMap, List.not_mem_nil, or_false,
    not_or, not_exists, not_and]
  exact ⟨by decide, fun byte _ => newline_notMem_escape byte, by decide⟩

mutual

theorem newline_notMem_render (value : Json) : 0x0a ∉ render value := by
  match value with
  | .null => decide
  | .bool true => decide
  | .bool false => decide
  | .number n =>
    intro hmem
    exact absurd (isDigit_of_mem_decimal hmem) (by decide)
  | .text value => exact newline_notMem_quote value
  | .array [] => decide
  | .array (item :: items) =>
    simp only [render, List.mem_cons, List.mem_append, not_or]
    exact ⟨by decide, newline_notMem_render item, newline_notMem_renderItems items⟩
  | .object [] => decide
  | .object ((name, value) :: fields) =>
    simp only [render, List.mem_cons, List.mem_append, not_or]
    exact ⟨by decide, newline_notMem_quote name, by decide, newline_notMem_render value,
      newline_notMem_renderFields fields⟩

theorem newline_notMem_renderItems (items : List Json) : 0x0a ∉ renderItems items := by
  match items with
  | [] => decide
  | item :: items =>
    simp only [renderItems, List.mem_cons, List.mem_append, not_or]
    exact ⟨by decide, newline_notMem_render item, newline_notMem_renderItems items⟩

theorem newline_notMem_renderFields (fields : List (String × Json)) :
    0x0a ∉ renderFields fields := by
  match fields with
  | [] => decide
  | (name, value) :: fields =>
    simp only [renderFields, List.mem_cons, List.mem_append, not_or]
    exact ⟨by decide, newline_notMem_quote name, by decide, newline_notMem_render value,
      newline_notMem_renderFields fields⟩

end

theorem length_quote_of_plain {text : String} (h : ∀ byte ∈ utf8 text, byte ∉ special) :
    (quote text).length = (utf8 text).length + 2 := by
  have hplain : ∀ bytes : Bytes, (∀ byte ∈ bytes, byte ∉ special) →
      bytes.flatMap escape = bytes := by
    intro bytes hbytes
    induction bytes with
    | nil => rfl
    | cons byte bytes ih =>
      rw [List.flatMap_cons, escape_of_notMem (hbytes byte List.mem_cons_self),
        ih fun other hmem => hbytes other (List.mem_cons_of_mem _ hmem)]
      rfl
  rw [quote, hplain _ h, List.length_cons, List.length_append, List.length_singleton]

theorem length_decimal_le {k : ℕ} (hk : 0 < k) (h : n < 10 ^ k) : (decimal n).length ≤ k := by
  rw [decimal, List.length_map]
  exact Nat.toDigits_length 10 n k hk h

theorem length_renderItems (items : List Json) :
    (renderItems items).length = (items.map fun item => (render item).length + 1).sum + 1 := by
  induction items with
  | nil =>
    rw [renderItems]
    rfl
  | cons item items ih =>
    rw [renderItems, List.length_cons, List.length_append, ih, List.map_cons, List.sum_cons]
    omega

theorem length_array_le (items : List Json) : (render (.array items)).length ≤
      (items.map fun item => (render item).length + 1).sum + 2 := by
  cases items with
  | nil =>
    rw [render]
    simp
  | cons item items =>
    rw [render, List.length_cons, List.length_append, length_renderItems, List.map_cons,
      List.sum_cons]
    omega

end Json

end Runnel
