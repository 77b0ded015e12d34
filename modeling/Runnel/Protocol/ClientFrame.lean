import Runnel.Foundation.Fallible
import Runnel.Foundation.WireFormat
import Runnel.Protocol.Reply

/-!
# Frames from clients

Before the protobuf decoder sees a frame, a scanner of the server's own walks over
its fields to tell what kind of frame it is, so that a frame that carries a token
can be held to a smaller size.
-/

namespace Runnel.Protocol

open Runnel.Engine WireFormat

def authMaxBodyBytes : ℕ := 1024

inductive ClientFrameKind where
  | bearerAuth
  | application
  | missing
deriving DecidableEq, Repr

/-- Reads the digits of a number; there are as many rounds as shifts are left. -/
def readVarintFrom (body : Bytes) : ℕ → ℕ → ℕ → ℕ → Except V2ProtocolError (ℕ × ℕ)
  | 0, _, _, _ => .error .invalidFrame
  | rounds + 1, shift, cursor, value =>
    match body[cursor]? with
    | none => .error .invalidFrame
    | some byte =>
      if shift = 63 ∧ 1 < byte.toNat then .error .invalidFrame
      else
        let value := value ||| ((byte &&& 0x7f).toNat <<< shift)
        if byte &&& 0x80 = 0 then .ok (value, cursor + 1)
        else readVarintFrom body rounds (shift + 7) (cursor + 1) value

/-- The number at the cursor, and the cursor behind it. -/
def readVarint (body : Bytes) (cursor : ℕ) : Except V2ProtocolError (ℕ × ℕ) :=
  readVarintFrom body 10 0 cursor 0

/-- The cursor behind a value that is not length-delimited. -/
def skipScalar (body : Bytes) (cursor wireType : ℕ) : Except V2ProtocolError ℕ :=
  match wireType with
  | 0 => (readVarint body cursor).map Prod.snd
  | 1 => if u64Max < cursor + 8 then .error .invalidFrame else .ok (cursor + 8)
  | 5 => if u64Max < cursor + 4 then .error .invalidFrame else .ok (cursor + 4)
  | _ => .error .invalidFrame

/-- The cursor behind a length-delimited value, which stays in a machine word and in the body. -/
def skipDelimited (body : Bytes) (cursor : ℕ) : Except V2ProtocolError ℕ :=
  match readVarint body cursor with
  | .error error => .error error
  | .ok (length, cursor) =>
    if u64Max < cursor + length ∨ body.length < cursor + length then .error .invalidFrame
    else .ok (cursor + length)

/-- One field: the cursor behind it, and the kind of frame as it is known then. -/
def scanField (body : Bytes) (cursor : ℕ) (kind : ClientFrameKind) :
    Except V2ProtocolError (ℕ × ClientFrameKind) :=
  match readVarint body cursor with
  | .error error => .error error
  | .ok (key, cursor) =>
    let fieldNumber := key >>> 3
    let wireType := key &&& 0x07
    if fieldNumber = 0 ∨ 0x1fffffff < fieldNumber then .error .invalidFrame
    else if wireType = 2 then
      match skipDelimited body cursor with
      | .error error => .error error
      | .ok stop =>
        .ok (stop, if fieldNumber = 1 then .bearerAuth
          else if fieldNumber = 2 then .application else kind)
    else
      match skipScalar body cursor wireType with
      | .error error => .error error
      | .ok cursor => if body.length < cursor then .error .invalidFrame else .ok (cursor, kind)

/-- The loop over the fields; nothing if the fuel does not last. -/
def scanFields (body : Bytes) : ℕ → ℕ → ClientFrameKind →
    Option (Except V2ProtocolError ClientFrameKind)
  | 0, cursor, kind => if cursor < body.length then none else some (.ok kind)
  | fuel + 1, cursor, kind =>
    if cursor < body.length then
      match scanField body cursor kind with
      | .error error => some (.error error)
      | .ok (cursor, kind) => scanFields body fuel cursor kind
    else some (.ok kind)

def clientFrameKind? (fuel : ℕ) (body : Bytes) : Option (Except V2ProtocolError ClientFrameKind) :=
  if body.isEmpty then some (.error .frameTooLarge) else scanFields body fuel 0 .missing

/-- Every field takes a byte at least, so the length of the body is fuel enough. -/
def clientFrameKind (body : Bytes) : Except V2ProtocolError ClientFrameKind :=
  (clientFrameKind? body.length body).getD (.error .invalidFrame)

/-- The body of a decoded frame; the operation of a request may be missing. -/
inductive WireClientBody (Operation : Type) where
  | bearerAuth (token : String)
  | application (operation : Option Operation)

inductive ClientFrame (Request : Type) where
  | bearerAuth (token : String)
  | application (request : Request)

def decodeMessage {Message : Type} (decode : Bytes → Option Message) (body : Bytes)
    (maxBytes : ℕ) : Except V2ProtocolError Message :=
  if body.isEmpty ∨ maxBytes < body.length ∨ u32Max < body.length then .error .frameTooLarge
  else
    match decode body with
    | some frame => .ok frame
    | none => .error .invalidFrame

section Decoding

variable {Operation Request : Type} (decode : Bytes → Option (Option (WireClientBody Operation)))
  (requestFromWire : Operation → Except V2ProtocolError Request)

def decodeClientFrame (body : Bytes) (maxBytes : ℕ) :
    Except V2ProtocolError (ClientFrame Request) := do
  if (← clientFrameKind body) = .bearerAuth ∧ authMaxBodyBytes < body.length then
    throw .frameTooLarge
  match ← decodeMessage decode body maxBytes with
  | none => throw .missingMessage
  | some (.bearerAuth token) => return .bearerAuth token
  | some (.application none) => throw .missingOperation
  | some (.application (some operation)) => return .application (← requestFromWire operation)

end Decoding

/-- The kind of frame that a field makes it, if it is one of the two bodies. -/
def fieldKind : RawField → Option ClientFrameKind
  | ⟨1, .delimited _⟩ => some .bearerAuth
  | ⟨2, .delimited _⟩ => some .application
  | _ => none

def lastKind (fields : List RawField) : ClientFrameKind :=
  (fields.filterMap fieldKind).getLast?.getD .missing

theorem toNat_low (byte : UInt8) : (byte &&& 0x7f).toNat = byte.toNat % 128 := by
  rw [UInt8.toNat_and]
  exact Nat.and_two_pow_sub_one_eq_mod byte.toNat 7

theorem high_eq_zero_iff (byte : UInt8) : byte &&& 0x80 = 0 ↔ byte.toNat < 128 := by
  have hall : ∀ n : Fin 256, n.val &&& 128 = 0 ↔ n.val < 128 := by decide +kernel
  rw [← UInt8.toNat_inj, UInt8.toNat_and]
  exact hall ⟨byte.toNat, byte.toNat_lt⟩

variable {value : ℕ}

theorem or_shiftLeft {shift : ℕ} (h : value < 2 ^ shift) (digit : ℕ) :
    value ||| (digit <<< shift) = value + 2 ^ shift * digit := by
  rw [Nat.or_comm, Nat.shiftLeft_eq, Nat.mul_comm, ← Nat.two_pow_add_eq_or_of_lt h, Nat.add_comm]

variable {body : Bytes} {cursor next : ℕ}

theorem readVarintFrom_sound {rounds shift result : ℕ}
    (hshift : shift + 7 * rounds = 70) (hvalue : value < 2 ^ shift)
    (h : readVarintFrom body rounds shift cursor value = .ok (result, next)) :
    ∃ bytes digits, body.drop cursor = bytes ++ body.drop next ∧ next = cursor + bytes.length ∧
      Digits bytes digits ∧ bytes.length ≤ rounds ∧ result = value + 2 ^ shift * digits ∧
      result < 2 ^ 64 := by
  induction rounds generalizing shift cursor value with
  | zero => cases h
  | succ rounds ih =>
    rw [readVarintFrom] at h
    cases hget : body[cursor]? with
    | none => simp [hget] at h
    | some byte =>
      have hdrop : body.drop cursor = byte :: body.drop (cursor + 1) := by
        obtain ⟨hlt, hbyte⟩ := List.getElem?_eq_some_iff.1 hget
        rw [List.drop_eq_getElem_cons hlt, hbyte]
      have hpow : 2 ^ (shift + 7) = 2 ^ shift * 128 := by rw [Nat.pow_add]
      simp only [hget, toNat_low, high_eq_zero_iff, or_shiftLeft hvalue] at h
      split_ifs at h with hover hlast
      · obtain ⟨rfl, rfl⟩ := Prod.mk.inj (Except.ok.inj h)
        rw [Nat.mod_eq_of_lt hlast]
        refine ⟨[byte], byte.toNat, hdrop, rfl, .last hlast, Nat.succ_le_succ (Nat.zero_le _), rfl,
          ?_⟩
        by_cases htop : shift = 63
        · -- Only one bit of the tenth byte is left.
          have hbit : byte.toNat ≤ 1 := Nat.not_lt.1 fun hcontra => hover ⟨htop, hcontra⟩
          rw [htop] at hvalue ⊢
          omega
        · have hle : 2 ^ (shift + 7) ≤ 2 ^ 63 := Nat.pow_le_pow_right (by decide) (by omega)
          have hdigit : 2 ^ shift * byte.toNat ≤ 2 ^ shift * 127 :=
            Nat.mul_le_mul_left _ (Nat.le_of_lt_succ hlast)
          omega
      · have hdigit : 2 ^ shift * (byte.toNat % 128) ≤ 2 ^ shift * 127 :=
          Nat.mul_le_mul_left _ (Nat.le_of_lt_succ (Nat.mod_lt _ (by decide)))
        obtain ⟨bytes, digits, hrest, hnext, hdigits, hlength, hresult, hlt⟩ :=
          ih (by omega) (by omega) h
        have hmod : byte.toNat % 128 = byte.toNat - 128 := by
          have := byte.toNat_lt
          omega
        refine ⟨byte :: bytes, _, ?_, ?_, .more (Nat.not_lt.1 hlast) hdigits,
          Nat.succ_le_succ hlength, ?_, hlt⟩
        · rw [hdrop, hrest, List.cons_append]
        · rw [hnext, List.length_cons]
          omega
        · rw [hresult, hmod, hpow, Nat.mul_add, Nat.mul_assoc, Nat.add_assoc]

theorem readVarint_sound (h : readVarint body cursor = .ok (value, next)) :
    ∃ bytes, body.drop cursor = bytes ++ body.drop next ∧ next = cursor + bytes.length ∧
      IsVarint bytes value := by
  obtain ⟨bytes, digits, hdrop, hnext, hdigits, hlength, hvalue, hlt⟩ :=
    readVarintFrom_sound (by decide) (by decide) h
  rw [Nat.pow_zero, Nat.one_mul, Nat.zero_add] at hvalue
  subst hvalue
  exact ⟨bytes, hdrop, hnext, hdigits, hlength, hlt⟩

theorem fieldKind_delimited (number : ℕ) (bytes : Bytes) (kind : ClientFrameKind) :
    (fieldKind ⟨number, .delimited bytes⟩).getD kind =
      if number = 1 then .bearerAuth else if number = 2 then .application else kind := by
  match number with
  | 0 => rfl
  | 1 => rfl
  | 2 => rfl
  | number + 3 => rfl

/-- A value behind the cursor, and the cursor behind the value. -/
def Passes (body : Bytes) (cursor next : ℕ) (value : RawValue) : Prop :=
  ∃ bytes, body.drop cursor = bytes ++ body.drop next ∧ next = cursor + bytes.length ∧
    IsValue bytes value

theorem passes_fixed {width : ℕ} (h : cursor + width ≤ body.length) :
    body.drop cursor = Bytes.slice body cursor width ++ body.drop (cursor + width) ∧
      (Bytes.slice body cursor width).length = width := by
  constructor
  · rw [Bytes.slice, ← List.drop_drop, List.take_append_drop]
  · rw [Bytes.length_slice]
    omega

theorem skipDelimited_sound (h : skipDelimited body cursor = .ok next) :
    ∃ bytes, Passes body cursor next (.delimited bytes) ∧ next ≤ body.length := by
  unfold skipDelimited at h
  cases hread : readVarint body cursor with
  | error error => simp [hread] at h
  | ok read =>
    obtain ⟨length, start⟩ := read
    obtain ⟨prefix_, hdrop, hstart, hvarint⟩ := readVarint_sound hread
    simp only [hread] at h
    split_ifs at h with hover
    obtain rfl := Except.ok.inj h
    rw [not_or, Nat.not_lt, Nat.not_lt] at hover
    obtain ⟨hbytes, hlength⟩ := passes_fixed hover.2
    refine ⟨Bytes.slice body start length, ⟨prefix_ ++ Bytes.slice body start length, ?_, ?_, ?_⟩,
      hover.2⟩
    · rw [hdrop, hbytes, List.append_assoc]
    · rw [List.length_append, hlength, hstart, Nat.add_assoc]
    · apply IsValue.delimited
      rw [hlength]
      exact hvarint

theorem skipScalar_sound {wireType : ℕ}
    (h : skipScalar body cursor wireType = .ok next) (hnext : next ≤ body.length) :
    ∃ value, Passes body cursor next value ∧ value.wireType = wireType ∧
      ∀ number, fieldKind ⟨number, value⟩ = none := by
  unfold skipScalar at h
  split at h
  · cases hread : readVarint body cursor with
    | error error => simp [hread, Except.map] at h
    | ok read =>
      obtain ⟨value, stop⟩ := read
      obtain ⟨bytes, hdrop, hstop, hvarint⟩ := readVarint_sound hread
      rw [hread] at h
      obtain rfl : stop = next := Except.ok.inj h
      exact ⟨.varint value, ⟨bytes, hdrop, hstop, .varint hvarint⟩, rfl, by simp [fieldKind]⟩
  · split_ifs at h
    obtain rfl := Except.ok.inj h
    obtain ⟨hdrop, hlength⟩ := passes_fixed hnext
    exact ⟨.fixed64 _, ⟨_, hdrop, by rw [hlength], .fixed64 hlength⟩, rfl, by simp [fieldKind]⟩
  · split_ifs at h
    obtain rfl := Except.ok.inj h
    obtain ⟨hdrop, hlength⟩ := passes_fixed hnext
    exact ⟨.fixed32 _, ⟨_, hdrop, by rw [hlength], .fixed32 hlength⟩, rfl, by simp [fieldKind]⟩
  · cases h

variable {kind later : ClientFrameKind}

theorem scanField_sound (h : scanField body cursor kind = .ok (next, later)) :
    ∃ bytes field, body.drop cursor = bytes ++ body.drop next ∧ next = cursor + bytes.length ∧
      next ≤ body.length ∧ IsField bytes field ∧ later = (fieldKind field).getD kind := by
  unfold scanField at h
  cases hkey : readVarint body cursor with
  | error error => simp [hkey] at h
  | ok read =>
    obtain ⟨key, start⟩ := read
    obtain ⟨keyBytes, hkeyDrop, hstart, hvarint⟩ := readVarint_sound hkey
    have htype : key &&& 0x07 = key % 8 := Nat.and_two_pow_sub_one_eq_mod key 3
    have hkeyEq : key / 8 * 8 + key % 8 = key := Nat.div_add_mod' key 8
    simp only [hkey, htype, Nat.shiftRight_eq_div_pow, Nat.reducePow] at h
    -- Whatever the value is, the key and the value are a field.
    have hfield : ∀ {value : RawValue}, Passes body start next value →
        value.wireType = key % 8 → ¬ (key / 8 = 0 ∨ 0x1fffffff < key / 8) →
        ∃ bytes, body.drop cursor = bytes ++ body.drop next ∧ next = cursor + bytes.length ∧
          IsField bytes ⟨key / 8, value⟩ := by
      rintro value ⟨bytes, hdrop, hnext, hvalue⟩ hwire hnumber
      refine ⟨keyBytes ++ bytes, ?_, ?_, .intro ?_ ?_ ?_ hvalue⟩
      · rw [hkeyDrop, hdrop, List.append_assoc]
      · rw [hnext, hstart, List.length_append, Nat.add_assoc]
      · exact Nat.pos_of_ne_zero fun hzero => hnumber (Or.inl hzero)
      · exact Nat.not_lt.1 fun hover => hnumber (Or.inr hover)
      · simp only [hwire, hkeyEq]
        exact hvarint
    by_cases hnumber : key / 8 = 0 ∨ 0x1fffffff < key / 8
    · rw [if_pos hnumber] at h
      cases h
    rw [if_neg hnumber] at h
    by_cases hdelimited : key % 8 = 2
    · rw [if_pos hdelimited] at h
      cases hskip : skipDelimited body start with
      | error error => simp [hskip] at h
      | ok stop =>
        simp only [hskip] at h
        obtain ⟨rfl, rfl⟩ := Prod.mk.inj (Except.ok.inj h)
        obtain ⟨content, hpasses, hstop⟩ := skipDelimited_sound hskip
        obtain ⟨bytes, hdrop, hnext, hbytes⟩ := hfield hpasses hdelimited.symm hnumber
        exact ⟨bytes, _, hdrop, hnext, hstop, hbytes, (fieldKind_delimited ..).symm⟩
    · rw [if_neg hdelimited] at h
      cases hskip : skipScalar body start (key % 8) with
      | error error => simp [hskip] at h
      | ok stop =>
        simp only [hskip] at h
        split_ifs at h with hover
        obtain ⟨rfl, rfl⟩ := Prod.mk.inj (Except.ok.inj h)
        have hstop := Nat.not_lt.1 hover
        obtain ⟨value, hpasses, hwire, hkind⟩ := skipScalar_sound hskip hstop
        obtain ⟨bytes, hdrop, hnext, hbytes⟩ := hfield hpasses hwire hnumber
        exact ⟨bytes, _, hdrop, hnext, hstop, hbytes, by rw [hkind]; rfl⟩

theorem scanFields_end (fuel : ℕ) (kind : ClientFrameKind)
    (h : ¬ cursor < body.length) : scanFields body fuel cursor kind = some (.ok kind) := by
  cases fuel with
  | zero => rw [scanFields, if_neg h]
  | succ fuel => rw [scanFields, if_neg h]

theorem isMessage_end (hend : ¬ cursor < body.length) (h : kind = later) :
    ∃ fields, IsMessage (body.drop cursor) fields ∧
      later = (fields.filterMap fieldKind).getLast?.getD kind := by
  rw [List.drop_eq_nil_of_le (Nat.not_lt.1 hend)]
  exact ⟨[], .nil, h.symm⟩

variable {fuel : ℕ}

theorem scanFields_sound
    (hcursor : cursor ≤ body.length) (h : scanFields body fuel cursor kind = some (.ok later)) :
    ∃ fields, IsMessage (body.drop cursor) fields ∧
      later = (fields.filterMap fieldKind).getLast?.getD kind := by
  induction fuel generalizing cursor kind with
  | zero =>
    rw [scanFields] at h
    split_ifs at h with hmore
    exact isMessage_end hmore (Except.ok.inj (Option.some.inj h))
  | succ fuel ih =>
    rw [scanFields] at h
    split_ifs at h with hmore
    · cases hfield : scanField body cursor kind with
      | error error => simp [hfield] at h
      | ok scanned =>
        obtain ⟨next, seen⟩ := scanned
        simp only [hfield] at h
        obtain ⟨bytes, field, hdrop, -, hnext, hbytes, rfl⟩ := scanField_sound hfield
        obtain ⟨fields, hfields, rfl⟩ := ih hnext h
        refine ⟨field :: fields, ?_, ?_⟩
        · rw [hdrop]
          exact .cons hbytes hfields
        · cases hkind : fieldKind field with
          | none => rw [List.filterMap_cons_none hkind, Option.getD_none]
          | some known =>
            rw [List.filterMap_cons_some hkind, List.getLast?_cons, Option.getD_some,
              Option.getD_some]
    · exact isMessage_end hmore (Except.ok.inj (Option.some.inj h))

/-- Each field moves the cursor, so fuel for the bytes that are left is enough, and more of it
changes nothing. -/
theorem scanFields_total (body : Bytes) {more : ℕ} (kind : ClientFrameKind)
    (hfuel : body.length ≤ cursor + fuel) (hmore : fuel ≤ more) :
    ∃ result, scanFields body fuel cursor kind = some result ∧
      scanFields body more cursor kind = some result := by
  induction fuel generalizing more cursor kind with
  | zero =>
    have hend : ¬ cursor < body.length := by omega
    exact ⟨.ok kind, scanFields_end 0 kind hend, scanFields_end more kind hend⟩
  | succ fuel ih =>
    cases more with
    | zero => omega
    | succ more =>
      rw [scanFields, scanFields]
      by_cases hrest : cursor < body.length
      · rw [if_pos hrest, if_pos hrest]
        cases hfield : scanField body cursor kind with
        | error error => exact ⟨.error error, rfl, rfl⟩
        | ok scanned =>
          obtain ⟨bytes, field, -, hnext, -, hbytes, -⟩ := scanField_sound hfield
          have hpos := List.length_pos_iff.2 hbytes.ne_nil
          exact ih scanned.2 (by omega) (by omega)
      · rw [if_neg hrest, if_neg hrest]
        exact ⟨.ok kind, rfl, rfl⟩

theorem clientFrameKind_total (body : Bytes) (hfuel : body.length ≤ fuel) :
    clientFrameKind? fuel body = some (clientFrameKind body) := by
  unfold clientFrameKind clientFrameKind?
  split_ifs
  · rfl
  · obtain ⟨result, hshort, hlong⟩ :=
      scanFields_total body .missing (Nat.le_of_eq (Nat.zero_add _).symm) hfuel
    rw [hshort, hlong, Option.getD_some]

/-- A body that the scanner accepts is one message, and the kind is that of its last field that
is a body. -/
theorem clientFrameKind_sound (h : clientFrameKind body = .ok kind) :
    ∃ fields, IsMessage body fields ∧ kind = lastKind fields := by
  have hscan := clientFrameKind_total body le_rfl
  rw [h, clientFrameKind?] at hscan
  split_ifs at hscan
  · cases hscan
  · exact scanFields_sound (Nat.zero_le _) hscan

def bodyKind {Operation : Type} : Option (WireClientBody Operation) → ClientFrameKind
  | some (.bearerAuth _) => .bearerAuth
  | some (.application _) => .application
  | none => .missing

/-- A decoder for which, of several bodies in one frame, the last one wins. -/
structure Conforming {Operation : Type}
    (decode : Bytes → Option (Option (WireClientBody Operation))) :
    Prop where
  last_wins : ∀ body fields frame, IsMessage body fields → decode body = some frame →
    bodyKind frame = lastKind fields

/-- The scanner ends on every body, accepts only sequences of well-formed fields and reports the
last body among them; so no frame above the limit is decoded as one that carries a token. -/
theorem auth_limit_not_bypassed {Operation Request : Type}
    {decode : Bytes → Option (Option (WireClientBody Operation))} (hdecode : Conforming decode)
    (requestFromWire : Operation → Except V2ProtocolError Request) (body : Bytes) :
    (∀ fuel, body.length ≤ fuel → clientFrameKind? fuel body = some (clientFrameKind body)) ∧
    (∀ kind, clientFrameKind body = .ok kind →
      ∃ fields, IsMessage body fields ∧ (∀ other, IsMessage body other → other = fields) ∧
        kind = lastKind fields) ∧
    ∀ maxBytes token,
      decodeClientFrame decode requestFromWire body maxBytes = .ok (.bearerAuth token) →
      body.length ≤ authMaxBodyBytes := by
  refine ⟨fun fuel => clientFrameKind_total body, fun kind hkind => ?_, ?_⟩
  · obtain ⟨fields, hfields, hlast⟩ := clientFrameKind_sound hkind
    exact ⟨fields, hfields, fun other hother => hother.unique hfields, hlast⟩
  · intro maxBytes token h
    by_contra hover
    unfold decodeClientFrame at h
    obtain ⟨kind, hkind, hguard⟩ := except_bind_eq_ok_iff.1 h
    obtain ⟨fields, hfields, hlast⟩ := clientFrameKind_sound hkind
    by_cases hauth : kind = .bearerAuth
    · rw [if_pos ⟨hauth, Nat.not_le.1 hover⟩] at hguard
      cases hguard
    · rw [if_neg fun hcontra => hauth hcontra.1] at hguard
      obtain ⟨frame, hframe, hanswer⟩ := except_bind_eq_ok_iff.1 hguard
      -- The frame that the decoder returns is of the kind that the scanner reported.
      have hdecoded : decode body = some frame := by
        unfold decodeMessage at hframe
        split_ifs at hframe
        cases hcase : decode body with
        | none => simp [hcase] at hframe
        | some decoded =>
          rw [hcase] at hframe
          rw [Except.ok.inj hframe]
      have hwins := hdecode.last_wins body fields frame hfields hdecoded
      rw [← hlast] at hwins
      cases frame with
      | none => cases hanswer
      | some frame =>
        cases frame with
        | bearerAuth other => exact hauth hwins.symm
        | application operation =>
          cases operation with
          | none => cases hanswer
          | some operation =>
            obtain ⟨request, -, hrequest⟩ := except_bind_eq_ok_iff.1 hanswer
            cases hrequest

/-- A decoder that sees no more of a frame than the scanner does. -/
def kindOnly (body : Bytes) : Option (Option (WireClientBody Unit)) :=
  match clientFrameKind body with
  | .ok .bearerAuth => some (some (.bearerAuth ""))
  | .ok .application => some (some (.application none))
  | .ok .missing => some none
  | .error _ => none

theorem conforming_kindOnly : Conforming kindOnly := by
  refine ⟨fun body fields frame hfields hdecoded => ?_⟩
  unfold kindOnly at hdecoded
  cases hkind : clientFrameKind body with
  | error error => simp [hkind] at hdecoded
  | ok kind =>
    obtain ⟨scanned, hscanned, hlast⟩ := clientFrameKind_sound hkind
    rw [hfields.unique hscanned, ← hlast]
    rw [hkind] at hdecoded
    cases kind with
    | bearerAuth =>
      obtain rfl := Option.some.inj hdecoded
      rfl
    | application =>
      obtain rfl := Option.some.inj hdecoded
      rfl
    | missing =>
      obtain rfl := Option.some.inj hdecoded
      rfl

/-- A frame with a request and then an empty token, in a number longer than it needs to be. -/
theorem second_body_is_auth :
    ∃ fields, IsMessage [0x12, 0, 0x8a, 0, 0] fields ∧ lastKind fields = .bearerAuth := by
  have hkind : clientFrameKind [0x12, 0, 0x8a, 0, 0] = .ok .bearerAuth := by decide +kernel
  obtain ⟨-, hreported, -⟩ :=
    auth_limit_not_bypassed conforming_kindOnly (Except.ok (ε := V2ProtocolError)) _
  obtain ⟨fields, hfields, -, hlast⟩ := hreported .bearerAuth hkind
  exact ⟨fields, hfields, hlast.symm⟩

end Runnel.Protocol
