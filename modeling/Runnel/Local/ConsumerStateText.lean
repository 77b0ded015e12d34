import Runnel.Local.ConsumerJournal

/-!
# Reading consumer states back

The JSON of a state or of an event determines it, so that there is a reader with
the properties the broker relies on.
-/

namespace Runnel.Local

open Runnel.Engine

theorem optionToJson_injective {α : Type} {toJson : α → Json} (h : Function.Injective toJson)
    (hnull : ∀ a, toJson a ≠ .null) : Function.Injective (optionToJson toJson) := by
  intro a b heq
  cases a with
  | none =>
    cases b with
    | none => rfl
    | some b => exact absurd heq.symm (hnull b)
  | some a =>
    cases b with
    | none => exact absurd heq (hnull a)
    | some b => rw [h heq]

theorem number_injective : Function.Injective Json.number := fun _ _ h => Json.number.inj h

theorem text_injective : Function.Injective Json.text := fun _ _ h => Json.text.inj h

theorem toString_injective : Function.Injective (toString : ℕ → String) := by
  intro n m h
  rw [Nat.toString_eq_ofList_toDigits, Nat.toString_eq_ofList_toDigits] at h
  exact toDigits_injective (by decide) (by decide) (String.ofList_injective h)

theorem mapToJson_injective {ν : Type} {toJson : ν → Json} (h : Function.Injective toJson) :
    Function.Injective (mapToJson toJson) := by
  intro a b heq
  have hentry : Function.Injective fun entry : ℕ × ν => (toString entry.1, toJson entry.2) := by
    intro x y hxy
    obtain ⟨hoffset, hvalue⟩ := Prod.mk.inj hxy
    exact Prod.ext (toString_injective hoffset) (h hvalue)
  exact Std.ExtTreeMap.toList_inj.1 (List.map_injective_iff.2 hentry (Json.object.inj heq))

theorem policyToJson_injective : Function.Injective policyToJson := by
  intro a b h
  cases a
  cases b
  simp only [policyToJson, Json.object.injEq, List.cons.injEq, Prod.mk.injEq, Json.number.injEq,
    Json.bool.injEq, true_and, and_true] at h
  obtain ⟨rfl, rfl, rfl, hattempts, rfl⟩ := h
  rw [optionToJson_injective number_injective (by simp) hattempts]

theorem policyToJson_ne_null (policy : ConsumerPolicy) : policyToJson policy ≠ .null := by
  simp [policyToJson]

theorem RetrySchedule.toJson_injective : Function.Injective RetrySchedule.toJson := by
  intro a b h
  cases a
  cases b
  simp only [RetrySchedule.toJson, Json.object.injEq, List.cons.injEq, Prod.mk.injEq,
    Json.number.injEq, true_and, and_true] at h
  obtain ⟨rfl, hkey⟩ := h
  rw [optionToJson_injective text_injective (by simp) hkey]

theorem RetryScheduleEvent.toJson_injective : Function.Injective RetryScheduleEvent.toJson := by
  intro a b h
  cases a
  cases b
  simp only [RetryScheduleEvent.toJson, Json.object.injEq, List.cons.injEq, Prod.mk.injEq,
    Json.number.injEq, true_and, and_true] at h
  obtain ⟨rfl, rfl, hkey⟩ := h
  rw [optionToJson_injective text_injective (by simp) hkey]

theorem DeliveryAttempt.toJson_injective : Function.Injective DeliveryAttempt.toJson := by
  intro a b h
  cases a
  cases b
  simp only [DeliveryAttempt.toJson, Json.object.injEq, List.cons.injEq, Prod.mk.injEq,
    Json.number.injEq, true_and, and_true] at h
  obtain ⟨rfl, rfl, hpolicy⟩ := h
  rw [policyToJson_injective hpolicy]

theorem ConsumerState.toJson_injective : Function.Injective ConsumerState.toJson := by
  intro a b h
  cases a
  cases b
  simp only [ConsumerState.toJson, Json.object.injEq, List.cons.injEq, Prod.mk.injEq,
    Json.number.injEq, Json.text.injEq, Json.array.injEq, true_and, and_true] at h
  obtain ⟨rfl, rfl, rfl, hacknowledged, hattempts, hpolicy, hpolicies, hretry⟩ := h
  obtain rfl := Std.ExtTreeSet.toList_inj.1
      (List.map_injective_iff.2 number_injective hacknowledged)
  obtain rfl := mapToJson_injective number_injective hattempts
  obtain rfl := optionToJson_injective policyToJson_injective policyToJson_ne_null hpolicy
  obtain rfl := mapToJson_injective policyToJson_injective hpolicies
  obtain rfl := mapToJson_injective RetrySchedule.toJson_injective hretry
  rfl

theorem ConsumerStateEvent.fields_injective : Function.Injective ConsumerStateEvent.fields := by
  intro a b h
  cases a <;> cases b <;>
    simp [ConsumerStateEvent.fields] at h
  case deliveryAttempt.deliveryAttempt =>
    have := DeliveryAttempt.toJson_injective h
    simp_all
  case deliveryAttempts.deliveryAttempts =>
    rw [List.map_injective_iff.2 DeliveryAttempt.toJson_injective h]
  case retrySchedules.retrySchedules =>
    rw [List.map_injective_iff.2 RetryScheduleEvent.toJson_injective h]
  case acknowledge.acknowledge => rw [h]
  case acknowledgeBatch.acknowledgeBatch =>
    rw [List.map_injective_iff.2 number_injective h]
  case policyConfigured.policyConfigured => rw [policyToJson_injective h]

theorem ConsumerStateEvent.text_injective : Function.Injective ConsumerStateEvent.text := by
  intro a b h
  exact fields_injective (Json.object.inj (Json.render_injective h))

theorem ConsumerState.text_injective : Function.Injective ConsumerState.text := by
  intro a b h
  exact toJson_injective (Json.render_injective (List.append_cancel_right h))

open Classical in
/-- A reader that accepts nothing but what was written. -/
noncomputable def ConsumerStateReader.strict : ConsumerStateReader where
  isValue bytes := decide (∃ value : Json, value.render = bytes)
  readEvent bytes :=
    if h : ∃ event : ConsumerStateEvent, event.text = bytes then .ok h.choose
    else .error "unsupported event"
  readState bytes :=
    if h : ∃ state : ConsumerState, state.text = bytes then .ok h.choose
    else .error "unsupported state"
  readEvent_text event := by
    have h : ∃ other : ConsumerStateEvent, other.text = event.text := ⟨event, rfl⟩
    rw [dif_pos h, ConsumerStateEvent.text_injective h.choose_spec]
  readState_text state := by
    have h : ∃ other : ConsumerState, other.text = state.text := ⟨state, rfl⟩
    rw [dif_pos h, ConsumerState.text_injective h.choose_spec]
  isValue_part event part hbegins hne := by
    rw [decide_eq_false_iff_not]
    rintro ⟨value, rfl⟩
    obtain ⟨rest, hrest⟩ := hbegins
    obtain ⟨rfl, -⟩ := Json.render_object_unique hrest
    exact hne rfl

end Runnel.Local
