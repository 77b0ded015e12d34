import Runnel.Foundation.Transition
import Runnel.Local.DeliveryState

/-!
# The indexes of the deliveries

The deliveries of a stream are listed three times: by consumer and offset, by
deadline, and by consumer and member.
-/

namespace Runnel.Local

open Runnel.Engine Runnel.Transition

namespace DeliveryState

variable (delivery : DeliveryState)

def consumerIndex (consumer : String) : ConsumerInFlightIndex :=
  (delivery.inFlightByConsumer[consumer]?).getD {}

/-- The offsets of a member in the index of its consumer. -/
def memberSet (consumer member : String) : BTreeSet ℕ :=
  ((delivery.consumerIndex consumer).members[member]?).getD ∅

def dueAt (deadline : ℕ) : List DeliveryKey := (delivery.inFlightDeadlines[deadline]?).getD []

structure Indexed : Prop where
  offset : ∀ consumer offset inFlight, delivery.getInFlight consumer offset = some inFlight →
    inFlight.offset = offset
  deadlines : ∀ deadline consumer offset, (consumer, offset) ∈ delivery.dueAt deadline ↔
    ∃ inFlight, delivery.getInFlight consumer offset = some inFlight ∧
      inFlight.deadline = deadline
  nodup : ∀ deadline, (delivery.dueAt deadline).Nodup
  offsets : ∀ consumer offset, offset ∈ (delivery.consumerIndex consumer).offsets ↔
    (delivery.getInFlight consumer offset).isSome
  members : ∀ consumer member offset, offset ∈ delivery.memberSet consumer member ↔
    ∃ inFlight, delivery.getInFlight consumer offset = some inFlight ∧ inFlight.member = member

def KeysIndexed : Prop :=
  ∀ consumer key, key ∈ (delivery.consumerIndex consumer).keys ↔
    ∃ offset inFlight, delivery.getInFlight consumer offset = some inFlight ∧
      inFlight.key = some key

/-- No index has an entry without deliveries. -/
structure Tidy : Prop where
  deadlines : ∀ (deadline : ℕ) keys, delivery.inFlightDeadlines[deadline]? = some keys → keys ≠ []
  consumers : ∀ (consumer : String) index,
    delivery.inFlightByConsumer[consumer]? = some index → index.offsets ≠ ∅
  members : ∀ (consumer : String) index, delivery.inFlightByConsumer[consumer]? = some index →
    ∀ (member : String) offsets, index.members[member]? = some offsets → offsets ≠ ∅

def KeysDistinct : Prop :=
  ∀ consumer key offset other inFlight inFlight',
    delivery.getInFlight consumer offset = some inFlight →
    delivery.getInFlight consumer other = some inFlight' →
    inFlight.key = some key → inFlight'.key = some key → offset = other

variable {delivery}

theorem ne_empty_of_mem {set : BTreeSet ℕ} {offset : ℕ} (h : offset ∈ set) : set ≠ ∅ := by
  rintro rfl
  simp at h

theorem getInFlight_insert (consumer other : String) (inFlight : InFlight) (offset : ℕ) :
    (delivery.insert consumer inFlight).getInFlight other offset =
      if consumer = other ∧ inFlight.offset = offset then some inFlight
      else delivery.getInFlight other offset := by
  simp only [getInFlight, insert, Std.ExtTreeMap.getElem?_insert,
    Std.LawfulEqCmp.compare_eq_iff_eq, Prod.mk.injEq]

theorem getInFlight_remove (consumer other : String) (removed offset : ℕ) :
    (delivery.remove consumer removed).getInFlight other offset =
      if consumer = other ∧ removed = offset then none
      else delivery.getInFlight other offset := by
  unfold remove
  cases hfound : delivery.inFlight[(consumer, removed)]? with
  | none =>
    split_ifs with hsame
    · obtain ⟨rfl, rfl⟩ := hsame
      exact hfound
    · rfl
  | some inFlight =>
    simp only [getInFlight, Std.ExtTreeMap.getElem?_erase, Std.LawfulEqCmp.compare_eq_iff_eq,
      Prod.mk.injEq]

section Insert

variable (consumer : String) (inFlight : InFlight)

theorem dueAt_insert (deadline : ℕ) :
    (delivery.insert consumer inFlight).dueAt deadline =
      if inFlight.deadline = deadline then
        delivery.dueAt deadline ++ [(consumer, inFlight.offset)]
      else delivery.dueAt deadline := by
  simp only [dueAt, insert, Std.ExtTreeMap.getElem?_insert, Std.LawfulEqCmp.compare_eq_iff_eq]
  split_ifs with hsame
  · rw [hsame]
    rfl
  · rfl

theorem consumerIndex_insert (other : String) :
    (delivery.insert consumer inFlight).consumerIndex other =
      if consumer = other then (delivery.consumerIndex other).add inFlight
      else delivery.consumerIndex other := by
  simp only [consumerIndex, insert, Std.ExtTreeMap.getElem?_insert,
    Std.LawfulEqCmp.compare_eq_iff_eq]
  split_ifs with hsame
  · rw [hsame]
    rfl
  · rfl

theorem mem_offsets_add (index : ConsumerInFlightIndex) (offset : ℕ) :
    offset ∈ (index.add inFlight).offsets ↔ offset ∈ index.offsets ∨ inFlight.offset = offset := by
  simp [ConsumerInFlightIndex.add, Std.ExtTreeSet.mem_insert, or_comm]

theorem mem_members_add (index : ConsumerInFlightIndex) (member : String) (offset : ℕ) :
    offset ∈ ((index.add inFlight).members[member]?).getD ∅ ↔
      offset ∈ (index.members[member]?).getD ∅ ∨
        inFlight.member = member ∧ inFlight.offset = offset := by
  simp only [ConsumerInFlightIndex.add, Std.ExtTreeMap.getElem?_insert,
    Std.LawfulEqCmp.compare_eq_iff_eq]
  split_ifs with hsame
  · rw [hsame]
    simp [Std.ExtTreeSet.mem_insert, or_comm]
  · simp [hsame]

theorem mem_keys_add (index : ConsumerInFlightIndex) (key : String) :
    key ∈ (index.add inFlight).keys ↔ key ∈ index.keys ∨ inFlight.key = some key := by
  cases hkey : inFlight.key with
  | none => simp [ConsumerInFlightIndex.add, hkey]
  | some added => simp [ConsumerInFlightIndex.add, hkey, Std.ExtTreeSet.mem_insert, or_comm]

theorem Tidy.insert (h : delivery.Tidy) (consumer : String) (inFlight : InFlight) :
    (delivery.insert consumer inFlight).Tidy where
  deadlines := by
    intro deadline keys hkeys
    simp only [DeliveryState.insert, Std.ExtTreeMap.getElem?_insert] at hkeys
    split_ifs at hkeys
    · obtain rfl := Option.some.inj hkeys
      simp
    · exact h.deadlines deadline keys hkeys
  consumers := by
    intro other index hindex
    simp only [DeliveryState.insert, Std.ExtTreeMap.getElem?_insert] at hindex
    split_ifs at hindex
    · obtain rfl := Option.some.inj hindex
      exact ne_empty_of_mem ((mem_offsets_add _ _ _).2 (Or.inr rfl))
    · exact h.consumers other index hindex
  members := by
    intro other index hindex member offsets hoffsets
    simp only [DeliveryState.insert, Std.ExtTreeMap.getElem?_insert] at hindex
    split_ifs at hindex
    · obtain rfl := Option.some.inj hindex
      simp only [ConsumerInFlightIndex.add, Std.ExtTreeMap.getElem?_insert] at hoffsets
      split_ifs at hoffsets
      · obtain rfl := Option.some.inj hoffsets
        exact ne_empty_of_mem (Std.ExtTreeSet.mem_insert_self)
      · cases hbefore : delivery.inFlightByConsumer[consumer]? with
        | none => simp [hbefore] at hoffsets
        | some before =>
          rw [hbefore] at hoffsets
          exact h.members consumer before hbefore member offsets hoffsets
    · exact h.members other index hindex member offsets hoffsets

variable {consumer inFlight} (hfresh : delivery.getInFlight consumer inFlight.offset = none)

include hfresh

theorem Indexed.insert (h : delivery.Indexed) :
    (delivery.insert consumer inFlight).Indexed where
  offset := by
    intro other offset found hfound
    rw [getInFlight_insert] at hfound
    split_ifs at hfound with hsame
    · obtain rfl := Option.some.inj hfound
      exact hsame.2
    · exact h.offset other offset found hfound
  deadlines := by
    intro deadline other offset
    rw [dueAt_insert, getInFlight_insert]
    by_cases hsame : consumer = other ∧ inFlight.offset = offset
    · obtain ⟨rfl, rfl⟩ := hsame
      have hnot : (consumer, inFlight.offset) ∉ delivery.dueAt deadline := by
        rw [h.deadlines, hfresh]
        simp
      split_ifs with hdeadline <;> simp_all
    · rw [if_neg hsame]
      split_ifs with hdeadline
      · rw [List.mem_append, h.deadlines, List.mem_singleton, Prod.mk.injEq,
          or_iff_left (fun heq => hsame ⟨heq.1.symm, heq.2.symm⟩)]
      · exact h.deadlines deadline other offset
  nodup := by
    intro deadline
    rw [dueAt_insert]
    split_ifs with hdeadline
    · apply List.nodup_append.2 ⟨h.nodup deadline, List.nodup_singleton _, ?_⟩
      rintro key hmem other hother rfl
      obtain rfl := List.mem_singleton.1 hother
      rw [h.deadlines, hfresh] at hmem
      simp at hmem
    · exact h.nodup deadline
  offsets := by
    intro other offset
    rw [consumerIndex_insert, getInFlight_insert]
    by_cases hsame : consumer = other
    · subst hsame
      rw [if_pos rfl, mem_offsets_add, h.offsets]
      by_cases hoffset : inFlight.offset = offset <;> simp [hoffset]
    · simp [hsame, h.offsets]
  members := by
    intro other member offset
    rw [memberSet, consumerIndex_insert, getInFlight_insert]
    by_cases hsame : consumer = other
    · subst hsame
      rw [if_pos rfl, mem_members_add]
      have hbefore := h.members consumer member offset
      rw [memberSet] at hbefore
      rw [hbefore]
      by_cases hoffset : inFlight.offset = offset
      · subst hoffset
        simp [hfresh]
      · simp [hoffset]
    · simp only [hsame, false_and, if_false]
      exact h.members other member offset

theorem KeysIndexed.insert (h : delivery.KeysIndexed) :
    (delivery.insert consumer inFlight).KeysIndexed := by
  intro other key
  rw [consumerIndex_insert]
  by_cases hsame : consumer = other
  · subst hsame
    rw [if_pos rfl, mem_keys_add, h]
    constructor
    · rintro (⟨offset, found, hfound, hkey⟩ | hkey)
      · refine ⟨offset, found, ?_, hkey⟩
        rw [getInFlight_insert, if_neg]
        · exact hfound
        · rintro ⟨-, rfl⟩
          rw [hfresh] at hfound
          cases hfound
      · exact ⟨inFlight.offset, inFlight, by simp [getInFlight_insert], hkey⟩
    · rintro ⟨offset, found, hfound, hkey⟩
      rw [getInFlight_insert] at hfound
      split_ifs at hfound with hoffset
      · obtain rfl := Option.some.inj hfound
        exact Or.inr hkey
      · exact Or.inl ⟨offset, found, hfound, hkey⟩
  · simp only [hsame, if_false, getInFlight_insert, false_and]
    exact h other key

end Insert

theorem withoutKey_perm {keys : List DeliveryKey} {key : DeliveryKey} (h : key ∈ keys) :
    (key :: withoutKey keys key).Perm keys := by
  unfold withoutKey
  cases hfind : keys.findIdx? (fun other => other = key) with
  | none =>
    have hnot := List.findIdx?_eq_none_iff.1 hfind key h
    simp at hnot
  | some index =>
    obtain ⟨hlt, hsame, -⟩ := List.findIdx?_eq_some_iff_getElem.1 hfind
    obtain rfl := of_decide_eq_true hsame
    exact ((swapRemove_perm hlt).cons _).trans (List.getElem_cons_eraseIdx_perm hlt)

theorem getD_dropDeadline (deadlines : BTreeMap ℕ (List DeliveryKey)) (deadline other : ℕ)
    (key : DeliveryKey) (hmem : key ∈ (deadlines[deadline]?).getD []) :
    ((dropDeadline deadlines deadline key)[other]?).getD [] =
      if deadline = other then withoutKey ((deadlines[other]?).getD []) key
      else (deadlines[other]?).getD [] := by
  unfold dropDeadline
  cases hkeys : deadlines[deadline]? with
  | none =>
    rw [hkeys] at hmem
    cases hmem
  | some keys =>
    change ((if (withoutKey keys key).isEmpty then deadlines.erase deadline
      else deadlines.insert deadline (withoutKey keys key))[other]?).getD [] = _
    by_cases hsame : deadline = other
    · subst hsame
      rw [if_pos rfl, hkeys]
      split_ifs with hempty
      · rw [Std.ExtTreeMap.getElem?_erase_self]
        exact (List.isEmpty_iff.1 hempty).symm
      · rw [Std.ExtTreeMap.getElem?_insert_self]
        rfl
    · rw [if_neg hsame]
      split_ifs
      · simp [Std.ExtTreeMap.getElem?_erase, Std.LawfulEqCmp.compare_eq_iff_eq, hsame]
      · simp [Std.ExtTreeMap.getElem?_insert, Std.LawfulEqCmp.compare_eq_iff_eq, hsame]

section Drop

variable (index : ConsumerInFlightIndex) (removed : ℕ) (inFlight : InFlight)

theorem mem_offsets_drop (offset : ℕ) :
    offset ∈ (index.drop removed inFlight).offsets ↔ removed ≠ offset ∧ offset ∈ index.offsets := by
  simp [ConsumerInFlightIndex.drop, Std.ExtTreeSet.mem_erase]

theorem mem_members_drop (member : String) (offset : ℕ) :
    offset ∈ ((index.drop removed inFlight).members[member]?).getD ∅ ↔
      ¬ (inFlight.member = member ∧ removed = offset) ∧
        offset ∈ (index.members[member]?).getD ∅ := by
  simp only [ConsumerInFlightIndex.drop]
  cases hmembers : index.members[inFlight.member]? with
  | none =>
    by_cases hsame : inFlight.member = member
    · subst hsame
      simp [hmembers]
    · simp [hsame]
  | some offsets =>
    by_cases hsame : inFlight.member = member
    · subst hsame
      simp only [hmembers, Option.getD_some, true_and]
      split_ifs with hempty
      · rw [Std.ExtTreeMap.getElem?_erase_self]
        have hnone := Std.ExtTreeSet.isEmpty_iff.1 hempty
        have hall : offset ∉ offsets.erase removed := by simp [hnone]
        simpa [Std.ExtTreeSet.mem_erase] using hall
      · rw [Std.ExtTreeMap.getElem?_insert_self]
        simp [Std.ExtTreeSet.mem_erase]
    · simp only [hsame, false_and, not_false_eq_true, true_and]
      split_ifs
      · simp [Std.ExtTreeMap.getElem?_erase, Std.LawfulEqCmp.compare_eq_iff_eq, hsame]
      · simp [Std.ExtTreeMap.getElem?_insert, Std.LawfulEqCmp.compare_eq_iff_eq, hsame]

theorem mem_keys_drop (key : String) :
    key ∈ (index.drop removed inFlight).keys ↔ inFlight.key ≠ some key ∧ key ∈ index.keys := by
  cases hkey : inFlight.key with
  | none => simp [ConsumerInFlightIndex.drop, hkey]
  | some dropped => simp [ConsumerInFlightIndex.drop, hkey, Std.ExtTreeSet.mem_erase]

end Drop

section Remove

variable {consumer : String} {removed : ℕ} {inFlight : InFlight}

theorem consumerIndex_remove (hfound : delivery.getInFlight consumer removed = some inFlight)
    (other : String) :
    (delivery.remove consumer removed).consumerIndex other =
      if consumer = other then
        if ((delivery.consumerIndex other).drop removed inFlight).offsets.isEmpty then {}
        else (delivery.consumerIndex other).drop removed inFlight
      else delivery.consumerIndex other := by
  rw [getInFlight] at hfound
  simp only [remove, hfound, consumerIndex, dropConsumer]
  by_cases hsame : consumer = other
  · subst hsame
    rw [if_pos rfl]
    rcases Option.eq_none_or_eq_some (delivery.inFlightByConsumer[consumer]?) with
      hindex | ⟨index, hindex⟩
    · simp only [hindex, Option.getD_none]
      rw [if_pos]
      simp [ConsumerInFlightIndex.drop]
    · simp only [hindex, Option.getD_some]
      split_ifs
      · simp
      · simp
  · rw [if_neg hsame]
    rcases Option.eq_none_or_eq_some (delivery.inFlightByConsumer[consumer]?) with
      hindex | ⟨index, hindex⟩
    · simp only [hindex]
    · simp only [hindex]
      split_ifs
      · simp [Std.ExtTreeMap.getElem?_erase, Std.LawfulEqCmp.compare_eq_iff_eq, hsame]
      · simp [Std.ExtTreeMap.getElem?_insert, Std.LawfulEqCmp.compare_eq_iff_eq, hsame]

theorem dueAt_remove (hfound : delivery.getInFlight consumer removed = some inFlight)
    (hlisted : (consumer, removed) ∈ delivery.dueAt inFlight.deadline) (deadline : ℕ) :
    (delivery.remove consumer removed).dueAt deadline =
      if inFlight.deadline = deadline then
        withoutKey (delivery.dueAt deadline) (consumer, removed)
      else delivery.dueAt deadline := by
  rw [getInFlight] at hfound
  simp only [remove, hfound, dueAt]
  exact getD_dropDeadline _ _ _ _ hlisted

theorem Indexed.getInFlight_of_isEmpty (h : delivery.Indexed) (offset : ℕ)
    (hempty : ((delivery.consumerIndex consumer).drop removed inFlight).offsets.isEmpty)
    (hne : removed ≠ offset) : delivery.getInFlight consumer offset = none := by
  have hnot : offset ∉ ((delivery.consumerIndex consumer).drop removed inFlight).offsets := by
    rw [Std.ExtTreeSet.isEmpty_iff.1 hempty]
    simp
  rw [mem_offsets_drop, h.offsets] at hnot
  simpa [hne] using hnot

theorem Indexed.mem_dueAt (h : delivery.Indexed)
    (hfound : delivery.getInFlight consumer removed = some inFlight) :
    (consumer, removed) ∈ delivery.dueAt inFlight.deadline :=
  (h.deadlines _ _ _).2 ⟨inFlight, hfound, rfl⟩

theorem Indexed.nodup_dueAt_remove (h : delivery.Indexed)
    (hfound : delivery.getInFlight consumer removed = some inFlight) (deadline : ℕ) :
    ((delivery.remove consumer removed).dueAt deadline).Nodup := by
  rw [dueAt_remove hfound (h.mem_dueAt hfound)]
  split_ifs with hdeadline
  · subst hdeadline
    have hperm := withoutKey_perm (h.mem_dueAt hfound)
    exact (List.nodup_cons.1 (hperm.nodup_iff.2 (h.nodup inFlight.deadline))).2
  · exact h.nodup deadline

theorem Indexed.mem_dueAt_remove (h : delivery.Indexed)
    (hfound : delivery.getInFlight consumer removed = some inFlight) (deadline : ℕ)
    (key : DeliveryKey) : key ∈ (delivery.remove consumer removed).dueAt deadline ↔
      key ≠ (consumer, removed) ∧ key ∈ delivery.dueAt deadline := by
  rw [dueAt_remove hfound (h.mem_dueAt hfound)]
  split_ifs with hdeadline
  · subst hdeadline
    have hperm := withoutKey_perm (h.mem_dueAt hfound)
    have hnodup := hperm.nodup_iff.2 (h.nodup inFlight.deadline)
    rw [← hperm.mem_iff, List.mem_cons]
    refine ⟨fun hmem => ⟨?_, Or.inr hmem⟩, fun hmem => hmem.2.resolve_left hmem.1⟩
    rintro rfl
    exact (List.nodup_cons.1 hnodup).1 hmem
  · refine ⟨fun hmem => ⟨?_, hmem⟩, And.right⟩
    rintro rfl
    obtain ⟨found, hget, hdue⟩ := (h.deadlines _ _ _).1 hmem
    obtain rfl := Option.some.inj (hfound.symm.trans hget)
    exact hdeadline hdue

theorem Indexed.remove (h : delivery.Indexed) (consumer : String) (removed : ℕ) :
    (delivery.remove consumer removed).Indexed := by
  cases hfound : delivery.getInFlight consumer removed with
  | none =>
    rw [getInFlight] at hfound
    rw [DeliveryState.remove, hfound]
    exact h
  | some inFlight =>
    constructor
    case offset =>
      intro other offset found hget
      rw [getInFlight_remove] at hget
      split_ifs at hget
      exact h.offset other offset found hget
    case deadlines =>
      intro deadline other offset
      rw [h.mem_dueAt_remove hfound, h.deadlines, getInFlight_remove]
      split_ifs with hsame
      · obtain ⟨rfl, rfl⟩ := hsame
        simp
      · refine and_iff_right fun heq => hsame ?_
        rw [Prod.mk.injEq] at heq
        exact ⟨heq.1.symm, heq.2.symm⟩
    case nodup => exact h.nodup_dueAt_remove hfound
    case offsets =>
      intro other offset
      rw [consumerIndex_remove hfound, getInFlight_remove]
      by_cases hsame : consumer = other
      · subst hsame
        simp only [if_true, true_and]
        split_ifs with hempty hoffset hoffset
        · simp
        · simp [h.getInFlight_of_isEmpty offset hempty hoffset]
        · simp [mem_offsets_drop, hoffset]
        · simp [mem_offsets_drop, hoffset, h.offsets]
      · simp [hsame, h.offsets]
    case members =>
      intro other member offset
      rw [memberSet, consumerIndex_remove hfound, getInFlight_remove]
      by_cases hsame : consumer = other
      · subst hsame
        have hbefore := h.members consumer member offset
        rw [memberSet] at hbefore
        simp only [if_true, true_and]
        split_ifs with hempty hoffset hoffset
        · simp
        · simp [h.getInFlight_of_isEmpty offset hempty hoffset]
        · subst hoffset
          rw [mem_members_drop, hbefore, hfound]
          simp
        · rw [mem_members_drop, hbefore]
          simp [hoffset]
      · simp only [hsame, false_and, if_false]
        exact h.members other member offset

theorem KeysIndexed.remove (h : delivery.KeysIndexed) (hindexed : delivery.Indexed)
    (hdistinct : delivery.KeysDistinct) (consumer : String) (removed : ℕ) :
    (delivery.remove consumer removed).KeysIndexed := by
  cases hfound : delivery.getInFlight consumer removed with
  | none =>
    rw [getInFlight] at hfound
    rw [DeliveryState.remove, hfound]
    exact h
  | some inFlight =>
    intro other key
    rw [consumerIndex_remove hfound]
    by_cases hsame : consumer = other
    · subst hsame
      simp only [if_true, getInFlight_remove, true_and]
      have hrest : (∃ offset found, (if removed = offset then none
          else delivery.getInFlight consumer offset) = some found ∧ found.key = some key) ↔
            inFlight.key ≠ some key ∧ key ∈ (delivery.consumerIndex consumer).keys := by
        rw [h]
        constructor
        · rintro ⟨offset, found, hget, hkey⟩
          split_ifs at hget with hoffset
          refine ⟨fun hsame => hoffset ?_, offset, found, hget, hkey⟩
          exact hdistinct consumer key _ _ _ _ hfound hget hsame hkey
        · rintro ⟨hne, offset, found, hget, hkey⟩
          refine ⟨offset, found, ?_, hkey⟩
          rw [if_neg]
          · exact hget
          · rintro rfl
            rw [hfound] at hget
            exact hne (Option.some.inj hget ▸ hkey)
      rw [hrest]
      split_ifs with hempty
      · -- the last delivery of the consumer goes, so no key can be left
        simp only [Std.ExtTreeSet.not_mem_empty, false_iff]
        rintro ⟨hne, hmem⟩
        obtain ⟨offset, found, hget, hkey⟩ := (h consumer key).1 hmem
        by_cases hoffset : removed = offset
        · subst hoffset
          rw [hfound] at hget
          exact hne (Option.some.inj hget ▸ hkey)
        · rw [hindexed.getInFlight_of_isEmpty offset hempty hoffset] at hget
          cases hget
      · exact mem_keys_drop _ _ _ _
    · simp only [hsame, if_false, getInFlight_remove, false_and]
      exact h other key

theorem ne_nil_of_dropDeadline {deadlines : BTreeMap ℕ (List DeliveryKey)} {deadline other : ℕ}
    {key : DeliveryKey} (h : ∀ (deadline : ℕ) keys, deadlines[deadline]? = some keys → keys ≠ [])
    {keys : List DeliveryKey} (hkeys : (dropDeadline deadlines deadline key)[other]? = some keys) :
    keys ≠ [] := by
  unfold dropDeadline at hkeys
  split at hkeys
  · exact h other keys hkeys
  · dsimp only at hkeys
    split_ifs at hkeys with hempty
    · rw [Std.ExtTreeMap.getElem?_erase] at hkeys
      split_ifs at hkeys
      exact h other keys hkeys
    · rw [Std.ExtTreeMap.getElem?_insert] at hkeys
      split_ifs at hkeys
      · obtain rfl := Option.some.inj hkeys
        exact fun hnil => hempty (List.isEmpty_iff.2 hnil)
      · exact h other keys hkeys

theorem ne_empty_of_drop {index : ConsumerInFlightIndex} {removed : ℕ} {inFlight : InFlight}
    (h : ∀ (member : String) offsets, index.members[member]? = some offsets → offsets ≠ ∅)
    {member : String} {offsets : BTreeSet ℕ}
    (hoffsets : (index.drop removed inFlight).members[member]? = some offsets) : offsets ≠ ∅ := by
  unfold ConsumerInFlightIndex.drop at hoffsets
  dsimp only at hoffsets
  split at hoffsets
  · split_ifs at hoffsets with hempty
    · rw [Std.ExtTreeMap.getElem?_erase] at hoffsets
      split_ifs at hoffsets
      exact h member offsets hoffsets
    · rw [Std.ExtTreeMap.getElem?_insert] at hoffsets
      split_ifs at hoffsets
      · obtain rfl := Option.some.inj hoffsets
        exact fun hnone => hempty (Std.ExtTreeSet.isEmpty_iff.2 hnone)
      · exact h member offsets hoffsets
  · exact h member offsets hoffsets

/-- The index of a consumer behind a removal is its old one, or that without the delivery. -/
theorem dropConsumer_cases {consumers : BTreeMap String ConsumerInFlightIndex} {key : DeliveryKey}
    {inFlight : InFlight} {other : String} {index : ConsumerInFlightIndex}
    (h : (dropConsumer consumers key inFlight)[other]? = some index) :
    consumers[other]? = some index ∨
      ∃ before, consumers[key.1]? = some before ∧ index = before.drop key.2 inFlight ∧
        index.offsets ≠ ∅ := by
  unfold dropConsumer at h
  split at h
  · exact Or.inl h
  · rename_i before hbefore
    split_ifs at h with hempty
    · rw [Std.ExtTreeMap.getElem?_erase] at h
      split_ifs at h
      exact Or.inl h
    · rw [Std.ExtTreeMap.getElem?_insert] at h
      split_ifs at h
      · obtain rfl := Option.some.inj h
        exact Or.inr ⟨before, hbefore, rfl,
          fun hnone => hempty (Std.ExtTreeSet.isEmpty_iff.2 hnone)⟩
      · exact Or.inl h

theorem Tidy.remove (h : delivery.Tidy) (consumer : String) (removed : ℕ) :
    (delivery.remove consumer removed).Tidy := by
  unfold DeliveryState.remove
  split
  · exact h
  · constructor
    · intro deadline keys hkeys
      exact ne_nil_of_dropDeadline h.deadlines hkeys
    · intro other index hindex
      rcases dropConsumer_cases hindex with hindex | ⟨-, -, -, hoffsets⟩
      · exact h.consumers other index hindex
      · exact hoffsets
    · intro other index hindex member offsets hoffsets
      rcases dropConsumer_cases hindex with hindex | ⟨before, hbefore, rfl, -⟩
      · exact h.members other index hindex member offsets hoffsets
      · exact ne_empty_of_drop (h.members consumer before hbefore) hoffsets

theorem KeysDistinct.remove (h : delivery.KeysDistinct) (consumer : String) (removed : ℕ) :
    (delivery.remove consumer removed).KeysDistinct := by
  intro owner key offset other found found' hget hget'
  rw [getInFlight_remove] at hget hget'
  split_ifs at hget hget'
  exact h owner key offset other found found' hget hget'

end Remove

theorem Indexed.mem_expiredDeliveries (h : delivery.Indexed) (consumer : String) (now : ℕ)
    (inFlight : InFlight) : inFlight ∈ delivery.expiredDeliveries consumer now ↔
      delivery.getInFlight consumer inFlight.offset = some inFlight ∧ inFlight.deadline ≤ now := by
  simp only [expiredDeliveries, List.mem_filter, List.mem_filterMap, List.mem_flatMap,
    decide_eq_true_eq]
  constructor
  · rintro ⟨⟨⟨owner, offset⟩, ⟨-, rfl⟩, hget⟩, hdue⟩
    have hoffset := h.offset owner offset inFlight hget
    exact ⟨hoffset ▸ hget, hdue⟩
  · rintro ⟨hget, hdue⟩
    refine ⟨⟨(consumer, inFlight.offset), ⟨?_, rfl⟩, hget⟩, hdue⟩
    have hlisted := (h.deadlines inFlight.deadline consumer inFlight.offset).2 ⟨inFlight, hget, rfl⟩
    rw [dueAt] at hlisted
    cases hkeys : delivery.inFlightDeadlines[inFlight.deadline]? with
    | none =>
      rw [hkeys] at hlisted
      cases hlisted
    | some keys =>
      rw [hkeys] at hlisted
      exact ⟨(inFlight.deadline, keys),
        ⟨Std.ExtTreeMap.mem_toList_iff_getElem?_eq_some.2 hkeys, hdue⟩, hlisted⟩

theorem Indexed.deadline_eq (h : delivery.Indexed) {deadline other : ℕ} {key : DeliveryKey}
    (hmem : key ∈ delivery.dueAt deadline) (hother : key ∈ delivery.dueAt other) :
    deadline = other := by
  obtain ⟨inFlight, hget, rfl⟩ := (h.deadlines deadline key.1 key.2).1 hmem
  obtain ⟨found, hfound, rfl⟩ := (h.deadlines other key.1 key.2).1 hother
  rw [Option.some.inj (hget.symm.trans hfound)]

theorem Indexed.nodup_expiredDeliveries (h : delivery.Indexed) (consumer : String) (now : ℕ) :
    (delivery.expiredDeliveries consumer now).Nodup := by
  have hentry : ∀ entry ∈ delivery.inFlightDeadlines.toList, entry.2 = delivery.dueAt entry.1 := by
    intro entry hmem
    rw [dueAt, Std.ExtTreeMap.mem_toList_iff_getElem?_eq_some.1 hmem]
    rfl
  have hkeys : ((delivery.inFlightDeadlines.toList.filter (fun entry => entry.1 ≤ now)).flatMap
      (fun entry => entry.2)).Nodup := by
    rw [List.nodup_flatMap]
    constructor
    · intro entry hmem
      rw [hentry entry (List.mem_filter.1 hmem).1]
      exact h.nodup entry.1
    · have hdistinct := delivery.inFlightDeadlines.distinct_keys_toList
      refine (hdistinct.imp_of_mem ?_).filter _
      intro entry later hmem hlater hne key (hkey : key ∈ entry.2) (hkey' : key ∈ later.2)
      rw [hentry entry hmem] at hkey
      rw [hentry later hlater] at hkey'
      exact hne (Std.LawfulEqCmp.compare_eq_iff_eq.2 (h.deadline_eq hkey hkey'))
  apply List.Nodup.filter
  -- within one consumer a delivery tells its key
  rw [List.Nodup, List.pairwise_filterMap]
  refine (hkeys.filter _).imp_of_mem ?_
  intro key later hmem hlater hne inFlight hget found hfound heq
  obtain rfl : key.1 = consumer := of_decide_eq_true (List.mem_filter.1 hmem).2
  have hsame : later.1 = key.1 := of_decide_eq_true (List.mem_filter.1 hlater).2
  apply hne
  rw [Prod.ext_iff]
  refine ⟨hsame.symm, ?_⟩
  rw [← h.offset key.1 key.2 inFlight hget, ← h.offset later.1 later.2 found hfound, heq]

theorem mem_memberOffsets (consumer member : String) (offset : ℕ) :
    offset ∈ delivery.memberOffsets consumer member ↔
      offset ∈ delivery.memberSet consumer member := by
  unfold memberOffsets memberSet consumerIndex
  cases delivery.inFlightByConsumer[consumer]? with
  | none => simp
  | some index => cases hmember : index.members[member]? <;> simp [hmember]

theorem mapM_indexedDelivery {consumer : String} {offsets : List ℕ}
    (h : ∀ offset ∈ offsets, (delivery.getInFlight consumer offset).isSome) :
    offsets.mapM (delivery.indexedDelivery consumer) =
      .ok (offsets.filterMap (delivery.getInFlight consumer)) := by
  induction offsets with
  | nil => rfl
  | cons offset offsets ih =>
    obtain ⟨hfirst, hrest⟩ := List.forall_mem_cons.1 h
    obtain ⟨inFlight, hget⟩ := Option.isSome_iff_exists.1 hfirst
    rw [List.mapM_cons, ih hrest, indexedDelivery, List.filterMap_cons, hget]
    rfl

/-- The offsets that the index lists for a member are those of its deliveries, so the lookups
find them all. -/
theorem Indexed.memberDeliveries (h : delivery.Indexed) (consumer member : String) :
    ∃ deliveries, delivery.memberDeliveries consumer member = .ok deliveries ∧
      delivery.memberDelivery consumer member = .ok deliveries.head? ∧
      ∀ inFlight, inFlight ∈ deliveries ↔
        delivery.getInFlight consumer inFlight.offset = some inFlight ∧
          inFlight.member = member := by
  have hlisted : ∀ offset, offset ∈ delivery.memberOffsets consumer member ↔
      ∃ inFlight, delivery.getInFlight consumer offset = some inFlight ∧
        inFlight.member = member := fun offset =>
    (mem_memberOffsets consumer member offset).trans (h.members consumer member offset)
  have hsome : ∀ offset ∈ delivery.memberOffsets consumer member,
      (delivery.getInFlight consumer offset).isSome := by
    intro offset hmem
    obtain ⟨inFlight, hget, -⟩ := (hlisted offset).1 hmem
    rw [hget]
    rfl
  refine ⟨_, mapM_indexedDelivery hsome, ?_, ?_⟩
  · rw [memberDelivery]
    cases hoffsets : delivery.memberOffsets consumer member with
    | nil => rfl
    | cons offset offsets =>
      rw [hoffsets] at hsome
      obtain ⟨inFlight, hget⟩ := Option.isSome_iff_exists.1 (hsome offset List.mem_cons_self)
      simp only [List.head?_cons, indexedDelivery, List.filterMap_cons, hget]
      rfl
  · intro inFlight
    rw [List.mem_filterMap]
    constructor
    · rintro ⟨offset, hmem, hget⟩
      obtain ⟨found, hfound, hmember⟩ := (hlisted offset).1 hmem
      obtain rfl := Option.some.inj (hget.symm.trans hfound)
      rw [h.offset consumer offset inFlight hget]
      exact ⟨hget, hmember⟩
    · rintro ⟨hget, hmember⟩
      exact ⟨inFlight.offset, (hlisted inFlight.offset).2 ⟨inFlight, hget, hmember⟩, hget⟩

end DeliveryState

inductive DeliveryCall where
  | insert (consumer : String) (inFlight : InFlight)
  | remove (consumer : String) (offset : ℕ)

namespace DeliveryState

def Step (before : DeliveryState) : DeliveryCall → DeliveryState → Prop
  | .insert consumer inFlight, after => after = before.insert consumer inFlight
  | .remove consumer offset, after => after = before.remove consumer offset

/-- What is inserted is not in flight, and no delivery of its consumer has its key. -/
def Fresh (before : DeliveryState) : DeliveryCall → Prop
  | .insert consumer inFlight => before.getInFlight consumer inFlight.offset = none ∧
      ∀ offset other, before.getInFlight consumer offset = some other →
        ∀ key, inFlight.key = some key → other.key ≠ some key
  | .remove _ _ => True

structure Mirrored (delivery : DeliveryState) : Prop where
  indexed : delivery.Indexed
  keys : delivery.KeysIndexed
  distinct : delivery.KeysDistinct
  tidy : delivery.Tidy

variable {delivery : DeliveryState}

theorem KeysDistinct.insert {consumer : String} {inFlight : InFlight} (h : delivery.KeysDistinct)
    (hkeys : ∀ offset other, delivery.getInFlight consumer offset = some other →
      ∀ key, inFlight.key = some key → other.key ≠ some key) :
    (delivery.insert consumer inFlight).KeysDistinct := by
  intro owner key offset other found found' hget hget' hkey hkey'
  rw [getInFlight_insert] at hget hget'
  split_ifs at hget hget' with hfirst hsecond hsecond
  · exact hfirst.2.symm.trans hsecond.2
  · obtain ⟨rfl, rfl⟩ := hfirst
    obtain rfl := Option.some.inj hget
    exact absurd hkey' (hkeys other found' hget' key hkey)
  · obtain ⟨rfl, rfl⟩ := hsecond
    obtain rfl := Option.some.inj hget'
    exact absurd hkey (hkeys offset found hget key hkey')
  · exact h owner key offset other found found' hget hget' hkey hkey'

theorem mirrored_empty : Mirrored {} := by
  constructor
  · constructor <;> simp [getInFlight, dueAt, consumerIndex, memberSet]
  · intro consumer key
    simp [getInFlight, consumerIndex]
  · intro consumer key offset other inFlight inFlight' hget
    simp [getInFlight] at hget
  · constructor <;> simp

theorem Mirrored.step {after : DeliveryState} {call : DeliveryCall} (h : delivery.Mirrored)
    (hfresh : delivery.Fresh call) (hstep : delivery.Step call after) : after.Mirrored := by
  cases call with
  | insert consumer inFlight =>
    obtain rfl := hstep
    obtain ⟨habsent, hkeys⟩ := hfresh
    exact ⟨h.indexed.insert habsent, h.keys.insert habsent, h.distinct.insert hkeys,
      h.tidy.insert consumer inFlight⟩
  | remove consumer offset =>
    obtain rfl := hstep
    exact ⟨h.indexed.remove consumer offset, h.keys.remove h.indexed h.distinct consumer offset,
      h.distinct.remove consumer offset, h.tidy.remove consumer offset⟩

theorem Run.mirrored {past : List (DeliveryState × DeliveryCall)}
    (h : Run (· = {}) (guarded Fresh Step) past delivery) : delivery.Mirrored := by
  apply h.invariant
  · rintro _ rfl
    exact mirrored_empty
  · intro before call after hbefore hstep
    exact hbefore.step hstep.1 hstep.2

/-- Whatever is inserted and removed, the indexes list exactly the deliveries and have no empty
entry; so a member's lookups find its deliveries, and the expired ones are those that are due. -/
theorem indexes_mirror_in_flight {past : List (DeliveryState × DeliveryCall)}
    (h : Run (· = {}) (guarded Fresh Step) past delivery) :
    delivery.Indexed ∧ delivery.KeysIndexed ∧ delivery.Tidy ∧
      (∀ consumer member, ∃ deliveries,
        delivery.memberDeliveries consumer member = .ok deliveries ∧
        delivery.memberDelivery consumer member = .ok deliveries.head? ∧
        ∀ inFlight, inFlight ∈ deliveries ↔
          delivery.getInFlight consumer inFlight.offset = some inFlight ∧
            inFlight.member = member) ∧
      ∀ consumer now, (delivery.expiredDeliveries consumer now).Nodup ∧
        ∀ inFlight, inFlight ∈ delivery.expiredDeliveries consumer now ↔
          delivery.getInFlight consumer inFlight.offset = some inFlight ∧
            inFlight.deadline ≤ now := by
  have hmirrored := Run.mirrored h
  refine ⟨hmirrored.indexed, hmirrored.keys, hmirrored.tidy, hmirrored.indexed.memberDeliveries, ?_⟩
  intro consumer now
  exact ⟨hmirrored.indexed.nodup_expiredDeliveries consumer now,
    hmirrored.indexed.mem_expiredDeliveries consumer now⟩

instance (before : DeliveryState) : ∀ call, Decidable (before.Fresh call)
  | .insert consumer inFlight =>
    decidable_of_iff (before.getInFlight consumer inFlight.offset = none ∧
        ∀ entry ∈ before.inFlight.toList, entry.1.1 = consumer →
          ∀ key ∈ inFlight.key, entry.2.key ≠ some key) <| by
      refine and_congr_right fun _ => ⟨fun h offset other hget key hkey => ?_, ?_⟩
      · exact h ((consumer, offset), other)
          (Std.ExtTreeMap.mem_toList_iff_getElem?_eq_some.2 hget) rfl key hkey
      · rintro h ⟨⟨_, offset⟩, other⟩ hmem rfl key hkey
        exact h offset other (Std.ExtTreeMap.mem_toList_iff_getElem?_eq_some.1 hmem) key hkey
  | .remove _ _ => isTrue trivial

/-- The deliveries after a call. -/
def next? (before : DeliveryState) : DeliveryCall → Option DeliveryState
  | .insert consumer inFlight => some (before.insert consumer inFlight)
  | .remove consumer offset => some (before.remove consumer offset)

theorem step_of_next? {before after : DeliveryState} {call : DeliveryCall}
    (h : before.next? call = some after) : before.Step call after := by
  cases call with
  | insert consumer inFlight => exact (Option.some.inj h).symm
  | remove consumer offset => exact (Option.some.inj h).symm

/-- Two deliveries of one member share a deadline. -/
def firstInFlight : InFlight := ⟨"a", 0, some "k", 1, "t0", true, 5⟩

def secondInFlight : InFlight := ⟨"a", 1, none, 1, "t1", true, 5⟩

/-- Both are inserted, and the first is removed again. -/
def oneLeft : DeliveryState :=
  ((DeliveryState.insert {} "billing" firstInFlight).insert "billing" secondInFlight).remove
    "billing" 0

theorem oneLeft_mirrored :
    oneLeft.inFlight.keys = [("billing", 1)] ∧ oneLeft.Indexed ∧ oneLeft.KeysIndexed ∧
      oneLeft.Tidy := by
  have hsome : (follow (allowed Fresh next?) [.insert "billing" firstInFlight,
      .insert "billing" secondInFlight, .remove "billing" 0] [] {}).map Prod.snd =
        some oneLeft := by
    decide +kernel
  obtain ⟨⟨past, _⟩, hfollow, rfl⟩ := Option.map_eq_some_iff.1 hsome
  obtain ⟨hindexed, hkeys, htidy, -⟩ := indexes_mirror_in_flight
    (.of_follow (fun _ _ _ _ => guarded_of_allowed step_of_next?) (.start rfl) hfollow)
  exact ⟨by decide +kernel, hindexed, hkeys, htidy⟩

end DeliveryState

end Runnel.Local
