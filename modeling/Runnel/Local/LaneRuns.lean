import Runnel.Local.LaneOrder

/-!
# Runs of the storage executor

Every event of the executor is a step of the lane of its dispatch and leaves the
other lanes alone.
-/

namespace Runnel.Local

open Runnel.Engine Transition

section Runs

variable [NotifyLibrary]

namespace StorageExecutor

/-- A lane by its number; one that does not exist yet is as a new one. -/
def laneAt (executor : StorageExecutor) (lane : ℕ) : StorageLaneState := executor.lanes.getD lane {}

def viewAt (executor : StorageExecutor) (lane : ℕ) : LaneView := fun id =>
  match executor.dispatches[id]? with
  | some dispatch => if dispatch.lane = lane then dispatch.stance else .finished
  | none => .finished

theorem viewAt_of_get {executor : StorageExecutor} {id : ℕ} {dispatch : Dispatch}
    (h : executor.dispatches[id]? = some dispatch) :
    executor.viewAt dispatch.lane id = dispatch.stance := by
  simp [viewAt, h]

variable {lane : ℕ}

theorem viewAt_of_ne {executor : StorageExecutor} {id : ℕ} {dispatch : Dispatch}
    (h : executor.dispatches[id]? = some dispatch) (hlane : lane ≠ dispatch.lane) :
    executor.viewAt lane id = .finished := by
  simp [viewAt, h, hlane.symm]

theorem laneAt_setLane {executor : StorageExecutor} {state : StorageLaneState}
    (h : lane < executor.lanes.length) :
    (executor.setLane lane state).laneAt = Function.update executor.laneAt lane state := by
  funext other
  by_cases hother : other = lane
  · subst hother
    simp [laneAt, setLane, h]
  · simp [laneAt, setLane, hother, List.getElem?_set_ne (Ne.symm hother)]

@[simp] theorem viewAt_setLane (executor : StorageExecutor) (lane : ℕ) (state : StorageLaneState) :
    (executor.setLane lane state).viewAt = executor.viewAt := rfl

@[simp] theorem laneAt_setStance (executor : StorageExecutor) (id : ℕ) (stance : Stance) :
    (executor.setStance id stance).laneAt = executor.laneAt := rfl

@[simp] theorem laneAt_notifyAny (executor : StorageExecutor) (target : Option ℕ) :
    (executor.notifyAny target).laneAt = executor.laneAt := by
  cases target <;> rfl

theorem viewAt_setStance {executor : StorageExecutor} {id : ℕ} {dispatch : Dispatch}
    (h : executor.dispatches[id]? = some dispatch) (stance : Stance) :
    (executor.setStance id stance).viewAt = Function.update executor.viewAt dispatch.lane
      (Function.update (executor.viewAt dispatch.lane) id stance) := by
  funext lane other
  by_cases hlane : lane = dispatch.lane
  · subst hlane
    rw [Function.update_self]
    by_cases hother : other = id
    · subst hother
      simp [viewAt, setStance, h]
    · simp [viewAt, setStance, hother, Ne.symm hother]
  · rw [Function.update_of_ne hlane]
    by_cases hother : other = id
    · subst hother
      simp [viewAt, setStance, h, Ne.symm hlane]
    · simp [viewAt, setStance, Ne.symm hother]

theorem viewAt_notifyAny (executor : StorageExecutor) (target : Option ℕ) (lane : ℕ) :
    (executor.notifyAny target).viewAt lane = (executor.viewAt lane).notify target := by
  cases target with
  | none => rfl
  | some id =>
    funext other
    by_cases hother : other = id
    · subst hother
      cases hget : executor.dispatches[other]? with
      | none => simp [viewAt, notifyAny, notify, LaneView.notify, hget, Stance.notified]
      | some dispatch =>
        by_cases hlane : dispatch.lane = lane
        · cases hstance : dispatch.stance <;>
            simp [viewAt, notifyAny, notify, LaneView.notify, hget, hlane, hstance, Stance.notified]
        · cases hstance : dispatch.stance <;>
            simp [viewAt, notifyAny, notify, LaneView.notify, hget, hlane, hstance, Stance.notified]
    · simp [viewAt, notifyAny, notify, LaneView.notify, hother, Ne.symm hother]

/-- The stream and the lane of every dispatch, which never change. -/
def places (executor : StorageExecutor) : List (String × ℕ) :=
  executor.dispatches.map fun dispatch => (dispatch.stream, dispatch.lane)

@[simp] theorem places_setLane (executor : StorageExecutor) (lane : ℕ) (state : StorageLaneState) :
    (executor.setLane lane state).places = executor.places := rfl

@[simp] theorem places_setStance (executor : StorageExecutor) (id : ℕ) (stance : Stance) :
    (executor.setStance id stance).places = executor.places := by
  apply List.ext_getElem?
  intro other
  simp only [places, setStance, List.getElem?_map, List.getElem?_modify]
  cases executor.dispatches[other]? with
  | none => rfl
  | some dispatch => split <;> rfl

@[simp] theorem places_notifyAny (executor : StorageExecutor) (target : Option ℕ) :
    (executor.notifyAny target).places = executor.places := by
  cases target with
  | none => rfl
  | some id =>
    apply List.ext_getElem?
    intro other
    simp only [places, notifyAny, notify, List.getElem?_map, List.getElem?_modify]
    cases executor.dispatches[other]? with
    | none => rfl
    | some dispatch =>
      by_cases hother : id = other
      · cases hstance : dispatch.stance <;> simp [hother, hstance]
      · simp [hother]

theorem viewAt_eq_finished {executor : StorageExecutor} {id other : ℕ}
    (h : executor.viewAt lane id ≠ .finished) (hother : other ≠ lane) :
    executor.viewAt other id = .finished := by
  cases hget : executor.dispatches[id]? with
  | none => simp [viewAt, hget]
  | some dispatch =>
    by_cases hlane : dispatch.lane = lane
    · subst hlane
      exact viewAt_of_ne hget hother
    · simp [viewAt, hget, hlane] at h

theorem setLane_laneAt {executor : StorageExecutor} (h : lane < executor.lanes.length) :
    executor.setLane lane (executor.laneAt lane) = executor := by
  simp [setLane, laneAt, h]

/-- An event of a dispatch is a step of its lane alone. -/
structure LaneEffect (executor after : StorageExecutor) (id lane : ℕ) : Prop where
  places : after.places = executor.places
  lanes : after.lanes.length = executor.lanes.length
  streamLanes : after.streamLanes = executor.streamLanes
  step : LaneStep (executor.laneAt lane) (executor.viewAt lane) id (after.laneAt lane)
    (after.viewAt lane)
  others : ∀ other ≠ lane, after.laneAt other = executor.laneAt other ∧
    after.viewAt other = executor.viewAt other

variable {executor after : StorageExecutor} {id : ℕ} {dispatch : Dispatch}

theorem notify_of_finished {view : LaneView} {target : Option ℕ}
    (h : ∀ id ∈ target, view id = .finished) : view.notify target = view := by
  cases target with
  | none => rfl
  | some id =>
    have hid : view id = .finished := h id rfl
    rw [LaneView.notify, hid]
    exact Function.update_eq_self_iff.2 hid.symm

theorem laneEffect_of_step (hget : executor.dispatches[id]? = some dispatch)
    (hlane : dispatch.lane < executor.lanes.length) {state : StorageLaneState} {stance : Stance}
    {target : Option ℕ}
    (hstep : LaneStep (executor.laneAt dispatch.lane) (executor.viewAt dispatch.lane) id state
      (LaneView.notify (Function.update (executor.viewAt dispatch.lane) id stance) target))
    (htarget : ∀ other ∈ target, (executor.viewAt dispatch.lane other).IsQueued) :
    LaneEffect executor (((executor.setLane dispatch.lane state).setStance id stance).notifyAny
      target) id dispatch.lane := by
  have hviews : ((executor.setLane dispatch.lane state).setStance id stance).viewAt =
      Function.update executor.viewAt dispatch.lane
        (Function.update (executor.viewAt dispatch.lane) id stance) :=
    @viewAt_setStance _ (executor.setLane dispatch.lane state) id dispatch hget stance
  constructor
  · simp
  · cases target <;> simp [notifyAny, notify, setStance, setLane]
  · cases target <;> rfl
  · rw [laneAt_notifyAny, laneAt_setStance, laneAt_setLane hlane, Function.update_self,
      viewAt_notifyAny, hviews, Function.update_self]
    exact hstep
  · intro other hother
    rw [laneAt_notifyAny, laneAt_setStance, laneAt_setLane hlane, Function.update_of_ne hother,
      viewAt_notifyAny, hviews, Function.update_of_ne hother]
    refine ⟨rfl, notify_of_finished fun waiter hwaiter => ?_⟩
    apply viewAt_eq_finished _ hother
    intro hfinished
    have hqueued := htarget waiter hwaiter
    rw [hfinished] at hqueued
    exact hqueued

theorem laneEffect_of_restance (hget : executor.dispatches[id]? = some dispatch)
    (hlane : dispatch.lane < executor.lanes.length) {stance : Stance}
    (hstep : LaneStep (executor.laneAt dispatch.lane) (executor.viewAt dispatch.lane) id
      (executor.laneAt dispatch.lane)
      (Function.update (executor.viewAt dispatch.lane) id stance)) :
    LaneEffect executor (executor.setStance id stance) id dispatch.lane := by
  have heffect := @laneEffect_of_step _ executor id dispatch hget hlane _ stance none hstep nofun
  rw [setLane_laneAt hlane] at heffect
  exact heffect

theorem find?_eq_some {state : StorageLaneState} (h : executor.find? id = some (dispatch, state)) :
    executor.dispatches[id]? = some dispatch ∧ dispatch.lane < executor.lanes.length ∧
      state = executor.laneAt dispatch.lane := by
  obtain ⟨found, hget, hrest⟩ := Option.bind_eq_some_iff.1 h
  obtain ⟨lane, hlane, heq⟩ := Option.bind_eq_some_iff.1 hrest
  obtain ⟨rfl, rfl⟩ := Prod.mk.inj (Option.some.inj heq)
  obtain ⟨hlength, -⟩ := List.getElem?_eq_some_iff.1 hlane
  refine ⟨hget, hlength, ?_⟩
  rw [laneAt, List.getD_eq_getElem?_getD, hlane, Option.getD_some]

end StorageExecutor

def LaneEvent.subject : LaneEvent → Option ℕ
  | .dispatch _ => none
  | .reserve id _ | .claim id | .poll id | .cancel id | .release id => some id

namespace StorageExecutor

variable {executor after : StorageExecutor} {id : ℕ} {dispatch : Dispatch}

theorem effect_reserve {waiterPermit : Bool}
    (h : executor.next? (.reserve id waiterPermit) = some after) :
    ∃ dispatch, executor.dispatches[id]? = some dispatch ∧
      LaneEffect executor after id dispatch.lane := by
  obtain ⟨⟨dispatch, state⟩, hfind, hnext⟩ := Option.bind_eq_some_iff.1 h
  obtain ⟨hget, hlane, rfl⟩ := find?_eq_some hfind
  have hview := viewAt_of_get hget
  refine ⟨dispatch, hget, ?_⟩
  cases hstance : dispatch.stance with
  | queued waiter phase => simp [hstance] at hnext
  | holding => simp [hstance] at hnext
  | finished => simp [hstance] at hnext
  | admitted =>
    rw [hstance] at hview
    simp only [hstance, StorageLaneState.reserve] at hnext
    split_ifs at hnext with hfree hfull hpermit
    · obtain rfl := Option.some.inj hnext
      exact @laneEffect_of_step _ executor id dispatch hget hlane _ _ none
        (.take hview hfree.1 (List.isEmpty_iff.1 hfree.2)) nofun
    · obtain rfl := Option.some.inj hnext
      exact laneEffect_of_restance hget hlane (.leave hview)
    · obtain rfl := Option.some.inj hnext
      exact laneEffect_of_restance hget hlane (.leave hview)
    · obtain rfl := Option.some.inj hnext
      rw [List.isEmpty_iff] at hfree
      exact @laneEffect_of_step _ executor id dispatch hget hlane _ _ none (.queue hview hfree)
        nofun

theorem effect_claim (h : executor.next? (.claim id) = some after) :
    ∃ dispatch, executor.dispatches[id]? = some dispatch ∧
      LaneEffect executor after id dispatch.lane := by
  obtain ⟨⟨dispatch, state⟩, hfind, hnext⟩ := Option.bind_eq_some_iff.1 h
  obtain ⟨hget, hlane, rfl⟩ := find?_eq_some hfind
  have hview := viewAt_of_get hget
  refine ⟨dispatch, hget, ?_⟩
  cases hstance : dispatch.stance with
  | admitted => simp [hstance] at hnext
  | holding => simp [hstance] at hnext
  | finished => simp [hstance] at hnext
  | queued waiter phase =>
    cases phase with
    | awaiting => simp [hstance] at hnext
    | claiming =>
      rw [hstance] at hview
      simp only [hstance, StorageLaneState.claim] at hnext
      split_ifs at hnext with hstate hfront
      · obtain rfl := Option.some.inj hnext
        exact laneEffect_of_restance hget hlane (.miss hview fun hcontra => hstate hcontra.1)
      · obtain rfl := Option.some.inj hnext
        exact laneEffect_of_restance hget hlane (.miss hview fun hcontra => hfront hcontra.2)
      · obtain rfl := Option.some.inj hnext
        obtain ⟨rest, hwaiters⟩ := List.head?_eq_some_iff.1 (not_not.1 hfront)
        have hstep := LaneStep.claim hview (not_not.1 hstate) hwaiters
        rw [hwaiters, List.tail_cons]
        exact @laneEffect_of_step _ executor id dispatch hget hlane _ _ none hstep nofun

theorem effect_poll (hlanes : ∀ dispatch ∈ executor.dispatches,
      dispatch.lane < executor.lanes.length) (h : executor.next? (.poll id) = some after) :
    ∃ dispatch, executor.dispatches[id]? = some dispatch ∧
      LaneEffect executor after id dispatch.lane := by
  obtain ⟨dispatch, hget, hnext⟩ := Option.bind_eq_some_iff.1 h
  have hlane := hlanes dispatch (List.mem_of_getElem? hget)
  have hview := viewAt_of_get hget
  refine ⟨dispatch, hget, ?_⟩
  cases hstance : dispatch.stance with
  | admitted => simp [hstance] at hnext
  | holding => simp [hstance] at hnext
  | finished => simp [hstance] at hnext
  | queued waiter phase =>
    cases phase with
    | claiming => simp [hstance] at hnext
    | awaiting =>
      rw [hstance] at hview
      have hstep := @LaneStep.poll _ (executor.laneAt dispatch.lane) _ _ _ hview
      simp only [hstance] at hnext
      rcases hpoll : waiter.poll with ⟨ready, polled⟩
      rw [hpoll] at hnext hstep
      cases ready with
      | true =>
        obtain rfl := Option.some.inj hnext
        exact laneEffect_of_restance hget hlane hstep
      | false =>
        obtain rfl := Option.some.inj hnext
        exact laneEffect_of_restance hget hlane hstep

theorem effect_cancel (horder : ∀ lane, Orderly (executor.laneAt lane) (executor.viewAt lane))
    (h : executor.next? (.cancel id) = some after) :
    ∃ dispatch, executor.dispatches[id]? = some dispatch ∧
      LaneEffect executor after id dispatch.lane := by
  obtain ⟨⟨dispatch, state⟩, hfind, hnext⟩ := Option.bind_eq_some_iff.1 h
  obtain ⟨hget, hlane, rfl⟩ := find?_eq_some hfind
  have hview := viewAt_of_get hget
  refine ⟨dispatch, hget, ?_⟩
  cases hstance : dispatch.stance with
  | holding => simp [hstance] at hnext
  | finished => simp [hstance] at hnext
  | admitted =>
    rw [hstance] at hview
    simp only [hstance] at hnext
    obtain rfl := Option.some.inj hnext
    exact laneEffect_of_restance hget hlane (.leave hview)
  | queued waiter phase =>
    rw [hstance] at hview
    simp only [hstance] at hnext
    obtain rfl := Option.some.inj hnext
    have hqueued : (executor.viewAt dispatch.lane id).IsQueued := by rw [hview]; trivial
    apply laneEffect_of_step hget hlane (.cancel hqueued)
    intro other hother
    have horder := horder dispatch.lane
    have hmem := (horder.mem_waiters id).2 hqueued
    rw [StorageLaneState.cancel_eq hmem] at hother
    dsimp only at hother
    split_ifs at hother
    · exact (horder.mem_waiters other).1 (List.mem_of_mem_erase (List.mem_of_mem_head? hother))
    · cases hother

theorem effect_release (horder : ∀ lane, Orderly (executor.laneAt lane) (executor.viewAt lane))
    (h : executor.next? (.release id) = some after) :
    ∃ dispatch, executor.dispatches[id]? = some dispatch ∧
      LaneEffect executor after id dispatch.lane := by
  obtain ⟨⟨dispatch, state⟩, hfind, hnext⟩ := Option.bind_eq_some_iff.1 h
  obtain ⟨hget, hlane, rfl⟩ := find?_eq_some hfind
  have hview := viewAt_of_get hget
  refine ⟨dispatch, hget, ?_⟩
  cases hstance : dispatch.stance with
  | admitted => simp [hstance] at hnext
  | queued waiter phase => simp [hstance] at hnext
  | finished => simp [hstance] at hnext
  | holding =>
    rw [hstance] at hview
    simp only [hstance] at hnext
    obtain rfl := Option.some.inj hnext
    apply laneEffect_of_step hget hlane (.release hview)
    intro other hother
    unfold StorageLaneState.release at hother
    cases hhead : (executor.laneAt dispatch.lane).waiters.head? with
    | none => simp [hhead] at hother
    | some front =>
      rw [hhead] at hother
      obtain rfl := Option.some.inj hother
      exact ((horder dispatch.lane).mem_waiters front).1 (List.mem_of_mem_head? hhead)

variable {event : LaneEvent}

theorem effect (hlanes : ∀ dispatch ∈ executor.dispatches, dispatch.lane < executor.lanes.length)
    (horder : ∀ lane, Orderly (executor.laneAt lane) (executor.viewAt lane))
    (h : executor.next? event = some after) (hsubject : event.subject = some id) :
    ∃ dispatch, executor.dispatches[id]? = some dispatch ∧
      LaneEffect executor after id dispatch.lane := by
  cases event with
  | dispatch stream => cases hsubject
  | reserve other waiterPermit =>
    obtain rfl := Option.some.inj hsubject
    exact effect_reserve h
  | claim other =>
    obtain rfl := Option.some.inj hsubject
    exact effect_claim h
  | poll other =>
    obtain rfl := Option.some.inj hsubject
    exact effect_poll hlanes h
  | cancel other =>
    obtain rfl := Option.some.inj hsubject
    exact effect_cancel horder h
  | release other =>
    obtain rfl := Option.some.inj hsubject
    exact effect_release horder h

/-- What holds of an executor between events: every lane is in order, and the dispatches of a
stream that are not over refer to the lane that the table has for the stream. -/
structure InOrder (executor : StorageExecutor) : Prop where
  order : ∀ lane, Orderly (executor.laneAt lane) (executor.viewAt lane)
  lanes : ∀ dispatch ∈ executor.dispatches, dispatch.lane < executor.lanes.length
  shared : ∀ dispatch ∈ executor.dispatches, dispatch.stance ≠ .finished →
    executor.streamLanes[dispatch.stream]? = some dispatch.lane

theorem orderly_new : Orderly {} fun _ => .finished where
  nodup := List.nodup_nil
  mem_waiters _ := by simp [Stance.IsQueued]
  holder := nofun
  held := by simp
  idle _ := rfl
  handoff := nofun

theorem IsNew.inOrder (h : executor.IsNew) : executor.InOrder := by
  obtain ⟨hlanes, -, hdispatches⟩ := h
  constructor
  · intro lane
    have hview : executor.viewAt lane = fun _ => .finished := by
      funext id
      simp [viewAt, hdispatches]
    have hlane : executor.laneAt lane = {} := by simp [laneAt, hlanes]
    rw [hview, hlane]
    exact orderly_new
  · simp [hdispatches]
  · simp [hdispatches]

theorem referred_of_mem (hmem : dispatch ∈ executor.dispatches)
    (hstance : dispatch.stance ≠ .finished) : executor.referred dispatch.lane := by
  rw [referred, List.any_eq_true]
  exact ⟨dispatch, hmem, by simp [hstance]⟩

variable {stream : String} {lane : ℕ}

theorem getElem?_referred :
    (executor.streamLanes.filter fun _ lane => executor.referred lane)[stream]? = some lane ↔
      executor.streamLanes[stream]? = some lane ∧ executor.referred lane := by
  rw [Std.ExtTreeMap.getElem?_filter', Option.filter_eq_some_iff]

/-- The executor after a lookup: the lanes in use stay in the table, the lane that was looked up
is there, and no lane changes. -/
structure LookedUp (executor : StorageExecutor) (stream : String) (lane : ℕ)
    (found : StorageExecutor) : Prop where
  dispatches : found.dispatches = executor.dispatches
  laneAt : found.laneAt = executor.laneAt
  length : executor.lanes.length ≤ found.lanes.length
  exists_lane : lane < found.lanes.length
  self : found.streamLanes[stream]? = some lane
  kept : ∀ dispatch ∈ executor.dispatches, dispatch.stance ≠ .finished →
    found.streamLanes[dispatch.stream]? = some dispatch.lane

theorem lookedUp_streamLane (h : executor.InOrder) (stream : String) :
    LookedUp executor stream (executor.streamLane stream).1 (executor.streamLane stream).2 := by
  have hkept : ∀ dispatch ∈ executor.dispatches, dispatch.stance ≠ .finished →
      (executor.streamLanes.filter fun _ lane => executor.referred lane)[dispatch.stream]? =
        some dispatch.lane := by
    intro dispatch hmem hstance
    exact getElem?_referred.2 ⟨h.shared dispatch hmem hstance, referred_of_mem hmem hstance⟩
  unfold streamLane
  cases hget : (executor.streamLanes.filter fun _ lane => executor.referred lane)[stream]? with
  | some lane =>
    simp only [hget]
    obtain ⟨-, hreferred⟩ := getElem?_referred.1 hget
    obtain ⟨other, hother, heq⟩ := List.any_eq_true.1 hreferred
    have hlane := h.lanes other hother
    rw [(of_decide_eq_true heq).1] at hlane
    exact ⟨rfl, rfl, le_rfl, hlane, hget, hkept⟩
  | none =>
    simp only [hget]
    refine ⟨rfl, ?_, by simp, by simp, by simp, ?_⟩
    · funext lane
      rcases Nat.lt_or_ge lane executor.lanes.length with hlane | hlane
      · simp [laneAt, List.getElem?_append_left hlane]
      · rcases Nat.eq_or_lt_of_le hlane with rfl | hlane
        · simp [laneAt]
        · simp [laneAt, List.getElem?_eq_none, hlane.le, Nat.succ_le_of_lt hlane]
    · intro dispatch hmem hstance
      rw [Std.ExtTreeMap.getElem?_insert]
      split_ifs with hsame
      · rw [Std.LawfulEqCmp.eq_of_compare hsame, hkept dispatch hmem hstance] at hget
        cases hget
      · exact hkept dispatch hmem hstance

theorem viewAt_append (executor : StorageExecutor) (new : Dispatch) (lane : ℕ) :
    { executor with dispatches := executor.dispatches ++ [new] }.viewAt lane =
      if new.lane = lane then
        Function.update (executor.viewAt lane) executor.dispatches.length new.stance
      else executor.viewAt lane := by
  funext id
  rcases Nat.lt_trichotomy id executor.dispatches.length with hid | rfl | hid
  · have hget : (executor.dispatches ++ [new])[id]? = executor.dispatches[id]? :=
      List.getElem?_append_left hid
    split_ifs
    · rw [Function.update_of_ne hid.ne, viewAt, viewAt, hget]
    · rw [viewAt, viewAt, hget]
  · split_ifs with hlane
    · simp [viewAt, hlane]
    · simp [viewAt, hlane]
  · have hget : (executor.dispatches ++ [new])[id]? = none := by
      simp [List.getElem?_eq_none, Nat.succ_le_of_lt hid]
    have hold : executor.viewAt lane id = .finished := by
      simp [viewAt, hid.le]
    split_ifs
    · rw [Function.update_of_ne hid.ne', hold, viewAt, hget]
    · rw [hold, viewAt, hget]

theorem viewAt_length (executor : StorageExecutor) (lane : ℕ) :
    executor.viewAt lane executor.dispatches.length = .finished := by
  simp [viewAt]

structure Joins (executor after : StorageExecutor) : Prop where
  laneAt : after.laneAt = executor.laneAt
  viewAt : ∀ lane, after.viewAt lane = executor.viewAt lane ∨
    after.viewAt lane = Function.update (executor.viewAt lane) executor.dispatches.length .admitted
  inOrder : after.InOrder

theorem LookedUp.joins {found : StorageExecutor}
    (h : executor.InOrder) (hfound : LookedUp executor stream lane found) :
    Joins executor { found with
      dispatches := found.dispatches ++ [{ stream, lane, stance := .admitted }] } := by
  have hviews : found.viewAt = executor.viewAt := by
    unfold viewAt
    rw [hfound.dispatches]
  have hview := viewAt_append found { stream, lane, stance := .admitted }
  simp only [hviews, hfound.dispatches] at hview ⊢
  constructor
  · exact hfound.laneAt
  · intro other
    rw [hview]
    split_ifs
    · exact Or.inr rfl
    · exact Or.inl rfl
  constructor
  · intro other
    rw [hview]
    have hlane := h.order other
    rw [← hfound.laneAt] at hlane
    split_ifs
    · apply hlane.restance
      · simp [viewAt_length]
      · simp [viewAt_length]
      · simp [viewAt_length, Stance.Summoned]
    · exact hlane
  · intro dispatch hmem
    rcases List.mem_append.1 hmem with hmem | hmem
    · exact (h.lanes dispatch hmem).trans_le hfound.length
    · rw [List.mem_singleton.1 hmem]
      exact hfound.exists_lane
  · intro dispatch hmem hstance
    rcases List.mem_append.1 hmem with hmem | hmem
    · exact hfound.kept dispatch hmem hstance
    · rw [List.mem_singleton.1 hmem]
      exact hfound.self

theorem joins_dispatchStream (h : executor.InOrder) (stream : String) :
    Joins executor (executor.dispatchStream stream) := by
  unfold dispatchStream
  cases validateName "stream" stream with
  | error error => exact ⟨rfl, fun _ => Or.inl rfl, h⟩
  | ok valid => exact (lookedUp_streamLane h stream).joins h

theorem exists_get_of_places (hplaces : after.places = executor.places)
    (hget : after.dispatches[id]? = some dispatch) :
    ∃ found, executor.dispatches[id]? = some found ∧ found.stream = dispatch.stream ∧
      found.lane = dispatch.lane := by
  have hplace : after.places[id]? = some (dispatch.stream, dispatch.lane) := by
    rw [places, List.getElem?_map, hget]
    rfl
  rw [hplaces, places, List.getElem?_map, Option.map_eq_some_iff] at hplace
  obtain ⟨found, hfound, heq⟩ := hplace
  exact ⟨found, hfound, (Prod.mk.inj heq).1, (Prod.mk.inj heq).2⟩

theorem LaneEffect.inOrder (h : executor.InOrder)
    (heffect : LaneEffect executor after id lane) : after.InOrder := by
  constructor
  · intro other
    by_cases hother : other = lane
    · subst hother
      exact (h.order other).step heffect.step
    · obtain ⟨hlane, hview⟩ := heffect.others other hother
      rw [hlane, hview]
      exact h.order other
  · intro dispatch hmem
    have hplace : (dispatch.stream, dispatch.lane) ∈ after.places := List.mem_map_of_mem hmem
    rw [heffect.places] at hplace
    obtain ⟨found, hfound, heq⟩ := List.mem_map.1 hplace
    have hlane := h.lanes found hfound
    rw [(Prod.mk.inj heq).2, ← heffect.lanes] at hlane
    exact hlane
  · intro dispatch hmem hstance
    obtain ⟨index, hget⟩ := List.mem_iff_getElem?.1 hmem
    obtain ⟨found, hfound, hstream, hlane⟩ := exists_get_of_places heffect.places hget
    -- A dispatch that is not over was not over before.
    have hbefore : found.stance ≠ .finished := by
      intro hover
      rw [← viewAt_of_get hfound, hlane] at hover
      apply hstance
      rw [← viewAt_of_get hget]
      by_cases hother : dispatch.lane = lane
      · rw [hother] at hover ⊢
        exact heffect.step.finished hover
      · rw [(heffect.others _ hother).2]
        exact hover
    have hshared := h.shared found (List.mem_of_getElem? hfound) hbefore
    rw [hstream, hlane] at hshared
    rw [heffect.streamLanes]
    exact hshared

theorem InOrder.step (h : executor.InOrder) (hstep : Step executor event after) :
    after.InOrder := by
  cases hsubject : event.subject with
  | none =>
    cases event with
    | dispatch stream =>
      obtain rfl := Option.some.inj hstep
      exact (joins_dispatchStream h stream).inOrder
    | reserve => cases hsubject
    | claim => cases hsubject
    | poll => cases hsubject
    | cancel => cases hsubject
    | release => cases hsubject
  | some id =>
    obtain ⟨dispatch, -, heffect⟩ := effect h.lanes h.order hstep hsubject
    exact heffect.inOrder h

variable {past : List (StorageExecutor × LaneEvent)}

theorem inOrder_of_run (h : Run IsNew Step past executor) : executor.InOrder :=
  h.invariant (I := InOrder) (fun _ => IsNew.inOrder) fun _ _ _ => InOrder.step

def turns (lane : ℕ) : List (StorageExecutor × LaneEvent) → Turns
  | [] => {}
  | (executor, event) :: past =>
    match event.subject, executor.next? event with
    | some id, some after =>
      (turns lane past).record id (executor.viewAt lane id) (after.viewAt lane id)
    | _, _ => turns lane past

/-- The lane is fair, and its turns are those of dispatches that exist. -/
structure FairAt (executor : StorageExecutor) (past : List (StorageExecutor × LaneEvent))
    (lane : ℕ) : Prop where
  fair : Fair (turns lane past) (executor.laneAt lane) (executor.viewAt lane)
  known : ∀ id ∈ (turns lane past).reserved ++ (turns lane past).acquired ++
    (turns lane past).cancelled, id < executor.dispatches.length

theorem mem_record {turns : Turns} {id other : ℕ} {before after : Stance}
    (h : other ∈ (turns.record id before after).reserved ++
      (turns.record id before after).acquired ++ (turns.record id before after).cancelled) :
    other ∈ turns.reserved ++ turns.acquired ++ turns.cancelled ∨ other = id := by
  simp only [Turns.record, List.mem_append, List.mem_ite_nil_right, List.mem_singleton] at h ⊢
  tauto

theorem LaneEffect.fairAt (h : executor.InOrder) (hstep : Step executor event after)
    (hsubject : event.subject = some id) (hget : executor.dispatches[id]? = some dispatch)
    (heffect : LaneEffect executor after id dispatch.lane) (hfair : FairAt executor past lane) :
    FairAt after ((executor, event) :: past) lane := by
  have hturns : turns lane ((executor, event) :: past) =
      (turns lane past).record id (executor.viewAt lane id) (after.viewAt lane id) := by
    simp only [turns, hsubject, show executor.next? event = some after from hstep]
  have hlength : after.dispatches.length = executor.dispatches.length := by
    have hplaces := congrArg List.length heffect.places
    rwa [StorageExecutor.places, List.length_map, StorageExecutor.places, List.length_map]
      at hplaces
  constructor
  · rw [hturns]
    by_cases hlane : lane = dispatch.lane
    · subst hlane
      exact hfair.fair.step (h.order _) heffect.step
    · obtain ⟨hstate, hview⟩ := heffect.others lane hlane
      rw [hstate, hview, Fair.record_self]
      exact hfair.fair
  · rw [hturns, hlength]
    intro other hother
    rcases mem_record hother with hother | rfl
    · exact hfair.known other hother
    · exact (List.getElem?_eq_some_iff.1 hget).1

theorem length_le_dispatchStream (executor : StorageExecutor) (stream : String) :
    executor.dispatches.length ≤ (executor.dispatchStream stream).dispatches.length := by
  unfold dispatchStream
  cases validateName "stream" stream with
  | error error => exact le_rfl
  | ok valid =>
    have hsame : (executor.streamLane stream).2.dispatches = executor.dispatches := by
      unfold streamLane
      dsimp only
      split <;> rfl
    simp [hsame]

theorem Joins.fairAt (hjoins : Joins executor (executor.dispatchStream stream))
    (hfair : FairAt executor past lane) :
    FairAt (executor.dispatchStream stream) ((executor, .dispatch stream) :: past) lane := by
  constructor
  · rw [hjoins.laneAt]
    rcases hjoins.viewAt lane with hview | hview
    · rw [hview]
      exact hfair.fair
    · rw [hview]
      exact hfair.fair.join fun id hid => (hfair.known id hid).ne
  · intro id hid
    exact (hfair.known id hid).trans_le (length_le_dispatchStream executor stream)

theorem fairAt_of_run
    (h : Run IsNew Step past executor) (lane : ℕ) : FairAt executor past lane := by
  induction h with
  | @start executor hnew =>
    constructor
    · have hlane : executor.laneAt lane = {} := by simp [laneAt, hnew.1]
      rw [hlane]
      exact ⟨rfl, nofun, nofun, nofun, List.nodup_nil⟩
    · nofun
  | @next past executor event after hrun hstep ih =>
    have horder := inOrder_of_run hrun
    cases hsubject : event.subject with
    | none =>
      cases event with
      | dispatch stream =>
        obtain rfl := Option.some.inj hstep
        exact (joins_dispatchStream horder stream).fairAt ih
      | reserve => cases hsubject
      | claim => cases hsubject
      | poll => cases hsubject
      | cancel => cases hsubject
      | release => cases hsubject
    | some id =>
      obtain ⟨dispatch, hget, heffect⟩ := effect horder.lanes horder.order hstep hsubject
      exact heffect.fairAt horder hstep hsubject hget ih

theorem exists_get_of_viewAt (h : executor.viewAt lane id ≠ .finished) :
    ∃ dispatch, executor.dispatches[id]? = some dispatch ∧ dispatch.lane = lane ∧
      executor.viewAt lane id = dispatch.stance := by
  cases hget : executor.dispatches[id]? with
  | none => simp [viewAt, hget] at h
  | some dispatch =>
    by_cases hlane : dispatch.lane = lane
    · exact ⟨dispatch, rfl, hlane, by simp [viewAt, hget, hlane]⟩
    · simp [viewAt, hget, hlane] at h

theorem find?_of_get (h : executor.InOrder) (hget : executor.dispatches[id]? = some dispatch) :
    executor.find? id = some (dispatch, executor.laneAt dispatch.lane) := by
  have hlane := h.lanes dispatch (List.mem_of_getElem? hget)
  simp [find?, hget, laneAt, hlane]

theorem exists_responsible (h : executor.InOrder) (hid : (executor.viewAt lane id).IsQueued) :
    ∃ actor event, event.subject = some actor ∧ (∀ other, event ≠ .cancel other) ∧
      Responsible (executor.laneAt lane) (executor.viewAt lane) actor ∧
      (executor.next? event).isSome := by
  have horder := h.order lane
  have hmem := (horder.mem_waiters id).2 hid
  cases hownership : (executor.laneAt lane).ownership with
  | idle =>
    rw [horder.idle hownership] at hmem
    cases hmem
  | held =>
    obtain ⟨holder, hholder⟩ := horder.held.1 hownership
    obtain ⟨dispatch, hget, rfl, hstance⟩ := exists_get_of_viewAt (by rw [hholder]; nofun)
    refine ⟨holder, .release holder, rfl, nofun, Or.inl hholder, ?_⟩
    rw [hholder] at hstance
    simp [next?, find?_of_get h hget, ← hstance]
  | handoff =>
    obtain ⟨front, rest, hwaiters, hsummoned⟩ := horder.handoff hownership
    have hresponsible : Responsible (executor.laneAt lane) (executor.viewAt lane) front :=
      Or.inr ⟨hownership, by rw [hwaiters]; rfl⟩
    obtain ⟨waiter, phase, hqueued⟩ := Stance.isQueued_iff.1 hsummoned.isQueued
    obtain ⟨dispatch, hget, rfl, hstance⟩ := exists_get_of_viewAt (by rw [hqueued]; nofun)
    rw [hqueued] at hstance
    cases phase with
    | claiming =>
      refine ⟨front, .claim front, rfl, nofun, hresponsible, ?_⟩
      simp only [next?, find?_of_get h hget, ← hstance, Option.bind_eq_bind, Option.bind_some]
      split <;> rfl
    | awaiting =>
      refine ⟨front, .poll front, rfl, nofun, hresponsible, ?_⟩
      simp only [next?, hget, ← hstance, Option.bind_eq_bind, Option.bind_some]
      split <;> rfl

/-- An event after which a dispatch that waits holds the lane, or waits and is no further from
it; if the actor is the one on which it waits, it is nearer. -/
theorem nearer {event : LaneEvent} {lane : ℕ} (h : executor.InOrder)
    (hstep : Step executor event after) (hid : (executor.viewAt lane id).IsQueued)
    (hstays : after.viewAt lane id ≠ .finished) :
    after.viewAt lane id = .holding ∨ (after.viewAt lane id).IsQueued ∧
      stepsAhead (after.laneAt lane) (after.viewAt lane) id ≤
        stepsAhead (executor.laneAt lane) (executor.viewAt lane) id ∧
      ∀ actor, event.subject = some actor →
        Responsible (executor.laneAt lane) (executor.viewAt lane) actor →
        stepsAhead (after.laneAt lane) (after.viewAt lane) id <
          stepsAhead (executor.laneAt lane) (executor.viewAt lane) id := by
  cases hsubject : event.subject with
  | some actor =>
    obtain ⟨dispatch, -, heffect⟩ := effect h.lanes h.order hstep hsubject
    by_cases hlane : lane = dispatch.lane
    · subst hlane
      rcases (h.order _).advances heffect.step hid hstays with hholds | ⟨hqueued, hle, hlt⟩
      · exact Or.inl hholds
      · refine Or.inr ⟨hqueued, hle, fun other hother => ?_⟩
        obtain rfl := Option.some.inj hother
        exact hlt
    · -- An event of another lane, whose actor is not seen from this one.
      obtain ⟨hstate, hview⟩ := heffect.others lane hlane
      rw [hstate, hview]
      refine Or.inr ⟨hid, le_rfl, fun other hother hresponsible => ?_⟩
      obtain rfl := Option.some.inj hother
      obtain ⟨-, -, -, hactor, -⟩ := heffect.step.exists_stance
      have hunseen := viewAt_eq_finished hactor hlane
      rcases hresponsible with hholding | ⟨-, hfront⟩
      · rw [hunseen] at hholding
        cases hholding
      · have hqueued := ((h.order lane).mem_waiters actor).1 (List.mem_of_mem_head? hfront)
        rw [hunseen] at hqueued
        exact hqueued.elim
  | none =>
    cases event with
    | dispatch stream =>
      obtain rfl := Option.some.inj hstep
      have hjoins := joins_dispatchStream h stream
      have hnew : ∀ other, (executor.viewAt lane other).IsQueued →
          (executor.dispatchStream stream).viewAt lane other = executor.viewAt lane other := by
        intro other hother
        rcases hjoins.viewAt lane with hview | hview
        · rw [hview]
        · rw [hview, Function.update_of_ne]
          rintro rfl
          rw [viewAt_length] at hother
          exact hother
      have hsteps : handoverSteps (executor.laneAt lane)
          ((executor.dispatchStream stream).viewAt lane) =
          handoverSteps (executor.laneAt lane) (executor.viewAt lane) := by
        apply handoverSteps_congr rfl rfl
        intro front _ hfront
        exact hnew front (((h.order lane).mem_waiters front).1 (List.mem_of_mem_head? hfront))
      refine Or.inr ⟨?_, ?_, nofun⟩
      · rw [hnew id hid]
        exact hid
      · rw [hjoins.laneAt, stepsAhead, hsteps]
        exact le_rfl
    | reserve => cases hsubject
    | claim => cases hsubject
    | poll => cases hsubject
    | cancel => cases hsubject
    | release => cases hsubject

/-- In every run a stream's lane has one holder at a time; dispatches come to hold it in the
order in which they reserved their places, those that cancelled left out; an idle lane has no
waiter, and the first waiter of a released one is on its way to claim it; so a waiting dispatch
always waits for one that can act, comes nearer with each step that one takes, and is never put
back. -/
theorem lanes_exclusive_fair_live {past : List (StorageExecutor × LaneEvent)}
    (h : Run IsNew Step past executor) :
    (∀ (id other : ℕ) (first second : Dispatch), executor.dispatches[id]? = some first →
      executor.dispatches[other]? = some second → first.stream = second.stream →
      first.stance = .holding → second.stance = .holding → id = other) ∧
    ∀ lane,
      (turns lane past).acquired ++ (executor.laneAt lane).waiters =
        ((turns lane past).reserved.filter fun id => id ∉ (turns lane past).cancelled) ∧
      (turns lane past).reserved.Nodup ∧
      ((executor.laneAt lane).ownership = .idle → ∀ id, ¬ (executor.viewAt lane id).IsQueued) ∧
      ((executor.laneAt lane).ownership = .handoff →
        ∃ front rest, (executor.laneAt lane).waiters = front :: rest ∧
          (executor.viewAt lane front).Summoned) ∧
      ∀ id, (executor.viewAt lane id).IsQueued →
        (∃ actor event, event.subject = some actor ∧ (∀ other, event ≠ .cancel other) ∧
          Responsible (executor.laneAt lane) (executor.viewAt lane) actor ∧
          (executor.next? event).isSome) ∧
        ∀ event after, Step executor event after → after.viewAt lane id ≠ .finished →
          after.viewAt lane id = .holding ∨ (after.viewAt lane id).IsQueued ∧
            stepsAhead (after.laneAt lane) (after.viewAt lane) id ≤
              stepsAhead (executor.laneAt lane) (executor.viewAt lane) id ∧
            ∀ actor, event.subject = some actor →
              Responsible (executor.laneAt lane) (executor.viewAt lane) actor →
              stepsAhead (after.laneAt lane) (after.viewAt lane) id <
                stepsAhead (executor.laneAt lane) (executor.viewAt lane) id := by
  have horder := inOrder_of_run h
  refine ⟨fun id other first second hfirst hsecond hstream hholds hholds' => ?_, fun lane => ?_⟩
  · -- Dispatches of one stream that are not over have one lane.
    have hlane : first.lane = second.lane := by
      have hone := horder.shared first (List.mem_of_getElem? hfirst) (by rw [hholds]; nofun)
      have htwo := horder.shared second (List.mem_of_getElem? hsecond) (by rw [hholds']; nofun)
      rw [hstream, htwo] at hone
      exact (Option.some.inj hone).symm
    apply (horder.order first.lane).holder
    · rw [viewAt_of_get hfirst, hholds]
    · rw [hlane, viewAt_of_get hsecond, hholds']
  · have hfair := (fairAt_of_run h lane).fair
    refine ⟨hfair.order, hfair.nodup, ?_, (horder.order lane).handoff, fun id hid => ?_⟩
    · intro hidle id
      rw [← (horder.order lane).mem_waiters, (horder.order lane).idle hidle]
      exact List.not_mem_nil
    · exact ⟨exists_responsible horder hid, fun event after hstep => nearer horder hstep hid⟩

end StorageExecutor

end Runs

section Examples

/-- The future of a single wait: not polled yet, registered, or woken. -/
inductive Listener where
  | unpolled
  | registered
  | woken
deriving DecidableEq

/-- The permit that a notification leaves if nobody is registered, and the future of the wait. -/
structure Permit where
  kept : Bool := false
  listener : Listener := .unpolled
deriving DecidableEq

/-- A notification wakes the registered future or leaves one permit, which the next wait takes. -/
local instance permitLibrary : NotifyLibrary where
  Notify := Permit
  decidableEq := inferInstance
  new := {}
  notifyOne permit :=
    match permit.listener with
    | .registered => { permit with listener := .woken }
    | .unpolled | .woken => { permit with kept := true }
  poll permit :=
    match permit.listener with
    | .unpolled =>
      if permit.kept then (true, { permit with kept := false })
      else (false, { permit with listener := .registered })
    | .registered => (false, permit)
    | .woken => (true, { permit with listener := .unpolled })
  Permitted permit :=
    permit.listener = .woken ∨ permit.listener = .unpolled ∧ permit.kept = true
  permitted_notifyOne := by
    rintro ⟨kept, listener⟩
    cases listener
    · exact Or.inr ⟨rfl, rfl⟩
    · exact Or.inl rfl
    · exact Or.inl rfl
  poll_of_permitted := by
    rintro ⟨kept, listener⟩ (rfl | ⟨rfl, rfl⟩)
    · rfl
    · rfl

namespace StorageExecutor

/-- Two operations on a stream: the second registers for its notification before the first
releases the lane. -/
def twoDispatches : List LaneEvent :=
  [.dispatch "orders", .dispatch "orders", .reserve 0 true, .reserve 1 true, .claim 1, .poll 1,
    .release 0]

theorem second_dispatch_summoned :
    ∃ past executor, Run IsNew Step past executor ∧ (executor.laneAt 0).ownership = .handoff ∧
      ∃ front rest, (executor.laneAt 0).waiters = front :: rest ∧
        (executor.viewAt 0 front).Summoned := by
  have hsome : (follow next? twoDispatches [] { streamQueueCapacity := 1 }).any fun result =>
      (result.2.laneAt 0).ownership = .handoff := by
    decide +kernel
  obtain ⟨⟨past, executor⟩, hfollow, hhandoff⟩ := (Option.any_eq_true _ _).1 hsome
  have hownership := of_decide_eq_true hhandoff
  have hrun : Run IsNew Step past executor :=
    Run.of_follow (fun _ _ _ _ => id) (.start ⟨rfl, rfl, rfl⟩) hfollow
  obtain ⟨-, -, -, hsummoned, -⟩ := (lanes_exclusive_fair_live hrun).2 0
  exact ⟨past, executor, hrun, hownership, hsummoned hownership⟩

end StorageExecutor

end Examples

end Runnel.Local
