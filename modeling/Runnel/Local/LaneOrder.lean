import Runnel.Foundation.Transition
import Runnel.Local.StorageLane

/-!
# The order of a storage lane

What the dispatches of one lane do, seen from that lane: which of them wait, which
one holds it, and who has been notified.
-/

namespace Runnel.Local

open Runnel.Engine Transition

variable [NotifyLibrary]

namespace Stance

def IsQueued : Stance → Prop
  | .queued _ _ => True
  | _ => False

instance (stance : Stance) : Decidable stance.IsQueued := by
  unfold IsQueued
  cases stance <;> infer_instance

def notified : Stance → Stance
  | .queued waiter phase => .queued waiter.notifyOne phase
  | stance => stance

/-- A waiter that has been notified and will claim its lane without another notification. -/
def Summoned : Stance → Prop
  | .queued waiter phase =>
    waiter.notified ∧
      (phase = .claiming ∨ NotifyLibrary.Permitted waiter.notify)
  | _ => False

variable {stance : Stance}

theorem isQueued_iff :
    stance.IsQueued ↔ ∃ waiter phase, stance = .queued waiter phase := by
  cases stance <;> simp [IsQueued]

@[simp] theorem isQueued_queued (waiter : Waiter) (phase : WaitPhase) :
    (Stance.queued waiter phase).IsQueued := trivial

@[simp] theorem not_isQueued_admitted : ¬ Stance.admitted.IsQueued := not_false

@[simp] theorem not_isQueued_holding : ¬ Stance.holding.IsQueued := not_false

@[simp] theorem not_isQueued_finished : ¬ Stance.finished.IsQueued := not_false

@[simp] theorem isQueued_notified {stance : Stance} :
    stance.notified.IsQueued ↔ stance.IsQueued := by
  cases stance <;> rfl

theorem notified_eq_iff {other : Stance} (hother : ¬ other.IsQueued) :
    stance.notified = other ↔ stance = other := by
  cases stance with
  | queued waiter phase =>
    constructor
    · rintro rfl
      exact absurd trivial hother
    · rintro rfl
      exact absurd trivial hother
  | admitted => rfl
  | holding => rfl
  | finished => rfl

theorem IsQueued.summoned_notified (h : stance.IsQueued) :
    stance.notified.Summoned := by
  obtain ⟨waiter, phase, rfl⟩ := isQueued_iff.1 h
  exact ⟨rfl, Or.inr (NotifyLibrary.permitted_notifyOne waiter.notify)⟩

theorem Summoned.isQueued (h : stance.Summoned) : stance.IsQueued := by
  cases stance with
  | queued waiter phase => trivial
  | admitted => exact h.elim
  | holding => exact h.elim
  | finished => exact h.elim

end Stance

abbrev LaneView := ℕ → Stance

def LaneView.notify (view : LaneView) : Option ℕ → LaneView
  | some id => Function.update view id (view id).notified
  | none => view

@[simp] theorem LaneView.isQueued_notify (view : LaneView) (target : Option ℕ) (id : ℕ) :
    (view.notify target id).IsQueued ↔ (view id).IsQueued := by
  cases target with
  | none => rfl
  | some other =>
    by_cases h : id = other
    · subst h
      simp [LaneView.notify]
    · simp [LaneView.notify, h]

theorem LaneView.notify_eq_iff (view : LaneView) (target : Option ℕ) (id : ℕ) {stance : Stance}
    (hstance : ¬ stance.IsQueued) : view.notify target id = stance ↔ view id = stance := by
  cases target with
  | none => rfl
  | some other =>
    by_cases h : id = other
    · subst h
      rw [LaneView.notify, Function.update_self, Stance.notified_eq_iff hstance]
    · rw [LaneView.notify, Function.update_of_ne h]

/-- What a dispatch of a lane can do. -/
inductive LaneStep : StorageLaneState → LaneView → ℕ → StorageLaneState → LaneView → Prop
  | take {state view id} : view id = .admitted → state.ownership = .idle → state.waiters = [] →
    LaneStep state view id { state with ownership := .held } (Function.update view id .holding)
  | queue {state view id} : view id = .admitted →
    ¬ (state.ownership = .idle ∧ state.waiters = []) →
    LaneStep state view id { state with waiters := state.waiters ++ [id] }
      (Function.update view id (.queued {} .claiming))
  | leave {state view id} : view id = .admitted →
    LaneStep state view id state (Function.update view id .finished)
  | claim {state view id waiter rest} : view id = .queued waiter .claiming →
    state.ownership = .handoff → state.waiters = id :: rest →
    LaneStep state view id { ownership := .held, waiters := rest }
      (Function.update view id .holding)
  | miss {state view id waiter} : view id = .queued waiter .claiming →
    ¬ (state.ownership = .handoff ∧ state.waiters.head? = some id) →
    LaneStep state view id state (Function.update view id (.queued waiter .awaiting))
  | poll {state view id waiter} : view id = .queued waiter .awaiting →
    LaneStep state view id state (Function.update view id
      (.queued waiter.poll.2 (if waiter.poll.1 then .claiming else .awaiting)))
  | cancel {state view id} : (view id).IsQueued →
    LaneStep state view id (state.cancel id).1
      (LaneView.notify (Function.update view id .finished) (state.cancel id).2)
  | release {state view id} : view id = .holding →
    LaneStep state view id state.release.1
      (LaneView.notify (Function.update view id .finished) state.release.2)

/-- What holds of a lane between steps. -/
structure Orderly (state : StorageLaneState) (view : LaneView) : Prop where
  nodup : state.waiters.Nodup
  mem_waiters : ∀ id, id ∈ state.waiters ↔ (view id).IsQueued
  holder : ∀ id other, view id = .holding → view other = .holding → id = other
  held : state.ownership = .held ↔ ∃ id, view id = .holding
  idle : state.ownership = .idle → state.waiters = []
  handoff : state.ownership = .handoff →
    ∃ front rest, state.waiters = front :: rest ∧ (view front).Summoned

variable {state : StorageLaneState} {id : ℕ}

omit [NotifyLibrary] in
theorem StorageLaneState.cancel_eq (h : id ∈ state.waiters) :
    state.cancel id =
      ({ ownership := if state.ownership = .handoff ∧ (state.waiters.erase id).isEmpty then .idle
          else state.ownership
         waiters := state.waiters.erase id },
        if state.waiters.head? = some id then (state.waiters.erase id).head? else none) := by
  obtain ⟨before, after, hsplit, hbefore⟩ := List.eq_append_cons_of_mem h
  have hposition : state.waiters.idxOf? id = some before.length := by
    rw [hsplit, List.idxOf?, List.findIdx?_append, List.findIdx?_eq_none_iff.2 ?_]
    · simp [List.findIdx?_cons]
    · intro other hother
      exact beq_false_of_ne (ne_of_mem_of_not_mem hother hbefore)
  have herase : state.waiters.eraseIdx before.length = state.waiters.erase id := by
    rw [hsplit, List.erase_append_right _ hbefore, List.erase_cons_head,
      List.eraseIdx_append_of_length_le le_rfl, Nat.sub_self, List.eraseIdx_cons_zero]
  have hfirst : before.length = 0 ↔ state.waiters.head? = some id := by
    cases before with
    | nil => simp [hsplit]
    | cons first before => simp [hsplit, ne_of_mem_of_not_mem List.mem_cons_self hbefore]
  simp only [cancel, hposition, herase, hfirst]

namespace Orderly

variable {state : StorageLaneState} {view : LaneView} {id : ℕ}

theorem restance (h : Orderly state view) {stance : Stance}
    (hqueued : stance.IsQueued ↔ (view id).IsQueued)
    (hholding : stance = .holding ↔ view id = .holding)
    (hfront : state.ownership = .handoff → state.waiters.head? = some id →
      (view id).Summoned → stance.Summoned) :
    Orderly state (Function.update view id stance) := by
  have hholds : ∀ other, Function.update view id stance other = .holding ↔
      view other = .holding := by
    intro other
    by_cases hother : other = id
    · subst hother
      rw [Function.update_self, hholding]
    · rw [Function.update_of_ne hother]
  constructor
  · exact h.nodup
  · intro other
    rw [h.mem_waiters]
    by_cases hother : other = id
    · subst hother
      rw [Function.update_self, hqueued]
    · rw [Function.update_of_ne hother]
  · intro first second hfirst hsecond
    exact h.holder first second ((hholds first).1 hfirst) ((hholds second).1 hsecond)
  · simp only [hholds]
    exact h.held
  · exact h.idle
  · intro hhandoff
    obtain ⟨front, rest, hwaiters, hsummoned⟩ := h.handoff hhandoff
    refine ⟨front, rest, hwaiters, ?_⟩
    by_cases hother : front = id
    · subst hother
      rw [Function.update_self]
      exact hfront hhandoff (by rw [hwaiters]; rfl) hsummoned
    · rw [Function.update_of_ne hother]
      exact hsummoned

theorem not_holding (h : Orderly state view) (hstate : state.ownership ≠ .held) (id : ℕ) :
    view id ≠ .holding :=
  fun hid => hstate (h.held.2 ⟨id, hid⟩)

variable {rest : List ℕ}

theorem hold (h : Orderly state view) (hstate : state.ownership ≠ .held)
    (hnodup : rest.Nodup) (hrest : ∀ other, other ∈ rest ↔ other ∈ state.waiters ∧ other ≠ id) :
    Orderly { ownership := .held, waiters := rest } (Function.update view id .holding) := by
  have honly : ∀ other, Function.update view id .holding other = .holding → other = id := by
    intro other hother
    by_contra hne
    rw [Function.update_of_ne hne] at hother
    exact h.not_holding hstate other hother
  constructor
  · exact hnodup
  · intro other
    rw [hrest]
    by_cases hother : other = id
    · subst hother
      simp [Stance.IsQueued]
    · rw [Function.update_of_ne hother, h.mem_waiters, and_iff_left hother]
  · intro first second hfirst hsecond
    rw [honly first hfirst, honly second hsecond]
  · simp only [true_iff]
    exact ⟨id, Function.update_self ..⟩
  · intro hcontra
    cases hcontra
  · intro hcontra
    cases hcontra

theorem take (h : Orderly state view) (hidle : state.ownership = .idle)
    (hwaiters : state.waiters = []) :
    Orderly { state with ownership := .held } (Function.update view id .holding) := by
  rw [hwaiters]
  apply h.hold
  · rw [hidle]
    nofun
  · exact List.nodup_nil
  · simp [hwaiters]

theorem claim (h : Orderly state view) (hhandoff : state.ownership = .handoff)
    (hwaiters : state.waiters = id :: rest) :
    Orderly { ownership := .held, waiters := rest } (Function.update view id .holding) := by
  have hnodup := h.nodup
  rw [hwaiters, List.nodup_cons] at hnodup
  apply h.hold
  · rw [hhandoff]
    nofun
  · exact hnodup.2
  · intro other
    rw [hwaiters, List.mem_cons]
    constructor
    · intro hother
      exact ⟨Or.inr hother, ne_of_mem_of_not_mem hother hnodup.1⟩
    · rintro ⟨rfl | hother, hne⟩
      · exact absurd rfl hne
      · exact hother

theorem queue (h : Orderly state view) (hid : view id = .admitted)
    (hbusy : ¬ (state.ownership = .idle ∧ state.waiters = [])) :
    Orderly { state with waiters := state.waiters ++ [id] }
      (Function.update view id (.queued {} .claiming)) := by
  have hnew : id ∉ state.waiters := by
    rw [h.mem_waiters, hid]
    exact not_false
  have hholds : ∀ other, Function.update view id (.queued {} .claiming) other = .holding ↔
      view other = .holding := by
    intro other
    by_cases hother : other = id
    · subst hother
      simp [hid]
    · rw [Function.update_of_ne hother]
  constructor
  · exact List.nodup_append.2 ⟨h.nodup, List.nodup_singleton id, by
      intro a ha b hb
      rw [List.mem_singleton.1 hb]
      exact ne_of_mem_of_not_mem ha hnew⟩
  · intro other
    rw [List.mem_append, List.mem_singleton, h.mem_waiters]
    by_cases hother : other = id
    · subst hother
      simp
    · simp [hother]
  · intro first second hfirst hsecond
    exact h.holder first second ((hholds first).1 hfirst) ((hholds second).1 hsecond)
  · simp only [hholds]
    exact h.held
  · intro hidle
    exact absurd ⟨hidle, h.idle hidle⟩ hbusy
  · intro hhandoff
    obtain ⟨front, rest, hwaiters, hsummoned⟩ := h.handoff hhandoff
    refine ⟨front, rest ++ [id], by simp [hwaiters], ?_⟩
    rw [Function.update_of_ne]
    · exact hsummoned
    · rintro rfl
      rw [hid] at hsummoned
      exact hsummoned

/-- A dispatch that gives up its place or the lane. The waiter that comes to the front of a
released lane is notified. -/
theorem depart (h : Orderly state view) {ownership : LaneOwnership}
    {target : Option ℕ} (hnodup : rest.Nodup)
    (hrest : ∀ other, other ∈ rest ↔ other ∈ state.waiters ∧ other ≠ id)
    (hheld : ownership = .held ↔ state.ownership = .held ∧ view id ≠ .holding)
    (hidle : ownership = .idle → rest = [])
    (hhandoff : ownership = .handoff → ∃ front after, rest = front :: after ∧
      (target = some front ∨ target = none ∧ (view front).Summoned)) :
    Orderly { ownership, waiters := rest }
      (LaneView.notify (Function.update view id .finished) target) := by
  have hholds : ∀ other, LaneView.notify (Function.update view id .finished) target other =
      .holding ↔ view other = .holding ∧ other ≠ id := by
    intro other
    rw [LaneView.notify_eq_iff _ _ _ Stance.not_isQueued_holding]
    by_cases hother : other = id
    · subst hother
      simp
    · simp [hother]
  have hwaits : ∀ other, other ∈ rest ↔
      (Function.update view id .finished other).IsQueued := by
    intro other
    rw [hrest, h.mem_waiters]
    by_cases hother : other = id
    · subst hother
      simp [Stance.IsQueued]
    · simp [hother]
  constructor
  · exact hnodup
  · intro other
    rw [LaneView.isQueued_notify]
    exact hwaits other
  · intro first second hfirst hsecond
    exact h.holder first second ((hholds first).1 hfirst).1 ((hholds second).1 hsecond).1
  · simp only [hholds]
    rw [hheld, h.held]
    constructor
    · rintro ⟨⟨holder, hholder⟩, hid⟩
      exact ⟨holder, hholder, ne_of_apply_ne view (by rw [hholder]; exact hid.symm)⟩
    · rintro ⟨holder, hholder, hne⟩
      exact ⟨⟨holder, hholder⟩, fun hid => hne (h.holder holder id hholder hid)⟩
  · exact hidle
  · intro hstate
    obtain ⟨front, after, hfront, htarget⟩ := hhandoff hstate
    refine ⟨front, after, hfront, ?_⟩
    have hqueued : (Function.update view id .finished front).IsQueued := by
      rw [← hwaits, hfront]
      exact List.mem_cons_self
    rcases htarget with rfl | ⟨rfl, hsummoned⟩
    · rw [LaneView.notify, Function.update_self]
      exact hqueued.summoned_notified
    · have hne : front ≠ id := by
        rintro rfl
        rw [Function.update_self] at hqueued
        exact hqueued
      rw [LaneView.notify, Function.update_of_ne hne]
      exact hsummoned

theorem cancel (h : Orderly state view) (hid : (view id).IsQueued) :
    Orderly (state.cancel id).1
      (LaneView.notify (Function.update view id .finished) (state.cancel id).2) := by
  have hmem : id ∈ state.waiters := (h.mem_waiters id).2 hid
  have hholding : view id ≠ .holding := by
    intro hcontra
    rw [hcontra] at hid
    exact hid
  rw [StorageLaneState.cancel_eq hmem]
  apply h.depart
  · exact h.nodup.erase id
  · intro other
    rw [h.nodup.mem_erase_iff, and_comm]
  · rw [and_iff_left hholding]
    split_ifs with hempty
    · simp [hempty.1]
    · rfl
  · intro hidle
    split_ifs at hidle with hempty
    · exact List.isEmpty_iff.1 hempty.2
    · rw [h.idle hidle] at hmem
      cases hmem
  · intro hhandoff
    split_ifs at hhandoff with hempty
    obtain ⟨front, rest, hwaiters, hsummoned⟩ := h.handoff hhandoff
    have hnonempty : ¬ (state.waiters.erase id).isEmpty := fun hcontra => hempty ⟨hhandoff, hcontra⟩
    by_cases hfirst : front = id
    · subst hfirst
      rw [hwaiters, List.erase_cons_head] at hnonempty ⊢
      cases rest with
      | nil => exact absurd rfl hnonempty
      | cons second rest => exact ⟨second, rest, rfl, Or.inl (by simp)⟩
    · refine ⟨front, rest.erase id, ?_, Or.inr ⟨?_, hsummoned⟩⟩
      · rw [hwaiters, List.erase_cons_tail (by simpa using hfirst)]
      · simp [hwaiters, hfirst]

theorem release (h : Orderly state view) (hid : view id = .holding) :
    Orderly state.release.1
      (LaneView.notify (Function.update view id .finished) state.release.2) := by
  have hne : ∀ other ∈ state.waiters, other ≠ id := by
    rintro other hother rfl
    have hqueued := (h.mem_waiters other).1 hother
    rw [hid] at hqueued
    exact hqueued
  have hrest : ∀ other, other ∈ state.waiters ↔ other ∈ state.waiters ∧ other ≠ id := by
    intro other
    exact ⟨fun hother => ⟨hother, hne other hother⟩, And.left⟩
  unfold StorageLaneState.release
  cases hhead : state.waiters.head? with
  | none =>
    refine h.depart h.nodup hrest ?_ ?_ ?_
    · simp [hid]
    · intro _
      exact List.head?_eq_none_iff.1 hhead
    · intro hcontra
      cases hcontra
  | some front =>
    refine h.depart h.nodup hrest ?_ ?_ ?_
    · simp [hid]
    · intro hcontra
      cases hcontra
    · intro _
      obtain ⟨rest, hrest⟩ := List.head?_eq_some_iff.1 hhead
      exact ⟨front, rest, hrest, Or.inl rfl⟩

theorem poll (h : Orderly state view) {waiter : Waiter} (hid : view id = .queued waiter .awaiting) :
    Orderly state (Function.update view id
      (.queued waiter.poll.2 (if waiter.poll.1 then .claiming else .awaiting))) := by
  apply h.restance
  · simp [hid]
  · simp [hid]
  · intro _ _ hsummoned
    rw [hid] at hsummoned
    obtain ⟨hnotified, hcontra | hpermitted⟩ := hsummoned
    · cases hcontra
    · have hready : waiter.poll.1 = true := NotifyLibrary.poll_of_permitted _ hpermitted
      rw [hready, if_pos rfl]
      exact ⟨hnotified, Or.inl rfl⟩

theorem step (h : Orderly state view) {after : StorageLaneState} {later : LaneView}
    (hstep : LaneStep state view id after later) : Orderly after later := by
  cases hstep with
  | take hid hidle hwaiters => exact h.take hidle hwaiters
  | queue hid hbusy => exact h.queue hid hbusy
  | leave hid =>
    exact h.restance (by simp [hid, Stance.IsQueued]) (by simp [hid])
      (by simp [hid, Stance.Summoned])
  | claim hid hhandoff hwaiters => exact h.claim hhandoff hwaiters
  | miss hid hmissed =>
    apply h.restance
    · simp [hid]
    · simp [hid]
    · intro hhandoff hfront
      exact absurd ⟨hhandoff, hfront⟩ hmissed
  | poll hid => exact h.poll hid
  | cancel hid => exact h.cancel hid
  | release hid => exact h.release hid

end Orderly

/-- The steps until the next dispatch holds the lane: its release, a poll and a claim. -/
def handoverSteps (state : StorageLaneState) (view : LaneView) : ℕ :=
  match state.ownership, state.waiters.head? with
  | .handoff, some front =>
    match view front with
    | .queued _ .claiming => 1
    | _ => 2
  | _, _ => 3

/-- The steps until a waiting dispatch holds the lane, if none before it cancels. -/
def stepsAhead (state : StorageLaneState) (view : LaneView) (id : ℕ) : ℕ :=
  3 * state.waiters.idxOf id + handoverSteps state view

/-- The dispatch on which the others wait: the holder, or the waiter that must claim. -/
def Responsible (state : StorageLaneState) (view : LaneView) (id : ℕ) : Prop :=
  view id = .holding ∨ state.ownership = .handoff ∧ state.waiters.head? = some id

theorem handoverSteps_of_not_handoff (view : LaneView)
    (h : state.ownership ≠ .handoff) : handoverSteps state view = 3 := by
  unfold handoverSteps
  cases hstate : state.ownership with
  | handoff => exact absurd hstate h
  | idle => rfl
  | held => rfl

theorem handoverSteps_bounds (state : StorageLaneState) (view : LaneView) :
    1 ≤ handoverSteps state view ∧ handoverSteps state view ≤ 3 := by
  unfold handoverSteps
  split
  · split <;> simp
  · simp

theorem handoverSteps_of_handoff (view : LaneView) {front : ℕ}
    (h : state.ownership = .handoff) (hfront : state.waiters.head? = some front) :
    handoverSteps state view ≤ 2 := by
  unfold handoverSteps
  simp only [h, hfront]
  split <;> simp

variable {view later : LaneView}

theorem handoverSteps_congr {after : StorageLaneState}
    (hownership : after.ownership = state.ownership)
    (hfront : after.waiters.head? = state.waiters.head?)
    (hview : ∀ front, state.ownership = .handoff → state.waiters.head? = some front →
      later front = view front) :
    handoverSteps after later = handoverSteps state view := by
  unfold handoverSteps
  rw [hownership, hfront]
  cases hstate : state.ownership with
  | idle => rfl
  | held => rfl
  | handoff =>
    cases hhead : state.waiters.head? with
    | none => rfl
    | some front =>
      dsimp only
      rw [hview front hstate hhead]

/-- A step after which a dispatch holds the lane, or waits and is no further from it. -/
def Advances (state : StorageLaneState) (view : LaneView) (actor : ℕ) (after : StorageLaneState)
    (later : LaneView) (id : ℕ) : Prop :=
  later id = .holding ∨ (later id).IsQueued ∧ stepsAhead after later id ≤ stepsAhead state view id ∧
    (Responsible state view actor → stepsAhead after later id < stepsAhead state view id)

theorem Advances.of_unchanged {waiters : List ℕ} {actor : ℕ} (hid : (later id).IsQueued)
    (hposition : waiters.idxOf id ≤ state.waiters.idxOf id)
    (hfront : waiters.head? = state.waiters.head?)
    (hview : ∀ front, state.ownership = .handoff → state.waiters.head? = some front →
      later front = view front)
    (hactor : ¬ Responsible state view actor) :
    Advances state view actor { state with waiters } later id := by
  have hsteps : handoverSteps { state with waiters } later = handoverSteps state view :=
    handoverSteps_congr rfl hfront hview
  refine Or.inr ⟨hid, ?_, fun h => absurd h hactor⟩
  unfold stepsAhead
  rw [hsteps]
  exact Nat.add_le_add_right (Nat.mul_le_mul_left 3 hposition) _

theorem Advances.of_lt {after : StorageLaneState} {actor : ℕ}
    (hid : (later id).IsQueued) (h : stepsAhead after later id < stepsAhead state view id) :
    Advances state view actor after later id :=
  Or.inr ⟨hid, h.le, fun _ => h⟩

theorem not_responsible_of_queued (hid : view id ≠ .holding)
    (hfront : ¬ (state.ownership = .handoff ∧ state.waiters.head? = some id)) :
    ¬ Responsible state view id := by
  rintro (h | h)
  · exact hid h
  · exact hfront h

omit [NotifyLibrary] in
theorem idxOf_erase_le {waiters : List ℕ} {other : ℕ} (hne : id ≠ other) :
    (waiters.erase other).idxOf id ≤ waiters.idxOf id := by
  induction waiters with
  | nil => exact le_rfl
  | cons first rest ih =>
    by_cases hother : first = other
    · subst hother
      rw [List.erase_cons_head, List.idxOf_cons_ne _ (Ne.symm hne)]
      exact Nat.le_succ _
    · rw [List.erase_cons_tail (by simpa using hother)]
      by_cases hid : first = id
      · subst hid
        simp
      · rw [List.idxOf_cons_ne _ hid, List.idxOf_cons_ne _ hid]
        exact Nat.succ_le_succ ih

namespace Orderly

variable {state : StorageLaneState} {view : LaneView} {actor id : ℕ}

theorem advances_cancel (h : Orderly state view) (hactor : (view actor).IsQueued)
    (hid : (view id).IsQueued) (hne : id ≠ actor) :
    Advances state view actor (state.cancel actor).1
      (LaneView.notify (Function.update view actor .finished) (state.cancel actor).2) id := by
  have hmem := (h.mem_waiters actor).2 hactor
  have hmemid := (h.mem_waiters id).2 hid
  have hqueued : ∀ target, (LaneView.notify (Function.update view actor .finished)
      target id).IsQueued := by
    intro target
    rw [LaneView.isQueued_notify, Function.update_of_ne hne]
    exact hid
  have hholding : view actor ≠ .holding := by
    intro hcontra
    rw [hcontra] at hactor
    exact hactor
  have hremains : id ∈ state.waiters.erase actor := (List.mem_erase_of_ne hne).2 hmemid
  have hempty : ¬ (state.waiters.erase actor).isEmpty := by
    rw [List.isEmpty_iff]
    exact List.ne_nil_of_mem hremains
  rw [StorageLaneState.cancel_eq hmem]
  simp only [hempty, Bool.false_eq_true, and_false, if_false]
  obtain ⟨front, rest, hwaiters⟩ := List.exists_cons_of_ne_nil (List.ne_nil_of_mem hmem)
  by_cases hfront : front = actor
  · subst hfront
    apply Advances.of_lt (hqueued _)
    have hposition : state.waiters.idxOf id = rest.idxOf id + 1 := by
      rw [hwaiters, List.idxOf_cons_ne _ (Ne.symm hne)]
    have herase : state.waiters.erase front = rest := by
      rw [hwaiters, List.erase_cons_head]
    have hbefore := (handoverSteps_bounds state view).1
    unfold stepsAhead
    rw [herase, hposition]
    refine lt_of_le_of_lt (Nat.add_le_add_left (handoverSteps_bounds _ _).2 _) ?_
    dsimp only
    omega
  · have hhead : state.waiters.head? ≠ some actor := by
      rw [hwaiters]
      exact fun hcontra => hfront (Option.some.inj hcontra)
    rw [if_neg hhead]
    apply Advances.of_unchanged (hqueued _)
    · exact idxOf_erase_le hne
    · rw [hwaiters, List.erase_cons_tail (by simpa using hfront)]
      rfl
    · intro first _ hfirst
      apply Function.update_of_ne
      rintro rfl
      exact hhead hfirst
    · exact not_responsible_of_queued hholding fun hcontra => hhead hcontra.2

theorem advances_release (h : Orderly state view) (hactor : view actor = .holding)
    (hid : (view id).IsQueued) :
    Advances state view actor state.release.1
      (LaneView.notify (Function.update view actor .finished) state.release.2) id := by
  have hne : id ≠ actor := by
    rintro rfl
    rw [hactor] at hid
    exact hid
  have hmem := (h.mem_waiters id).2 hid
  have hheld : state.ownership = .held := h.held.2 ⟨actor, hactor⟩
  obtain ⟨front, rest, hwaiters⟩ := List.exists_cons_of_ne_nil (List.ne_nil_of_mem hmem)
  have hhead : state.waiters.head? = some front := by rw [hwaiters]; rfl
  have hrelease : state.release = ({ state with ownership := .handoff }, some front) := by
    rw [StorageLaneState.release, hhead]
  rw [hrelease]
  apply Advances.of_lt
  · rw [LaneView.isQueued_notify, Function.update_of_ne hne]
    exact hid
  · have hbefore : handoverSteps state view = 3 :=
      handoverSteps_of_not_handoff view (by rw [hheld]; nofun)
    have hafter : handoverSteps { state with ownership := .handoff }
        (LaneView.notify (Function.update view actor .finished) (some front)) ≤ 2 :=
      handoverSteps_of_handoff _ rfl hhead
    unfold stepsAhead
    dsimp only
    omega

theorem advances_claim {rest : List ℕ} {waiter : Waiter}
    (hactor : view actor = .queued waiter .claiming) (hhandoff : state.ownership = .handoff)
    (hwaiters : state.waiters = actor :: rest) (hid : (view id).IsQueued) :
    Advances state view actor { ownership := .held, waiters := rest }
      (Function.update view actor .holding) id := by
  by_cases hne : id = actor
  · subst hne
    exact Or.inl (Function.update_self ..)
  · apply Advances.of_lt
    · rw [Function.update_of_ne hne]
      exact hid
    · have hbefore : handoverSteps state view = 1 := by
        simp [handoverSteps, hhandoff, hwaiters, hactor]
      have hafter : handoverSteps { ownership := .held, waiters := rest }
          (Function.update view actor .holding) = 3 := handoverSteps_of_not_handoff _ nofun
      unfold stepsAhead
      rw [hbefore, hafter, hwaiters, List.idxOf_cons_ne _ (Ne.symm hne)]
      dsimp only
      omega

theorem advances_poll (h : Orderly state view) {waiter : Waiter}
    (hactor : view actor = .queued waiter .awaiting) (hid : (view id).IsQueued) :
    Advances state view actor state (Function.update view actor
      (.queued waiter.poll.2 (if waiter.poll.1 then .claiming else .awaiting))) id := by
  have hqueued : (Function.update view actor (.queued waiter.poll.2
      (if waiter.poll.1 then .claiming else .awaiting)) id).IsQueued := by
    by_cases hne : id = actor
    · subst hne
      rw [Function.update_self]
      trivial
    · rw [Function.update_of_ne hne]
      exact hid
  by_cases hfront : state.ownership = .handoff ∧ state.waiters.head? = some actor
  · apply Advances.of_lt hqueued
    obtain ⟨front, rest, hwaiters, hsummoned⟩ := h.handoff hfront.1
    obtain rfl : front = actor := by
      have hhead := hfront.2
      rw [hwaiters] at hhead
      exact Option.some.inj hhead
    -- A summoned waiter that is polled goes on to claim.
    have hready : waiter.poll.1 = true := by
      rw [hactor] at hsummoned
      obtain ⟨-, hcontra | hpermitted⟩ := hsummoned
      · cases hcontra
      · exact NotifyLibrary.poll_of_permitted _ hpermitted
    unfold stepsAhead
    simp [handoverSteps, hfront, hactor, hready]
  · apply Advances.of_unchanged hqueued le_rfl rfl
    · intro front hhandoff hhead
      apply Function.update_of_ne
      rintro rfl
      exact hfront ⟨hhandoff, hhead⟩
    · exact not_responsible_of_queued (by rw [hactor]; nofun) hfront

/-- A step of any dispatch brings a waiting one no further from the lane, a step of the
dispatch on which it waits brings it nearer. -/
theorem advances (h : Orderly state view) {after : StorageLaneState} {later : LaneView}
    (hstep : LaneStep state view actor after later) (hid : (view id).IsQueued)
    (hstays : later id ≠ .finished) : Advances state view actor after later id := by
  have hmem := (h.mem_waiters id).2 hid
  have hother : view actor = .admitted → id ≠ actor := by
    rintro hactor rfl
    rw [hactor] at hid
    exact hid
  have hadmitted : view actor = .admitted → ¬ Responsible state view actor := by
    intro hactor
    apply not_responsible_of_queued
    · rw [hactor]
      nofun
    · rintro ⟨-, hhead⟩
      have hqueued := (h.mem_waiters actor).1 (List.mem_of_mem_head? hhead)
      rw [hactor] at hqueued
      exact hqueued
  cases hstep with
  | take hactor hidle hwaiters =>
    rw [hwaiters] at hmem
    cases hmem
  | queue hactor hbusy =>
    have hhead : (state.waiters ++ [actor]).head? = state.waiters.head? := by
      rw [List.head?_append_of_ne_nil _ (List.ne_nil_of_mem hmem)]
    apply Advances.of_unchanged
    · rw [Function.update_of_ne (hother hactor)]
      exact hid
    · rw [List.idxOf_append_of_mem hmem]
    · exact hhead
    · intro front hhandoff hfront
      apply Function.update_of_ne
      rintro rfl
      exact hadmitted hactor (Or.inr ⟨hhandoff, hfront⟩)
    · exact hadmitted hactor
  | leave hactor =>
    apply Advances.of_unchanged
    · rw [Function.update_of_ne (hother hactor)]
      exact hid
    · exact le_rfl
    · rfl
    · intro front hhandoff hfront
      apply Function.update_of_ne
      rintro rfl
      exact hadmitted hactor (Or.inr ⟨hhandoff, hfront⟩)
    · exact hadmitted hactor
  | claim hactor hhandoff hwaiters => exact advances_claim hactor hhandoff hwaiters hid
  | @miss waiter hactor hmissed =>
    apply Advances.of_unchanged
    · by_cases hne : id = actor
      · subst hne
        rw [Function.update_self]
        trivial
      · rw [Function.update_of_ne hne]
        exact hid
    · exact le_rfl
    · rfl
    · intro front hhandoff hfront
      apply Function.update_of_ne
      rintro rfl
      exact hmissed ⟨hhandoff, hfront⟩
    · exact not_responsible_of_queued (by rw [hactor]; nofun) hmissed
  | poll hactor => exact h.advances_poll hactor hid
  | cancel hactor =>
    apply h.advances_cancel hactor hid
    rintro rfl
    apply hstays
    cases htarget : (state.cancel id).2 with
    | none => exact Function.update_self ..
    | some target =>
      by_cases hsame : id = target
      · subst hsame
        simp [LaneView.notify, Stance.notified]
      · simp [LaneView.notify, hsame]
  | release hactor => exact h.advances_release hactor hid

end Orderly

namespace LaneStep

variable {state after : StorageLaneState} {view later : LaneView} {actor id : ℕ}

theorem exists_stance (h : LaneStep state view actor after later) :
    ∃ stance target, later = LaneView.notify (Function.update view actor stance) target ∧
      view actor ≠ .finished ∧ stance ≠ .admitted ∧
      (view actor = .holding → stance = .finished) := by
  cases h with
  | take hactor _ _ => exact ⟨.holding, none, rfl, by simp [hactor]⟩
  | queue hactor _ => exact ⟨.queued {} .claiming, none, rfl, by simp [hactor]⟩
  | leave hactor => exact ⟨.finished, none, rfl, by simp [hactor]⟩
  | claim hactor _ _ => exact ⟨.holding, none, rfl, by simp [hactor]⟩
  | @miss waiter hactor _ => exact ⟨.queued waiter .awaiting, none, rfl, by simp [hactor]⟩
  | poll hactor => exact ⟨_, none, rfl, by simp [hactor]⟩
  | cancel hactor =>
    obtain ⟨waiter, phase, hqueued⟩ := Stance.isQueued_iff.1 hactor
    exact ⟨.finished, _, rfl, by simp [hqueued]⟩
  | release hactor => exact ⟨.finished, _, rfl, by simp [hactor]⟩

theorem unmoved (h : LaneStep state view actor after later) (hne : id ≠ actor)
    (hid : ¬ (view id).IsQueued) : later id = view id := by
  obtain ⟨stance, target, rfl, -⟩ := h.exists_stance
  exact (LaneView.notify_eq_iff _ target id hid).2 (Function.update_of_ne hne ..)

theorem finished (h : LaneStep state view actor after later) (hid : view id = .finished) :
    later id = .finished := by
  obtain ⟨-, -, -, hactor, -⟩ := h.exists_stance
  rw [h.unmoved _ (by simp [hid]), hid]
  rintro rfl
  exact hactor hid

theorem settled (h : LaneStep state view actor after later)
    (hid : view id = .holding ∨ view id = .finished) :
    later id = .holding ∨ later id = .finished := by
  rcases hid with hid | hid
  · by_cases hne : id = actor
    · subst hne
      obtain ⟨stance, target, rfl, -, -, hholder⟩ := h.exists_stance
      rw [LaneView.notify_eq_iff _ target id Stance.not_isQueued_finished, Function.update_self]
      exact Or.inr (hholder hid)
    · rw [h.unmoved hne (by simp [hid]), hid]
      exact Or.inl rfl
  · exact Or.inr (h.finished hid)

theorem not_admitted (h : LaneStep state view actor after later) (hid : view id ≠ .admitted) :
    later id ≠ .admitted := by
  obtain ⟨stance, target, rfl, -, hstance, -⟩ := h.exists_stance
  rw [Ne, LaneView.notify_eq_iff _ _ _ Stance.not_isQueued_admitted]
  by_cases hne : id = actor
  · subst hne
    rw [Function.update_self]
    exact hstance
  · rw [Function.update_of_ne hne]
    exact hid

end LaneStep

/-- The dispatches that have reserved a place, those that have come to hold the lane and those
that cancelled, each in the order in which they did. -/
structure Turns where
  reserved : List ℕ := []
  acquired : List ℕ := []
  cancelled : List ℕ := []

/-- The turns after a dispatch has changed its stance. -/
def Turns.record (turns : Turns) (id : ℕ) (before after : Stance) : Turns where
  reserved := turns.reserved ++
    if before = .admitted ∧ (after.IsQueued ∨ after = .holding) then [id] else []
  acquired := turns.acquired ++ if before ≠ .holding ∧ after = .holding then [id] else []
  cancelled := turns.cancelled ++ if before.IsQueued ∧ after = .finished then [id] else []

/-- Those that came to hold the lane and those that wait are, in this order, the reservations
that were not cancelled. -/
structure Fair (turns : Turns) (state : StorageLaneState) (view : LaneView) : Prop where
  order : turns.acquired ++ state.waiters =
    turns.reserved.filter fun id => id ∉ turns.cancelled
  acquired : ∀ id ∈ turns.acquired, view id = .holding ∨ view id = .finished
  cancelled : ∀ id ∈ turns.cancelled, view id = .finished
  reserved : ∀ id ∈ turns.reserved, view id ≠ .admitted
  nodup : turns.reserved.Nodup

namespace Fair

variable {turns : Turns} {state after : StorageLaneState} {view later : LaneView} {actor : ℕ}

theorem not_mem_cancelled (h : Fair turns state view) {id : ℕ} (hid : view id ≠ .finished) :
    id ∉ turns.cancelled := fun hmem => hid (h.cancelled id hmem)

theorem filter_append (h : Fair turns state view) {id : ℕ} (hid : view id = .admitted) :
    (turns.reserved ++ [id]).filter (fun other => other ∉ turns.cancelled) =
      turns.acquired ++ state.waiters ++ [id] := by
  have hnew : id ∉ turns.cancelled := h.not_mem_cancelled (by rw [hid]; nofun)
  rw [List.filter_append, ← h.order, List.filter_cons_of_pos (by simpa using hnew),
    List.filter_nil]

theorem order_step (h : Fair turns state view) (horder : Orderly state view)
    (hstep : LaneStep state view actor after later) :
    (turns.record actor (view actor) (later actor)).acquired ++ after.waiters =
      (turns.record actor (view actor) (later actor)).reserved.filter fun id =>
        id ∉ (turns.record actor (view actor) (later actor)).cancelled := by
  cases hstep with
  | take hactor hidle hwaiters =>
    simpa [Turns.record, hactor, hwaiters] using (h.filter_append hactor).symm
  | queue hactor hbusy => simpa [Turns.record, hactor] using (h.filter_append hactor).symm
  | leave hactor => simpa [Turns.record, hactor] using h.order
  | claim hactor hhandoff hwaiters =>
    have hlane := h.order
    rw [hwaiters] at hlane
    simpa [Turns.record, hactor] using hlane
  | miss hactor hmissed => simpa [Turns.record, hactor] using h.order
  | poll hactor => simpa [Turns.record, hactor] using h.order
  | cancel hactor =>
    have hmem := (horder.mem_waiters actor).2 hactor
    have hgone : LaneView.notify (Function.update view actor .finished) (state.cancel actor).2
        actor = .finished :=
      (LaneView.notify_eq_iff _ _ _ Stance.not_isQueued_finished).2 (Function.update_self ..)
    obtain ⟨waiter, phase, hqueued⟩ := Stance.isQueued_iff.1 hactor
    have hacquired : actor ∉ turns.acquired := by
      intro hcontra
      rcases h.acquired actor hcontra with hview | hview
      · simp [hqueued] at hview
      · simp [hqueued] at hview
    -- The reservations that remain are those without the one that is given up.
    have hfilter : turns.reserved.filter (fun id => id ∉ turns.cancelled ++ [actor]) =
        (turns.reserved.filter fun id => id ∉ turns.cancelled).filter (· ≠ actor) := by
      rw [List.filter_filter]
      apply List.filter_congr
      intro id _
      simp [not_or, and_comm]
    rw [hgone, hqueued, StorageLaneState.cancel_eq hmem]
    simp only [Turns.record, Stance.isQueued_queued, and_self, if_true, reduceCtorEq, false_and,
      and_false, if_false, List.append_nil]
    have hkept : turns.acquired.filter (· ≠ actor) = turns.acquired := by
      apply List.filter_eq_self.2
      intro id hid
      simpa using ne_of_mem_of_not_mem hid hacquired
    rw [hfilter, ← h.order, List.filter_append, hkept, horder.nodup.erase_eq_filter]
    congr 1
    apply List.filter_congr
    intro id _
    by_cases hsame : id = actor <;> simp [hsame]
  | release hactor =>
    have hwaiters : state.release.1.waiters = state.waiters := by
      unfold StorageLaneState.release
      cases state.waiters.head? <;> rfl
    have hgone : LaneView.notify (Function.update view actor .finished) state.release.2
        actor = .finished :=
      (LaneView.notify_eq_iff _ _ _ Stance.not_isQueued_finished).2 (Function.update_self ..)
    rw [hgone, hwaiters]
    simpa [Turns.record, hactor] using h.order

theorem step (h : Fair turns state view) (horder : Orderly state view)
    (hstep : LaneStep state view actor after later) :
    Fair (turns.record actor (view actor) (later actor)) after later := by
  refine ⟨h.order_step horder hstep, ?_, ?_, ?_, ?_⟩
  · intro id hid
    rcases List.mem_append.1 hid with hid | hid
    · exact hstep.settled (h.acquired id hid)
    · split_ifs at hid with hcame
      · rw [List.mem_singleton.1 hid]
        exact Or.inl hcame.2
      · cases hid
  · intro id hid
    rcases List.mem_append.1 hid with hid | hid
    · exact hstep.finished (h.cancelled id hid)
    · split_ifs at hid with hleft
      · rw [List.mem_singleton.1 hid]
        exact hleft.2
      · cases hid
  · intro id hid
    rcases List.mem_append.1 hid with hid | hid
    · exact hstep.not_admitted (h.reserved id hid)
    · split_ifs at hid with hcame
      · rw [List.mem_singleton.1 hid]
        intro hcontra
        simp [hcontra] at hcame
      · cases hid
  · apply List.nodup_append.2
    refine ⟨h.nodup, ?_, ?_⟩
    · split_ifs
      · exact List.nodup_singleton actor
      · exact List.nodup_nil
    · intro id hid other hother
      split_ifs at hother with hcame
      · rw [List.mem_singleton.1 hother]
        rintro rfl
        exact h.reserved id hid hcame.1
      · cases hother

theorem record_self (turns : Turns) (id : ℕ) (stance : Stance) :
    turns.record id stance stance = turns := by
  cases stance <;> simp [Turns.record]

theorem join (h : Fair turns state view) {new : ℕ}
    (hnew : ∀ id ∈ turns.reserved ++ turns.acquired ++ turns.cancelled, id ≠ new) :
    Fair turns state (Function.update view new .admitted) := by
  simp only [List.mem_append] at hnew
  refine ⟨h.order, fun id hid => ?_, fun id hid => ?_, fun id hid => ?_, h.nodup⟩
  · rw [Function.update_of_ne (hnew id (Or.inl (Or.inr hid)))]
    exact h.acquired id hid
  · rw [Function.update_of_ne (hnew id (Or.inr hid))]
    exact h.cancelled id hid
  · rw [Function.update_of_ne (hnew id (Or.inl (Or.inl hid)))]
    exact h.reserved id hid

end Fair

end Runnel.Local
