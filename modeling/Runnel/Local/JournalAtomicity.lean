import Runnel.Foundation.Transition
import Runnel.Local.ConsumerJournalSpec
import Runnel.Local.ConsumerStateText

/-!
# Consumer journals are crash atomic

Events of one consumer are persisted one after the other, each call with the state
that a load returns, and every call may stop at any of its file operations.
-/

namespace Runnel.Local

open Runnel.Engine Runnel.Transition

def ConsumerStore.facing (store : ConsumerStore) (faults : List (Option Fault)) : ConsumerStore :=
  { store with faults := faults }

@[simp] theorem ConsumerStore.read_facing (store : ConsumerStore) (faults : List (Option Fault))
    (path : ConsumerPath) : (store.facing faults).read path = store.read path := rfl

/-- A call: an event that is persisted, with whether the call returned, or a load. -/
inductive JournalCall where
  | persist (event : ConsumerStateEvent) (faults : List (Option Fault)) (returned : Bool)
  | load (faults : List (Option Fault))

/-- A persist is given the state that a load returns, where a load has nothing left to repair. -/
def JournalStep (reader : ConsumerStateReader) (stream consumer : String)
    (before : ConsumerStore) : JournalCall → ConsumerStore → Prop
  | .persist event faults returned, after =>
    ∃ state outcome,
      execute (loadConsumerState reader stream consumer) (before.facing []) =
        (.ok state, before.facing []) ∧
      execute (persistConsumerEvent stream consumer state event) (before.facing faults) =
        (outcome, after) ∧ returned = outcome.isOk
  | .load faults, after =>
    ∃ outcome, execute (loadConsumerState reader stream consumer) (before.facing faults) =
      (outcome, after)

/-- The events of a history that are kept: of a call that stopped it may be none. -/
inductive Kept : List (ConsumerStore × JournalCall) → List ConsumerStateEvent → Prop
  | start : Kept [] []
  | load {past events store faults} : Kept past events →
    Kept ((store, .load faults) :: past) events
  | persist {past events store event faults returned} : Kept past events →
    Kept ((store, .persist event faults returned) :: past) (events ++ [event])
  | stopped {past events store event faults} : Kept past events →
    Kept ((store, .persist event faults false) :: past) events

def EventsFit (past : List (ConsumerStore × JournalCall)) : Prop :=
  ∀ store event faults returned, (store, JournalCall.persist event faults returned) ∈ past →
    event.line.length ≤ maxConsumerStateJournalBytes

/-- The files stand for the events that were kept; behind an event that no replay accepts there
is nothing. -/
def Preserves (path : ConsumerPath) (past : List (ConsumerStore × JournalCall))
    (store : ConsumerStore) : Prop :=
  ∃ events part, Kept past events ∧
    StandsFor True path (ConsumerState.applyEvents { stream := path.1, consumer := path.2 } events)
      part
      (store.read path) ∧
    (part = [] ∨
      ∃ state, ConsumerState.applyEvents { stream := path.1, consumer := path.2 } events =
        .ok state)

variable {reader : ConsumerStateReader} {stream consumer : String}
  {past : List (ConsumerStore × JournalCall)} {before after : ConsumerStore}

theorem Preserves.load (h : Preserves (stream, consumer) past before)
    {faults : List (Option Fault)}
    (hstep : JournalStep reader stream consumer before (.load faults) after) :
    Preserves (stream, consumer) ((before, .load faults) :: past) after := by
  obtain ⟨events, part, hkept, hstands, hpart⟩ := h
  obtain ⟨outcome, hload⟩ := hstep
  cases hresult : ConsumerState.applyEvents { stream := stream, consumer := consumer } events with
  | error error =>
    rw [hresult] at hstands
    have hrun := @loadConsumerState_of_error reader stream consumer part (before.facing faults)
      error hstands
    obtain ⟨-, rfl⟩ := Prod.mk.inj ((execute_of_error hrun).symm.trans hload)
    exact ⟨events, part, .load hkept, hresult ▸ hstands, hpart⟩
  | ok state =>
    rw [hresult] at hstands
    have hspec := @loadConsumerState_spec reader stream consumer state part
      (before.facing faults) hstands
    rcases hspec.execute with ⟨loaded, final, hfinal, -, -, hafter⟩ |
      ⟨error, final, hfinal, -, -, hafter⟩
    · obtain ⟨-, rfl⟩ := Prod.mk.inj (hfinal.symm.trans hload)
      exact ⟨events, [], .load hkept, hresult ▸ hafter, Or.inl rfl⟩
    · obtain ⟨-, rfl⟩ := Prod.mk.inj (hfinal.symm.trans hload)
      rcases hafter with hafter | hafter
      · exact ⟨events, part, .load hkept, hresult ▸ hafter, Or.inr ⟨state, hresult⟩⟩
      · exact ⟨events, [], .load hkept, hresult ▸ hafter, Or.inl rfl⟩

theorem Preserves.persist (h : Preserves (stream, consumer) past before)
    {event : ConsumerStateEvent} {faults : List (Option Fault)} {returned : Bool}
    (hsize : event.line.length ≤ maxConsumerStateJournalBytes)
    (hstep : JournalStep reader stream consumer before (.persist event faults returned) after) :
    Preserves (stream, consumer) ((before, .persist event faults returned) :: past) after := by
  obtain ⟨events, part, hkept, hstands, hpart⟩ := h
  obtain ⟨state, outcome, hload, hpersist, rfl⟩ := hstep
  -- the load of the caller shows which state the files stand for, and that they are repaired
  have hstate : ConsumerState.applyEvents { stream := stream, consumer := consumer } events =
      .ok state ∧ StandsFor True (stream, consumer) (.ok state) []
        (before.read (stream, consumer)) := by
    cases hresult : ConsumerState.applyEvents { stream := stream, consumer := consumer } events with
    | error error =>
      rw [hresult] at hstands
      have hrun := @loadConsumerState_of_error reader stream consumer part (before.facing [])
        error hstands
      cases (Prod.mk.inj ((execute_of_error hrun).symm.trans hload)).1
    | ok found =>
      rw [hresult] at hstands
      have hspec := @loadConsumerState_spec reader stream consumer found part
        (before.facing []) hstands
      rcases hspec.execute with ⟨loaded, final, hfinal, -, rfl, hafter⟩ |
        ⟨error, final, hfinal, -⟩
      · obtain ⟨hsame, rfl⟩ := Prod.mk.inj (hfinal.symm.trans hload)
        obtain rfl := Except.ok.inj hsame
        exact ⟨rfl, hafter⟩
      · cases (Prod.mk.inj (hfinal.symm.trans hload)).1
  obtain ⟨hresult, hclean⟩ := hstate
  have hconcat : ConsumerState.applyEvents { stream := stream, consumer := consumer }
      (events ++ [event]) = state.applyEvent event := by
    rw [ConsumerState.applyEvents_concat, hresult]
    rfl
  have hspec := @persistConsumerEvent_spec True stream consumer state event (fun _ => hsize)
    (before.facing faults) hclean
  rcases hspec.execute with ⟨_, final, hfinal, -, hafter⟩ | ⟨error, final, hfinal, -, -, hafter⟩
  · obtain ⟨rfl, rfl⟩ := Prod.mk.inj (hfinal.symm.trans hpersist)
    exact ⟨events ++ [event], [], .persist hkept, hconcat ▸ hafter, Or.inl rfl⟩
  · obtain ⟨rfl, rfl⟩ := Prod.mk.inj (hfinal.symm.trans hpersist)
    rcases hafter with ⟨rest, hafter⟩ | hafter
    · exact ⟨events, rest, .stopped hkept, hresult ▸ hafter, Or.inr ⟨state, hresult⟩⟩
    · exact ⟨events ++ [event], [], .persist hkept, hconcat ▸ hafter, Or.inl rfl⟩

theorem preserves_of_run {store : ConsumerStore}
    (hrun : Run (fun store => store.read (stream, consumer) = {})
      (JournalStep reader stream consumer) past store) (hfit : EventsFit past) :
    Preserves (stream, consumer) past store := by
  induction hrun with
  | start hstore =>
    refine ⟨[], [], .start, ⟨_, [], rfl, ?_⟩, Or.inl rfl⟩
    rw [hstore]
    exact Journaled.fresh _ (stream, consumer)
  | next _ hstep ih =>
    rename_i past before call after hrun
    have hbefore := ih fun s event faults returned hmem =>
      hfit s event faults returned (List.mem_cons_of_mem _ hmem)
    cases call with
    | persist event faults returned =>
      exact hbefore.persist (hfit _ _ _ _ List.mem_cons_self) hstep
    | load faults => exact hbefore.load hstep

/-- Wherever the calls stopped, a load returns the fold of the events that were kept: those of
every call that returned and possibly those of calls that stopped. It leaves a journal of whole
events, and replaying them over the loaded state changes nothing. -/
theorem consumer_journal_atomic (reader : ConsumerStateReader) (stream consumer : String)
    {past : List (ConsumerStore × JournalCall)} {store : ConsumerStore}
    (hrun : Run (fun store => store.read (stream, consumer) = {})
      (JournalStep reader stream consumer) past store) (hfit : EventsFit past) :
    ∃ events, Kept past events ∧
      (execute (loadConsumerState reader stream consumer) (store.facing [])).1 =
        ConsumerState.applyEvents { stream := stream, consumer := consumer } events ∧
      ∃ journal,
        ((execute (loadConsumerState reader stream consumer) (store.facing [])).2.read
          (stream, consumer)).journal.getD [] = journalLines journal ∧
        ∀ state, (execute (loadConsumerState reader stream consumer) (store.facing [])).1 =
          .ok state → state.applyEvents journal = .ok state := by
  obtain ⟨events, part, hkept, hstands, hpart⟩ := preserves_of_run hrun hfit
  refine ⟨events, hkept, ?_⟩
  cases hresult : ConsumerState.applyEvents { stream := stream, consumer := consumer } events with
  | error error =>
    rw [hresult] at hstands hpart
    obtain rfl : part = [] := hpart.resolve_right (by simp)
    have hload := execute_of_error (@loadConsumerState_of_error reader stream consumer []
      (store.facing []) error hstands)
    rw [hload]
    obtain ⟨base, journal, -, hfiles⟩ := hstands
    refine ⟨rfl, journal, ?_, by simp⟩
    exact hfiles.getD_journal.trans (List.append_nil _)
  | ok state =>
    rw [hresult] at hstands
    have hspec := @loadConsumerState_spec reader stream consumer state part
      (store.facing []) hstands
    rcases hspec.execute with ⟨loaded, final, hload, -, rfl, hafter⟩ | ⟨_, _, -, hfaults, -⟩
    · obtain ⟨base, journal, happly, hfiles⟩ := hafter
      rw [hload]
      refine ⟨rfl, journal, hfiles.getD_journal.trans (List.append_nil _), ?_⟩
      intro state hstate
      obtain rfl := Except.ok.inj hstate
      exact hfiles.wellFormed.applyEvents_again happly
    · exact absurd rfl (hfaults trivial)

/-- An acknowledgement that stopped behind the ninth byte of its line. -/
theorem torn_acknowledgement_atomic :
    let faults : List (Option Fault) := [none, none, some ⟨9, .other, "interrupted"⟩]
    let fresh : ConsumerState := { stream := "orders", consumer := "billing" }
    let store := (execute (persistConsumerEvent "orders" "billing" fresh (.acknowledge 0))
      (ConsumerStore.facing {} faults)).2
    let load := execute (loadConsumerState .strict "orders" "billing") (store.facing [])
    ∃ events, Kept [({}, .persist (.acknowledge 0) faults false)] events ∧
      load.1 = fresh.applyEvents events ∧
      ∃ journal, (load.2.read ("orders", "billing")).journal.getD [] = journalLines journal ∧
        ∀ state, load.1 = .ok state → state.applyEvents journal = .ok state := by
  intro faults fresh store load
  have hfresh : StandsFor True ("orders", "billing") (.ok fresh) [] {} :=
    ⟨fresh, [], rfl, Journaled.fresh _ ("orders", "billing")⟩
  have hload := execute_of_ok (@loadConsumerState_of_standsFor .strict "orders" "billing" fresh
    (ConsumerStore.facing {} []) hfresh)
  have hrun : Run (fun store => store.read ("orders", "billing") = {})
      (JournalStep .strict "orders" "billing")
      [({}, .persist (.acknowledge 0) faults false)] store := by
    have hstep : JournalStep .strict "orders" "billing" {}
        (.persist (.acknowledge 0) faults false) store :=
      ⟨fresh, _, hload, rfl, by decide +kernel⟩
    have hstart : ConsumerStore.read {} ("orders", "billing") = {} := by decide +kernel
    exact .next (.start hstart) hstep
  apply consumer_journal_atomic .strict "orders" "billing" hrun
  intro _ event _ _ hmem
  obtain ⟨-, rfl, -⟩ := by simpa using hmem
  decide +kernel

end Runnel.Local
