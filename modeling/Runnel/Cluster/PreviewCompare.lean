import Runnel.Cluster.TransitionOnly

/-!
# Comparing previews

A transition-only poll leaves the next preview no more exhausted records to
count. Both previews pass over the same records; the proof keeps the later one
ahead of the earlier one in everything that can end the pass.
-/

namespace Runnel.Cluster

open Runnel.Engine GroupConsumerState Search

section Compare

variable {request : GroupBatchPollRequest}

theorem BatchView.eligible_iff (view : BatchView) (selection : PreviewSelection)
    (entry : ℕ × StoredMessage) :
    (view.program request).eligible selection entry = true ↔
      view.free entry = true ∧ ∀ key, entry.2.key = some key → key ∉ selection.selectedKeys := by
  simp only [BatchView.program, Bool.and_eq_true, Option.all_eq_true, Bool.not_eq_true',
    ← Bool.not_eq_true, Std.ExtTreeSet.contains_iff_mem]

variable {view : BatchView} {selection : PreviewSelection} {entry : ℕ × StoredMessage}

theorem BatchView.program_act_inr {result : PreviewSelection × Option CommandResponse}
    (h : (view.program request).act selection entry = .inr result) :
    result.1.terminalTransitions = selection.terminalTransitions ∧
    view.terminal entry.1 = false ∧
    request.maxBytes < selection.sizer.projectedLen (view.message request entry) := by
  simp only [BatchView.program] at h
  split_ifs at h with hterminal hlarge hempty
  · rw [← Sum.inr.inj h]
    exact ⟨rfl, by simpa using hterminal, hlarge⟩
  · rw [← Sum.inr.inj h]
    exact ⟨rfl, by simpa using hterminal, hlarge⟩

theorem BatchView.act_of_terminal
    (h : view.terminal entry.1 = true) (selection : PreviewSelection) :
    (view.program request).act selection entry = .inl (countTerminal selection entry.1) := by
  simp [BatchView.program, h]

theorem BatchView.act_of_fits (h : view.terminal entry.1 = false)
    (hfits : selection.sizer.projectedLen (view.message request entry) ≤ request.maxBytes) :
    (view.program request).act selection entry = .inl (view.select request selection entry) := by
  simp [BatchView.program, h, Nat.not_lt.2 hfits]

theorem BatchView.program_act_inl_of_not_terminal
    {next : PreviewSelection} (h : view.terminal entry.1 = false)
    (hact : (view.program request).act selection entry = .inl next) :
    next = view.select request selection entry ∧
      selection.sizer.projectedLen (view.message request entry) ≤ request.maxBytes := by
  simp only [BatchView.program, h, Bool.false_eq_true, if_false] at hact
  split_ifs at hact with hlarge
  exact ⟨(Sum.inl.inj hact).symm, Nat.not_lt.1 hlarge⟩

theorem BatchView.terminalTransitions_le_scan (view : BatchView)
    (rest : List (ℕ × StoredMessage)) (selection : PreviewSelection) :
    selection.terminalTransitions ≤
      (scan (view.program request) rest selection).1.terminalTransitions := by
  induction rest generalizing selection with
  | nil => exact le_rfl
  | cons entry rest ih =>
    unfold scan
    split_ifs with hready heligible
    · cases haction : (view.program request).act selection entry with
      | inr result => exact (program_act_inr haction).1.ge
      | inl next =>
        refine le_trans ?_ (ih next)
        rcases program_act_inl haction with ⟨-, rfl⟩ | ⟨-, rfl⟩
        · exact Nat.le_succ _
        · exact le_rfl
    · exact ih selection
    · exact le_rfl

/-- One view has no more to count than another: deliverable records stay so, and a record that
becomes free is deliverable, or comes after a deliverable record with its key. -/
structure BatchView.Thinned (entries : List (ℕ × StoredMessage)) (before after : BatchView) :
    Prop where
  kept : ∀ x ∈ entries, before.free x = true → before.terminal x.1 = false → after.free x = true
  attempts : ∀ x ∈ entries, before.free x = true → after.free x = true →
    after.attempts x.1 = before.attempts x.1
  same : ∀ x ∈ entries, before.free x = true → after.free x = true →
    after.terminal x.1 = before.terminal x.1
  fresh : ∀ x ∈ entries, before.free x = false → after.free x = true →
    after.terminal x.1 = true → ∃ y ∈ entries, y.1 < x.1 ∧ after.free y = true ∧
      after.terminal y.1 = false ∧ ∃ key, x.2.key = some key ∧ y.2.key = some key
  keys : ∀ x ∈ entries, before.free x = false → after.free x = true →
    ∀ key, x.2.key = some key → ∀ y ∈ entries, y.2.key = some key → before.free y = false

/-- The state of the later preview is further on than the one of the earlier preview, and has
counted at least `d` records less. -/
structure Ahead (entries seen : List (ℕ × StoredMessage)) (before after : BatchView) (d : ℕ)
    (s t : PreviewSelection) : Prop where
  count : t.terminalTransitions + d ≤ s.terminalTransitions
  length : s.messages.length ≤ t.messages.length
  consumer : t.sizer.consumer = s.sizer.consumer
  member : t.sizer.member = s.sizer.member
  size : s.sizer.encodedLen ≤ t.sizer.encodedLen
  bounded : t.sizer.encodedLen ≤ u64Max
  keys : ∀ key ∈ s.selectedKeys, key ∈ t.selectedKeys
  extra : ∀ key ∈ t.selectedKeys, key ∈ s.selectedKeys ∨
    ∀ y ∈ entries, y.2.key = some key → before.free y = false
  taken : ∀ y ∈ seen, after.free y = true → after.terminal y.1 = false →
    ∀ key, y.2.key = some key → key ∈ t.selectedKeys

namespace Ahead

variable {entries seen : List (ℕ × StoredMessage)} {before after : BatchView} {d : ℕ}
  {s t : PreviewSelection} {x : ℕ × StoredMessage}

theorem ready (h : Ahead entries seen before after d s t)
    (hready : (after.program request).ready t = true) :
    (before.program request).ready s = true := by
  have hlength := h.length
  have hsize := h.size
  simp only [BatchView.program, decide_eq_true_eq] at hready ⊢
  omega

theorem pass (h : Ahead entries seen before after d s t)
    (hpass : (after.program request).eligible t x = false) :
    Ahead entries (seen ++ [x]) before after d s t := by
  refine { h with taken := fun y hy hfree hterminal key hkey => ?_ }
  rcases List.mem_append.1 hy with hy | hy
  · exact h.taken y hy hfree hterminal key hkey
  · obtain rfl := List.mem_singleton.1 hy
    by_contra hnot
    have heligible : (after.program request).eligible t y = true :=
      (after.eligible_iff t y).2 ⟨hfree, fun key' hkey' => by
        rwa [Option.some.inj (hkey'.symm.trans hkey)]⟩
    rw [hpass] at heligible
    cases heligible

theorem countLeft (h : Ahead entries seen before after d s t) (offset : ℕ) :
    Ahead entries seen before after d (BatchView.countTerminal s offset) t :=
  ⟨h.count.trans (Nat.le_succ _), h.length, h.consumer, h.member, h.size, h.bounded, h.keys,
    h.extra, h.taken⟩

theorem countBoth (h : Ahead entries seen before after d s t)
    (hterminal : after.terminal x.1 = true) :
    Ahead entries (seen ++ [x]) before after d (BatchView.countTerminal s x.1)
      (BatchView.countTerminal t x.1) := by
  refine ⟨?_, h.length, h.consumer, h.member, h.size, h.bounded, h.keys, h.extra,
    fun y hy hfree hnot key hkey => ?_⟩
  · have := h.count
    simp only [BatchView.countTerminal]
    omega
  · rcases List.mem_append.1 hy with hy | hy
    · exact h.taken y hy hfree hnot key hkey
    · obtain rfl := List.mem_singleton.1 hy
      rw [hterminal] at hnot
      cases hnot

theorem taken_select (h : Ahead entries seen before after d s t) (y : ℕ × StoredMessage)
    (hy : y ∈ seen ++ [x]) (hfree : after.free y = true) (hterminal : after.terminal y.1 = false)
    (key : String) (hkey : y.2.key = some key) :
    key ∈ (after.select request t x).selectedKeys := by
  rcases List.mem_append.1 hy with hy | hy
  · exact mem_select_keys.2 (Or.inr (h.taken y hy hfree hterminal key hkey))
  · exact mem_select_keys.2 (Or.inl (List.mem_singleton.1 hy ▸ hkey))

theorem encodedLen_select (view : BatchView) (selection : PreviewSelection)
    (entry : ℕ × StoredMessage) :
    (view.select request selection entry).sizer.encodedLen =
      selection.sizer.projectedLen (view.message request entry) := rfl

theorem selectRight (h : Ahead entries seen before after d s t)
    (hkeys : ∀ key, x.2.key = some key → ∀ y ∈ entries, y.2.key = some key →
      before.free y = false) :
    Ahead entries (seen ++ [x]) before after d s (after.select request t x) where
  count := h.count
  length := h.length.trans (by simp [BatchView.select])
  consumer := by simpa only [BatchView.select, PollBatchResponseSizer.push] using h.consumer
  member := by simpa only [BatchView.select, PollBatchResponseSizer.push] using h.member
  size := by
    rw [encodedLen_select]
    exact h.size.trans (le_satAdd64 h.bounded)
  bounded := by
    rw [encodedLen_select]
    exact satAdd64_le _ _
  keys key hkey := mem_select_keys.2 (Or.inr (h.keys key hkey))
  extra key hkey := by
    rcases mem_select_keys.1 hkey with hkey | hkey
    · exact Or.inr (hkeys key hkey)
    · exact h.extra key hkey
  taken := h.taken_select

theorem projectedLen_le (h : Ahead entries seen before after d s t) (message : Message) :
    s.sizer.projectedLen message ≤ t.sizer.projectedLen message := by
  unfold PollBatchResponseSizer.projectedLen
  rw [h.consumer, h.member]
  exact satAdd64_mono h.size le_rfl

theorem selectBoth (h : Ahead entries seen before after d s t)
    (hmessage : after.message request x = before.message request x) :
    Ahead entries (seen ++ [x]) before after d (before.select request s x)
      (after.select request t x) where
  count := h.count
  length := by simpa [BatchView.select] using h.length
  consumer := by simpa only [BatchView.select, PollBatchResponseSizer.push] using h.consumer
  member := by simpa only [BatchView.select, PollBatchResponseSizer.push] using h.member
  size := by
    rw [encodedLen_select, encodedLen_select, hmessage]
    exact h.projectedLen_le _
  bounded := by
    rw [encodedLen_select]
    exact satAdd64_le _ _
  keys key hkey := by
    rcases mem_select_keys.1 hkey with hkey | hkey
    · exact mem_select_keys.2 (Or.inl hkey)
    · exact mem_select_keys.2 (Or.inr (h.keys key hkey))
  extra key hkey := by
    rcases mem_select_keys.1 hkey with hkey | hkey
    · exact Or.inl (mem_select_keys.2 (Or.inl hkey))
    · exact (h.extra key hkey).imp_left fun hmem => mem_select_keys.2 (Or.inr hmem)
  taken := h.taken_select

end Ahead

variable {entries : List (ℕ × StoredMessage)} {before after : BatchView}

variable {seen : List (ℕ × StoredMessage)} {d : ℕ} {s t : PreviewSelection}

/-- The record at which the later preview acts, with the earlier preview at the same place. -/
theorem BatchView.Thinned.eligible (hthin : Thinned entries before after)
    {rest : List (ℕ × StoredMessage)} {x : ℕ × StoredMessage}
    (hsorted : entries.Pairwise (·.1 < ·.1))
    (hsplit : entries = seen ++ x :: rest) (h : Ahead entries seen before after d s t)
    (hacts : (after.program request).eligible t x = true) :
    (before.program request).eligible s x = true ∧ after.terminal x.1 = before.terminal x.1 ∧
      after.message request x = before.message request x ∨
    before.free x = false ∧ after.terminal x.1 = false := by
  have hmem : x ∈ entries := by simp [hsplit]
  obtain ⟨hfree, hkeys⟩ := (after.eligible_iff t x).1 hacts
  cases hbefore : before.free x with
  | true =>
    refine Or.inl ⟨(before.eligible_iff s x).2 ⟨hbefore, fun key hkey hin => ?_⟩,
      hthin.same x hmem hbefore hfree, ?_⟩
    · exact hkeys key hkey (h.keys key hin)
    · rw [BatchView.message, BatchView.message, hthin.attempts x hmem hbefore hfree]
  | false =>
    refine Or.inr ⟨rfl, ?_⟩
    by_contra hterminal
    -- A record that became free and is exhausted has a deliverable one with its key before it.
    obtain ⟨y, hy, hlt, hfreeY, hterminalY, key, hkey, hkeyY⟩ :=
      hthin.fresh x hmem hbefore hfree (by simpa using hterminal)
    have hseen : y ∈ seen := by
      rw [hsplit, List.pairwise_append, List.pairwise_cons] at hsorted
      rw [hsplit, List.mem_append, List.mem_cons] at hy
      rcases hy with hy | rfl | hy
      · exact hy
      · omega
      · have := hsorted.2.1.1 y hy
        omega
    exact hkeys key hkey (h.taken y hseen hfreeY hterminalY key hkeyY)

theorem BatchView.Thinned.terminal_of_pass (hthin : Thinned entries before after)
    {x : ℕ × StoredMessage}
    (hmem : x ∈ entries) (h : Ahead entries seen before after d s t)
    (hpass : (after.program request).eligible t x = false)
    (hacts : (before.program request).eligible s x = true) : before.terminal x.1 = true := by
  obtain ⟨hfree, hkeys⟩ := (before.eligible_iff s x).1 hacts
  by_contra hterminal
  have hacts' : (after.program request).eligible t x = true := by
    refine (after.eligible_iff t x).2
      ⟨hthin.kept x hmem hfree (by simpa using hterminal), fun key hkey hin => ?_⟩
    rcases h.extra key hin with hin | hnone
    · exact hkeys key hkey hin
    · rw [hnone x hmem hkey] at hfree
      cases hfree
  rw [hpass] at hacts'
  cases hacts'

/-- The later preview counts no more than the earlier one, and keeps the lead it has. -/
theorem BatchView.Thinned.scan_le (hthin : Thinned entries before after)
    (hsorted : entries.Pairwise (·.1 < ·.1)) (rest seen : List (ℕ × StoredMessage))
    (hsplit : entries = seen ++ rest)
    (h : Ahead entries seen before after d s t) :
    (scan (after.program request) rest t).1.terminalTransitions + d ≤
      (scan (before.program request) rest s).1.terminalTransitions := by
  induction rest generalizing seen s t with
  | nil => exact h.count
  | cons x rest ih =>
    have hsplit' : entries = (seen ++ [x]) ++ rest := by simp [hsplit]
    have hmem : x ∈ entries := by simp [hsplit]
    have hstop : t.terminalTransitions + d ≤
        (scan (before.program request) (x :: rest) s).1.terminalTransitions :=
      h.count.trans (terminalTransitions_le_scan before _ _)
    cases hready : (after.program request).ready t with
    | false =>
      rw [scan_of_not_ready hready]
      exact hstop
    | true =>
      have hready' := h.ready hready
      cases hacts : (after.program request).eligible t x with
      | false =>
        rw [scan_cons_of_skip hacts]
        cases hacts' : (before.program request).eligible s x with
        | false =>
          rw [scan_cons_of_skip hacts']
          exact ih _ hsplit' (h.pass hacts)
        | true =>
          rw [scan_cons_of_act hready' hacts'
            (act_of_terminal (hthin.terminal_of_pass hmem h hacts hacts') s)]
          exact ih _ hsplit' ((h.pass hacts).countLeft x.1)
      | true =>
        rcases hthin.eligible hsorted hsplit h hacts with ⟨hacts', hterminal, hmessage⟩ |
          ⟨hbefore, hterminal⟩
        · cases hx : after.terminal x.1 with
          | true =>
            rw [scan_cons_of_act hready hacts (act_of_terminal hx t),
              scan_cons_of_act hready' hacts' (act_of_terminal (hterminal ▸ hx) s)]
            exact ih _ hsplit' (h.countBoth hx)
          | false =>
            cases hact : (after.program request).act t x with
            | inr result =>
              rw [scan_cons_of_stop hready hacts hact, (program_act_inr hact).1]
              exact hstop
            | inl next =>
              obtain ⟨rfl, hfits⟩ := program_act_inl_of_not_terminal hx hact
              have hfits' : s.sizer.projectedLen (before.message request x) ≤ request.maxBytes :=
                (h.projectedLen_le _).trans (hmessage ▸ hfits)
              rw [scan_cons_of_act hready hacts hact,
                scan_cons_of_act hready' hacts' (act_of_fits (hterminal ▸ hx) hfits')]
              exact ih _ hsplit' (h.selectBoth hmessage)
        · have hpass : (before.program request).eligible s x = false := by
            rw [← Bool.not_eq_true, before.eligible_iff, hbefore]
            simp
          rw [scan_cons_of_skip hpass] at hstop ⊢
          have hfree := ((after.eligible_iff t x).1 hacts).1
          cases hact : (after.program request).act t x with
          | inr result =>
            rw [scan_cons_of_stop hready hacts hact, (program_act_inr hact).1]
            exact hstop
          | inl next =>
            obtain ⟨rfl, -⟩ := program_act_inl_of_not_terminal hterminal hact
            rw [scan_cons_of_act hready hacts hact]
            exact ih _ hsplit' (h.selectRight (hthin.keys x hmem hbefore hfree))

/-- A pass that has selected a record does not report another one as too large. -/
theorem BatchView.scan_of_selected (view : BatchView) (rest : List (ℕ × StoredMessage))
    (h : selection.messages ≠ []) :
    (scan (view.program request) rest selection).2 = none := by
  induction rest generalizing selection with
  | nil => rfl
  | cons entry rest ih =>
    unfold scan
    split_ifs
    · cases hact : (view.program request).act selection entry with
      | inl next =>
        refine ih ?_
        rcases program_act_inl hact with ⟨-, rfl⟩ | ⟨-, rfl⟩
        · exact h
        · simp [BatchView.select]
      | inr result =>
        simp only [BatchView.program, List.isEmpty_iff, h, if_false] at hact
        split_ifs at hact
        rw [← Sum.inr.inj hact]
    · exact ih h
    · rfl

/-- If no record becomes free, a record that was too large before anything was selected still
ends the pass. -/
theorem BatchView.Thinned.tooLarge (hthin : Thinned entries before after)
    (hfree : ∀ x ∈ entries, after.free x = true → before.free x = true)
    (rest : List (ℕ × StoredMessage)) (hrest : ∀ x ∈ rest, x ∈ entries)
    (hmessages : s.messages = [] ∧ t.messages = [])
    (hkeys : s.selectedKeys = ∅ ∧ t.selectedKeys = ∅) (hsizer : t.sizer = s.sizer)
    {response : CommandResponse}
    (h : (scan (before.program request) rest s).2 = some response) :
    (scan (after.program request) rest t).2 = some response := by
  have hready : (after.program request).ready t = (before.program request).ready s := by
    simp only [BatchView.program, hmessages, hsizer]
  have helig : ∀ x, (before.program request).eligible s x = before.free x ∧
      (after.program request).eligible t x = after.free x := by
    intro x
    simp [BatchView.program, hkeys]
  induction rest generalizing s t with
  | nil => cases h
  | cons x rest ih =>
    obtain ⟨hx, hrest⟩ := List.forall_mem_cons.1 hrest
    cases hr : (before.program request).ready s with
    | false =>
      rw [scan_of_not_ready hr] at h
      cases h
    | true =>
      have hr' := hready.trans hr
      cases hb : before.free x with
      | false =>
        have ha : after.free x = false := by
          rw [← Bool.not_eq_true]
          intro ha
          rw [hfree x hx ha] at hb
          cases hb
        rw [scan_cons_of_skip ((helig x).1.trans hb)] at h
        rw [scan_cons_of_skip ((helig x).2.trans ha)]
        exact ih hrest hmessages hkeys hsizer h hready helig
      | true =>
        cases hterminal : before.terminal x.1 with
        | true =>
          rw [scan_cons_of_act hr ((helig x).1.trans hb) (act_of_terminal hterminal s)] at h
          cases ha : after.free x with
          | false =>
            rw [scan_cons_of_skip ((helig x).2.trans ha)]
            exact ih (s := countTerminal s x.1) hrest hmessages hkeys hsizer h hready helig
          | true =>
            rw [scan_cons_of_act hr' ((helig x).2.trans ha)
              (act_of_terminal ((hthin.same x hx hb ha).trans hterminal) t)]
            exact ih (s := countTerminal s x.1) (t := countTerminal t x.1) hrest hmessages hkeys
              hsizer h hready helig
        | false =>
          -- A deliverable record ends the earlier pass, or is selected and nothing ends it later.
          have ha := hthin.kept x hx hb hterminal
          have hmessage : after.message request x = before.message request x := by
            rw [BatchView.message, BatchView.message, hthin.attempts x hx hb ha]
          cases hact : (before.program request).act s x with
          | inl next =>
            obtain ⟨rfl, -⟩ := program_act_inl_of_not_terminal hterminal hact
            rw [scan_cons_of_act hr ((helig x).1.trans hb) hact,
              scan_of_selected _ _ (by simp [BatchView.select])] at h
            cases h
          | inr result =>
            rw [scan_cons_of_stop hr ((helig x).1.trans hb) hact] at h
            have hlarge := (program_act_inr hact).2.2
            have hact' : (after.program request).act t x =
                .inr (t, some (.groupBatchPollRecordTooLarge request.maxBytes)) := by
              simp only [BatchView.program, (hthin.same x hx hb ha).trans hterminal, hmessages,
                hsizer, hmessage, hlarge, Bool.false_eq_true, if_false, if_true, List.isEmpty_nil]
            have hresult : result.2 = some (.groupBatchPollRecordTooLarge request.maxBytes) := by
              simp only [BatchView.program, hterminal, hmessages, hlarge, Bool.false_eq_true,
                if_false, if_true, List.isEmpty_nil] at hact
              rw [← Sum.inr.inj hact]
            rw [scan_cons_of_stop hr' ((helig x).2.trans ha) hact', ← h, hresult]

end Compare

section Views

variable {messages : List StoredMessage} {terms : PollTerms} {isDeadLetter : Bool}
  {before released after : GroupConsumerState} {offsets : List ℕ}
  {filter filter' : BTreeSet ℕ × BTreeSet String}

theorem GroupConsumerState.SameProgress.exhaustedAt_eq (h : SameProgress before released)
    (terms : PollTerms) (offset : ℕ) :
    released.exhaustedAt terms offset = before.exhaustedAt terms offset := by
  unfold exhaustedAt groupPolicyForOffset GroupConsumerState.attempts
  rw [h.attempts, h.policies, h.policy]

structure Transitioned (terms : PollTerms) (offsets : List ℕ)
    (before released after : GroupConsumerState) : Prop where
  release : Released terms.nowMs before released
  settled : Settled terms offsets released after

namespace Transitioned

variable (h : Transitioned terms offsets before released after)
include h

theorem acknowledged_iff (offset : ℕ) :
    after.Acknowledged offset ↔ before.Acknowledged offset ∨ offset ∈ offsets := by
  rw [h.settled.acknowledged_iff, h.release.same.acknowledged_iff]

variable {offset : ℕ}

theorem exhausted (hmem : offset ∈ offsets) :
    before.exhaustedAt terms offset = true := by
  rw [← h.release.same.exhaustedAt_eq]
  exact h.settled.exhausted offset hmem

theorem exhaustedAt_eq (hnot : ¬ after.Acknowledged offset) :
    after.exhaustedAt terms offset = before.exhaustedAt terms offset := by
  rw [h.settled.exhaustedAt offset hnot, h.release.same.exhaustedAt_eq]

theorem attempts_eq (hnot : ¬ after.Acknowledged offset) :
    after.attempts offset = before.attempts offset := by
  rw [h.settled.attempts offset hnot]
  simp only [GroupConsumerState.attempts, h.release.same.attempts]

theorem allLive : after.AllLive terms.nowMs := by
  intro offset delivery hget
  rw [h.settled.inFlight] at hget
  exact h.release.allLive offset delivery hget

theorem held_iff (offset : ℕ) :
    after.Held terms.nowMs offset ↔ released.Blocked terms.nowMs offset := by
  rw [h.allLive.held_iff, h.settled.blocked_iff]

theorem held_of_held (hheld : after.Held terms.nowMs offset) :
    before.Held terms.nowMs offset :=
  h.release.held_of_blocked ((h.held_iff offset).1 hheld)

theorem held_or_lacking (hheld : before.Held terms.nowMs offset) :
    after.Held terms.nowMs offset ∨ ∃ delivery, before.Lacking terms.nowMs offset delivery :=
  (h.release.blocked_or_lacking hheld).imp_left (h.held_iff offset).2

omit h in
theorem exists_held (hwf : WellFormed messages before)
    (hfilter : before.previewRetryFilter terms.nowMs terms.legacyPolicy terms.policyVersion =
      some filter) {x : ℕ × StoredMessage} (hpending : ¬ before.Acknowledged x.1)
    (hfree : (before.batchView terms filter isDeadLetter).free x = false) :
    ∃ other : ℕ, before.Held terms.nowMs other ∧
      (other = x.1 ∨ ∃ key, x.2.key = some key ∧ keyAt messages other = some key) := by
  by_contra hnone
  push Not at hnone
  rw [← Bool.not_eq_true, batchView_free_iff_held hwf hfilter] at hfree
  exact hfree ⟨hpending, fun hheld => (hnone x.1 hheld).1 rfl,
    fun key hkey other hheld => (hnone other hheld).2 key hkey⟩

theorem thinned (hwf : WellFormed messages before) (hwf' : WellFormed messages after)
    (hfilter : before.previewRetryFilter terms.nowMs terms.legacyPolicy terms.policyVersion =
      some filter)
    (hfilter' : after.previewRetryFilter terms.nowMs terms.legacyPolicy terms.policyVersion =
      some filter')
    (hlive : ∀ offset ∈ offsets, isDeadLetter = false) :
    BatchView.Thinned (enumerate messages) (before.batchView terms filter isDeadLetter)
      (after.batchView terms filter' isDeadLetter) := by
  have hstored : ∀ x ∈ enumerate messages, keyAt messages x.1 = x.2.key := by
    intro x hx
    rw [keyAt, mem_enumerate.1 hx, Option.bind_some]
  have hpending : ∀ {offset : ℕ}, ¬ after.Acknowledged offset → ¬ before.Acknowledged offset :=
    fun hnot hacked => hnot ((h.acknowledged_iff _).2 (Or.inl hacked))
  constructor
  case kept =>
    intro x hx hfree hterminal
    obtain ⟨hacked, hheld, hkeys⟩ := (batchView_free_iff_held hwf hfilter).1 hfree
    refine (batchView_free_iff_held hwf' hfilter').2 ⟨?_, mt h.held_of_held hheld,
      fun key hkey other hother => hkeys key hkey other (h.held_of_held hother)⟩
    rw [h.acknowledged_iff]
    rintro (hin | hmem)
    · exact hacked hin
    · simp [batchView, h.exhausted hmem, hlive _ hmem] at hterminal
  case attempts =>
    intro x hx _ hfree
    exact h.attempts_eq ((batchView_free_iff_held hwf' hfilter').1 hfree).1
  case same =>
    intro x hx _ hfree
    simp only [batchView, h.exhaustedAt_eq ((batchView_free_iff_held hwf' hfilter').1 hfree).1]
  case fresh =>
    intro x hx hfree hfree' hterminal
    obtain ⟨hacked, hheld, hkeys⟩ := (batchView_free_iff_held hwf' hfilter').1 hfree'
    obtain ⟨other, hother, hcases⟩ := exists_held hwf hfilter (hpending hacked) hfree
    have hexhausted : before.exhaustedAt terms x.1 = true := by
      rw [← h.exhaustedAt_eq hacked]
      exact (Bool.and_eq_true_iff.1 hterminal).1
    have hotherHeld : ¬ after.Held terms.nowMs other := by
      rcases hcases with rfl | ⟨key, hkey, hkeyAt⟩
      · exact hheld
      · exact fun hin => hkeys key hkey other hin hkeyAt
    obtain ⟨delivery, hlacking⟩ := (h.held_or_lacking hother).resolve_left hotherHeld
    have hattempts : before.exhaustedAt terms other = false := hlacking.not_exhausted hwf terms
    have hturn := hwf.inTurn other
      (hwf.attempted_of_inFlight (mem_iff_exists_getElem?.2 ⟨_, hlacking.1⟩))
    have hne : other ≠ x.1 := by
      rintro rfl
      rw [hexhausted] at hattempts
      cases hattempts
    obtain ⟨key, hkey, hkeyAt⟩ := hcases.resolve_left hne
    have hnot : ¬ after.Acknowledged other := by
      rw [h.acknowledged_iff]
      rintro (hin | hmem)
      · exact hturn.pending hin
      · rw [h.exhausted hmem] at hattempts
        cases hattempts
    obtain ⟨stored, hget, hstoredKey⟩ := Option.bind_eq_some_iff.1 hkeyAt
    refine ⟨(other, stored), mem_enumerate.2 hget, ?_, ?_, ?_, key, hkey, hstoredKey⟩
    · -- Order: an attempted record has no pending record with its key below it.
      by_contra hle
      exact hpending hacked (hturn.lower key hkeyAt x.1 (by simp at hle; omega)
        ((hstored x hx).trans hkey))
    · refine (batchView_free_iff_held hwf' hfilter').2 ⟨hnot, hotherHeld, ?_⟩
      intro key' hkey' held hin
      rw [Option.some.inj (hkey'.symm.trans hstoredKey)]
      exact hkeys key hkey held hin
    · simp [batchView, h.exhaustedAt_eq hnot, hattempts]
  case keys =>
    intro x hx hfree hfree' key hkey y hy hykey
    obtain ⟨hacked, -, -⟩ := (batchView_free_iff_held hwf' hfilter').1 hfree'
    obtain ⟨other, hother, hcases⟩ := exists_held hwf hfilter (hpending hacked) hfree
    rw [← Bool.not_eq_true, batchView_free_iff_held hwf hfilter]
    rintro ⟨-, -, hkeys⟩
    refine hkeys key hykey other hother ?_
    rcases hcases with rfl | ⟨key', hkey', hkeyAt⟩
    · exact (hstored x hx).trans hkey
    · rw [hkeyAt, ← hkey', hkey]

theorem kept_of_scheduled
    (hlacking : ∀ offset delivery, ¬ before.Lacking terms.nowMs offset delivery)
    (hheld : before.Held terms.nowMs offset) : after.Held terms.nowMs offset :=
  (h.held_or_lacking hheld).resolve_right fun ⟨delivery, hlacks⟩ => hlacking offset delivery hlacks

theorem kept_of_lt (hclock : terms.nowMs < u64Max)
    (hheld : before.Held terms.nowMs offset) : after.Held terms.nowMs offset :=
  (h.held_iff offset).2 (h.release.blocked_of_held hclock hheld)

theorem free_of_free (hwf : WellFormed messages before) (hwf' : WellFormed messages after)
    (hfilter : before.previewRetryFilter terms.nowMs terms.legacyPolicy terms.policyVersion =
      some filter)
    (hfilter' : after.previewRetryFilter terms.nowMs terms.legacyPolicy terms.policyVersion =
      some filter')
    (hkept : ∀ {offset : ℕ}, before.Held terms.nowMs offset → after.Held terms.nowMs offset)
    {isDeadLetter' : Bool} {x : ℕ × StoredMessage}
    (hfree : (after.batchView terms filter' isDeadLetter').free x = true) :
    (before.batchView terms filter isDeadLetter).free x = true := by
  obtain ⟨hacked, hnot, hkeys⟩ := (batchView_free_iff_held hwf' hfilter').1 hfree
  exact (batchView_free_iff_held hwf hfilter).2
    ⟨fun hin => hacked ((h.acknowledged_iff _).2 (Or.inl hin)), fun hin => hnot (hkept hin),
      fun key hkey other hin => hkeys key hkey other (hkept hin)⟩

end Transitioned

theorem GroupConsumerState.Released.batchView_eq (h : Released terms.nowMs before released)
    (hwf : WellFormed messages before)
    (hfilter : before.previewRetryFilter terms.nowMs terms.legacyPolicy terms.policyVersion =
      some filter)
    (hfilter' : released.previewRetryFilter terms.nowMs terms.legacyPolicy terms.policyVersion =
      some filter')
    (hlacking : ∀ offset delivery, ¬ before.Lacking terms.nowMs offset delivery) :
    released.batchView terms filter' isDeadLetter = before.batchView terms filter isDeadLetter := by
  have htransitioned : Transitioned terms [] before released released := ⟨h, .refl _ _⟩
  have hheld : ∀ offset, released.Held terms.nowMs offset ↔ before.Held terms.nowMs offset :=
    fun offset => ⟨htransitioned.held_of_held, htransitioned.kept_of_scheduled hlacking⟩
  have hfree : (released.batchView terms filter' isDeadLetter).free =
      (before.batchView terms filter isDeadLetter).free := by
    funext x
    rw [Bool.eq_iff_iff, batchView_free_iff_held (hwf.released h) hfilter',
      batchView_free_iff_held hwf hfilter]
    simp only [hheld, h.same.acknowledged_iff]
  have hterminal : (released.batchView terms filter' isDeadLetter).terminal =
      (before.batchView terms filter isDeadLetter).terminal := by
    funext offset
    simp only [batchView, h.same.exhaustedAt_eq]
  have hattempts : (released.batchView terms filter' isDeadLetter).attempts =
      (before.batchView terms filter isDeadLetter).attempts := by
    funext offset
    simp only [batchView, GroupConsumerState.attempts, h.same.attempts]
  rw [BatchView.mk.injEq]
  exact ⟨hfree, hterminal, hattempts⟩

theorem candidate_eq_find? {consumer : GroupConsumerState} (hwf : WellFormed messages consumer)
    (hlive : consumer.AllLive terms.nowMs)
    (hfilter : consumer.previewRetryFilter terms.nowMs terms.legacyPolicy terms.policyVersion =
      some filter) :
    candidate consumer messages terms.nowMs ∅ ∅ =
      (enumerate messages).find? (consumer.batchView terms filter isDeadLetter).free := by
  have htest : ∀ entry, (decide (consumer.committedOffset ≤ entry.1) &&
      eligible consumer terms.nowMs ∅ ∅ entry) =
      (consumer.batchView terms filter isDeadLetter).free entry := by
    rintro ⟨offset, stored⟩
    have hkeyHeld : ∀ key : String, (key ∉ (consumer.retryFilter terms.nowMs).2 ∧
        ¬ consumer.keyInFlight key = true) ↔
        ∀ other : ℕ, consumer.Held terms.nowMs other → keyAt messages other ≠ some key := by
      intro key
      rw [mem_retryFilter_keys_iff hwf, ← hlive.liveKeyInFlight_iff, liveKeyInFlight_iff hwf]
      simp only [hlive.held_iff, Blocked]
      grind
    rw [Bool.eq_iff_iff, Bool.and_eq_true, decide_eq_true_eq, eligible_iff,
      batchView_free_iff_held hwf hfilter, hlive.held_iff]
    simp only [Std.ExtTreeSet.not_mem_empty, not_false_eq_true, true_and, hkeyHeld, Blocked,
      hlive.live_iff, Acknowledged]
    rw [not_or, Nat.not_lt, not_or]
    tauto
  rw [candidate, List.find?_filter]
  congr 1
  funext entry
  rw [← htest entry]
  simp

end Views

end Runnel.Cluster
