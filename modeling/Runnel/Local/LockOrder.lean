import Runnel.Local.Locking

/-!
# The order of the broker's locks

A stream is locked while its dead-letter stream is, and while the table is read or
grows. The names decide the order: a long name has a hashed dead-letter stream,
whose own name is short; a short name has one that ends in the suffix; and a
stream with the suffix has none.
-/

namespace Runnel.Local.Locking

open Runnel.Engine Runnel.Locks Runnel.Locks.Program Relation

/-- The suffix makes a dead-letter stream, whatever the table holds. -/
def HasSuffix (stream : String) : Prop :=
  deadLetterSuffix.toList.isSuffixOf stream.toList = true

instance (stream : String) : Decidable (HasSuffix stream) :=
  inferInstanceAs (Decidable (_ = true))

def streamRank (stream : String) : ℕ :=
  if HasSuffix stream then 2
  else if (utf8 (stream ++ deadLetterSuffix)).length ≤ 128 then 1
  else 0

def Lock.rank : Lock → ℕ
  | .table => 3
  | .stream name => streamRank name

theorem streamRank_lt_table (stream : String) :
    (Lock.stream stream).rank < Lock.table.rank := by
  simp only [Lock.rank, streamRank]
  split_ifs <;> omega

theorem hasSuffix_append (stream : String) : HasSuffix (stream ++ deadLetterSuffix) := by
  rw [HasSuffix, String.toList_append]
  exact List.isSuffixOf_iff_suffix.2 (List.suffix_append _ _)

theorem length_hashed_le (hash : UInt64) :
    (utf8 (deadLetterHashPrefix ++ hex16 hash.toNat ++ deadLetterSuffix)).length ≤ 128 := by
  have hhex := utf8ByteSize_hex16_le hash
  have hfront : (utf8 deadLetterHashPrefix).length = 19 := by decide
  have hback : (utf8 deadLetterSuffix).length = 12 := by decide
  have hdigits : (utf8 (hex16 hash.toNat)).length = (hex16 hash.toNat).utf8ByteSize := rfl
  rw [utf8_append, utf8_append, List.length_append, List.length_append]
  omega

theorem eq_of_validated {kind name target : String}
    (h : (do validateName kind name; return name : Except BrokerError String) = .ok target) :
    name = target := by
  cases hvalid : validateName kind name with
  | error error =>
    rw [hvalid] at h
    cases h
  | ok _ =>
    rw [hvalid] at h
    exact Except.ok.inj h

theorem streamRank_lt_deadLetterStream {stream target : String} (hlive : ¬ HasSuffix stream)
    (h : deadLetterStreamName stream = .ok target) : streamRank stream < streamRank target := by
  unfold deadLetterStreamName at h
  simp only at h
  split_ifs at h with hfits
  · obtain rfl := eq_of_validated h
    rw [streamRank, if_neg hlive, if_pos hfits, streamRank, if_pos (hasSuffix_append stream)]
    omega
  · obtain rfl := eq_of_validated h
    rw [streamRank, if_neg hlive, if_neg hfits, streamRank, if_pos (length_hashed_le _)]
    split_ifs <;> omega

section Parts

variable {α : Type} {held : List (Lock × Mode)}

def TableFree (held : List (Lock × Mode)) : Prop :=
  ∀ guard ∈ held, guard.1.rank < Lock.table.rank

theorem tableFree_nil : TableFree [] := by simp [TableFree]

theorem tableFree_stream (stream : String) : TableFree [(.stream stream, .write)] := by
  simpa [TableFree] using streamRank_lt_table stream

theorem scoped_locked {lock : Lock} {mode : Mode} {body : Op α} {post : α → Prop}
    (hbelow : ∀ guard ∈ held, guard.1.rank < lock.rank)
    (hbody : Scoped Lock.rank ((lock, mode) :: held) body post) :
    Scoped Lock.rank held (locked lock mode body) post :=
  .holding hbelow (.bind .fallible fun _ _ => hbody)

theorem scoped_lockStream_nil {stream : String} {body : Op α} {post : α → Prop}
    (hbody : Scoped Lock.rank [(.stream stream, .write)] body post) :
    Scoped Lock.rank [] (lockStream stream body) post :=
  scoped_locked (by simp) hbody

theorem scoped_getStream (hfree : TableFree held) (stream : String) :
    Scoped Lock.rank held (getStream stream) fun _ => True :=
  scoped_locked hfree (.bind .read fun _ _ => (Scoped.require _).mono fun _ _ => trivial)

theorem scoped_insertStream (stream : String) :
    Scoped Lock.rank held (insertStream stream) fun _ => True := by
  refine .bind .read fun streams _ => ?_
  split_ifs
  · exact .pure trivial
  · exact .bind .fallible fun _ _ => .modify _

theorem scoped_getOrCreateStream (hfree : TableFree held) (stream : String) :
    Scoped Lock.rank held (getOrCreateStream stream) fun _ => True := by
  have hlook : Scoped Lock.rank held
      (locked .table .read do
        let streams ← read
        return streams.contains stream : Op Bool) fun _ => True :=
    scoped_locked hfree (.bind .read fun _ _ => .pure trivial)
  refine .bind hlook fun found _ => ?_
  split_ifs
  · exact .pure trivial
  · exact scoped_locked hfree (scoped_insertStream stream)

theorem scoped_isDeadLetterStream (hfree : TableFree held) (stream : String) :
    Scoped Lock.rank held (isDeadLetterStream stream) fun isDeadLetter =>
      isDeadLetter = false → ¬ HasSuffix stream := by
  unfold isDeadLetterStream
  split_ifs with hsuffix hfront
  · exact .pure fun h => by cases h
  · exact .pure fun _ => hsuffix
  · exact scoped_locked hfree (.bind .read fun _ _ => .pure fun _ => hsuffix)

theorem scoped_isTerminal (hfree : TableFree held) (stream : String) :
    Scoped Lock.rank held (isTerminal stream) fun terminal =>
      terminal = true → ¬ HasSuffix stream := by
  refine .bind .undecided fun exhausted _ => ?_
  split_ifs
  · refine .bind (scoped_isDeadLetterStream hfree stream) fun isDeadLetter hlive => .pure ?_
    exact fun hterminal => hlive (by simpa using hterminal)
  · exact .pure fun h => by cases h

theorem scoped_orphanDelayed : Scoped Lock.rank held orphanDelayed fun _ => True :=
  .bind .fallible fun _ _ => .undecided

end Parts

section Locked

variable {stream : String}

theorem scoped_deadLetterRecord (hlive : ¬ HasSuffix stream) :
    Scoped Lock.rank [(.stream stream, .write)] (deadLetterRecord stream) fun _ => True := by
  unfold deadLetterRecord
  cases htarget : deadLetterStreamName stream with
  | error error => trivial
  | ok target =>
    refine .bind .fallible fun _ _ => ?_
    refine .bind (scoped_getOrCreateStream (tableFree_stream stream) target) fun _ _ => ?_
    refine scoped_locked ?_ .fallible
    simpa [Lock.rank] using streamRank_lt_deadLetterStream hlive htarget

theorem scoped_persistPendingDeadLetters {candidates : ℕ}
    (hlive : candidates = 0 ∨ ¬ HasSuffix stream) :
    Scoped Lock.rank [(.stream stream, .write)] (persistPendingDeadLetters stream candidates)
      fun _ => True := by
  induction candidates with
  | zero => exact .pure trivial
  | succ candidates ih =>
    have hsource : ¬ HasSuffix stream := hlive.resolve_left (Nat.succ_ne_zero _)
    exact .bind (scoped_deadLetterRecord hsource) fun _ _ =>
      .bind .fallible fun _ _ => ih (Or.inr hsource)

theorem scoped_preflightPollResponse :
    Scoped Lock.rank [(.stream stream, .write)] (preflightPollResponse stream)
      fun _ => True := by
  refine .bind .fallible fun _ _ => .bind .undecided fun delivered _ => ?_
  split_ifs
  · exact .fallible
  · exact .bind (scoped_isDeadLetterStream (tableFree_stream stream) stream) fun _ _ => .fallible

theorem scoped_pollRounds {rounds terminalCandidates : ℕ}
    (hlive : terminalCandidates = 0 ∨ ¬ HasSuffix stream) :
    Scoped Lock.rank [(.stream stream, .write)] (pollRounds stream rounds terminalCandidates)
      fun _ => True := by
  induction rounds generalizing terminalCandidates with
  | zero => trivial
  | succ rounds ih =>
    refine .bind .fallible fun _ _ => .bind .undecided fun found _ => ?_
    split_ifs
    · refine .bind scoped_orphanDelayed fun delayed _ => ?_
      split_ifs
      · exact ih hlive
      · have hcheck := scoped_isTerminal (tableFree_stream stream) stream
        refine .bind hcheck fun terminal hterminal => ?_
        split_ifs with hmoves
        · exact ih (Or.inr (hterminal hmoves))
        · exact .bind .fallible fun _ _ =>
            .bind (scoped_persistPendingDeadLetters hlive) fun _ _ => .fallible
    · exact scoped_persistPendingDeadLetters hlive

theorem scoped_pollBatchRounds {rounds : ℕ} :
    Scoped Lock.rank [(.stream stream, .write)] (pollBatchRounds stream rounds)
      fun _ => True := by
  induction rounds with
  | zero => trivial
  | succ rounds ih =>
    refine .bind .fallible fun _ _ => .bind .undecided fun found _ => ?_
    split_ifs
    · refine .bind scoped_orphanDelayed fun delayed _ => ?_
      split_ifs
      · exact ih
      · have hcheck := scoped_isTerminal (tableFree_stream stream) stream
        refine .bind hcheck fun terminal hterminal => ?_
        split_ifs with hmoves
        · exact .bind (scoped_deadLetterRecord (hterminal hmoves)) fun _ _ =>
            .bind .fallible fun _ _ => ih
        · exact .bind .fallible fun _ _ => ih
    · exact .fallible

end Locked

section Operations

variable {β : Type} {stream consumer member : String}

theorem scoped_validName {kind name : String} {held : List (Lock × Mode)} {next : Op β}
    {post : β → Prop} (hnext : Scoped Lock.rank held next post) :
    Scoped Lock.rank held (validName kind name >>= fun _ => next) post :=
  .bind (.require _) fun _ _ => hnext

theorem scoped_onStream : Scoped Lock.rank [] (onStream stream) fun _ => True :=
  .bind .fallible fun _ _ => .bind (scoped_getStream tableFree_nil stream) fun _ _ =>
    scoped_lockStream_nil .fallible

theorem scoped_pollGroupInner {maxResponseBytes : Option ℕ} :
    Scoped Lock.rank [] (pollGroupInner stream consumer member maxResponseBytes)
      fun _ => True := by
  have hpoll : Scoped Lock.rank [(.stream stream, .write)]
      (do
        fallible
        let delivered ← undecided
        if delivered then fallible
        else do
          let rounds ← answer
          pollRounds stream rounds 0 : Op Unit) fun _ => True := by
    refine .bind .fallible fun _ _ => .bind .undecided fun delivered _ => ?_
    split_ifs
    · exact .fallible
    · exact .bind .answer fun rounds _ => scoped_pollRounds (Or.inl rfl)
  refine scoped_validName (scoped_validName (scoped_validName ?_))
  refine .bind .fallible fun _ _ => .bind (scoped_getStream tableFree_nil stream) fun _ _ => ?_
  refine scoped_lockStream_nil (.bind .fallible fun _ _ => ?_)
  dsimp only
  split_ifs
  · exact .bind scoped_preflightPollResponse fun _ _ => hpoll
  · exact hpoll

theorem scoped_pollBatchStep : Scoped Lock.rank [] (pollBatchStep stream) fun _ => True := by
  refine .bind (scoped_getStream tableFree_nil stream) fun _ _ => ?_
  refine scoped_lockStream_nil (.bind .fallible fun _ _ => .bind .undecided fun delivered _ => ?_)
  split_ifs
  · exact .fallible
  · exact .bind .answer fun rounds _ => scoped_pollBatchRounds

theorem scoped_pollBatchSteps {steps : ℕ} :
    Scoped Lock.rank [] (pollBatchSteps stream steps) fun _ => True := by
  induction steps with
  | zero => exact .pure trivial
  | succ steps ih => exact .bind scoped_pollBatchStep fun _ _ => ih

theorem scoped_pollBatchWait :
    Scoped Lock.rank [] (pollBatchWait stream consumer member) fun _ => True := by
  refine scoped_validName (scoped_validName (scoped_validName ?_))
  refine .bind .fallible fun _ _ => .bind (scoped_getStream tableFree_nil stream) fun _ _ => ?_
  refine .bind (scoped_lockStream_nil (.pure trivial)) fun _ (_ : True) => ?_
  exact .bind .fallible fun _ _ => .bind .answer fun steps _ => scoped_pollBatchSteps

theorem scoped_publish : Scoped Lock.rank []
    (getOrCreateStream stream >>= fun _ => lockStream stream fallible) fun _ => True :=
  .bind (scoped_getOrCreateStream tableFree_nil stream) fun _ _ => scoped_lockStream_nil .fallible

theorem scoped_sumStreams (streams : List String) :
    Scoped Lock.rank [] (sumStreams streams) fun _ => True := by
  induction streams with
  | nil => exact .pure trivial
  | cons stream streams ih => exact .bind (scoped_lockStream_nil .fallible) fun _ _ => ih

theorem scoped_health : Scoped Lock.rank [] health fun _ => True := by
  have hlook : Scoped Lock.rank []
      (locked .table .read do
        let streams ← read
        let order ← answer
        return (streams.toList.permutations[order]?).getD streams.toList : Op (List String))
      fun _ => True :=
    scoped_locked tableFree_nil (.bind .read fun _ _ => .bind .answer fun _ _ => .pure trivial)
  exact .bind hlook fun streams _ => scoped_sumStreams streams

theorem scoped_program (operation : Operation) :
    Scoped Lock.rank [] operation.program fun _ => True := by
  cases operation with
  | createStream stream =>
    exact scoped_validName (scoped_locked tableFree_nil (scoped_insertStream stream))
  | publish stream => exact scoped_validName scoped_publish
  | publishBatch stream => exact .bind .fallible fun _ _ => scoped_validName scoped_publish
  | configureConsumer stream consumer => exact scoped_validName (scoped_validName scoped_onStream)
  | inspectConsumer stream consumer => exact scoped_validName (scoped_validName scoped_onStream)
  | replay stream consumer => exact scoped_validName (scoped_validName scoped_onStream)
  | pollGroup stream consumer member maxResponseBytes => exact scoped_pollGroupInner
  | pollBatch stream consumer member => exact scoped_pollBatchWait
  | ackGroup stream consumer member =>
    exact scoped_validName (scoped_validName (scoped_validName scoped_onStream))
  | ackBatch stream consumer member =>
    exact scoped_validName (scoped_validName (scoped_validName scoped_onStream))
  | health => exact scoped_health

end Operations

theorem orderly_of_run {streams : Table} {past : List (Broker × Event Operation)}
    {broker : Broker} (h : Run streams past broker) :
    ∀ thread ∈ broker.threads, thread.Orderly Lock.rank := by
  refine Transition.Run.invariant (I := fun broker : Broker =>
    ∀ thread ∈ broker.threads, thread.Orderly Lock.rank) ?_ ?_ h
  · rintro broker rfl
    simp [Broker.opened]
  · exact fun broker event broker' hbroker hnext =>
      orderly_of_next? scoped_program hbroker hnext

/-- Whatever streams there are and whichever operations run at the same time, nobody waits in
a circle: a lock is never waited for by the one who holds it, over any chain of locks held
while waiting. A stream taken while another one is locked, which is how records are moved to
a dead-letter stream, never waits for that one. And while an operation is unfinished, one of
them waits for no lock that is held. -/
theorem locking_deadlock_free {streams : Table} {past : List (Broker × Event Operation)}
    {broker : Broker} (h : Run streams past broker) :
    (∀ lock, ¬ TransGen broker.Waits lock lock) ∧
    (∀ source target, broker.Waits (.stream source) (.stream target) →
      ¬ ReflTransGen broker.Waits (.stream target) (.stream source)) ∧
    ((∃ thread ∈ broker.threads, ¬ thread.Finished) →
      ∃ thread ∈ broker.threads, ¬ thread.Finished ∧ ∀ lock, thread.rest.requested = some lock →
        ∀ other ∈ broker.threads, ¬ other.Holds lock) := by
  have horderly := orderly_of_run h
  refine ⟨System.acyclic horderly, fun source target hwaits hback => ?_,
    System.exists_unblocked horderly⟩
  exact System.acyclic horderly _ (TransGen.head' hwaits hback)

def longName : String := String.ofList (List.replicate 120 'a')

def hashedName : String := deadLetterHashPrefix ++ hex16 (fnv1a (utf8 longName)).toNat

/-- A poll of each: the first is about to move a record to the second stream, whose own poll
is about to look it up in the table. -/
def crossingPolls : List (Event Operation) :=
  [.start (.pollGroup longName "worker" "worker" none),
    .start (.pollGroup hashedName "worker" "worker" none)] ++
  [1, 0, 1, 0, 0, 0, 1, 1, 1, 0, 2, 1, 1, 1, 0, 1, 1, 0, 1, 0, 1, 0, 0].map (.step 0) ++
  [1, 0, 1, 0, 0, 0, 1, 1, 1, 0, 2, 1, 1, 1, 0, 1].map (.step 1)

def heldAndRequested (broker : Broker) : List (List Lock × Option Lock) :=
  broker.threads.map fun thread => (thread.held.map Prod.fst, thread.rest.requested)

theorem waits_of_heldAndRequested {broker : Broker} {held : List Lock} {first second : Lock}
    (h : (held, some second) ∈ heldAndRequested broker) (hfirst : first ∈ held) :
    broker.Waits first second := by
  obtain ⟨thread, hthread, heq⟩ := List.mem_map.1 h
  obtain ⟨rfl, hrequested⟩ := Prod.mk.inj heq
  exact ⟨thread, hthread, hfirst, hrequested⟩

theorem crossing_polls_ascend : ∃ past broker, Run {longName, hashedName} past broker ∧
    broker.Waits (.stream longName) (.stream hashedName) ∧
    broker.Waits (.stream hashedName) .table ∧
    ¬ ReflTransGen broker.Waits (.stream hashedName) (.stream longName) := by
  have hrun : (Transition.follow (next? Operation.program) crossingPolls []
      (Broker.opened {longName, hashedName})).any fun reached => heldAndRequested reached.2 =
        [([.stream longName], some (.stream hashedName)),
          ([.stream hashedName], some .table)] := by decide +kernel
  obtain ⟨⟨past, broker⟩, hfollow, hlocks⟩ := (Option.any_eq_true _ _).1 hrun
  have hreached : Run {longName, hashedName} past broker :=
    Transition.Run.of_follow (fun _ _ _ _ => id) (.start rfl) hfollow
  have hlocks := of_decide_eq_true hlocks
  have hmoves : broker.Waits (.stream longName) (.stream hashedName) :=
    waits_of_heldAndRequested (hlocks ▸ List.mem_cons_self) List.mem_cons_self
  have hlooks : broker.Waits (.stream hashedName) .table :=
    waits_of_heldAndRequested (hlocks ▸ List.mem_cons_of_mem _ List.mem_cons_self)
      List.mem_cons_self
  exact ⟨past, broker, hreached, hmoves, hlooks,
    (locking_deadlock_free hreached).2.1 _ _ hmoves⟩

end Runnel.Local.Locking
