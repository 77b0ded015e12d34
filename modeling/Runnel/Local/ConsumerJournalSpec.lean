import Runnel.Local.ConsumerJournal

/-!
# What the files of a consumer stand for

A checkpoint and the events of the journal behind it stand for a state; a line
that was never finished may follow.
-/

namespace Runnel.Local

open Runnel.Engine Bytes

theorem ConsumerStateEvent.newline_notMem_text (event : ConsumerStateEvent) :
    0x0a ∉ event.text := Json.newline_notMem_render _

/-- What a journal holds when the events were appended to it. -/
def journalLines (events : List ConsumerStateEvent) : Bytes :=
  events.flatMap ConsumerStateEvent.line

theorem journalLines_concat (events : List ConsumerStateEvent) (event : ConsumerStateEvent) :
    journalLines (events ++ [event]) = journalLines events ++ event.line := by
  simp [journalLines]

/-- A replay applies the events of complete lines and ignores a line that was cut off. -/
theorem replayLines_journal (reader : ConsumerStateReader) (events : List ConsumerStateEvent)
    {part : Bytes} (hpart : ∃ event : ConsumerStateEvent, part <+: event.text)
    (state : ConsumerState) (validLength : ℕ) :
    replayLines reader state validLength (splitInclusive 0x0a (journalLines events ++ part)) =
      (state.applyEvents events).map fun after =>
        (after, validLength + (journalLines events).length) := by
  induction events generalizing state validLength with
  | nil =>
    obtain ⟨event, hbegins⟩ := hpart
    by_cases hempty : part = []
    · subst hempty
      rfl
    · have hnewline : (0x0a : UInt8) ∉ part :=
        fun hmem => event.newline_notMem_text (hbegins.subset hmem)
      have hlast : part.getLast? ≠ some 0x0a :=
        fun hlast => hnewline (List.mem_of_getLast? hlast)
      have hcut : ¬ (reader.isValue part ∧ (reader.readEvent part).toOption.isNone) := by
        rintro ⟨hvalue, hnone⟩
        by_cases hwhole : part = event.text
        · rw [hwhole, reader.readEvent_text] at hnone
          cases hnone
        · rw [reader.isValue_part event part hbegins hwhole] at hvalue
          cases hvalue
      rw [journalLines, List.flatMap_nil, List.nil_append,
        splitInclusive_of_notMem hnewline hempty, replayLines, if_pos hlast, if_neg hcut]
      rfl
  | cons event events ih =>
    have hsplit : journalLines (event :: events) ++ part =
        event.text ++ 0x0a :: (journalLines events ++ part) := by
      simp [journalLines, ConsumerStateEvent.line]
    have hcons : state.applyEvents (event :: events) =
        (state.applyEvent event).bind fun next => next.applyEvents events := rfl
    rw [hsplit, splitInclusive_append event.newline_notMem_text, replayLines,
      if_neg (by simp), List.dropLast_concat, reader.readEvent_text, hcons]
    cases happly : state.applyEvent event with
    | error error =>
      simp only [Except.mapError, bind, Except.bind, happly]
      rfl
    | ok next =>
      have hlength : validLength + (event.text ++ [0x0a]).length + (journalLines events).length =
          validLength + (journalLines (event :: events)).length := by
        simp [journalLines, ConsumerStateEvent.line]
        omega
      rw [Except.bind, ← hlength, ← ih next]
      simp only [Except.mapError, bind, Except.bind, happly]

/-- Only the files of the path changed, and some of the faults were met. -/
structure ConsumerStore.Touched (path : ConsumerPath) (before after : ConsumerStore) : Prop where
  others : ∀ other, other ≠ path → after.read other = before.read other
  faults : ∃ n, after.faults = before.faults.drop n

namespace ConsumerStore.Touched

variable {path : ConsumerPath} {a b c : ConsumerStore}

theorem refl (path : ConsumerPath) (store : ConsumerStore) : Touched path store store :=
  ⟨fun _ _ => rfl, 0, rfl⟩

theorem trans (h : Touched path a b) (h' : Touched path b c) : Touched path a c := by
  obtain ⟨n, hn⟩ := h.faults
  obtain ⟨m, hm⟩ := h'.faults
  refine ⟨fun other hne => (h'.others other hne).trans (h.others other hne), n + m, ?_⟩
  rw [hm, hn, List.drop_drop]

theorem faults_ne_nil (h : Touched path a b) (hb : b.faults ≠ []) : a.faults ≠ [] := by
  obtain ⟨n, hn⟩ := h.faults
  rintro ha
  rw [ha, List.drop_nil] at hn
  exact hb hn

end ConsumerStore.Touched

theorem ConsumerStore.read_write (store : ConsumerStore) (path other : ConsumerPath)
    (files : ConsumerFiles) :
    (store.write path files).read other = if path = other then files else store.read other := by
  simp only [read, write, Std.ExtTreeMap.getElem?_insert, Std.LawfulEqCmp.compare_eq_iff_eq]
  split_ifs <;> rfl

/-- The computation leads from files of one kind to files of another; if it fails, which takes
a fault where journals are bounded, it leaves files of a third kind. -/
def Operates {ε α : Type} (bounded : Prop) (path : ConsumerPath) (m : EStateM ε ConsumerStore α)
    (requires : ConsumerFiles → Prop) (returns : α → ConsumerFiles → Prop)
    (leaves : ConsumerFiles → Prop) : Prop :=
  ∀ store : ConsumerStore, requires (store.read path) →
    Ensures m store (fun a after => store.Touched path after ∧ returns a (after.read path))
      fun _ after => (bounded → store.faults ≠ []) ∧ store.Touched path after ∧
        leaves (after.read path)

namespace Operates

variable {bounded : Prop} {ε δ α β : Type} {path : ConsumerPath} {m : EStateM ε ConsumerStore α}
  {requires requires' leaves leaves' : ConsumerFiles → Prop}
  {returns returns' : α → ConsumerFiles → Prop}

theorem mono (h : Operates bounded path m requires returns leaves)
    (hrequires : ∀ files, requires' files → requires files)
    (hreturns : ∀ a files, returns a files → returns' a files)
    (hleaves : ∀ files, leaves files → leaves' files) :
    Operates bounded path m requires' returns' leaves' := by
  intro store hstore
  apply (h store (hrequires _ hstore)).mono
  · intro a after hafter
    exact ⟨hafter.1, hreturns a _ hafter.2⟩
  · intro e after hafter
    exact ⟨hafter.1, hafter.2.1, hleaves _ hafter.2.2⟩

theorem pure {a : α} (h : ∀ files, requires files → returns a files) :
    Operates (ε := ε) bounded path (Pure.pure a) requires returns leaves :=
  fun store hstore => ⟨ConsumerStore.Touched.refl path store, h _ hstore⟩

theorem bind {f : α → EStateM ε ConsumerStore β} {ends : β → ConsumerFiles → Prop}
    (h : Operates bounded path m requires returns leaves)
    (hf : ∀ a, Operates bounded path (f a) (returns a) ends leaves) :
    Operates bounded path (m >>= f) requires ends leaves := by
  intro store hstore
  rw [ensures_bind]
  apply (h store hstore).mono
  · rintro a middle ⟨htouched, hmiddle⟩
    apply (hf a middle hmiddle).mono
    · rintro b after ⟨hafter, hreturns⟩
      exact ⟨htouched.trans hafter, hreturns⟩
    · rintro e after ⟨hfaults, hafter, hleaves⟩
      exact ⟨fun h => htouched.faults_ne_nil (hfaults h), htouched.trans hafter, hleaves⟩
  · intro e after hafter
    exact hafter

theorem adaptExcept (f : ε → δ) (h : Operates bounded path m requires returns leaves) :
    Operates bounded path (EStateM.adaptExcept f m) requires returns leaves := by
  intro store hstore
  rw [ensures_adaptExcept]
  exact h store hstore

theorem readFiles (path : ConsumerPath) (requires leaves : ConsumerFiles → Prop) :
    Operates (ε := ε) bounded path (readFiles path) requires
      (fun a files => a = files ∧ requires files) leaves :=
  fun store hstore => ⟨ConsumerStore.Touched.refl path store, rfl, hstore⟩

theorem fileOperation {effect : ConsumerFiles → ConsumerFiles}
    {torn : ℕ → ConsumerFiles → ConsumerFiles} {returns : ConsumerFiles → Prop}
    (heffect : ∀ files, requires files → returns (effect files))
    (htorn : ∀ n files, requires files → leaves (torn n files)) :
    Operates bounded path (fileOperation path effect torn) requires (fun _ => returns) leaves := by
  intro store hstore
  have hread : ∀ files faults, ConsumerStore.read
      { store.write path files with faults := faults } path = files := by
    intro files faults
    exact (store.read_write path path files).trans (if_pos rfl)
  have hothers : ∀ files faults other, other ≠ path → ConsumerStore.read
      { store.write path files with faults := faults } other = store.read other := by
    intro files faults other hne
    exact (store.read_write path other files).trans (if_neg hne.symm)
  unfold Ensures Local.fileOperation
  cases hfaults : store.faults with
  | nil =>
    refine ⟨⟨hothers _ _, 0, hfaults.symm⟩, ?_⟩
    exact (hread _ _).symm ▸ heffect _ hstore
  | cons head faults =>
    cases head with
    | none =>
      refine ⟨⟨hothers _ _, 1, by rw [hfaults]; rfl⟩, ?_⟩
      exact (hread _ _).symm ▸ heffect _ hstore
    | some fault =>
      refine ⟨by simp, ⟨hothers _ _, 1, by rw [hfaults]; rfl⟩, ?_⟩
      exact (hread _ _).symm ▸ htorn fault.written _ hstore

theorem quietOperation (hleaves : ∀ files, requires files → leaves files) :
    Operates bounded path (quietOperation path) requires (fun _ => requires) leaves :=
  fileOperation (fun _ h => h) fun _ files h => hleaves files h

end Operates

/-- The files hold a checkpoint of the base, if it is not the fresh state, and the lines of the
events, possibly followed by a part of another line. The bound of the journal is kept only
where every event fits in it. -/
structure Journaled (bounded : Prop) (path : ConsumerPath) (base : ConsumerState)
    (events : List ConsumerStateEvent) (part : Bytes) (files : ConsumerFiles) : Prop where
  checkpoint : files.checkpoint = some base.text ∨
    files.checkpoint = none ∧ base = { stream := path.1, consumer := path.2 }
  stream : base.stream = path.1
  consumer : base.consumer = path.2
  wellFormed : base.WellFormed
  journal : files.journal = some (journalLines events ++ part) ∨
    files.journal = none ∧ events = [] ∧ part = []
  length_le : bounded → (journalLines events ++ part).length ≤ maxConsumerStateJournalBytes
  unfinished : ∃ event : ConsumerStateEvent, part <+: event.text

/-- The files stand for what a replay gives, a state or the failure of an event. -/
def StandsFor (bounded : Prop) (path : ConsumerPath) (result : Except BrokerError ConsumerState)
    (part : Bytes)
    (files : ConsumerFiles) : Prop :=
  ∃ base events, base.applyEvents events = result ∧ Journaled bounded path base events part files

theorem ConsumerStateEvent.nil_isPrefix : ∃ event : ConsumerStateEvent, [] <+: event.text :=
  ⟨.acknowledge 0, List.nil_prefix⟩

namespace Journaled

variable {bounded : Prop} {path : ConsumerPath} {base state : ConsumerState}
  {events : List ConsumerStateEvent} {part : Bytes} {files : ConsumerFiles}

theorem fresh (bounded : Prop) (path : ConsumerPath) :
    Journaled bounded path { stream := path.1, consumer := path.2 } [] [] {} where
  checkpoint := Or.inr ⟨rfl, rfl⟩
  stream := rfl
  consumer := rfl
  wellFormed := ConsumerState.WellFormed.fresh _ _
  journal := Or.inr ⟨rfl, rfl, rfl⟩
  length_le _ := Nat.zero_le _
  unfinished := ConsumerStateEvent.nil_isPrefix

theorem getD_journal (h : Journaled bounded path base events part files) :
    files.journal.getD [] = journalLines events ++ part := by
  rcases h.journal with hsome | ⟨hnone, rfl, rfl⟩
  · rw [hsome]
    rfl
  · rw [hnone]
    rfl

theorem rebase (h : Journaled bounded path base events part files)
    (happly : base.applyEvents events = .ok state) (temporary : Option Bytes) :
    Journaled bounded path state events part
      { files with checkpoint := some state.text, temporary := temporary } := by
  obtain ⟨hstream, hconsumer⟩ := ConsumerState.names_applyEvents happly
  exact ⟨Or.inl rfl, hstream.trans h.stream, hconsumer.trans h.consumer,
    h.wellFormed.applyEvents happly, h.journal, h.length_le, h.unfinished⟩

theorem cut (h : Journaled bounded path base events part files) :
    Journaled bounded path base [] [] (files.truncate 0) where
  checkpoint := h.checkpoint
  stream := h.stream
  consumer := h.consumer
  wellFormed := h.wellFormed
  journal := by
    rcases h.journal with hsome | ⟨hnone, -, -⟩
    · exact Or.inl (by simp [ConsumerFiles.truncate, hsome, journalLines])
    · exact Or.inr ⟨by simp [ConsumerFiles.truncate, hnone], rfl, rfl⟩
  length_le _ := Nat.zero_le _
  unfinished := ConsumerStateEvent.nil_isPrefix

theorem finish (h : Journaled bounded path base events part files) (hpart : part ≠ []) :
    Journaled bounded path base events [] (files.truncate (journalLines events).length) where
  checkpoint := h.checkpoint
  stream := h.stream
  consumer := h.consumer
  wellFormed := h.wellFormed
  journal := by
    rcases h.journal with hsome | ⟨-, -, hnil⟩
    · exact Or.inl (by simp [ConsumerFiles.truncate, hsome])
    · exact absurd hnil hpart
  length_le hbounded := by
    have := h.length_le hbounded
    rw [List.length_append] at this ⊢
    exact (Nat.add_le_add_left (Nat.zero_le _) _).trans this
  unfinished := ConsumerStateEvent.nil_isPrefix

theorem open_journal (h : Journaled bounded path base events [] files) :
    Journaled bounded path base events []
      { files with journal := some (files.journal.getD []) } where
  checkpoint := h.checkpoint
  stream := h.stream
  consumer := h.consumer
  wellFormed := h.wellFormed
  journal := Or.inl (congrArg some h.getD_journal)
  length_le := h.length_le
  unfinished := h.unfinished

/-- Data that is appended to an open journal: a whole line, or a part of one. -/
theorem append {event : ConsumerStateEvent} (h : Journaled bounded path base events [] files)
    (hopen : files.journal.isSome)
    (hfits : bounded → (journalLines events ++ event.line).length ≤ maxConsumerStateJournalBytes)
    (n : ℕ) :
    (event.line.take n = event.line ∧
      Journaled bounded path base (events ++ [event]) [] (files.append (event.line.take n))) ∨
    event.line.take n <+: event.text ∧
      Journaled bounded path base events (event.line.take n)
        (files.append (event.line.take n)) := by
  have hjournal : ∀ data, (files.append data).journal = some (journalLines events ++ data) := by
    intro data
    obtain ⟨bytes, hbytes⟩ := Option.isSome_iff_exists.1 hopen
    have hlines := h.getD_journal
    rw [hbytes, Option.getD_some, List.append_nil] at hlines
    rw [ConsumerFiles.append, hbytes, hlines]
    rfl
  by_cases hwhole : event.line.length ≤ n
  · rw [List.take_of_length_le hwhole]
    refine Or.inl ⟨rfl, h.checkpoint, h.stream, h.consumer, h.wellFormed, Or.inl ?_, ?_,
      ConsumerStateEvent.nil_isPrefix⟩
    · rw [hjournal, journalLines_concat, List.append_nil]
    · intro hbounded
      rw [journalLines_concat, List.append_nil]
      exact hfits hbounded
  · have hpart : event.line.take n <+: event.text := by
      rw [ConsumerStateEvent.line, List.length_append, List.length_singleton] at hwhole
      rw [ConsumerStateEvent.line, List.take_append_of_le_length (by omega)]
      exact List.take_prefix _ _
    refine Or.inr ⟨hpart, h.checkpoint, h.stream, h.consumer, h.wellFormed, Or.inl (hjournal _), ?_,
      event, hpart⟩
    intro hbounded
    have hlen := hfits hbounded
    have := List.length_take_le n event.line
    rw [List.length_append] at hlen ⊢
    omega

end Journaled

theorem truncateConsumerStateJournal_spec {bounded : Prop} {path : ConsumerPath} {length : ℕ}
    {requires returns : ConsumerFiles → Prop}
    (hopen : bounded → ∀ files, requires files → files.journal.isSome)
    (hcut : ∀ files, requires files → returns (files.truncate length)) :
    Operates bounded path (truncateConsumerStateJournal path length) requires (fun _ => returns)
      fun files => requires files ∨ returns files := by
  have hrest : Operates bounded path
      (quietOperation path >>= fun _ => fileOperation path (·.truncate length) (fun _ => id) >>=
        fun _ => quietOperation path)
      requires (fun _ => returns) fun files => requires files ∨ returns files := by
    apply (Operates.quietOperation fun files h => Or.inl h).bind
    intro _
    apply (Operates.fileOperation hcut fun _ files h => Or.inl h).bind
    intro _
    exact Operates.quietOperation fun files h => Or.inr h
  apply (Operates.readFiles path requires _).bind
  intro found
  by_cases hnone : found.journal.isNone
  · rw [if_pos hnone]
    rintro store ⟨rfl, hstore⟩
    refine ⟨fun hbounded => ?_, ConsumerStore.Touched.refl _ _, Or.inl hstore⟩
    have hsome := hopen hbounded _ hstore
    rw [Option.isNone_iff_eq_none.1 hnone] at hsome
    cases hsome
  · rw [if_neg hnone]
    exact hrest.mono (fun _ h => h.2) (fun _ _ h => h) fun _ h => h

variable {bounded : Prop} {path : ConsumerPath}

theorem persistConsumerState_spec {base state : ConsumerState}
    {events : List ConsumerStateEvent} (happly : base.applyEvents events = .ok state)
    (hpath : path = (state.stream, state.consumer)) :
    Operates bounded path (persistConsumerState state) (Journaled bounded path base events [])
      (fun _ => Journaled bounded path state events [])
        (Journaled bounded path base events []) := by
  have hkeep : ∀ files temporary, Journaled bounded path base events [] files →
      Journaled bounded path base events [] { files with temporary := temporary } := by
    intro files temporary h
    exact ⟨h.checkpoint, h.stream, h.consumer, h.wellFormed, h.journal, h.length_le, h.unfinished⟩
  subst hpath
  -- the temporary file grows, is synced and takes the place of the checkpoint
  apply ((Operates.quietOperation fun _ h => h).adaptExcept _).bind
  intro _
  apply ((@Operates.fileOperation _ _ _ _ _ _ (fun files =>
    Journaled bounded (state.stream, state.consumer) base events [] files ∧
      files.temporary = some [])
    (fun files h => ⟨hkeep files _ h, rfl⟩) fun _ _ h => h).adaptExcept _).bind
  intro _
  apply ((@Operates.fileOperation _ _ _ _ _ _ (fun files =>
    Journaled bounded (state.stream, state.consumer) base events [] files ∧
      files.temporary = some state.toJson.render)
    (fun files h => ⟨hkeep files _ h.1, by simp [h.2]⟩)
    fun _ files h => hkeep files _ h.1).adaptExcept _).bind
  intro _
  apply ((@Operates.fileOperation _ _ _ _ _ _ (fun files =>
    Journaled bounded (state.stream, state.consumer) base events [] files ∧
      files.temporary = some state.text)
    (fun files h => ⟨hkeep files _ h.1, by simp [h.2, ConsumerState.text]⟩)
    fun _ files h => hkeep files _ h.1).adaptExcept _).bind
  intro _
  apply ((Operates.quietOperation fun _ h => h.1).adaptExcept _).bind
  intro _
  apply (Operates.fileOperation _ _).adaptExcept
  · intro files h
    rw [h.2]
    exact h.1.rebase happly none
  · intro _ files h
    exact h.1

/-- A persist that stopped: the files stand for the state before the event or behind it. -/
def PersistStopped (bounded : Prop) (path : ConsumerPath) (state : ConsumerState)
    (event : ConsumerStateEvent) (files : ConsumerFiles) : Prop :=
  (∃ part, StandsFor bounded path (.ok state) part files) ∨
    StandsFor bounded path (state.applyEvent event) [] files

theorem appendConsumerEvent_spec {bounded : Prop} {path : ConsumerPath} {base state : ConsumerState}
    {events : List ConsumerStateEvent} {event : ConsumerStateEvent}
    (happly : base.applyEvents events = .ok state)
    (hfits : bounded →
      (journalLines events ++ event.line).length ≤ maxConsumerStateJournalBytes) :
    Operates bounded path (appendConsumerEvent path event) (Journaled bounded path base events [])
      (fun _ => StandsFor bounded path (state.applyEvent event) [])
      (PersistStopped bounded path state event) := by
  have hwhole : ∀ files, Journaled bounded path base (events ++ [event]) [] files →
      StandsFor bounded path (state.applyEvent event) [] files := by
    intro files h
    refine ⟨base, events ++ [event], ?_, h⟩
    rw [ConsumerState.applyEvents_concat, happly]
    rfl
  have hnothing : ∀ files, Journaled bounded path base events [] files →
      PersistStopped bounded path state event files :=
    fun files h => Or.inl ⟨[], base, events, happly, h⟩
  apply ((Operates.quietOperation hnothing).adaptExcept _).bind
  intro _
  apply ((@Operates.fileOperation _ _ _ _ _ _ (fun files =>
    Journaled bounded path base events [] files ∧ files.journal.isSome)
    (fun files h => ⟨h.open_journal, rfl⟩) fun _ => hnothing).adaptExcept _).bind
  intro _
  apply ((@Operates.fileOperation _ _ _ _ _ _ (Journaled bounded path base (events ++ [event]) [])
    ?_ ?_).adaptExcept _).bind
  · intro _
    apply ((Operates.quietOperation ?_).adaptExcept _).mono (fun _ h => h)
      (fun _ => hwhole) fun _ h => h
    exact fun files h => Or.inr (hwhole files h)
  · intro files h
    have hlen : event.line.take event.line.length = event.line := List.take_length
    rcases h.1.append h.2 hfits event.line.length with ⟨-, hafter⟩ | ⟨hpart, -⟩
    · rwa [hlen] at hafter
    · have := hpart.length_le
      rw [hlen, ConsumerStateEvent.line, List.length_append] at this
      simp at this
  · intro written files h
    rcases h.1.append h.2 hfits written with ⟨-, hafter⟩ | ⟨-, hafter⟩
    · exact Or.inr (hwhole _ hafter)
    · exact Or.inl ⟨_, base, events, happly, hafter⟩

theorem Journaled.isSome_journal {base : ConsumerState}
    {events : List ConsumerStateEvent} {part : Bytes} {files : ConsumerFiles}
    (h : Journaled bounded path base events part files) (hsome : journalLines events ++ part ≠ []) :
    files.journal.isSome := by
  rcases h.journal with hjournal | ⟨-, rfl, rfl⟩
  · rw [hjournal]
    rfl
  · exact absurd rfl hsome

theorem compactJournal_spec {stream consumer : String} {base state : ConsumerState}
    {events : List ConsumerStateEvent} (hbase : base.WellFormed)
    (hnames : state.stream = stream ∧ state.consumer = consumer)
    (happly : base.applyEvents events = .ok state) (hsome : bounded → journalLines events ≠ [])
    (event : ConsumerStateEvent) :
    Operates bounded (stream, consumer) (compactJournal stream consumer state event.isBatch)
      (Journaled bounded (stream, consumer) base events [])
      (fun _ => Journaled bounded (stream, consumer) state [] [])
      (PersistStopped bounded (stream, consumer) state event) := by
  obtain ⟨rfl, rfl⟩ := hnames
  have hagain := hbase.applyEvents_again happly
  apply (((persistConsumerState_spec happly rfl).mono (fun _ h => h) (fun _ _ h => h)
    fun files h => Or.inl ⟨[], base, events, happly, h⟩).adaptExcept _).bind
  intro _
  have hopen : bounded → ∀ files : ConsumerFiles,
      Journaled bounded (state.stream, state.consumer) state events [] files →
        files.journal.isSome :=
    fun hbounded files h => h.isSome_journal (by simpa using hsome hbounded)
  have htruncate := @truncateConsumerStateJournal_spec bounded (state.stream, state.consumer) 0 _
    (Journaled bounded (state.stream, state.consumer) state [] []) hopen fun files h => h.cut
  apply ((htruncate.adaptExcept _).adaptExcept _).mono (fun _ h => h) (fun _ _ h => h)
  rintro files (h | h)
  · exact Or.inl ⟨[], state, events, hagain, h⟩
  · exact Or.inl ⟨[], state, [], rfl, h⟩

/-- A persist leads to the files of the next state, or stops at those of one of the two. -/
theorem persistConsumerEvent_spec {bounded : Prop} {stream consumer : String}
    {state : ConsumerState} {event : ConsumerStateEvent}
    (hsize : bounded → event.line.length ≤ maxConsumerStateJournalBytes) :
    Operates bounded (stream, consumer) (persistConsumerEvent stream consumer state event)
      (StandsFor bounded (stream, consumer) (.ok state) [])
      (fun _ => StandsFor bounded (stream, consumer) (state.applyEvent event) [])
      (PersistStopped bounded (stream, consumer) state event) := by
  rintro store ⟨base, events, happly, hfiles⟩
  obtain ⟨hstream, hconsumer⟩ := ConsumerState.names_applyEvents happly
  have hoperates : Operates bounded (stream, consumer)
      (persistConsumerEvent stream consumer state event)
      (Journaled bounded (stream, consumer) base events [])
      (fun _ => StandsFor bounded (stream, consumer) (state.applyEvent event) [])
      (PersistStopped bounded (stream, consumer) state event) := by
    apply (Operates.readFiles (stream, consumer) _ _).bind
    intro found
    by_cases hfull : maxConsumerStateJournalBytes <
        satAdd64 (found.journal.getD []).length event.line.length
    · rw [if_pos hfull]
      rintro store ⟨rfl, hstore⟩
      have hsome : bounded → journalLines events ≠ [] := by
        intro hbounded hnil
        have hfits := hsize hbounded
        rw [hstore.getD_journal, hnil] at hfull
        have : satAdd64 0 event.line.length ≤ event.line.length := by
          unfold satAdd64
          omega
        exact absurd (hfull.trans_le this) (by omega)
      have hcompact := compactJournal_spec hstore.wellFormed
        ⟨hstream.trans hstore.stream, hconsumer.trans hstore.consumer⟩ happly hsome event
      have happend := @appendConsumerEvent_spec bounded (stream, consumer) state state [] event rfl
        (by simpa [journalLines] using hsize)
      exact hcompact.bind (fun _ => happend) store hstore
    · rw [if_neg hfull]
      rintro store ⟨rfl, hstore⟩
      refine appendConsumerEvent_spec happly (fun _ => ?_) store hstore
      rw [hstore.getD_journal, List.append_nil] at hfull
      rw [List.length_append]
      unfold satAdd64 u64Max maxConsumerStateJournalBytes at *
      omega
  exact hoperates store hfiles

variable {reader : ConsumerStateReader} {stream consumer : String} {base state : ConsumerState}
  {events : List ConsumerStateEvent} {part : Bytes} {store : ConsumerStore}

theorem readFiles_bind {ε α : Type} (path : ConsumerPath)
    (next : ConsumerFiles → EStateM ε ConsumerStore α) :
    (readFiles path >>= next) store = next (store.read path) store := rfl

theorem replayConsumerStateJournal_eq (h : Journaled True path base events part (store.read path)) :
    replayConsumerStateJournal reader path base store =
      (MonadExcept.ofExcept (base.applyEvents events) >>= fun state =>
        if part = [] then pure state
        else asIo (truncateConsumerStateJournal path (journalLines events).length) >>=
          fun _ => pure state : StoreM ConsumerState) store := by
  rw [replayConsumerStateJournal, readFiles_bind]
  rcases h.journal with hjournal | ⟨hjournal, rfl, rfl⟩
  · rw [hjournal]
    dsimp only
    rw [if_neg (Nat.not_lt.2 (h.length_le trivial)),
      replayLines_journal reader events h.unfinished base 0]
    cases happly : base.applyEvents events with
    | error error => rfl
    | ok state =>
      by_cases hpart : part = []
      · subst hpart
        have heq : 0 + (journalLines events).length = (journalLines events ++ []).length := by simp
        simp only [Except.map, MonadExcept.ofExcept, heq, pure_bind, ne_eq, not_true_eq_false,
          if_false, if_true]
      · have hne : 0 + (journalLines events).length ≠ (journalLines events ++ part).length := by
          have := List.length_pos_iff.2 hpart
          rw [List.length_append]
          omega
        simp only [Except.map, MonadExcept.ofExcept, if_neg hpart, pure_bind, if_pos hne]
        rw [Nat.zero_add]
  · rw [hjournal]
    rfl

theorem loadCheckpoint_eq (h : Journaled True path base events part (store.read path)) :
    loadCheckpoint reader path store = .ok base store := by
  rw [loadCheckpoint, readFiles_bind]
  rcases h.checkpoint with hcheckpoint | ⟨hcheckpoint, rfl⟩
  · rw [hcheckpoint]
    simp only [reader.readState_text]
    rfl
  · rw [hcheckpoint]
    rfl

theorem loadConsumerState_of_standsFor
    (h : StandsFor True (stream, consumer) (.ok state) [] (store.read (stream, consumer))) :
    loadConsumerState reader stream consumer store = .ok state store := by
  obtain ⟨base, events, happly, hfiles⟩ := h
  have hvalid := (hfiles.wellFormed.applyEvents happly).validate
  simp only [loadConsumerState, bind, EStateM.bind, loadCheckpoint_eq hfiles,
    replayConsumerStateJournal_eq hfiles, happly, MonadExcept.ofExcept, pure, EStateM.pure, if_true,
    hvalid]

theorem loadConsumerState_of_error {error : BrokerError}
    (h : StandsFor True (stream, consumer) (.error error) part (store.read (stream, consumer))) :
    loadConsumerState reader stream consumer store = .error error store := by
  obtain ⟨base, events, happly, hfiles⟩ := h
  simp only [loadConsumerState, bind, EStateM.bind, loadCheckpoint_eq hfiles,
    replayConsumerStateJournal_eq hfiles, happly, MonadExcept.ofExcept]
  rfl

/-- A load returns the state the files stand for and cuts off an unfinished line. -/
theorem loadConsumerState_spec :
    Operates True (stream, consumer) (loadConsumerState reader stream consumer)
      (StandsFor True (stream, consumer) (.ok state) part)
      (fun loaded files => loaded = state ∧ StandsFor True (stream, consumer) (.ok state) [] files)
      fun files => StandsFor True (stream, consumer) (.ok state) part files ∨
        StandsFor True (stream, consumer) (.ok state) [] files := by
  intro store hstands
  by_cases hpart : part = []
  · subst hpart
    rw [Ensures, loadConsumerState_of_standsFor hstands]
    exact ⟨ConsumerStore.Touched.refl _ _, rfl, hstands⟩
  · obtain ⟨base, events, happly, hfiles⟩ := hstands
    have hvalid := (hfiles.wellFormed.applyEvents happly).validate
    have hopen : True → ∀ files : ConsumerFiles,
        Journaled True (stream, consumer) base events part files → files.journal.isSome :=
      fun _ files h => h.isSome_journal (by simp [hpart])
    have htruncate := @truncateConsumerStateJournal_spec True (stream, consumer)
      (journalLines events).length _ (Journaled True (stream, consumer) base events []) hopen
      fun files h => h.finish hpart
    have hload : loadConsumerState reader stream consumer store =
        (asIo (truncateConsumerStateJournal (stream, consumer) (journalLines events).length) >>=
          fun _ => pure state) store := by
      simp only [loadConsumerState, bind, EStateM.bind, loadCheckpoint_eq hfiles,
        replayConsumerStateJournal_eq hfiles, happly, MonadExcept.ofExcept, pure, EStateM.pure,
        if_neg hpart]
      cases asIo (truncateConsumerStateJournal (stream, consumer)
          (journalLines events).length) store with
      | ok a after =>
        simp only [hvalid]
        rfl
      | error e after => rfl
    have hrest : Operates True (stream, consumer)
        (asIo (truncateConsumerStateJournal (stream, consumer) (journalLines events).length) >>=
          fun _ => pure state)
        (Journaled True (stream, consumer) base events part)
        (fun loaded files =>
          loaded = state ∧ StandsFor True (stream, consumer) (.ok state) [] files)
        fun files => StandsFor True (stream, consumer) (.ok state) part files ∨
          StandsFor True (stream, consumer) (.ok state) [] files := by
      apply ((htruncate.adaptExcept _).mono (fun _ h => h) (fun _ _ h => h) ?_).bind
      · intro _
        apply Operates.pure
        intro files h
        exact ⟨rfl, base, events, happly, h⟩
      · rintro files (h | h)
        · exact Or.inl ⟨base, events, happly, h⟩
        · exact Or.inr ⟨base, events, happly, h⟩
    exact (hrest store hfiles).congr hload

end Runnel.Local
