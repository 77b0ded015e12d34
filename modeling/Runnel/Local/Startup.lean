import Runnel.Foundation.Path
import Runnel.Local.Broker
import Runnel.Local.RecordReading

/-!
# Opening the streams of a broker

The directory of the streams is read in whatever order the file system lists it.
Every file is checked before any is changed, and only then the incomplete tails
are cut off.
-/

namespace Runnel.Local

open Runnel.Engine Bytes

/-- The files of the streams directory by their names, and what the next truncations will do. -/
structure StreamDirectory where
  files : Bytes → Option File
  faults : List (Option IoError) := []

/-- The stream that a file belongs to; other files are passed over. -/
def streamName (fileName : Bytes) : Option String :=
  if FileName.extension fileName ≠ some (utf8 "log") then none
  else fromUtf8? (FileName.stem fileName)

/-- A stream that was inspected and whose incomplete tail is still in its file. -/
structure RecoveredStream where
  fileName : Bytes
  name : String
  log : StreamLog
  incompleteTail : Option ℕ

def StreamDirectory.open (directory : StreamDirectory) (fileName : Bytes) :
    Except BrokerError File :=
  match directory.files fileName with
  | some file => .ok file
  | none => .error (.io ⟨.notFound, "No such file or directory (os error 2)"⟩)

/-- Inspects the listed files up to the first one that is rejected. -/
def inspectStreams (directory : StreamDirectory) :
    List Bytes → Except BrokerError (List RecoveredStream)
  | [] => .ok []
  | fileName :: rest =>
    match streamName fileName with
    | none => inspectStreams directory rest
    | some name => do
      validateName "stream" name
      let file ← directory.open fileName
      let (log, incompleteTail) ← StreamLog.inspect file
      let recovered ← inspectStreams directory rest
      return ⟨fileName, name, log, incompleteTail⟩ :: recovered

/-- Cuts a file of the directory, or fails and leaves it. -/
def StreamDirectory.setLen (directory : StreamDirectory) (fileName : Bytes) (len : ℕ) :
    StreamDirectory × Except IoError Unit :=
  match directory.faults with
  | some error :: faults => ({ directory with faults := faults }, .error error)
  | faults =>
    ({ files := Function.update directory.files fileName
        ((directory.files fileName).map fun file => file.setLen len)
       faults := faults.tail }, .ok ())

def finishStream (directory : StreamDirectory) (recovered : RecoveredStream) :
    StreamDirectory × Except BrokerError StreamLog :=
  match recovered.incompleteTail with
  | none => (directory, .ok (recovered.log.finishRecovery none))
  | some cursor =>
    match directory.setLen recovered.fileName cursor with
    | (directory, .error error) => (directory, .error (.io error))
    | (directory, .ok ()) => (directory, .ok (recovered.log.finishRecovery (some cursor)))

def finishStreams (directory : StreamDirectory) (streams : BTreeMap String StreamLog) :
    List RecoveredStream → StreamDirectory × Except BrokerError (BTreeMap String StreamLog)
  | [] => (directory, .ok streams)
  | recovered :: rest =>
    match finishStream directory recovered with
    | (directory, .error error) => (directory, .error error)
    | (directory, .ok log) => finishStreams directory (streams.insert recovered.name log) rest

def openStreams (maxDeliveryAttempts : Option ℕ) (directory : StreamDirectory)
    (listing : List Bytes) : StreamDirectory × Except BrokerError (BTreeMap String StreamLog) :=
  if maxDeliveryAttempts = some 0 then
    (directory, .error (.configuration "max delivery attempts must be greater than zero"))
  else
    match inspectStreams directory listing with
    | .error error => (directory, .error error)
    | .ok recovered => finishStreams directory ∅ recovered

/-- The first `count` records of the bytes are complete and end at the position. -/
inductive RecordsEnd (bytes : Bytes) : ℕ → ℕ → Prop
  | start : RecordsEnd bytes 0 0
  | next {count cursor : ℕ} {parsed : ParsedRecord} : RecordsEnd bytes count cursor →
    readNextRecord bytes cursor = .ok (some parsed) → parsed.index.offset = count →
    RecordsEnd bytes (count + 1) parsed.nextCursor

/-- The bytes are the frames of records, numbered from 0 on, and nothing else. -/
def Complete (bytes : Bytes) : Prop :=
  ∃ records : List Record, records.length ≤ 256 ^ 8 ∧ bytes = frames records

/-- The longest part from the start of the bytes on that is made of complete records. -/
structure LongestComplete (bytes kept : Bytes) : Prop where
  isPrefix : kept <+: bytes
  complete : Complete kept
  longest : ∀ other, other <+: bytes → Complete other → other.length ≤ kept.length

namespace RecordsEnd

variable {bytes bytes' : Bytes} {count count' cursor cursor' : ℕ}

theorem le_length (h : RecordsEnd bytes count cursor) : cursor ≤ bytes.length := by
  cases h with
  | start => exact Nat.zero_le _
  | next _ hread _ => exact (readNextRecord_bounds hread).2

theorem congr (h : RecordsEnd bytes count cursor) (hlen : cursor ≤ bytes'.length)
    (hsame : bytes'.take cursor = bytes.take cursor) : RecordsEnd bytes' count cursor := by
  induction h with
  | start => exact .start
  | @next count cursor parsed hbefore hread hoffset ih =>
    obtain ⟨hbehind, -⟩ := readNextRecord_bounds hread
    have hle : cursor ≤ parsed.nextCursor := by omega
    have htake := congrArg (List.take cursor) hsame
    rw [List.take_take, List.take_take, Nat.min_eq_left hle] at htake
    exact .next (ih (hle.trans hlen) htake) (readNextRecord_congr hread hlen hsame) hoffset

theorem unique (h : RecordsEnd bytes count cursor) (h' : RecordsEnd bytes count cursor') :
    cursor = cursor' := by
  induction h generalizing cursor' with
  | start =>
    cases h'
    rfl
  | next _ hread _ ih =>
    cases h' with
    | next hbefore hread' _ =>
      obtain rfl := ih hbefore
      rw [hread] at hread'
      rw [Option.some.inj (Except.ok.inj hread')]

theorem earlier (h : RecordsEnd bytes count cursor) (hle : count' ≤ count) :
    ∃ cursor', RecordsEnd bytes count' cursor' ∧ cursor' ≤ cursor := by
  induction h with
  | start =>
    obtain rfl := Nat.le_zero.1 hle
    exact ⟨0, .start, le_rfl⟩
  | @next count cursor parsed hbefore hread hoffset ih =>
    rcases Nat.lt_or_ge count count' with hlt | hge
    · obtain rfl : count' = count + 1 := by omega
      exact ⟨parsed.nextCursor, .next hbefore hread hoffset, le_rfl⟩
    · obtain ⟨cursor', hcursor, hbound⟩ := ih hge
      have := (readNextRecord_bounds hread).1
      exact ⟨cursor', hcursor, by omega⟩

theorem le_of_stop (h : RecordsEnd bytes count cursor)
    (hstop : readNextRecord bytes cursor = .ok none) (h' : RecordsEnd bytes count' cursor') :
    cursor' ≤ cursor := by
  rcases Nat.lt_or_ge count count' with hlt | hge
  · obtain ⟨later, hlater, -⟩ := h'.earlier (Nat.succ_le_of_lt hlt)
    cases hlater with
    | next hbefore hread _ =>
      rw [← h.unique hbefore, hstop] at hread
      simp at hread
  · obtain ⟨found, hfound, hle⟩ := h.earlier hge
    rwa [h'.unique hfound]

/-- What was read up to a position are the frames of that many records. -/
theorem exists_frames (h : RecordsEnd bytes count cursor) :
    count ≤ 256 ^ 8 ∧ ∃ records : List Record, records.length = count ∧
      bytes.take cursor = frames records := by
  induction h with
  | start => exact ⟨Nat.zero_le _, [], rfl, rfl⟩
  | @next count cursor parsed hbefore hread hoffset ih =>
    obtain ⟨-, records, hlength, hframes⟩ := ih
    obtain ⟨hlimit, record, hframe, hnext⟩ := exists_frame_of_read hread
    refine ⟨by omega, records ++ [record], by rw [List.length_append, hlength]; rfl, ?_⟩
    rw [hnext, List.take_add, hframes, hframe, hoffset, frames, frames, framesFrom_append, hlength,
      Nat.zero_add, framesFrom, framesFrom, List.append_nil]

/-- The frames of records are read one by one up to their end. -/
theorem of_frames {records : List Record} (h : records.length ≤ 256 ^ 8) :
    RecordsEnd (frames records) records.length (frames records).length := by
  rw [length_frames]
  suffices hfront : ∀ front rest, records = front ++ rest →
      RecordsEnd (frames records) front.length (framesLen front) from
    hfront records [] (List.append_nil _).symm
  intro front
  induction front using List.reverseRecOn with
  | nil => exact fun _ _ => .start
  | append_singleton front record ih =>
    rintro rest rfl
    have hbefore := ih (record :: rest) (by simp)
    rw [List.append_assoc, List.singleton_append] at h hbefore ⊢
    have hoffset : front.length < 256 ^ 8 := by
      rw [List.length_append, List.length_cons] at h
      omega
    have hread := @readNextRecord_frames front rest [] record hoffset
    rw [List.append_nil] at hread
    rw [List.length_append]
    exact .next hbefore hread rfl

/-- The bytes up to the last complete record are the longest part of complete records. -/
theorem longestComplete (h : RecordsEnd bytes count cursor)
    (hstop : readNextRecord bytes cursor = .ok none) :
    LongestComplete bytes (bytes.take cursor) where
  isPrefix := List.take_prefix _ _
  complete := by
    obtain ⟨hlimit, records, rfl, hframes⟩ := h.exists_frames
    exact ⟨records, hlimit, hframes⟩
  longest := by
    rintro other ⟨tail, rfl⟩ ⟨records, hlimit, rfl⟩
    rw [List.length_take_of_le h.le_length]
    apply h.le_of_stop hstop
    exact (of_frames hlimit).congr (by simp) (by rw [List.take_left', List.take_length]; rfl)

end RecordsEnd

/-- The loop of an inspection, by induction on its fuel, which the length of the file bounds. -/
theorem inspectLoop_recordsEnd {fuel : ℕ} {log after : StreamLog} {cursor stop : ℕ}
    (h : StreamLog.inspectLoop fuel log cursor = .ok (after, stop))
    (hrecords : RecordsEnd log.file.bytes log.nextOffset cursor)
    (hfuel : log.file.bytes.length < cursor + fuel) :
    after.file = log.file ∧ (∃ count, RecordsEnd log.file.bytes count stop) ∧
      readNextRecord log.file.bytes stop = .ok none := by
  induction fuel generalizing log cursor with
  | zero =>
    have := hrecords.le_length
    omega
  | succ fuel ih =>
    rw [StreamLog.inspectLoop] at h
    split at h
    · cases h
    · rename_i hread
      obtain ⟨rfl, rfl⟩ := Prod.mk.inj (Except.ok.inj h)
      exact ⟨rfl, ⟨_, hrecords⟩, hread⟩
    · rename_i parsed hread
      split_ifs at h with hoffset hmax
      have hbounds := readNextRecord_bounds hread
      obtain ⟨hfile, hend, hstop⟩ := ih h (.next hrecords hread (not_not.1 hoffset)) (by
        change log.file.bytes.length < _
        unfold recordHeaderLen at hbounds
        omega)
      exact ⟨hfile, hend, hstop⟩

theorem inspect_recordsEnd {file : File} {log : StreamLog} {tail : Option ℕ}
    (h : StreamLog.inspect file = .ok (log, tail)) :
    log.file = file ∧ LongestComplete file.bytes (log.finishRecovery tail).file.bytes := by
  unfold StreamLog.inspect at h
  cases hloop : StreamLog.inspectLoop (file.bytes.length + 1) { file := file } 0 with
  | error error => rw [hloop] at h; cases h
  | ok result =>
    obtain ⟨after, cursor⟩ := result
    rw [hloop] at h
    obtain ⟨rfl, rfl⟩ := Prod.mk.inj (Except.ok.inj h)
    obtain ⟨hfile, ⟨count, hend⟩, hstop⟩ := inspectLoop_recordsEnd hloop .start (by simp)
    refine ⟨hfile, ?_⟩
    have hlongest := hend.longestComplete hstop
    split_ifs with htail
    · rw [StreamLog.finishRecovery, hfile]
      exact hlongest
    · rw [StreamLog.finishRecovery, hfile]
      rwa [not_not.1 htail, List.take_length] at hlongest

theorem streamName_injective {fileName other : Bytes} {name : String}
    (h : streamName fileName = some name) (h' : streamName other = some name) :
    fileName = other := by
  have hname : ∀ {fileName : Bytes}, streamName fileName = some name →
      fileName = utf8 name ++ FileName.dot :: utf8 "log" := by
    intro fileName h
    unfold streamName at h
    split_ifs at h with hextension
    have hstem := utf8_of_fromUtf8? h
    rw [hstem]
    exact FileName.of_extension (not_not.1 hextension)
  rw [hname h, hname h']

theorem inspectStreams_ok {directory : StreamDirectory} {listing : List Bytes}
    {recovered : List RecoveredStream} (h : inspectStreams directory listing = .ok recovered) :
    recovered.map RecoveredStream.fileName =
      listing.filter (fun fileName => (streamName fileName).isSome) ∧
    ∀ stream ∈ recovered, streamName stream.fileName = some stream.name ∧
      ∃ file, directory.files stream.fileName = some file ∧
        StreamLog.inspect file = .ok (stream.log, stream.incompleteTail) := by
  induction listing generalizing recovered with
  | nil =>
    obtain rfl := Except.ok.inj h
    exact ⟨rfl, by simp⟩
  | cons fileName rest ih =>
    rw [inspectStreams] at h
    cases hname : streamName fileName with
    | none =>
      rw [hname] at h
      rw [List.filter_cons_of_neg (by simp [hname])]
      exact ih h
    | some name =>
      rw [hname] at h
      simp only [bind, Except.bind, pure, Except.pure] at h
      cases hvalid : validateName "stream" name with
      | error error => rw [hvalid] at h; cases h
      | ok =>
        rw [hvalid] at h
        unfold StreamDirectory.open at h
        cases hfile : directory.files fileName with
        | none => rw [hfile] at h; cases h
        | some file =>
          rw [hfile] at h
          dsimp only at h
          cases hinspect : StreamLog.inspect file with
          | error error => rw [hinspect] at h; cases h
          | ok result =>
            rw [hinspect] at h
            dsimp only at h
            cases hrest : inspectStreams directory rest with
            | error error => rw [hrest] at h; cases h
            | ok others =>
              rw [hrest] at h
              obtain rfl := Except.ok.inj h
              obtain ⟨hnames, hothers⟩ := ih hrest
              rw [List.filter_cons_of_pos (by simp [hname]), List.map_cons, hnames]
              exact ⟨rfl, List.forall_mem_cons.2 ⟨⟨hname, file, hfile, hinspect⟩, hothers⟩⟩

section Recovery

variable {directory after : StreamDirectory} {stream : RecoveredStream}

theorem finishStream_ok {log : StreamLog}
    (hfile : directory.files stream.fileName = some stream.log.file)
    (h : finishStream directory stream = (after, .ok log)) :
    log = stream.log.finishRecovery stream.incompleteTail ∧
      after.files = Function.update directory.files stream.fileName (some log.file) := by
  unfold finishStream at h
  cases htail : stream.incompleteTail with
  | none =>
    rw [htail] at h
    obtain ⟨rfl, hlog⟩ := Prod.mk.inj h
    obtain rfl := Except.ok.inj hlog
    exact ⟨rfl, by rw [StreamLog.finishRecovery, ← hfile, Function.update_eq_self]⟩
  | some cursor =>
    rw [htail] at h
    dsimp only at h
    unfold StreamDirectory.setLen at h
    split at h
    · simp at h
    · rename_i result hset
      split at hset
      · simp at hset
      · obtain ⟨rfl, -⟩ := Prod.mk.inj hset
        obtain ⟨rfl, hlog⟩ := Prod.mk.inj h
        obtain rfl := Except.ok.inj hlog
        exact ⟨rfl, by simp only [hfile, Option.map_some, StreamLog.finishRecovery]⟩

theorem finishStream_of_calm (hcalm : ∀ fault ∈ directory.faults, fault = none)
    (stream : RecoveredStream) :
    ∃ after log, finishStream directory stream = (after, .ok log) ∧
      ∀ fault ∈ after.faults, fault = none := by
  unfold finishStream
  cases stream.incompleteTail with
  | none => exact ⟨directory, _, rfl, hcalm⟩
  | some cursor =>
    have hset : ∃ after, directory.setLen stream.fileName cursor = (after, .ok ()) ∧
        after.faults = directory.faults.tail := by
      unfold StreamDirectory.setLen
      split
      · rename_i error faults hfaults
        cases hcalm (some error) (by simp [hfaults])
      · exact ⟨_, rfl, rfl⟩
    obtain ⟨after, hset, hfaults⟩ := hset
    dsimp only
    rw [hset]
    refine ⟨after, _, rfl, ?_⟩
    intro fault hfault
    exact hcalm fault (List.mem_of_mem_tail (hfaults ▸ hfault))

theorem finishStreams_of_calm (hcalm : ∀ fault ∈ directory.faults, fault = none)
    (streams : BTreeMap String StreamLog) (recovered : List RecoveredStream) :
    ∃ after opened, finishStreams directory streams recovered = (after, .ok opened) := by
  induction recovered generalizing directory streams with
  | nil => exact ⟨directory, streams, rfl⟩
  | cons stream rest ih =>
    obtain ⟨after, log, hfinish, hafter⟩ := finishStream_of_calm hcalm stream
    rw [finishStreams, hfinish]
    exact ih hafter _

/-- Every stream that was inspected is open on its file without the tail, and nothing else
changed. -/
theorem finishStreams_ok {streams opened : BTreeMap String StreamLog}
    {recovered : List RecoveredStream}
    (hfiles : ∀ stream ∈ recovered, directory.files stream.fileName = some stream.log.file)
    (hnames : (recovered.map RecoveredStream.fileName).Nodup)
    (hstreams : (recovered.map RecoveredStream.name).Nodup)
    (h : finishStreams directory streams recovered = (after, .ok opened)) :
    (∀ stream ∈ recovered, after.files stream.fileName =
        some (stream.log.finishRecovery stream.incompleteTail).file ∧
      opened[stream.name]? = some (stream.log.finishRecovery stream.incompleteTail)) ∧
    (∀ fileName, fileName ∉ recovered.map RecoveredStream.fileName →
      after.files fileName = directory.files fileName) ∧
    ∀ name, name ∉ recovered.map RecoveredStream.name → opened[name]? = streams[name]? := by
  induction recovered generalizing directory streams with
  | nil =>
    obtain ⟨rfl, hopened⟩ := Prod.mk.inj h
    obtain rfl := Except.ok.inj hopened
    exact ⟨by simp, fun _ _ => rfl, fun _ _ => rfl⟩
  | cons stream rest ih =>
    rw [finishStreams] at h
    split at h
    · simp at h
    · rename_i middle log hfinish
      obtain ⟨hmine, hrest⟩ := List.forall_mem_cons.1 hfiles
      obtain ⟨rfl, hmiddle⟩ := finishStream_ok hmine hfinish
      rw [List.map_cons, List.nodup_cons] at hnames hstreams
      have hfilesRest : ∀ other ∈ rest, middle.files other.fileName = some other.log.file := by
        intro other hother
        have hne : other.fileName ≠ stream.fileName := by
          intro heq
          exact hnames.1 (heq ▸ List.mem_map_of_mem hother)
        rw [hmiddle, Function.update_of_ne hne]
        exact hrest other hother
      obtain ⟨hopen, hfixed, hkept⟩ := ih hfilesRest hnames.2 hstreams.2 h
      refine ⟨List.forall_mem_cons.2 ⟨⟨?_, ?_⟩, hopen⟩, ?_, ?_⟩
      · rw [hfixed _ hnames.1, hmiddle, Function.update_self]
      · rw [hkept _ hstreams.1, Std.ExtTreeMap.getElem?_insert_self]
      · intro fileName hfileName
        rw [List.map_cons, List.mem_cons, not_or] at hfileName
        rw [hfixed _ hfileName.2, hmiddle, Function.update_of_ne hfileName.1]
      · intro name hname
        rw [List.map_cons, List.mem_cons, not_or] at hname
        rw [hkept _ hname.2, Std.ExtTreeMap.getElem?_insert, if_neg]
        simpa using Ne.symm hname.1

end Recovery

structure Lists (directory : StreamDirectory) (listing : List Bytes) : Prop where
  nodup : listing.Nodup
  mem_iff : ∀ fileName, fileName ∈ listing ↔ (directory.files fileName).isSome

theorem opened_streams {directory after : StreamDirectory} {listing : List Bytes}
    {recovered : List RecoveredStream} {streams : BTreeMap String StreamLog}
    (hlists : Lists directory listing) (hinspect : inspectStreams directory listing = .ok recovered)
    (h : finishStreams directory ∅ recovered = (after, .ok streams)) :
    (∀ fileName name file, streamName fileName = some name →
      directory.files fileName = some file → ∃ kept log, after.files fileName = some kept ∧
        LongestComplete file.bytes kept.bytes ∧ streams[name]? = some log ∧ log.file = kept) ∧
    (∀ fileName, streamName fileName = none → after.files fileName = directory.files fileName) ∧
    ∀ name, (∃ log, streams[name]? = some log) ↔
      ∃ fileName, (directory.files fileName).isSome ∧ streamName fileName = some name := by
  obtain ⟨hnames, hrecovered⟩ := inspectStreams_ok hinspect
  have hfileNames : (recovered.map RecoveredStream.fileName).Nodup :=
    hnames ▸ hlists.nodup.filter _
  have hfiles : ∀ stream ∈ recovered, directory.files stream.fileName = some stream.log.file := by
    intro stream hmem
    obtain ⟨-, file, hfile, hread⟩ := hrecovered stream hmem
    rw [hfile, (inspect_recordsEnd hread).1]
  have hstreamNames : (recovered.map RecoveredStream.name).Nodup := by
    refine List.Nodup.map_on ?_ (List.Nodup.of_map _ hfileNames)
    intro stream hmem other hother hsame
    have hsameFile := streamName_injective (hrecovered stream hmem).1
      (hsame ▸ (hrecovered other hother).1)
    exact List.inj_on_of_nodup_map hfileNames hmem hother hsameFile
  obtain ⟨hopened, hfixed, hkept⟩ := finishStreams_ok hfiles hfileNames hstreamNames h
  have hfound : ∀ fileName name, streamName fileName = some name →
      (directory.files fileName).isSome → ∃ stream ∈ recovered,
        stream.fileName = fileName ∧ stream.name = name := by
    intro fileName name hname hsome
    have hlisted : fileName ∈ recovered.map RecoveredStream.fileName := by
      rw [hnames, List.mem_filter]
      exact ⟨(hlists.mem_iff fileName).2 hsome, by simp [hname]⟩
    obtain ⟨stream, hmem, rfl⟩ := List.mem_map.1 hlisted
    have hsame := (hrecovered stream hmem).1.symm.trans hname
    exact ⟨stream, hmem, rfl, Option.some.inj hsame⟩
  refine ⟨?_, ?_, ?_⟩
  · intro fileName name file hname hfile
    obtain ⟨stream, hmem, rfl, rfl⟩ := hfound fileName name hname (by simp [hfile])
    obtain ⟨hafter, hopen⟩ := hopened stream hmem
    obtain ⟨-, file', hfile', hread⟩ := hrecovered stream hmem
    obtain rfl := Option.some.inj (hfile.symm.trans hfile')
    exact ⟨_, _, hafter, (inspect_recordsEnd hread).2, hopen, rfl⟩
  · intro fileName hnone
    apply hfixed
    rw [hnames, List.mem_filter]
    simp [hnone]
  · intro name
    constructor
    · rintro ⟨log, hlog⟩
      by_contra hmissing
      have hout : name ∉ recovered.map RecoveredStream.name := by
        intro hmem
        obtain ⟨stream, hstream, rfl⟩ := List.mem_map.1 hmem
        obtain ⟨hname, file, hfile, -⟩ := hrecovered stream hstream
        exact hmissing ⟨stream.fileName, by simp [hfile], hname⟩
      rw [hkept name hout] at hlog
      simp at hlog
    · rintro ⟨fileName, hsome, hname⟩
      obtain ⟨stream, hmem, rfl, rfl⟩ := hfound fileName name hname hsome
      exact ⟨_, (hopened stream hmem).2⟩

/-- In every order of the directory: if opening fails although the file system does not, no file
has changed. If it succeeds, each file of a stream is its longest part of complete records and the
stream reads it, other files have not changed, and the streams are the readable stems of the
`.log` files. -/
theorem startup_checks_first {maxDeliveryAttempts : Option ℕ} {directory after : StreamDirectory}
    {listing : List Bytes} {result : Except BrokerError (BTreeMap String StreamLog)}
    (hlists : Lists directory listing)
    (h : openStreams maxDeliveryAttempts directory listing = (after, result)) :
    (∀ error, result = .error error → (∀ fault ∈ directory.faults, fault = none) →
      after.files = directory.files) ∧
    ∀ streams, result = .ok streams →
      (∀ fileName name file, streamName fileName = some name →
        directory.files fileName = some file → ∃ kept log, after.files fileName = some kept ∧
          LongestComplete file.bytes kept.bytes ∧ streams[name]? = some log ∧ log.file = kept) ∧
      (∀ fileName, streamName fileName = none → after.files fileName = directory.files fileName) ∧
      ∀ name, (∃ log, streams[name]? = some log) ↔
        ∃ fileName, (directory.files fileName).isSome ∧ streamName fileName = some name := by
  unfold openStreams at h
  split_ifs at h
  · obtain ⟨rfl, rfl⟩ := Prod.mk.inj h
    exact ⟨fun _ _ _ => rfl, by simp⟩
  · cases hinspect : inspectStreams directory listing with
    | error error =>
      rw [hinspect] at h
      obtain ⟨rfl, rfl⟩ := Prod.mk.inj h
      exact ⟨fun _ _ _ => rfl, by simp⟩
    | ok recovered =>
      rw [hinspect] at h
      constructor
      · -- once every file is accepted only the file system can fail
        rintro error rfl hcalm
        obtain ⟨final, opened, hfinish⟩ := finishStreams_of_calm hcalm ∅ recovered
        simp [hfinish] at h
      · rintro streams rfl
        exact opened_streams hlists hinspect h

/-- A file with an incomplete tail beside one of an old format. -/
def mixedDirectory : StreamDirectory where
  files fileName :=
    if fileName = utf8 "a.log" then some { bytes := [82, 78] }
    else if fileName = utf8 "b.log" then some { bytes := utf8 "RNL1" }
    else none

/-- The file of the old format is rejected, and the tail of the other one stays. -/
theorem old_format_leaves_tail :
    (openStreams (some 3) mixedDirectory [utf8 "a.log", utf8 "b.log"]).2.isOk = false ∧
    (openStreams (some 3) mixedDirectory [utf8 "a.log", utf8 "b.log"]).1.files =
      mixedDirectory.files := by
  have hfails : (openStreams (some 3) mixedDirectory [utf8 "a.log", utf8 "b.log"]).2.isOk =
      false := by
    decide +kernel
  have hlists : Lists mixedDirectory [utf8 "a.log", utf8 "b.log"] := by
    refine ⟨by decide, ?_⟩
    intro fileName
    simp only [mixedDirectory, List.mem_cons, List.not_mem_nil, or_false]
    split_ifs with hfirst hsecond
    · simp [hfirst]
    · simp [hsecond]
    · simp [hfirst, hsecond]
  refine ⟨hfails, ?_⟩
  cases hresult : openStreams (some 3) mixedDirectory [utf8 "a.log", utf8 "b.log"] with
  | mk after result =>
    rw [hresult] at hfails
    cases result with
    | ok streams => cases hfails
    | error error =>
      exact (startup_checks_first hlists hresult).1 error rfl (by simp [mixedDirectory])

def unreadableName : Bytes := 0xff :: utf8 ".log"

def unreadableDirectory : StreamDirectory where
  files fileName := if fileName = unreadableName then some { bytes := [1, 2, 3] } else none

/-- The broker opens without the stream of that file and leaves the file as it is, although it
holds no complete record. -/
theorem unreadable_name_passed_over :
    FileName.extension unreadableName = some (utf8 "log") ∧
    (∃ streams, (openStreams (some 3) unreadableDirectory [unreadableName]).2 = .ok streams ∧
      ¬ ∃ name log, streams[name]? = some log ∧ utf8 name = FileName.stem unreadableName) ∧
    (openStreams (some 3) unreadableDirectory [unreadableName]).1.files unreadableName =
      some { bytes := [1, 2, 3] } ∧
    ¬ LongestComplete [1, 2, 3] [1, 2, 3] := by
  refine ⟨by decide, ⟨∅, rfl, by simp⟩, rfl, ?_⟩
  rintro ⟨-, ⟨records, -, hframes⟩, -⟩
  have hlen := congrArg List.length hframes
  rw [length_frames] at hlen
  cases records with
  | nil => cases hlen
  | cons record rest =>
    rw [framesLen_cons, Record.frameLen, recordHeaderLen] at hlen
    simp at hlen
    omega

end Runnel.Local
