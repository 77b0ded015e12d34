import Runnel.Foundation.Path
import Runnel.Local.Broker

/-!
# Where the files of consumers are

The state, the journal and the temporary checkpoint of a consumer lie in the
directory of its stream.
-/

namespace Runnel.Local

open Runnel.Engine

def consumersDirectory (root : Path) : Path := root.join (utf8 "consumers")

def consumerDirectory (root : Path) (stream : String) : Path :=
  (consumersDirectory root).join (utf8 stream)

def consumerStatePath (root : Path) (stream consumer : String) : Path :=
  (consumerDirectory root stream).join (utf8 s!"{consumer}.json")

def consumerStateJournalPath (root : Path) (stream consumer : String) : Path :=
  (consumerStatePath root stream consumer).withExtension (utf8 "json.tmp")

/-- Where a checkpoint is written before it replaces the state. -/
def temporaryPath (root : Path) (stream consumer : String) : Path :=
  (consumerStatePath root stream consumer).withExtension (utf8 "checkpoint.tmp")

def consumerFiles (root : Path) (consumer : ConsumerPath) : List Path :=
  [consumerStatePath root consumer.1 consumer.2,
   consumerStateJournalPath root consumer.1 consumer.2, temporaryPath root consumer.1 consumer.2]

def resolvedFiles (root : Path) (consumer : ConsumerPath) : List (List Bytes) :=
  (consumerFiles root consumer).map Path.resolve

/-- The files of two consumers are all different, none is on the way to a file or to the stream
directory of the other, and all lie inside the directory of the consumers. -/
structure Isolated (root : Path) (first second : ConsumerPath) : Prop where
  distinct : (resolvedFiles root first ++ resolvedFiles root second).Nodup
  first_apart : ∀ file ∈ resolvedFiles root first,
    ∀ place ∈ (consumerDirectory root second.1).resolve :: resolvedFiles root second,
      ¬ file <+: place
  second_apart : ∀ file ∈ resolvedFiles root second,
    ∀ place ∈ (consumerDirectory root first.1).resolve :: resolvedFiles root first,
      ¬ file <+: place
  inside : ∀ file ∈ resolvedFiles root first ++ resolvedFiles root second,
    (consumersDirectory root).resolve <+: file ∧ file ≠ (consumersDirectory root).resolve

/-- The names of the files of a consumer in the directory of its stream. -/
def consumerFileNames (consumer : String) : List String :=
  [consumer ++ ".json", consumer ++ ".json.tmp", consumer ++ ".checkpoint.tmp"]

section Names

variable {kind name : String}

theorem name_ne_nil (h : validateName kind name = .ok ()) : utf8 name ≠ [] := by
  unfold validateName at h
  split_ifs at h with hvalid
  exact List.length_pos_iff.1 hvalid.1

theorem isNameByte_of_mem (h : validateName kind name = .ok ()) {byte : UInt8}
    (hmem : byte ∈ utf8 name) : isNameByte byte = true := by
  unfold validateName at h
  split_ifs at h with hvalid
  exact List.all_eq_true.1 hvalid.2.2 byte hmem

theorem slash_notMem (h : validateName kind name = .ok ()) : Path.slash ∉ utf8 name := by
  intro hmem
  have hbyte := isNameByte_of_mem h hmem
  revert hbyte
  decide

end Names

def fileSuffixes : List String := [".json", ".json.tmp", ".checkpoint.tmp"]

theorem mem_consumerFileNames {consumer name : String} :
    name ∈ consumerFileNames consumer ↔ ∃ suffix ∈ fileSuffixes, name = consumer ++ suffix := by
  simp [consumerFileNames, fileSuffixes]

theorem suffix_unique : ∀ suffix ∈ fileSuffixes, ∀ other ∈ fileSuffixes,
    (utf8 suffix).length ≤ (utf8 other).length →
    (utf8 other).drop ((utf8 other).length - (utf8 suffix).length) = utf8 suffix →
    other = suffix := by
  decide

theorem fileName_injective {a b suffix other : String} (hsuffix : suffix ∈ fileSuffixes)
    (hother : other ∈ fileSuffixes) (h : utf8 (a ++ suffix) = utf8 (b ++ other)) :
    a = b ∧ suffix = other := by
  have hends : ∀ {a b suffix other : String}, suffix ∈ fileSuffixes → other ∈ fileSuffixes →
      utf8 (a ++ suffix) = utf8 (b ++ other) → (utf8 suffix).length ≤ (utf8 other).length →
      a = b ∧ suffix = other := by
    intro a b suffix other hsuffix hother h hle
    rw [utf8_append, utf8_append] at h
    have hsame : other = suffix := by
      apply suffix_unique suffix hsuffix other hother hle
      have hdrop := congrArg (List.drop (utf8 a).length) h
      have hlen := congrArg List.length h
      simp only [List.length_append] at hlen
      rw [List.drop_left, List.drop_append, List.drop_eq_nil_of_le (by omega), List.nil_append]
        at hdrop
      have hindex : (utf8 other).length - (utf8 suffix).length =
          (utf8 a).length - (utf8 b).length := by omega
      rw [hindex, hdrop]
    rw [hsame] at h
    exact ⟨utf8_injective (List.append_cancel_right h), hsame.symm⟩
  rcases Nat.le_total (utf8 suffix).length (utf8 other).length with hle | hle
  · exact hends hsuffix hother h hle
  · obtain ⟨hab, hsame⟩ := hends hother hsuffix h.symm hle
    exact ⟨hab.symm, hsame.symm⟩

section Resolved

variable (root : Path) {stream consumer : String} {kind : String}

theorem resolve_consumersDirectory :
    (consumersDirectory root).resolve = root.resolve ++ [utf8 "consumers"] := by
  rw [consumersDirectory, Path.join_eq_push root (by decide) (by decide),
    Path.resolve_push_of_ne (by decide) (by decide)]

theorem utf8_eq_current : utf8 stream = Path.current ↔ stream = "." := by
  rw [show Path.current = utf8 "." by decide]
  exact utf8_injective.eq_iff

theorem utf8_eq_parent : utf8 stream = Path.parent ↔ stream = ".." := by
  rw [show Path.parent = utf8 ".." by decide]
  exact utf8_injective.eq_iff

theorem resolve_parent : (consumerDirectory root "..").resolve = root.resolve := by
  rw [consumerDirectory, Path.join_eq_push _ (by decide) (by decide), consumersDirectory,
    Path.join_eq_push root (by decide) (by decide), show utf8 ".." = Path.parent by decide,
    Path.resolve_push_parent (by decide) (by decide)]

/-- The components of a stream's directory; a stream named `.` has none of its own. -/
def streamPlace (stream : String) : List Bytes := if stream = "." then [] else [utf8 stream]

theorem resolve_consumerDirectory (hvalid : validateName kind stream = .ok ())
    (hparent : stream ≠ "..") : (consumerDirectory root stream).resolve =
      (consumersDirectory root).resolve ++ streamPlace stream := by
  rw [consumerDirectory, Path.join_eq_push _ (name_ne_nil hvalid) (slash_notMem hvalid),
    streamPlace]
  split_ifs with hcurrent
  · rw [utf8_eq_current.2 hcurrent, Path.resolve_push_current, List.append_nil]
  · rw [Path.resolve_push_of_ne (mt utf8_eq_current.1 hcurrent) (mt utf8_eq_parent.1 hparent)]

theorem withExtension_json (hvalid : validateName kind consumer = .ok ()) {newExtension : String}
    (hne : newExtension ≠ "") :
    FileName.withExtension (utf8 (consumer ++ ".json")) (utf8 newExtension) =
      utf8 (consumer ++ ("." ++ newExtension)) := by
  have hsplit : FileName.splitAtDot (utf8 (consumer ++ ".json")) =
      (utf8 consumer, some (utf8 "json")) := by
    rw [utf8_append]
    exact FileName.splitAtDot_eq (name_ne_nil hvalid) (by decide) (by decide)
  rw [FileName.withExtension, FileName.stem, hsplit, if_neg (mt utf8_eq_nil_iff.1 hne), utf8_append,
    utf8_append]
  rfl

theorem resolve_push_fileName (directory : Path) {suffix : String}
    (hsuffix : suffix ∈ fileSuffixes) :
    (directory.push (utf8 (consumer ++ suffix))).resolve =
      directory.resolve ++ [utf8 (consumer ++ suffix)] := by
  have hlong : ∀ suffix ∈ fileSuffixes, 2 < (utf8 suffix).length := by decide
  have hlen : 2 < (utf8 (consumer ++ suffix)).length := by
    rw [utf8_append, List.length_append]
    have := hlong suffix hsuffix
    omega
  refine Path.resolve_push_of_ne ?_ ?_
  · intro heq
    rw [heq] at hlen
    exact absurd hlen (by decide)
  · intro heq
    rw [heq] at hlen
    exact absurd hlen (by decide)

theorem resolvedFiles_eq (hvalid : validateName kind consumer = .ok ()) :
    resolvedFiles root (stream, consumer) = (consumerFileNames consumer).map fun name =>
      (consumerDirectory root stream).resolve ++ [utf8 name] := by
  have hslash : Path.slash ∉ utf8 (consumer ++ ".json") := by
    rw [utf8_append, List.mem_append, not_or]
    exact ⟨slash_notMem hvalid, by decide⟩
  have hne : utf8 (consumer ++ ".json") ≠ [] := by
    rw [utf8_append]
    exact List.append_ne_nil_of_left_ne_nil (name_ne_nil hvalid) _
  have hstate : consumerStatePath root stream consumer =
      (consumerDirectory root stream).push (utf8 (consumer ++ ".json")) :=
    Path.join_eq_push _ hne hslash
  simp only [resolvedFiles, consumerFiles, consumerStateJournalPath, temporaryPath, hstate,
    Path.withExtension_push, withExtension_json hvalid (by decide : "json.tmp" ≠ ""),
    withExtension_json hvalid (by decide : "checkpoint.tmp" ≠ ""), List.map_cons, List.map_nil,
    consumerFileNames]
  rw [resolve_push_fileName _ (by decide), resolve_push_fileName _ (by decide),
    resolve_push_fileName _ (by decide)]
  rfl

theorem mem_resolvedFiles (hvalid : validateName kind consumer = .ok ()) {file : List Bytes} :
    file ∈ resolvedFiles root (stream, consumer) ↔ ∃ name ∈ consumerFileNames consumer,
      file = (consumerDirectory root stream).resolve ++ [utf8 name] := by
  rw [resolvedFiles_eq root hvalid, List.mem_map]
  simp only [eq_comm]

end Resolved

theorem eq_of_mem_consumerFileNames {a b name other : String} (hname : name ∈ consumerFileNames a)
    (hother : other ∈ consumerFileNames b) (h : utf8 name = utf8 other) : a = b := by
  obtain ⟨suffix, hsuffix, rfl⟩ := mem_consumerFileNames.1 hname
  obtain ⟨suffix', hsuffix', rfl⟩ := mem_consumerFileNames.1 hother
  exact (fileName_injective hsuffix hsuffix' h).1

theorem clash_of_directory {stream other consumer name : String}
    (hname : name ∈ consumerFileNames consumer)
    (h : streamPlace stream ++ [utf8 name] <+: streamPlace other) :
    stream = "." ∧ other ∈ consumerFileNames consumer := by
  have hlen := h.length_le
  unfold streamPlace at h hlen
  split_ifs at h hlen with hstream hother hother
  · simp at hlen
  · have hsame := h.eq_of_length rfl
    have hequal : utf8 name = utf8 other := by simpa using hsame
    exact ⟨hstream, utf8_injective hequal ▸ hname⟩
  · simp at hlen
  · simp at hlen

/-- A file is on the way to a file of another consumer only if it lies beside its stream. -/
theorem clash_of_file {stream other consumer consumer' name name' : String}
    (hname : name ∈ consumerFileNames consumer) (hname' : name' ∈ consumerFileNames consumer')
    (h : streamPlace stream ++ [utf8 name] <+: streamPlace other ++ [utf8 name']) :
    (stream, consumer) = (other, consumer') ∨
      stream = "." ∧ other ∈ consumerFileNames consumer := by
  have hlen := h.length_le
  unfold streamPlace at h hlen
  split_ifs at h hlen with hstream hother hother
  · have hsame := h.eq_of_length rfl
    have hequal : utf8 name = utf8 name' := by simpa using hsame
    left
    rw [hstream, hother, eq_of_mem_consumerFileNames hname hname' hequal]
  · have hequal : utf8 name = utf8 other := by simpa using h
    exact Or.inr ⟨hstream, utf8_injective hequal ▸ hname⟩
  · simp at hlen
  · have hsame := h.eq_of_length rfl
    obtain ⟨hequal, hfiles⟩ : utf8 stream = utf8 other ∧ utf8 name = utf8 name' := by
      simpa using hsame
    left
    rw [utf8_injective hequal, eq_of_mem_consumerFileNames hname hname' hfiles]

structure ValidConsumer (consumer : ConsumerPath) : Prop where
  stream : validateName "stream" consumer.1 = .ok ()
  consumer : validateName "consumer" consumer.2 = .ok ()

/-- The stream directory of the second consumer is taken by a file of the first one. -/
def Clashes (first second : ConsumerPath) : Prop :=
  first.1 = "." ∧ second.1 ∈ consumerFileNames first.2

instance (first second : ConsumerPath) : Decidable (Clashes first second) :=
  inferInstanceAs (Decidable (_ ∧ _))

section Isolation

variable {root : Path} {first second : ConsumerPath}

theorem nodup_resolvedFiles (hvalid : ValidConsumer first) : (resolvedFiles root first).Nodup := by
  rw [resolvedFiles_eq root hvalid.consumer]
  refine List.Nodup.map_on ?_ ?_
  · intro name hname other hother hequal
    exact utf8_injective (List.singleton_inj.1 (List.append_cancel_left hequal))
  · have hdiffer : ∀ suffix ∈ fileSuffixes, ∀ other ∈ fileSuffixes, suffix ≠ other →
        first.2 ++ suffix ≠ first.2 ++ other := by
      intro suffix hsuffix other hother hne heq
      exact hne (fileName_injective hsuffix hother (congrArg utf8 heq)).2
    simp [consumerFileNames, hdiffer ".json" (by decide) ".json.tmp" (by decide) (by decide),
      hdiffer ".json" (by decide) ".checkpoint.tmp" (by decide) (by decide),
      hdiffer ".json.tmp" (by decide) ".checkpoint.tmp" (by decide) (by decide)]

theorem apart_of_not_clashes (hfirst : ValidConsumer first) (hsecond : ValidConsumer second)
    (hne : first ≠ second) (hleft : first.1 ≠ "..") (hright : second.1 ≠ "..")
    (hclash : ¬ Clashes first second) : ∀ file ∈ resolvedFiles root first,
      ∀ place ∈ (consumerDirectory root second.1).resolve :: resolvedFiles root second,
        ¬ file <+: place := by
  intro file hfile place hplace hle
  obtain ⟨name, hname, rfl⟩ := (mem_resolvedFiles root hfirst.consumer).1 hfile
  rw [resolve_consumerDirectory root hfirst.stream hleft, List.append_assoc] at hle
  rcases List.mem_cons.1 hplace with rfl | hplace
  · rw [resolve_consumerDirectory root hsecond.stream hright, List.prefix_append_right_inj] at hle
    exact hclash (clash_of_directory hname hle)
  · obtain ⟨name', hname', rfl⟩ := (mem_resolvedFiles root hsecond.consumer).1 hplace
    rw [resolve_consumerDirectory root hsecond.stream hright, List.append_assoc,
      List.prefix_append_right_inj] at hle
    rcases clash_of_file hname hname' hle with hsame | hbeside
    · exact hne hsame
    · exact hclash hbeside

theorem inside_of_ne_parent (hvalid : ValidConsumer first) (hparent : first.1 ≠ "..") :
    ∀ file ∈ resolvedFiles root first,
      (consumersDirectory root).resolve <+: file ∧ file ≠ (consumersDirectory root).resolve := by
  intro file hfile
  obtain ⟨name, hname, rfl⟩ := (mem_resolvedFiles root hvalid.consumer).1 hfile
  rw [resolve_consumerDirectory root hvalid.stream hparent, List.append_assoc]
  refine ⟨List.prefix_append _ _, ?_⟩
  intro hequal
  simpa using congrArg List.length hequal

theorem not_inside_of_parent (hvalid : ValidConsumer first) (hparent : first.1 = "..") :
    ∃ file ∈ resolvedFiles root first, ¬ ((consumersDirectory root).resolve <+: file ∧
      file ≠ (consumersDirectory root).resolve) := by
  refine ⟨_, (mem_resolvedFiles root hvalid.consumer).2 ⟨_, List.mem_cons_self, rfl⟩, ?_⟩
  rintro ⟨hle, hne⟩
  rw [hparent, resolve_parent, resolve_consumersDirectory] at hle hne
  exact hne (hle.eq_of_length (by simp)).symm

/-- A file of a stream named `.` is the directory of a stream with that name. -/
theorem not_apart_of_clashes (hfirst : ValidConsumer first) (hsecond : ValidConsumer second)
    (hclash : Clashes first second) :
    ∃ file ∈ resolvedFiles root first, file <+: (consumerDirectory root second.1).resolve := by
  obtain ⟨hcurrent, hname⟩ := hclash
  have hlong : ∀ name ∈ consumerFileNames first.2, name ≠ "." ∧ name ≠ ".." := by
    intro name hname
    obtain ⟨suffix, hsuffix, rfl⟩ := mem_consumerFileNames.1 hname
    have hlen : ∀ suffix ∈ fileSuffixes, 2 < (utf8 suffix).length := by decide
    have htotal : 2 < (utf8 (first.2 ++ suffix)).length := by
      rw [utf8_append, List.length_append]
      have := hlen suffix hsuffix
      omega
    constructor
    · intro heq
      rw [heq] at htotal
      exact absurd htotal (by decide)
    · intro heq
      rw [heq] at htotal
      exact absurd htotal (by decide)
  obtain ⟨hdot, hdots⟩ := hlong second.1 hname
  refine ⟨_, (mem_resolvedFiles root hfirst.consumer).2 ⟨second.1, hname, rfl⟩, ?_⟩
  rw [resolve_consumerDirectory root hsecond.stream hdots,
    resolve_consumerDirectory root hfirst.stream (by rw [hcurrent]; decide), streamPlace,
    streamPlace, if_pos hcurrent, if_neg hdot, List.append_nil]

end Isolation

/-- For every root, the files of two consumers with valid names are isolated exactly if neither
stream is named `..` and no stream named `.` has a consumer with a file named like the other
stream. -/
theorem consumer_files_isolated_iff (root : Path) {first second : ConsumerPath}
    (hfirst : ValidConsumer first) (hsecond : ValidConsumer second) (hne : first ≠ second) :
    Isolated root first second ↔
      first.1 ≠ ".." ∧ second.1 ≠ ".." ∧ ¬ Clashes first second ∧ ¬ Clashes second first := by
  constructor
  · intro h
    refine ⟨fun hparent => ?_, fun hparent => ?_, fun hclash => ?_, fun hclash => ?_⟩
    · obtain ⟨file, hfile, hout⟩ := not_inside_of_parent hfirst hparent
      exact hout (h.inside file (List.mem_append_left _ hfile))
    · obtain ⟨file, hfile, hout⟩ := not_inside_of_parent hsecond hparent
      exact hout (h.inside file (List.mem_append_right _ hfile))
    · obtain ⟨file, hfile, hle⟩ := not_apart_of_clashes hfirst hsecond hclash
      exact h.first_apart file hfile _ List.mem_cons_self hle
    · obtain ⟨file, hfile, hle⟩ := not_apart_of_clashes hsecond hfirst hclash
      exact h.second_apart file hfile _ List.mem_cons_self hle
  · rintro ⟨hleft, hright, hforth, hback⟩
    have hapart := @apart_of_not_clashes root first second hfirst hsecond hne hleft hright hforth
    refine ⟨?_, hapart, apart_of_not_clashes hsecond hfirst hne.symm hright hleft hback, ?_⟩
    · refine List.Nodup.append (nodup_resolvedFiles hfirst) (nodup_resolvedFiles hsecond) ?_
      intro file hmine htheirs
      exact hapart file hmine file (List.mem_cons_of_mem _ htheirs) List.prefix_rfl
    · intro file hfile
      rcases List.mem_append.1 hfile with hmine | htheirs
      · exact inside_of_ne_parent hfirst hleft file hmine
      · exact inside_of_ne_parent hsecond hright file htheirs

/-- A stream and consumer with ordinary names beside a stream named `.`. -/
theorem ordinary_names_isolated :
    Isolated ⟨true, [utf8 "data"]⟩ (".", "worker") ("events", "worker") :=
  (consumer_files_isolated_iff _ ⟨by decide, by decide⟩ ⟨by decide, by decide⟩ (by decide)).2
    (by decide)

/-- The state of consumer `worker` of the stream `.` is the directory of the stream `worker.json`,
and the stream `..` keeps its files beside the directory of the consumers. -/
theorem dotted_streams_not_isolated :
    ¬ Isolated ⟨true, [utf8 "data"]⟩ (".", "worker") ("worker.json", "worker") ∧
    ¬ Isolated ⟨true, [utf8 "data"]⟩ ("..", "worker") ("events", "worker") := by
  constructor
  · intro h
    have hfile : [utf8 "data", utf8 "consumers", utf8 "worker.json"] ∈
        resolvedFiles ⟨true, [utf8 "data"]⟩ (".", "worker") := by decide +kernel
    exact h.first_apart _ hfile [utf8 "data", utf8 "consumers", utf8 "worker.json"]
      (by decide +kernel) List.prefix_rfl
  · intro h
    have hfile : [utf8 "data", utf8 "worker.json"] ∈
        resolvedFiles ⟨true, [utf8 "data"]⟩ ("..", "worker") := by decide +kernel
    have hinside := h.inside _ (List.mem_append_left _ hfile)
    revert hinside
    decide +kernel

end Runnel.Local
