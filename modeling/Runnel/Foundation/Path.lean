import Mathlib.Tactic
import Runnel.Foundation.Bytes

/-!
# Paths

File names with a stem and an extension, and paths whose `.` and `..` components
are resolved by their text alone.
-/

namespace Runnel

namespace FileName

open Bytes

def dot : UInt8 := 0x2e

/-- The stem and the extension of a file name, split at its last dot. A name that only starts with
a dot has no extension. -/
def splitAtDot (name : Bytes) : Bytes × Option Bytes :=
  if name = [dot, dot] then (name, none)
  else
    match name.reverse.span (· ≠ dot) with
    | (_, []) => (name, none)
    | (_, [_]) => (name, none)
    | (extension, _ :: stem) => (stem.reverse, some extension.reverse)

def stem (name : Bytes) : Bytes := (splitAtDot name).1

def extension (name : Bytes) : Option Bytes := (splitAtDot name).2

def withExtension (name newExtension : Bytes) : Bytes :=
  stem name ++ if newExtension = [] then [] else dot :: newExtension

/-- The name next to a file under which a process writes what will replace it. -/
def temporary (name : Bytes) (processId : ℕ) : Bytes :=
  withExtension name (utf8 s!"tmp-{processId}")

theorem temporary_eq (name : Bytes) (processId : ℕ) :
    temporary name processId = stem name ++ (utf8 ".tmp-" ++ utf8 (toString processId)) := by
  have htext : utf8 s!"tmp-{processId}" = utf8 "tmp-" ++ utf8 (toString processId) :=
    utf8_append _ _
  have hne : utf8 s!"tmp-{processId}" ≠ [] := by
    rw [htext]
    exact List.append_ne_nil_of_left_ne_nil (by decide) _
  have hdot : utf8 ".tmp-" = dot :: utf8 "tmp-" := by decide
  rw [temporary, withExtension, if_neg hne, htext, hdot, List.cons_append]

theorem splitAtDot_eq {front back : Bytes} (hfront : front ≠ []) (hback : back ≠ [])
    (hdot : dot ∉ back) : splitAtDot (front ++ dot :: back) = (front, some back) := by
  have hname : front ++ dot :: back ≠ [dot, dot] := by
    intro heq
    have hlen := congrArg List.length heq
    have hpos := List.length_pos_iff.2 hfront
    have hpos' := List.length_pos_iff.2 hback
    simp only [List.length_append, List.length_cons, List.length_nil] at hlen
    omega
  have hspan : (front ++ dot :: back).reverse.span (· ≠ dot) =
      (back.reverse, dot :: front.reverse) := by
    have hall : ∀ byte ∈ back.reverse, decide (byte ≠ dot) = true := by
      intro byte hbyte
      refine decide_eq_true ?_
      rintro rfl
      exact hdot (List.mem_reverse.1 hbyte)
    rw [List.span_eq_takeWhile_dropWhile, List.reverse_append, List.reverse_cons, List.append_assoc,
      List.takeWhile_append_of_pos hall, List.dropWhile_append_of_pos hall]
    simp
  rw [splitAtDot, if_neg hname, hspan]
  cases hreverse : front.reverse with
  | nil => exact absurd (List.reverse_eq_nil_iff.1 hreverse) hfront
  | cons byte rest => simp [← hreverse]

theorem of_extension {name back : Bytes} (h : extension name = some back) :
    name = stem name ++ dot :: back := by
  unfold extension stem at *
  unfold splitAtDot at *
  split_ifs at h with hdots
  rw [if_neg hdots]
  split at h
  · cases h
  · cases h
  · rename_i after sep before hnot hspan
    obtain rfl := Option.some.inj h
    rw [List.span_eq_takeWhile_dropWhile] at hspan
    obtain ⟨hafter, hrest⟩ := Prod.mk.inj hspan
    have hsep : sep = dot := by
      have hhead := List.head?_dropWhile_not (fun byte => decide (byte ≠ dot)) name.reverse
      rw [hrest] at hhead
      simpa using hhead
    subst hsep
    have hname : name.reverse = after ++ dot :: before := by
      rw [← hafter, ← hrest, List.takeWhile_append_dropWhile]
    have hback := congrArg List.reverse hname
    rw [List.reverse_reverse, List.reverse_append, List.reverse_cons, List.append_assoc] at hback
    simpa [hafter, hrest, hnot] using hback

end FileName

structure Path where
  absolute : Bool
  components : List Bytes
deriving DecidableEq, Repr

namespace Path

def current : Bytes := [FileName.dot]

def parent : Bytes := [FileName.dot, FileName.dot]

def slash : UInt8 := 0x2f

def push (path : Path) (component : Bytes) : Path :=
  { path with components := path.components ++ [component] }

def componentsOf (text : Bytes) : List Bytes := (text.splitOn slash).filter (· ≠ [])

/-- A relative text goes behind the path and an absolute one replaces it. -/
def join (path : Path) (text : Bytes) : Path :=
  if text.head? = some slash then { absolute := true, components := componentsOf text }
  else { path with components := path.components ++ componentsOf text }

theorem join_eq_push {text : Bytes} (path : Path) (hne : text ≠ []) (hslash : slash ∉ text) :
    path.join text = path.push text := by
  have hhead : text.head? ≠ some slash := fun h => hslash (List.mem_of_head? h)
  have hparts : text.splitOn slash = [text] := by
    apply List.splitOnP_eq_singleton
    intro byte hbyte
    have hother : byte ≠ slash := by
      rintro rfl
      exact hslash hbyte
    simpa using hother
  rw [join, if_neg hhead, componentsOf, hparts]
  simp [push, hne]

def withExtension (path : Path) (newExtension : Bytes) : Path :=
  match path.components.getLast? with
  | none => path
  | some name =>
    { path with
      components := path.components.dropLast ++ [FileName.withExtension name newExtension] }

/-- One more component on the resolved ones. The parent of a relative path above its start is
kept. -/
def resolveStep (absolute : Bool) (resolved : List Bytes) (component : Bytes) : List Bytes :=
  if component = current then resolved
  else if component = parent then
    match resolved.getLast? with
    | none => if absolute then [] else [parent]
    | some last => if last = parent then resolved ++ [parent] else resolved.dropLast
  else resolved ++ [component]

def resolve (path : Path) : List Bytes := path.components.foldl (resolveStep path.absolute) []

variable {path : Path} {component : Bytes}

theorem resolve_push : (path.push component).resolve =
    resolveStep path.absolute path.resolve component := by
  simp [resolve, push]

theorem resolve_push_current : (path.push current).resolve = path.resolve := by
  rw [resolve_push, resolveStep, if_pos rfl]

theorem resolve_push_of_ne (hcurrent : component ≠ current) (hparent : component ≠ parent) :
    (path.push component).resolve = path.resolve ++ [component] := by
  rw [resolve_push, resolveStep, if_neg hcurrent, if_neg hparent]

theorem resolve_push_parent (hcurrent : component ≠ current) (hparent : component ≠ parent) :
    ((path.push component).push parent).resolve = path.resolve := by
  rw [resolve_push, resolve_push_of_ne hcurrent hparent, resolveStep, if_neg (by decide),
    if_pos rfl, List.getLast?_concat]
  dsimp only
  rw [if_neg hparent, List.dropLast_concat]

theorem withExtension_push (newExtension : Bytes) :
    (path.push component).withExtension newExtension =
      path.push (FileName.withExtension component newExtension) := by
  simp [withExtension, push]

end Path

end Runnel
