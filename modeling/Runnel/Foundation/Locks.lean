import Runnel.Foundation.Transition

/-!
# Threads that share locks

A program takes and drops locks, reads and changes the data they guard, and asks
about whatever is not modelled, where every answer is possible.
-/

namespace Runnel.Locks

open Relation

variable {L D O α β : Type}

inductive Mode
  | read
  | write
deriving DecidableEq, Repr

/-- What a thread does with locks `L` and the data `D` behind them. -/
inductive Program (L D α : Type)
  | done (result : α)
  | failed
  | acquire (lock : L) (mode : Mode) (next : Program L D α)
  | release (next : Program L D α)
  | load (next : D → Program L D α)
  | store (update : D → D) (next : Program L D α)
  | ask (next : ℕ → Program L D α)

namespace Program

def bind : Program L D α → (α → Program L D β) → Program L D β
  | .done a, f => f a
  | .failed, _ => .failed
  | .acquire lock mode next, f => .acquire lock mode (next.bind f)
  | .release next, f => .release (next.bind f)
  | .load next, f => .load fun data => (next data).bind f
  | .store update next, f => .store update (next.bind f)
  | .ask next, f => .ask fun answer => (next answer).bind f

instance : Monad (Program L D) where
  pure := .done
  bind := bind

def read : Program L D D := .load .done

def modify (update : D → D) : Program L D Unit := .store update (.done ())

def answer : Program L D ℕ := .ask .done

def undecided : Program L D Bool := .ask fun n => .done (n != 0)

def fallible : Program L D Unit := .ask fun n => if n = 0 then .failed else .done ()

def require (condition : Bool) : Program L D Unit := if condition then .done () else .failed

/-- The body runs under a guard that is dropped after it. -/
def holding (lock : L) (mode : Mode) (body : Program L D α) : Program L D α :=
  .acquire lock mode (body.bind fun a => .release (.done a))

/-- Each lock asked for ranks above the locks held then; a program that is done has its
result and its guards as told. -/
def Ascends (rank : L → ℕ) (post : α → List (L × Mode) → Prop) :
    Program L D α → List (L × Mode) → Prop
  | .done a, held => post a held
  | .failed, _ => True
  | .acquire lock mode next, held =>
    (∀ guard ∈ held, rank guard.1 < rank lock) ∧ next.Ascends rank post ((lock, mode) :: held)
  | .release next, held => next.Ascends rank post held.tail
  | .load next, held => ∀ data, (next data).Ascends rank post held
  | .store _ next, held => next.Ascends rank post held
  | .ask next, held => ∀ answer, (next answer).Ascends rank post held

section Ascends

variable {rank : L → ℕ}

theorem Ascends.bind {post : β → List (L × Mode) → Prop} {program : Program L D α}
    {f : α → Program L D β} {held : List (L × Mode)}
    (h : program.Ascends rank (fun a => (f a).Ascends rank post) held) :
    (program.bind f).Ascends rank post held := by
  induction program generalizing held with
  | done a => exact h
  | failed => trivial
  | acquire lock mode next ih => exact ⟨h.1, ih h.2⟩
  | release next ih => exact ih h
  | load next ih => exact fun data => ih data (h data)
  | store update next ih => exact ih h
  | ask next ih => exact fun answer => ih answer (h answer)

theorem Ascends.mono {post post' : α → List (L × Mode) → Prop}
    (hpost : ∀ a held, post a held → post' a held) {program : Program L D α}
    {held : List (L × Mode)} (h : program.Ascends rank post held) :
    program.Ascends rank post' held := by
  induction program generalizing held with
  | done a => exact hpost a held h
  | failed => trivial
  | acquire lock mode next ih => exact ⟨h.1, ih h.2⟩
  | release next ih => exact ih h
  | load next ih => exact fun data => ih data (h data)
  | store update next ih => exact ih h
  | ask next ih => exact fun answer => ih answer (h answer)

end Ascends

/-- The program ascends from the guards it finds and leaves them as they were. -/
def Scoped (rank : L → ℕ) (held : List (L × Mode)) (program : Program L D α)
    (post : α → Prop) : Prop :=
  program.Ascends rank (fun a rest => rest = held ∧ post a) held

namespace Scoped

variable {rank : L → ℕ} {held : List (L × Mode)}

theorem pure {a : α} {post : α → Prop} (h : post a) :
    Scoped rank held (Pure.pure a : Program L D α) post := ⟨rfl, h⟩

theorem mono {program : Program L D α} {post post' : α → Prop}
    (h : Scoped rank held program post) (hpost : ∀ a, post a → post' a) :
    Scoped rank held program post' :=
  Ascends.mono (fun a _ ⟨hrest, ha⟩ => ⟨hrest, hpost a ha⟩) h

theorem bind {program : Program L D α} {f : α → Program L D β} {mid : α → Prop}
    {post : β → Prop} (h : Scoped rank held program mid)
    (hf : ∀ a, mid a → Scoped rank held (f a) post) : Scoped rank held (program >>= f) post :=
  Ascends.bind (Ascends.mono (fun a rest ⟨hrest, ha⟩ => by rw [hrest]; exact hf a ha) h)

theorem read : Scoped rank held (Program.read : Program L D D) fun _ => True :=
  fun _ => ⟨rfl, trivial⟩

theorem modify (update : D → D) :
    Scoped rank held (Program.modify update : Program L D Unit) fun _ => True := ⟨rfl, trivial⟩

theorem answer : Scoped rank held (Program.answer : Program L D ℕ) fun _ => True :=
  fun _ => ⟨rfl, trivial⟩

theorem undecided : Scoped rank held (Program.undecided : Program L D Bool) fun _ => True :=
  fun _ => ⟨rfl, trivial⟩

theorem fallible : Scoped rank held (Program.fallible : Program L D Unit) fun _ => True := by
  intro n
  dsimp only
  split_ifs
  · trivial
  · exact ⟨rfl, trivial⟩

theorem require (condition : Bool) :
    Scoped rank held (Program.require condition : Program L D Unit) fun _ => condition = true := by
  cases condition
  · trivial
  · exact ⟨rfl, rfl⟩

theorem holding {lock : L} {mode : Mode} {body : Program L D α} {post : α → Prop}
    (hbelow : ∀ guard ∈ held, rank guard.1 < rank lock)
    (hbody : Scoped rank ((lock, mode) :: held) body post) :
    Scoped rank held (Program.holding lock mode body) post := by
  refine ⟨hbelow, Ascends.bind (Ascends.mono ?_ hbody)⟩
  rintro a rest ⟨rfl, ha⟩
  exact ⟨rfl, ha⟩

end Scoped

def requested : Program L D α → Option L
  | .acquire lock _ _ => some lock
  | _ => none

end Program

structure Thread (L D : Type) where
  held : List (L × Mode) := []
  rest : Program L D Unit

structure System (L D : Type) where
  data : D
  threads : List (Thread L D) := []

/-- A program that is done or has failed, with its guards dropped. -/
def Thread.Finished (thread : Thread L D) : Prop :=
  thread.held = [] ∧ (thread.rest = .done () ∨ thread.rest = .failed)

def Thread.Holds (thread : Thread L D) (lock : L) : Prop := lock ∈ thread.held.map Prod.fst

def System.Waits (system : System L D) (first second : L) : Prop :=
  ∃ thread ∈ system.threads, thread.Holds first ∧ thread.rest.requested = some second

def available [DecidableEq L] (threads : List (Thread L D)) (lock : L) (mode : Mode) : Bool :=
  threads.all fun thread => thread.held.all fun guard =>
    guard.1 != lock || (guard.2 == .read && mode == .read)

def Thread.step [DecidableEq L] (threads : List (Thread L D)) (data : D) (answer : ℕ)
    (thread : Thread L D) : Option (D × Thread L D) :=
  match thread.rest with
  | .done _ => none
  | .failed =>
    match thread.held with
    | [] => none
    | _ :: held => some (data, ⟨held, .failed⟩)
  | .acquire lock mode next =>
    if available threads lock mode then some (data, ⟨(lock, mode) :: thread.held, next⟩) else none
  | .release next => some (data, ⟨thread.held.tail, next⟩)
  | .load next => some (data, ⟨thread.held, next data⟩)
  | .store update next => some (update data, ⟨thread.held, next⟩)
  | .ask next => some (data, ⟨thread.held, next answer⟩)

/-- An operation starts on a thread of its own, or a thread takes its next step. -/
inductive Event (O : Type)
  | start (operation : O)
  | step (thread answer : ℕ)

def next? [DecidableEq L] (program : O → Program L D Unit) (system : System L D) :
    Event O → Option (System L D)
  | .start operation =>
    some { system with threads := system.threads ++ [⟨[], program operation⟩] }
  | .step i answer =>
    (system.threads[i]?).bind fun thread =>
      (thread.step system.threads system.data answer).map fun (data, thread) =>
        ⟨data, system.threads.set i thread⟩

section Rank

variable {rank : L → ℕ}

/-- What is left of a thread ascends, and ends without guards. -/
def Thread.Orderly (rank : L → ℕ) (thread : Thread L D) : Prop :=
  thread.rest.Ascends rank (fun _ held => held = []) thread.held

theorem Thread.Orderly.step [DecidableEq L] {threads : List (Thread L D)} {data data' : D}
    {answer : ℕ} {thread thread' : Thread L D} (h : thread.Orderly rank)
    (hstep : thread.step threads data answer = some (data', thread')) :
    thread'.Orderly rank := by
  obtain ⟨held, rest⟩ := thread
  cases rest with
  | done a => cases hstep
  | failed =>
    cases held with
    | nil => cases hstep
    | cons guard held => cases hstep; trivial
  | acquire lock mode next =>
    simp only [Thread.step] at hstep
    split_ifs at hstep
    cases hstep
    exact h.2
  | release next => cases hstep; exact h
  | load next => cases hstep; exact h data
  | store update next => cases hstep; exact h
  | ask next => cases hstep; exact h answer

theorem Thread.Orderly.lt {thread : Thread L D} (h : thread.Orderly rank) {first second : L}
    (hfirst : thread.Holds first) (hsecond : thread.rest.requested = some second) :
    rank first < rank second := by
  obtain ⟨held, rest⟩ := thread
  obtain ⟨guard, hguard, rfl⟩ := List.mem_map.1 hfirst
  cases rest with
  | acquire lock mode next =>
    cases hsecond
    exact h.1 guard hguard
  | _ => cases hsecond

theorem Thread.not_finished_of_holds {thread : Thread L D} {lock : L} (h : thread.Holds lock) :
    ¬ thread.Finished := by
  intro hfinished
  rw [Thread.Holds, hfinished.1] at h
  cases h

theorem orderly_of_next? [DecidableEq L] {program : O → Program L D Unit}
    (hprogram : ∀ operation, (program operation).Scoped rank [] fun _ => True)
    {system system' : System L D} {event : Event O}
    (h : ∀ thread ∈ system.threads, thread.Orderly rank)
    (hnext : next? program system event = some system') :
    ∀ thread ∈ system'.threads, thread.Orderly rank := by
  cases event with
  | start operation =>
    cases hnext
    intro thread hthread
    rcases List.mem_append.1 hthread with hthread | hthread
    · exact h thread hthread
    · obtain rfl := List.mem_singleton.1 hthread
      exact Program.Ascends.mono (fun _ _ hpost => hpost.1) (hprogram operation)
  | step i answer =>
    obtain ⟨before, hbefore, hstep⟩ := Option.bind_eq_some_iff.1 hnext
    obtain ⟨⟨data, after⟩, hafter, rfl⟩ := Option.map_eq_some_iff.1 hstep
    intro thread hthread
    rcases List.mem_or_eq_of_mem_set hthread with hthread | rfl
    · exact h thread hthread
    · exact (h before (List.mem_of_getElem? hbefore)).step hafter

theorem System.acyclic {system : System L D} (h : ∀ thread ∈ system.threads, thread.Orderly rank)
    (lock : L) : ¬ TransGen system.Waits lock lock := by
  have hlt : ∀ first second, TransGen system.Waits first second → rank first < rank second := by
    intro first second hpath
    induction hpath with
    | single hwaits =>
      obtain ⟨thread, hthread, hholds, hrequested⟩ := hwaits
      exact (h thread hthread).lt hholds hrequested
    | tail _ hwaits ih =>
      obtain ⟨thread, hthread, hholds, hrequested⟩ := hwaits
      exact ih.trans ((h thread hthread).lt hholds hrequested)
  exact fun hcycle => (hlt lock lock hcycle).false

/-- While a thread is unfinished, there is one that waits for no lock anybody holds. -/
theorem System.exists_unblocked {system : System L D}
    (h : ∀ thread ∈ system.threads, thread.Orderly rank)
    (hunfinished : ∃ thread ∈ system.threads, ¬ thread.Finished) :
    ∃ thread ∈ system.threads, ¬ thread.Finished ∧
      ∀ lock, thread.rest.requested = some lock → ∀ other ∈ system.threads, ¬ other.Holds lock := by
  by_cases hidle : ∃ thread ∈ system.threads, ¬ thread.Finished ∧ thread.rest.requested = none
  · obtain ⟨thread, hthread, hopen, hnone⟩ := hidle
    refine ⟨thread, hthread, hopen, fun lock hlock => ?_⟩
    rw [hnone] at hlock
    cases hlock
  -- Every unfinished thread asks for a lock; take one that asks for the highest rank.
  have hasks : ∀ thread ∈ system.threads, ¬ thread.Finished →
      ∃ lock, thread.rest.requested = some lock := fun thread hthread hopen =>
    Option.ne_none_iff_exists'.1 fun hnone => hidle ⟨thread, hthread, hopen, hnone⟩
  obtain ⟨thread, ⟨hthread, hopen⟩, hmax⟩ :=
    Set.exists_max_image {thread | thread ∈ system.threads ∧ ¬ thread.Finished}
      (fun thread => (thread.rest.requested.map rank).getD 0)
      (system.threads.finite_toSet.subset fun _ hthread => hthread.1) hunfinished
  refine ⟨thread, hthread, hopen, fun lock hlock other hother hholds => ?_⟩
  have hotherOpen := Thread.not_finished_of_holds hholds
  obtain ⟨next, hnext⟩ := hasks other hother hotherOpen
  have hlt := (h other hother).lt hholds hnext
  have hle := hmax other ⟨hother, hotherOpen⟩
  simp only [hlock, hnext, Option.map_some, Option.getD_some] at hle
  omega

end Rank

end Runnel.Locks
