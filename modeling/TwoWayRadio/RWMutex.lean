import Mathlib.Computability.Language
import Mathlib.Data.Fintype.Basic
import Mathlib.Data.Set.Finite.Lemmas
import Mathlib.Order.CompletePartialOrder
import TwoWayRadio.Runs

/-! Threads over reader/writer locks on which a waiting writer bars new readers, and freedom from
deadlock where every thread takes its locks in the order of a rank. -/
namespace RWMutex
open Transition

inductive Mode
  | read | write
deriving DecidableEq

inductive Action (L : Type*)
  | acquire (mode : Mode) (l : L)
  | release (mode : Mode) (l : L)
deriving DecidableEq

/-- A thread runs, or it is in the middle of acquiring a lock. -/
inductive Status (L : Type*)
  | running
  /-- A reader barred by a writer, which wakes it when it leaves. -/
  | parked (l : L)
  /-- A writer behind another one. -/
  | queued (l : L)
  /-- A writer that bars new readers, and waits for those inside to leave. -/
  | announced (l : L)
deriving DecidableEq

/-- What a thread holds, last acquired first, and what it has yet to do. -/
structure Thread (L : Type*) where
  held : List (Mode × L)
  status : Status L
  rest : List (Action L)
deriving DecidableEq

variable {ι L α : Type*}

namespace Thread

/-- The thread holds the lock for writing, or it has announced itself. -/
def Writes (l : L) (t : Thread L) : Prop := t.status = .announced l ∨ (.write, l) ∈ t.held

def Reads (l : L) (t : Thread L) : Prop := (.read, l) ∈ t.held

/-- The acquisition that the thread is at has succeeded. -/
def hold (mode : Mode) (l : L) (t : Thread L) : Thread L :=
  ⟨(mode, l) :: t.held, .running, t.rest.tail⟩

def leave (mode : Mode) (l : L) [DecidableEq L] (t : Thread L) : Thread L :=
  { t with held := t.held.erase (mode, l), rest := t.rest.tail }

/-- The lock that the thread waits for. -/
def awaits (t : Thread L) : Option (Mode × L) :=
  match t.status with
  | .running => none
  | .parked l => some (.read, l)
  | .queued l | .announced l => some (.write, l)

end Thread

section Step

variable [Fintype ι] [DecidableEq ι] [DecidableEq L]

instance (l : L) (t : Thread L) : Decidable (t.Writes l) :=
  inferInstanceAs (Decidable (_ ∨ _))

instance (l : L) (t : Thread L) : Decidable (t.Reads l) :=
  inferInstanceAs (Decidable (_ ∈ _))

/-- A writer leaves: the readers that it has barred enter. -/
def wake (l : L) (s : ι → Thread L) : ι → Thread L := fun j =>
  if (s j).status = .parked l then (s j).hold .read l else s j

/-- The next step of a thread, if it can take one. -/
def step (s : ι → Thread L) (i : ι) : Option (ι → Thread L) :=
  match (s i).status with
  | .running =>
    match (s i).rest with
    | [] => none
    | .acquire .read l :: _ =>
      if ∃ j, (s j).Writes l then some (Function.update s i { s i with status := .parked l })
      else some (Function.update s i ((s i).hold .read l))
    | .acquire .write l :: _ =>
      if ∃ j, (s j).Writes l then some (Function.update s i { s i with status := .queued l })
      else some (Function.update s i { s i with status := .announced l })
    | .release .read l :: _ => some (Function.update s i ((s i).leave .read l))
    | .release .write l :: _ => some (wake l (Function.update s i ((s i).leave .write l)))
  | .parked _ => none
  | .queued l =>
    if ∃ j, (s j).Writes l then none
    else some (Function.update s i { s i with status := .announced l })
  | .announced l =>
    if ∃ j, (s j).Reads l then none else some (Function.update s i ((s i).hold .write l))

end Step

section Effects

variable [Fintype ι] [DecidableEq ι] [DecidableEq L]

/-- What a step can do. -/
inductive Effect (s : ι → Thread L) (i : ι) (t : ι → Thread L) : Prop
  | parks (l : L) (rest : List (Action L)) (hs : (s i).status = .running)
      (hrest : (s i).rest = .acquire .read l :: rest) (hwriter : ∃ j, (s j).Writes l)
      (ht : t = Function.update s i { s i with status := .parked l })
  | enters (l : L) (rest : List (Action L)) (hs : (s i).status = .running)
      (hrest : (s i).rest = .acquire .read l :: rest) (hfree : ¬ ∃ j, (s j).Writes l)
      (ht : t = Function.update s i ((s i).hold .read l))
  | queues (l : L) (rest : List (Action L)) (hs : (s i).status = .running)
      (hrest : (s i).rest = .acquire .write l :: rest)
      (ht : t = Function.update s i { s i with status := .queued l })
  | announces (l : L)
      (hs : ((s i).status = .running ∧ ∃ rest, (s i).rest = .acquire .write l :: rest) ∨
        (s i).status = .queued l) (hfree : ¬ ∃ j, (s j).Writes l)
      (ht : t = Function.update s i { s i with status := .announced l })
  | takes (l : L) (hs : (s i).status = .announced l) (hfree : ¬ ∃ j, (s j).Reads l)
      (ht : t = Function.update s i ((s i).hold .write l))
  | leaves (l : L) (rest : List (Action L)) (hs : (s i).status = .running)
      (hrest : (s i).rest = .release .read l :: rest)
      (ht : t = Function.update s i ((s i).leave .read l))
  | wakes (l : L) (rest : List (Action L)) (hs : (s i).status = .running)
      (hrest : (s i).rest = .release .write l :: rest)
      (ht : t = wake l (Function.update s i ((s i).leave .write l)))

theorem effect {s t : ι → Thread L} {i : ι} (hstep : step s i = some t) : Effect s i t := by
  unfold step at hstep
  cases hs : (s i).status with
  | running =>
    rw [hs] at hstep
    cases hrest : (s i).rest with
    | nil =>
      rw [hrest] at hstep
      cases hstep
    | cons action rest =>
      rw [hrest] at hstep
      cases action with
      | acquire mode l =>
        cases mode with
        | read =>
          dsimp only at hstep
          split at hstep
          · rename_i hwriter
            exact .parks l rest hs hrest hwriter (Option.some.inj hstep).symm
          · rename_i hfree
            exact .enters l rest hs hrest hfree (Option.some.inj hstep).symm
        | write =>
          dsimp only at hstep
          split at hstep
          · exact .queues l rest hs hrest (Option.some.inj hstep).symm
          · rename_i hfree
            exact .announces l (Or.inl ⟨hs, rest, hrest⟩) hfree (Option.some.inj hstep).symm
      | release mode l =>
        cases mode with
        | read => exact .leaves l rest hs hrest (Option.some.inj hstep).symm
        | write => exact .wakes l rest hs hrest (Option.some.inj hstep).symm
  | parked l =>
    rw [hs] at hstep
    cases hstep
  | queued l =>
    rw [hs] at hstep
    dsimp only at hstep
    split at hstep
    · cases hstep
    · rename_i hfree
      exact .announces l (Or.inr hs) hfree (Option.some.inj hstep).symm
  | announced l =>
    rw [hs] at hstep
    dsimp only at hstep
    split at hstep
    · cases hstep
    · rename_i hfree
      exact .takes l hs hfree (Option.some.inj hstep).symm

end Effects

/-- `j` stands in the way of `i`. -/
def WaitsFor (s : ι → Thread L) (i j : ι) : Prop :=
  match (s i).status with
  | .running => False
  | .parked l | .queued l => (s j).Writes l
  | .announced l => (s j).Reads l

/-- Every thread of the set waits for one of the set. -/
def Deadlocked (s : ι → Thread L) (S : Set ι) : Prop :=
  S.Nonempty ∧ ∀ i ∈ S, ∃ j ∈ S, WaitsFor s i j

section Rank

variable [LinearOrder α] (rank : L → α)

/-- From here on each lock is acquired above all that are held, the last acquired is released
first, and in the end all are. -/
def Disciplined : List (Mode × L) → List (Action L) → Prop
  | held, [] => held = []
  | held, .acquire mode l :: rest =>
    (∀ p ∈ held, rank p.2 < rank l) ∧ Disciplined ((mode, l) :: held) rest
  | held, .release mode l :: rest => ∃ outer, held = (mode, l) :: outer ∧ Disciplined outer rest

/-- The thread is disciplined, and it waits only where it acquires a lock. -/
structure Thread.Orderly (t : Thread L) : Prop where
  disciplined : Disciplined rank t.held t.rest
  acquires : ∀ mode l, t.awaits = some (mode, l) → ∃ rest, t.rest = .acquire mode l :: rest

variable {rank} {s t : ι → Thread L}

theorem Thread.Orderly.acquire {t : Thread L} (h : t.Orderly rank) {mode : Mode} {l : L}
    {rest : List (Action L)} (hrest : t.rest = .acquire mode l :: rest) :
    (∀ p ∈ t.held, rank p.2 < rank l) ∧ Disciplined rank ((mode, l) :: t.held) rest := by
  have hd := h.disciplined
  rw [hrest] at hd
  exact hd

/-- A thread does not acquire what it holds. -/
theorem Thread.Orderly.not_held {t : Thread L} (h : t.Orderly rank) {mode : Mode} {l : L}
    {rest : List (Action L)} (hrest : t.rest = .acquire mode l :: rest) (mode' : Mode) :
    (mode', l) ∉ t.held :=
  fun hmem => lt_irrefl _ ((h.acquire hrest).1 _ hmem)

/-- What a thread waits for ranks above all that it holds. -/
theorem Thread.Orderly.lt_of_awaits {t : Thread L} (h : t.Orderly rank) {mode : Mode} {l : L}
    (hl : t.awaits = some (mode, l)) : ∀ p ∈ t.held, rank p.2 < rank l := by
  obtain ⟨rest, hrest⟩ := h.acquires mode l hl
  exact (h.acquire hrest).1

theorem WaitsFor.awaits {i j : ι} (h : WaitsFor s i j) :
    ∃ mode l, (s i).awaits = some (mode, l) := by
  unfold WaitsFor at h
  unfold Thread.awaits
  cases hs : (s i).status with
  | running =>
    rw [hs] at h
    cases h
  | parked l => exact ⟨.read, l, rfl⟩
  | queued l => exact ⟨.write, l, rfl⟩
  | announced l => exact ⟨.write, l, rfl⟩

/-- A thread waits for one that holds the lock or, unless it is the writer that has announced
itself, for that one. -/
theorem WaitsFor.blocks {i j : ι} (h : WaitsFor s i j) {mode : Mode} {l : L}
    (hl : (s i).awaits = some (mode, l)) : (∃ mode, (mode, l) ∈ (s j).held) ∨
      ((s i).status ≠ .announced l ∧ (s j).status = .announced l) := by
  have hbehind (hne : (s i).status ≠ .announced l) (hj : (s j).Writes l) :
      (∃ mode, (mode, l) ∈ (s j).held) ∨
        ((s i).status ≠ .announced l ∧ (s j).status = .announced l) :=
    hj.symm.imp (fun hmem => ⟨.write, hmem⟩) fun hj => ⟨hne, hj⟩
  unfold WaitsFor at h
  unfold Thread.awaits at hl
  cases hs : (s i).status with
  | running =>
    rw [hs] at hl
    cases hl
  | parked l' =>
    rw [hs] at h hl hbehind
    cases hl
    exact hbehind (fun heq => by cases heq) h
  | queued l' =>
    rw [hs] at h hl hbehind
    cases hl
    exact hbehind (fun heq => by cases heq) h
  | announced l' =>
    rw [hs] at h hl
    cases hl
    exact Or.inl ⟨.read, h⟩

/-- Of threads that wait for each other one would wait for a lock of highest rank, and whoever
holds that one waits for a lock above it. -/
theorem not_deadlocked [Finite ι] (h : ∀ i, (s i).Orderly rank) (S : Set ι) :
    ¬ Deadlocked s S := by
  rintro ⟨hne, hwaits⟩
  have hawaits : ∀ i ∈ S, ∃ mode l, (s i).awaits = some (mode, l) := by
    intro i hi
    obtain ⟨j, _, hj⟩ := hwaits i hi
    exact hj.awaits
  let height : ι → WithBot α := fun i => (s i).awaits.map fun p => rank p.2
  have hheight : ∀ {i mode l}, (s i).awaits = some (mode, l) → height i = rank l := by
    intro i mode l hl
    show ((s i).awaits.map fun p => rank p.2 : Option α) = _
    rw [hl]
    rfl
  obtain ⟨i, hi, hmax⟩ := Set.exists_max_image S height S.toFinite hne
  obtain ⟨mode, l, hl⟩ := hawaits i hi
  -- nobody in the set holds the lock that `i` waits for
  have hfree : ∀ j ∈ S, ∀ mode, (mode, l) ∉ (s j).held := by
    intro j hj mode hmem
    obtain ⟨mode', l', hl'⟩ := hawaits j hj
    have hlt : rank l < rank l' := (h j).lt_of_awaits hl' _ hmem
    have hle := hmax j hj
    rw [hheight hl, hheight hl'] at hle
    exact absurd hlt (not_lt.mpr (WithBot.coe_le_coe.mp hle))
  obtain ⟨j, hj, hij⟩ := hwaits i hi
  rcases hij.blocks hl with ⟨mode, hmem⟩ | ⟨_, hannounced⟩
  · exact hfree j hj mode hmem
  · -- `i` is behind a writer, which waits for somebody inside
    obtain ⟨k, hk, hjk⟩ := hwaits j hj
    have hlj : (s j).awaits = some (.write, l) := by
      rw [Thread.awaits, hannounced]
    rcases hjk.blocks hlj with ⟨mode, hmem⟩ | ⟨hnot, _⟩
    · exact hfree k hk mode hmem
    · exact hnot hannounced

namespace Thread.Orderly

variable {t : Thread L} {mode : Mode} {l : L} {rest : List (Action L)}

theorem wait (h : t.Orderly rank) (hrest : t.rest = .acquire mode l :: rest) {status : Status L}
    (hstatus : ({ t with status := status } : Thread L).awaits = some (mode, l)) :
    Thread.Orderly rank { t with status := status } := by
  refine ⟨h.disciplined, fun mode' l' hl => ⟨rest, ?_⟩⟩
  rw [hstatus] at hl
  cases hl
  exact hrest

theorem hold (h : t.Orderly rank) (hrest : t.rest = .acquire mode l :: rest) :
    (t.hold mode l).Orderly rank := by
  refine ⟨?_, fun mode' l' hl => by cases hl⟩
  have hd := (h.acquire hrest).2
  unfold Thread.hold
  rw [hrest]
  exact hd

theorem leave [DecidableEq L] (h : t.Orderly rank) (hstatus : t.status = .running)
    (hrest : t.rest = .release mode l :: rest) : (t.leave mode l).Orderly rank := by
  have hd := h.disciplined
  rw [hrest] at hd
  obtain ⟨outer, hheld, houter⟩ := hd
  constructor
  · unfold Thread.leave
    rw [hheld, hrest, List.erase_cons_head]
    exact houter
  · intro mode' l' hl
    unfold Thread.leave Thread.awaits at hl
    rw [hstatus] at hl
    cases hl

end Thread.Orderly

theorem orderly_update [DecidableEq ι] (h : ∀ j, (s j).Orderly rank) {i : ι} {u : Thread L}
    (hu : u.Orderly rank) : ∀ j, (Function.update s i u j).Orderly rank := by
  intro j
  by_cases hj : j = i
  · rw [hj, Function.update_self]
    exact hu
  · rw [Function.update_of_ne hj]
    exact h j

/-- The order is kept by every step. -/
theorem orderly_step [Fintype ι] [DecidableEq ι] [DecidableEq L] (h : ∀ j, (s j).Orderly rank)
    {i : ι} (hstep : step s i = some t) : ∀ j, (t j).Orderly rank := by
  cases effect hstep with
  | parks l rest _ hrest _ ht =>
    rw [ht]
    exact orderly_update h ((h i).wait hrest rfl)
  | enters l rest _ hrest _ ht =>
    rw [ht]
    exact orderly_update h ((h i).hold hrest)
  | queues l rest _ hrest ht =>
    rw [ht]
    exact orderly_update h ((h i).wait hrest rfl)
  | announces l hs _ ht =>
    have hrest : ∃ rest, (s i).rest = .acquire .write l :: rest := by
      rcases hs with ⟨_, hrest⟩ | hqueued
      · exact hrest
      · exact (h i).acquires .write l (by rw [Thread.awaits, hqueued])
    obtain ⟨rest, hrest⟩ := hrest
    rw [ht]
    exact orderly_update h ((h i).wait hrest rfl)
  | takes l hs _ ht =>
    obtain ⟨rest, hrest⟩ := (h i).acquires .write l (by rw [Thread.awaits, hs])
    rw [ht]
    exact orderly_update h ((h i).hold hrest)
  | leaves l rest hs hrest ht =>
    rw [ht]
    exact orderly_update h ((h i).leave hs hrest)
  | wakes l rest hs hrest ht =>
    have hleft := (h i).leave hs hrest
    rw [ht]
    intro j
    unfold wake
    split
    · rename_i hparked
      obtain ⟨rest', hrest'⟩ := (orderly_update h hleft j).acquires .read l (by
        rw [Thread.awaits, hparked])
      exact (orderly_update h hleft j).hold hrest'
    · exact orderly_update h hleft j

end Rank

section Progress

variable {s t : ι → Thread L}

/-- Whoever is parked has a writer to wake it. -/
def Attended (s : ι → Thread L) : Prop :=
  ∀ i l, (s i).status = .parked l → ∃ j, (s j).Writes l

theorem attended_update [DecidableEq ι] (h : Attended s) {i : ι} {u : Thread L}
    (hwrites : ∀ l, (s i).Writes l → u.Writes l)
    (hparked : ∀ l, u.status = .parked l → ∃ j, (s j).Writes l) :
    Attended (Function.update s i u) := by
  intro j l hj
  have hsome : ∃ k, (s k).Writes l := by
    by_cases hji : j = i
    · rw [hji, Function.update_self] at hj
      exact hparked l hj
    · rw [Function.update_of_ne hji] at hj
      exact h j l hj
  obtain ⟨k, hk⟩ := hsome
  refine ⟨k, ?_⟩
  by_cases hki : k = i
  · subst hki
    rw [Function.update_self]
    exact hwrites l hk
  · rw [Function.update_of_ne hki]
    exact hk

theorem Thread.Writes.hold {t : Thread L} {l l' : L} {mode : Mode} (h : t.Writes l)
    (hstatus : t.status ≠ .announced l) : (t.hold mode l').Writes l :=
  Or.inr (List.mem_cons_of_mem _ (h.resolve_left hstatus))

theorem attended_step [Fintype ι] [DecidableEq ι] [DecidableEq L] (h : Attended s) {i : ι}
    (hstep : step s i = some t) : Attended t := by
  have hrun {l l' : L} (hs : (s i).status = .running ∨ (s i).status = .queued l) :
      (s i).status ≠ .announced l' := by
    rcases hs with hs | hs <;> rw [hs] <;> exact fun heq => by cases heq
  have hwait {status : Status L} (hs : ∀ l, (s i).status ≠ .announced l) (l : L)
      (hw : (s i).Writes l) : Thread.Writes l { s i with status := status } :=
    Or.inr (hw.resolve_left (hs l))
  cases effect hstep with
  | parks l rest hs _ hwriter ht =>
    rw [ht]
    refine attended_update h (hwait fun l' => hrun (l := l) (Or.inl hs)) fun l' heq => ?_
    cases heq
    exact hwriter
  | enters l rest hs _ _ ht =>
    rw [ht]
    exact attended_update h (fun l' hw => hw.hold (hrun (l := l) (Or.inl hs)))
      fun l' heq => by cases heq
  | queues l rest hs _ ht =>
    rw [ht]
    exact attended_update h (hwait fun l' => hrun (l := l) (Or.inl hs)) fun l' heq => by cases heq
  | announces l hs _ ht =>
    rw [ht]
    exact attended_update h (hwait fun l' => hrun (hs.imp_left And.left)) fun l' heq => by cases heq
  | takes l hs _ ht =>
    rw [ht]
    refine attended_update h (fun l' hw => ?_) fun l' heq => by cases heq
    rcases hw with heq | hmem
    · rw [hs] at heq
      cases heq
      exact Or.inr List.mem_cons_self
    · exact Or.inr (List.mem_cons_of_mem _ hmem)
  | leaves l rest hs _ ht =>
    rw [ht]
    refine attended_update h (fun l' hw => ?_) fun l' heq => ?_
    · have hmem := hw.resolve_left (hrun (l := l) (Or.inl hs))
      exact Or.inr ((List.mem_erase_of_ne (fun heq => by cases heq)).mpr hmem)
    · have heq' : (s i).status = .parked l' := heq
      rw [hs] at heq'
      cases heq'
  | wakes l rest hs _ ht =>
    rw [ht]
    intro j l' hj
    unfold wake at hj
    split at hj
    · cases hj
    · rename_i hnot
      -- whoever is parked after the writer has left is so at another lock
      have hne : l ≠ l' := fun heq => hnot (heq ▸ hj)
      have hji : j ≠ i := by
        rintro rfl
        rw [Function.update_self] at hj
        have heq : (s j).status = .parked l' := hj
        rw [hs] at heq
        cases heq
      rw [Function.update_of_ne hji] at hj
      obtain ⟨k, hk⟩ := h j l' hj
      have hk' : (Function.update s i ((s i).leave .write l) k).Writes l' := by
        by_cases hki : k = i
        · rw [hki] at hk ⊢
          rw [Function.update_self]
          have hmem := hk.resolve_left (hrun (l := l) (Or.inl hs))
          exact Or.inr ((List.mem_erase_of_ne fun heq => hne (congrArg Prod.snd heq).symm).mpr hmem)
        · rwa [Function.update_of_ne hki]
      refine ⟨k, ?_⟩
      unfold wake
      split
      · rename_i hparked
        refine hk'.hold fun heq => ?_
        rw [hparked] at heq
        cases heq
      · exact hk'

/-- As long as a thread has something to do, some thread can take a step. -/
theorem exists_step [Fintype ι] [DecidableEq ι] [DecidableEq L] [LinearOrder α] {rank : L → α}
    (h : ∀ j, (s j).Orderly rank) (hattended : Attended s) {i : ι} (hi : (s i).rest ≠ []) :
    ∃ j, (step s j).isSome = true := by
  by_contra hstuck
  have hbusy {k : ι} {l : L} (hk : (s k).Writes l ∨ (s k).Reads l) : (s k).rest ≠ [] := by
    intro hnil
    have hdone := (h k).disciplined
    rw [hnil] at hdone
    have hheld : (s k).held = [] := hdone
    rcases hk with (hannounced | hmem) | hmem
    · obtain ⟨rest, hrest⟩ := (h k).acquires .write l (by rw [Thread.awaits, hannounced])
      rw [hnil] at hrest
      cases hrest
    · rw [hheld] at hmem
      cases hmem
    · rw [Thread.Reads, hheld] at hmem
      cases hmem
  -- if nobody can, everybody with something to do waits for another such thread
  refine not_deadlocked h {j | (s j).rest ≠ []} ⟨⟨i, hi⟩, fun j hj => ?_⟩
  have hnone : step s j = none := by
    rw [← Option.not_isSome_iff_eq_none]
    exact fun hsome => hstuck ⟨j, hsome⟩
  unfold step at hnone
  cases hs : (s j).status with
  | running =>
    rw [hs] at hnone
    dsimp only at hnone
    cases hrest : (s j).rest with
    | nil => exact absurd hrest hj
    | cons action rest =>
      rw [hrest] at hnone
      cases action with
      | acquire mode l =>
        cases mode with
        | read =>
          dsimp only at hnone
          split at hnone <;> cases hnone
        | write =>
          dsimp only at hnone
          split at hnone <;> cases hnone
      | release mode l => cases mode <;> cases hnone
  | parked l =>
    obtain ⟨k, hk⟩ := hattended j l hs
    refine ⟨k, hbusy (Or.inl hk), ?_⟩
    rw [WaitsFor, hs]
    exact hk
  | queued l =>
    rw [hs] at hnone
    dsimp only at hnone
    split at hnone
    · rename_i hwriter
      obtain ⟨k, hk⟩ := hwriter
      refine ⟨k, hbusy (Or.inl hk), ?_⟩
      rw [WaitsFor, hs]
      exact hk
    · cases hnone
  | announced l =>
    rw [hs] at hnone
    dsimp only at hnone
    split at hnone
    · rename_i hreader
      obtain ⟨k, hk⟩ := hreader
      refine ⟨k, hbusy (Or.inr hk), ?_⟩
      rw [WaitsFor, hs]
      exact hk
    · cases hnone

end Progress

section Exclusion

variable {s t : ι → Thread L}

/-- A thread holds a lock only once; one thread at most holds it for writing or has announced
itself, and nobody reads while one writes. -/
structure Exclusive (s : ι → Thread L) : Prop where
  nodup : ∀ i, ((s i).held.map Prod.snd).Nodup
  writer : ∀ i j l, (s i).Writes l → (s j).Writes l → i = j
  apart : ∀ i j l, (.write, l) ∈ (s i).held → ¬ (s j).Reads l

/-- One lock is not held in both modes. -/
theorem Thread.not_reads {t : Thread L} (hnodup : (t.held.map Prod.snd).Nodup) {l : L}
    (hwrite : (.write, l) ∈ t.held) : ¬ t.Reads l := by
  intro hread
  cases List.inj_on_of_nodup_map hnodup hwrite hread rfl

/-- One thread changes, and gains a lock only where the others leave it free. -/
theorem exclusive_update [DecidableEq ι] (h : Exclusive s) {i : ι} {u : Thread L}
    (hnodup : (u.held.map Prod.snd).Nodup)
    (hwrites : ∀ l, u.Writes l → (s i).Writes l ∨ ¬ ∃ j, (s j).Writes l)
    (hholds : ∀ l, (.write, l) ∈ u.held → (.write, l) ∈ (s i).held ∨ ¬ ∃ j, (s j).Reads l)
    (hreads : ∀ l, u.Reads l → (s i).Reads l ∨ ¬ ∃ j, (s j).Writes l) :
    Exclusive (Function.update s i u) := by
  have hother {j : ι} (hj : j ≠ i) : Function.update s i u j = s j := Function.update_of_ne hj ..
  have hself : Function.update s i u i = u := Function.update_self ..
  have hone {j : ι} {l : L} (hi : u.Writes l) (hj : (s j).Writes l) : i = j := by
    rcases hwrites l hi with hold | hfree
    · exact h.writer i j l hold hj
    · exact absurd ⟨j, hj⟩ hfree
  constructor
  case nodup =>
    intro j
    by_cases hj : j = i
    · rw [hj, hself]
      exact hnodup
    · rw [hother hj]
      exact h.nodup j
  case writer =>
    -- two writers: neither, one or both of them are the thread that changes
    intro j k l hwj hwk
    by_cases hj : j = i
    · by_cases hk : k = i
      · exact hj.trans hk.symm
      · rw [hj, hself] at hwj
        rw [hother hk] at hwk
        exact hj.trans (hone hwj hwk)
    · rw [hother hj] at hwj
      by_cases hk : k = i
      · rw [hk, hself] at hwk
        exact (hk.trans (hone hwk hwj)).symm
      · rw [hother hk] at hwk
        exact h.writer j k l hwj hwk
  case apart =>
    intro j k l hwj hrk
    by_cases hj : j = i
    · rw [hj, hself] at hwj
      by_cases hk : k = i
      · rw [hk, hself] at hrk
        exact Thread.not_reads hnodup hwj hrk
      · rw [hother hk] at hrk
        rcases hholds l hwj with hold | hfree
        · exact h.apart i k l hold hrk
        · exact hfree ⟨k, hrk⟩
    · rw [hother hj] at hwj
      by_cases hk : k = i
      · rw [hk, hself] at hrk
        rcases hreads l hrk with hold | hfree
        · exact h.apart j i l hwj hold
        · exact hfree ⟨j, Or.inr hwj⟩
      · rw [hother hk] at hrk
        exact h.apart j k l hwj hrk

/-- Readers may enter where nobody writes. -/
theorem exclusive_wake [DecidableEq L] (h : Exclusive s) {l : L} (hfree : ¬ ∃ j, (s j).Writes l)
    (hfresh : ∀ j, (s j).status = .parked l → ∀ mode, (mode, l) ∉ (s j).held) :
    Exclusive (wake l s) := by
  have hheld (j : ι) {p : Mode × L} (hp : p ∈ (wake l s j).held) :
      p ∈ (s j).held ∨ p = (.read, l) := by
    unfold wake at hp
    split at hp
    · exact (List.mem_cons.mp hp).symm
    · exact Or.inl hp
  have hwrite {j : ι} {l' : L} (hw : (.write, l') ∈ (wake l s j).held) :
      (.write, l') ∈ (s j).held :=
    (hheld j hw).resolve_right fun heq => by cases heq
  have hwrites {j : ι} {l' : L} (hw : (wake l s j).Writes l') : (s j).Writes l' := by
    rcases hw with hannounced | hmem
    · unfold wake at hannounced
      split at hannounced
      · cases hannounced
      · exact Or.inl hannounced
    · exact Or.inr (hwrite hmem)
  constructor
  case nodup =>
    intro j
    unfold wake
    split
    · -- a reader that is let in did not hold the lock it waited for
      rename_i hparked
      refine List.nodup_cons.mpr ⟨fun hmem => ?_, h.nodup j⟩
      obtain ⟨⟨mode, l'⟩, hp, heq⟩ := List.mem_map.mp hmem
      cases heq
      exact hfresh j hparked mode hp
    · exact h.nodup j
  case writer => exact fun j k l' hj hk => h.writer j k l' (hwrites hj) (hwrites hk)
  case apart =>
    intro j k l' hj hk
    rcases hheld k hk with hk | hk
    · exact h.apart j k l' (hwrite hj) hk
    · cases hk
      exact hfree ⟨j, Or.inr (hwrite hj)⟩

namespace Exclusive

variable {i : ι} {mode : Mode} {l : L} {rest : List (Action L)}

/-- A thread may begin to wait; it announces itself only where nobody writes. -/
theorem wait [DecidableEq ι] (h : Exclusive s) {status : Status L}
    (hstatus : ∀ l, status = .announced l → ¬ ∃ j, (s j).Writes l) :
    Exclusive (Function.update s i { s i with status := status }) := by
  refine exclusive_update h (h.nodup i) (fun l hw => ?_) (fun l => Or.inl) fun l => Or.inl
  rcases hw with hannounced | hmem
  · exact Or.inr (hstatus l hannounced)
  · exact Or.inl (Or.inr hmem)

/-- To release a lock is always safe. -/
theorem leave [DecidableEq ι] [DecidableEq L] (h : Exclusive s) (mode : Mode) (l : L) :
    Exclusive (Function.update s i ((s i).leave mode l)) := by
  have hsub : ((s i).leave mode l).held.Sublist (s i).held := List.erase_sublist
  refine exclusive_update h ((h.nodup i).sublist (hsub.map _)) (fun l' hw => Or.inl ?_)
    (fun l' hw => Or.inl (hsub.subset hw)) fun l' hr => Or.inl (hsub.subset hr)
  exact hw.imp id fun hmem => hsub.subset hmem

/-- A thread that keeps to the order acquires a lock that it does not hold yet. -/
theorem nodup_hold [LinearOrder α] {rank : L → α} (h : Exclusive s)
    (hord : (s i).Orderly rank) (hrest : (s i).rest = .acquire mode l :: rest) :
    (((s i).hold mode l).held.map Prod.snd).Nodup := by
  refine List.nodup_cons.mpr ⟨fun hmem => ?_, h.nodup i⟩
  obtain ⟨⟨mode', l'⟩, hp, heq⟩ := List.mem_map.mp hmem
  cases heq
  exact hord.not_held hrest mode' hp

/-- The writer that leaves was the only one. -/
theorem free_of_leave [DecidableEq ι] [DecidableEq L] [LinearOrder α] {rank : L → α}
    (h : Exclusive s) (hord : (s i).Orderly rank) (hs : (s i).status = .running)
    (hrest : (s i).rest = .release .write l :: rest) :
    ¬ ∃ j, (Function.update s i ((s i).leave .write l) j).Writes l := by
  have hdisciplined := hord.disciplined
  rw [hrest] at hdisciplined
  obtain ⟨outer, hheld, _⟩ := hdisciplined
  have hmine : (s i).Writes l := by
    refine Or.inr ?_
    rw [hheld]
    exact List.mem_cons_self
  rintro ⟨j, hj⟩
  by_cases hji : j = i
  · rw [hji, Function.update_self] at hj
    rcases hj with hannounced | hmem
    · -- it runs, and does not wait for another turn
      have heq : (s i).status = .announced l := hannounced
      rw [hs] at heq
      cases heq
    · -- what it has released it held only once
      have hnot := h.nodup i
      have hmem' : (Mode.write, l) ∈ (s i).held.erase (.write, l) := hmem
      rw [hheld, List.erase_cons_head] at hmem'
      rw [hheld] at hnot
      exact (List.nodup_cons.mp hnot).1 (List.mem_map_of_mem hmem')
  · rw [Function.update_of_ne hji] at hj
    exact hji (h.writer j i l hj hmine)

end Exclusive

/-- Mutual exclusion is kept by every step of threads that keep to the order. -/
theorem exclusive_step [LinearOrder α] {rank : L → α} [Fintype ι] [DecidableEq ι] [DecidableEq L]
    (hord : ∀ j, (s j).Orderly rank) (h : Exclusive s) {i : ι} (hstep : step s i = some t) :
    Exclusive t := by
  cases effect hstep with
  | parks l rest _ _ _ ht =>
    rw [ht]
    exact h.wait fun l' heq => by cases heq
  | enters l rest hs hrest hfree ht =>
    rw [ht]
    refine exclusive_update h (h.nodup_hold (hord i) hrest) (fun l' hw => ?_) (fun l' hw => ?_)
      fun l' hr => ?_
    · rcases hw with heq | hmem
      · cases heq
      · exact Or.inl (Or.inr ((List.mem_cons.mp hmem).resolve_left fun heq => by cases heq))
    · exact Or.inl ((List.mem_cons.mp hw).resolve_left fun heq => by cases heq)
    · -- a reader enters where nobody writes
      rcases List.mem_cons.mp hr with heq | hmem
      · cases heq
        exact Or.inr hfree
      · exact Or.inl hmem
  | queues l rest _ _ ht =>
    rw [ht]
    exact h.wait fun l' heq => by cases heq
  | announces l _ hfree ht =>
    rw [ht]
    refine h.wait fun l' heq => ?_
    cases heq
    exact hfree
  | takes l hs hfree ht =>
    obtain ⟨rest, hrest⟩ := (hord i).acquires .write l (by rw [Thread.awaits, hs])
    rw [ht]
    refine exclusive_update h (h.nodup_hold (hord i) hrest) (fun l' hw => Or.inl ?_)
      (fun l' hw => ?_) fun l' hr => ?_
    · -- it was the writer already when it announced itself
      rcases hw with heq | hmem
      · cases heq
      · rcases List.mem_cons.mp hmem with heq | hmem
        · cases heq
          exact Or.inl hs
        · exact Or.inr hmem
    · -- and now nobody reads any more
      rcases List.mem_cons.mp hw with heq | hmem
      · cases heq
        exact Or.inr hfree
      · exact Or.inl hmem
    · exact Or.inl ((List.mem_cons.mp hr).resolve_left fun heq => by cases heq)
  | leaves l rest _ _ ht =>
    rw [ht]
    exact h.leave .read l
  | wakes l rest hs hrest ht =>
    rw [ht]
    refine exclusive_wake (h.leave .write l) (h.free_of_leave (hord i) hs hrest)
      fun j hparked mode hmem => ?_
    have hordered : (Function.update s i ((s i).leave .write l) j).Orderly rank :=
      orderly_update hord ((hord i).leave hs hrest) j
    obtain ⟨rest', hrest'⟩ := hordered.acquires .read l (by rw [Thread.awaits, hparked])
    exact hordered.not_held hrest' mode hmem

end Exclusion

section Traces

/-- What is done under a lock. -/
def critical (mode : Mode) (l : L) (body : Language (Action L)) : Language (Action L) :=
  {[.acquire mode l]} * body * {[.release mode l]}

/-- The same, for one sequence of actions. -/
def locked (mode : Mode) (l : L) (w : List (Action L)) : List (Action L) :=
  [.acquire mode l] ++ w ++ [.release mode l]

theorem locked_mem_critical {mode : Mode} {l : L} {w : List (Action L)}
    {X : Language (Action L)} (hw : w ∈ X) : locked mode l w ∈ critical mode l X :=
  Language.append_mem_mul (Language.append_mem_mul rfl hw) rfl

theorem flatMap_mem_kstar {β : Type*} {X : Language (Action L)} {f : β → List (Action L)}
    (hf : ∀ b, f b ∈ X) (bs : List β) : bs.flatMap f ∈ KStar.kstar X := by
  refine Language.mem_kstar.mpr ⟨bs.map f, rfl, fun w hw => ?_⟩
  obtain ⟨b, _, rfl⟩ := List.mem_map.mp hw
  exact hf b

variable [LinearOrder α] {rank : L → α} {r : WithBot α} {X Y : Language (Action L)}

/-- Whoever holds locks of rank `r` at most can do this and stay disciplined. -/
def Above (rank : L → α) (r : WithBot α) (X : Language (Action L)) : Prop :=
  ∀ w ∈ X, ∀ held rest, (∀ p ∈ held, (rank p.2 : WithBot α) ≤ r) → Disciplined rank held rest →
    Disciplined rank held (w ++ rest)

theorem above_one : Above rank r (1 : Language (Action L)) := by
  intro w hw held rest _ hrest
  rw [(Language.mem_one w).mp hw]
  exact hrest

theorem above_mul (hX : Above rank r X) (hY : Above rank r Y) : Above rank r (X * Y) := by
  intro w hw held rest hheld hrest
  obtain ⟨a, ha, b, hb, rfl⟩ := Language.mem_mul.mp hw
  rw [List.append_assoc]
  exact hX a ha held (b ++ rest) hheld (hY b hb held rest hheld hrest)

theorem above_add (hX : Above rank r X) (hY : Above rank r Y) : Above rank r (X + Y) := by
  intro w hw
  exact ((Language.mem_add X Y w).mp hw).elim (hX w) (hY w)

theorem above_iSup {β : Sort*} {Z : β → Language (Action L)} (hZ : ∀ b, Above rank r (Z b)) :
    Above rank r (⨆ b, Z b) := by
  intro w hw
  obtain ⟨b, hb⟩ := Language.mem_iSup.mp hw
  exact hZ b w hb

theorem above_kstar (hX : Above rank r X) : Above rank r (KStar.kstar X) := by
  intro w hw held rest hheld hrest
  obtain ⟨ws, rfl, hws⟩ := Language.mem_kstar.mp hw
  clear hw
  induction ws with
  | nil => exact hrest
  | cons v ws ih =>
    rw [List.flatten_cons, List.append_assoc]
    refine hX v (hws v List.mem_cons_self) held _ hheld (ih fun u hu => ?_)
    exact hws u (List.mem_cons_of_mem v hu)

/-- A lock that ranks above what is held may be taken for what only needs locks above it. -/
theorem above_critical {mode : Mode} {l : L} (hl : r < rank l) (hX : Above rank (rank l) X) :
    Above rank r (critical mode l X) := by
  intro w hw held rest hheld hrest
  obtain ⟨a, ha, c, hc, rfl⟩ := Language.mem_mul.mp hw
  obtain ⟨b, hb, x, hx, rfl⟩ := Language.mem_mul.mp ha
  obtain rfl : b = [.acquire mode l] := hb
  obtain rfl : c = [.release mode l] := hc
  have hlt : ∀ p ∈ held, rank p.2 < rank l := fun p hp =>
    WithBot.coe_lt_coe.mp ((hheld p hp).trans_lt hl)
  have hbody : Disciplined rank ((mode, l) :: held) (x ++ (.release mode l :: rest)) := by
    refine hX x hx _ _ (fun p hp => ?_) ⟨held, rfl, hrest⟩
    rcases List.mem_cons.mp hp with rfl | hp
    · exact le_rfl
    · exact WithBot.coe_le_coe.mpr (hlt p hp).le
  rw [List.append_assoc, List.append_assoc]
  exact ⟨hlt, hbody⟩

/-- A thread with all this before it. -/
def Thread.start (w : List (Action L)) : Thread L := ⟨[], .running, w⟩

theorem orderly_start (hX : Above rank ⊥ X) {w : List (Action L)} (hw : w ∈ X) :
    (Thread.start w).Orderly rank := by
  refine ⟨?_, fun mode l hl => by cases hl⟩
  have hd := hX w hw [] [] (fun p hp => by cases hp) rfl
  rwa [List.append_nil] at hd

end Traces

end RWMutex
