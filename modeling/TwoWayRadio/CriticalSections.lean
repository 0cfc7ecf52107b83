import TwoWayRadio.Interleaving
import TwoWayRadio.RWMutex

/-! Threads that call programs under one reader/writer lock. What the lock protects satisfies an
invariant whenever no writer is inside; readers, and whatever goes on without the lock, keep to a
frame. -/
namespace CriticalSections
open Interleaving RWMutex

variable {ι Op : Type} {Res : Op → Type} {σ : Type}

/-- A thread holds the lock or waits for it, and runs its program while it is inside. -/
structure Room (ι : Type) (Res : Op → Type) (σ : Type) where
  shared : σ
  locks : ι → Thread Unit
  body : ι → Prog Res Unit

def Room.start (s : σ) : Room ι Res σ := ⟨s, fun _ => Thread.start [], fun _ => .ret ()⟩

section Steps

variable [DecidableEq ι]

/-- An idle thread begins a call. -/
def Room.enter (i : ι) (mode : Mode) (p : Prog Res Unit) (s : Room ι Res σ) :
    Option (Room ι Res σ) :=
  if (s.locks i).rest = [] then
    some { s with
      locks := Function.update s.locks i (Thread.start (locked mode () []))
      body := Function.update s.body i p }
  else none

theorem Room.enter_shared {i : ι} {mode : Mode} {p : Prog Res Unit} {s t : Room ι Res σ}
    (h : s.enter i mode p = some t) : t.shared = s.shared := by
  unfold enter at h
  split at h
  · rw [← Option.some.inj h]
  · cases h

/-- The thread makes the next call of its program if it is inside, and else a step towards the
lock or out of it. -/
def Room.turn [Fintype ι] (run : (op : Op) → σ → Res op × σ) (i : ι) (s : Room ι Res σ) :
    Option (Room ι Res σ) :=
  match (s.locks i).rest, s.body i with
  | .release _ _ :: _, .call op k =>
    some { s with
      shared := (run op s.shared).2
      body := Function.update s.body i (k (run op s.shared).1) }
  | _, _ => (step s.locks i).map fun locks => { s with locks := locks }

theorem Room.turn_eq [Fintype ι] {run : (op : Op) → σ → Res op × σ} {i : ι} {s t : Room ι Res σ}
    (ht : s.turn run i = some t) :
    (∃ mode rest op k, (s.locks i).rest = .release mode () :: rest ∧ s.body i = .call op k ∧
      t = { s with shared := (run op s.shared).2,
                   body := Function.update s.body i (k (run op s.shared).1) }) ∨
    (((∃ mode rest, (s.locks i).rest = .release mode () :: rest) → s.body i = .ret ()) ∧
      ∃ locks, step s.locks i = some locks ∧ t = { s with locks := locks }) := by
  unfold Room.turn at ht
  split at ht
  · rename_i mode l rest op k hrest hbody
    exact Or.inl ⟨mode, rest, op, k, hrest, hbody, (Option.some.inj ht).symm⟩
  · rename_i hcases
    refine Or.inr ⟨?_, ?_⟩
    · rintro ⟨mode, rest, hrest⟩
      cases hbody : s.body i with
      | ret u => rfl
      | call op k => exact (hcases mode () rest op k hrest hbody).elim
    · obtain ⟨locks, hlocks, heq⟩ := Option.map_eq_some_iff.mp ht
      exact ⟨locks, hlocks, heq.symm⟩

/-- The thread's next step is to leave. -/
def Room.Leaves (mode : Mode) (i : ι) (s : Room ι Res σ) : Prop :=
  (s.locks i).rest = [.release mode ()] ∧ (s.body i).nextCall.isNone = true

instance (mode : Mode) (i : ι) (s : Room ι Res σ) : Decidable (s.Leaves mode i) :=
  inferInstanceAs (Decidable (_ ∧ _))

end Steps

/-- What a thread may rely on while it is inside, whatever its mode; what a writer may do beyond
that; the lock invariant; and what a thread has achieved when it leaves. -/
structure Policy (σ : Type) where
  frame : σ → σ → Prop
  write : σ → σ → Prop
  inv : σ → Prop
  exit : Mode → σ → Prop
  refl : ∀ s, frame s s
  trans : ∀ s t u, frame s t → frame t u → frame s u
  inv_frame : ∀ s t, frame s t → inv s → inv t
  exit_frame : ∀ mode s t, frame s t → exit mode s → exit mode t
  exit_inv : ∀ mode s, exit mode s → inv s

def Policy.guarantee (P : Policy σ) : Mode → σ → σ → Prop
  | .read => P.frame
  | .write => P.write

section Sound

variable (run : (op : Op) → σ → Res op × σ) (P : Policy σ)

/-- The rest of a program inside. -/
def Inside (mode : Mode) (p : Prog Res Unit) (s : σ) : Prop :=
  p.Outline run P.frame (P.guarantee mode) (fun _ => P.exit mode) s

/-- A program that may be called in this mode. -/
def Allowed (mode : Mode) (p : Prog Res Unit) : Prop := ∀ s, P.inv s → Inside run P mode p s

/-- Where a thread can stand. -/
inductive Stage (t : Thread Unit) (p : Prog Res Unit) (s : σ) : Prop
  | idle (hheld : t.held = []) (hrest : t.rest = [])
  | outside (mode : Mode) (hheld : t.held = [])
      (hrest : t.rest = [.acquire mode (), .release mode ()]) (hp : Allowed run P mode p)
  | inside (mode : Mode) (hheld : t.held = [(mode, ())]) (hrest : t.rest = [.release mode ()])
      (hp : Inside run P mode p s)

/-- There is only one lock. -/
def rank : Unit → ℕ := fun _ => 0

structure Sound (s : Room ι Res σ) : Prop where
  orderly : ∀ i, (s.locks i).Orderly rank
  exclusive : Exclusive s.locks
  stage : ∀ i, Stage run P (s.locks i) (s.body i) s.shared
  inv : (∀ i, (.write, ()) ∉ (s.locks i).held) → P.inv s.shared

variable {run P}

namespace Stage

variable {t : Thread Unit} {p : Prog Res Unit} {s u : σ} {mode : Mode}

theorem frame (h : Stage run P t p s) (hsu : P.frame s u) : Stage run P t p u := by
  cases h with
  | idle hheld hrest => exact .idle hheld hrest
  | outside mode hheld hrest hp => exact .outside mode hheld hrest hp
  | inside mode hheld hrest hp =>
    exact .inside mode hheld hrest (hp.stable P.trans (fun _ => P.exit_frame mode) hsu)

theorem of_acquire (h : Stage run P t p s) {rest : List (Action Unit)}
    (hrest : t.rest = .acquire mode () :: rest) :
    t.held = [] ∧ t.rest = [.acquire mode (), .release mode ()] ∧ Allowed run P mode p := by
  cases h with
  | idle _ hnil =>
    rw [hnil] at hrest
    cases hrest
  | outside mode' hheld hacquire hp =>
    rw [hacquire] at hrest
    cases hrest
    exact ⟨hheld, hacquire, hp⟩
  | inside mode' _ hrelease _ =>
    rw [hrelease] at hrest
    cases hrest

theorem of_release (h : Stage run P t p s) {rest : List (Action Unit)}
    (hrest : t.rest = .release mode () :: rest) :
    t.held = [(mode, ())] ∧ t.rest = [.release mode ()] ∧ Inside run P mode p s := by
  cases h with
  | idle _ hnil =>
    rw [hnil] at hrest
    cases hrest
  | outside mode' _ hacquire _ =>
    rw [hacquire] at hrest
    cases hrest
  | inside mode' hheld hrelease hp =>
    rw [hrelease] at hrest
    cases hrest
    exact ⟨hheld, hrelease, hp⟩

theorem wait (h : Stage run P t p s) {rest : List (Action Unit)}
    (hrest : t.rest = .acquire mode () :: rest) (status : Status Unit) :
    Stage run P { t with status := status } p s := by
  obtain ⟨hheld, hrest, hp⟩ := h.of_acquire hrest
  exact .outside mode hheld hrest hp

theorem hold (h : Stage run P t p s) {rest : List (Action Unit)}
    (hrest : t.rest = .acquire mode () :: rest) (hs : P.inv s) :
    Stage run P (t.hold mode ()) p s := by
  obtain ⟨hheld, hrest, hp⟩ := h.of_acquire hrest
  apply Stage.inside mode
  · rw [Thread.hold, hheld]
  · rw [Thread.hold, hrest, List.tail_cons]
  · exact hp s hs

theorem leave (h : Stage run P t p s) {rest : List (Action Unit)}
    (hrest : t.rest = .release mode () :: rest) : Stage run P (t.leave mode ()) p s := by
  obtain ⟨hheld, hrest, _⟩ := h.of_release hrest
  apply Stage.idle
  · rw [Thread.leave, hheld, List.erase_cons_head]
  · rw [Thread.leave, hrest, List.tail_cons]

end Stage

namespace Sound

variable {s t : Room ι Res σ}

theorem init {s : σ} (hs : P.inv s) : Sound run P (Room.start s : Room ι Res σ) := by
  refine ⟨fun i => ⟨rfl, fun mode l hl => by cases hl⟩, ?_, fun i => .idle rfl rfl, fun _ => hs⟩
  constructor
  · exact fun i => List.nodup_nil
  · rintro i j l (hannounced | hheld) _
    · cases hannounced
    · cases hheld
  · intro i j l hheld
    cases hheld

/-- What happens without the lock. -/
theorem environment (h : Sound run P s) {u : σ} (hu : P.frame s.shared u) :
    Sound run P { s with shared := u } :=
  ⟨h.orderly, h.exclusive, fun i => (h.stage i).frame hu,
    fun hnone => P.inv_frame _ _ hu (h.inv hnone)⟩

/-- Whoever writes is alone inside. -/
theorem alone (h : Sound run P s) {i j : ι} (hi : (.write, ()) ∈ (s.locks i).held)
    {mode : Mode} (hj : (mode, ()) ∈ (s.locks j).held) : j = i := by
  cases mode with
  | read => exact (h.exclusive.apart i j () hi hj).elim
  | write => exact h.exclusive.writer j i () (Or.inr hj) (Or.inr hi)

section Steps

variable [DecidableEq ι]

theorem enter (h : Sound run P s) {i : ι} {mode : Mode} {p : Prog Res Unit}
    (hp : Allowed run P mode p) (ht : s.enter i mode p = some t) : Sound run P t := by
  unfold Room.enter at ht
  split at ht
  · rename_i hrest
    obtain rfl := Option.some.inj ht
    have hheld : (s.locks i).held = [] := by
      have hd := (h.orderly i).disciplined
      rw [hrest] at hd
      exact hd
    -- whoever enters has yet to acquire the lock
    have hstart : (Thread.start (locked mode () [])).Orderly rank := by
      constructor
      · exact ⟨fun p hp => (List.not_mem_nil hp).elim, [], rfl, rfl⟩
      · intro mode l hl
        cases hl
    have hfresh (l : Unit) : ¬ (Thread.start (locked mode () [])).Writes l := by
      rintro (hannounced | hmem)
      · cases hannounced
      · cases hmem
    constructor
    · exact orderly_update h.orderly hstart
    · apply exclusive_update h.exclusive
      · exact List.nodup_nil
      · exact fun l hw => (hfresh l hw).elim
      · exact fun l hw => by cases hw
      · exact fun l hr => by cases hr
    · intro j
      by_cases hj : j = i
      · simp only [hj, Function.update_self]
        exact .outside mode rfl rfl hp
      · simp only [Function.update_of_ne hj]
        exact h.stage j
    · intro hnone
      apply h.inv
      intro j hw
      by_cases hj : j = i
      · rw [hj, hheld] at hw
        cases hw
      · refine hnone j ?_
        simp only [Function.update_of_ne hj]
        exact hw
  · cases ht

/-- A step inside. -/
theorem turn_inside (h : Sound run P s) {i : ι} {mode : Mode} {rest : List (Action Unit)} {op : Op}
    {k : Res op → Prog Res Unit} (hrest : (s.locks i).rest = .release mode () :: rest)
    (hbody : s.body i = .call op k) :
    P.guarantee mode s.shared (run op s.shared).2 ∧
    Sound run P { s with shared := (run op s.shared).2,
                         body := Function.update s.body i (k (run op s.shared).1) } := by
  obtain ⟨hheld, hrelease, hp⟩ := (h.stage i).of_release hrest
  rw [hbody] at hp
  obtain ⟨hguarantee, hnext⟩ := hp.step P.refl
  refine ⟨hguarantee, h.orderly, h.exclusive, fun j => ?_, fun hnone => ?_⟩
  · by_cases hj : j = i
    · simp only [hj, Function.update_self]
      exact .inside mode hheld hrelease hnext
    · simp only [Function.update_of_ne hj]
      cases mode with
      | read => exact (h.stage j).frame hguarantee
      | write =>
        -- nobody else is inside, and those outside do not rely on the state
        have hwrite : (.write, ()) ∈ (s.locks i).held := by
          rw [hheld]
          exact List.mem_cons_self
        cases h.stage j with
        | idle hheld' hrest' => exact .idle hheld' hrest'
        | outside mode' hheld' hrest' hp' => exact .outside mode' hheld' hrest' hp'
        | inside mode' hheld' _ _ =>
          have hmem : (mode', ()) ∈ (s.locks j).held := by
            rw [hheld']
            exact List.mem_cons_self
          exact absurd (h.alone hwrite hmem) hj
  · cases mode with
    | read => exact P.inv_frame _ _ hguarantee (h.inv hnone)
    | write =>
      refine (hnone i ?_).elim
      rw [hheld]
      exact List.mem_cons_self

/-- A step towards the lock or out of it. -/
theorem turn_outside [Fintype ι] (h : Sound run P s) {i : ι}
    (hbody : (∃ mode rest, (s.locks i).rest = .release mode () :: rest) → s.body i = .ret ())
    {locks : ι → Thread Unit} (hstep : step s.locks i = some locks) :
    Sound run P { s with locks := locks } := by
  have horderly := orderly_step h.orderly hstep
  have hexclusive := exclusive_step h.orderly h.exclusive hstep
  -- one thread moves, and no writer is inside after that unless it was before
  have hmove {u : Thread Unit} (hlocks : locks = Function.update s.locks i u)
      (hu : Stage run P u (s.body i) s.shared)
      (hinv : (.write, ()) ∉ u.held → (∀ j, j ≠ i → (.write, ()) ∉ (s.locks j).held) →
        P.inv s.shared) : Sound run P { s with locks := locks } := by
    refine ⟨horderly, hexclusive, fun j => ?_, fun hnone => ?_⟩
    · by_cases hj : j = i
      · simp only [hj, hlocks, Function.update_self]
        exact hu
      · simp only [hlocks, Function.update_of_ne hj]
        exact h.stage j
    · apply hinv
      · have hi := hnone i
        simp only [hlocks, Function.update_self] at hi
        exact hi
      · intro j hj
        have hother := hnone j
        simp only [hlocks, Function.update_of_ne hj] at hother
        exact hother
  have hsame (hi : (.write, ()) ∉ (s.locks i).held)
      (hothers : ∀ j, j ≠ i → (.write, ()) ∉ (s.locks j).held) : P.inv s.shared := by
    apply h.inv
    intro j
    by_cases hj : j = i
    · rw [hj]
      exact hi
    · exact hothers j hj
  have hnoWriter (hfree : ¬ ∃ j, (s.locks j).Writes ()) : P.inv s.shared :=
    h.inv fun j hw => hfree ⟨j, Or.inr hw⟩
  cases effect hstep with
  | parks l rest _ hrest _ ht =>
    exact hmove ht ((h.stage i).wait hrest _) hsame
  | enters l rest _ hrest hfree ht =>
    have hinv := hnoWriter hfree
    exact hmove ht ((h.stage i).hold hrest hinv) fun _ _ => hinv
  | queues l rest _ hrest ht =>
    exact hmove ht ((h.stage i).wait hrest _) hsame
  | announces l hs hfree ht =>
    have hrest : ∃ rest, (s.locks i).rest = .acquire .write l :: rest := by
      rcases hs with ⟨_, hrest⟩ | hqueued
      · exact hrest
      · exact (h.orderly i).acquires .write l (by rw [Thread.awaits, hqueued])
    obtain ⟨rest, hrest⟩ := hrest
    exact hmove ht ((h.stage i).wait hrest _) hsame
  | takes l hs _ ht =>
    obtain ⟨rest, hrest⟩ := (h.orderly i).acquires .write l (by rw [Thread.awaits, hs])
    -- the writer that takes the lock was the only one to announce itself
    have hinv : P.inv s.shared := by
      apply h.inv
      intro j hw
      have hj : j = i := h.exclusive.writer j i l (Or.inr hw) (Or.inl hs)
      rw [hj, ((h.stage i).of_acquire hrest).1] at hw
      cases hw
    exact hmove ht ((h.stage i).hold hrest hinv) fun _ _ => hinv
  | leaves l rest _ hrest ht =>
    obtain ⟨_, _, hp⟩ := (h.stage i).of_release hrest
    rw [hbody ⟨.read, rest, hrest⟩] at hp
    exact hmove ht ((h.stage i).leave hrest) fun _ _ => P.exit_inv _ _ hp
  | wakes l rest _ hrest ht =>
    obtain ⟨_, _, hp⟩ := (h.stage i).of_release hrest
    rw [hbody ⟨.write, rest, hrest⟩] at hp
    have hinv : P.inv s.shared := P.exit_inv _ _ hp
    have hleft (j : ι) : Stage run P (Function.update s.locks i ((s.locks i).leave .write l) j)
        (s.body j) s.shared := by
      by_cases hj : j = i
      · rw [hj, Function.update_self]
        exact (h.stage i).leave hrest
      · rw [Function.update_of_ne hj]
        exact h.stage j
    refine ⟨horderly, hexclusive, fun j => ?_, fun _ => hinv⟩
    simp only [ht, wake]
    split
    · rename_i hparked
      have hordered : (Function.update s.locks i ((s.locks i).leave .write l) j).Orderly rank :=
        orderly_update h.orderly ((h.orderly i).leave ‹_› hrest) j
      obtain ⟨rest', hrest'⟩ := hordered.acquires .read l (by rw [Thread.awaits, hparked])
      exact (hleft j).hold hrest' hinv
    · exact hleft j

/-- Whatever a thread does, the rules stay kept, and what the lock protects changes only by the
frame or as a writer may change it. -/
theorem turn [Fintype ι] (h : Sound run P s) {i : ι} (ht : s.turn run i = some t) :
    Sound run P t ∧ (P.frame s.shared t.shared ∨ P.write s.shared t.shared) := by
  rcases Room.turn_eq ht with ⟨mode, rest, op, k, hrest, hbody, rfl⟩ | ⟨hbody, locks, hlocks, rfl⟩
  · obtain ⟨hguarantee, hsound⟩ := h.turn_inside hrest hbody
    refine ⟨hsound, ?_⟩
    cases mode with
    | read => exact Or.inl hguarantee
    | write => exact Or.inr hguarantee
  · exact ⟨h.turn_outside hbody hlocks, Or.inl (P.refl _)⟩

end Steps

/-- What a thread has achieved when it leaves. -/
theorem exit (h : Sound run P s) {i : ι} {mode : Mode} (hleaves : s.Leaves mode i) :
    P.exit mode s.shared := by
  obtain ⟨hrest, hbody⟩ := hleaves
  obtain ⟨_, _, hp⟩ := (h.stage i).of_release hrest
  cases hret : s.body i with
  | ret u =>
    rw [hret] at hp
    exact hp
  | call op k =>
    rw [hret] at hbody
    cases hbody

end Sound

end Sound

end CriticalSections
