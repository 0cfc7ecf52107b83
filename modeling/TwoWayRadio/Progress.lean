import Mathlib.Algebra.BigOperators.Group.Finset.Basic
import Mathlib.Algebra.Order.BigOperators.Group.Finset
import Mathlib.Data.Fintype.Sum
import TwoWayRadio.CriticalSections

/-! How much threads under one lock have left to do: a number that each of their turns lowers.
As long as it is not used up, one of them can take a turn. -/

namespace Progress

variable {ι β : Type*} [Fintype ι] [DecidableEq ι]

/-- A sum of which one term changes. -/
theorem sum_update (f : β → ℕ) (s : ι → β) (i : ι) (u : β) :
    ∑ j, f (Function.update s i u j) + f (s i) = ∑ j, f (s j) + f u := by
  have hothers : ∑ j ∈ Finset.univ.erase i, f (Function.update s i u j) =
      ∑ j ∈ Finset.univ.erase i, f (s j) :=
    Finset.sum_congr rfl fun j hj => by rw [Function.update_of_ne (Finset.ne_of_mem_erase hj)]
  rw [← Finset.add_sum_erase _ _ (Finset.mem_univ i),
    ← Finset.add_sum_erase Finset.univ (fun j => f (s j)) (Finset.mem_univ i),
    Function.update_self, hothers]
  omega

end Progress

namespace Transition

variable {σ ε : Type*} {next : σ → ε → Option σ}

/-- Where each event of the system's own takes something off the work that is left, and no event
adds more than `c` to it, the system's own events are bounded by the others. -/
theorem Run.countP_le (own : ε → Bool) (work : σ → ℕ) (c : ℕ) {I : σ → Prop}
    (hstep : ∀ s e t, I s → next s e = some t → I t)
    (hown : ∀ s e t, I s → own e = true → next s e = some t → work t < work s)
    (hother : ∀ s e t, I s → own e = false → next s e = some t → work t ≤ work s + c)
    {s t : σ} {es : List ε} (r : Run next s es t) (hs : I s) :
    es.countP own + work t ≤ work s + c * es.countP fun e => !own e := by
  induction r with
  | nil _ => exact le_of_eq (Nat.zero_add _)
  | @cons s u t e es h _ ih =>
    have hrest := ih (hstep s e u hs h)
    cases he : own e with
    | true =>
      have hless := hown s e u hs he h
      rw [List.countP_cons_of_pos he, List.countP_cons_of_neg (by rw [he]; decide)]
      omega
    | false =>
      have hmore := hother s e u hs he h
      rw [List.countP_cons_of_neg (by rw [he]; decide), List.countP_cons_of_pos (by rw [he]; rfl),
        Nat.mul_succ]
      omega

end Transition

namespace Interleaving

variable {Op : Type} {Res : Op → Type} {α : Type} [∀ op, Fintype (Res op)]

/-- How many calls a program can come to make. -/
def Prog.depth : Prog Res α → ℕ
  | ret _ => 0
  | call _ k => (Finset.univ.sup fun r => (k r).depth) + 1

theorem Prog.depth_lt (op : Op) (k : Res op → Prog Res α) (r : Res op) :
    (k r).depth < (call op k).depth :=
  Nat.lt_succ_of_le (Finset.le_sup (f := fun r => (k r).depth) (Finset.mem_univ r))

end Interleaving

namespace RWMutex

variable {ι L : Type*}

def Status.todo : Status L → ℕ
  | .running => 2
  | .parked _ | .queued _ => 1
  | .announced _ => 0

/-- The steps that a thread can still take, the most advanced status counted least. -/
def Thread.todo (t : Thread L) : ℕ := 3 * t.rest.length + t.status.todo

theorem Thread.todo_hold {t : Thread L} {action : Action L} {rest : List (Action L)}
    (hrest : t.rest = action :: rest) (mode : Mode) (l : L) :
    (t.hold mode l).todo < t.todo := by
  have htail : (t.hold mode l).todo = 3 * rest.length + 2 := by
    rw [Thread.todo, Thread.hold, hrest, List.tail_cons]
    rfl
  rw [htail, Thread.todo, hrest, List.length_cons]
  omega

theorem Thread.todo_leave [DecidableEq L] {t : Thread L} {action : Action L}
    {rest : List (Action L)} (hrest : t.rest = action :: rest) (mode : Mode) (l : L) :
    (t.leave mode l).todo < t.todo := by
  have htail : (t.leave mode l).todo = 3 * rest.length + t.status.todo := by
    rw [Thread.todo, Thread.leave, hrest, List.tail_cons]
  rw [htail, Thread.todo, hrest, List.length_cons]
  omega

variable [Fintype ι] [DecidableEq ι]

theorem sum_todo_update {s : ι → Thread L} {i : ι} {u : Thread L} (hu : u.todo < (s i).todo) :
    ∑ j, (Function.update s i u j).todo < ∑ j, (s j).todo := by
  have hsum := Progress.sum_update Thread.todo s i u
  omega

/-- Each step leaves less to do. -/
theorem todo_step [DecidableEq L] {α : Type*} [LinearOrder α] {rank : L → α}
    {s t : ι → Thread L} {i : ι} (hord : ∀ j, (s j).Orderly rank) (hstep : step s i = some t) :
    ∑ j, (t j).todo < ∑ j, (s j).todo := by
  have hwait {status : Status L} (h : status.todo < (s i).status.todo) :
      Thread.todo { s i with status := status } < (s i).todo := Nat.add_lt_add_left h _
  cases effect hstep with
  | parks l rest hs _ _ ht =>
    rw [ht]
    exact sum_todo_update (hwait (by rw [hs]; exact Nat.lt_succ_self _))
  | enters l rest _ hrest _ ht =>
    rw [ht]
    exact sum_todo_update (Thread.todo_hold hrest .read l)
  | queues l rest hs _ ht =>
    rw [ht]
    exact sum_todo_update (hwait (by rw [hs]; exact Nat.lt_succ_self _))
  | announces l hs _ ht =>
    rw [ht]
    rcases hs with ⟨hs, _⟩ | hs
    · exact sum_todo_update (hwait (by rw [hs]; exact Nat.zero_lt_succ _))
    · exact sum_todo_update (hwait (by rw [hs]; exact Nat.lt_succ_self _))
  | takes l hs _ ht =>
    obtain ⟨rest, hrest⟩ := (hord i).acquires .write l (by rw [Thread.awaits, hs])
    rw [ht]
    exact sum_todo_update (Thread.todo_hold hrest .write l)
  | leaves l rest _ hrest ht =>
    rw [ht]
    exact sum_todo_update (Thread.todo_leave hrest .read l)
  | wakes l rest hs hrest ht =>
    rw [ht]
    -- the readers that wake up have less to do as well
    refine lt_of_le_of_lt (Finset.sum_le_sum fun j _ => ?_)
      (sum_todo_update (Thread.todo_leave hrest .write l))
    unfold wake
    split
    · rename_i hparked
      have hordered : (Function.update s i ((s i).leave .write l) j).Orderly rank :=
        orderly_update hord ((hord i).leave hs hrest) j
      obtain ⟨rest', hrest'⟩ := hordered.acquires .read l (by rw [Thread.awaits, hparked])
      exact (Thread.todo_hold hrest' .read l).le
    · exact le_rfl

/-- A thread whose only business is to write goes on with it, and is done when it has left. -/
theorem writer_step [DecidableEq L] {α : Type*} [LinearOrder α] {rank : L → α}
    {s t : ι → Thread L} (hord : ∀ j, (s j).Orderly rank) {i j : ι} (h : step s j = some t) {l : L}
    (hi : (s i).rest = locked .write l [] ∨ (s i).rest = [.release .write l]) :
    (t i).rest = locked .write l [] ∨ (t i).rest = [.release .write l] ∨
      (j = i ∧ (s i).rest = [.release .write l]) := by
  have hstay (hrest : (t i).rest = (s i).rest) : (t i).rest = locked .write l [] ∨
      (t i).rest = [.release .write l] ∨ (j = i ∧ (s i).rest = [.release .write l]) := by
    rw [hrest]
    exact hi.imp id Or.inl
  have hother {u : Thread L} (ht : t = Function.update s j u) (hne : i ≠ j) :
      (t i).rest = (s i).rest := by
    rw [ht, Function.update_of_ne hne]
  have hwait {status : Status L} (ht : t = Function.update s j { s j with status := status }) :
      (t i).rest = (s i).rest := by
    by_cases hij : i = j
    · rw [ht, hij, Function.update_self]
    · exact hother ht hij
  have hnot {l' : L} {rest : List (Action L)} : (s i).rest ≠ .acquire .read l' :: rest := by
    intro heq
    rw [heq] at hi
    rcases hi with h | h <;> cases h
  cases effect h with
  | parks l' rest _ _ _ ht => exact hstay (hwait ht)
  | enters l' rest _ hrest _ ht => exact hstay (hother ht fun hij => hnot (hij ▸ hrest))
  | queues l' rest _ _ ht => exact hstay (hwait ht)
  | announces l' _ _ ht => exact hstay (hwait ht)
  | takes l' hs _ ht =>
    by_cases hij : i = j
    · subst hij
      obtain ⟨rest, hrest⟩ := (hord i).acquires .write l' (by rw [Thread.awaits, hs])
      rcases hi with hlocked | hrelease
      · right
        left
        rw [ht, Function.update_self, Thread.hold, hlocked]
        rfl
      · rw [hrelease] at hrest
        cases hrest
    · exact hstay (hother ht hij)
  | leaves l' rest _ hrest ht =>
    refine hstay (hother ht ?_)
    rintro rfl
    rw [hrest] at hi
    rcases hi with h | h <;> cases h
  | wakes l' rest hs hrest ht =>
    by_cases hij : i = j
    · subst hij
      rcases hi with hlocked | hrelease
      · rw [hlocked] at hrest
        cases hrest
      · exact Or.inr (Or.inr ⟨rfl, hrelease⟩)
    · apply hstay
      rw [ht, wake, Function.update_of_ne hij]
      split
      · rename_i hparked
        obtain ⟨rest', hrest'⟩ := (hord i).acquires .read l' (by rw [Thread.awaits, hparked])
        exact (hnot hrest').elim
      · rfl

end RWMutex

namespace CriticalSections
open Interleaving RWMutex

variable {ι Op : Type} {Res : Op → Type} {σ : Type}

/-- Nobody is barred from the lock for ever. -/
theorem attended_start (s : σ) : Attended (Room.start s : Room ι Res σ).locks :=
  fun _ _ h => by cases h

variable [Fintype ι]

/-- What all threads have left to do, where a call under the lock counts `c`. -/
def Room.work [∀ op, Fintype (Res op)] (c : ℕ) (s : Room ι Res σ) : ℕ :=
  ∑ i, (s.locks i).todo + c * ∑ i, (s.body i).depth

variable [DecidableEq ι] {run : (op : Op) → σ → Res op × σ} {s t : Room ι Res σ}

section Work

variable [∀ op, Fintype (Res op)] {c : ℕ}

/-- A turn is a call under the lock, or it leaves what the lock protects as it is. -/
theorem Room.work_turn (hord : ∀ j, (s.locks j).Orderly rank) {i : ι}
    (ht : s.turn run i = some t) :
    (∃ op, t.shared = (run op s.shared).2 ∧ t.work c + c ≤ s.work c) ∨
      (t.shared = s.shared ∧ t.work c < s.work c) := by
  rcases Room.turn_eq ht with ⟨mode, rest, op, k, _, hbody, rfl⟩ | ⟨_, locks, hlocks, rfl⟩
  · left
    have hsum := Progress.sum_update Prog.depth s.body i (k (run op s.shared).1)
    have hdepth := Prog.depth_lt op k (run op s.shared).1
    rw [← hbody] at hdepth
    have hless : ∑ j, (Function.update s.body i (k (run op s.shared).1) j).depth + 1 ≤
        ∑ j, (s.body j).depth := by omega
    have hscaled := Nat.mul_le_mul_left c hless
    rw [Nat.mul_succ] at hscaled
    refine ⟨op, rfl, ?_⟩
    unfold Room.work
    dsimp only
    omega
  · right
    exact ⟨rfl, Nat.add_lt_add_right (todo_step hord hlocks) _⟩

/-- What a call adds. -/
theorem Room.work_enter {i : ι} {mode : Mode} {p : Prog Res Unit}
    (ht : s.enter i mode p = some t) : t.work c ≤ s.work c + 8 + c * p.depth := by
  unfold Room.enter at ht
  split at ht
  · rw [← Option.some.inj ht]
    have hlocks := Progress.sum_update Thread.todo s.locks i (Thread.start (locked mode () []))
    have hstart : (Thread.start (locked mode () [])).todo = 8 := rfl
    have hbody : ∑ j, (Function.update s.body i p j).depth ≤
        ∑ j, (s.body j).depth + p.depth :=
      Nat.le.intro (Progress.sum_update Prog.depth s.body i p)
    have hscaled := Nat.mul_le_mul_left c hbody
    rw [Nat.mul_add] at hscaled
    unfold Room.work
    dsimp only
    omega
  · cases ht

end Work

omit [Fintype ι] in
theorem attended_enter (hord : ∀ j, (s.locks j).Orderly rank) (h : Attended s.locks) {i : ι}
    {mode : Mode} {p : Prog Res Unit} (ht : s.enter i mode p = some t) : Attended t.locks := by
  unfold Room.enter at ht
  split at ht
  · rename_i hrest
    rw [← Option.some.inj ht]
    refine attended_update h (fun l hw => ?_) fun l hparked => by cases hparked
    -- whoever has nothing to do holds nothing and waits for nothing
    rcases hw with hannounced | hmem
    · obtain ⟨rest, hrest'⟩ := (hord i).acquires .write l (by rw [Thread.awaits, hannounced])
      rw [hrest] at hrest'
      cases hrest'
    · have hd := (hord i).disciplined
      rw [hrest] at hd
      have hheld : (s.locks i).held = [] := hd
      rw [hheld] at hmem
      cases hmem
  · cases ht

theorem attended_turn (h : Attended s.locks) {i : ι} (ht : s.turn run i = some t) :
    Attended t.locks := by
  rcases Room.turn_eq ht with ⟨_, _, _, _, _, _, rfl⟩ | ⟨_, locks, hlocks, rfl⟩
  · exact h
  · exact attended_step h hlocks

/-- As long as somebody is inside or on the way there, some thread can take a turn. -/
theorem exists_turn (run : (op : Op) → σ → Res op × σ) (hord : ∀ j, (s.locks j).Orderly rank)
    (h : Attended s.locks) {i : ι} (hi : (s.locks i).rest ≠ []) :
    ∃ j, (s.turn run j).isSome = true := by
  obtain ⟨j, hj⟩ := exists_step hord h hi
  refine ⟨j, ?_⟩
  unfold Room.turn
  split
  · rfl
  · rw [Option.isSome_map]
    exact hj

end CriticalSections
