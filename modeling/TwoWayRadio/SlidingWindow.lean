import Mathlib.Data.List.DropRight
import Mathlib.Logic.Function.Basic

/-! Bounded histories: of a log whose entries belong to keys, each key keeps the last `n` entries
of its own. An implementation that appends to one history and cuts it back keeps all of them. -/
namespace SlidingWindow

variable {α κ : Type*} [DecidableEq κ] (n : ℕ) (key : α → κ)

theorem length_rtake_le (l : List α) : (l.rtake n).length ≤ n := by
  rw [List.rtake, List.length_drop]
  omega

theorem map_rtake {β : Type*} (f : α → β) (l : List α) : (l.rtake n).map f = (l.map f).rtake n := by
  rw [List.rtake, List.rtake, List.map_drop, List.length_map]

/-- A history that is cut back and then appended to has all that the next cut asks for. -/
theorem rtake_rtake_append (l m : List α) : (l.rtake n ++ m).rtake n = (l ++ m).rtake n := by
  simp only [List.rtake_eq_reverse_take_reverse, List.reverse_append, List.reverse_reverse]
  rw [List.take_append, List.take_append, List.take_take]
  congr 3
  omega

theorem mem_rtake_concat {l : List α} {a b : α} (hb : b ∈ (l ++ [a]).rtake n) :
    b ∈ l.rtake n ∨ b = a := by
  rw [← rtake_rtake_append] at hb
  have hmem := List.mem_of_mem_drop hb
  rwa [List.mem_append, List.mem_singleton] at hmem

theorem rtake_min_length (l : List α) : l.rtake (min n l.length) = l.rtake n := by
  rw [List.rtake, List.rtake]
  congr 1
  omega

/-- The entries of a log that belong to `k`, oldest first. -/
def entriesOf (log : List α) (k : κ) : List α := log.filter fun a => key a = k

/-- What each key has kept of a log. -/
def window (log : List α) (k : κ) : List α := (entriesOf key log k).rtake n

theorem entriesOf_append (log : List α) (a : α) (k : κ) :
    entriesOf key (log ++ [a]) k = entriesOf key log k ++ if key a = k then [a] else [] := by
  rw [entriesOf, List.filter_append, List.filter_singleton]
  by_cases hk : key a = k
  · simp [entriesOf, hk]
  · simp [entriesOf, hk]

/-- One more entry in the log is one append and one cut, on the key of the entry. -/
theorem window_append (log : List α) (a : α) :
    window n key (log ++ [a]) = Function.update (window n key log) (key a)
      ((window n key log (key a) ++ [a]).rtake n) := by
  ext1 k
  by_cases hk : k = key a
  · rw [hk, Function.update_self, window, entriesOf_append, if_pos rfl, window, rtake_rtake_append]
  · rw [Function.update_of_ne hk, window, entriesOf_append, if_neg (Ne.symm hk), List.append_nil,
      window]

theorem mem_window {log : List α} {a : α} {k : κ} (ha : a ∈ window n key log k) :
    a ∈ log ∧ key a = k := by
  obtain ⟨hlog, hkey⟩ := List.mem_filter.mp (List.mem_of_mem_drop ha)
  exact ⟨hlog, of_decide_eq_true hkey⟩

end SlidingWindow
