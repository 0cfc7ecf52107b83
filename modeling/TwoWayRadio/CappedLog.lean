import Mathlib.Data.List.Induction
import Mathlib.Data.List.Infix
import Mathlib.Tactic.Linarith

/-! Logs of bounded length that drop whole what does not fit. -/
namespace CappedLog

variable {α : Type*} (cap : ℕ)

/-- The log with `p` behind it, where there is room for all of `p`. -/
def append (b p : List α) : List α := if cap < b.length + p.length then b else b ++ p

/-- The log after one item after the other. -/
def fill (ps : List (List α)) : List α := ps.foldl (append cap) []

/-- The length of a log after items of the given sizes. -/
def filled (sizes : List ℕ) : ℕ := sizes.foldl (fun k n => if cap < k + n then k else k + n) 0

/-- The sizes of the items that there is room for when they come. -/
def admitted (sizes : List ℕ) : List ℕ :=
  sizes.foldl (fun kept n => if cap < kept.sum + n then kept else kept ++ [n]) []

/-- An item that there is room for begins with what the log lacks of the stream by then, as far
as it goes. As long as no item has been dropped the log lacks nothing. -/
def Continues (ps : List (List α)) : Prop :=
  ∀ pre p, pre ++ [p] <+: ps → filled cap (pre.map List.length) + p.length ≤ cap →
    p <+: pre.flatten.drop (filled cap (pre.map List.length)) ++ p

variable {cap} {b p s : List α} {ps : List (List α)} {sizes : List ℕ} {n : ℕ}

theorem admitted_concat : admitted cap (sizes ++ [n]) =
    if cap < (admitted cap sizes).sum + n then admitted cap sizes
    else admitted cap sizes ++ [n] := by
  rw [admitted, List.foldl_append]
  rfl

theorem append_of_fits (h : b.length + p.length ≤ cap) : append cap b p = b ++ p :=
  if_neg (Nat.not_lt.mpr h)

theorem append_of_not_fits (h : cap < b.length + p.length) : append cap b p = b := if_pos h

theorem length_append_le (h : b.length ≤ cap) : (append cap b p).length ≤ cap := by
  rcases Nat.lt_or_ge cap (b.length + p.length) with hp | hp
  · rw [append_of_not_fits hp]
    exact h
  · rw [append_of_fits hp, List.length_append]
    exact hp

/-- What is added to a log that lacks the end of the stream must begin with what is missing, as
far as it goes. -/
theorem append_isPrefix_iff (h : b <+: s) :
    append cap b p <+: s ++ p ↔ (b.length + p.length ≤ cap → p <+: s.drop b.length ++ p) := by
  obtain ⟨missing, rfl⟩ := h
  rw [List.drop_left]
  rcases Nat.lt_or_ge cap (b.length + p.length) with hp | hp
  · rw [append_of_not_fits hp, List.append_assoc]
    exact ⟨fun _ hfits => absurd hfits (Nat.not_le.mpr hp), fun _ => List.prefix_append ..⟩
  · rw [append_of_fits hp, List.append_assoc, List.prefix_append_right_inj]
    exact ⟨fun hpre _ => hpre, fun hpre => hpre hp⟩

theorem fill_concat : fill cap (ps ++ [p]) = append cap (fill cap ps) p := by
  rw [fill, List.foldl_append]
  rfl

theorem length_fill : (fill cap ps).length = filled cap (ps.map List.length) := by
  induction ps using List.reverseRecOn with
  | nil => rfl
  | append_singleton ps p ih =>
    have hstep : filled cap ((ps ++ [p]).map List.length) =
        if cap < (fill cap ps).length + p.length then (fill cap ps).length
        else (fill cap ps).length + p.length := by
      rw [ih, filled, List.map_append, List.foldl_append]
      rfl
    rw [fill_concat, hstep]
    rcases Nat.lt_or_ge cap ((fill cap ps).length + p.length) with hp | hp
    · rw [append_of_not_fits hp, if_pos hp]
    · rw [append_of_fits hp, List.length_append, if_neg (Nat.not_lt.mpr hp)]

theorem length_fill_le : (fill cap ps).length ≤ cap := by
  induction ps using List.reverseRecOn with
  | nil => exact Nat.zero_le cap
  | append_singleton ps p ih =>
    rw [fill_concat]
    exact length_append_le ih

/-- The log has no gap at any time exactly when nothing that leaves one is let in. -/
theorem fill_isPrefix_iff :
    (∀ pre, pre <+: ps → fill cap pre <+: pre.flatten) ↔ Continues cap ps := by
  constructor
  · intro hall pre p hpre
    have hafter := hall _ hpre
    rw [fill_concat, List.flatten_concat] at hafter
    rw [← length_fill]
    exact (append_isPrefix_iff (hall pre ((List.prefix_append ..).trans hpre))).mp hafter
  · intro hcont pre
    induction pre using List.reverseRecOn with
    | nil => exact fun _ => List.prefix_rfl
    | append_singleton pre p ih =>
      intro hpre
      have hbefore := ih ((List.prefix_append ..).trans hpre)
      rw [fill_concat, List.flatten_concat]
      apply (append_isPrefix_iff hbefore).mpr
      rw [length_fill]
      exact hcont pre p hpre

/-- Nothing is dropped from a stream that fits as a whole. -/
theorem fill_of_fits (h : ps.flatten.length ≤ cap) : fill cap ps = ps.flatten := by
  induction ps using List.reverseRecOn with
  | nil => rfl
  | append_singleton ps p ih =>
    rw [List.flatten_concat, List.length_append] at h
    rw [fill_concat, ih (by omega), append_of_fits h, List.flatten_concat]

/-- Items of one size leave no gap: once one is dropped, so are all after it. -/
theorem fill_isPrefix_of_length (h : ∀ p ∈ ps, p.length = n) :
    fill cap ps <+: ps.flatten ∧ (fill cap ps = ps.flatten ∨ cap < (fill cap ps).length + n) := by
  induction ps using List.reverseRecOn with
  | nil => exact ⟨List.prefix_rfl, Or.inl rfl⟩
  | append_singleton ps p ih =>
    obtain ⟨hpre, hfull⟩ := ih fun q hq => h q (List.mem_append_left _ hq)
    have hp : p.length = n := h p (List.mem_append_right _ List.mem_cons_self)
    rw [fill_concat, List.flatten_concat]
    rcases Nat.lt_or_ge cap ((fill cap ps).length + p.length) with hlong | hfits
    · rw [append_of_not_fits hlong]
      exact ⟨hpre.trans (List.prefix_append ..), Or.inr (hp ▸ hlong)⟩
    · rcases hfull with hall | hfull
      · rw [append_of_fits hfits, hall]
        exact ⟨List.prefix_rfl, Or.inl rfl⟩
      · omega

theorem continues_of_length (h : ∀ p ∈ ps, p.length = n) : Continues cap ps :=
  fill_isPrefix_iff.mp fun _ hpre =>
    (fill_isPrefix_of_length fun p hp => h p (hpre.subset hp)).1

end CappedLog
