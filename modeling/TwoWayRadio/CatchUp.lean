import Mathlib.Data.List.Nodup
import Mathlib.Data.List.Range
import Mathlib.Logic.Function.Basic

/-! A reader that catches up with a log while it is being written. A writer appends an entry and
publishes it later; the reader takes a snapshot of the log, puts it later in the place of what it
has, and adds every entry that is published. -/
namespace CatchUp

variable {ι : Type}

/-- Entries are known by their number in the log. `pending` is what a writer has appended and not
yet published, and `copy` what the reader has. -/
structure State (ι : Type) where
  entries : ℕ := 0
  pending : ι → Option ℕ := fun _ => none
  snapshot : Option ℕ := none
  installed : Bool := false
  copy : List ℕ := []

inductive Event (ι : Type)
  | append (i : ι)
  | publish (i : ι)
  | snap
  | install

/-- The numbers of the entries that are pending are their own, and once the snapshot is installed
the reader has those of them that are in it. -/
structure Inv (s : State ι) : Prop where
  pending_lt : ∀ i k, s.pending i = some k → k < s.entries
  pending_inj : ∀ i j k, s.pending i = some k → s.pending j = some k → i = j
  snapshot_le : ∀ n ∈ s.snapshot, n ≤ s.entries
  caught : s.installed = true → ∃ n, s.snapshot = some n ∧
    ∀ i k, s.pending i = some k → s.copy.count k = if k < n then 1 else 0
  unwritten : s.installed = true → ∀ k, s.entries ≤ k → s.copy.count k = 0

theorem inv_init (n : ℕ) : Inv ({ entries := n } : State ι) where
  pending_lt := fun _ _ h => by cases h
  pending_inj := fun _ _ _ h => by cases h
  snapshot_le := fun _ h => by cases h
  caught := fun h => by cases h
  unwritten := fun h => by cases h

/-- The entry has been written and published. -/
def Settled (s : State ι) (k : ℕ) : Prop := k < s.entries ∧ ∀ i, s.pending i ≠ some k

/-- Every settled entry is in the copy once or, before there is a copy, in the snapshot. -/
def Right (s : State ι) : Prop := ∀ k, Settled s k →
  (s.installed = true → s.copy.count k = 1) ∧ (s.installed = false → ∀ n ∈ s.snapshot, k < n)

theorem right_init (n : ℕ) : Right ({ entries := n } : State ι) := by
  intro k _
  constructor
  · intro h
    cases h
  · intro _ m h
    cases h

/-- An entry is published before the snapshot is installed if it is in the snapshot or there is
none yet, and after that otherwise. -/
def InTurn (s : State ι) : Event ι → Prop
  | .publish i => ∀ k ∈ s.pending i, (s.installed = false ↔ ∀ n ∈ s.snapshot, k < n)
  | _ => True

instance (s : State ι) (e : Event ι) : Decidable (InTurn s e) := by
  unfold InTurn
  split <;> infer_instance

/-- When all is published, a copy is right that holds each entry exactly once. -/
theorem right_iff {s : State ι} (hinstalled : s.installed = true)
    (hnone : ∀ i, s.pending i = none) : Right s ↔ ∀ k < s.entries, s.copy.count k = 1 := by
  constructor
  · intro h k hk
    have hsettled : Settled s k := by
      refine ⟨hk, fun i hi => ?_⟩
      rw [hnone] at hi
      cases hi
    exact (h k hsettled).1 hinstalled
  · intro h k hk
    refine ⟨fun _ => h k hk.1, fun hnot => ?_⟩
    rw [hinstalled] at hnot
    cases hnot

section Step

variable [DecidableEq ι] {s t : State ι} {e : Event ι} {i : ι} {k n : ℕ}

def step (s : State ι) : Event ι → Option (State ι)
  | .append i =>
    if s.pending i = none then
      some { s with
        entries := s.entries + 1, pending := Function.update s.pending i (some s.entries) }
    else none
  | .publish i => (s.pending i).map fun k =>
    { s with pending := Function.update s.pending i none, copy := s.copy ++ [k] }
  | .snap => if s.snapshot = none then some { s with snapshot := some s.entries } else none
  | .install =>
    if s.installed then none
    else s.snapshot.map fun n => { s with installed := true, copy := List.range n }

theorem step_append (h : step s (.append i) = some t) : s.pending i = none ∧ t = { s with
    entries := s.entries + 1, pending := Function.update s.pending i (some s.entries) } := by
  simp only [step] at h
  split_ifs at h with hfree
  exact ⟨hfree, (Option.some.inj h).symm⟩

theorem step_publish (h : step s (.publish i) = some t) : ∃ k, s.pending i = some k ∧
    t = { s with pending := Function.update s.pending i none, copy := s.copy ++ [k] } := by
  obtain ⟨k, hk, ht⟩ := Option.map_eq_some_iff.mp h
  exact ⟨k, hk, ht.symm⟩

theorem step_snap (h : step s .snap = some t) :
    s.snapshot = none ∧ t = { s with snapshot := some s.entries } := by
  simp only [step] at h
  split_ifs at h with hnone
  exact ⟨hnone, (Option.some.inj h).symm⟩

theorem step_install (h : step s .install = some t) : s.installed = false ∧
    ∃ n, s.snapshot = some n ∧ t = { s with installed := true, copy := List.range n } := by
  simp only [step] at h
  split_ifs at h with hinstalled
  obtain ⟨n, hn, ht⟩ := Option.map_eq_some_iff.mp h
  exact ⟨Bool.not_eq_true _ |>.mp hinstalled, n, hn, ht.symm⟩

theorem count_range (k n : ℕ) : (List.range n).count k = if k < n then 1 else 0 := by
  rw [List.nodup_range.count]
  simp only [List.mem_range]

theorem pending_update {j : ι} {o : Option ℕ} (h : Function.update s.pending i o j = some k) :
    (j = i ∧ o = some k) ∨ (j ≠ i ∧ s.pending j = some k) := by
  by_cases hj : j = i
  · rw [hj, Function.update_self] at h
    exact Or.inl ⟨hj, h⟩
  · rw [Function.update_of_ne hj] at h
    exact Or.inr ⟨hj, h⟩

theorem pending_cleared {j : ι} (h : Function.update s.pending i none j = some k) :
    j ≠ i ∧ s.pending j = some k := by
  rcases pending_update h with ⟨_, heq⟩ | hold
  · cases heq
  · exact hold

theorem count_concat_of_ne {copy : List ℕ} (h : k ≠ n) : (copy ++ [n]).count k = copy.count k := by
  rw [List.count_append, List.count_singleton, if_neg (by simpa using h.symm), Nat.add_zero]

theorem Inv.append (hs : Inv s) (h : step s (.append i) = some t) : Inv t := by
  obtain ⟨_, rfl⟩ := step_append h
  refine ⟨fun j k hk => ?_, fun j j' k hj hj' => ?_, fun n hn => ?_, fun hin => ?_,
    fun hin k hk => ?_⟩
  · show k < s.entries + 1
    rcases pending_update hk with ⟨_, heq⟩ | ⟨_, hold⟩
    · have hk' := Option.some.inj heq
      omega
    · have hlt := hs.pending_lt j k hold
      omega
  · -- the new entry has a number that no writer has yet
    rcases pending_update hj with ⟨rfl, heq⟩ | ⟨_, hold⟩
    · rcases pending_update hj' with ⟨rfl, _⟩ | ⟨_, hold'⟩
      · rfl
      · have hlt := hs.pending_lt j' k hold'
        have hk := Option.some.inj heq
        omega
    · rcases pending_update hj' with ⟨rfl, heq⟩ | ⟨_, hold'⟩
      · have hlt := hs.pending_lt j k hold
        have hk := Option.some.inj heq
        omega
      · exact hs.pending_inj j j' k hold hold'
  · have hle := hs.snapshot_le n hn
    show n ≤ s.entries + 1
    omega
  · obtain ⟨n, hn, hcount⟩ := hs.caught hin
    refine ⟨n, hn, fun j k hk => ?_⟩
    rcases pending_update hk with ⟨_, heq⟩ | ⟨_, hold⟩
    · -- the new entry is in neither the snapshot nor the copy
      have hk' := Option.some.inj heq
      have hle := hs.snapshot_le n hn
      rw [if_neg (by omega)]
      exact hs.unwritten hin k (by omega)
    · exact hcount j k hold
  · have hk : s.entries + 1 ≤ k := hk
    exact hs.unwritten hin k (by omega)

theorem Inv.publish (hs : Inv s) (h : step s (.publish i) = some t) : Inv t := by
  obtain ⟨k₀, hk₀, rfl⟩ := step_publish h
  refine ⟨fun j k hk => hs.pending_lt j k (pending_cleared hk).2,
    fun j j' k hj hj' => hs.pending_inj j j' k (pending_cleared hj).2 (pending_cleared hj').2,
    hs.snapshot_le, fun hin => ?_, fun hin k hk => ?_⟩
  · obtain ⟨n, hn, hcaught⟩ := hs.caught hin
    refine ⟨n, hn, fun j k hk => ?_⟩
    obtain ⟨hj, hpending⟩ := pending_cleared hk
    have hne : k ≠ k₀ := by
      rintro rfl
      exact hj (hs.pending_inj j i k hpending hk₀)
    exact (count_concat_of_ne hne).trans (hcaught j k hpending)
  · have hlt := hs.pending_lt i k₀ hk₀
    have hk : s.entries ≤ k := hk
    exact (count_concat_of_ne (by omega)).trans (hs.unwritten hin k hk)

theorem Inv.step (hs : Inv s) (h : step s e = some t) : Inv t := by
  cases e with
  | append i => exact hs.append h
  | publish i => exact hs.publish h
  | snap =>
    obtain ⟨hnone, rfl⟩ := step_snap h
    refine ⟨hs.pending_lt, hs.pending_inj, fun n hn => ?_, fun hin => ?_, hs.unwritten⟩
    · exact (Option.some.inj hn).ge
    · obtain ⟨n, hn, _⟩ := hs.caught hin
      rw [hnone] at hn
      cases hn
  | install =>
    obtain ⟨_, n, hn, rfl⟩ := step_install h
    refine ⟨hs.pending_lt, hs.pending_inj, hs.snapshot_le, fun _ => ⟨n, hn, fun _ k _ =>
      count_range k n⟩, fun _ k hk => ?_⟩
    have hle := hs.snapshot_le n hn
    have hk : s.entries ≤ k := hk
    rw [show (List.range n).count k = _ from count_range k n, if_neg (by omega)]

theorem settled_append (h : step s (.append i) = some t) : Settled t k ↔ Settled s k := by
  obtain ⟨hfree, rfl⟩ := step_append h
  constructor
  · rintro ⟨hlt, hnot⟩
    -- the entry just written is pending, so it is not the settled one
    have hne : k ≠ s.entries := by
      rintro rfl
      exact hnot i (Function.update_self ..)
    refine ⟨?_, fun j hj => ?_⟩
    · have hlt : k < s.entries + 1 := hlt
      omega
    · have hji : j ≠ i := by
        rintro rfl
        rw [hfree] at hj
        cases hj
      exact hnot j ((Function.update_of_ne hji ..).trans hj)
  · rintro ⟨hlt, hnot⟩
    refine ⟨Nat.lt_succ_of_lt hlt, fun j hj => ?_⟩
    rcases pending_update hj with ⟨_, heq⟩ | ⟨_, hold⟩
    · have hk := Option.some.inj heq
      omega
    · exact hnot j hold

theorem settled_publish (hs : Inv s) (h : step s (.publish i) = some t)
    (hi : s.pending i = some n) : Settled t k ↔ Settled s k ∨ k = n := by
  obtain ⟨k₀, hk₀, rfl⟩ := step_publish h
  obtain rfl : k₀ = n := Option.some.inj (hk₀.symm.trans hi)
  constructor
  · rintro ⟨hlt, hnot⟩
    by_cases hk : k = k₀
    · exact Or.inr hk
    · refine Or.inl ⟨hlt, fun j hj => ?_⟩
      have hji : j ≠ i := by
        rintro rfl
        exact hk (Option.some.inj (hj.symm.trans hk₀))
      exact hnot j ((Function.update_of_ne hji ..).trans hj)
  · rintro (⟨hlt, hnot⟩ | rfl)
    · exact ⟨hlt, fun j hj => hnot j (pending_cleared hj).2⟩
    · refine ⟨hs.pending_lt i k hk₀, fun j hj => ?_⟩
      obtain ⟨hne, hpending⟩ := pending_cleared hj
      exact hne (hs.pending_inj j i k hpending hk₀)

theorem right_append (h : step s (.append i) = some t) : Right t ↔ Right s := by
  have hsettled := fun k => settled_append (k := k) h
  obtain ⟨_, rfl⟩ := step_append h
  constructor
  · exact fun hr k hk => hr k ((hsettled k).mpr hk)
  · exact fun hr k hk => hr k ((hsettled k).mp hk)

/-- A copy becomes wrong only by an entry published out of turn. -/
theorem right_publish (hs : Inv s) (h : step s (.publish i) = some t) :
    Right t ↔ Right s ∧ InTurn s (.publish i) := by
  obtain ⟨k₀, hk₀, ht⟩ := step_publish h
  have hsettled := fun k => settled_publish (k := k) hs h hk₀
  subst ht
  have hcount₀ : (s.copy ++ [k₀]).count k₀ = s.copy.count k₀ + 1 := by
    rw [List.count_append, List.count_singleton_self]
  -- the entry that is published is in its place if and only if it is in turn
  have hplace : ((s.installed = true → (s.copy ++ [k₀]).count k₀ = 1) ∧
      (s.installed = false → ∀ n ∈ s.snapshot, k₀ < n)) ↔ InTurn s (.publish i) := by
    have hturn : InTurn s (.publish i) ↔ (s.installed = false ↔ ∀ n ∈ s.snapshot, k₀ < n) := by
      constructor
      · exact fun hin => hin k₀ hk₀
      · intro hin k hk
        obtain rfl : k₀ = k := Option.some.inj (hk₀.symm.trans hk)
        exact hin
    rw [hturn]
    cases hinstalled : s.installed with
    | false => simp
    | true =>
      obtain ⟨n, hn, hcaught⟩ := hs.caught hinstalled
      rw [hcount₀, hcaught i k₀ hk₀, hn]
      simp only [Option.mem_def, Option.some.injEq, forall_eq', forall_const, reduceCtorEq,
        false_iff, false_implies, and_true]
      split_ifs with hlt
      · exact ⟨fun heq => by omega, fun hnot => absurd hlt hnot⟩
      · exact ⟨fun _ => hlt, fun _ => rfl⟩
  constructor
  · -- an entry settled before is not the one that is published
    intro hr
    refine ⟨fun k hk => ?_, hplace.mp (hr k₀ ((hsettled k₀).mpr (Or.inr rfl)))⟩
    have hne : k ≠ k₀ := by
      rintro rfl
      exact hk.2 i hk₀
    have hk' := hr k ((hsettled k).mpr (Or.inl hk))
    exact ⟨fun hin => (count_concat_of_ne hne).symm.trans (hk'.1 hin), hk'.2⟩
  · rintro ⟨hr, hturn⟩ k hk
    by_cases hne : k = k₀
    · rw [hne]
      exact hplace.mpr hturn
    · have hk' := hr k (((hsettled k).mp hk).resolve_right hne)
      exact ⟨fun hin => (count_concat_of_ne hne).trans (hk'.1 hin), hk'.2⟩

theorem right_snap (hs : Inv s) (h : step s .snap = some t) : Right t ∧ Right s := by
  obtain ⟨hnone, rfl⟩ := step_snap h
  have hout : s.installed ≠ true := by
    intro hin
    obtain ⟨n, hn, _⟩ := hs.caught hin
    rw [hnone] at hn
    cases hn
  constructor
  · intro k hk
    refine ⟨fun hin => absurd hin hout, fun _ n hn => ?_⟩
    rw [← Option.some.inj hn]
    exact hk.1
  · intro k _
    refine ⟨fun hin => absurd hin hout, fun _ n hn => ?_⟩
    rw [hnone] at hn
    cases hn

theorem right_install (h : step s .install = some t) : Right t ↔ Right s := by
  obtain ⟨hout, n, hn, rfl⟩ := step_install h
  have hcopy : ∀ k, (List.range n).count k = 1 ↔ k < n := by
    intro k
    rw [count_range]
    split_ifs with hlt
    · exact ⟨fun _ => hlt, fun _ => rfl⟩
    · exact ⟨fun heq => heq.elim, fun hk => absurd hk hlt⟩
  constructor
  · intro hr k hk
    refine ⟨fun hin => ?_, fun _ m hm => ?_⟩
    · rw [hout] at hin
      cases hin
    · obtain rfl : n = m := Option.some.inj (hn.symm.trans hm)
      exact (hcopy k).mp ((hr k hk).1 rfl)
  · intro hr k hk
    refine ⟨fun _ => (hcopy k).mpr ((hr k hk).2 hout n hn), fun hin => ?_⟩
    cases hin

/-- The copy is right after a step if and only if it was before and the step is in turn. -/
theorem right_step (hs : Inv s) (h : step s e = some t) : Right t ↔ Right s ∧ InTurn s e := by
  cases e with
  | append i => exact (right_append h).trans (and_iff_left trivial).symm
  | publish i => exact right_publish hs h
  | snap =>
    have hr := right_snap hs h
    exact ⟨fun _ => ⟨hr.2, trivial⟩, fun _ => hr.1⟩
  | install => exact (right_install h).trans (and_iff_left trivial).symm

end Step

end CatchUp
