import TwoWayRadio.Interleaving
import TwoWayRadio.Runs
import Mathlib.Data.List.Perm.Basic
import Mathlib.Order.Basic
import Mathlib.Order.Nat

/-! A bounded channel whose senders never block: when it is full they evict the oldest element
and try once more. Any number of senders run against one reader. -/
namespace BoundedChannel
open Interleaving Transition

variable {α : Type}

/-- The other three lists record everything that has ever entered the channel, been read from it
or been evicted, oldest first. -/
structure Chan (α : Type) where
  buffer : List α := []
  accepted : List α := []
  received : List α := []
  evicted : List α := []

/-- The non-blocking operations. -/
inductive Op (α : Type)
  | trySend (a : α)
  | evict

@[reducible] def Op.Res : Op α → Type
  | trySend _ => Bool
  | evict => Unit

def Op.run (cap : ℕ) : (op : Op α) → Chan α → op.Res × Chan α
  | trySend a, c =>
    if c.buffer.length < cap then
      (true, { c with buffer := c.buffer ++ [a], accepted := c.accepted ++ [a] })
    else (false, c)
  | evict, c =>
    match c.buffer with
    | [] => ((), c)
    | a :: rest => ((), { c with buffer := rest, evicted := c.evicted ++ [a] })

/-- What the reader takes. -/
def Chan.take (c : Chan α) : Option (α × Chan α) :=
  match c.buffer with
  | [] => none
  | a :: rest => some (a, { c with buffer := rest, received := c.received ++ [a] })

theorem Chan.take_eq {c d : Chan α} {a : α} (h : c.take = some (a, d)) :
    c.buffer = a :: d.buffer ∧ d = { c with
      buffer := d.buffer, received := c.received ++ [a] } := by
  unfold take at h
  split at h
  · cases h
  · rename_i hbuf
    cases h
    exact ⟨hbuf, rfl⟩

/-- Another sender may fill the freed place first, and then the second attempt fails too. -/
def dropOldest (a : α) : Prog (Op.Res (α := α)) Unit := do
  let sent ← Prog.perform (.trySend a)
  if sent then pure ()
  else
    Prog.perform Op.evict
    let _ ← Prog.perform (.trySend a)
    pure ()

/-- A sender starts to send an element, makes its next attempt, or the reader takes the oldest. -/
inductive Event (ι α : Type)
  | put (i : ι) (a : α)
  | advance (i : ι)
  | receive

abbrev Senders (ι α : Type) := Pool ι (Op.Res (α := α)) (Chan α)

variable {ι : Type}

def init : Senders ι α := ⟨{}, fun _ => .ret ()⟩

def receive (s : Senders ι α) : Option (Senders ι α) :=
  match s.shared.buffer with
  | [] => none
  | a :: rest =>
    some { s with shared := { s.shared with
      buffer := rest, received := s.shared.received ++ [a] } }

def next [DecidableEq ι] (cap : ℕ) (s : Senders ι α) : Event ι α → Option (Senders ι α)
  | .put i a => s.start i (dropOldest a)
  | .advance i => s.advance (fun _ => Op.run cap) i
  | .receive => receive s

/-- Every accepted element has been read, has been evicted, or is still in the channel. -/
def Conserved (s : Senders ι α) : Prop :=
  s.shared.accepted.Perm (s.shared.received ++ s.shared.evicted ++ s.shared.buffer)

/-- No element of the kind `keep` is lost after it was accepted. -/
def Keeps (keep : α → Prop) [DecidablePred keep] (s : Senders ι α) : Prop :=
  (s.shared.accepted.filter keep).Perm ((s.shared.received ++ s.shared.buffer).filter keep) ∧
    ∀ a ∈ s.shared.evicted, ¬ keep a

/-- An eviction finds no element of the kind `keep` at the head. -/
def Spares (keep : α → Prop) (s : Senders ι α) (e : Event ι α) : Prop :=
  ∀ i k a rest, e = .advance i → s.task i = .call .evict k → s.shared.buffer = a :: rest → ¬ keep a

/-- As nothing vanishes, an element is kept if it is not evicted. -/
theorem keeps_iff {keep : α → Prop} [DecidablePred keep] {s : Senders ι α} (hs : Conserved s) :
    Keeps keep s ↔ ∀ a ∈ s.shared.evicted, ¬ keep a := by
  constructor
  · exact And.right
  · intro hspared
    refine ⟨(hs.filter keep).trans ?_, hspared⟩
    have hnone : s.shared.evicted.filter keep = [] :=
      List.filter_eq_nil_iff.mpr fun a ha => by simpa using hspared a ha
    simp [List.filter_append, hnone]

section Steps

variable [DecidableEq ι] {cap : ℕ} {s t : Senders ι α} {e : Event ι α}

/-- What a step can do to the channel. -/
inductive Effect (cap : ℕ) (s : Senders ι α) (e : Event ι α) (c : Chan α) : Prop
  | idle (hc : c = s.shared)
  | accepts (a : α) (hroom : s.shared.buffer.length < cap) (hc : c = { s.shared with
      buffer := s.shared.buffer ++ [a], accepted := s.shared.accepted ++ [a] })
  | evicts (i : ι) (k : Unit → Prog (Op.Res (α := α)) Unit) (a : α) (rest : List α)
      (he : e = .advance i) (hk : s.task i = .call .evict k) (hbuf : s.shared.buffer = a :: rest)
      (hc : c = { s.shared with buffer := rest, evicted := s.shared.evicted ++ [a] })
  | receives (a : α) (rest : List α) (hbuf : s.shared.buffer = a :: rest)
      (hc : c = { s.shared with buffer := rest, received := s.shared.received ++ [a] })

theorem effect (h : next cap s e = some t) : Effect cap s e t.shared := by
  cases e with
  | put i a =>
    obtain ⟨_, hshared, _⟩ := Pool.start_eq h
    exact .idle hshared
  | advance i =>
    have hstep : s.advance (fun _ => Op.run cap) i = some t := h
    obtain ⟨op, k, hk, hshared, _⟩ := Pool.advance_eq hstep
    rw [hshared]
    cases op with
    | trySend a =>
      simp only [Op.run]
      split_ifs with hroom
      · exact .accepts a hroom rfl
      · exact .idle rfl
    | evict =>
      simp only [Op.run]
      split
      · exact .idle rfl
      · rename_i a rest hbuf
        exact .evicts i k a rest rfl hk hbuf rfl
  | receive =>
    simp only [next, receive] at h
    split at h
    · cases h
    · rename_i a rest hbuf
      obtain rfl := Option.some.inj h
      exact .receives a rest hbuf rfl

theorem conserved_step (hs : Conserved s) (h : next cap s e = some t) : Conserved t := by
  unfold Conserved at hs ⊢
  cases effect h with
  | idle hc => rwa [hc]
  | accepts a _ hc =>
    rw [hc, ← List.append_assoc]
    exact hs.append_right [a]
  | evicts i k a rest _ _ hbuf hc =>
    rw [hbuf] at hs
    rw [hc]
    simpa using hs
  | receives a rest hbuf hc =>
    rw [hbuf] at hs
    rw [hc]
    refine hs.trans ?_
    simp only [List.append_assoc, List.singleton_append]
    exact List.Perm.append_left _ List.perm_middle

/-- A step from a state that keeps the kind keeps it if and only if it spares it. -/
theorem keeps_step {keep : α → Prop} [DecidablePred keep] (hs : Conserved s)
    (hkeeps : Keeps keep s) (h : next cap s e = some t) :
    Spares keep s e ↔ Keeps keep t := by
  rw [keeps_iff (conserved_step hs h)]
  have hold := hkeeps.2
  constructor
  · intro hspares a ha
    cases effect h with
    | idle hc => exact hold a (hc ▸ ha)
    | accepts b _ hc =>
      rw [hc] at ha
      exact hold a ha
    | evicts i k b rest he hk hbuf hc =>
      rw [hc] at ha
      rcases List.mem_append.mp ha with ha | ha
      · exact hold a ha
      · rw [List.mem_singleton.mp ha]
        exact hspares i k b rest he hk hbuf
    | receives b rest _ hc =>
      rw [hc] at ha
      exact hold a ha
  · -- an eviction puts the head of the buffer among the evicted
    rintro hspared i k a rest rfl hk hbuf
    refine hspared a ?_
    have hstep : s.advance (fun _ => Op.run cap) i = some t := h
    obtain ⟨op, k', hk', hshared, _⟩ := Pool.advance_eq hstep
    rw [hk] at hk'
    obtain ⟨rfl, _⟩ := Prog.call.inj hk'
    rw [hshared]
    simp [Op.run, hbuf]

end Steps

/-- Along any run of any number of senders and the reader, no accepted element of a kind is lost
if and only if no eviction finds one at the head of the channel. -/
theorem keeps_always_iff [DecidableEq ι] (cap : ℕ) (keep : α → Prop) [DecidablePred keep]
    (es : List (Event ι α)) :
    Always (next cap) (Keeps keep) init es ↔ Guarded (next cap) (Spares keep) init es := by
  have hinit : Conserved (init : Senders ι α) := List.Perm.refl _
  rw [← always_and_iff (I := Conserved) (fun _ _ _ hs h => conserved_step hs h) hinit]
  refine always_iff_guarded (fun s e t hs h => ?_) ⟨hinit, List.Perm.refl _, ?_⟩
  · rw [keeps_step hs.1 hs.2 h]
    exact (and_iff_right (conserved_step hs.1 h)).symm
  · exact fun a ha => (List.not_mem_nil ha).elim

/-! The elements in the channel are those that it accepted last, so an element is known by how many
were accepted before it. -/
section Ages

def Chan.gone (c : Chan α) : ℕ := c.received.length + c.evicted.length

/-- The element that was accepted after `n` others is in the channel. -/
def Chan.Holds (c : Chan α) (n : ℕ) : Prop := c.gone ≤ n ∧ n < c.accepted.length

instance (c : Chan α) (n : ℕ) : Decidable (c.Holds n) := inferInstanceAs (Decidable (_ ∧ _))

/-- The channel holds what it accepted last, and no more than it has room for. -/
structure Windowed (cap : ℕ) (c : Chan α) : Prop where
  buffer_eq : c.buffer = c.accepted.drop c.gone
  gone_le : c.gone ≤ c.accepted.length
  length_le : c.buffer.length ≤ cap

namespace Windowed

variable {cap : ℕ} {c : Chan α}

theorem empty (cap : ℕ) : Windowed cap ({} : Chan α) := ⟨rfl, le_rfl, Nat.zero_le cap⟩

theorem length_add (h : Windowed cap c) : c.buffer.length + c.gone = c.accepted.length := by
  rw [h.buffer_eq, List.length_drop]
  exact Nat.sub_add_cancel h.gone_le

theorem accepts (h : Windowed cap c) (hroom : c.buffer.length < cap) (a : α) :
    Windowed cap { c with buffer := c.buffer ++ [a], accepted := c.accepted ++ [a] } := by
  constructor
  · exact (congrArg (· ++ [a]) h.buffer_eq).trans (List.drop_append_of_le_length h.gone_le).symm
  · exact h.gone_le.trans (by simp)
  · rw [List.length_append]
    exact hroom

/-- Whichever way the oldest element leaves. -/
theorem leaves (h : Windowed cap c) {a : α} {rest : List α} (hbuf : c.buffer = a :: rest)
    {d : Chan α} (hd : d.buffer = rest) (haccepted : d.accepted = c.accepted)
    (hgone : d.gone = c.gone + 1) : Windowed cap d := by
  have hlength := h.length_add
  have hbound := h.length_le
  rw [hbuf, List.length_cons] at hlength hbound
  constructor
  · calc
      d.buffer = (a :: rest).tail := hd
      _ = (c.accepted.drop c.gone).tail := by rw [← hbuf, ← h.buffer_eq]
      _ = d.accepted.drop d.gone := by rw [List.tail_drop, haccepted, hgone]
  · rw [haccepted, hgone]
    omega
  · rw [hd]
    omega

end Windowed

variable [DecidableEq ι] {cap : ℕ}

theorem windowed_step {s t : Senders ι α} {e : Event ι α} (hs : Windowed cap s.shared)
    (h : next cap s e = some t) : Windowed cap t.shared := by
  cases effect h with
  | idle hc => rwa [hc]
  | accepts a hroom hc =>
    rw [hc]
    exact hs.accepts hroom a
  | evicts i k a rest _ _ hbuf hc =>
    rw [hc]
    refine hs.leaves hbuf rfl rfl ?_
    simp only [Chan.gone, List.length_append, List.length_singleton]
    omega
  | receives a rest hbuf hc =>
    rw [hc]
    refine hs.leaves hbuf rfl rfl ?_
    simp only [Chan.gone, List.length_append, List.length_singleton]
    omega

end Ages

/-! A sender's call that returns without its element. -/
section Newest

/-- For each sender, how much the channel had accepted when its call began. -/
structure Timed (ι α : Type) where
  senders : Senders ι α
  began : ι → ℕ

variable {cap : ℕ}

def Timed.start : Timed ι α := ⟨init, fun _ => 0⟩

def Timed.begin [DecidableEq ι] (s : Timed ι α) : Event ι α → ι → ℕ
  | .put i _ => Function.update s.began i s.senders.shared.accepted.length
  | _ => s.began

def timed [DecidableEq ι] (step : Senders ι α → Event ι α → Option (Senders ι α)) (s : Timed ι α)
    (e : Event ι α) : Option (Timed ι α) :=
  (step s.senders e).map fun t => ⟨t, s.begin e⟩

/-- The attempt that the sender makes next fails, and with it the call returns. -/
def givesUp (cap : ℕ) (s : Senders ι α) (i : ι) : Bool :=
  match s.task i with
  | .call (.trySend _) k => decide (cap ≤ s.shared.buffer.length) && (k false).nextCall.isNone
  | _ => false

/-- The second attempt. -/
def retry (a : α) : Prog (Op.Res (α := α)) Unit := .call (.trySend a) fun _ => .ret ()

def Retries (s : Senders ι α) (i : ι) : Prop := ∃ a, s.task i = retry a

theorem dropOldest_eq (a : α) : dropOldest a =
    .call (.trySend a) fun sent => if sent then .ret () else .call .evict fun _ => retry a := by
  refine congrArg (Prog.call (Op.trySend a)) (funext fun sent => ?_)
  cases sent <;> rfl

/-- No call returns without its element while an element that was in the channel before it is still
there, and the elements that are evicted are the oldest. -/
structure NewestSurvives [DecidableEq ι] (cap : ℕ) (s : Timed ι α) (e : Event ι α) : Prop where
  newest : ∀ i, e = .advance i → givesUp cap s.senders i = true →
    ∀ n, s.senders.shared.Holds n → s.began i ≤ n
  oldest : ∀ t, next cap s.senders e = some t → t.shared.evicted = s.senders.shared.evicted ∨
    ∃ a, s.senders.shared.buffer = a :: t.shared.buffer ∧
      t.shared.evicted = s.senders.shared.evicted ++ [a]

/-- A second attempt finds room, or by then so much else was accepted since the call began that
nothing older is left. -/
def Outrun (cap : ℕ) (s : Timed ι α) (e : Event ι α) : Prop :=
  ∀ i, e = .advance i → Retries s.senders i → cap ≤ s.senders.shared.buffer.length →
    s.began i + cap ≤ s.senders.shared.accepted.length

/-- Every sender is in one of the stages of a call. -/
def Stages (s : Senders ι α) : Prop :=
  ∀ i, s.Idle i ∨ (∃ a, s.task i = dropOldest a) ∨
    (∃ a, s.task i = .call .evict fun _ => retry a) ∨ Retries s i

theorem stages_step [DecidableEq ι] {s t : Senders ι α} {e : Event ι α} (hs : Stages s)
    (h : next cap s e = some t) : Stages t := by
  have hkeep {i : ι} (hothers : ∀ j, j ≠ i → t.task j = s.task j)
      (hi : t.Idle i ∨ (∃ a, t.task i = dropOldest a) ∨
        (∃ a, t.task i = .call .evict fun _ => retry a) ∨ Retries t i) : Stages t := by
    intro j
    by_cases hj : j = i
    · rw [hj]
      exact hi
    · have hstage := hs j
      unfold Retries Pool.Idle at hstage ⊢
      rwa [hothers j hj]
  cases e with
  | put i a =>
    obtain ⟨_, _, htask, hothers⟩ := Pool.start_eq h
    exact hkeep hothers (Or.inr (Or.inl ⟨a, htask⟩))
  | advance i =>
    have hstep : s.advance (fun _ => Op.run cap) i = some t := h
    obtain ⟨op, k, hk, _, htask, hothers⟩ := Pool.advance_eq hstep
    apply hkeep hothers
    -- first try, eviction, second try, end
    rcases hs i with hidle | ⟨a, hfirst⟩ | ⟨a, hevict⟩ | ⟨a, hretry⟩
    · exact (Pool.not_idle_of_call hk hidle).elim
    · rw [hfirst, dropOldest_eq] at hk
      obtain ⟨rfl, hk⟩ := Prog.call.inj hk
      rw [← eq_of_heq hk] at htask
      cases hsent : (Op.run cap (.trySend a) s.shared).1 with
      | true =>
        rw [hsent] at htask
        exact Or.inl htask
      | false =>
        rw [hsent] at htask
        exact Or.inr (Or.inr (Or.inl ⟨a, htask⟩))
    · rw [hevict] at hk
      obtain ⟨rfl, hk⟩ := Prog.call.inj hk
      rw [← eq_of_heq hk] at htask
      exact Or.inr (Or.inr (Or.inr ⟨a, htask⟩))
    · rw [hretry] at hk
      obtain ⟨rfl, hk⟩ := Prog.call.inj hk
      rw [← eq_of_heq hk] at htask
      exact Or.inl htask
  | receive =>
    simp only [next, receive] at h
    split at h
    · cases h
    · obtain rfl := Option.some.inj h
      exact hs

/-- A call returns without its element where its second attempt finds the channel full. -/
theorem givesUp_iff {s : Senders ι α} (hs : Stages s) (i : ι) :
    givesUp cap s i = true ↔ Retries s i ∧ cap ≤ s.shared.buffer.length := by
  have hother {p : Prog (Op.Res (α := α)) Unit} (hp : s.task i = p)
      (hne : ∀ a, p ≠ retry a) : ¬ (Retries s i ∧ cap ≤ s.shared.buffer.length) := by
    rintro ⟨⟨a, hretry⟩, _⟩
    exact hne a (hp.symm.trans hretry)
  unfold givesUp
  rcases hs i with hidle | ⟨a, hfirst⟩ | ⟨a, hevict⟩ | ⟨a, hretry⟩
  · rw [hidle]
    exact iff_of_false Bool.false_ne_true (hother hidle fun a heq => by cases heq)
  · rw [hfirst, dropOldest_eq]
    refine iff_of_false (fun h => ?_) (hother (hfirst.trans (dropOldest_eq a)) fun b heq => ?_)
    · simp [Prog.nextCall] at h
    · obtain ⟨hab, hk⟩ := Prog.call.inj heq
      cases hab
      cases congrFun (eq_of_heq hk) false
  · rw [hevict]
    exact iff_of_false Bool.false_ne_true (hother hevict fun a heq => by cases heq)
  · rw [hretry]
    unfold retry
    simp only [Prog.nextCall, Option.isNone_none, Bool.and_true, decide_eq_true_eq]
    exact (and_iff_right ⟨a, hretry⟩).symm

/-- What the argument keeps: the window, the stages, and that no call began in the future. -/
structure Kept (cap : ℕ) (s : Timed ι α) : Prop where
  windowed : Windowed cap s.senders.shared
  stages : Stages s.senders
  began_le : ∀ i, s.began i ≤ s.senders.shared.accepted.length

theorem kept_step [DecidableEq ι] {s t : Timed ι α} {e : Event ι α} (hs : Kept cap s)
    (h : timed (next cap) s e = some t) : Kept cap t := by
  obtain ⟨u, hu, rfl⟩ := Option.map_eq_some_iff.mp h
  refine ⟨windowed_step hs.windowed hu, stages_step hs.stages hu, fun i => ?_⟩
  have hgrow : s.senders.shared.accepted.length ≤ u.shared.accepted.length := by
    cases effect hu with
    | idle hc => rw [hc]
    | accepts a _ hc =>
      rw [hc, List.length_append]
      exact Nat.le_add_right _ _
    | evicts _ _ _ _ _ _ _ hc => rw [hc]
    | receives _ _ _ hc => rw [hc]
  have hbegin : s.begin e i ≤ s.senders.shared.accepted.length := by
    cases e with
    | put j a =>
      by_cases hj : i = j
      · rw [hj, Timed.begin, Function.update_self]
      · rw [Timed.begin, Function.update_of_ne hj]
        exact hs.began_le i
    | advance j => exact hs.began_le i
    | receive => exact hs.began_le i
  exact hbegin.trans hgrow

/-- What a full channel holds is what it accepted last, so nothing older than a call is left once
it has been filled anew since the call began. -/
theorem newestSurvives_iff [DecidableEq ι] {s : Timed ι α} {e : Event ι α} (hs : Kept cap s) :
    NewestSurvives cap s e ↔ Outrun cap s e := by
  have hlength := hs.windowed.length_add
  constructor
  · intro h i he hretry hfull
    have hle := hs.windowed.length_le
    have hbegan := hs.began_le i
    have hnewest := h.newest i he ((givesUp_iff hs.stages i).mpr ⟨hretry, hfull⟩)
    by_contra hlate
    have hheld : s.senders.shared.Holds s.senders.shared.gone := by
      constructor
      · exact le_rfl
      · omega
    have := hnewest _ hheld
    omega
  · intro h
    constructor
    · intro i he hgives n hn
      obtain ⟨hretry, hfull⟩ := (givesUp_iff hs.stages i).mp hgives
      have hlate := h i he hretry hfull
      have hgone := hn.1
      have hle := hs.windowed.length_le
      omega
    · intro t ht
      cases effect ht with
      | idle hc => exact Or.inl (by rw [hc])
      | accepts a _ hc => exact Or.inl (by rw [hc])
      | evicts i k a rest _ _ hbuf hc => exact Or.inr ⟨a, by rw [hc, hbuf], by rw [hc]⟩
      | receives a rest _ hc => exact Or.inl (by rw [hc])

/-- Along any run of any number of senders and the reader, the newest elements survive if and only
if no second attempt is left behind by the other senders. -/
theorem newest_survives_always_iff [DecidableEq ι] (cap : ℕ) (es : List (Event ι α)) :
    Guarded (timed (next cap)) (NewestSurvives cap) Timed.start es ↔
      Guarded (timed (next cap)) (Outrun cap) Timed.start es := by
  apply guarded_iff es (I := Kept cap)
  · exact fun s e t hs _ h => kept_step hs h
  · exact fun s e hs => newestSurvives_iff hs
  · exact ⟨Windowed.empty cap, fun i => Or.inl rfl, fun i => le_rfl⟩

end Newest

end BoundedChannel
