import Mathlib.Data.Option.Basic
import Mathlib.Logic.Function.Basic
import Mathlib.Order.Lattice

/-! Rooms with one floor each. Whoever is in a room can have its floor for the asking, unless
somebody has it who does not rank lower. -/
namespace Rooms

variable {X C R : Type*}

/-- Who is where, with which rank, and who has which floor; only somebody in the room has it. -/
structure House (X C R : Type*) where
  place : X → Option C
  rank : X → R
  holder : C → Option X
  present : ∀ c x, holder c = some x → place x = some c

inductive Move (X C R : Type*)
  | goes (x : X) (dest : Option C)
  | ranks (x : X) (r : R)
  | asks (x : X) (c : C)
  | gives (x : X) (c : C)
  | expires (c : C)

namespace House

def empty (rank : X → R) : House X C R where
  place := fun _ => none
  rank := rank
  holder := fun _ => none
  present _ _ h := by cases h

@[simp] theorem empty_rank (rank : X → R) : (empty (C := C) rank).rank = rank := rfl

section Moves

variable [DecidableEq X] [DecidableEq C]

/-- Whoever leaves a room loses its floor. -/
def goes (x : X) (dest : Option C) (s : House X C R) : House X C R where
  place := Function.update s.place x dest
  rank := s.rank
  holder c := if s.holder c = some x ∧ dest ≠ some c then none else s.holder c
  present c y h := by
    split at h
    · cases h
    · rename_i hstays
      by_cases hy : y = x
      · subst hy
        rw [Function.update_self]
        by_contra hgone
        exact hstays ⟨h, hgone⟩
      · rw [Function.update_of_ne hy]
        exact s.present c y h

def ranks (x : X) (r : R) (s : House X C R) : House X C R :=
  { s with rank := Function.update s.rank x r }

def gives (x : X) (c : C) (s : House X C R) : House X C R where
  place := s.place
  rank := s.rank
  holder d := if d = c ∧ s.holder c = some x then none else s.holder d
  present d y h := by
    split at h
    · cases h
    · exact s.present d y h

def expires (c : C) (s : House X C R) : House X C R where
  place := s.place
  rank := s.rank
  holder d := if d = c then none else s.holder d
  present d y h := by
    split at h
    · cases h
    · exact s.present d y h

variable [LinearOrder R]

/-- Nobody keeps `x` from the floor of `c`. -/
def Yields (c : C) (x : X) (s : House X C R) : Prop :=
  ∀ y ∈ s.holder c, y = x ∨ s.rank y < s.rank x

instance (c : C) (x : X) (s : House X C R) : Decidable (s.Yields c x) :=
  inferInstanceAs (Decidable (∀ y ∈ s.holder c, _))

def asks (x : X) (c : C) (s : House X C R) : House X C R where
  place := s.place
  rank := s.rank
  holder d := if d = c ∧ s.place x = some c ∧ s.Yields c x then some x else s.holder d
  present d y h := by
    split at h
    · rename_i hgranted
      obtain ⟨rfl, hplace, _⟩ := hgranted
      rw [← Option.some.inj h]
      exact hplace
    · exact s.present d y h

def apply (s : House X C R) : Move X C R → House X C R
  | .goes x dest => s.goes x dest
  | .ranks x r => s.ranks x r
  | .asks x c => s.asks x c
  | .gives x c => s.gives x c
  | .expires c => s.expires c

/-- In the room, the floor goes to whoever asks just if nobody keeps it. -/
theorem asks_holder_iff {x : X} {c : C} {s : House X C R} (hx : s.place x = some c) :
    (s.asks x c).holder c = some x ↔ s.Yields c x := by
  show (if c = c ∧ s.place x = some c ∧ s.Yields c x then some x else s.holder c) = some x ↔ _
  split
  · rename_i hgranted
    exact iff_of_true rfl hgranted.2.2
  · rename_i hdenied
    have hno : ¬ s.Yields c x := fun hy => hdenied ⟨rfl, hx, hy⟩
    refine iff_of_false (fun h => hno fun y hy => ?_) hno
    rw [h] at hy
    exact Or.inl (Option.some.inj hy).symm

end Moves

end House

end Rooms
