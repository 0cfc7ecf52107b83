import TwoWayRadio.SendQueue

/-! A full queue makes room for a message by evicting its oldest one; who else can take that
room. -/
namespace TwoWayRadio
open BoundedChannel Interleaving Transition

/-- Any goroutines and `WritePump`, at one queue of an open client. -/
def queueStep (q : QueueKind) (s : Senders ℕ Frame) : Event ℕ Frame → Option (Senders ℕ Frame)
  | .put g data => s.start g (q.enqueue false data)
  | .advance g => s.advance (fun _ => Op.run q.size) g
  | .receive => receive s

theorem queueStep_eq (q : QueueKind) : queueStep q = next q.size := by
  funext s e
  cases e with
  | put g data => cases q <;> rfl
  | advance g => rfl
  | receive => rfl

/-- On an open client, no call returns without its message while an older one is queued if and only
if every second attempt finds room, or as many messages as the queue can hold were accepted since
its call began. -/
theorem newest_survives_iff (q : QueueKind) (es : List (Event ℕ Frame)) :
    Guarded (timed (queueStep q)) (NewestSurvives q.size) Timed.start es ↔
      Guarded (timed (queueStep q)) (Outrun q.size) Timed.start es := by
  rw [queueStep_eq]
  exact newest_survives_always_iff q.size es

/-- A full queue; the second sender puts its packet where the first has made room. -/
def crowdedOut : List (Event ℕ Frame) :=
  (List.replicate 64 (.binary [])).flatMap (fun data => [.put 0 data, .advance 0]) ++
    [.put 1 (.binary [1]), .advance 1, .advance 1, .put 2 (.binary [2]), .advance 2]

theorem crowdedOut_run :
    (crowdedOut.foldlM (timed (queueStep .send)) Timed.start).isSome = true := by
  decide +kernel

/-- What the second attempt of the first sender finds. -/
def crowded : Timed ℕ Frame :=
  (crowdedOut.foldlM (timed (queueStep .send)) Timed.start).get crowdedOut_run

/-- The packet of the first sender is discarded, and 63 older ones stay. -/
theorem newest_survives_fails : ¬ Guarded (timed (queueStep .send))
    (NewestSurvives QueueKind.send.size) Timed.start (crowdedOut ++ [.advance 1]) := by
  intro h
  have r : Run (timed (queueStep .send)) Timed.start crowdedOut crowded :=
    run_get _ _ _ crowdedOut_run
  obtain ⟨t, ht⟩ := Option.isSome_iff_exists.mp
    (show (timed (queueStep .send) crowded (.advance 1)).isSome = true by decide +kernel)
  have hbegan := (h.last r ht).newest 1 rfl (by decide +kernel) 1 (by decide +kernel)
  revert hbegan
  decide +kernel

end TwoWayRadio
