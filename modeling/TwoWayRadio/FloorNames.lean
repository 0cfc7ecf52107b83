import TwoWayRadio.FloorHistory

/-! Runs in which no client changes its callsign: every message about a floor then carries the
names its client had at the start. -/
namespace TwoWayRadio
open Interleaving

/-- The two heaps give every client the same ID and callsign. -/
def Clients.SameNames (a b : Clients) : Prop :=
  ∀ x, (a x).id = (b x).id ∧ (a x).callsign = (b x).callsign

/-- The answers of `fields` while the clients are called what they are called in `heap`. -/
def HubOp.answersNames (heap : Clients) : (op : HubOp) → op.Res → Prop
  | fields x, f => f.id = (heap x).id ∧ f.callsign = (heap x).callsign
  | _, _ => True

def HubOp.renames : HubOp → Bool
  | setCallsign .. => true
  | _ => false

def ServerEvent.renames : ServerEvent → Bool
  | serve (.signal _ (.identify _) _) => true
  | _ => false

theorem Hub.setClient_sameNames {h : Hub} {x : ClientRef} {c : Client}
    (hc : c.id = (h.heap x).id ∧ c.callsign = (h.heap x).callsign) :
    (h.setClient x c).heap.SameNames h.heap := by
  intro y
  show ((Function.update h.heap x c) y).id = _ ∧ ((Function.update h.heap x c) y).callsign = _
  by_cases hy : y = x
  · rw [hy, Function.update_self]
    exact hc
  · rw [Function.update_of_ne hy]
    exact ⟨rfl, rfl⟩

theorem HubOp.sameNames_run {op : HubOp} (hop : op.renames = false) (h : Hub) :
    (op.run h).2.heap.SameNames h.heap := by
  have hsame : ∀ {h' : Hub}, h'.heap = h.heap → h'.heap.SameNames h.heap := by
    intro h' heq x
    rw [heq]
    exact ⟨rfl, rfl⟩
  cases op with
  | register client first =>
    show (h.register client first).2.heap.SameNames h.heap
    unfold Hub.register
    dsimp only
    split
    · exact Hub.setClient_sameNames (h := { h with clients := _, clientsByID := _ }) ⟨rfl, rfl⟩
    · exact hsame rfl
  | setRole client role => exact Hub.setClient_sameNames ⟨rfl, rfl⟩
  | setLocation client location => exact Hub.setClient_sameNames ⟨rfl, rfl⟩
  | setCurrentChannel client ch => exact Hub.setClient_sameNames ⟨rfl, rfl⟩
  | setCallsign client callsign => cases hop
  | addSubscriber ch client => exact hsame (Hub.onChannel_heap ..)
  | removeSubscriber ch client => exact hsame (Hub.onChannel_heap ..)
  | requestFloor ch client => exact hsame (Hub.onChannel_heap ..)
  | releaseFloor ch client => exact hsame (Hub.onChannel_heap ..)
  | handleTOT ch timer => exact hsame (Hub.onChannel_heap ..)
  | onTransmissionStart ch speaker => exact hsame (Hub.onRecorder_heap ..)
  | appendAudio ch payload => exact hsame (Hub.onRecorder_heap ..)
  | onTransmissionEnd ch => exact hsame (Hub.onRecorder_heap ..)
  | endVideo client =>
    refine hsame ?_
    simp only [run]
    split_ifs <;> rfl
  | _ => exact hsame rfl

/-- Nobody changes an ID. -/
theorem HubOp.id_run (op : HubOp) (h : Hub) (x : ClientRef) :
    ((op.run h).2.heap x).id = (h.heap x).id := by
  cases hop : op.renames with
  | false => exact (sameNames_run hop h x).1
  | true =>
    cases op with
    | setCallsign y callsign =>
      show ((Function.update h.heap y _) x).id = _
      by_cases hx : x = y
      · rw [hx, Function.update_self]
      · rw [Function.update_of_ne hx]
    | _ => cases hop

theorem Clients.SameNames.trans {a b c : Clients} (hab : a.SameNames b) (hbc : b.SameNames c) :
    a.SameNames c :=
  fun x => ⟨(hab x).1.trans (hbc x).1, (hab x).2.trans (hbc x).2⟩

theorem HubOp.answersNames_run {heap : Clients} {h : Hub} (hn : h.heap.SameNames heap)
    (op : HubOp) : op.answersNames heap (op.run h).1 := by
  cases op with
  | fields x => exact hn x
  | _ => trivial

/-- The floor history is sound and nobody has changed a name or is about to. -/
structure FloorHistory.Named (heap : Clients) (h : Hub) (task : Thread → HubProg Unit)
    (f : FloorHistory) : Prop where
  sound : Sound (HubOp.answersNames heap) h task f
  names : h.heap.SameNames heap
  keeps : ∀ i x, f.stance i ≠ .identifying x

theorem Stance.expects_renames {can : (op : HubOp) → op.Res → Prop} {i : Thread} {s : Stance}
    {op : HubOp} (hs : ∀ x, s ≠ .identifying x)
    (hok : op.background = true ∨ s.expects can i op) : op.renames = false := by
  cases op with
  | setCallsign x callsign =>
    rcases hok with hback | hexp
    · exact absurd hback Bool.false_ne_true
    · cases s with
      | identifying x => exact absurd rfl (hs x)
      | fresh => exact absurd hexp Bool.false_ne_true
      | _ => exact hexp.elim
  | _ => rfl

theorem Stance.next_ne_identifying {s : Stance} (hs : ∀ x, s ≠ .identifying x) (op : HubOp)
    (r : op.Res) (x : ClientRef) : s.next op r ≠ .identifying x := by
  fun_cases next s op r <;> first
    | exact hs x
    | exact Stance.noConfusion
    | exact told_rule (fun s => s ≠ .identifying x) (fun _ => Stance.noConfusion)
        Stance.noConfusion
    | exact elim_rule (fun s => s ≠ .identifying x) Stance.noConfusion
        fun _ => Stance.noConfusion

/-- Steps other than `identify` messages change no name. -/
theorem FloorHistory.named_step {γ : Type} {o : Observer γ} {floors : γ → FloorHistory}
    (ho : o.Tracks floors) {heap : Clients} {s t : Server γ} {e : ServerEvent}
    (he : e.renames = false) (hs : Named heap s.hub s.pool.task (floors s.history))
    (h : serverStep o s e = some t) : Named heap t.hub t.pool.task (floors t.history) := by
  refine ⟨sound_step ho (HubOp.answersNames_run hs.names) hs.sound h, ?_, ?_⟩
  · rcases serverStep_part (f := Hub.heap) (fun _ _ _ => rfl) h with
      hsame | ⟨i, op, k, _, hk, hhub⟩
    · rw [hsame]
      exact hs.names
    · have hfollows := hs.sound.follows i
      rw [hk] at hfollows
      rw [hhub]
      exact (HubOp.sameNames_run (Stance.expects_renames (hs.keeps i) hfollows.1) _).trans hs.names
  · cases e with
    | serve r =>
      obtain ⟨_, _, _, hshared, _⟩ := serverStep_serve h
      rw [Server.history, hshared, ho.starts]
      intro i x
      by_cases hi : i = r.thread
      · -- only `identify` starts with the callsign still to set
        have hstance : ((floors s.history).starts r).stance i = r.stance := by
          rw [hi]
          exact Function.update_self ..
        show ((floors s.history).starts r).stance i ≠ _
        rw [hstance]
        unfold Request.stance
        split
        · cases he
        all_goals exact Stance.noConfusion
      · show Function.update _ _ _ i ≠ _
        rw [Function.update_of_ne hi]
        exact hs.keeps i x
    | advance i =>
      obtain ⟨op, k, hk, _, _, hhist, _⟩ := serverStep_advance h
      rw [hhist, ho.sees]
      intro j x
      by_cases hj : j = i
      · rw [hj, sees_stance_self]
        exact Stance.next_ne_identifying (hs.keeps i) op _ x
      · rw [sees_stance_of_ne hj]
        exact hs.keeps j x
    | timerFires ch timer =>
      obtain ⟨_, _, hhist, _⟩ := serverStep_timerFires h
      rw [hhist]
      exact hs.keeps
    | tick d =>
      obtain ⟨_, _, hhist, _⟩ := serverStep_tick h
      rw [hhist]
      exact hs.keeps

theorem FloorHistory.named_init (cfg : Config) (recorder : Option AudioRecorder)
    (roipRelay : Bool) (heap : Clients) (now : ℤ) :
    Named heap (newHub cfg recorder roipRelay heap now) (fun _ => .ret ()) FloorHistory.init where
  sound := sound_init _ cfg recorder roipRelay heap now
  names := fun _ => ⟨rfl, rfl⟩
  keeps := fun _ _ => Stance.noConfusion

end TwoWayRadio
