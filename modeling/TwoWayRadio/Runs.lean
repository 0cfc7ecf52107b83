import Mathlib.Logic.Basic

/-! Runs of a partial step function along a list of events, with the rules that
carry a step fact to every state of a run. -/
namespace Transition

variable {σ ε : Type*}

/-- `Run next s es u`: the events `es` are all enabled in turn and lead from `s` to `u`. -/
inductive Run (next : σ → ε → Option σ) : σ → List ε → σ → Prop
  | nil (s : σ) : Run next s [] s
  | cons {s t u : σ} {e : ε} {es : List ε} (h : next s e = some t) (r : Run next t es u) :
      Run next s (e :: es) u

/-- Every step taken from `s` along `es` meets `P` in the state before it. -/
def Guarded (next : σ → ε → Option σ) (P : σ → ε → Prop) : σ → List ε → Prop
  | _, [] => True
  | s, e :: es => ∀ t, next s e = some t → P s e ∧ Guarded next P t es

variable {next : σ → ε → Option σ} {P G : σ → ε → Prop} {I : σ → Prop}

/-- A guard that can be checked step by step can be checked along a list of events. -/
instance Guarded.decidable [∀ s e, Decidable (P s e)] :
    ∀ s es, Decidable (Guarded next P s es)
  | _, [] => isTrue trivial
  | s, e :: es =>
    match h : next s e with
    | none => isTrue fun t ht => absurd (h.symm.trans ht) (Option.some_ne_none t).symm
    | some t =>
      have : Decidable (Guarded next P t es) := Guarded.decidable t es
      decidable_of_iff (P s e ∧ Guarded next P t es)
        ⟨fun hp _ hu => Option.some.inj (h.symm.trans hu) ▸ hp, fun hg => hg t h⟩

theorem Run.nil_iff {s u : σ} : Run next s [] u ↔ u = s := by
  constructor
  · intro r
    cases r
    rfl
  · rintro rfl
    exact Run.nil u

theorem Run.cons_iff {s u : σ} {e : ε} {es : List ε} :
    Run next s (e :: es) u ↔ ∃ t, next s e = some t ∧ Run next t es u := by
  constructor
  · intro r
    cases r with
    | cons h r => exact ⟨_, h, r⟩
  · rintro ⟨t, h, r⟩
    exact Run.cons h r

/-- A run is what folding the step function over the events computes. -/
theorem run_iff_foldlM (s u : σ) (es : List ε) :
    Run next s es u ↔ es.foldlM next s = some u := by
  induction es generalizing s with
  | nil =>
    rw [Run.nil_iff, List.foldlM_nil]
    exact ⟨fun h => h ▸ rfl, fun h => (Option.some.inj h).symm⟩
  | cons e es ih =>
    rw [Run.cons_iff, List.foldlM_cons]
    constructor
    · rintro ⟨t, h, r⟩
      rw [h]
      exact (ih t).mp r
    · intro h
      cases ht : next s e with
      | none => rw [ht] at h; cases h
      | some t =>
        rw [ht] at h
        exact ⟨t, rfl, (ih t).mpr h⟩

/-- A run of enabled events, with its last state computed. -/
theorem run_get (next : σ → ε → Option σ) (s : σ) (es : List ε)
    (h : (es.foldlM next s).isSome = true) :
    Run next s es ((es.foldlM next s).get h) :=
  (run_iff_foldlM s _ es).mpr (Option.some_get h).symm

theorem Run.append {s t u : σ} {es fs : List ε} (r : Run next s es t) (q : Run next t fs u) :
    Run next s (es ++ fs) u := by
  induction r with
  | nil _ => exact q
  | cons h _ ih => exact Run.cons h (ih q)

theorem Run.split {s u : σ} {es fs : List ε} (r : Run next s (es ++ fs) u) :
    ∃ t, Run next s es t ∧ Run next t fs u := by
  induction es generalizing s with
  | nil => exact ⟨s, Run.nil s, r⟩
  | cons e es ih =>
    obtain ⟨v, h, r⟩ := Run.cons_iff.mp r
    obtain ⟨t, r₁, r₂⟩ := ih r
    exact ⟨t, Run.cons h r₁, r₂⟩

/-- The last step of a run, for inductions that look at it. -/
theorem Run.snoc_iff {s u : σ} {e : ε} {es : List ε} :
    Run next s (es ++ [e]) u ↔ ∃ t, Run next s es t ∧ next t e = some u := by
  constructor
  · intro r
    obtain ⟨t, r₁, r₂⟩ := r.split
    obtain ⟨v, h, r₃⟩ := Run.cons_iff.mp r₂
    rw [Run.nil_iff] at r₃
    exact ⟨t, r₁, r₃ ▸ h⟩
  · rintro ⟨t, r, h⟩
    exact r.append (Run.cons h (Run.nil u))

/-- An invariant that every step meeting `P` keeps holds at the end of a run
all of whose steps meet `P`. -/
theorem Run.invariant_of_guarded {s u : σ} {es : List ε} (r : Run next s es u)
    (hstep : ∀ s e t, I s → P s e → next s e = some t → I t)
    (hg : Guarded next P s es) (hs : I s) : I u := by
  induction r with
  | nil _ => exact hs
  | cons h _ ih => exact ih (hg _ h).2 (hstep _ _ _ hs (hg _ h).1 h)

/-- An invariant of every step holds at the end of every run. -/
theorem Run.invariant {s u : σ} {es : List ε} (r : Run next s es u)
    (hstep : ∀ s e t, I s → next s e = some t → I t) (hs : I s) : I u := by
  induction r with
  | nil _ => exact hs
  | cons h _ ih => exact ih (hstep _ _ _ hs h)

theorem Guarded.prefix {s : σ} {es fs : List ε} (hg : Guarded next P s (es ++ fs)) :
    Guarded next P s es := by
  induction es generalizing s with
  | nil => trivial
  | cons e es ih => exact fun t h => ⟨(hg t h).1, ih (hg t h).2⟩

/-- The guard holds where a run takes its last step. -/
theorem Guarded.last {s t u : σ} {e : ε} {es : List ε} (hg : Guarded next P s (es ++ [e]))
    (r : Run next s es t) (h : next t e = some u) : P t e := by
  induction r with
  | nil _ => exact (hg u h).1
  | cons hstep _ ih => exact ih (hg _ hstep).2 h

theorem Guarded.append {s t : σ} {es fs : List ε} (hg : Guarded next P s es)
    (r : Run next s es t) (hf : Guarded next P t fs) : Guarded next P s (es ++ fs) := by
  induction r with
  | nil _ => exact hf
  | cons h _ ih =>
    intro u hu
    obtain rfl := Option.some.inj (h.symm.trans hu)
    obtain ⟨hp, hg⟩ := hg _ h
    exact ⟨hp, ih hg hf⟩

/-- A guard is strengthened along an invariant that the guard itself maintains. -/
theorem Guarded.mono {s : σ} {es : List ε} (hg : Guarded next P s es)
    (hstep : ∀ s e t, I s → P s e → next s e = some t → I t)
    (himp : ∀ s e, I s → P s e → G s e) (hs : I s) : Guarded next G s es := by
  induction es generalizing s with
  | nil => trivial
  | cons e es ih =>
    intro t h
    obtain ⟨hp, hg⟩ := hg t h
    exact ⟨himp s e hs hp, ih hg (hstep s e t hs hp h)⟩

/-- Two step conditions that agree under an invariant kept by the first agree
on whole runs. -/
theorem guarded_iff {s : σ} (es : List ε)
    (hstep : ∀ s e t, I s → P s e → next s e = some t → I t)
    (hiff : ∀ s e, I s → (P s e ↔ G s e)) (hs : I s) :
    Guarded next P s es ↔ Guarded next G s es := by
  constructor
  · exact fun hg => hg.mono hstep (fun s e hi => (hiff s e hi).mp) hs
  · exact fun hg => hg.mono (fun s e t hi hG => hstep s e t hi ((hiff s e hi).mpr hG))
      (fun s e hi => (hiff s e hi).mpr) hs

theorem Guarded.and_forall {E : ε → Prop} {s : σ} {es : List ε} (hg : Guarded next P s es)
    (he : ∀ e ∈ es, E e) : Guarded next (fun s e => E e ∧ P s e) s es := by
  induction es generalizing s with
  | nil => trivial
  | cons e es ih =>
    intro t h
    obtain ⟨hp, hg⟩ := hg t h
    exact ⟨⟨he e List.mem_cons_self, hp⟩, ih hg fun e' he' => he e' (List.mem_cons_of_mem e he')⟩

theorem Guarded.and {Q : σ → ε → Prop} {s : σ} {es : List ε} (hp : Guarded next P s es)
    (hq : Guarded next Q s es) : Guarded next (fun s e => P s e ∧ Q s e) s es := by
  induction es generalizing s with
  | nil => trivial
  | cons e es ih =>
    intro t h
    obtain ⟨hp, hps⟩ := hp t h
    obtain ⟨hq, hqs⟩ := hq t h
    exact ⟨⟨hp, hq⟩, ih hps hqs⟩

/-- What holds at the end of a run and could not have come to hold in it has held all along. -/
theorem Run.guarded_of_final {B : σ → Prop} {s u : σ} {es : List ε} (r : Run next s es u)
    (hback : ∀ s e t, next s e = some t → B t → B s) (hu : B u) :
    B s ∧ Guarded next (fun s e => ∀ t, next s e = some t → B t) s es := by
  induction r with
  | nil _ => exact ⟨hu, trivial⟩
  | cons h _ ih =>
    obtain ⟨hb, hg⟩ := ih hu
    refine ⟨hback _ _ _ h hb, fun t ht => ?_⟩
    obtain rfl := Option.some.inj (h.symm.trans ht)
    refine ⟨fun t' ht' => ?_, hg⟩
    obtain rfl := Option.some.inj (h.symm.trans ht')
    exact hb

/-- A property that lasts just through the steps that meet `P` holds at the end of a run if and
only if it holds at the start and all the steps meet `P`. -/
theorem Run.final_iff_guarded {Q : σ → Prop} {s u : σ} {es : List ε} (r : Run next s es u)
    (hg : Guarded next G s es) (hstep : ∀ s e t, I s → G s e → next s e = some t → I t)
    (hiff : ∀ s e t, I s → G s e → next s e = some t → (Q t ↔ Q s ∧ P s e)) (hs : I s) :
    Q u ↔ Q s ∧ Guarded next P s es := by
  induction r with
  | nil _ => exact (and_iff_left trivial).symm
  | cons h _ ih =>
    obtain ⟨hG, hg⟩ := hg _ h
    rw [ih hg (hstep _ _ _ hs hG h), hiff _ _ _ hs hG h, and_assoc]
    refine and_congr_right fun _ => ⟨fun hp t ht => ?_, fun hp => hp _ h⟩
    rw [← Option.some.inj (h.symm.trans ht)]
    exact hp

/-- `Q` holds at the start and after each step along `es`. -/
def Always (next : σ → ε → Option σ) (Q : σ → Prop) (s : σ) (es : List ε) : Prop :=
  Q s ∧ Guarded next (fun s e => ∀ t, next s e = some t → Q t) s es

/-- Holding always is holding at the end of every prefix of the run. -/
theorem always_iff {Q : σ → Prop} {s : σ} {es : List ε} :
    Always next Q s es ↔
      ∀ pre post t, es = pre ++ post → Run next s pre t → Q t := by
  constructor
  · rintro ⟨hs, hg⟩ pre post t rfl r
    exact r.invariant_of_guarded (fun s e t _ hq h => hq t h) hg.prefix hs
  · intro h
    induction es generalizing s with
    | nil => exact ⟨h [] [] s rfl (Run.nil s), trivial⟩
    | cons e es ih =>
      refine ⟨h [] (e :: es) s rfl (Run.nil s), fun t ht => ⟨fun u hu => ?_, ?_⟩⟩
      · exact h [e] es u rfl (Run.cons hu (Run.nil u))
      · refine (ih fun pre post u he r => ?_).2
        exact h (e :: pre) post u (by rw [he, List.cons_append]) (Run.cons ht r)

theorem always_and_iff {Q : σ → Prop} {s : σ} {es : List ε}
    (hstep : ∀ s e t, I s → next s e = some t → I t) (hs : I s) :
    Always next (fun s => I s ∧ Q s) s es ↔ Always next Q s es := by
  rw [always_iff, always_iff]
  constructor
  · exact fun h pre post t he r => (h pre post t he r).2
  · exact fun h pre post t he r => ⟨r.invariant hstep hs, h pre post t he r⟩

/-- A condition on steps that is, under an invariant, the same as `Q` holding after the step. -/
theorem always_iff_guarded {Q : σ → Prop} {s : σ} {es : List ε}
    (hiff : ∀ s e t, Q s → next s e = some t → (P s e ↔ Q t)) (hs : Q s) :
    Always next Q s es ↔ Guarded next P s es := by
  induction es generalizing s with
  | nil => exact ⟨fun _ => trivial, fun _ => ⟨hs, trivial⟩⟩
  | cons e es ih =>
    constructor
    · rintro ⟨_, hg⟩ t ht
      obtain ⟨hq, hg⟩ := hg t ht
      exact ⟨(hiff s e t hs ht).mpr (hq t ht), (ih (hq t ht)).mp ⟨hq t ht, hg⟩⟩
    · intro hg
      refine ⟨hs, fun t ht => ?_⟩
      obtain ⟨hp, hg⟩ := hg t ht
      have hq : Q t := (hiff s e t hs ht).mp hp
      refine ⟨fun u hu => ?_, ((ih hq).mpr hg).2⟩
      rw [ht] at hu
      exact Option.some.inj hu ▸ hq

section Map

variable {ε' : Type*} {next' : σ → ε' → Option σ} {g : ε → ε'}

/-- Two systems over the same states whose events correspond have the same guarded runs. -/
theorem guarded_map (hnext : ∀ s e, next s e = next' s (g e)) {P' : σ → ε' → Prop} {s : σ}
    (es : List ε) :
    Guarded next (fun s e => P' s (g e)) s es ↔ Guarded next' P' s (es.map g) := by
  induction es generalizing s with
  | nil => exact Iff.rfl
  | cons e es ih =>
    constructor
    · intro hg t h
      obtain ⟨hp, hrest⟩ := hg t ((hnext s e).trans h)
      exact ⟨hp, ih.mp hrest⟩
    · intro hg t h
      obtain ⟨hp, hrest⟩ := hg t ((hnext s e).symm.trans h)
      exact ⟨hp, ih.mpr hrest⟩

theorem always_map (hnext : ∀ s e, next s e = next' s (g e)) {Q : σ → Prop} {s : σ}
    (es : List ε) : Always next Q s es ↔ Always next' Q s (es.map g) := by
  let after : σ → ε' → Prop := fun s e => ∀ t, next' s e = some t → Q t
  have hguard : Guarded next (fun s e => after s (g e)) s es ↔
      Guarded next' after s (es.map g) := guarded_map hnext es
  unfold Always
  rw [← hguard]
  simp only [hnext, after]

end Map

end Transition
