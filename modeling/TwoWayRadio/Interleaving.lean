import Mathlib.Logic.Function.Basic
import Mathlib.Tactic.SplitIfs

/-! Threads as finite trees of atomic calls over a shared state: uninterrupted execution,
interleaved execution, and rely/guarantee outlines for one thread among others. -/
namespace Interleaving

variable {Op : Type} {Res : Op → Type} {α β : Type} {σ : Type*}

/-- A program returns, or makes one atomic call and goes on with its answer. -/
inductive Prog (Res : Op → Type) (α : Type) where
  | ret (a : α)
  | call (op : Op) (k : Res op → Prog Res α)

namespace Prog

def bind : Prog Res α → (α → Prog Res β) → Prog Res β
  | ret a, f => f a
  | call op k, f => call op fun r => (k r).bind f

instance : Monad (Prog Res) where
  pure := ret
  bind := bind

def perform (op : Op) : Prog Res (Res op) := call op ret

/-- The program `p` if `c` holds, else nothing. -/
def when (c : Prop) [Decidable c] (p : Prog Res Unit) : Prog Res Unit :=
  if c then p else ret ()

/-- What `f` does with the value of `o`, if it has one. -/
def ifSome (o : Option α) (f : α → Prog Res Unit) : Prog Res Unit :=
  match o with
  | some a => f a
  | none => ret ()

/-- The same program, with each of its calls made by way of another. -/
def lift {Op' : Type} {Res' : Op' → Type} (f : Op → Op') (g : (op : Op) → Res' (f op) → Res op) :
    Prog Res α → Prog Res' α
  | ret a => ret a
  | call op k => call (f op) fun r => (k (g op r)).lift f g

/-- The call a program makes next. -/
def nextCall : Prog Res α → Option Op
  | ret _ => none
  | call op _ => some op

@[simp] theorem pure_eq (a : α) : (pure a : Prog Res α) = ret a := rfl

@[simp] theorem ret_bind (a : α) (f : α → Prog Res β) : (ret a : Prog Res α) >>= f = f a := rfl

@[simp] theorem call_bind (op : Op) (k : Res op → Prog Res α) (f : α → Prog Res β) :
    (call op k : Prog Res α) >>= f = call op fun r => k r >>= f := rfl

@[simp] theorem perform_bind (op : Op) (f : Res op → Prog Res β) :
    (perform op : Prog Res (Res op)) >>= f = call op f := rfl

theorem bind_assoc {γ : Type} (p : Prog Res α) (f : α → Prog Res β) (g : β → Prog Res γ) :
    p >>= f >>= g = p >>= fun a => f a >>= g := by
  induction p with
  | ret a => rfl
  | call op k ih => exact congrArg (call op) (funext ih)

/-- Every call the program can come to make satisfies `P`. -/
def All (P : Op → Prop) : Prog Res α → Prop
  | ret _ => True
  | call op k => P op ∧ ∀ r, All P (k r)

theorem all_bind {P : Op → Prop} {p : Prog Res α} {f : α → Prog Res β}
    (hp : p.All P) (hf : ∀ a, (f a).All P) : (p >>= f).All P := by
  induction p with
  | ret a => exact hf a
  | call op k ih => exact ⟨hp.1, fun r => ih r (hp.2 r)⟩

theorem all_perform {P : Op → Prop} {op : Op} (h : P op) :
    (perform op : Prog Res (Res op)).All P :=
  ⟨h, fun _ => trivial⟩

theorem all_then {P : Op → Prop} {op : Op} {f : Res op → Prog Res α}
    (h : P op) (hf : ∀ r, (f r).All P) : ((perform op : Prog Res (Res op)) >>= f).All P :=
  ⟨h, hf⟩

theorem all_when {P : Op → Prop} {c : Prop} [Decidable c] {p : Prog Res Unit}
    (hp : p.All P) : (when c p).All P := by
  unfold when
  split_ifs
  · exact hp
  · trivial

theorem all_ifSome {P : Op → Prop} {o : Option α} {f : α → Prog Res Unit}
    (hf : ∀ a, (f a).All P) : (ifSome o f).All P := by
  cases o with
  | none => trivial
  | some a => exact hf a

theorem all_of_forall {P : Op → Prop} (hP : ∀ op, P op) (p : Prog Res α) : p.All P := by
  induction p with
  | ret a => trivial
  | call op k ih => exact ⟨hP op, ih⟩

theorem all_lift {Op' : Type} {Res' : Op' → Type} {f : Op → Op'}
    {g : (op : Op) → Res' (f op) → Res op} {P : Op' → Prop} (hf : ∀ op, P (f op))
    (p : Prog Res α) : (p.lift f g).All P := by
  induction p with
  | ret a => trivial
  | call op k ih => exact ⟨hf op, fun r => ih (g op r)⟩

theorem All.mono {P P' : Op → Prop} (himp : ∀ op, P op → P' op) {p : Prog Res α}
    (hp : p.All P) : p.All P' := by
  induction p with
  | ret a => trivial
  | call op k ih => exact ⟨himp op hp.1, fun r => ih r (hp.2 r)⟩

theorem All.and {P P' : Op → Prop} {p : Prog Res α} (hp : p.All P) (hp' : p.All P') :
    p.All fun op => P op ∧ P' op := by
  induction p with
  | ret a => trivial
  | call op k ih => exact ⟨⟨hp.1, hp'.1⟩, fun r => ih r (hp.2 r) (hp'.2 r)⟩

variable (run : (op : Op) → σ → Res op × σ)

/-- Execution without interruption. -/
def exec : Prog Res α → σ → α × σ
  | ret a, s => (a, s)
  | call op k, s => exec (k (run op s).1) (run op s).2

@[simp] theorem exec_ret (a : α) (s : σ) : (ret a : Prog Res α).exec run s = (a, s) := rfl

@[simp] theorem exec_call (op : Op) (k : Res op → Prog Res α) (s : σ) :
    (call op k).exec run s = (k (run op s).1).exec run (run op s).2 := rfl

theorem exec_bind (p : Prog Res α) (f : α → Prog Res β) (s : σ) :
    (p >>= f).exec run s = (f (p.exec run s).1).exec run (p.exec run s).2 := by
  induction p generalizing s with
  | ret a => rfl
  | call op k ih => exact ih (run op s).1 (run op s).2

/-- What `f` takes down of each call of an uninterrupted execution, in order. -/
def trace {τ : Type*} (f : Op → σ → List τ) : Prog Res α → σ → List τ
  | ret _, _ => []
  | call op k, s => f op s ++ trace f (k (run op s).1) (run op s).2

section Trace

variable {τ : Type*} (f : Op → σ → List τ)

@[simp] theorem trace_ret (a : α) (s : σ) : (ret a : Prog Res α).trace run f s = [] := rfl

@[simp] theorem trace_call (op : Op) (k : Res op → Prog Res α) (s : σ) :
    (call op k).trace run f s = f op s ++ (k (run op s).1).trace run f (run op s).2 := rfl

theorem trace_bind (p : Prog Res α) (g : α → Prog Res β) (s : σ) :
    (p >>= g).trace run f s =
      p.trace run f s ++ (g (p.exec run s).1).trace run f (p.exec run s).2 := by
  induction p generalizing s with
  | ret a => rfl
  | call op k ih =>
    rw [call_bind, trace_call, ih, ← List.append_assoc]
    rfl

/-- Calls of which nothing is taken down leave no trace. -/
theorem trace_of_all {P : Op → Prop} {p : Prog Res α} (hf : ∀ op s, P op → f op s = [])
    (hp : p.All P) (s : σ) : p.trace run f s = [] := by
  induction p generalizing s with
  | ret a => rfl
  | call op k ih => rw [trace_call, hf op s hp.1, ih _ (hp.2 _), List.append_nil]

end Trace

variable (R : σ → σ → Prop) (G : σ → σ → Prop)

/-- The rest of a thread, started from `s` among threads whose steps all satisfy the rely `R`:
its own steps satisfy the guarantee `G`, and it ends in a state satisfying `Q`. -/
def Outline (Q : α → σ → Prop) : Prog Res α → σ → Prop
  | ret a, s => Q a s
  | call op k, s => ∀ t, R s t →
      G t (run op t).2 ∧ Outline Q (k (run op t).1) (run op t).2

variable {run R G}

/-- The other threads may move between two steps of the thread. -/
theorem Outline.stable {Q : α → σ → Prop} {p : Prog Res α} {s t : σ}
    (htrans : ∀ s t u, R s t → R t u → R s u) (hQ : ∀ a s t, R s t → Q a s → Q a t)
    (h : p.Outline run R G Q s) (hst : R s t) : p.Outline run R G Q t := by
  cases p with
  | ret a => exact hQ a s t hst h
  | call op k => exact fun u hu => h u (htrans s t u hst hu)

theorem Outline.step {Q : α → σ → Prop} {op : Op} {k : Res op → Prog Res α} {s : σ}
    (hrefl : ∀ s, R s s) (h : (call op k).Outline run R G Q s) :
    G s (run op s).2 ∧ (k (run op s).1).Outline run R G Q (run op s).2 :=
  h s (hrefl s)

theorem Outline.mono {Q Q' : α → σ → Prop} {p : Prog Res α} {s : σ}
    (himp : ∀ a s, Q a s → Q' a s) (h : p.Outline run R G Q s) :
    p.Outline run R G Q' s := by
  induction p generalizing s with
  | ret a => exact himp a s h
  | call op k ih => exact fun t ht => ⟨(h t ht).1, ih _ (h t ht).2⟩

theorem Outline.and {G' : σ → σ → Prop} {Q Q' : α → σ → Prop} {p : Prog Res α} {s : σ}
    (h : p.Outline run R G Q s) (h' : p.Outline run R G' Q' s) :
    p.Outline run R (fun s t => G s t ∧ G' s t) (fun a s => Q a s ∧ Q' a s) s := by
  induction p generalizing s with
  | ret a => exact ⟨h, h'⟩
  | call op k ih => exact fun t ht => ⟨⟨(h t ht).1, (h' t ht).1⟩, ih _ (h t ht).2 (h' t ht).2⟩

theorem outline_bind {Q : α → σ → Prop} {Q' : β → σ → Prop} {p : Prog Res α}
    {f : α → Prog Res β} {s : σ} (hp : p.Outline run R G Q s)
    (hf : ∀ a t, Q a t → (f a).Outline run R G Q' t) :
    (p >>= f).Outline run R G Q' s := by
  induction p generalizing s with
  | ret a => exact hf a s hp
  | call op k ih => exact fun t ht => ⟨(hp t ht).1, ih _ (hp t ht).2⟩

/-- A program whose own calls look like steps of the others keeps whatever is stable. -/
theorem outline_of_all {P : Op → Prop} {Q : σ → Prop} {p : Prog Res α} {s : σ}
    (hstep : ∀ op t, P op → R t (run op t).2) (hguar : ∀ s t, R s t → G s t)
    (hQ : ∀ s t, R s t → Q s → Q t) (hp : p.All P) (hs : Q s) :
    p.Outline run R G (fun _ t => Q t) s := by
  induction p generalizing s with
  | ret a => exact hs
  | call op k ih =>
    intro t ht
    have hr := hstep op t hp.1
    exact ⟨hguar _ _ hr, ih _ (hp.2 _) (hQ _ _ hr (hQ _ _ ht hs))⟩

/-- A program all of whose calls keep `Q` and the guarantee where `Q` holds, among threads that
keep `Q`. -/
theorem outline_of_invariant {P : Op → Prop} {Q : σ → Prop} {p : Prog Res α} {s : σ}
    (hstep : ∀ op t, P op → Q t → G t (run op t).2 ∧ Q (run op t).2)
    (hQ : ∀ s t, R s t → Q s → Q t) (hp : p.All P) (hs : Q s) :
    p.Outline run R G (fun _ t => Q t) s := by
  induction p generalizing s with
  | ret a => exact hs
  | call op k ih =>
    intro t ht
    obtain ⟨hguar, hkept⟩ := hstep op t hp.1 (hQ s t ht hs)
    exact ⟨hguar, ih _ (hp.2 _) hkept⟩

/-- A program all of whose calls keep `Q`, as the steps of the others do, ends in it. -/
theorem outline_of_kept {P : Op → Prop} {Q : σ → Prop} {p : Prog Res α} {s : σ}
    (hstep : ∀ op t, P op → Q t → Q (run op t).2) (hQ : ∀ s t, R s t → Q s → Q t)
    (hp : p.All P) (hs : Q s) : p.Outline run R (fun _ _ => True) (fun _ t => Q t) s :=
  outline_of_invariant (fun op t hop ht => ⟨trivial, hstep op t hop ht⟩) hQ hp hs

theorem outline_of_forall {Q : α → σ → Prop} (hQ : ∀ a t, Q a t) (p : Prog Res α) (s : σ) :
    p.Outline run R (fun _ _ => True) Q s := by
  induction p generalizing s with
  | ret a => exact hQ a s
  | call op k ih => exact fun t _ => ⟨trivial, ih _ _⟩

/-- The guarantee of an outline read off the calls the program can make. -/
theorem Outline.guarantee {P : Op → Prop} {Q : α → σ → Prop} {p : Prog Res α} {s : σ}
    (h : p.Outline run R (fun _ _ => True) Q s) (hp : p.All P)
    (hguar : ∀ op t, P op → G t (run op t).2) : p.Outline run R G Q s := by
  induction p generalizing s with
  | ret a => exact h
  | call op k ih => exact fun t ht => ⟨hguar op t hp.1, ih _ (h t ht).2 (hp.2 _)⟩

/-- A protocol that a thread keeps to: which calls each of its states permits, how the
answers move it, and which answers can occur. -/
structure Protocol (Res : Op → Type) (S : Type*) where
  ok : S → Op → Prop
  next : S → (op : Op) → Res op → S
  can : (op : Op) → Res op → Prop

section Protocol

variable {S : Type*} (pr : Protocol Res S)

/-- The program keeps to the protocol from state `s` on and returns as `Q` says. -/
def Follows (Q : α → S → Prop) : S → Prog Res α → Prop
  | s, ret a => Q a s
  | s, call op k => pr.ok s op ∧ ∀ r, pr.can op r → Follows Q (pr.next s op r) (k r)

variable {pr}

theorem follows_bind {Q : α → S → Prop} {Q' : β → S → Prop} {p : Prog Res α}
    {f : α → Prog Res β} {s : S} (hp : p.Follows pr Q s)
    (hf : ∀ a t, Q a t → (f a).Follows pr Q' t) : (p >>= f).Follows pr Q' s := by
  induction p generalizing s with
  | ret a => exact hf a s hp
  | call op k ih => exact ⟨hp.1, fun r hr => ih r (hp.2 r hr)⟩

theorem follows_then {Q : α → S → Prop} {op : Op} {f : Res op → Prog Res α} {s : S}
    (hok : pr.ok s op) (hf : ∀ r, pr.can op r → (f r).Follows pr Q (pr.next s op r)) :
    ((perform op : Prog Res (Res op)) >>= f).Follows pr Q s :=
  ⟨hok, hf⟩

theorem Follows.mono {Q Q' : α → S → Prop} {p : Prog Res α} {s : S}
    (himp : ∀ a s, Q a s → Q' a s) (h : p.Follows pr Q s) : p.Follows pr Q' s := by
  induction p generalizing s with
  | ret a => exact himp a s h
  | call op k ih => exact ⟨h.1, fun r hr => ih r (h.2 r hr)⟩

/-- Calls that the protocol permits wherever `I` holds, and that keep `I`, may be made there. -/
theorem follows_of_kept {P : Op → Prop} {I : S → Prop} {s : S} {p : Prog Res α}
    (hP : ∀ t op, I t → P op → pr.ok t op ∧ ∀ r, I (pr.next t op r)) (hp : p.All P) (hs : I s) :
    p.Follows pr (fun _ => I) s := by
  induction p generalizing s with
  | ret a => exact hs
  | call op k ih =>
    obtain ⟨hok, hnext⟩ := hP s op hs hp.1
    exact ⟨hok, fun r _ => ih r (hp.2 r) (hnext r)⟩

/-- Calls that the protocol permits in `s` without moving may be made there at will. -/
theorem follows_of_all {P : Op → Prop} {s : S} {p : Prog Res α}
    (hP : ∀ op, P op → pr.ok s op ∧ ∀ r, pr.next s op r = s) (hp : p.All P) :
    p.Follows pr (fun _ t => t = s) s := by
  induction p with
  | ret a => rfl
  | call op k ih =>
    obtain ⟨hok, hnext⟩ := hP op hp.1
    refine ⟨hok, fun r _ => ?_⟩
    rw [hnext r]
    exact ih r (hp.2 r)

end Protocol

end Prog

/-- Threads over a shared state, each with what it still has to do. -/
structure Pool (ι : Type) (Res : Op → Type) (σ : Type*) where
  shared : σ
  task : ι → Prog Res Unit

namespace Pool

variable {ι : Type}

def Idle (p : Pool ι Res σ) (i : ι) : Prop := p.task i = .ret ()

instance (p : Pool ι Res σ) (i : ι) : Decidable (p.Idle i) :=
  match h : p.task i with
  | .ret () => isTrue h
  | .call _ _ => isFalse fun hret => by cases h.symm.trans hret

theorem not_idle_of_call {p : Pool ι Res σ} {i : ι} {op : Op} {k : Res op → Prog Res Unit}
    (h : p.task i = .call op k) : ¬ p.Idle i := by
  intro hidle
  rw [Idle, h] at hidle
  cases hidle

/-- Calls watched by an observer, which keeps its own state beside the shared one. -/
def watch {γ : Type*} (run : (op : Op) → σ → Res op × σ)
    (sees : ι → (op : Op) → Res op → σ → γ → γ) (i : ι) (op : Op) (s : σ × γ) :
    Res op × (σ × γ) :=
  ((run op s.1).1, ((run op s.1).2, sees i op (run op s.1).1 s.1 s.2))

variable {run : ι → (op : Op) → σ → Res op × σ} {R G : ι → σ → σ → Prop} {Q : ι → σ → Prop}

/-- Every thread has an outline from where the pool stands. -/
def Outlined (run : ι → (op : Op) → σ → Res op × σ) (R G : ι → σ → σ → Prop)
    (Q : ι → σ → Prop) (p : Pool ι Res σ) : Prop :=
  ∀ i, (p.task i).Outline (run i) (R i) (G i) (fun _ s => Q i s) p.shared

theorem Outlined.idle {i : ι} {p : Pool ι Res σ} (hp : p.Outlined run R G Q) (hi : p.Idle i) :
    Q i p.shared := by
  have h := hp i
  rw [hi] at h
  exact h

/-- A step of the environment that every thread tolerates. -/
theorem Outlined.environment {p : Pool ι Res σ} {s : σ}
    (htrans : ∀ i s t u, R i s t → R i t u → R i s u) (hQ : ∀ i s t, R i s t → Q i s → Q i t)
    (hp : p.Outlined run R G Q) (hs : ∀ i, R i p.shared s) :
    Pool.Outlined run R G Q { p with shared := s } :=
  fun i => (hp i).stable (htrans i) (fun _ s t => hQ i s t) (hs i)

variable [DecidableEq ι]

/-- Thread `i` makes its next call. -/
def advance (run : ι → (op : Op) → σ → Res op × σ) (i : ι) (p : Pool ι Res σ) :
    Option (Pool ι Res σ) :=
  match p.task i with
  | .ret _ => none
  | .call op k =>
    some ⟨(run i op p.shared).2, Function.update p.task i (k (run i op p.shared).1)⟩

/-- An idle thread is given a program. -/
def start (i : ι) (prog : Prog Res Unit) (p : Pool ι Res σ) : Option (Pool ι Res σ) :=
  match p.task i with
  | .ret _ => some { p with task := Function.update p.task i prog }
  | .call _ _ => none

theorem advance_eq {i : ι} {p q : Pool ι Res σ} (h : p.advance run i = some q) :
    ∃ op k, p.task i = .call op k ∧ q.shared = (run i op p.shared).2 ∧
      q.task i = k (run i op p.shared).1 ∧ ∀ j, j ≠ i → q.task j = p.task j := by
  unfold advance at h
  split at h
  · cases h
  · rename_i op k hk
    obtain rfl := Option.some.inj h
    exact ⟨op, k, hk, rfl, Function.update_self .., fun j hj => Function.update_of_ne hj ..⟩

theorem start_eq {i : ι} {prog : Prog Res Unit} {p q : Pool ι Res σ}
    (h : p.start i prog = some q) :
    p.Idle i ∧ q.shared = p.shared ∧ q.task i = prog ∧ ∀ j, j ≠ i → q.task j = p.task j := by
  unfold start at h
  split at h
  · rename_i u hu
    obtain rfl := Option.some.inj h
    exact ⟨hu, rfl, Function.update_self .., fun j hj => Function.update_of_ne hj ..⟩
  · cases h

/-- What a thread guarantees the others rely on, so its steps keep every outline. -/
theorem Outlined.advance {i : ι} {p q : Pool ι Res σ} (hrefl : ∀ i s, R i s s)
    (htrans : ∀ i s t u, R i s t → R i t u → R i s u)
    (hcompat : ∀ i j s t, j ≠ i → G i s t → R j s t)
    (hQ : ∀ i s t, R i s t → Q i s → Q i t)
    (hp : p.Outlined run R G Q) (h : p.advance run i = some q) : q.Outlined run R G Q := by
  obtain ⟨op, k, hk, hshared, htask, hothers⟩ := advance_eq h
  have hi := hp i
  rw [hk] at hi
  obtain ⟨hg, hnext⟩ := hi.step (hrefl i)
  rw [← hshared] at hg
  intro j
  -- the thread itself goes on with its outline; the others rely on what it guarantees
  by_cases hj : j = i
  · subst hj
    rw [htask, hshared]
    exact hnext
  · rw [hothers j hj]
    exact (hp j).stable (htrans j) (fun _ s t => hQ j s t) (hcompat i j _ _ hj hg)

end Pool

end Interleaving
