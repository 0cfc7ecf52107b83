import TwoWayRadio.Filepath
import Mathlib.Data.List.Infix
import Mathlib.Data.List.TakeWhile

/-! Slash-separated paths as lists of elements, and what cleaning and joining do to them. -/
namespace Filepath

section Elements

variable {α : Type} {sep : α}

theorem intercalate_concat {front : List (List α)} (hfront : front ≠ []) (last : List α) :
    [sep].intercalate (front ++ [last]) = [sep].intercalate front ++ sep :: last := by
  induction front with
  | nil => exact absurd rfl hfront
  | cons first rest ih =>
    cases rest with
    | nil => simp [List.intercalate_cons_cons]
    | cons second rest =>
      have := ih (by simp)
      simp only [List.cons_append, List.intercalate_cons_cons, List.append_assoc] at this ⊢
      rw [this]

theorem intercalate_append {front : List (List α)} (last tail : List α) :
    [sep].intercalate (front ++ [last ++ tail]) = [sep].intercalate (front ++ [last]) ++ tail := by
  by_cases hfront : front = []
  · simp [hfront]
  · rw [intercalate_concat hfront, intercalate_concat hfront, List.append_assoc, List.cons_append]

theorem intercalate_prepend (head first : List α) (rest : List (List α)) :
    [sep].intercalate ((head ++ first) :: rest) = head ++ [sep].intercalate (first :: rest) := by
  cases rest <;> simp [List.intercalate_cons_cons]

variable [DecidableEq α]

theorem notMem_of_mem_splitOn {xs l : List α} (hl : l ∈ xs.splitOn sep) : sep ∉ l := by
  induction xs generalizing l with
  | nil =>
    rw [List.splitOn_nil, List.mem_singleton] at hl
    rw [hl]
    exact List.not_mem_nil
  | cons x xs ih =>
    rw [List.splitOn_cons_eq_if_modifyHead] at hl
    split_ifs at hl with hx
    · obtain rfl | hl := List.mem_cons.mp hl
      · exact List.not_mem_nil
      · exact ih hl
    · cases hs : xs.splitOn sep with
      | nil => exact absurd hs (List.splitOn_ne_nil _ _)
      | cons first rest =>
        rw [hs, List.modifyHead_cons] at hl
        have hxsep : ¬ sep = x := fun h => hx (by simp [h])
        obtain rfl | hl := List.mem_cons.mp hl
        · rw [List.mem_cons, not_or]
          exact ⟨hxsep, ih (by rw [hs]; exact List.mem_cons_self)⟩
        · exact ih (by rw [hs]; exact List.mem_cons_of_mem _ hl)

/-- A tail without separators grows the last element. -/
theorem splitOn_append {xs tail last : List α} {front : List (List α)}
    (hxs : xs.splitOn sep = front ++ [last]) (htail : sep ∉ tail) :
    (xs ++ tail).splitOn sep = front ++ [last ++ tail] := by
  have hmem : ∀ l ∈ front ++ [last], sep ∉ l := fun l hl => notMem_of_mem_splitOn (hxs ▸ hl)
  have heq : xs ++ tail = [sep].intercalate (front ++ [last ++ tail]) := by
    rw [intercalate_append, ← hxs, List.intercalate_splitOn]
  rw [heq, List.splitOn_intercalate sep _ (by simp)]
  intro l hl
  obtain hl | hl := List.mem_append.mp hl
  · exact hmem l (List.mem_append_left _ hl)
  · rw [List.mem_singleton.mp hl, List.mem_append, not_or]
    exact ⟨hmem last (by simp), htail⟩

/-- A head without separators grows the first element. -/
theorem splitOn_prepend {xs head first : List α} {rest : List (List α)}
    (hxs : xs.splitOn sep = first :: rest) (hhead : sep ∉ head) :
    (head ++ xs).splitOn sep = (head ++ first) :: rest := by
  have hmem : ∀ l ∈ first :: rest, sep ∉ l := fun l hl => notMem_of_mem_splitOn (hxs ▸ hl)
  have heq : head ++ xs = [sep].intercalate ((head ++ first) :: rest) := by
    rw [intercalate_prepend, ← hxs, List.intercalate_splitOn]
  rw [heq, List.splitOn_intercalate sep _ (by simp)]
  intro l hl
  obtain rfl | hl := List.mem_cons.mp hl
  · rw [List.mem_append, not_or]
    exact ⟨hhead, hmem first List.mem_cons_self⟩
  · exact hmem l (List.mem_cons_of_mem _ hl)

end Elements

section Resolution

def elements (path : String) : List (List Char) := path.toList.splitOn '/'

def rooted (path : String) : Bool := path.toList.head? = some '/'

/-- Following elements from a directory, which is given innermost element first. -/
def walk (r : Bool) (dir : List (List Char)) (es : List (List Char)) : List (List Char) :=
  es.foldl (cleanElement r) dir

def resolve (path : String) : List (List Char) := walk (rooted path) [] (elements path)

/-- The text of a directory, which is given innermost element first. -/
def render (r : Bool) (dir : List (List Char)) : String :=
  let body := ['/'].intercalate dir.reverse
  if r then String.ofList ('/' :: body)
  else if body = [] then "."
  else String.ofList body

theorem clean_eq (path : String) : clean path = render (rooted path) (resolve path) := by
  simp only [clean, render, rooted, resolve, walk, elements, decide_eq_true_eq]
  congr

/-- A name that no cleaning touches. -/
def Ordinary (name : List Char) : Prop :=
  '/' ∉ name ∧ name ≠ [] ∧ name ≠ ['.'] ∧ name ≠ ['.', '.']

/-- The elements of a text that has been cleaned. -/
def Separated (dir : List (List Char)) : Prop :=
  ∀ l ∈ dir, '/' ∉ l ∧ l ≠ []

theorem Separated.cons {name : List Char} {dir : List (List Char)} (hslash : '/' ∉ name)
    (hne : name ≠ []) (hdir : Separated dir) : Separated (name :: dir) :=
  List.forall_mem_cons.mpr ⟨⟨hslash, hne⟩, hdir⟩

theorem elements_ordinary {name : List Char} (hname : Ordinary name) :
    elements (String.ofList name) = [] ++ [name] := by
  rw [elements, String.toList_ofList, List.splitOn_eq_singleton hname.1, List.nil_append]

variable {r : Bool}

theorem cleanElement_skip {e : List Char} (he : e = [] ∨ e = ['.']) (dir : List (List Char)) :
    cleanElement r dir e = dir := by
  simp [cleanElement, he]

theorem cleanElement_up (top : List Char) (dir : List (List Char)) :
    cleanElement r (top :: dir) ['.', '.'] =
      if top = ['.', '.'] then ['.', '.'] :: top :: dir else dir := by
  simp [cleanElement]

theorem cleanElement_name {e : List Char} (he : ¬ (e = [] ∨ e = ['.'])) (hup : e ≠ ['.', '.'])
    (dir : List (List Char)) : cleanElement r dir e = e :: dir := by
  simp [cleanElement, he, hup]

theorem walk_cons (dir : List (List Char)) (e : List Char) (es : List (List Char)) :
    walk r dir (e :: es) = walk r (cleanElement r dir e) es := rfl

theorem walk_append (dir es fs : List (List Char)) :
    walk r dir (es ++ fs) = walk r (walk r dir es) fs := List.foldl_append ..

theorem walk_concat {name : List Char} (hname : Ordinary name) (dir es : List (List Char)) :
    walk r dir (es ++ [name]) = name :: walk r dir es := by
  obtain ⟨-, hne, hdot, hdotdot⟩ := hname
  rw [walk_append, walk_cons, cleanElement_name (by simp [hne, hdot]) hdotdot]
  rfl

theorem separated_walk {dir es : List (List Char)} (hdir : Separated dir)
    (hes : ∀ l ∈ es, '/' ∉ l) : Separated (walk r dir es) := by
  induction es generalizing dir with
  | nil => exact hdir
  | cons e es ih =>
    apply ih _ fun l hl => hes l (List.mem_cons_of_mem _ hl)
    have he : '/' ∉ e := hes e List.mem_cons_self
    by_cases hskip : e = [] ∨ e = ['.']
    · rw [cleanElement_skip hskip]
      exact hdir
    · by_cases hup : e = ['.', '.']
      · subst hup
        cases dir with
        | nil => cases r <;> simp [Separated, cleanElement]
        | cons top rest =>
          rw [cleanElement_up]
          split
          · exact hdir.cons he (by simp)
          · exact fun l hl => hdir l (List.mem_cons_of_mem _ hl)
      · rw [cleanElement_name hskip hup]
        exact hdir.cons he fun hne => hskip (.inl hne)

theorem separated_resolve (path : String) : Separated (resolve path) :=
  separated_walk (List.forall_mem_nil _) fun _ => notMem_of_mem_splitOn

/-- The text determines the elements. -/
theorem render_injective {a b : List (List Char)} (ha : Separated a) (hb : Separated b)
    (hane : a ≠ []) (hbne : b ≠ []) (h : render r a = render r b) : a = b := by
  have split {c : List (List Char)} (hc : Separated c) (hcne : c ≠ []) :
      (['/'].intercalate c.reverse).splitOn '/' = c.reverse :=
    List.splitOn_intercalate '/' (fun l hl => (hc l (List.mem_reverse.mp hl)).1)
      (by simpa using hcne)
  have body_ne {c : List (List Char)} (hc : Separated c) (hcne : c ≠ []) :
      ['/'].intercalate c.reverse ≠ [] := by
    intro hnil
    have hsplit := split hc hcne
    rw [hnil, List.splitOn_nil] at hsplit
    exact (hc [] (by rw [← List.mem_reverse, ← hsplit]; exact List.mem_cons_self)).2 rfl
  have hbody : ['/'].intercalate a.reverse = ['/'].intercalate b.reverse := by
    unfold render at h
    dsimp only at h
    rw [if_neg (body_ne ha hane), if_neg (body_ne hb hbne)] at h
    split_ifs at h
    · exact List.tail_eq_of_cons_eq (String.ofList_injective h)
    · exact String.ofList_injective h
  apply List.reverse_injective
  rw [← split ha hane, hbody, split hb hbne]

/-- Joining a directory and a relative path walks from the one along the other. -/
theorem join_pair (dir : String) {path : String} (hpath : path ≠ "") (hrel : rooted path = false) :
    join [dir, path] = render (rooted dir) (walk (rooted dir) (resolve dir) (elements path)) := by
  by_cases hdir : dir = ""
  · subst hdir
    have hjoin : join ["", path] = clean path := by
      simp [join, hpath, List.intercalate_singleton]
    have hempty : resolve "" = [] ∧ rooted "" = false := by decide
    rw [hjoin, clean_eq, resolve, hrel, hempty.1, hempty.2]
  · have hjoin : join [dir, path] = clean (String.ofList (dir.toList ++ '/' :: path.toList)) := by
      simp [join, hdir, hpath, List.intercalate_cons_cons]
    have hroot : rooted (String.ofList (dir.toList ++ '/' :: path.toList)) = rooted dir := by
      have hne : dir.toList ≠ [] := by simpa using hdir
      rw [rooted, rooted, String.toList_ofList, List.head?_append_of_ne_nil _ hne]
    rw [hjoin, clean_eq, hroot, resolve, hroot, elements, String.toList_ofList,
      List.splitOn_append_cons_self, walk_append]
    rfl

/-- The path of an entry of a directory. -/
theorem join_ordinary (dir : String) {name : List Char} (hname : Ordinary name) :
    join [dir, String.ofList name] = render (rooted dir) (name :: resolve dir) := by
  have ⟨hslash, hne, _, _⟩ := hname
  have hrel : rooted (String.ofList name) = false := by
    cases name with
    | nil => exact absurd rfl hne
    | cons c cs =>
      have hc : c ≠ '/' := fun h => hslash (by simp [h])
      simp [rooted, hc]
  rw [join_pair dir (by simpa using hne) hrel, elements_ordinary hname, walk_concat hname]
  rfl

/-- The entries of a directory have different paths. -/
theorem join_ordinary_injective {dir : String} {a b : List Char} (ha : Ordinary a)
    (hb : Ordinary b) (h : join [dir, String.ofList a] = join [dir, String.ofList b]) : a = b := by
  rw [join_ordinary dir ha, join_ordinary dir hb] at h
  have hcons {name : List Char} (hname : Ordinary name) : Separated (name :: resolve dir) :=
    (separated_resolve dir).cons hname.1 hname.2.1
  exact List.head_eq_of_cons_eq (render_injective (hcons ha) (hcons hb) (by simp) (by simp) h)

theorem splitOn_rooted {name : List Char} (hslash : '/' ∉ name) :
    ('/' :: name).splitOn '/' = [[]] ++ [name] := by
  have h := List.splitOn_append_cons_self (a := '/') [] name
  rwa [List.nil_append, List.splitOn_nil, List.splitOn_eq_singleton hslash] at h

/-- Cleaning a name from the root on changes nothing but the root. -/
theorem clean_rooted {name : List Char} (hname : Ordinary name) :
    clean (String.ofList ('/' :: name)) = String.ofList ('/' :: name) := by
  have ⟨hslash, hne, hdot, hdotdot⟩ := hname
  simp [clean, splitOn_rooted hslash, cleanElement, hne, hdot, hdotdot, List.intercalate_singleton]

theorem join_rooted {dir : String} (hdir : dir ≠ "") {name : List Char} (hname : Ordinary name) :
    join [dir, String.ofList ('/' :: name)] = join [dir, String.ofList name] := by
  have hjoin : join [dir, String.ofList ('/' :: name)] =
      clean (String.ofList (dir.toList ++ '/' :: '/' :: name)) := by
    simp [join, hdir, List.intercalate_cons_cons]
  have hroot : rooted (String.ofList (dir.toList ++ '/' :: '/' :: name)) = rooted dir := by
    have hne : dir.toList ≠ [] := by simpa using hdir
    rw [rooted, rooted, String.toList_ofList, List.head?_append_of_ne_nil _ hne]
  rw [hjoin, clean_eq, hroot, resolve, hroot, elements, String.toList_ofList,
    List.splitOn_append_cons_self, splitOn_rooted hname.1, ← List.append_assoc, walk_concat hname,
    walk_append, join_ordinary dir hname]
  rfl

theorem base_cases (path : String) :
    base path = "/" ∨ ∃ e, base path = String.ofList e ∧ '/' ∉ e ∧ e ≠ [] := by
  unfold base
  dsimp only
  split_ifs with hempty hstripped
  · exact .inr ⟨['.'], rfl, by decide, by decide⟩
  · exact .inl rfl
  · refine .inr ⟨_, rfl, ?_, ?_⟩
    · intro hmem
      have := List.mem_takeWhile_imp (List.mem_reverse.mp hmem)
      simp at this
    · obtain ⟨c, cs, hcs⟩ := List.exists_cons_of_ne_nil hstripped
      have hc := List.head_dropWhile_not (· = '/') hstripped
      simp only [hcs, List.head_cons, decide_eq_false_iff_not] at hc
      simp [hcs, hc]

theorem base_eq {path : String} {front : List (List Char)} {last : List Char}
    (hpath : elements path = front ++ [last]) (hlast : last ≠ []) :
    base path = String.ofList last := by
  have hslash : '/' ∉ last := notMem_of_mem_splitOn (by
    show last ∈ elements path
    simp [hpath])
  have hlist : path.toList = ['/'].intercalate (front ++ [last]) := by
    rw [← hpath, elements, List.intercalate_splitOn]
  -- the last element is all that follows the last slash
  obtain ⟨before, hbefore, hstop⟩ : ∃ before, path.toList = before ++ last ∧
      (before = [] ∨ ∃ p, before = p ++ ['/']) := by
    by_cases hfront : front = []
    · exact ⟨[], by simp [hlist, hfront, List.intercalate_singleton], .inl rfl⟩
    · exact ⟨['/'].intercalate front ++ ['/'],
        by simp [hlist, intercalate_concat hfront], .inr ⟨_, rfl⟩⟩
  have hne : path ≠ "" := by
    rintro rfl
    simp at hbefore
    exact hlast hbefore.2
  -- there are no trailing slashes to strip
  have hkeep : (path.toList.reverse.dropWhile (· = '/')) = last.reverse ++ before.reverse := by
    rw [hbefore, List.reverse_append]
    cases hrev : last.reverse with
    | nil => exact absurd (List.reverse_eq_nil_iff.mp hrev) hlast
    | cons c cs =>
      have hc : c ≠ '/' := by
        rintro rfl
        apply hslash
        rw [← List.mem_reverse, hrev]
        exact List.mem_cons_self
      rw [List.cons_append, List.dropWhile_cons_of_neg (by simpa using hc)]
  have htake : (last.reverse ++ before.reverse).takeWhile (· ≠ '/') = last.reverse := by
    have hall : ∀ c ∈ last.reverse, decide (c ≠ '/') = true := by
      intro c hc
      rw [List.mem_reverse] at hc
      exact decide_eq_true fun h => hslash (h ▸ hc)
    rw [List.takeWhile_append_of_pos hall]
    obtain rfl | ⟨p, rfl⟩ := hstop
    · simp
    · simp
  rw [base, if_neg hne]
  dsimp only
  rw [hkeep, htake, List.reverse_reverse, if_neg (by simp [hlast])]

/-- A walk that comes back above where it started does not depend on where it started. -/
theorem walk_cons_eq_iff {x y : List Char} (hx : x ≠ ['.', '.']) (hy : y ≠ ['.', '.'])
    (dir es : List (List Char)) :
    walk r (x :: dir) es = dir ↔ walk r (y :: dir) es = dir := by
  suffices h : ∀ below,
      walk r (below ++ x :: dir) es = dir ↔ walk r (below ++ y :: dir) es = dir from h []
  induction es with
  | nil =>
    intro below
    have longer (z : List Char) : below ++ z :: dir ≠ dir := by
      intro h
      have := congrArg List.length h
      simp at this
      omega
    exact ⟨fun h => absurd h (longer x), fun h => absurd h (longer y)⟩
  | cons e es ih =>
    intro below
    rw [walk_cons, walk_cons]
    by_cases hskip : e = [] ∨ e = ['.']
    · rw [cleanElement_skip hskip, cleanElement_skip hskip]
      exact ih below
    · by_cases hup : e = ['.', '.']
      · subst hup
        cases below with
        | nil =>
          rw [List.nil_append, List.nil_append, cleanElement_up, cleanElement_up, if_neg hx,
            if_neg hy]
        | cons top rest =>
          rw [List.cons_append, List.cons_append, cleanElement_up, cleanElement_up]
          split
          · exact ih (['.', '.'] :: top :: rest)
          · exact ih rest
      · rw [cleanElement_name hskip hup, cleanElement_name hskip hup]
        exact ih (e :: below)

end Resolution

end Filepath
