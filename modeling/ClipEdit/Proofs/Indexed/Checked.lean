import ClipEdit.Outcome
import ClipEdit.Proofs.Timeline.Edits

/-!
# Sequences that are addressed by position

A program that keeps its items in a row and addresses them by position can go wrong in ways that the
types of this library rule out: it can ask for an item where there is none, take a larger number
from a smaller one, or divide by the length of an empty gap. `Checked` is the type of its steps, in
which each of these is a `Misstep` and ends the computation.

The lemmas name the item that is addressed together with what lies before and behind it,
`a ++ s :: b`; the position is then the length of `a`, and the step is carried out.
-/

namespace ClipEdit

/-- How a step of a program that counts positions can go wrong. -/
inductive Misstep where
  /-- There is no item at the position. -/
  | outOfRange (position size : Nat)
  /-- A difference lies below zero. -/
  | belowZero (minuend subtrahend : Nat)
  /-- A gap that is divided by is empty. -/
  | emptyGap (stop start : Nat)
deriving Repr, DecidableEq

/-- The result of steps that can go wrong. -/
abbrev Checked : Type → Type := Except Misstep

namespace Checked

variable {β γ : Type} {l a b : List β} {s : β} {p : β → Bool}

@[simp] theorem ok_bind (x : β) (f : β → Checked γ) : ((.ok x : Checked β) >>= f) = f x := rfl

@[simp] theorem pure_eq (x : β) : (pure x : Checked β) = .ok x := rfl

/-- The steps for all items of a row are carried out if each one is. -/
theorem mapM_eq {f : β → Checked γ} {g : β → γ} (h : ∀ x ∈ l, f x = .ok (g x)) :
    l.mapM f = .ok (l.map g) := by
  induction l with
  | nil => rfl
  | cons x rest ih =>
    have h_rest := ih fun y hy => h y (List.mem_cons_of_mem x hy)
    rw [List.mapM_cons, h x List.mem_cons_self, ok_bind, h_rest]
    rfl

/-! ### Numbers -/

/-- The difference of two counts. -/
def minus (m n : Nat) : Checked Nat :=
  if n ≤ m then .ok (m - n) else .error (.belowZero m n)

/-- The length of a gap that has one. -/
def gap (stop start : Nat) : Checked Nat :=
  if start < stop then .ok (stop - start) else .error (.emptyGap stop start)

theorem minus_eq {m n : Nat} (h : n ≤ m) : minus m n = .ok (m - n) := if_pos h

theorem gap_eq {m n : Nat} (h : n < m) : gap m n = .ok (m - n) := if_pos h

/-! ### Items -/

/-- The item at a position. -/
def read (l : List β) (i : Nat) : Checked β :=
  match l[i]? with
  | some s => .ok s
  | none => .error (.outOfRange i l.length)

/-- The row with the item at a position changed. -/
def rewrite (l : List β) (i : Nat) (f : β → β) : Checked (List β) :=
  if i < l.length then .ok (l.modify i f) else .error (.outOfRange i l.length)

/-- The row with an item put in at a position, which may be its end. -/
def insertAt (l : List β) (i : Nat) (s : β) : Checked (List β) :=
  if i ≤ l.length then .ok (l.insertIdx i s) else .error (.outOfRange i l.length)

/-- The item at a position, and the row without it. -/
def removeAt (l : List β) (i : Nat) : Checked (β × List β) :=
  match l[i]? with
  | some s => .ok (s, l.eraseIdx i)
  | none => .error (.outOfRange i l.length)

/-- The last item, which is addressed by the length of the row. -/
def readLast (l : List β) : Checked β := do
  read l (← minus l.length 1)

/-- The row with its last item changed. -/
def rewriteLast (l : List β) (f : β → β) : Checked (List β) := do
  rewrite l (← minus l.length 1) f

theorem read_eq {i : Nat} (h : l[i]? = some s) : read l i = .ok s := by
  unfold read
  rw [h]

@[simp] theorem read_place : read (a ++ s :: b) a.length = .ok s :=
  read_eq (by simp)

theorem rewrite_eq {i : Nat} (h : i < l.length) (f : β → β) : rewrite l i f = .ok (l.modify i f) :=
  if_pos h

@[simp] theorem rewrite_place (f : β → β) :
    rewrite (a ++ s :: b) a.length f = .ok (a ++ f s :: b) := by
  rw [rewrite_eq (by simp), modify_place]

@[simp] theorem insertAt_place : insertAt (a ++ b) a.length s = .ok (a ++ s :: b) := by
  have h_insert : (a ++ b).insertIdx a.length s = a ++ s :: b := by
    induction a with
    | nil => rfl
    | cons x a ih => simp [List.insertIdx_succ_cons, ih]
  unfold insertAt
  rw [if_pos (by simp), h_insert]

@[simp] theorem removeAt_place : removeAt (a ++ s :: b) a.length = .ok (s, a ++ b) := by
  unfold removeAt
  simp [List.eraseIdx_append_of_length_le]

/-- The last position of a row with items. -/
theorem minus_length_append (a : List β) (s : β) : minus (a ++ [s]).length 1 = .ok a.length := by
  rw [minus_eq (by simp)]
  simp

@[simp] theorem readLast_append : readLast (a ++ [s]) = .ok s := by
  unfold readLast
  rw [minus_length_append, ok_bind, read_place]

@[simp] theorem rewriteLast_append (f : β → β) : rewriteLast (a ++ [s]) f = .ok (a ++ [f s]) := by
  unfold rewriteLast
  rw [minus_length_append, ok_bind, rewrite_place]

/-- An item that is read lies before or behind a cut of the row, as its position does. -/
theorem read_cases {i : Nat} (h : (a ++ b)[i]? = some s) :
    (i < a.length ∧ s ∈ a) ∨ (a.length ≤ i ∧ s ∈ b) := by
  rcases Nat.lt_or_ge i a.length with h_lt | h_ge
  · rw [List.getElem?_append_left h_lt] at h
    exact Or.inl ⟨h_lt, List.mem_of_getElem? h⟩
  · rw [List.getElem?_append_right h_ge] at h
    exact Or.inr ⟨h_ge, List.mem_of_getElem? h⟩

/-- The first item with a property, among those that have it. -/
theorem head?_filter_place (hs : p s = true) (ha : ∀ x ∈ a, p x = false) :
    ((a ++ s :: b).filter p).head? = some s := by
  have h_none : a.filter p = [] := List.filter_eq_nil_iff.mpr fun x hx => by simp [ha x hx]
  rw [List.filter_append, h_none, List.filter_cons_of_pos hs]
  rfl

/-- The last item with a property, among those that have it. -/
theorem getLast?_filter_place (hs : p s = true) (hb : ∀ x ∈ b, p x = false) :
    ((a ++ s :: b).filter p).getLast? = some s := by
  have h_none : b.filter p = [] := List.filter_eq_nil_iff.mpr fun x hx => by simp [hb x hx]
  rw [List.filter_append, List.filter_cons_of_pos hs, h_none, List.getLast?_concat]

/-! ### The latest of a kind -/

/-- The position of the last item with a property. -/
def latest? (p : β → Bool) (l : List β) : Option Nat :=
  (l.reverse.findIdx? p).map fun i => l.length - 1 - i

theorem latest?_place (hs : p s = true) (hb : ∀ x ∈ b, p x = false) :
    latest? p (a ++ s :: b) = some a.length := by
  -- a search from the end passes all of `b` first
  have h_reverse : (a ++ s :: b).reverse = b.reverse ++ s :: a.reverse := by simp
  have h_find : (a ++ s :: b).reverse.findIdx? p = some b.reverse.length := by
    rw [h_reverse]
    exact findIdx?_place (fun x hx => hb x (List.mem_reverse.mp hx)) hs
  unfold latest?
  rw [h_find]
  simp only [Option.map_some, List.length_append, List.length_cons, List.length_reverse]
  congr 1
  omega

/-- Either no item has the property, or there is a last one. -/
theorem latest?_cases (p : β → Bool) (l : List β) :
    ((∀ x ∈ l, p x = false) ∧ latest? p l = none) ∨
      ∃ a s b, l = a ++ s :: b ∧ p s = true ∧ (∀ x ∈ b, p x = false) ∧
        latest? p l = some a.length := by
  cases h_find : l.reverse.findIdx? p with
  | none =>
    refine Or.inl ⟨?_, ?_⟩
    · intro x hx
      exact List.findIdx?_eq_none_iff.mp h_find x (List.mem_reverse.mpr hx)
    · unfold latest?
      rw [h_find]
      rfl
  | some i =>
    -- the first from behind is the last from the front, and the two parts change places
    obtain ⟨b, s, a, h_reverse, -, hs, hb⟩ := exists_place_of_findIdx? h_find
    have h_eq : l = a.reverse ++ s :: b.reverse := by
      rw [← List.reverse_reverse l, h_reverse]
      simp
    have hb' : ∀ x ∈ b.reverse, p x = false := fun x hx => hb x (List.mem_reverse.mp hx)
    refine Or.inr ⟨a.reverse, s, b.reverse, h_eq, hs, hb', ?_⟩
    rw [h_eq]
    exact latest?_place hs hb'

end Checked

end ClipEdit
