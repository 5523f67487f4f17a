/-!
# Outcomes

An edit never fails: it is either carried out or refused, and says which. Its outcome holds that
answer together with the state after the edit, so an edit that is refused still has to show what it
left behind.
-/

namespace ClipEdit

/-- The answer to an edit and the state after it. -/
structure Outcome (σ : Type) where
  accepted : Bool
  state : σ
deriving Repr, DecidableEq

namespace Outcome

variable {σ τ : Type}

/-- The edit was carried out and led to `s`. -/
def accept (s : σ) : Outcome σ := ⟨true, s⟩

/-- The edit was refused and left `s` as it was. -/
def refuse (s : σ) : Outcome σ := ⟨false, s⟩

/-- The same answer, the state put into a larger one. -/
def map (f : σ → τ) (o : Outcome σ) : Outcome τ := ⟨o.accepted, f o.state⟩

@[simp] theorem accepted_accept (s : σ) : (accept s).accepted = true := rfl

@[simp] theorem state_accept (s : σ) : (accept s).state = s := rfl

@[simp] theorem accepted_refuse (s : σ) : (refuse s).accepted = false := rfl

@[simp] theorem state_refuse (s : σ) : (refuse s).state = s := rfl

@[simp] theorem accepted_map (f : σ → τ) (o : Outcome σ) : (o.map f).accepted = o.accepted := rfl

@[simp] theorem state_map (f : σ → τ) (o : Outcome σ) : (o.map f).state = f o.state := rfl

end Outcome

end ClipEdit
