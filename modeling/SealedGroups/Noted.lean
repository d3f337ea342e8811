/-!
# Notes taken on the way

Entries that cannot be used are often passed over instead of failing, and a note says so. `Noted` is
a computation with the notes it took and its outcome; when it fails, the notes taken before stay.
What a computation comes to does not depend on its notes: `outcome` turns a chain of noted steps
into the chain of their outcomes (`outcome_bind`, `outcome_foldlM`), so laws about results never
mention notes.
-/

namespace SealedGroups

inductive Level where
  | debug
  | warn
deriving DecidableEq

/-- A note: how grave it is, what it says, and the position of the entry it is about. -/
structure Note where
  level : Level
  message : String
  index : Option Nat := none
deriving DecidableEq

/-- A computation that takes notes and may fail. -/
structure Noted (ε α : Type) where
  notes : List Note
  outcome : Except ε α

namespace Noted

variable {ε α β : Type}

@[ext] theorem ext {x y : Noted ε α} (notes : x.notes = y.notes) (outcome : x.outcome = y.outcome) :
    x = y := by
  cases x; cases y; cases notes; cases outcome; rfl

instance : Monad (Noted ε) where
  pure a := ⟨[], .ok a⟩
  bind x f :=
    match x.outcome with
    | .error e => ⟨x.notes, .error e⟩
    | .ok a => ⟨x.notes ++ (f a).notes, (f a).outcome⟩

def fail (e : ε) : Noted ε α := ⟨[], .error e⟩

/-- Takes a note of something that was passed over. -/
def warn (message : String) : Noted ε Unit :=
  ⟨[{ level := .warn, message }], .ok ()⟩

instance : MonadLift (Except ε) (Noted ε) where
  monadLift outcome := ⟨[], outcome⟩

@[simp] theorem outcome_pure (a : α) : (pure a : Noted ε α).outcome = .ok a := rfl

@[simp] theorem outcome_fail (e : ε) : (fail e : Noted ε α).outcome = .error e := rfl

@[simp] theorem outcome_warn (message : String) :
    (warn message : Noted ε Unit).outcome = .ok () := rfl

@[simp] theorem outcome_lift (outcome : Except ε α) :
    (liftM outcome : Noted ε α).outcome = outcome := rfl

@[simp] theorem outcome_bind (x : Noted ε α) (f : α → Noted ε β) :
    (x >>= f).outcome = x.outcome >>= fun a => (f a).outcome := by
  cases h : x.outcome <;> simp [bind, Except.bind, h]

theorem id_map (x : Noted ε α) : id <$> x = x := by
  ext1 <;> cases h : x.outcome <;> simp [Functor.map, h]

theorem pure_bind (a : α) (f : α → Noted ε β) : pure a >>= f = f a := by
  ext1 <;> simp [bind, pure]

theorem bind_assoc {γ : Type} (x : Noted ε α) (f : α → Noted ε β) (g : β → Noted ε γ) :
    x >>= f >>= g = x >>= fun a => f a >>= g := by
  ext1
  · cases h : x.outcome with
    | error e => simp [bind, h]
    | ok a => cases h' : (f a).outcome <;> simp [bind, h, h']
  · simp only [outcome_bind]
    cases x.outcome <;> rfl

instance : LawfulMonad (Noted ε) :=
  LawfulMonad.mk' (Noted ε) id_map pure_bind bind_assoc

@[simp] theorem outcome_map (f : α → β) (x : Noted ε α) :
    (f <$> x).outcome = f <$> x.outcome := by
  rw [← bind_pure_comp, outcome_bind]
  cases x.outcome <;> rfl

theorem outcome_foldlM (step : β → α → Noted ε β) (start : β) (entries : List α) :
    (entries.foldlM step start).outcome
      = entries.foldlM (fun state entry => (step state entry).outcome) start := by
  induction entries generalizing start with
  | nil => rfl
  | cons entry rest ih => simp only [List.foldlM_cons, outcome_bind, ih]

theorem outcome_mapM (f : α → Noted ε β) (entries : List α) :
    (entries.mapM f).outcome = entries.mapM fun entry => (f entry).outcome := by
  induction entries with
  | nil => rfl
  | cons entry rest ih => simp only [List.mapM_cons, outcome_bind, ih, outcome_pure]; rfl

end Noted

end SealedGroups
