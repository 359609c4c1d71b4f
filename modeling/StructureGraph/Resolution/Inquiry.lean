import Std.Data.HashMap

namespace StructureGraph

inductive Inquiry (τ α : Type) where
  | done (result : α)
  | ask (name : String) (next : Option τ → Inquiry τ α)

namespace Inquiry

variable {τ α β : Type}

def bind : Inquiry τ α → (α → Inquiry τ β) → Inquiry τ β
  | done a, f => f a
  | ask name next, f => ask name fun answer => (next answer).bind f

instance : Monad (Inquiry τ) where
  pure := done
  bind := bind

/-- The type of this name, if there is one. -/
def type? (name : String) : Inquiry τ (Option τ) := ask name done

/-- The first of several names that names a type. -/
def first? : List String → Inquiry τ (Option τ)
  | [] => done none
  | name :: names =>
    ask name fun
      | some t => done (some t)
      | none => first? names

/-- The result where all questions are answered by a function. -/
def run (find : String → Option τ) : Inquiry τ α → α
  | done a => a
  | ask name next => (next (find name)).run find

/-- Answers that were given before, refusals included. -/
abbrev Memory (τ : Type) := Std.HashMap String (Option τ)

def Memory.empty : Memory τ := ∅

theorem run_pure (find : String → Option τ) (a : α) :
    (pure a : Inquiry τ α).run find = a := rfl

theorem run_ask (find : String → Option τ) (name : String) (next : Option τ → Inquiry τ α) :
    (ask name next).run find = (next (find name)).run find := rfl

theorem run_bind (find : String → Option τ) (q : Inquiry τ α) (f : α → Inquiry τ β) :
    (q >>= f).run find = (f (q.run find)).run find := by
  show (q.bind f).run find = _
  induction q with
  | done a => rfl
  | ask name next ih => exact ih (find name)

theorem run_first? (find : String → Option τ) (names : List String) :
    (first? names).run find = names.findSome? find := by
  induction names with
  | nil => rfl
  | cons name names ih =>
    rw [first?, run_ask, List.findSome?_cons]
    cases find name with
    | some t => rfl
    | none => exact ih

end Inquiry

end StructureGraph
