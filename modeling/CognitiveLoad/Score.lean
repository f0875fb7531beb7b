import CognitiveLoad.Json
import CognitiveLoad.Roster

/-!
Increments and their sum. A score grows only by `add`, which refuses a negative increment and
leaves the score as it was, so the total is always the sum of the increments.
-/

namespace CognitiveLoad

/-- The four reasons for an increment. -/
inductive Category where
  | structural
  | nesting
  | hybrid
  | fundamental
  deriving DecidableEq, Repr

def Category.name : Category → String
  | structural => "structural"
  | nesting => "nesting"
  | hybrid => "hybrid"
  | fundamental => "fundamental"

def Category.all : List Category :=
  [.structural, .nesting, .hybrid, .fundamental]

structure Factor where
  description : String
  increment : Int
  line : Int
  category : Category := .structural
  deriving DecidableEq, Repr

/-- The score of a function body, or of several. `nesting` is the level reached by a walk; it is
zero before and after one. -/
structure Score where
  total : Int := 0
  nesting : Nat := 0
  factors : List Factor := []
  functions : Roster Int := {}
  deriving DecidableEq, Repr

/-- The refused increment. -/
structure NegativeIncrement where
  increment : Int
  deriving DecidableEq, Repr

def NegativeIncrement.message (e : NegativeIncrement) : String :=
  s!"Complexity increment cannot be negative: {e.increment}"

namespace Score

def push (s : Score) (f : Factor) : Score :=
  { s with factors := s.factors ++ [f], total := s.total + f.increment }

/-- What comes of a change: whether it is refused, and the score after it. -/
abbrev Change := Except NegativeIncrement Unit × Score

def add (s : Score) (f : Factor) : Change :=
  if f.increment < 0 then (.error ⟨f.increment⟩, s) else (.ok (), s.push f)

/-- Adds increments one after the other, up to the first that is refused. Those before it stay
added. -/
def addAll (s : Score) : List Factor → Change
  | [] => (.ok (), s)
  | f :: rest =>
    match s.add f with
    | (.ok (), s) => s.addAll rest
    | refused => refused

/-- Adds all increments of another score and enters its total under a name. -/
def merge (s : Score) (name : String) (other : Score) : Change :=
  match s.addAll other.factors with
  | (.ok (), sum) => (.ok (), { sum with functions := sum.functions.enter name other.total })
  | refused => refused

/-- Increments that are not negative are all added. -/
theorem addAll_eq_ok {fs : List Factor} (h : ∀ f ∈ fs, 0 ≤ f.increment) (s : Score) :
    s.addAll fs = (.ok (), fs.foldl push s) := by
  induction fs generalizing s with
  | nil => rfl
  | cons f rest ih =>
    have hf : ¬ f.increment < 0 := by
      have := h f (List.mem_cons_self ..)
      omega
    have hadd : s.add f = (.ok (), s.push f) := if_neg hf
    have hrest := ih (fun g hg => h g (List.mem_cons_of_mem _ hg)) (s.push f)
    rw [addAll, hadd]
    exact hrest

theorem merge_eq_ok {other : Score} (h : ∀ f ∈ other.factors, 0 ≤ f.increment) (s : Score)
    (name : String) :
    s.merge name other =
      (.ok (), { other.factors.foldl push s with
        functions := (other.factors.foldl push s).functions.enter name other.total }) := by
  rw [merge, addAll_eq_ok h]

/-- The sum of the increments of one category. -/
def totalOf (s : Score) (c : Category) : Int :=
  ((s.factors.filter (·.category = c)).map (·.increment)).foldr (· + ·) 0

end Score

def Factor.toJson (f : Factor) : Json :=
  .object [("description", .text f.description), ("increment", .int f.increment),
    ("line_number", .int f.line), ("category", .text f.category.name)]

def Score.toJson (s : Score) : Json :=
  .object <|
    [("total_complexity", .int s.total), ("factors", .list (s.factors.map Factor.toJson))] ++
      if s.functions.entries.isEmpty then []
      else [("function_complexities", .object (s.functions.entries.map fun e => (e.1, .int e.2)))]

/-! ## Histories -/

/-- A step in the life of a score: add an increment, put the score away under a key and start a
new one, or merge a score put away earlier. -/
inductive Score.Step where
  | add (f : Factor)
  | store (key : String)
  | merge (name key : String)
  deriving DecidableEq, Repr

/-- A score at work and the scores put away. -/
structure Ledger where
  current : Score := {}
  stored : Roster Score := {}
  deriving DecidableEq, Repr

/-- A key under which nothing was put away stands for the empty score. -/
def Ledger.step (l : Ledger) : Score.Step → Except NegativeIncrement Unit × Ledger
  | .add f =>
    let (answer, s) := l.current.add f
    (answer, { l with current := s })
  | .store key => (.ok (), ⟨{}, l.stored.enter key l.current⟩)
  | .merge name key =>
    let (answer, s) := l.current.merge name ((l.stored.get? key).getD {})
    (answer, { l with current := s })

/-- The ledger after a step, whether that is refused or not. -/
def Ledger.after (l : Ledger) (step : Score.Step) : Ledger :=
  (l.step step).2

end CognitiveLoad
