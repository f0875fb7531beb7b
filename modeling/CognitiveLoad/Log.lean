/-!
Messages, and computations that write them. A `Traced` value is the result of a computation
together with the messages written on the way, in order. A computation that may fail is a
`Traced (Except ε α)`: when it stops, it still has the messages written up to then.
-/

namespace CognitiveLoad

inductive Level where
  | debug
  | info
  | warning
  | error
  deriving DecidableEq, Repr

def Level.rank : Level → Nat
  | .debug => 10
  | .info => 20
  | .warning => 30
  | .error => 40

def Level.name : Level → String
  | .debug => "DEBUG"
  | .info => "INFO"
  | .warning => "WARNING"
  | .error => "ERROR"

/-- The part of the program that writes a message. -/
inductive Origin where
  | scorer
  | reader
  | declarator
  | survey
  | files
  | command
  deriving DecidableEq, Repr

structure Entry where
  level : Level
  origin : Origin
  message : String
  deriving DecidableEq, Repr

/-- The messages at or above a level. -/
def atLeast (level : Level) (log : List Entry) : List Entry :=
  log.filter fun e => level.rank ≤ e.level.rank

structure Traced (α : Type) where
  value : α
  log : List Entry := []

namespace Traced

variable {α β : Type}

instance : Monad Traced where
  pure a := ⟨a, []⟩
  bind x f := ⟨(f x.value).value, x.log ++ (f x.value).log⟩

@[simp] theorem value_pure (a : α) : (pure a : Traced α).value = a := rfl

@[simp] theorem log_pure (a : α) : (pure a : Traced α).log = [] := rfl

@[simp] theorem value_bind (x : Traced α) (f : α → Traced β) :
    (x >>= f).value = (f x.value).value := rfl

@[simp] theorem value_map (f : α → β) (x : Traced α) : (f <$> x).value = f x.value := rfl

@[simp] theorem log_bind (x : Traced α) (f : α → Traced β) :
    (x >>= f).log = x.log ++ (f x.value).log := rfl

theorem ext {x y : Traced α} (hv : x.value = y.value) (hl : x.log = y.log) : x = y := by
  cases x; cases y; simp_all

instance : LawfulMonad Traced :=
  LawfulMonad.mk' Traced
    (fun _ => ext rfl (by simp [Functor.map]))
    (fun _ _ => ext rfl (by simp))
    (fun _ _ _ => ext rfl (by simp [List.append_assoc]))

/-- Writes one message. -/
def note (level : Level) (origin : Origin) (message : String) : Traced Unit :=
  ⟨(), [⟨level, origin, message⟩]⟩

end Traced

end CognitiveLoad
