import CognitiveLoad.Routine

/-!
What is reported: the complexity of one function in one file.
-/

namespace CognitiveLoad

structure Finding where
  file : String
  language : String
  function : String
  startLine : Int
  endLine : Int
  complexity : Int
  factors : List Factor := []
  parameters : List String := []
  deriving DecidableEq, Repr

namespace Finding

def lineCount (f : Finding) : Int :=
  f.endLine - f.startLine + 1

def ofRoutine (r : Routine) (score : Score) (file language : String) : Finding :=
  { file
    language
    function := r.name
    startLine := r.startLine
    endLine := r.endLine
    complexity := score.total
    factors := score.factors
    parameters := r.parameters }

def toJson (f : Finding) (withFactors : Bool) : Json :=
  .object <|
    [("file", .text f.file), ("function", .text f.function), ("complexity", .int f.complexity),
      ("start_line", .int f.startLine), ("end_line", .int f.endLine),
      ("language", .text f.language)] ++
      if withFactors && !f.factors.isEmpty then [("factors", .list (f.factors.map Factor.toJson))]
      else []

/-- The sum of the complexities, of one language only if one is given. -/
def total (fs : List Finding) (language : Option String := none) : Int :=
  let counted := fs.filter fun f => language.isNone || language == some f.language
  (counted.map (·.complexity)).foldr (· + ·) 0

end Finding

end CognitiveLoad
