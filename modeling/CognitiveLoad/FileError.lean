import CognitiveLoad.Text.Basic
import CognitiveLoad.Text.Utf8

/-!
Why files cannot be worked with: the system refuses a path, a path cannot be handed to the system,
or the bytes of a file are no text.
-/

namespace CognitiveLoad

/-- Why the system refuses a path. -/
inductive Cause where
  | notFound
  | noDevice
  | alreadyExists
  | notDirectory
  | isDirectory
  | nameTooLong
  deriving DecidableEq, Repr

/-- The number by which the system tells a cause. -/
def Cause.number : Cause → Nat
  | notFound => 2
  | noDevice => 6
  | alreadyExists => 17
  | notDirectory => 20
  | isDirectory => 21
  | nameTooLong => 36

def Cause.text : Cause → String
  | notFound => "No such file or directory"
  | noDevice => "No such device or address"
  | alreadyExists => "File exists"
  | notDirectory => "Not a directory"
  | isDirectory => "Is a directory"
  | nameTooLong => "File name too long"

/-- Why a file cannot be worked with. A refusal tells the path as it was given, or none; a path with
a null character is not handed to the system. -/
inductive FileError where
  | refused (cause : Cause) (path : Option String)
  | nullCharacter
  | undecodable (e : Text.Utf8.Error)
  deriving DecidableEq, Repr

def FileError.message : FileError → String
  | refused cause none => s!"[Errno {cause.number}] {cause.text}"
  | refused cause (some path) => s!"[Errno {cause.number}] {cause.text}: {Text.quoted path}"
  | nullCharacter => "embedded null byte"
  | undecodable e => e.message

end CognitiveLoad
