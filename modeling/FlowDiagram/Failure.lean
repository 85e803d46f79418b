import FlowDiagram.Markup.Fault

/-!
# Failures

Why no diagram comes out: the document could not be got hold of (`Failure.unreadable`), it could not be read
(`Failure.malformed`), or what it was made into was refused (`Failure.invalid`).
-/

namespace FlowDiagram

/-- Why a path cannot be read or written. -/
inductive FileFault where
  /-- Nothing is there. -/
  | missing
  /-- A part of the path that should be a directory is a file. -/
  | notDirectory
  /-- A directory is there. -/
  | isDirectory
  /-- Something is there already. -/
  | occupied
  /-- The path or a name in it has more bytes than the system takes. -/
  | nameTooLong
  /-- What is there is no text in UTF-8. -/
  | notText
  deriving DecidableEq, Repr

/-- The wording of a file fault, as the operating system has it. -/
def FileFault.message : FileFault → String
  | missing => "No such file or directory (os error 2)"
  | notDirectory => "Not a directory (os error 20)"
  | isDirectory => "Is a directory (os error 21)"
  | occupied => "File exists (os error 17)"
  | nameTooLong => "File name too long (os error 36)"
  | notText => "stream did not contain valid UTF-8"

/-- Why no diagram comes out. -/
inductive Failure where
  | unreadable (path : String) (cause : FileFault)
  | malformed (cause : Markup.Fault)
  | invalid (reason : String)
  deriving DecidableEq, Repr

/-- The wording of a failure. -/
def Failure.message : Failure → String
  | unreadable path cause => "Flow source '" ++ path ++ "' could not be read: " ++ cause.message
  | malformed cause => "Failed to parse flow XML: " ++ cause.message
  | invalid reason => "Invalid flow source: " ++ reason

end FlowDiagram
