/-!
# Errors of the operating system

The causes for which a file operation fails, with the system's words and numbers for them.
-/

namespace SealedRecords

/-- Why a file operation failed. -/
inductive OsError where
  | notFound
  | permissionDenied
  | alreadyExists
  | notADirectory
  | isADirectory
  | nameTooLong
  | tooManyLinks
  /-- A cause that the library does not tell apart, in the system's words. -/
  | other (text : String)
  deriving DecidableEq, Repr

/-- The wording of a cause. -/
def OsError.message : OsError → String
  | .notFound => "No such file or directory (os error 2)"
  | .permissionDenied => "Permission denied (os error 13)"
  | .alreadyExists => "File exists (os error 17)"
  | .notADirectory => "Not a directory (os error 20)"
  | .isADirectory => "Is a directory (os error 21)"
  | .nameTooLong => "File name too long (os error 36)"
  | .tooManyLinks => "Too many levels of symbolic links (os error 40)"
  | .other text => text

end SealedRecords
