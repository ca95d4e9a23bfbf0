namespace ToolGrammar.Storage

inductive AccessError where
  | missing
  | occupied
  | notDirectory
  | isDirectory
  | nameTooLong
  /-- A path text with a character that no path may hold. -/
  | badPath
  /-- Bytes that are no text. -/
  | notText
  /-- Any other answer of a real file system, in its own words. -/
  | other (words : String)
  deriving DecidableEq, Repr

def AccessError.message : AccessError → String
  | .missing => "No such file or directory (os error 2)"
  | .occupied => "File exists (os error 17)"
  | .notDirectory => "Not a directory (os error 20)"
  | .isDirectory => "Is a directory (os error 21)"
  | .nameTooLong => "File name too long (os error 36)"
  | .badPath => "file name contained an unexpected NUL byte"
  | .notText => "stream did not contain valid UTF-8"
  | .other words => words

end ToolGrammar.Storage
