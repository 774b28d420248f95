import ScriptLexer.Encoding.Utf8
import ScriptLexer.Text.Quoted

/-! # Opening files

What the rest of the library needs of a file system: for each path either the bytes of a file or the
reason why there is none to read. -/

namespace ScriptLexer

/-- Why a path leads to no readable file. Besides the usual reasons a file system may have others,
each with its number. -/
inductive OpenFailure where
  | notFound
  | notADirectory
  | isADirectory
  | nameTooLong
  | other (number : Nat) (reason : Text)
deriving DecidableEq, Repr

namespace OpenFailure

/-- The number of the failure. -/
def number : OpenFailure → Nat
  | notFound => 2
  | notADirectory => 20
  | isADirectory => 21
  | nameTooLong => 36
  | other number _ => number

def reason : OpenFailure → Text
  | notFound => "No such file or directory".toList
  | notADirectory => "Not a directory".toList
  | isADirectory => "Is a directory".toList
  | nameTooLong => "File name too long".toList
  | other _ reason => reason

/-- The reasons that every file system has. -/
def usual : List OpenFailure :=
  [notFound, notADirectory, isADirectory, nameTooLong]

/-- The failure with a given number, for which a file system gives a reason. -/
def ofNumber (number : Nat) (reason : Text) : OpenFailure :=
  (usual.find? fun f => f.number = number).getD (other number reason)

/-- The failure with everything that is known about it. -/
def written (path : Text) (f : OpenFailure) : Text :=
  "[Errno ".toList ++ Text.ofNat f.number ++ "] ".toList ++ f.reason ++ ": ".toList ++
    Text.quoted path

end OpenFailure

/-- What reading each path comes to. -/
abbrev FileSystem :=
  Text → Except OpenFailure Bytes

end ScriptLexer
