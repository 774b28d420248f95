import ScriptLexer.Encoding.Basic
import ScriptLexer.Files.Opening

/-! # Reading a script

A script is the text of a file in one of the encodings of the platform. Bytes that encode nothing
become replacement characters, and line ends are left as they are. The file is opened before its
encoding is looked up, so a missing file is reported whatever the encoding. -/

namespace ScriptLexer

/-- The encoding that is asked for: that of the platform or one by its name. It is also possible to
ask for one and leave out its name. -/
inductive EncodingChoice where
  | platform
  | named (name : Text)
  | nameless
deriving DecidableEq, Repr

/-- The choice of an encoding whose name may be given. -/
def EncodingChoice.ofName? : Option Text → EncodingChoice
  | some name => named name
  | none => platform

/-- Why a script cannot be read. -/
inductive ReadFailure where
  | noEncodingName
  | nulInEncodingName
  | nulInPath
  | cannotOpen (path : Text) (failure : OpenFailure)
  | noEncoding (e : Encoding.NameError)
  | markMissing
deriving DecidableEq, Repr

def ReadFailure.message : ReadFailure → Text
  | noEncodingName => "open() argument 'encoding' must be str or None, not list".toList
  | nulInEncodingName => "embedded null character".toList
  | nulInPath => "embedded null byte".toList
  | cannotOpen path f => f.written path
  | noEncoding e => e.message
  | markMissing => "UTF-16 stream does not start with BOM".toList

/-- How the encoding asked for is decoded. Looking it up comes last, so it is put off until the file is
open; a name that cannot be one is refused at once. -/
def EncodingChoice.decoder (codecs : Codecs) :
    EncodingChoice → Except ReadFailure (Except Encoding.NameError Decoder)
  | platform => .ok (codecs.named codecs.preferred)
  | named name => if '\x00' ∈ name then .error .nulInEncodingName else .ok (codecs.named name)
  | nameless => .error .noEncodingName

/-- The failure to decode an opened file. -/
def ReadFailure.ofDecoding : Encoding.DecodeError → ReadFailure
  | .markMissing => markMissing
  | .other reason => noEncoding (.other reason)

/-- The text of a script. -/
def readScript (files : FileSystem) (path : Text) (choice : EncodingChoice)
    (codecs : Codecs := .builtIn) : Except ReadFailure Text :=
  match choice.decoder codecs with
  | .error f => .error f
  | .ok found =>
    if '\x00' ∈ path then .error .nulInPath
    else
      match files path, found with
      | .error f, _ => .error (.cannotOpen path f)
      | .ok _, .error e => .error (.noEncoding e)
      | .ok bytes, .ok decode => (decode bytes).mapError .ofDecoding

end ScriptLexer
