import ScriptLexer.Encoding.Utf8
import ScriptLexer.Encoding.Utf16
import ScriptLexer.Encoding.SingleByte

/-! # Encodings by name

A script is read in an encoding that is given by name. Which encodings there are, what their names
are, and which of them is meant where none is asked for, is up to the platform. Built in are ASCII,
Latin-1, Windows-1252, UTF-8 with and without a mark, and UTF-16 with a mark or in a given order. In
their names letters of either case and any signs between words are the same, and most of them have
several names. -/

namespace ScriptLexer

/-- An encoding of text as bytes. -/
inductive Encoding where
  | utf8
  | utf8Marked
  | ascii
  | latin1
  | windows1252
  | utf16Marked
  | utf16 (order : Utf16.Order)
deriving DecidableEq, Repr

namespace Encoding

/-- Why bytes are not decoded. Malformed bytes are no reason, for they become replacement characters,
but platforms may have reasons of their own. None of them is a failure of the file. -/
inductive DecodeError where
  | markMissing
  | other (reason : Text)
deriving DecidableEq, Repr

end Encoding

/-- What makes bytes into text. -/
abbrev Decoder := Bytes → Except Encoding.DecodeError Text

namespace Encoding

/-- How an encoding is decoded. -/
def decoder (e : Encoding) : Decoder := fun bytes =>
  match e with
  | utf8 => .ok (Utf8.decode bytes)
  | utf8Marked => .ok (Utf8.decodeMarked bytes)
  | ascii => .ok (bytes.map SingleByte.ascii)
  | latin1 => .ok (bytes.map SingleByte.latin1)
  | windows1252 => .ok (bytes.map SingleByte.windows1252)
  | utf16Marked =>
    match Utf16.decodeMarked? bytes with
    | some t => .ok t
    | none => .error .markMissing
  | utf16 order => .ok (Utf16.decode order bytes)

/-! ## Names -/

/-- The part of a name that counts: runs of anything but ASCII letters, digits and points become one
underscore, and none is left at the ends. `pending` says that such a run has just been passed. -/
def plainNameFrom (pending : Bool) : Text → Text
  | [] => []
  | c :: rest =>
    if c.isAlphanum || c = '.' then
      (if pending then ['_'] else []) ++ c.toLower :: plainNameFrom false rest
    else plainNameFrom true rest

def plainName (name : Text) : Text :=
  plainNameFrom false (name.dropWhile fun c => !(c.isAlphanum || c = '.'))

/-- What a name can stand for: an encoding of text, or a transformation that turns no bytes into
text. -/
inductive Codec where
  | text (e : Encoding)
  | transformation
deriving DecidableEq, Repr

/-- The main names. -/
def mainNames : List (String × Codec) :=
  [("utf_8", .text utf8), ("utf_8_sig", .text utf8Marked), ("ascii", .text ascii),
   ("latin_1", .text latin1), ("iso8859_1", .text latin1), ("cp1252", .text windows1252),
   ("utf_16", .text utf16Marked), ("utf_16_le", .text (utf16 .littleEndian)),
   ("utf_16_be", .text (utf16 .bigEndian)), ("base64_codec", .transformation),
   ("bz2_codec", .transformation), ("hex_codec", .transformation),
   ("quopri_codec", .transformation), ("rot_13", .transformation), ("uu_codec", .transformation),
   ("zlib_codec", .transformation)]

/-- The other names. -/
def otherNames : List (Codec × List String) :=
  [(.text utf8, ["u8", "utf", "utf8", "utf8_ucs2", "utf8_ucs4", "cp65001"]),
   (.text ascii, ["646", "ansi_x3.4_1968", "ansi_x3_4_1968", "ansi_x3.4_1986", "cp367", "csascii",
     "ibm367", "iso646_us", "iso_646.irv_1991", "iso_ir_6", "us", "us_ascii"]),
   (.text latin1, ["8859", "cp819", "csisolatin1", "ibm819", "iso8859", "iso8859_1", "iso_8859_1",
     "iso_8859_1_1987", "iso_ir_100", "l1", "latin", "latin1"]),
   (.text windows1252, ["1252", "windows_1252"]),
   (.text utf16Marked, ["u16", "utf16"]),
   (.text (utf16 .littleEndian), ["unicodelittleunmarked", "utf_16le"]),
   (.text (utf16 .bigEndian), ["unicodebigunmarked", "utf_16be"]),
   (.transformation, ["base64", "base_64", "bz2", "hex", "quopri", "quoted_printable",
     "quotedprintable", "rot13", "uu", "zip", "zlib"])]

/-- What one of the main names stands for. -/
def ofMainName? (name : Text) : Option Codec :=
  mainNames.lookup (String.ofList name)

/-- What one of the other names stands for. -/
def ofOtherName? (name : Text) : Option Codec :=
  (otherNames.find? fun e => e.2.contains (String.ofList name)).map Prod.fst

/-- What a plain name stands for. In the other names an underscore may be written as a point. -/
def codecOfPlain? (plain : Text) : Option Codec :=
  ofOtherName? plain <|> ofOtherName? (plain.map fun c => if c = '.' then '_' else c) <|>
    ofMainName? plain

/-- Why no encoding of text is had by a name. Platforms may have reasons of their own, of which none is
a failure of a file. -/
inductive NameError where
  | unknown (name : Text)
  | notText (name : Text)
  | other (reason : Text)
deriving DecidableEq, Repr

def NameError.message : NameError → Text
  | unknown name => "unknown encoding: ".toList ++ name
  | notText name =>
    '\x27' :: name ++
      "' is not a text encoding; use codecs.open() to handle arbitrary codecs".toList
  | other reason => reason

/-- The encoding with a given name. -/
def ofName (name : Text) : Except NameError Encoding :=
  match codecOfPlain? (plainName name) with
  | some (.text e) => .ok e
  | some .transformation => .error (.notText name)
  | none => .error (.unknown name)

end Encoding

/-! ## Platforms -/

/-- The encodings of a platform: the name of the one that is preferred where none is asked for, the
name of the one of its locale, and what each name stands for. -/
structure Codecs where
  preferred : Text
  locale : Text
  find : Text → Except Encoding.NameError Decoder

namespace Codecs

/-- A platform with the encodings that are built in and no others, on which texts are in UTF-8. To
platforms that know more, a name that is unknown here may be the name of an encoding. -/
def builtIn : Codecs where
  preferred := "utf-8".toList
  locale := "utf-8".toList
  find name := (Encoding.ofName name).map Encoding.decoder

/-- What a name comes to. The name `locale` is short for that of the locale's encoding. -/
def named (codecs : Codecs) (name : Text) : Except Encoding.NameError Decoder :=
  codecs.find (if name = "locale".toList then codecs.locale else name)

end Codecs

end ScriptLexer
