/-
**Names of well-known encodings.**

A name is read without regard to case, and every row of characters other than ASCII letters, digits
and the full stop counts as one separator, none at either end. A name may also belong to a
transformation that is no encoding of texts.

* `Charset.normalized`: the form in which names are compared;
* `Charset.catalogue`, `Charset.named`: well-known names, and what a name among them stands for;
* `Charset.NameFault`: why a name gives no encoding.
-/

import Splice.Encoding.Charset

namespace Splice.Charset

/-- What a well-known name stands for. -/
inductive Named where
  | charset (charset : Charset)
  | transformation
  deriving DecidableEq, Repr

/-- The proper name and the other names of each well-known encoding and transformation, in normalized
form. -/
def catalogue : List (Named × String × List String) :=
  [(.charset .utf8, "utf_8", ["u8", "utf", "utf8", "utf8_ucs2", "utf8_ucs4", "cp65001"]),
    (.charset .utf8Marked, "utf_8_sig", []),
    (.charset .utf16, "utf_16", ["u16", "utf16"]),
    (.charset .utf16Little, "utf_16_le", ["unicodelittleunmarked", "utf_16le"]),
    (.charset .utf16Big, "utf_16_be", ["unicodebigunmarked", "utf_16be"]),
    (.charset .utf32, "utf_32", ["u32", "utf32"]),
    (.charset .utf32Little, "utf_32_le", ["utf_32le"]),
    (.charset .utf32Big, "utf_32_be", ["utf_32be"]),
    (.charset .ascii, "ascii", ["646", "ansi_x3.4_1968", "ansi_x3_4_1968", "ansi_x3.4_1986",
      "cp367", "csascii", "ibm367", "iso646_us", "iso_646.irv_1991", "iso_ir_6", "us",
      "us_ascii"]),
    (.charset .latin1, "latin_1", ["8859", "cp819", "csisolatin1", "ibm819", "iso8859", "iso8859_1",
      "iso_8859_1", "iso_8859_1_1987", "iso_ir_100", "l1", "latin", "latin1"]),
    (.charset .windows1252, "cp1252", ["1252", "windows_1252"]),
    (.charset .latin9, "iso8859_15", ["iso_8859_15", "l9", "latin9"]),
    (.transformation, "hex_codec", ["hex"]),
    (.transformation, "rot_13", ["rot13"]),
    (.transformation, "base64_codec", ["base64", "base_64"]),
    (.transformation, "bz2_codec", ["bz2"]),
    (.transformation, "zlib_codec", ["zip", "zlib"]),
    (.transformation, "quopri_codec", ["quopri", "quoted_printable", "quotedprintable"]),
    (.transformation, "uu_codec", ["uu"])]

/-- What the entry of a name in the catalogue stands for. -/
def catalogued? (isName : String × List String → Bool) : Option Named :=
  (catalogue.find? fun (_, names) => isName names).map (·.1)

/-- The normalized characters of a name. `gap` says that separators have been passed, and `begun`
that a character has been written before them. -/
def normalizedFrom (gap begun : Bool) : Text → List Char
  | [] => []
  | .scalar char :: rest =>
    if char.isAlphanum || char = '.' then
      (if gap && begun then ['_'] else []) ++ char.toLower :: normalizedFrom false true rest
    else normalizedFrom true begun rest
  | .surrogate _ :: rest => normalizedFrom true begun rest

/-- The form in which names are compared. -/
def normalized (name : Text) : List Char := normalizedFrom false false name

/-- Why a name gives no encoding. -/
inductive NameFault where
  | unknown (name : Text)
  | transformation (name : Text) (advice : String)
  | nul
  | surrogate (fault : Fault)
  deriving DecidableEq, Repr

/-- What a name in the catalogue stands for. A name with full stops may also be one of the other names
when each full stop is taken for a separator. -/
def named (name : Text) : Except NameFault Named :=
  match Charset.utf8.encode name with
  | .error fault => .error (.surrogate fault)
  | .ok _ =>
    if name.contains (.scalar '\x00') then .error .nul
    else
      let written := String.ofList (normalized name)
      let spaced :=
        String.ofList ((normalized name).map fun char => if char = '.' then '_' else char)
      let exact := catalogued? fun (proper, others) => proper == written || others.contains written
      let found := exact.orElse fun _ => catalogued? fun (_, others) => others.contains spaced
      match found with
      | some named => .ok named
      | none => .error (.unknown name)

theorem named_nil : named [] = .error (.unknown []) := rfl

/-- The most octets that a message shows of the name of a transformation. -/
def shownOctets : Nat := 400

/-- The text of a fault. -/
def NameFault.message : NameFault → Text
  | .unknown name => Text.concat ["unknown encoding: ", name]
  | .transformation name advice =>
    Text.concat ["'", Utf8.cut shownOctets name, "' is not a text encoding; use ", advice,
      " to handle arbitrary codecs"]
  | .nul => "embedded null character"
  | .surrogate fault => fault.message

end Splice.Charset
