import MemoryProbe.Json.Reader
import MemoryProbe.Settings.Format
import MemoryProbe.Settings.Given

namespace MemoryProbe

/-!
Settings as a JSON text, the format that is used.  An object names the settings
it gives, in any order and each at most once, and members of other names are
skipped.  A list gives the first settings in their order.  What is not given
keeps its default.
-/

/-- The setting of a name. -/
def SettingName.ofText? (name : List Char) : Option SettingName :=
  all.find? fun setting => setting.text.toList == name

namespace GivenSettings

def gives (given : GivenSettings) : SettingName -> Bool
  | .memoryLimit => given.memoryLimit.isSome
  | .maxThreads => given.maxThreads.isSome
  | .blockFactor => given.blockFactor.isSome
  | .maxResults => given.maxResults.isSome
  | .showFailedReads => given.showFailedReads.isSome

def wordKind : String := "usize"

/-- The wording of the kind of truth values. -/
def flagKind : String := "a boolean"

/-- The wording of the kind of a whole text. -/
def documentKind : String := "struct Config"

/-- What was read, with the rest of the text behind it. -/
abbrev Taken := GivenSettings × List Char

def readValue (given : GivenSettings) (name : SettingName) (text : List Char) :
    Except Json.Flaw Taken :=
  let word (set : Word -> GivenSettings) : Except Json.Flaw Taken :=
    (Json.readWord wordKind text).map fun taken => (set taken.1, taken.2)
  match name with
  | .memoryLimit => word fun value => { given with memoryLimit := some value }
  | .maxThreads => word fun value => { given with maxThreads := some value }
  | .blockFactor => word fun value => { given with blockFactor := some value }
  | .maxResults => word fun value => { given with maxResults := some value }
  | .showFailedReads =>
    (Json.readFlag flagKind text).map fun taken =>
      ({ given with showFailedReads := some taken.1 }, taken.2)

/-- The place of a repeated name: behind the blanks that follow it, and behind
the end of the object if that comes next. -/
def repeatedPlace (text : List Char) : List Char :=
  match Json.skipBlanks text with
  | '\x7d' :: rest => rest
  | rest => rest

/-- Read a member of an object behind the opening quote of its name. -/
def readMember (given : GivenSettings) (text : List Char) :
    Except Json.Flaw Taken := do
  let (name, rest) <- Json.readText text
  match SettingName.ofText? name with
  | none =>
    let rest <- Json.skipColon rest
    let rest <- Json.skipValue rest
    return (given, rest)
  | some setting =>
    if given.gives setting then
      throw (.here (.repeatedName setting.text) (repeatedPlace rest))
    else
      let rest <- Json.skipColon rest
      given.readValue setting rest

/-- Read the members of an object behind the opening quote of the first name,
at most so many. -/
def readMembers (given : GivenSettings) (text : List Char) :
    (members : Nat) -> Except Json.Flaw Taken
  | 0 => .error (.here .endOfObject text)
  | members + 1 => do
    let (given, rest) <- given.readMember text
    match Json.skipBlanks rest with
    | '\x7d' :: rest => return (given, rest)
    | ',' :: rest =>
      match Json.skipBlanks rest with
      | '\x22' :: rest => given.readMembers rest members
      | '\x7d' :: rest => throw (.here .trailingComma rest)
      | [] => throw (.ahead .endOfValue [])
      | rest => throw (.ahead .nameNotText rest)
    | [] => throw (.ahead .endOfObject [])
    | rest => throw (.ahead .expectedObjectEnd rest)

/-- Read an object behind its opening brace.  Every member takes a character, so
the length of the text bounds their number. -/
def readObject (text : List Char) : Except Json.Flaw Taken :=
  match Json.skipBlanks text with
  | '\x7d' :: rest => .ok ({}, rest)
  | '\x22' :: rest => readMembers {} rest (rest.length + 1)
  | [] => .error (.ahead .endOfObject [])
  | rest => .error (.ahead .nameNotText rest)

def readListEnd (given : GivenSettings) (text : List Char) :
    Except Json.Flaw Taken :=
  match Json.skipBlanks text with
  | ']' :: rest => .ok (given, rest)
  | ',' :: rest =>
    match Json.skipBlanks rest with
    | ']' :: rest => .error (.here .trailingComma rest)
    | rest => .error (.ahead .trailingCharacters rest)
  | [] => .error (.ahead .endOfList [])
  | rest => .error (.ahead .trailingCharacters rest)

/-- Read the elements of a list behind the first, as the values of some
settings in their order. -/
def readElements (given : GivenSettings) (text : List Char) :
    List SettingName -> Except Json.Flaw Taken
  | [] => given.readListEnd text
  | name :: names =>
    match Json.skipBlanks text with
    | ']' :: rest => .ok (given, rest)
    | ',' :: rest =>
      match Json.skipBlanks rest with
      | ']' :: rest => .error (.here .trailingComma rest)
      | [] => .error (.ahead .endOfValue [])
      | rest => do
        let (given, rest) <- given.readValue name rest
        given.readElements rest names
    | [] => .error (.ahead .endOfList [])
    | rest => .error (.ahead .expectedListEnd rest)

/-- Read a list behind its opening bracket. -/
def readList (text : List Char) : Except Json.Flaw Taken :=
  match Json.skipBlanks text with
  | ']' :: rest => .ok ({}, rest)
  | [] => .error (.ahead .endOfList [])
  | rest => do
    let (given, rest) <- readValue {} .memoryLimit rest
    given.readElements rest (SettingName.all.drop 1)

/-- Read a whole text. -/
def ofDocument (text : List Char) : Except Json.Flaw GivenSettings := do
  let (given, rest) <-
    match Json.skipBlanks text with
    | '\x7b' :: rest => readObject rest
    | '[' :: rest => readList rest
    | [] => throw (.ahead .endOfValue [])
    | rest => throw (Json.wrongKind documentKind rest)
  match Json.skipBlanks rest with
  | [] => return given
  | rest => throw (.ahead .trailingCharacters rest)

end GivenSettings

namespace Settings

def valueText (settings : Settings) : SettingName -> String
  | .memoryLimit => toString settings.memoryLimit.toNat
  | .maxThreads => toString settings.maxThreads.toNat
  | .blockFactor => toString settings.blockFactor.toNat
  | .maxResults => toString settings.maxResults.toNat
  | .showFailedReads => if settings.showFailedReads then "true" else "false"

/-- The line of a setting. -/
def memberText (settings : Settings) (name : SettingName) : String :=
  "  \x22" ++ name.text ++ "\x22: " ++ settings.valueText name

/-- Settings as a JSON text: one member a line, in the order of the settings. -/
def document (settings : Settings) : String :=
  "\x7b\n" ++ ",\n".intercalate (SettingName.all.map settings.memberText) ++ "\n\x7d"

end Settings

/-- Settings as JSON. -/
def SettingsFormat.json : SettingsFormat where
  read := fun defaults text =>
    match GivenSettings.ofDocument text with
    | .error flaw => .error (flaw.message text)
    | .ok given => .ok (given.applyTo defaults)
  write := fun settings => .ok settings.document.toList

/-- The settings of a file that is written as JSON. -/
def Settings.ofFile (defaults : Settings)
    (contents : Except IoError (List UInt8)) : Except SettingsError Settings :=
  load .json defaults contents

end MemoryProbe
