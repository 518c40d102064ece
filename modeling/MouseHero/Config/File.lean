import MouseHero.Config.Store
import MouseHero.Library.Scanning

/-!
# The configuration file

`ya_config_parse` and `ya_config_save`.  A file is the list of its bytes, and
the locale is the one a program starts in.
-/

namespace MouseHero

open Scanning

def MAX_LINE_LENGTH : Nat := 256

def NEWLINE : UInt8 := 10

def SEMICOLON : UInt8 := 59

def HASH : UInt8 := 35

def OPENING : UInt8 := 91

def CLOSING : UInt8 := 93

def EQUALS : UInt8 := 61

def QUOTE : UInt8 := 34

/-! ## Reading -/

/-- `isspace`: a space, or one of `\t`, `\n`, `\v`, `\f` and `\r`. -/
def isspace (byte : UInt8) : Bool :=
  byte = 32 || (9 ≤ byte && byte ≤ 13)

/-- `trim_whitespace`. -/
def trimWhitespace (str : List UInt8) : List UInt8 :=
  trim isspace str

/-- The text in front of a character that `strchr` finds. -/
def upTo (separator : UInt8) (str : List UInt8) : List UInt8 :=
  str.takeWhile (· ≠ separator)

/-- The text behind it. -/
def behind (separator : UInt8) (str : List UInt8) : List UInt8 :=
  (str.dropWhile (· ≠ separator)).tail

/-- `remove_inline_comment`. -/
def removeInlineComment (str : List UInt8) : List UInt8 :=
  trimWhitespace (upTo HASH (upTo SEMICOLON str))

/-- The text between a quote in front and the last one. -/
def unquote : List UInt8 → List UInt8
  | [] => []
  | first :: rest =>
      if first = QUOTE ∧ QUOTE ∈ rest then
        (rest.rdropWhile (· ≠ QUOTE)).dropLast
      else first :: rest

/-- What the successive calls of `fgets` return, each at most `room` bytes up
to the end of a line.  `line` is what has been read of the first one. -/
def fgetsLines (room : Nat) (line : List UInt8) :
    List UInt8 → List (List UInt8)
  | [] => if line = [] then [] else [line]
  | byte :: rest =>
      if byte = NEWLINE ∨ room ≤ (line ++ [byte]).length then
        (line ++ [byte]) :: fgetsLines room [] rest
      else fgetsLines room (line ++ [byte]) rest

/-- What a line says. -/
inductive ConfigLine where
  | ignored
  | sectionHeader (name : CharArray MAX_SECTION_LENGTH)
  | setting (key value : List UInt8)
  deriving DecidableEq, Repr

/-- The name that is copied and trimmed in place. -/
def trimSection (name : CharArray MAX_SECTION_LENGTH) :
    CharArray MAX_SECTION_LENGTH where
  text := trimWhitespace name.text
  noNul := fun member => name.noNul (mem_of_mem_trim member)
  fits := (length_trim_le name.text).trans_lt name.fits

/-- The body of the loop, as far as it looks at the line. -/
def readLine (line : List UInt8) : ConfigLine :=
  let start := trimWhitespace (cString line)
  match start with
  | [] => .ignored
  | first :: rest =>
      if first = SEMICOLON ∨ first = HASH then .ignored
      else if first = OPENING then
        if CLOSING ∈ start then
          .sectionHeader (trimSection (safeStrncpy (upTo CLOSING rest)))
        else .ignored
      else if EQUALS ∈ start then
        .setting (trimWhitespace (upTo EQUALS start))
          (unquote (removeInlineComment
            (trimWhitespace (behind EQUALS start))))
      else .ignored

/-- The rest of the loop of `ya_config_parse`, in a section, over what `fgets`
returns. -/
def parseLines (allocates : Nat → Bool)
    (currentSection : CharArray MAX_SECTION_LENGTH) (config : YaConfig) :
    List (List UInt8) → YaConfig × Int
  | [] => (config, 0)
  | line :: lines =>
      match readLine line with
      | .ignored => parseLines allocates currentSection config lines
      | .sectionHeader name => parseLines allocates name config lines
      | .setting key value =>
          match config.reserve allocates with
          | none => (config, -2)
          | some config =>
              parseLines allocates currentSection
                (config.append {
                  sectionName := currentSection
                  key := safeStrncpy key
                  value := safeStrncpy value }) lines

/-- `ya_config_parse` of a file, if it can be opened: the configuration and the
returned status. -/
def yaConfigParse (allocates : Nat → Bool) (file : Option (List UInt8))
    (config : YaConfig) : YaConfig × Int :=
  match file with
  | none => (config, -1)
  | some bytes =>
      parseLines allocates (safeStrncpy []) config
        (fgetsLines (MAX_LINE_LENGTH - 1) [] bytes)

/-! ## Writing -/

/-- The loop of `ya_config_save` behind the first entries, whose latest section
is `lastSection`. -/
def saveEntries (lastSection : CharArray MAX_SECTION_LENGTH) (first : Bool) :
    List YaConfigEntry → List UInt8
  | [] => []
  | entry :: rest =>
      (if lastSection.text ≠ entry.sectionName.text then
        (if first then [] else [NEWLINE]) ++
          [OPENING] ++ entry.sectionName.text ++ [CLOSING, NEWLINE]
      else []) ++
        entry.key.text ++ [EQUALS] ++ entry.value.text ++ [NEWLINE] ++
        saveEntries
          (if lastSection.text ≠ entry.sectionName.text then
            safeStrncpy entry.sectionName.text
          else lastSection) false rest

/-- `ya_config_save` to a file that can be opened or not: the new content and
the returned status. -/
def yaConfigSave (config : YaConfig) (opens : Bool) :
    Option (List UInt8) × Int :=
  if opens then (some (saveEntries (safeStrncpy []) true config.entries), 0)
  else (none, -1)

end MouseHero
