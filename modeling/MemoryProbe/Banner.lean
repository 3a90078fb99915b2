namespace MemoryProbe

/-!
The banner at the start of the program: a title between two rules, and an
optional line below the title.  Texts stand in the middle of a line of fixed
width, and one that is wider stands alone.
-/

/-- What a banner shows. -/
structure Banner where
  title : String
  version : Option String := none
  subtitle : Option String := none
  coloured : Bool := true
deriving DecidableEq, Repr

namespace Banner

def programName : String := "proc-mem-tool"

def programVersion : String := "1.0.0"

/-- The banner of the program. -/
def standard : Banner where
  title := programName
  version := some programVersion
  subtitle := some "live process memory scanner and heap inspector"

def width : Nat := 52

/-- Put a text into the middle of a line; an odd blank goes to the right. -/
def centred (text : String) : String :=
  let missing := width - text.length
  let before := missing / 2
  String.ofList
    (List.replicate before ' ' ++ text.toList
      ++ List.replicate (missing - before) ' ')

/-- The line above and below the texts. -/
def rule : String :=
  String.ofList (List.replicate width '=')

/-- The control sequence that ends every style. -/
def endOfStyle : String := "\x1b[0m"

/-- The control sequence of cyan. -/
def cyan : String := "\x1b[36m"

/-- The control sequence of bold cyan. -/
def boldCyan : String := "\x1b[1;36m"

/-- Put a text under a style.  Where the text itself ends every style, the style
is begun again. -/
def styled (style text : String) : String :=
  style ++ (endOfStyle ++ style).intercalate (text.splitOn endOfStyle)
    ++ endOfStyle

/-- The title with the version behind it. -/
def heading (banner : Banner) : String :=
  match banner.version with
  | some version => banner.title ++ " v" ++ version
  | none => banner.title

def lines (banner : Banner) : List String :=
  let paint (style text : String) : String :=
    if banner.coloured then styled style text else text
  [paint cyan rule, paint boldCyan (centred banner.heading)]
    ++ (banner.subtitle.map centred).toList ++ [paint cyan rule]

/-- The banner as a text without a final line feed. -/
def text (banner : Banner) : String :=
  "\n".intercalate banner.lines

end Banner

end MemoryProbe
