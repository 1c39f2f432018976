import CecRelay.Config.Environment
import CecRelay.Text.Terminal

/-!
# What the program says about itself

The version is one line. The help text has a line for every option, and all their purposes start in
the same column; a purpose of several lines goes on in that column. On a terminal headings and options
stand out, and the environment may ask for that elsewhere too. If it does not, control sequences are
left out of the text, those in the name of the configuration file among them.
-/

namespace CecRelay.CommandLine

/-- The program's name. -/
def programName : String := "cec-controller"

/-- The program's version. -/
def version : String := programName ++ " 0.2.0\n"

/-- What the program is. -/
def about : String :=
  "HDMI-CEC remote control daemon with a crash-durable event relay and self-healing adapter " ++
    "connection"

/-- An option in the help text: its form and what it does. -/
structure HelpLine where
  /-- The option, with its value. -/
  form : String
  /-- What it does. -/
  purpose : String

/-- The options that have a long name only. -/
def longLines (config : String) : List HelpLine :=
  [⟨"--config <CONFIG>",
     "Config file (default: /etc/cec-controller.toml if present) [env: CEC_CONTROLLER_CONFIG=" ++
       config ++ "]"⟩,
   ⟨"--cec-adapter <CEC_ADAPTER>", "CEC adapter path (leave empty for auto-detect)"⟩,
   ⟨"--device-name <DEVICE_NAME>", "Name announced on the CEC bus (default: host name)"⟩,
   ⟨"--debug", "Enable debug output"⟩,
   ⟨"--no-power-events", "Disable power event handling"⟩,
   ⟨"--devices <ADDR[,ADDR]>", "Power event device addresses, e.g. `--devices 0,1`"⟩,
   ⟨"--keymap <NAME:CODE[+CODE]>",
     "Key mapping override, e.g. `--keymap up:103` or `--keymap select:29+28`"⟩,
   ⟨"--retries <RETRIES>", "Adapter reopen attempts before the connection counts as failed"⟩]

/-- The options that have a letter too. -/
def letterLines : List HelpLine :=
  [⟨"-h, --help", "Print help"⟩, ⟨"-V, --version", "Print version"⟩]

/-- The column in which the purposes start. -/
def purposeColumn : Nat := 35

/-- A text that stands out. -/
def bold (s : String) : String := "\x1b[1m" ++ s ++ "\x1b[0m"

/-- A heading. -/
def heading (s : String) : String := "\x1b[1m\x1b[4m" ++ s ++ "\x1b[0m"

/-- So many spaces. -/
def spaces (n : Nat) : String := String.ofList (List.replicate n ' ')

/-- A word of an option's form: the option itself stands out, its value does not. -/
def formWord (word : String) : String :=
  match word.toList with
  | '-' :: _ =>
    match word.toList.getLast? with
    | some ',' => bold (String.ofList word.toList.dropLast) ++ ","
    | _ => bold word
  | _ => word

/-- An option's form. -/
def formText (form : String) : String :=
  String.intercalate " " ((Text.pieces ' ' form).map formWord)

/-- A purpose, its lines after the first put into the column of purposes. -/
def purposeText (purpose : String) : String :=
  String.intercalate ("\n" ++ spaces purposeColumn) (Text.pieces '\n' purpose)

/-- A line of the help text, its option starting in a column. -/
def HelpLine.text (column : Nat) (l : HelpLine) : String :=
  spaces column ++ formText l.form ++ spaces (purposeColumn - (column + l.form.length)) ++
    purposeText l.purpose ++ "\n"

/-- The help text on a terminal; `config` is the configuration file that the environment names. -/
def colorfulHelp (config : String) : String :=
  about ++ "\n\n" ++ heading "Usage:" ++ " " ++ bold programName ++ " [OPTIONS]\n\n" ++
    heading "Options:" ++ "\n" ++
    String.join ((longLines config).map (HelpLine.text 6)) ++
    String.join (letterLines.map (HelpLine.text 2))

/-- The variable that forbids texts to stand out. -/
def plainVariable : String := "NO_COLOR"

/-- The variable that has texts stand out wherever they go. -/
def colorfulVariable : String := "CLICOLOR_FORCE"

/-- Texts are to stand out even if they do not go to a terminal. -/
def isColorful (env : Environment) : Bool :=
  (env plainVariable).getD "" = "" &&
    (match env colorfulVariable with
      | none => false
      | some value => value ≠ "0")

/-- The help text in an environment; `config` is the configuration file that it names. -/
def help (env : Environment) (config : String) : String :=
  let text := colorfulHelp config
  if isColorful env then text else Terminal.plain text

end CecRelay.CommandLine
