import CecRelay.Keymap.Table
import CecRelay.Shape

/-!
# Making key strokes

A stroke is made by a program that takes it as arguments, or is only written to the log. Codes are
pressed in order and released in the opposite order, so that `[29, 46]` is a chord.
-/

namespace CecRelay

/-- Which way of making strokes is asked for. -/
inductive InjectorKind
  /-- By the program if it can be found, to the log otherwise. -/
  | auto
  /-- To the log. -/
  | log
  /-- By the program. -/
  | ydotool
  deriving DecidableEq, Repr

namespace InjectorKind

/-- The kinds by name. -/
def byName : List (String × InjectorKind) :=
  [("auto", .auto), ("log", .log), ("ydotool", .ydotool)]

/-- The name of a kind. -/
def name : InjectorKind → String
  | .auto => "auto"
  | .log => "log"
  | .ydotool => "ydotool"

/-- The kind in a document. -/
def read? {α : Type} [HasShape α] (a : α) : Option InjectorKind := Shape.choice? byName a

end InjectorKind

/-- A way of making strokes. -/
inductive Injector
  /-- To the log. -/
  | log
  /-- By the program at a path. -/
  | program (binary : String)
  deriving DecidableEq, Repr

namespace Injector

/-- The name of the program that makes strokes. -/
def programName : String := "ydotool"

/-- The program's arguments for a stroke. -/
def arguments (stroke : Stroke) : List String :=
  ("key" :: stroke.map fun code => toString code ++ ":1") ++
    stroke.reverse.map fun code => toString code ++ ":0"

/-- The path of a name in a folder. -/
def joined (dir name : String) : String :=
  if dir = "" then name else if dir.endsWith "/" then dir ++ name else dir ++ "/" ++ name

/-- The first file of a name in the folders of a search path. -/
def find? (isFile : String → Bool) (name : String) (path : List String) : Option String :=
  (path.map (joined · name)).find? isFile

/-- The injector of a kind. The search path is none when it is not set. -/
def build (isFile : String → Bool) (path : Option (List String)) :
    InjectorKind → Injector × List Warning
  | .log => (.log, [])
  | .ydotool => (.program programName, [])
  | .auto =>
    match find? isFile programName (path.getD []) with
    | some binary => (.program binary, [])
    | none => (.log, [.injectorMissing])

/-- What comes of a stroke: the arguments that the program is started with, and the warnings. The
program runs only beside the relay, and `startFault?` tells what is in the way of starting it. -/
def make (startFault? : String → Option Fault) (inRun : Bool) (stroke : Stroke) :
    Injector → Option (List String) × List Warning
  | .log => (none, [])
  | .program binary =>
    if !inRun then (none, [.strokeOutsideRun])
    else match startFault? binary with
      | some fault => (none, [.strokeFailed binary fault])
      | none => (some (arguments stroke), [])

end Injector
end CecRelay
