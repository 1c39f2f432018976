/-!
# Errors

What can go wrong for a whole operation, as opposed to a single item that is passed over with a
warning. `RelayError.message` is the wording shown to the user.
-/

namespace CecRelay

/-- A refusal of the operating system. -/
inductive Fault
  /-- There is nothing of that name. -/
  | missing
  /-- The program may not do this. -/
  | denied
  /-- Something of that name is in the way. -/
  | exists
  /-- A folder was expected. -/
  | notFolder
  /-- A folder was not expected. -/
  | isFolder
  /-- The file has reached the largest size. -/
  | tooLarge
  /-- The file is no text in UTF-8. -/
  | notText
  /-- The name of a program or an argument holds a zero byte. -/
  | zeroByte
  /-- A path holds a zero byte. -/
  | zeroByteInPath
  /-- A name or a path is too long. -/
  | nameTooLong
  /-- An argument is too long. -/
  | argumentTooLong
  /-- This cannot be done to a folder by a path that ends in a dot. -/
  | invalid
  /-- The folder has something in it. -/
  | notEmpty
  deriving DecidableEq, Repr

/-- The wording of a refusal. -/
def Fault.message : Fault → String
  | .missing => "No such file or directory (os error 2)"
  | .denied => "Permission denied (os error 13)"
  | .exists => "File exists (os error 17)"
  | .notFolder => "Not a directory (os error 20)"
  | .isFolder => "Is a directory (os error 21)"
  | .tooLarge => "File too large (os error 27)"
  | .notText => "stream did not contain valid UTF-8"
  | .zeroByte => "nul byte found in provided data"
  | .zeroByteInPath => "file name contained an unexpected NUL byte"
  | .nameTooLong => "File name too long (os error 36)"
  | .argumentTooLong => "Argument list too long (os error 7)"
  | .invalid => "Invalid argument (os error 22)"
  | .notEmpty => "Directory not empty (os error 39)"

/-- A power command of the bus. -/
inductive PowerCommand
  /-- Wake the device. -/
  | powerOn
  /-- Put the device in standby. -/
  | standby
  deriving DecidableEq, Repr

/-- The name of a command in messages and reports. -/
def PowerCommand.name : PowerCommand → String
  | .powerOn => "power_on"
  | .standby => "standby"

/-- An error of the relay. -/
inductive RelayError
  /-- The queue on disk could not be opened, or holds something unknown. -/
  | storage (detail : String)
  /-- The configuration cannot be read. -/
  | config (detail : String)
  /-- The adapter or a listener could not be started. -/
  | connection (detail : String)
  /-- A command was rejected, and once more after reconnecting. -/
  | commandFailed (command : PowerCommand) (address : UInt8)
  /-- Every attempt to open the adapter again has failed. -/
  | reconnectExhausted (attempts : UInt32)
  /-- No restarts are left. -/
  | restartBudgetExhausted
  /-- The program could not be replaced by a fresh copy. -/
  | restartFailed (detail : String)
  /-- An item of the queue is not in the form of its type. -/
  | malformedItem
  /-- The configuration file is not in its form. -/
  | malformedConfig
  /-- The operating system has refused. -/
  | io (fault : Fault)
  deriving DecidableEq, Repr

namespace RelayError

/-- The wording of an error. What a malformed document is blamed for is not part of it. -/
def message : RelayError → String
  | storage detail => "storage error: " ++ detail
  | config detail => "config error: " ++ detail
  | connection detail => "connection error: " ++ detail
  | commandFailed command address =>
    command.name ++ " to address " ++ toString address ++ " failed after reconnecting"
  | reconnectExhausted attempts =>
    "failed to open CEC connection after " ++ toString attempts ++ " attempts"
  | restartBudgetExhausted => "restart budget exhausted"
  | restartFailed detail => "restart failed: " ++ detail
  | malformedItem => "serialization error"
  | malformedConfig => "config parse error"
  | io fault => "io error: " ++ fault.message

/-- An item of the queue carries a type nobody knows. -/
def unknownItemType (tag : String) : RelayError := .storage ("unknown queue item type: " ++ tag)

/-- The queue in a folder cannot be opened. -/
def cannotOpenQueue (dir : String) (cause : RelayError) : RelayError :=
  .storage ("cannot open queue at " ++ dir ++ ": " ++ cause.message)

/-- A configuration file cannot be read. -/
def cannotReadConfig (path : String) (fault : Fault) : RelayError :=
  .config ("cannot read " ++ path ++ ": " ++ fault.message)

/-- The program that drives the adapter cannot be started. -/
def cannotStartClient (binary : String) (fault : Fault) : RelayError :=
  .connection ("cannot start " ++ binary ++ ": " ++ fault.message)

/-- The program that listens for power events cannot be started. The name comes in quotes. -/
def cannotStartListener (quotedProgram : String) (fault : Fault) : RelayError :=
  .connection ("cannot start power event listener " ++ quotedProgram ++ ": " ++ fault.message)

end RelayError

/-- Why something has not been done. -/
inductive Failure
  /-- An error has been met, and it can be told. -/
  | error (cause : RelayError)
  /-- The program has broken off. -/
  | broken
  deriving DecidableEq, Repr

end CecRelay
