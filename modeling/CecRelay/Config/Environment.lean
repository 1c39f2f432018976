import CecRelay.Config.Basic
import CecRelay.Restart
import CecRelay.Text.Blank

/-!
# Configuration from the environment and the host

The environment may say where the queue is and how many restarts are left; this is how a restarted
program learns both. What depends on the host is filled in after that.
-/

namespace CecRelay

/-- The variables of an environment. -/
abbrev Environment := String → Option String

/-- The environment of a program that is started with variables put over another environment. -/
def Environment.layer (own : List (String × String)) (env : Environment) : Environment :=
  fun name => (own.lookup name).or (env name)

namespace Config

/-- The configuration with the queue where the environment says it is. -/
def withQueueDir (c : Config) (env : Environment) : Config :=
  match env queueDirVariable with
  | none => c
  | some dir => if dir = "" then c else { c with queue := { c.queue with dir := some dir } }

/-- The configuration with the restarts that the environment says are left, or a warning. -/
def withBudget (c : Config) (env : Environment) : Config × List Warning :=
  match env budgetVariable with
  | none => (c, [])
  | some value =>
    match Text.readUInt32 (Text.trim value.toList) with
    | .ok budget => ({ c with budget := budget }, [])
    | .error cause => (c, [.restartBudget value cause])

/-- The configuration after the environment. -/
def withEnvironment (c : Config) (env : Environment) : Config × List Warning :=
  (c.withQueueDir env).withBudget env

/-- The variable with the folder for what does not last. -/
def temporaryVariable : String := "TMPDIR"

/-- The folder of the queue. One that nobody has named lies among what does not last, under a name
that `tag` tells from others. -/
def queueDir (c : Config) (env : Environment) (tag : String) : String :=
  c.queue.dir.getD
    (Injector.joined ((env temporaryVariable).getD "/tmp") ("cec-queue-" ++ tag))

/-- The variable with the name of the host. -/
def hostVariable : String := "HOSTNAME"

/-- The name of a host that has not told its own. -/
def fallbackName : String := "cec-controller"

/-- The name of a host. -/
def hostName (told : Option String) : String :=
  let name := Text.trimmed (told.getD "")
  if name = "" then fallbackName else name

/-- The configuration with what depends on the host. Without devices there are no power events. -/
def withHost (c : Config) (told : Option String) : Config :=
  let c :=
    if c.adapter.name = "" then { c with adapter := { c.adapter with name := hostName told } }
    else c
  if c.power.devices.isEmpty then { c with power := { c.power with enabled := false } } else c

end Config
end CecRelay
