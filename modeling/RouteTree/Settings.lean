import RouteTree.Event
import RouteTree.Http.Response

/-!
# Settings

A route tree has two fixed responses, one for requests that no route matches
and one for faults that nothing handles, and a switch for logging the listings
of its routes. A status in the settings may be any number and is checked before
the tree is built.
-/

namespace RouteTree

open Http

/-- A fixed response whose status has not been checked. -/
structure FixedSetting where
  status : Nat
  body : String := ""
  deriving DecidableEq, Repr

namespace FixedSetting

/-- The response, if the status is one. -/
def response? (setting : FixedSetting) : Option Response :=
  (Status.ofNat? setting.status).map fun status => .fixed status setting.body

/-- The response; a number that is no status is replaced. -/
def responseOr (setting : FixedSetting) (fallback : Status) : Response :=
  setting.response?.getD (.fixed fallback setting.body)

end FixedSetting

structure Settings where
  notFound : FixedSetting := { status := 404 }
  unhandled : FixedSetting := { status := 500 }
  logListings : Bool := false
  deriving DecidableEq, Repr

/-- A setting whose status is none. -/
structure SettingsProblem where
  field : String
  status : Nat
  deriving DecidableEq, Repr

namespace SettingsProblem

def message (problem : SettingsProblem) : String :=
  Nat.repr problem.status ++ " is not a valid HTTP status"

def text (problem : SettingsProblem) : String := problem.field ++ ": " ++ problem.message

end SettingsProblem

/-- Why settings cannot be used. -/
inductive SettingsError where
  /-- The file is missing or is not text. -/
  | unreadable
  /-- The text does not describe settings. -/
  | malformed
  | invalid (problems : List SettingsProblem)
  deriving DecidableEq, Repr

namespace SettingsError

/-- The message for settings with problems. -/
def invalidMessage (problems : List SettingsProblem) : String :=
  "Validation failed: " ++ Text.join ", " (problems.map SettingsProblem.text)

end SettingsError

namespace Settings

/-- The problem of one setting, if it has one. -/
def problem (field : String) (setting : FixedSetting) : List SettingsProblem :=
  match Status.ofNat? setting.status with
  | some _ => []
  | none => [⟨field, setting.status⟩]

/-- All problems, in the order of the settings. -/
def problems (settings : Settings) : List SettingsProblem :=
  problem "not_found.status" settings.notFound ++ problem "unhandled.status" settings.unhandled

/-- Settings without problems. -/
def validate (settings : Settings) : Except SettingsError Settings :=
  match settings.problems with
  | [] => .ok settings
  | problems => .error (.invalid problems)

/-- The record of settings read from a file. -/
def loadedRecord (settings : Settings) : Record :=
  .settingsLoaded settings.notFound.status settings.unhandled.status settings.logListings

end Settings

end RouteTree
