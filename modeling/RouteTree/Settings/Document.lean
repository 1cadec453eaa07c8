import RouteTree.Settings
import RouteTree.Toml.Document

/-!
# Settings as documents

Settings are read from a TOML document. Keys that mean nothing are ignored, and
missing settings keep their defaults. A fixed response is a table with a status
and an optional body, or a list that starts with these.
-/

namespace RouteTree

open Toml

namespace FixedSetting

/-- A status is an integer of sixteen bits. -/
def statusOfNode? : Node → Option Nat
  | .integer value => if 0 ≤ value ∧ value < 65536 then some value.toNat else none
  | _ => none

def textOfNode? : Node → Option String
  | .text value => some value
  | _ => none

/-- A fixed response given as a table. -/
def ofEntries? (entries : Entries) : Option FixedSetting :=
  match (entries.find? "status").bind statusOfNode?, entries.find? "body" with
  | some status, none => some { status }
  | some status, some node => (textOfNode? node).map fun body => { status, body }
  | none, _ => none

/-- A fixed response given as a list; further items do not count. -/
def ofItems? : List Node → Option FixedSetting
  | [] => none
  | [status] => (statusOfNode? status).map fun status => { status }
  | status :: body :: _ =>
    match statusOfNode? status, textOfNode? body with
    | some status, some body => some { status, body }
    | _, _ => none

def ofNode? : Node → Option FixedSetting
  | .table _ entries | .inline _ entries => ofEntries? entries
  | .array items => ofItems? items
  | _ => none

end FixedSetting

namespace Settings

/-- The setting under a key, or its default if the key is missing. -/
def entryOr {α : Type} (entries : Entries) (key : String) (default : α)
    (read : Node → Option α) : Option α :=
  match entries.find? key with
  | none => some default
  | some node => read node

def flagOfNode? : Node → Option Bool
  | .boolean value => some value
  | _ => none

/-- Settings from the keys of a document. -/
def ofEntries? (entries : Entries) : Option Settings := do
  let defaults : Settings := {}
  let notFound ← entryOr entries "not_found" defaults.notFound FixedSetting.ofNode?
  let unhandled ← entryOr entries "unhandled" defaults.unhandled FixedSetting.ofNode?
  let logListings ← entryOr entries "log_listings" defaults.logListings flagOfNode?
  some { notFound, unhandled, logListings }

/-- Read and check settings. -/
def parse (document : String) : Except SettingsError Settings :=
  match (Toml.parse? document).bind ofEntries? with
  | some settings => settings.validate
  | none => .error .malformed

/-- Read and check settings from the bytes of a file, if there is one. -/
def load (file : Option ByteArray) : Except SettingsError Settings :=
  match file.bind String.fromUTF8? with
  | some document => parse document
  | none => .error .unreadable

end Settings

end RouteTree
