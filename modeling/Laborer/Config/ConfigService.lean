import Laborer.Library.JsonText
import Laborer.Library.OrderedMap

/-!
# The config service

How `laborer.json` is updated. The text of a document is known by the value that
`JSON.parse` makes of it; the warnings of a read that fails are left out.
-/

namespace Laborer.Config

open Library

/-! ## Files and updates -/

inductive ConfigFile where
  | absent
  | unreadable
  | empty
  | malformed (content : String)
  | document (value : JsValue)

structure ConfigIOError where
  message : String

inductive AgentProvider where
  | opencode2 | claude | codex

def AgentProvider.text : AgentProvider → String
  | .opencode2 => "opencode2"
  | .claude => "claude"
  | .codex => "codex"

structure ProjectConfigUpdates where
  agent : Option AgentProvider := none
  conflictPrompt : Option String := none
  previewUrls : Option (List String) := none
  setupScripts : Option (List String) := none
  shortName : Option String := none
  shortNameAliases : Option (List String) := none
  watchIgnore : Option (List String) := none
  worktreeDir : Option String := none

/-! ## Reading -/

/-- The entries of the file, or nothing if there is none. A read that fails in any other
way counts as an object without entries. -/
def readRawConfigObject : ConfigFile → Option (OrderedMap String JsValue)
  | .absent => none
  | .unreadable => some []
  | .empty => some []
  | .malformed _ => some []
  | .document (.obj entries) => some entries
  | .document _ => some []

/-! ## Updating -/

/-- `if (value !== undefined) next[key] = value`. -/
def assign (key : String) (value : Option JsValue) (next : OrderedMap String JsValue) :
    OrderedMap String JsValue :=
  match value with
  | none => next
  | some value => next.set key value

def stringArray (items : List String) : JsValue :=
  .arr (items.map .str)

/-- The legacy agent value is replaced. -/
def migrateAgent (existing : OrderedMap String JsValue) : OrderedMap String JsValue :=
  if existing.get? "agent" = some (.str "opencode") then
    existing.set "agent" (.str "opencode2")
  else existing

def applyConfigUpdates (existing : OrderedMap String JsValue) (updates : ProjectConfigUpdates) :
    OrderedMap String JsValue :=
  let next := migrateAgent existing
  let next := assign "agent" (updates.agent.map fun agent => .str agent.text) next
  let next := assign "conflictPrompt" (updates.conflictPrompt.map .str) next
  let next := assign "shortName" (updates.shortName.map .str) next
  let next := assign "shortNameAliases" (updates.shortNameAliases.map stringArray) next
  let next := assign "worktreeDir" (updates.worktreeDir.map .str) next
  let next := assign "setupScripts" (updates.setupScripts.map stringArray) next
  let next := assign "previewUrls" (updates.previewUrls.map stringArray) next
  assign "watchIgnore" (updates.watchIgnore.map stringArray) next

/-! ## Writing -/

/-- The text is written beside the file and moved over it; either may fail. -/
def writeJsonAtomicStrict (targetPath tempPath : String) (content : OrderedMap String JsValue)
    (written moved : Bool) (file : ConfigFile) : Except ConfigIOError Unit × ConfigFile :=
  if written = false then
    (.error { message := "Failed to write temp config file " ++ tempPath }, file)
  else if moved = false then
    (.error { message := "Failed to atomically move " ++ tempPath ++ " to " ++ targetPath }, file)
  else (.ok (), .document (.obj (JsValue.rereadEntries content)))

def writeProjectConfig (projectConfigPath tempPath : String) (updates : ProjectConfigUpdates)
    (written moved : Bool) (file : ConfigFile) : Except ConfigIOError Unit × ConfigFile :=
  let existing := (readRawConfigObject file).getD []
  let next := applyConfigUpdates existing updates
  writeJsonAtomicStrict projectConfigPath tempPath next written moved file

end Laborer.Config
