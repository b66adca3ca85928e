import Flowmind.Graph.Validation
import Flowmind.Program.Crew
import Flowmind.Store.ReadCommitted

/-!
# Publishing a version

A workflow has versions, each with a definition; at most one of them is the active one, which new
executions run.  `activateVersion` publishes a draft: in one transaction it archives the active version of the
workflow, makes the draft the active version, and lets the workflow point to it.  Any number of
calls may be under way at the same time, each one statement after the other; an update of several
rows finds them first and then changes them one by one.
-/

namespace Flowmind

/-! ## Workflows and their versions -/

/-- The status of a workflow. -/
inductive WorkflowStatus where
  | draft | active | paused | archived
deriving DecidableEq, Repr

/-- The status of a version. -/
inductive WorkflowVersionStatus where
  | draft | active | archived
deriving DecidableEq, Repr

/-- The definition that a version stores. -/
structure VersionDefinition where
  /-- `workflowDefinitionSchemaVersion`. -/
  schemaVersion : Option ℕ
  triggerType : StepType
  steps : List GraphStepLike
  graph : Option Json

/-- A row of the table of versions. -/
structure WorkflowVersionRow where
  id : String
  organizationId : String
  workflowId : String
  status : WorkflowVersionStatus
  activatedAt : Option ℕ
  definition : VersionDefinition

/-- A row of the table of workflows. -/
structure WorkflowRow where
  id : String
  organizationId : String
  status : WorkflowStatus
  activeVersionId : Option String
deriving DecidableEq, Repr

end Flowmind

namespace Flowmind.Publishing

open Program Store

/-! ## Statements -/

/-- Which version of which workflow is to be published. -/
structure ActivationRequest where
  organizationId : String
  workflowId : String
  versionId : String
deriving DecidableEq, Repr

/-- The clock, the versions and the workflows. -/
structure Data where
  clock : ℕ
  versions : TxTable ℕ WorkflowVersionRow WorkflowVersionRow.id
  workflows : TxTable ℕ WorkflowRow WorkflowRow.id

/-- A statement of `activateVersion`. -/
inductive ActivationStatement where
  | findVersion (request : ActivationRequest)
  /-- `validateStoredDefinitionForPublish`: the message, if the definition is refused. -/
  | validate (request : ActivationRequest) (definition : VersionDefinition)
  /-- The rows of the update that archives the active versions. -/
  | findActive (organizationId workflowId : String)
  | archive (organizationId workflowId id : String)
  | promote (request : ActivationRequest)
  | pointTo (workflowId versionId : String)
  | commit

/-- The answers; updates answer the number of rows. -/
def ActivationAnswer : ActivationStatement → Type
  | .findVersion _ => Option WorkflowVersionRow
  | .validate .. => Option String
  | .findActive .. => List String
  | .promote _ => ℕ
  | .pointTo .. => ℕ
  | .archive .. | .commit => Unit

variable (request : ActivationRequest)

/-- The version of a request. -/
def ActivationRequest.isVersion (row : WorkflowVersionRow) : Bool :=
  decide (row.id = request.versionId) && decide (row.workflowId = request.workflowId) &&
    decide (row.organizationId = request.organizationId)

/-- An active version of a workflow. -/
def isActiveOf (organizationId workflowId : String) (row : WorkflowVersionRow) : Bool :=
  decide (row.workflowId = workflowId) && decide (row.organizationId = organizationId) &&
    decide (row.status = .active)

/-- A version that can be published. -/
def ActivationRequest.isPublishable (row : WorkflowVersionRow) : Bool :=
  decide (row.workflowId = request.workflowId) &&
    decide (row.organizationId = request.organizationId) &&
    decide (row.status = .draft) && decide (row.activatedAt = none)

/-- The version is archived. -/
def archived (row : WorkflowVersionRow) : WorkflowVersionRow := { row with status := .archived }

/-- The version is published. -/
def published (now : ℕ) (row : WorkflowVersionRow) : WorkflowVersionRow :=
  { row with status := .active, activatedAt := some now }

/-- The workflow has an active version. -/
def pointing (versionId : String) (row : WorkflowRow) : WorkflowRow :=
  { row with status := .active, activeVersionId := some versionId }

/-- What a statement of a transaction answers, and what it writes; `refusal` is the answer of the
validation. -/
def ActivationStatement.perform (i : ℕ) (refusal : Option String) (s : Data) :
    (statement : ActivationStatement) → Option (ActivationAnswer statement × Data)
  | .findVersion request => some ((s.versions.seen i).rows.find? request.isVersion, s)
  | .validate .. => some (refusal, s)
  | .findActive organizationId workflowId =>
    some (((s.versions.seen i).rows.filter (isActiveOf organizationId workflowId)).map (·.id), s)
  | .archive organizationId workflowId id =>
    (s.versions.updateRow i id (isActiveOf organizationId workflowId) archived).map fun result =>
      ((), { s with versions := result.2 })
  | .promote request =>
    (s.versions.updateRow i request.versionId request.isPublishable (published s.clock)).map
      fun result => (result.1, { s with versions := result.2 })
  | .pointTo workflowId versionId =>
    (s.workflows.updateRow i workflowId (fun _ => true) (pointing versionId)).map fun result =>
      (result.1, { s with workflows := result.2 })
  | .commit =>
    some ((), { s with versions := s.versions.commit i, workflows := s.workflows.commit i })

/-! ## The program -/

/-- Why a version is not published. -/
inductive ActivationError where
  | thrown (message : String)
  | recordNotFound
deriving DecidableEq, Repr

/-- Statements one after the other. -/
abbrev Activation (α : Type) : Type := Prog ActivationStatement ActivationAnswer ActivationError α

namespace Activation

def findVersion (request : ActivationRequest) : Activation (Option WorkflowVersionRow) :=
  .ask (.findVersion request) .ret

def validate (request : ActivationRequest) (definition : VersionDefinition) :
    Activation (Option String) :=
  .ask (.validate request definition) .ret

def findActive (request : ActivationRequest) : Activation (List String) :=
  .ask (.findActive request.organizationId request.workflowId) .ret

def archive (request : ActivationRequest) (id : String) : Activation Unit :=
  .ask (.archive request.organizationId request.workflowId id) .ret

def promote (request : ActivationRequest) : Activation ℕ := .ask (.promote request) .ret

def pointTo (request : ActivationRequest) : Activation ℕ :=
  .ask (.pointTo request.workflowId request.versionId) .ret

def commit : Activation Unit := .ask .commit .ret

end Activation

open Activation

/-- The transaction of `activateVersion`. -/
def activate : Activation Unit := do
  let active ← findActive request
  Prog.each (archive request) active
  let count ← promote request
  if count = 1 then
    let updated ← pointTo request
    if updated = 0 then .fail .recordNotFound else commit
  else .fail (.thrown "Workflow version is no longer publishable")

def activateVersion : Activation Unit := do
  let version ← findVersion request
  match version with
  | none => .fail (.thrown "Workflow version not found")
  | some version =>
    if version.status ≠ .draft ∨ version.activatedAt ≠ none then
      .fail (.thrown ("Only draft workflow versions can be published; " ++
        "restore a historical version to create a new draft"))
    else
      let refusal ← validate request version.definition
      match refusal with
      | some message => .fail (.thrown message)
      | none => activate request

/-! ## All calls together -/

/-- What others do: workflows and drafts are created. -/
inductive Change where
  | tick (time : ℕ)
  | createWorkflow (id organizationId : String)
  | createVersion (id organizationId workflowId : String) (definition : VersionDefinition)

def newWorkflow (id organizationId : String) : WorkflowRow := ⟨id, organizationId, .draft, none⟩

def newVersion (id organizationId workflowId : String) (definition : VersionDefinition) :
    WorkflowVersionRow :=
  ⟨id, organizationId, workflowId, .draft, none, definition⟩

def Change.perform (s : Data) : Change → Option Data
  | .tick time => if s.clock ≤ time then some { s with clock := time } else none
  | .createWorkflow id organizationId =>
    (s.workflows.insertNow (newWorkflow id organizationId)).map fun workflows =>
      { s with workflows := workflows }
  | .createVersion id organizationId workflowId definition =>
    (s.versions.insertNow (newVersion id organizationId workflowId definition)).map
      fun versions => { s with versions := versions }

/-- Any number of calls; `requests` says what each of them is asked for. -/
def activations (requests : ℕ → ActivationRequest) :
    Setting ℕ Unit Data ActivationStatement ActivationAnswer ActivationError Unit (Option String)
      Change where
  program i _ := activateVersion (requests i)
  perform i refusal s statement := statement.perform i refusal s
  leave i s := { s with versions := s.versions.rollback i, workflows := s.workflows.rollback i }
  other change s := change.perform s

end Flowmind.Publishing
