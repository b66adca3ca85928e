import Flowmind.Js.Fields
import Flowmind.Js.Value
import Flowmind.Program.Crew
import Flowmind.Store.ReadCommitted

/-!
# Connections and their secrets

A connection has a row of its own and secrets, of which a partial unique index allows one active
one.  Each request of the service first looks at the connection, and then writes in one transaction:
the connection by its id, the secrets by what they say.  An update of several secrets finds them
first and then changes them one by one, those that still are what was looked for.

* `create`, `update`, `rotate`, `setEnabled`, `delete` — the requests.
* `connections` — any number of them at the same time.
-/

namespace Flowmind.Connections

open Program Store

/-! ## Rows -/

inductive OrganizationRole where
  | owner | admin | editor | viewer
deriving DecidableEq, Repr

inductive ConnectionStatus where
  | active | disabled | revoked | deleted
deriving DecidableEq, Repr

inductive ConnectionType where
  | smtp | httpApiKey
deriving DecidableEq, Repr

/-- A row of the table of connections. -/
structure ConnectionRow where
  id : String
  organizationId : String
  name : String
  description : Option String
  type : ConnectionType
  configJson : Json
  status : ConnectionStatus
  rotatedAt : Option ℕ
  revokedAt : Option ℕ
  deletedAt : Option ℕ

inductive SecretStatus where
  | active | revoked
deriving DecidableEq, Repr

/-- A row of the table of secrets, without what is encrypted. -/
structure SecretRow where
  id : String
  organizationId : String
  connectionId : String
  status : SecretStatus
  rotatedAt : Option ℕ
  revokedAt : Option ℕ
deriving DecidableEq, Repr

/-- The entry in the unique index of active secrets. -/
def SecretRow.entry (row : SecretRow) : Option String :=
  if row.status = .active then some row.connectionId else none

def SecretRow.isActiveOf (organizationId connectionId : String) (row : SecretRow) : Bool :=
  decide (row.organizationId = organizationId) && decide (row.connectionId = connectionId) &&
    decide (row.status = .active)

def SecretRow.revoked (now : ℕ) (row : SecretRow) : SecretRow :=
  { row with status := .revoked, revokedAt := some now }

/-- The clock, the connections and the secrets. -/
structure Data where
  clock : ℕ
  connections : TxTable ℕ ConnectionRow ConnectionRow.id
  secrets : TxTable ℕ SecretRow SecretRow.id

/-! ## Statements -/

/-- The columns of a new connection. -/
structure NewConnection where
  organizationId : String
  name : String
  description : Option String
  type : ConnectionType
  configJson : Json

def NewConnection.row (new : NewConnection) (id : String) : ConnectionRow where
  id := id
  organizationId := new.organizationId
  name := new.name
  description := new.description
  type := new.type
  configJson := new.configJson
  status := .active
  rotatedAt := none
  revokedAt := none
  deletedAt := none

/-- The columns of a new secret, which is active. -/
structure NewSecret where
  organizationId : String
  connectionId : String
  rotatedAt : Option ℕ

def NewSecret.row (new : NewSecret) (id : String) : SecretRow where
  id := id
  organizationId := new.organizationId
  connectionId := new.connectionId
  status := .active
  rotatedAt := new.rotatedAt
  revokedAt := none

/-- What a request sets in the row of a connection. -/
inductive ConnectionChange where
  | configure (name : Option String) (description : Option (Option String)) (configJson : Json)
  | rotate (now : ℕ) (configJson : Json)
  | enable (status : ConnectionStatus) (revokedAt : Option ℕ)
  | delete (now : ℕ)

def ConnectionChange.apply (row : ConnectionRow) : ConnectionChange → ConnectionRow
  | configure name description configJson =>
    { row with
      name := name.getD row.name
      description := description.getD row.description
      configJson := configJson }
  | rotate now configJson => { row with rotatedAt := some now, configJson := configJson }
  | enable status revokedAt => { row with status := status, revokedAt := revokedAt }
  | delete now => { row with status := .deleted, deletedAt := some now }

/-- A statement of a request.  The update of a connection finds it by its id. -/
inductive ConnectionStatement where
  | roleFor (organizationId userId : String)
  | findConnection (organizationId connectionId : String)
  /-- `usageByConnection`: the connection is used by a version of a workflow. -/
  | isUsed (organizationId connectionId : String)
  | now
  | createConnection (new : NewConnection)
  | createSecret (new : NewSecret)
  /-- The rows of the update that revokes the active secrets. -/
  | findActive (organizationId connectionId : String)
  | revoke (organizationId connectionId id : String) (revokedAt : ℕ)
  | updateConnection (connectionId : String) (change : ConnectionChange)
  | commit

/-- The answers: an insertion may violate the unique index, an update may find no row. -/
def ConnectionAnswer : ConnectionStatement → Type
  | .roleFor .. => Option OrganizationRole
  | .findConnection .. => Option ConnectionRow
  | .isUsed .. => Bool
  | .now => ℕ
  | .createConnection _ => ConnectionRow
  | .createSecret _ => Except Unit SecretRow
  | .findActive .. => List String
  | .revoke .. => Bool
  | .updateConnection .. => Option ConnectionRow
  | .commit => Unit

/-- What is open: the ids of new rows, the role of a user, and the use of a connection. -/
structure ConnectionOracle where
  id : String := ""
  role : Option OrganizationRole := some .owner
  used : Bool := false

instance : Inhabited ConnectionOracle := ⟨{}⟩

/-- The connection that a request looks for. -/
def ConnectionRow.isOf (organizationId connectionId : String) (row : ConnectionRow) : Bool :=
  decide (row.id = connectionId) && decide (row.organizationId = organizationId) &&
    decide (row.deletedAt = none)

/-- What a statement answers, and what it writes. -/
def ConnectionStatement.perform (i : ℕ) (oracle : ConnectionOracle) (s : Data) :
    (statement : ConnectionStatement) → Option (ConnectionAnswer statement × Data)
  | .roleFor .. => some (oracle.role, s)
  | .findConnection organizationId connectionId =>
    some ((s.connections.seen i).rows.find? (ConnectionRow.isOf organizationId connectionId), s)
  | .isUsed .. => some (oracle.used, s)
  | .now => some (s.clock, s)
  | .createConnection new =>
    if s.connections.committed.get? oracle.id = none ∧
        s.connections.written.get? oracle.id = none then
      some (new.row oracle.id,
        { s with connections := s.connections.write i (new.row oracle.id) })
    else none
  | .createSecret new =>
    (s.secrets.insertUnique SecretRow.entry i (new.row oracle.id)).map fun
      | .error () => (.error (), s)
      | .ok secrets => (.ok (new.row oracle.id), { s with secrets := secrets })
  | .findActive organizationId connectionId =>
    some (((s.secrets.seen i).rows.filter
      (SecretRow.isActiveOf organizationId connectionId)).map (·.id), s)
  | .revoke organizationId connectionId id revokedAt =>
    (s.secrets.updateRow i id (SecretRow.isActiveOf organizationId connectionId)
      (SecretRow.revoked revokedAt)).map fun result =>
        (decide (result.1 ≠ 0), { s with secrets := result.2 })
  | .updateConnection connectionId change =>
    (s.connections.updateById i connectionId (ConnectionChange.apply · change)).map fun result =>
      (result.1, { s with connections := result.2 })
  | .commit =>
    some ((), { s with connections := s.connections.commit i, secrets := s.secrets.commit i })

/-! ## The programs -/

/-- Why a request fails. -/
inductive ConnectionError where
  | insufficientRole
  | notFound
  | inUse
  | invalidConfig (message : String)
  /-- The connection already has an active secret. -/
  | uniqueViolation
  | recordNotFound
deriving DecidableEq, Repr

/-- Statements one after the other. -/
abbrev Service (α : Type) : Type :=
  Prog ConnectionStatement ConnectionAnswer ConnectionError α

/-- Who asks. -/
structure Caller where
  organizationId : String
  userId : String
deriving DecidableEq, Repr

namespace Service

def now : Service ℕ := .ask .now .ret

def commit : Service Unit := .ask .commit .ret

/-- The role of the user, who has to be a member. -/
def roleFor (caller : Caller) : Service OrganizationRole :=
  .ask (.roleFor caller.organizationId caller.userId) fun
    | none => .fail .insufficientRole
    | some role => .ret role

def assertCanManage (role : OrganizationRole) : Service Unit :=
  if role ∈ [OrganizationRole.owner, .admin] then .ret () else .fail .insufficientRole

def findConnection (caller : Caller) (connectionId : String) : Service ConnectionRow :=
  .ask (.findConnection caller.organizationId connectionId) fun
    | none => .fail .notFound
    | some connection => .ret connection

def isUsed (caller : Caller) (connectionId : String) : Service Bool :=
  .ask (.isUsed caller.organizationId connectionId) .ret

def createConnection (new : NewConnection) : Service ConnectionRow :=
  .ask (.createConnection new) .ret

def createSecret (new : NewSecret) : Service Unit :=
  .ask (.createSecret new) fun
    | .error () => .fail .uniqueViolation
    | .ok _ => .ret ()

def updateConnection (connectionId : String) (change : ConnectionChange) : Service ConnectionRow :=
  .ask (.updateConnection connectionId change) fun
    | none => .fail .recordNotFound
    | some connection => .ret connection

def findActive (caller : Caller) (connectionId : String) : Service (List String) :=
  .ask (.findActive caller.organizationId connectionId) .ret

def revoke (caller : Caller) (connectionId : String) (revokedAt : ℕ) (id : String) :
    Service PUnit :=
  .ask (.revoke caller.organizationId connectionId id revokedAt) fun _ => .ret ⟨⟩

/-- Revoke the active secrets of a connection. -/
def revokeActive (caller : Caller) (connectionId : String) (revokedAt : ℕ) : Service PUnit := do
  let ids ← findActive caller connectionId
  Prog.each (revoke caller connectionId revokedAt) ids

end Service

open Service

variable (caller : Caller)

/-- `create`; the connection has been checked, or refused. -/
def create (normalized : Except ConnectionError NewConnection) : Service ConnectionRow := do
  let role ← roleFor caller
  assertCanManage role
  let new ← Prog.ofExcept normalized
  let created ← createConnection { new with organizationId := caller.organizationId }
  createSecret ⟨caller.organizationId, created.id, none⟩
  commit
  pure created

/-- `update`; `updateConfig` makes the new configuration from the connection, or refuses it. -/
def update (connectionId : String) (name : Option String) (description : Option (Option String))
    (updateConfig : ConnectionRow → Except ConnectionError Json) : Service ConnectionRow := do
  let role ← roleFor caller
  assertCanManage role
  let existing ← findConnection caller connectionId
  let config ← Prog.ofExcept (updateConfig existing)
  let updated ← updateConnection connectionId (.configure name description config)
  commit
  pure updated

/-- `rotate`; `normalizeRotationSecret` checks the new secret and says what of it is shown in the
configuration. -/
def rotate (connectionId : String)
    (normalizeRotationSecret : ConnectionRow → Except ConnectionError (List (String × Json))) :
    Service ConnectionRow := do
  let role ← roleFor caller
  assertCanManage role
  let existing ← findConnection caller connectionId
  if existing.status ≠ .active then
    .fail (.invalidConfig "Only active connections can be rotated")
  else
    let configPatch ← Prog.ofExcept (normalizeRotationSecret existing)
    let rotatedAt ← now
    revokeActive caller connectionId rotatedAt
    createSecret ⟨caller.organizationId, connectionId, some rotatedAt⟩
    let currentConfig := match existing.configJson with
      | .obj fields => fields
      | _ => []
    let next ← updateConnection connectionId
      (.rotate rotatedAt (.obj (spread currentConfig configPatch)))
    commit
    pure next

/-- The time of the revocation, which a connection that is enabled has none of. -/
def revocationTime (enabled : Bool) : Service (Option ℕ) :=
  if enabled then pure none else do
    let t ← now
    pure (some t)

/-- `enable` and `disable`. -/
def setEnabled (connectionId : String) (enabled : Bool) : Service ConnectionRow := do
  let role ← roleFor caller
  assertCanManage role
  let existing ← findConnection caller connectionId
  if existing.status = .deleted ∨ existing.status = .revoked then
    .fail (.invalidConfig "Connection cannot be enabled")
  else
    let revokedAt ← revocationTime enabled
    let next ← updateConnection connectionId
      (.enable (if enabled then .active else .disabled) revokedAt)
    commit
    pure next

/-- `delete`, which returns nothing; here, the row. -/
def delete (connectionId : String) : Service ConnectionRow := do
  let role ← roleFor caller
  if role ≠ .owner then .fail .insufficientRole
  else
    let _ ← findConnection caller connectionId
    let used ← isUsed caller connectionId
    if used then .fail .inUse
    else
      let deletedAt ← now
      revokeActive caller connectionId deletedAt
      let deleted ← updateConnection connectionId (.delete deletedAt)
      commit
      pure deleted

/-! ## All requests together -/

/-- A request. -/
inductive ConnectionRequest where
  | create (normalized : Except ConnectionError NewConnection)
  | update (connectionId : String) (name : Option String) (description : Option (Option String))
      (updateConfig : ConnectionRow → Except ConnectionError Json)
  | rotate (connectionId : String)
      (normalizeRotationSecret : ConnectionRow → Except ConnectionError (List (String × Json)))
  | setEnabled (connectionId : String) (enabled : Bool)
  | delete (connectionId : String)

def ConnectionRequest.program : ConnectionRequest → Service ConnectionRow
  | .create normalized => Connections.create caller normalized
  | .update connectionId name description updateConfig =>
    Connections.update caller connectionId name description updateConfig
  | .rotate connectionId normalizeRotationSecret =>
    Connections.rotate caller connectionId normalizeRotationSecret
  | .setEnabled connectionId enabled => Connections.setEnabled caller connectionId enabled
  | .delete connectionId => Connections.delete caller connectionId

/-- Any number of requests; what others do is let time go by. -/
def connections :
    Setting ℕ (Caller × ConnectionRequest) Data ConnectionStatement ConnectionAnswer
      ConnectionError ConnectionRow ConnectionOracle ℕ where
  program _ request := request.2.program request.1
  perform i oracle s statement := statement.perform i oracle s
  leave i s :=
    { s with connections := s.connections.rollback i, secrets := s.secrets.rollback i }
  other time s := if s.clock ≤ time then some { s with clock := time } else none

end Flowmind.Connections
