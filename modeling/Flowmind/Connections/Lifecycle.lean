import Flowmind.Connections.Service

/-!
# The life of a connection

* `Consistent` — a connection that is not deleted has one active secret, and a deleted one has none.
* `connections_consistent` — this holds in every run in which a secret is still active when a
  request revokes it, and a connection is not deleted when a request writes it; and then a deleted
  connection is never changed.
* `overlapping_requests_inconsistent` — what happens otherwise.

A request is followed by its `Touch`: the secrets that it has revoked and added, and what it has
written to the row of its connection.  The programs keep to `connectionProtocol` (`proper_program`):
a request writes the row of a connection only once its secrets are as they should be for that, and
commits only after it has written the row.  `Holds` says of a `Touch` what there is in the tables:
the written rows are those of the request, and the secrets that were active are those that it has
found (`HeldBy.perform`).  What the others do does not disturb this (`HeldBy.keeps`), as a committed
connection is only replaced by its like (`Data.Grows`).  So a commit leaves an active secret to the
connection or none (`Holds.sound_own`), and touches no other connection (`Holds.sound_other`); there
are never two, as the secrets are indexed by the connection that they are active for
(`TxTable.Indexed`).  `Kept` puts these together, and every step keeps it.
-/

namespace Flowmind.Connections

open Program Store TxTable
open CrewAction (goes)

/-! ## Consistent connections -/

/-- The secret is an active one of the connection. -/
def Data.HasActive (s : Data) (connectionId id : String) : Prop :=
  ∃ secret, s.secrets.committed.get? id = some secret ∧ secret.connectionId = connectionId ∧
    secret.status = .active

/-- What is committed: a connection that is not deleted has exactly one active secret, and a deleted
one has none and says that it is deleted. -/
def Data.Consistent (s : Data) : Prop :=
  ∀ id row, s.connections.committed.get? id = some row →
    (row.deletedAt = none → ∃! secretId, s.HasActive id secretId) ∧
    (row.deletedAt ≠ none → row.status = .deleted ∧ ∀ secretId, ¬s.HasActive id secretId)

/-! ## The protocol -/

/-- What a request has done to the row of a connection. -/
inductive Wrote where
  | created | rotated | changed | deleted
deriving DecidableEq, Repr

def ConnectionChange.kind : ConnectionChange → Wrote
  | configure .. | enable .. => .changed
  | rotate .. => .rotated
  | delete _ => .deleted

/-- What a request has done with the connection that it is about: whether it has looked for active
secrets, those that it has yet to revoke and those that it has revoked, the secret that it has
added, and what it has done to the row of the connection. -/
structure Touch where
  organizationId : String
  connectionId : String
  scanned : Bool := false
  left : List String := []
  revoked : List String := []
  added : Option String := none
  wrote : Option Wrote := none

/-- The connection has been found, and nothing done yet. -/
abbrev Touch.found (organizationId connectionId : String) : Touch :=
  { organizationId, connectionId }

/-- What is known of a request: nothing, before it has found a connection or created one. -/
abbrev ConnectionView : Type := Option Touch

/-- The request has looked for active secrets and has some of them left to revoke. -/
structure Touch.IsRevoking (touch : Touch) (organizationId connectionId : String)
    (left : List String) : Prop where
  organizationId : touch.organizationId = organizationId
  connectionId : touch.connectionId = connectionId
  scanned : touch.scanned = true
  left : touch.left = left
  added : touch.added = none
  wrote : touch.wrote = none

/-- What a request has done before it writes the row of a connection. -/
def Wrote.Ready (touch : Touch) : Wrote → Prop
  | created => False
  | rotated => touch.scanned = true ∧ touch.added ≠ none
  | changed => touch.revoked = [] ∧ touch.added = none
  | deleted => touch.scanned = true ∧ touch.added = none

def connectionProtocol : Protocol ConnectionStatement ConnectionAnswer ConnectionView where
  ok view
    | .findConnection .. | .createConnection _ => view = none
    | .createSecret new => ∃ touch, view = some touch ∧ touch.organizationId = new.organizationId ∧
        touch.connectionId = new.connectionId ∧ touch.added = none ∧
        ∀ kind, touch.wrote = some kind → kind = .created
    | .findActive organizationId connectionId => view = some (.found organizationId connectionId)
    | .revoke organizationId connectionId id _ => ∃ touch rest, view = some touch ∧
        touch.IsRevoking organizationId connectionId (id :: rest)
    | .updateConnection connectionId change => ∃ touch, view = some touch ∧
        touch.connectionId = connectionId ∧ touch.left = [] ∧ touch.wrote = none ∧
        change.kind.Ready touch
    | .commit => ∃ touch kind, view = some touch ∧ touch.wrote = some kind ∧
        (kind = .created → touch.added ≠ none)
    | _ => True
  rely _ _ := True
  next view
    | .findConnection organizationId connectionId, some _ =>
      some (.found organizationId connectionId)
    | .createConnection new, (row : ConnectionRow) =>
      some { Touch.found new.organizationId row.id with wrote := some .created }
    | .createSecret _, .ok row => view.map fun touch => { touch with added := some row.id }
    | .findActive .., (ids : List String) =>
      view.map fun touch => { touch with scanned := true, left := ids }
    | .revoke _ _ id _, _ => view.map fun touch =>
        { touch with left := touch.left.tail, revoked := id :: touch.revoked }
    | .updateConnection _ change, some _ =>
      view.map fun touch => { touch with wrote := some change.kind }
    | .commit, _ => none
    | _, _ => view

variable {view : ConnectionView} {touch : Touch} {organizationId connectionId : String}

section Meets

variable {caller : Caller}

/-- The request keeps to the protocol. -/
abbrev Proper {α : Type} (program : Service α) (view : ConnectionView) : Prop :=
  Meets connectionProtocol (fun _ _ => True) (fun _ _ => True) program view

/-- A request goes on after the role of the user has been looked at. -/
lemma meets_roleFor :
    Meets connectionProtocol (fun view' _ => view' = view) (fun _ _ => True)
      (Service.roleFor caller) view := by
  refine ⟨trivial, fun (role : Option OrganizationRole) _ => ?_⟩
  cases role with
  | none => trivial
  | some => rfl

lemma meets_assertCanManage {role : OrganizationRole} :
    Meets connectionProtocol (fun view' _ => view' = view) (fun _ _ => True)
      (Service.assertCanManage role) view := by
  unfold Service.assertCanManage
  split_ifs
  · rfl
  · trivial

/-- A request goes on with a connection that it has found. -/
lemma meets_findConnection :
    Meets connectionProtocol
      (fun view' _ => view' = some (.found caller.organizationId connectionId)) (fun _ _ => True)
      (Service.findConnection caller connectionId) none := by
  refine ⟨rfl, fun (found : Option ConnectionRow) _ => ?_⟩
  cases found with
  | none => trivial
  | some => rfl

/-- What writes the row of the connection and commits. -/
lemma proper_updateConnection {change : ConnectionChange}
    (hid : touch.connectionId = connectionId) (hleft : touch.left = [])
    (hwrote : touch.wrote = none) (hready : change.kind.Ready touch) :
    Proper (do
      let row ← Service.updateConnection connectionId change
      Service.commit
      pure row) (some touch) := by
  refine ⟨⟨touch, rfl, hid, hleft, hwrote, hready⟩, fun (updated : Option ConnectionRow) _ => ?_⟩
  cases updated with
  | none => trivial
  | some row =>
    refine ⟨⟨_, change.kind, rfl, rfl, fun hcreated => ?_⟩, fun _ _ => trivial⟩
    rw [hcreated] at hready
    exact hready.elim

/-- All active secrets that were found have been revoked. -/
lemma meets_revokeActive {revokedAt : ℕ} :
    Meets connectionProtocol (fun view' _ => ∃ touch, view' = some touch ∧
        touch.IsRevoking caller.organizationId connectionId []) (fun _ _ => True)
      (Service.revokeActive caller connectionId revokedAt)
      (some (.found caller.organizationId connectionId)) := by
  refine ⟨rfl, fun (ids : List String) _ => ?_⟩
  refine Meets.each (fun ids (view : ConnectionView) => ∃ touch, view = some touch ∧
    touch.IsRevoking caller.organizationId connectionId ids) ?_ ids _
    ⟨_, rfl, rfl, rfl, rfl, rfl, rfl, rfl⟩
  rintro id rest _ ⟨touch, rfl, h⟩
  exact ⟨⟨touch, rest, rfl, h⟩, fun _ _ => ⟨_, rfl, h.organizationId, h.connectionId, h.scanned,
    by simp [h.left], h.added, h.wrote⟩⟩

/-- What only a manager may do. -/
lemma proper_managed {rest : Service ConnectionRow} (hrest : Proper rest none) :
    Proper (do
      let role ← Service.roleFor caller
      Service.assertCanManage role
      rest) none := by
  refine meets_roleFor.bind ?_
  rintro _ role rfl
  refine meets_assertCanManage.bind ?_
  rintro _ _ rfl
  exact hrest

lemma proper_create {normalized : Except ConnectionError NewConnection} :
    Proper (create caller normalized) none := by
  refine proper_managed ?_
  cases normalized with
  | error => trivial
  | ok new =>
    refine ⟨rfl, fun (created : ConnectionRow) _ => ?_⟩
    refine ⟨⟨_, rfl, rfl, rfl, rfl, fun kind hkind => (Option.some.inj hkind).symm⟩,
      fun (added : Except Unit SecretRow) _ => ?_⟩
    cases added with
    | error => trivial
    | ok row => exact ⟨⟨_, .created, rfl, rfl, by simp⟩, fun _ _ => trivial⟩

lemma proper_update {name : Option String} {description : Option (Option String)}
    {updateConfig : ConnectionRow → Except ConnectionError Json} :
    Proper (update caller connectionId name description updateConfig) none := by
  refine proper_managed (meets_findConnection.bind ?_)
  rintro _ existing rfl
  cases updateConfig existing with
  | error => trivial
  | ok config => exact proper_updateConnection rfl rfl rfl ⟨rfl, rfl⟩

lemma proper_rotate
    {normalizeRotationSecret : ConnectionRow → Except ConnectionError (List (String × Json))} :
    Proper (rotate caller connectionId normalizeRotationSecret) none := by
  refine proper_managed (meets_findConnection.bind ?_)
  rintro _ existing rfl
  refine .ite trivial ?_
  cases normalizeRotationSecret existing with
  | error => trivial
  | ok patch =>
    refine ⟨trivial, fun (rotatedAt : ℕ) _ => meets_revokeActive.bind ?_⟩
    rintro _ _ ⟨touch, rfl, h⟩
    refine ⟨⟨touch, rfl, h.organizationId, h.connectionId, h.added, by simp [h.wrote]⟩,
      fun (added : Except Unit SecretRow) _ => ?_⟩
    cases added with
    | error => trivial
    | ok row => exact proper_updateConnection h.connectionId h.left h.wrote ⟨h.scanned, by simp⟩

lemma proper_setEnabled {enabled : Bool} : Proper (setEnabled caller connectionId enabled) none := by
  refine proper_managed (meets_findConnection.bind ?_)
  rintro _ existing rfl
  refine .ite trivial ?_
  cases enabled with
  | true => exact proper_updateConnection rfl rfl rfl ⟨rfl, rfl⟩
  | false =>
    exact ⟨trivial, fun (t : ℕ) _ => proper_updateConnection rfl rfl rfl ⟨rfl, rfl⟩⟩

lemma proper_delete : Proper (delete caller connectionId) none := by
  refine meets_roleFor.bind ?_
  rintro _ role rfl
  refine .ite trivial (meets_findConnection.bind ?_)
  rintro _ existing rfl
  refine ⟨trivial, fun (used : Bool) _ => ?_⟩
  change Meets _ _ _ (if _ then _ else _) _
  refine .ite trivial ⟨trivial, fun (deletedAt : ℕ) _ => meets_revokeActive.bind ?_⟩
  rintro _ _ ⟨touch, rfl, h⟩
  exact proper_updateConnection h.connectionId h.left h.wrote ⟨h.scanned, h.added⟩

lemma proper_program (request : ConnectionRequest) : Proper (request.program caller) none := by
  cases request with
  | create => exact proper_create
  | update => exact proper_update
  | rotate => exact proper_rotate
  | setEnabled => exact proper_setEnabled
  | delete => exact proper_delete

end Meets

/-! ## Steps -/

/-- What happens in the system of all requests. -/
abbrev ConnectionEvent : Type :=
  CrewEvent ℕ (Caller × ConnectionRequest) ConnectionAnswer ConnectionError ConnectionRow ℕ

/-- What is known of all requests. -/
abbrev ConnectionViews : Type := Views ℕ Data ConnectionView

/-- One step of what is known of all requests. -/
abbrev ConnectionStep : ConnectionViews → ConnectionEvent → ConnectionViews → Prop :=
  ViewStep connections connectionProtocol (fun _ _ => none) (fun _ _ => True) fun _ _ => True

/-- A secret that a request revokes is still active, and a connection that a request writes is not
deleted. -/
def Undisturbed (s : Data) : ConnectionEvent → Prop
  | .perform _ (.revoke ..) (revoked : Bool) => revoked = true
  | .perform i (.updateConnection connectionId _) _ =>
    ∀ row, (s.connections.seen i).get? connectionId = some row → row.deletedAt = none
  | _ => True

/-- What a statement of a request does. -/
inductive Effect (i : ℕ) (s : Data) :
    (op : ConnectionStatement) → ConnectionAnswer op → Data → Prop where
  | idle {op : ConnectionStatement} {answer : ConnectionAnswer op}
      (hnext : ∀ view, connectionProtocol.next view op answer = view) : Effect i s op answer s
  | found {organizationId connectionId : String} {row : ConnectionRow}
      (hrow : (s.connections.seen i).get? connectionId = some row)
      (horganization : row.organizationId = organizationId) :
      Effect i s (.findConnection organizationId connectionId) (some row) s
  | createdConnection {new : NewConnection} {id : String}
      (hcommitted : s.connections.committed.get? id = none)
      (hwritten : s.connections.written.get? id = none) :
      Effect i s (.createConnection new) (new.row id)
        { s with connections := s.connections.write i (new.row id) }
  | createdSecret {new : NewSecret} {id : String} {secrets : TxTable ℕ SecretRow SecretRow.id}
      (h : s.secrets.insertUnique SecretRow.entry i (new.row id) = some (.ok secrets)) :
      Effect i s (.createSecret new) (.ok (new.row id)) { s with secrets := secrets }
  | scanned {organizationId connectionId : String} :
      Effect i s (.findActive organizationId connectionId)
        (((s.secrets.seen i).rows.filter
          (SecretRow.isActiveOf organizationId connectionId)).map (·.id)) s
  | missed {organizationId connectionId id : String} {revokedAt : ℕ} :
      Effect i s (.revoke organizationId connectionId id revokedAt) false s
  | revoked {organizationId connectionId id : String} {revokedAt : ℕ} {row : SecretRow}
      (hfree : s.secrets.isFree i id = true) (hrow : (s.secrets.seen i).get? id = some row)
      (hactive : row.isActiveOf organizationId connectionId = true) :
      Effect i s (.revoke organizationId connectionId id revokedAt) true
        { s with secrets := s.secrets.write i (row.revoked revokedAt) }
  | updated {connectionId : String} {change : ConnectionChange} {row : ConnectionRow}
      (hfree : s.connections.isFree i connectionId = true)
      (hrow : (s.connections.seen i).get? connectionId = some row) :
      Effect i s (.updateConnection connectionId change) (some (change.apply row))
        { s with connections := s.connections.write i (change.apply row) }
  | committed :
      Effect i s .commit ()
        { s with connections := s.connections.commit i, secrets := s.secrets.commit i }

variable {s s' : Data} {i j : ℕ} {w w' : ConnectionViews} {event : ConnectionEvent}

section

variable (change : ConnectionChange) (row : ConnectionRow)

lemma id_apply : (change.apply row).id = row.id := by
  cases change <;> rfl

lemma organizationId_apply : (change.apply row).organizationId = row.organizationId := by
  cases change <;> rfl

end

variable {op : ConnectionStatement} {answer : ConnectionAnswer op}

lemma effect_of_perform {oracle : ConnectionOracle}
    (h : op.perform i oracle s = some (answer, s')) : Effect i s op answer s' := by
  cases op with
  | roleFor | isUsed | now =>
    cases h
    exact .idle fun _ => rfl
  | findConnection organizationId connectionId =>
    cases h
    cases hfound : (s.connections.seen i).rows.find?
        (ConnectionRow.isOf organizationId connectionId) with
    | none => exact .idle fun _ => rfl
    | some row =>
      have hisOf := List.find?_some hfound
      simp only [ConnectionRow.isOf, Bool.and_eq_true, decide_eq_true_eq] at hisOf
      exact .found (Table.get?_eq_some_iff.mpr ⟨List.mem_of_find?_eq_some hfound, hisOf.1.1⟩)
        hisOf.1.2
  | createConnection new =>
    obtain ⟨⟨hcommitted, hwritten⟩, ⟨⟩⟩ := Option.ite_none_right_eq_some.mp h
    exact .createdConnection hcommitted hwritten
  | createSecret new =>
    obtain ⟨result, hinsert, heq⟩ := Option.map_eq_some_iff.mp h
    cases result with
    | error =>
      cases heq
      exact .idle fun _ => rfl
    | ok secrets =>
      cases heq
      exact .createdSecret hinsert
  | findActive =>
    cases h
    exact .scanned
  | revoke organizationId connectionId id revokedAt =>
    obtain ⟨⟨n, secrets⟩, hupdate, ⟨⟩⟩ := Option.map_eq_some_iff.mp h
    rcases updateRow_cases hupdate with
      ⟨rfl, rfl⟩ | ⟨rfl, row, hfree, hrow, hactive, rfl⟩
    · exact .missed
    · exact .revoked hfree hrow hactive
  | updateConnection connectionId change =>
    obtain ⟨⟨_, rows⟩, hupdate, ⟨⟩⟩ := Option.map_eq_some_iff.mp h
    rcases updateById_cases (id_apply change) hupdate with ⟨rfl, rfl⟩ | ⟨row, rfl, hfree, hrow, rfl⟩
    · exact .idle fun _ => rfl
    · exact .updated hfree hrow
  | commit =>
    cases h
    exact .committed

/-- What a request has written is not touched by the statements of another one. -/
lemma Effect.keeps (h : Effect i s op answer s') (hij : j ≠ i) :
    s.connections.Keeps j s'.connections ∧ s.secrets.Keeps j s'.secrets := by
  cases h with
  | idle | found | scanned | missed => exact ⟨.refl j _, .refl j _⟩
  | createdConnection _ hwritten =>
    exact ⟨keeps_write hij (by simp [TxTable.isFree, NewConnection.row, hwritten]),
      .refl j _⟩
  | createdSecret hinsert =>
    obtain ⟨-, hnone, rfl, -⟩ := insertUnique_ok hinsert
    exact ⟨.refl j _, keeps_write hij (by simp [TxTable.isFree, hnone])⟩
  | revoked hfree hrow =>
    refine ⟨.refl j _, keeps_write hij ?_⟩
    exact (Table.key_of_get? hrow).symm ▸ hfree
  | updated hfree hrow =>
    refine ⟨keeps_write hij ?_, .refl j _⟩
    rwa [id_apply, Table.key_of_get? hrow]
  | committed => exact ⟨keeps_commit hij, keeps_commit hij⟩

lemma id_revoked (revokedAt : ℕ) (row : SecretRow) : (row.revoked revokedAt).id = row.id := rfl

variable {row : SecretRow}

lemma entry_of_revoked {revokedAt : ℕ} {entry : String}
    (h : (row.revoked revokedAt).entry = some entry) : row.entry = some entry := by
  simp [SecretRow.entry, SecretRow.revoked] at h

/-- No connection has two active secrets. -/
lemma Effect.indexed (h : Effect i s op answer s') (hindexed : s.secrets.Indexed SecretRow.entry) :
    s'.secrets.Indexed SecretRow.entry := by
  cases h with
  | idle | found | createdConnection | scanned | missed | updated => exact hindexed
  | createdSecret hinsert => exact hindexed.insertUnique hinsert
  | revoked hfree hrow =>
    exact hindexed.write_seen hfree hrow ((id_revoked _ _).trans (Table.key_of_get? hrow))
      fun _ => entry_of_revoked
  | committed => exact hindexed.commit i

/-! ## What the requests have written -/

/-- The connection is deleted. -/
def Data.IsDeleted (s : Data) (connectionId : String) : Prop :=
  ∃ row, s.connections.committed.get? connectionId = some row ∧ row.deletedAt ≠ none

/-- A row that a request writes. -/
def Wrote.Fits (touch : Touch) (row : ConnectionRow) : Wrote → Prop
  | created => row.deletedAt = none
  | rotated => row.deletedAt = none ∧ touch.added ≠ none
  | changed => row.deletedAt = none ∧ touch.revoked = [] ∧ touch.added = none
  | deleted => row.deletedAt ≠ none ∧ row.status = .deleted ∧ touch.revoked ≠ [] ∧
      touch.added = none

/-- What a request has written, and what it relies on. -/
structure Holds (s : Data) (i : ℕ) (touch : Touch) : Prop where
  found : touch.wrote ≠ some .created → ∃ row,
    s.connections.committed.get? touch.connectionId = some row ∧
      row.organizationId = touch.organizationId
  /-- A connection without active secrets is deleted. -/
  scanned : touch.scanned = true → s.IsDeleted touch.connectionId ∨ touch.left ++ touch.revoked ≠ []
  revoked : ∀ id ∈ touch.revoked, ∃ old new, s.secrets.committed.get? id = some old ∧
    old.isActiveOf touch.organizationId touch.connectionId = true ∧
    s.secrets.written.get? id = some ⟨i, new⟩ ∧ new.status = .revoked
  added : ∀ id, touch.added = some id → ∃ new, s.secrets.committed.get? id = none ∧
    s.secrets.written.get? id = some ⟨i, new⟩ ∧
    new.isActiveOf touch.organizationId touch.connectionId = true
  secrets : ∀ {id wr}, s.secrets.written.get? id = some wr → wr.owner = i →
    id ∈ touch.revoked ∨ touch.added = some id
  /-- A row that is replaced is not one of a deleted connection. -/
  wrote : ∀ kind, touch.wrote = some kind → ∃ row,
    s.connections.written.get? touch.connectionId = some ⟨i, row⟩ ∧
    row.organizationId = touch.organizationId ∧ kind.Fits touch row ∧
    ∀ old, s.connections.committed.get? touch.connectionId = some old → old.deletedAt = none ∧
      old.organizationId = touch.organizationId
  rows : ∀ {id wr}, s.connections.written.get? id = some wr → wr.owner = i →
    touch.wrote ≠ none ∧ id = touch.connectionId

/-- Nothing has been written. -/
structure Data.FreeOf (s : Data) (i : ℕ) : Prop where
  secrets : ∀ {id wr}, s.secrets.written.get? id = some wr → wr.owner ≠ i
  rows : ∀ {id wr}, s.connections.written.get? id = some wr → wr.owner ≠ i

def HeldBy (s : Data) (i : ℕ) : Option ConnectionView → Prop
  | some (some touch) => Holds s i touch
  | _ => s.FreeOf i

/-- Connections stay, with their organization; the deleted ones are not changed. -/
def Data.Grows (s s' : Data) : Prop :=
  ∀ id row, s.connections.committed.get? id = some row →
    ∃ row', s'.connections.committed.get? id = some row' ∧
      row'.organizationId = row.organizationId ∧ (row.deletedAt ≠ none → row' = row)

lemma Data.grows_of_eq (h : s'.connections.committed = s.connections.committed) : s.Grows s' :=
  fun _ row hrow => ⟨row, h ▸ hrow, rfl, fun _ => rfl⟩

lemma Data.Grows.isDeleted (h : s.Grows s') (hdeleted : s.IsDeleted connectionId) :
    s'.IsDeleted connectionId := by
  obtain ⟨row, hrow, hdeletedAt⟩ := hdeleted
  obtain ⟨row', hrow', -, hsame⟩ := h connectionId row hrow
  exact ⟨row', hrow', by rwa [hsame hdeletedAt]⟩

section

variable (hrows : s.connections.Keeps i s'.connections) (hsecrets : s.secrets.Keeps i s'.secrets)
include hrows hsecrets

lemma Data.FreeOf.keeps (h : s.FreeOf i) : s'.FreeOf i where
  secrets hwr howner := h.secrets (hsecrets.back hwr howner) howner
  rows hwr howner := h.rows (hrows.back hwr howner) howner

lemma Holds.keeps (h : Holds s i touch) (hgrows : s.Grows s') : Holds s' i touch where
  found hwrote := by
    obtain ⟨row, hrow, horganization⟩ := h.found hwrote
    obtain ⟨row', hrow', hsame, -⟩ := hgrows _ row hrow
    exact ⟨row', hrow', hsame.trans horganization⟩
  scanned hscanned := (h.scanned hscanned).imp_left hgrows.isDeleted
  revoked id hid := by
    obtain ⟨old, new, hold, hactive, hnew, hstatus⟩ := h.revoked id hid
    obtain ⟨hnew', hcommitted⟩ := hsecrets.written hnew rfl
    exact ⟨old, new, hcommitted.trans hold, hactive, hnew', hstatus⟩
  added id hid := by
    obtain ⟨new, hnone, hnew, hactive⟩ := h.added id hid
    obtain ⟨hnew', hcommitted⟩ := hsecrets.written hnew rfl
    exact ⟨new, hcommitted.trans hnone, hnew', hactive⟩
  secrets hwr howner := h.secrets (hsecrets.back hwr howner) howner
  wrote kind hkind := by
    obtain ⟨row, hrow, horganization, hfits, hold⟩ := h.wrote kind hkind
    obtain ⟨hrow', hcommitted⟩ := hrows.written hrow rfl
    exact ⟨row, hrow', horganization, hfits, hcommitted ▸ hold⟩
  rows hwr howner := h.rows (hrows.back hwr howner) howner

lemma HeldBy.keeps {view : Option ConnectionView} (h : HeldBy s i view) (hgrows : s.Grows s') :
    HeldBy s' i view := by
  match view with
  | some (some _) => exact Holds.keeps hrows hsecrets h hgrows
  | some none | none => exact Data.FreeOf.keeps hrows hsecrets h

end

/-- A row that a request has written over one that is committed. -/
lemma HeldBy.replaces (h : HeldBy s i (some view)) {id : String} {row : ConnectionRow}
    (hrow : s.connections.committed.get? id = some row) {wr : Written ℕ ConnectionRow}
    (hwr : s.connections.written.get? id = some wr) (howner : wr.owner = i) :
    row.deletedAt = none ∧ wr.row.organizationId = row.organizationId := by
  cases view with
  | none => exact absurd howner (h.rows hwr)
  | some touch =>
    obtain ⟨hwrote, rfl⟩ := Holds.rows h hwr howner
    obtain ⟨kind, hkind⟩ := Option.ne_none_iff_exists'.mp hwrote
    obtain ⟨row', hwritten, horganization, -, hold⟩ := Holds.wrote h kind hkind
    cases hwr.symm.trans hwritten
    exact ⟨(hold row hrow).1, horganization.trans (hold row hrow).2.symm⟩

/-- Only a request that has written the row of a connection commits another row for it, and that
connection was not deleted. -/
lemma Effect.grows (h : Effect i s op answer s') (hheld : HeldBy s i (some view)) : s.Grows s' := by
  cases h with
  | committed =>
    intro id row hrow
    change ∃ row', (s.connections.seen i).get? id = some row' ∧ _
    by_cases hown : ∃ wr, s.connections.written.get? id = some wr ∧ wr.owner = i
    · obtain ⟨wr, hwr, howner⟩ := hown
      obtain ⟨halive, hsame⟩ := hheld.replaces hrow hwr howner
      exact ⟨wr.row, get?_seen_of_written hwr howner, hsame, fun hne => absurd halive hne⟩
    · rw [get?_seen_of_not fun wr hwr howner => hown ⟨wr, hwr, howner⟩]
      exact ⟨row, hrow, rfl, fun _ => rfl⟩
  | _ => exact Data.grows_of_eq rfl

/-! ## The invariant -/

/-- The secrets of a connection, given the row of the connection. -/
structure ConnectionRow.Sound (row : ConnectionRow) (id : String)
    (secrets : Table SecretRow SecretRow.id) : Prop where
  alive : row.deletedAt = none → ∃ secretId secret, secrets.get? secretId = some secret ∧
    secret.isActiveOf row.organizationId id = true
  deleted : row.deletedAt ≠ none → row.status = .deleted ∧
    ∀ {secretId secret}, secrets.get? secretId = some secret → secret.entry ≠ some id

/-- What is committed. -/
def Data.Sound (s : Data) : Prop :=
  ∀ id row, s.connections.committed.get? id = some row → row.Sound id s.secrets.committed

lemma SecretRow.isActiveOf_iff :
    row.isActiveOf organizationId connectionId = true ↔
      row.organizationId = organizationId ∧ row.connectionId = connectionId ∧
        row.status = .active := by
  simp [SecretRow.isActiveOf, and_assoc]

lemma SecretRow.entry_eq_some_iff :
    row.entry = some connectionId ↔ row.connectionId = connectionId ∧ row.status = .active := by
  unfold SecretRow.entry
  split_ifs with hstatus <;> simp [hstatus]

lemma SecretRow.entry_of_isActiveOf (h : row.isActiveOf organizationId connectionId = true) :
    row.entry = some connectionId :=
  SecretRow.entry_eq_some_iff.mpr (SecretRow.isActiveOf_iff.mp h).2

/-- A request that has found a connection. -/
lemma Data.FreeOf.holds (h : s.FreeOf i)
    (hfound : ∃ row, s.connections.committed.get? connectionId = some row ∧
      row.organizationId = organizationId) : Holds s i (.found organizationId connectionId) where
  found _ := hfound
  scanned := nofun
  revoked := nofun
  added := nofun
  secrets hwr howner := absurd howner (h.secrets hwr)
  wrote := nofun
  rows hwr howner := absurd howner (h.rows hwr)

variable {id : String}

/-- A request inserts a connection. -/
lemma Data.FreeOf.createConnection {new : NewConnection} (h : s.FreeOf i)
    (hcommitted : s.connections.committed.get? id = none) :
    Holds { s with connections := s.connections.write i (new.row id) } i
      { Touch.found new.organizationId id with wrote := some .created } where
  found hne := absurd rfl hne
  scanned := nofun
  revoked := nofun
  added := nofun
  secrets hwr howner := absurd howner (h.secrets hwr)
  wrote kind hkind := by
    cases hkind
    exact ⟨new.row id, written_write _ _ rfl, rfl, rfl,
      fun _ hold => absurd (hcommitted.symm.trans hold) nofun⟩
  rows {id' wr} hwr howner := by
    rcases written_write_cases hwr with ⟨rfl, -⟩ | ⟨-, hwr⟩
    · exact ⟨nofun, rfl⟩
    · exact absurd howner (h.rows hwr)

/-- A request inserts a secret. -/
lemma Holds.createSecret {new : NewSecret} (h : Holds s i touch)
    (horganization : touch.organizationId = new.organizationId)
    (hconnection : touch.connectionId = new.connectionId) (hadded : touch.added = none)
    (hwrote : ∀ kind, touch.wrote = some kind → kind = .created)
    (hcommitted : s.secrets.committed.get? id = none)
    (hwritten : s.secrets.written.get? id = none) :
    Holds { s with secrets := s.secrets.write i (new.row id) } i
      { touch with added := some id } where
  found := h.found
  scanned := h.scanned
  revoked id' hid' := by
    obtain ⟨old, row, hold, hactive, hnew, hstatus⟩ := h.revoked id' hid'
    have hne : id ≠ id' := by
      rintro rfl
      simp [hwritten] at hnew
    exact ⟨old, row, hold, hactive, (written_write_of_ne _ _ hne).trans hnew, hstatus⟩
  added id' hid' := by
    cases hid'
    exact ⟨new.row id, hcommitted, written_write _ _ rfl,
      SecretRow.isActiveOf_iff.mpr ⟨horganization.symm, hconnection.symm, rfl⟩⟩
  secrets {id' wr} hwr howner := by
    rcases written_write_cases hwr with ⟨hid, -⟩ | ⟨-, hwr⟩
    · exact .inr (congrArg some hid)
    · exact .inl ((h.secrets hwr howner).resolve_right (by simp [hadded]))
  wrote kind hkind := by
    obtain rfl := hwrote kind hkind
    exact h.wrote _ hkind
  rows := h.rows

/-- A request revokes a secret that is still active. -/
lemma Holds.revoke {rest : List String} {revokedAt : ℕ} (h : Holds s i touch)
    (hrevoking : touch.IsRevoking organizationId connectionId (id :: rest))
    (hrow : (s.secrets.seen i).get? id = some row)
    (hactive : row.isActiveOf organizationId connectionId = true) :
    Holds { s with secrets := s.secrets.write i (row.revoked revokedAt) } i
      { touch with left := touch.left.tail, revoked := id :: touch.revoked } := by
  obtain ⟨rfl, rfl, -, -, hadded, hwrote⟩ := hrevoking
  -- The request has not written the secret: it would be revoked.
  have hcommitted : s.secrets.committed.get? id = some row := by
    rcases seen_cases hrow with ⟨wr, hwr, howner, rfl⟩ | ⟨-, hcommitted⟩
    · rcases h.secrets hwr howner with hmem | hsome
      · obtain ⟨_, new, -, -, hnew, hstatus⟩ := h.revoked id hmem
        cases hwr.symm.trans hnew
        exact absurd ((SecretRow.isActiveOf_iff.mp hactive).2.2.symm.trans hstatus) (by decide)
      · simp [hadded] at hsome
    · exact hcommitted
  have hkey : (row.revoked revokedAt).id = id :=
    (id_revoked revokedAt row).trans (Table.key_of_get? hrow)
  refine ⟨h.found, fun _ => .inr (by simp), fun id' hid' => ?_, fun id' hid' => ?_,
    fun {id' wr} hwr howner => ?_, fun kind hkind => ?_, h.rows⟩
  · by_cases hid : id = id'
    · subst hid
      exact ⟨row, row.revoked revokedAt, hcommitted, hactive, written_write _ _ hkey, rfl⟩
    · obtain ⟨old, new, hold, hactive', hnew, hstatus⟩ :=
        h.revoked id' ((List.mem_cons.mp hid').resolve_left (Ne.symm hid))
      exact ⟨old, new, hold, hactive', (written_write_of_ne _ _ (hkey ▸ hid)).trans hnew, hstatus⟩
  · simp [hadded] at hid'
  · rcases written_write_cases hwr with ⟨hid, -⟩ | ⟨-, hwr⟩
    · exact .inl (by simp [← hid, hkey])
    · exact (h.secrets hwr howner).imp_left (List.mem_cons_of_mem id)
  · simp [hwrote] at hkind

/-- A request writes the row of a connection that is not deleted. -/
lemma Holds.updateConnection {change : ConnectionChange} {row : ConnectionRow}
    (h : Holds s i touch) (hleft : touch.left = []) (hwrote : touch.wrote = none)
    (hready : change.kind.Ready touch)
    (hrow : (s.connections.seen i).get? touch.connectionId = some row)
    (halive : row.deletedAt = none) :
    Holds { s with connections := s.connections.write i (change.apply row) } i
      { touch with wrote := some change.kind } := by
  have hcommitted : s.connections.committed.get? touch.connectionId = some row :=
    (get?_seen_of_not fun _ hwr howner => (h.rows hwr howner).1 hwrote).symm.trans hrow
  have hkey : (change.apply row).id = touch.connectionId :=
    (id_apply change row).trans (Table.key_of_get? hrow)
  obtain ⟨_, hfound, horganization⟩ := h.found (by simp [hwrote])
  cases hcommitted.symm.trans hfound
  refine ⟨fun _ => ⟨row, hcommitted, horganization⟩, h.scanned, h.revoked, h.added, h.secrets,
    fun kind hkind => ?_, fun {id wr} hwr howner => ?_⟩
  · cases hkind
    refine ⟨change.apply row, written_write _ _ hkey,
      (organizationId_apply change row).trans horganization, ?_, fun old hold => ?_⟩
    · cases change with
      | configure | enable => exact ⟨halive, hready⟩
      | rotate => exact ⟨halive, hready.2⟩
      | delete =>
        refine ⟨by simp [ConnectionChange.apply], rfl, ?_, hready.2⟩
        rcases h.scanned hready.1 with ⟨row', hrow', hdeleted⟩ | hne
        · cases hcommitted.symm.trans hrow'
          exact absurd halive hdeleted
        · simpa [hleft] using hne
    · cases hcommitted.symm.trans hold
      exact ⟨halive, horganization⟩
  · rcases written_write_cases hwr with ⟨hid, -⟩ | ⟨-, hwr⟩
    · exact ⟨nofun, hid.symm.trans hkey⟩
    · exact absurd hwrote (h.rows hwr howner).1

/-- What a request finds when it looks for the active secrets of a connection. -/
lemma Holds.scan (h : Holds s i (.found organizationId connectionId)) (hsound : s.Sound) :
    Holds s i { Touch.found organizationId connectionId with
      scanned := true
      left := ((s.secrets.seen i).rows.filter
        (SecretRow.isActiveOf organizationId connectionId)).map (·.id) } := by
  refine ⟨h.found, fun _ => ?_, nofun, nofun, h.secrets, nofun, h.rows⟩
  obtain ⟨row, hrow, rfl⟩ := h.found nofun
  by_cases halive : row.deletedAt = none
  · obtain ⟨secretId, secret, hsecret, hactive⟩ := (hsound _ row hrow).alive halive
    rw [← get?_seen_of_not fun wr hwr howner => (h.secrets hwr howner).elim nofun nofun] at hsecret
    have hmem := List.mem_filter.mpr ⟨(Table.get?_eq_some_iff.mp hsecret).1, hactive⟩
    exact .inr (List.append_ne_nil_of_left_ne_nil
      (List.ne_nil_of_mem (List.mem_map_of_mem hmem)) _)
  · exact .inl ⟨row, hrow, halive⟩

/-- What a request has written after one of its own statements. -/
lemma HeldBy.perform (h : HeldBy s i (some view)) (hok : connectionProtocol.ok view op)
    (hsound : s.Sound) (heffect : Effect i s op answer s')
    (hguard : Undisturbed s (.perform i op answer)) :
    HeldBy s' i (some (connectionProtocol.next view op answer)) := by
  cases heffect with
  | idle hnext =>
    rw [hnext]
    exact h
  | @found organizationId connectionId row hrow horganization =>
    obtain rfl : view = none := hok
    rw [get?_seen_of_not fun _ hwr => Data.FreeOf.rows h hwr] at hrow
    exact Data.FreeOf.holds h ⟨row, hrow, horganization⟩
  | createdConnection hcommitted =>
    obtain rfl : view = none := hok
    exact Data.FreeOf.createConnection h hcommitted
  | createdSecret hinsert =>
    obtain ⟨touch, rfl, horganization, hconnection, hadded, hwrote⟩ := hok
    obtain ⟨hcommitted, hwritten, rfl, -⟩ := insertUnique_ok hinsert
    exact Holds.createSecret h horganization hconnection hadded hwrote hcommitted hwritten
  | scanned =>
    obtain rfl := hok
    exact Holds.scan h hsound
  | missed => cases hguard
  | revoked _ hrow hactive =>
    obtain ⟨touch, rest, rfl, hrevoking⟩ := hok
    exact Holds.revoke h hrevoking hrow hactive
  | updated _ hrow =>
    obtain ⟨touch, rfl, rfl, hleft, hwrote, hready⟩ := hok
    exact Holds.updateConnection h hleft hwrote hready hrow (hguard _ hrow)
  | committed => exact ⟨fun hwr => owner_ne_of_commit hwr, fun hwr => owner_ne_of_commit hwr⟩

/-! ## Commits -/

section

variable (h : Holds s i touch) {secret : SecretRow}
include h

/-- A secret that is active when a request has committed: the one that it has added, or one that was
active before and that the request has not revoked. -/
lemma Holds.active_cases (hsecret : (s.secrets.seen i).get? id = some secret)
    (hentry : secret.entry = some connectionId) :
    touch.added = some id ∨ id ∉ touch.revoked ∧ s.secrets.committed.get? id = some secret := by
  rcases seen_cases hsecret with ⟨wr, hwr, howner, rfl⟩ | ⟨hnot, hcommitted⟩
  · refine .inl ((h.secrets hwr howner).resolve_left fun hmem => ?_)
    obtain ⟨_, new, -, -, hnew, hstatus⟩ := h.revoked id hmem
    cases hwr.symm.trans hnew
    exact absurd ((SecretRow.entry_eq_some_iff.mp hentry).2.symm.trans hstatus) (by decide)
  · refine .inr ⟨fun hmem => ?_, hcommitted⟩
    obtain ⟨_, new, -, -, hnew, -⟩ := h.revoked id hmem
    exact hnot _ hnew rfl

/-- The secret that a request has added is active when it has committed. -/
lemma Holds.active_added (hadded : touch.added ≠ none) :
    ∃ id secret, (s.secrets.seen i).get? id = some secret ∧
      secret.isActiveOf touch.organizationId touch.connectionId = true := by
  obtain ⟨id, hid⟩ := Option.ne_none_iff_exists'.mp hadded
  obtain ⟨new, -, hwritten, hactive⟩ := h.added id hid
  exact ⟨id, new, get?_seen_of_written hwritten rfl, hactive⟩

/-- A secret that is not revoked stays. -/
lemma Holds.active_kept (hsecret : s.secrets.committed.get? id = some secret)
    (hrevoked : id ∉ touch.revoked) : (s.secrets.seen i).get? id = some secret := by
  rw [get?_seen_of_not, hsecret]
  intro wr hwr howner
  rcases h.secrets hwr howner with hmem | hadded
  · exact hrevoked hmem
  · obtain ⟨_, hnone, -⟩ := h.added id hadded
    simp [hsecret] at hnone

variable {row : ConnectionRow}

/-- What is committed of the connection that a request has written. -/
lemma Holds.sound_own {kind : Wrote} (hsound : s.Sound)
    (hindexed : s.secrets.Indexed SecretRow.entry) (hkind : touch.wrote = some kind)
    (hcreated : kind = .created → touch.added ≠ none)
    (horganization : row.organizationId = touch.organizationId) (hfits : kind.Fits touch row) :
    row.Sound touch.connectionId (s.secrets.seen i) := by
  cases kind with
  | created =>
    exact ⟨fun _ => horganization ▸ h.active_added (hcreated rfl), fun hne => absurd hfits hne⟩
  | rotated =>
    exact ⟨fun _ => horganization ▸ h.active_added hfits.2, fun hne => absurd hfits.1 hne⟩
  | changed =>
    obtain ⟨halive, hrevoked, -⟩ := hfits
    refine ⟨fun _ => ?_, fun hne => absurd halive hne⟩
    obtain ⟨_, -, -, -, hold⟩ := h.wrote _ hkind
    obtain ⟨before, hbefore, hsame⟩ := h.found (by simp [hkind])
    obtain ⟨secretId, secret, hsecret, hactive⟩ :=
      (hsound _ before hbefore).alive (hold before hbefore).1
    rw [horganization, ← hsame]
    exact ⟨secretId, secret, h.active_kept hsecret (by simp [hrevoked]), hactive⟩
  | deleted =>
    obtain ⟨hdeleted, hstatus, hrevoked, hadded⟩ := hfits
    refine ⟨fun hnone => absurd hnone hdeleted, fun _ => ⟨hstatus, ?_⟩⟩
    intro secretId secret hsecret hentry
    rcases h.active_cases hsecret hentry with hsome | ⟨hnot, hcommitted⟩
    · simp [hadded] at hsome
    · -- The secret that was active is among those that the request has revoked.
      obtain ⟨id, hid⟩ := List.exists_mem_of_ne_nil _ hrevoked
      obtain ⟨old, _, hold, hactive, -⟩ := h.revoked id hid
      obtain rfl := hindexed.committed hold hcommitted (SecretRow.entry_of_isActiveOf hactive) hentry
      exact hnot hid

/-- What is committed of another connection. -/
lemma Holds.sound_other (hne : id ≠ touch.connectionId) (hsound : row.Sound id s.secrets.committed) :
    row.Sound id (s.secrets.seen i) := by
  refine ⟨fun halive => ?_, fun hdeleted => ?_⟩
  · obtain ⟨secretId, secret, hsecret, hactive⟩ := hsound.alive halive
    refine ⟨secretId, secret, h.active_kept hsecret fun hmem => hne ?_, hactive⟩
    obtain ⟨old, _, hold, hactive', -⟩ := h.revoked secretId hmem
    cases hsecret.symm.trans hold
    exact (SecretRow.isActiveOf_iff.mp hactive).2.1.symm.trans
      (SecretRow.isActiveOf_iff.mp hactive').2.1
  · obtain ⟨hstatus, hnone⟩ := hsound.deleted hdeleted
    refine ⟨hstatus, fun {secretId secret} hsecret hentry => ?_⟩
    rcases h.active_cases hsecret hentry with hadded | ⟨-, hcommitted⟩
    · obtain ⟨new, -, hnew, hactive⟩ := h.added secretId hadded
      cases (get?_seen_of_written hnew rfl).symm.trans hsecret
      exact hne (Option.some.inj (hentry.symm.trans (SecretRow.entry_of_isActiveOf hactive)))
    · exact hnone hcommitted hentry

end

/-- The commit of a request. -/
lemma Data.Sound.commit {kind : Wrote} (hsound : s.Sound)
    (hindexed : s.secrets.Indexed SecretRow.entry) (h : Holds s i touch)
    (hkind : touch.wrote = some kind) (hcreated : kind = .created → touch.added ≠ none) :
    Data.Sound { s with connections := s.connections.commit i, secrets := s.secrets.commit i } := by
  intro id row' hrow'
  obtain ⟨row, hwritten, horganization, hfits, -⟩ := h.wrote kind hkind
  rw [get?_commit] at hrow'
  by_cases hid : id = touch.connectionId
  · subst hid
    cases (get?_seen_of_written hwritten rfl).symm.trans hrow'
    exact h.sound_own hsound hindexed hkind hcreated horganization hfits
  · rw [get?_seen_of_not fun wr hwr howner => hid (h.rows hwr howner).2] at hrow'
    exact h.sound_other hid (hsound id row' hrow')

lemma Data.Sound.of_eq (h : s.Sound)
    (hconnections : s'.connections.committed = s.connections.committed)
    (hsecrets : s'.secrets.committed = s.secrets.committed) : s'.Sound :=
  fun id row hrow => hsecrets ▸ h id row (hconnections ▸ hrow)

lemma Data.Sound.perform (hsound : s.Sound) (hindexed : s.secrets.Indexed SecretRow.entry)
    (h : HeldBy s i (some view)) (hok : connectionProtocol.ok view op)
    (heffect : Effect i s op answer s') : s'.Sound := by
  cases heffect with
  | createdSecret hinsert =>
    obtain ⟨-, -, rfl, -⟩ := insertUnique_ok hinsert
    exact hsound.of_eq rfl rfl
  | committed =>
    obtain ⟨touch, kind, rfl, hkind, hcreated⟩ := hok
    exact hsound.commit hindexed h hkind hcreated
  | _ => exact hsound.of_eq rfl rfl

/-! ## All requests -/

/-- The invariant of a run. -/
structure Kept (w : ConnectionViews) : Prop where
  held : ∀ i, HeldBy w.shared i (w.view i)
  sound : w.shared.Sound
  indexed : w.shared.secrets.Indexed SecretRow.entry

lemma clock_cases {time : ℕ} (h : connections.other time s = some s') :
    s'.connections = s.connections ∧ s'.secrets = s.secrets := by
  obtain ⟨-, ⟨⟩⟩ := Option.ite_none_right_eq_some.mp h
  exact ⟨rfl, rfl⟩

section

variable (h : Kept w) (hstep : ConnectionStep w event w')
include h hstep

/-- What a step does to the committed connections. -/
lemma Kept.grows : w.shared.Grows w'.shared := by
  cases hstep with
  | start | ret | fail | crash => exact Data.grows_of_eq rfl
  | @perform i view op answer s' oracle hview _ _ hperform =>
    exact (effect_of_perform hperform).grows (hview ▸ h.held i)
  | other hother =>
    refine Data.grows_of_eq ?_
    rw [(clock_cases hother).1]

lemma Kept.held_step (hguard : Undisturbed w.shared event) (i : ℕ) : HeldBy w'.shared i (w'.view i) := by
  refine hstep.members h.held (fun i _ hidle => hidle)
    (fun i op answer s' view hevent hperf hheld => ?_)
    (fun i => ⟨fun hwr => owner_ne_of_rollback hwr,
      fun hwr => owner_ne_of_rollback hwr⟩)
    (fun i j op answer s' view v hji hperf hheld => ?_)
    (fun i j v hji hheld => HeldBy.keeps (keeps_rollback hji) (keeps_rollback hji) hheld
      (Data.grows_of_eq rfl))
    (fun change s' j v hother hheld => ?_) i
  · subst hevent
    obtain ⟨oracle, hperform⟩ := hperf.perform
    exact hheld.perform hperf.ok h.sound (effect_of_perform hperform) hguard
  · obtain ⟨oracle, hperform⟩ := hperf.perform
    have heffect := effect_of_perform hperform
    obtain ⟨hconnections, hsecrets⟩ := heffect.keeps hji
    exact hheld.keeps hconnections hsecrets (heffect.grows (hperf.view ▸ h.held i))
  · obtain ⟨hconnections, hsecrets⟩ := clock_cases hother
    refine hheld.keeps (hconnections ▸ .refl j _) (hsecrets ▸ .refl j _) (Data.grows_of_eq ?_)
    rw [hconnections]

lemma Kept.step (hguard : Undisturbed w.shared event) : Kept w' := by
  refine ⟨h.held_step hstep hguard, ?_, ?_⟩
  · cases hstep with
    | start => exact h.sound
    | ret | fail | crash => exact h.sound.of_eq rfl rfl
    | @perform i view op answer s' oracle hview hok _ hperform =>
      exact h.sound.perform h.indexed (hview ▸ h.held i) hok (effect_of_perform hperform)
    | other hother =>
      obtain ⟨hconnections, hsecrets⟩ := clock_cases hother
      exact h.sound.of_eq (by rw [hconnections]) (by rw [hsecrets])
  · cases hstep with
    | start => exact h.indexed
    | ret | fail | crash => exact h.indexed.rollback _
    | perform oracle _ _ _ hperform => exact (effect_of_perform hperform).indexed h.indexed
    | other hother => exact (clock_cases hother).2 ▸ h.indexed

end

/-- No connections. -/
def Data.fresh (clock : ℕ) : Data := ⟨clock, .settled .empty, .settled .empty⟩

lemma kept_fresh (clock : ℕ) : Kept (.idle (.fresh clock)) where
  held _ := ⟨by rintro _ _ ⟨⟩, by rintro _ _ ⟨⟩⟩
  sound := by rintro _ _ ⟨⟩
  indexed := ⟨by rintro _ _ _ _ _ ⟨⟩, by rintro _ _ _ _ _ ⟨⟩, by rintro _ _ _ _ _ ⟨⟩⟩

lemma Data.Sound.consistent (h : s.Sound) (hindexed : s.secrets.Indexed SecretRow.entry) :
    s.Consistent := by
  refine fun id row hrow => ⟨fun halive => ?_, fun hdeleted => ?_⟩
  · obtain ⟨secretId, secret, hsecret, hactive⟩ := (h id row hrow).alive halive
    refine ⟨secretId, ⟨secret, hsecret, (SecretRow.isActiveOf_iff.mp hactive).2⟩, ?_⟩
    rintro other ⟨secret', hsecret', hentry'⟩
    exact hindexed.committed hsecret' hsecret (SecretRow.entry_eq_some_iff.mpr hentry')
      (SecretRow.entry_of_isActiveOf hactive)
  · obtain ⟨hstatus, hnone⟩ := (h id row hrow).deleted hdeleted
    refine ⟨hstatus, ?_⟩
    rintro secretId ⟨secret, hsecret, hentry⟩
    exact hnone hsecret (SecretRow.entry_eq_some_iff.mpr hentry)

variable {c c' : Crew ℕ Data ConnectionStatement ConnectionAnswer ConnectionError ConnectionRow}
  {events : List ConnectionEvent}

/-- A crew of requests and what is known of them. -/
abbrev ConnectionSeen
    (c : Crew ℕ Data ConnectionStatement ConnectionAnswer ConnectionError ConnectionRow)
    (w : ConnectionViews) : Prop :=
  c.Seen connectionProtocol (fun _ _ => True) (fun _ _ => True) w

lemma connection_invariant (inv : ConnectionViews → Prop) (hinit : inv w)
    (hkeep : ∀ w event w', inv w → ConnectionStep w event w' → Undisturbed w.shared event → inv w')
    (hseen : ConnectionSeen c w)
    (hrun : Run (CrewStep.Guarded connections Undisturbed) c events c') :
    ∃ w' : ConnectionViews, inv w' ∧ ConnectionSeen c' w' :=
  CrewStep.Guarded.invariant (fun _ request => proper_program request.2) (fun _ => inv) hinit
    (fun _ => hkeep) hseen hrun fun _ _ _ _ => trivial

/-- **Connections are consistent**, in every run in which a secret is still active when a request
revokes it, and a connection is not deleted when a request writes it: one that is not deleted has
exactly one active secret, a deleted one has none and the status, and is never changed again. -/
theorem connections_consistent (clock : ℕ) (events : List ConnectionEvent)
    (c : Crew ℕ Data ConnectionStatement ConnectionAnswer ConnectionError ConnectionRow)
    (hrun : Run (CrewStep.Guarded connections Undisturbed) (.idle (.fresh clock)) events c) :
    c.shared.Consistent ∧
      ∀ later c' id row, Run (CrewStep.Guarded connections Undisturbed) c later c' →
        c.shared.connections.committed.get? id = some row → row.deletedAt ≠ none →
        c'.shared.connections.committed.get? id = some row := by
  obtain ⟨w, hw, hseen⟩ := connection_invariant Kept (kept_fresh clock)
    (fun _ _ _ h hstep hguard => h.step hstep hguard) Crew.seen_idle hrun
  refine ⟨hseen.shared ▸ hw.sound.consistent hw.indexed, ?_⟩
  intro later c' id row hlater hrow hdeleted
  obtain ⟨w', ⟨-, hrow'⟩, hseen'⟩ := connection_invariant
    (fun w => Kept w ∧ w.shared.connections.committed.get? id = some row)
    ⟨hw, hseen.shared ▸ hrow⟩
    (fun w event w' ⟨h, hrow⟩ hstep hguard => by
      obtain ⟨row', hrow', -, hsame⟩ := h.grows hstep id row hrow
      exact ⟨h.step hstep hguard, hsame hdeleted ▸ hrow'⟩) hseen hlater
  exact hseen'.shared ▸ hrow'

/-! ## Requests for one connection -/

/-- The owner of the organization. -/
def owner : Caller := ⟨"org", "user"⟩

def createRequest : ConnectionRequest :=
  .create (.ok ⟨"org", "mail", none, .smtp, .obj []⟩)

def rotateRequest : ConnectionRequest := .rotate "connection" fun _ => .ok []

/-- The first request creates a connection, whose secret has the same id. -/
def createsConnection : List (CrewAction ℕ (Caller × ConnectionRequest) ConnectionOracle ℕ) :=
  .start 0 (owner, createRequest) :: goes 0 5 { id := "connection" }

instance (s : Data) : DecidablePred (Undisturbed s) := fun event => by
  unfold Undisturbed
  split
  · infer_instance
  · exact inferInstanceAs (Decidable (∀ row ∈ (s.connections.seen _).get? _, row.deletedAt = none))
  · infer_instance

instance (s : Data) (connectionId id : String) : Decidable (s.HasActive connectionId id) :=
  inferInstanceAs (Decidable (∃ secret ∈ s.secrets.committed.get? id,
    secret.connectionId = connectionId ∧ secret.status = .active))

/-- A connection is created, its secret is rotated, and it is deleted. -/
theorem connections_consistent_sequential :
    ∃ events c row, Run (CrewStep.Guarded connections Undisturbed) (.idle (.fresh 0)) events c ∧
      c.shared.connections.committed.get? "connection" = some row ∧ row.deletedAt = some 0 ∧
      c.shared.Consistent := by
  have hscript : (script (Crew.actIf connections Undisturbed) (.idle (.fresh 0))
      (createsConnection ++ [.start 1 (owner, rotateRequest)] ++ goes 1 9 { id := "secret" } ++
        [.start 2 (owner, .delete "connection")] ++ goes 2 9)).any (fun done =>
      ∃ row ∈ done.2.shared.connections.committed.get? "connection", row.deletedAt = some 0) := by
    decide +kernel
  obtain ⟨events, c, hrun, row, hrow, hdeleted⟩ := Crew.exists_run hscript
  exact ⟨events, c, row, hrun, hrow, hdeleted, (connections_consistent 0 events c hrun).1⟩

/-- **Requests that overlap a deletion leave what is not consistent**: a rotation adds an active
secret to the connection that has been deleted since it was found, and enabling that connection
changes it, with another status than a deleted one has. -/
theorem overlapping_requests_inconsistent :
    (∃ events c row, Run (CrewStep connections) (.idle (.fresh 0)) events c ∧
      c.shared.connections.committed.get? "connection" = some row ∧ row.deletedAt ≠ none ∧
      c.shared.HasActive "connection" "secret") ∧
    ∃ events c later c' row row',
      Run (CrewStep connections) (.idle (.fresh 0)) events c ∧
      Run (CrewStep connections) c later c' ∧
      c.shared.connections.committed.get? "connection" = some row ∧ row.deletedAt ≠ none ∧
      c'.shared.connections.committed.get? "connection" = some row' ∧ row'.deletedAt ≠ none ∧
      row'.status = .active ∧ row' ≠ row := by
  constructor
  · have hscript : (script (Crew.act connections) (.idle (.fresh 0))
        (createsConnection ++ [.start 1 (owner, rotateRequest)] ++ goes 1 3 ++
          [.start 2 (owner, .delete "connection")] ++ goes 2 9 ++ goes 1 5 { id := "secret" })).any
        (fun done => (∃ row ∈ done.2.shared.connections.committed.get? "connection",
            row.deletedAt ≠ none) ∧
          done.2.shared.HasActive "connection" "secret") := by decide +kernel
    obtain ⟨events, c, hrun, ⟨row, hrow, hdeleted⟩, hactive⟩ := Crew.exists_free_run hscript
    exact ⟨events, c, row, hrun, hrow, hdeleted, hactive⟩
  · have hscript : (script (Crew.act connections) (.idle (.fresh 0))
        (createsConnection ++ [.start 1 (owner, .setEnabled "connection" true)] ++ goes 1 2 ++
          [.start 2 (owner, .delete "connection")] ++ goes 2 9)).any (fun done =>
        (∃ row ∈ done.2.shared.connections.committed.get? "connection", row.deletedAt ≠ none ∧
          row.status = .deleted) ∧
        (script (Crew.act connections) done.2 (goes 1 3)).any fun later =>
          ∃ row ∈ later.2.shared.connections.committed.get? "connection", row.deletedAt ≠ none ∧
            row.status = .active) := by decide +kernel
    obtain ⟨events, c, hrun, ⟨row, hrow, hdeleted, hstatus⟩, hthen⟩ := Crew.exists_free_run hscript
    obtain ⟨later, c', hlater, row', hrow', hdeleted', hstatus'⟩ := Crew.exists_free_run hthen
    refine ⟨events, c, later, c', row, row', hrun, hlater, hrow, hdeleted, hrow', hdeleted', hstatus',
      ?_⟩
    rintro rfl
    exact absurd (hstatus.symm.trans hstatus') (by decide)

end Flowmind.Connections
