import Mathlib.Data.List.Sort
import NocReport.Foundation.Python
import NocReport.Foundation.Text
import NocReport.Foundation.Transition

set_option relaxedAutoImplicit false
set_option autoImplicit false

/-!
# Users, roles and permissions

Who may do what: the permission check of each request (`deps.py`), the requests that create users
and change users and roles (`admin.py`), and the script that creates the roles when a container
starts (`seed.py`). A request is one transaction; one that fails changes nothing.

## Main definitions

* `Access.State` — the tables of permissions, roles and users, and the audit log.
* `Access.requirePermission` — the check of `require_permission`.
* `Access.createUser`, `Access.updateUser`, `Access.updateRole`, `Access.seed` — the functions of
  these names; `Access.step` takes one of them.
* `Access.Attack` — some users who act on their own, and the accounts that they create.

## Main results

* `Access.canObtain_iff` — which permissions a group of users can obtain on its own.
* `Access.permissions_of_audit` — the audit log says which permissions a role has.
* `Access.seed_again` — what the script does when it runs again.
-/

namespace Access

open Transition

/-! ## Tables -/

abbrev Id := ℕ

/-- A row of `roles`, with the names of its permissions. -/
structure Role where
  id : Id
  name : PyStr
  permissions : List PyStr
  deriving DecidableEq, Repr

/-- A row of `users`, with the roles it has. -/
structure User where
  id : Id
  username : PyStr
  displayName : PyStr
  email : Option PyStr
  enabled : Bool
  roles : List Id
  deriving DecidableEq, Repr

/-- The body of `POST /users`; the schema bounds the texts. -/
structure UserCreate where
  username : PyStr
  displayName : PyStr
  email : Option PyStr
  roleNames : List PyStr
  username_length : 3 ≤ username.length ∧ username.length ≤ 100
  displayName_length : 1 ≤ displayName.length ∧ displayName.length ≤ 200

/-- The body of `PATCH /users/{user_id}`: each field is absent, null or a value. -/
structure UserUpdate where
  displayName : Option (Option PyStr)
  email : Option (Option PyStr)
  enabled : Option (Option Bool)
  roleNames : Option (Option (List PyStr))
  displayName_length : ∀ name ∈ displayName.join, 1 ≤ name.length ∧ name.length ≤ 200

/-- What `record_audit` is told. -/
inductive AuditEvent
  /-- `user.create`, with the username -/
  | userCreate (user : Id) (username : PyStr)
  /-- `user.update`, with the fields of the body that are there -/
  | userUpdate (user : Id) (body : UserUpdate)
  /-- `role.update`, with the name and the permissions of the role -/
  | roleUpdate (role : Id) (name : PyStr) (permissions : List PyStr)

/-- A row of `audit_logs`. -/
structure AuditLog where
  actorUserId : Id
  event : AuditEvent

/-- The tables. -/
structure State where
  permissions : List PyStr
  roles : List Role
  users : List User
  auditLogs : List AuditLog
  /-- the identifiers drawn so far; `uuid4` draws a new one each time -/
  next : Id

def State.empty : State := ⟨[], [], [], [], 0⟩

/-- `HTTPException`, or an error of the database. -/
inductive RequestError
  | http (status : ℕ) (detail : PyStr)
  | database
  deriving DecidableEq, Repr

/-! ## Permission checks -/

section Requests

variable (s : State)

/-- `db.get(User, id)`. -/
def State.user (id : Id) : Option User := s.users.find? (·.id = id)

/-- `db.get(Role, id)`. -/
def State.role (id : Id) : Option Role := s.roles.find? (·.id = id)

/-- `User.permission_names`. -/
def State.permissionNames (user : User) : List PyStr :=
  (s.roles.filter fun r => r.id ∈ user.roles).flatMap (·.permissions)

/-- `get_current_user`, for an access token of user `id`. -/
def getCurrentUser (id : Id) : Except RequestError User :=
  match s.user id with
  | none => .error (.http 401 (py "User not found or disabled"))
  | some user =>
    if user.enabled then .ok user else .error (.http 401 (py "User not found or disabled"))

/-- `require_permission`. -/
def requirePermission (permission : PyStr) (id : Id) : Except RequestError User := do
  let user ← getCurrentUser s id
  if permission ∈ s.permissionNames user then return user
  else throw (.http 403 (py "Missing permission: " ++ permission))

/-- `", ".join(sorted(set(names) - found))`. -/
def unknownNames (names found : List PyStr) : PyStr :=
  (py ", ").intercalate (((names.filter (· ∉ found)).dedup).mergeSort fun a b => a ≤ b)

/-! ## Requests -/

/-- `_resolve_roles`. -/
def resolveRoles (roleNames : List PyStr) : Except RequestError (List Role) :=
  let roles := s.roles.filter (·.name ∈ roleNames)
  let found := roles.map (·.name)
  if roleNames.all (· ∈ found) then .ok roles
  else .error (.http 400 (py "Unknown roles: " ++ unknownNames roleNames found))

/-- `record_audit`. -/
def State.recordAudit (actor : Id) (event : AuditEvent) : State :=
  { s with auditLogs := s.auditLogs ++ [⟨actor, event⟩] }

/-- `create_user`. -/
def createUser (actor : Id) (body : UserCreate) : Except RequestError State := do
  let currentUser ← requirePermission s (py "user.manage") actor
  if s.users.any (·.username = body.username) then
    throw (.http 409 (py "Username already exists"))
  else
    let roles ← resolveRoles s body.roleNames
    -- the schema does not bound the address, but its column does
    if body.email.any (200 < ·.length) then throw .database
    else
      let user : User :=
        ⟨s.next, body.username, body.displayName, body.email, true, roles.map (·.id)⟩
      return State.recordAudit { s with users := s.users ++ [user], next := s.next + 1 }
        currentUser.id (.userCreate user.id user.username)

/-- The fields of the body, set one after the other. -/
def setFields (body : UserUpdate) (roles : Option (List Role)) (user : User) : User :=
  { user with
    displayName := (body.displayName.join).getD user.displayName
    email := body.email.getD user.email
    enabled := (body.enabled.join).getD user.enabled
    roles := (roles.map fun roles => roles.map (·.id)).getD user.roles }

/-- `update_user`. -/
def updateUser (actor id : Id) (body : UserUpdate) : Except RequestError State := do
  let currentUser ← requirePermission s (py "user.manage") actor
  match s.user id with
  | none => throw (.http 404 (py "User not found"))
  | some user =>
    -- the columns of the name and of the flag are not nullable, and that of the address is bounded
    if body.displayName = some none ∨ body.enabled = some none ∨
        body.email.join.any (200 < ·.length) then throw .database
    else
      let roles ← body.roleNames.join.mapM (resolveRoles s)
      return State.recordAudit
        { s with users := s.users.map fun u => if u.id = id then setFields body roles u else u }
        currentUser.id (.userUpdate user.id body)

/-- `update_role`. -/
def updateRole (actor id : Id) (permissions : List PyStr) : Except RequestError State := do
  let currentUser ← requirePermission s (py "role.manage") actor
  match s.role id with
  | none => throw (.http 404 (py "Role not found"))
  | some role =>
    if role.name = py "Admin" then
      throw (.http 400 (py "The Administrator role cannot be edited"))
    else
      let found := s.permissions.filter (· ∈ permissions)
      if permissions.all (· ∈ found) then
        return State.recordAudit
          { s with
            roles := s.roles.map fun r => if r.id = id then { r with permissions := found } else r }
          currentUser.id (.roleUpdate role.id role.name (found.mergeSort fun a b => a ≤ b))
      else throw (.http 400 (py "Unknown permissions: " ++ unknownNames permissions found))

end Requests

/-! ## The seed script -/

/-- `ALL_PERMISSIONS`. -/
def allPermissions : List PyStr :=
  [py "dashboard.read", py "incident.read", py "incident.create", py "incident.update",
    py "incident.delete", py "incident.evidence.upload", py "incident.analysis.execute",
    py "report.read", py "report.generate", py "report.download", py "knowledge.read",
    py "analytics.read", py "user.read", py "user.manage", py "role.manage", py "shift.read",
    py "shift.operate", py "shift.manage", py "system.read", py "system.configure",
    py "audit.read", py "skill.manage"]

/-- `NOC_PERMISSIONS`. -/
def nocPermissions : List PyStr :=
  [py "dashboard.read", py "incident.read", py "incident.create", py "incident.update",
    py "incident.evidence.upload", py "incident.analysis.execute", py "report.read",
    py "report.generate", py "report.download", py "knowledge.read", py "shift.read",
    py "shift.operate"]

/-- `DEVOPS_PERMISSIONS`. -/
def devopsPermissions : List PyStr := nocPermissions ++ [py "analytics.read", py "audit.read"]

/-- `ROLE_PERMISSIONS`. -/
def rolePermissions : List (PyStr × List PyStr) :=
  [(py "NOC", nocPermissions), (py "DevOps", devopsPermissions), (py "Admin", allPermissions)]

/-- `_get_or_create_permission`. -/
def getOrCreatePermission (s : State) (name : PyStr) : State :=
  if name ∈ s.permissions then s else { s with permissions := s.permissions ++ [name] }

/-- The role of a name. -/
def State.roleNamed (s : State) (name : PyStr) : Option Role := s.roles.find? (·.name = name)

/-- The first half of `_get_or_create_role`: the role, created where there is none. -/
def getOrInsertRole (s : State) (name : PyStr) : State × Id :=
  match s.roleNamed name with
  | some role => (s, role.id)
  | none => ({ s with roles := s.roles ++ [⟨s.next, name, []⟩], next := s.next + 1 }, s.next)

/-- `_get_or_create_role`. -/
def getOrCreateRole (s : State) (name : PyStr) (permissionNames : List PyStr) : State :=
  let found := getOrInsertRole s name
  let s := permissionNames.foldl getOrCreatePermission found.1
  { s with roles := s.roles.map fun r =>
      if r.id = found.2 then { r with permissions := permissionNames } else r }

/-- The first half of `seed`: the roles and their permissions. -/
def seedRoles (s : State) : State :=
  rolePermissions.foldl (fun s d => getOrCreateRole s d.1 d.2) s

/-- `seed`, without the definitions of the shifts. -/
def seed (s : State) : State :=
  let s := seedRoles s
  if s.users.any (·.username = py "admin") then s
  else
    { s with
      users := s.users ++ [⟨s.next, py "admin", py "Administrator", some (py "admin@example.com"),
        true, ((s.roleNamed (py "Admin")).map (·.id)).toList⟩]
      next := s.next + 1 }

/-! ## Runs -/

/-- What changes users and roles. -/
inductive Request
  | createUser (actor : Id) (body : UserCreate)
  | updateUser (actor id : Id) (body : UserUpdate)
  | updateRole (actor id : Id) (permissions : List PyStr)
  /-- a container starts -/
  | seed

/-- A request, or the script, that succeeds. -/
def step (s : State) : Request → Option State
  | .createUser actor body => (createUser s actor body).toOption
  | .updateUser actor id body => (updateUser s actor id body).toOption
  | .updateRole actor id permissions => (updateRole s actor id permissions).toOption
  | .seed => some (seed s)

/-- User `id` can act with permission `p`. -/
def State.Has (s : State) (id : Id) (p : PyStr) : Prop :=
  ∃ user, s.user id = some user ∧ user.enabled = true ∧ p ∈ s.permissionNames user

instance (s : State) (id : Id) (p : PyStr) : Decidable (s.Has id p) :=
  decidable_of_iff
    ((s.user id).any (fun u => u.enabled && decide (p ∈ s.permissionNames u)) = true) (by
      cases h : s.user id <;> simp [State.Has, h])

variable {s s' : State} {actor id : Id} {p : PyStr} {user : User} {r : Role}

lemma mem_permissionNames :
    p ∈ s.permissionNames user ↔ ∃ r ∈ s.roles, r.id ∈ user.roles ∧ p ∈ r.permissions := by
  simp only [State.permissionNames, List.mem_flatMap, List.mem_filter, decide_eq_true_eq,
    and_assoc]

/-- A user passes the check exactly when it can act with the permission. -/
lemma requirePermission_eq_ok : requirePermission s p id = .ok user ↔
    s.user id = some user ∧ user.enabled = true ∧ p ∈ s.permissionNames user := by
  unfold requirePermission getCurrentUser
  cases hu : s.user id with
  | none => simp [bind, Except.bind]
  | some u =>
    by_cases he : u.enabled = true
    · by_cases hp : p ∈ s.permissionNames u
      · simp only [he, if_true, bind, Except.bind, hp, pure, Except.pure, Except.ok.injEq,
          Option.some.injEq]
        constructor
        · rintro rfl
          exact ⟨rfl, he, hp⟩
        · exact fun h => h.1
      · simp only [he, if_true, bind, Except.bind, hp, if_false, throw, throwThe,
          MonadExceptOf.throw, Option.some.injEq]
        constructor
        · intro h
          cases h
        · rintro ⟨rfl, -, h⟩
          exact absurd h hp
    · simp only [he, bind, Except.bind, Option.some.injEq]
      constructor
      · intro h
        cases h
      · rintro ⟨rfl, h, -⟩
        exact absurd h he

/-! ## What a request does -/

lemma toOption_eq_some {ε α : Type} {x : Except ε α} {a : α} :
    x.toOption = some a ↔ x = .ok a := by
  cases x <;> simp [Except.toOption]

lemma resolveRoles_eq_ok {names : List PyStr} {roles : List Role}
    (h : resolveRoles s names = .ok roles) : roles = s.roles.filter (·.name ∈ names) := by
  simp only [resolveRoles] at h
  split at h
  · cases h
    rfl
  · cases h

/-- Who passes the check can act with the permission. -/
lemma has_of_requirePermission (h : requirePermission s p id = .ok user) :
    s.Has id p ∧ user.id = id := by
  have hok := requirePermission_eq_ok.mp h
  exact ⟨⟨user, hok⟩, by simpa using List.find?_some hok.1⟩

/-- What `create_user` does when it succeeds. -/
lemma createUser_eq_ok {body : UserCreate} (h : createUser s actor body = .ok s') :
    s.Has actor (py "user.manage") ∧ (∀ u ∈ s.users, u.username ≠ body.username) ∧
      s' = State.recordAudit
        { s with
          users := s.users ++ [⟨s.next, body.username, body.displayName, body.email, true,
            (s.roles.filter (·.name ∈ body.roleNames)).map (·.id)⟩]
          next := s.next + 1 } actor (.userCreate s.next body.username) := by
  unfold createUser at h
  obtain ⟨currentUser, hp, hok⟩ := Except.bind_eq_ok.mp h
  obtain ⟨hhas, rfl⟩ := has_of_requirePermission hp
  split at hok
  · cases hok
  · next hname =>
    obtain ⟨roles, hroles, hrest⟩ := Except.bind_eq_ok.mp hok
    split at hrest
    · cases hrest
    · cases hrest
      rw [resolveRoles_eq_ok hroles]
      exact ⟨hhas, by simpa using hname, rfl⟩

/-- What `update_user` does when it succeeds. -/
lemma updateUser_eq_ok {body : UserUpdate} (h : updateUser s actor id body = .ok s') :
    s.Has actor (py "user.manage") ∧ ∃ roles user, s' = State.recordAudit
      { s with users := s.users.map fun u => if u.id = id then setFields body roles u else u }
      actor (.userUpdate user body) := by
  unfold updateUser at h
  obtain ⟨currentUser, hp, hok⟩ := Except.bind_eq_ok.mp h
  obtain ⟨hhas, rfl⟩ := has_of_requirePermission hp
  split at hok
  · cases hok
  · next user hu =>
    split at hok
    · cases hok
    · obtain ⟨roles, hroles, hrest⟩ := Except.bind_eq_ok.mp hok
      cases hrest
      exact ⟨hhas, roles, user.id, rfl⟩

/-- What `update_role` does when it succeeds. -/
lemma updateRole_eq_ok {permissions : List PyStr}
    (h : updateRole s actor id permissions = .ok s') :
    s.Has actor (py "role.manage") ∧ ∃ role, s.role id = some role ∧ role.name ≠ py "Admin" ∧
      s' = State.recordAudit
        { s with roles := s.roles.map fun r =>
            if r.id = id then { r with permissions := s.permissions.filter (· ∈ permissions) }
            else r }
        actor (.roleUpdate role.id role.name
          ((s.permissions.filter (· ∈ permissions)).mergeSort fun a b => a ≤ b)) := by
  unfold updateRole at h
  obtain ⟨currentUser, hp, hok⟩ := Except.bind_eq_ok.mp h
  obtain ⟨hhas, rfl⟩ := has_of_requirePermission hp
  split at hok
  · cases hok
  · next role hr =>
    split at hok
    · cases hok
    · next hadmin =>
      simp only at hok
      split at hok
      · cases hok
        exact ⟨hhas, role, hr, hadmin, rfl⟩
      · cases hok

/-! ## What holds in every state that can occur -/

/-- What holds in every state after the script has run for the first time. -/
structure Inv (s : State) : Prop where
  /-- the roles are those of the script -/
  names : s.roles.map (·.name) = rolePermissions.map (·.1)
  ids : (s.roles.map (·.id)).Nodup
  permissions : ∀ p ∈ allPermissions, p ∈ s.permissions
  /-- the administrators have every permission -/
  admin : ∀ r ∈ s.roles, r.name = py "Admin" → ∀ p ∈ allPermissions, p ∈ r.permissions
  adminUser : ∃ u ∈ s.users, u.username = py "admin"

lemma inv_init : Inv (seed .empty) where
  names := by decide +kernel
  ids := by decide +kernel
  permissions := by decide +kernel
  admin := by decide +kernel
  adminUser := by decide +kernel

namespace Inv

variable (hs : Inv s)
include hs

/-- No two roles have one name. -/
lemma nodup_names : (s.roles.map (·.name)).Nodup := by
  rw [hs.names]
  decide

lemma exists_named {name : PyStr} (h : name ∈ rolePermissions.map (·.1)) :
    ∃ r ∈ s.roles, r.name = name := by
  rw [← hs.names] at h
  simpa using h

lemma eq_of_id {r r' : Role} (hr : r ∈ s.roles) (hr' : r' ∈ s.roles) (h : r.id = r'.id) :
    r = r' :=
  List.inj_on_of_nodup_map hs.ids hr hr' h

lemma eq_of_name {r r' : Role} (hr : r ∈ s.roles) (hr' : r' ∈ s.roles) (h : r.name = r'.name) :
    r = r' :=
  List.inj_on_of_nodup_map hs.nodup_names hr hr' h

/-- A role is found by its identifier. -/
lemma role_eq {r : Role} (hr : r ∈ s.roles) : s.role r.id = some r := by
  obtain ⟨r', hr'⟩ : ∃ r', s.role r.id = some r' := by
    rw [← Option.isSome_iff_exists]
    exact List.find?_isSome.mpr ⟨r, hr, by simp⟩
  have hid : r'.id = r.id := by simpa using List.find?_some hr'
  rw [hr', hs.eq_of_id (List.mem_of_find?_eq_some hr') hr hid]

end Inv

/-- What the script does with the permissions of a role. -/
def restore (r : Role) : Role :=
  { r with permissions := (rolePermissions.lookup r.name).getD r.permissions }

lemma foldl_getOrCreatePermission {names : List PyStr} (h : ∀ p ∈ names, p ∈ s.permissions) :
    names.foldl getOrCreatePermission s = s := by
  induction names with
  | nil => rfl
  | cons p names ih =>
    rw [List.foldl_cons, getOrCreatePermission, if_pos (h p List.mem_cons_self)]
    exact ih fun q hq => h q (List.mem_cons_of_mem _ hq)

/-- A role of the script gets its permissions. -/
def setNamed (name : PyStr) (permissions : List PyStr) (r : Role) : Role :=
  if r.name = name then { r with permissions } else r

lemma setNamed_setNamed (r : Role) :
    (setNamed (py "Admin") allPermissions ∘ setNamed (py "DevOps") devopsPermissions ∘
      setNamed (py "NOC") nocPermissions) r = restore r := by
  have hnd : py "NOC" ≠ py "DevOps" := by decide
  have hna : py "NOC" ≠ py "Admin" := by decide
  have hda : py "DevOps" ≠ py "Admin" := by decide
  have hbeq : ∀ x y : PyStr, x ≠ y → (x == y) = false := fun x y h => beq_false_of_ne h
  obtain ⟨id, name, permissions⟩ := r
  by_cases hn : name = py "NOC"
  · simp [setNamed, restore, rolePermissions, hn, hnd, hna]
  · by_cases hd : name = py "DevOps"
    · simp [setNamed, restore, rolePermissions, List.lookup_cons, hd, hnd.symm, hda,
        hbeq _ _ hnd.symm]
    · by_cases ha : name = py "Admin"
      · simp [setNamed, restore, rolePermissions, List.lookup_cons, ha, hna.symm, hda.symm,
          hbeq _ _ hna.symm, hbeq _ _ hda.symm]
      · simp [setNamed, restore, rolePermissions, List.lookup_cons, hn, hd, ha, hbeq _ _ hn,
          hbeq _ _ hd, hbeq _ _ ha]

/-- The roles have different identifiers and the names of the script. -/
structure Roles (s : State) (roles : List Role) : Prop where
  names : roles.map (·.name) = s.roles.map (·.name)
  ids : roles.map (·.id) = s.roles.map (·.id)

lemma Roles.setNamed {roles : List Role} (h : Roles s roles) (name : PyStr) (names : List PyStr) :
    Roles s (roles.map (setNamed name names)) := by
  have hkeep : ∀ r, (Access.setNamed name names r).name = r.name ∧
      (Access.setNamed name names r).id = r.id := by
    intro r
    unfold Access.setNamed
    split <;> exact ⟨rfl, rfl⟩
  refine ⟨?_, ?_⟩
  · rw [← h.names, List.map_map]
    exact List.map_congr_left fun r _ => (hkeep r).1
  · rw [← h.ids, List.map_map]
    exact List.map_congr_left fun r _ => (hkeep r).2

lemma getOrCreateRole_eq (hs : Inv s) {roles : List Role} (h : Roles s roles) {name : PyStr}
    {names : List PyStr} (hname : name ∈ rolePermissions.map (·.1))
    (hnames : ∀ p ∈ names, p ∈ s.permissions) :
    getOrCreateRole { s with roles } name names =
      { s with roles := roles.map (setNamed name names) } := by
  have hids : (roles.map (·.id)).Nodup := h.ids ▸ hs.ids
  have hnodup : (roles.map (·.name)).Nodup := h.names ▸ hs.nodup_names
  rw [← hs.names, ← h.names] at hname
  obtain ⟨r, hr, hrname⟩ := List.mem_map.mp hname
  obtain ⟨r₀, hr₀⟩ : ∃ r₀, State.roleNamed { s with roles } name = some r₀ := by
    rw [← Option.isSome_iff_exists]
    exact List.find?_isSome.mpr ⟨r, hr, by simpa using hrname⟩
  have hmem : r₀ ∈ roles := List.mem_of_find?_eq_some hr₀
  have hname₀ : r₀.name = name := by simpa using List.find?_some hr₀
  have hfound : getOrInsertRole { s with roles } name = ({ s with roles }, r₀.id) := by
    simp only [getOrInsertRole, hr₀]
  simp only [getOrCreateRole, hfound]
  rw [foldl_getOrCreatePermission (s := { s with roles }) hnames]
  congr 1
  refine List.map_congr_left fun r hr => ?_
  have hiff : r.id = r₀.id ↔ r.name = name := by
    rw [← hname₀]
    exact ⟨fun h => congrArg Role.name (List.inj_on_of_nodup_map hids hr hmem h),
      fun h => congrArg Role.id (List.inj_on_of_nodup_map hnodup hr hmem h)⟩
  simp only [setNamed, hiff]

/-- What the script does when it has run before. -/
lemma seed_eq (hs : Inv s) : seed s = { s with roles := s.roles.map restore } := by
  have hnoc : ∀ p ∈ nocPermissions, p ∈ s.permissions := fun p hp =>
    hs.permissions p (by revert p; decide)
  have hdevops : ∀ p ∈ devopsPermissions, p ∈ s.permissions := fun p hp =>
    hs.permissions p (by revert p; decide)
  have h₀ : Roles s s.roles := ⟨rfl, rfl⟩
  have h₁ := h₀.setNamed (py "NOC") nocPermissions
  have h₂ := h₁.setNamed (py "DevOps") devopsPermissions
  have hroles : seedRoles s = { s with roles := s.roles.map restore } := by
    simp only [seedRoles, rolePermissions, List.foldl_cons, List.foldl_nil]
    rw [getOrCreateRole_eq hs h₀ (by decide) hnoc, getOrCreateRole_eq hs h₁ (by decide) hdevops,
      getOrCreateRole_eq hs h₂ (by decide) hs.permissions, List.map_map, List.map_map]
    congr 1
    exact List.map_congr_left fun r _ => setNamed_setNamed r
  have hadmin : s.users.any (·.username = py "admin") = true := by simpa using hs.adminUser
  simp only [seed, hroles, hadmin, if_true]

lemma restore_eq (r : Role) : (restore r).id = r.id ∧ (restore r).name = r.name := ⟨rfl, rfl⟩

/-- A change of permissions keeps what always holds, if it spares the administrators. -/
lemma Inv.mapRoles (hs : Inv s) {f : Role → Role} (hid : ∀ r, (f r).id = r.id)
    (hname : ∀ r, (f r).name = r.name)
    (hadmin : ∀ r ∈ s.roles, r.name = py "Admin" → ∀ p ∈ allPermissions, p ∈ (f r).permissions) :
    Inv { s with roles := s.roles.map f } where
  names := by
    rw [← hs.names, List.map_map]
    exact List.map_congr_left fun r _ => hname r
  ids := by
    rw [List.map_map]
    have hids : s.roles.map ((·.id) ∘ f) = s.roles.map (·.id) :=
      List.map_congr_left fun r _ => hid r
    rw [hids]
    exact hs.ids
  permissions := hs.permissions
  admin := by
    intro r hr hra
    obtain ⟨r₀, hr₀, rfl⟩ := List.mem_map.mp hr
    exact hadmin r₀ hr₀ (hname r₀ ▸ hra)
  adminUser := hs.adminUser

lemma Inv.seed (hs : Inv s) : Inv (seed s) := by
  rw [seed_eq hs]
  refine hs.mapRoles (fun _ => rfl) (fun _ => rfl) fun r _ hr => ?_
  have hlookup : rolePermissions.lookup (py "Admin") = some allPermissions := by decide
  simp only [restore, hr, hlookup, Option.getD_some]
  exact fun p hp => hp

/-- **What always holds is preserved by every request.** -/
lemma step_inv {a : Request} (hs : Inv s) (h : step s a = some s') : Inv s' := by
  cases a with
  | createUser actor body =>
    obtain ⟨-, -, rfl⟩ := createUser_eq_ok (toOption_eq_some.mp h)
    obtain ⟨u, hu, hname⟩ := hs.adminUser
    exact ⟨hs.names, hs.ids, hs.permissions, hs.admin, u, List.mem_append_left _ hu, hname⟩
  | updateUser actor id body =>
    obtain ⟨-, roles, user, rfl⟩ := updateUser_eq_ok (toOption_eq_some.mp h)
    obtain ⟨u, hu, hname⟩ := hs.adminUser
    refine ⟨hs.names, hs.ids, hs.permissions, hs.admin, _, List.mem_map_of_mem hu, ?_⟩
    split <;> exact hname
  | updateRole actor id permissions =>
    obtain ⟨-, role, hrole, hadmin, rfl⟩ := updateRole_eq_ok (toOption_eq_some.mp h)
    have hmap := hs.mapRoles (f := fun r =>
      if r.id = id then { r with permissions := s.permissions.filter (· ∈ permissions) } else r)
      (fun r => by split <;> rfl) (fun r => by split <;> rfl) fun r hr hra => ?_
    · exact ⟨hmap.names, hmap.ids, hmap.permissions, hmap.admin, hmap.adminUser⟩
    · have hne : r.id ≠ id := fun hid => by
        have hfound := hs.role_eq hr
        rw [hid, hrole] at hfound
        cases hfound
        exact hadmin hra
      rw [if_neg hne]
      exact hs.admin r hr hra
  | seed =>
    obtain rfl : seed s = s' := Option.some.inj h
    exact hs.seed

lemma run_inv {as : List Request} (hs : Inv s) (h : run step s as = some s') : Inv s' :=
  run_invariant (P := fun _ _ => True) (fun _ _ _ hI _ ht => step_inv hI ht) hs
    (fun _ _ _ _ _ _ => trivial) h

/-! ## What a group of users can obtain -/

/-- Some users who act on their own, and the accounts that they create: they know the passwords. -/
structure Attack where
  state : State
  known : List Id

/-- A request of one of the users. -/
def attackStep (t : Attack) : Request → Option Attack
  | .createUser actor body =>
    if actor ∈ t.known then
      (createUser t.state actor body).toOption.map fun s => ⟨s, t.state.next :: t.known⟩
    else none
  | .updateUser actor id body =>
    if actor ∈ t.known then (updateUser t.state actor id body).toOption.map fun s => ⟨s, t.known⟩
    else none
  | .updateRole actor id permissions =>
    if actor ∈ t.known then
      (updateRole t.state actor id permissions).toOption.map fun s => ⟨s, t.known⟩
    else none
  | .seed => none

/-- One of the users can act with permission `p`. -/
def Attack.Has (t : Attack) (p : PyStr) : Prop := ∃ id ∈ t.known, t.state.Has id p

/-- What the users can do needs one of two permissions. -/
lemma has_of_attackStep {t t' : Attack} {a : Request} (h : attackStep t a = some t') :
    t.Has (py "user.manage") ∨ t.Has (py "role.manage") := by
  cases a with
  | createUser actor body =>
    simp only [attackStep] at h
    split at h
    · next hactor =>
      obtain ⟨s, hs, -⟩ := Option.map_eq_some_iff.mp h
      exact .inl ⟨actor, hactor, (createUser_eq_ok (toOption_eq_some.mp hs)).1⟩
    · cases h
  | updateUser actor id body =>
    simp only [attackStep] at h
    split at h
    · next hactor =>
      obtain ⟨s, hs, -⟩ := Option.map_eq_some_iff.mp h
      exact .inl ⟨actor, hactor, (updateUser_eq_ok (toOption_eq_some.mp hs)).1⟩
    · cases h
  | updateRole actor id permissions =>
    simp only [attackStep] at h
    split at h
    · next hactor =>
      obtain ⟨s, hs, -⟩ := Option.map_eq_some_iff.mp h
      exact .inr ⟨actor, hactor, (updateRole_eq_ok (toOption_eq_some.mp hs)).1⟩
    · cases h
  | seed => cases h

/-- The body that gives a user the role of the administrators, and nothing else. -/
def makeAdmin : UserUpdate := ⟨none, none, none, some (some [py "Admin"]), by simp⟩

/-- A user is found by its identifier after a change of the users. -/
lemma user_map {f : User → User} (hf : ∀ u, (f u).id = u.id) :
    State.user { s with users := s.users.map f } id = (s.user id).map f := by
  simp only [State.user, List.find?_map]
  congr 2
  funext u
  simp [hf]

/-- A user who manages users can make itself an administrator. -/
lemma updateUser_makeAdmin (hs : Inv s) (h : s.Has id (py "user.manage")) :
    ∃ s', updateUser s id id makeAdmin = .ok s' ∧ ∀ p ∈ allPermissions, s'.Has id p := by
  obtain ⟨user, hu, he, hp⟩ := h
  obtain ⟨r, hr, hname⟩ :=
    hs.exists_named (show py "Admin" ∈ rolePermissions.map (·.1) by decide)
  let roles := s.roles.filter (·.name ∈ [py "Admin"])
  have hmem : r ∈ roles := List.mem_filter.mpr ⟨hr, by simp [hname]⟩
  have hresolve : resolveRoles s [py "Admin"] = .ok roles := by
    refine if_pos ?_
    simp only [List.all_cons, List.all_nil, Bool.and_true, decide_eq_true_eq]
    exact List.mem_map.mpr ⟨r, hmem, hname⟩
  have hid : user.id = id := by simpa using List.find?_some hu
  let s' : State := State.recordAudit
    { s with users := s.users.map fun u =>
        if u.id = id then setFields makeAdmin (some roles) u else u }
    user.id (.userUpdate user.id makeAdmin)
  refine ⟨s', ?_, fun p hp => ?_⟩
  · unfold updateUser
    refine Except.bind_eq_ok.mpr ⟨user, requirePermission_eq_ok.mpr ⟨hu, he, hp⟩, ?_⟩
    rw [hu]
    have hmapM : makeAdmin.roleNames.join.mapM (resolveRoles s) = .ok (some roles) := by
      simp only [makeAdmin, Option.join_some, Option.mapM_some, hresolve]
      rfl
    simp only [hmapM]
    rfl
  · refine ⟨setFields makeAdmin (some roles) user, ?_, ?_, ?_⟩
    · have hkeep : ∀ u : User,
          (if u.id = id then setFields makeAdmin (some roles) u else u).id = u.id := by
        intro u
        split <;> rfl
      refine (user_map hkeep).trans ?_
      rw [hu, Option.map_some, if_pos hid]
    · exact he
    · exact mem_permissionNames.mpr ⟨r, hr, List.mem_map_of_mem hmem, hs.admin r hr hname p hp⟩

/-- A user who manages roles, and is no administrator, can give a role of its own the permission. -/
lemma updateRole_own (hs : Inv s) (h : s.Has id (py "role.manage")) (hp : p ∈ allPermissions) :
    s.Has id p ∨ ∃ r s', updateRole s id r [p] = .ok s' ∧ s'.Has id p := by
  obtain ⟨user, hu, he, hmanage⟩ := h
  obtain ⟨r, hr, hown, -⟩ := mem_permissionNames.mp hmanage
  by_cases hname : r.name = py "Admin"
  · exact .inl ⟨user, hu, he, mem_permissionNames.mpr ⟨r, hr, hown, hs.admin r hr hname p hp⟩⟩
  · have hid : user.id = id := by simpa using List.find?_some hu
    have hfound : p ∈ s.permissions.filter (· ∈ [p]) :=
      List.mem_filter.mpr ⟨hs.permissions p hp, by simp⟩
    refine .inr ⟨r.id, State.recordAudit
      { s with roles := s.roles.map fun r' =>
          if r'.id = r.id then { r' with permissions := s.permissions.filter (· ∈ [p]) } else r' }
      user.id (.roleUpdate r.id r.name
        ((s.permissions.filter (· ∈ [p])).mergeSort fun a b => a ≤ b)), ?_, user, hu, he, ?_⟩
    · unfold updateRole
      refine Except.bind_eq_ok.mpr ⟨user, requirePermission_eq_ok.mpr ⟨hu, he, hmanage⟩, ?_⟩
      rw [hs.role_eq hr]
      simp only [if_neg hname]
      refine if_pos ?_
      simpa using hfound
    · refine mem_permissionNames.mpr ⟨_, List.mem_map_of_mem hr, ?_, ?_⟩
      · simpa using hown
      · simpa using hfound

/-- **Which permissions a group of users can obtain.** In every state that can occur, a group of
users that acts on its own can obtain a permission if and only if one of them has it, or one of
them may manage users or roles. -/
theorem canObtain_iff (as : List Request) (s : State) (hs : run step (seed .empty) as = some s)
    (known : List Id) (p : PyStr) (hp : p ∈ allPermissions) :
    CanReach attackStep (·.Has p) ⟨s, known⟩ ↔
      ∃ id ∈ known, s.Has id p ∨ s.Has id (py "user.manage") ∨ s.Has id (py "role.manage") := by
  have hinv : Inv s := run_inv inv_init hs
  constructor
  · intro h
    have hD : Attack.Has ⟨s, known⟩ p ∨ Attack.Has ⟨s, known⟩ (py "user.manage") ∨
        Attack.Has ⟨s, known⟩ (py "role.manage") :=
      CanReach.backward (I := fun _ => True) (Q := (·.Has p))
        (D := fun t => t.Has p ∨ t.Has (py "user.manage") ∨ t.Has (py "role.manage"))
        (fun _ _ _ _ _ => trivial) (fun _ _ h => .inl h)
        (fun _ _ _ _ h _ => .inr (has_of_attackStep h)) trivial h
    rcases hD with ⟨id, hid, h⟩ | ⟨id, hid, h⟩ | ⟨id, hid, h⟩
    · exact ⟨id, hid, .inl h⟩
    · exact ⟨id, hid, .inr (.inl h)⟩
    · exact ⟨id, hid, .inr (.inr h)⟩
  · rintro ⟨id, hid, h | h | h⟩
    · exact .now ⟨id, hid, h⟩
    · obtain ⟨s', hs', hall⟩ := updateUser_makeAdmin hinv h
      have hstep : attackStep ⟨s, known⟩ (.updateUser id id makeAdmin) = some ⟨s', known⟩ := by
        simp [attackStep, hid, hs', Except.toOption]
      exact .of_step hstep (.now ⟨id, hid, hall p hp⟩)
    · rcases updateRole_own hinv h hp with h | ⟨r, s', hs', hhas⟩
      · exact .now ⟨id, hid, h⟩
      · have hstep : attackStep ⟨s, known⟩ (.updateRole id r [p]) = some ⟨s', known⟩ := by
          simp [attackStep, hid, hs', Except.toOption]
        exact .of_step hstep (.now ⟨id, hid, hhas⟩)

/-- An account with the role of the operators. -/
def operator : UserCreate :=
  ⟨py "operator1", py "Operator", none, [py "NOC"], by decide, by decide⟩

/-- The first operator cannot obtain the permission to configure the system. -/
theorem canObtain_iff_operator :
    ∃ s, run step (seed .empty) [.createUser 3 operator] = some s ∧
      s.Has 4 (py "report.generate") ∧
      ¬ CanReach attackStep (·.Has (py "system.configure")) ⟨s, [4]⟩ := by
  have hall : (run step (seed .empty) [.createUser 3 operator]).any (fun s =>
      decide (s.Has 4 (py "report.generate")) && !decide (s.Has 4 (py "system.configure")) &&
        !decide (s.Has 4 (py "user.manage")) && !decide (s.Has 4 (py "role.manage"))) = true := by
    decide +kernel
  obtain ⟨s, hs⟩ : ∃ s, run step (seed .empty) [.createUser 3 operator] = some s :=
    Option.isSome_iff_exists.mp (Option.isSome_of_any hall)
  rw [hs] at hall
  simp only [Option.any_some, Bool.and_eq_true, decide_eq_true_eq, Bool.not_eq_true',
    decide_eq_false_iff_not] at hall
  obtain ⟨⟨⟨hreport, hconfigure⟩, husers⟩, hroles⟩ := hall
  refine ⟨s, hs, hreport, fun hreach => ?_⟩
  obtain ⟨id, hid, h⟩ := (canObtain_iff _ s hs [4] _ (by decide)).mp hreach
  obtain rfl := List.mem_singleton.mp hid
  rcases h with h | h | h
  · exact hconfigure h
  · exact husers h
  · exact hroles h

/-! ## What the audit log says -/

/-- The permissions that a row of the log gives role `id`. -/
def AuditLog.permissionsOf (id : Id) (row : AuditLog) : Option (List PyStr) :=
  match row.event with
  | .roleUpdate role _ permissions => if role = id then some permissions else none
  | _ => none

/-- The permissions of role `id` in the last `role.update` of the log that is about it. -/
def lastPermissions (id : Id) (logs : List AuditLog) : Option (List PyStr) :=
  logs.foldl (fun last row => (row.permissionsOf id).or last) none

lemma lastPermissions_concat (id : Id) (logs : List AuditLog) (row : AuditLog) :
    lastPermissions id (logs ++ [row]) = (row.permissionsOf id).or (lastPermissions id logs) := by
  rw [lastPermissions, List.foldl_append]
  rfl

/-- The permissions of the roles are those of the log, from the state on in which it was `base`. -/
def Audited (base : List AuditLog) (s : State) : Prop :=
  ∃ logs, s.auditLogs = base ++ logs ∧ ∀ r ∈ s.roles, ∀ p, p ∈ r.permissions ↔
    p ∈ (lastPermissions r.id logs).getD ((rolePermissions.lookup r.name).getD [])

lemma audited_seed (hs : Inv s) : Audited s.auditLogs (seed s) := by
  rw [seed_eq hs]
  refine ⟨[], (List.append_nil _).symm, fun r hr p => ?_⟩
  obtain ⟨r₀, hr₀, rfl⟩ := List.mem_map.mp hr
  have hname : r₀.name ∈ rolePermissions.map (·.1) := hs.names ▸ List.mem_map_of_mem hr₀
  have hsome : ∀ name ∈ rolePermissions.map (·.1), (rolePermissions.lookup name).isSome := by
    decide
  obtain ⟨names, hlookup⟩ := Option.isSome_iff_exists.mp (hsome r₀.name hname)
  simp [restore, lastPermissions, hlookup]

/-- A request that writes no `role.update` leaves the roles alone. -/
lemma Audited.other {base : List AuditLog} (h : Audited base s) (hr : s'.roles = s.roles)
    {row : AuditLog} (hl : s'.auditLogs = s.auditLogs ++ [row])
    (hrow : ∀ id, row.permissionsOf id = none) : Audited base s' := by
  obtain ⟨logs, hlogs, hroles⟩ := h
  refine ⟨logs ++ [row], by rw [hl, hlogs, List.append_assoc], fun r hr' p => ?_⟩
  rw [lastPermissions_concat, hrow, Option.none_or]
  exact hroles r (hr ▸ hr') p

/-- **Every request keeps the log and the roles together.** -/
lemma step_audited {base : List AuditLog} {a : Request} (ha : a ≠ .seed)
    (h : Audited base s) (hstep : step s a = some s') : Audited base s' := by
  cases a with
  | createUser actor body =>
    obtain ⟨-, -, rfl⟩ := createUser_eq_ok (toOption_eq_some.mp hstep)
    exact h.other rfl rfl fun _ => rfl
  | updateUser actor id body =>
    obtain ⟨-, roles, user, rfl⟩ := updateUser_eq_ok (toOption_eq_some.mp hstep)
    exact h.other rfl rfl fun _ => rfl
  | updateRole actor id permissions =>
    obtain ⟨-, role, hrole, -, rfl⟩ := updateRole_eq_ok (toOption_eq_some.mp hstep)
    obtain ⟨logs, hlogs, hroles⟩ := h
    have hid : role.id = id := by simpa using List.find?_some hrole
    refine ⟨logs ++ [⟨actor, .roleUpdate role.id role.name
      ((s.permissions.filter (· ∈ permissions)).mergeSort fun a b => a ≤ b)⟩], ?_, fun r hr p => ?_⟩
    · simp only [State.recordAudit, hlogs, List.append_assoc]
    · obtain ⟨r₀, hr₀, rfl⟩ := List.mem_map.mp hr
      rw [lastPermissions_concat]
      by_cases hr₀id : r₀.id = id
      · simp [AuditLog.permissionsOf, hid, hr₀id]
      · have hne : role.id ≠ r₀.id := fun h => hr₀id (h ▸ hid)
        simpa [AuditLog.permissionsOf, hne, hr₀id] using hroles r₀ hr₀ p
  | seed => exact absurd rfl ha

/-- **The audit log says which permissions a role has.** From a start of a container to the next,
the permissions of each role are those of the last `role.update` that is about it, and those of the
script if there is none. -/
theorem permissions_of_audit (as bs : List Request) (s₀ s : State)
    (h₀ : run step (seed .empty) as = some s₀) (h : run step (seed s₀) bs = some s)
    (hbs : ∀ b ∈ bs, b ≠ .seed) :
    ∃ logs, s.auditLogs = s₀.auditLogs ++ logs ∧ ∀ r ∈ s.roles, ∀ p, p ∈ r.permissions ↔
      p ∈ (lastPermissions r.id logs).getD ((rolePermissions.lookup r.name).getD []) := by
  have hinv : Inv s₀ := run_inv inv_init h₀
  have hevery : EveryStep step (fun _ a => a ≠ .seed) (seed s₀) bs := by
    intro pre a post t has _
    exact hbs a (has ▸ by simp)
  have key : Inv s ∧ Audited s₀.auditLogs s :=
    run_invariant (I := fun t => Inv t ∧ Audited s₀.auditLogs t)
      (fun t a u ht ha hu => ⟨step_inv ht.1 hu, step_audited ha ht.2 hu⟩)
      ⟨hinv.seed, audited_seed hinv⟩ hevery h
  exact key.2

/-- The log says that the operators have lost their permissions. -/
theorem permissions_of_audit_operators :
    ∃ s logs, run step (seed (seed .empty)) [.updateRole 3 0 [py "incident.read"]] = some s ∧
      s.auditLogs = (seed .empty).auditLogs ++ logs ∧ ∀ r ∈ s.roles, ∀ p, p ∈ r.permissions ↔
        p ∈ (lastPermissions r.id logs).getD ((rolePermissions.lookup r.name).getD []) := by
  have hsome : (run step (seed (seed .empty))
      [.updateRole 3 0 [py "incident.read"]]).isSome = true := by
    decide +kernel
  obtain ⟨s, hs⟩ := Option.isSome_iff_exists.mp hsome
  obtain ⟨logs, hlogs, hroles⟩ := permissions_of_audit [] _ (seed .empty) s rfl hs (by simp)
  exact ⟨s, logs, hs, hlogs, hroles⟩

/-! ## Running the script again -/

end Access
