import Krewhub.Base.Interleave
import Krewhub.Base.Table
import Krewhub.Python.Text
import Krewhub.Services.Auth
import Krewhub.Store.RepoGrants

/-!
# Who a cookbook is shared with

The endpoints on the shares and the repository grants of a cookbook, each behind `_require_role`. A share is
revoked by a stamp on its row and shadowed by a new row when the account is let in again; the unique index is
only on the rows without a stamp.

Every endpoint reads, decides and writes with awaits in between. What a role is derived from besides the shares
is the owner of the cookbook, in any of the forms it has had, and the wallets that are linked to accounts, which
nothing writes while the server is up.
-/

namespace Krewhub

/-! ### Rows -/

inductive ShareRole where
  | owner
  | member
  | viewer
  deriving DecidableEq, Repr

namespace ShareRole

def value : ShareRole → String
  | owner => "owner"
  | member => "member"
  | viewer => "viewer"

/-- `ShareRole(value)`. -/
def ofValue (s : String) : Option ShareRole := [owner, member, viewer].find? fun role => role.value == s

/-- `_RANK`. -/
def rank : ShareRole → Nat
  | owner => 3
  | member => 2
  | viewer => 1

end ShareRole

def RepoProvider.value : RepoProvider → String
  | github => "github"
  | gitlab => "gitlab"
  | bitbucket => "bitbucket"

/-- `RepoProvider(value)`. -/
def RepoProvider.ofValue (s : String) : Option RepoProvider :=
  [github, gitlab, bitbucket].find? fun provider => provider.value == s

structure Cookbook where
  id : String
  name : String
  ownerId : String
  createdAt : Datetime
  deriving DecidableEq, Repr

structure CookbookShare where
  id : String
  cookbookId : String
  sharedWithAccountId : String
  role : ShareRole
  sharedByAccountId : String
  sharedAt : Datetime
  revokedAt : Option Datetime := none
  deriving DecidableEq, Repr

structure WalletLink where
  walletAddress : String
  accountId : String
  deriving DecidableEq, Repr

instance : Keyed Cookbook := ⟨Cookbook.id⟩

instance : Keyed CookbookShare := ⟨CookbookShare.id⟩

instance : Keyed RepoGrant := ⟨RepoGrant.id⟩

instance : Keyed WalletLink := ⟨WalletLink.walletAddress⟩

/-- The accounts and their wallets. -/
structure AccountTables where
  accounts : List String := []
  walletLinks : Table WalletLink := ∅

/-- The tables that change while the server is up. -/
structure SharingDb where
  cookbooks : Table Cookbook := ∅
  shares : Table CookbookShare := ∅
  grants : Table RepoGrant := ∅

/-- The tables as the connection shows them and as they were at the last commit. -/
structure SharingStore where
  live : SharingDb
  disk : SharingDb

/-! ### Statements -/

/-- `cookbook_id = ? AND shared_with_account_id = ? AND revoked_at IS NULL`. -/
def CookbookShare.isActiveFor (cookbookId accountId : String) (share : CookbookShare) : Bool :=
  share.cookbookId == cookbookId && share.sharedWithAccountId == accountId && share.revokedAt.isNone

/-- `UPDATE cookbook_shares SET role = ? WHERE … AND revoked_at IS NULL`. -/
def CookbookShare.setRole (role : ShareRole) (share : CookbookShare) : CookbookShare :=
  if share.revokedAt = none then { share with role := role } else share

/-- `UPDATE cookbook_shares SET revoked_at = ? WHERE … AND revoked_at IS NULL`. -/
def CookbookShare.revoke (now : Datetime) (share : CookbookShare) : CookbookShare :=
  if share.revokedAt = none then { share with revokedAt := some now } else share

/-- `UPDATE repo_grants SET revoked_at = ? WHERE … AND revoked_at IS NULL`. -/
def RepoGrant.revoke (now : Datetime) (grant : RepoGrant) : RepoGrant :=
  if grant.revokedAt = none then { grant with revokedAt := some now } else grant

def Cookbook.rename (name ownerId : String) (cookbook : Cookbook) : Cookbook :=
  { cookbook with name := name, ownerId := ownerId }

@[simp]
theorem CookbookShare.key_setRole (role : ShareRole) (share : CookbookShare) :
    key (share.setRole role) = key share := by
  rw [setRole]
  split <;> rfl

@[simp]
theorem CookbookShare.key_revoke (now : Datetime) (share : CookbookShare) : key (share.revoke now) = key share := by
  rw [revoke]
  split <;> rfl

@[simp]
theorem RepoGrant.key_revoke (now : Datetime) (grant : RepoGrant) : key (grant.revoke now) = key grant := by
  rw [revoke]
  split <;> rfl

theorem Cookbook.key_rename (name ownerId : String) (cookbook : Cookbook) :
    key (cookbook.rename name ownerId) = key cookbook := rfl

namespace SharingDb

/-- The keys of `cookbook_shares`: the primary one, the foreign ones, and the unique index on active rows. -/
def acceptsShare (t : AccountTables) (db : SharingDb) (share : CookbookShare) : Bool :=
  (db.shares.get share.id).isNone && (db.cookbooks.get share.cookbookId).isSome &&
    t.accounts.contains share.sharedWithAccountId && t.accounts.contains share.sharedByAccountId &&
    !(share.revokedAt.isNone &&
      db.shares.rows.any fun row => row.isActiveFor share.cookbookId share.sharedWithAccountId)

/-- The keys of `repo_grants`. -/
def acceptsGrant (t : AccountTables) (db : SharingDb) (grant : RepoGrant) : Bool :=
  (db.grants.get grant.id).isNone && (db.cookbooks.get grant.cookbookId).isSome &&
    t.accounts.contains grant.grantedByAccountId

end SharingDb

/-- The statements of the endpoints, and those of other code on `cookbooks`. -/
inductive SharingOp where
  | select
  | insertShare (share : CookbookShare)
  | setRole (shareId : String) (role : ShareRole)
  | revokeShare (shareId : String) (now : Datetime)
  | insertGrant (grant : RepoGrant)
  | revokeGrant (grantId : String) (now : Datetime)
  | insertCookbook (cookbook : Cookbook)
  | updateCookbook (id name ownerId : String)
  | commit

namespace SharingOp

def apply (t : AccountTables) : SharingOp → SharingDb → SharingDb
  | .insertShare share, db => if db.acceptsShare t share then { db with shares := db.shares.insert share } else db
  | .setRole shareId role, db =>
    { db with shares := db.shares.amend shareId (.setRole role) (CookbookShare.key_setRole role) }
  | .revokeShare shareId now, db =>
    { db with shares := db.shares.amend shareId (.revoke now) (CookbookShare.key_revoke now) }
  | .insertGrant grant, db => if db.acceptsGrant t grant then { db with grants := db.grants.insert grant } else db
  | .revokeGrant grantId now, db =>
    { db with grants := db.grants.amend grantId (.revoke now) (RepoGrant.key_revoke now) }
  | .insertCookbook cookbook, db => { db with cookbooks := db.cookbooks.insert cookbook }
  | .updateCookbook id name ownerId, db =>
    { db with cookbooks := db.cookbooks.amend id (.rename name ownerId) (Cookbook.key_rename name ownerId) }
  | .select, db | .commit, db => db

def exec (t : AccountTables) (op : SharingOp) (s : SharingStore) : SharingStore where
  live := op.apply t s.live
  disk := match op with
    | .commit => s.live
    | _ => s.disk

end SharingOp

/-- A restart after a crash. -/
def SharingStore.recover (s : SharingStore) : SharingStore := ⟨s.disk, s.disk⟩

inductive SharingExn where
  | http (status : Nat) (detail : String)
  | integrityError
  | assertionError
  deriving DecidableEq, Repr

abbrev Sharing := Coro SharingStore SharingOp SharingExn

namespace Sharing

def select {α : Type} (read : SharingDb → α) : Sharing α := .perform .select fun s => read s.live

def execute (op : SharingOp) : Sharing Unit := .perform op fun _ => ()

end Sharing

/-! ### Repositories -/

def CookbookRepo.get (cookbookId : String) : Sharing (Option Cookbook) := Sharing.select (·.cookbooks.get cookbookId)

namespace CookbookShareRepo

def create (t : AccountTables) (share : CookbookShare) : Sharing CookbookShare := do
  if ← .perform (.insertShare share) fun s => s.live.acceptsShare t share then
    Sharing.execute .commit
    return share
  else .raise .integrityError

def get (shareId : String) : Sharing (Option CookbookShare) := Sharing.select (·.shares.get shareId)

def getActiveFor (cookbookId accountId : String) : Sharing (Option CookbookShare) :=
  Sharing.select (·.shares.rows.find? (·.isActiveFor cookbookId accountId))

/-- Rows with one time come in the order of the table. -/
def listByCookbook (cookbookId : String) : Sharing (List CookbookShare) :=
  Sharing.select fun db =>
    (db.shares.rows.filter fun share => share.cookbookId == cookbookId && share.revokedAt.isNone).mergeSort
      fun share share' => decide (share.sharedAt.isoformat ≤ share'.sharedAt.isoformat)

def revoke (shareId : String) (now : Datetime) : Sharing (Option CookbookShare) := do
  Sharing.execute (.revokeShare shareId now)
  Sharing.execute .commit
  get shareId

def updateRole (shareId : String) (role : ShareRole) : Sharing (Option CookbookShare) := do
  Sharing.execute (.setRole shareId role)
  Sharing.execute .commit
  get shareId

end CookbookShareRepo

namespace RepoGrantRepo

def create (t : AccountTables) (grant : RepoGrant) : Sharing RepoGrant := do
  if ← .perform (.insertGrant grant) fun s => s.live.acceptsGrant t grant then
    Sharing.execute .commit
    return grant
  else .raise .integrityError

def get (grantId : String) : Sharing (Option RepoGrant) := Sharing.select (·.grants.get grantId)

def listByCookbook (cookbookId : String) (includeRevoked : Bool) : Sharing (List RepoGrant) :=
  Sharing.select fun db =>
    (db.grants.rows.filter fun grant =>
      grant.cookbookId == cookbookId && (includeRevoked || grant.revokedAt.isNone)).mergeSort
      fun grant grant' => decide (grant.grantedAt.isoformat ≤ grant'.grantedAt.isoformat)

def revoke (grantId : String) (now : Datetime) : Sharing (Option RepoGrant) := do
  Sharing.execute (.revokeGrant grantId now)
  Sharing.execute .commit
  get grantId

end RepoGrantRepo

/-! ### Roles -/

/-- The caller with the names that a cookbook may have as its owner. -/
structure SharingCaller extends CallerContext where
  username : Option String := none
  walletAddress : Option String := none
  deriving DecidableEq, Repr

/-- `owner_id.startswith(text)`. -/
def Cookbook.ownerStartsWith (cookbook : Cookbook) (text : String) : Bool :=
  text.toList.isPrefixOf cookbook.ownerId.toList

namespace CookbookSharing

/-- `_canonical_owner_account_id`. -/
def canonicalOwnerAccountId (t : AccountTables) (cookbook : Cookbook) : Sharing (Option String) :=
  if cookbook.ownerStartsWith "acc_" then return some cookbook.ownerId
  else if cookbook.ownerStartsWith "0x" then do
    let row ← Sharing.select fun _ => t.walletLinks.get cookbook.ownerId
    return row.map (·.accountId)
  else return none

/-- The cases of `_is_caller_cookbook_owner` that need no query: the account, the wallet, the name. -/
def isNamedOwner (cookbook : Cookbook) (caller : SharingCaller) : Bool :=
  cookbook.ownerId == caller.accountId ||
    caller.walletAddress.any (fun wallet => wallet != "" && cookbook.ownerId == wallet) ||
    caller.username.any fun name => name != "" && cookbook.ownerId == name

/-- `_is_caller_cookbook_owner`. -/
def isCallerCookbookOwner (t : AccountTables) (cookbook : Cookbook) (caller : SharingCaller) : Sharing Bool :=
  if isNamedOwner cookbook caller then return true
  else if cookbook.ownerStartsWith "0x" then do
    let row ← Sharing.select fun _ => t.walletLinks.get cookbook.ownerId
    return row.any (·.accountId == caller.accountId)
  else return false

/-- `_role_for_existing_cookbook`. -/
def roleForExistingCookbook (t : AccountTables) (cookbook : Cookbook) (caller : SharingCaller) :
    Sharing (Option ShareRole) := do
  if ← isCallerCookbookOwner t cookbook caller then return some .owner
  else
    let share ← CookbookShareRepo.getActiveFor cookbook.id caller.accountId
    return share.map (·.role)

def requiresAtLeast (cookbookId : String) (minimum : ShareRole) : SharingExn :=
  .http 403 ("Cookbook " ++ cookbookId ++ ": requires at least " ++ minimum.value)

/-- `_require_role`. -/
def requireRole (t : AccountTables) (cookbookId : String) (caller : SharingCaller) (minimum : ShareRole) :
    Sharing ShareRole := do
  match ← CookbookRepo.get cookbookId with
  | none => .raise (.http 404 "Cookbook not found")
  | some cookbook =>
    match ← roleForExistingCookbook t cookbook caller with
    | none => .raise (requiresAtLeast cookbookId minimum)
    | some role => if role.rank < minimum.rank then .raise (requiresAtLeast cookbookId minimum) else return role

/-! ### Endpoints -/

/-- What an endpoint answers with. -/
inductive SharingAnswer where
  | share (share : Option CookbookShare)
  | shareAlreadyRevoked (share : CookbookShare)
  | shares (shares : List CookbookShare)
  | grant (grant : Option RepoGrant)
  | grantAlreadyRevoked (grant : RepoGrant)
  | grants (grants : List RepoGrant)
  deriving DecidableEq, Repr

/-- `repr` of a text without quotes, backslashes and characters that do not print. -/
def quoted (text : String) : String := "'" ++ text ++ "'"

def invalidRole (role : String) : SharingExn :=
  .http 400 ("Invalid role " ++ quoted role ++ "; expected owner|member|viewer")

def alreadyHasAccess (accountId : String) : SharingExn :=
  .http 409 ("Account " ++ accountId ++ " already has access")

/-- The `except aiosqlite.IntegrityError` around the insertion of a share. -/
def onConflict (accountId : String) : SharingExn → Option (Sharing CookbookShare)
  | .integrityError => some (.raise (alreadyHasAccess accountId))
  | _ => none

section Endpoints

variable (t : AccountTables) (cookbookId : String) (caller : SharingCaller) (uuid : String) (now : Datetime)

def createShare (sharedWithAccountId role : String) : Sharing SharingAnswer := do
  let _ ← requireRole t cookbookId caller .owner
  match ShareRole.ofValue role with
  | none => .raise (invalidRole role)
  | some role =>
    match ← CookbookRepo.get cookbookId with
    | none => .raise .assertionError
    | some cookbook =>
      let owner ← canonicalOwnerAccountId t cookbook
      if owner = some sharedWithAccountId then
        .raise (.http 400 "Cookbook owner already has OWNER access implicitly")
      else
        let existing ← CookbookShareRepo.getActiveFor cookbookId sharedWithAccountId
        if existing.isSome then .raise (alreadyHasAccess sharedWithAccountId)
        else
          let share := {
            id := "shr_" ++ uuid, cookbookId, sharedWithAccountId, role
            sharedByAccountId := caller.accountId, sharedAt := now }
          let share ← (CookbookShareRepo.create t share).tryCatch (onConflict sharedWithAccountId)
          return .share (some share)

def listShares : Sharing SharingAnswer := do
  let _ ← requireRole t cookbookId caller .viewer
  let shares ← CookbookShareRepo.listByCookbook cookbookId
  return .shares shares

def updateShare (shareId role : String) : Sharing SharingAnswer := do
  let _ ← requireRole t cookbookId caller .owner
  match ShareRole.ofValue role with
  | none => .raise (invalidRole role)
  | some role =>
    match ← CookbookShareRepo.get shareId with
    | none => .raise (.http 404 "Share not found")
    | some existing =>
      if existing.cookbookId ≠ cookbookId then .raise (.http 404 "Share not found")
      else if existing.revokedAt.isSome then .raise (.http 409 "Cannot modify a revoked share")
      else
        let updated ← CookbookShareRepo.updateRole shareId role
        if updated = none then .raise (.http 404 "Share not found")
        else return .share updated

def revokeShare (shareId : String) : Sharing SharingAnswer := do
  let _ ← requireRole t cookbookId caller .owner
  match ← CookbookShareRepo.get shareId with
  | none => .raise (.http 404 "Share not found")
  | some existing =>
    if existing.cookbookId ≠ cookbookId then .raise (.http 404 "Share not found")
    else if existing.revokedAt.isSome then return .shareAlreadyRevoked existing
    else
      let revoked ← CookbookShareRepo.revoke shareId now
      return .share revoked

def createGrant (provider scope tokenRef : String) : Sharing SharingAnswer := do
  let _ ← requireRole t cookbookId caller .owner
  match RepoProvider.ofValue provider with
  | none => .raise (.http 400 ("Invalid provider " ++ quoted provider ++ "; expected github|gitlab|bitbucket"))
  | some provider =>
    if Text.strip scope = "" then .raise (.http 400 "scope cannot be empty")
    else if Text.strip tokenRef = "" then
      .raise (.http 400 "token_ref cannot be empty (must reference a stored secret)")
    else
      let grant := {
        id := "grt_" ++ uuid, cookbookId, provider, scope := Text.strip scope, tokenRef := Text.strip tokenRef
        grantedByAccountId := caller.accountId, grantedAt := now }
      let grant ← RepoGrantRepo.create t grant
      return .grant (some grant)

def listGrants (includeRevoked : Bool) : Sharing SharingAnswer := do
  let _ ← requireRole t cookbookId caller .member
  let grants ← RepoGrantRepo.listByCookbook cookbookId includeRevoked
  return .grants grants

def revokeGrant (grantId : String) : Sharing SharingAnswer := do
  let _ ← requireRole t cookbookId caller .owner
  match ← RepoGrantRepo.get grantId with
  | none => .raise (.http 404 "Grant not found")
  | some existing =>
    if existing.cookbookId ≠ cookbookId then .raise (.http 404 "Grant not found")
    else if existing.revokedAt.isSome then return .grantAlreadyRevoked existing
    else
      let revoked ← RepoGrantRepo.revoke grantId now
      return .grant revoked

end Endpoints

/-! ### Requests -/

inductive SharingRequest where
  | createShare (sharedWithAccountId role : String)
  | listShares
  | updateShare (shareId role : String)
  | revokeShare (shareId : String)
  | createGrant (provider scope tokenRef : String)
  | listGrants (includeRevoked : Bool)
  | revokeGrant (grantId : String)
  deriving DecidableEq, Repr

/-- A request with its path and its caller, and what it draws while it runs. -/
structure SharingCall where
  cookbookId : String
  caller : SharingCaller
  request : SharingRequest
  uuid : String
  now : Datetime

def SharingCall.handle (t : AccountTables) (call : SharingCall) : Sharing SharingAnswer :=
  match call.request with
  | .createShare sharedWithAccountId role =>
    createShare t call.cookbookId call.caller call.uuid call.now sharedWithAccountId role
  | .listShares => listShares t call.cookbookId call.caller
  | .updateShare shareId role => updateShare t call.cookbookId call.caller shareId role
  | .revokeShare shareId => revokeShare t call.cookbookId call.caller call.now shareId
  | .createGrant provider scope tokenRef =>
    createGrant t call.cookbookId call.caller call.uuid call.now provider scope tokenRef
  | .listGrants includeRevoked => listGrants t call.cookbookId call.caller includeRevoked
  | .revokeGrant grantId => revokeGrant t call.cookbookId call.caller call.now grantId

/-- The role the endpoint asks for. -/
def SharingRequest.minimum : SharingRequest → ShareRole
  | .listShares => .viewer
  | .listGrants _ => .member
  | _ => .owner

end CookbookSharing

end Krewhub
