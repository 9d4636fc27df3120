import Krewhub.Base.Interleave
import Krewhub.Base.Table
import Krewhub.Python.Text
import Krewhub.Services.Credentials

/-!
# The credentials of an account

`CredentialsService` and the endpoints on it. There is at most one active credential for an account and a host,
which the unique index sees to; an archived row stays where it is. To store a credential is to look for the row,
and then to insert it or to write over it, with an await in between.
-/

namespace Krewhub

/-! ### Rows -/

/-- A row of `credentials`. -/
structure StoredCredential extends Credential where
  id : String
  createdAt : String
  updatedAt : String
  deriving DecidableEq, Repr

instance : Keyed StoredCredential := ⟨StoredCredential.id⟩

namespace StoredCredential

/-- `account_id = ? AND host = ? AND archived_at IS NULL`. -/
def isActiveFor (accountId host : String) (row : StoredCredential) : Bool :=
  row.accountId == accountId && row.host == host && row.archivedAt.isNone

/-- `UPDATE credentials SET env_var_name = ?, ciphertext = ?, nonce = ?, updated_at = ?`. -/
def renew (envVarName : String) (ciphertext nonce : List UInt8) (now : String) (row : StoredCredential) :
    StoredCredential :=
  { row with envVarName := envVarName, ciphertext := ciphertext, nonce := nonce, updatedAt := now }

/-- `UPDATE credentials SET archived_at = ? WHERE account_id = ? AND host = ? AND archived_at IS NULL`. -/
def archive (accountId host now : String) (row : StoredCredential) : StoredCredential :=
  if row.isActiveFor accountId host then { row with archivedAt := some now } else row

theorem key_renew (envVarName : String) (ciphertext nonce : List UInt8) (now : String) (row : StoredCredential) :
    key (row.renew envVarName ciphertext nonce now) = key row := rfl

theorem key_archive (accountId host now : String) (row : StoredCredential) :
    key (row.archive accountId host now) = key row := by
  rw [archive]
  split <;> rfl

end StoredCredential

/-- The table as the connection shows it and as it was at the last commit. -/
structure VaultStore where
  live : Table StoredCredential
  disk : Table StoredCredential

/-- A restart after a crash. -/
def VaultStore.recover (s : VaultStore) : VaultStore := ⟨s.disk, s.disk⟩

/-! ### Statements -/

inductive VaultOp where
  | select
  | insert (row : StoredCredential)
  | update (id envVarName : String) (ciphertext nonce : List UInt8) (now : String)
  | archive (accountId host now : String)
  | commit

namespace VaultOp

/-- The primary key, and the unique index on active rows. -/
def accepts (t : Table StoredCredential) (row : StoredCredential) : Bool :=
  (t.get row.id).isNone && !(row.archivedAt.isNone && t.rows.any (·.isActiveFor row.accountId row.host))

def apply : VaultOp → Table StoredCredential → Table StoredCredential
  | .insert row, t => if accepts t row then t.insert row else t
  | .update id envVarName ciphertext nonce now, t =>
    t.amend id (.renew envVarName ciphertext nonce now) (StoredCredential.key_renew envVarName ciphertext nonce now)
  | .archive accountId host now, t =>
    t.map (.archive accountId host now) (StoredCredential.key_archive accountId host now)
  | .select, t | .commit, t => t

def exec (op : VaultOp) (s : VaultStore) : VaultStore where
  live := op.apply s.live
  disk := match op with
    | .commit => s.live
    | _ => s.disk

end VaultOp

inductive VaultExn where
  | emptyPlaintext
  | badEnvVarName (envVarName : String)
  | integrityError
  | http (status : Nat) (detail : String)
  deriving DecidableEq, Repr

abbrev VaultM := Coro VaultStore VaultOp VaultExn

/-! ### The service -/

/-- What the vault uses besides its table: AES-GCM under the derived key, the characters that `str.isalnum` accepts,
`str.lower`, and the order in which a query without one returns rows. -/
structure VaultSetup where
  encrypt : (nonce plaintext : List UInt8) → List UInt8
  decrypt : (nonce ciphertext : List UInt8) → Option (List UInt8)
  decrypt_encrypt : ∀ nonce plaintext, decrypt nonce (encrypt nonce plaintext) = some plaintext
  isAlnum : Char → Bool
  lower : String → String
  arrange : List Credential → List Credential
  arrange_perm : ∀ rows, (arrange rows).Perm rows

/-- `not env_var_name or not env_var_name.replace("_", "").isalnum()` is false. -/
def VaultSetup.isEnvVarName (k : VaultSetup) (envVarName : String) : Bool :=
  let chars := envVarName.toList.filter (· ≠ '_')
  !chars.isEmpty && chars.all k.isAlnum

/-- What a call draws while it runs. -/
structure VaultDraws where
  nonce : List UInt8
  hex : String
  now : String
  deriving DecidableEq, Repr

/-- The view of a credential without its secret. -/
structure CredentialRow where
  id : String
  accountId : String
  host : String
  envVarName : String
  createdAt : String
  updatedAt : String
  deriving DecidableEq, Repr

namespace CredentialsService

/-- The row that is inserted where there is none. -/
def newRow (k : VaultSetup) (accountId host envVarName plaintext : String) (d : VaultDraws) : StoredCredential where
  accountId := accountId
  host := host
  envVarName := envVarName
  ciphertext := k.encrypt d.nonce (Utf8.encode plaintext.toList)
  nonce := d.nonce
  id := "cred_" ++ d.hex
  createdAt := d.now
  updatedAt := d.now

/-- `_get_row`: the identifier and the time of the active row. -/
def getRow (accountId host : String) : VaultM (Option (String × String)) :=
  .perform .select fun s => (s.live.rows.find? (·.isActiveFor accountId host)).map fun row => (row.id, row.createdAt)

def put (k : VaultSetup) (accountId host envVarName plaintext : String) (d : VaultDraws) : VaultM CredentialRow :=
  if plaintext = "" then .raise .emptyPlaintext
  else if k.isEnvVarName envVarName = false then .raise (.badEnvVarName envVarName)
  else do
    match ← getRow accountId host with
    | none =>
      let row := newRow k accountId host envVarName plaintext d
      if ← .perform (.insert row) fun s => VaultOp.accepts s.live row then
        .perform .commit fun _ => ()
        return { id := row.id, accountId, host, envVarName, createdAt := d.now, updatedAt := d.now }
      else .raise .integrityError
    | some (id, createdAt) =>
      let ciphertext := k.encrypt d.nonce (Utf8.encode plaintext.toList)
      .perform (.update id envVarName ciphertext d.nonce d.now) fun _ => ()
      .perform .commit fun _ => ()
      return { id, accountId, host, envVarName, createdAt, updatedAt := d.now }

/-- `list_for_account`. -/
def listForAccount (accountId : String) : VaultM (List CredentialRow) :=
  .perform .select fun s =>
    ((s.live.rows.filter fun row => row.accountId == accountId && row.archivedAt.isNone).mergeSort
      fun row row' => decide (row.host ≤ row'.host)).map fun row =>
        { id := row.id, accountId, host := row.host, envVarName := row.envVarName, createdAt := row.createdAt,
          updatedAt := row.updatedAt }

/-- `archive`, with the number of rows as the cursor has it. -/
def archive (accountId host now : String) : VaultM Bool := do
  let archived ← .perform (.archive accountId host now) fun s => s.live.rows.any (·.isActiveFor accountId host)
  .perform .commit fun _ => ()
  return archived

/-- `get_envs`. -/
def envsFor (k : VaultSetup) (accountId : String) : VaultM (Dict String String) :=
  .perform .select fun s =>
    getEnvs k.decrypt (k.arrange (active accountId (s.live.rows.map (·.toCredential))))

end CredentialsService

/-! ### Calls -/

inductive VaultCall where
  | pasteCredential (accountId host envVarName token : String) (d : VaultDraws)
  | githubCallback (accountId accessToken : String) (d : VaultDraws)
  | listCredentials (accountId : String)
  | getCredentialsEnvs (accountId : String)
  | deleteCredential (accountId host now : String)
  deriving DecidableEq, Repr

inductive VaultAnswer where
  | stored (row : CredentialRow)
  | listed (rows : List CredentialRow)
  | envs (envs : Dict String String)
  | archived (host : String)
  deriving DecidableEq, Repr

/-- What an endpoint does with the vault. -/
def VaultCall.handle (k : VaultSetup) : VaultCall → VaultM VaultAnswer
  | .pasteCredential accountId host envVarName token d => do
    let row ← CredentialsService.put k accountId (k.lower (Text.strip host)) (Text.strip envVarName) token d
    return .stored row
  | .githubCallback accountId accessToken d => do
    let row ← CredentialsService.put k accountId "api.github.com" "GITHUB_TOKEN" accessToken d
    return .stored row
  | .listCredentials accountId => do
    let rows ← CredentialsService.listForAccount accountId
    return .listed rows
  | .getCredentialsEnvs accountId => do
    let envs ← CredentialsService.envsFor k accountId
    return .envs envs
  | .deleteCredential accountId host now => do
    if ← CredentialsService.archive accountId (k.lower host) now then return .archived host
    else .raise (.http 404 "credential_not_found")

end Krewhub
