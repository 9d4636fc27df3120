import Krewhub.Base.Atomic
import Krewhub.Services.Vault
import Mathlib.Data.String.Basic

/-!
# The vault as one table

What an account has stored, told without rows: for a host a credential or none. The endpoints of any number of
requests are interleaved at every await, cancelled and crashed, beside whatever else is done on the connection.

As long as no credential is archived between the look-up of a request that stores one and its write, every request
is as if it had been alone: it takes effect at one turn, and what it answers is what the credentials were at that
turn. What a request that stores or archives has answered is on the disk. The unique index is what makes the
insertion safe: of two requests that both found nothing the second is refused.
-/

namespace Krewhub

/-! ### What is stored -/

/-- A credential as it is for its account and its host; the secret is missing where it does not decrypt. -/
structure VaultEntry where
  id : String
  envVarName : String
  secret : Option String
  createdAt : String
  updatedAt : String
  deriving DecidableEq, Repr

/-- The credentials by account and host. -/
abbrev Vault := String → String → Option VaultEntry

/-- One credential stored or taken away. -/
def Vault.set (v : Vault) (accountId host : String) (entry : Option VaultEntry) : Vault :=
  fun accountId' host' => if accountId' = accountId ∧ host' = host then entry else v accountId' host'

def StoredCredential.entry (k : VaultSetup) (row : StoredCredential) : VaultEntry where
  id := row.id
  envVarName := row.envVarName
  secret := CredentialsService.plaintext k.decrypt row.toCredential
  createdAt := row.createdAt
  updatedAt := row.updatedAt

/-- The credentials that a table has. -/
def vaultOf (k : VaultSetup) (t : Table StoredCredential) : Vault :=
  fun accountId host => (t.rows.find? (·.isActiveFor accountId host)).map (·.entry k)

/-! ### What the calls do -/

/-- The credential that is stored: a new one, or one in the place of the old. -/
def Vault.stored (v : Vault) (accountId host envVarName plaintext : String) (d : VaultDraws) : VaultEntry where
  id := ((v accountId host).map (·.id)).getD ("cred_" ++ d.hex)
  envVarName := envVarName
  secret := some plaintext
  createdAt := ((v accountId host).map (·.createdAt)).getD d.now
  updatedAt := d.now

def VaultEntry.toRow (accountId host : String) (entry : VaultEntry) : CredentialRow where
  id := entry.id
  accountId := accountId
  host := host
  envVarName := entry.envVarName
  createdAt := entry.createdAt
  updatedAt := entry.updatedAt

/-- The credential is stored, and nothing else happens. -/
def Stores (accountId host envVarName plaintext : String) (d : VaultDraws) (v v' : Vault) : Prop :=
  v' = v.set accountId host (some (v.stored accountId host envVarName plaintext d))

/-- Every variable is one of the secrets, under its name or an alias for its host; and a secret that is alone under
its name is the variable. -/
structure EnvsOf (held : String → Option VaultEntry) (envs : Dict String String) : Prop where
  source : ∀ name plain, envs.lookup name = some plain → ∃ host, ∃ entry ∈ held host,
    entry.secret = some plain ∧ (entry.envVarName = name ∨ name ∈ CredentialsService.envVarAliases host)
  named : ∀ host, ∀ entry ∈ held host, ∀ plain, entry.secret = some plain →
    (∀ host', ∀ entry' ∈ held host', entry'.secret.isSome = true → entry'.envVarName = entry.envVarName →
      host' = host) → envs.lookup entry.envVarName = some plain

namespace VaultCall

/-- What a call changes. -/
def Changes (k : VaultSetup) : VaultCall → Vault → Vault → Prop
  | .pasteCredential accountId host envVarName token d, v, v' =>
    Stores accountId (k.lower (Text.strip host)) (Text.strip envVarName) token d v v'
  | .githubCallback accountId accessToken d, v, v' =>
    Stores accountId "api.github.com" "GITHUB_TOKEN" accessToken d v v'
  | .deleteCredential accountId host _, v, v' => v' = v.set accountId (k.lower host) none
  | _, _, _ => False

/-- What a call changes and what it answers. -/
def Does (k : VaultSetup) (call : VaultCall) (v v' : Vault) (answer : VaultAnswer) : Prop :=
  match call with
  | .pasteCredential accountId host envVarName token d =>
    let host := k.lower (Text.strip host)
    call.Changes k v v' ∧
      answer = .stored ((v.stored accountId host (Text.strip envVarName) token d).toRow accountId host)
  | .githubCallback accountId accessToken d =>
    call.Changes k v v' ∧ answer = .stored
      ((v.stored accountId "api.github.com" "GITHUB_TOKEN" accessToken d).toRow accountId "api.github.com")
  | .deleteCredential accountId host _ =>
    call.Changes k v v' ∧ (v accountId (k.lower host)).isSome = true ∧ answer = .archived host
  | .listCredentials accountId => v' = v ∧ ∃ rows, answer = .listed rows ∧
    rows.Pairwise (fun row row' => row.host < row'.host) ∧
    ∀ row, row ∈ rows ↔ ∃ entry ∈ v accountId row.host, row = entry.toRow accountId row.host
  | .getCredentialsEnvs accountId => v' = v ∧ ∃ envs, answer = .envs envs ∧ EnvsOf (v accountId) envs

end VaultCall

/-! ### Tables -/

/-- An account has at most one active credential for a host. -/
def OneCredential (t : Table StoredCredential) : Prop :=
  ∀ row ∈ t.rows, ∀ row' ∈ t.rows, row.archivedAt = none →
    row'.isActiveFor row.accountId row.host = true → row = row'

/-- Every row is still there and is for the same account and host. -/
def StillThere (t t' : Table StoredCredential) : Prop :=
  ∀ row ∈ t, ∃ row' ∈ t', row'.id = row.id ∧ row'.accountId = row.accountId ∧ row'.host = row.host ∧
    row'.createdAt = row.createdAt

section Tables

variable {k : VaultSetup} {t t' t'' : Table StoredCredential} {row : StoredCredential} {accountId host : String}

theorem isActiveFor_iff : row.isActiveFor accountId host = true ↔
    row.accountId = accountId ∧ row.host = host ∧ row.archivedAt = none := by
  simp [StoredCredential.isActiveFor, and_assoc]

theorem StillThere.refl (t : Table StoredCredential) : StillThere t t := fun row hrow =>
  ⟨row, hrow, rfl, rfl, rfl, rfl⟩

theorem StillThere.trans (h : StillThere t t') (h' : StillThere t' t'') : StillThere t t'' := by
  intro row hrow
  obtain ⟨row', hrow', hid, haccount, hhost, hcreated⟩ := h row hrow
  obtain ⟨row'', hrow'', hid', haccount', hhost', hcreated'⟩ := h' row' hrow'
  exact ⟨row'', hrow'', hid'.trans hid, haccount'.trans haccount, hhost'.trans hhost, hcreated'.trans hcreated⟩

theorem stillThere_apply (op : VaultOp) (t : Table StoredCredential) : StillThere t (op.apply t) := by
  cases op with
  | select => exact .refl t
  | commit => exact .refl t
  | insert row =>
    rw [VaultOp.apply]
    by_cases haccepts : VaultOp.accepts t row = true
    · rw [if_pos haccepts]
      obtain ⟨hfree, -⟩ := Bool.and_eq_true_iff.mp haccepts
      intro row' hrow'
      exact ⟨row', (Table.mem_insert (Option.isNone_iff_eq_none.mp hfree)).mpr (.inl hrow'), rfl, rfl, rfl, rfl⟩
    · rw [if_neg haccepts]
      exact .refl t
  | update id envVarName ciphertext nonce now =>
    intro row hrow
    refine ⟨_, List.mem_map_of_mem hrow, ?_⟩
    split <;> exact ⟨rfl, rfl, rfl, rfl⟩
  | archive accountId host now =>
    intro row hrow
    refine ⟨row.archive accountId host now, List.mem_map_of_mem hrow, ?_⟩
    rw [StoredCredential.archive]
    split <;> exact ⟨rfl, rfl, rfl, rfl⟩

theorem find_active (hone : OneCredential t) (hrow : row ∈ t) (hactive : row.isActiveFor accountId host = true) :
    t.rows.find? (·.isActiveFor accountId host) = some row := by
  cases hfind : t.rows.find? (·.isActiveFor accountId host) with
  | none => exact absurd hactive (List.find?_eq_none.mp hfind row hrow)
  | some row' =>
    obtain ⟨haccount, hhost, hnone⟩ := isActiveFor_iff.mp hactive
    have hactive' : row'.isActiveFor accountId host = true := List.find?_some hfind
    rw [hone row hrow row' (List.mem_of_find?_eq_some hfind) hnone (by rwa [haccount, hhost])]

theorem oneCredential_map {f : StoredCredential → StoredCredential} (hone : OneCredential t)
    (hrows : t'.rows = t.rows.map f) (hf : ∀ row, (f row).accountId = row.accountId ∧ (f row).host = row.host ∧
      ((f row).archivedAt = none → row.archivedAt = none)) : OneCredential t' := by
  intro r hr r' hr' hnone hactive
  rw [hrows] at hr hr'
  obtain ⟨row, hrow, rfl⟩ := List.mem_map.mp hr
  obtain ⟨row', hrow', rfl⟩ := List.mem_map.mp hr'
  obtain ⟨haccount, hhost, hnone'⟩ := isActiveFor_iff.mp hactive
  rw [(hf row).1, (hf row').1] at haccount
  rw [(hf row).2.1, (hf row').2.1] at hhost
  rw [hone row hrow row' hrow' ((hf row).2.2 hnone) (isActiveFor_iff.mpr ⟨haccount, hhost, (hf row').2.2 hnone'⟩)]

/-- Every statement keeps the credentials apart. -/
theorem oneCredential_apply (hone : OneCredential t) (op : VaultOp) : OneCredential (op.apply t) := by
  cases op with
  | select => exact hone
  | commit => exact hone
  | insert row =>
    rw [VaultOp.apply]
    by_cases haccepts : VaultOp.accepts t row = true
    · rw [if_pos haccepts]
      obtain ⟨hfree, hno⟩ := Bool.and_eq_true_iff.mp haccepts
      have hnobody : row.archivedAt = none → ∀ r ∈ t.rows, r.isActiveFor row.accountId row.host = false := by
        intro hnone
        simpa [hnone] using hno
      intro r hr r' hr' hnone hactive
      rw [Table.rows_insert (Option.isNone_iff_eq_none.mp hfree), List.mem_append, List.mem_singleton] at hr hr'
      obtain ⟨haccount, hhost, hnone'⟩ := isActiveFor_iff.mp hactive
      rcases hr with hr | rfl <;> rcases hr' with hr' | rfl
      · exact hone r hr r' hr' hnone hactive
      · have hnot := hnobody hnone' r hr
        rw [Bool.eq_false_iff, ne_eq, isActiveFor_iff] at hnot
        exact absurd ⟨haccount.symm, hhost.symm, hnone⟩ hnot
      · rw [hnobody hnone r' hr'] at hactive
        cases hactive
      · rfl
    · rw [if_neg haccepts]
      exact hone
  | update id envVarName ciphertext nonce now =>
    refine oneCredential_map hone rfl fun row => ?_
    split <;> exact ⟨rfl, rfl, fun h => h⟩
  | archive accountId host now =>
    refine oneCredential_map (f := .archive accountId host now) hone rfl fun row => ?_
    rw [StoredCredential.archive]
    split
    · exact ⟨rfl, rfl, fun h => by cases h⟩
    · exact ⟨rfl, rfl, fun h => h⟩

/-! ### What the statements do to the vault -/

theorem vaultOf_insert (haccepts : VaultOp.accepts t row = true) (hnone : row.archivedAt = none) :
    vaultOf k (t.insert row) = (vaultOf k t).set row.accountId row.host (some (row.entry k)) := by
  obtain ⟨hfree, hno⟩ := Bool.and_eq_true_iff.mp haccepts
  have hnobody : ∀ r ∈ t.rows, ¬ r.isActiveFor row.accountId row.host = true := by simpa [hnone] using hno
  funext accountId host
  rw [vaultOf, Table.rows_insert (Option.isNone_iff_eq_none.mp hfree), List.find?_append, Vault.set]
  by_cases hkey : accountId = row.accountId ∧ host = row.host
  · rw [if_pos hkey, hkey.1, hkey.2, List.find?_eq_none.mpr hnobody, Option.none_or,
      List.find?_cons_of_pos (isActiveFor_iff.mpr ⟨rfl, rfl, hnone⟩), Option.map_some]
  · have hother : ¬ row.isActiveFor accountId host = true := fun h =>
      hkey ⟨(isActiveFor_iff.mp h).1.symm, (isActiveFor_iff.mp h).2.1.symm⟩
    rw [if_neg hkey, List.find?_cons_of_neg hother, List.find?_nil, Option.or_none]
    rfl

theorem vaultOf_update (hone : OneCredential t) (hrow : row ∈ t) (hactive : row.isActiveFor accountId host = true)
    (envVarName : String) (ciphertext nonce : List UInt8) (now : String) :
    vaultOf k ((VaultOp.update row.id envVarName ciphertext nonce now).apply t) =
      (vaultOf k t).set accountId host (some ((row.renew envVarName ciphertext nonce now).entry k)) := by
  funext accountId' host'
  have hpred : (fun r : StoredCredential => (if key r = row.id then r.renew envVarName ciphertext nonce now
      else r).isActiveFor accountId' host') = (·.isActiveFor accountId' host') := by
    funext r
    split <;> rfl
  rw [vaultOf, VaultOp.apply, Table.amend, List.find?_map, Vault.set]
  change (((t.rows.find? fun r : StoredCredential => (if key r = row.id then r.renew envVarName ciphertext nonce now
    else r).isActiveFor accountId' host').map _).map _) = _
  rw [hpred, Option.map_map]
  by_cases hkey : accountId' = accountId ∧ host' = host
  · rw [if_pos hkey, hkey.1, hkey.2, find_active hone hrow hactive, Option.map_some, Function.comp,
      if_pos (show key row = row.id from rfl)]
  · rw [if_neg hkey, vaultOf]
    cases hfind : t.rows.find? (·.isActiveFor accountId' host') with
    | none => rfl
    | some r =>
      have hr : r.isActiveFor accountId' host' = true := List.find?_some hfind
      have hne : ¬ key r = row.id := by
        intro heq
        rw [Table.eq_of_key_eq (List.mem_of_find?_eq_some hfind) hrow heq] at hr
        obtain ⟨haccount, hhost, -⟩ := isActiveFor_iff.mp hactive
        obtain ⟨haccount', hhost', -⟩ := isActiveFor_iff.mp hr
        exact hkey ⟨haccount'.symm.trans haccount, hhost'.symm.trans hhost⟩
      rw [Option.map_some, Option.map_some, Function.comp, if_neg hne]

theorem vaultOf_archive (now : String) :
    vaultOf k ((VaultOp.archive accountId host now).apply t) = (vaultOf k t).set accountId host none := by
  funext accountId' host'
  rw [vaultOf, VaultOp.apply, Table.map, List.find?_map, Vault.set, vaultOf, Option.map_map]
  by_cases hkey : accountId' = accountId ∧ host' = host
  · rw [if_pos hkey, hkey.1, hkey.2, List.find?_eq_none.mpr, Option.map_none]
    intro r _ hactive
    rw [Function.comp, StoredCredential.archive] at hactive
    split at hactive
    · exact absurd (isActiveFor_iff.mp hactive).2.2 (by simp)
    · rename_i hnot
      exact hnot hactive
  · have hsame : ∀ r : StoredCredential, r.isActiveFor accountId' host' = true → r.archive accountId host now = r := by
      intro r hr
      rw [StoredCredential.archive, if_neg]
      intro hactive
      obtain ⟨haccount, hhost, -⟩ := isActiveFor_iff.mp hactive
      obtain ⟨haccount', hhost', -⟩ := isActiveFor_iff.mp hr
      exact hkey ⟨haccount'.symm.trans haccount, hhost'.symm.trans hhost⟩
    have hpred : ((·.isActiveFor accountId' host') ∘ StoredCredential.archive accountId host now) =
        (·.isActiveFor accountId' host') := by
      funext r
      rw [Function.comp]
      by_cases hr : r.isActiveFor accountId' host' = true
      · rw [hsame r hr]
      · rw [Bool.eq_false_iff.mpr hr, StoredCredential.archive]
        split
        · simp [StoredCredential.isActiveFor]
        · exact Bool.eq_false_iff.mpr hr
    rw [if_neg hkey, hpred]
    cases hfind : t.rows.find? (·.isActiveFor accountId' host') with
    | none => rfl
    | some r =>
      have hr : r.isActiveFor accountId' host' = true := List.find?_some hfind
      rw [Option.map_some, Option.map_some, Function.comp, hsame r hr]

end Tables

/-! ### One turn for each call -/

/-- An update finds its row not archived. -/
def FindsActive (s : VaultStore) : VaultOp → Prop
  | .update id .. => ∃ row ∈ s.live.get id, row.archivedAt = none
  | _ => True

/-- The credentials are apart, also on the disk. -/
structure VaultSound (s : VaultStore) : Prop where
  live : OneCredential s.live
  disk : OneCredential s.disk

theorem VaultSound.exec {s : VaultStore} (h : VaultSound s) (op : VaultOp) : VaultSound (op.exec s) where
  live := oneCredential_apply h.live op
  disk := by
    cases op
    case commit => exact h.live
    all_goals exact h.disk

def vaultEffects (k : VaultSetup) : Effects VaultStore VaultOp Vault where
  exec := VaultOp.exec
  env s s' := VaultSound s' ∧ StillThere s.live s'.live
  met := FindsActive
  view s := vaultOf k s.live
  lasts op := op = .commit

section Calls

variable {k : VaultSetup} {s : VaultStore} {accountId host : String}

theorem plaintext_encrypted {row : Credential} (plaintext : String) (hciphertext :
    row.ciphertext = k.encrypt row.nonce (Utf8.encode plaintext.toList)) :
    CredentialsService.plaintext k.decrypt row = some plaintext := by
  rw [CredentialsService.plaintext, hciphertext, k.decrypt_encrypt, Option.bind_some, Utf8.decode_encode,
    Option.map_some, String.ofList_toList]

section Put

variable {envVarName plaintext : String} {d : VaultDraws}

/-- The row of a first credential, where it is accepted. -/
theorem stores_insert {row : StoredCredential} (hrow : row = CredentialsService.newRow k accountId host envVarName
    plaintext d) (haccepts : VaultOp.accepts s.live row = true) :
    Stores accountId host envVarName plaintext d (vaultOf k s.live)
        (vaultOf k ((VaultOp.insert row).apply s.live)) ∧
      (vaultOf k s.live).stored accountId host envVarName plaintext d = row.entry k := by
  have hfree : vaultOf k s.live accountId host = none := by
    obtain ⟨-, hno⟩ := Bool.and_eq_true_iff.mp haccepts
    have hnobody : ∀ r ∈ s.live.rows, ¬ r.isActiveFor accountId host = true := by
      simpa [hrow, CredentialsService.newRow] using hno
    rw [vaultOf, List.find?_eq_none.mpr hnobody, Option.map_none]
  have hentry : (vaultOf k s.live).stored accountId host envVarName plaintext d = row.entry k := by
    rw [StoredCredential.entry, plaintext_encrypted plaintext (by rw [hrow]; rfl), Vault.stored,
      hfree, hrow]
    rfl
  refine ⟨?_, hentry⟩
  rw [Stores, hentry, VaultOp.apply, if_pos haccepts, vaultOf_insert haccepts (by rw [hrow]; rfl), hrow]
  rfl

variable (envVarName plaintext d) in
/-- The row of a credential that is there is written over. -/
theorem stores_update {row : StoredCredential} (hone : OneCredential s.live) (hrow : row ∈ s.live)
    (hactive : row.isActiveFor accountId host = true) :
    Stores accountId host envVarName plaintext d (vaultOf k s.live) (vaultOf k
        ((VaultOp.update row.id envVarName (k.encrypt d.nonce (Utf8.encode plaintext.toList)) d.nonce d.now).apply
          s.live)) ∧
      (vaultOf k s.live).stored accountId host envVarName plaintext d =
        { row.entry k with envVarName := envVarName, secret := some plaintext, updatedAt := d.now } := by
  have hheld : vaultOf k s.live accountId host = some (row.entry k) := by
    rw [vaultOf, find_active hone hrow hactive, Option.map_some]
  have hstored : (vaultOf k s.live).stored accountId host envVarName plaintext d =
      { row.entry k with envVarName := envVarName, secret := some plaintext, updatedAt := d.now } := by
    rw [Vault.stored, hheld]
    rfl
  refine ⟨?_, hstored⟩
  rw [Stores, hstored, vaultOf_update hone hrow hactive, StoredCredential.entry,
    plaintext_encrypted plaintext rfl]
  rfl

/-- A request that stores a credential stores it at one turn. -/
theorem atomic_put :
    (CredentialsService.put k accountId host envVarName plaintext d).Atomic (vaultEffects k)
      (Stores accountId host envVarName plaintext d)
      (fun v v' row => Stores accountId host envVarName plaintext d v v' ∧
        row = (v.stored accountId host envVarName plaintext d).toRow accountId host) s := by
  rw [CredentialsService.put]
  split
  · trivial
  split
  · trivial
  refine .perform_bind fun s₁ _ _ => .inl ⟨rfl, ?_⟩
  cases hfind : s₁.live.rows.find? (·.isActiveFor accountId host) with
  | none =>
    rw [Option.map_none]
    dsimp only
    generalize hrow : CredentialsService.newRow k accountId host envVarName plaintext d = row
    intro s₂ _ _
    by_cases haccepts : VaultOp.accepts s₂.live row = true
    · obtain ⟨heffect, hstored⟩ := stores_insert hrow.symm haccepts
      refine .inr ⟨true, .inl ⟨rfl, heffect⟩, ?_⟩
      change (if VaultOp.accepts s₂.live row = true then _ else _ : VaultM CredentialRow).Settled _ _ _ _
      rw [if_pos haccepts]
      intro s₃ _ _
      refine ⟨rfl, .inr ⟨rfl, rfl, heffect, ?_⟩⟩
      change _ = ((vaultOf k s₂.live).stored accountId host envVarName plaintext d).toRow accountId host
      rw [hstored, ← hrow]
      rfl
    · refine .inl ⟨?_, ?_⟩
      · change vaultOf k (VaultOp.apply (.insert row) s₂.live) = vaultOf k s₂.live
        rw [VaultOp.apply, if_neg haccepts]
      · change (if VaultOp.accepts s₂.live row = true then _ else _ : VaultM CredentialRow).Atomic _ _ _ _
        rw [if_neg haccepts]
        trivial
  | some row =>
    intro s₂ henv hmet
    obtain ⟨found, hthere, hid, haccount, hhost, hcreated⟩ := henv.2 row (List.mem_of_find?_eq_some hfind)
    have hnone : found.archivedAt = none := by
      obtain ⟨row', hrow', hnone⟩ := hmet
      obtain ⟨hmem, hkey⟩ := Table.get_eq_some_iff.mp hrow'
      rwa [Table.eq_of_key_eq hthere hmem (hid.trans hkey.symm)]
    have hactive : found.isActiveFor accountId host = true := by
      obtain ⟨haccount', hhost', -⟩ := isActiveFor_iff.mp (List.find?_some hfind)
      exact isActiveFor_iff.mpr ⟨haccount.trans haccount', hhost.trans hhost', hnone⟩
    obtain ⟨heffect, hstored⟩ := stores_update (k := k) envVarName plaintext d henv.1.live hthere hactive
    rw [hid] at heffect
    refine .inr ⟨true, .inl ⟨rfl, heffect⟩, fun s₃ _ _ => ⟨rfl, .inr ⟨rfl, rfl, heffect, ?_⟩⟩⟩
    change _ = ((vaultOf k s₂.live).stored accountId host envVarName plaintext d).toRow accountId host
    rw [hstored, ← hid, ← hcreated]
    rfl

end Put

/-- Reading the credentials of an account by host. -/
theorem mem_held_iff (hone : OneCredential s.live) {entry : VaultEntry} :
    entry ∈ vaultOf k s.live accountId host ↔
      ∃ row ∈ s.live.rows, row.isActiveFor accountId host = true ∧ row.entry k = entry := by
  rw [vaultOf, Option.mem_def, Option.map_eq_some_iff]
  constructor
  · rintro ⟨row, hfind, hentry⟩
    exact ⟨row, List.mem_of_find?_eq_some hfind, List.find?_some hfind, hentry⟩
  · rintro ⟨row, hrow, hactive, hentry⟩
    exact ⟨row, find_active hone hrow hactive, hentry⟩

variable (accountId) in
/-- The rows of a listing are the credentials, each once and by host. -/
theorem listed_spec (hone : OneCredential s.live) {rows : List CredentialRow} (hrows : rows =
    ((s.live.rows.filter fun row => row.accountId == accountId && row.archivedAt.isNone).mergeSort
      fun row row' => decide (row.host ≤ row'.host)).map fun row => (row.entry k).toRow accountId row.host) :
    rows.Pairwise (fun row row' => row.host < row'.host) ∧
      ∀ row, row ∈ rows ↔ ∃ entry ∈ vaultOf k s.live accountId row.host, row = entry.toRow accountId row.host := by
  have hmem : ∀ row, row ∈ (s.live.rows.filter fun row => row.accountId == accountId && row.archivedAt.isNone) ↔
      row ∈ s.live.rows ∧ row.isActiveFor accountId row.host = true := by
    intro row
    rw [List.mem_filter, isActiveFor_iff]
    simp
  subst hrows
  constructor
  · rw [List.pairwise_map]
    have hsorted : ((s.live.rows.filter fun row => row.accountId == accountId && row.archivedAt.isNone).mergeSort
        fun row row' => decide (row.host ≤ row'.host)).Pairwise
          fun row row' => decide (row.host ≤ row'.host) = true := by
      refine List.pairwise_mergeSort (fun a b c hab hbc => ?_) (fun a b => ?_) _
      · exact decide_eq_true (le_trans (of_decide_eq_true hab) (of_decide_eq_true hbc))
      · simpa using le_total a.host b.host
    have hnodup : ((s.live.rows.filter fun row => row.accountId == accountId && row.archivedAt.isNone).mergeSort
        fun row row' => decide (row.host ≤ row'.host)).Nodup :=
      (List.mergeSort_perm _ _).nodup_iff.mpr (s.live.nodup.of_map.filter _)
    refine (hsorted.and hnodup).imp_of_mem fun {a b} ha hb hab => ?_
    obtain ⟨ha, hactive⟩ := (hmem a).mp (List.mem_mergeSort.mp ha)
    obtain ⟨hb, hactive'⟩ := (hmem b).mp (List.mem_mergeSort.mp hb)
    refine lt_of_le_of_ne (of_decide_eq_true hab.1) fun heq => hab.2 ?_
    obtain ⟨haccount, -, hnone⟩ := isActiveFor_iff.mp hactive
    have hsame : a.host = b.host := heq
    exact hone a ha b hb hnone (by rwa [haccount, hsame])
  · intro row
    rw [List.mem_map]
    constructor
    · rintro ⟨r, hr, rfl⟩
      obtain ⟨hr, hactive⟩ := (hmem r).mp (List.mem_mergeSort.mp hr)
      exact ⟨r.entry k, (mem_held_iff hone).mpr ⟨r, hr, hactive, rfl⟩, rfl⟩
    · rintro ⟨entry, hentry, hrow⟩
      obtain ⟨r, hr, hactive, rfl⟩ := (mem_held_iff hone).mp hentry
      obtain ⟨-, hhost, -⟩ := isActiveFor_iff.mp hactive
      refine ⟨r, List.mem_mergeSort.mpr ((hmem r).mpr ⟨hr, by rwa [hhost]⟩), ?_⟩
      rw [hrow, hhost]

/-- The variables of an account come from its credentials. -/
theorem envsOf_getEnvs (hone : OneCredential s.live) : EnvsOf (vaultOf k s.live accountId) (CredentialsService.getEnvs
    k.decrypt (k.arrange (CredentialsService.active accountId (s.live.rows.map (·.toCredential))))) := by
  have hmem : ∀ r, r ∈ k.arrange (CredentialsService.active accountId (s.live.rows.map (·.toCredential))) ↔
      ∃ row ∈ s.live.rows, row.isActiveFor accountId row.host = true ∧ row.toCredential = r := by
    intro r
    rw [(k.arrange_perm _).mem_iff, CredentialsService.active, List.mem_filter, List.mem_map]
    constructor
    · rintro ⟨⟨row, hrow, rfl⟩, hactive⟩
      exact ⟨row, hrow, isActiveFor_iff.mpr (by simpa using hactive), rfl⟩
    · rintro ⟨row, hrow, hactive, rfl⟩
      obtain ⟨haccount, -, hnone⟩ := isActiveFor_iff.mp hactive
      exact ⟨⟨row, hrow, rfl⟩, by simp [haccount, hnone]⟩
  constructor
  · intro name plain hlookup
    have hrow : ∃ r ∈ k.arrange (CredentialsService.active accountId (s.live.rows.map (·.toCredential))),
        CredentialsService.plaintext k.decrypt r = some plain ∧
          (r.envVarName = name ∨ name ∈ CredentialsService.envVarAliases r.host) := by
      rw [CredentialsService.lookup_getEnvs, Option.or_eq_some_iff] at hlookup
      rcases hlookup with hexplicit | ⟨-, halias⟩
      · obtain ⟨r, hr, hname, hplain⟩ := CredentialsService.of_explicitly hexplicit
        exact ⟨r, hr, hplain, .inl hname⟩
      · obtain ⟨r, hr, hname, hplain⟩ := CredentialsService.of_byAlias halias
        exact ⟨r, hr, hplain, .inr hname⟩
    obtain ⟨r, hr, hplain, hreason⟩ := hrow
    obtain ⟨row, hrow, hactive, rfl⟩ := (hmem r).mp hr
    exact ⟨row.host, row.entry k, (mem_held_iff hone).mpr ⟨row, hrow, hactive, rfl⟩, hplain, hreason⟩
  · intro host entry hentry plain hplain halone
    obtain ⟨row, hrow, hactive, rfl⟩ := (mem_held_iff hone).mp hentry
    obtain ⟨-, hhost, hnone⟩ := isActiveFor_iff.mp hactive
    have hin := (hmem row.toCredential).mpr ⟨row, hrow, by rwa [hhost], rfl⟩
    have honly : ∀ r ∈ k.arrange (CredentialsService.active accountId (s.live.rows.map (·.toCredential))),
        r.envVarName = row.envVarName → (CredentialsService.plaintext k.decrypt r).isSome →
          r = row.toCredential := by
      intro r hr hname hopens
      obtain ⟨row', hrow', hactive', rfl⟩ := (hmem r).mp hr
      have hsame := halone row'.host (row'.entry k) ((mem_held_iff hone).mpr ⟨row', hrow', hactive', rfl⟩) hopens hname
      obtain ⟨haccount', -, hnone'⟩ := isActiveFor_iff.mp hactive'
      rw [hone row' hrow' row hrow hnone' (by rw [haccount', hsame]; exact hactive)]
    change List.lookup row.envVarName _ = some plain
    rw [CredentialsService.lookup_getEnvs, CredentialsService.explicitly_of_only hin rfl hplain honly, Option.some_or]

theorem atomic_handle (call : VaultCall) :
    (call.handle k).Atomic (vaultEffects k) (call.Changes k) (call.Does k) s := by
  cases call with
  | pasteCredential accountId host envVarName token d =>
    refine atomic_put.map ?_
    rintro v v' row ⟨hstores, rfl⟩
    exact ⟨hstores, rfl⟩
  | githubCallback accountId accessToken d =>
    refine atomic_put.map ?_
    rintro v v' row ⟨hstores, rfl⟩
    exact ⟨hstores, rfl⟩
  | listCredentials accountId =>
    intro s₁ henv _
    obtain ⟨hsorted, hmem⟩ := listed_spec (k := k) accountId henv.1.live rfl
    exact .inr ⟨false, .inr ⟨rfl, rfl⟩, rfl, rfl, _, rfl, hsorted, hmem⟩
  | getCredentialsEnvs accountId =>
    intro s₁ henv _
    exact .inr ⟨false, .inr ⟨rfl, rfl⟩, rfl, rfl, _, rfl, envsOf_getEnvs henv.1.live⟩
  | deleteCredential accountId host now =>
    intro s₁ henv _
    refine .inr ⟨true, .inl ⟨rfl, vaultOf_archive now⟩, fun s₂ _ _ => ⟨rfl, .inr ⟨rfl, ?_⟩⟩⟩
    change (if s₁.live.rows.any (·.isActiveFor accountId (k.lower host)) = true then _ else _ :
      VaultM VaultAnswer).Settled _ _ _ _
    by_cases hany : s₁.live.rows.any (·.isActiveFor accountId (k.lower host)) = true
    · rw [if_pos hany]
      refine ⟨rfl, vaultOf_archive now, ?_, rfl⟩
      obtain ⟨row, hrow, hactive⟩ := List.any_eq_true.mp hany
      change (vaultOf k s₁.live accountId (k.lower host)).isSome = true
      rw [vaultOf, find_active henv.1.live hrow hactive, Option.map_some, Option.isSome_some]
    · rw [if_neg hany]
      trivial

end Calls

/-! ### Runs -/

/-- Whatever else is done on the connection: it reads, and it commits. -/
structure ConnectionUser where
  program : VaultM Unit
  isAside : program.Every fun op => op = .select ∨ op = .commit

section Runs

variable {ι κ : Type} [DecidableEq ι] [DecidableEq κ] (k : VaultSetup) (calls : ι → VaultCall)
  (others : κ → ConnectionUser) (t : Table StoredCredential)

/-- The requests and the other coroutines. -/
def vaultProgram : ι ⊕ κ → VaultM (Option VaultAnswer)
  | .inl i => do
    let answer ← (calls i).handle k
    return some answer
  | .inr j => do
    (others j).program
    return none

def vaultPool : Pool (ι ⊕ κ) VaultStore VaultOp VaultExn (Option VaultAnswer) :=
  .init (vaultProgram k calls others) ⟨t, t⟩

/-- The tables after a schedule. -/
def vaultAfter (turns : List (Turn (ι ⊕ κ))) : VaultStore :=
  ((vaultPool k calls others t).run VaultOp.exec VaultStore.recover turns).state

/-- Only a request does more than to read and to commit. -/
def MayDo : ι ⊕ κ → VaultOp → Prop
  | .inl _, _ => True
  | .inr _, op => op = .select ∨ op = .commit

/-- What the requests change; the others change nothing. -/
def Changing : ι ⊕ κ → Vault → Vault → Prop
  | .inl i => (calls i).Changes k
  | .inr _ => fun _ _ => False

/-- What the requests do. -/
def Doing : ι ⊕ κ → Vault → Vault → Option VaultAnswer → Prop
  | .inl i => fun v v' answer => ∃ answer' ∈ answer, (calls i).Does k v v' answer'
  | .inr _ => fun _ _ _ => False

variable {calls others t}

omit [DecidableEq ι] [DecidableEq κ] in
theorem relies_vault :
    Pool.Relies (vaultEffects k) VaultStore.recover VaultSound (MayDo : ι ⊕ κ → VaultOp → Prop) where
  refl _ h := ⟨h, .refl _⟩
  trans _ _ _ h h' := ⟨h'.1, h.2.trans h'.2⟩
  step _ op _ _ h _ := ⟨⟨h.exec op, stillThere_apply op _⟩, h.exec op⟩
  recover _ h := ⟨h.disk, h.disk⟩

omit [DecidableEq ι] [DecidableEq κ] in
theorem every_vaultProgram (i : ι ⊕ κ) : (vaultProgram k calls others i).Every (MayDo i) := by
  cases i with
  | inl i => exact (Coro.every_true _).mono fun _ _ => trivial
  | inr j => exact .bind (others j).isAside fun _ => trivial

omit [DecidableEq ι] [DecidableEq κ] in
theorem atomic_request (i : ι) (s : VaultStore) : (vaultProgram k calls others (.inl i)).Atomic (vaultEffects k)
    (Changing k calls (.inl i : ι ⊕ κ)) (Doing k calls (.inl i : ι ⊕ κ)) s :=
  (atomic_handle (calls i)).map fun _ _ answer h => ⟨answer, rfl, h⟩

omit [DecidableEq ι] [DecidableEq κ] in
theorem quiet_of_aside {j : κ} {op : VaultOp} (h : MayDo (.inr j : ι ⊕ κ) op) (s : VaultStore) :
    (vaultEffects k).Quiet op s := by
  rcases h with rfl | rfl <;> rfl

end Runs

/-! ### A token beside its readers -/

/-- A cipher that only puts a tag behind the plaintext. -/
def tagOnly : VaultSetup where
  encrypt _ plaintext := plaintext ++ List.replicate 16 0
  decrypt := CredentialsService.cutTag
  decrypt_encrypt := by
    intro nonce plaintext
    rw [CredentialsService.cutTag, if_pos (by simp)]
    simp
  isAlnum := Char.isAlphanum
  lower := Text.lower
  arrange := id
  arrange_perm := List.Perm.refl

def firstDraws : VaultDraws := ⟨List.replicate 12 1, "aa", "2026-01-01T00:00:00+00:00"⟩

/-- GitHub comes back with a token while the agent's variables are read and the credential is deleted. -/
def adasCalls : Fin 3 → VaultCall
  | 0 => .githubCallback "acc_1" "gho_1" firstDraws
  | 1 => .getCredentialsEnvs "acc_1"
  | 2 => .deleteCredential "acc_1" "api.github.com" "2026-01-01T00:00:01+00:00"

instance (s : VaultStore) : DecidablePred (FindsActive s) := by
  rintro (_ | _ | _ | _ | _) <;> unfold FindsActive <;> dsimp only <;> infer_instance

def oldToken : StoredCredential where
  accountId := "acc_1"
  host := "api.github.com"
  envVarName := "GITHUB_TOKEN"
  ciphertext := []
  nonce := []
  id := "cred_1"
  createdAt := "2025-12-31T00:00:00+00:00"
  updatedAt := "2025-12-31T00:00:00+00:00"

def oldTokenTable : Table StoredCredential := ⟨[oldToken], List.nodup_singleton _⟩

/-- A token that has been stored, as is answered, in the place of one that is archived in between, is not there. -/
example :
    let turns : List (Turn (Fin 3 ⊕ Empty)) :=
      [.run (.inl 0), .run (.inl 2), .run (.inl 2), .run (.inl 0), .run (.inl 0)]
    ((vaultPool tagOnly adasCalls Empty.elim oldTokenTable).run VaultOp.exec VaultStore.recover turns).returned (.inl 0)
        (some (.stored ⟨"cred_1", "acc_1", "api.github.com", "GITHUB_TOKEN", "2025-12-31T00:00:00+00:00",
          "2026-01-01T00:00:00+00:00"⟩)) ∧
      vaultOf tagOnly (vaultAfter tagOnly adasCalls Empty.elim oldTokenTable turns).live "acc_1" "api.github.com" =
        none := by
  decide +kernel

end Krewhub
