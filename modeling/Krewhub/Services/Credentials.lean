import Krewhub.Base.Dict
import Krewhub.Base.Utf8

/-!
# Credentials as environment variables

`CredentialsService.get_envs`: the rows of an account are decrypted one after the other, and each sets the
variable it is stored under and, where nothing else has, those that the tools for its host read. AES-GCM is
a parameter; a row it rejects, or whose plaintext is no text, sets nothing.

In the end a variable has the plaintext of the last row stored under it, and where there is none that of the
first row with a host it is an alias for. So an alias never stands in the place of what was stored under the
name itself, whatever the order of the rows.
-/

namespace Krewhub

/-- What `get_envs` reads of a row of `credentials`. -/
structure Credential where
  accountId : String
  host : String
  envVarName : String
  ciphertext : List UInt8
  nonce : List UInt8
  archivedAt : Option String := none
  deriving DecidableEq, Repr

namespace CredentialsService

/-- `_ENV_VAR_ALIASES.get(host, ())`. -/
def envVarAliases (host : String) : List String :=
  (([("api.github.com", ["GITHUB_TOKEN", "GITHUB_PERSONAL_ACCESS_TOKEN", "GH_TOKEN"]),
    ("github.com", ["GITHUB_TOKEN", "GITHUB_PERSONAL_ACCESS_TOKEN", "GH_TOKEN"]),
    ("api.openai.com", ["OPENAI_API_KEY"]),
    ("api.anthropic.com", ["ANTHROPIC_API_KEY"]),
    ("mcp.slack.com", ["SLACK_BOT_TOKEN"])] : List (String × List String)).lookup host).getD []

/-- The rows that the query asks for, in the order of the table. -/
def active (accountId : String) (credentials : List Credential) : List Credential :=
  credentials.filter fun row => row.accountId == accountId && row.archivedAt.isNone

variable (decrypt : List UInt8 → List UInt8 → Option (List UInt8))

/-- `self._aes.decrypt(nonce, ct, None).decode()`, or nothing where it raises. -/
def plaintext (row : Credential) : Option String :=
  (decrypt row.nonce row.ciphertext).bind fun bs => (Utf8.decode bs).map String.ofList

/-- What a row that decrypts adds to the variables. -/
def expose (envs : Dict String String) (row : Credential) (plain : String) : Dict String String :=
  (envVarAliases row.host).foldl (fun envs name => envs.setNew name plain) (envs.set row.envVarName plain)

/-- `get_envs` on the rows that its query returned. -/
def getEnvs (rows : List Credential) : Dict String String :=
  rows.foldl (fun envs row => match plaintext decrypt row with
    | none => envs
    | some plain => expose envs row plain) []

variable {decrypt} {envs : Dict String String} {row : Credential} {rows : List Credential} {plain v : String}

theorem lookup_expose :
    (expose envs row plain).lookup v =
      if v = row.envVarName then some plain
      else (envs.lookup v).or (if v ∈ envVarAliases row.host then some plain else none) := by
  rw [expose, Dict.lookup_foldl_setNew, Dict.lookup_set]
  by_cases hv : v = row.envVarName
  · rw [if_pos hv, if_pos hv, Option.some_or]
  · rw [if_neg hv, if_neg hv]

/-- The plaintext of the last row that is stored under the variable. -/
def explicitly (decrypt : List UInt8 → List UInt8 → Option (List UInt8)) (v : String) :
    List Credential → Option String
  | [] => none
  | row :: rows => (explicitly decrypt v rows).or (if row.envVarName = v then plaintext decrypt row else none)

/-- The plaintext of the first row with a host that the variable is an alias for. -/
def byAlias (decrypt : List UInt8 → List UInt8 → Option (List UInt8)) (v : String) :
    List Credential → Option String
  | [] => none
  | row :: rows => (if v ∈ envVarAliases row.host then plaintext decrypt row else none).or (byAlias decrypt v rows)

theorem lookup_foldl_expose :
    (rows.foldl (fun envs row => match plaintext decrypt row with
      | none => envs
      | some plain => expose envs row plain) envs).lookup v =
      (explicitly decrypt v rows).or ((envs.lookup v).or (byAlias decrypt v rows)) := by
  induction rows generalizing envs with
  | nil => simp [explicitly, byAlias]
  | cons row rows ih =>
    rw [List.foldl_cons, ih, explicitly, byAlias, Option.or_assoc]
    congr 1
    cases hplain : plaintext decrypt row with
    | none => simp
    | some plain =>
      dsimp only
      rw [lookup_expose]
      by_cases hv : row.envVarName = v
      · rw [if_pos hv.symm, if_pos hv, Option.some_or, Option.some_or]
      · rw [if_neg (Ne.symm hv), if_neg hv, Option.none_or, Option.or_assoc]

/-- What a variable is in the end. -/
theorem lookup_getEnvs :
    (getEnvs decrypt rows).lookup v = (explicitly decrypt v rows).or (byAlias decrypt v rows) := by
  rw [getEnvs, lookup_foldl_expose, List.lookup_nil, Option.none_or]

theorem of_explicitly (h : explicitly decrypt v rows = some plain) :
    ∃ row ∈ rows, row.envVarName = v ∧ plaintext decrypt row = some plain := by
  induction rows with
  | nil => cases h
  | cons row rows ih =>
    rw [explicitly, Option.or_eq_some_iff] at h
    rcases h with hrest | ⟨_, hrow⟩
    · obtain ⟨r, hr, hname⟩ := ih hrest
      exact ⟨r, List.mem_cons_of_mem _ hr, hname⟩
    · split at hrow
      · rename_i hname
        exact ⟨row, List.mem_cons_self, hname, hrow⟩
      · cases hrow

theorem explicitly_eq_none_iff :
    explicitly decrypt v rows = none ↔ ∀ row ∈ rows, row.envVarName = v → plaintext decrypt row = none := by
  induction rows with
  | nil => simp [explicitly]
  | cons row rows ih =>
    rw [explicitly, Option.or_eq_none_iff, ih, List.forall_mem_cons, and_comm, ite_eq_right_iff]

theorem of_byAlias (h : byAlias decrypt v rows = some plain) :
    ∃ row ∈ rows, v ∈ envVarAliases row.host ∧ plaintext decrypt row = some plain := by
  induction rows with
  | nil => cases h
  | cons row rows ih =>
    rw [byAlias, Option.or_eq_some_iff] at h
    rcases h with hrow | ⟨_, hrest⟩
    · split at hrow
      · rename_i hv
        exact ⟨row, List.mem_cons_self, hv, hrow⟩
      · cases hrow
    · obtain ⟨r, hr, halias⟩ := ih hrest
      exact ⟨r, List.mem_cons_of_mem _ hr, halias⟩

theorem byAlias_eq_none_iff :
    byAlias decrypt v rows = none ↔
      ∀ row ∈ rows, v ∈ envVarAliases row.host → plaintext decrypt row = none := by
  induction rows with
  | nil => simp [byAlias]
  | cons row rows ih => rw [byAlias, Option.or_eq_none_iff, ih, List.forall_mem_cons, ite_eq_right_iff]

/-- The one row stored under a variable is what the variable is. -/
theorem explicitly_of_only {row : Credential} (hrow : row ∈ rows) (hname : row.envVarName = v)
    (hplain : plaintext decrypt row = some plain)
    (honly : ∀ r ∈ rows, r.envVarName = v → (plaintext decrypt r).isSome → r = row) :
    explicitly decrypt v rows = some plain := by
  cases hexplicit : explicitly decrypt v rows with
  | none =>
    rw [explicitly_eq_none_iff.mp hexplicit row hrow hname] at hplain
    cases hplain
  | some other =>
    obtain ⟨r, hr, hname', hplain'⟩ := of_explicitly hexplicit
    rw [honly r hr hname' (by rw [hplain', Option.isSome_some]), hplain] at hplain'
    exact hplain'.symm

theorem exists_byAlias {row : Credential} (hrow : row ∈ rows) (hv : v ∈ envVarAliases row.host)
    (hopens : (plaintext decrypt row).isSome) :
    ∃ r ∈ rows, (plaintext decrypt r).isSome ∧ v ∈ envVarAliases r.host ∧
      byAlias decrypt v rows = plaintext decrypt r := by
  cases hfirst : byAlias decrypt v rows with
  | none =>
    rw [byAlias_eq_none_iff.mp hfirst row hrow hv] at hopens
    cases hopens
  | some plain =>
    obtain ⟨r, hr, halias, hplain⟩ := of_byAlias hfirst
    exact ⟨r, hr, by rw [hplain, Option.isSome_some], halias, hplain.symm⟩

/-- A variable is there because a row is stored under it or has it for an alias. -/
theorem exists_of_mem_getEnvs (h : v ∈ (getEnvs decrypt rows).map (·.1)) :
    ∃ row ∈ rows, (plaintext decrypt row).isSome ∧ (row.envVarName = v ∨ v ∈ envVarAliases row.host) := by
  rw [← Dict.lookup_isSome_iff, lookup_getEnvs, Option.isSome_iff_exists] at h
  obtain ⟨plain, hplain⟩ := h
  rcases Option.or_eq_some_iff.mp hplain with hexplicit | ⟨_, halias⟩
  · obtain ⟨r, hr, hname, hopens⟩ := of_explicitly hexplicit
    exact ⟨r, hr, by rw [hopens, Option.isSome_some], .inl hname⟩
  · obtain ⟨r, hr, hv, hopens⟩ := of_byAlias halias
    exact ⟨r, hr, by rw [hopens, Option.isSome_some], .inr hv⟩

/-- **Aliases never shadow what was stored under a name.** For every table, every order in which the rows of
the account come and whatever of them decrypts: the one row stored under a variable is what the variable is;
where there is none, and the variable is an alias for the host of some row, it is the plaintext of such a
row; and every variable is there for one of the two reasons. -/
theorem getEnvs_explicit_over_alias (accountId : String) (credentials rows : List Credential)
    (hrows : rows.Perm (active accountId credentials)) (v : String) :
    (∀ row plain, (active accountId credentials).filter
        (fun r => (plaintext decrypt r).isSome && r.envVarName == v) = [row] →
      plaintext decrypt row = some plain → (getEnvs decrypt rows).lookup v = some plain) ∧
    ((∀ row ∈ active accountId credentials, (plaintext decrypt row).isSome → row.envVarName ≠ v) →
      (∃ row ∈ active accountId credentials, (plaintext decrypt row).isSome ∧ v ∈ envVarAliases row.host) →
      ∃ row ∈ active accountId credentials, (plaintext decrypt row).isSome ∧ v ∈ envVarAliases row.host ∧
        (getEnvs decrypt rows).lookup v = plaintext decrypt row) ∧
    (v ∈ (getEnvs decrypt rows).map (·.1) → ∃ row ∈ active accountId credentials,
      (plaintext decrypt row).isSome ∧ (row.envVarName = v ∨ v ∈ envVarAliases row.host)) := by
  refine ⟨fun row plain hone hplain => ?_, fun hnone hsome => ?_, fun hkey => ?_⟩
  · have hrow := List.mem_filter.mp (hone ▸ List.mem_singleton_self row)
    obtain ⟨_, hname⟩ := Bool.and_eq_true_iff.mp hrow.2
    have honly : ∀ r ∈ rows, r.envVarName = v → (plaintext decrypt r).isSome → r = row := by
      intro r hr hname hopens
      rw [← List.mem_singleton, ← hone, List.mem_filter]
      exact ⟨hrows.mem_iff.mp hr, by simp [hname, hopens]⟩
    rw [lookup_getEnvs, explicitly_of_only (hrows.mem_iff.mpr hrow.1) (beq_iff_eq.mp hname) hplain honly,
      Option.some_or]
  · have hexplicit : explicitly decrypt v rows = none := by
      refine explicitly_eq_none_iff.mpr fun row hrow hname => ?_
      by_contra hopens
      exact hnone row (hrows.mem_iff.mp hrow) (Option.isSome_iff_ne_none.mpr hopens) hname
    obtain ⟨row, hrow, hopens, halias⟩ := hsome
    obtain ⟨r, hr, hopens', halias', hplain⟩ := exists_byAlias (hrows.mem_iff.mpr hrow) halias hopens
    exact ⟨r, hrows.mem_iff.mp hr, hopens', halias', by rw [lookup_getEnvs, hexplicit, Option.none_or, hplain]⟩
  · obtain ⟨r, hr, hopens, hreason⟩ := exists_of_mem_getEnvs hkey
    exact ⟨r, hrows.mem_iff.mp hr, hopens, hreason⟩

/-- Decryption by a cipher that only puts a tag of sixteen bytes behind the plaintext. -/
def cutTag (_ ct : List UInt8) : Option (List UInt8) :=
  if 16 ≤ ct.length then some (ct.take (ct.length - 16)) else none

/-- A token stored for GitHub's API under one of the aliases. -/
def ghToken : Credential where
  accountId := "acc_1"
  host := "api.github.com"
  envVarName := "GH_TOKEN"
  ciphertext := 116 :: List.replicate 16 0
  nonce := List.replicate 12 1

/-- A key for GitHub's site comes before it. -/
def githubRows : List Credential :=
  [{ ghToken with host := "github.com", envVarName := "DEPLOY_KEY", ciphertext := 107 :: List.replicate 16 0 },
    ghToken]

/-- The key sets the alias first, and the token is what the variable is in the end. -/
theorem githubRows_ghToken : (getEnvs cutTag githubRows).lookup "GH_TOKEN" = some "t" :=
  (getEnvs_explicit_over_alias "acc_1" githubRows githubRows (List.Perm.refl _) "GH_TOKEN").1
    ghToken "t" (by decide +kernel) (by decide +kernel)

end CredentialsService

end Krewhub
