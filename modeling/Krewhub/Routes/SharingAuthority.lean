import Krewhub.Base.Stages
import Krewhub.Routes.CookbookSharing

/-!
# Nobody without the role

Requests to the sharing endpoints and whatever else writes cookbooks, interleaved at every await, cancelled and
crashed. Between the check of the role and the write the state goes on: the caller may lose the role, the share
may be revoked, a second share may have been inserted. What holds whatever happens is that the check has been made.
A request answers, and writes, only where a turn of its own has met a state in which its caller had the role that
the endpoint asks for, and what it writes belongs to the cookbook on which it has checked the role, although the
row is named by an identifier that may come from anywhere.

Rows are never deleted and a revoked row never changes again, so the tables tell who has had access; and an account
has at most one share of a cookbook at a time.
-/

namespace Krewhub

namespace CookbookSharing

/-! ### Roles as the tables have them -/

/-- The caller owns the cookbook, in one of the forms its owner may have. -/
def Owns (t : AccountTables) (caller : SharingCaller) (cookbook : Cookbook) : Prop :=
  isNamedOwner cookbook caller = true ∨ cookbook.ownerStartsWith "0x" = true ∧
    ∃ row ∈ t.walletLinks.get cookbook.ownerId, row.accountId = caller.accountId

/-- The caller owns the cookbook, or has a share of it with at least the role. -/
def HasRole (t : AccountTables) (db : SharingDb) (caller : SharingCaller) (cookbookId : String)
    (minimum : ShareRole) : Prop :=
  (∃ cookbook ∈ db.cookbooks.get cookbookId, Owns t caller cookbook) ∨
    ∃ share ∈ db.shares, share.isActiveFor cookbookId caller.accountId = true ∧ minimum.rank ≤ share.role.rank

/-- Other code that writes cookbooks: their creation, and the index after a push. -/
def IsOutside : SharingOp → Prop
  | .select | .insertCookbook _ | .updateCookbook .. | .commit => True
  | _ => False

def IsWrite : SharingOp → Prop
  | .insertShare _ | .setRole .. | .revokeShare .. | .insertGrant _ | .revokeGrant .. => True
  | _ => False

structure CookbookWriter where
  program : Sharing Unit
  isOutside : program.Every IsOutside

section Pool

variable {ι κ : Type} (t : AccountTables) (calls : ι → SharingCall) (others : κ → CookbookWriter)

/-- The requests and the other coroutines. -/
def sharingPool (db : SharingDb) : Pool (ι ⊕ κ) SharingStore SharingOp SharingExn (Option SharingAnswer) :=
  .init (fun i => match i with
    | .inl i => do
      let answer ← (calls i).handle t
      return some answer
    | .inr k => do
      (others k).program
      return none) ⟨db, db⟩

end Pool

/-! ### The check -/

section Check

variable {t : AccountTables} {cookbookId : String} {caller : SharingCaller} {minimum : ShareRole} {α : Type}

theorem every_isCallerCookbookOwner (cookbook : Cookbook) :
    (isCallerCookbookOwner t cookbook caller).Every (· = .select) := by
  rw [isCallerCookbookOwner]
  refine .ite (fun _ => trivial) fun _ => .ite (fun _ => ?_) fun _ => trivial
  exact ⟨rfl, fun _ => trivial⟩

theorem every_requireRole : (requireRole t cookbookId caller minimum).Every (· = .select) := by
  refine .bind ⟨rfl, fun _ => trivial⟩ fun found => ?_
  cases found with
  | none => trivial
  | some cookbook =>
    refine .bind ((every_isCallerCookbookOwner cookbook).bind fun isOwner => ?_) fun role => ?_
    · exact .ite (fun _ => trivial) fun _ => ⟨rfl, fun _ => trivial⟩
    · cases role with
      | none => trivial
      | some role => exact .ite (fun _ => trivial) fun _ => trivial

/-- The test of the owner is the predicate, whatever the state is while it runs. -/
theorem isCallerCookbookOwner_of_not (cookbook : Cookbook) (h : ¬ Owns t caller cookbook) (f : Bool → Sharing α)
    {W : SharingOp → Prop} {R : α → Prop} {E : SharingOp → SharingStore → Prop}
    (hselect : ¬ W .select) (hf : (f false).Staged W R (.one E)) :
    (isCallerCookbookOwner t cookbook caller >>= f).Staged W R (.one E) := by
  obtain ⟨hnamed, hlinked⟩ := not_or.mp h
  rw [isCallerCookbookOwner, if_neg hnamed]
  by_cases hhex : cookbook.ownerStartsWith "0x" = true
  · rw [if_pos hhex]
    refine ⟨hselect, fun s => .inr ?_⟩
    have hrow : (t.walletLinks.get cookbook.ownerId).any (·.accountId == caller.accountId) = false := by
      rw [Bool.eq_false_iff]
      intro hany
      obtain ⟨row, hrow, haccount⟩ := (Option.any_eq_true _ _).mp hany
      exact hlinked ⟨hhex, row, hrow, beq_iff_eq.mp haccount⟩
    change (f ((t.walletLinks.get cookbook.ownerId).any (·.accountId == caller.accountId))).Staged W R (.one E)
    rwa [hrow]
  · rw [if_neg hhex]
    exact hf

/-- `_require_role` does not return before it has met a state in which the caller has the role. -/
theorem staged_requireRole {W : SharingOp → Prop} (hselect : ¬ W .select) :
    (requireRole t cookbookId caller minimum).Staged W (fun _ => True)
      (.one fun _ s => HasRole t s.live caller cookbookId minimum) := by
  refine .perform_bind hselect fun s => ?_
  dsimp only
  cases hcookbook : s.live.cookbooks.get cookbookId with
  | none => exact .inr (Coro.staged_raise _)
  | some cookbook =>
    have hid : cookbook.id = cookbookId := Table.key_eq_of_get hcookbook
    by_cases howns : Owns t caller cookbook
    · exact .inl ⟨.inl ⟨cookbook, hcookbook, howns⟩, Coro.staged_nil _⟩
    · refine .inr ?_
      dsimp only
      rw [roleForExistingCookbook, Coro.bind_assoc]
      refine isCallerCookbookOwner_of_not cookbook howns _ hselect ?_
      refine .perform_bind hselect fun s' => ?_
      dsimp only
      cases hshare : s'.live.shares.rows.find? (·.isActiveFor cookbook.id caller.accountId) with
      | none => exact .inr (Coro.staged_raise _)
      | some share =>
        by_cases hrank : share.role.rank < minimum.rank
        · refine .inr ?_
          rw [Option.map_some]
          dsimp only
          rw [if_pos hrank]
          exact Coro.staged_raise _
        · refine .inl ⟨.inr ⟨share, List.mem_of_find?_eq_some hshare, ?_, Nat.le_of_not_lt hrank⟩, Coro.staged_nil _⟩
          rw [← hid]
          exact List.find?_some hshare

/-- What stands behind `_require_role`. -/
theorem staged_requireRole_bind {W : SharingOp → Prop} (hselect : ¬ W .select) {R : α → Prop}
    (f : ShareRole → Sharing α) :
    (requireRole t cookbookId caller minimum >>= f).Staged W R
      (.one fun _ s => HasRole t s.live caller cookbookId minimum) :=
  (staged_requireRole hselect).then

end Check

/-! ### What a request does -/

/-- A row by its identifier. -/
inductive SharingRow where
  | share (id : String)
  | grant (id : String)
  deriving DecidableEq, Repr

/-- The cookbook that a row belongs to. -/
def cookbookOf (db : SharingDb) : SharingRow → Option String
  | .share id => (db.shares.get id).map (·.cookbookId)
  | .grant id => (db.grants.get id).map (·.cookbookId)

/-- The row that a statement changes. -/
def changedRow : SharingOp → Option SharingRow
  | .setRole shareId _ | .revokeShare shareId _ => some (.share shareId)
  | .revokeGrant grantId _ => some (.grant grantId)
  | _ => none

/-- The row that a request names. -/
def SharingRequest.row : SharingRequest → Option SharingRow
  | .updateShare shareId _ | .revokeShare shareId => some (.share shareId)
  | .revokeGrant grantId => some (.grant grantId)
  | _ => none

/-- The statements that a request may come to. -/
def SharingCall.Allows (call : SharingCall) : SharingOp → Prop
  | .select | .commit => True
  | .insertShare share => share.cookbookId = call.cookbookId ∧ share.revokedAt = none ∧
    ∃ role, call.request = .createShare share.sharedWithAccountId role
  | .insertGrant grant => grant.cookbookId = call.cookbookId ∧ grant.revokedAt = none ∧
    ∃ provider scope tokenRef, call.request = .createGrant provider scope tokenRef
  | .insertCookbook _ | .updateCookbook .. => False
  | op => changedRow op = call.request.row

section Requests

variable {t : AccountTables} {call : SharingCall}

theorem every_requireRole_allows {cookbookId : String} {caller : SharingCaller} {minimum : ShareRole} :
    (requireRole t cookbookId caller minimum).Every call.Allows :=
  every_requireRole.mono fun op hop => by
    rw [hop]
    trivial

theorem every_canonicalOwnerAccountId (cookbook : Cookbook) :
    (canonicalOwnerAccountId t cookbook).Every call.Allows := by
  rw [canonicalOwnerAccountId]
  refine .ite (fun _ => trivial) fun _ => .ite (fun _ => ?_) fun _ => trivial
  exact ⟨trivial, fun _ => trivial⟩

theorem every_createShare {sharedWithAccountId role : String}
    (h : call.request = .createShare sharedWithAccountId role) :
    (createShare t call.cookbookId call.caller call.uuid call.now sharedWithAccountId role).Every call.Allows := by
  refine every_requireRole_allows.bind fun _ => ?_
  cases ShareRole.ofValue role with
  | none => trivial
  | some role' =>
    refine .bind ⟨trivial, fun _ => trivial⟩ fun found => ?_
    cases found with
    | none => trivial
    | some cookbook =>
      refine (every_canonicalOwnerAccountId cookbook).bind fun owner => .ite (fun _ => trivial) fun _ => ?_
      refine ⟨trivial, fun s' => .ite (fun _ => trivial) fun _ => .bind (.tryCatch ?_ ?_) fun _ => trivial⟩
      · refine ⟨⟨rfl, rfl, role, h⟩, fun s'' => .ite (fun _ => ?_) fun _ => trivial⟩
        exact ⟨trivial, fun _ => trivial⟩
      · intro e c hc
        cases e with
        | integrityError =>
          obtain rfl := Option.some.inj hc
          trivial
        | http status detail => cases hc
        | assertionError => cases hc

theorem every_createGrant {provider scope tokenRef : String}
    (h : call.request = .createGrant provider scope tokenRef) :
    (createGrant t call.cookbookId call.caller call.uuid call.now provider scope tokenRef).Every call.Allows := by
  refine every_requireRole_allows.bind fun _ => ?_
  cases RepoProvider.ofValue provider with
  | none => trivial
  | some provider' =>
    refine .ite (fun _ => trivial) fun _ => .ite (fun _ => trivial) fun _ => .bind ?_ fun _ => trivial
    refine ⟨⟨rfl, rfl, provider, scope, tokenRef, h⟩, fun s => .ite (fun _ => ?_) fun _ => trivial⟩
    exact ⟨trivial, fun _ => trivial⟩

theorem every_updateShare {shareId role : String} (h : call.request.row = some (.share shareId)) :
    (updateShare t call.cookbookId call.caller shareId role).Every call.Allows := by
  refine every_requireRole_allows.bind fun _ => ?_
  cases ShareRole.ofValue role with
  | none => trivial
  | some role =>
    refine .bind ⟨trivial, fun _ => trivial⟩ fun found => ?_
    cases found with
    | none => trivial
    | some existing =>
      refine .ite (fun _ => trivial) fun _ => .ite (fun _ => trivial) fun _ => .bind ?_ fun _ => ?_
      · exact ⟨h.symm, fun _ => ⟨trivial, fun _ => ⟨trivial, fun _ => trivial⟩⟩⟩
      · exact .ite (fun _ => trivial) fun _ => trivial

theorem every_revokeShare {shareId : String} (h : call.request.row = some (.share shareId)) :
    (revokeShare t call.cookbookId call.caller call.now shareId).Every call.Allows := by
  refine every_requireRole_allows.bind fun _ => .bind ⟨trivial, fun _ => trivial⟩ fun found => ?_
  cases found with
  | none => trivial
  | some existing =>
    refine .ite (fun _ => trivial) fun _ => .ite (fun _ => trivial) fun _ => ?_
    exact ⟨h.symm, fun _ => ⟨trivial, fun _ => ⟨trivial, fun _ => trivial⟩⟩⟩

theorem every_revokeGrant {grantId : String} (h : call.request.row = some (.grant grantId)) :
    (revokeGrant t call.cookbookId call.caller call.now grantId).Every call.Allows := by
  refine every_requireRole_allows.bind fun _ => .bind ⟨trivial, fun _ => trivial⟩ fun found => ?_
  cases found with
  | none => trivial
  | some existing =>
    refine .ite (fun _ => trivial) fun _ => .ite (fun _ => trivial) fun _ => ?_
    exact ⟨h.symm, fun _ => ⟨trivial, fun _ => ⟨trivial, fun _ => trivial⟩⟩⟩

theorem every_handle (call : SharingCall) : (call.handle t).Every call.Allows := by
  rw [SharingCall.handle]
  cases hrequest : call.request with
  | createShare sharedWithAccountId role => exact every_createShare hrequest
  | listShares => exact every_requireRole_allows.bind fun _ => ⟨trivial, fun _ => trivial⟩
  | updateShare shareId role => exact every_updateShare (by rw [hrequest]; rfl)
  | revokeShare shareId => exact every_revokeShare (by rw [hrequest]; rfl)
  | createGrant provider scope tokenRef => exact every_createGrant hrequest
  | listGrants includeRevoked => exact every_requireRole_allows.bind fun _ => ⟨trivial, fun _ => trivial⟩
  | revokeGrant grantId => exact every_revokeGrant (by rw [hrequest]; rfl)

/-- A request answers and writes only after a state in which its caller has the role it asks for. -/
theorem staged_role (call : SharingCall) {R : SharingAnswer → Prop} :
    (call.handle t).Staged IsWrite R
      (.one fun _ s => HasRole t s.live call.caller call.cookbookId call.request.minimum) := by
  rw [SharingCall.handle]
  have hselect : ¬ IsWrite .select := fun h => h
  cases hrequest : call.request <;> exact staged_requireRole_bind hselect _

/-- A row that is looked up and refused where it belongs to another cookbook. -/
theorem staged_lookup {ρ : Type} {row : SharingRow} {get : SharingDb → Option ρ} {cookbook : ρ → String}
    (hget : ∀ db, cookbookOf db row = (get db).map cookbook) {f : Option ρ → Sharing SharingAnswer}
    (hnone : ∃ e, f none = .raise e) (hother : ∀ r, cookbook r ≠ call.cookbookId → ∃ e, f (some r) = .raise e) :
    (Sharing.select get >>= f).Staged (changedRow · = some row) (fun _ => False)
      (.one fun _ s => cookbookOf s.live row = some call.cookbookId) := by
  refine ⟨fun h => (by cases h), fun s => ?_⟩
  change (cookbookOf s.live row = some call.cookbookId ∧ _) ∨ (f (get s.live)).Staged _ _ _
  cases hrow : get s.live with
  | none =>
    obtain ⟨e, he⟩ := hnone
    exact .inr (by rw [he]; exact Coro.staged_raise e)
  | some r =>
    by_cases hcookbook : cookbook r = call.cookbookId
    · exact .inl ⟨by rw [hget, hrow, ← hcookbook]; rfl, Coro.staged_nil _⟩
    · obtain ⟨e, he⟩ := hother r hcookbook
      exact .inr (by rw [he]; exact Coro.staged_raise e)

/-- A request changes a row only after a state in which the row belongs to the cookbook of its path. -/
theorem staged_row (call : SharingCall) (row : SharingRow) :
    (call.handle t).Staged (changedRow · = some row) (fun _ => False)
      (.one fun _ s => cookbookOf s.live row = some call.cookbookId) := by
  by_cases hrow : call.request.row = some row
  · have hcheck : (requireRole t call.cookbookId call.caller .owner).Every fun op => ¬ changedRow op = some row :=
      every_requireRole.mono fun op hop h => by
        rw [hop] at h
        cases h
    rw [SharingCall.handle]
    cases hrequest : call.request with
    | updateShare shareId role =>
      rw [hrequest] at hrow
      obtain rfl := Option.some.inj hrow
      refine .every_bind hcheck fun _ => ?_
      cases ShareRole.ofValue role with
      | none => exact Coro.staged_raise _
      | some role => exact staged_lookup (fun _ => rfl) ⟨_, rfl⟩ fun share hother => ⟨_, if_pos hother⟩
    | revokeShare shareId =>
      rw [hrequest] at hrow
      obtain rfl := Option.some.inj hrow
      refine .every_bind hcheck fun _ => ?_
      exact staged_lookup (fun _ => rfl) ⟨_, rfl⟩ fun share hother => ⟨_, if_pos hother⟩
    | revokeGrant grantId =>
      rw [hrequest] at hrow
      obtain rfl := Option.some.inj hrow
      refine .every_bind hcheck fun _ => ?_
      exact staged_lookup (fun _ => rfl) ⟨_, rfl⟩ fun grant hother => ⟨_, if_pos hother⟩
    | _ =>
      rw [hrequest] at hrow
      cases hrow
  · refine .of_every ((every_handle call).mono fun op hop h => ?_) fun _ h => h
    cases op
    case setRole => exact hrow (hop.symm.trans h)
    case revokeShare => exact hrow (hop.symm.trans h)
    case revokeGrant => exact hrow (hop.symm.trans h)
    all_goals cases h

/-- Only what an owner may do is written. -/
theorem minimum_of_allows {op : SharingOp} (hop : call.Allows op) (hwrite : IsWrite op) :
    call.request.minimum = .owner := by
  have hnamed : ∀ row, some row = call.request.row → call.request.minimum = .owner := by
    intro row hrow
    cases hrequest : call.request with
    | listShares =>
      rw [hrequest] at hrow
      cases hrow
    | listGrants includeRevoked =>
      rw [hrequest] at hrow
      cases hrow
    | _ => rfl
  cases op with
  | insertShare share =>
    obtain ⟨-, -, role, hrequest⟩ := hop
    rw [hrequest]
    rfl
  | insertGrant grant =>
    obtain ⟨-, -, provider, scope, tokenRef, hrequest⟩ := hop
    rw [hrequest]
    rfl
  | setRole shareId role => exact hnamed _ hop
  | revokeShare shareId now => exact hnamed _ hop
  | revokeGrant grantId now => exact hnamed _ hop
  | select => exact hwrite.elim
  | commit => exact hwrite.elim
  | insertCookbook cookbook => exact hop.elim
  | updateCookbook id name ownerId => exact hop.elim

end Requests

/-! ### Rows -/

/-- What may become of a share: its role changes, or it is revoked, while it is active. -/
def ShareBecomes (share share' : CookbookShare) : Prop :=
  share' = share ∨ share.revokedAt = none ∧ ∃ role revokedAt, share' = { share with role, revokedAt }

/-- What may become of a grant. -/
def GrantBecomes (grant grant' : RepoGrant) : Prop :=
  grant' = grant ∨ grant.revokedAt = none ∧ ∃ revokedAt, grant' = { grant with revokedAt }

/-- Every row is still there, and those that were revoked are as they were. -/
structure Keeps (db db' : SharingDb) : Prop where
  shares : ∀ share ∈ db.shares, ∃ share' ∈ db'.shares, ShareBecomes share share'
  grants : ∀ grant ∈ db.grants, ∃ grant' ∈ db'.grants, GrantBecomes grant grant'

/-- An account has at most one active share of a cookbook. -/
def OneActive (db : SharingDb) : Prop :=
  ∀ share ∈ db.shares.rows, ∀ share' ∈ db.shares.rows,
    share'.isActiveFor share.cookbookId share.sharedWithAccountId = true → share.revokedAt = none → share = share'

def sharesOf (db : SharingDb) (cookbookId : String) : List CookbookShare :=
  db.shares.rows.filter (·.cookbookId == cookbookId)

def grantsOf (db : SharingDb) (cookbookId : String) : List RepoGrant :=
  db.grants.rows.filter (·.cookbookId == cookbookId)

/-- The statement writes a row of the cookbook. -/
def Writes (db : SharingDb) (cookbookId : String) : SharingOp → Prop
  | .insertShare share => share.cookbookId = cookbookId
  | .insertGrant grant => grant.cookbookId = cookbookId
  | op => ∃ row ∈ changedRow op, cookbookOf db row = some cookbookId

section Rows

variable {t : AccountTables} {db db' db'' : SharingDb}

theorem ShareBecomes.trans {share share' share'' : CookbookShare} (h : ShareBecomes share share')
    (h' : ShareBecomes share' share'') : ShareBecomes share share'' := by
  rcases h with rfl | ⟨hactive, role, revokedAt, rfl⟩
  · exact h'
  · rcases h' with rfl | ⟨-, role', revokedAt', rfl⟩
    · exact .inr ⟨hactive, role, revokedAt, rfl⟩
    · exact .inr ⟨hactive, role', revokedAt', rfl⟩

theorem GrantBecomes.trans {grant grant' grant'' : RepoGrant} (h : GrantBecomes grant grant')
    (h' : GrantBecomes grant' grant'') : GrantBecomes grant grant'' := by
  rcases h with rfl | ⟨hactive, revokedAt, rfl⟩
  · exact h'
  · rcases h' with rfl | ⟨-, revokedAt', rfl⟩
    · exact .inr ⟨hactive, revokedAt, rfl⟩
    · exact .inr ⟨hactive, revokedAt', rfl⟩

theorem Keeps.refl (db : SharingDb) : Keeps db db :=
  ⟨fun share hshare => ⟨share, hshare, .inl rfl⟩, fun grant hgrant => ⟨grant, hgrant, .inl rfl⟩⟩

theorem Keeps.trans (h : Keeps db db') (h' : Keeps db' db'') : Keeps db db'' := by
  constructor
  · intro share hshare
    obtain ⟨share', hshare', hbecomes⟩ := h.shares share hshare
    obtain ⟨share'', hshare'', hbecomes'⟩ := h'.shares share' hshare'
    exact ⟨share'', hshare'', hbecomes.trans hbecomes'⟩
  · intro grant hgrant
    obtain ⟨grant', hgrant', hbecomes⟩ := h.grants grant hgrant
    obtain ⟨grant'', hgrant'', hbecomes'⟩ := h'.grants grant' hgrant'
    exact ⟨grant'', hgrant'', hbecomes.trans hbecomes'⟩

theorem shareBecomes_setRole (share : CookbookShare) (role : ShareRole) : ShareBecomes share (share.setRole role) := by
  rw [CookbookShare.setRole]
  split
  · rename_i hactive
    exact .inr ⟨hactive, role, share.revokedAt, rfl⟩
  · exact .inl rfl

theorem shareBecomes_revoke (share : CookbookShare) (now : Datetime) : ShareBecomes share (share.revoke now) := by
  rw [CookbookShare.revoke]
  split
  · rename_i hactive
    exact .inr ⟨hactive, share.role, some now, rfl⟩
  · exact .inl rfl

theorem grantBecomes_revoke (grant : RepoGrant) (now : Datetime) : GrantBecomes grant (grant.revoke now) := by
  rw [RepoGrant.revoke]
  split
  · rename_i hactive
    exact .inr ⟨hactive, some now, rfl⟩
  · exact .inl rfl

/-- A row that a statement may have changed. -/
theorem exists_amend {α : Type} [Keyed α] {table : Table α} {k : String} {f : α → α} (hf : ∀ r, key (f r) = key r)
    {B : α → α → Prop} (hrefl : ∀ r, B r r) (hB : ∀ r, B r (f r)) {r : α} (hr : r ∈ table) :
    ∃ r' ∈ table.amend k f hf, B r r' := by
  refine ⟨_, (Table.mem_amend hf).mpr ⟨r, hr, rfl⟩, ?_⟩
  split
  · exact hB r
  · exact hrefl r

theorem get_none_of_acceptsShare {share : CookbookShare} (h : db.acceptsShare t share = true) :
    db.shares.get share.id = none := by
  simp only [SharingDb.acceptsShare, Bool.and_eq_true, Option.isNone_iff_eq_none] at h
  exact h.1.1.1.1

theorem get_none_of_acceptsGrant {grant : RepoGrant} (h : db.acceptsGrant t grant = true) :
    db.grants.get grant.id = none := by
  simp only [SharingDb.acceptsGrant, Bool.and_eq_true, Option.isNone_iff_eq_none] at h
  exact h.1.1

/-- No statement deletes a row or changes one that is revoked. -/
theorem keeps_apply (op : SharingOp) (db : SharingDb) : Keeps db (op.apply t db) := by
  cases op with
  | insertShare share =>
    rw [SharingOp.apply]
    split
    · rename_i haccepts
      refine ⟨fun r hr => ⟨r, ?_, .inl rfl⟩, (Keeps.refl db).grants⟩
      exact (Table.mem_insert (get_none_of_acceptsShare haccepts)).mpr (.inl hr)
    · exact .refl db
  | insertGrant grant =>
    rw [SharingOp.apply]
    split
    · rename_i haccepts
      refine ⟨(Keeps.refl db).shares, fun r hr => ⟨r, ?_, .inl rfl⟩⟩
      exact (Table.mem_insert (get_none_of_acceptsGrant haccepts)).mpr (.inl hr)
    · exact .refl db
  | setRole shareId role =>
    refine ⟨fun r hr => ?_, (Keeps.refl db).grants⟩
    exact exists_amend (CookbookShare.key_setRole role) (fun _ => .inl rfl) (shareBecomes_setRole · role) hr
  | revokeShare shareId now =>
    refine ⟨fun r hr => ?_, (Keeps.refl db).grants⟩
    exact exists_amend (CookbookShare.key_revoke now) (fun _ => .inl rfl) (shareBecomes_revoke · now) hr
  | revokeGrant grantId now =>
    refine ⟨(Keeps.refl db).shares, fun r hr => ?_⟩
    exact exists_amend (RepoGrant.key_revoke now) (fun _ => .inl rfl) (grantBecomes_revoke · now) hr
  | select => exact .refl db
  | commit => exact .refl db
  | insertCookbook cookbook => exact ⟨(Keeps.refl db).shares, (Keeps.refl db).grants⟩
  | updateCookbook id name ownerId => exact ⟨(Keeps.refl db).shares, (Keeps.refl db).grants⟩

theorem cookbookId_of_shareBecomes {share share' : CookbookShare} (h : ShareBecomes share share') :
    share'.cookbookId = share.cookbookId := by
  rcases h with rfl | ⟨-, role, revokedAt, rfl⟩ <;> rfl

theorem cookbookId_of_grantBecomes {grant grant' : RepoGrant} (h : GrantBecomes grant grant') :
    grant'.cookbookId = grant.cookbookId := by
  rcases h with rfl | ⟨-, revokedAt, rfl⟩ <;> rfl

theorem Keeps.get_share (h : Keeps db db') {id : String} {share : CookbookShare}
    (hget : db.shares.get id = some share) :
    ∃ share', db'.shares.get id = some share' ∧ ShareBecomes share share' := by
  obtain ⟨hmem, hid⟩ := Table.get_eq_some_iff.mp hget
  obtain ⟨share', hmem', hbecomes⟩ := h.shares share hmem
  have hsame : share'.id = share.id := by rcases hbecomes with rfl | ⟨-, role, revokedAt, rfl⟩ <;> rfl
  exact ⟨share', Table.get_eq_some_iff.mpr ⟨hmem', hsame.trans hid⟩, hbecomes⟩

theorem Keeps.get_grant (h : Keeps db db') {id : String} {grant : RepoGrant}
    (hget : db.grants.get id = some grant) :
    ∃ grant', db'.grants.get id = some grant' ∧ GrantBecomes grant grant' := by
  obtain ⟨hmem, hid⟩ := Table.get_eq_some_iff.mp hget
  obtain ⟨grant', hmem', hbecomes⟩ := h.grants grant hmem
  have hsame : grant'.id = grant.id := by rcases hbecomes with rfl | ⟨-, revokedAt, rfl⟩ <;> rfl
  exact ⟨grant', Table.get_eq_some_iff.mpr ⟨hmem', hsame.trans hid⟩, hbecomes⟩

/-- A row stays with its cookbook. -/
theorem Keeps.cookbookOf_eq (h : Keeps db db') {row : SharingRow} {cookbookId : String}
    (hrow : cookbookOf db row = some cookbookId) : cookbookOf db' row = some cookbookId := by
  cases row with
  | share id =>
    obtain ⟨share, hget, rfl⟩ := Option.map_eq_some_iff.mp hrow
    obtain ⟨share', hget', hbecomes⟩ := h.get_share hget
    rw [cookbookOf, hget', Option.map_some, cookbookId_of_shareBecomes hbecomes]
  | grant id =>
    obtain ⟨grant, hget, rfl⟩ := Option.map_eq_some_iff.mp hrow
    obtain ⟨grant', hget', hbecomes⟩ := h.get_grant hget
    rw [cookbookOf, hget', Option.map_some, cookbookId_of_grantBecomes hbecomes]

theorem isActiveFor_iff {cookbookId accountId : String} {share : CookbookShare} :
    share.isActiveFor cookbookId accountId = true ↔
      share.cookbookId = cookbookId ∧ share.sharedWithAccountId = accountId ∧ share.revokedAt = none := by
  simp only [CookbookShare.isActiveFor, Bool.and_eq_true, beq_iff_eq, Option.isNone_iff_eq_none, and_assoc]

/-- Shares keep the cookbook, the account and the key; an active one has been active. -/
theorem OneActive.amend {f : CookbookShare → CookbookShare} {shareId : String} (h : OneActive db)
    (hf : ∀ share, key (f share) = key share) (hbecomes : ∀ share, ShareBecomes share (f share))
    (hdb : db'.shares = db.shares.amend shareId f hf) : OneActive db' := by
  have hback : ∀ share ∈ db'.shares, ∃ share₀ ∈ db.shares, key share = key share₀ ∧
      share.cookbookId = share₀.cookbookId ∧ share.sharedWithAccountId = share₀.sharedWithAccountId ∧
      (share.revokedAt = none → share₀.revokedAt = none) := by
    intro share hshare
    rw [hdb] at hshare
    obtain ⟨share₀, hshare₀, rfl⟩ := (Table.mem_amend hf).mp hshare
    refine ⟨share₀, hshare₀, ?_⟩
    split
    · rcases hbecomes share₀ with hsame | ⟨hactive, role, revokedAt, hf'⟩
      · rw [hsame]
        exact ⟨rfl, rfl, rfl, id⟩
      · refine ⟨hf share₀, ?_⟩
        rw [hf']
        exact ⟨rfl, rfl, fun _ => hactive⟩
    · exact ⟨rfl, rfl, rfl, id⟩
  intro share hshare share' hshare' hactive' hactive
  obtain ⟨share₀, hmem, hkey, hcookbook, haccount, hrevoked⟩ := hback share hshare
  obtain ⟨share₀', hmem', hkey', hcookbook', haccount', hrevoked'⟩ := hback share' hshare'
  obtain ⟨hc, ha, hr⟩ := isActiveFor_iff.mp hactive'
  have hsame : share₀ = share₀' := by
    refine h share₀ hmem share₀' hmem' (isActiveFor_iff.mpr ⟨?_, ?_, hrevoked' hr⟩) (hrevoked hactive)
    · rw [← hcookbook', hc, hcookbook]
    · rw [← haccount', ha, haccount]
  exact Table.eq_of_key_eq hshare hshare' (by rw [hkey, hkey', hsame])

/-- The unique index keeps an account from a second share. -/
theorem oneActive_apply (op : SharingOp) (h : OneActive db) : OneActive (op.apply t db) := by
  cases op with
  | insertShare share =>
    rw [SharingOp.apply]
    split
    · rename_i haccepts
      have hfresh := get_none_of_acceptsShare haccepts
      have hindex : share.revokedAt = none → ∀ row ∈ db.shares.rows,
          ¬ row.isActiveFor share.cookbookId share.sharedWithAccountId = true := by
        intro hactive row hrow hother
        rw [SharingDb.acceptsShare, Bool.and_eq_true, Bool.not_eq_true', hactive] at haccepts
        have hnone := haccepts.2
        rw [Option.isNone_none, Bool.true_and, List.any_eq_false] at hnone
        exact hnone row hrow hother
      intro row hrow row' hrow' hother hactive
      rcases (Table.mem_insert hfresh).mp hrow with hold | rfl
      · rcases (Table.mem_insert hfresh).mp hrow' with hold' | rfl
        · exact h row hold row' hold' hother hactive
        · obtain ⟨hcookbook, haccount, hrevoked⟩ := isActiveFor_iff.mp hother
          exact absurd (isActiveFor_iff.mpr ⟨hcookbook.symm, haccount.symm, hactive⟩) (hindex hrevoked row hold)
      · rcases (Table.mem_insert hfresh).mp hrow' with hold' | rfl
        · exact absurd hother (hindex hactive row' hold')
        · rfl
    · exact h
  | setRole shareId role => exact h.amend (CookbookShare.key_setRole role) (shareBecomes_setRole · role) rfl
  | revokeShare shareId now => exact h.amend (CookbookShare.key_revoke now) (shareBecomes_revoke · now) rfl
  | insertGrant grant =>
    rw [SharingOp.apply]
    split <;> exact h
  | revokeGrant grantId now => exact h
  | select => exact h
  | commit => exact h
  | insertCookbook cookbook => exact h
  | updateCookbook id name ownerId => exact h

theorem filter_concat_of_eq_false {α : Type} {rows : List α} {r : α} {p : α → Bool} (h : p r = false) :
    (rows ++ [r]).filter p = rows.filter p := by
  rw [List.filter_append, List.filter_cons, h, List.filter_nil]
  exact List.append_nil _

/-- Rows of which an amendment touches none. -/
theorem filter_amend {α : Type} [Keyed α] {table : Table α} {k : String} {f : α → α} (hf : ∀ r, key (f r) = key r)
    {p : α → Bool} (hp : ∀ r, p (f r) = p r) (hk : ∀ r ∈ table.get k, p r = false) :
    (table.amend k f hf).rows.filter p = table.rows.filter p := by
  have hother : ∀ r ∈ table.rows.filter p, (if key r = k then f r else r) = r := by
    intro r hr
    obtain ⟨hmem, hpr⟩ := List.mem_filter.mp hr
    rw [if_neg]
    intro hkey
    rw [hk r (Table.get_eq_some_iff.mpr ⟨hmem, hkey⟩)] at hpr
    cases hpr
  have hsame : (p ∘ fun r => if key r = k then f r else r) = p := by
    funext r
    rw [Function.comp]
    split
    · exact hp r
    · rfl
  change (table.rows.map fun r => if key r = k then f r else r).filter p = _
  rw [List.filter_map, hsame]
  exact (List.map_congr_left hother).trans (List.map_id _)

theorem sharesOf_amend {cookbookId shareId : String} {f : CookbookShare → CookbookShare}
    (hf : ∀ share, key (f share) = key share) (hbecomes : ∀ share, ShareBecomes share (f share))
    (h : cookbookOf db (.share shareId) ≠ some cookbookId) (hdb : db'.shares = db.shares.amend shareId f hf) :
    sharesOf db' cookbookId = sharesOf db cookbookId := by
  rw [sharesOf, hdb]
  refine filter_amend hf (fun share => by rw [cookbookId_of_shareBecomes (hbecomes share)]) fun share hshare => ?_
  rw [beq_eq_false_iff_ne]
  rintro rfl
  exact h (by rw [cookbookOf, hshare, Option.map_some])

theorem grantsOf_amend {cookbookId grantId : String} {f : RepoGrant → RepoGrant}
    (hf : ∀ grant, key (f grant) = key grant) (hbecomes : ∀ grant, GrantBecomes grant (f grant))
    (h : cookbookOf db (.grant grantId) ≠ some cookbookId) (hdb : db'.grants = db.grants.amend grantId f hf) :
    grantsOf db' cookbookId = grantsOf db cookbookId := by
  rw [grantsOf, hdb]
  refine filter_amend hf (fun grant => by rw [cookbookId_of_grantBecomes (hbecomes grant)]) fun grant hgrant => ?_
  rw [beq_eq_false_iff_ne]
  rintro rfl
  exact h (by rw [cookbookOf, hgrant, Option.map_some])

/-- A statement that writes no row of a cookbook leaves its shares and grants alone. -/
theorem unchanged_of_not_writes {op : SharingOp} {cookbookId : String} (h : ¬ Writes db cookbookId op) :
    sharesOf (op.apply t db) cookbookId = sharesOf db cookbookId ∧
      grantsOf (op.apply t db) cookbookId = grantsOf db cookbookId := by
  have hrow : ∀ row, changedRow op = some row → (∀ share, op ≠ .insertShare share) →
      (∀ grant, op ≠ .insertGrant grant) → cookbookOf db row ≠ some cookbookId := by
    intro row hchanged hshare hgrant hcookbook
    cases op with
    | insertShare share => exact hshare share rfl
    | insertGrant grant => exact hgrant grant rfl
    | setRole => exact h ⟨row, hchanged, hcookbook⟩
    | revokeShare => exact h ⟨row, hchanged, hcookbook⟩
    | revokeGrant => exact h ⟨row, hchanged, hcookbook⟩
    | select => cases hchanged
    | commit => cases hchanged
    | insertCookbook => cases hchanged
    | updateCookbook => cases hchanged
  cases op with
  | insertShare share =>
    rw [SharingOp.apply]
    split
    · rename_i haccepts
      refine ⟨?_, rfl⟩
      rw [sharesOf, Table.rows_insert (get_none_of_acceptsShare haccepts)]
      exact filter_concat_of_eq_false (beq_eq_false_iff_ne.mpr h)
    · exact ⟨rfl, rfl⟩
  | insertGrant grant =>
    rw [SharingOp.apply]
    split
    · rename_i haccepts
      refine ⟨rfl, ?_⟩
      rw [grantsOf, Table.rows_insert (get_none_of_acceptsGrant haccepts)]
      exact filter_concat_of_eq_false (beq_eq_false_iff_ne.mpr h)
    · exact ⟨rfl, rfl⟩
  | setRole shareId role =>
    refine ⟨sharesOf_amend (CookbookShare.key_setRole role) (shareBecomes_setRole · role) ?_ rfl, rfl⟩
    exact hrow _ rfl (fun _ h => by cases h) fun _ h => by cases h
  | revokeShare shareId now =>
    refine ⟨sharesOf_amend (CookbookShare.key_revoke now) (shareBecomes_revoke · now) ?_ rfl, rfl⟩
    exact hrow _ rfl (fun _ h => by cases h) fun _ h => by cases h
  | revokeGrant grantId now =>
    refine ⟨rfl, grantsOf_amend (RepoGrant.key_revoke now) (grantBecomes_revoke · now) ?_ rfl⟩
    exact hrow _ rfl (fun _ h => by cases h) fun _ h => by cases h
  | select => exact ⟨rfl, rfl⟩
  | commit => exact ⟨rfl, rfl⟩
  | insertCookbook cookbook => exact ⟨rfl, rfl⟩
  | updateCookbook id name ownerId => exact ⟨rfl, rfl⟩

theorem isWrite_of_writes {op : SharingOp} {cookbookId : String} (h : Writes db cookbookId op) : IsWrite op := by
  cases op with
  | select => obtain ⟨row, hrow, -⟩ := h; cases hrow
  | commit => obtain ⟨row, hrow, -⟩ := h; cases hrow
  | insertCookbook cookbook => obtain ⟨row, hrow, -⟩ := h; cases hrow
  | updateCookbook id name ownerId => obtain ⟨row, hrow, -⟩ := h; cases hrow
  | _ => trivial

theorem not_writes_of_isOutside {op : SharingOp} {cookbookId : String} (h : IsOutside op) :
    ¬ Writes db cookbookId op := by
  intro hwrites
  have hwrite := isWrite_of_writes hwrites
  cases op <;> first | exact hwrite | exact h

/-- What a request writes is of its cookbook, where the row that it names is. -/
theorem cookbookId_of_writes {call : SharingCall} {op : SharingOp} {cookbookId : String} (hop : call.Allows op)
    (h : Writes db cookbookId op)
    (hrow : ∀ row, changedRow op = some row → cookbookOf db row = some call.cookbookId) :
    call.cookbookId = cookbookId := by
  have hnamed : (∃ row ∈ changedRow op, cookbookOf db row = some cookbookId) → call.cookbookId = cookbookId := by
    rintro ⟨row, hchanged, hcookbook⟩
    rw [hrow row hchanged] at hcookbook
    exact Option.some.inj hcookbook
  cases op with
  | insertShare share => exact hop.1.symm.trans h
  | insertGrant grant => exact hop.1.symm.trans h
  | _ => exact hnamed h

end Rows

/-! ### Runs -/

section Runs

variable {ι κ : Type} [DecidableEq ι] [DecidableEq κ] {t : AccountTables} {calls : ι → SharingCall}
  {others : κ → CookbookWriter} {db : SharingDb}

/-- What the coroutines of the pool may come to. -/
def Allowed (calls : ι → SharingCall) : ι ⊕ κ → SharingOp → Prop
  | .inl i, op => (calls i).Allows op
  | .inr _, op => IsOutside op

omit [DecidableEq ι] [DecidableEq κ] in
theorem each_sharingPool : Pool.Each (Allowed calls) (sharingPool t calls others db) := by
  refine Pool.each_init (fun i => ?_) _
  cases i with
  | inl i => exact (every_handle (calls i)).bind fun _ => trivial
  | inr k => exact (others k).isOutside.bind fun _ => trivial

/-- A request has taken a turn of its own at which its caller had the role that it asks for. -/
def Checked (t : AccountTables) (calls : ι → SharingCall)
    (pool : Pool (ι ⊕ κ) SharingStore SharingOp SharingExn (Option SharingAnswer)) (i : ι)
    (turns : List (Turn (ι ⊕ κ))) : Prop :=
  ∃ before after, turns = before ++ .run (.inl i) :: after ∧
    (pool.run (SharingOp.exec t) SharingStore.recover before).nextOp (.inl i) ≠ none ∧
    HasRole t (pool.run (SharingOp.exec t) SharingStore.recover before).state.live (calls i).caller
      (calls i).cookbookId (calls i).request.minimum

/-- The tables are in order, and nothing that is on the disk goes away. -/
structure InOrder (s : SharingStore) : Prop where
  live : OneActive s.live
  disk : OneActive s.disk
  ahead : Keeps s.disk s.live

theorem InOrder.exec {s : SharingStore} (h : InOrder s) (op : SharingOp) :
    InOrder (op.exec t s) ∧ Keeps s.disk (op.exec t s).disk := by
  have hlive : OneActive (op.apply t s.live) := oneActive_apply op h.live
  have hahead : Keeps s.disk (op.apply t s.live) := h.ahead.trans (keeps_apply op s.live)
  cases op with
  | commit => exact ⟨⟨hlive, h.live, .refl s.live⟩, h.ahead⟩
  | _ => exact ⟨⟨hlive, h.disk, hahead⟩, .refl s.disk⟩

theorem InOrder.recover {s : SharingStore} (h : InOrder s) : InOrder s.recover := ⟨h.disk, h.disk, .refl s.disk⟩

theorem inOrder_run {pool : Pool (ι ⊕ κ) SharingStore SharingOp SharingExn (Option SharingAnswer)}
    (h : InOrder pool.state) (turns : List (Turn (ι ⊕ κ))) :
    InOrder (pool.run (SharingOp.exec t) SharingStore.recover turns).state ∧
      Keeps pool.state.disk (pool.run (SharingOp.exec t) SharingStore.recover turns).state.disk := by
  refine Pool.rel_run (P := fun _ _ => True) (G := fun _ _ _ => True)
    (R := fun s s' => InOrder s → InOrder s' ∧ Keeps s.disk s'.disk) (fun s h => ⟨h, .refl s.disk⟩)
    (fun s s' s'' hR hR' h => ?_) (fun _ op s _ _ h => h.exec op)
    (fun s h => ⟨h.recover, .refl s.disk⟩) (fun _ c _ => c.every_true)
    (Pool.along_true turns) h
  obtain ⟨horder, hkeeps⟩ := hR h
  obtain ⟨horder', hkeeps'⟩ := hR' horder
  exact ⟨horder', hkeeps.trans hkeeps'⟩

theorem keeps_run {pool : Pool (ι ⊕ κ) SharingStore SharingOp SharingExn (Option SharingAnswer)}
    {turns : List (Turn (ι ⊕ κ))} (hturns : .crash ∉ turns) :
    Keeps pool.state.live (pool.run (SharingOp.exec t) SharingStore.recover turns).state.live :=
  Pool.rel_run_of_not_crash (P := fun _ _ => True) (R := fun s s' : SharingStore => Keeps s.live s'.live)
    (fun s => .refl s.live) (fun _ _ _ h h' => Keeps.trans h h') (fun _ op s _ _ => keeps_apply op s.live)
    (fun _ c _ => c.every_true) (Pool.along_true turns) hturns

theorem checked_of_came {pool : Pool (ι ⊕ κ) SharingStore SharingOp SharingExn (Option SharingAnswer)} {i : ι}
    {turns : List (Turn (ι ⊕ κ))} (h : pool.Came (SharingOp.exec t) SharingStore.recover (.inl i)
      (.one fun _ s => HasRole t s.live (calls i).caller (calls i).cookbookId (calls i).request.minimum) turns) :
    Checked t calls pool i turns := by
  obtain ⟨before, after, hturns, ⟨op, hop, hrole⟩, -⟩ := h
  refine ⟨before, after, hturns, fun hnone => ?_, hrole⟩
  rw [hnone] at hop
  cases hop

/-- A row that a request has found to be of its cookbook is of that cookbook while the request goes on. -/
theorem cookbookOf_of_came {pool : Pool (ι ⊕ κ) SharingStore SharingOp SharingExn (Option SharingAnswer)}
    {j : ι ⊕ κ} {row : SharingRow} {cookbookId : String} {turns : List (Turn (ι ⊕ κ))} {op : SharingOp}
    {next : SharingStore → Coro SharingStore SharingOp SharingExn (Option SharingAnswer)}
    (h : pool.Came (SharingOp.exec t) SharingStore.recover j
      (.one fun _ s => cookbookOf s.live row = some cookbookId) turns)
    (hawaits : (pool.run (SharingOp.exec t) SharingStore.recover turns).awaits j op next) :
    cookbookOf (pool.run (SharingOp.exec t) SharingStore.recover turns).state.live row = some cookbookId := by
  obtain ⟨before, after, rfl, ⟨op', hop', hrow⟩, -⟩ := h
  rw [Pool.run_append] at hawaits ⊢
  exact (keeps_run (Pool.not_crash_of_nextOp hop' hawaits.nextOp)).cookbookOf_eq hrow

/-- A turn that changes the shares or grants of a cookbook is a statement that writes them. -/
theorem exists_writes_of_changed {pool : Pool (ι ⊕ κ) SharingStore SharingOp SharingExn (Option SharingAnswer)}
    {turn : Turn (ι ⊕ κ)} {cookbookId : String} (hturn : turn ≠ .crash)
    (h : sharesOf (pool.take (SharingOp.exec t) SharingStore.recover turn).state.live cookbookId ≠
        sharesOf pool.state.live cookbookId ∨
      grantsOf (pool.take (SharingOp.exec t) SharingStore.recover turn).state.live cookbookId ≠
        grantsOf pool.state.live cookbookId) :
    ∃ j op next, turn = .run j ∧ pool.awaits j op next ∧ Writes pool.state.live cookbookId op := by
  cases turn with
  | crash => exact absurd rfl hturn
  | cancel j => exact absurd h (by simp [Pool.take])
  | run j =>
    by_cases hawaits : ∃ op next, pool.awaits j op next
    · obtain ⟨op, next, hawaits⟩ := hawaits
      refine ⟨j, op, next, rfl, hawaits, ?_⟩
      by_contra hnot
      obtain ⟨hshares, hgrants⟩ := unchanged_of_not_writes (t := t) hnot
      rw [Pool.take_run hawaits] at h
      exact h.elim (fun h => h hshares) fun h => h hgrants
    · push Not at hawaits
      rw [Pool.take_run_of_not_awaits hawaits] at h
      exact absurd h (by simp)

omit [DecidableEq ι] [DecidableEq κ] in
theorem mem_thread_sharingPool {i : ι} {c : Coro SharingStore SharingOp SharingExn (Option SharingAnswer)}
    (h : c ∈ (sharingPool t calls others db).thread (.inl i)) :
    c = (calls i).handle t >>= fun answer => return some answer := (Option.some.inj h).symm

/-- **Whatever the requests, the schedule, the cancellations and the crashes: a request is answered, and the shares
and grants of a cookbook change, only by a request on that cookbook that has met, at a turn of its own, a state in
which its caller had the role the endpoint asks for, the owner's for a change. No row goes away or changes once it is
revoked, on the disk not even by a crash, and an account has at most one active share of a cookbook.** -/
theorem sharing_mediated (hdb : OneActive db) (turns : List (Turn (ι ⊕ κ))) :
    let pool := sharingPool t calls others db
    let reached := pool.run (SharingOp.exec t) SharingStore.recover turns
    (∀ i answer, reached.returned (.inl i) (some answer) → Checked t calls pool i turns) ∧
      (∀ turn, turn ≠ .crash → ∀ cookbookId,
        let next := reached.take (SharingOp.exec t) SharingStore.recover turn
        sharesOf next.state.live cookbookId ≠ sharesOf reached.state.live cookbookId ∨
          grantsOf next.state.live cookbookId ≠ grantsOf reached.state.live cookbookId →
        ∃ i, turn = .run (.inl i) ∧ (calls i).cookbookId = cookbookId ∧ (calls i).request.minimum = .owner ∧
          Checked t calls pool i turns) ∧
      (∀ later, let further := reached.run (SharingOp.exec t) SharingStore.recover later
        Keeps reached.state.disk further.state.disk ∧ Keeps reached.state.disk further.state.live ∧
          (.crash ∉ later → Keeps reached.state.live further.state.live)) ∧
      OneActive reached.state.live ∧ OneActive reached.state.disk := by
  intro pool reached
  have horder : InOrder reached.state := (inOrder_run ⟨hdb, hdb, .refl db⟩ turns).1
  have hrole : ∀ i, ∀ c ∈ pool.thread (.inl i), c.Staged IsWrite (fun answer => answer.isSome = true)
      (.one fun _ s => HasRole t s.live (calls i).caller (calls i).cookbookId (calls i).request.minimum) := by
    intro i c hc
    rw [mem_thread_sharingPool hc]
    exact (staged_role (calls i)).map
  refine ⟨fun i answer hreturned => ?_, ?_, fun later => ?_, horder.live, horder.disk⟩
  · exact checked_of_came (Pool.came_of_returned (hrole i) hreturned rfl)
  · intro turn hturn cookbookId next hchanged
    obtain ⟨j, op, rest, rfl, hawaits, hwrites⟩ := exists_writes_of_changed hturn hchanged
    have hallowed : Allowed calls j op := (each_sharingPool.run turns j _ hawaits).1
    cases j with
    | inr k => exact absurd hwrites (not_writes_of_isOutside hallowed)
    | inl i =>
      have hwrite : IsWrite op := isWrite_of_writes hwrites
      refine ⟨i, rfl, ?_, minimum_of_allows hallowed hwrite,
        checked_of_came (Pool.came_of_awaits (hrole i) hawaits hwrite)⟩
      refine cookbookId_of_writes hallowed hwrites fun row hrow => ?_
      refine cookbookOf_of_came (Pool.came_of_awaits (W := (changedRow · = some row)) (R := fun _ => False)
        (fun c hc => ?_) hawaits hrow) hawaits
      rw [mem_thread_sharingPool hc]
      exact (staged_row (calls i) row).map
  · obtain ⟨horder', hkeeps⟩ := inOrder_run (t := t) horder later
    exact ⟨hkeeps, hkeeps.trans horder'.ahead, fun hlater => keeps_run hlater⟩

end Runs

/-! ### A stranger among the requests -/

instance : DecidablePred OneActive := fun db =>
  inferInstanceAs (Decidable (∀ share ∈ db.shares.rows, ∀ share' ∈ db.shares.rows,
    share'.isActiveFor share.cookbookId share.sharedWithAccountId = true → share.revokedAt = none → share = share'))

def noon : Datetime where
  year := 2025
  month := 3
  day := 1
  hour := 12
  minute := 0
  second := 0
  microsecond := 0

def bobsShare : CookbookShare where
  id := "shr_1"
  cookbookId := "cb_1"
  sharedWithAccountId := "acc_bob"
  role := .member
  sharedByAccountId := "acc_ada"
  sharedAt := noon

def adasCookbook : SharingDb where
  cookbooks := (∅ : Table Cookbook).insert { id := "cb_1", name := "recipes", ownerId := "acc_ada", createdAt := noon }
  shares := (∅ : Table CookbookShare).insert bobsShare

/-- Ada revokes the share of Bob; Bob changes it. -/
def adaAndBob : Bool → SharingCall
  | true => ⟨"cb_1", { accountId := "acc_ada" }, .revokeShare "shr_1", "1", noon⟩
  | false => ⟨"cb_1", { accountId := "acc_bob" }, .updateShare "shr_1" "owner", "2", noon⟩

def quietTables : AccountTables where
  accounts := ["acc_ada", "acc_bob"]

def adasPool : Pool (Bool ⊕ Empty) SharingStore SharingOp SharingExn (Option SharingAnswer) :=
  sharingPool quietTables adaAndBob (fun k => k.elim) adasCookbook

/-- Ada's request up to its answer. -/
def adaAnswered : List (Turn (Bool ⊕ Empty)) := List.replicate 5 (.run (.inl true))

theorem sharing_mediated_adasPool :
    Checked quietTables adaAndBob adasPool true adaAnswered ∧
      OneActive (adasPool.run (SharingOp.exec quietTables) SharingStore.recover adaAnswered).state.disk := by
  obtain ⟨hanswered, -, -, -, hdisk⟩ := @sharing_mediated Bool Empty _ _ quietTables adaAndBob (fun k => k.elim)
    adasCookbook (by decide) adaAnswered
  exact ⟨hanswered true (.share (some (bobsShare.revoke noon))) (by decide +kernel), hdisk⟩

end CookbookSharing

end Krewhub
