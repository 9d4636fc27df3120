import Krewhub.Routes.SharingAuthority

/-!
# Access ends with the share

A share is revoked while other requests are under way, and the server may go down at any time after. Once the
request that revokes it has been answered, the account has no share of the cookbook any more, neither in the tables
nor on the disk, because it had only that one: so whatever it asks for from then on is refused, until a request
shares the cookbook with it again or it comes to own the cookbook.

A request that finds the share revoked already promises nothing of this: it answers without a commit of its own,
possibly before the one that revoked the share has come to its commit.
-/

namespace Krewhub

namespace CookbookSharing

section Account

variable (cookbookId accountId : String)

/-- The statement does not share the cookbook with the account. -/
def NotShared : SharingOp → Prop
  | .insertShare share => ¬ (share.cookbookId = cookbookId ∧ share.sharedWithAccountId = accountId)
  | _ => True

/-- The account has no share of the cookbook. -/
def NoShare (db : SharingDb) : Prop := ∀ share ∈ db.shares.rows, ¬ share.isActiveFor cookbookId accountId = true

/-- The account has no share of the cookbook but one. -/
def OnlyShare (shareId : String) (db : SharingDb) : Prop :=
  ∀ share ∈ db.shares.rows, share.isActiveFor cookbookId accountId = true → share.id = shareId

def Revoked (db : SharingDb) (shareId : String) : Prop := ∃ share ∈ db.shares.get shareId, share.revokedAt ≠ none

variable {cookbookId accountId} {t : AccountTables} {db db' : SharingDb} {shareId : String}

/-- A share of the account has been one before. -/
theorem exists_active_before {op : SharingOp} (hop : NotShared cookbookId accountId op) {share : CookbookShare}
    (hshare : share ∈ (op.apply t db).shares) (hactive : share.isActiveFor cookbookId accountId = true) :
    ∃ share₀ ∈ db.shares, share₀.id = share.id ∧ share₀.isActiveFor cookbookId accountId = true := by
  have hamend : ∀ (id : String) (f : CookbookShare → CookbookShare) (hf : ∀ share, key (f share) = key share),
      (∀ share, ShareBecomes share (f share)) → share ∈ db.shares.amend id f hf →
      ∃ share₀ ∈ db.shares, share₀.id = share.id ∧ share₀.isActiveFor cookbookId accountId = true := by
    intro id f hf hbecomes hshare
    obtain ⟨share₀, hshare₀, rfl⟩ := (Table.mem_amend hf).mp hshare
    refine ⟨share₀, hshare₀, ?_⟩
    split at hactive
    · rename_i hkey
      rw [if_pos hkey]
      obtain ⟨hcookbook, haccount, hnone⟩ := isActiveFor_iff.mp hactive
      rcases hbecomes share₀ with hsame | ⟨hnone₀, role, revokedAt, hf'⟩
      · rw [hsame] at hactive ⊢
        exact ⟨rfl, hactive⟩
      · rw [hf'] at hcookbook haccount ⊢
        exact ⟨rfl, isActiveFor_iff.mpr ⟨hcookbook, haccount, hnone₀⟩⟩
    · rename_i hkey
      rw [if_neg hkey]
      exact ⟨rfl, hactive⟩
  cases op with
  | insertShare row =>
    rw [SharingOp.apply] at hshare
    split at hshare
    · rename_i haccepts
      rcases (Table.mem_insert (get_none_of_acceptsShare haccepts)).mp hshare with hold | rfl
      · exact ⟨share, hold, rfl, hactive⟩
      · obtain ⟨hcookbook, haccount, -⟩ := isActiveFor_iff.mp hactive
        exact absurd ⟨hcookbook, haccount⟩ hop
    · exact ⟨share, hshare, rfl, hactive⟩
  | setRole id role => exact hamend id _ (CookbookShare.key_setRole role) (shareBecomes_setRole · role) hshare
  | revokeShare id now => exact hamend id _ (CookbookShare.key_revoke now) (shareBecomes_revoke · now) hshare
  | insertGrant grant =>
    rw [SharingOp.apply] at hshare
    split at hshare <;> exact ⟨share, hshare, rfl, hactive⟩
  | revokeGrant id now => exact ⟨share, hshare, rfl, hactive⟩
  | select => exact ⟨share, hshare, rfl, hactive⟩
  | commit => exact ⟨share, hshare, rfl, hactive⟩
  | insertCookbook cookbook => exact ⟨share, hshare, rfl, hactive⟩
  | updateCookbook id name ownerId => exact ⟨share, hshare, rfl, hactive⟩

theorem NoShare.apply {op : SharingOp} (h : NoShare cookbookId accountId db)
    (hop : NotShared cookbookId accountId op) : NoShare cookbookId accountId (op.apply t db) := by
  intro share hshare hactive
  obtain ⟨share₀, hshare₀, -, hactive₀⟩ := exists_active_before hop hshare hactive
  exact h share₀ hshare₀ hactive₀

theorem OnlyShare.apply {op : SharingOp} (h : OnlyShare cookbookId accountId shareId db)
    (hop : NotShared cookbookId accountId op) : OnlyShare cookbookId accountId shareId (op.apply t db) := by
  intro share hshare hactive
  obtain ⟨share₀, hshare₀, hid, hactive₀⟩ := exists_active_before hop hshare hactive
  exact hid.symm.trans (h share₀ hshare₀ hactive₀)

theorem Revoked.of_keeps (h : Revoked db shareId) (hkeeps : Keeps db db') : Revoked db' shareId := by
  obtain ⟨share, hget, hrevoked⟩ := h
  obtain ⟨share', hget', hbecomes⟩ := hkeeps.get_share hget
  rcases hbecomes with rfl | ⟨hnone, -⟩
  · exact ⟨share', hget', hrevoked⟩
  · exact absurd hnone hrevoked

/-- The one share of an account is revoked. -/
theorem OnlyShare.noShare (h : OnlyShare cookbookId accountId shareId db) (hrevoked : Revoked db shareId) :
    NoShare cookbookId accountId db := by
  intro share hshare hactive
  obtain ⟨share', hget, hnot⟩ := hrevoked
  obtain ⟨hmem, hid⟩ := Table.get_eq_some_iff.mp hget
  obtain rfl := Table.eq_of_key_eq hshare hmem ((h share hshare hactive).trans hid.symm)
  exact hnot (isActiveFor_iff.mp hactive).2.2

theorem onlyShare_of_oneActive (h : OneActive db) {share : CookbookShare} (hshare : share ∈ db.shares)
    (hactive : share.revokedAt = none) : OnlyShare share.cookbookId share.sharedWithAccountId share.id db := by
  intro share' hshare' hactive'
  rw [h share hshare share' hshare' hactive' hactive]

theorem revoked_apply_revokeShare {now : Datetime} {share : CookbookShare} (h : db.shares.get shareId = some share) :
    Revoked ((SharingOp.revokeShare shareId now).apply t db) shareId := by
  refine ⟨share.revoke now, ?_, ?_⟩
  · rw [SharingOp.apply, Table.get_amend_self, h]
    rfl
  · rw [CookbookShare.revoke]
    split
    · exact Option.some_ne_none now
    · assumption

end Account

/-! ### The request that revokes -/

section Request

variable {t : AccountTables} {call : SharingCall} {share : CookbookShare}

/-- What a request has gone through that has revoked a share and answers with its row: the row was active when it
looked it up, its update, its commit, and the row as it is afterwards. -/
def revokeStages (share : CookbookShare) (now : Datetime) : Stages SharingStore SharingOp :=
  .cons (fun _ s => ∃ existing ∈ s.live.shares.get share.id, existing.revokedAt = none) fun _ =>
    .cons (fun op _ => op = .revokeShare share.id now) fun _ =>
      .cons (fun op _ => op = .commit) fun _ => .one fun _ s => s.live.shares.get share.id = some share

theorem staged_revokeShare (h : call.request = .revokeShare share.id) :
    (call.handle t).Staged (fun _ => False) (· = .share (some share)) (revokeStages share call.now) := by
  rw [SharingCall.handle, h]
  refine .every_bind (every_requireRole.mono fun _ _ h => h) fun _ => .perform_bind (fun h => h) fun s => ?_
  dsimp only
  cases s.live.shares.get share.id with
  | none => exact .inr (Coro.staged_raise _)
  | some existing =>
    dsimp only
    by_cases hcookbook : existing.cookbookId ≠ call.cookbookId
    · refine .inr ?_
      rw [if_pos hcookbook]
      exact Coro.staged_raise _
    · rw [if_neg hcookbook]
      cases hrevoked : existing.revokedAt with
      | some now =>
        refine .inr ?_
        rw [if_pos (by rfl)]
        exact Coro.staged_done fun h => by cases h
      | none =>
        refine .inl ⟨⟨existing, rfl, hrevoked⟩, ?_⟩
        rw [if_neg (by rw [Option.isSome_none]; exact Bool.false_ne_true)]
        refine ⟨fun h => h, fun _ => .inl ⟨rfl, fun h => h, fun _ => .inl ⟨rfl, fun h => h, fun s' => ?_⟩⟩⟩
        by_cases hsame : s'.live.shares.get share.id = some share
        · exact .inl ⟨hsame, Coro.staged_nil _⟩
        · refine .inr (Coro.staged_done fun h => hsame ?_)
          exact SharingAnswer.share.inj h

end Request

/-! ### After it -/

section Runs

variable {ι κ : Type} [DecidableEq ι] [DecidableEq κ] {t : AccountTables} {calls : ι → SharingCall}
  {others : κ → CookbookWriter} {cookbookId accountId : String}
  {pool : Pool (ι ⊕ κ) SharingStore SharingOp SharingExn (Option SharingAnswer)} {turns : List (Turn (ι ⊕ κ))}

/-- The account has no share, and will have none after a crash. -/
def NoShareLeft (cookbookId accountId : String) (s : SharingStore) : Prop :=
  NoShare cookbookId accountId s.live ∧ NoShare cookbookId accountId s.disk

/-- Nobody shares the cookbook with the account while the turns are taken. -/
def NobodyShares (t : AccountTables) (cookbookId accountId : String)
    (pool : Pool (ι ⊕ κ) SharingStore SharingOp SharingExn (Option SharingAnswer))
    (turns : List (Turn (ι ⊕ κ))) : Prop :=
  pool.Along (SharingOp.exec t) SharingStore.recover (fun _ _ op => NotShared cookbookId accountId op) turns

theorem noShareLeft_run (h : NoShareLeft cookbookId accountId pool.state)
    (hnot : NobodyShares t cookbookId accountId pool turns) :
    NoShareLeft cookbookId accountId (pool.run (SharingOp.exec t) SharingStore.recover turns).state := by
  refine Pool.rel_run (P := fun _ _ => True)
    (R := fun s s' => NoShareLeft cookbookId accountId s → NoShareLeft cookbookId accountId s') (fun _ h => h)
    (fun _ _ _ h h' hs => h' (h hs)) (fun _ op s _ hop hs => ?_) (fun s hs => ?_) (fun _ c _ => c.every_true) hnot h
  · refine ⟨hs.1.apply hop, ?_⟩
    cases op with
    | commit => exact hs.1
    | _ => exact hs.2
  · exact ⟨hs.2, hs.2⟩

/-- What every statement keeps of the tables is kept between crashes. -/
theorem live_run_of_not_crash {J : SharingDb → Prop}
    (hJ : ∀ (op : SharingOp) (db : SharingDb), NotShared cookbookId accountId op → J db → J (op.apply t db))
    (h : J pool.state.live) (hnot : NobodyShares t cookbookId accountId pool turns) (hturns : .crash ∉ turns) :
    J (pool.run (SharingOp.exec t) SharingStore.recover turns).state.live :=
  Pool.rel_run_of_not_crash (P := fun _ _ => True) (R := fun s s' : SharingStore => J s.live → J s'.live)
    (fun _ h => h) (fun _ _ _ h h' hs => h' (h hs)) (fun _ op s _ hop hs => hJ op s.live hop hs)
    (fun _ c _ => c.every_true) hnot hturns h

/-- The update of the one share that the account has. -/
theorem noShare_run_revokeShare {i : ι ⊕ κ} {shareId : String} {now : Datetime} {share : CookbookShare}
    (hop : .revokeShare shareId now ∈ pool.nextOp i) (honly : OnlyShare cookbookId accountId shareId pool.state.live)
    (hget : pool.state.live.shares.get shareId = some share)
    (hnot : NobodyShares t cookbookId accountId pool (.run i :: turns)) (hturns : .crash ∉ turns) :
    NoShare cookbookId accountId (pool.run (SharingOp.exec t) SharingStore.recover (.run i :: turns)).state.live := by
  rw [Pool.run_cons]
  refine live_run_of_not_crash (fun _ _ hop h => h.apply hop) ?_ hnot.2 hturns
  rw [Pool.state_take_run hop]
  change NoShare cookbookId accountId ((SharingOp.revokeShare shareId now).apply t pool.state.live)
  exact (honly.apply (hnot.1 _ hop)).noShare (revoked_apply_revokeShare hget)

theorem noShareLeft_run_commit {i : ι ⊕ κ} (hop : .commit ∈ pool.nextOp i)
    (hnone : NoShare cookbookId accountId pool.state.live)
    (hnot : NobodyShares t cookbookId accountId pool (.run i :: turns)) :
    NoShareLeft cookbookId accountId
      (pool.run (SharingOp.exec t) SharingStore.recover (.run i :: turns)).state := by
  rw [Pool.run_cons]
  refine noShareLeft_run ?_ hnot.2
  rw [Pool.state_take_run hop]
  exact ⟨hnone, hnone⟩

/-- Once the request has gone through all of it, the account has no share left. -/
theorem noShareLeft_of_came {i : ι} {share : CookbookShare} {now : Datetime} (horder : InOrder pool.state)
    (hnot : NobodyShares t share.cookbookId share.sharedWithAccountId pool turns)
    (h : pool.Came (SharingOp.exec t) SharingStore.recover (.inl i) (revokeStages share now) turns) :
    NoShareLeft share.cookbookId share.sharedWithAccountId
      (pool.run (SharingOp.exec t) SharingStore.recover turns).state := by
  obtain ⟨before, rest, rfl, ⟨op₁, hop₁, existing, hget, hactive⟩, hcame⟩ := h
  have hone : OneActive (pool.run (SharingOp.exec t) SharingStore.recover before).state.live :=
    (inOrder_run horder before).1.live
  rw [NobodyShares, Pool.along_append] at hnot
  rw [Pool.run_snoc] at hcame
  rw [Pool.run_append]
  replace hnot := hnot.2
  generalize pool.run (SharingOp.exec t) SharingStore.recover before = found at *
  obtain ⟨looked, rest, rfl, ⟨_, hop₂, rfl⟩, updated, rest', rfl, ⟨_, hop₃, rfl⟩, committed, rest'', rfl,
    ⟨op₄, hop₄, hshare⟩, -⟩ := hcame
  have hcrash : .crash ∉ (.run (.inl i) :: (looked ++ .run (.inl i) :: (updated ++ .run (.inl i) :: committed)) :
      List (Turn (ι ⊕ κ))) := by
    have hread : op₄ ∈ (found.run (SharingOp.exec t) SharingStore.recover
        (.run (.inl i) :: (looked ++ .run (.inl i) :: (updated ++ .run (.inl i) :: committed)))).nextOp (.inl i) := by
      simp only [Pool.run_append, Pool.run_cons] at hop₄ ⊢
      exact hop₄
    exact Pool.not_crash_of_nextOp hop₁ hread
  have hkeeps : Keeps found.state.live (found.run (SharingOp.exec t) SharingStore.recover
      (.run (.inl i) :: (looked ++ .run (.inl i) :: (updated ++ .run (.inl i) :: committed)))).state.live :=
    keeps_run hcrash
  simp only [Pool.run_snoc, ← Pool.run_cons] at hop₂ hop₃ hshare
  simp only [← List.cons_append, Pool.along_append] at hnot
  simp only [← List.cons_append, Pool.run_append] at hkeeps ⊢
  simp only [← List.cons_append, List.mem_append, not_or] at hcrash
  obtain ⟨hlooked, hupdated, hcommitted, hrest⟩ := hnot
  obtain ⟨hcrash, hcrash', hcrash''⟩ := hcrash
  have honly : OnlyShare share.cookbookId share.sharedWithAccountId share.id
      (found.run (SharingOp.exec t) SharingStore.recover (.run (.inl i) :: looked)).state.live := by
    refine live_run_of_not_crash (fun _ _ hop h => h.apply hop) ?_ hlooked hcrash
    obtain ⟨row, hrow, hbecomes⟩ := hkeeps.get_share hget
    obtain rfl := Option.some.inj (hrow.symm.trans hshare)
    have hone' := onlyShare_of_oneActive hone (Table.mem_of_get hget) hactive
    rcases hbecomes with rfl | ⟨-, role, revokedAt, rfl⟩ <;> exact hone'
  obtain ⟨row, hrow, -⟩ := (keeps_run (t := t) hcrash).get_share hget
  have hnone := noShare_run_revokeShare hop₂ honly hrow hupdated fun h => hcrash' (List.mem_cons_of_mem _ h)
  exact noShareLeft_run (noShareLeft_run_commit hop₃ hnone hcommitted) hrest

/-- The caller does not own the cookbook when its turns come. -/
def NeverOwner (t : AccountTables) (caller : SharingCaller) (cookbookId : String)
    (pool : Pool (ι ⊕ κ) SharingStore SharingOp SharingExn (Option SharingAnswer)) (j : ι)
    (turns : List (Turn (ι ⊕ κ))) : Prop :=
  pool.Along (SharingOp.exec t) SharingStore.recover
    (fun s i _ => i = .inl j → ∀ cookbook ∈ s.live.cookbooks.get cookbookId, ¬ Owns t caller cookbook) turns

/-- Without a share and without the cookbook there is no turn at which the caller has a role. -/
theorem not_came_of_noShareLeft {j : ι} {caller : SharingCaller} {m : ShareRole}
    (h : NoShareLeft cookbookId caller.accountId pool.state)
    (hnot : NobodyShares t cookbookId caller.accountId pool turns)
    (howner : NeverOwner t caller cookbookId pool j turns) :
    ¬ pool.Came (SharingOp.exec t) SharingStore.recover (.inl j)
      (.one fun _ s => HasRole t s.live caller cookbookId m) turns := by
  rintro ⟨before, after, rfl, ⟨op, hop, hrole⟩, -⟩
  have hbefore := (Pool.along_append.mp hnot).1
  have hturn := (Pool.along_append.mp howner).2.1 op hop rfl
  rcases hrole with ⟨cookbook, hcookbook, howns⟩ | ⟨share, hshare, hactive, -⟩
  · exact hturn cookbook hcookbook howns
  · exact (noShareLeft_run h hbefore).1 share hshare hactive

/-- **Once the request that revokes a share has been answered, the account has no share of the cookbook, on the disk
neither, and whatever crashes after: while nobody shares the cookbook with it again, a request of the account that
begins after the answer gets no answer and comes to no write, unless the account owns the cookbook at a turn of the
request.** -/
theorem revoked_access_ends {db : SharingDb} (hdb : OneActive db) {before during after : List (Turn (ι ⊕ κ))}
    {i : ι} {share : CookbookShare} (hrequest : (calls i).request = .revokeShare share.id)
    (hbefore : ((sharingPool t calls others db).run (SharingOp.exec t) SharingStore.recover before).begun (.inl i) =
      false)
    (hanswer : ((sharingPool t calls others db).run (SharingOp.exec t) SharingStore.recover
      (before ++ during)).returned (.inl i) (some (.share (some share))))
    (hnobody : NobodyShares t share.cookbookId share.sharedWithAccountId
      ((sharingPool t calls others db).run (SharingOp.exec t) SharingStore.recover before) (during ++ after)) :
    let answered := (sharingPool t calls others db).run (SharingOp.exec t) SharingStore.recover (before ++ during)
    let reached := answered.run (SharingOp.exec t) SharingStore.recover after
    NoShareLeft share.cookbookId share.sharedWithAccountId reached.state ∧
      ∀ j, (calls j).cookbookId = share.cookbookId → (calls j).caller.accountId = share.sharedWithAccountId →
        answered.begun (.inl j) = false → NeverOwner t (calls j).caller share.cookbookId answered j after →
        (∀ answer, ¬ reached.returned (.inl j) (some answer)) ∧
          ∀ op next, reached.awaits (.inl j) op next → ¬ IsWrite op := by
  intro answered reached
  obtain ⟨hduring, hafter⟩ := Pool.along_append.mp hnobody
  rw [← Pool.run_append] at hafter
  rw [Pool.run_append] at hanswer
  have horder : InOrder ((sharingPool t calls others db).run (SharingOp.exec t) SharingStore.recover before).state :=
    (inOrder_run ⟨hdb, hdb, .refl db⟩ before).1
  have hstages : ∀ c ∈ ((sharingPool t calls others db).run (SharingOp.exec t) SharingStore.recover
      before).thread (.inl i), c.Staged (fun _ => False)
        (fun answer => answer.elim False (· = .share (some share))) (revokeStages share (calls i).now) := by
    intro c hc
    rw [Pool.thread_run_of_not_begun hbefore] at hc
    rw [mem_thread_sharingPool hc]
    exact (staged_revokeShare hrequest).map
  have hcame := Pool.came_of_returned hstages hanswer rfl
  have hleft : NoShareLeft share.cookbookId share.sharedWithAccountId answered.state := by
    change NoShareLeft _ _ ((sharingPool t calls others db).run _ _ (before ++ during)).state
    rw [Pool.run_append]
    exact noShareLeft_of_came horder hduring hcame
  refine ⟨noShareLeft_run hleft hafter, fun j hcookbook haccount hbegun howner => ?_⟩
  have hrole : ∀ c ∈ answered.thread (.inl j), c.Staged IsWrite (fun answer => answer.isSome = true)
      (.one fun _ s => HasRole t s.live (calls j).caller share.cookbookId (calls j).request.minimum) := by
    intro c hc
    rw [Pool.thread_run_of_not_begun hbegun] at hc
    rw [mem_thread_sharingPool hc, ← hcookbook]
    exact (staged_role (calls j)).map
  rw [← haccount] at hleft hafter
  have hnever := not_came_of_noShareLeft (m := (calls j).request.minimum) hleft hafter howner
  exact ⟨fun answer hreturned => hnever (Pool.came_of_returned hrole hreturned rfl),
    fun op next hawaits hwrite => hnever (Pool.came_of_awaits hrole hawaits hwrite)⟩

end Runs

/-! ### A share revoked before a crash -/

instance (cookbookId accountId : String) : DecidablePred (NotShared cookbookId accountId) := by
  rintro (_ | _) <;> unfold NotShared <;> dsimp only <;> infer_instance

instance (t : AccountTables) (caller : SharingCaller) (cookbook : Cookbook) : Decidable (Owns t caller cookbook) :=
  inferInstanceAs (Decidable (isNamedOwner cookbook caller = true ∨ cookbook.ownerStartsWith "0x" = true ∧
    ∃ row ∈ t.walletLinks.get cookbook.ownerId, row.accountId = caller.accountId))

instance {ι κ : Type} [DecidableEq ι] [DecidableEq κ] (t : AccountTables) (cookbookId accountId : String)
    (pool : Pool (ι ⊕ κ) SharingStore SharingOp SharingExn (Option SharingAnswer)) (turns : List (Turn (ι ⊕ κ))) :
    Decidable (NobodyShares t cookbookId accountId pool turns) :=
  Pool.decidableAlong _ _ _ pool turns

instance {ι κ : Type} [DecidableEq ι] [DecidableEq κ] (t : AccountTables) (caller : SharingCaller) (cookbookId : String)
    (pool : Pool (ι ⊕ κ) SharingStore SharingOp SharingExn (Option SharingAnswer)) (j : ι)
    (turns : List (Turn (ι ⊕ κ))) : Decidable (NeverOwner t caller cookbookId pool j turns) :=
  Pool.decidableAlong _ _ _ pool turns

/-- A restart, and Bob's request. -/
def bobAfterRestart : List (Turn (Bool ⊕ Empty)) := .crash :: List.replicate 3 (.run (.inl false))

theorem revoked_access_ends_restarted :
    let answered := adasPool.run (SharingOp.exec quietTables) SharingStore.recover ([] ++ adaAnswered)
    let reached := answered.run (SharingOp.exec quietTables) SharingStore.recover bobAfterRestart
    NoShareLeft "cb_1" "acc_bob" reached.state ∧ ∀ answer, ¬ reached.returned (.inl false) (some answer) := by
  obtain ⟨hleft, hrefused⟩ := @revoked_access_ends Bool Empty _ _ quietTables adaAndBob (fun k => k.elim) adasCookbook
    (by decide) [] adaAnswered bobAfterRestart true (bobsShare.revoke noon) rfl rfl (by decide +kernel)
    (by decide +kernel)
  exact ⟨hleft, (hrefused false rfl rfl rfl (by decide +kernel)).1⟩

instance (cookbookId accountId : String) : DecidablePred (NoShare cookbookId accountId) := fun db =>
  inferInstanceAs (Decidable (∀ share ∈ db.shares.rows, ¬ share.isActiveFor cookbookId accountId = true))

instance (cookbookId accountId : String) : DecidablePred (NoShareLeft cookbookId accountId) := fun s =>
  inferInstanceAs (Decidable (NoShare cookbookId accountId s.live ∧ NoShare cookbookId accountId s.disk))

/-- Ada revokes the share twice; the second request runs between the update and the commit of the first. -/
def revokedTwice : Pool (Bool ⊕ Empty) SharingStore SharingOp SharingExn (Option SharingAnswer) :=
  (sharingPool quietTables (fun _ : Bool => adaAndBob true) (fun k => k.elim) adasCookbook).run
    (SharingOp.exec quietTables) SharingStore.recover
    (List.replicate 3 (.run (.inl true)) ++ List.replicate 2 (.run (.inl false)) ++ [.crash])

/-- The answer that a share is revoked already may come before that is committed. -/
example :
    revokedTwice.returned (.inl false) (some (.shareAlreadyRevoked (bobsShare.revoke noon))) ∧
      ¬ NoShareLeft "cb_1" "acc_bob" revokedTwice.state := by
  decide +kernel

end CookbookSharing

end Krewhub
