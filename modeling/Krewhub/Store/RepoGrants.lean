import Krewhub.Python.Datetime

/-!
# Which grant covers a repository

`RepoGrantRepo.find_covering`: of the grants of a cookbook that have not been revoked, in the order they were
granted in, one pass keeps the first for the repository itself, the first for all of its owner's, and the
first with the owner's name alone, and the first of these three that there is is returned.

The query orders by the text of the time, which is the order of the times as every grant is stamped in UTC.
A row goes into one slot only. Where two of the scopes are the same text, which they are for a repository
named `*`, the second row with it goes into the second slot, and it is never looked at.
-/

namespace Krewhub

inductive RepoProvider where
  | github
  | gitlab
  | bitbucket
  deriving DecidableEq, Repr

structure RepoGrant where
  id : String
  cookbookId : String
  provider : RepoProvider
  scope : String
  tokenRef : String
  grantedByAccountId : String
  grantedAt : Datetime
  revokedAt : Option Datetime := none
  deriving DecidableEq, Repr

namespace RepoGrantRepo

/-- `cookbook_id = ? AND provider = ? AND revoked_at IS NULL`. -/
def isActive (cookbookId : String) (provider : RepoProvider) (grant : RepoGrant) : Bool :=
  grant.cookbookId == cookbookId && grant.provider == provider && grant.revokedAt.isNone

/-- What the query may return: rows with one time come in any order. -/
structure Selected (grants : List RepoGrant) (cookbookId : String) (provider : RepoProvider)
    (rows : List RepoGrant) : Prop where
  perm : rows.Perm (grants.filter (isActive cookbookId provider))
  ordered : rows.Pairwise fun row row' => row.grantedAt.isoformat ≤ row'.grantedAt.isoformat

/-- The first match for each scope so far. -/
structure Slots where
  exact : Option RepoGrant := none
  wildcard : Option RepoGrant := none
  ownerShorthand : Option RepoGrant := none

def Slots.take (owner repo : String) (slots : Slots) (row : RepoGrant) : Slots :=
  if row.scope = owner ++ "/" ++ repo ∧ slots.exact = none then { slots with exact := some row }
  else if row.scope = owner ++ "/*" ∧ slots.wildcard = none then { slots with wildcard := some row }
  else if row.scope = owner ∧ slots.ownerShorthand = none then { slots with ownerShorthand := some row }
  else slots

/-- `find_covering` on the rows that its query returned. -/
def findCovering (rows : List RepoGrant) (owner repo : String) : Option RepoGrant :=
  let slots := rows.foldl (Slots.take owner repo) {}
  slots.exact.or (slots.wildcard.or slots.ownerShorthand)

/-- The scopes that cover a repository, the most specific first. -/
def tiers (owner repo : String) : List String := [owner ++ "/" ++ repo, owner ++ "/*", owner]

variable {owner repo : String} {rows : List RepoGrant} {slots : Slots} {grant : RepoGrant}

/-! ### The pass -/

/-- The first row with a scope. -/
def firstWith (scope : String) (rows : List RepoGrant) : Option RepoGrant := rows.find? (·.scope == scope)

theorem owner_ne (owner s : String) : owner ++ "/" ++ s ≠ owner := by
  intro h
  have hlength := congrArg (fun t => t.toList.length) h
  simp only [String.toList_append, List.length_append] at hlength
  have hslash : "/".toList.length = 1 := by decide
  omega

theorem owner_wild_ne (owner : String) : owner ++ "/*" ≠ owner := by
  intro h
  have hlength := congrArg (fun t => t.toList.length) h
  simp only [String.toList_append, List.length_append] at hlength
  have hslash : "/*".toList.length = 2 := by decide
  omega

/-- A row fills the slot for its scope if that is still empty. -/
def fill (slot : Option RepoGrant) (scope : String) (row : RepoGrant) : Option RepoGrant :=
  slot.or (if row.scope = scope then some row else none)

theorem fill_of_ne {slot : Option RepoGrant} {scope : String} (h : grant.scope ≠ scope) :
    fill slot scope grant = slot := by
  rw [fill, if_neg h, Option.or_none]

theorem fill_of_not {slot : Option RepoGrant} {scope : String} (h : ¬ (grant.scope = scope ∧ slot = none)) :
    fill slot scope grant = slot := by
  by_cases hscope : grant.scope = scope
  · obtain ⟨first, hfirst⟩ := Option.ne_none_iff_exists'.mp fun hnone => h ⟨hscope, hnone⟩
    rw [fill, hfirst, Option.some_or]
  · exact fill_of_ne hscope

theorem fill_of_eq {slot : Option RepoGrant} {scope : String} (h : grant.scope = scope ∧ slot = none) :
    fill slot scope grant = some grant := by
  rw [fill, h.2, if_pos h.1, Option.none_or]

theorem exact_take : (slots.take owner repo grant).exact = fill slots.exact (owner ++ "/" ++ repo) grant := by
  rw [Slots.take]
  split
  · rename_i hexact
    exact (fill_of_eq hexact).symm
  · rename_i hexact
    rw [fill_of_not hexact]
    split
    · rfl
    · split <;> rfl

theorem wildcard_take (h : grant.scope ≠ owner ++ "/" ++ repo) :
    (slots.take owner repo grant).wildcard = fill slots.wildcard (owner ++ "/*") grant := by
  rw [Slots.take, if_neg fun hexact => h hexact.1]
  split
  · rename_i hwild
    exact (fill_of_eq hwild).symm
  · rename_i hwild
    rw [fill_of_not hwild]
    split <;> rfl

theorem ownerShorthand_take :
    (slots.take owner repo grant).ownerShorthand = fill slots.ownerShorthand owner grant := by
  rw [Slots.take]
  split
  · rename_i hexact
    exact (fill_of_ne (hexact.1 ▸ owner_ne owner repo)).symm
  · split
    · rename_i hwild
      exact (fill_of_ne (hwild.1 ▸ owner_wild_ne owner)).symm
    · split
      · rename_i hshort
        exact (fill_of_eq hshort).symm
      · rename_i hshort
        exact (fill_of_not hshort).symm

/-- A slot that rows with one scope fill holds the first of them. -/
theorem slot_foldl {scope : String} (slot : Slots → Option RepoGrant)
    (hslot : ∀ slots, ∀ row ∈ rows, slot (slots.take owner repo row) = fill (slot slots) scope row) :
    slot (rows.foldl (Slots.take owner repo) slots) = (slot slots).or (firstWith scope rows) := by
  induction rows generalizing slots with
  | nil => exact Option.or_none.symm
  | cons row rows ih =>
    rw [List.foldl_cons, ih fun slots r hr => hslot slots r (List.mem_cons_of_mem _ hr),
      hslot slots row List.mem_cons_self, fill, Option.or_assoc]
    congr 1
    rw [firstWith, firstWith, List.find?_cons]
    by_cases hscope : row.scope = scope
    · rw [if_pos hscope, beq_iff_eq.mpr hscope, Option.some_or]
    · rw [if_neg hscope, beq_eq_false_iff_ne.mpr hscope, Option.none_or]

/-- The pass returns the first row with the most specific scope that a row has. -/
theorem findCovering_eq : findCovering rows owner repo = (tiers owner repo).findSome? (firstWith · rows) := by
  rw [findCovering, slot_foldl Slots.exact fun _ _ _ => exact_take,
    slot_foldl Slots.ownerShorthand fun _ _ _ => ownerShorthand_take, tiers]
  dsimp only
  rw [Option.none_or, Option.none_or, List.findSome?_cons]
  cases hexact : firstWith (owner ++ "/" ++ repo) rows with
  | some grant => rfl
  | none =>
    have hnot : ∀ row ∈ rows, row.scope ≠ owner ++ "/" ++ repo := by
      simpa [firstWith] using hexact
    rw [slot_foldl Slots.wildcard fun slots row hrow => wildcard_take (hnot row hrow)]
    dsimp only
    rw [Option.none_or, Option.none_or, List.findSome?_cons]
    cases firstWith (owner ++ "/*") rows with
    | some grant => rfl
    | none =>
      rw [List.findSome?_cons, Option.none_or]
      cases firstWith owner rows <;> rfl

/-! ### The grant that is returned -/

section Query

variable {grants : List RepoGrant} {cookbookId : String} {provider : RepoProvider}

theorem Selected.mem_iff (h : Selected grants cookbookId provider rows) :
    grant ∈ rows ↔ grant ∈ grants ∧ isActive cookbookId provider grant = true := by
  rw [h.perm.mem_iff, List.mem_filter]

theorem firstWith_eq_none_iff {scope : String} :
    firstWith scope rows = none ↔ ∀ row ∈ rows, row.scope ≠ scope := by
  simp [firstWith]

/-- The first row with a scope was granted earliest. -/
theorem Selected.of_firstWith (h : Selected grants cookbookId provider rows) {scope : String}
    (hfirst : firstWith scope rows = some grant) :
    grant ∈ rows ∧ grant.scope = scope ∧
      ∀ row ∈ rows, row.scope = scope → ¬ row.grantedAt < grant.grantedAt := by
  obtain ⟨hscope, before, after, rfl, hbefore⟩ := List.find?_eq_some_iff_append.mp hfirst
  refine ⟨by simp, beq_iff_eq.mp hscope, fun row hrow hsame => ?_⟩
  rcases List.mem_append.mp hrow with hrow | hrow
  · have hnot := hbefore row hrow
    simp [hsame] at hnot
  · rcases List.mem_cons.mp hrow with rfl | hrow
    · exact List.lt_irrefl _
    · have hordered := (List.pairwise_append.mp h.ordered).2.1
      exact Datetime.not_lt_of_isoformat_le (List.rel_of_pairwise_cons hordered hrow)

/-- **The lookup returns the right grant.** For every set of grants, whatever their cookbooks, providers,
scopes, times and revocations, and every owner and repository: nothing is returned exactly when no active
grant has one of the three scopes, and a grant that is returned is the earliest of the active ones with the
most specific scope that an active one has. -/
theorem findCovering_most_specific (hrows : Selected grants cookbookId provider rows) (owner repo : String) :
    (findCovering rows owner repo = none ↔
      ∀ grant ∈ grants, isActive cookbookId provider grant = true → grant.scope ∉ tiers owner repo) ∧
    ∀ grant, findCovering rows owner repo = some grant →
      grant ∈ grants ∧ isActive cookbookId provider grant = true ∧
        ∃ moreSpecific lessSpecific, tiers owner repo = moreSpecific ++ grant.scope :: lessSpecific ∧
          (∀ other ∈ grants, isActive cookbookId provider other = true → other.scope ∉ moreSpecific) ∧
          ∀ other ∈ grants, isActive cookbookId provider other = true → other.scope = grant.scope →
            ¬ other.grantedAt < grant.grantedAt := by
  rw [findCovering_eq]
  constructor
  · rw [List.findSome?_eq_none_iff]
    constructor
    · intro hnone grant hgrant hactive hscope
      exact firstWith_eq_none_iff.mp (hnone _ hscope) grant (hrows.mem_iff.mpr ⟨hgrant, hactive⟩) rfl
    · intro hnone scope hscope
      refine firstWith_eq_none_iff.mpr fun row hrow hsame => ?_
      obtain ⟨hgrant, hactive⟩ := hrows.mem_iff.mp hrow
      exact hnone row hgrant hactive (hsame ▸ hscope)
  · intro grant hfound
    obtain ⟨more, scope, less, htiers, hfirst, hmore⟩ := List.findSome?_eq_some_iff.mp hfound
    obtain ⟨hrow, rfl, hearliest⟩ := hrows.of_firstWith hfirst
    obtain ⟨hgrant, hactive⟩ := hrows.mem_iff.mp hrow
    refine ⟨hgrant, hactive, more, less, htiers, fun other hother hactive' hscope => ?_,
      fun other hother hactive' hsame => hearliest other (hrows.mem_iff.mpr ⟨hother, hactive'⟩) hsame⟩
    exact firstWith_eq_none_iff.mp (hmore _ hscope) other (hrows.mem_iff.mpr ⟨hother, hactive'⟩) rfl

/-- A grant at half past an hour. -/
def acmeGrant (id scope : String) (hour : Fin 24) : RepoGrant where
  id := id
  cookbookId := "cb_1"
  provider := .github
  scope := scope
  tokenRef := "vault:1"
  grantedByAccountId := "acc_1"
  grantedAt :=
    { year := 2026, month := 5, day := 4, hour, minute := 30, second := 15, microsecond := 250
      hour_lt := hour.isLt }

/-- The owner's name is granted first and the repository last. -/
theorem acmeGrants_selected :
    Selected [acmeGrant "grt_repo" "acme/api" 10, acmeGrant "grt_owner" "acme" 8, acmeGrant "grt_all" "acme/*" 9]
      "cb_1" .github
      [acmeGrant "grt_owner" "acme" 8, acmeGrant "grt_all" "acme/*" 9, acmeGrant "grt_repo" "acme/api" 10] :=
  ⟨by decide +kernel, by decide +kernel⟩

theorem acmeGrants_api :
    findCovering [acmeGrant "grt_owner" "acme" 8, acmeGrant "grt_all" "acme/*" 9,
      acmeGrant "grt_repo" "acme/api" 10] "acme" "api" ≠ none := by
  intro hnone
  exact (findCovering_most_specific acmeGrants_selected "acme" "api").1.mp hnone
    (acmeGrant "grt_repo" "acme/api" 10) (by decide +kernel) (by decide +kernel) (by decide +kernel)

end Query

end RepoGrantRepo

end Krewhub
