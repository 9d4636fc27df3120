import Krewhub.Python.Pathlib

/-!
# Where a repository lies

The three endpoints of git's HTTP protocol take an owner and a repository from the URL, any two segments
that are not empty, and join them to the directory of all repositories. What they do to the file system they
do at that path.

A name in the URL may be a dot segment. The repository's gets `.git` behind it and is none any more, but the
owner's is joined as it is: `.` leaves the owner out, and `..` leaves the directory. Every other owner has a
directory of its own there, and two requests meet in it only with one name.
-/

namespace Krewhub.Git

open PurePath (enter)

/-- What a route with `{owner}` or `{repo}` binds. -/
def Bindable (segment : String) : Prop := segment ≠ "" ∧ '/' ∉ segment.toList

instance (segment : String) : Decidable (Bindable segment) :=
  inferInstanceAs (Decidable (segment ≠ "" ∧ '/' ∉ segment.toList))

/-- `repos_root()`. -/
def reposRoot (databasePath : String) : PurePath := (PurePath.ofString databasePath).parent.join "repos"

/-- `repo if repo.endswith(".git") else f"{repo}.git"`. -/
def repoName (repo : String) : String :=
  if ".git".toList <:+ repo.toList then repo else repo ++ ".git"

def resolveRepoPath (databasePath owner repo : String) : PurePath :=
  ((reposRoot databasePath).join owner).join (repoName repo)

/-- What a handler does to the file system, and at which path. -/
inductive RepoOp where
  | exists (path : PurePath)
  | mkdir (path : PurePath)
  | initBare (path : PurePath)
  | symbolicRef (path : PurePath)
  | service (name : String) (path : PurePath)
  | index (path : PurePath)
  deriving DecidableEq, Repr

def RepoOp.path : RepoOp → PurePath
  | .exists path | .mkdir path | .initBare path | .symbolicRef path | .service _ path | .index path => path

def validServices : List String := ["git-receive-pack", "git-upload-pack"]

def ensureBareRepo (present : Bool) (path : PurePath) : List RepoOp :=
  .exists path :: if present then [] else [.mkdir path, .initBare path, .symbolicRef path]

/-- What is asked of a repository. -/
inductive Endpoint where
  | infoRefs (service : String)
  | receivePack
  | uploadPack
  deriving DecidableEq, Repr

/-- What the handler does, in order, where the repository is there or not. -/
def Endpoint.ops (databasePath owner repo : String) (present : Bool) : Endpoint → List RepoOp
  | .infoRefs service =>
    if service ∈ validServices then
      ensureBareRepo present (resolveRepoPath databasePath owner repo) ++
        [.service service (resolveRepoPath databasePath owner repo)]
    else []
  | .receivePack =>
    .exists (resolveRepoPath databasePath owner repo) ::
      if present then [.service "git-receive-pack" (resolveRepoPath databasePath owner repo),
        .index (resolveRepoPath databasePath owner repo)]
      else []
  | .uploadPack =>
    .exists (resolveRepoPath databasePath owner repo) ::
      if present then [.service "git-upload-pack" (resolveRepoPath databasePath owner repo)] else []

/-- A child of the directory named after the owner, among the repositories. -/
def Inside (databasePath owner : String) (path : PurePath) : Prop :=
  ∃ name, path.normalise =
    { root := (reposRoot databasePath).root
      parts := (reposRoot databasePath).normalise.parts ++ [owner, name] }

/-- `repo.removesuffix(".git")`. -/
def stem (repo : String) : String :=
  if ".git".toList <:+ repo.toList then String.ofList (repo.toList.take (repo.toList.length - 4)) else repo

/-- A request stays where its owner's repositories are, and meets no request for another repository. -/
structure Confined (databasePath owner repo : String) : Prop where
  inside : Inside databasePath owner (resolveRepoPath databasePath owner repo)
  operations : ∀ (endpoint : Endpoint) (present : Bool), ∀ op ∈ endpoint.ops databasePath owner repo present,
    Inside databasePath owner op.path
  separate : ∀ owner' repo', Bindable owner' → Bindable repo' → (owner', stem repo') ≠ (owner, stem repo) →
    (resolveRepoPath databasePath owner' repo').normalise ≠ (resolveRepoPath databasePath owner repo).normalise

variable {databasePath owner repo : String}

/-! ### The name of the repository -/

theorem repoName_eq (repo : String) : repoName repo = stem repo ++ ".git" := by
  rw [repoName, stem]
  split
  · rename_i hsuffix
    obtain ⟨before, hbefore⟩ := hsuffix
    have hlength : repo.toList.length - 4 = before.length := by
      rw [← hbefore, List.length_append]
      exact Nat.add_sub_cancel ..
    rw [← String.toList_inj, String.toList_append, String.toList_ofList, hlength, ← hbefore, List.take_left]
  · rfl

theorem repoName_inj {repo' : String} (h : repoName repo = repoName repo') : stem repo = stem repo' := by
  rw [repoName_eq, repoName_eq, ← String.toList_inj, String.toList_append, String.toList_append] at h
  exact String.toList_inj.mp (List.append_cancel_right h)

theorem length_repoName (repo : String) : 4 ≤ (repoName repo).toList.length := by
  rw [repoName_eq, String.toList_append, List.length_append]
  exact Nat.le_add_left ..

theorem repoName_ne {s : String} (hs : s.toList.length < 4) : repoName repo ≠ s := by
  rintro rfl
  have hlong := length_repoName repo
  omega

theorem slash_notMem_repoName (h : '/' ∉ repo.toList) : '/' ∉ (repoName repo).toList := by
  rw [repoName]
  split
  · exact h
  · rw [String.toList_append, List.mem_append, not_or]
    exact ⟨h, by decide⟩

/-! ### The path -/

/-- The directory of all repositories is a child of the one the database is in. -/
theorem stack_reposRoot :
    (reposRoot databasePath).stack = "repos" :: (PurePath.ofString databasePath).parent.stack := by
  rw [reposRoot, PurePath.stack_join (by decide) (by decide), PurePath.enter_of_name (by decide) (by decide)]

theorem root_resolveRepoPath (howner : Bindable owner) (hrepo : Bindable repo) :
    (resolveRepoPath databasePath owner repo).root = (reposRoot databasePath).root := by
  rw [resolveRepoPath, PurePath.root_join_of_slash_notMem (slash_notMem_repoName hrepo.2),
    PurePath.root_join_of_slash_notMem howner.2]

theorem stack_resolveRepoPath (howner : Bindable owner) (hrepo : Bindable repo) :
    (resolveRepoPath databasePath owner repo).stack =
      repoName repo :: enter (reposRoot databasePath).root (reposRoot databasePath).stack owner := by
  rw [resolveRepoPath, PurePath.stack_join (slash_notMem_repoName hrepo.2) (repoName_ne (by decide)),
    PurePath.enter_of_name (repoName_ne (by decide)) (repoName_ne (by decide)),
    PurePath.stack_join howner.2 howner.1]

/-- Where the three kinds of owners lead. -/
theorem enter_owner (owner : String) :
    enter (reposRoot databasePath).root (reposRoot databasePath).stack owner =
      if owner = "." then (reposRoot databasePath).stack
      else if owner = ".." then (PurePath.ofString databasePath).parent.stack
      else owner :: (reposRoot databasePath).stack := by
  unfold enter
  split
  · rfl
  · split
    · rw [stack_reposRoot]
      exact if_neg (by decide)
    · rfl

theorem inside_iff (howner : Bindable owner) (hrepo : Bindable repo) :
    Inside databasePath owner (resolveRepoPath databasePath owner repo) ↔ owner ≠ "." ∧ owner ≠ ".." := by
  rw [Inside, PurePath.normalise, root_resolveRepoPath howner hrepo, stack_resolveRepoPath howner hrepo,
    enter_owner, PurePath.normalise]
  constructor
  · rintro ⟨name, hpath⟩
    have hlength := congrArg (fun path : PurePath => path.parts.length) hpath
    simp only [List.length_reverse, List.length_append, List.length_cons, List.length_nil] at hlength
    constructor
    · rintro rfl
      rw [if_pos rfl] at hlength
      omega
    · rintro rfl
      rw [if_neg (by decide), if_pos rfl, stack_reposRoot, List.length_cons] at hlength
      omega
  · rintro ⟨hdot, hdots⟩
    refine ⟨repoName repo, ?_⟩
    rw [if_neg hdot, if_neg hdots, List.reverse_cons, List.reverse_cons, List.append_assoc]
    rfl

theorem path_of_mem_ops {endpoint : Endpoint} {present : Bool} {op : RepoOp}
    (h : op ∈ endpoint.ops databasePath owner repo present) :
    op.path = resolveRepoPath databasePath owner repo := by
  have hall : ∀ op ∈ endpoint.ops databasePath owner repo present,
      op.path = resolveRepoPath databasePath owner repo := by
    cases endpoint with
    | infoRefs service =>
      rw [Endpoint.ops, ensureBareRepo]
      split
      · cases present <;> simp [RepoOp.path]
      · simp
    | receivePack => cases present <;> simp [Endpoint.ops, RepoOp.path]
    | uploadPack => cases present <;> simp [Endpoint.ops, RepoOp.path]
  exact hall op h

/-- An owner that is no dot segment shares its repositories with no other owner. -/
theorem separate_of_owner (howner : Bindable owner) (hrepo : Bindable repo) (hdot : owner ≠ ".")
    (hdots : owner ≠ "..") {owner' repo' : String} (howner' : Bindable owner') (hrepo' : Bindable repo')
    (hne : (owner', stem repo') ≠ (owner, stem repo)) :
    (resolveRepoPath databasePath owner' repo').normalise ≠
      (resolveRepoPath databasePath owner repo).normalise := by
  intro hpath
  have hstack : (resolveRepoPath databasePath owner' repo').stack =
      (resolveRepoPath databasePath owner repo).stack :=
    List.reverse_injective (congrArg PurePath.parts hpath)
  rw [stack_resolveRepoPath howner' hrepo', stack_resolveRepoPath howner hrepo, enter_owner, enter_owner,
    if_neg hdot, if_neg hdots] at hstack
  obtain ⟨hname, hdir⟩ := List.cons.inj hstack
  have hlength := congrArg List.length hdir
  rw [List.length_cons] at hlength
  by_cases hdot' : owner' = "."
  · rw [if_pos hdot'] at hlength
    omega
  · by_cases hdots' : owner' = ".."
    · rw [if_neg hdot', if_pos hdots', stack_reposRoot, List.length_cons] at hlength
      omega
    · rw [if_neg hdot', if_neg hdots'] at hdir
      exact hne (Prod.ext (List.cons.inj hdir).1 (repoName_inj hname))

/-- **A request is confined exactly when its owner is no dot segment.** For every place of the database and
every two segments the routes can bind. -/
theorem confined_iff (databasePath owner repo : String) (howner : Bindable owner) (hrepo : Bindable repo) :
    Confined databasePath owner repo ↔ owner ≠ "." ∧ owner ≠ ".." := by
  refine ⟨fun h => (inside_iff howner hrepo).mp h.inside, fun h => ?_⟩
  have hinside : Inside databasePath owner (resolveRepoPath databasePath owner repo) :=
    (inside_iff howner hrepo).mpr h
  refine ⟨hinside, fun endpoint present op hop => ?_, fun owner' repo' howner' hrepo' hne =>
    separate_of_owner howner hrepo h.1 h.2 howner' hrepo' hne⟩
  rw [path_of_mem_ops hop]
  exact hinside

theorem confined_alice : Confined "/data/krewhub.db" "alice" "cookbook" :=
  (confined_iff "/data/krewhub.db" "alice" "cookbook" (by decide) (by decide)).mpr (by decide)

/-- A request for the owner `..` makes a repository next to the database. -/
theorem not_confined_dots :
    Bindable ".." ∧ Bindable "evil" ∧ ¬ Confined "/data/krewhub.db" ".." "evil" ∧
      Endpoint.ops "/data/krewhub.db" ".." "evil" false (.infoRefs "git-upload-pack") =
        [.exists ⟨"/", ["data", "repos", "..", "evil.git"]⟩, .mkdir ⟨"/", ["data", "repos", "..", "evil.git"]⟩,
          .initBare ⟨"/", ["data", "repos", "..", "evil.git"]⟩,
          .symbolicRef ⟨"/", ["data", "repos", "..", "evil.git"]⟩,
          .service "git-upload-pack" ⟨"/", ["data", "repos", "..", "evil.git"]⟩] ∧
      PurePath.normalise ⟨"/", ["data", "repos", "..", "evil.git"]⟩ = ⟨"/", ["data", "evil.git"]⟩ := by
  refine ⟨by decide, by decide, fun h => ?_, by decide +kernel, by decide +kernel⟩
  exact ((inside_iff (by decide) (by decide)).mp h.inside).2 rfl

end Krewhub.Git
