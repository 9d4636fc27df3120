import Krewhub.Services.RedactedTexts

/-!
# What redaction leaves of a value

A value under a telling key is replaced whole, and every other text in the value goes through the patterns;
the keys themselves do not. Of the texts that are left, one that a pattern still finds something in comes from
an overrun, and a value without overruns is left as it is by a second redaction.
-/

namespace Krewhub.Redact

open Re

variable {wide : Char → Bool}

/-! ### The texts and the entries of a value -/

mutual

/-- The texts that are leaves of the value, at any depth. -/
def leaves : Json → List String
  | .str s => [s]
  | .list items => leavesOfItems items
  | .dict entries => leavesOfEntries entries
  | _ => []

def leavesOfItems : List Json → List String
  | [] => []
  | item :: items => leaves item ++ leavesOfItems items

def leavesOfEntries : List (String × Json) → List String
  | [] => []
  | (_, value) :: entries => leaves value ++ leavesOfEntries entries

end

mutual

/-- The entries of the dicts in the value, at any depth. -/
def entriesIn : Json → List (String × Json)
  | .list items => entriesInItems items
  | .dict entries => entriesInEntries entries
  | _ => []

def entriesInItems : List Json → List (String × Json)
  | [] => []
  | item :: items => entriesIn item ++ entriesInItems items

def entriesInEntries : List (String × Json) → List (String × Json)
  | [] => []
  | (key, value) :: entries => (key, value) :: (entriesIn value ++ entriesInEntries entries)

end

mutual

/-- The texts that go through the patterns: the leaves under no telling key. -/
def scanned : Json → List String
  | .str s => [s]
  | .list items => scannedItems items
  | .dict entries => scannedEntries entries
  | _ => []

def scannedItems : List Json → List String
  | [] => []
  | item :: items => scanned item ++ scannedItems items

def scannedEntries : List (String × Json) → List String
  | [] => []
  | (key, value) :: entries => (if keyIsSensitive key then [] else scanned value) ++ scannedEntries entries

end

/-- `REDACTED`. -/
def marker : String := String.ofList redacted.text

/-! ### Leaves -/

mutual

theorem mem_leaves_redactJson (x : Json) {u : String} (hu : u ∈ leaves (redactJson wide x)) :
    u = marker ∨ ∃ t ∈ scanned x, u = redactText wide t := by
  cases x with
  | str s => exact .inr ⟨s, List.mem_cons_self, List.mem_singleton.mp hu⟩
  | list items => exact mem_leaves_redactItems items hu
  | dict entries => exact mem_leaves_redactEntries entries hu
  | null => cases hu
  | bool b => cases hu
  | int n => cases hu
  | float q => cases hu
  | inf negative => cases hu

theorem mem_leaves_redactItems (items : List Json) {u : String} (hu : u ∈ leavesOfItems (redactItems wide items)) :
    u = marker ∨ ∃ t ∈ scannedItems items, u = redactText wide t := by
  cases items with
  | nil => cases hu
  | cons item items =>
    rcases List.mem_append.mp hu with hu | hu
    · rcases mem_leaves_redactJson item hu with hmark | ⟨t, ht, hred⟩
      · exact .inl hmark
      · exact .inr ⟨t, List.mem_append_left _ ht, hred⟩
    · rcases mem_leaves_redactItems items hu with hmark | ⟨t, ht, hred⟩
      · exact .inl hmark
      · exact .inr ⟨t, List.mem_append_right _ ht, hred⟩

theorem mem_leaves_redactEntries (entries : List (String × Json)) {u : String}
    (hu : u ∈ leavesOfEntries (redactEntries wide entries)) :
    u = marker ∨ ∃ t ∈ scannedEntries entries, u = redactText wide t := by
  cases entries with
  | nil => cases hu
  | cons entry entries =>
    obtain ⟨key, value⟩ := entry
    rw [redactEntries, leavesOfEntries] at hu
    rw [scannedEntries]
    rcases List.mem_append.mp hu with hu | hu
    · split at hu
      · exact .inl (List.mem_singleton.mp hu)
      · rename_i hkey
        rw [if_neg hkey]
        rcases mem_leaves_redactJson value hu with hmark | ⟨t, ht, hred⟩
        · exact .inl hmark
        · exact .inr ⟨t, List.mem_append_left _ ht, hred⟩
    · rcases mem_leaves_redactEntries entries hu with hmark | ⟨t, ht, hred⟩
      · exact .inl hmark
      · exact .inr ⟨t, List.mem_append_right _ ht, hred⟩

end

/-! ### Telling keys -/

mutual

theorem mem_entriesIn_redactJson (x : Json) {entry : String × Json} (h : entry ∈ entriesIn (redactJson wide x))
    (hkey : keyIsSensitive entry.1 = true) : entry.2 = .str marker := by
  cases x with
  | list items => exact mem_entriesIn_redactItems items h hkey
  | dict entries => exact mem_entriesIn_redactEntries entries h hkey
  | str s => cases h
  | null => cases h
  | bool b => cases h
  | int n => cases h
  | float q => cases h
  | inf negative => cases h

theorem mem_entriesIn_redactItems (items : List Json) {entry : String × Json}
    (h : entry ∈ entriesInItems (redactItems wide items)) (hkey : keyIsSensitive entry.1 = true) :
    entry.2 = .str marker := by
  cases items with
  | nil => cases h
  | cons item items =>
    rcases List.mem_append.mp h with h | h
    · exact mem_entriesIn_redactJson item h hkey
    · exact mem_entriesIn_redactItems items h hkey

theorem mem_entriesIn_redactEntries (entries : List (String × Json)) {entry : String × Json}
    (h : entry ∈ entriesInEntries (redactEntries wide entries)) (hkey : keyIsSensitive entry.1 = true) :
    entry.2 = .str marker := by
  cases entries with
  | nil => cases h
  | cons first entries =>
    obtain ⟨key, value⟩ := first
    rw [redactEntries, entriesInEntries] at h
    rcases List.mem_cons.mp h with rfl | h
    · exact if_pos hkey
    · rcases List.mem_append.mp h with h | h
      · split at h
        · cases h
        · exact mem_entriesIn_redactJson value h hkey
      · exact mem_entriesIn_redactEntries entries h hkey

end

/-! ### A second redaction -/

mutual

/-- A value is left as it is where the texts that go through the patterns are. -/
theorem redactJson_redactJson (x : Json)
    (h : ∀ t ∈ scanned x, redactText wide (redactText wide t) = redactText wide t) :
    redactJson wide (redactJson wide x) = redactJson wide x := by
  cases x with
  | str s => exact congrArg Json.str (h s List.mem_cons_self)
  | list items => exact congrArg Json.list (redactItems_redactItems items h)
  | dict entries => exact congrArg Json.dict (redactEntries_redactEntries entries h)
  | null => rfl
  | bool b => rfl
  | int n => rfl
  | float q => rfl
  | inf negative => rfl

theorem redactItems_redactItems (items : List Json)
    (h : ∀ t ∈ scannedItems items, redactText wide (redactText wide t) = redactText wide t) :
    redactItems wide (redactItems wide items) = redactItems wide items := by
  cases items with
  | nil => rfl
  | cons item items =>
    obtain ⟨hitem, hitems⟩ := List.forall_mem_append.mp h
    rw [redactItems, redactItems, redactJson_redactJson item hitem, redactItems_redactItems items hitems]

theorem redactEntries_redactEntries (entries : List (String × Json))
    (h : ∀ t ∈ scannedEntries entries, redactText wide (redactText wide t) = redactText wide t) :
    redactEntries wide (redactEntries wide entries) = redactEntries wide entries := by
  cases entries with
  | nil => rfl
  | cons entry entries =>
    obtain ⟨key, value⟩ := entry
    rw [scannedEntries] at h
    obtain ⟨hvalue, hentries⟩ := List.forall_mem_append.mp h
    rw [redactEntries, redactEntries, redactEntries_redactEntries entries hentries]
    by_cases hkey : keyIsSensitive key = true
    · rw [if_pos hkey, if_pos hkey]
    · rw [if_neg hkey] at hvalue
      rw [if_neg hkey, if_neg hkey, redactJson_redactJson value hvalue]

end

/-! ### The whole -/

/-- The key has a substring that tells of a secret. -/
def tells (key : String) : Bool := sensitiveKeySubstrings.any fun sensitive => decide (sensitive.toList <:+: lowerKey key)

/-- The key has an allow-listed name in it. -/
def hasAllowed (key : String) : Bool := keyAllowlist.any fun allowed => decide (allowed.toList <:+: lowerKey key)

theorem keyIsSensitive_of_tells {key : String} (h : tells key = true) (hallowed : hasAllowed key = false) :
    keyIsSensitive key = true := by
  rw [keyIsSensitive, Bool.and_eq_true, Bool.not_eq_true']
  exact ⟨hallowed, h⟩

theorem clean_redactText {t : String} (h : ¬overrun.In (isWord wide) t.toList) :
    Clean wide (redactText wide t).toList := by
  rw [redactText, String.toList_ofList]
  exact clean_redactChars h

theorem redactText_of_clean {t : String} (h : Clean wide t.toList) : redactText wide t = t := by
  rw [redactText, redactChars_of_clean h, String.ofList_toList]

/-- **What a value comes out of redaction as: no leaf in which a pattern finds something, but for what is made of
an overrun; the marker under every key that tells of a secret and has no allow-listed name in it; and, without
overruns, a value that a second redaction leaves as it is.** -/
theorem redactJson_complete (x : Json) :
    (∀ u ∈ leaves (redactJson wide x), Unredacted wide u.toList →
      ∃ t ∈ scanned x, u = redactText wide t ∧ overrun.In (isWord wide) t.toList) ∧
    (∀ entry ∈ entriesIn (redactJson wide x), tells entry.1 = true → hasAllowed entry.1 = false →
      entry.2 = .str marker) ∧
    ((∀ t ∈ scanned x, ¬overrun.In (isWord wide) t.toList) →
      redactJson wide (redactJson wide x) = redactJson wide x) := by
  refine ⟨fun u hu hfound => ?_, fun entry hentry htells hallowed => ?_, fun hover => ?_⟩
  · rcases mem_leaves_redactJson x hu with rfl | ⟨t, ht, rfl⟩
    · rw [marker, String.toList_ofList] at hfound
      exact absurd hfound (not_unredacted_of_clean clean_redacted)
    · refine ⟨t, ht, rfl, ?_⟩
      by_contra hover
      exact not_unredacted_of_clean (clean_redactText hover) hfound
  · exact mem_entriesIn_redactJson x hentry (keyIsSensitive_of_tells htells hallowed)
  · exact redactJson_redactJson x fun t ht => redactText_of_clean (clean_redactText (hover t ht))

/-- No word characters beyond ASCII. -/
def ascii : Char → Bool := fun _ => false

def accessKey : String := "AKIA0123456789ABCDEF"

/-- A secret of forty characters with an access key behind it. -/
def longSecret : String := String.ofList ("secret=".toList ++ List.replicate 40 'a' ++ accessKey.toList)

theorem redactText_longSecret : redactText ascii longSecret = "secret=[REDACTED]AKIA0123456789ABCDEF" := by
  decide +kernel

theorem unredacted_accessKey (before : List Char) (hbefore : before.getLast?.any (isWord ascii) = false) :
    Unredacted ascii (before ++ accessKey.toList) := by
  refine ⟨("aws_access_key", awsAccessKey), by simp [textPatterns], fun h => ?_⟩
  have hmark := h before accessKey.toList ⟨[], [], accessKey.toList, []⟩ rfl ?_
  · exact absurd hmark (by decide)
  · rw [Pattern.find, edge, hbefore]
    rfl

/-- A key is not scanned, an allow-listed name anywhere in a key keeps its value, and what stands behind the
forty characters of a secret is found only the second time. -/
theorem redactJson_incomplete :
    (∃ key ∈ (entriesIn (redactJson ascii (.dict [(accessKey, .null)]))).map (·.1), Unredacted ascii key.toList) ∧
    (∃ entry ∈ entriesIn (redactJson ascii (.dict [("password_public_key", .str "hunter2")])),
      tells entry.1 = true ∧ entry.1 ∉ keyAllowlist ∧ entry.2 ≠ .str marker) ∧
    (∃ u ∈ leaves (redactJson ascii (.str longSecret)), Unredacted ascii u.toList) ∧
    redactJson ascii (redactJson ascii (.str longSecret)) ≠ redactJson ascii (.str longSecret) := by
  refine ⟨⟨accessKey, List.mem_singleton_self _, unredacted_accessKey [] rfl⟩,
    ⟨("password_public_key", .str "hunter2"), ?_, by decide, by decide, fun h => ?_⟩,
    ⟨redactText ascii longSecret, List.mem_singleton_self _, ?_⟩, fun h => ?_⟩
  · have hkey : keyIsSensitive "password_public_key" = false := by decide
    have htext : redactText ascii "hunter2" = "hunter2" := by decide +kernel
    rw [redactJson, redactEntries, hkey, if_neg Bool.false_ne_true, redactJson, htext]
    exact List.mem_cons_self
  · exact absurd (Json.str.inj h) (by decide)
  · rw [redactText_longSecret]
    exact unredacted_accessKey "secret=[REDACTED]".toList rfl
  · have hagain := Json.str.inj h
    rw [redactText_longSecret] at hagain
    exact absurd hagain (by decide +kernel)

end Krewhub.Redact
