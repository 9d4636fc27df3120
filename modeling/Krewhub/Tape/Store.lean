import Krewhub.Python.Json
import Krewhub.Python.Value
import Mathlib.Data.List.Induction
import Mathlib.Logic.Function.Basic

/-!
# The tape store

`SqliteTapeStore` keeps the entries of tapes in `tape_entries`, and in a cache those of the tapes it has loaded.
Appending marks a tape as loaded, although it reads nothing: the cache is the table's as long as each tape that is
appended to has been loaded before, or has no entries yet.
-/

namespace Krewhub

/-- A row of `tape_entries`; `payload` and `metadata` are JSON texts. -/
structure TapeRow where
  id : Nat
  tapeName : String
  kind : String
  payload : String
  metadata : String
  createdAt : String
  deriving DecidableEq, Repr

/-- The table, in the order of the ids. An id is not given twice: `seq` is the greatest that has been given. -/
structure TapeEntries where
  rows : List TapeRow
  seq : Nat
  ascending : rows.Pairwise (·.id < ·.id)
  le_seq : ∀ row ∈ rows, row.id ≤ seq

namespace TapeEntries

/-- `INSERT`. -/
def insert (t : TapeEntries) (tapeName kind payload metadata createdAt : String) : TapeEntries where
  rows := t.rows ++ [⟨t.seq + 1, tapeName, kind, payload, metadata, createdAt⟩]
  seq := t.seq + 1
  ascending := by
    refine List.pairwise_append.mpr ⟨t.ascending, List.pairwise_singleton _ _, fun row hrow row' hrow' => ?_⟩
    rw [List.mem_singleton.mp hrow']
    exact Nat.lt_succ_of_le (t.le_seq row hrow)
  le_seq row hrow := by
    rcases List.mem_append.mp hrow with hrow | hrow
    · exact Nat.le_succ_of_le (t.le_seq row hrow)
    · rw [List.mem_singleton.mp hrow]

/-- `DELETE … WHERE tape_name = ?`. -/
def delete (t : TapeEntries) (tapeName : String) : TapeEntries where
  rows := t.rows.filter (·.tapeName ≠ tapeName)
  seq := t.seq
  ascending := t.ascending.filter _
  le_seq row hrow := t.le_seq row (List.mem_of_mem_filter hrow)

/-- `SELECT … WHERE tape_name = ? ORDER BY id ASC`. -/
def select (t : TapeEntries) (tapeName : String) : List TapeRow := t.rows.filter (·.tapeName = tapeName)

variable {t : TapeEntries} {tapeName tapeName' kind payload metadata createdAt : String}

theorem select_insert : (t.insert tapeName kind payload metadata createdAt).select tapeName =
    t.select tapeName ++ [⟨t.seq + 1, tapeName, kind, payload, metadata, createdAt⟩] := by
  rw [select, insert, List.filter_append]
  simp [select]

theorem select_insert_of_ne (h : tapeName' ≠ tapeName) :
    (t.insert tapeName kind payload metadata createdAt).select tapeName' = t.select tapeName' := by
  rw [select, insert, List.filter_append]
  simp [select, h.symm]

theorem select_delete_of_ne (h : tapeName' ≠ tapeName) : (t.delete tapeName).select tapeName' = t.select tapeName' := by
  rw [select, delete, List.filter_filter]
  refine List.filter_congr fun row _ => ?_
  by_cases heq : row.tapeName = tapeName'
  · simp [heq, h]
  · simp [heq]

end TapeEntries

/-- An entry; what a payload and its metadata are is left open. -/
structure TapeEntry (V : Type) where
  id : Nat
  kind : String
  payload : V
  metadata : V
  date : Option String := none

/-- `json.dumps` and `json.loads` on payloads. -/
structure JsonColumn (V : Type) where
  dumps : V → Except PyExc String
  loads : String → Except PyExc V

/-- `SqliteTapeStore`. -/
structure TapeStore (V : Type) where
  db : TapeEntries
  cache : String → Option (List (TapeEntry V)) := fun _ => none
  loaded : String → Bool := fun _ => false

section Operations

variable {V : Type} (c : JsonColumn V)

/-- `_row_to_entry`. -/
def TapeRow.toEntry (row : TapeRow) : Except PyExc (TapeEntry V) := do
  let payload ← c.loads row.payload
  let metadata ← c.loads row.metadata
  return ⟨row.id, row.kind, payload, metadata, some row.createdAt⟩

/-- The entries of a tape in the table, in the order of their ids. -/
def TapeEntries.entries (t : TapeEntries) (tape : String) : Except PyExc (List (TapeEntry V)) :=
  (t.select tape).mapM (·.toEntry c)

namespace TapeStore

def read (s : TapeStore V) (tape : String) : Option (List (TapeEntry V)) := s.cache tape

def load (s : TapeStore V) (tape : String) : Except PyExc Unit × TapeStore V :=
  match s.db.entries c tape with
  | .error exc => (.error exc, s)
  | .ok entries =>
    (.ok (), { s with
      cache := Function.update s.cache tape (some entries)
      loaded := Function.update s.loaded tape true })

def ensureLoaded (s : TapeStore V) (tape : String) : Except PyExc Unit × TapeStore V :=
  if s.loaded tape then (.ok (), s) else s.load c tape

/-- The date of an entry, if it has one, or the time. -/
def dateOf (entry : TapeEntry V) (now : String) : String := (entry.date.filter (· ≠ "")).getD now

def append (s : TapeStore V) (tape : String) (entry : TapeEntry V) (now : String) :
    Except PyExc (TapeEntry V) × TapeStore V :=
  match c.dumps entry.payload with
  | .error exc => (.error exc, s)
  | .ok payload =>
    match c.dumps entry.metadata with
    | .error exc => (.error exc, s)
    | .ok metadata =>
      let stored := { entry with id := s.db.seq + 1, date := some (dateOf entry now) }
      (.ok stored, {
        db := s.db.insert tape entry.kind payload metadata (dateOf entry now)
        cache := Function.update s.cache tape (some ((s.cache tape).getD [] ++ [stored]))
        loaded := Function.update s.loaded tape true })

def reset (s : TapeStore V) (tape : String) : TapeStore V where
  db := s.db.delete tape
  cache := Function.update s.cache tape none
  loaded := Function.update s.loaded tape false

/-- `async_fetch_all`; what a query is answered from. -/
def asyncFetchAll (s : TapeStore V) (tape : String) : Except PyExc (Option (List (TapeEntry V))) × TapeStore V :=
  match s.ensureLoaded c tape with
  | (.error exc, s') => (.error exc, s')
  | (.ok (), s') => (.ok (s'.read tape), s')

end TapeStore

/-- A call of the store; `now` is the time it reads. -/
inductive TapeStoreCall (V : Type) where
  | append (tape : String) (entry : TapeEntry V) (now : String)
  | ensureLoaded (tape : String)
  | load (tape : String)
  | reset (tape : String)
  | asyncFetchAll (tape : String)
  | read (tape : String)

def TapeStore.call (s : TapeStore V) : TapeStoreCall V → TapeStore V
  | .append tape entry now => (s.append c tape entry now).2
  | .ensureLoaded tape => (s.ensureLoaded c tape).2
  | .load tape => (s.load c tape).2
  | .reset tape => s.reset tape
  | .asyncFetchAll tape => (s.asyncFetchAll c tape).2
  | .read _ => s

def TapeStore.calls (s : TapeStore V) (calls : List (TapeStoreCall V)) : TapeStore V := calls.foldl (·.call c) s

end Operations

/-! ### Coherence -/

section Coherence

variable {V : Type} (c : JsonColumn V)

/-- What is cached of each loaded tape is what the table has of it. -/
def TapeStore.Coherent (s : TapeStore V) : Prop :=
  ∀ tape, s.loaded tape = true → ∃ entries, s.cache tape = some entries ∧ s.db.entries c tape = .ok entries

/-- Nothing is cached of the other tapes. -/
def TapeStore.Tidy (s : TapeStore V) : Prop := ∀ tape, s.loaded tape = false → s.cache tape = none

/-- Each query is answered from all the entries of its tape. -/
def TapeStore.FetchesAll (s : TapeStore V) : Prop :=
  ∀ tape, (s.asyncFetchAll c tape).1 = (s.db.entries c tape).map some

/-- What is appended can be read back, and so can what the tape had before: it has been loaded, or it has no
entries. -/
def TapeStoreCall.Meets (s : TapeStore V) : TapeStoreCall V → Prop
  | .append tape entry _ => ∀ payload metadata, c.dumps entry.payload = .ok payload →
      c.dumps entry.metadata = .ok metadata →
      (s.loaded tape = true ∨ s.db.select tape = []) ∧
        c.loads payload = .ok entry.payload ∧ c.loads metadata = .ok entry.metadata
  | _ => True

/-- Each call finds the store as it should be. -/
def TapeStore.AllMeet (s : TapeStore V) : List (TapeStoreCall V) → Prop
  | [] => True
  | call :: calls => call.Meets c s ∧ (s.call c call).AllMeet calls

namespace TapeStore

variable {c} {s : TapeStore V} {tape : String} {entry : TapeEntry V} {now payload metadata : String}

theorem Coherent.update {s' : TapeStore V} (h : s.Coherent c) (entries : List (TapeEntry V))
    (hloaded : ∀ tape', tape' ≠ tape → s'.loaded tape' = s.loaded tape')
    (hcache : ∀ tape', tape' ≠ tape → s'.cache tape' = s.cache tape')
    (hdb : ∀ tape', tape' ≠ tape → s'.db.entries c tape' = s.db.entries c tape')
    (htape : s'.loaded tape = true → s'.cache tape = some entries ∧ s'.db.entries c tape = .ok entries) :
    s'.Coherent c := by
  intro tape' htape'
  by_cases heq : tape' = tape
  · subst heq
    exact ⟨entries, htape htape'⟩
  · rw [hloaded tape' heq] at htape'
    rw [hcache tape' heq, hdb tape' heq]
    exact h tape' htape'

theorem load_eq_of_ok {entries : List (TapeEntry V)} (h : s.db.entries c tape = .ok entries) :
    s.load c tape = (.ok (), { s with
      cache := Function.update s.cache tape (some entries)
      loaded := Function.update s.loaded tape true }) := by
  rw [load, h]

theorem coherent_load (h : s.Coherent c) : (s.load c tape).2.Coherent c := by
  cases hentries : s.db.entries c tape with
  | error exc =>
    rw [load, hentries]
    exact h
  | ok entries =>
    rw [load_eq_of_ok hentries]
    refine h.update _ (fun _ hne => Function.update_of_ne hne _ _) (fun _ hne => Function.update_of_ne hne _ _)
      (fun _ _ => rfl) fun _ => ⟨Function.update_self .., hentries⟩

theorem tidy_load (h : s.Tidy) : (s.load c tape).2.Tidy := by
  cases hentries : s.db.entries c tape with
  | error exc =>
    rw [load, hentries]
    exact h
  | ok entries =>
    rw [load_eq_of_ok hentries]
    intro tape' htape'
    by_cases heq : tape' = tape
    · subst heq
      dsimp only at htape'
      rw [Function.update_self] at htape'
      cases htape'
    · dsimp only at htape' ⊢
      rw [Function.update_of_ne heq] at htape' ⊢
      exact h tape' htape'

theorem coherent_ensureLoaded (h : s.Coherent c) : (s.ensureLoaded c tape).2.Coherent c := by
  rw [ensureLoaded]
  split
  · exact h
  · exact coherent_load h

theorem tidy_ensureLoaded (h : s.Tidy) : (s.ensureLoaded c tape).2.Tidy := by
  rw [ensureLoaded]
  split
  · exact h
  · exact tidy_load h

theorem asyncFetchAll_snd (s : TapeStore V) (tape : String) :
    (s.asyncFetchAll c tape).2 = (s.ensureLoaded c tape).2 := by
  rw [asyncFetchAll]
  split
  · rename_i heq
    rw [heq]
  · rename_i heq
    rw [heq]

theorem coherent_reset (h : s.Coherent c) : (s.reset tape).Coherent c := by
  refine h.update [] (fun _ hne => Function.update_of_ne hne _ _)
    (fun _ hne => Function.update_of_ne hne _ _) (fun tape' hne => ?_) fun htape => ?_
  · rw [TapeEntries.entries, reset, TapeEntries.select_delete_of_ne hne]
    rfl
  · rw [reset] at htape
    dsimp only at htape
    rw [Function.update_self] at htape
    cases htape

theorem tidy_reset (h : s.Tidy) : (s.reset tape).Tidy := by
  intro tape' htape'
  rw [reset] at htape' ⊢
  dsimp only at htape' ⊢
  by_cases heq : tape' = tape
  · rw [heq, Function.update_self]
  · rw [Function.update_of_ne heq] at htape' ⊢
    exact h tape' htape'

theorem mapM_concat_eq_ok {α β : Type} {f : α → Except PyExc β} {l : List α} {a : α} {bs : List β} {b : β} :
    (l ++ [a]).mapM f = .ok (bs ++ [b]) ↔ l.mapM f = .ok bs ∧ f a = .ok b := by
  rw [List.mapM_append, List.mapM_cons, List.mapM_nil]
  cases l.mapM f <;> cases f a <;> simp [bind, Except.bind, pure, Except.pure]

theorem mapM_eq_ok_nil {α β : Type} {f : α → Except PyExc β} {l : List α} : l.mapM f = .ok [] ↔ l = [] := by
  cases l with
  | nil => exact iff_of_true rfl rfl
  | cons a l =>
    rw [List.mapM_cons]
    cases f a <;> cases l.mapM f <;> simp [bind, Except.bind, pure, Except.pure]

theorem toEntry_eq_ok_iff {id : Nat} {kind date : String} :
    TapeRow.toEntry c ⟨id, tape, kind, payload, metadata, date⟩ =
        .ok ⟨id, kind, entry.payload, entry.metadata, some date⟩ ↔
      c.loads payload = .ok entry.payload ∧ c.loads metadata = .ok entry.metadata := by
  rw [TapeRow.toEntry]
  cases c.loads payload <;> cases c.loads metadata <;> simp [bind, Except.bind, pure, Except.pure]

theorem entries_insert_iff {t : TapeEntries} {date : String} {entries : List (TapeEntry V)} :
    (t.insert tape entry.kind payload metadata date).entries c tape =
        .ok (entries ++ [{ entry with id := t.seq + 1, date := some date }]) ↔
      t.entries c tape = .ok entries ∧ c.loads payload = .ok entry.payload ∧ c.loads metadata = .ok entry.metadata := by
  rw [TapeEntries.entries, TapeEntries.select_insert]
  exact mapM_concat_eq_ok.trans (and_congr_right' toEntry_eq_ok_iff)

/-- What is cached of a tape is what the table has, where the tape has been loaded or there is nothing. -/
theorem entries_eq_cached_iff (h : s.Coherent c) (htidy : s.Tidy) :
    s.db.entries c tape = .ok ((s.cache tape).getD []) ↔ s.loaded tape = true ∨ s.db.select tape = [] := by
  cases hloaded : s.loaded tape with
  | true =>
    obtain ⟨entries, hcache, hentries⟩ := h tape hloaded
    rw [hcache, hentries]
    exact iff_of_true rfl (.inl rfl)
  | false =>
    rw [htidy tape hloaded, TapeEntries.entries, Option.getD_none, mapM_eq_ok_nil]
    exact (or_iff_right Bool.false_ne_true).symm

theorem append_eq_of_ok (hpayload : c.dumps entry.payload = .ok payload)
    (hmetadata : c.dumps entry.metadata = .ok metadata) :
    s.append c tape entry now =
      (.ok { entry with id := s.db.seq + 1, date := some (dateOf entry now) }, {
        db := s.db.insert tape entry.kind payload metadata (dateOf entry now)
        cache := Function.update s.cache tape
          (some ((s.cache tape).getD [] ++ [{ entry with id := s.db.seq + 1, date := some (dateOf entry now) }]))
        loaded := Function.update s.loaded tape true }) := by
  rw [append, hpayload]
  dsimp only
  rw [hmetadata]

/-- An append keeps the cache coherent exactly where it finds the store as it should be. -/
theorem coherent_append_iff (h : s.Coherent c) (htidy : s.Tidy) :
    (s.append c tape entry now).2.Coherent c ↔ (TapeStoreCall.append tape entry now).Meets c s := by
  rw [TapeStoreCall.Meets]
  cases hpayload : c.dumps entry.payload with
  | error exc =>
    rw [append, hpayload]
    exact iff_of_true h (nofun)
  | ok payload =>
    cases hmetadata : c.dumps entry.metadata with
    | error exc =>
      rw [append, hpayload]
      dsimp only
      rw [hmetadata]
      exact iff_of_true h (nofun)
    | ok metadata =>
      have hforall : ∀ {P : String → String → Prop}, (∀ p m, Except.ok (ε := PyExc) payload = .ok p →
          Except.ok (ε := PyExc) metadata = .ok m → P p m) ↔ P payload metadata :=
        ⟨fun hall => hall _ _ rfl rfl, fun hP _ _ hp hm => Except.ok.inj hp ▸ Except.ok.inj hm ▸ hP⟩
      rw [hforall, ← entries_eq_cached_iff h htidy, append_eq_of_ok hpayload hmetadata, ← entries_insert_iff]
      constructor
      · intro hcoherent
        obtain ⟨entries, hcache, hentries⟩ := hcoherent tape (Function.update_self ..)
        dsimp only at hcache
        rw [Function.update_self] at hcache
        rw [Option.some.inj hcache]
        exact hentries
      · intro hentries
        refine h.update _ (fun _ hne => Function.update_of_ne hne _ _) (fun _ hne => Function.update_of_ne hne _ _)
          (fun tape' hne => ?_) fun _ => ⟨Function.update_self .., hentries⟩
        rw [TapeEntries.entries, TapeEntries.select_insert_of_ne hne]
        rfl

theorem tidy_append (h : s.Tidy) : (s.append c tape entry now).2.Tidy := by
  rw [append]
  split
  · exact h
  · split
    · exact h
    · intro tape' htape'
      dsimp only at htape' ⊢
      by_cases heq : tape' = tape
      · rw [heq, Function.update_self] at htape'
        cases htape'
      · rw [Function.update_of_ne heq] at htape' ⊢
        exact h tape' htape'

theorem tidy_call (h : s.Tidy) (call : TapeStoreCall V) : (s.call c call).Tidy := by
  cases call with
  | append tape entry now => exact tidy_append h
  | ensureLoaded tape => exact tidy_ensureLoaded h
  | load tape => exact tidy_load h
  | reset tape => exact tidy_reset h
  | asyncFetchAll tape =>
    rw [TapeStore.call, asyncFetchAll_snd]
    exact tidy_ensureLoaded h
  | read tape => exact h

/-- What a call does to the cache. -/
theorem coherent_call_iff (h : s.Coherent c) (htidy : s.Tidy) (call : TapeStoreCall V) :
    (s.call c call).Coherent c ↔ call.Meets c s := by
  cases call with
  | append tape entry now => exact coherent_append_iff h htidy
  | ensureLoaded tape => exact iff_of_true (coherent_ensureLoaded h) trivial
  | load tape => exact iff_of_true (coherent_load h) trivial
  | reset tape => exact iff_of_true (coherent_reset h) trivial
  | asyncFetchAll tape =>
    rw [TapeStore.call, asyncFetchAll_snd]
    exact iff_of_true (coherent_ensureLoaded h) trivial
  | read tape => exact iff_of_true h trivial

/-- A query is answered from all the entries of its tape. -/
theorem Coherent.fetchesAll (h : s.Coherent c) : s.FetchesAll c := by
  intro tape
  rw [asyncFetchAll, ensureLoaded]
  by_cases hloaded : s.loaded tape = true
  · obtain ⟨entries, hcache, hentries⟩ := h tape hloaded
    rw [if_pos hloaded, hentries]
    exact congrArg Except.ok hcache
  · rw [if_neg hloaded, load]
    cases hentries : s.db.entries c tape with
    | error exc => rfl
    | ok entries => exact congrArg Except.ok (Function.update_self ..)

theorem coherent_calls_iff (h : s.Coherent c) (htidy : s.Tidy) (calls : List (TapeStoreCall V)) :
    (∀ k, (s.calls c (calls.take k)).Coherent c) ↔ s.AllMeet c calls := by
  induction calls generalizing s with
  | nil => exact iff_of_true (fun k => by rwa [List.take_nil]) trivial
  | cons call calls ih =>
    have htail : (∀ k, (s.calls c ((call :: calls).take k)).Coherent c) ↔
        ∀ k, ((s.call c call).calls c (calls.take k)).Coherent c := by
      refine ⟨fun hall k => hall (k + 1), fun hall k => ?_⟩
      cases k with
      | zero => exact h
      | succ k => exact hall k
    rw [htail, AllMeet]
    constructor
    · intro hall
      have hcoherent : (s.call c call).Coherent c := hall 0
      exact ⟨(coherent_call_iff h htidy call).mp hcoherent, (ih hcoherent (tidy_call htidy call)).mp hall⟩
    · rintro ⟨hmeets, hrest⟩
      exact (ih ((coherent_call_iff h htidy call).mpr hmeets) (tidy_call htidy call)).mpr hrest

end TapeStore

end Coherence

/-- **The cache is coherent after every call**, so that every query is answered from all the entries of its tape,
exactly where each call of the run finds the store as it should be. -/
theorem TapeStore.cache_coherent_iff {V : Type} (c : JsonColumn V) (db : TapeEntries) (calls : List (TapeStoreCall V)) :
    (∀ k, (TapeStore.calls c { db } (calls.take k)).Coherent c ∧ (TapeStore.calls c { db } (calls.take k)).FetchesAll c) ↔
      TapeStore.AllMeet c { db } calls := by
  rw [← TapeStore.coherent_calls_iff (fun _ h => Bool.noConfusion h) (fun _ _ => rfl)]
  exact forall_congr' fun _ => ⟨And.left, fun h => ⟨h, h.fetchesAll⟩⟩

section Samples

/-- `json` as far as empty objects go. -/
def emptyObjects : JsonColumn Json where
  dumps v := .ok (v.dumps fun _ => "0.0")
  loads s := if s = "\x7b\x7d" then .ok (.dict []) else .error .jsonDecodeError

/-- A tape with one entry. -/
def tapeBefore : TapeEntries where
  rows := [⟨1, "cookbook:a", "milestone", "\x7b\x7d", "\x7b\x7d", "t"⟩]
  seq := 1
  ascending := List.pairwise_singleton _ _
  le_seq _ hrow := by rw [List.mem_singleton.mp hrow]

end Samples

/-- An entry is appended to a tape that has one and has not been loaded. -/
theorem TapeStore.append_hides_entries :
    ¬ ∀ (V : Type) (c : JsonColumn V) (db : TapeEntries) (calls : List (TapeStoreCall V)) (k : Nat),
      (TapeStore.calls c { db } (calls.take k)).Coherent c := by
  intro h
  have hcoherent := h Json emptyObjects tapeBefore
    [.append "cookbook:a" ⟨0, "milestone", .dict [], .dict [], none⟩ "u"] 1
  obtain ⟨entries, hcache, hentries⟩ := hcoherent "cookbook:a" (by decide +kernel)
  have hone := congrArg (Option.map List.length) hcache
  have htwo := congrArg (fun result => result.toOption.map List.length) hentries
  have hlengths : some entries.length = some 1 ∧ some entries.length = some 2 :=
    ⟨hone.symm.trans (by decide +kernel), htwo.symm.trans (by decide +kernel)⟩
  cases hlengths.1.symm.trans hlengths.2

end Krewhub
