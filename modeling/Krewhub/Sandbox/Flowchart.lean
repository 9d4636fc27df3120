import Krewhub.Sandbox.Rendering
import Mathlib.Data.List.Forall2
import Mathlib.Data.Set.Function

/-!
# The picture of a graph

What a flowchart says to one who reads its text: the nodes that are declared and the arrows between them. A node
is declared under a safe id, in which every character but the letters and digits of ASCII has become an underscore,
so that two steps can end up as one node; and a step can have the name of a word of the language, which declares no
node. What the words of the language are, and how `str.title` changes a label, is left open.
-/

namespace Krewhub

/-- `str.title`, which makes no quotation mark, backslash or line feed. -/
structure TitleCase where
  title : String → String
  ascii : ∀ s, (∀ c ∈ s.toList, c.toNat < 128) → title s = Text.title s
  quiet : ∀ s, ∀ c ∈ (title s).toList, c = '"' ∨ c = '\\' ∨ c = '\n' → c ∈ s.toList

/-- The words that are no ids in a flowchart; they have letters and digits only. -/
structure FlowchartWords where
  words : List String
  plain : ∀ word ∈ words, ∀ c ∈ word.toList, c.isAlphanum = true

/-! ### Writing -/

section Write

variable (T : TitleCase)

def humanizeBy (nodeId : String) : String :=
  T.title (String.ofList ((spaceUppers nodeId.toList).map fun c => if c = '_' then ' ' else c))

/-- The lines of the flowchart after the first. -/
def mermaidLinesBy (nodeIds : List String) (edges : List (String × String)) : List String :=
  let incoming (nid : String) := (edges.filter (·.2 == nid)).map (·.1)
  let outgoing (nid : String) := (edges.filter (·.1 == nid)).map (·.2)
  let roots := nodeIds.filter fun nid => (incoming nid).isEmpty
  let leaves := nodeIds.filter fun nid => (outgoing nid).isEmpty
  (nodeIds.map fun nid => "    " ++ safeId nid ++ "[\"" ++ escapeMermaid (humanizeBy T nid) ++ "\"]") ++
  (edges.map fun e => "    " ++ safeId e.1 ++ " --> " ++ safeId e.2) ++
  (if roots.isEmpty then [] else
    ["    classDef root fill:#e8f5e9,stroke:#4caf50,stroke-width:2px",
      "    class " ++ ",".intercalate (roots.map safeId) ++ " root"]) ++
  (if leaves.isEmpty then [] else
    ["    classDef leaf fill:#e3f2fd,stroke:#2196f3,stroke-width:2px",
      "    class " ++ ",".intercalate (leaves.map safeId) ++ " leaf"])

/-- `render_graph`. -/
def BuiltGraph.renderGraphBy (limit : Nat) (sets : SetOrder) (g : BuiltGraph) (direction : String) :
    Except Exn RenderedGraph :=
  if direction ∉ validDirections then
    .error (.valueError ("invalid direction " ++ pyRepr direction ++
      "; must be one of ['BT', 'LR', 'RL', 'TB', 'TD']"))
  else match g.extractGraphStructure limit sets with
    | none => .error .recursionError
    | some (nodeIds, edges) =>
      if nodeIds.isEmpty then .ok ⟨"flowchart " ++ direction, 0, 0⟩
      else .ok ⟨"\n".intercalate (("flowchart " ++ direction) :: mermaidLinesBy T nodeIds edges), nodeIds.length,
        edges.length⟩

/-- Where `str.title` is that of ASCII, this is the rendering above. -/
theorem BuiltGraph.renderGraphBy_eq (h : T.title = Text.title) (limit : Nat) (sets : SetOrder) (g : BuiltGraph)
    (direction : String) :
    g.renderGraphBy T limit sets direction = g.renderGraph limit sets direction := by
  have hlines : mermaidLinesBy T = mermaidLines := by
    funext nodeIds edges
    simp only [mermaidLinesBy, mermaidLines, humanizeBy, humanize, h]
  rw [renderGraphBy, hlines]
  rfl

end Write

/-! ### Reading -/

def isIdChar (c : Char) : Bool := c.isAlphanum || c == '_'

/-- A line of a flowchart: a node, an arrow, or how nodes are shown. -/
inductive FlowLine where
  | node (id : String)
  | arrow (src dst : String)
  | style
  deriving DecidableEq, Repr

def FlowLine.node? : FlowLine → Option String
  | node id => some id
  | _ => none

def FlowLine.arrow? : FlowLine → Option (String × String)
  | arrow src dst => some (src, dst)
  | _ => none

section Read

variable (words : List String)

/-- An id, unless it is a word of the language. -/
def readId (cs : List Char) : Option String :=
  if cs.isEmpty ∨ cs.all isIdChar = false ∨ String.ofList cs ∈ words then none else some (String.ofList cs)

def readLine : List Char → Option FlowLine
  | ' ' :: ' ' :: ' ' :: ' ' :: body =>
    match body.dropWhile isIdChar with
    | '[' :: '"' :: label =>
      if label.dropWhile (· != '"') = ['"', ']'] then (readId words (body.takeWhile isIdChar)).map .node else none
    | ' ' :: '-' :: '-' :: '>' :: ' ' :: dst => do
      return .arrow (← readId words (body.takeWhile isIdChar)) (← readId words dst)
    | ' ' :: _ =>
      if body.takeWhile isIdChar = "class".toList ∨ body.takeWhile isIdChar = "classDef".toList then some .style
      else none
    | _ => none
  | _ => none

/-- The nodes that are declared, and the arrows. -/
def readFlowchart (text : String) : Option (List String × List (String × String)) :=
  match text.toList.splitOn '\n' with
  | header :: lines =>
    if ∃ direction ∈ validDirections, header = ("flowchart " ++ direction).toList then
      (lines.mapM (readLine words)).map fun lines => (lines.filterMap (·.node?), lines.filterMap (·.arrow?))
    else none
  | [] => none

end Read

/-- The picture has as many nodes and arrows as it says, all of them different, and they are the steps and the edges
of the graph under other names. -/
def RenderedGraph.Faithful (words : List String) (nodeIds : List String) (edges : List (String × String))
    (r : RenderedGraph) : Prop :=
  ∃ nodes arrows, readFlowchart words r.mermaid = some (nodes, arrows) ∧
    nodes.Nodup ∧ nodes.length = r.nodeCount ∧ arrows.Nodup ∧ arrows.length = r.edgeCount ∧
    ∃ back : String → String, nodes.map back = nodeIds ∧ arrows.map (Prod.map back back) = edges

/-- What holds of an identifier of Python: it is not empty, and of ASCII it has letters, digits and underscores
only. -/
structure IsIdentifier (s : String) : Prop where
  ne_empty : s ≠ ""
  ascii : ∀ c ∈ s.toList, c.toNat < 128 → isIdChar c = true

/-- Two names that are equal but for underscores and characters that are not of ASCII. -/
def Alike (s t : String) : Prop :=
  List.Forall₂ (fun c d => c = d ∨ c.isAlphanum = false ∧ d.isAlphanum = false) s.toList t.toList

/-! ### Ids -/

section Ids

variable {a b nid : String} {c d : Char}

/-- What becomes of a character. -/
def safeChar (c : Char) : Char := if c.isAlphanum || c == '_' then c else '_'

theorem toList_safeId (nid : String) : (safeId nid).toList = nid.toList.map safeChar := by
  rw [safeId, String.toList_ofList]
  rfl

theorem isIdChar_safeChar (c : Char) : isIdChar (safeChar c) = true := by
  rw [safeChar]
  split
  · assumption
  · rfl

theorem isIdChar_of_mem_safeId (h : c ∈ (safeId nid).toList) : isIdChar c = true := by
  rw [toList_safeId] at h
  obtain ⟨d, -, rfl⟩ := List.mem_map.mp h
  exact isIdChar_safeChar d

theorem safeChar_of_isAlphanum (h : c.isAlphanum = true) : safeChar c = c := if_pos (by rw [h]; rfl)

theorem safeChar_of_not_isAlphanum (h : c.isAlphanum = false) : safeChar c = '_' := by
  by_cases hc : c = '_'
  · rw [hc]
    rfl
  · exact if_neg (by simp [h, hc])

theorem safeChar_eq_iff : safeChar c = safeChar d ↔ c = d ∨ c.isAlphanum = false ∧ d.isAlphanum = false := by
  cases hc : c.isAlphanum with
  | true =>
    rw [safeChar_of_isAlphanum hc]
    cases hd : d.isAlphanum with
    | true => simp [safeChar_of_isAlphanum hd]
    | false =>
      rw [safeChar_of_not_isAlphanum hd]
      have hne : c ≠ '_' := by
        rintro rfl
        cases hc
      have hne' : c ≠ d := by
        rintro rfl
        rw [hc] at hd
        cases hd
      simp [hne, hne']
  | false =>
    rw [safeChar_of_not_isAlphanum hc]
    cases hd : d.isAlphanum with
    | true =>
      rw [safeChar_of_isAlphanum hd]
      have hne : '_' ≠ d := by
        rintro rfl
        cases hd
      have hne' : c ≠ d := by
        rintro rfl
        rw [hd] at hc
        cases hc
      simp [hne, hne']
    | false => simp [safeChar_of_not_isAlphanum hd]

/-- Two steps become one node where their names are alike. -/
theorem safeId_eq_iff : safeId a = safeId b ↔ Alike a b := by
  rw [← String.toList_inj, toList_safeId, toList_safeId, Alike, ← List.forall₂_eq_eq_eq,
    List.forall₂_map_left_iff, List.forall₂_map_right_iff]
  simp only [safeChar_eq_iff]

/-- A step ends up as a word of the language only where that is its name. -/
theorem safeId_mem_words_iff (W : FlowchartWords) : safeId nid ∈ W.words ↔ nid ∈ W.words := by
  have hplain : (∀ c ∈ nid.toList, c.isAlphanum = true) → safeId nid = nid := by
    intro h
    rw [← String.toList_inj, toList_safeId]
    exact (List.map_congr_left fun c hc => safeChar_of_isAlphanum (h c hc)).trans (List.map_id _)
  constructor
  · intro h
    have hall : ∀ c ∈ nid.toList, c.isAlphanum = true := by
      intro c hc
      by_contra hnot
      have hmem : '_' ∈ (safeId nid).toList := by
        rw [toList_safeId, ← safeChar_of_not_isAlphanum (Bool.eq_false_iff.mpr hnot)]
        exact List.mem_map_of_mem hc
      exact absurd (W.plain _ h _ hmem) (by decide)
    rwa [hplain hall] at h
  · intro h
    rwa [hplain (W.plain nid h)]

theorem readId_safeId (W : FlowchartWords) (h : nid ≠ "") :
    readId W.words (safeId nid).toList = if nid ∈ W.words then none else some (safeId nid) := by
  have hne : (safeId nid).toList.isEmpty = false := by
    rw [toList_safeId, List.isEmpty_map, List.isEmpty_eq_false_iff]
    exact fun hnil => h (String.toList_inj.mp hnil)
  have hall : (safeId nid).toList.all isIdChar = true := List.all_eq_true.mpr fun c => isIdChar_of_mem_safeId
  rw [readId, String.ofList_toList, hne, hall]
  simp [safeId_mem_words_iff]

end Ids

/-! ### Lines -/

section Lines

variable {T : TitleCase} {W : FlowchartWords} {nid src dst : String} {c : Char}

/-- No label has a quotation mark, a backslash or a line feed. -/
theorem not_mem_humanizeBy (h : IsIdentifier nid) (hc : c = '"' ∨ c = '\\' ∨ c = '\n') :
    c ∉ (humanizeBy T nid).toList := by
  intro hmem
  have hsource := T.quiet _ c hmem hc
  rw [String.toList_ofList] at hsource
  obtain ⟨d, hd, rfl⟩ := List.mem_map.mp hsource
  have hnot : ∀ c ∈ nid.toList, ¬ (c = '"' ∨ c = '\\' ∨ c = '\n') := by
    intro c hc hquiet
    have hid := h.ascii c hc (by rcases hquiet with rfl | rfl | rfl <;> decide)
    rcases hquiet with rfl | rfl | rfl <;> cases hid
  have hd' : d ∈ nid.toList ∨ d = ' ' := by
    cases hnid : nid.toList with
    | nil =>
      rw [hnid] at hd
      cases hd
    | cons x xs =>
      rw [hnid, spaceUppers, List.mem_cons, List.mem_flatMap] at hd
      rcases hd with rfl | ⟨y, hy, hd⟩
      · exact .inl List.mem_cons_self
      · split at hd
        · rcases List.mem_pair.mp hd with rfl | rfl
          · exact .inr rfl
          · exact .inl (List.mem_cons_of_mem _ hy)
        · rw [List.mem_singleton.mp hd]
          exact .inl (List.mem_cons_of_mem _ hy)
  rcases hd' with hd' | rfl
  · split at hc
    · rcases hc with hc | hc | hc <;> cases hc
    · exact hnot d hd' hc
  · rcases hc with hc | hc | hc <;> cases hc

theorem toList_escapeMermaid (h : IsIdentifier nid) :
    (escapeMermaid (humanizeBy T nid)).toList = (humanizeBy T nid).toList := by
  rw [escapeMermaid, String.toList_ofList]
  have hsame : ∀ c ∈ (humanizeBy T nid).toList,
      (if c = '\\' then ['\\', '\\'] else if c = '"' then ['\\', '"'] else [c]) = [c] := by
    intro c hc
    rw [if_neg fun heq => not_mem_humanizeBy h (.inr (.inl heq)) hc,
      if_neg fun heq => not_mem_humanizeBy h (.inl heq) hc]
  rw [List.flatMap_congr hsame, List.flatMap_singleton']

/-- A line with an id after four spaces, and what comes behind the id. -/
theorem span_safeId (nid : String) (rest : List Char) (hrest : ∀ c ∈ rest.head?, isIdChar c = false) :
    ((safeId nid).toList ++ rest).takeWhile isIdChar = (safeId nid).toList ∧
      ((safeId nid).toList ++ rest).dropWhile isIdChar = rest := by
  have hid : ∀ c ∈ (safeId nid).toList, isIdChar c = true := fun c => isIdChar_of_mem_safeId
  cases rest with
  | nil =>
    rw [List.append_nil, List.takeWhile_eq_self_iff, List.dropWhile_eq_nil_iff]
    exact ⟨hid, hid⟩
  | cons c rest =>
    have hc : isIdChar c = false := hrest c rfl
    rw [List.takeWhile_append_of_pos hid, List.dropWhile_append_of_pos hid, List.takeWhile_cons_of_neg (by simp [hc]),
      List.dropWhile_cons_of_neg (by simp [hc]), List.append_nil]
    exact ⟨rfl, rfl⟩

theorem readLine_nodeLine (h : IsIdentifier nid) :
    readLine W.words ("    " ++ safeId nid ++ "[\"" ++ escapeMermaid (humanizeBy T nid) ++ "\"]").toList =
      if nid ∈ W.words then none else some (.node (safeId nid)) := by
  have htext : ("    " ++ safeId nid ++ "[\"" ++ escapeMermaid (humanizeBy T nid) ++ "\"]").toList =
      ' ' :: ' ' :: ' ' :: ' ' ::
        ((safeId nid).toList ++ '[' :: '"' :: ((humanizeBy T nid).toList ++ ['"', ']'])) := by
    simp [String.toList_append, toList_escapeMermaid h]
  obtain ⟨htake, hdrop⟩ := span_safeId nid ('[' :: '"' :: ((humanizeBy T nid).toList ++ ['"', ']'])) fun c hc => by
    obtain rfl := Option.some.inj hc
    rfl
  have hlabel : ((humanizeBy T nid).toList ++ ['"', ']']).dropWhile (· != '"') = ['"', ']'] := by
    rw [List.dropWhile_append_of_pos]
    · rfl
    · intro c hc
      rw [bne_iff_ne]
      exact fun heq => not_mem_humanizeBy h (.inl heq) hc
  rw [htext, readLine, hdrop, htake]
  change (if ((humanizeBy T nid).toList ++ ['"', ']']).dropWhile (· != '"') = ['"', ']'] then
    (readId W.words (safeId nid).toList).map FlowLine.node else none) = _
  rw [if_pos hlabel, readId_safeId W h.ne_empty]
  split <;> rfl

theorem readLine_arrowLine (hsrc : IsIdentifier src) (hdst : IsIdentifier dst) (hsrc' : src ∉ W.words)
    (hdst' : dst ∉ W.words) :
    readLine W.words ("    " ++ safeId src ++ " --> " ++ safeId dst).toList =
      some (.arrow (safeId src) (safeId dst)) := by
  have htext : ("    " ++ safeId src ++ " --> " ++ safeId dst).toList =
      ' ' :: ' ' :: ' ' :: ' ' :: ((safeId src).toList ++ ' ' :: '-' :: '-' :: '>' :: ' ' :: (safeId dst).toList) := by
    simp [String.toList_append]
  obtain ⟨htake, hdrop⟩ := span_safeId src (' ' :: '-' :: '-' :: '>' :: ' ' :: (safeId dst).toList) fun c hc => by
    obtain rfl := Option.some.inj hc
    rfl
  rw [htext, readLine, hdrop, htake]
  change (do
    return FlowLine.arrow (← readId W.words (safeId src).toList) (← readId W.words (safeId dst).toList) :
      Option FlowLine) = _
  rw [readId_safeId W hsrc.ne_empty, readId_safeId W hdst.ne_empty, if_neg hsrc', if_neg hdst']
  rfl

theorem safeId_eq_cons (h : nid ≠ "") : ∃ c cs, (safeId nid).toList = c :: cs ∧ isIdChar c = true := by
  cases hlist : (safeId nid).toList with
  | nil =>
    rw [toList_safeId, List.map_eq_nil_iff] at hlist
    exact absurd (String.toList_inj.mp hlist) h
  | cons c cs => exact ⟨c, cs, rfl, isIdChar_of_mem_safeId (hlist ▸ List.mem_cons_self)⟩

/-- A line that begins with a word that says how nodes are shown. -/
theorem readLine_styleLine (word : String) (rest : List Char) (hword : word = "class" ∨ word = "classDef")
    (hrest : rest.head? ≠ some '-') :
    readLine W.words (' ' :: ' ' :: ' ' :: ' ' :: (word.toList ++ ' ' :: rest)) = some .style := by
  have hsafe : safeId word = word := by rcases hword with rfl | rfl <;> decide +kernel
  obtain ⟨htake, hdrop⟩ := span_safeId word (' ' :: rest) fun c hc => by
    obtain rfl := Option.some.inj hc
    rfl
  rw [hsafe] at htake hdrop
  rw [readLine, hdrop, htake]
  have hstyle : (if word.toList = "class".toList ∨ word.toList = "classDef".toList then some FlowLine.style
      else none) = some .style := by
    refine if_pos ?_
    rcases hword with rfl | rfl
    · exact .inl rfl
    · exact .inr rfl
  cases rest with
  | nil => exact hstyle
  | cons c rest =>
    split
    · rename_i heq
      cases heq
    · rename_i heq
      obtain ⟨rfl, -⟩ := List.cons.inj (List.cons.inj heq).2
      exact absurd rfl hrest
    · exact hstyle
    · rename_i hnot
      exact absurd rfl (hnot _)

/-- The steps of a `class` line. -/
theorem intercalate_eq_cons {nids : List String} (hne : nids ≠ []) (h : ∀ nid ∈ nids, nid ≠ "") :
    ∃ c cs, (",".intercalate (nids.map safeId)).toList = c :: cs ∧ isIdChar c = true := by
  cases nids with
  | nil => exact absurd rfl hne
  | cons nid nids =>
    obtain ⟨c, cs, hcons, hc⟩ := safeId_eq_cons (h nid List.mem_cons_self)
    rw [String.toList_intercalate, List.map_map, List.map_cons, Function.comp_apply, hcons]
    cases nids with
    | nil =>
      rw [List.map_nil, List.intercalate_singleton]
      exact ⟨c, cs, rfl, hc⟩
    | cons nid' nids =>
      rw [List.map_cons, List.intercalate_cons_cons]
      exact ⟨c, _, rfl, hc⟩

theorem mapM_eq_some_map {α β : Type} {f : α → Option β} {g : α → β} {l : List α}
    (h : ∀ a ∈ l, f a = some (g a)) : l.mapM f = some (l.map g) := by
  induction l with
  | nil => rfl
  | cons a l ih =>
    rw [List.forall_mem_cons] at h
    rw [List.mapM_cons, h.1, ih h.2]
    rfl

theorem mapM_eq_none {α β : Type} {f : α → Option β} {l : List α} {a : α} (ha : a ∈ l) (h : f a = none) :
    l.mapM f = none := by
  induction l with
  | nil => cases ha
  | cons b l ih =>
    rw [List.mapM_cons]
    rcases List.mem_cons.mp ha with rfl | ha
    · rw [h]
      rfl
    · rw [ih ha]
      cases f b <;> rfl

theorem mapM_append_eq_some {α β : Type} {f : α → Option β} {l l' : List α} {bs bs' : List β}
    (h : l.mapM f = some bs) (h' : l'.mapM f = some bs') : (l ++ l').mapM f = some (bs ++ bs') := by
  rw [List.mapM_append, h, h']
  rfl

/-- The lines that say how some steps are shown. -/
theorem mapM_styleLines {nids : List String} {definition : String} (suffix : String)
    (hdefinition : readLine W.words definition.toList = some .style) (h : ∀ nid ∈ nids, nid ≠ "") :
    ∃ styles : List FlowLine, (∀ line ∈ styles, line = .style) ∧
      ((if nids.isEmpty then [] else
        [definition, "    class " ++ ",".intercalate (nids.map safeId) ++ suffix]).map String.toList).mapM
          (readLine W.words) = some styles := by
  cases nids with
  | nil => exact ⟨[], (nofun), rfl⟩
  | cons nid nids =>
    obtain ⟨c, cs, hcons, hc⟩ := intercalate_eq_cons (List.cons_ne_nil nid nids) h
    have htext : ("    class " ++ ",".intercalate ((nid :: nids).map safeId) ++ suffix).toList =
        ' ' :: ' ' :: ' ' :: ' ' :: ("class".toList ++ ' ' :: (c :: cs ++ suffix.toList)) := by
      rw [← hcons]
      simp [String.toList_append]
    have hclass : readLine W.words ("    class " ++ ",".intercalate ((nid :: nids).map safeId) ++ suffix).toList =
        some .style := by
      rw [htext]
      refine readLine_styleLine "class" _ (.inl rfl) fun hhead => ?_
      rw [Option.some.inj hhead] at hc
      cases hc
    refine ⟨[.style, .style], by simp, ?_⟩
    rw [if_neg (by simp), List.map_cons, List.map_singleton, List.mapM_cons, List.mapM_cons, List.mapM_nil,
      hdefinition, hclass]
    rfl

variable (T W) in
/-- What is read of the lines, when no step has the name of a word. -/
theorem mapM_readLine_mermaidLinesBy {nodeIds : List String} {edges : List (String × String)}
    (hident : ∀ nid ∈ nodeIds, IsIdentifier nid) (hwords : ∀ nid ∈ nodeIds, nid ∉ W.words)
    (hedges : ∀ e ∈ edges, e.1 ∈ nodeIds ∧ e.2 ∈ nodeIds) :
    ∃ styles : List FlowLine, (∀ line ∈ styles, line = .style) ∧
      ((mermaidLinesBy T nodeIds edges).map String.toList).mapM (readLine W.words) =
        some (nodeIds.map (fun nid => .node (safeId nid)) ++
          edges.map (fun e => .arrow (safeId e.1) (safeId e.2)) ++ styles) := by
  have hne : ∀ p : String → Bool, ∀ nid ∈ nodeIds.filter p, nid ≠ "" :=
    fun p nid hnid => (hident nid (List.mem_of_mem_filter hnid)).ne_empty
  have hroot : readLine W.words "    classDef root fill:#e8f5e9,stroke:#4caf50,stroke-width:2px".toList =
      some .style :=
    readLine_styleLine "classDef" "root fill:#e8f5e9,stroke:#4caf50,stroke-width:2px".toList
      (.inr rfl) (by decide +kernel)
  have hleaf : readLine W.words "    classDef leaf fill:#e3f2fd,stroke:#2196f3,stroke-width:2px".toList =
      some .style :=
    readLine_styleLine "classDef" "leaf fill:#e3f2fd,stroke:#2196f3,stroke-width:2px".toList
      (.inr rfl) (by decide +kernel)
  obtain ⟨roots, hroots, hrootLines⟩ := mapM_styleLines " root" hroot
    (hne fun nid => ((edges.filter (·.2 == nid)).map (·.1)).isEmpty)
  obtain ⟨leaves, hleaves, hleafLines⟩ := mapM_styleLines " leaf" hleaf
    (hne fun nid => ((edges.filter (·.1 == nid)).map (·.2)).isEmpty)
  refine ⟨roots ++ leaves, fun line hline => (List.mem_append.mp hline).elim (hroots line) (hleaves line), ?_⟩
  have hnodes : ((nodeIds.map fun nid => "    " ++ safeId nid ++ "[\"" ++ escapeMermaid (humanizeBy T nid) ++ "\"]").map
      String.toList).mapM (readLine W.words) = some (nodeIds.map fun nid => .node (safeId nid)) := by
    rw [List.map_map, List.mapM_map]
    refine mapM_eq_some_map fun nid hnid => ?_
    rw [Function.comp_apply, Function.comp_apply, readLine_nodeLine (hident nid hnid), if_neg (hwords nid hnid)]
  have harrows : ((edges.map fun e => "    " ++ safeId e.1 ++ " --> " ++ safeId e.2).map String.toList).mapM
      (readLine W.words) = some (edges.map fun e => .arrow (safeId e.1) (safeId e.2)) := by
    rw [List.map_map, List.mapM_map]
    refine mapM_eq_some_map fun e he => ?_
    obtain ⟨hsrc, hdst⟩ := hedges e he
    exact readLine_arrowLine (hident _ hsrc) (hident _ hdst) (hwords _ hsrc) (hwords _ hdst)
  rw [mermaidLinesBy, List.map_append, List.map_append, List.map_append, ← List.append_assoc]
  exact mapM_append_eq_some (mapM_append_eq_some (mapM_append_eq_some hnodes harrows) hrootLines) hleafLines

theorem newline_not_mem_safeId (nid : String) : '\n' ∉ (safeId nid).toList :=
  fun h => Bool.false_ne_true (isIdChar_of_mem_safeId h)

theorem newline_not_mem_intercalate (nids : List String) : '\n' ∉ (",".intercalate (nids.map safeId)).toList := by
  rw [String.toList_intercalate]
  induction nids with
  | nil => nofun
  | cons nid nids ih =>
    cases nids with
    | nil =>
      rw [List.map_singleton, List.map_singleton, List.intercalate_singleton]
      exact newline_not_mem_safeId nid
    | cons nid' nids =>
      simp only [List.map_cons] at ih ⊢
      rw [List.intercalate_cons_cons, List.mem_append, List.mem_append, not_or, not_or]
      exact ⟨⟨newline_not_mem_safeId nid, by decide⟩, ih⟩

/-- No line is broken. -/
theorem newline_not_mem_mermaidLinesBy {nodeIds : List String} {edges : List (String × String)}
    (hident : ∀ nid ∈ nodeIds, IsIdentifier nid) :
    ∀ line ∈ mermaidLinesBy T nodeIds edges, '\n' ∉ line.toList := by
  have hstyles : ∀ (nids : List String) (definition suffix : String), '\n' ∉ definition.toList →
      '\n' ∉ suffix.toList → ∀ line ∈ (if nids.isEmpty then [] else
        [definition, "    class " ++ ",".intercalate (nids.map safeId) ++ suffix]), '\n' ∉ line.toList := by
    intro nids definition suffix hdefinition hsuffix line hline
    split at hline
    · cases hline
    · rcases List.mem_pair.mp hline with rfl | rfl
      · exact hdefinition
      · rw [String.toList_append, String.toList_append, List.mem_append, List.mem_append, not_or, not_or]
        exact ⟨⟨by decide +kernel, newline_not_mem_intercalate nids⟩, hsuffix⟩
  intro line hline
  rw [mermaidLinesBy] at hline
  dsimp only at hline
  rw [List.mem_append, List.mem_append, List.mem_append, List.mem_map, List.mem_map] at hline
  rcases hline with ((⟨nid, hnid, rfl⟩ | ⟨e, -, rfl⟩) | hline) | hline
  · have hlabel := not_mem_humanizeBy (T := T) (hident nid hnid) (.inr (.inr rfl))
    simp [String.toList_append, toList_escapeMermaid (hident nid hnid), newline_not_mem_safeId, hlabel]
  · simp [String.toList_append, newline_not_mem_safeId]
  · exact hstyles _ _ " root" (by decide +kernel) (by decide +kernel) line hline
  · exact hstyles _ _ " leaf" (by decide +kernel) (by decide +kernel) line hline

end Lines

/-! ### The picture -/

section Picture

variable {T : TitleCase} {W : FlowchartWords} {nodeIds : List String} {edges : List (String × String)}
  {direction : String}

theorem readFlowchart_eq (hdirection : direction ∈ validDirections) {lines : List String}
    (hlines : ∀ line ∈ lines, '\n' ∉ line.toList) :
    readFlowchart W.words ("\n".intercalate (("flowchart " ++ direction) :: lines)) =
      ((lines.map String.toList).mapM (readLine W.words)).map fun lines =>
        (lines.filterMap (·.node?), lines.filterMap (·.arrow?)) := by
  have hheader : '\n' ∉ ("flowchart " ++ direction).toList := by
    revert direction
    decide +kernel
  have hsplit : ("\n".intercalate (("flowchart " ++ direction) :: lines)).toList.splitOn '\n' =
      ("flowchart " ++ direction).toList :: lines.map String.toList := by
    rw [String.toList_intercalate, List.map_cons]
    refine List.splitOn_intercalate '\n' (fun l hl => ?_) (List.cons_ne_nil _ _)
    rcases List.mem_cons.mp hl with rfl | hl
    · exact hheader
    · obtain ⟨line, hline, rfl⟩ := List.mem_map.mp hl
      exact hlines line hline
  rw [readFlowchart, hsplit]
  dsimp only
  rw [if_pos ⟨direction, hdirection, rfl⟩]

/-- The nodes are the steps and the arrows the edges, under safe ids, when no step has the name of a word. -/
theorem readFlowchart_mermaidLinesBy (hdirection : direction ∈ validDirections)
    (hident : ∀ nid ∈ nodeIds, IsIdentifier nid) (hwords : ∀ nid ∈ nodeIds, nid ∉ W.words)
    (hedges : ∀ e ∈ edges, e.1 ∈ nodeIds ∧ e.2 ∈ nodeIds) :
    readFlowchart W.words ("\n".intercalate (("flowchart " ++ direction) :: mermaidLinesBy T nodeIds edges)) =
      some (nodeIds.map safeId, edges.map (Prod.map safeId safeId)) := by
  obtain ⟨styles, hstyles, hread⟩ := mapM_readLine_mermaidLinesBy T W hident hwords hedges
  have hnodes : styles.filterMap (·.node?) = [] :=
    List.filterMap_eq_nil_iff.mpr fun line hline => by rw [hstyles line hline]; rfl
  have harrows : styles.filterMap (·.arrow?) = [] :=
    List.filterMap_eq_nil_iff.mpr fun line hline => by rw [hstyles line hline]; rfl
  have hids : (nodeIds.map fun nid => FlowLine.node (safeId nid)).filterMap (·.node?) = nodeIds.map safeId := by
    rw [List.filterMap_map]
    exact congrFun List.filterMap_eq_map nodeIds
  have hpairs : (edges.map fun e => FlowLine.arrow (safeId e.1) (safeId e.2)).filterMap (·.arrow?) =
      edges.map (Prod.map safeId safeId) := by
    rw [List.filterMap_map]
    exact congrFun List.filterMap_eq_map edges
  have hnone : (edges.map fun e => FlowLine.arrow (safeId e.1) (safeId e.2)).filterMap (·.node?) = [] ∧
      (nodeIds.map fun nid => FlowLine.node (safeId nid)).filterMap (·.arrow?) = [] := by
    simp [FlowLine.node?, FlowLine.arrow?]
  rw [readFlowchart_eq hdirection (newline_not_mem_mermaidLinesBy hident), hread, Option.map_some]
  simp only [List.filterMap_append, hnodes, harrows, hids, hpairs, hnone, List.append_nil, List.nil_append]

/-- A step that has the name of a word declares no node. -/
theorem readFlowchart_eq_none (hdirection : direction ∈ validDirections)
    (hident : ∀ nid ∈ nodeIds, IsIdentifier nid) {nid : String} (hnid : nid ∈ nodeIds) (hword : nid ∈ W.words) :
    readFlowchart W.words ("\n".intercalate (("flowchart " ++ direction) :: mermaidLinesBy T nodeIds edges)) =
      none := by
  rw [readFlowchart_eq hdirection (newline_not_mem_mermaidLinesBy hident), Option.map_eq_none_iff]
  have hline := readLine_nodeLine (T := T) (W := W) (hident nid hnid)
  rw [if_pos hword] at hline
  refine mapM_eq_none (List.mem_map_of_mem ?_) hline
  rw [mermaidLinesBy]
  simp only [List.append_assoc]
  exact List.mem_append_left _ (List.mem_map_of_mem hnid)

theorem renderGraphBy_eq_ok {g : BuiltGraph} {limit : Nat} {sets : SetOrder} (hdirection : direction ∈ validDirections)
    (hextract : g.extractGraphStructure limit sets = some (nodeIds, edges)) :
    g.renderGraphBy T limit sets direction =
      .ok ⟨"\n".intercalate (("flowchart " ++ direction) :: mermaidLinesBy T nodeIds edges), nodeIds.length,
        edges.length⟩ := by
  rw [BuiltGraph.renderGraphBy, if_neg (not_not_intro hdirection), hextract]
  dsimp only
  by_cases hnone : nodeIds = []
  · have hedges : edges = [] := by
      refine List.eq_nil_iff_forall_not_mem.mpr fun e he => ?_
      have hmem := ((BuiltGraph.of_extractGraphStructure hextract).2.2.2.2 e he).1
      rw [hnone] at hmem
      cases hmem
    subst hnone hedges
    rfl
  · rw [if_neg (by simpa using hnone)]

theorem faithful_iff {r : RenderedGraph} (hdirection : direction ∈ validDirections)
    (hident : ∀ nid ∈ nodeIds, IsIdentifier nid) (hnodup : nodeIds.Nodup) (hedgesNodup : edges.Nodup)
    (hedges : ∀ e ∈ edges, e.1 ∈ nodeIds ∧ e.2 ∈ nodeIds)
    (hr : r = ⟨"\n".intercalate (("flowchart " ++ direction) :: mermaidLinesBy T nodeIds edges), nodeIds.length,
      edges.length⟩) :
    r.Faithful W.words nodeIds edges ↔
      (∀ a ∈ nodeIds, ∀ b ∈ nodeIds, Alike a b → a = b) ∧ ∀ nid ∈ nodeIds, nid ∉ W.words := by
  subst hr
  constructor
  · rintro ⟨nodes, arrows, hread, hnodes, -⟩
    have hwords : ∀ nid ∈ nodeIds, nid ∉ W.words := by
      intro nid hnid hword
      dsimp only at hread
      rw [readFlowchart_eq_none hdirection hident hnid hword] at hread
      cases hread
    dsimp only at hread
    rw [readFlowchart_mermaidLinesBy hdirection hident hwords hedges] at hread
    obtain ⟨rfl, -⟩ := Prod.mk.inj (Option.some.inj hread)
    exact ⟨fun a ha b hb halike => List.inj_on_of_nodup_map hnodes ha hb (safeId_eq_iff.mpr halike), hwords⟩
  · rintro ⟨hdiffer, hwords⟩
    have hinj : ∀ a ∈ nodeIds, ∀ b ∈ nodeIds, safeId a = safeId b → a = b :=
      fun a ha b hb heq => hdiffer a ha b hb (safeId_eq_iff.mp heq)
    have hback : ∀ a ∈ nodeIds, Function.invFunOn safeId {nid | nid ∈ nodeIds} (safeId a) = a :=
      Set.InjOn.leftInvOn_invFunOn hinj
    refine ⟨_, _, readFlowchart_mermaidLinesBy hdirection hident hwords hedges, hnodup.map_on hinj,
      List.length_map .., hedgesNodup.map_on ?_, List.length_map ..,
      Function.invFunOn safeId {nid | nid ∈ nodeIds}, ?_, ?_⟩
    · rintro ⟨a, b⟩ he ⟨a', b'⟩ he' heq
      obtain ⟨hsrc, hdst⟩ := Prod.mk.inj heq
      rw [hinj a (hedges _ he).1 a' (hedges _ he').1 hsrc, hinj b (hedges _ he).2 b' (hedges _ he').2 hdst]
    · rw [List.map_map]
      exact (List.map_congr_left hback).trans (List.map_id _)
    · rw [List.map_map]
      refine (List.map_congr_left fun e he => ?_).trans (List.map_id _)
      exact Prod.ext (hback _ (hedges e he).1) (hback _ (hedges e he).2)

end Picture

/-- **The picture of a graph is faithful** exactly where no two of its steps have names that are alike, and none has
the name of a word of the language. -/
theorem picture_faithful_iff (T : TitleCase) (W : FlowchartWords) {g : BuiltGraph} {limit : Nat} {sets : SetOrder}
    {direction : String} {nodeIds : List String} {edges : List (String × String)}
    (hdirection : direction ∈ validDirections)
    (hextract : g.extractGraphStructure limit sets = some (nodeIds, edges))
    (hident : ∀ nid ∈ nodeIds, IsIdentifier nid) :
    ∃ r, g.renderGraphBy T limit sets direction = .ok r ∧
      (r.Faithful W.words nodeIds edges ↔
        (∀ a ∈ nodeIds, ∀ b ∈ nodeIds, Alike a b → a = b) ∧ ∀ nid ∈ nodeIds, nid ∉ W.words) := by
  obtain ⟨hnodup, -, hedgesNodup, -, hedges⟩ := BuiltGraph.of_extractGraphStructure hextract
  exact ⟨_, renderGraphBy_eq_ok hdirection hextract, faithful_iff hdirection hident hnodup hedgesNodup hedges rfl⟩

section Samples

theorem isAlpha_cased {c : Char} (h : c.isAlpha = true) : c.toUpper.isAlpha = true ∧ c.toLower.isAlpha = true := by
  have hall : ∀ n : Fin 128, (Char.ofNat n).isAlpha = true →
      (Char.ofNat n).toUpper.isAlpha = true ∧ (Char.ofNat n).toLower.isAlpha = true := by decide +kernel
  have hlt : c.toNat < 128 := by
    change c.val.toNat < 128
    rcases Bool.or_eq_true_iff.mp h with hupper | hlower
    · have hle : 'A'.val ≤ c.val ∧ c.val ≤ 'Z'.val := of_decide_eq_true hupper
      exact Nat.lt_of_le_of_lt (UInt32.le_iff_toNat_le.mp hle.2) (by decide)
    · have hle : c.val ≤ 'z'.val := of_decide_eq_true (Bool.and_eq_true_iff.mp hlower).2
      exact Nat.lt_of_le_of_lt (UInt32.le_iff_toNat_le.mp hle) (by decide)
  have hcased := hall ⟨c.toNat, hlt⟩
  rw [Char.ofNat_toNat] at hcased
  exact hcased h

theorem mem_titleFrom {inWord : Bool} {cs : List Char} {c : Char} (h : c ∈ Text.titleFrom inWord cs) :
    c ∈ cs ∨ c.isAlpha = true := by
  induction cs generalizing inWord with
  | nil => cases h
  | cons d cs ih =>
    rw [Text.titleFrom, List.mem_cons] at h
    rcases h with rfl | h
    · cases hd : d.isAlpha with
      | false => exact .inl List.mem_cons_self
      | true =>
        cases inWord with
        | false => exact .inr (isAlpha_cased hd).1
        | true => exact .inr (isAlpha_cased hd).2
    · exact (ih h).imp_left (List.mem_cons_of_mem d)

/-- `str.title` on ASCII letters, other characters as they are. -/
def TitleCase.ofAscii : TitleCase where
  title := Text.title
  ascii _ _ := rfl
  quiet s c hc hquiet := by
    rw [Text.title, String.toList_ofList] at hc
    refine (mem_titleFrom hc).resolve_right fun halpha => ?_
    rcases hquiet with rfl | rfl | rfl <;> cases halpha

/-- The one word that is known to end a subgraph. -/
def FlowchartWords.onlyEnd : FlowchartWords where
  words := ["end"]
  plain word hword := by
    rw [List.mem_singleton.mp hword]
    exact List.all_eq_true.mp (by decide)

theorem isIdentifier_of_all {s : String} (hne : s ≠ "")
    (hall : s.toList.all (fun c => 128 ≤ c.toNat || isIdChar c) = true) : IsIdentifier s where
  ne_empty := hne
  ascii c hc hascii := by
    have hchar := List.all_eq_true.mp hall c hc
    rw [Bool.or_eq_true, decide_eq_true_eq] at hchar
    exact hchar.resolve_left hascii.not_ge

private def stepTo (dest : String) : GraphPath := ⟨[{}, { destinationId := some dest }]⟩

/-- A step before another. -/
private def plainSteps : BuiltGraph where
  nodes := some ⟨[⟨"scope_review", "Step"⟩, ⟨"finish", "Step"⟩], by decide⟩
  edgesBySource := some [("scope_review", [stepTo "finish"])]

/-- Two steps with names of one letter, neither of ASCII. -/
private def accentedSteps : BuiltGraph where
  nodes := some ⟨[⟨"é", "Step"⟩, ⟨"è", "Step"⟩], by decide⟩
  edgesBySource := some [("é", [stepTo "è"])]

end Samples

theorem picture_faithful_plain :
    ∃ r, plainSteps.renderGraphBy .ofAscii 1000 ⟨id, fun _ => .rfl⟩ "TD" = .ok r ∧
      r.Faithful ["end"] ["scope_review", "finish"] [("scope_review", "finish")] := by
  obtain ⟨r, hr, hiff⟩ := picture_faithful_iff .ofAscii .onlyEnd
    (show "TD" ∈ validDirections by decide)
    (show plainSteps.extractGraphStructure 1000 ⟨id, fun _ => .rfl⟩ =
      some (["scope_review", "finish"], [("scope_review", "finish")]) by decide +kernel)
    (fun nid hnid => by
      rcases List.mem_pair.mp hnid with rfl | rfl
      · exact isIdentifier_of_all (by decide) (by decide +kernel)
      · exact isIdentifier_of_all (by decide) (by decide +kernel))
  refine ⟨r, hr, hiff.mpr ⟨fun a ha b hb halike => ?_, by decide⟩⟩
  have hinj : ∀ a ∈ ["scope_review", "finish"], ∀ b ∈ ["scope_review", "finish"], safeId a = safeId b → a = b := by
    decide +kernel
  exact hinj a ha b hb (safeId_eq_iff.mpr halike)

/-- Both steps become the node `_`. -/
theorem picture_merges_steps :
    ¬ ∀ (T : TitleCase) (W : FlowchartWords) (g : BuiltGraph) (limit : Nat) (sets : SetOrder) (direction : String)
      (nodeIds : List String) (edges : List (String × String)) (r : RenderedGraph),
      g.extractGraphStructure limit sets = some (nodeIds, edges) → (∀ nid ∈ nodeIds, IsIdentifier nid) →
      g.renderGraphBy T limit sets direction = .ok r → r.Faithful W.words nodeIds edges := by
  intro h
  have hextract : accentedSteps.extractGraphStructure 1000 ⟨id, fun _ => .rfl⟩ = some (["é", "è"], [("é", "è")]) := by
    decide +kernel
  have hident : ∀ nid ∈ ["é", "è"], IsIdentifier nid := by
    intro nid hnid
    rcases List.mem_pair.mp hnid with rfl | rfl
    · exact isIdentifier_of_all (by decide) (by decide +kernel)
    · exact isIdentifier_of_all (by decide) (by decide +kernel)
  have hdirection : "TD" ∈ validDirections := by decide
  have hfaithful := h .ofAscii .onlyEnd _ _ _ _ _ _ _ hextract hident (renderGraphBy_eq_ok hdirection hextract)
  have hdiffer := ((faithful_iff hdirection hident (by decide) (by decide) (by decide) rfl).mp hfaithful).1
  exact absurd (hdiffer "é" (by decide) "è" (by decide) (safeId_eq_iff.mp (by decide +kernel))) (by decide)

end Krewhub
