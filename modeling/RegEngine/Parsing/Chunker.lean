import Mathlib.Data.String.Basic
import RegEngine.Ledger.Provenance
import RegEngine.Lib.LevelStack

/-!
# `chunk_elements`

`app/parsing/chunker.py`: the elements of a document grouped by clause, a long clause cut at its
sentences. Texts are lists of characters inside; the random chunk ids are an input, by fragment. The
columns a chunk copies from the metadata of its document are left out, but for the circular number.
-/

namespace RegEngine.Parsing

open Lib Lib.Python Ledger.Provenance

inductive ElementKind where
  | title
  | sectionHeader
  | clause
  | narrativeText
  | table
  | footnote
  | listItem
  | uncategorized
  deriving DecidableEq, Repr

structure DocumentElement where
  kind : ElementKind
  text : String
  clauseNumber : Option String := none
  sectionPath : List String := []
  pageNumber : Option Int := none

structure CircularMetadata where
  circularNumber : Option String := none

structure ClauseChunk where
  chunkId : String
  sha256 : String
  text : String
  clauseNumber : Option String := none
  sectionPath : List String := []
  sectionTitle : Option String := none
  pageStart : Option Int := none
  pageEnd : Option Int := none
  footnotes : List String := []
  containsTable : Bool := false
  circularNumber : Option String := none

structure Settings where
  chunkMaxChars : Int := 2400
  chunkOverlapChars : Int := 200
  chunkMinChars : Int := 40

inductive ParsingError where
  | chunkingError (message : String)
  | valueError (message : String)
  deriving DecidableEq

/-! ## Groups -/

/-- The groups so far, the open group and its clause number. -/
structure Grouping where
  groups : List (List DocumentElement) := []
  current : List DocumentElement := []
  currentClause : Option String := none

/-- The loop body of `_group_by_clause`. -/
def groupStep (g : Grouping) (el : DocumentElement) : Grouping :=
  match el.kind with
  | .footnote =>
    if g.current ≠ [] then { g with current := g.current ++ [el] }
    else { g with groups := g.groups ++ [[el]] }
  | .clause | .sectionHeader =>
    if el.clauseNumber ≠ g.currentClause ∧ g.current ≠ [] then
      { groups := g.groups ++ [g.current], current := [el], currentClause := el.clauseNumber }
    else { g with current := g.current ++ [el], currentClause := el.clauseNumber }
  | .title | .narrativeText | .table | .listItem | .uncategorized =>
    if g.current ≠ [] then { g with current := g.current ++ [el] }
    else { g with current := [el], currentClause := el.clauseNumber }

def groupByClause (elements : List DocumentElement) : List (List DocumentElement) :=
  let g := elements.foldl groupStep {}
  if g.current ≠ [] then g.groups ++ [g.current] else g.groups

/-! ## Long texts -/

/-- The sentences of a text that begins with `cur`: it is cut at white space after one of `.;:` and
before a capital or a bracket. `gap` is the white space read since such a mark. -/
def sentencesFrom (cur : List Char) (gap : Option (List Char)) : List Char → List (List Char)
  | [] => [cur ++ gap.getD []]
  | c :: cs =>
    match gap with
    | none =>
      if isSpace c ∧ cur.getLast?.any (fun e => e = '.' ∨ e = ';' ∨ e = ':') then
        sentencesFrom cur (some [c]) cs
      else sentencesFrom (cur ++ [c]) none cs
    | some space =>
      if isSpace c then sentencesFrom cur (some (space ++ [c])) cs
      else if c.isUpper ∨ c = '(' then cur :: sentencesFrom [c] none cs
      else sentencesFrom (cur ++ space ++ [c]) none cs

/-- `s[-n:]`. -/
def tailChars (n : Int) (s : List Char) : List Char :=
  if 0 < n then s.drop (s.length - n.toNat) else s.drop (-n).toNat

/-- `s[i : i + n]` for each `i` of `range(0, len(s), n)`. -/
def wrap (n : Int) (s : List Char) : Except ParsingError (List (List Char)) :=
  if n = 0 then .error (.valueError "range() arg 3 must not be zero")
  else if n < 0 then .ok []
  else .ok ((List.range ((s.length + n.toNat - 1) / n.toNat)).map fun i =>
    (s.drop (i * n.toNat)).take n.toNat)

/-- `f"{a} {b}".strip()`. -/
def joinStripped (a b : List Char) : List Char := stripChars isSpace (a ++ ' ' :: b)

/-- The loop of `_split_long_text`, from the fragments and the buffer so far. -/
def splitFrom (maxChars overlapChars : Int) :
    List (List Char) → List Char → List (List Char) → Except ParsingError (List (List Char))
  | fragments, buf, [] => .ok (if buf ≠ [] then fragments ++ [buf] else fragments)
  | fragments, buf, sentence :: rest =>
    let candidate := if buf ≠ [] then joinStripped buf sentence else sentence
    if candidate.length ≤ maxChars then splitFrom maxChars overlapChars fragments candidate rest
    else
      let done := if buf ≠ [] then fragments ++ [buf] else fragments
      let tail := if buf ≠ [] then tailChars overlapChars buf else []
      let next := if tail ≠ [] then joinStripped tail sentence else sentence
      if maxChars < next.length then do
        -- a sentence that is too long by itself
        let pieces ← wrap maxChars next
        splitFrom maxChars overlapChars (done ++ pieces) [] rest
      else splitFrom maxChars overlapChars done next rest

def splitLongText (text : String) (maxChars overlapChars : Int) :
    Except ParsingError (List String) := do
  if text.toList.length ≤ maxChars then pure [text]
  else
    let fragments ← splitFrom maxChars overlapChars [] [] (sentencesFrom [] none text.toList)
    pure (if fragments ≠ [] then fragments.map String.ofList else [text])

/-! ## Chunks -/

/-- The text of a group, its footnotes, and whether it holds a table. -/
def groupToChunkText (group : List DocumentElement) : String × List String × Bool :=
  let body := group.filter fun el => el.kind ≠ .footnote
  let parts := body.map fun el =>
    if el.kind = .table then "[TABLE]\n" ++ el.text ++ "\n[/TABLE]" else el.text
  ("\n".intercalate (parts.filter fun p => strip p ≠ ""),
    (group.filter fun el => el.kind = .footnote).map (·.text),
    body.any fun el => el.kind = .table)

/-- The chunk of one fragment of a group. -/
def chunkOf (nfkc : String → String) (metadata : CircularMetadata) (group : List DocumentElement)
    (anchor : DocumentElement) (chunkId : String) (idx : Nat) (fragment : String) : ClauseChunk :=
  let (_, footnotes, containsTable) := groupToChunkText group
  let pages := group.filterMap (·.pageNumber)
  { chunkId := chunkId
    sha256 := sha256OfClause nfkc (orText metadata.circularNumber "") anchor.clauseNumber fragment
    text := fragment
    clauseNumber := anchor.clauseNumber
    sectionPath := anchor.sectionPath
    sectionTitle := anchor.sectionPath.getLast?
    pageStart := pages.min?
    pageEnd := pages.max?
    footnotes := if idx = 0 then footnotes else []
    containsTable := containsTable && idx = 0
    circularNumber := metadata.circularNumber }

/-- The chunks of a group; `ids` gives the chunk ids of its fragments. -/
def groupChunks (nfkc : String → String) (metadata : CircularMetadata) (settings : Settings)
    (ids : Nat → String) (group : List DocumentElement) : Except ParsingError (List ClauseChunk) := do
  let (body, _, containsTable) := groupToChunkText group
  let text := strip body
  if text.toList.length < settings.chunkMinChars ∧ containsTable = false then pure []
  else
    match (group.find? fun e => truthy e.clauseNumber).or group.head? with
    | none => pure []
    | some anchor =>
      let fragments ← splitLongText text settings.chunkMaxChars settings.chunkOverlapChars
      pure (fragments.zipIdx.map fun f => chunkOf nfkc metadata group anchor (ids f.2) f.2 f.1)

def chunkElements (nfkc : String → String) (metadata : CircularMetadata) (settings : Settings)
    (ids : Nat → Nat → String) (elements : List DocumentElement) :
    Except ParsingError (List ClauseChunk) := do
  if elements = [] then throw (.chunkingError "No elements provided for chunking.")
  let chunks ← (groupByClause elements).zipIdx.mapM fun g =>
    groupChunks nfkc metadata settings (ids g.2) g.1
  if chunks.flatten = [] then
    throw (.chunkingError "Chunking produced zero chunks from a non-empty element set.")
  pure chunks.flatten

end RegEngine.Parsing

/-!
## `HierarchyTracker`

`app/parsing/hierarchy.py`: the running stack of clause numbers with their levels. The patterns that find
the number of a line are left out; a number and its level are inputs.
-/

namespace RegEngine.Parsing

/-- `_stack`, the innermost entry last. -/
structure HierarchyTracker where
  stack : List (String × Int) := []

/-- `current_path`. -/
def HierarchyTracker.currentPath (t : HierarchyTracker) : List String := t.stack.map (·.1)

/-- `update`: the tracker after the call; the call returns its path. -/
def HierarchyTracker.update (t : HierarchyTracker) (clauseNumber : Option String) (depth : Int) :
    HierarchyTracker :=
  match clauseNumber with
  | none => t
  | some number => { stack := t.stack.rdropWhile (fun e => depth ≤ e.2) ++ [(number, depth)] }

/-- The tracker after some calls. -/
def HierarchyTracker.run (calls : List (Option String × Int)) : HierarchyTracker :=
  calls.foldl (fun t call => t.update call.1 call.2) {}

end RegEngine.Parsing
