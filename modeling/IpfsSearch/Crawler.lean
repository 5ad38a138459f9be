import IpfsSearch.Prog

/-!
# Crawler — `Crawl` and the functions it calls

The crawler's code, function by function, as `Prog` programs (`crawler/crawler.go`,
`crawler/update.go`, `crawler/index.go`):

* `crawl` (`Crawl`): the guard, `updateMaybeExisting`, `ensureType`, then `index`;
* `updateMaybeExisting` → `processExisting` → `processPartial` / `updateExisting`, with
  `appendReference` for the references of an item found through a directory;
* `index` → `getProperties` → `getFileProperties` (the extractor chain) / `getDirectoryProperties`
  (a `crawlDir` call), and `indexInvalid`.

A Go `error` is an `Option Err`; `(bool, error)` results are pairs. `protocol.Stat` fills in the
resource's `Stat`, so `ensureType` returns the resource it leaves.
-/

namespace IpfsSearch

/-- A `Crawler`: its configuration and its extractors, in order. -/
structure Crawler where
  config : Config
  extractors : List Extractor

/-- `isSupportedType`: the types `Crawl` accepts. -/
def isSupportedType : ResourceType → Bool
  | .undefinedType => true
  | .fileType => true
  | .directoryType => true
  | _ => false

/-- `appendReference`: the references with `r`'s parent and name appended, unless the scan finds
that pair already there (or `r` has no parent); the flag says whether it appended. -/
def appendReference (refs : References) (r : Reference) : References × Bool :=
  match r.parent with
  | none => (refs, false)
  | some p =>
    if refs.any fun x => x.parentHash == p && x.name == r.name then (refs, false)
    else (refs ++ [⟨p, r.name⟩], true)

/-- The references `makeDocument` gives a resource found through `r`: the parent and name, if it
has a parent. -/
def Reference.references (r : Reference) : References :=
  match r.parent with
  | some p => [⟨p, r.name⟩]
  | none => []

/-- The scan of `appendReference` decides whether the pair is already there. -/
theorem any_reference_eq (refs : References) (p : Cid) (n : String) :
    (refs.any fun x => x.parentHash == p && x.name == n) = decide (⟨p, n⟩ ∈ refs) := by
  rw [Bool.eq_iff_iff]
  simp only [List.any_eq_true, Bool.and_eq_true, beq_iff_eq, decide_eq_true_eq]
  exact ⟨fun ⟨⟨p', n'⟩, hx, hp, hn⟩ => hp ▸ hn ▸ hx, fun h => ⟨_, h, rfl, rfl⟩⟩

/-- `appendReference` appends the parent and name exactly when they are not there yet. -/
theorem appendReference_eq (refs : References) (r : Reference) :
    appendReference refs r =
      match r.parent with
      | none => (refs, false)
      | some p => if ⟨p, r.name⟩ ∈ refs then (refs, false) else (refs ++ [⟨p, r.name⟩], true) := by
  unfold appendReference
  cases r.parent <;> simp [any_reference_eq]

/-- `appendReference` reports a change exactly when it appended the new pair. -/
theorem appendReference_of_appended {refs : References} {r : Reference}
    (h : (appendReference refs r).2 = true) :
    ∃ p, r.parent = some p ∧ ⟨p, r.name⟩ ∉ refs ∧
      (appendReference refs r).1 = refs ++ [⟨p, r.name⟩] := by
  rw [appendReference_eq] at h ⊢
  cases hp : r.parent with
  | none => simp [hp] at h
  | some p =>
    simp only [hp] at h ⊢
    split at h
    · simp at h
    · exact ⟨p, rfl, by assumption, by simp [*]⟩

/-- The reference a resource was found through is already among the references `makeDocument`
gives it. -/
@[simp] theorem appendReference_references (r : Reference) :
    (appendReference r.references r).2 = false := by
  rw [appendReference_eq]
  cases hp : r.parent <;> simp [Reference.references, hp]

/-- Once appended, a reference is not appended again. -/
theorem appendReference_appended {refs refs' : References} {r : Reference}
    (h : appendReference refs r = (refs', true)) : (appendReference refs' r).2 = false := by
  rw [appendReference_eq] at h ⊢
  cases hp : r.parent with
  | none => simp [hp] at h
  | some p =>
    simp only [hp] at h ⊢
    split at h
    · simp at h
    · cases h
      simp

/-- `makeDocument`: first and last seen now, truncated to the second, and the reference the
resource was found through. -/
def makeDocument (r : AnnotatedResource) : Prog Document := do
  let now ← Prog.now'
  let now := Time.truncate now
  return ⟨now, now, r.reference.references, r.stat.size⟩

namespace Crawler

variable (c : Crawler)

/-- `indexInvalid`. -/
def indexInvalid (r : AnnotatedResource) (err : Err) : Prog (Option Err) :=
  Prog.write' (invalidWrite r err)

/-- `updateExisting`: an item found through a directory gains that reference; a sniffed item has
its `LastSeen` moved to now, if it is older than `MinUpdateAge`; manual and user requests change
nothing. -/
def updateExisting (i : ExistingItem) : Prog (Option Err) :=
  match i.resource.source with
  | .directorySource =>
    let (refs, refsUpdated) := appendReference i.references i.resource.reference
    if refsUpdated then Prog.write' (.update i.index i.resource.id { references := refs })
    else return none
  | .snifferSource | .unknownSource => do
    let now ← Prog.now'
    let now := Time.truncate now
    let isRecent := match i.lastSeen with
      | none => true
      | some lastSeen => decide (c.config.minUpdateAge < Time.sub now lastSeen)
    if isRecent then Prog.write' (.update i.index i.resource.id { lastSeen := some now })
    else return none
  | .manualSource | .userSource => return none

/-- `deletePartial`. -/
def deletePartial (i : ExistingItem) : Prog (Option Err) :=
  Prog.write' (.delete .partials i.resource.id)

/-- `processPartial`: an unreferenced partial is skipped; a referenced one is deleted from
Partials and then indexed as new. -/
def processPartial (i : ExistingItem) : Prog (Bool × Option Err) :=
  match i.resource.reference.parent with
  | none => return (true, none)
  | some _ => do
    let err ← deletePartial i
    match err with
    | some err => return (true, some err)
    | none => return (false, none)

/-- `processExisting`. -/
def processExisting (i : ExistingItem) : Prog (Bool × Option Err) :=
  match i.index with
  | .invalids => return (true, none)
  | .partials => processPartial i
  | _ => do
    let err ← c.updateExisting i
    match err with
    | some err => return (true, some err)
    | none => return (true, none)

/-- `updateMaybeExisting`. -/
def updateMaybeExisting (r : AnnotatedResource) : Prog (Bool × Option Err) := do
  let existing ← Prog.getExistingItem' r
  match existing with
  | .error err => return (false, some err)
  | .ok none => return (false, none)
  | .ok (some i) => c.processExisting i

/-- `ensureType`: `Stat` a resource whose type is not known yet. -/
def ensureType (r : AnnotatedResource) : Prog (AnnotatedResource × Option Err) :=
  match r.stat.type with
  | .undefinedType => do
    let (st, err) ← Prog.stat' r
    return ({ r with stat := st }, err)
  | _ => return (r, none)

/-- The loop of `getFileProperties` over the extractors still to run: each decodes into the file's
metadata; a file too large for one of them is an invalid resource. `err` is the loop variable,
reassigned by every extractor. -/
def extractAll (r : AnnotatedResource) : List Extractor → File → Option Err →
    Prog (Option File × Option Err)
  | [], properties, err => return (some properties, err)
  | e :: es, properties, _ => do
    let (metadata, err) ← Prog.extract' e r properties
    let properties := { properties with metadata := metadata }
    match err with
    | some err =>
      if err.is .fileTooLarge then return (none, some (Err.wrapf .invalidResource err))
      else extractAll r es properties (some err)
    | none => extractAll r es properties none

/-- `getFileProperties`. -/
def getFileProperties (r : AnnotatedResource) : Prog (Option File × Option Err) := do
  let document ← makeDocument r
  extractAll r c.extractors ⟨document, []⟩ none

/-- `getDirectoryProperties`: the directory's links are those `crawlDir` added; a panic it
re-raises goes on up. -/
def getDirectoryProperties (r : AnnotatedResource) : Prog (Option Doc × Option Err) := do
  let document ← makeDocument r
  let run ← Prog.crawlDir' r
  match run.result with
  | .panic => Prog.panic "panic re-raised by crawlDir"
  | o => return (some (.directory ⟨document, run.links⟩), o.returned)

/-- `getProperties`: the index a resource of each type goes to, and its document. -/
def getProperties (r : AnnotatedResource) : Prog (Option IndexName × Option Doc × Option Err) :=
  match r.stat.type with
  | .fileType => do
    let (f, err) ← c.getFileProperties r
    return (some .files, f.map .file, err)
  | .directoryType => do
    let (d, err) ← getDirectoryProperties r
    return (some .directories, d, err)
  | .unsupportedType => return (none, none, some errUnsupportedType)
  | .partialType => return (some .partials, some .partialMarker, none)
  | .undefinedType => Prog.panic "undefined type after Stat call"

/-- `index`: an invalid resource is indexed as such; any other error is returned. -/
def index (r : AnnotatedResource) : Prog (Option Err) := do
  let (idx, properties, err) ← c.getProperties r
  match err with
  | some err => if err.is .invalidResource then indexInvalid r err else return some err
  | none =>
    match idx, properties with
    | some i, some d => Prog.write' (.create i r.id d)
    | _, _ => Prog.panic "nil index"

/-- The part of `Crawl` after the existence check: `ensureType`, then `index`. -/
def indexNew (r : AnnotatedResource) : Prog (Option Err) := do
  let (r, err) ← ensureType r
  match err with
  | some err => if err.is .invalidResource then indexInvalid r err else return some err
  | none => c.index r

/-- `Crawl`. -/
def crawl (r : AnnotatedResource) : Prog (Option Err) :=
  if r.protocol = .invalidProtocol then Prog.panic "invalid protocol"
  else if !isSupportedType r.stat.type then Prog.panic "invalid type for crawler"
  else do
    let (exists_, err) ← c.updateMaybeExisting r
    match err with
    | some err => return some err
    | none => if exists_ then return none else c.indexNew r

end Crawler

end IpfsSearch
