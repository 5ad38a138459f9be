import IpfsSearch.Types

/-!
# Store — the four indexes and the writes the crawler sends them

The search backend as the crawler sees it: four indexes (`c.indexes.Files`, `Directories`,
`Partials`, `Invalids`), each mapping a CID to at most one document. Every write goes through the
bulk indexer (`Index.index` in the opensearch client), as one of three actions:

* `create` (`Index.Index`) — create-if-absent: a create on an existing document fails inside the
  bulk indexer, where `OnFailure` only logs it;
* `update` (`Index.Update`) — a partial update, which fails the same way on a missing document;
* `delete` (`Index.Delete`).

`getExistingItem` is not among the sources; `getExistingItem` below follows the spec's words.
-/

namespace IpfsSearch

/-- The four indexes of `c.indexes`. -/
inductive IndexName
  | files
  | directories
  | partials
  | invalids
  deriving DecidableEq, Repr

/-- A stored document; each index holds one kind. `partialMarker` is `&indexTypes.Partial{}`. -/
inductive Doc
  | file (f : File)
  | directory (d : Directory)
  | partialMarker
  | invalid (i : Invalid)
  deriving DecidableEq, Repr

/-- Apply a partial update to the common document fields: only the fields present in the request
body change. -/
def Document.applyUpdate (d : Document) (u : Update) : Document :=
  { d with
    lastSeen := u.lastSeen.getD d.lastSeen
    references := if u.references.isEmpty then d.references else u.references }

namespace Doc

/-- The common document of a file or directory document. -/
def document? : Doc → Option Document
  | file f => some f.document
  | directory d => some d.document
  | _ => none

/-- The `references` field, as `getExistingItem` reads it (absent on partials and invalids). -/
def references (d : Doc) : References :=
  (d.document?.map Document.references).getD []

/-- The `last-seen` field, as `getExistingItem` reads it. -/
def lastSeen (d : Doc) : Option Time :=
  d.document?.map Document.lastSeen

/-- A partial update of a stored document. The crawler only updates file and directory
documents; the other kinds are left as they are. -/
def update (u : Update) : Doc → Doc
  | file f => file { f with document := f.document.applyUpdate u }
  | directory d => directory { d with document := d.document.applyUpdate u }
  | d => d

@[simp] theorem document?_update (u : Update) (d : Doc) :
    (d.update u).document? = d.document?.map (·.applyUpdate u) := by
  cases d <;> rfl

/-- An update leaves a partial or invalid document as it is. -/
theorem update_of_document?_none {d : Doc} (h : d.document? = none) (u : Update) : d.update u = d := by
  cases d <;> simp_all [document?, update]

/-- An update with references replaces them. -/
theorem references_update {d : Doc} (h : d.document?.isSome) {u : Update} (hu : u.references ≠ []) :
    (d.update u).references = u.references := by
  cases d <;> simp_all [document?, references, update, Document.applyUpdate]

end Doc

/-- The backend: for each index, the document stored under each CID. -/
def Store := IndexName → Cid → Option Doc

/-- The store with nothing indexed. -/
def Store.empty : Store := fun _ _ => none

/-- A write request, as the bulk indexer receives it. -/
inductive Write
  | create (idx : IndexName) (id : Cid) (doc : Doc)
  | update (idx : IndexName) (id : Cid) (u : Update)
  | delete (idx : IndexName) (id : Cid)
  deriving DecidableEq, Repr

namespace Write

/-- The index a write goes to. -/
def idx : Write → IndexName
  | create i _ _ => i
  | update i _ _ => i
  | delete i _ => i

/-- The document a write is about. -/
def id : Write → Cid
  | create _ c _ => c
  | update _ c _ => c
  | delete _ c => c

/-- What a flushed write does to the document it is about. -/
def applyDoc : Write → Option Doc → Option Doc
  | create _ _ doc, none => some doc
  | create _ _ _, some d => some d
  | update _ _ u, d => d.map (Doc.update u)
  | delete _ _, _ => none

/-- A flushed write. -/
def apply (w : Write) (s : Store) : Store :=
  fun i c => if i = w.idx ∧ c = w.id then w.applyDoc (s i c) else s i c

@[simp] theorem apply_self (w : Write) (s : Store) :
    w.apply s w.idx w.id = w.applyDoc (s w.idx w.id) := by
  simp [apply]

/-- A write leaves every other document as it is. -/
theorem apply_of_ne {w : Write} {s : Store} {i : IndexName} {c : Cid}
    (h : ¬(i = w.idx ∧ c = w.id)) : w.apply s i c = s i c := by
  simp [apply, h]

theorem apply_of_id_ne {w : Write} {s : Store} {i : IndexName} {c : Cid} (h : c ≠ w.id) :
    w.apply s i c = s i c :=
  apply_of_ne fun h' => h h'.2

/-- A create leaves a document under its CID: the one already there, or the new one. -/
@[simp] theorem create_apply_self (i : IndexName) (id : Cid) (d : Doc) (s : Store) :
    (create i id d).apply s i id = some ((s i id).getD d) := by
  cases h : s i id <;> simp [apply, applyDoc, h, idx, Write.id]

/-- An update changes no index's holding of any document. -/
@[simp] theorem update_apply_isSome (i : IndexName) (id : Cid) (u : Update) (s : Store)
    (j : IndexName) (c : Cid) : ((update i id u).apply s j c).isSome = (s j c).isSome := by
  simp only [apply]
  split <;> simp [applyDoc]

/-- An update that changes nothing leaves the store as it is. -/
theorem update_apply_eq_self {s : Store} {i : IndexName} {id : Cid} {d : Doc} {u : Update}
    (h : s i id = some d) (hu : d.update u = d) : (update i id u).apply s = s := by
  funext j c
  by_cases hj : j = i ∧ c = id
  · obtain ⟨rfl, rfl⟩ := hj
    simp [apply, applyDoc, h, hu, idx, Write.id]
  · simp [apply, idx, Write.id, hj]

/-- What a flushed write leaves under a CID: the document already there, the document it created
there, or an update of the document already there. -/
theorem apply_eq_some {w : Write} {s : Store} {i : IndexName} {c : Cid} {d : Doc}
    (h : w.apply s i c = some d) :
    s i c = some d ∨ (w = .create i c d ∧ s i c = none) ∨
      ∃ u d₀, w = .update i c u ∧ s i c = some d₀ ∧ d = d₀.update u := by
  by_cases hw : i = w.idx ∧ c = w.id
  · obtain ⟨rfl, rfl⟩ := hw
    rw [apply_self] at h
    rcases w with ⟨i, c, d'⟩ | ⟨i, c, u⟩ | ⟨i, c⟩ <;> cases hs : s i c <;>
      simp only [idx, Write.id, hs, applyDoc, Option.map_some', Option.map_none'] at h ⊢ <;> cases h
    · simp
    · exact .inl rfl
    · exact .inr (.inr ⟨u, _, rfl, rfl, rfl⟩)
  · exact .inl (by rwa [apply_of_ne hw] at h)

/-- Deleting what a create just added gives back the store. -/
theorem delete_create {s : Store} {i : IndexName} {id : Cid} {d : Doc} (h : s i id = none) :
    (delete i id).apply ((create i id d).apply s) = s := by
  funext j c
  by_cases hj : j = i ∧ c = id
  · obtain ⟨rfl, rfl⟩ := hj
    simp [apply, applyDoc, h, idx, Write.id]
  · simp [apply, idx, Write.id, hj]

end Write

/-! ## Looking an item up -/

/-- `existingItem`: what the crawler learns about a resource that is already indexed. -/
structure ExistingItem where
  resource : AnnotatedResource
  index : IndexName
  references : References
  lastSeen : Option Time
  deriving DecidableEq, Repr

/-- The order in which `getExistingItem` probes the indexes: this model's choice, as the spec gives
none. -/
def probeOrder : List IndexName := [.files, .directories, .invalids, .partials]

/-- The first index, in probe order, that holds a document for `id`. -/
def Store.find (s : Store) (id : Cid) : Option (IndexName × Doc) :=
  probeOrder.findSome? fun i => (s i id).map (i, ·)

/-- Modelled from the spec: `getExistingItem` is not among the sources. It asks all four indexes
for `r.ID` and returns the index holding it, with that document's `References` and `LastSeen`.
The spec does not say which index wins when several hold the CID; this model probes Files,
Directories, Invalids, then Partials. -/
def getExistingItem (s : Store) (r : AnnotatedResource) : Option ExistingItem :=
  (s.find r.id).map fun (i, d) => ⟨r, i, d.references, d.lastSeen⟩

theorem Store.find_some {s : Store} {id : Cid} {i : IndexName} {d : Doc}
    (h : s.find id = some (i, d)) : s i id = some d := by
  obtain ⟨a, -, ha⟩ := List.exists_of_findSome?_eq_some h
  obtain ⟨d', hd', he⟩ := Option.map_eq_some'.1 ha
  cases he
  exact hd'

theorem Store.find_none {s : Store} {id : Cid} (h : s.find id = none) (i : IndexName) :
    s i id = none :=
  Option.map_eq_none'.1 <| List.findSome?_eq_none_iff.1 h i (by cases i <;> simp [probeOrder])

/-- No index holds a document for `id`. -/
def Store.Absent (s : Store) (id : Cid) : Prop := ∀ i, s i id = none

theorem Store.find_eq_none_iff {s : Store} {id : Cid} : s.find id = none ↔ s.Absent id :=
  ⟨Store.find_none, fun h => List.findSome?_eq_none_iff.2 fun i _ => by simp [h i]⟩

/-- Where the lookup finds `id` depends only on which indexes hold it. -/
theorem Store.find_fst_congr {s s' : Store} {id : Cid}
    (h : ∀ i, (s' i id).isSome = (s i id).isSome) :
    (s'.find id).map Prod.fst = (s.find id).map Prod.fst := by
  unfold Store.find
  induction probeOrder with
  | nil => rfl
  | cons i is ih =>
    have := h i
    cases hs : s i id <;> cases hs' : s' i id <;> simp_all [List.findSome?_cons]

/-- An update of the document the lookup finds leaves it there. -/
theorem Store.find_update {s : Store} {id : Cid} {i : IndexName} {d : Doc} (u : Update)
    (hf : s.find id = some (i, d)) : ((Write.update i id u).apply s).find id = some (i, d.update u) := by
  have hc := @Store.find_fst_congr s ((Write.update i id u).apply s) id (by simp)
  rw [hf] at hc
  obtain ⟨⟨j, d'⟩, hf', hj⟩ := Option.map_eq_some'.1 hc
  obtain rfl : j = i := hj
  have hd' := Store.find_some hf'
  simp [Write.apply, Write.applyDoc, Write.idx, Write.id, Store.find_some hf] at hd'
  rw [hf', hd']

section Find

variable {s : Store} {id : Cid} {d : Doc}

theorem Store.find_eq_files (h : s .files id = some d) : s.find id = some (.files, d) := by
  simp [Store.find, probeOrder, h]

theorem Store.find_eq_directories (h₁ : s .files id = none) (h : s .directories id = some d) :
    s.find id = some (.directories, d) := by
  simp [Store.find, probeOrder, h₁, h]

theorem Store.find_eq_invalids (h₁ : s .files id = none) (h₂ : s .directories id = none)
    (h : s .invalids id = some d) : s.find id = some (.invalids, d) := by
  simp [Store.find, probeOrder, h₁, h₂, h]

theorem Store.find_eq_partials (h₁ : s .files id = none) (h₂ : s .directories id = none)
    (h₃ : s .invalids id = none) (h : s .partials id = some d) : s.find id = some (.partials, d) := by
  simp [Store.find, probeOrder, h₁, h₂, h₃, h]

/-- The lookup finds a document in Partials only when no other index holds one. -/
theorem Store.find_partials_only (hf : s.find id = some (.partials, d)) :
    s .files id = none ∧ s .directories id = none ∧ s .invalids id = none := by
  simp only [Store.find, probeOrder, List.findSome?_cons, List.findSome?_nil] at hf
  cases h₁ : s .files id <;> cases h₂ : s .directories id <;> cases h₃ : s .invalids id <;>
    simp_all

/-- Deleting the document the lookup finds in Partials leaves the CID in no index. -/
theorem Store.absent_of_delete_partials (hf : s.find id = some (.partials, d)) :
    ((Write.delete .partials id).apply s).Absent id := by
  obtain ⟨h₁, h₂, h₃⟩ := Store.find_partials_only hf
  intro i
  cases i <;> simp [Write.apply, Write.applyDoc, Write.idx, Write.id, h₁, h₂, h₃]

end Find

end IpfsSearch
