import IpfsSearch.SingleIndex
import Mathlib.Data.List.Nodup

/-!
# References — the directories a resource was found in

A file or directory document lists, in `References`, every directory entry it was found through.
`makeDocument` gives a new document the reference of its message; a crawl from a directory that
finds the resource indexed appends its reference with `appendReference` and writes the whole list
back as a partial update.

* `pool_references_nodup` — however many workers run at once, and even when a lookup reads an
  earlier store, no write carries a duplicate reference;
* `crawls_keep_references` — crawls run one at a time lose no reference;
* `listedTwice_reference_lost` — two crawls from different directories, run at once, can: each
  writes back the list it read plus its own pair, and the later write wins.
-/

namespace IpfsSearch

open Prog Crawler

/-! ## Duplicate-free references -/

/-- Every document's `References` are duplicate-free. -/
def Store.RefsNodup (s : Store) : Prop := ∀ i id d, s i id = some d → d.references.Nodup

/-- The `References` a write puts in a document: a created document's, or an update's (an update
without references leaves the document's as they are). -/
def Write.references : Write → References
  | .create _ _ d => d.references
  | .update _ _ u => u.references
  | .delete _ _ => []

theorem Reference.references_nodup (r : Reference) : r.references.Nodup := by
  unfold Reference.references
  split <;> simp

/-- `appendReference` keeps references duplicate-free: it appends only a pair its scan did not
find. -/
theorem appendReference_nodup {refs : References} (h : refs.Nodup) (r : Reference) :
    (appendReference refs r).1.Nodup := by
  rw [appendReference_eq]
  split
  · exact h
  · split
    · exact h
    · rw [← List.concat_eq_append]
      exact h.concat ‹_›

/-- A partial update keeps the document's references or replaces them by the update's. -/
theorem Doc.references_update_cases (d : Doc) (u : Update) :
    (d.update u).references = d.references ∨ (d.update u).references = u.references := by
  cases d <;> simp only [Doc.update, Doc.references, Doc.document?, Option.map_some', Option.getD_some,
    Document.applyUpdate, Option.map_none', true_or] <;> split <;> simp

/-- Every write a crawl issues carries duplicate-free references, when the item its lookup read
has them. -/
theorem CrawlWrite.references_nodup {c : Crawler} {r : AnnotatedResource} {ctx : Seen} {wr : Write}
    (hw : CrawlWrite c r ctx wr) (hread : ∀ i, ctx.read = some i → i.references.Nodup) :
    wr.references.Nodup := by
  rcases hw with hw | rfl | ⟨i, u, hi, rfl, -, rfl, hu⟩
  · rcases wr with ⟨idx, id, d⟩ | _ | _
    · obtain ⟨-, -, hd⟩ := hw
      cases hdoc : d.document? with
      | none => simp [Write.references, Doc.references, hdoc]
      | some doc =>
        simp only [Write.references, Doc.references, hdoc, Option.map_some', Option.getD_some,
          (hd doc hdoc).2.2]
        exact Reference.references_nodup _
    all_goals exact hw.elim
  · exact List.nodup_nil
  · rcases hu with ⟨-, -, rfl⟩ | ⟨-, rfl, -⟩
    · exact appendReference_nodup (hread i hi) _
    · exact List.nodup_nil

namespace Store.RefsNodup

variable {s : Store}

/-- A write with duplicate-free references keeps every document's references duplicate-free. -/
theorem apply (hs : s.RefsNodup) {wr : Write} (hw : wr.references.Nodup) : (wr.apply s).RefsNodup := by
  intro i id d hd
  rcases Write.apply_eq_some hd with hd | ⟨rfl, -⟩ | ⟨u, d₀, rfl, hd₀, rfl⟩
  · exact hs i id d hd
  · exact hw
  · rcases d₀.references_update_cases u with h | h <;> rw [h]
    exacts [hs i id d₀ hd₀, hw]

/-- The Invalids documents of a directory expansion keep every document's references
duplicate-free. -/
theorem applyAll_dirRun (hs : s.RefsNodup) (d : DirRun) : (Act.applyAll d.acts s).RefsNodup :=
  Act.applyAll_children (DirRun.acts_isChild d) (fun _ _ _ h => h.apply List.nodup_nil) hs

end Store.RefsNodup

/-- `appendReference` reports a change exactly when it appended the new pair. -/
theorem appendReference_snd_iff (refs : References) (r : Reference) :
    (appendReference refs r).2 = true ↔ ∃ p, r.parent = some p ∧ ⟨p, r.name⟩ ∉ refs ∧
      (appendReference refs r).1 = refs ++ [⟨p, r.name⟩] := by
  refine ⟨appendReference_of_appended, fun ⟨p, hp, hn, _⟩ => ?_⟩
  simp [appendReference_eq, hp, hn]

theorem appendReference_of_not_appended {refs : References} {r : Reference}
    (h : (appendReference refs r).2 = false) : (appendReference refs r).1 = refs := by
  rw [appendReference_eq] at h ⊢
  cases hp : r.parent with
  | none => rfl
  | some p =>
    simp only [hp] at h ⊢
    by_cases hm : (⟨p, r.name⟩ : IndexReference) ∈ refs <;> simp_all

/-- The items a lookup returns carry the references of a stored document. -/
theorem getExistingItem_references_nodup {s : Store} (hs : s.RefsNodup) (r : AnnotatedResource)
    {i : ExistingItem} (hi : getExistingItem s r = some i) : i.references.Nodup := by
  obtain ⟨d, hf, he⟩ := getExistingItem_eq_some hi
  rw [he]
  exact hs _ _ d (Store.find_some hf)

/-! ## Across the workers -/

/-- Duplicate-free references everywhere they are kept: in every store the backend has held, in
every write issued, and in every item a worker has read. -/
def Pool.RefsInv (P : Pool) : Prop :=
  (∀ s ∈ P.store :: P.past, s.RefsNodup) ∧ (∀ wr ∈ P.issued, wr.references.Nodup) ∧
    ∀ wk ∈ P.workers, ∀ i, wk.seen.read = some i → i.references.Nodup

section Workers

variable {c : Crawler} {stale : Bool} {P P' : Pool}

theorem Pool.RefsInv.step (hg : P.Guarded c) (hI : P.RefsInv) (h : PoolStep c stale P P') :
    P'.RefsInv := by
  obtain ⟨hstores, hissued, hread⟩ := hI
  have hnew : ∀ wk ∈ P.workers, ∀ wr, CrawlWrite c wk.res wk.seen wr → wr.references.Nodup :=
    fun wk hwk _ hw => hw.references_nodup (hread wk hwk)
  refine ⟨fun s hs => ?_, fun wr hwr => ?_, fun v hv i hi => ?_⟩
  · rcases List.mem_cons.1 hs with rfl | hs
    · rcases h.store_cases hg with he | ⟨wk, hwk, wr, hw, he⟩ | ⟨d, he⟩ <;> rw [he]
      · exact hstores _ (.head _)
      · exact (hstores _ (.head _)).apply (hnew wk hwk wr hw)
      · exact (hstores _ (.head _)).applyAll_dirRun d
    · rcases h.past_cases with he | he <;> rw [he] at hs
      · exact hstores s (.tail _ hs)
      · exact hstores s hs
  · rcases h.issued_cases hg with he | ⟨wk, hwk, wr', hw, he⟩ <;> rw [he] at hwr
    · exact hissued wr hwr
    · rcases List.mem_cons.1 hwr with rfl | hwr
      · exact hnew wk hwk wr hw
      · exact hissued wr hwr
  · rcases h.worker_cases hv with hv | hs | ⟨wk, hwk, -, hs | hs | hs | ⟨s, r, hs', hs⟩⟩
    · exact hread v hv i hi
    all_goals rw [hs] at hi
    · cases hi
    · exact hread wk hwk i hi
    · cases hi
    · exact hread wk hwk i hi
    · rcases hs' with rfl | ⟨-, hs'⟩
      · exact getExistingItem_references_nodup (hstores _ (.head _)) r hi
      · exact getExistingItem_references_nodup (hstores _ (.tail _ hs')) r hi

theorem Pool.RefsInv.init {S : Store} (hS : S.RefsNodup) (t : Time) : (Pool.init S t).RefsInv :=
  ⟨by simpa [Pool.init] using hS, by simp [Pool.init], by simp [Pool.init]⟩

/-- Workers running at once, with lookups that may read any earlier store, never write duplicate
references. From a store whose references are duplicate-free, every store the backend holds and
every write issued carries duplicate-free references; and `appendReference` reports a change
exactly when it appended the new pair. -/
theorem pool_references_nodup {S : Store} {t : Time} (hS : S.RefsNodup)
    (h : PoolReachable c stale S t P) :
    (∀ s ∈ P.store :: P.past, s.RefsNodup) ∧ (∀ wr ∈ P.issued, wr.references.Nodup) ∧
    ∀ (refs : References) (r : Reference),
      ((appendReference refs r).2 = true ↔ ∃ p, r.parent = some p ∧ ⟨p, r.name⟩ ∉ refs ∧
        (appendReference refs r).1 = refs ++ [⟨p, r.name⟩]) ∧
      ((appendReference refs r).2 = false → (appendReference refs r).1 = refs) := by
  have hI : P.RefsInv := PoolReachable.induction (Pool.RefsInv.init hS t)
    (fun _ _ hr hI hs => hI.step (Pool.guarded_of_reachable hr) hs) h
  exact ⟨hI.1, hI.2.1, fun refs r => ⟨appendReference_snd_iff refs r,
    appendReference_of_not_appended⟩⟩

/-- `QmX` indexed as a file found in directory `QmA` under the name `a`. -/
def filedX : Store :=
  (Write.create .files "QmX" (.file ⟨⟨0, 0, [⟨"QmA", "a"⟩], 7⟩, []⟩)).apply Store.empty

/-- A worker crawls `QmX` as found in `QmParent` and appends that reference. -/
theorem listedX_appended :
    ∃ P, filedX.RefsNodup ∧ PoolReachable bareCrawler true filedX 0 P ∧
      P.issued = [.update .files "QmX" { references := [⟨"QmA", "a"⟩, ⟨"QmParent", "x"⟩] }] ∧
      ∀ wr ∈ P.issued, wr.references.Nodup := by
  have hS : filedX.RefsNodup := by
    intro i id d hd
    simp only [filedX, Write.apply, Write.applyDoc, Write.idx, Write.id, Store.empty] at hd
    split at hd <;> cases hd
    simp [Doc.references, Doc.document?]
  obtain ⟨P, hP, hissued⟩ : ∃ P, PoolReachable bareCrawler true filedX 0 P ∧
      P.issued = [.update .files "QmX" { references := [⟨"QmA", "a"⟩, ⟨"QmParent", "x"⟩] }] := by
    refine ⟨?_, ?_, ?_⟩
    rotate_left
    · refine .head (PoolStep.deliver _ listedX) ?_
      refine .head (PoolStep.lookup (n := 0) rfl rfl (.inl rfl)) ?_
      refine .head (PoolStep.writeAccepted (n := 0) rfl rfl) ?_
      exact .refl
    · rfl
  exact ⟨P, hS, hP, hissued, (pool_references_nodup hS hP).2.1⟩

end Workers

/-! ## Each index holds its own kind of document -/

/-- Every index holds documents of its own kind only. -/
def Store.Typed (s : Store) : Prop := ∀ i id d, s i id = some d → d.index = i

/-- A write that creates documents of the index's own kind only. -/
def Write.Kinded : Write → Prop
  | .create idx _ d => d.index = idx
  | _ => True

@[simp] theorem Doc.index_update (d : Doc) (u : Update) : (d.update u).index = d.index := by
  cases d <;> rfl

theorem Store.Typed.apply {s : Store} (hs : s.Typed) {wr : Write} (hw : wr.Kinded) :
    (wr.apply s).Typed := by
  intro i id d hd
  rcases Write.apply_eq_some hd with hd | ⟨rfl, -⟩ | ⟨u, d₀, rfl, hd₀, rfl⟩
  · exact hs i id d hd
  · exact hw
  · rw [Doc.index_update]
    exact hs i id d₀ hd₀

theorem Store.Typed.applyAll {s : Store} (hs : s.Typed) {acts : List Act}
    (h : ∀ a ∈ acts, ∀ wr, a.write? = some wr → wr.Kinded) : (Act.applyAll acts s).Typed :=
  Act.applyAll_induction (fun a ha wr hw _ hs' => hs'.apply (h a ha wr hw)) hs

theorem CrawlWrite.kinded {c : Crawler} {r : AnnotatedResource} {ctx : Seen} {wr : Write}
    (hw : CrawlWrite c r ctx wr) : wr.Kinded := by
  rcases hw with hw | rfl | ⟨_, _, _, _, _, rfl, _⟩
  · rcases wr with ⟨idx, id, d⟩ | _ | _
    · exact hw.2.1.symm
    all_goals exact hw.elim
  all_goals trivial

/-- Run alone, a crawl, and the directory expansion it waits for, create documents of the index's
own kind only. -/
theorem run_crawl_kinded (c : Crawler) (r : AnnotatedResource) (w : World) (t : Time) (s : Store) :
    ∀ a ∈ (run w t (c.crawl r) s).2.2, ∀ wr, a.write? = some wr → wr.Kinded := by
  have hg : Guarded Seen.look Seen.tick (CrawlWrite c r) (fun _ _ => True) ⟨none, 0⟩ (c.crawl r) :=
    crawl_guarded c
  intro a ha wr hw
  obtain ⟨wr', _ | e⟩ | ⟨op, o⟩ := a
  · cases hw
    obtain ⟨ctx, hc⟩ := hg.run_writes Seen.look_total Seen.tick_total _ ha _ none rfl
    exact hc.kinded
  · cases hw
  · cases o <;> cases op <;> cases hw
    rfl

theorem run_crawl_typed {c : Crawler} {r : AnnotatedResource} {w : World} {t : Time} {s : Store}
    (hs : s.Typed) : (run w t (c.crawl r) s).2.1.Typed := by
  rw [run_store]
  exact hs.applyAll (run_crawl_kinded c r w t s)

/-! ## A crawl run alone loses no reference -/

/-- Every Files or Directories document of `s` is still in `s'`, with at least its references. -/
def Store.Keeps (s s' : Store) : Prop :=
  ∀ i, (i = .files ∨ i = .directories) → ∀ id d, s i id = some d →
    ∃ d', s' i id = some d' ∧ d.references ⊆ d'.references

namespace Store.Keeps

theorem refl (s : Store) : s.Keeps s := fun _ _ _ d hd => ⟨d, hd, List.Subset.refl _⟩

theorem trans {s₁ s₂ s₃ : Store} (h₁ : s₁.Keeps s₂) (h₂ : s₂.Keeps s₃) : s₁.Keeps s₃ :=
  fun i hi id d hd =>
    let ⟨d', hd', hsub⟩ := h₁ i hi id d hd
    let ⟨d'', hd'', hsub'⟩ := h₂ i hi id d' hd'
    ⟨d'', hd'', hsub.trans hsub'⟩

end Store.Keeps

theorem Doc.references_update_of_nil (d : Doc) {u : Update} (hu : u.references = []) :
    (d.update u).references = d.references := by
  cases d <;> simp [Doc.update, Doc.references, Doc.document?, Document.applyUpdate, hu]

theorem appendReference_subset (refs : References) (r : Reference) :
    refs ⊆ (appendReference refs r).1 := by
  rw [appendReference_eq]
  split
  · exact List.Subset.refl _
  · split
    · exact List.Subset.refl _
    · exact List.subset_append_left _ _

/-- A write keeps every Files and Directories document, with its references, when it deletes only
from Partials or Invalids and every update it makes keeps the references. Creates never replace a
document. -/
theorem Store.keeps_apply {s : Store} {wr : Write}
    (hdel : ∀ idx id, wr = .delete idx id → idx = .partials ∨ idx = .invalids)
    (hupd : ∀ idx id u, wr = .update idx id u → ∀ d, s idx id = some d →
      d.references ⊆ (d.update u).references) : s.Keeps (wr.apply s) := by
  intro i hi id d hd
  by_cases h : i = wr.idx ∧ id = wr.id
  · obtain ⟨rfl, rfl⟩ := h
    rcases wr with ⟨idx, id, d'⟩ | ⟨idx, id, u⟩ | ⟨idx, id⟩ <;>
      simp only [Write.idx, Write.id] at hd hi
    · exact ⟨d, by simp [Write.apply, Write.applyDoc, Write.idx, Write.id, hd], List.Subset.refl _⟩
    · exact ⟨d.update u, by simp [Write.apply, Write.applyDoc, Write.idx, Write.id, hd],
        hupd _ _ _ rfl d hd⟩
    · rcases hdel _ _ rfl with rfl | rfl <;> simp at hi
  · exact ⟨d, by rw [Write.apply_of_ne h, hd], List.Subset.refl _⟩

theorem Store.keeps_applyAll_creates {s : Store} {acts : List Act}
    (h : ∀ a ∈ acts, ∀ wr, a.write? = some wr → ∃ idx id d, wr = .create idx id d) :
    s.Keeps (Act.applyAll acts s) := by
  refine Act.applyAll_induction (Q := s.Keeps) (fun a ha wr hw s' hs' => ?_) (.refl s)
  obtain ⟨idx, id, d, rfl⟩ := h a ha wr hw
  exact hs'.trans (Store.keeps_apply (fun _ _ h => nomatch h) (fun _ _ _ h => nomatch h))

theorem IndexActs.creates {w : World} {r : AnnotatedResource} {id : Cid} {acts : List Act}
    (h : IndexActs w r id acts) :
    ∀ a ∈ acts, ∀ wr, a.write? = some wr → ∃ idx id d, wr = .create idx id d := by
  obtain ⟨pre, post, rfl, hpre, hpost⟩ := h
  intro a ha wr hw
  rcases List.mem_append.1 ha with ha | ha
  · rcases hpre with rfl | rfl
    · exact absurd ha (List.not_mem_nil a)
    · obtain ⟨⟨op, o⟩, -, rfl⟩ := List.mem_map.1 ha
      cases o <;> cases op <;> cases hw
      exact ⟨_, _, _, rfl⟩
  · rcases hpost with rfl | ⟨idx, d, res, rfl⟩
    · exact absurd ha (List.not_mem_nil a)
    · rw [List.mem_singleton.1 ha] at hw
      cases res <;> cases hw
      exact ⟨_, _, _, rfl⟩

section Run

variable {w : World} {t : Time} {s : Store} {c : Crawler} {r : AnnotatedResource}

theorem keeps_run_write' {wr : Write} (h : s.Keeps (wr.apply s)) : s.Keeps (run w t (write' wr) s).2.1 := by
  rw [run_write']
  cases w.write wr with
  | none => exact h
  | some e => exact .refl s

/-- Updating an item found in Files or Directories keeps its references: a crawl from a directory
appends to the references it read, which are the document's. -/
theorem run_updateExisting_keeps {i : ExistingItem} {d : Doc}
    (hd : s i.index i.resource.id = some d) (hrefs : i.references = d.references) :
    s.Keeps (run w t (c.updateExisting i) s).2.1 := by
  have hupd : ∀ u : Update, (u.references = [] ∨ d.references ⊆ u.references) →
      s.Keeps ((Write.update i.index i.resource.id u).apply s) := fun u hu =>
    Store.keeps_apply (fun _ _ h => nomatch h) fun _ _ _ h d' hd' => by
      cases h
      obtain rfl : d' = d := Option.some.inj (hd'.symm.trans hd)
      rcases hu with hu | hu
      · exact (Doc.references_update_of_nil _ hu).symm ▸ List.Subset.refl _
      · rcases d'.references_update_cases u with h | h <;> rw [h]
        exacts [List.Subset.refl _, hu]
  cases run_updateExisting_path (w := w) (t := t) (s := s) (c := c) (i := i) with
  | appended _ _ h =>
    rw [h]
    exact keeps_run_write' (hupd _ (.inr (hrefs ▸ appendReference_subset _ _)))
  | touched _ _ h =>
    rw [h]
    exact keeps_run_write' (hupd _ (.inl rfl))
  | unchanged _ h =>
    rw [h]
    exact .refl s

/-- Run alone, a crawl keeps every Files and Directories document, with its references. -/
theorem run_crawl_keeps {S : Store} (hr : Accepted r) : S.Keeps (run w t (c.crawl r) S).2.1 := by
  have hnew : ∀ s : Store, s.Keeps (run w t (c.indexNew r) s).2.1 := fun s => by
    rw [run_store]
    exact Store.keeps_applyAll_creates (run_indexNew_acts r).creates
  cases run_crawl_path (w := w) (t := t) (c := c) (s := S) hr with
  | lookupError h | invalid _ h | unreferenced _ _ h | deleteFails _ h =>
    rw [h]
    exact .refl S
  | new _ h =>
    rw [h]
    exact hnew S
  | deleted _ _ _ h =>
    rw [h]
    refine Store.Keeps.trans ?_ (hnew _)
    exact Store.keeps_apply (fun _ _ h => by cases h; exact .inl rfl) fun _ _ _ h => nomatch h
  | existing _ hf h =>
    rw [h]
    exact run_updateExisting_keeps (Store.find_some hf) rfl

/-- Indexing a resource as new from a store without it gives a file or directory document only the
reference the resource was found through. -/
theorem run_indexNew_records {S S' : Store} {acts : List Act} (habs : S.Absent r.id)
    (h : run w t (c.indexNew r) S = (.ok none, S', acts)) {i : IndexName} {d : Doc}
    (hi : i = .files ∨ i = .directories) (hf : S'.find r.id = some (i, d)) :
    d.references = r.reference.references := by
  obtain ⟨idx, d₀, pre, rfl, hpre, hidx, hdoc⟩ := (run_indexNew_ok_none h).1.last_create
  have hS' : S' = (Write.create idx r.id d₀).apply (Act.applyAll pre S) := by
    have := run_store w t (c.indexNew r) S
    rw [h] at this
    simpa [Act.applyAll_append] using this
  have hi' : i ≠ .invalids := by rcases hi with rfl | rfl <;> decide
  have hd := Store.find_some hf
  rw [hS'] at hd
  by_cases hix : i = idx
  · subst hix
    rw [Write.create_apply_self, Act.applyAll_of_isChild hpre S hi', habs i] at hd
    cases hd
    obtain ⟨doc, hdoc'⟩ := Doc.document?_of_index (hidx ▸ hi)
    simp [Doc.references, hdoc', hdoc doc hdoc']
  · rw [Write.apply_of_ne (w := .create idx r.id d₀) (fun h => hix h.1),
      Act.applyAll_of_isChild hpre S hi', habs i] at hd
    cases hd

/-- The reference a resource was found through is among those `appendReference` returns. -/
theorem mem_appendReference (refs : References) {r : Reference} {p : Cid}
    (hp : r.parent = some p) : ⟨p, r.name⟩ ∈ (appendReference refs r).1 := by
  rw [appendReference_eq]
  simp only [hp]
  split
  · assumption
  · simp

/-- Run alone from a store whose indexes hold their own kinds, a crawl from a directory that returns
nil leaves the reference it was found through in the document its CID then has in Files or
Directories, if it has one there. -/
theorem run_crawl_records {S S' : Store} {acts : List Act} (hr : Accepted r) (hT : S.Typed)
    (hsrc : r.source = .directorySource) {p : Cid} (hp : r.reference.parent = some p)
    (h : run w t (c.crawl r) S = (.ok none, S', acts)) {i : IndexName} {d : Doc}
    (hi : i = .files ∨ i = .directories) (hf : S'.find r.id = some (i, d)) :
    ⟨p, r.reference.name⟩ ∈ d.references := by
  have hnew : ∀ {S₀ acts₀}, S₀.Absent r.id → run w t (c.indexNew r) S₀ = (.ok none, S', acts₀) →
      ⟨p, r.reference.name⟩ ∈ d.references := fun habs h' => by
    rw [run_indexNew_records habs h' hi hf]
    simp [Reference.references, hp]
  cases run_crawl_path (w := w) (t := t) (c := c) (s := S) hr with
  | lookupError h' | deleteFails _ h' =>
    rw [h'] at h
    cases h
  | new habs h' => exact hnew habs (h'.symm.trans h)
  | invalid hfS h' =>
    rw [h'] at h
    cases h
    rw [hfS] at hf
    cases hf
    simp at hi
  | unreferenced _ hp' _ => simp [hp] at hp'
  | deleted hfS _ _ h' =>
    rw [h'] at h
    simp only [Prod.mk.injEq] at h
    exact hnew (Store.absent_of_delete_partials hfS) (Prod.ext h.1 (Prod.ext h.2.1 rfl))
  | @existing i₀ d₀ hi₀ hfS h' =>
    rw [h', run_updateExisting_directory hsrc] at h
    have hmem := mem_appendReference d₀.references hp
    split at h
    · obtain ⟨-, rfl, -⟩ := run_write'_eq_ok_none h
      rw [Store.find_update _ hfS] at hf
      cases hf
      obtain ⟨doc, hdoc⟩ := Doc.document?_of_index (d := d₀) (by rwa [hT _ _ _ (Store.find_some hfS)])
      rw [Doc.references_update (by simp [hdoc]) (List.ne_nil_of_mem hmem)]
      exact hmem
    · rename_i hnot
      cases h
      rw [hfS] at hf
      cases hf
      rwa [appendReference_of_not_appended (by simpa using hnot)] at hmem

end Run

/-! ## Crawls one at a time -/

/-- Crawls run one after another, each alone from the store the one before left and returning
nil; each call is listed with the store it leaves. -/
inductive Crawls (c : Crawler) : Store → List (AnnotatedResource × Store) → Store → Prop
  | nil (S : Store) : Crawls c S [] S
  | cons {S S₁ S' : Store} {r : AnnotatedResource} {acts : List Act}
      {rest : List (AnnotatedResource × Store)} (w : World) (t : Time) :
      run w t (c.crawl r) S = (.ok none, S₁, acts) → Crawls c S₁ rest S' →
      Crawls c S ((r, S₁) :: rest) S'

/-- A crawl that returns passed `Crawl`'s guard: on any other resource it panics. -/
theorem accepted_of_run_crawl {c : Crawler} {r : AnnotatedResource} {w : World} {t : Time}
    {S S' : Store} {x : Option Err} {acts : List Act}
    (h : run w t (c.crawl r) S = (.ok x, S', acts)) : Accepted r := by
  unfold Crawler.crawl at h
  split at h
  · cases h
  · split at h
    · cases h
    · rename_i hp hs
      exact ⟨hp, by simpa using hs⟩

theorem Crawls.keeps {c : Crawler} {S S' : Store} {calls : List (AnnotatedResource × Store)}
    (h : Crawls c S calls S') : S.Keeps S' := by
  induction h with
  | nil S => exact .refl S
  | @cons S S₁ _ r _ _ w t hrun _ ih =>
    have := run_crawl_keeps (w := w) (t := t) (c := c) (S := S) (accepted_of_run_crawl hrun)
    rw [hrun] at this
    exact this.trans ih

/-- Crawls run one at a time, all returning nil, lose no reference: once a crawl from a directory,
found under parent `p` with name `n`, leaves its CID with a document in Files or Directories, that
document has `(p, n)` among its references in every later store. -/
theorem crawls_keep_references {c : Crawler} {S S' : Store}
    {calls : List (AnnotatedResource × Store)} (hT : S.Typed) (h : Crawls c S calls S') :
    ∀ r S₁, (r, S₁) ∈ calls → r.source = .directorySource → ∀ p, r.reference.parent = some p →
      ∀ i d, (i = .files ∨ i = .directories) → S₁.find r.id = some (i, d) →
        ∃ d', S' i r.id = some d' ∧ ⟨p, r.reference.name⟩ ∈ d'.references := by
  induction h with
  | nil => exact fun _ _ h => nomatch h
  | @cons S S₁ S' r acts rest w t hrun hrest ih =>
    intro r' S₂ hmem hsrc p hp i d hi hf
    rcases List.mem_cons.1 hmem with heq | hmem
    · obtain ⟨rfl, rfl⟩ := Prod.mk.inj heq
      have hpair := run_crawl_records (accepted_of_run_crawl hrun) hT hsrc hp hrun hi hf
      obtain ⟨d', hd', hsub⟩ := hrest.keeps i hi _ d (Store.find_some hf)
      exact ⟨d', hd', hsub hpair⟩
    · have hT₁ : S₁.Typed := by
        have := run_crawl_typed (w := w) (t := t) (c := c) (r := r) hT
        rwa [hrun] at this
      exact ih hT₁ r' S₂ hmem hsrc p hp i d hi hf

/-- `filedX` once `QmX` has also been found in `QmParent` as `x`. -/
def appendedX : Store :=
  (Write.update .files "QmX" { references := [⟨"QmA", "a"⟩, ⟨"QmParent", "x"⟩] }).apply filedX

/-- `QmX` listed as `y` in another directory, `QmOther`. -/
def listedElsewhere : AnnotatedResource :=
  ⟨.ipfsProtocol, "QmX", .directorySource, ⟨some "QmOther", "y"⟩, ⟨.fileType, 7⟩⟩

/-- `appendedX` once `QmX` has also been found in `QmOther` as `y`. -/
def appendedXY : Store :=
  (Write.update .files "QmX"
    { references := [⟨"QmA", "a"⟩, ⟨"QmParent", "x"⟩, ⟨"QmOther", "y"⟩] }).apply appendedX

/-- `QmX` is crawled as found in `QmParent`, then, in a later call, as found in `QmOther`: the
reference through `QmParent` is still there in the store the second call leaves. -/
theorem listedX_reference_kept :
    filedX.Typed ∧
    Crawls bareCrawler filedX [(listedX, appendedX), (listedElsewhere, appendedXY)] appendedXY ∧
    ∀ r S₁, (r, S₁) ∈ [(listedX, appendedX), (listedElsewhere, appendedXY)] →
      r.source = .directorySource → ∀ p, r.reference.parent = some p →
      ∀ i d, (i = .files ∨ i = .directories) → S₁.find r.id = some (i, d) →
          ∃ d', appendedXY i r.id = some d' ∧ ⟨p, r.reference.name⟩ ∈ d'.references :=
  have hT : filedX.Typed := by
    intro i id d hd
    simp only [filedX, Write.apply, Write.applyDoc, Write.idx, Write.id, Store.empty] at hd
    split at hd <;> cases hd
    rename_i h
    rw [h.1]
    rfl
  have h : Crawls bareCrawler filedX [(listedX, appendedX), (listedElsewhere, appendedXY)]
      appendedXY := .cons allSucceed 0 rfl (.cons allSucceed 0 rfl (.nil _))
  ⟨hT, h, crawls_keep_references hT h⟩

/-- Two workers crawl `QmX`, found in two directories, at once: both read its references before
either writes, and each writes back what it read plus its own pair. Both crawls return nil, and
the reference through `QmParent` is lost. -/
theorem listedTwice_reference_lost :
    ∃ P, PoolReachable bareCrawler false filedX 0 P ∧
      P.workers.map Worker.res = [listedX, listedElsewhere] ∧
      P.workers.map Worker.prog = [.pure none, .pure none] ∧
      ∃ d, P.store .files "QmX" = some d ∧ ⟨"QmParent", "x"⟩ ∉ d.references := by
  refine ⟨?_, ?_, ?_⟩
  rotate_left
  · refine .head (PoolStep.deliver _ listedX) ?_
    refine .head (PoolStep.deliver _ listedElsewhere) ?_
    refine .head (PoolStep.lookup (n := 0) rfl rfl (.inl rfl)) ?_
    refine .head (PoolStep.lookup (n := 1) rfl rfl (.inl rfl)) ?_
    refine .head (PoolStep.writeAccepted (n := 0) rfl rfl) ?_
    refine .head (PoolStep.writeAccepted (n := 1) rfl rfl) ?_
    exact .refl
  · exact ⟨rfl, rfl, _, rfl, by decide⟩

end IpfsSearch
