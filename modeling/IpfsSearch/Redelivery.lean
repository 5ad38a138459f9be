import IpfsSearch.Run

/-!
# Redelivery — a duplicate message finds nothing left to do

The queues deliver a message at least once, so `Crawl` must tolerate a second delivery of a
message it has already handled. Run alone against the same collaborators, a first `Crawl` of `r`
that returns nil leaves a store in which `r` is `Settled`:

* indexed as invalid, or an unreferenced partial, which `Crawl` skips;
* just indexed as partial, so that deleting it and indexing it again gives the store back;
* a file or directory that already records the reference it was found through.

A second `Crawl` of `r` from a settled store, against the same collaborators, then changes no
document, except that a sniffed resource may have its `LastSeen` set to the new clock reading, and
queues no directory entry (`crawl_redelivery_idempotent`). Both provisos are needed
(`redelivery_moves_back_or_deletes`): with a negative `MinUpdateAge` the `LastSeen` of a sniffed
file moves back, and a bulk indexer that refuses the second run's re-create of a referenced partial,
after accepting its delete, leaves the partial gone.
-/

namespace IpfsSearch

open Prog Crawler

/-- A store in which a second delivery of `r` finds nothing left to do. -/
inductive Settled (w : World) (r : AnnotatedResource) (S : Store) : Prop
  | invalid {d : Doc} : S.find r.id = some (.invalids, d) → Settled w r S
  | unreferenced {d : Doc} : S.find r.id = some (.partials, d) → r.reference.parent = none →
      Settled w r S
  | partialMarker {S₀ : Store} : S₀.Absent r.id →
      S = (Write.create .partials r.id .partialMarker).apply S₀ →
      w.write (.create .partials r.id .partialMarker) = none → (w.ensureType r).2 = none →
      (w.ensureType r).1.stat.type = .partialType → Settled w r S
  | existing {idx : IndexName} {d : Doc} : S.find r.id = some (idx, d) →
      (idx = .files ∨ idx = .directories) →
      (r.source = .directorySource →
        (appendReference d.references r.reference).2 = false ∨ d.document? = none) →
      Settled w r S

/-- What a second delivery of `r` to the store `S₁` may do: leave every document as it is, or,
for a sniffed resource, move the `LastSeen` of `r`'s document to the truncated clock reading,
more than `MinUpdateAge` past the one it read (so later, when `MinUpdateAge` is not negative);
every write it issues is for `r`, and it queues no directory entry. -/
def Redelivered (c : Crawler) (t : Time) (r : AnnotatedResource) (S₁ : Store)
    (res : Except String (Option Err) × Store × List Act) : Prop :=
  (res.2.1 = S₁ ∨
    (r.source = .snifferSource ∨ r.source = .unknownSource) ∧ ∃ idx,
      res.2.1 = (Write.update idx r.id { lastSeen := some (Time.truncate t) }).apply S₁ ∧
      ∀ L, (S₁ idx r.id).bind Doc.lastSeen = some L →
        c.config.minUpdateAge < Time.sub (Time.truncate t) L ∧
        (0 ≤ c.config.minUpdateAge → L < Time.truncate t)) ∧
  ∀ a ∈ res.2.2, ∃ wr x, a = .write wr x ∧ wr.id = r.id

variable {w : World} {t : Time} {c : Crawler} {r : AnnotatedResource} {S S₁ : Store}
  {acts : List Act}

/-! ## The first delivery settles the store -/

/-- Indexing a resource no index holds settles it. -/
theorem settled_of_indexNew (habs : S.Absent r.id)
    (h : run w t (c.indexNew r) S = (.ok none, S₁, acts)) : Settled w r S₁ := by
  obtain ⟨hix, herr⟩ := run_indexNew_ok_none h
  have hS₁ : S₁ = Act.applyAll acts S := by simpa [h] using run_store w t (c.indexNew r) S
  have hans : ∀ wr res, Act.write wr res ∈ acts → res = w.write wr := fun wr res ha =>
    run_write_answer w t (c.indexNew r) S (.write wr res) (by rw [h]; exact ha) wr res rfl
  subst hS₁
  cases hix with
  | @invalid pre e _ hpre =>
    have hkeep : ∀ i, i ≠ .invalids → Act.applyAll pre S i r.id = none := fun i hi =>
      (Act.applyAll_of_isChild hpre S hi r.id).trans (habs i)
    refine .invalid (d := (Act.applyAll pre S .invalids r.id).getD (.invalid ⟨e.error⟩))
      (Store.find_eq_invalids ?_ ?_ (by simp [Act.applyAll_append, invalidWrite])) <;>
      simp [Act.applyAll_append, invalidWrite, Write.apply, Write.idx, hkeep]
  | @file f _ hdoc =>
    refine .existing (Store.find_eq_files (d := .file f) ?_) (.inl rfl) fun _ => .inl ?_
    · simp [Write.apply, Write.applyDoc, Write.idx, Write.id, habs .files]
    · simp [Doc.references, Doc.document?, hdoc]
  | directory =>
    have hkeep : ∀ i, i ≠ .invalids →
        Act.applyAll (w.crawlDir (w.ensureType r).1).acts S i r.id = none := fun i hi =>
      (Act.applyAll_of_isChild (DirRun.acts_isChild _) S hi r.id).trans (habs i)
    refine .existing (Store.find_eq_directories (d := .directory ⟨⟨Time.truncate t,
      Time.truncate t, r.reference.references, (w.ensureType r).1.stat.size⟩,
        (w.crawlDir (w.ensureType r).1).links⟩) ?_ ?_) (.inr rfl) fun _ => .inl ?_
    · simp [Act.applyAll_append, Write.apply, Write.idx, hkeep]
    · simp [Act.applyAll_append, Write.apply, Write.applyDoc, Write.idx, Write.id, hkeep]
    · simp [Doc.references, Doc.document?]
  | partialMarker hty =>
    have hw := hans _ _ (.head _)
    refine .partialMarker habs (by simp) (by simpa using hw.symm) ?_ hty
    rcases herr with herr | ⟨e, he⟩
    · exact herr
    · simp [invalidWrite] at he

/-- Updating an existing file or directory settles it. -/
theorem settled_of_updateExisting {idx : IndexName} {d : Doc} (hf : S.find r.id = some (idx, d))
    (hidx : idx = .files ∨ idx = .directories)
    (h : run w t (c.updateExisting ⟨r, idx, d.references, d.lastSeen⟩) S = (.ok none, S₁, acts)) :
    Settled w r S₁ := by
  cases run_updateExisting_path (w := w) (t := t) (s := S) (c := c)
    (i := ⟨r, idx, d.references, d.lastSeen⟩) with
  | appended _ hap h' =>
    rw [h'] at h
    obtain ⟨-, rfl, -⟩ := run_write'_eq_ok_none h
    refine .existing (Store.find_update _ hf) hidx fun _ => ?_
    cases hdoc : d.document? with
    | none => exact .inr (by simp [hdoc])
    | some doc =>
      obtain ⟨p, -, -, happ⟩ := appendReference_of_appended hap
      rw [Doc.references_update (by simp [hdoc]) (by simp [happ])]
      exact .inl (appendReference_appended (Prod.ext rfl hap))
  | touched hsrc _ h' =>
    rw [h'] at h
    obtain ⟨-, rfl, -⟩ := run_write'_eq_ok_none h
    refine .existing (Store.find_update _ hf) hidx fun hdir => ?_
    rcases hsrc with h | h <;> simp [hdir] at h
  | unchanged hdir h' =>
    rw [h'] at h
    cases h
    exact .existing hf hidx fun hsrc => .inl (hdir hsrc)

/-- The first delivery of `r`, when it returns nil, settles the store it leaves. -/
theorem settled_of_crawl (hr : Accepted r) (h : run w t (c.crawl r) S = (.ok none, S₁, acts)) :
    w.getExistingItem r = none ∧ Settled w r S₁ := by
  refine ⟨?_, ?_⟩
  · cases he : w.getExistingItem r with
    | none => rfl
    | some e => simp [run_crawl_lookupError hr he] at h
  cases run_crawl_path (w := w) (t := t) (c := c) (s := S) hr with
  | lookupError h' | deleteFails _ h' => simp [h'] at h
  | new habs h' => exact settled_of_indexNew habs (h'.symm.trans h)
  | invalid hf h' =>
    rw [h'] at h
    cases h
    exact .invalid hf
  | unreferenced hf hp h' =>
    rw [h'] at h
    cases h
    exact .unreferenced hf hp
  | deleted hf _ _ h' =>
    rw [h'] at h
    simp only [Prod.mk.injEq] at h
    exact settled_of_indexNew (Store.absent_of_delete_partials hf) (Prod.ext h.1 (Prod.ext h.2.1 rfl))
  | existing hi hf h' => exact settled_of_updateExisting hf hi (h'.symm.trans h)

/-! ## The second delivery changes nothing -/

/-- A delivery of `r` to a store where it is settled leaves every document as it is, or moves a
sniffed resource's `LastSeen` on. -/
theorem Settled.redelivered (hr : Accepted r) (he : w.getExistingItem r = none)
    (hS : Settled w r S₁) : Redelivered c t r S₁ (run w t (c.crawl r) S₁) := by
  cases hS with
  | invalid hf =>
    rw [run_crawl_invalid hr he hf rfl]
    exact ⟨.inl rfl, by simp⟩
  | unreferenced hf hp =>
    rw [run_crawl_unreferenced hr he hf rfl hp]
    exact ⟨.inl rfl, by simp⟩
  | @partialMarker S₀ habs hS₁ hw herr hty =>
    subst hS₁
    have hf : ((Write.create .partials r.id .partialMarker).apply S₀).find r.id =
        some (.partials, .partialMarker) := by
      apply Store.find_eq_partials <;> simp [Write.apply, Write.applyDoc, Write.idx, Write.id, habs _]
    cases hp : r.reference.parent with
    | none =>
      rw [run_crawl_unreferenced hr he hf rfl hp]
      exact ⟨.inl rfl, by simp⟩
    | some p =>
      cases hd : w.write (.delete .partials r.id) with
      | some e =>
        rw [run_crawl_deleteFails hr he hf rfl hp hd]
        exact ⟨.inl (by simp), by simp [Write.id]⟩
      | none =>
        rw [run_crawl_deleted hr he hf rfl hp hd, Write.delete_create (habs _),
          run_indexNew_partial herr hty]
        exact ⟨.inl (by simp [hw]), by simp [Write.id]⟩
  | @existing idx d hf hidx hdir =>
    rw [run_crawl_existing hr he hf hidx]
    have hd := Store.find_some hf
    cases run_updateExisting_path (w := w) (t := t) (s := S₁) (c := c)
      (i := ⟨r, idx, d.references, d.lastSeen⟩) with
    | appended hsrc hap h =>
      rw [h]
      rcases hdir hsrc with hno | hnone
      · simp [hno] at hap
      · exact ⟨.inl (Act.applyAll_write_of_apply_eq
          (Write.update_apply_eq_self hd (Doc.update_of_document?_none hnone _)) _),
          by simp [Write.id]⟩
    | unchanged _ h =>
      rw [h]
      exact ⟨.inl rfl, by simp⟩
    | touched hsrc hL h =>
      rw [h, run_write']
      refine ⟨?_, by simp [Write.id]⟩
      cases hw : w.write (.update idx r.id { lastSeen := some (Time.truncate t) }) with
      | some e => exact .inl (by simp [hw])
      | none =>
        refine .inr ⟨hsrc, idx, by simp [hw], fun L hL' => ?_⟩
        have hlt := hL L (by simpa [hd] using hL')
        refine ⟨hlt, fun h0 => ?_⟩
        have := Time.lt_of_lt_sub (minDuration_le_zero.trans h0) hlt
        exact_mod_cast Int.lt_of_sub_pos (h0.trans_lt this)

/-- A duplicate delivery changes nothing: if a `Crawl` of `r` from `S` returns nil, leaving `S₁`
(its accepted writes applied in issue order), then a second `Crawl` of the same message from
`S₁`, against the same collaborators and at any clock reading, leaves every document as in `S₁`
except that a sniffed resource's `LastSeen` may move on; it queues no directory entry and
writes only `r`'s own documents. -/
theorem crawl_redelivery_idempotent {t₁ : Time} (hr : Accepted r)
    (h : run w t₁ (c.crawl r) S = (.ok none, S₁, acts)) (t₂ : Time) :
    Redelivered c t₂ r S₁ (run w t₂ (c.crawl r) S₁) :=
  let ⟨he, hS⟩ := settled_of_crawl hr h
  hS.redelivered hr he

/-- A sniffed resource of unknown type, which `Stat` finds to be a file. -/
def sniffedFile : AnnotatedResource :=
  ⟨.ipfsProtocol, "QmFile", .snifferSource, ⟨none, ""⟩, ⟨.undefinedType, 0⟩⟩

/-- Collaborators that answer every call without error: `Stat` finds a file of 42 bytes. -/
def statFile : World where
  getExistingItem _ := none
  stat _ := (⟨.fileType, 42⟩, none)
  extract _ _ f := (f.metadata, none)
  crawlDir _ := ⟨[], [], .ok⟩
  write _ := none

/-- A crawler with no extractors that updates a sniffed item at most once an hour. -/
def hourlyCrawler : Crawler := ⟨⟨0, 3600 * second, 0⟩, []⟩

/-- A sniffed file is created at clock 0; the message delivered again two hours later. -/
theorem sniffedFile_redelivered :
    Accepted sniffedFile ∧
      run statFile 0 (hourlyCrawler.crawl sniffedFile) Store.empty =
        (.ok none, Act.applyAll [.write (.create .files "QmFile" (.file ⟨⟨0, 0, [], 42⟩, []⟩)) none]
          Store.empty, [.write (.create .files "QmFile" (.file ⟨⟨0, 0, [], 42⟩, []⟩)) none]) ∧
      Redelivered hourlyCrawler (7200 * second) sniffedFile
        (Act.applyAll [.write (.create .files "QmFile" (.file ⟨⟨0, 0, [], 42⟩, []⟩)) none] Store.empty)
        (run statFile (7200 * second) (hourlyCrawler.crawl sniffedFile)
          (Act.applyAll [.write (.create .files "QmFile" (.file ⟨⟨0, 0, [], 42⟩, []⟩)) none]
            Store.empty)) :=
  have hr : Accepted sniffedFile := ⟨by decide, rfl⟩
  have h : run statFile 0 (hourlyCrawler.crawl sniffedFile) Store.empty = _ := rfl
  ⟨hr, h, crawl_redelivery_idempotent hr h _⟩

/-- A crawler that updates a sniffed item unless it was seen more than an hour in the future:
its `MinUpdateAge` is negative. -/
def backdatingCrawler : Crawler := ⟨⟨0, -(3600 * second : Int), 0⟩, []⟩

/-- `QmP`, listed as `p` in directory `QmDir`, its type not known yet. -/
def listedHash : AnnotatedResource :=
  ⟨.ipfsProtocol, "QmP", .directorySource, ⟨some "QmDir", "p"⟩, ⟨.undefinedType, 0⟩⟩

/-- Collaborators that answer every call without error: `Stat` finds a partial. -/
def statPartial : World := { statFile with stat := fun _ => (⟨.partialType, 0⟩, none) }

/-- The same collaborators, but the bulk indexer refuses every create in Partials. -/
def partialCreateRefused : World :=
  { statPartial with
    write := fun
      | .create .partials _ _ => some (.other "create refused")
      | _ => none }

/-- Two redeliveries that change the store the first delivery left. A sniffed file created at
7200 s is delivered again at 5400 s by a crawler whose `MinUpdateAge` is -1h: its `LastSeen` moves
back from 7200 s to 5400 s. A listed hash that `Stat` finds partial is indexed in Partials; on the
second delivery, with `Stat`, `Ls` and the extractors answering as before, the bulk indexer accepts
the delete of the referenced partial and refuses its re-create: the partial is gone. -/
theorem redelivery_moves_back_or_deletes :
    Accepted sniffedFile ∧
      (run statFile (7200 * second) (backdatingCrawler.crawl sniffedFile) Store.empty).1 =
        .ok none ∧
      ((run statFile (7200 * second) (backdatingCrawler.crawl sniffedFile) Store.empty).2.1
        .files "QmFile").bind Doc.lastSeen = some (7200 * second) ∧
      ((run statFile (5400 * second) (backdatingCrawler.crawl sniffedFile)
        (run statFile (7200 * second) (backdatingCrawler.crawl sniffedFile) Store.empty).2.1).2.1
        .files "QmFile").bind Doc.lastSeen = some (5400 * second) ∧
    Accepted listedHash ∧
      partialCreateRefused.stat = statPartial.stat ∧
      partialCreateRefused.extract = statPartial.extract ∧
      partialCreateRefused.crawlDir = statPartial.crawlDir ∧
      (run statPartial 0 (hourlyCrawler.crawl listedHash) Store.empty).1 = .ok none ∧
      (run statPartial 0 (hourlyCrawler.crawl listedHash) Store.empty).2.1 .partials "QmP" =
        some .partialMarker ∧
      (run partialCreateRefused 0 (hourlyCrawler.crawl listedHash)
        (run statPartial 0 (hourlyCrawler.crawl listedHash) Store.empty).2.1).2.1
        .partials "QmP" = none :=
  ⟨⟨by decide, rfl⟩, rfl, rfl, rfl, ⟨by decide, rfl⟩, rfl, rfl, rfl, rfl, rfl, rfl⟩

end IpfsSearch
