import IpfsSearch.Crawler

/-!
# Run — what each function of the crawler does, run alone

One lemma per function of `IpfsSearch.Crawler`, and per path through it: what `Prog.run` returns,
the store it leaves and the acts it records, in terms of the `World`'s answers. Later proofs cite
these and do not unfold the crawler's code.

* `run_indexNew_ok_none` — what indexing a new resource issues when it returns nil (`Indexed`);
* `run_crawl_*` — `Crawl`, by what the lookup finds, gathered in `run_crawl_path`;
* `run_updateExisting_*` — `updateExisting`, by the resource's source, gathered in
  `run_updateExisting_path`.
-/

namespace IpfsSearch

open Prog Crawler

/-- What `ensureType` leaves against `w`: a resource whose type is not known yet gets the `Stat`
that `w` answers for it, with that call's error. -/
def World.ensureType (w : World) (r : AnnotatedResource) : AnnotatedResource × Option Err :=
  match r.stat.type with
  | .undefinedType => ({ r with stat := (w.stat r).1 }, (w.stat r).2)
  | _ => (r, none)

variable {w : World} {t : Time} {s s' : Store} {c : Crawler} {r : AnnotatedResource}
  {acts : List Act}

@[simp] theorem World.ensureType_id (r : AnnotatedResource) : (w.ensureType r).1.id = r.id := by
  unfold World.ensureType; split <;> rfl

@[simp] theorem World.ensureType_reference (r : AnnotatedResource) :
    (w.ensureType r).1.reference = r.reference := by
  unfold World.ensureType; split <;> rfl

@[simp] theorem invalidWrite_ensureType (r : AnnotatedResource) (e : Err) :
    invalidWrite (w.ensureType r).1 e = invalidWrite r e := by
  simp [invalidWrite]

/-! ## Indexing a resource -/

theorem run_makeDocument (r : AnnotatedResource) :
    run w t (makeDocument r) s =
      (.ok ⟨Time.truncate t, Time.truncate t, r.reference.references, r.stat.size⟩, s, []) := rfl

theorem run_ensureType (r : AnnotatedResource) :
    run w t (ensureType r) s = (.ok (w.ensureType r), s, []) := by
  cases h : r.stat.type <;> simp [ensureType, World.ensureType, h, run]

/-- The extractor loop reads and writes nothing; the file it returns keeps its document, and it
returns no file only with an invalid-resource error. -/
theorem run_extractAll (r : AnnotatedResource) (es : List Extractor) (f : File) (err : Option Err) :
    ∃ x, run w t (extractAll r es f err) s = (.ok x, s, []) ∧
      (∀ f', x.1 = some f' → f'.document = f.document) ∧
      (x.1 = none → ∃ e, x.2 = some (Err.wrapf .invalidResource e)) := by
  induction es generalizing f err with
  | nil => exact ⟨_, rfl, fun f' h => by cases h; rfl, by simp⟩
  | cons e es ih =>
    simp only [extractAll, bind_def, extract'_bind, run, pure_bind, pure_def]
    split
    · split
      · exact ⟨_, rfl, by simp, by simp⟩
      · exact ih _ _
    · exact ih _ _

theorem run_getFileProperties (r : AnnotatedResource) :
    ∃ x, run w t (c.getFileProperties r) s = (.ok x, s, []) ∧
      (∀ f, x.1 = some f → f.document =
        ⟨Time.truncate t, Time.truncate t, r.reference.references, r.stat.size⟩) ∧
      (x.1 = none → ∃ e, x.2 = some (Err.wrapf .invalidResource e)) := by
  obtain ⟨x, hx, hdoc, hnone⟩ := run_extractAll (w := w) (t := t) (s := s) r c.extractors
    ⟨⟨Time.truncate t, Time.truncate t, r.reference.references, r.stat.size⟩, []⟩ none
  exact ⟨x, by simpa [getFileProperties, run_bind, run_makeDocument] using hx, hdoc, hnone⟩

theorem run_getDirectoryProperties (r : AnnotatedResource) :
    run w t (getDirectoryProperties r) s =
      ((if (w.crawlDir r).result = .panic then .error "panic re-raised by crawlDir"
        else .ok (some (.directory ⟨⟨Time.truncate t, Time.truncate t, r.reference.references,
          r.stat.size⟩, (w.crawlDir r).links⟩), (w.crawlDir r).result.returned)),
        Act.applyAll (w.crawlDir r).acts s, (w.crawlDir r).acts) := by
  simp only [getDirectoryProperties, bind_def, run_bind, run_makeDocument, crawlDir'_bind, run,
    pure_bind]
  split <;> simp_all

/-- What `index` issues when it returns nil: an `Invalids` document, after the acts of a
directory expansion that returned an invalid-resource error (if any); or one create of the
resource into the index its type selects (after the acts of its directory expansion), with the
document `makeDocument` made. -/
inductive Indexed (w : World) (t : Time) (r : AnnotatedResource) : List Act → Prop
  | invalid {pre : List Act} {e : Err} : e.is .invalidResource = true → (∀ a ∈ pre, a.IsChild) →
      Indexed w t r (pre ++ [.write (invalidWrite r e) none])
  | file {f : File} : r.stat.type = .fileType →
      f.document = ⟨Time.truncate t, Time.truncate t, r.reference.references, r.stat.size⟩ →
      Indexed w t r [.write (.create .files r.id (.file f)) none]
  | directory : r.stat.type = .directoryType → (w.crawlDir r).result = .ok →
      Indexed w t r ((w.crawlDir r).acts ++ [.write (.create .directories r.id (.directory
        ⟨⟨Time.truncate t, Time.truncate t, r.reference.references, r.stat.size⟩,
          (w.crawlDir r).links⟩)) none])
  | partialMarker : r.stat.type = .partialType →
      Indexed w t r [.write (.create .partials r.id .partialMarker) none]

/-- The end of `index`: an error is returned or indexed as invalid; otherwise the document is
created. -/
theorem run_index_tail {idx : Option IndexName} {d : Option Doc} {err : Option Err}
    {pre : List Act} {s'' : Store} (hp : run w t (c.getProperties r) s = (.ok (idx, d, err), s', pre))
    (h : run w t (c.index r) s = (.ok none, s'', acts)) :
    (∃ e, err = some e ∧ e.is .invalidResource = true ∧
      acts = pre ++ [.write (invalidWrite r e) none]) ∨
    (err = none ∧ ∃ i doc, idx = some i ∧ d = some doc ∧
      acts = pre ++ [.write (.create i r.id doc) none]) := by
  simp only [Crawler.index, bind_def, run_bind, hp] at h
  rcases err with _ | e
  · rcases idx with _ | i <;> rcases d with _ | doc <;> simp [run] at h
    obtain ⟨h1, -, rfl⟩ := h
    simp [h1]
  · by_cases he : e.is .invalidResource <;> simp [indexInvalid, run, he] at h
    obtain ⟨h1, -, rfl⟩ := h
    simp [he, h1]

theorem run_index_ok_none (h : run w t (c.index r) s = (.ok none, s', acts)) :
    Indexed w t r acts := by
  cases hty : r.stat.type with
  | fileType =>
    obtain ⟨x, hx, hdoc, -⟩ := run_getFileProperties (w := w) (t := t) (s := s) (c := c) r
    have hp : run w t (c.getProperties r) s = (.ok (some .files, x.1.map .file, x.2), s, []) := by
      simp [getProperties, hty, run_bind, hx]
    rcases run_index_tail hp h with ⟨e, -, hinv, rfl⟩ | ⟨-, i, doc, ⟨⟩, hd, rfl⟩
    · exact .invalid hinv (by simp)
    · obtain ⟨f, hf, rfl⟩ := Option.map_eq_some'.1 hd
      exact .file hty (hdoc f hf)
  | directoryType =>
    have hd := run_getDirectoryProperties (w := w) (t := t) (s := s) r
    by_cases hpanic : (w.crawlDir r).result = .panic
    · simp [Crawler.index, getProperties, hty, run_bind, hd, hpanic] at h
    have hp : run w t (c.getProperties r) s = (.ok (some .directories,
        some (.directory ⟨⟨Time.truncate t, Time.truncate t, r.reference.references, r.stat.size⟩,
          (w.crawlDir r).links⟩), (w.crawlDir r).result.returned),
        Act.applyAll (w.crawlDir r).acts s, (w.crawlDir r).acts) := by
      simp [getProperties, hty, run_bind, hd, hpanic]
    rcases run_index_tail hp h with ⟨e, -, hinv, rfl⟩ | ⟨hret, i, doc, ⟨⟩, ⟨⟩, rfl⟩
    · exact .invalid hinv (DirRun.acts_isChild _)
    · refine .directory hty ?_
      cases hres : (w.crawlDir r).result <;> simp_all [Outcome.returned]
  | unsupportedType =>
    have hp : run w t (c.getProperties r) s =
        (.ok (none, none, some errUnsupportedType), s, []) := by
      simp [getProperties, hty]
    rcases run_index_tail hp h with ⟨e, -, hinv, rfl⟩ | ⟨⟨⟩, -⟩
    exact .invalid hinv (by simp)
  | partialType =>
    have hp : run w t (c.getProperties r) s =
        (.ok (some .partials, some .partialMarker, none), s, []) := by
      simp [getProperties, hty]
    rcases run_index_tail hp h with ⟨e, ⟨⟩, -⟩ | ⟨-, i, doc, ⟨⟩, ⟨⟩, rfl⟩
    exact .partialMarker hty
  | undefinedType =>
    simp [Crawler.index, getProperties, hty, run_bind] at h

/-- What indexing a new resource issues when it returns nil: what `index` issues for the resource
`ensureType` leaves, where `Stat` either succeeded or found the resource invalid. -/
theorem run_indexNew_ok_none (h : run w t (c.indexNew r) s = (.ok none, s', acts)) :
    Indexed w t (w.ensureType r).1 acts ∧
      ((w.ensureType r).2 = none ∨ ∃ e, acts = [.write (invalidWrite r e) none]) := by
  simp only [Crawler.indexNew, bind_def, run_bind, run_ensureType] at h
  rcases hE : w.ensureType r with ⟨r', _ | e⟩ <;> rw [hE] at h
  · exact ⟨run_index_ok_none h, .inl rfl⟩
  · by_cases he : e.is .invalidResource <;> simp [indexInvalid, run, he] at h
    obtain ⟨h1, -, rfl⟩ := h
    have hid : invalidWrite r' e = invalidWrite r e := by
      simpa [hE] using invalidWrite_ensureType (w := w) r e
    exact ⟨by simpa [h1] using @Indexed.invalid w t r' [] e he (by simp),
      .inr ⟨e, by simp [← hid, h1]⟩⟩

/-- A resource `Stat` finds partial is indexed the same way whatever the clock and the store. -/
theorem run_indexNew_partial (herr : (w.ensureType r).2 = none)
    (hty : (w.ensureType r).1.stat.type = .partialType) :
    run w t (c.indexNew r) s =
      (.ok (w.write (.create .partials r.id .partialMarker)),
        Act.applyAll [.write (.create .partials r.id .partialMarker)
          (w.write (.create .partials r.id .partialMarker))] s,
        [.write (.create .partials r.id .partialMarker)
          (w.write (.create .partials r.id .partialMarker))]) := by
  rcases hE : w.ensureType r with ⟨r', err⟩
  rw [hE] at herr hty
  dsimp only at herr hty
  subst herr
  have hid : r'.id = r.id := by simpa [hE] using World.ensureType_id (w := w) r
  simp [Crawler.indexNew, run_bind, run_ensureType, hE, Crawler.index, getProperties, hty, hid]

/-! ## Updating an existing item -/

section Update

variable {i : ExistingItem}

theorem run_updateExisting_directory (hsrc : i.resource.source = .directorySource) :
    run w t (c.updateExisting i) s =
      if (appendReference i.references i.resource.reference).2 then
        run w t (write' (.update i.index i.resource.id
          { references := (appendReference i.references i.resource.reference).1 })) s
      else (.ok none, s, []) := by
  simp only [updateExisting, hsrc]
  split <;> rfl

/-- A sniffed item is either left alone or has its `LastSeen` moved to the truncated clock
reading, which is then more than `MinUpdateAge` past the `LastSeen` that was read. -/
theorem run_updateExisting_sniffed
    (hsrc : i.resource.source = .snifferSource ∨ i.resource.source = .unknownSource) :
    run w t (c.updateExisting i) s = (.ok none, s, []) ∨
      (run w t (c.updateExisting i) s =
          run w t (write' (.update i.index i.resource.id { lastSeen := some (Time.truncate t) })) s ∧
        ∀ L, i.lastSeen = some L → c.config.minUpdateAge < Time.sub (Time.truncate t) L) := by
  rcases hsrc with h | h <;>
  · simp only [updateExisting, h, bind_def, now'_bind, run]
    rcases hL : i.lastSeen with _ | L
    · exact .inr ⟨rfl, by simp⟩
    · by_cases hlt : c.config.minUpdateAge < Time.sub (Time.truncate t) L
      · exact .inr ⟨by simp [hlt], by simp [hlt]⟩
      · exact .inl (by simp [hlt])

theorem run_updateExisting_requested
    (hsrc : i.resource.source = .manualSource ∨ i.resource.source = .userSource) :
    run w t (c.updateExisting i) s = (.ok none, s, []) := by
  rcases hsrc with h | h <;> simp [updateExisting, h]

/-- The paths of `updateExisting`, each with the run it gives: a directory entry's reference is
appended, a sniffed item's `LastSeen` is moved on, or nothing is written. -/
inductive UpdatePath (w : World) (t : Time) (c : Crawler) (i : ExistingItem) (s : Store) : Prop
  | appended : i.resource.source = .directorySource →
      (appendReference i.references i.resource.reference).2 = true →
      run w t (c.updateExisting i) s = run w t (write' (.update i.index i.resource.id
        { references := (appendReference i.references i.resource.reference).1 })) s →
      UpdatePath w t c i s
  | touched : (i.resource.source = .snifferSource ∨ i.resource.source = .unknownSource) →
      (∀ L, i.lastSeen = some L → c.config.minUpdateAge < Time.sub (Time.truncate t) L) →
      run w t (c.updateExisting i) s =
        run w t (write' (.update i.index i.resource.id { lastSeen := some (Time.truncate t) })) s →
      UpdatePath w t c i s
  | unchanged : (i.resource.source = .directorySource →
        (appendReference i.references i.resource.reference).2 = false) →
      run w t (c.updateExisting i) s = (.ok none, s, []) → UpdatePath w t c i s

theorem run_updateExisting_path : UpdatePath w t c i s := by
  cases hsrc : i.resource.source
  case directorySource =>
    cases hap : (appendReference i.references i.resource.reference).2
    · exact .unchanged (fun _ => hap) (by simp [run_updateExisting_directory hsrc, hap])
    · exact .appended hsrc hap (by simp [run_updateExisting_directory hsrc, hap])
  case manualSource | userSource =>
    exact .unchanged (by simp [hsrc]) (run_updateExisting_requested (by simp [hsrc]))
  all_goals
    rcases run_updateExisting_sniffed (w := w) (t := t) (s := s) (c := c) (i := i) (by simp [hsrc])
      with h | ⟨h, hL⟩
    · exact .unchanged (by simp [hsrc]) h
    · exact .touched (by simp [hsrc]) hL h

end Update

/-! ## `Crawl`, by what the lookup finds -/

/-- `Crawl`'s guard: a valid protocol and a supported type. -/
def Accepted (r : AnnotatedResource) : Prop :=
  r.protocol ≠ .invalidProtocol ∧ isSupportedType r.stat.type = true

/-- The item the lookup finds: the document of the first index, in probe order, holding the
resource. -/
theorem getExistingItem_eq_some {i : ExistingItem} (hs : getExistingItem s r = some i) :
    ∃ d, s.find r.id = some (i.index, d) ∧ i = ⟨r, i.index, d.references, d.lastSeen⟩ := by
  simp only [getExistingItem, Option.map_eq_some'] at hs
  obtain ⟨⟨idx, d⟩, hf, rfl⟩ := hs
  exact ⟨d, hf, rfl⟩

theorem getExistingItem_resource {i : ExistingItem} (hs : getExistingItem s r = some i) :
    i.resource = r := by
  obtain ⟨d, -, hi⟩ := getExistingItem_eq_some hs
  rw [hi]

section Crawl

variable (hr : Accepted r)
include hr

theorem run_crawl_lookupError {e : Err} (he : w.getExistingItem r = some e) :
    run w t (c.crawl r) s = (.ok (some e), s, []) := by
  simp [Crawler.crawl, hr.1, hr.2, updateMaybeExisting, run, run_bind, he]

variable (he : w.getExistingItem r = none)
include he

theorem run_crawl_new (hs : s.Absent r.id) : run w t (c.crawl r) s = run w t (c.indexNew r) s := by
  simp [Crawler.crawl, hr.1, hr.2, updateMaybeExisting, run, run_bind, he, getExistingItem,
    Store.find_eq_none_iff.2 hs]

variable {idx : IndexName} {d : Doc} (hs : s.find r.id = some (idx, d))
include hs

theorem run_crawl_invalid (hi : idx = .invalids) : run w t (c.crawl r) s = (.ok none, s, []) := by
  subst hi
  simp [Crawler.crawl, hr.1, hr.2, updateMaybeExisting, run, run_bind, he, getExistingItem, hs,
    processExisting]

theorem run_crawl_unreferenced (hi : idx = .partials) (hp : r.reference.parent = none) :
    run w t (c.crawl r) s = (.ok none, s, []) := by
  subst hi
  simp [Crawler.crawl, hr.1, hr.2, updateMaybeExisting, run, run_bind, he, getExistingItem, hs,
    processExisting, processPartial, hp]

theorem run_crawl_deleteFails (hi : idx = .partials) {p : Cid} (hp : r.reference.parent = some p)
    {e : Err} (hd : w.write (.delete .partials r.id) = some e) :
    run w t (c.crawl r) s = (.ok (some e), s, [.write (.delete .partials r.id) (some e)]) := by
  subst hi
  simp [Crawler.crawl, hr.1, hr.2, updateMaybeExisting, run, run_bind, he, getExistingItem, hs,
    processExisting, processPartial, hp, deletePartial, hd]

theorem run_crawl_deleted (hi : idx = .partials) {p : Cid} (hp : r.reference.parent = some p)
    (hd : w.write (.delete .partials r.id) = none) :
    run w t (c.crawl r) s =
      ((run w t (c.indexNew r) ((Write.delete .partials r.id).apply s)).1,
        (run w t (c.indexNew r) ((Write.delete .partials r.id).apply s)).2.1,
        .write (.delete .partials r.id) none ::
          (run w t (c.indexNew r) ((Write.delete .partials r.id).apply s)).2.2) := by
  subst hi
  simp [Crawler.crawl, hr.1, hr.2, updateMaybeExisting, run, run_bind, he, getExistingItem, hs,
    processExisting, processPartial, hp, deletePartial, hd]

theorem run_crawl_existing (hi : idx = .files ∨ idx = .directories) :
    run w t (c.crawl r) s = run w t (c.updateExisting ⟨r, idx, d.references, d.lastSeen⟩) s := by
  have hbind : processExisting c ⟨r, idx, d.references, d.lastSeen⟩ =
      (c.updateExisting ⟨r, idx, d.references, d.lastSeen⟩).bind fun err =>
        match err with
        | some err => Prog.pure (true, some err)
        | none => Prog.pure (true, none) := by
    rcases hi with rfl | rfl <;> rfl
  simp only [Crawler.crawl, hr.1, hr.2, updateMaybeExisting, run, run_bind, he, getExistingItem,
    hs, Option.map_some', hbind, if_false, decide_False, Bool.not_eq_true', bind_def,
    getExistingItem'_bind]
  rcases run w t (c.updateExisting ⟨r, idx, d.references, d.lastSeen⟩) s with
    ⟨_ | (_ | e), s', acts⟩ <;> simp [run]

end Crawl

/-! ## The paths of a crawl -/

/-- The paths of an accepted crawl, as `updateMaybeExisting` and `processExisting` choose them,
each with the run it gives. -/
inductive CrawlPath (w : World) (t : Time) (c : Crawler) (r : AnnotatedResource) (s : Store) : Prop
  | lookupError {e : Err} : run w t (c.crawl r) s = (.ok (some e), s, []) → CrawlPath w t c r s
  | new : s.Absent r.id → run w t (c.crawl r) s = run w t (c.indexNew r) s → CrawlPath w t c r s
  | invalid {d : Doc} : s.find r.id = some (.invalids, d) →
      run w t (c.crawl r) s = (.ok none, s, []) → CrawlPath w t c r s
  | unreferenced {d : Doc} : s.find r.id = some (.partials, d) → r.reference.parent = none →
      run w t (c.crawl r) s = (.ok none, s, []) → CrawlPath w t c r s
  | deleteFails {d : Doc} {e : Err} : s.find r.id = some (.partials, d) →
      run w t (c.crawl r) s = (.ok (some e), s, [.write (.delete .partials r.id) (some e)]) →
      CrawlPath w t c r s
  | deleted {d : Doc} {p : Cid} : s.find r.id = some (.partials, d) → r.reference.parent = some p →
      w.write (.delete .partials r.id) = none →
      run w t (c.crawl r) s =
        ((run w t (c.indexNew r) ((Write.delete .partials r.id).apply s)).1,
          (run w t (c.indexNew r) ((Write.delete .partials r.id).apply s)).2.1,
          .write (.delete .partials r.id) none ::
            (run w t (c.indexNew r) ((Write.delete .partials r.id).apply s)).2.2) →
      CrawlPath w t c r s
  | existing {i : IndexName} {d : Doc} : (i = .files ∨ i = .directories) →
      s.find r.id = some (i, d) →
      run w t (c.crawl r) s = run w t (c.updateExisting ⟨r, i, d.references, d.lastSeen⟩) s →
      CrawlPath w t c r s

theorem run_crawl_path (hr : Accepted r) : CrawlPath w t c r s := by
  cases he : w.getExistingItem r with
  | some e => exact .lookupError (run_crawl_lookupError hr he)
  | none =>
    cases hf : s.find r.id with
    | none => exact .new (Store.find_eq_none_iff.1 hf) (run_crawl_new hr he (Store.find_eq_none_iff.1 hf))
    | some x =>
      obtain ⟨idx, d⟩ := x
      cases idx with
      | invalids => exact .invalid hf (run_crawl_invalid hr he hf rfl)
      | partials =>
        cases hp : r.reference.parent with
        | none => exact .unreferenced hf hp (run_crawl_unreferenced hr he hf rfl hp)
        | some p =>
          cases hd : w.write (.delete .partials r.id) with
          | some e => exact .deleteFails hf (run_crawl_deleteFails hr he hf rfl hp hd)
          | none => exact .deleted hf hp hd (run_crawl_deleted hr he hf rfl hp hd)
      | files => exact .existing (.inl rfl) hf (run_crawl_existing hr he hf (.inl rfl))
      | directories => exact .existing (.inr rfl) hf (run_crawl_existing hr he hf (.inr rfl))

end IpfsSearch
