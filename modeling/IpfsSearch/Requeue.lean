import IpfsSearch.SingleIndex

/-!
# Requeue — what a failed crawl leaves for its retry

A worker nacks with requeue a message whose `Crawl` returned an error other than
`ErrInvalidResource`, and the broker delivers it again; the retry starts from the store the failed
call left. The naive statement "a failed `Crawl` changed none of `r`'s documents" is false: a
referenced partial is deleted from Partials before `r` is indexed as new, and when indexing then
fails (`Stat`, an extractor, `Ls`, or a refused create), `Crawl` returns the error with `r.ID` in no
index. Every other write for `r.ID` is the last thing `Crawl` does, and `Crawl` returns its answer.

* `IndexEnd.untouched` — an indexing run that returns an error took no effect on its CID;
* `crawl_error_untouched` — a `Crawl` that returns an error changed no document of `r.ID`, or
  deleted a referenced partial it found and left `r.ID` in no index;
* `statTimeout_partial_deleted` — a `Stat` timeout after that delete;
* `crawl_invalid_from_backend` — the other side of the worker's choice: `Crawl` returns an error
  that `Is` `ErrInvalidResource`, and so has its message dropped, only when the lookup or a write it
  issued answered with that error; what `Stat` or `getProperties` finds invalid (an unsupported
  type, a directory over `MaxDirSize`, a file too large for an extractor) is indexed in Invalids.
-/

namespace IpfsSearch

open Prog Crawler

/-- No act of `acts` takes effect on the document of `id` in any index. -/
def Untouched (acts : List Act) (id : Cid) : Prop := ∀ a ∈ acts, ∀ i, ¬a.Touches i id

namespace Untouched

variable {acts : List Act} {id : Cid}

/-- Acts that take no effect on `id` leave each of its documents as it was. -/
theorem store (h : Untouched acts id) (s : Store) (i : IndexName) :
    Act.applyAll acts s i id = s i id :=
  Act.stores_frame (fun a ha => h a ha i) s _ (Act.applyAll_mem_stores acts s)

theorem append {acts' : List Act} (h : Untouched acts id) (h' : Untouched acts' id) :
    Untouched (acts ++ acts') id :=
  fun a ha => (List.mem_append.1 ha).elim (h a) (h' a)

theorem refused (wr : Write) (e : Err) : Untouched [.write wr (some e)] id := by
  intro a ha i ⟨_, hw, _⟩
  rw [List.mem_singleton.1 ha] at hw
  cases hw

theorem dirRun {d : DirRun} (h : ∀ q ∈ d.queued, q.1.resource.id ≠ id) : Untouched d.acts id :=
  fun _ ha _ ht =>
    let ⟨_, q, hq, hc⟩ := DirRun.touches ha ht
    h q hq hc.symm

end Untouched

variable {w : World} {t : Time} {c : Crawler} {r : AnnotatedResource}

/-- An indexing run that returns an error took no effect on its CID, when the acts of its directory
expansion take none: its create, if it issued one, was refused. -/
theorem IndexEnd.untouched {id : Cid} {pre acts : List Act} {e : Err} (hpre : Untouched pre id)
    (h : IndexEnd w id pre (.ok (some e)) acts) : Untouched acts id := by
  cases h with
  | error _ _ h => exact h ▸ hpre
  | panic h _ => cases h
  | create idx d hres h =>
    subst h
    rw [← Except.ok.inj hres]
    exact hpre.append (.refused _ e)

/-- Indexing a new resource that returns an error took no effect on its CID, when the directory it
may expand does not list itself. -/
theorem run_indexNew_error_untouched {S : Store} {e : Err}
    (hkids : ∀ q ∈ (w.crawlDir (w.ensureType r).1).queued, q.1.resource.id ≠ r.id)
    (h : (run w t (c.indexNew r) S).1 = .ok (some e)) :
    Untouched (run w t (c.indexNew r) S).2.2 r.id := by
  obtain ⟨pre, hpre, hend⟩ := run_indexNew_end (w := w) (t := t) (s := S) (c := c) r
  rw [h] at hend
  refine hend.untouched ?_
  rcases hpre with rfl | rfl
  · exact fun _ h => nomatch h
  · exact Untouched.dirRun hkids

/-- A `Crawl` that returns an error, run alone from any store, changed no document of `r.ID`, or it
found `r.ID` only in Partials as a referenced partial, deleted it there first, and then took no
effect on `r.ID`, leaving it in no index. This holds when the directory `Crawl` may expand does not
list itself. -/
theorem crawl_error_untouched {S S' : Store} {e : Err} {acts : List Act} (hr : Accepted r)
    (hkids : ∀ q ∈ (w.crawlDir (w.ensureType r).1).queued, q.1.resource.id ≠ r.id)
    (h : run w t (c.crawl r) S = (.ok (some e), S', acts)) :
    (Untouched acts r.id ∧ ∀ i, S' i r.id = S i r.id) ∨
      ((∃ d, S.find r.id = some (.partials, d)) ∧ (∃ p, r.reference.parent = some p) ∧
        (∃ rest, acts = .write (.delete .partials r.id) none :: rest ∧ Untouched rest r.id) ∧
        S'.Absent r.id) := by
  have hS' : S' = Act.applyAll acts S := by simpa [h] using run_store w t (c.crawl r) S
  cases run_crawl_path (w := w) (t := t) (c := c) (s := S) hr with
  | lookupError h' =>
    rw [h'] at h
    cases h
    exact .inl ⟨(fun _ h => nomatch h), fun _ => rfl⟩
  | invalid _ h' | unreferenced _ _ h' =>
    rw [h'] at h
    cases h
  | deleteFails _ h' =>
    rw [h'] at h
    cases h
    exact .inl ⟨Untouched.refused _ e, fun _ => rfl⟩
  | new _ h' =>
    have hu := run_indexNew_error_untouched (t := t) (S := S) (c := c) hkids (by rw [← h', h])
    rw [← h', h] at hu
    exact .inl ⟨hu, hS' ▸ hu.store S⟩
  | deleted hf hp _ h' =>
    rw [h'] at h
    simp only [Prod.mk.injEq] at h
    obtain ⟨h1, -, h3⟩ := h
    have hu := run_indexNew_error_untouched (t := t) (c := c) hkids h1
    refine .inr ⟨⟨_, hf⟩, ⟨_, hp⟩, ⟨_, h3.symm, hu⟩, fun i => ?_⟩
    rw [hS', ← h3]
    show Act.applyAll _ ((Write.delete .partials r.id).apply S) i r.id = none
    rw [hu.store, Store.absent_of_delete_partials hf i]
  | existing _ _ h' =>
    rw [h'] at h
    cases run_updateExisting_path (w := w) (t := t) (s := S) (c := c)
      (i := ⟨r, _, _, _⟩) with
    | appended _ _ h'' | touched _ _ h'' =>
      rw [h''] at h
      obtain ⟨-, rfl, rfl⟩ := run_write'_eq_ok_some h
      exact .inl ⟨Untouched.refused _ e, fun _ => rfl⟩
    | unchanged _ h'' =>
      rw [h''] at h
      cases h

/-- An indexing run that returns an invalid resource returns the bulk indexer's answer to the create
it issued: `index` indexes every invalid resource it finds itself. -/
theorem IndexEnd.invalid_issued {id : Cid} {pre acts : List Act} {e : Err}
    (h : IndexEnd w id pre (.ok (some e)) acts) (hinv : e.is .invalidResource = true) :
    ∃ wr, Act.write wr (some e) ∈ acts := by
  cases h with
  | error he hres _ =>
    cases hres
    rw [hinv] at he
    cases he
  | create idx d hres h =>
    subst h
    rw [Except.ok.inj hres]
    exact ⟨_, List.mem_append_right _ (List.mem_singleton_self _)⟩
  | panic h _ => cases h

/-- `QmX`, listed as `x` in directory `QmParent`, its type not known yet. -/
def listedUntyped : AnnotatedResource :=
  ⟨.ipfsProtocol, "QmX", .directorySource, ⟨some "QmParent", "x"⟩, ⟨.undefinedType, 0⟩⟩

/-- `Stat` runs out of time (`context.DeadlineExceeded`); every other request succeeds. -/
def statTimesOut : World := { allSucceed with stat := fun r => (r.stat, some .deadlineExceeded) }

/-- The referenced partial `QmX` is deleted from Partials, then `Stat` times out: `Crawl` returns a
retryable error after a delete for `QmX` that took effect, and `QmX` is in no index. -/
theorem statTimeout_partial_deleted :
    Accepted listedUntyped ∧ Err.deadlineExceeded.is .invalidResource = false ∧
      partialX .partials "QmX" = some .partialMarker ∧
      run statTimesOut 0 (bareCrawler.crawl listedUntyped) partialX =
        (.ok (some .deadlineExceeded), (Write.delete .partials "QmX").apply partialX,
          [.write (.delete .partials "QmX") none]) ∧
      ((Write.delete .partials "QmX").apply partialX).Absent "QmX" :=
  ⟨⟨by decide, rfl⟩, rfl, rfl, rfl, fun i => by cases i <;> rfl⟩

/-- In that run the delete, issued first, is the one write that took effect on `QmX`. -/
theorem statTimeout_only_delete :
    Accepted listedUntyped ∧
      (∀ q ∈ (statTimesOut.crawlDir (statTimesOut.ensureType listedUntyped).1).queued,
        q.1.resource.id ≠ listedUntyped.id) ∧
      run statTimesOut 0 (bareCrawler.crawl listedUntyped) partialX =
        (.ok (some .deadlineExceeded), (Write.delete .partials "QmX").apply partialX,
          [.write (.delete .partials "QmX") none]) ∧
      ((Untouched [.write (.delete .partials "QmX") none] listedUntyped.id ∧
          ∀ i, (Write.delete .partials "QmX").apply partialX i listedUntyped.id =
            partialX i listedUntyped.id) ∨
        ((∃ d, partialX.find listedUntyped.id = some (.partials, d)) ∧
          (∃ p, listedUntyped.reference.parent = some p) ∧
          (∃ rest, [.write (.delete .partials "QmX") none] =
              .write (.delete .partials listedUntyped.id) none :: rest ∧
            Untouched rest listedUntyped.id) ∧
          ((Write.delete .partials "QmX").apply partialX).Absent listedUntyped.id)) :=
  have hr : Accepted listedUntyped := ⟨by decide, rfl⟩
  have hkids : ∀ q ∈ (statTimesOut.crawlDir (statTimesOut.ensureType listedUntyped).1).queued,
      q.1.resource.id ≠ listedUntyped.id := fun _ h => nomatch h
  have h : run statTimesOut 0 (bareCrawler.crawl listedUntyped) partialX =
      (.ok (some .deadlineExceeded), (Write.delete .partials "QmX").apply partialX,
        [.write (.delete .partials "QmX") none]) := rfl
  ⟨hr, hkids, h, crawl_error_untouched hr hkids h⟩

/-- `index` indexes as invalid a resource whose properties come with an invalid-resource error:
its last act is the Invalids create, and it returns the bulk indexer's answer. -/
theorem run_index_found_invalid {r : AnnotatedResource} {s : Store} {err : Err}
    (hinv : err.is .invalidResource = true)
    (hp : ∃ idx d, (run w t (c.getProperties r) s).1 = .ok (idx, d, some err)) :
    (run w t (c.index r) s).1 = .ok (w.write (invalidWrite r err)) ∧
      ∃ pre, (run w t (c.index r) s).2.2 =
        pre ++ [.write (invalidWrite r err) (w.write (invalidWrite r err))] := by
  obtain ⟨idx, d, hp⟩ := hp
  rcases hx : run w t (c.getProperties r) s with ⟨x, s', pre⟩
  rw [hx] at hp
  subst hp
  simp only [Crawler.index, bind_def, run_bind, hx]
  simp [run, hinv, indexInvalid]

/-- Indexing a new resource indexes as invalid what `Stat`, or `getProperties` on the resource
`Stat` settles, finds invalid. -/
theorem run_indexNew_found_invalid {s : Store} {err : Err} (hinv : err.is .invalidResource = true)
    (hfound : (w.ensureType r).2 = some err ∨ ((w.ensureType r).2 = none ∧
      ∃ idx d, (run w t (c.getProperties (w.ensureType r).1) s).1 = .ok (idx, d, some err))) :
    (run w t (c.indexNew r) s).1 = .ok (w.write (invalidWrite r err)) ∧
      ∃ pre, (run w t (c.indexNew r) s).2.2 =
        pre ++ [.write (invalidWrite r err) (w.write (invalidWrite r err))] := by
  have hid : ∀ e, invalidWrite (w.ensureType r).1 e = invalidWrite r e := invalidWrite_ensureType r
  simp only [Crawler.indexNew, bind_def, run_bind, run_ensureType, List.nil_append]
  rcases hE : w.ensureType r with ⟨r', _ | e⟩ <;> rw [hE] at hfound hid <;> dsimp only at hid
  · obtain ⟨-, hp⟩ := hfound.resolve_left nofun
    simpa [hid] using run_index_found_invalid (w := w) (t := t) (c := c) (r := r') hinv hp
  · obtain rfl := Option.some.inj (hfound.resolve_right fun h => nomatch h.1)
    simp [run, hinv, indexInvalid, hid]

/-- `Crawl` run alone returns an error that `Is` `ErrInvalidResource`, on which the worker drops
the message, only as the answer of a collaborator: the lookup of `r` returned it, or the bulk
indexer refused a write of this crawl with it. An invalid resource the crawl finds itself is
indexed instead: when indexing `r` as new (the part of `Crawl` run for a CID in no index, and for a
referenced partial once deleted), `Stat`, or `getProperties` on the resource `Stat` settles, finds
an error that `Is` `ErrInvalidResource`, the run ends with the create of `r.ID`'s Invalids document
holding that error's text, and returns the bulk indexer's answer to it. -/
theorem crawl_invalid_from_backend (hr : Accepted r) :
    (∀ (S : Store) (e : Err), (run w t (c.crawl r) S).1 = .ok (some e) →
      e.is .invalidResource = true →
      w.getExistingItem r = some e ∨ ∃ wr, Act.write wr (some e) ∈ (run w t (c.crawl r) S).2.2) ∧
    ∀ (s : Store) (err : Err), err.is .invalidResource = true →
      ((w.ensureType r).2 = some err ∨ ((w.ensureType r).2 = none ∧
        ∃ idx d, (run w t (c.getProperties (w.ensureType r).1) s).1 = .ok (idx, d, some err))) →
      (run w t (c.indexNew r) s).1 = .ok (w.write (invalidWrite r err)) ∧
        ∃ pre, (run w t (c.indexNew r) s).2.2 =
          pre ++ [.write (invalidWrite r err) (w.write (invalidWrite r err))] := by
  refine ⟨fun S e h hinv => ?_, fun s err hinv hfound => run_indexNew_found_invalid hinv hfound⟩
  have hnew : ∀ S', (run w t (c.indexNew r) S').1 = .ok (some e) →
      ∃ wr, Act.write wr (some e) ∈ (run w t (c.indexNew r) S').2.2 := fun S' h' =>
    let ⟨_, _, hend⟩ := run_indexNew_end (w := w) (t := t) (s := S') (c := c) r
    (h' ▸ hend).invalid_issued hinv
  cases he : w.getExistingItem r with
  | some e' =>
    rw [run_crawl_lookupError hr he] at h
    cases h
    exact .inl rfl
  | none =>
    refine .inr ?_
    cases hf : S.find r.id with
    | none =>
      rw [run_crawl_new hr he (Store.find_eq_none_iff.1 hf)] at h ⊢
      exact hnew S h
    | some x =>
      obtain ⟨idx, d⟩ := x
      cases idx with
      | invalids =>
        rw [run_crawl_invalid hr he hf rfl] at h
        cases h
      | partials =>
        cases hp : r.reference.parent with
        | none =>
          rw [run_crawl_unreferenced hr he hf rfl hp] at h
          cases h
        | some p =>
          cases hd : w.write (.delete .partials r.id) with
          | some e' =>
            rw [run_crawl_deleteFails hr he hf rfl hp hd] at h ⊢
            cases h
            exact ⟨_, List.mem_singleton_self _⟩
          | none =>
            rw [run_crawl_deleted hr he hf rfl hp hd] at h ⊢
            obtain ⟨wr, hwr⟩ := hnew _ h
            exact ⟨wr, List.mem_cons_of_mem _ hwr⟩
      | files | directories =>
        rw [run_crawl_existing hr he hf (by simp)] at h ⊢
        cases run_updateExisting_path (w := w) (t := t) (s := S) (c := c) (i := ⟨r, _, _, _⟩) with
        | appended _ _ h' | touched _ _ h' =>
          rw [h'] at h ⊢
          simp only [run_write', Except.ok.injEq] at h ⊢
          exact ⟨_, by rw [h]; exact List.mem_singleton_self _⟩
        | unchanged _ h' =>
          rw [h'] at h
          cases h

/-- `Stat` finds every resource unsupported, and the bulk indexer refuses every write as an invalid
resource. -/
def unsupportedRefused : World :=
  { allSucceed with
    stat := fun r => (⟨.unsupportedType, r.stat.size⟩, none)
    write := fun _ => some .invalidResource }

/-- `QmX` turns out unsupported: it is indexed as invalid, and `Crawl` returns the bulk indexer's
refusal of that create. -/
theorem unsupportedRefused_invalid :
    Accepted listedUntyped ∧
      (run unsupportedRefused 0 (bareCrawler.crawl listedUntyped) Store.empty).1 =
        .ok (some .invalidResource) ∧
      (unsupportedRefused.getExistingItem listedUntyped = some .invalidResource ∨
        ∃ wr, Act.write wr (some .invalidResource) ∈
          (run unsupportedRefused 0 (bareCrawler.crawl listedUntyped) Store.empty).2.2) ∧
      (run unsupportedRefused 0 (bareCrawler.indexNew listedUntyped) Store.empty).1 =
        .ok (unsupportedRefused.write (invalidWrite listedUntyped errUnsupportedType)) ∧
      ∃ pre, (run unsupportedRefused 0 (bareCrawler.indexNew listedUntyped) Store.empty).2.2 =
        pre ++ [.write (invalidWrite listedUntyped errUnsupportedType)
          (unsupportedRefused.write (invalidWrite listedUntyped errUnsupportedType))] :=
  have hr : Accepted listedUntyped := ⟨by decide, rfl⟩
  have h : (run unsupportedRefused 0 (bareCrawler.crawl listedUntyped) Store.empty).1 =
      .ok (some .invalidResource) := rfl
  have hb := crawl_invalid_from_backend (w := unsupportedRefused) (t := 0) (c := bareCrawler) hr
  ⟨hr, h, hb.1 _ _ h rfl, hb.2 _ errUnsupportedType rfl (.inr ⟨rfl, _, _, rfl⟩)⟩

end IpfsSearch
