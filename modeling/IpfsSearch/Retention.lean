import IpfsSearch.Timestamps

/-!
# Retention — what the indexes keep across any interleaving of crawls

The crawler deletes only in Partials: `Index.Delete` is issued by `deletePartial` alone. Every
create goes through the bulk indexer as create-if-absent, and `Index.Update` is issued only by
`updateExisting`, on the Files or Directories item the lookup found. A crawl writes outside
Invalids only under the CID of its own message: a directory's entries are published to the queues,
and only the unsupported ones are indexed, as invalid, by `queueDirEntry`.

* `Store.Retains` — Files and Directories documents stay, changed only by partial updates, and
  Invalids documents stay as they are;
* `pool_retains` — between any two pools of a run, whatever the workers do and however their
  calls interleave, stale lookups included;
* `pool_typed` — every index keeps holding only its own kind of document;
* `pool_changes_own` — outside Invalids, a run changes a document only under the CID of a message
  one of its workers took.
-/

namespace IpfsSearch

/-- Partial updates applied in order. -/
def Doc.updates (d : Doc) (us : List Update) : Doc := us.foldl (fun d u => d.update u) d

theorem Doc.updates_append (d : Doc) (us vs : List Update) :
    (d.updates us).updates vs = d.updates (us ++ vs) := by
  simp [Doc.updates, List.foldl_append]

/-- From `s` to `s'`, every Files or Directories document stays in its index, changed only by
partial updates, and every Invalids document stays as it is. -/
def Store.Retains (s s' : Store) : Prop :=
  (∀ i, (i = .files ∨ i = .directories) → ∀ id d, s i id = some d →
    ∃ us, s' i id = some (d.updates us)) ∧
  ∀ id d, s .invalids id = some d → s' .invalids id = some d

namespace Store.Retains

theorem refl (s : Store) : s.Retains s := ⟨fun _ _ _ _ h => ⟨[], h⟩, fun _ _ h => h⟩

theorem trans {s₁ s₂ s₃ : Store} (h₁ : s₁.Retains s₂) (h₂ : s₂.Retains s₃) : s₁.Retains s₃ := by
  refine ⟨fun i hi id d hd => ?_, fun id d hd => h₂.2 id d (h₁.2 id d hd)⟩
  obtain ⟨us, h⟩ := h₁.1 i hi id d hd
  obtain ⟨vs, h'⟩ := h₂.1 i hi id _ h
  exact ⟨us ++ vs, by rw [h', Doc.updates_append]⟩

end Store.Retains

/-! ## One write -/

section Write

variable {s : Store} {i : IndexName} {id : Cid} {d : Doc}

/-- A create leaves a document already under its CID as it is. -/
theorem Write.create_apply_of_some (h : s i id = some d) (j : IndexName) (c : Cid) (doc : Doc) :
    (Write.create j c doc).apply s i id = some d := by
  by_cases hj : i = j ∧ id = c
  · obtain ⟨rfl, rfl⟩ := hj
    rw [Write.create_apply_self, h]
    rfl
  · exact (Write.apply_of_ne hj).trans h

theorem Store.retains_create (j : IndexName) (c : Cid) (doc : Doc) :
    s.Retains ((Write.create j c doc).apply s) :=
  ⟨fun _ _ _ _ hd => ⟨[], Write.create_apply_of_some hd _ _ _⟩,
    fun _ _ hd => Write.create_apply_of_some hd _ _ _⟩

/-- A write a crawl can issue keeps every Files, Directories and Invalids document. -/
theorem CrawlWrite.retains {c : Crawler} {r : AnnotatedResource} {ctx : Seen} {wr : Write}
    (hw : CrawlWrite c r ctx wr) : s.Retains (wr.apply s) := by
  refine ⟨fun i hi id d hd => ?_, fun id d hd => ?_⟩
  · rcases hw.apply_cases hi hd with h | ⟨_, u, -, -, -, -, -, h⟩
    exacts [⟨[], h⟩, ⟨[u], h⟩]
  · rcases hw with hw | rfl | ⟨it, u, -, -, hidx, rfl, -⟩
    · rcases wr with ⟨j, c, doc⟩ | _ | _
      exacts [Write.create_apply_of_some hd j c doc, hw.elim, hw.elim]
    · exact (Write.apply_of_ne (by simp [Write.idx])).trans hd
    · refine (Write.apply_of_ne fun h => ?_).trans hd
      rcases hidx with h' | h' <;> simp [Write.idx, h'] at h

/-- The Invalids documents of a directory expansion are created if absent. -/
theorem Store.retains_dirRun (dr : DirRun) : s.Retains (Act.applyAll dr.acts s) :=
  Act.applyAll_children (Q := s.Retains) (DirRun.acts_isChild dr)
    (fun _ _ _ h => h.trans (Store.retains_create _ _ _)) (.refl s)

end Write

/-! ## Across the workers -/

section Workers

variable {c : Crawler} {stale : Bool} {S : Store} {t : Time} {P P' : Pool}

theorem PoolStep.retains (hg : P.Guarded c) (h : PoolStep c stale P P') :
    P.store.Retains P'.store := by
  rcases h.store_cases hg with he | ⟨_, _, wr, hw, he⟩ | ⟨dr, he⟩ <;> rw [he]
  exacts [.refl _, hw.retains, Store.retains_dirRun dr]

/-- No run of the pool deletes a file, directory or invalid document, or changes an invalid one; a
file or directory document changes only by partial updates. This holds between any two pools of a
run, whatever the collaborators answer and however the workers' calls interleave. -/
theorem pool_retains (h : PoolReachable c stale S t P)
    (h' : Relation.ReflTransGen (PoolStep c stale) P P') : P.store.Retains P'.store := by
  induction h' with
  | refl => exact .refl _
  | tail hr hs ih => exact ih.trans (hs.retains (Pool.guarded_of_reachable (h.trans hr)))

/-- A worker crawls `QmX` as found in `QmParent` and appends that reference to its file document. -/
theorem listedX_append_run : ∃ P, PoolReachable bareCrawler true filedX 0 P ∧
    P.issued = [.update .files "QmX" { references := [⟨"QmA", "a"⟩, ⟨"QmParent", "x"⟩] }] := by
  refine ⟨?_, ?_, ?_⟩
  rotate_left
  · refine .head (PoolStep.deliver _ listedX) ?_
    refine .head (PoolStep.lookup (n := 0) rfl rfl (.inl rfl)) ?_
    refine .head (PoolStep.writeAccepted (n := 0) rfl rfl) ?_
    exact .refl
  · rfl

/-- In that run the file document stays, changed by the update. -/
theorem listedX_append_retains :
    ∃ P, PoolReachable bareCrawler true filedX 0 (Pool.init filedX 0) ∧
      Relation.ReflTransGen (PoolStep bareCrawler true) (Pool.init filedX 0) P ∧
      P.issued = [.update .files "QmX" { references := [⟨"QmA", "a"⟩, ⟨"QmParent", "x"⟩] }] ∧
      (Pool.init filedX 0).store.Retains P.store :=
  let ⟨P, hP, hissued⟩ := listedX_append_run
  ⟨P, .refl, hP, hissued, pool_retains .refl hP⟩

/-- The invalid documents of a directory expansion belong in Invalids. -/
theorem Store.Typed.applyAll_dirRun {s : Store} (hs : s.Typed) (dr : DirRun) :
    (Act.applyAll dr.acts s).Typed :=
  Act.applyAll_children (Q := Store.Typed) (DirRun.acts_isChild dr) (fun _ _ _ h => h.apply rfl) hs

theorem PoolStep.typed (hg : P.Guarded c) (h : PoolStep c stale P P') (hs : P.store.Typed) :
    P'.store.Typed := by
  rcases h.store_cases hg with he | ⟨_, _, wr, hw, he⟩ | ⟨dr, he⟩ <;> rw [he]
  exacts [hs, hs.apply hw.kinded, hs.applyAll_dirRun dr]

/-- Across any interleaving of crawls, from a store whose indexes each hold their own kind of
document, every index still holds only its own kind: files in Files, directories in Directories,
partials in Partials, invalid documents in Invalids. -/
theorem pool_typed (hS : S.Typed) (h : PoolReachable c stale S t P) : P.store.Typed :=
  PoolReachable.induction hS (fun _ _ hr hs hst => hst.typed (Pool.guarded_of_reachable hr) hs) h

/-- `filedX` holds a file in Files, and stays so through the run appending a reference. -/
theorem listedX_append_typed : filedX.Typed ∧ ∃ P, PoolReachable bareCrawler true filedX 0 P ∧
    P.issued = [.update .files "QmX" { references := [⟨"QmA", "a"⟩, ⟨"QmParent", "x"⟩] }] ∧
    P.store.Typed := by
  have hS : filedX.Typed := by
    intro i id d hd
    simp only [filedX, Write.apply, Write.applyDoc, Write.idx, Write.id, Store.empty] at hd
    split at hd <;> cases hd
    simp_all [Doc.index]
  obtain ⟨P, hP, hissued⟩ := listedX_append_run
  exact ⟨hS, P, hP, hissued, pool_typed hS hP⟩

/-- A worker that moved on still handles the same message. -/
theorem Pool.res_mem_setWorker {n : Nat} {wk wk' v : Worker} (hn : P.workers[n]? = some wk)
    (hres : wk'.res = wk.res) (hv : v ∈ P.workers) :
    ∃ v' ∈ (P.setWorker n wk').workers, v'.res = v.res := by
  obtain ⟨m, hm⟩ := List.getElem?_of_mem hv
  by_cases hmn : n = m
  · subst hmn
    obtain rfl := Option.some.inj (hm.symm.trans hn)
    exact ⟨wk', List.mem_set _ _ (List.getElem?_eq_some_iff.1 hn).1 _, hres⟩
  · exact ⟨v, List.getElem?_mem (show (P.workers.set n wk')[m]? = some v by simpa [hmn] using hm),
      rfl⟩

/-- No step forgets a message: each one a worker took is still some worker's. -/
theorem PoolStep.res_mem (h : PoolStep c stale P P') {v : Worker} (hv : v ∈ P.workers) :
    ∃ v' ∈ P'.workers, v'.res = v.res := by
  cases h with
  | deliver => exact ⟨v, List.mem_append_left _ hv, rfl⟩
  | tick => exact ⟨v, hv, rfl⟩
  | lookupFails _ hn | lookup hn | now hn | stat _ hn | extract _ hn | crawlDir _ hn
  | writeAccepted hn | writeRejected _ hn => exact Pool.res_mem_setWorker hn rfl hv

/-- What one step changes outside Invalids is under the CID of a stepping worker's message. -/
theorem PoolStep.changes_own (hg : P.Guarded c) (h : PoolStep c stale P P') {i : IndexName}
    (hi : i ≠ .invalids) {id : Cid} (hne : P'.store i id ≠ P.store i id) :
    ∃ wk ∈ P.workers, wk.res.id = id := by
  rcases h.store_cases hg with he | ⟨wk, hwk, wr, hw, he⟩ | ⟨dr, he⟩ <;> rw [he] at hne
  · exact absurd rfl hne
  · refine ⟨wk, hwk, ?_⟩
    by_contra hid
    refine hne (Write.apply_of_id_ne fun h => hid ?_)
    rcases hw with hw | rfl | ⟨_, _, _, _, _, rfl, _⟩
    · rcases wr with ⟨j, c, doc⟩ | _ | _
      exacts [(hw.1.symm.trans h.symm), hw.elim, hw.elim]
    all_goals exact h.symm
  · exact absurd (Act.applyAll_of_isChild (DirRun.acts_isChild dr) _ hi id) hne

/-- Outside Invalids, no run of the pool changes a document but under the CID of a message one of
its workers took: a crawl indexes, updates and deletes only its own resource, and a directory's
entries reach the indexes only as invalid. -/
theorem pool_changes_own (h : PoolReachable c stale S t P) {i : IndexName} (hi : i ≠ .invalids)
    {id : Cid} (hne : P.store i id ≠ S i id) : ∃ wk ∈ P.workers, wk.res.id = id := by
  induction h with
  | refl => exact absurd rfl hne
  | @tail P₁ P₂ hr hs ih =>
    have hmsg : (∃ wk ∈ P₁.workers, wk.res.id = id) → ∃ wk ∈ P₂.workers, wk.res.id = id :=
      fun ⟨wk, hwk, hid⟩ =>
        let ⟨v, hv, hres⟩ := hs.res_mem hwk
        ⟨v, hv, hres ▸ hid⟩
    by_cases h₁ : P₁.store i id = S i id
    · exact hmsg (hs.changes_own (Pool.guarded_of_reachable hr) hi (h₁ ▸ hne))
    · exact hmsg (ih h₁)

/-- A worker deletes the referenced partial `QmX`, a change under its own message's CID. -/
theorem listedX_partial_deleted :
    ∃ P, PoolReachable bareCrawler true partialX 0 P ∧ IndexName.partials ≠ .invalids ∧
      P.store .partials "QmX" ≠ partialX .partials "QmX" ∧ ∃ wk ∈ P.workers, wk.res.id = "QmX" := by
  obtain ⟨P, hP, hne⟩ : ∃ P, PoolReachable bareCrawler true partialX 0 P ∧
      P.store .partials "QmX" ≠ partialX .partials "QmX" := by
    refine ⟨?_, ?_, ?_⟩
    rotate_left
    · refine .head (PoolStep.deliver _ listedX) ?_
      refine .head (PoolStep.lookup (n := 0) rfl rfl (.inl rfl)) ?_
      refine .head (PoolStep.writeAccepted (n := 0) rfl rfl) ?_
      exact .refl
    · decide
  exact ⟨P, hP, by decide, hne, pool_changes_own hP (by decide) hne⟩

end Workers

end IpfsSearch
