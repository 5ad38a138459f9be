import IpfsSearch.References
import IpfsSearch.Redelivery

/-!
# Timestamps — first and last seen

`makeDocument` stamps a new file or directory document first and last seen at the clock reading,
truncated to the second. Afterwards only `updateExisting` touches the stamps, and only for a sniffed
resource: it moves `LastSeen` to the truncated clock reading when the one it read is more than
`MinUpdateAge` old.

* `CrawlWrite.stamped` — no write a crawl can issue breaks the stamps of any document;
* `Pool.TimeInv` — across workers, what a worker read stays in the store, first seen no later than
  the worker's clock reading, so a sniffed update never moves last seen before first seen;
* `pool_timestamps` — on every reachable pool from an empty store, and for every step from it.
-/

namespace IpfsSearch

open Prog Crawler

/-! ## What a write does to a file or directory document -/

section Write

variable {c : Crawler} {r : AnnotatedResource} {ctx : Seen} {wr : Write} {s : Store}
  {i : IndexName} {id : Cid} {d : Doc}

/-- A write a crawl can issue leaves a Files or Directories document as it is, or applies to it an
update the crawl's lookup read it for. -/
theorem CrawlWrite.apply_cases (hw : CrawlWrite c r ctx wr) (hi : i = .files ∨ i = .directories)
    (hd : s i id = some d) :
    wr.apply s i id = some d ∨ ∃ it u, ctx.read = some it ∧ it.resource = r ∧ it.index = i ∧
      r.id = id ∧ UpdateWrite c r it ctx u ∧ wr.apply s i id = some (d.update u) := by
  by_cases hne : i = wr.idx ∧ id = wr.id
  · obtain ⟨rfl, rfl⟩ := hne
    rcases hw with hw | rfl | ⟨it, u, hread, hres, -, rfl, hu⟩
    · rcases wr with ⟨idx, id', d'⟩ | _ | _
      · exact .inl (by simp [Write.apply, Write.applyDoc, Write.idx, Write.id] at hd ⊢; simp [hd])
      all_goals exact hw.elim
    · rcases hi with hi | hi <;> cases hi
    · simp only [Write.idx, Write.id] at hd
      exact .inr ⟨it, u, hread, hres, rfl, rfl, hu, by
        simp [Write.apply, Write.applyDoc, Write.idx, Write.id, hd]⟩
  · exact .inl (by rw [Write.apply_of_ne hne, hd])

/-- An update a crawl can issue moves `LastSeen` only for a sniffed resource, to the truncated
clock reading, more than `MinUpdateAge` past the `LastSeen` it read. -/
theorem UpdateWrite.lastSeen_cases {it : ExistingItem} {u : Update} (hu : UpdateWrite c r it ctx u) :
    u.lastSeen = none ∨ (r.source = .snifferSource ∨ r.source = .unknownSource) ∧
      u.lastSeen = some (Time.truncate ctx.clockRead) ∧
      ∀ L, it.lastSeen = some L → c.config.minUpdateAge < Time.sub (Time.truncate ctx.clockRead) L := by
  rcases hu with ⟨-, -, rfl⟩ | ⟨hsrc, rfl, hL⟩
  · exact .inl rfl
  · exact .inr ⟨hsrc, rfl, hL⟩

end Write

/-! ## Timestamps of the documents and of what the workers read -/

/-- First and last seen are whole seconds, in order, and first seen is no later than `t`. -/
def Document.Stamped (doc : Document) (t : Time) : Prop :=
  WholeSecond doc.firstSeen ∧ WholeSecond doc.lastSeen ∧ doc.firstSeen ≤ doc.lastSeen ∧
    doc.firstSeen ≤ Time.truncate t

/-- Every document of `s` is stamped no later than `t`. -/
def Store.Stamped (s : Store) (t : Time) : Prop :=
  ∀ i id d doc, s i id = some d → d.document? = some doc → doc.Stamped t

/-- A Files or Directories item `ctx` read is still in `s`, first seen no later than `ctx`'s clock
reading. -/
def Seen.Current (ctx : Seen) (s : Store) : Prop :=
  ∀ it, ctx.read = some it → (it.index = .files ∨ it.index = .directories) →
    (s it.index it.resource.id).isSome ∧ ∀ d doc, s it.index it.resource.id = some d →
      d.document? = some doc → doc.firstSeen ≤ Time.truncate ctx.clockRead

/-- Every Files or Directories document of `s` is still in `s'`, first seen at the same time. -/
def Store.Persists (s s' : Store) : Prop :=
  ∀ i, (i = .files ∨ i = .directories) → ∀ id d, s i id = some d →
    ∃ d', s' i id = some d' ∧ d'.document?.map Document.firstSeen = d.document?.map Document.firstSeen

theorem Document.Stamped.mono {doc : Document} {t t' : Time} (h : doc.Stamped t) (ht : t ≤ t') :
    doc.Stamped t' :=
  ⟨h.1, h.2.1, h.2.2.1, h.2.2.2.trans (Time.truncate_mono ht)⟩

theorem Store.Stamped.mono {s : Store} {t t' : Time} (h : s.Stamped t) (ht : t ≤ t') :
    s.Stamped t' := fun i id d doc hd hdoc => (h i id d doc hd hdoc).mono ht

theorem Seen.Current.persist {ctx : Seen} {s s' : Store} (h : ctx.Current s) (hp : s.Persists s') :
    ctx.Current s' := by
  intro it hit hi
  obtain ⟨hsome, hfirst⟩ := h it hit hi
  obtain ⟨d, hd⟩ := Option.isSome_iff_exists.1 hsome
  obtain ⟨d', hd', hfs⟩ := hp _ hi _ d hd
  refine ⟨by simp [hd'], fun d'' doc hd'' hdoc => ?_⟩
  obtain rfl := Option.some.inj (hd''.symm.trans hd')
  rw [hdoc, Option.map_some'] at hfs
  obtain ⟨doc₀, hdoc₀, hfs⟩ := Option.map_eq_some'.1 hfs.symm
  exact hfs ▸ hfirst d doc₀ hd hdoc₀

/-- A write a crawl can issue keeps every document stamped: a new document is made at the crawl's
clock reading, and a sniffed crawl moves `LastSeen` to a reading no earlier than the first seen of
the item it read. -/
theorem CrawlWrite.stamped {c : Crawler} {r : AnnotatedResource} {ctx : Seen} {wr : Write}
    {s : Store} {t : Time} (hw : CrawlWrite c r ctx wr) (hs : s.Stamped t) (hcur : ctx.Current s)
    (hclock : ctx.clockRead ≤ t) : (wr.apply s).Stamped t := by
  intro i id d doc hd hdoc
  rcases Write.apply_eq_some hd with hd | ⟨rfl, -⟩ | ⟨u, d₀, rfl, hd₀, rfl⟩
  · exact hs i id d doc hd hdoc
  · rcases hw with hw | h | ⟨_, _, _, _, _, h, _⟩
    · obtain ⟨h1, h2, -⟩ := hw.2.2 doc hdoc
      rw [Document.Stamped, h1, h2]
      exact ⟨Time.truncate_wholeSecond _, Time.truncate_wholeSecond _, le_rfl,
        Time.truncate_mono hclock⟩
    all_goals cases h
  · rcases hw with hw | h | ⟨it, u', hread, rfl, hidx, h, hu⟩
    · exact hw.elim
    · cases h
    cases h
    rw [Doc.document?_update] at hdoc
    obtain ⟨doc₀, hdoc₀, rfl⟩ := Option.map_eq_some'.1 hdoc
    have h₀ := hs _ _ _ _ hd₀ hdoc₀
    rcases hu.lastSeen_cases with hL | ⟨-, hL, -⟩
    · simpa [Document.Stamped, Document.applyUpdate, hL] using h₀
    · have hfirst := (hcur it hread hidx).2 d₀ doc₀ hd₀ hdoc₀
      simp only [Document.Stamped, Document.applyUpdate, hL, Option.getD_some]
      exact ⟨h₀.1, Time.truncate_wholeSecond _, hfirst, h₀.2.2.2⟩

/-- The Invalids documents of a directory expansion carry no timestamps. -/
theorem Store.Stamped.applyAll_dirRun {s : Store} {t : Time} (hs : s.Stamped t) (d : DirRun) :
    (Act.applyAll d.acts s).Stamped t := by
  refine Act.applyAll_children (Q := fun s => s.Stamped t) (DirRun.acts_isChild d)
    (fun s r e hs i id d doc hd hdoc => ?_) hs
  rcases Write.apply_eq_some hd with hd | ⟨h, -⟩ | ⟨_, _, h, -⟩
  · exact hs i id d doc hd hdoc
  all_goals cases h
  cases hdoc

/-! ## Across the workers -/

section Workers

variable {c : Crawler} {stale : Bool} {P P' : Pool}

/-- What one step does to a Files or Directories document: it stays as it is, or a worker applies
to it an update its lookup read it for. -/
theorem PoolStep.apply_cases (hg : P.Guarded c) (h : PoolStep c stale P P') {i : IndexName}
    {id : Cid} {d : Doc} (hi : i = .files ∨ i = .directories) (hd : P.store i id = some d) :
    P'.store i id = some d ∨ ∃ wk ∈ P.workers, ∃ it u, wk.seen.read = some it ∧
      it.resource = wk.res ∧ it.index = i ∧ wk.res.id = id ∧ UpdateWrite c wk.res it wk.seen u ∧
      P'.store i id = some (d.update u) := by
  rcases h.store_cases hg with he | ⟨wk, hwk, wr, hw, he⟩ | ⟨dr, he⟩ <;> rw [he]
  · exact .inl hd
  · exact (hw.apply_cases hi hd).imp_right fun ⟨it, u, h⟩ => ⟨wk, hwk, it, u, h⟩
  · have hi' : i ≠ .invalids := by rcases hi with rfl | rfl <;> decide
    exact .inl (by rw [Act.applyAll_of_isChild (DirRun.acts_isChild dr) _ hi', hd])

theorem PoolStep.persists (hg : P.Guarded c) (h : PoolStep c stale P P') :
    P.store.Persists P'.store := by
  intro i hi id d hd
  rcases h.apply_cases hg hi hd with h | ⟨-, -, -, u, -, -, -, -, -, h⟩
  · exact ⟨d, h, rfl⟩
  · refine ⟨_, h, ?_⟩
    rw [Doc.document?_update, Option.map_map]
    rfl

/-- The timestamps invariant: every document is stamped no later than the clock; every worker read
the clock no later than it, and a Files or Directories item it read is still there, first seen no
later than its reading; every Files or Directories document an earlier store held is still there. -/
def Pool.TimeInv (P : Pool) : Prop :=
  P.store.Stamped P.clock ∧
    (∀ s ∈ P.past, ∀ i id, (i = .files ∨ i = .directories) → (s i id).isSome →
      (P.store i id).isSome) ∧
    ∀ wk ∈ P.workers, wk.seen.clockRead ≤ P.clock ∧ wk.seen.Current P.store

theorem Pool.TimeInv.init (t : Time) : (Pool.init Store.empty t).TimeInv :=
  ⟨(fun _ _ _ _ h => nomatch h), (fun _ h => nomatch h), fun _ h => nomatch h⟩

theorem Pool.TimeInv.step (hg : P.Guarded c) (hI : P.TimeInv) (h : PoolStep c stale P P') :
    P'.TimeInv := by
  obtain ⟨hst, hpast, hwk⟩ := hI
  have hclock := h.clock_le
  have hpers := h.persists hg
  refine ⟨?_, fun s hs i id hi hsome => ?_, fun v hv => ?_⟩
  · rcases h.store_cases hg with he | ⟨wk, hwk', wr, hw, he⟩ | ⟨dr, he⟩ <;> rw [he]
    · exact hst.mono hclock
    · exact (hw.stamped hst (hwk wk hwk').2 (hwk wk hwk').1).mono hclock
    · exact (hst.applyAll_dirRun dr).mono hclock
  · have hnow : (P.store i id).isSome := by
      rcases h.past_cases with he | he <;> rw [he] at hs
      · exact hpast s hs i id hi hsome
      · rcases List.mem_cons.1 hs with rfl | hs
        · exact hsome
        · exact hpast s hs i id hi hsome
    obtain ⟨d, hd⟩ := Option.isSome_iff_exists.1 hnow
    obtain ⟨d', hd', -⟩ := hpers i hi id d hd
    simp [hd']
  rcases h.worker_cases hv with hv | hs | ⟨wk, hwk', -, hs | hs | hs | ⟨s, r, hs', hs⟩⟩
  · exact ⟨(hwk v hv).1.trans hclock, (hwk v hv).2.persist hpers⟩
  · rw [hs]
    exact ⟨Nat.zero_le _, fun _ h => nomatch h⟩
  · rw [hs]
    exact ⟨(hwk wk hwk').1.trans hclock, (hwk wk hwk').2.persist hpers⟩
  · rw [hs]
    exact ⟨hclock, fun _ h => nomatch h⟩
  · rw [hs]
    refine ⟨hclock, Seen.Current.persist (fun it hit hi => ?_) hpers⟩
    obtain ⟨hsome, hfirst⟩ := (hwk wk hwk').2 it hit hi
    exact ⟨hsome, fun d doc hd hdoc =>
      (hfirst d doc hd hdoc).trans (Time.truncate_mono (hwk wk hwk').1)⟩
  · rw [hs]
    refine ⟨hclock, Seen.Current.persist (fun it hit hi => ?_) hpers⟩
    obtain ⟨d₀, hf, -⟩ := getExistingItem_eq_some hit
    have hd₀ := Store.find_some hf
    rw [← getExistingItem_resource hit] at hd₀
    refine ⟨?_, fun d doc hd hdoc => (hst _ _ _ _ hd hdoc).2.2.2⟩
    rcases hs' with rfl | ⟨-, hs'⟩
    · simp [hd₀]
    · exact hpast s hs' _ _ hi (by simp [hd₀])

/-- Workers running at once from an empty store, under a clock that never goes back, keep every
document's timestamps in order. First and last seen are whole seconds, last no earlier than first;
no step removes a Files or Directories document or changes its first seen; and a step changes its
last seen only through a sniffed crawl's update, to a time more than `MinUpdateAge` past the last
seen that crawl read. -/
theorem pool_timestamps {t₀ : Time} {P : Pool} (h : PoolReachable c stale Store.empty t₀ P) :
    (∀ i id d doc, P.store i id = some d → d.document? = some doc →
      WholeSecond doc.firstSeen ∧ WholeSecond doc.lastSeen ∧ doc.firstSeen ≤ doc.lastSeen) ∧
    ∀ P', PoolStep c stale P P' → ∀ i id d doc, (i = .files ∨ i = .directories) →
      P.store i id = some d → d.document? = some doc →
      ∃ d' doc', P'.store i id = some d' ∧ d'.document? = some doc' ∧
        doc'.firstSeen = doc.firstSeen ∧
        (doc'.lastSeen ≠ doc.lastSeen → ∃ wk ∈ P.workers,
          (wk.res.source = .snifferSource ∨ wk.res.source = .unknownSource) ∧
          ∃ it, wk.seen.read = some it ∧ it.index = i ∧ it.resource.id = id ∧
            ∀ L, it.lastSeen = some L → c.config.minUpdateAge < Time.sub doc'.lastSeen L) := by
  have hI : P.TimeInv := PoolReachable.induction (Pool.TimeInv.init t₀)
    (fun _ _ hr hI hs => hI.step (Pool.guarded_of_reachable hr) hs) h
  refine ⟨fun i id d doc hd hdoc =>
    let ⟨h1, h2, h3, _⟩ := hI.1 i id d doc hd hdoc; ⟨h1, h2, h3⟩, fun P' hs i id d doc hi hd hdoc => ?_⟩
  rcases hs.apply_cases (Pool.guarded_of_reachable h) hi hd with
    h' | ⟨wk, hwk, it, u, hread, hres, hidx, hid, hu, h'⟩
  · exact ⟨d, doc, h', hdoc, rfl, fun hne => absurd rfl hne⟩
  refine ⟨_, doc.applyUpdate u, h', by rw [Doc.document?_update, hdoc]; rfl, rfl, fun hne => ?_⟩
  rcases hu.lastSeen_cases with hL | ⟨hsrc, hL, hmin⟩
  · simp [Document.applyUpdate, hL] at hne
  · refine ⟨wk, hwk, hsrc, it, hread, hidx, by rw [hres, hid], fun L hL' => ?_⟩
    simpa [Document.applyUpdate, hL] using hmin L hL'

end Workers

/-- A file sniffed at 1.5 s and sniffed again two hours later: its last seen moves on. -/
theorem sniffedFile_stamped :
    ∃ P, PoolReachable hourlyCrawler false Store.empty 0 P ∧
      P.store .files "QmFile" = some (.file ⟨⟨second, 7200 * second, [], 42⟩, []⟩) ∧
      ∀ i id d doc, P.store i id = some d → d.document? = some doc →
        WholeSecond doc.firstSeen ∧ WholeSecond doc.lastSeen ∧ doc.firstSeen ≤ doc.lastSeen := by
  obtain ⟨P, hP, hfile⟩ : ∃ P, PoolReachable hourlyCrawler false Store.empty 0 P ∧
      P.store .files "QmFile" = some (.file ⟨⟨second, 7200 * second, [], 42⟩, []⟩) := by
    refine ⟨?_, ?_, ?_⟩
    rotate_left
    · refine .head (PoolStep.tick _ (t := 3 * second / 2) (by decide)) ?_
      refine .head (PoolStep.deliver _ sniffedFile) ?_
      refine .head (PoolStep.lookup (n := 0) rfl rfl (.inl rfl)) ?_
      refine .head (PoolStep.stat (n := 0) (⟨.fileType, 42⟩, none) rfl rfl) ?_
      refine .head (PoolStep.now (n := 0) rfl rfl) ?_
      refine .head (PoolStep.writeAccepted (n := 0) rfl rfl) ?_
      refine .head (PoolStep.tick _ (t := 7200 * second + second / 2) (by decide)) ?_
      refine .head (PoolStep.deliver _ sniffedFile) ?_
      refine .head (PoolStep.lookup (n := 1) rfl rfl (.inl rfl)) ?_
      refine .head (PoolStep.now (n := 1) rfl rfl) ?_
      refine .head (PoolStep.writeAccepted (n := 1) rfl rfl) ?_
      exact .refl
    · rfl
  exact ⟨P, hP, hfile, (pool_timestamps hP).1⟩

end IpfsSearch
