import IpfsSearch.Indexing

/-!
# Workers — crawls running at once against one backend

The crawler's workers take messages off the queues and run `Crawl` on each. They share the
backend and nothing else: no lock, no versioned write. A `Pool` is the backend, the wall clock and
the workers, each with what is left of its crawl; `PoolStep` lets one worker make one call, answered
as any collaborator may answer it. A lookup reads the store as it is when the lookup runs or, where
`stale` reads are allowed, as it was at any earlier point.

* `PoolStep`, `PoolReachable` — the interleaving semantics, from a store and a clock reading;
* `Pool.Guarded` — every worker runs what is left of a crawl of its message, so every write it can
  still issue is a `CrawlWrite` from what it has seen (`Pool.guarded_of_reachable`);
* `PoolStep.store_cases` — what one step does to the backend: nothing, one such write, or the
  Invalids documents of a directory expansion.
-/

namespace IpfsSearch

/-- A worker handling one message: the message, what is left of its crawl, and what the crawl has
observed. -/
structure Worker where
  res : AnnotatedResource
  prog : Prog (Option Err)
  seen : Seen

/-- A worker that has just taken message `r`. -/
def Worker.start (c : Crawler) (r : AnnotatedResource) : Worker := ⟨r, c.crawl r, ⟨none, 0⟩⟩

/-- The backend, the wall clock and the workers. `past` holds every earlier store and `issued`
every write issued, latest first; neither is read by a crawl except through a stale lookup. -/
structure Pool where
  store : Store
  clock : Time
  workers : List Worker
  past : List Store
  issued : List Write

namespace Pool

/-- The backend holding `S`, the clock reading `t`, and no worker yet. -/
def init (S : Store) (t : Time) : Pool := ⟨S, t, [], [], []⟩

/-- Worker `n` moves on to `wk`. -/
def setWorker (P : Pool) (n : Nat) (wk : Worker) : Pool := { P with workers := P.workers.set n wk }

/-- The backend now holds `s`. -/
def commit (P : Pool) (s : Store) : Pool := { P with store := s, past := P.store :: P.past }

/-- A write reached the bulk indexer. -/
def issue (P : Pool) (wr : Write) : Pool := { P with issued := wr :: P.issued }

/-- The stores a lookup may read. -/
def Readable (stale : Bool) (P : Pool) (s : Store) : Prop := s = P.store ∨ stale = true ∧ s ∈ P.past

end Pool

/-- One step of the pool: a message is delivered, the clock moves on, or worker `n` makes the call
its crawl is at and gets an answer. A lookup records the clock reading it ran at. -/
inductive PoolStep (c : Crawler) (stale : Bool) : Pool → Pool → Prop
  | deliver (P : Pool) (r : AnnotatedResource) :
      PoolStep c stale P { P with workers := P.workers ++ [Worker.start c r] }
  | tick (P : Pool) {t : Time} : P.clock ≤ t → PoolStep c stale P { P with clock := t }
  | lookupFails {P : Pool} {n : Nat} {wk : Worker} {r k} (e : Err) : P.workers[n]? = some wk →
      wk.prog = .getExistingItem r k →
      PoolStep c stale P (P.setWorker n { wk with prog := k (.error e), seen := ⟨none, P.clock⟩ })
  | lookup {P : Pool} {n : Nat} {wk : Worker} {r k} {s : Store} : P.workers[n]? = some wk →
      wk.prog = .getExistingItem r k → P.Readable stale s →
      PoolStep c stale P (P.setWorker n
        { wk with prog := k (.ok (getExistingItem s r)), seen := ⟨getExistingItem s r, P.clock⟩ })
  | now {P : Pool} {n : Nat} {wk : Worker} {k} : P.workers[n]? = some wk → wk.prog = .now k →
      PoolStep c stale P (P.setWorker n
        { wk with prog := k P.clock, seen := { wk.seen with clockRead := P.clock } })
  | stat {P : Pool} {n : Nat} {wk : Worker} {r k} (x : Stat × Option Err) :
      P.workers[n]? = some wk → wk.prog = .stat r k →
      PoolStep c stale P (P.setWorker n { wk with prog := k x })
  | extract {P : Pool} {n : Nat} {wk : Worker} {e r f k} (x : Metadata × Option Err) :
      P.workers[n]? = some wk → wk.prog = .extract e r f k →
      PoolStep c stale P (P.setWorker n { wk with prog := k x })
  | crawlDir {P : Pool} {n : Nat} {wk : Worker} {r k} (d : DirRun) : P.workers[n]? = some wk →
      wk.prog = .crawlDir r k →
      PoolStep c stale P ((P.commit (Act.applyAll d.acts P.store)).setWorker n { wk with prog := k d })
  | writeAccepted {P : Pool} {n : Nat} {wk : Worker} {wr k} : P.workers[n]? = some wk →
      wk.prog = .write wr k →
      PoolStep c stale P (((P.commit (wr.apply P.store)).issue wr).setWorker n
        { wk with prog := k none })
  | writeRejected {P : Pool} {n : Nat} {wk : Worker} {wr k} (e : Err) : P.workers[n]? = some wk →
      wk.prog = .write wr k →
      PoolStep c stale P ((P.issue wr).setWorker n { wk with prog := k (some e) })

/-- The pools a run from the store `S` at clock reading `t` can reach. -/
def PoolReachable (c : Crawler) (stale : Bool) (S : Store) (t : Time) (P : Pool) : Prop :=
  Relation.ReflTransGen (PoolStep c stale) (Pool.init S t) P

/-- An invariant of every step holds on every reachable pool. -/
theorem PoolReachable.induction {c : Crawler} {stale : Bool} {S : Store} {t : Time}
    {Q : Pool → Prop} (h0 : Q (Pool.init S t))
    (hstep : ∀ P P', PoolReachable c stale S t P → Q P → PoolStep c stale P P' → Q P')
    {P : Pool} (h : PoolReachable c stale S t P) : Q P := by
  induction h with
  | refl => exact h0
  | tail hr hs ih => exact hstep _ _ hr ih hs

/-! ## Every worker runs a crawl -/

namespace Worker

/-- What is left of `wk`'s crawl can only issue `CrawlWrite`s, from what it has seen. -/
def Guarded (c : Crawler) (wk : Worker) : Prop :=
  Prog.Guarded Seen.look Seen.tick (CrawlWrite c wk.res) (fun _ _ => True) wk.seen wk.prog

theorem start_guarded (c : Crawler) (r : AnnotatedResource) : (start c r).Guarded c :=
  crawl_guarded c

end Worker

namespace Pool

variable {P : Pool} {n : Nat} {wk : Worker}

theorem mem_setWorker {v : Worker} (h : v ∈ (P.setWorker n wk).workers) : v ∈ P.workers ∨ v = wk :=
  List.mem_or_eq_of_mem_set h

/-- Every worker runs what is left of a crawl of its message. -/
def Guarded (c : Crawler) (P : Pool) : Prop := ∀ wk ∈ P.workers, wk.Guarded c

theorem Guarded.setWorker {c : Crawler} (h : P.Guarded c) (hwk : wk.Guarded c) :
    (P.setWorker n wk).Guarded c := fun v hv => (mem_setWorker hv).elim (h v) (· ▸ hwk)

/-- The call worker `n` is at is guarded from its context. -/
theorem Guarded.at {c : Crawler} {p : Prog (Option Err)} (hg : P.Guarded c)
    (hn : P.workers[n]? = some wk) (hp : wk.prog = p) :
    Prog.Guarded Seen.look Seen.tick (CrawlWrite c wk.res) (fun _ _ => True) wk.seen p :=
  hp ▸ hg wk (List.getElem?_mem hn)

end Pool

section Step

variable {c : Crawler} {stale : Bool} {P P' : Pool}

/-- One step keeps every worker running what is left of its crawl: each call is answered with an
answer its continuation is guarded for, and the context is moved on as `Seen.look` and `Seen.tick`
allow. -/
theorem PoolStep.guarded (hg : P.Guarded c) (h : PoolStep c stale P P') : P'.Guarded c := by
  cases h with
  | deliver r =>
    intro v hv
    rcases List.mem_append.1 hv with hv | hv
    · exact hg v hv
    · rw [List.mem_singleton.1 hv]
      exact Worker.start_guarded c r
  | tick _ => exact hg
  | lookupFails e hn hp => exact hg.setWorker (hg.at hn hp _ _ ⟨(fun _ h => nomatch h), rfl⟩)
  | lookup hn hp _ =>
    exact hg.setWorker (hg.at hn hp _ _ ⟨fun _ h => getExistingItem_resource (Except.ok.inj h), rfl⟩)
  | now hn hp => exact hg.setWorker (hg.at hn hp _ _ rfl)
  | stat x hn hp | extract x hn hp => exact hg.setWorker (hg.at hn hp x)
  | crawlDir d hn hp => exact hg.setWorker (hg.at hn hp d)
  | writeAccepted hn hp => exact hg.setWorker ((hg.at hn hp).2 none)
  | writeRejected e hn hp => exact hg.setWorker ((hg.at hn hp).2 (some e))

theorem Pool.guarded_of_reachable {S : Store} {t : Time} (h : PoolReachable c stale S t P) :
    P.Guarded c :=
  PoolReachable.induction (fun _ h => nomatch h) (fun _ _ _ hg hs => hs.guarded hg) h

/-! ## What one step changes -/

/-- The clock never goes back. -/
theorem PoolStep.clock_le (h : PoolStep c stale P P') : P.clock ≤ P'.clock := by
  cases h with
  | tick ht => exact ht
  | _ => exact le_rfl

/-- A step keeps the history, adding the store it replaces, if any. -/
theorem PoolStep.past_cases (h : PoolStep c stale P P') :
    P'.past = P.past ∨ P'.past = P.store :: P.past := by
  cases h with
  | crawlDir | writeAccepted => exact .inr rfl
  | _ => exact .inl rfl

/-- What one step does to the backend: nothing, a write one worker's crawl can issue from what it
has seen, or the Invalids documents of a directory expansion. -/
theorem PoolStep.store_cases (hg : P.Guarded c) (h : PoolStep c stale P P') :
    P'.store = P.store ∨
      (∃ wk ∈ P.workers, ∃ wr, CrawlWrite c wk.res wk.seen wr ∧ P'.store = wr.apply P.store) ∨
      ∃ d : DirRun, P'.store = Act.applyAll d.acts P.store := by
  cases h with
  | crawlDir d => exact .inr (.inr ⟨d, rfl⟩)
  | writeAccepted hn hp => exact .inr (.inl ⟨_, List.getElem?_mem hn, _, (hg.at hn hp).1, rfl⟩)
  | _ => exact .inl rfl

/-- Every write a step issues is one a worker's crawl can issue from what it has seen. -/
theorem PoolStep.issued_cases (hg : P.Guarded c) (h : PoolStep c stale P P') :
    P'.issued = P.issued ∨
      ∃ wk ∈ P.workers, ∃ wr, CrawlWrite c wk.res wk.seen wr ∧ P'.issued = wr :: P.issued := by
  cases h with
  | writeAccepted hn hp | writeRejected _ hn hp =>
    exact .inr ⟨_, List.getElem?_mem hn, _, (hg.at hn hp).1, rfl⟩
  | _ => exact .inl rfl

/-- Where a worker of the next pool comes from: it is a worker of this one, a new one, or the
worker that stepped, whose context a lookup or a clock reading may have moved on. -/
theorem PoolStep.worker_cases (h : PoolStep c stale P P') {v : Worker} (hv : v ∈ P'.workers) :
    v ∈ P.workers ∨ v.seen = ⟨none, 0⟩ ∨ ∃ wk ∈ P.workers, v.res = wk.res ∧
      (v.seen = wk.seen ∨ v.seen = ⟨none, P.clock⟩ ∨ v.seen = { wk.seen with clockRead := P.clock } ∨
        ∃ s r, P.Readable stale s ∧ v.seen = ⟨getExistingItem s r, P.clock⟩) := by
  cases h with
  | deliver r =>
    rcases List.mem_append.1 hv with hv | hv
    · exact .inl hv
    · exact .inr (.inl (by rw [List.mem_singleton.1 hv]; rfl))
  | tick => exact .inl hv
  | lookupFails e hn _ =>
    rcases Pool.mem_setWorker hv with hv | rfl
    · exact .inl hv
    · exact .inr (.inr ⟨_, List.getElem?_mem hn, rfl, .inr (.inl rfl)⟩)
  | lookup hn _ hs =>
    rcases Pool.mem_setWorker hv with hv | rfl
    · exact .inl hv
    · exact .inr (.inr ⟨_, List.getElem?_mem hn, rfl, .inr (.inr (.inr ⟨_, _, hs, rfl⟩))⟩)
  | now hn _ =>
    rcases Pool.mem_setWorker hv with hv | rfl
    · exact .inl hv
    · exact .inr (.inr ⟨_, List.getElem?_mem hn, rfl, .inr (.inr (.inl rfl))⟩)
  | stat _ hn _ | extract _ hn _ | crawlDir _ hn _ | writeAccepted hn _ | writeRejected _ hn _ =>
    rcases Pool.mem_setWorker hv with hv | rfl
    · exact .inl hv
    · exact .inr (.inr ⟨_, List.getElem?_mem hn, rfl, .inl rfl⟩)

end Step

end IpfsSearch
