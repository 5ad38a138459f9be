import IpfsSearch.Workers

/-!
# Simulation — a crawl run alone is a run of the pool

Two semantics of the same crawl sit in this development: `Prog.run`, which runs one crawl alone
against collaborators answering as a `World` says, and `PoolStep`, the workers' calls interleaved
over the shared backend. The pool is meant to extend the sequential run: a worker whose calls are
answered as `run` answers them, with nothing else moving in between, goes through the same calls
and leaves the same backend. This module proves that, so every behaviour found of a crawl run
alone (the counterexamples of `Indexing`, `Requeue` and `References` included) is a behaviour of
the deployed pool.

* `Pool.RunsTo` — worker `n` has run to the end of its crawl, the backend holding what `run` left
  and the bulk indexer having received the writes `run` issued, in order;
* `Pool.runs_alone` — by induction on the crawl, one pool step per call;
* `pool_runs_crawl` — a message delivered to a pool with no other worker.
-/

namespace IpfsSearch

open Prog

/-- The program an ended crawl leaves its worker at: its answer, or the panic that ended it. -/
def Prog.ofResult {α : Type} : Except String α → Prog α
  | .ok a => .pure a
  | .error m => .panic m

/-- The write an act handed to the bulk indexer, accepted or refused. -/
def Act.issued? : Act → Option Write
  | .write wr _ => some wr
  | .child _ _ => none

@[simp] theorem Act.issued?_write (wr : Write) (res : Option Err) :
    (Act.write wr res).issued? = some wr := rfl

/-- The acts of a directory expansion hand nothing to the bulk indexer: its invalid entries are
indexed by `queueDirEntry` itself. -/
@[simp] theorem DirRun.acts_issued? (d : DirRun) : d.acts.filterMap Act.issued? = [] := by
  simp [DirRun.acts, List.filterMap_map, Act.issued?]

/-- From `P`, worker `n`, at `wk`, can run to the end of its crawl with the answer `res`, the other
workers and the clock left as they are, to a pool whose backend holds `store` and whose bulk
indexer has received the writes `ws` on top of those it had. -/
def Pool.RunsTo (c : Crawler) (stale : Bool) (n : Nat) (wk : Worker) (P : Pool)
    (res : Except String (Option Err)) (store : Store) (ws : List Write) : Prop :=
  ∃ P' seen, Relation.ReflTransGen (PoolStep c stale) P P' ∧
    P'.workers[n]? = some { wk with prog := Prog.ofResult res, seen := seen } ∧
    (∀ m, m ≠ n → P'.workers[m]? = P.workers[m]?) ∧ P'.workers.length = P.workers.length ∧
    P'.clock = P.clock ∧ P'.store = store ∧ P'.issued = ws.reverse ++ P.issued

namespace Pool

@[simp] theorem setWorker_workers (P : Pool) (n : Nat) (wk : Worker) :
    (P.setWorker n wk).workers = P.workers.set n wk := rfl
@[simp] theorem setWorker_clock (P : Pool) (n : Nat) (wk : Worker) :
    (P.setWorker n wk).clock = P.clock := rfl
@[simp] theorem setWorker_store (P : Pool) (n : Nat) (wk : Worker) :
    (P.setWorker n wk).store = P.store := rfl
@[simp] theorem setWorker_issued (P : Pool) (n : Nat) (wk : Worker) :
    (P.setWorker n wk).issued = P.issued := rfl
@[simp] theorem commit_workers (P : Pool) (s : Store) : (P.commit s).workers = P.workers := rfl
@[simp] theorem commit_clock (P : Pool) (s : Store) : (P.commit s).clock = P.clock := rfl
@[simp] theorem commit_store (P : Pool) (s : Store) : (P.commit s).store = s := rfl
@[simp] theorem commit_issued (P : Pool) (s : Store) : (P.commit s).issued = P.issued := rfl
@[simp] theorem issue_workers (P : Pool) (wr : Write) : (P.issue wr).workers = P.workers := rfl
@[simp] theorem issue_clock (P : Pool) (wr : Write) : (P.issue wr).clock = P.clock := rfl
@[simp] theorem issue_store (P : Pool) (wr : Write) : (P.issue wr).store = P.store := rfl
@[simp] theorem issue_issued (P : Pool) (wr : Write) : (P.issue wr).issued = wr :: P.issued := rfl

variable {c : Crawler} {stale : Bool} {n : Nat} {wk : Worker}

/-- A crawl that has ended has run to its end. -/
theorem RunsTo.refl {P : Pool} {res : Except String (Option Err)} (hn : P.workers[n]? = some wk)
    (hp : wk.prog = Prog.ofResult res) : P.RunsTo c stale n wk res P.store [] :=
  ⟨P, wk.seen, .refl, by rw [hn, ← hp], fun _ _ => rfl, rfl, rfl, rfl, rfl⟩

/-- One step of worker `n` that keeps the clock, then a run of the rest of its crawl, handing the
writes `pre` to the bulk indexer on the way. -/
theorem RunsTo.head {P P₁ : Pool} {wk₁ : Worker} {res : Except String (Option Err)} {store : Store}
    {ws : List Write} (hs : PoolStep c stale P P₁)
    (hw : P₁.workers = P.workers.set n wk₁) (hres : wk₁.res = wk.res) (hcl : P₁.clock = P.clock)
    (pre : List Write) (hissued : P₁.issued = pre.reverse ++ P.issued)
    (h : P₁.RunsTo c stale n wk₁ res store ws) : P.RunsTo c stale n wk res store (pre ++ ws) := by
  obtain ⟨P', seen, hr, hn', hother, hlen, hcl', hst, his⟩ := h
  refine ⟨P', seen, .head hs hr, by rw [hn', hres], fun m hm => ?_, ?_, hcl'.trans hcl, hst, ?_⟩
  · rw [hother m hm, hw, List.getElem?_set_ne (Ne.symm hm)]
  · rw [hlen, hw, List.length_set]
  · rw [his, hissued]
    simp

end Pool

section Runs

variable {c : Crawler} {stale : Bool}

/-- Worker `n`, at any point of any crawl, can run it to its end as `run` runs it alone against
`w`, from the clock reading and the backend of the pool. -/
theorem Pool.runs_alone (w : World) (p : Prog (Option Err)) :
    ∀ {P : Pool} {n : Nat} {wk : Worker}, P.workers[n]? = some wk → wk.prog = p →
      P.RunsTo c stale n wk (run w P.clock p P.store).1 (run w P.clock p P.store).2.1
        ((run w P.clock p P.store).2.2.filterMap Act.issued?) := by
  induction p with
  | pure a => exact fun hn hp => RunsTo.refl hn hp
  | panic m => exact fun hn hp => RunsTo.refl hn hp
  | getExistingItem r k ih =>
    intro P n wk hn hp
    have hlt := (List.getElem?_eq_some_iff.1 hn).1
    cases he : w.getExistingItem r with
    | some e =>
      simpa [run, he] using (ih (.error e) (by simp [hlt]) rfl).head
        (PoolStep.lookupFails e hn hp) rfl rfl rfl [] rfl
    | none =>
      simpa [run, he] using (ih (.ok (getExistingItem P.store r)) (by simp [hlt]) rfl).head
        (PoolStep.lookup hn hp (.inl rfl)) rfl rfl rfl [] rfl
  | now k ih =>
    intro P n wk hn hp
    simpa [run] using (ih P.clock (by simp [(List.getElem?_eq_some_iff.1 hn).1]) rfl).head
      (PoolStep.now hn hp) rfl rfl rfl [] rfl
  | stat r k ih =>
    intro P n wk hn hp
    simpa [run] using (ih (w.stat r) (by simp [(List.getElem?_eq_some_iff.1 hn).1]) rfl).head
      (PoolStep.stat _ hn hp) rfl rfl rfl [] rfl
  | extract e r f k ih =>
    intro P n wk hn hp
    simpa [run] using (ih (w.extract e r f) (by simp [(List.getElem?_eq_some_iff.1 hn).1]) rfl).head
      (PoolStep.extract _ hn hp) rfl rfl rfl [] rfl
  | crawlDir r k ih =>
    intro P n wk hn hp
    simpa [run, List.filterMap_append] using
      (ih (w.crawlDir r) (by simp [(List.getElem?_eq_some_iff.1 hn).1]) rfl).head
        (PoolStep.crawlDir _ hn hp) rfl rfl rfl [] rfl
  | write wr k ih =>
    intro P n wk hn hp
    have hlt := (List.getElem?_eq_some_iff.1 hn).1
    cases hw : w.write wr with
    | none =>
      simpa [run, hw, Act.applyAll, Act.write?] using (ih none (by simp [hlt]) rfl).head
        (PoolStep.writeAccepted hn hp) rfl rfl rfl [wr] rfl
    | some e =>
      simpa [run, hw, Act.applyAll, Act.write?] using (ih (some e) (by simp [hlt]) rfl).head
        (PoolStep.writeRejected e hn hp) rfl rfl rfl [wr] rfl

/-- Every crawl run alone is a run of the pool: a message delivered to a pool with no other worker,
its calls answered as `w` answers them, ends with the same answer, the same backend, and the same
writes handed to the bulk indexer, in the same order. -/
theorem pool_runs_crawl (w : World) (t : Time) (S : Store) (r : AnnotatedResource) :
    ∃ P seen, PoolReachable c stale S t P ∧
      P.workers = [⟨r, Prog.ofResult (run w t (c.crawl r) S).1, seen⟩] ∧
      P.store = (run w t (c.crawl r) S).2.1 ∧
      P.issued.reverse = (run w t (c.crawl r) S).2.2.filterMap Act.issued? := by
  obtain ⟨P, seen, hr, hn, -, hlen, -, hst, his⟩ := @Pool.runs_alone c stale w (c.crawl r)
    { Pool.init S t with workers := [] ++ [Worker.start c r] } 0 (Worker.start c r) rfl rfl
  refine ⟨P, seen, .head (.deliver _ r) hr, ?_, hst, by simp [Pool.init] at his; simp [his]⟩
  obtain ⟨v, hv⟩ := List.length_eq_one.1 hlen
  rw [hv] at hn ⊢
  exact congrArg ([·]) (Option.some.inj hn)

end Runs

end IpfsSearch
