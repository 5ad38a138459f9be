import IpfsSearch.CrawlDir

/-!
# Prog — what a crawl asks of the world

The crawler's code is written against its collaborators: the bulk getter, the wall clock,
`protocol.Stat`, the extractors, the bulk indexer, and its own directory expansion. `Prog α` is
a crawl as a tree of those calls, each with a continuation for every answer (a free monad), so
that the code of `IpfsSearch.Crawler` reads as the Go code does and can be run against any answers:

* `Prog.run` runs a crawl alone against a `World` that answers every call and a store it reads
  and writes, recording what it did as a list of `Act`s;
* `IpfsSearch.Workers` runs many crawls at once, one call at a time, against one shared store.

A `crawlDir` call is answered with a finished run of its two goroutines (`DirRun`,
`IpfsSearch.CrawlDir`); the Invalids documents its `queueDirEntry` calls created are written when
it returns.
-/

namespace IpfsSearch

/-- An extractor of `c.extractors`, by name. -/
abbrev Extractor := String

/-- A crawl: the calls it makes, each continued for every possible answer. -/
inductive Prog (α : Type) where
  | pure (a : α)
  | panic (msg : String)
  | getExistingItem (r : AnnotatedResource) (k : Except Err (Option ExistingItem) → Prog α)
  | now (k : Time → Prog α)
  | stat (r : AnnotatedResource) (k : Stat × Option Err → Prog α)
  | extract (e : Extractor) (r : AnnotatedResource) (f : File) (k : Metadata × Option Err → Prog α)
  | crawlDir (r : AnnotatedResource) (k : DirRun → Prog α)
  | write (w : Write) (k : Option Err → Prog α)

namespace Prog

/-- Run `m`, then `f` on what it returned; a panic skips the rest. -/
def bind {α β : Type} : Prog α → (α → Prog β) → Prog β
  | pure a, f => f a
  | panic m, _ => panic m
  | getExistingItem r k, f => getExistingItem r fun x => bind (k x) f
  | now k, f => now fun t => bind (k t) f
  | stat r k, f => stat r fun x => bind (k x) f
  | extract e r m k, f => extract e r m fun x => bind (k x) f
  | crawlDir r k, f => crawlDir r fun x => bind (k x) f
  | write w k, f => write w fun x => bind (k x) f

instance : Monad Prog where
  pure := pure
  bind := bind

@[simp] theorem pure_def {α : Type} (a : α) : (Pure.pure a : Prog α) = pure a := rfl
@[simp] theorem bind_def {α β : Type} (m : Prog α) (f : α → Prog β) : m >>= f = m.bind f := rfl

@[simp] theorem pure_bind {α β : Type} (a : α) (f : α → Prog β) : (pure a).bind f = f a := rfl
@[simp] theorem panic_bind {α β : Type} (m : String) (f : α → Prog β) :
    (panic m).bind f = panic m := rfl

/-- The calls as actions returning their answer. -/
def getExistingItem' (r : AnnotatedResource) : Prog (Except Err (Option ExistingItem)) :=
  getExistingItem r pure
def now' : Prog Time := now pure
def stat' (r : AnnotatedResource) : Prog (Stat × Option Err) := stat r pure
def extract' (e : Extractor) (r : AnnotatedResource) (f : File) : Prog (Metadata × Option Err) :=
  extract e r f pure
def crawlDir' (r : AnnotatedResource) : Prog DirRun := crawlDir r pure
def write' (w : Write) : Prog (Option Err) := write w pure

@[simp] theorem getExistingItem'_bind {β : Type} (r : AnnotatedResource)
    (f : Except Err (Option ExistingItem) → Prog β) : (getExistingItem' r).bind f = getExistingItem r f := rfl
@[simp] theorem now'_bind {β : Type} (f : Time → Prog β) : now'.bind f = now f := rfl
@[simp] theorem stat'_bind {β : Type} (r : AnnotatedResource) (f : Stat × Option Err → Prog β) :
    (stat' r).bind f = stat r f := rfl
@[simp] theorem extract'_bind {β : Type} (e : Extractor) (r : AnnotatedResource) (m : File)
    (f : Metadata × Option Err → Prog β) : (extract' e r m).bind f = extract e r m f := rfl
@[simp] theorem crawlDir'_bind {β : Type} (r : AnnotatedResource) (f : DirRun → Prog β) :
    (crawlDir' r).bind f = crawlDir r f := rfl
@[simp] theorem write'_bind {β : Type} (w : Write) (f : Option Err → Prog β) :
    (write' w).bind f = write w f := rfl

end Prog

/-! ## Running a crawl alone -/

/-- How the collaborators answer: a lookup that fails, what `Stat` finds, what each extractor
decodes, how a directory expansion runs, and whether the bulk indexer accepts each write. -/
structure World where
  getExistingItem : AnnotatedResource → Option Err
  stat : AnnotatedResource → Stat × Option Err
  extract : Extractor → AnnotatedResource → File → Metadata × Option Err
  crawlDir : AnnotatedResource → DirRun
  write : Write → Option Err

/-- What a crawl did, in order: a write it issued (and whether the bulk indexer accepted it), or a
`queueDirEntry` call made while its directory was expanded. -/
inductive Act
  | write (w : Write) (res : Option Err)
  | child (op : ChildOp) (o : Outcome)
  deriving DecidableEq, Repr

namespace Act

/-- The store write an act makes, if it made one. -/
def write? : Act → Option Write
  | write w none => some w
  | write _ (some _) => none
  | child op .ok => op.write?
  | child _ _ => none

@[simp] theorem write?_accepted (w : Write) : (write w none).write? = some w := rfl
@[simp] theorem write?_rejected (w : Write) (e : Err) : (write w (some e)).write? = none := rfl

/-- An act of a directory expansion: a `queueDirEntry` call. -/
def IsChild : Act → Prop
  | child _ _ => True
  | write _ _ => False

/-- Apply the writes of a list of acts, in order. -/
def applyAll (acts : List Act) (s : Store) : Store :=
  acts.foldl (fun s a => (a.write?.map Write.apply).getD id s) s

@[simp] theorem applyAll_nil (s : Store) : applyAll [] s = s := rfl

@[simp] theorem applyAll_cons (a : Act) (acts : List Act) (s : Store) :
    applyAll (a :: acts) s = applyAll acts ((a.write?.map Write.apply).getD id s) := rfl

theorem applyAll_append (a b : List Act) (s : Store) :
    applyAll (a ++ b) s = applyAll b (applyAll a s) := by
  simp [applyAll, List.foldl_append]

/-- A write that changes nothing leaves the store as it is, accepted or not. -/
theorem applyAll_write_of_apply_eq {wr : Write} {s : Store} (h : wr.apply s = s) (res : Option Err) :
    applyAll [.write wr res] s = s := by
  cases res <;> simp [write?, h]

/-- A property of stores that every write among `acts` keeps holds after them. -/
theorem applyAll_induction {Q : Store → Prop} {acts : List Act}
    (hQ : ∀ a ∈ acts, ∀ wr, a.write? = some wr → ∀ s, Q s → Q (wr.apply s)) {s : Store}
    (hs : Q s) : Q (applyAll acts s) := by
  induction acts generalizing s with
  | nil => exact hs
  | cons a acts ih =>
    rw [applyAll_cons]
    refine ih (fun b hb => hQ b (.tail _ hb)) ?_
    cases hw : a.write? with
    | none => exact hs
    | some wr => exact hQ a (.head _) wr hw s hs

/-- The only write of a `queueDirEntry` call is an Invalids create. -/
theorem child_write? {op : ChildOp} {o : Outcome} {wr : Write} (h : (child op o).write? = some wr) :
    ∃ r e, wr = invalidWrite r e := by
  cases o <;> cases op <;> cases h
  exact ⟨_, _, rfl⟩

/-- A property of stores that every Invalids create keeps holds after `queueDirEntry` calls. -/
theorem applyAll_children {Q : Store → Prop} {acts : List Act} (hc : ∀ a ∈ acts, a.IsChild)
    (hQ : ∀ s r e, Q s → Q ((invalidWrite r e).apply s)) {s : Store} (hs : Q s) :
    Q (applyAll acts s) := by
  refine applyAll_induction (fun a ha wr hw => ?_) hs
  obtain ⟨wr, res⟩ | ⟨op, o⟩ := a
  · exact (hc _ ha).elim
  · obtain ⟨r, e, rfl⟩ := child_write? hw
    exact fun s => hQ s r e

/-- `queueDirEntry` calls write to no index but Invalids. -/
theorem applyAll_of_isChild {acts : List Act} (hc : ∀ a ∈ acts, a.IsChild) (s : Store)
    {i : IndexName} (hi : i ≠ .invalids) (c : Cid) : applyAll acts s i c = s i c :=
  applyAll_children (Q := fun s' => s' i c = s i c) hc (fun s' r e (h : s' i c = s i c) =>
    (@Write.apply_of_ne (invalidWrite r e) s' i c (by simp [invalidWrite, Write.idx, hi])).trans h) rfl

end Act

/-- The acts of a finished directory expansion. -/
def DirRun.acts (d : DirRun) : List Act := d.queued.map fun (op, o) => .child op o

theorem DirRun.acts_isChild (d : DirRun) : ∀ a ∈ d.acts, a.IsChild := by
  simp only [DirRun.acts, List.mem_map]
  rintro _ ⟨_, _, rfl⟩
  trivial

namespace Prog

/-- Run a crawl alone against `w`, the clock reading `t` (a crawl reads the clock at most once)
and the store `s`: what it returned (or the panic that ended it), the store after it, and what
it did. -/
def run {α : Type} (w : World) (t : Time) : Prog α → Store → Except String α × Store × List Act
  | pure a, s => (.ok a, s, [])
  | panic m, s => (.error m, s, [])
  | getExistingItem r k, s =>
    run w t (k (match w.getExistingItem r with
      | some e => .error e
      | none => .ok (IpfsSearch.getExistingItem s r))) s
  | now k, s => run w t (k t) s
  | stat r k, s => run w t (k (w.stat r)) s
  | extract e r f k, s => run w t (k (w.extract e r f)) s
  | crawlDir r k, s =>
    let d := w.crawlDir r
    let (x, s', acts) := run w t (k d) (Act.applyAll d.acts s)
    (x, s', d.acts ++ acts)
  | write wr k, s =>
    let res := w.write wr
    let (x, s', acts) := run w t (k res) (Act.applyAll [.write wr res] s)
    (x, s', .write wr res :: acts)

section Run

variable {w : World} {t : Time} {s : Store}

@[simp] theorem run_pure {α : Type} (a : α) : run w t (pure a) s = (.ok a, s, []) := rfl

@[simp] theorem run_panic {α : Type} (m : String) :
    run w t (panic m : Prog α) s = (.error m, s, []) := rfl

@[simp] theorem run_write' (wr : Write) :
    run w t (write' wr) s = (.ok (w.write wr), Act.applyAll [.write wr (w.write wr)] s,
      [.write wr (w.write wr)]) := rfl

/-- A write that returned nil was accepted and applied. -/
theorem run_write'_eq_ok_none {wr : Write} {s' : Store} {acts : List Act}
    (h : run w t (write' wr) s = (.ok none, s', acts)) :
    w.write wr = none ∧ s' = wr.apply s ∧ acts = [.write wr none] := by
  simp only [run_write', Prod.mk.injEq, Except.ok.injEq] at h
  obtain ⟨hw, rfl, rfl⟩ := h
  simp [hw]

/-- A write that returned an error was refused and left the store as it was. -/
theorem run_write'_eq_ok_some {wr : Write} {e : Err} {s' : Store} {acts : List Act}
    (h : run w t (write' wr) s = (.ok (some e), s', acts)) :
    w.write wr = some e ∧ s' = s ∧ acts = [.write wr (some e)] := by
  simp only [run_write', Prod.mk.injEq, Except.ok.injEq] at h
  obtain ⟨hw, rfl, rfl⟩ := h
  simp [hw]

end Run

/-- A crawl run alone leaves the store its acts say it does. -/
theorem run_store {α : Type} (w : World) (t : Time) (p : Prog α) (s : Store) :
    (run w t p s).2.1 = Act.applyAll (run w t p s).2.2 s := by
  induction p generalizing s with
  | pure a => rfl
  | panic m => rfl
  | getExistingItem r k ih => exact ih _ s
  | now k ih => exact ih _ s
  | stat r k ih => exact ih _ s
  | extract e r f k ih => exact ih _ s
  | crawlDir r k ih => simp [run, ih, Act.applyAll_append]
  | write wr k ih => simp [run, ih]

/-- Every write a run records carries the bulk indexer's answer to it. -/
theorem run_write_answer {α : Type} (w : World) (t : Time) (p : Prog α) (s : Store) :
    ∀ a ∈ (run w t p s).2.2, ∀ wr res, a = .write wr res → res = w.write wr := by
  induction p generalizing s with
  | pure a => simp [run]
  | panic m => simp [run]
  | getExistingItem r k ih => exact ih _ s
  | now k ih => exact ih _ s
  | stat r k ih => exact ih _ s
  | extract e r f k ih => exact ih _ s
  | crawlDir r k ih =>
    simp only [run, List.mem_append]
    rintro _ (ha | ha) wr res rfl
    · simp [DirRun.acts] at ha
    · exact ih _ _ _ ha wr res rfl
  | write wr k ih =>
    simp only [run, List.mem_cons]
    rintro a (rfl | ha) wr' res h
    · cases h; rfl
    · exact ih _ _ a ha wr' res h

/-- Running `m` then `f`. -/
theorem run_bind {α β : Type} (w : World) (t : Time) (m : Prog α) (f : α → Prog β) (s : Store) :
    run w t (m.bind f) s =
      match run w t m s with
      | (.ok a, s', acts) =>
        let (x, s'', acts') := run w t (f a) s'
        (x, s'', acts ++ acts')
      | (.error e, s', acts) => (.error e, s', acts) := by
  induction m generalizing s with
  | pure a => simp [bind, run]
  | panic m => rfl
  | getExistingItem r k ih => exact ih _ s
  | now k ih => exact ih _ s
  | stat r k ih => exact ih _ s
  | extract e r g k ih => exact ih _ s
  | crawlDir r k ih =>
    simp only [bind, run, ih]
    split <;> simp_all
  | write wr k ih =>
    simp only [bind, run, ih]
    split <;> simp_all

end Prog

end IpfsSearch
