import IpfsSearch.Run

/-!
# Writes — what every write of a crawl satisfies

`Prog.Guarded look tick P R ctx p` reads a program as a Hoare triple over its effects: every
write `p` can still issue satisfies `P`, and what it returns satisfies `R`, each in the context
in which it gets there. The context (`Seen`) records what the program has observed: the item its
lookup returned and its last clock reading. Lookups and clock readings are quantified over every
answer, so a guarded program is guarded however it is interleaved with others.

* `indexNew_guarded` — indexing a resource as new only creates its own document, in the index of
  the document's kind, first and last seen at the truncated clock reading;
* `crawl_guarded` — every write of `Crawl` is such a create, the Partials delete of its own CID,
  or an update of the item its lookup found (`CrawlWrite`).
-/

namespace IpfsSearch

namespace Prog

/-- A Hoare-style reading of a crawl: every write `p` can still issue satisfies `P`, and what it
returns satisfies `R`, each in the context it reaches them in. -/
def Guarded {α C : Type}
    (look : C → AnnotatedResource → Except Err (Option ExistingItem) → C → Prop)
    (tick : C → Time → C → Prop) (P : C → Write → Prop) (R : C → α → Prop) : C → Prog α → Prop
  | ctx, pure a => R ctx a
  | _, panic _ => True
  | ctx, getExistingItem r k => ∀ x ctx', look ctx r x ctx' → Guarded look tick P R ctx' (k x)
  | ctx, now k => ∀ t ctx', tick ctx t ctx' → Guarded look tick P R ctx' (k t)
  | ctx, stat _ k => ∀ x, Guarded look tick P R ctx (k x)
  | ctx, extract _ _ _ k => ∀ x, Guarded look tick P R ctx (k x)
  | ctx, crawlDir _ k => ∀ d, Guarded look tick P R ctx (k d)
  | ctx, write wr k => P ctx wr ∧ ∀ x, Guarded look tick P R ctx (k x)

section Guarded

variable {C : Type} {look : C → AnnotatedResource → Except Err (Option ExistingItem) → C → Prop}
  {tick : C → Time → C → Prop} {P Q : C → Write → Prop}

theorem Guarded.bind {α β : Type} {R : C → α → Prop} {S : C → β → Prop} {m : Prog α}
    {f : α → Prog β} {ctx : C} (hm : Guarded look tick P R ctx m)
    (hf : ∀ ctx a, R ctx a → Guarded look tick P S ctx (f a)) :
    Guarded look tick P S ctx (m.bind f) := by
  induction m generalizing ctx with
  | pure a => exact hf ctx a hm
  | panic m => trivial
  | getExistingItem r k ih => exact fun x ctx' h => ih x (hm x ctx' h)
  | now k ih => exact fun t ctx' h => ih t (hm t ctx' h)
  | stat r k ih => exact fun x => ih x (hm x)
  | extract e r g k ih => exact fun x => ih x (hm x)
  | crawlDir r k ih => exact fun d => ih d (hm d)
  | write wr k ih => exact ⟨hm.1, fun x => ih x (hm.2 x)⟩

theorem Guarded.mono {α : Type} {R S : C → α → Prop} {p : Prog α} {ctx : C}
    (hPQ : ∀ ctx wr, P ctx wr → Q ctx wr) (hRS : ∀ ctx a, R ctx a → S ctx a)
    (h : Guarded look tick P R ctx p) : Guarded look tick Q S ctx p := by
  induction p generalizing ctx with
  | pure a => exact hRS ctx a h
  | panic m => trivial
  | getExistingItem r k ih => exact fun x ctx' hl => ih x (h x ctx' hl)
  | now k ih => exact fun t ctx' ht => ih t (h t ctx' ht)
  | stat r k ih => exact fun x => ih x (h x)
  | extract e r g k ih => exact fun x => ih x (h x)
  | crawlDir r k ih => exact fun d => ih d (h d)
  | write wr k ih => exact ⟨hPQ ctx wr h.1, fun x => ih x (h.2 x)⟩

/-- Run alone, a guarded crawl issues only writes that satisfy `P` in some context, as long as
every lookup answer about the resource asked for and every clock reading has a context. -/
theorem Guarded.run_writes {α : Type} {R : C → α → Prop} {w : World} {t : Time}
    (hlook : ∀ ctx r x, (∀ i, x = .ok (some i) → i.resource = r) → ∃ ctx', look ctx r x ctx')
    (htick : ∀ ctx t, ∃ ctx', tick ctx t ctx') {p : Prog α} {ctx : C} {s : Store}
    (h : Guarded look tick P R ctx p) :
    ∀ a ∈ (run w t p s).2.2, ∀ wr res, a = .write wr res → ∃ ctx, P ctx wr := by
  induction p generalizing ctx s with
  | pure a => simp [run]
  | panic m => simp [run]
  | getExistingItem r k ih =>
    have hadm : ∀ i, (match w.getExistingItem r with
        | some e => (.error e : Except Err (Option ExistingItem))
        | none => .ok (IpfsSearch.getExistingItem s r)) = .ok (some i) → i.resource = r := by
      intro i hi
      split at hi
      · cases hi
      · exact getExistingItem_resource (Except.ok.inj hi)
    obtain ⟨ctx', hl⟩ := hlook ctx r _ hadm
    exact ih _ (h _ ctx' hl)
  | now k ih =>
    obtain ⟨ctx', ht⟩ := htick ctx t
    exact ih _ (h t ctx' ht)
  | stat r k ih => exact ih _ (h _)
  | extract e r g k ih => exact ih _ (h _)
  | crawlDir r k ih =>
    simp only [run, List.mem_append]
    rintro _ (ha | ha) wr res rfl
    · simp [DirRun.acts] at ha
    · exact ih _ (h _) _ ha wr res rfl
  | write wr k ih =>
    simp only [run, List.mem_cons]
    rintro a (rfl | ha) wr' res hw
    · cases hw
      exact ⟨ctx, h.1⟩
    · exact ih _ (h.2 _) a ha wr' res hw

end Guarded

end Prog

open Prog Crawler

/-! ## What a crawl observes -/

/-- The item a lookup answer carries. -/
def lookupItem : Except Err (Option ExistingItem) → Option ExistingItem
  | .ok i => i
  | .error _ => none

/-- What a crawl has observed so far: the item its lookup returned and its last clock reading. -/
structure Seen where
  read : Option ExistingItem
  clockRead : Time

/-- A lookup of `r` answered `x`: the answer is about `r`, and the crawl now knows the item it
returned. The clock reading is left free: running crawls record the clock at their lookup. -/
def Seen.look (_ : Seen) (r : AnnotatedResource) (x : Except Err (Option ExistingItem))
    (ctx' : Seen) : Prop :=
  (∀ i, x = .ok (some i) → i.resource = r) ∧ ctx'.read = lookupItem x

/-- A clock reading `t`. -/
def Seen.tick (ctx : Seen) (t : Time) (ctx' : Seen) : Prop := ctx' = { ctx with clockRead := t }

theorem Seen.look_total (ctx : Seen) (r : AnnotatedResource) (x : Except Err (Option ExistingItem))
    (h : ∀ i, x = .ok (some i) → i.resource = r) : ∃ ctx', ctx.look r x ctx' :=
  ⟨⟨lookupItem x, 0⟩, h, rfl⟩

theorem Seen.tick_total (ctx : Seen) (t : Time) : ∃ ctx', ctx.tick t ctx' := ⟨_, rfl⟩

/-- The index each kind of document belongs to. -/
def Doc.index : Doc → IndexName
  | .file _ => .files
  | .directory _ => .directories
  | .partialMarker => .partials
  | .invalid _ => .invalids

/-- A document `makeDocument` made for `r` at the clock reading of `ctx`. -/
def Seen.Made (ctx : Seen) (r : AnnotatedResource) (d : Document) : Prop :=
  d.firstSeen = Time.truncate ctx.clockRead ∧ d.lastSeen = Time.truncate ctx.clockRead ∧
    d.references = r.reference.references

/-- A write indexing `r` as new can issue: a create of a document for `r` in the index of its
kind, made at the last clock reading. -/
def NewWrite (r : AnnotatedResource) (ctx : Seen) : Write → Prop
  | .create idx id d => id = r.id ∧ idx = d.index ∧ ∀ doc, d.document? = some doc → ctx.Made r doc
  | _ => False

variable {r : AnnotatedResource} {ctx : Seen} {P : Seen → Write → Prop}

theorem makeDocument_guarded :
    Guarded Seen.look Seen.tick P (fun ctx doc => ctx.Made r doc ∧ doc.size = r.stat.size) ctx
      (makeDocument r) := by
  rintro t ctx' rfl
  exact ⟨⟨rfl, rfl, rfl⟩, rfl⟩

theorem extractAll_guarded (es : List Extractor) (f : File) (err : Option Err) :
    Guarded Seen.look Seen.tick P
      (fun ctx' x => ctx' = ctx ∧ ∀ f', x.1 = some f' → f'.document = f.document) ctx
      (extractAll r es f err) := by
  induction es generalizing f err with
  | nil => exact ⟨rfl, fun f' h => by cases h; rfl⟩
  | cons e es ih =>
    intro x
    simp only [Prog.pure_bind]
    split
    · split
      · exact ⟨rfl, by simp⟩
      · exact ih ⟨f.document, x.1⟩ _
    · exact ih ⟨f.document, x.1⟩ _

theorem getFileProperties_guarded (c : Crawler) :
    Guarded Seen.look Seen.tick P (fun ctx x => ∀ f, x.1 = some f → ctx.Made r f.document) ctx
      (c.getFileProperties r) := by
  refine makeDocument_guarded.bind fun ctx doc hdoc => ?_
  refine (@extractAll_guarded r ctx P _ _ _).mono (fun _ _ h => h) ?_
  rintro _ x ⟨rfl, hx⟩ f hf
  rw [hx f hf]
  exact hdoc.1

theorem getDirectoryProperties_guarded :
    Guarded Seen.look Seen.tick P (fun ctx x => ∀ d, x.1 = some d →
      d.index = .directories ∧ ∀ doc, d.document? = some doc → ctx.Made r doc) ctx
      (getDirectoryProperties r) := by
  refine makeDocument_guarded.bind fun ctx doc hdoc => ?_
  intro d
  simp only [Prog.pure_bind]
  split
  · trivial
  · rintro _ ⟨⟩
    exact ⟨rfl, fun doc' h => by cases h; exact hdoc.1⟩

theorem getProperties_guarded (c : Crawler) :
    Guarded Seen.look Seen.tick P (fun ctx x => ∀ i d, x.1 = some i → x.2.1 = some d →
      i = d.index ∧ ∀ doc, d.document? = some doc → ctx.Made r doc) ctx (c.getProperties r) := by
  unfold getProperties
  split
  · refine (getFileProperties_guarded c).bind fun ctx x hx => ?_
    rintro i d ⟨⟩ hd
    obtain ⟨f, hf, rfl⟩ := Option.map_eq_some'.1 hd
    exact ⟨rfl, fun doc h => by cases h; exact hx f hf⟩
  · refine getDirectoryProperties_guarded.bind fun ctx x hx => ?_
    rintro i d ⟨⟩ hd
    exact ⟨(hx d hd).1.symm, (hx d hd).2⟩
  · rintro i d ⟨⟩
  · rintro i d ⟨⟩ ⟨⟩
    exact ⟨rfl, fun doc h => by cases h⟩
  · trivial

theorem index_guarded (c : Crawler) :
    Guarded Seen.look Seen.tick (NewWrite r) (fun _ _ => True) ctx (c.index r) := by
  refine (getProperties_guarded c).bind fun ctx ⟨idx, d, err⟩ h => ?_
  rcases err with _ | e
  · rcases idx with _ | i <;> rcases d with _ | d
    · trivial
    · trivial
    · trivial
    · exact ⟨⟨rfl, (h i d rfl rfl).1, (h i d rfl rfl).2⟩, fun _ => trivial⟩
  · dsimp only
    split
    · exact ⟨⟨rfl, rfl, fun doc h => by cases h⟩, fun _ => trivial⟩
    · trivial

theorem ensureType_guarded :
    Guarded Seen.look Seen.tick P (fun _ x => x.1.id = r.id ∧ x.1.reference = r.reference) ctx
      (ensureType r) := by
  unfold ensureType
  split
  · exact fun _ => ⟨rfl, rfl⟩
  · exact ⟨rfl, rfl⟩

/-- Indexing `r` as new only creates `r`'s own document, in the index of the document's kind, made
at the last clock reading. -/
theorem indexNew_guarded (c : Crawler) :
    Guarded Seen.look Seen.tick (NewWrite r) (fun _ _ => True) ctx (c.indexNew r) := by
  refine ensureType_guarded.bind fun ctx ⟨r', err⟩ ⟨hid, href⟩ => ?_
  rcases err with _ | e
  · refine (index_guarded c).mono (fun ctx wr h => ?_) fun _ _ h => h
    rcases wr with ⟨idx, id, d⟩ | ⟨_, _, _⟩ | ⟨_, _⟩
    · obtain ⟨rfl, hidx, hdoc⟩ := h
      refine ⟨hid, hidx, fun doc hd => ?_⟩
      obtain ⟨h1, h2, h3⟩ := hdoc doc hd
      exact ⟨h1, h2, by rw [h3, href]⟩
    · exact h.elim
    · exact h.elim
  · dsimp only
    split
    · exact ⟨⟨hid, rfl, fun doc h => by cases h⟩, fun _ => trivial⟩
    · trivial

/-- An update a crawl of `r` can issue for the item `i` its lookup found: the reference `r` was
found through, appended by a crawl from a directory; or `LastSeen`, moved by a sniffed crawl to the
truncated clock reading when that is more than `MinUpdateAge` past the `LastSeen` it read. -/
def UpdateWrite (c : Crawler) (r : AnnotatedResource) (i : ExistingItem) (ctx : Seen) (u : Update) :
    Prop :=
  (r.source = .directorySource ∧ (appendReference i.references r.reference).2 = true ∧
    u = { references := (appendReference i.references r.reference).1 }) ∨
  ((r.source = .snifferSource ∨ r.source = .unknownSource) ∧
    u = { lastSeen := some (Time.truncate ctx.clockRead) } ∧
    ∀ L, i.lastSeen = some L → c.config.minUpdateAge < Time.sub (Time.truncate ctx.clockRead) L)

/-- A write a crawl of `r` can issue: a create of `r`'s own new document, the Partials delete of
`r`'s CID, or an update of the file or directory its lookup found. -/
def CrawlWrite (c : Crawler) (r : AnnotatedResource) (ctx : Seen) (wr : Write) : Prop :=
  NewWrite r ctx wr ∨ wr = .delete .partials r.id ∨
    ∃ i u, ctx.read = some i ∧ i.resource = r ∧ (i.index = .files ∨ i.index = .directories) ∧
      wr = .update i.index r.id u ∧ UpdateWrite c r i ctx u

section Existing

variable {c : Crawler} {i : ExistingItem} (hread : ctx.read = some i) (hres : i.resource = r)
include hread hres

theorem updateExisting_guarded (hidx : i.index = .files ∨ i.index = .directories) :
    Guarded Seen.look Seen.tick (CrawlWrite c r) (fun _ _ => True) ctx (c.updateExisting i) := by
  subst hres
  unfold updateExisting
  split
  · dsimp only
    split
    · exact ⟨.inr (.inr ⟨i, _, hread, rfl, hidx, rfl, .inl ⟨‹_›, ‹_›, rfl⟩⟩), fun _ => trivial⟩
    · trivial
  all_goals first
    | trivial
    | rintro t ctx' rfl
      simp only [Prog.pure_bind]
      have hsrc : i.resource.source = .snifferSource ∨ i.resource.source = .unknownSource := by
        simp [*]
      rcases hL : i.lastSeen with _ | L
      · exact ⟨.inr (.inr ⟨i, _, hread, rfl, hidx, rfl, .inr ⟨hsrc, rfl, by simp [hL]⟩⟩),
          fun _ => trivial⟩
      · dsimp only
        split
        · rename_i hrecent
          refine ⟨.inr (.inr ⟨i, _, hread, rfl, hidx, rfl, .inr ⟨hsrc, rfl, ?_⟩⟩), fun _ => trivial⟩
          intro L' hL'
          rw [hL] at hL'
          cases hL'
          simpa using hrecent
        · trivial

theorem processExisting_guarded :
    Guarded Seen.look Seen.tick (CrawlWrite c r) (fun _ _ => True) ctx (c.processExisting i) := by
  unfold processExisting
  split
  · trivial
  · unfold processPartial deletePartial
    split
    · trivial
    · exact ⟨.inr (.inl (by rw [hres])), fun x => by cases x <;> trivial⟩
  · refine (updateExisting_guarded hread hres ?_).bind fun _ a _ => by cases a <;> trivial
    cases h : i.index <;> simp_all

end Existing

/-- Every write of `Crawl` is a create of its resource's new document, the Partials delete of its
CID, or an update of the item its lookup found, however the lookup, the clock, `Stat`, the
extractors and the directory expansion answer. -/
theorem crawl_guarded (c : Crawler) :
    Guarded Seen.look Seen.tick (CrawlWrite c r) (fun _ _ => True) ctx (c.crawl r) := by
  unfold Crawler.crawl
  split
  · trivial
  split
  · trivial
  have hnew : ∀ ctx, Guarded Seen.look Seen.tick (CrawlWrite c r) (fun _ _ => True) ctx
      (c.indexNew r) := fun _ => (indexNew_guarded c).mono (fun _ _ h => .inl h) fun _ _ h => h
  refine Guarded.bind (R := fun _ _ => True) ?_ fun ctx ⟨exists_, err⟩ _ => ?_
  · rintro x ctx' ⟨hres, hread⟩
    rcases x with e | _ | i
    · trivial
    · trivial
    · exact processExisting_guarded hread (hres i rfl)
  · dsimp only
    split
    · trivial
    · split
      · trivial
      · exact hnew ctx

/-- Run alone, indexing a resource as new issues only creates of its own documents. -/
theorem run_indexNew_creates (c : Crawler) (r : AnnotatedResource) (w : World) (t : Time)
    (s : Store) :
    ∀ a ∈ (run w t (c.indexNew r) s).2.2, ∀ wr res, a = .write wr res →
      ∃ idx d, wr = .create idx r.id d := by
  intro a ha wr res hw
  have hg : Guarded Seen.look Seen.tick (NewWrite r) (fun _ _ => True) ⟨none, 0⟩ (c.indexNew r) :=
    indexNew_guarded c
  obtain ⟨ctx, hnew⟩ := hg.run_writes Seen.look_total Seen.tick_total a ha wr res hw
  rcases wr with ⟨idx, id, d⟩ | _ | _
  · exact ⟨idx, d, by rw [hnew.1]⟩
  · exact hnew.elim
  · exact hnew.elim

end IpfsSearch
