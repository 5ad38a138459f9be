import IpfsSearch.Store
import Mathlib.Data.List.Forall2

/-!
# DirEntries — one directory entry through `processDirEntries`

The sequential part of directory expansion, as `crawler/crawldir.go` writes it:

* `resourceToLinkType` and `addLink`, which panic on a type they do not list;
* `queueDirEntry`, which publishes an entry to the queue for its type with a random priority in
  `[1, 7]`, or indexes an unsupported entry as invalid right away;
* `Consumer` — the variables of `processDirEntries` (`dirCnt`, `isLarge`, the directory's
  `Links`) with the `queueDirEntry` calls made so far, and `Consumer.receive`, one iteration of its
  loop on a received entry, which panics, returns an error, or goes on;
* `Consumer.Tracks` — the loop invariant relating those variables to the entries received so far;
* `Consumer.loop` — the loop run alone on a list of received entries, and `Tracks.loop`, what it
  leaves whatever the calls it makes return.

The goroutines around this loop, the entries channel and the error group are in
`IpfsSearch.CrawlDir`.
-/

namespace IpfsSearch

/-- The crawler's configuration (`crawler.Config`), as far as the modelled code reads it. -/
structure Config where
  dirEntryBufferSize : UInt64
  minUpdateAge : Duration
  maxDirSize : UInt64
  deriving DecidableEq, Repr

/-- The three queues of `c.queues`. -/
inductive QueueName
  | files
  | directories
  | hashes
  deriving DecidableEq, Repr

/-- `resourceToLinkType`; `none` is its `panic("unexpected type")`. -/
def resourceToLinkType : ResourceType → Option LinkType
  | .fileType => some .fileLinkType
  | .directoryType => some .directoryLinkType
  | .undefinedType => some .unknownLinkType
  | .unsupportedType => some .unsupportedLinkType
  | .partialType => none

/-- The link `addLink` appends for an entry of link type `t`. -/
def entryLink (e : AnnotatedResource) (t : LinkType) : Link :=
  ⟨e.id, e.reference.name, e.stat.size, t⟩

/-- `addLink`: the directory's links with one more; `none` when the entry's type panics. -/
def addLink (e : AnnotatedResource) (links : List Link) : Option (List Link) :=
  (resourceToLinkType e.stat.type).map fun t => links ++ [entryLink e t]

/-- The write `indexInvalid` issues: an `Invalid` document holding the error's text. -/
def invalidWrite (r : AnnotatedResource) (err : Err) : Write :=
  .create .invalids r.id (.invalid ⟨err.error⟩)

/-- What `queueDirEntry` does with an entry: publish it, or index it as invalid. -/
inductive ChildOp
  | publish (queue : QueueName) (r : AnnotatedResource) (priority : UInt8)
  | indexInvalid (r : AnnotatedResource) (err : Err)
  deriving DecidableEq, Repr

namespace ChildOp

/-- The entry an operation is about. -/
def resource : ChildOp → AnnotatedResource
  | publish _ r _ => r
  | indexInvalid r _ => r

/-- The index write an operation makes, if any. -/
def write? : ChildOp → Option Write
  | publish _ _ _ => none
  | indexInvalid r err => some (invalidWrite r err)

end ChildOp

/-- `queueDirEntry`, given the value `rand.Intn(7)` drew; `none` is its
`panic("unexpected type")`. -/
def queueDirEntry (r : AnnotatedResource) (draw : Fin 7) : Option ChildOp :=
  let priority : UInt8 := UInt8.ofNat (1 + draw.val)
  match r.stat.type with
  | .undefinedType => some (.publish .hashes r priority)
  | .fileType => some (.publish .files r priority)
  | .directoryType => some (.publish .directories r priority)
  | .unsupportedType => some (.indexInvalid r errUnsupportedType)
  | .partialType => none

/-- Entries of the four types a directory listing holds: the ones `queueDirEntry` dispatches. -/
def Listed (r : AnnotatedResource) : Prop := r.stat.type ≠ .partialType

theorem queueDirEntry_resource {r : AnnotatedResource} {d : Fin 7} {op : ChildOp}
    (h : queueDirEntry r d = some op) : op.resource = r := by
  unfold queueDirEntry at h
  split at h <;> cases h <;> rfl

theorem queueDirEntry_isSome {r : AnnotatedResource} (h : Listed r) (d : Fin 7) :
    (queueDirEntry r d).isSome := by
  unfold queueDirEntry
  split <;> simp_all [Listed]

/-- Every published entry gets a priority in `[1, 7]`. -/
theorem queueDirEntry_priority {r e : AnnotatedResource} {d : Fin 7} {q : QueueName}
    {p : UInt8} (h : queueDirEntry r d = some (.publish q e p)) :
    1 ≤ p.toNat ∧ p.toNat ≤ 7 := by
  have hp : (UInt8.ofNat (1 + d.val)).toNat = 1 + d.val :=
    Nat.mod_eq_of_lt (by omega)
  unfold queueDirEntry at h
  split at h <;> cases h <;> omega

/-- The result of a call that may fail or panic. -/
inductive Outcome
  | ok
  | error (e : Err)
  | panic
  deriving DecidableEq, Repr

/-- The state of `processDirEntries` between two iterations of its loop. -/
structure Consumer where
  dirCnt : UInt64
  isLarge : Bool
  links : List Link
  queued : List (ChildOp × Outcome)
  deriving DecidableEq, Repr

/-- Where a goroutine of `crawlDir` is: in its loop, about to report what it returned to the error
group, or finished. -/
inductive Phase
  | running
  | reporting (r : Option Err)
  | done
  deriving DecidableEq, Repr

namespace Consumer

/-- The variables before the first entry. -/
def init : Consumer := ⟨0, false, [], []⟩

/-- The large-directory check and `addLink`, once an entry has been received; `none` when
`addLink` panics. -/
def record (c : Consumer) (maxDirSize : UInt64) (e : AnnotatedResource) : Option Consumer :=
  let isLarge := c.isLarge || c.dirCnt == maxDirSize
  if isLarge then some { c with isLarge := true }
  else (addLink e c.links).map fun links => { c with links := links }

/-- What `processDirEntries` returns when its loop stops on `err`: the end-of-list sentinel is a
normal exit (`ErrDirectoryTooLarge` if the directory was large), anything else is returned. -/
def finish (c : Consumer) (err : Err) : Option Err :=
  if err.is .endOfLs then (if c.isLarge then some errDirectoryTooLarge else none) else some err

/-- One iteration of the loop on a received entry, given the random draw for its priority and the
outcome of the call `queueDirEntry` makes. Returns the variables after it, the goroutine's next
phase, and whether it panicked (the deferred `recover` in `crawlDir` then makes it return `nil`). -/
def receive (maxDirSize : UInt64) (childResult : ChildOp → Outcome) (c : Consumer)
    (e : AnnotatedResource) (d : Fin 7) : Consumer × Phase × Bool :=
  match c.record maxDirSize e with
  | none => (c, .reporting none, true)
  | some c' =>
    match queueDirEntry e d with
    | none => (c', .reporting none, true)
    | some op =>
      let c'' := { c' with queued := c'.queued ++ [(op, childResult op)] }
      match childResult op with
      | .ok => ({ c'' with dirCnt := c''.dirCnt + 1 }, .running, false)
      | .error err => ({ c'' with dirCnt := c''.dirCnt + 1 }, .reporting (c''.finish err), false)
      | .panic => (c'', .reporting none, true)

end Consumer

/-! ## The loop invariant -/

theorem uint64_toNat_add_one (a : UInt64) : (a + 1).toNat = (a.toNat + 1) % 2 ^ 64 := rfl

theorem uint64_beq_eq (a b : UInt64) : (a == b) = decide (a.toNat = b.toNat) := by
  by_cases h : a = b
  · simp [h]
  · have : a.toNat ≠ b.toNat := fun h' => h (UInt64.toNat.inj h')
    simp [h, this]

/-- The links `addLink` builds for a sequence of entries. -/
def dirLinks (es : List AnnotatedResource) : List Link :=
  es.filterMap fun e => (resourceToLinkType e.stat.type).map (entryLink e)

/-- An entry received and queued without error: `queueDirEntry` made the logged call for it, with
some draw, and the call succeeded. -/
def QueuedOk (e : AnnotatedResource) (q : ChildOp × Outcome) : Prop :=
  ∃ d, queueDirEntry e d = some q.1 ∧ q.2 = .ok

namespace Consumer

/-- The loop invariant of `processDirEntries` once the entries `es` have been received and queued
without error: `dirCnt` counts them (as a `uint`), the directory is large once more than
`MaxDirSize` were seen, its links are those of the first `MaxDirSize` entries, and
`queueDirEntry` was called once for each entry, in order. -/
structure Tracks (maxDirSize : UInt64) (es : List AnnotatedResource) (c : Consumer) : Prop where
  dirCnt : c.dirCnt.toNat = es.length % 2 ^ 64
  isLarge : c.isLarge = decide (maxDirSize.toNat < es.length)
  links : c.links = dirLinks (es.take maxDirSize.toNat)
  queued : List.Forall₂ QueuedOk es c.queued

theorem tracks_init (maxDirSize : UInt64) : Tracks maxDirSize [] init :=
  ⟨rfl, by simp [init], by simp [init, dirLinks], .nil⟩

/-- The large flag after one more entry: `dirCnt == MaxDirSize` is tested before the increment,
so the directory becomes large on entry `MaxDirSize + 1`. -/
theorem isLarge_step {M : UInt64} {es : List AnnotatedResource} {c : Consumer}
    (h : Tracks M es c) :
    (c.isLarge || c.dirCnt == M) = decide (M.toNat < es.length + 1) := by
  have hM := M.toNat_lt_size
  rw [h.isLarge, uint64_beq_eq, h.dirCnt]
  by_cases hlt : M.toNat < es.length
  · simp [hlt]
    omega
  · have : es.length % 2 ^ 64 = es.length := Nat.mod_eq_of_lt (by simp [UInt64.size] at hM; omega)
    simp [hlt, this]
    omega

/-- The large-directory check and `addLink` on one more entry, when `addLink` does not panic. -/
theorem Tracks.record_eq {M : UInt64} {es : List AnnotatedResource} {c c₁ : Consumer} {e : AnnotatedResource}
    (h : Tracks M es c) (hr : c.record M e = some c₁) :
    c₁.dirCnt = c.dirCnt ∧ c₁.queued = c.queued ∧ c₁.isLarge = decide (M.toNat < es.length + 1) ∧
      c₁.links = dirLinks ((es ++ [e]).take M.toNat) := by
  unfold Consumer.record at hr
  simp only [isLarge_step h] at hr
  by_cases hlt : M.toNat < es.length + 1
  · simp only [hlt, decide_True, if_true, Option.some.injEq] at hr
    subst hr
    refine ⟨rfl, rfl, by simp [hlt], ?_⟩
    rw [h.links, List.take_append_of_le_length (by omega)]
  · simp only [hlt, decide_False, Bool.false_eq_true, if_false, addLink, Option.map_map,
      Option.map_eq_some', Function.comp_apply] at hr
    obtain ⟨t, ht, rfl⟩ := hr
    refine ⟨rfl, rfl, by rw [h.isLarge]; simp; omega, ?_⟩
    rw [h.links, List.take_of_length_le (l := es) (by omega),
      List.take_of_length_le (l := es ++ [e]) (by simp; omega)]
    simp [dirLinks, List.filterMap_append, ht]

theorem Tracks.record {M : UInt64} {es : List AnnotatedResource} {c : Consumer}
    {e : AnnotatedResource} (h : Tracks M es c) (he : Listed e) :
    ∃ c', c.record M e = some c' ∧ c'.dirCnt = c.dirCnt ∧ c'.queued = c.queued ∧
      c'.isLarge = decide (M.toNat < es.length + 1) ∧
      c'.links = dirLinks ((es ++ [e]).take M.toNat) := by
  obtain ⟨c', hc'⟩ : ∃ c', c.record M e = some c' := by
    obtain ⟨t, ht⟩ : ∃ t, resourceToLinkType e.stat.type = some t := by
      unfold Listed at he
      cases hty : e.stat.type <;> simp_all [resourceToLinkType]
    unfold Consumer.record
    dsimp only
    split
    · exact ⟨_, rfl⟩
    · exact ⟨_, by simp [addLink, ht]; rfl⟩
  exact ⟨c', hc', h.record_eq hc'⟩

/-- One more entry through the loop keeps the invariant when its `queueDirEntry` call succeeds. -/
theorem Tracks.receive {M : UInt64} {es : List AnnotatedResource} {c : Consumer}
    {e : AnnotatedResource} {childResult : ChildOp → Outcome} (h : Tracks M es c)
    (he : Listed e) (hok : ∀ op, childResult op = .ok) (d : Fin 7) :
    ∃ c', c.receive M childResult e d = (c', .running, false) ∧ Tracks M (es ++ [e]) c' := by
  obtain ⟨c', hadm, hcnt, hq, hl, hlinks⟩ := h.record he
  obtain ⟨op, hop⟩ := Option.isSome_iff_exists.1 (queueDirEntry_isSome he d)
  refine ⟨{ c' with queued := c'.queued ++ [(op, childResult op)], dirCnt := c'.dirCnt + 1 },
    by simp [Consumer.receive, hadm, hop, hok], ?_⟩
  refine ⟨?_, by simpa using hl, hlinks, ?_⟩
  · simp only [uint64_toNat_add_one, hcnt, h.dirCnt, List.length_append, List.length_singleton]
    omega
  · rw [hq]
    exact List.rel_append h.queued (.cons ⟨d, hop, hok op⟩ .nil)

/-- At the end of the listing the loop returns `nil`, or `ErrDirectoryTooLarge` when more than
`MaxDirSize` entries were received. -/
theorem Tracks.finish_endOfLs {M : UInt64} {es : List AnnotatedResource} {c : Consumer}
    (h : Tracks M es c) :
    c.finish .endOfLs = if M.toNat < es.length then some errDirectoryTooLarge else none := by
  simp [Consumer.finish, h.isLarge]

/-! ## The loop on the entries received -/

/-- The loop of `processDirEntries` on entries received one after another, each with the draw for
its priority, until an iteration leaves it: the variables after it, the phase, and whether it
panicked. -/
def loop (M : UInt64) (childResult : ChildOp → Outcome) :
    Consumer → List (AnnotatedResource × Fin 7) → Consumer × Phase × Bool
  | c, [] => (c, .running, false)
  | c, (e, d) :: rest =>
    match c.receive M childResult e d with
    | (c', .running, _) => loop M childResult c' rest
    | r => r

variable {M : UInt64} {childResult : ChildOp → Outcome}

/-- What one iteration on a received entry can do: panic in `addLink`, panic in `queueDirEntry`,
or log the call `queueDirEntry` made and go on, return its error, or panic with it. -/
theorem receive_cases (c : Consumer) (e : AnnotatedResource) (d : Fin 7) :
    (c.record M e = none ∧ c.receive M childResult e d = (c, .reporting none, true)) ∨
    ∃ c₁, c.record M e = some c₁ ∧
      ((queueDirEntry e d = none ∧ c.receive M childResult e d = (c₁, .reporting none, true)) ∨
      ∃ op, queueDirEntry e d = some op ∧
        ((childResult op = .ok ∧ c.receive M childResult e d =
            ({ c₁ with queued := c₁.queued ++ [(op, .ok)], dirCnt := c₁.dirCnt + 1 }, .running,
              false)) ∨
          (∃ err, childResult op = .error err ∧ c.receive M childResult e d =
            ({ c₁ with queued := c₁.queued ++ [(op, .error err)], dirCnt := c₁.dirCnt + 1 },
              .reporting ({ c₁ with queued := c₁.queued ++ [(op, Outcome.error err)] }.finish err),
              false)) ∨
          (childResult op = .panic ∧ c.receive M childResult e d =
            ({ c₁ with queued := c₁.queued ++ [(op, .panic)] }, .reporting none, true)))) := by
  unfold receive
  cases hr : c.record M e with
  | none => exact .inl ⟨rfl, rfl⟩
  | some c₁ =>
    refine .inr ⟨c₁, rfl, ?_⟩
    cases hq : queueDirEntry e d with
    | none => exact .inl ⟨rfl, rfl⟩
    | some op =>
      refine .inr ⟨op, rfl, ?_⟩
      cases ho : childResult op with
      | ok => exact .inl ⟨rfl, by simp [ho]⟩
      | error err => exact .inr (.inl ⟨err, rfl, by simp [ho]⟩)
      | panic => exact .inr (.inr ⟨rfl, by simp [ho]⟩)

/-- An iteration that stays in the loop did not panic. -/
theorem receive_running {c : Consumer} {e : AnnotatedResource} {d : Fin 7}
    (h : (c.receive M childResult e d).2.1 = .running) : (c.receive M childResult e d).2.2 = false := by
  rcases @receive_cases M childResult c e d with
    ⟨-, he⟩ | ⟨c₁, -, ⟨-, he⟩ | ⟨op, -, ⟨-, he⟩ | ⟨err, -, he⟩ | ⟨-, he⟩⟩⟩ <;> simp_all

/-- One more entry for a loop that has not left. -/
theorem loop_append {e : AnnotatedResource} {d : Fin 7} :
    ∀ {c : Consumer} {rs : List (AnnotatedResource × Fin 7)},
      (c.loop M childResult rs).2.1 = .running →
      c.loop M childResult (rs ++ [(e, d)]) = (c.loop M childResult rs).1.receive M childResult e d
  | c, [], _ => by
    have := @receive_running M childResult c e d
    simp only [List.nil_append, loop]
    split <;> simp_all
  | c, (e', d') :: rs, h => by
    rcases hrec : c.receive M childResult e' d' with ⟨c', ph, p⟩
    cases ph <;> simp only [List.cons_append, loop, hrec] at h ⊢
    · exact loop_append h
    all_goals cases h

/-- When `addLink` panics, the entry adds no link: it has none. -/
theorem Tracks.record_none {es : List AnnotatedResource} {c : Consumer} {e : AnnotatedResource}
    (h : Tracks M es c) (hr : c.record M e = none) :
    c.links = dirLinks ((es ++ [e]).take M.toNat) := by
  unfold Consumer.record at hr
  simp only [isLarge_step h] at hr
  by_cases hlt : M.toNat < es.length + 1
  · simp [hlt] at hr
  · simp only [hlt, decide_False, Bool.false_eq_true, if_false, addLink, Option.map_eq_none'] at hr
    rw [h.links, List.take_of_length_le (l := es) (by omega),
      List.take_of_length_le (l := es ++ [e]) (by simp; omega)]
    simp [dirLinks, List.filterMap_append, hr]

/-- What a received entry does to the variables, whatever the call `queueDirEntry` makes returns:
the links are those of the first `MaxDirSize` entries, at most one call is logged, for that entry,
and the iteration stays in the loop only when that call was logged and succeeded, keeping the
invariant. -/
theorem Tracks.receive_any {es : List AnnotatedResource} {c : Consumer} (h : Tracks M es c)
    (e : AnnotatedResource) (d : Fin 7) :
    (c.receive M childResult e d).1.links = dirLinks ((es ++ [e]).take M.toNat) ∧
      (∃ qs, (c.receive M childResult e d).1.queued = c.queued ++ qs ∧ qs.length ≤ 1 ∧
        (∀ q ∈ qs, ∃ d, queueDirEntry e d = some q.1) ∧
        ((c.receive M childResult e d).2.1 = .running → qs.map Prod.snd = [.ok])) ∧
      ((c.receive M childResult e d).2.1 = .running →
        Tracks M (es ++ [e]) (c.receive M childResult e d).1) := by
  rcases @receive_cases M childResult c e d with
    ⟨hr, he⟩ | ⟨c₁, hr, ⟨-, he⟩ | ⟨op, hq, ⟨-, he⟩ | ⟨err, -, he⟩ | ⟨-, he⟩⟩⟩ <;> rw [he]
  · exact ⟨h.record_none hr, ⟨[], by simp, by simp, by simp, nofun⟩, nofun⟩
  all_goals obtain ⟨hcnt, hqd, hl, hlinks⟩ := h.record_eq hr
  · exact ⟨hlinks, ⟨[], by simp [hqd], by simp, by simp, nofun⟩, nofun⟩
  · refine ⟨hlinks, ⟨[(op, .ok)], by simp [hqd], by simp, by simpa using ⟨d, hq⟩, fun _ => rfl⟩,
      fun _ => ⟨?_, by simpa using hl, hlinks, ?_⟩⟩
    · simp only [uint64_toNat_add_one, hcnt, h.dirCnt, List.length_append, List.length_singleton]
      omega
    · rw [hqd]
      exact List.rel_append h.queued (.cons ⟨d, hq, rfl⟩ .nil)
  · exact ⟨hlinks, ⟨[(op, .error err)], by simp [hqd], by simp, by simpa using ⟨d, hq⟩, nofun⟩,
      nofun⟩
  · exact ⟨hlinks, ⟨[(op, .panic)], by simp [hqd], by simp, by simpa using ⟨d, hq⟩, nofun⟩, nofun⟩

/-- The loop on any entries, from a state that has taken `es` in order, all their calls
successful: the links are those of the first `MaxDirSize` entries among `es` and the entries the
loop took before leaving; every call logged is for an entry, in order, none twice, and none after
one that failed. -/
theorem Tracks.loop {es : List AnnotatedResource} {c : Consumer} (h : Tracks M es c)
    (rs : List (AnnotatedResource × Fin 7)) :
    ∃ k, (c.loop M childResult rs).1.links = dirLinks ((es ++ (rs.map Prod.fst).take k).take M.toNat) ∧
      ∃ qs, (c.loop M childResult rs).1.queued = c.queued ++ qs ∧
        qs.map (·.1.resource) <+: (rs.map Prod.fst).take k ∧
        (∀ q ∈ qs, ∃ d, queueDirEntry q.1.resource d = some q.1) ∧ ∀ q ∈ qs.dropLast, q.2 = .ok := by
  induction rs generalizing es c with
  | nil => exact ⟨0, by simp [Consumer.loop, h.links], [], by simp [Consumer.loop]⟩
  | cons x rest ih =>
    obtain ⟨e, d⟩ := x
    obtain ⟨hl, ⟨qs₁, hq₁, hlen, hop, hok⟩, htr⟩ := @Tracks.receive_any M childResult es c h e d
    have hop' : ∀ q ∈ qs₁, q.1.resource = e ∧ ∃ d, queueDirEntry q.1.resource d = some q.1 :=
      fun q hq =>
        let ⟨d, h⟩ := hop q hq
        ⟨queueDirEntry_resource h, d, (queueDirEntry_resource h).symm ▸ h⟩
    rcases hrec : c.receive M childResult e d with ⟨c', ph, p⟩
    rw [hrec] at hl hq₁ hok htr
    simp only at hl hq₁ hok htr
    cases ph with
    | running =>
      have hloop : c.loop M childResult ((e, d) :: rest) = c'.loop M childResult rest := by
        simp only [Consumer.loop, hrec]
      obtain ⟨q, rfl⟩ : ∃ q, qs₁ = [q] := by
        rcases qs₁ with _ | ⟨q, _ | _⟩
        exacts [absurd (hok rfl) nofun, ⟨q, rfl⟩, absurd hlen (by simp)]
      obtain ⟨k, hk, qs₂, hq₂, hpre, hop₂, hok₂⟩ := ih (htr rfl)
      obtain ⟨he, hq⟩ := hop' q (.head _)
      have hok₁ : q.2 = .ok := by simpa using hok rfl
      rw [hloop]
      refine ⟨k + 1, by rw [hk]; simp, q :: qs₂, by rw [hq₂, hq₁]; simp, by simpa [he] using hpre,
        ?_, ?_⟩
      · rintro q' (_ | ⟨_, hq'⟩)
        exacts [hq, hop₂ q' hq']
      · intro q' hq'
        rcases qs₂ with _ | ⟨x, xs⟩
        · simp at hq'
        · rcases List.mem_cons.1 hq' with rfl | hq'
          exacts [hok₁, hok₂ _ hq']
    | reporting r | done =>
      have hloop : c.loop M childResult ((e, d) :: rest) = c.receive M childResult e d := by
        simp only [Consumer.loop, hrec]
      rw [hloop, hrec]
      refine ⟨1, by simpa using hl, qs₁, hq₁, ?_, fun q hq => (hop' q hq).2, fun q hq => ?_⟩
      · rcases qs₁ with _ | ⟨q, _ | _⟩
        exacts [by simp, by simp [(hop' _ (.head _)).1], absurd hlen (by simp)]
      · have hnil : qs₁.dropLast = [] :=
          List.eq_nil_of_length_eq_zero (by rw [List.length_dropLast]; omega)
        rw [hnil] at hq
        cases hq

end Consumer

end IpfsSearch
