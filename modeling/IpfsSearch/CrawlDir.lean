import IpfsSearch.DirEntries
import Mathlib.Logic.Relation

/-!
# CrawlDir — the two goroutines of `crawlDir` and their error group

`crawlDir` runs two goroutines in an `errgroup` sharing a buffered `entries` channel of capacity
`DirEntryBufferSize`:

* the producer calls `protocol.Ls`, which sends entries and returns; its deferred calls then run
  (the `recover`, then `close(entries)`) and only after them does the group see its result;
* the consumer runs `processDirEntries` (`IpfsSearch.DirEntries`).

The group records the first non-nil result and cancels the shared context with it; `Wait`
returns that result, and `crawlDir` then re-raises any panic either goroutine recovered.

`DirStep env` is one atomic step of one goroutine. Every channel operation and every report to
the group is a step of its own, so the close of the channel and the producer's report are two
steps the consumer can run between. What `Ls` sends, how it returns, what each `queueDirEntry`
call returns, whether the per-entry timeout may fire and whether the caller may cancel its context
are fixed by `DirEnv`; the random draw for each priority is chosen by the step.

Over every run, whatever the collaborators do:

* `crawlDir_terminates` — no run is infinite, and `crawlDir_stuck_only_after_panic` — the only
  state that cannot move before `Wait` returns follows a swallowed panic;
* `crawlDir_consumer_runs_loop` — the consumer is `processDirEntries`' loop run alone on a prefix
  of the listing, so `crawlDir_links_capped` — the directory keeps at most `MaxDirSize` links, and
  the entries are queued in order, once each, none after a failed call;
* `crawlDir_error_origin` — the error `crawlDir` returns is one that started the failure, never
  the `context.Canceled` that follows it, unless the caller cancelled its context.
-/

namespace IpfsSearch

/-- What one run of `crawlDir` is given: the crawler's configuration, the entries `protocol.Ls`
sends and how it returns after them, the outcome of each call `queueDirEntry` makes, whether a
deadline may fire while the consumer waits (the per-entry `DirEntryTimeout`, or one of the
caller's context), and whether the caller may cancel its context during the call. Either event
may happen at any point of the call. -/
structure DirEnv where
  config : Config
  listing : List AnnotatedResource
  lsResult : Outcome
  childResult : ChildOp → Outcome
  timeouts : Bool
  cancels : Bool

/-- The goroutine running `protocol.Ls` and its deferred calls. -/
inductive Producer
  | listing (rest : List AnnotatedResource)
  | closing (r : Option Err)
  | reporting (r : Option Err)
  | done
  deriving DecidableEq, Repr

/-- The state of a `crawlDir` call: both goroutines, the channel, and the group's first error
(`g.err`; the shared context is cancelled once it is set), and `panicVar`. -/
structure DirState where
  producer : Producer
  consumer : Consumer
  phase : Phase
  buffer : List AnnotatedResource
  closed : Bool
  err : Option Err
  panicVar : Bool
  deriving DecidableEq, Repr

/-- What the producer's closure returns when `Ls` returns: its error, or `nil` after a recovered
panic. -/
def Outcome.returned : Outcome → Option Err
  | .ok => none
  | .error e => some e
  | .panic => none

/-- A call's outcome from its error (`nil` is success). -/
def Outcome.ofErr : Option Err → Outcome
  | none => .ok
  | some e => .error e

namespace DirState

/-- Both goroutines start; nothing has been sent. -/
def init (env : DirEnv) : DirState :=
  ⟨.listing env.listing, Consumer.init, .running, [], false, none, false⟩

/-- `Wait` has returned: both goroutines have reported. -/
def Terminal (s : DirState) : Prop := s.producer = .done ∧ s.phase = .done

/-- What `crawlDir` returns once `Wait` has: the group's first error, unless a recovered panic is
re-raised. -/
def result (s : DirState) : Outcome :=
  if s.panicVar then .panic else Outcome.ofErr s.err

/-- The consumer runs one iteration of its loop on the received entry `e`. -/
def deliver (env : DirEnv) (s : DirState) (e : AnnotatedResource) (d : Fin 7) : DirState :=
  let r := s.consumer.receive env.config.maxDirSize env.childResult e d
  { s with consumer := r.1, phase := r.2.1, panicVar := s.panicVar || r.2.2 }

section Deliver

variable (env : DirEnv) (s : DirState) (e : AnnotatedResource) (d : Fin 7)

@[simp] theorem deliver_producer : (s.deliver env e d).producer = s.producer := rfl
@[simp] theorem deliver_buffer : (s.deliver env e d).buffer = s.buffer := rfl
@[simp] theorem deliver_closed : (s.deliver env e d).closed = s.closed := rfl
@[simp] theorem deliver_err : (s.deliver env e d).err = s.err := rfl
@[simp] theorem deliver_consumer :
    (s.deliver env e d).consumer = (s.consumer.receive env.config.maxDirSize env.childResult e d).1 :=
  rfl
@[simp] theorem deliver_phase :
    (s.deliver env e d).phase =
      (s.consumer.receive env.config.maxDirSize env.childResult e d).2.1 := rfl
@[simp] theorem deliver_panicVar :
    (s.deliver env e d).panicVar =
      (s.panicVar || (s.consumer.receive env.config.maxDirSize env.childResult e d).2.2) := rfl

end Deliver

end DirState

/-- One step of one goroutine of `crawlDir`. -/
inductive DirStep (env : DirEnv) : DirState → DirState → Prop
  /-- `Ls` sends an entry into a channel with room. -/
  | send {s : DirState} {e : AnnotatedResource} {rest : List AnnotatedResource} :
      s.producer = .listing (e :: rest) →
      s.buffer.length < env.config.dirEntryBufferSize.toNat →
      DirStep env s { s with producer := .listing rest, buffer := s.buffer ++ [e] }
  /-- An empty channel hands the entry `Ls` sends straight to the waiting consumer. -/
  | handoff {s : DirState} {e : AnnotatedResource} {rest : List AnnotatedResource} (d : Fin 7) :
      s.producer = .listing (e :: rest) → s.buffer = [] → s.phase = .running →
      DirStep env s { s.deliver env e d with producer := .listing rest }
  /-- The consumer receives the oldest buffered entry and runs one iteration of its loop. -/
  | recv {s : DirState} {e : AnnotatedResource} {b : List AnnotatedResource} (d : Fin 7) :
      s.buffer = e :: b → s.phase = .running →
      DirStep env s { s.deliver env e d with buffer := b }
  /-- `Ls` sees the group's context cancelled, by the group's first error or by the caller, and
  returns `context.Canceled`. -/
  | abort {s : DirState} {rest : List AnnotatedResource} :
      s.producer = .listing rest → (s.err.isSome ∨ env.cancels = true) →
      DirStep env s { s with producer := .closing (some .canceled) }
  /-- `Ls` returns after its last entry; a panic is recovered into `panicVar`. -/
  | lsReturn {s : DirState} :
      s.producer = .listing [] →
      DirStep env s { s with producer := .closing env.lsResult.returned,
                             panicVar := s.panicVar || env.lsResult == .panic }
  /-- The deferred `close(entries)`. -/
  | close {s : DirState} {r : Option Err} :
      s.producer = .closing r →
      DirStep env s { s with producer := .reporting r, closed := true }
  /-- The producer's result reaches the group. -/
  | reportProducer {s : DirState} {r : Option Err} :
      s.producer = .reporting r →
      DirStep env s { s with producer := .done, err := s.err.or r }
  /-- The consumer finds the channel closed and drained: the end-of-list sentinel. -/
  | endOfList {s : DirState} :
      s.phase = .running → s.buffer = [] → s.closed →
      DirStep env s { s with phase := .reporting (s.consumer.finish .endOfLs) }
  /-- The consumer sees its context cancelled, by the group's first error or by the caller:
  `ctx.Err()` is `context.Canceled`. -/
  | cancelled {s : DirState} :
      s.phase = .running → (s.err.isSome ∨ env.cancels = true) →
      DirStep env s { s with phase := .reporting (s.consumer.finish .canceled) }
  /-- A deadline fires while the consumer waits: `ctx.Err()` is `context.DeadlineExceeded`. -/
  | timeout {s : DirState} :
      s.phase = .running → env.timeouts →
      DirStep env s { s with phase := .reporting (s.consumer.finish .deadlineExceeded) }
  /-- The consumer's result reaches the group. -/
  | reportConsumer {s : DirState} {r : Option Err} :
      s.phase = .reporting r →
      DirStep env s { s with phase := .done, err := s.err.or r }

/-- What a finished `crawlDir` call leaves behind: the `queueDirEntry` calls made, with their
outcomes, the links added to the directory, and what it returned (or that it re-raised a panic). -/
structure DirRun where
  queued : List (ChildOp × Outcome)
  links : List Link
  result : Outcome

/-- The run a terminal state describes. -/
def DirState.run (s : DirState) : DirRun := ⟨s.consumer.queued, s.consumer.links, s.result⟩

/-- The states a `crawlDir` call can reach. -/
def DirReachable (env : DirEnv) (s : DirState) : Prop :=
  Relation.ReflTransGen (DirStep env) (DirState.init env) s


/-! ## Runs in which every entry is handed over -/

section Handoff

variable {env : DirEnv}

/-- With every call succeeding, the consumer can take the entries straight from `Ls`, one by one,
keeping the loop invariant. -/
theorem handoff_all (hok : ∀ op, env.childResult op = .ok) :
    ∀ (es rest pre : List AnnotatedResource) (s : DirState), (∀ e ∈ es, Listed e) →
      s.producer = .listing (es ++ rest) → s.buffer = [] → s.phase = .running →
      Consumer.Tracks env.config.maxDirSize pre s.consumer →
      ∃ s', Relation.ReflTransGen (DirStep env) s s' ∧ s'.producer = .listing rest ∧
        s'.buffer = [] ∧ s'.phase = .running ∧
        Consumer.Tracks env.config.maxDirSize (pre ++ es) s'.consumer ∧
        s'.closed = s.closed ∧ s'.err = s.err ∧ s'.panicVar = s.panicVar
  | [], rest, pre, s, _, hp, hb, hph, ht => ⟨s, .refl, hp, hb, hph, by simpa using ht, rfl, rfl, rfl⟩
  | e :: es, rest, pre, s, hl, hp, hb, hph, ht => by
    obtain ⟨c', hrecv, ht'⟩ := ht.receive (hl e (List.mem_cons_self _ _)) hok 0
    have hstep : DirStep env s _ := DirStep.handoff 0 hp hb hph
    obtain ⟨s', hrun, h1, h2, h3, h4, h5, h6, h7⟩ :=
      handoff_all hok es rest (pre ++ [e]) { s.deliver env e 0 with producer := .listing (es ++ rest) }
        (fun x hx => hl x (List.mem_cons_of_mem _ hx)) rfl hb
        (by simp [DirState.deliver, hrecv]) (by simpa [DirState.deliver, hrecv] using ht')
    refine ⟨s', .head hstep hrun, h1, h2, h3, by simpa using h4, h5, h6, ?_⟩
    simp [h7, DirState.deliver, hrecv]

end Handoff

/-! ## The listing error hidden behind `ErrDirectoryTooLarge` -/

/-- When `Ls` sends more than `MaxDirSize` entries and then fails, there is a run in which the
consumer drains the closed channel and reports `ErrDirectoryTooLarge` between the producer's
`close(entries)` and the producer's own report, so `crawlDir` returns `ErrDirectoryTooLarge`
(an `InvalidResource`) instead of the listing error. -/
theorem crawlDir_too_large_hides_ls_error (env : DirEnv) (E : Err)
    (hls : env.lsResult = .error E) (hlisted : ∀ e ∈ env.listing, Listed e)
    (hok : ∀ op, env.childResult op = .ok)
    (hlarge : env.config.maxDirSize.toNat < env.listing.length) :
    ∃ s, DirReachable env s ∧ s.Terminal ∧ s.result = .error errDirectoryTooLarge := by
  obtain ⟨s, hrun, hp, hb, hph, ht, hcl, herr, hpv⟩ :=
    handoff_all hok env.listing [] [] (DirState.init env) hlisted (by simp [DirState.init]) rfl rfl
      (Consumer.tracks_init _)
  simp only [List.nil_append] at ht
  have hfin := ht.finish_endOfLs
  rw [if_pos hlarge] at hfin
  refine ⟨_, ((((hrun.tail (DirStep.lsReturn hp)).tail (DirStep.close rfl)).tail
    (DirStep.endOfList hph hb rfl)).tail (DirStep.reportConsumer rfl)).tail
    (DirStep.reportProducer rfl), ⟨rfl, rfl⟩, ?_⟩
  simp [DirState.result, hpv, herr, hfin, DirState.init, hls, Outcome.ofErr]

/-- A directory of one file whose listing fails after that entry, crawled with `MaxDirSize = 0`. -/
def oneEntryListingFails : DirEnv where
  config := ⟨1, 0, 0⟩
  listing := [⟨.ipfsProtocol, "QmFile", .directorySource, ⟨some "QmDir", "a"⟩, ⟨.fileType, 100⟩⟩]
  lsResult := .error (.other "ls failed")
  childResult := fun _ => .ok
  timeouts := false
  cancels := false

theorem oneEntryListingFails_too_large :
    (∀ e ∈ oneEntryListingFails.listing, Listed e) ∧
      (∀ op, oneEntryListingFails.childResult op = .ok) ∧
      oneEntryListingFails.config.maxDirSize.toNat < oneEntryListingFails.listing.length ∧
      ∃ s, DirReachable oneEntryListingFails s ∧ s.Terminal ∧
        s.result = .error errDirectoryTooLarge :=
  have hl : ∀ e ∈ oneEntryListingFails.listing, Listed e := by
    simp [oneEntryListingFails, Listed]
  ⟨hl, fun _ => rfl, by decide,
    crawlDir_too_large_hides_ls_error oneEntryListingFails (.other "ls failed") rfl hl
      (fun _ => rfl) (by decide)⟩

/-! ## A swallowed panic blocks the listing forever -/

section Deadlock

variable {env : DirEnv}

/-- While the channel has room, `Ls` can send entries without the consumer moving. -/
theorem send_all :
    ∀ (xs rest : List AnnotatedResource) (s : DirState), s.producer = .listing (xs ++ rest) →
      s.buffer.length + xs.length ≤ env.config.dirEntryBufferSize.toNat →
      Relation.ReflTransGen (DirStep env) s
        { s with producer := .listing rest, buffer := s.buffer ++ xs }
  | [], rest, s, hp, _ => by
    have : s = { s with producer := .listing rest, buffer := s.buffer ++ [] } := by
      cases s; simp_all
    exact this ▸ .refl
  | x :: xs, rest, s, hp, hlen => by
    have hstep : DirStep env s _ := DirStep.send hp (by simp at hlen; omega)
    have hrun := send_all xs rest { s with producer := .listing (xs ++ rest), buffer := s.buffer ++ [x] }
      rfl (by simp at hlen ⊢; omega)
    simpa using Relation.ReflTransGen.head hstep hrun

/-- When every call `queueDirEntry` makes for `e` panics, the consumer's iteration on `e` panics:
the `recover` makes it return `nil`. -/
theorem Consumer.receive_panics {M : UInt64} {childResult : ChildOp → Outcome} {c : Consumer}
    {e : AnnotatedResource} {d : Fin 7}
    (hpanic : ∀ op, queueDirEntry e d = some op → childResult op = .panic) :
    (c.receive M childResult e d).2 = (.reporting none, true) := by
  unfold Consumer.receive
  split
  · rfl
  · split
    · rfl
    · rename_i op hop
      simp [hpanic op hop]

/-- A consumer that panics on the first entry returns `nil` to the group, so the group's context
is never cancelled: when the caller does not cancel its own and `Ls` has more entries left than
the channel holds, `Ls` blocks on a send forever, and neither goroutine, nor `Wait`, ever moves
again. The recovered panic is never re-raised. -/
theorem crawlDir_consumer_panic_blocks_listing (e : AnnotatedResource)
    (rest : List AnnotatedResource) (hlisting : env.listing = e :: rest)
    (hpanic : ∀ d op, queueDirEntry e d = some op → env.childResult op = .panic)
    (hmore : env.config.dirEntryBufferSize.toNat < rest.length) (hnc : env.cancels = false) :
    ∃ s, DirReachable env s ∧ ¬s.Terminal ∧ s.panicVar = true ∧ ∀ s', ¬DirStep env s s' := by
  set cap := env.config.dirEntryBufferSize.toNat
  have hrecv := Consumer.receive_panics (M := env.config.maxDirSize) (c := Consumer.init)
    (hpanic 0)
  have s1 := @DirStep.handoff env (DirState.init env) e rest 0
    (by simp [DirState.init, hlisting]) rfl rfl
  obtain ⟨s, hrun, hprod, hbuf, hph, herr, hpv⟩ : ∃ s, DirReachable env s ∧
      s.producer = .listing (rest.drop cap) ∧ s.buffer.length = cap ∧ s.phase = .done ∧
      s.err = none ∧ s.panicVar = true :=
    ⟨_, ((Relation.ReflTransGen.single s1).tail
        (DirStep.reportConsumer (r := none) (by simp [DirState.init, hrecv]))).trans
        (send_all (rest.take cap) (rest.drop cap) _ (by simp) (by simp [DirState.init])),
      rfl, by simp [DirState.init]; omega, rfl, by simp [DirState.init],
      by simp [DirState.init, hrecv]⟩
  refine ⟨s, hrun, fun h => by simp [h.1] at hprod, hpv, fun s' h => ?_⟩
  -- the channel is full, the consumer is gone, nothing was reported, and `Ls` has entries left
  cases h <;> simp_all
  omega

/-- A file entry of the directory `QmDir`. -/
def fileEntry (id name : String) : AnnotatedResource :=
  ⟨.ipfsProtocol, id, .directorySource, ⟨some "QmDir", name⟩, ⟨.fileType, 1⟩⟩

/-- A directory of two files listed through an unbuffered channel, whose first `queueDirEntry`
call panics. -/
def firstEntryPanics : DirEnv where
  config := ⟨0, 0, 10⟩
  listing := [fileEntry "QmA" "a", fileEntry "QmB" "b"]
  lsResult := .ok
  childResult := fun _ => .panic
  timeouts := false
  cancels := false

theorem firstEntryPanics_blocks :
    firstEntryPanics.listing = fileEntry "QmA" "a" :: [fileEntry "QmB" "b"] ∧
      (∀ d op, queueDirEntry (fileEntry "QmA" "a") d = some op →
        firstEntryPanics.childResult op = .panic) ∧
      firstEntryPanics.config.dirEntryBufferSize.toNat < [fileEntry "QmB" "b"].length ∧
      firstEntryPanics.cancels = false ∧
      ∃ s, DirReachable firstEntryPanics s ∧ ¬s.Terminal ∧ s.panicVar = true ∧
        ∀ s', ¬DirStep firstEntryPanics s s' :=
  ⟨rfl, fun _ _ _ => rfl, by decide, rfl,
    crawlDir_consumer_panic_blocks_listing _ _ rfl (fun _ _ _ => rfl) (by decide) rfl⟩

end Deadlock

/-! ## No step is lost but to a swallowed panic -/

section Progress

variable {env : DirEnv}

/-- The channel is closed exactly once the producer is past `close(entries)`, and a consumer that
left its loop without panicking returned an error, saw the group's error, or saw the channel
closed. -/
structure DirInv (s : DirState) : Prop where
  closed : s.closed = true ↔ (∃ r, s.producer = .reporting r) ∨ s.producer = .done
  leftLoop : s.phase ≠ .running →
    (∃ e, s.phase = .reporting (some e)) ∨ s.err.isSome ∨ s.closed ∨ s.panicVar

/-- A consumer iteration that leaves the loop without panicking returns an error, as long as
`queueDirEntry`'s errors are never the end-of-list sentinel. -/
theorem Consumer.receive_leaves {M : UInt64} {childResult : ChildOp → Outcome} {c : Consumer}
    {e : AnnotatedResource} {d : Fin 7}
    (hsent : ∀ op err, childResult op = .error err → err.is .endOfLs = false)
    (h : (c.receive M childResult e d).2.1 ≠ .running) :
    (∃ err, (c.receive M childResult e d).2.1 = .reporting (some err)) ∨
      (c.receive M childResult e d).2.2 = true := by
  unfold Consumer.receive at h ⊢
  split
  · simp
  · split
    · simp
    · rename_i op _
      split
      · simp_all
      · rename_i err herr
        simp [Consumer.finish, hsent op err herr]
      · simp

theorem DirInv.init : DirInv (DirState.init env) :=
  ⟨by simp [DirState.init], by simp [DirState.init]⟩

theorem DirInv.step (hsent : ∀ op err, env.childResult op = .error err → err.is .endOfLs = false)
    {s s' : DirState} (hi : DirInv s) (h : DirStep env s s') : DirInv s' := by
  cases h with
  | send hp _ => exact ⟨by simpa [hp] using hi.closed, by simpa using hi.leftLoop⟩
  | handoff d hp _ _ =>
    refine ⟨by simpa [hp] using hi.closed, fun hne => ?_⟩
    rcases Consumer.receive_leaves hsent hne with h | h <;> simp_all
  | recv d _ _ =>
    refine ⟨by simpa using hi.closed, fun hne => ?_⟩
    rcases Consumer.receive_leaves hsent hne with h | h <;> simp_all
  | abort hp _ => exact ⟨by simpa [hp] using hi.closed, by simpa using hi.leftLoop⟩
  | lsReturn hp =>
    refine ⟨by simpa [hp] using hi.closed, fun hne => ?_⟩
    rcases hi.leftLoop hne with h | h | h | h <;> simp_all
  | close hp => exact ⟨by simp, fun _ => by simp⟩
  | reportProducer hp =>
    refine ⟨by simp [hi.closed.2 (.inl ⟨_, hp⟩)], fun hne => ?_⟩
    rcases hi.leftLoop hne with h | h | h | h <;> simp_all [Option.isSome_or]
  | endOfList _ _ hc => exact ⟨by simpa using hi.closed, fun _ => by simp [hc]⟩
  | cancelled _ _ | timeout _ _ =>
    exact ⟨by simpa using hi.closed, fun _ => by simp [Consumer.finish, Err.is]⟩
  | reportConsumer hph =>
    refine ⟨by simpa using hi.closed, fun _ => ?_⟩
    rcases hi.leftLoop (by simp [hph]) with ⟨e, he⟩ | h | h | h
    · obtain rfl := Phase.reporting.inj (he.symm.trans hph)
      simp
    · simp [Option.isSome_or, h]
    · simp [h]
    · simp [h]

/-- In a `crawlDir` call that has not returned, some goroutine can always move unless a panic was
recovered: the only state with no step is the one where `Ls` blocks on a full channel after the
consumer left without reporting an error. -/
theorem DirInv.panicVar_of_stuck {s : DirState} (hi : DirInv s) (hnt : ¬s.Terminal)
    (hstuck : ∀ s', ¬DirStep env s s') : s.panicVar = true := by
  cases hp : s.producer with
  | listing rest =>
    cases rest with
    | nil => exact (hstuck _ (.lsReturn hp)).elim
    | cons x rest =>
      cases hph : s.phase with
      | running =>
        cases hb : s.buffer with
        | nil => exact (hstuck _ (.handoff 0 hp hb hph)).elim
        | cons e b => exact (hstuck _ (.recv 0 hb hph)).elim
      | reporting r => exact (hstuck _ (.reportConsumer hph)).elim
      | done =>
        rcases hi.leftLoop (by simp [hph]) with ⟨e, he⟩ | he | hc | hpv
        · simp [hph] at he
        · exact (hstuck _ (.abort hp (.inl he))).elim
        · rcases hi.closed.1 hc with ⟨r, hr⟩ | hr <;> simp [hp] at hr
        · exact hpv
  | closing r => exact (hstuck _ (.close hp)).elim
  | reporting r => exact (hstuck _ (.reportProducer hp)).elim
  | done =>
    cases hph : s.phase with
    | running =>
      cases hb : s.buffer with
      | nil => exact (hstuck _ (.endOfList hph hb (hi.closed.2 (.inr hp)))).elim
      | cons e b => exact (hstuck _ (.recv 0 hb hph)).elim
    | reporting r => exact (hstuck _ (.reportConsumer hph)).elim
    | done => exact (hnt ⟨hp, hph⟩).elim

theorem DirInv.of_reachable (hsent : ∀ op err, env.childResult op = .error err → err.is .endOfLs = false)
    {s : DirState} (h : DirReachable env s) : DirInv s := by
  induction h with
  | refl => exact DirInv.init
  | tail _ hst ih => exact ih.step hsent hst

/-- Every reachable state of a `crawlDir` call that has neither returned nor can move has
recovered a panic (which `crawlDir` never re-raises, as `Wait` never returns). -/
theorem crawlDir_stuck_only_after_panic
    (hsent : ∀ op err, env.childResult op = .error err → err.is .endOfLs = false)
    {s : DirState} (h : DirReachable env s) (hnt : ¬s.Terminal)
    (hstuck : ∀ s', ¬DirStep env s s') : s.panicVar = true :=
  (DirInv.of_reachable hsent h).panicVar_of_stuck hnt hstuck

/-- The consumer panics on the first entry and reports `nil`; `Ls` blocks on the unbuffered
channel: nothing can move, after a recovered panic. -/
theorem firstEntryPanics_stuck : ∃ s, DirReachable firstEntryPanics s ∧ ¬s.Terminal ∧
    (∀ s', ¬DirStep firstEntryPanics s s') ∧ s.panicVar = true := by
  have hsent : ∀ op err, firstEntryPanics.childResult op = .error err → err.is .endOfLs = false :=
    fun _ _ h => nomatch h
  obtain ⟨s, h, hnt, hstuck⟩ : ∃ s, DirReachable firstEntryPanics s ∧ ¬s.Terminal ∧
      ∀ s', ¬DirStep firstEntryPanics s s' := by
    refine ⟨_, .head (DirStep.handoff 0 rfl rfl rfl) (.head (DirStep.reportConsumer rfl) .refl),
      (fun h => nomatch h.1), fun s' h => ?_⟩
    cases h <;> simp_all [firstEntryPanics, DirState.init]
  exact ⟨s, h, hnt, hstuck, crawlDir_stuck_only_after_panic hsent h hnt hstuck⟩

/-- Steps left to a goroutine of `crawlDir` before it has reported. -/
def Producer.weight : Producer → Nat
  | .listing rest => 2 * rest.length + 3
  | .closing _ => 2
  | .reporting _ => 1
  | .done => 0

def Phase.weight : Phase → Nat
  | .running => 2
  | .reporting _ => 1
  | .done => 0

/-- A bound on the number of steps a `crawlDir` call can still take. -/
def DirState.measure (s : DirState) : Nat :=
  s.producer.weight + s.buffer.length + s.phase.weight

theorem Phase.weight_le (p : Phase) : p.weight ≤ 2 := by
  cases p <;> simp [Phase.weight]

/-- Every step makes progress: no run of `crawlDir` is infinite. -/
theorem DirStep.measure_lt {s s' : DirState} (h : DirStep env s s') : s'.measure < s.measure := by
  cases h with
  | send hp _ => simp [DirState.measure, Producer.weight, hp]; omega
  | handoff d hp hb hph =>
    rename_i e _
    have := Phase.weight_le (s.consumer.receive env.config.maxDirSize env.childResult e d).2.1
    have h2 : s.phase.weight = 2 := by simp [hph, Phase.weight]
    simp [DirState.measure, Producer.weight, hp, hb]; omega
  | recv d hb hph =>
    rename_i e _
    have := Phase.weight_le (s.consumer.receive env.config.maxDirSize env.childResult e d).2.1
    have h2 : s.phase.weight = 2 := by simp [hph, Phase.weight]
    simp [DirState.measure, hb]; omega
  | abort hp _ => simp [DirState.measure, Producer.weight, hp]
  | lsReturn hp => simp [DirState.measure, Producer.weight, hp]
  | close hp => simp [DirState.measure, Producer.weight, hp]
  | reportProducer hp => simp [DirState.measure, Producer.weight, hp]
  | endOfList hph _ _ => simp [DirState.measure, Phase.weight, hph]
  | cancelled hph _ => simp [DirState.measure, Phase.weight, hph]
  | timeout hph _ => simp [DirState.measure, Phase.weight, hph]
  | reportConsumer hph => simp [DirState.measure, Phase.weight, hph]

/-- No run of `crawlDir` is infinite, whatever `Ls` sends, however it and each `queueDirEntry`
call return, and whether or not a deadline fires or the caller cancels. -/
theorem crawlDir_terminates : WellFounded fun s' s => DirStep env s s' :=
  Subrelation.wf (fun h => DirStep.measure_lt h) (measure DirState.measure).wf

end Progress

/-! ## A complete listing -/

/-- What `Ls` still has to send. -/
def Producer.pending : Producer → List AnnotatedResource
  | .listing rest => rest
  | _ => []

/-- What `crawlDir` should return for the complete listing `es`: `ErrDirectoryTooLarge` past
`MaxDirSize` entries, `nil` otherwise. -/
def listingResult (maxDirSize : UInt64) (es : List AnnotatedResource) : Option Err :=
  if maxDirSize.toNat < es.length then some errDirectoryTooLarge else none

/-- The invariant of a `crawlDir` call in which every call succeeds, no deadline fires, the caller
does not cancel, and `Ls` sends `env.listing` and returns `nil`; `consumed` are the entries the
consumer has taken. -/
structure ListingInv (env : DirEnv) (consumed : List AnnotatedResource) (s : DirState) : Prop where
  split : consumed ++ s.buffer ++ s.producer.pending = env.listing
  tracks : Consumer.Tracks env.config.maxDirSize consumed s.consumer
  noPanic : s.panicVar = false
  lsNil : ∀ r, s.producer = .closing r ∨ s.producer = .reporting r → r = none
  closed : s.closed = true ↔ (∃ r, s.producer = .reporting r) ∨ s.producer = .done
  running : s.phase = .running → s.err = none
  drained : s.phase ≠ .running → s.closed = true ∧ s.buffer = [] ∧ consumed = env.listing
  reporting : ∀ r, s.phase = .reporting r →
    r = listingResult env.config.maxDirSize env.listing ∧ s.err = none
  done : s.phase = .done → s.err = listingResult env.config.maxDirSize env.listing

section Listing

variable {env : DirEnv} (hlisted : ∀ e ∈ env.listing, Listed e)
  (hok : ∀ op, env.childResult op = .ok) (hls : env.lsResult = .ok) (hnt : env.timeouts = false)
  (hnc : env.cancels = false)

/-- Until `Ls` closes the channel, the consumer is running. -/
theorem ListingInv.running_of_open {consumed : List AnnotatedResource} {s : DirState}
    (hi : ListingInv env consumed s) (hp : (∀ r, s.producer ≠ .reporting r) ∧ s.producer ≠ .done) :
    s.phase = .running := by
  by_contra hph
  rcases hi.closed.1 (hi.drained hph).1 with ⟨r, hr⟩ | hr
  exacts [hp.1 r hr, hp.2 hr]

include hlisted hok in
/-- The consumer takes one more entry of the listing. -/
theorem ListingInv.deliver {consumed rest : List AnnotatedResource} {s : DirState}
    {e : AnnotatedResource} (hi : ListingInv env consumed s)
    (hsplit : consumed ++ [e] ++ rest = env.listing) (d : Fin 7) :
    ∃ c', s.consumer.receive env.config.maxDirSize env.childResult e d = (c', .running, false) ∧
      Consumer.Tracks env.config.maxDirSize (consumed ++ [e]) c' :=
  hi.tracks.receive (hlisted e (by rw [← hsplit]; simp)) hok d

include hlisted hok hls hnt hnc in
theorem ListingInv.step {consumed : List AnnotatedResource} {s s' : DirState}
    (hi : ListingInv env consumed s) (h : DirStep env s s') :
    ∃ consumed', ListingInv env consumed' s' := by
  cases h with
  | send hp _ =>
    refine ⟨consumed, ⟨?_, hi.tracks, hi.noPanic, by simp, ?_, hi.running, ?_, hi.reporting,
      hi.done⟩⟩
    · simpa [Producer.pending, hp] using hi.split
    · simpa [hp] using hi.closed
    · simp [hi.running_of_open (by simp [hp])]
  | handoff d hp hb hph =>
    rename_i e rest
    obtain ⟨c', hrecv, ht⟩ := hi.deliver hlisted hok
      (by simpa [Producer.pending, hp, hb] using hi.split) d
    refine ⟨consumed ++ [e], ⟨?_, by simpa [hrecv] using ht, by simp [hrecv, hi.noPanic],
      by simp, by simpa [hp] using hi.closed, fun _ => by simpa using hi.running hph,
      by simp [hrecv], by simp [hrecv], by simp [hrecv]⟩⟩
    simpa [Producer.pending, hp, hb] using hi.split
  | recv d hb hph =>
    rename_i e b
    have hsplit : consumed ++ [e] ++ (b ++ s.producer.pending) = env.listing := by
      simpa [hb] using hi.split
    obtain ⟨c', hrecv, ht⟩ := hi.deliver hlisted hok hsplit d
    refine ⟨consumed ++ [e], ⟨?_, by simpa [hrecv] using ht, by simp [hrecv, hi.noPanic],
      hi.lsNil, by simpa using hi.closed, fun _ => by simpa using hi.running hph,
      by simp [hrecv], by simp [hrecv], by simp [hrecv]⟩⟩
    simpa [hb] using hi.split
  | abort hp he => simp [hi.running (hi.running_of_open (by simp [hp])), hnc] at he
  | lsReturn hp =>
    have hnr := hi.running_of_open (by simp [hp])
    refine ⟨consumed, ⟨?_, hi.tracks, by simp [hi.noPanic, hls], by simp [hls, Outcome.returned],
      ?_, hi.running, by simp [hnr], by simp [hnr], by simp [hnr]⟩⟩
    · simpa [Producer.pending, hp] using hi.split
    · simpa [hp] using hi.closed
  | close hp =>
    have hnr := hi.running_of_open (by simp [hp])
    refine ⟨consumed, ⟨?_, hi.tracks, hi.noPanic, ?_, by simp, hi.running, by simp [hnr],
      by simp [hnr], by simp [hnr]⟩⟩
    · simpa [Producer.pending, hp] using hi.split
    · simpa using hi.lsNil _ (.inl hp)
  | reportProducer hp =>
    have hr := hi.lsNil _ (.inr hp)
    subst hr
    refine ⟨consumed, ⟨?_, hi.tracks, hi.noPanic, by simp,
      by simp [hi.closed.2 (.inl ⟨_, hp⟩)], ?_, ?_, ?_, ?_⟩⟩
    · simpa [Producer.pending, hp] using hi.split
    · simpa using hi.running
    · simpa [hi.closed.2 (.inl ⟨_, hp⟩)] using hi.drained
    · simpa using hi.reporting
    · simpa using hi.done
  | endOfList hph hb hc =>
    have hpend : s.producer.pending = [] := by
      rcases hi.closed.1 hc with ⟨r, hr⟩ | hr <;> simp [hr, Producer.pending]
    have hall : consumed = env.listing := by simpa [hb, hpend] using hi.split
    refine ⟨consumed, ⟨hi.split, hi.tracks, hi.noPanic, hi.lsNil, hi.closed, by simp,
      fun _ => ⟨hc, hb, hall⟩, ?_, by simp⟩⟩
    intro r hr
    simp only [Phase.reporting.injEq] at hr
    rw [← hr, hi.tracks.finish_endOfLs, hall]
    exact ⟨rfl, hi.running hph⟩
  | cancelled hph he => simp [hi.running hph, hnc] at he
  | timeout _ ht => simp [hnt] at ht
  | reportConsumer hph =>
    rename_i r
    obtain ⟨hr, herr⟩ := hi.reporting r hph
    refine ⟨consumed, ⟨hi.split, hi.tracks, hi.noPanic, hi.lsNil, hi.closed, by simp,
      fun _ => hi.drained (by simp [hph]), by simp, by simp [herr, hr]⟩⟩

theorem ListingInv.init : ListingInv env [] (DirState.init env) :=
  ⟨by simp [DirState.init, Producer.pending], Consumer.tracks_init _, rfl,
    by simp [DirState.init], by simp [DirState.init], fun _ => rfl, by simp [DirState.init],
    by simp [DirState.init], by simp [DirState.init]⟩

include hlisted hok hls hnt hnc in
theorem ListingInv.of_reachable {s : DirState} (h : DirReachable env s) :
    ∃ consumed, ListingInv env consumed s := by
  induction h with
  | refl => exact ⟨[], ListingInv.init⟩
  | tail _ hst ih =>
    obtain ⟨consumed, hi⟩ := ih
    exact hi.step hlisted hok hls hnt hnc hst

end Listing

/-! ## Whatever happens, the consumer runs its loop on a prefix of the listing -/

section Received

variable {env : DirEnv}

/-- The entries the consumer has received, each with its draw: followed by those still buffered
and those `Ls` has still to send, they are a prefix of the listing; the consumer's variables are
those its loop leaves on them, and its loop has not left while its goroutine runs. -/
def DirState.Received (env : DirEnv) (s : DirState) (rs : List (AnnotatedResource × Fin 7)) :
    Prop :=
  rs.map Prod.fst ++ s.buffer ++ s.producer.pending <+: env.listing ∧
    (Consumer.init.loop env.config.maxDirSize env.childResult rs).1 = s.consumer ∧
    (s.phase = .running →
      (Consumer.init.loop env.config.maxDirSize env.childResult rs).2.1 = .running)

theorem DirState.Received.init : (DirState.init env).Received env [] :=
  ⟨by simp [DirState.init, Producer.pending], rfl, fun _ => rfl⟩

/-- The consumer takes `e`, the next entry, into its loop. -/
theorem DirState.Received.deliver {s : DirState} {rs : List (AnnotatedResource × Fin 7)}
    (hi : s.Received env rs) (hph : s.phase = .running) (e : AnnotatedResource) (d : Fin 7) :
    (Consumer.init.loop env.config.maxDirSize env.childResult (rs ++ [(e, d)])).1 =
        (s.deliver env e d).consumer ∧
      ((s.deliver env e d).phase = .running →
        (Consumer.init.loop env.config.maxDirSize env.childResult (rs ++ [(e, d)])).2.1 = .running) := by
  rw [Consumer.loop_append (hi.2.2 hph), hi.2.1]
  exact ⟨rfl, id⟩

theorem DirState.Received.step {s s' : DirState} {rs : List (AnnotatedResource × Fin 7)}
    (hi : s.Received env rs) (h : DirStep env s s') : ∃ rs', s'.Received env rs' := by
  obtain ⟨hpre, hcons, hrun⟩ := hi
  cases h with
  | send hp _ => exact ⟨rs, by simpa [Producer.pending, hp] using hpre, hcons, hrun⟩
  | handoff d hp hb hph =>
    rename_i e _
    obtain ⟨h1, h2⟩ := DirState.Received.deliver ⟨hpre, hcons, hrun⟩ hph e d
    exact ⟨rs ++ [(e, d)], by simpa [Producer.pending, hp, hb] using hpre, h1, h2⟩
  | recv d hb hph =>
    rename_i e _
    obtain ⟨h1, h2⟩ := DirState.Received.deliver ⟨hpre, hcons, hrun⟩ hph e d
    exact ⟨rs ++ [(e, d)], by simpa [hb] using hpre, h1, h2⟩
  | abort hp _ =>
    refine ⟨rs, List.IsPrefix.trans ?_ hpre, hcons, hrun⟩
    simp [Producer.pending, hp]
  | lsReturn hp | close hp | reportProducer hp =>
    exact ⟨rs, by simpa [Producer.pending, hp] using hpre, hcons, hrun⟩
  | endOfList hph _ _ | cancelled hph _ | timeout hph _ | reportConsumer hph =>
    exact ⟨rs, hpre, hcons, by simp⟩

theorem DirState.Received.of_reachable {s : DirState} (h : DirReachable env s) :
    ∃ rs, s.Received env rs := by
  induction h with
  | refl => exact ⟨[], DirState.Received.init⟩
  | tail _ hs ih =>
    obtain ⟨rs, hi⟩ := ih
    exact hi.step hs

/-- Whatever `Ls` sends and however it returns, whatever each `queueDirEntry` call returns, and
whenever a deadline, the caller or the group's cancellation fires, in every state of a `crawlDir` call the
entries the consumer received, then those still in the channel, are a prefix of what `Ls` sent, in
order, and the consumer's variables are those `processDirEntries`' loop leaves when run alone on
the entries it received: the channel loses, repeats and reorders nothing. -/
theorem crawlDir_consumer_runs_loop {s : DirState} (h : DirReachable env s) :
    ∃ rs : List (AnnotatedResource × Fin 7), rs.map Prod.fst ++ s.buffer <+: env.listing ∧
      s.consumer = (Consumer.init.loop env.config.maxDirSize env.childResult rs).1 :=
  let ⟨rs, hpre, hcons, _⟩ := DirState.Received.of_reachable h
  ⟨rs, (List.prefix_append _ _).trans hpre, hcons.symm⟩

/-- Whatever happens in a `crawlDir` call, in every state the directory holds at most
`MaxDirSize` links, those of the first `MaxDirSize` entries of a prefix of the listing; the calls
`queueDirEntry` made are for the entries of that prefix, in order and none twice, each dispatched
by the entry's type, and none was made after one that failed. -/
theorem crawlDir_links_capped {s : DirState} (h : DirReachable env s) :
    s.consumer.links.length ≤ env.config.maxDirSize.toNat ∧
      ∃ es, es <+: env.listing ∧ s.consumer.links = dirLinks (es.take env.config.maxDirSize.toNat) ∧
        s.consumer.queued.map (·.1.resource) <+: es ∧
        (∀ q ∈ s.consumer.queued, ∃ d, queueDirEntry q.1.resource d = some q.1) ∧
        ∀ q ∈ s.consumer.queued.dropLast, q.2 = .ok := by
  obtain ⟨rs, hpre, hcons, -⟩ := DirState.Received.of_reachable h
  obtain ⟨k, hk, qs, hq, hqpre, hop, hok⟩ := @Consumer.Tracks.loop env.config.maxDirSize
    env.childResult [] Consumer.init (Consumer.tracks_init _) rs
  rw [← hcons]
  rw [List.nil_append] at hk
  rw [show Consumer.init.queued = [] from rfl, List.nil_append] at hq
  have hes : (rs.map Prod.fst).take k <+: env.listing :=
    (List.take_prefix _ _).trans ((List.prefix_append _ _).trans
      ((List.prefix_append _ _).trans hpre))
  refine ⟨?_, _, hes, hk, by simpa [hq] using hqpre, by simpa [hq] using hop,
    by simpa [hq] using hok⟩
  rw [hk]
  exact (List.length_filterMap_le _ _).trans (List.length_take_le _ _)

/-- A directory of a file, a subdirectory and a file, listed through a one-entry channel with
`MaxDirSize = 1`; publishing to the directories queue fails. -/
def subdirPublishFails : DirEnv where
  config := ⟨1, 0, 1⟩
  listing := [fileEntry "QmA" "a",
    ⟨.ipfsProtocol, "QmB", .directorySource, ⟨some "QmDir", "b"⟩, ⟨.directoryType, 0⟩⟩,
    fileEntry "QmC" "c"]
  lsResult := .ok
  childResult := fun
    | .publish .directories _ _ => .error (.other "publish failed")
    | _ => .ok
  timeouts := false
  cancels := false

/-- The first file is handed over, the subdirectory is buffered and received, and its publish
fails: two calls made, one link kept. -/
theorem subdirPublishFails_reachable : ∃ s, DirReachable subdirPublishFails s ∧
    s.consumer.queued.length = 2 ∧ s.consumer.links.length = 1 :=
  ⟨_, .head (DirStep.handoff 0 rfl rfl rfl) (.head (DirStep.send rfl (by decide))
    (.head (DirStep.recv 0 rfl rfl) .refl)), rfl, rfl⟩

theorem subdirPublishFails_runs_loop : ∃ s, DirReachable subdirPublishFails s ∧
    s.consumer.queued.length = 2 ∧
    ∃ rs : List (AnnotatedResource × Fin 7), rs.map Prod.fst ++ s.buffer <+: subdirPublishFails.listing ∧
      s.consumer = (Consumer.init.loop subdirPublishFails.config.maxDirSize
        subdirPublishFails.childResult rs).1 :=
  let ⟨s, hs, hq, _⟩ := subdirPublishFails_reachable
  ⟨s, hs, hq, crawlDir_consumer_runs_loop hs⟩

theorem subdirPublishFails_capped : ∃ s, DirReachable subdirPublishFails s ∧
    s.consumer.queued.length = 2 ∧
    s.consumer.links.length ≤ subdirPublishFails.config.maxDirSize.toNat ∧
      ∃ es, es <+: subdirPublishFails.listing ∧
        s.consumer.links = dirLinks (es.take subdirPublishFails.config.maxDirSize.toNat) ∧
        s.consumer.queued.map (·.1.resource) <+: es ∧
        (∀ q ∈ s.consumer.queued, ∃ d, queueDirEntry q.1.resource d = some q.1) ∧
        ∀ q ∈ s.consumer.queued.dropLast, q.2 = .ok :=
  let ⟨s, hs, hq, _⟩ := subdirPublishFails_reachable
  ⟨s, hs, hq, crawlDir_links_capped hs⟩

end Received

/-! ## What a `crawlDir` call can return -/

section Returns

variable {env : DirEnv}

/-- An error that can start a `crawlDir` call's failure: `Ls`'s own, one a `queueDirEntry` call
returned, `ErrDirectoryTooLarge`, a deadline when one may fire, or `context.Canceled` when the
caller may cancel. -/
def DirEnv.Origin (env : DirEnv) (e : Err) : Prop :=
  env.lsResult = .error e ∨ (∃ op, env.childResult op = .error e) ∨ e = errDirectoryTooLarge ∨
    (e = .deadlineExceeded ∧ env.timeouts = true) ∨ (e = .canceled ∧ env.cancels = true)

/-- What a goroutine may report in `s`: nothing, an error with an origin, or `context.Canceled`
once the group has recorded an error. -/
def DirState.Reportable (env : DirEnv) (s : DirState) (r : Option Err) : Prop :=
  ∀ e, r = some e → env.Origin e ∨ (e = .canceled ∧ s.err.isSome)

/-- The group's first error has an origin, and each goroutine is about to report what it may. -/
structure ErrInv (env : DirEnv) (s : DirState) : Prop where
  err : ∀ e, s.err = some e → env.Origin e
  producer : ∀ r, s.producer = .closing r ∨ s.producer = .reporting r → s.Reportable env r
  consumer : ∀ r, s.phase = .reporting r → s.Reportable env r

theorem DirState.Reportable.mono {s s' : DirState} {r : Option Err} (h : s.Reportable env r)
    (herr : s.err.isSome → s'.err.isSome) : s'.Reportable env r :=
  fun e he => (h e he).imp_right fun ⟨hc, hs⟩ => ⟨hc, herr hs⟩

/-- The loop's result on an error: `nil` or `ErrDirectoryTooLarge` at the end of the list, the
error itself otherwise. -/
theorem Consumer.finish_cases {c : Consumer} {err e : Err} (h : c.finish err = some e) :
    e = errDirectoryTooLarge ∨ (err.is .endOfLs = false ∧ e = err) := by
  unfold Consumer.finish at h
  split at h
  · split at h <;> simp_all
  · rename_i hne
    exact .inr ⟨Bool.eq_false_iff.2 hne, (Option.some.inj h).symm⟩

/-- An iteration leaves the loop reporting nothing, `ErrDirectoryTooLarge`, or the error its
`queueDirEntry` call returned. -/
theorem Consumer.receive_reportable {c : Consumer} {e : AnnotatedResource} {d : Fin 7}
    {s : DirState} {r : Option Err}
    (h : (c.receive env.config.maxDirSize env.childResult e d).2.1 = .reporting r) :
    s.Reportable env r := by
  intro e' he'
  rcases @Consumer.receive_cases env.config.maxDirSize env.childResult c e d with
    ⟨-, hc⟩ | ⟨c₁, -, ⟨-, hc⟩ | ⟨op, -, ⟨-, hc⟩ | ⟨err, herr, hc⟩ | ⟨-, hc⟩⟩⟩ <;>
    rw [hc] at h <;> cases h <;> try cases he'
  rcases Consumer.finish_cases he' with rfl | ⟨-, rfl⟩
  exacts [.inl (.inr (.inr (.inl rfl))), .inl (.inr (.inl ⟨op, herr⟩))]

/-- The loop ending on `err` reports what it may, when `err` may be reported unless it is the
end-of-list sentinel. -/
theorem Consumer.finish_reportable {c : Consumer} {s : DirState} {err : Err}
    (h : err.is .endOfLs = false → s.Reportable env (some err)) :
    s.Reportable env (c.finish err) := by
  intro e he
  rcases Consumer.finish_cases he with rfl | ⟨hend, rfl⟩
  exacts [.inl (.inr (.inr (.inl rfl))), h hend e rfl]

/-- `context.Canceled`, seen once the group has an error or the caller may cancel. -/
theorem canceled_reportable {s : DirState} (h : s.err.isSome ∨ env.cancels = true) (e : Err)
    (he : e = .canceled) : env.Origin e ∨ (e = .canceled ∧ s.err.isSome) :=
  h.elim (fun h => .inr ⟨he, h⟩) fun h => .inl (.inr (.inr (.inr (.inr ⟨he, h⟩))))

theorem ErrInv.init : ErrInv env (DirState.init env) :=
  ⟨(fun _ h => nomatch h), fun _ h => by simp [DirState.init] at h, fun _ h => nomatch h⟩

/-- The group keeps its first error: it has an origin when each goroutine's report may be made. -/
theorem ErrInv.err_or {s : DirState} {r : Option Err} (hi : ErrInv env s)
    (hr : s.Reportable env r) (e : Err) (he : s.err.or r = some e) : env.Origin e := by
  cases herr : s.err with
  | some e' =>
    rw [herr] at he
    exact hi.err e (by rw [herr]; simpa using he)
  | none =>
    rw [herr, Option.none_or] at he
    simpa [herr] using hr e he

theorem ErrInv.step {s s' : DirState} (hi : ErrInv env s) (h : DirStep env s s') : ErrInv env s' := by
  cases h with
  | send hp _ => exact ⟨hi.err, fun _ h => by simp at h, hi.consumer⟩
  | handoff d hp _ _ =>
    exact ⟨hi.err, fun _ h => by simp at h, fun _ h => Consumer.receive_reportable h⟩
  | recv d _ _ =>
    exact ⟨hi.err, fun r h => hi.producer r (by simpa using h), fun _ h => Consumer.receive_reportable h⟩
  | abort _ herr =>
    refine ⟨hi.err, fun r h => ?_, hi.consumer⟩
    simp only [Producer.closing.injEq, or_false, reduceCtorEq] at h
    subst h
    exact fun e he => canceled_reportable herr e (Option.some.inj he).symm
  | lsReturn _ =>
    refine ⟨hi.err, fun r h => ?_, hi.consumer⟩
    simp only [Producer.closing.injEq, or_false, reduceCtorEq] at h
    subst h
    intro e he
    cases hls : env.lsResult <;> simp [hls, Outcome.returned] at he
    exact .inl (.inl (by rw [hls, he]))
  | close hp =>
    refine ⟨hi.err, fun r h => ?_, hi.consumer⟩
    simp only [reduceCtorEq, Producer.reporting.injEq, false_or] at h
    exact h ▸ hi.producer _ (.inl hp)
  | reportProducer hp =>
    exact ⟨hi.err_or (hi.producer _ (.inr hp)), fun _ h => by simp at h,
      fun r h => (hi.consumer r h).mono fun h' => by simp [Option.isSome_or, h']⟩
  | endOfList _ _ _ =>
    refine ⟨hi.err, hi.producer, fun r h => ?_⟩
    cases h
    exact Consumer.finish_reportable fun h => absurd h (by decide)
  | cancelled _ herr =>
    refine ⟨hi.err, hi.producer, fun r h => ?_⟩
    cases h
    exact Consumer.finish_reportable fun _ e he =>
      canceled_reportable herr e (Option.some.inj he).symm
  | timeout _ ht =>
    refine ⟨hi.err, hi.producer, fun r h => ?_⟩
    cases h
    exact Consumer.finish_reportable fun _ e he =>
      .inl (.inr (.inr (.inr (.inl ⟨(Option.some.inj he).symm, ht⟩))))
  | reportConsumer hph =>
    exact ⟨hi.err_or (hi.consumer _ hph),
      fun r h => (hi.producer r h).mono fun h' => by simp [Option.isSome_or, h'],
      fun _ h => by simp at h⟩

/-- Whatever the interleaving, `crawlDir` re-raises a panic, returns `nil`, or returns an error
that started the failure: `Ls`'s own, one a `queueDirEntry` call returned,
`ErrDirectoryTooLarge`, a deadline, or the caller's cancellation. The `context.Canceled` a
goroutine sees once the group has an error is never what it returns. -/
theorem crawlDir_error_origin {s : DirState} (h : DirReachable env s) :
    s.result = .panic ∨ s.result = .ok ∨ ∃ e, s.result = .error e ∧ env.Origin e := by
  have hi : ErrInv env s := by
    induction h with
    | refl => exact ErrInv.init
    | tail _ hs ih => exact ih.step hs
  unfold DirState.result
  split
  · exact .inl rfl
  · cases herr : s.err with
    | none => exact .inr (.inl rfl)
    | some e => exact .inr (.inr ⟨e, rfl, hi.err e herr⟩)

/-- The same listing, every call succeeding, under a caller that cancels its context. -/
def callerCancels : DirEnv := { subdirPublishFails with childResult := fun _ => .ok, cancels := true }

/-- Two calls that return an error. The subdirectory's publish fails, the producer then sees the
cancelled context, and both goroutines report: `crawlDir` returns the publish error, not the
cancellation. Under a cancelling caller the consumer sees `context.Canceled` first and reports
it, and the producer then aborts: `crawlDir` returns the caller's cancellation. -/
theorem publishFails_or_cancelled_returns :
    (∃ s, DirReachable subdirPublishFails s ∧ s.Terminal ∧
      s.result = .error (.other "publish failed") ∧
      (s.result = .panic ∨ s.result = .ok ∨
        ∃ e, s.result = .error e ∧ subdirPublishFails.Origin e)) ∧
    ∃ s, DirReachable callerCancels s ∧ s.Terminal ∧ s.result = .error .canceled ∧
      (s.result = .panic ∨ s.result = .ok ∨ ∃ e, s.result = .error e ∧ callerCancels.Origin e) := by
  obtain ⟨s, hs, ht, hr⟩ : ∃ s, DirReachable subdirPublishFails s ∧ s.Terminal ∧
      s.result = .error (.other "publish failed") :=
    ⟨_, .head (DirStep.handoff 0 rfl rfl rfl) (.head (DirStep.send rfl (by decide))
      (.head (DirStep.recv 0 rfl rfl) (.head (DirStep.reportConsumer rfl)
      (.head (DirStep.abort rfl (.inl rfl)) (.head (DirStep.close rfl)
      (.head (DirStep.reportProducer rfl) .refl)))))), ⟨rfl, rfl⟩, rfl⟩
  obtain ⟨s', hs', ht', hr'⟩ : ∃ s, DirReachable callerCancels s ∧ s.Terminal ∧
      s.result = .error .canceled :=
    ⟨_, .head (DirStep.cancelled rfl (.inr rfl)) (.head (DirStep.reportConsumer rfl)
      (.head (DirStep.abort rfl (.inl rfl)) (.head (DirStep.close rfl)
      (.head (DirStep.reportProducer rfl) .refl)))), ⟨rfl, rfl⟩, rfl⟩
  exact ⟨⟨s, hs, ht, hr, crawlDir_error_origin hs⟩, s', hs', ht', hr', crawlDir_error_origin hs'⟩

end Returns

end IpfsSearch
