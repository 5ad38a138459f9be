import Mathlib.Data.List.Basic
import Mathlib.Order.MinMax
import Mathlib.Algebra.Group.Int
import Mathlib.Algebra.Group.Nat.Basic

/-!
# Types — resources, errors, timestamps and index documents

The data the crawler reads and writes, as `types` and `components/index/types` declare it:

* `AnnotatedResource` — a resource with its source, the reference it was found through and its
  `Stat` (type and size);
* `Err` — the errors the crawler produces or inspects, with `Err.is` for `errors.Is` and
  `Err.error` for `err.Error()`;
* `Time` and `Duration` — wall-clock readings in nanoseconds and `time.Duration`;
* the four document kinds (`File`, `Directory`, `Partial`, `Invalid`) and the partial `Update`.

A `Reference.Parent` is a pointer to the parent's annotated resource; the crawler only ever reads
its `ID`, so the model keeps the parent's identifier.
-/

namespace IpfsSearch

/-- A content identifier (`Resource.ID`); the crawler only compares them. -/
abbrev Cid := String

/-- `t.Protocol`: the crawler only tests for `InvalidProtocol`. -/
inductive Protocol
  | invalidProtocol
  | ipfsProtocol
  deriving DecidableEq, Repr

/-- `t.ResourceType`. -/
inductive ResourceType
  | undefinedType
  | fileType
  | directoryType
  | partialType
  | unsupportedType
  deriving DecidableEq, Repr

/-- `t.SourceType`: where the crawl request came from. -/
inductive SourceType
  | unknownSource
  | snifferSource
  | directorySource
  | manualSource
  | userSource
  deriving DecidableEq, Repr

/-- `t.Reference`: the directory entry a resource was found through. -/
structure Reference where
  parent : Option Cid
  name : String
  deriving DecidableEq, Repr

/-- `t.Stat`, the fields `protocol.Stat` fills in. -/
structure Stat where
  type : ResourceType
  size : Nat
  deriving DecidableEq, Repr

/-- `t.AnnotatedResource`, with the embedded `Resource` flattened. -/
structure AnnotatedResource where
  protocol : Protocol
  id : Cid
  source : SourceType
  reference : Reference
  stat : Stat
  deriving DecidableEq, Repr

/-! ## Errors -/

/-- The errors the crawler produces or inspects. `wrapped` is `t.WrappedError{Err, Msg}`;
`errorf e text` is `fmt.Errorf("%w: %v", e, ..)` with its rendered text. -/
inductive Err
  | invalidResource
  | unexpectedResponse
  | fileTooLarge
  | endOfLs
  | canceled
  | deadlineExceeded
  | wrapped (err : Err) (msg : String)
  | errorf (err : Err) (text : String)
  | other (text : String)
  deriving DecidableEq, Repr

namespace Err

/-- `errors.Is(e, target)`: `e` is `target` or wraps it. -/
def is (e target : Err) : Bool :=
  e == target ||
    match e with
    | wrapped inner _ => inner.is target
    | errorf inner _ => inner.is target
    | _ => false

/-- `e.Error()`. Modelled from the spec: the `types` and `extractor` packages that declare the
sentinel errors and `WrappedError.Error` are not among the sources; a wrapped error renders its
message before its cause. -/
def error : Err → String
  | invalidResource => "invalid resource"
  | unexpectedResponse => "unexpected response"
  | fileTooLarge => "file too large"
  | endOfLs => "end of list"
  | canceled => "context canceled"
  | deadlineExceeded => "context deadline exceeded"
  | wrapped inner msg => msg ++ ": " ++ inner.error
  | errorf _ text => text
  | other text => text

/-- `fmt.Errorf("%w: %v", e, v)`. -/
def wrapf (e v : Err) : Err :=
  errorf e (e.error ++ ": " ++ v.error)

@[simp] theorem is_self (e : Err) : e.is e = true := by
  cases e <;> simp [is]

theorem is_wrapped (inner target : Err) (msg : String) :
    (wrapped inner msg).is target = (wrapped inner msg == target || inner.is target) := by
  simp [is]

@[simp] theorem wrapf_is_invalidResource (v : Err) :
    (wrapf invalidResource v).is invalidResource = true := by
  simp [wrapf, is]

end Err

/-- `t.ErrUnsupportedType`. Modelled from the spec: it is an `InvalidResource`. -/
def errUnsupportedType : Err := .wrapped .invalidResource "unsupported type"

/-- `ErrDirectoryTooLarge`. -/
def errDirectoryTooLarge : Err := .wrapped .invalidResource "directory too large"

@[simp] theorem errUnsupportedType_is_invalidResource :
    errUnsupportedType.is .invalidResource = true := by decide

@[simp] theorem errDirectoryTooLarge_is_invalidResource :
    errDirectoryTooLarge.is .invalidResource = true := by decide

/-! ## Time -/

/-- A wall-clock reading, in nanoseconds since Go's zero time. -/
abbrev Time := Nat

/-- `time.Duration`, a signed 64-bit count of nanoseconds. -/
abbrev Duration := Int

/-- `time.Second`. -/
def second : Nat := 1000000000

/-- `t.Truncate(time.Second)`. -/
def Time.truncate (t : Time) : Time := t - t % second

/-- The largest and smallest `time.Duration`. -/
def maxDuration : Duration := 2 ^ 63 - 1
def minDuration : Duration := -2 ^ 63

/-- `t.Sub(u)`: the difference, saturated to the range of `time.Duration`. -/
def Time.sub (t u : Time) : Duration := max minDuration (min maxDuration ((t : Int) - u))

/-- A reading is a whole second. -/
def WholeSecond (t : Time) : Prop := t % second = 0

instance : DecidablePred WholeSecond := fun t => inferInstanceAs (Decidable (t % second = 0))

/-- A truncated reading is the whole number of seconds below it. -/
theorem Time.truncate_eq (t : Time) : Time.truncate t = second * (t / second) :=
  Nat.sub_eq_of_eq_add (Nat.div_add_mod t second).symm

theorem Time.truncate_wholeSecond (t : Time) : WholeSecond (Time.truncate t) := by
  rw [WholeSecond, Time.truncate_eq, Nat.mul_mod_right]

theorem Time.truncate_le (t : Time) : Time.truncate t ≤ t := Nat.sub_le _ _

/-- Truncation is monotone: a later reading never truncates to an earlier second. -/
theorem Time.truncate_mono {t u : Time} (h : t ≤ u) : Time.truncate t ≤ Time.truncate u := by
  rw [Time.truncate_eq, Time.truncate_eq]
  exact Nat.mul_le_mul_left _ (Nat.div_le_div_right h)

theorem minDuration_le_zero : minDuration ≤ 0 := by decide

/-- A saturated difference above a duration means the exact difference is above it too. -/
theorem Time.lt_of_lt_sub {t u : Time} {d : Duration} (hd : minDuration ≤ d)
    (h : d < Time.sub t u) : d < (t : Int) - u := by
  rcases lt_max_iff.1 h with h | h
  · exact absurd hd (not_le.2 h)
  · exact (lt_min_iff.1 h).2

/-! ## Index documents -/

/-- `index_types.Reference`: one entry of a document's `References`. -/
structure IndexReference where
  parentHash : Cid
  name : String
  deriving DecidableEq, Repr

/-- `index_types.References`. -/
abbrev References := List IndexReference

/-- `index_types.LinkType`. -/
inductive LinkType
  | fileLinkType
  | directoryLinkType
  | unknownLinkType
  | unsupportedLinkType
  deriving DecidableEq, Repr

/-- `index_types.Link`: one entry of a directory document. -/
structure Link where
  hash : Cid
  name : String
  size : Nat
  type : LinkType
  deriving DecidableEq, Repr

/-- `index_types.Document`, the fields every file and directory document has. -/
structure Document where
  firstSeen : Time
  lastSeen : Time
  references : References
  size : Nat
  deriving DecidableEq, Repr

/-- What the extractors decode into a file document. -/
abbrev Metadata := List (String × String)

/-- `index_types.File`. -/
structure File where
  document : Document
  metadata : Metadata
  deriving DecidableEq, Repr

/-- `index_types.Directory`. -/
structure Directory where
  document : Document
  links : List Link
  deriving DecidableEq, Repr

/-- `index_types.Invalid`. -/
structure Invalid where
  error : String
  deriving DecidableEq, Repr

/-- `index_types.Update`, a partial update: a field that is `nil` or empty is left out of the
request body (`omitempty`). -/
structure Update where
  lastSeen : Option Time := none
  references : References := []
  deriving DecidableEq, Repr

end IpfsSearch
