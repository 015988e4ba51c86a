import ModDup.Lib.OrdMap

/-!
# The request record

`RequestInfo` carries everything the modules know about one request: what the client sent, the
answer of the local server, and on the comparing side the two responses to compare.  It is
shared by `mod_dup` and `mod_compare` (`src/RequestInfo.hh`, `src/RequestInfo.cc`).

## Main definitions

* `ApplicationScope`, `ApplicationScope.has` : the scope masks of filters and substitutions.
* `DuplicationType` : how much of a request is duplicated.
* `RequestInfo` : the record, with `RequestInfo.make` the constructor both modules use.
* `RequestInfo.serialize`, `RequestInfo.flatten` : its two output formats.
-/

namespace ModDup

open Bytes

/-- A header or parsed parameter. -/
abbrev KeyVal := Bytes × Bytes

/-- `tKeyValList`. -/
abbrev KeyValList := List KeyVal

/-- `mapStr`. -/
abbrev MapStr := OrdMap Bytes Bytes

/-- `ApplicationScope::eApplicationScope`: the part of a request a filter or substitution
looks at. -/
inductive ApplicationScope where
  | path
  | queryString
  | url
  | headers
  | body
  | method
  | urlAndHeaders
  | all
  deriving DecidableEq, Repr

namespace ApplicationScope

/-- The value of the enumerator, a bit mask. -/
def mask : ApplicationScope → ℕ
  | .path => 1
  | .queryString => 2
  | .url => 3
  | .headers => 4
  | .body => 8
  | .method => 16
  | .urlAndHeaders => 7
  | .all => 31

/-- `s & t` is not zero. -/
def has (s t : ApplicationScope) : Bool := s.mask &&& t.mask != 0

/-- `ApplicationScope::enumToString`; its throwing default is for values that are no
enumerator. -/
def enumToString : ApplicationScope → Bytes
  | .all => str "ALL"
  | .method => str "METHOD"
  | .path => str "PATH"
  | .queryString => str "QUERY_STRING"
  | .url => str "URL"
  | .urlAndHeaders => str "URL_AND_HEADERS"
  | .headers => str "HEADERS"
  | .body => str "BODY"

end ApplicationScope

/-- `DuplicationType::eDuplicationType`. -/
inductive DuplicationType where
  | none
  | headerOnly
  | completeRequest
  | requestWithAnswer
  deriving DecidableEq, Repr

/-- The value of the enumerator. -/
def DuplicationType.val : DuplicationType → ℕ
  | .none => 0
  | .headerOnly => 1
  | .completeRequest => 2
  | .requestWithAnswer => 3

/-- The record of one request.  `mConf` is the address of the configuration object of its
location, `0` for the null pointer.  Times are in milliseconds. -/
structure RequestInfo where
  mPoison : Bool := false
  mId : Bytes := []
  mMethod : Bytes := []
  mPath : Bytes := []
  mArgs : Bytes := []
  mParsedArgs : KeyValList := []
  mBody : Bytes := []
  mAnswer : Bytes := []
  mRequest : Bytes := []
  mReqHeader : MapStr := .empty
  mReqBody : Bytes := []
  mResponseHeader : MapStr := .empty
  mResponseBody : Bytes := []
  mDupResponseHeader : MapStr := .empty
  mDupResponseBody : Bytes := []
  mCurlCompResponseHeader : MapStr := .empty
  mCurlCompResponseStatus : ℤ := -1
  mHeadersIn : KeyValList := []
  mHeadersOut : KeyValList := []
  /-- Not set by the constructor; `inputFilterHandler` of `mod_compare` sets it. -/
  offset : ℕ := 0
  /-- Not set by the constructor; `initRequest` sets it. -/
  mReqHttpStatus : ℤ := 0
  /-- Not set by the constructor; `outputFilterHandler2` sets it. -/
  mDupResponseHttpStatus : ℤ := 0
  mValidationHeaderDup : Bool := false
  mValidationHeaderComp : Bool := false
  mConf : ℕ := 0
  mEOS : Bool := false
  mStartTime : ℤ := 0
  mElapsedTime : ℤ := 0

namespace RequestInfo

/-- `RequestInfo(id, startTime)`. -/
def make (id : Bytes) (startTime : ℤ) : RequestInfo := { mId := id, mStartTime := startTime }

/-- `RequestInfo::hasBody`. -/
def hasBody (r : RequestInfo) : Bool := r.mBody ≠ []

/-- `RequestInfo::eos_seen(bool)` at time `now`; the elapsed time is the one of the first call
that sets the flag. -/
def eosSeen (r : RequestInfo) (now : ℤ) (valToSet : Bool) : RequestInfo :=
  { r with
    mElapsedTime := if !r.mEOS && valToSet then now - r.mStartTime else r.mElapsedTime
    mEOS := valToSet }

/-- `RequestInfo::flatten`: names and values joined by `sep`, entries joined by nothing. -/
def flatten (kvl : KeyValList) (sep : Bytes) : Bytes :=
  kvl.flatMap fun item => item.1 ++ sep ++ item.2

/-- The number of characters of a size field of the dup format. -/
def sectionSizeChars : ℕ := 8

/-- `RequestInfo::Serialize`: the size on eight characters, then the text. -/
def serialize (toSerialize : Bytes) : Bytes :=
  padLeft 48 sectionSizeChars (decimal toSerialize.length) ++ toSerialize

end RequestInfo

end ModDup
