import Vouch.Error

/-!
# Resources and audiences

`services/oidc/resource.rs`: which audiences name this deployment, and which of its paths an
audience covers.  URLs are parsed by third-party code; `Url` is what the code reads of one.
-/

namespace Vouch

/-- What the code reads of a `url::Url`.  An opaque origin equals no origin. -/
structure Url where
  origin : Option String
  path : List Char
  query : Option String
  fragment : Option String
  text : String

/-- The third-party code for URLs. -/
structure UrlLibrary where
  /-- `Url::parse`. -/
  parse : String → Option Url

/-- `trim_trailing_slash`. -/
def trimTrailingSlash (path : List Char) : List Char :=
  if path.getLast? = some '/' then path.dropLast else path

/-- `str::strip_prefix`. -/
def stripPrefix (front s : List Char) : Option (List Char) :=
  if s.take front.length = front then some (s.drop front.length) else none

/-- `audience_names_deployment`. -/
def audienceNamesDeployment (lib : UrlLibrary) (aud baseUrl : String) : Bool :=
  match lib.parse aud, lib.parse baseUrl with
  | some audUrl, some base => audUrl.origin.isSome && audUrl.origin == base.origin
  | _, _ => false

/-- A path at a segment boundary of another. -/
def covers (rel request : List Char) : Bool :=
  request == rel || (stripPrefix rel request).any fun rest => rest.head? == some '/'

/-- `audience_covers_resource`. -/
def audienceCoversResource (lib : UrlLibrary) (aud baseUrl : String) (requestPath : List Char) :
    Bool :=
  match lib.parse aud, lib.parse baseUrl with
  | some audUrl, some base =>
    if audUrl.query.isSome || audUrl.fragment.isSome then false
    else if !audienceNamesDeployment lib aud baseUrl then false
    else
      let audPath := trimTrailingSlash audUrl.path
      let basePath := trimTrailingSlash base.path
      if audPath = basePath then true
      else
        match stripPrefix basePath audPath with
        | some ('/' :: rel) =>
          covers ('/' :: rel)
            (trimTrailingSlash (if requestPath.isEmpty then ['/'] else requestPath))
        | _ => false
  | _, _ => false

/-- Only an audience on this deployment covers one of its paths. -/
theorem audienceNamesDeployment_of_covers {lib : UrlLibrary} {aud baseUrl : String}
    {path : List Char} (h : audienceCoversResource lib aud baseUrl path = true) :
    audienceNamesDeployment lib aud baseUrl = true := by
  rw [audienceCoversResource] at h
  split at h
  · split at h
    · cases h
    · split at h
      · cases h
      · rename_i hnames
        simpa using hnames
  · cases h

/-- Why a resource was refused. -/
inductive ResourceError
  | empty
  | tooLong
  | notAbsolute
  | hasFragment
  deriving DecidableEq, Repr

/-- `MAX_RESOURCE_URI_LEN`. -/
def maxResourceUriLen : Nat := 2048

/-- `ResourceUri::parse`. -/
def ResourceUri.parse (lib : UrlLibrary) (s : String) : Except ResourceError String :=
  if s.isEmpty then .error .empty
  else if s.utf8ByteSize > maxResourceUriLen then .error .tooLong
  else
    match lib.parse s with
    | none => .error .notAbsolute
    | some url => if url.fragment.isSome then .error .hasFragment else .ok url.text

end Vouch
