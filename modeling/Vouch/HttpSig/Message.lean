import Vouch.HttpSig.SignatureBase

/-!
# Messages and the values of components

A request as the signing code sees it, and the value a component identifier has on it
(`component.rs`, the `resolve_…` functions).

* `HeaderValue`, `HeaderMap`, `Uri`, `Request` — the accessors of the `http` crate the code uses.  A
  value holds field bytes only and a name is a lower-case token, as fields of the structures.
* `resolveField` — the three ways a field is read: as it is, as a structured field with `;sf` or
  `;key`, and wrapped as byte sequences with `;bs`.
* `resolveDerivedFromRequest` — the derived components, with the authority taken from the URI or
  from the `Host` header and one query parameter taken out of the query.
* `resolveFromRequest`, `buildRequestBaseWithParamsStr` — a component's value and a whole base.
* `resolveFromRequest_congr` — a component depends on the headers of its own name and on `Host`.
-/

namespace Vouch.HttpSig

open Cursor Result

/-! ## Headers -/

/-- The bytes a header value may hold. -/
def isFieldByte (b : UInt8) : Bool := (32 ≤ b && b != 127) || b == 9

/-- The bytes a header value may be read as text with. -/
def isVisibleAscii (b : UInt8) : Bool := (32 ≤ b && b < 127) || b == 9

/-- The characters of a header name, all in lower case. -/
def isHeaderNameChar (c : Char) : Bool :=
  c.isLower || c.isDigit || c == '!' || c == '#' || c == '$' || c == '%' || c == '&' ||
    c == '\'' || c == '*' || c == '+' || c == '-' || c == '.' || c == '^' || c == '_' ||
    c == Char.ofNat 96 || c == '|' || c == '~'

/-- `http::HeaderValue`. -/
structure HeaderValue where
  bytes : List UInt8
  valid : bytes.all isFieldByte = true

/-- Facts about single bytes are checked one by one. -/
theorem forall_byte {p : UInt8 → Prop} (h : ∀ n : Fin 256, p (UInt8.ofNat n)) (b : UInt8) : p b :=
  b.ofNat_toNat ▸ h ⟨b.toNat, b.toNat_lt⟩

namespace HeaderValue

/-- `HeaderValue::to_str`. -/
def toStr (value : HeaderValue) : Except String (List Char) :=
  if value.bytes.all isVisibleAscii then .ok (value.bytes.map fun b => Char.ofNat b.toNat)
  else .error "failed to convert header to a str"

theorem isFieldByte_of_isVisibleAscii : ∀ {b : UInt8}, isVisibleAscii b = true →
    isFieldByte b = true :=
  @(forall_byte (by decide +kernel))

/-- `HeaderValue::from_str`: what is outside ASCII is no visible byte of the text. -/
def fromStr (s : List Char) : Except String HeaderValue :=
  if h : (s.all fun c => c.toNat < 128 && isVisibleAscii (UInt8.ofNat c.toNat)) = true then
    .ok ⟨s.map fun c => UInt8.ofNat c.toNat, by
      simp only [List.all_map, List.all_eq_true, Function.comp_apply]
      intro c hc
      have hchar := List.all_eq_true.1 h c hc
      rw [Bool.and_eq_true] at hchar
      exact isFieldByte_of_isVisibleAscii hchar.2⟩
  else .error "failed to parse header value"

end HeaderValue

/-- `http::HeaderMap`: fields under lower-case names, those of one name in the order in which they
were appended. -/
structure HeaderMap where
  entries : List (List Char × HeaderValue)
  valid : ∀ entry ∈ entries, entry.1 ≠ [] ∧ entry.1.all isHeaderNameChar = true

namespace HeaderMap

/-- `HeaderMap::get_all`: names are compared in lower case, and a text that is no name is the name
of nothing. -/
def getAll (headers : HeaderMap) (name : List Char) : List HeaderValue :=
  (headers.entries.filter fun entry => entry.1 = asciiLowercase name).map Prod.snd

/-- `HeaderMap::get`. -/
def get (headers : HeaderMap) (name : List Char) : Option HeaderValue := (headers.getAll name).head?

/-- `HeaderMap::append`. -/
def append (headers : HeaderMap) (name : List Char) (value : HeaderValue)
    (hname : name ≠ [] ∧ name.all isHeaderNameChar = true) : HeaderMap :=
  ⟨headers.entries ++ [(name, value)], fun entry hentry => by
    rcases List.mem_append.1 hentry with hentry | hentry
    · exact headers.valid entry hentry
    · obtain rfl := List.mem_singleton.1 hentry
      exact hname⟩

theorem getAll_append (headers : HeaderMap) (name other : List Char) (value : HeaderValue)
    (hname : name ≠ [] ∧ name.all isHeaderNameChar = true) :
    (headers.append name value hname).getAll other =
      headers.getAll other ++ if name = asciiLowercase other then [value] else [] := by
  rw [getAll, append, List.filter_append, List.map_append, getAll]
  by_cases h : name = asciiLowercase other
  · simp [h]
  · simp [h]

/-- A name under which there is something is a name. -/
theorem valid_of_getAll {headers : HeaderMap} {name : List Char} (h : headers.getAll name ≠ []) :
    asciiLowercase name ≠ [] ∧ (asciiLowercase name).all isHeaderNameChar = true := by
  obtain ⟨value, hvalue⟩ := List.exists_mem_of_ne_nil _ h
  obtain ⟨entry, hentry, -⟩ := List.mem_map.1 hvalue
  have hmem := List.mem_filter.1 hentry
  have hname : entry.1 = asciiLowercase name := by simpa using hmem.2
  rw [← hname]
  exact headers.valid entry hmem.1

end HeaderMap

/-- What the code reads of an `http::Uri`. -/
structure Uri where
  scheme : Option (List Char)
  host : Option (List Char)
  port : Option UInt16
  path : List Char
  query : Option (List Char)

/-- `http::Request` without its body. -/
structure Request where
  method : List Char
  uri : Uri
  headers : HeaderMap

/-! ## Fields -/

/-- `reject_req_on_request`. -/
def rejectReqOnRequest (params : ComponentParams) : Except HttpSigError Unit :=
  if params.req then
    .error (.invalidComponent
      "the ';req' parameter is not allowed when the target message is a request")
  else .ok ()

/-- `reject_trailers`. -/
def rejectTrailers (params : ComponentParams) : Except HttpSigError Unit :=
  if params.tr then
    .error (.invalidComponent
      ("trailer fields (;tr) are not supported — " ++
        "the http crate does not model HTTP trailers"))
  else .ok ()

/-- `str::trim_matches` with a class of characters. -/
def trimMatches {α : Type} (p : α → Bool) (s : List α) : List α := (s.dropWhile p).rdropWhile p

/-- Optional white space around a field value. -/
def isOws (c : Char) : Bool := c == ' ' || c == '\t'

/-- The text of one field line in `resolve_field_raw`. -/
def fieldLine (name : List Char) (value : HeaderValue) : Except HttpSigError (List Char) :=
  match value.toStr with
  | .ok text => .ok (trimMatches isOws text)
  | .error _ =>
    let name := String.ofList name
    .error (.invalidComponent
      (s!"header '{name}' has a value outside the visible-ASCII range " ++
        "that the signature base admits; cover it with the ';bs' parameter instead"))

/-- No field line at all. -/
def headerNotFound (name : List Char) : HttpSigError :=
  let name := String.ofList name
  .missingComponent s!"header '{name}' not found"

/-- `resolve_field_raw`. -/
def resolveFieldRaw (headers : HeaderMap) (name : List Char) : Except HttpSigError (List Char) := do
  let lines ← (headers.getAll name).mapM (fieldLine name)
  if lines = [] then .error (headerNotFound name) else .ok (separated ", ".toList lines)

/-- `resolve_field_sf`. -/
def resolveFieldSf (headers : HeaderMap) (name : List Char) (params : ComponentParams) :
    Except HttpSigError (List Char) := do
  let raw ← resolveFieldRaw headers name
  let lower := String.ofList name
  match params.key with
  | some key =>
    let keyText := String.ofList key
    match parseDictionary raw with
    | .error e =>
      let cause := e.display
      .error (.invalidComponent
        s!"failed to parse '{lower}' as SFV Dictionary for ;key=\"{keyText}\": {cause}")
    | .ok dict =>
      match dict.get key with
      | none =>
        .error (.missingComponent s!"dictionary key '{keyText}' not found in header '{lower}'")
      | some member => .ok (serializeMember member)
  | none =>
    match parseDictionary raw with
    | .ok dict => .ok (serializeDictionary dict)
    | .error _ =>
      match parseList raw with
      | .ok list => .ok (serializeList list)
      | .error _ =>
        match parseItem raw with
        | .ok item => .ok (serializeItem item)
        | .error _ =>
          .error (.invalidComponent s!"failed to parse '{lower}' as any SFV type for ;sf")

/-- `trim_ascii_ows`. -/
def trimAsciiOws (bytes : List UInt8) : List UInt8 := trimMatches (fun b => b == 32 || b == 9) bytes

/-- `resolve_field_bs`. -/
def resolveFieldBs (headers : HeaderMap) (name : List Char) : Except HttpSigError (List Char) :=
  let values := headers.getAll name
  if values.isEmpty then .error (headerNotFound name)
  else .ok (separated ", ".toList
    (values.map fun value => ':' :: (Base64.encode (trimAsciiOws value.bytes) ++ [':'])))

/-- `resolve_field`. -/
def resolveField (headers : HeaderMap) (name : List Char) (params : ComponentParams) :
    Except HttpSigError (List Char) :=
  if params.bs then resolveFieldBs headers name
  else if params.sf || params.key.isSome then resolveFieldSf headers name params
  else resolveFieldRaw headers name

/-! ## Query parameters -/

/-- `hex_val`. -/
def hexVal (c : UInt8) : Option UInt8 :=
  if 48 ≤ c ∧ c ≤ 57 then some (c - 48)
  else if 97 ≤ c ∧ c ≤ 102 then some (c - 97 + 10)
  else if 65 ≤ c ∧ c ≤ 70 then some (c - 65 + 10)
  else none

/-- `form_urlencoded_decode`, on the bytes of the text. -/
def formUrlencodedDecode : List UInt8 → List UInt8
  | 37 :: hi :: lo :: rest =>
    match hexVal hi, hexVal lo with
    | some h, some l => (h <<< 4 ||| l) :: formUrlencodedDecode rest
    | _, _ => 37 :: formUrlencodedDecode (hi :: lo :: rest)
  | byte :: rest => (if byte = 43 then 32 else byte) :: formUrlencodedDecode rest
  | [] => []

/-- Two hexadecimal digits in upper case, as `{:02X}` writes a byte. -/
def upperHexByte (b : UInt8) : List Char :=
  [(Nat.digitChar (b.toNat / 16)).toUpper, (Nat.digitChar (b.toNat % 16)).toUpper]

/-- `percent_encode_form`. -/
def percentEncodeForm (bytes : List UInt8) : List Char :=
  bytes.flatMap fun byte =>
    let c := Char.ofNat byte.toNat
    if c.isAlphanum || c == '*' || c == '-' || c == '.' || c == '_' then [c]
    else '%' :: upperHexByte byte

/-- A byte that goes on with a character. -/
def isContinuation (b : UInt8) : Bool := 0x80 ≤ b && b ≤ 0xBF

/-- The bytes that may stand second in a character of three or four. -/
def isSecond (first second : UInt8) : Bool :=
  if first = 0xE0 then 0xA0 ≤ second && second ≤ 0xBF
  else if first = 0xED then 0x80 ≤ second && second ≤ 0x9F
  else if first = 0xF0 then 0x90 ≤ second && second ≤ 0xBF
  else if first = 0xF4 then 0x80 ≤ second && second ≤ 0x8F
  else isContinuation second

/-- The character a byte begins, and how many of the bytes behind it belong to it.  A sequence that
breaks off is one replacement character. -/
def lossyChar (first : UInt8) (rest : List UInt8) : Char × Nat :=
  let replacement := Char.ofNat 0xFFFD
  let low (b : UInt8) : Nat := b.toNat % 64
  if first < 0x80 then (Char.ofNat first.toNat, 0)
  else if 0xC2 ≤ first ∧ first ≤ 0xDF then
    match rest with
    | b :: _ =>
      if isContinuation b then (Char.ofNat (first.toNat % 32 * 64 + low b), 1)
      else (replacement, 0)
    | [] => (replacement, 0)
  else if 0xE0 ≤ first ∧ first ≤ 0xEF then
    match rest with
    | b :: rest =>
      if isSecond first b then
        match rest with
        | c :: _ =>
          if isContinuation c then
            (Char.ofNat (first.toNat % 16 * 4096 + low b * 64 + low c), 2)
          else (replacement, 1)
        | [] => (replacement, 1)
      else (replacement, 0)
    | [] => (replacement, 0)
  else if 0xF0 ≤ first ∧ first ≤ 0xF4 then
    match rest with
    | b :: rest =>
      if isSecond first b then
        match rest with
        | c :: rest =>
          if isContinuation c then
            match rest with
            | d :: _ =>
              if isContinuation d then
                (Char.ofNat (first.toNat % 8 * 262144 + low b * 4096 + low c * 64 + low d), 3)
              else (replacement, 2)
            | [] => (replacement, 2)
          else (replacement, 1)
        | [] => (replacement, 1)
      else (replacement, 0)
    | [] => (replacement, 0)
  else (replacement, 0)

/-- `String::from_utf8_lossy`. -/
def fromUtf8Lossy : List UInt8 → List Char
  | [] => []
  | first :: rest =>
    (lossyChar first rest).1 :: fromUtf8Lossy (rest.drop (lossyChar first rest).2)
termination_by bytes => bytes.length
decreasing_by
  simp only [List.length_drop, List.length_cons]
  omega

/-- The bytes of a text. -/
def utf8Bytes (s : List Char) : List UInt8 := s.flatMap String.utf8EncodeChar

/-- `form_urlencoded_component`. -/
def formUrlencodedComponent (raw : List Char) : List Char :=
  percentEncodeForm (utf8Bytes (fromUtf8Lossy (formUrlencodedDecode (utf8Bytes raw))))

/-- One round of the loop of `resolve_query_param`. -/
def queryParamStep (name : List Char) (found : Option (List Char)) (pair : List Char) :
    Except HttpSigError (Option (List Char)) :=
  if pair.isEmpty then .ok found
  else if formUrlencodedComponent (pair.takeWhile (· != '=')) ≠ name then .ok found
  else
    match found with
    | some _ =>
      let name := String.ofList name
      .error (.invalidComponent
        s!"query parameter '{name}' occurs more than once and cannot be covered")
    | none => .ok (some (formUrlencodedComponent (pair.dropWhile (· != '=')).tail))

/-- `resolve_query_param`. -/
def resolveQueryParam (query name : List Char) : Except HttpSigError (List Char) := do
  match ← (query.splitOn '&').foldlM (queryParamStep name) none with
  | some value => .ok value
  | none =>
    let name := String.ofList name
    .error (.missingComponent s!"query parameter '{name}' not found")

/-! ## Derived components -/

/-- `extract_scheme`. -/
def extractScheme (req : Request) : Except HttpSigError (List Char) :=
  match req.uri.scheme with
  | some scheme => .ok (asciiLowercase scheme)
  | none => .error (.missingComponent "URI has no scheme")

/-- `str::strip_suffix`, or the text as it is. -/
def stripSuffix (tail s : List Char) : List Char :=
  if s.drop (s.length - tail.length) = tail then s.take (s.length - tail.length) else s

/-- The authority a `Host` header names. -/
def hostAuthority (scheme host : List Char) : List Char :=
  let normalized := asciiLowercase (trim host)
  if scheme = "https".toList then stripSuffix ":443".toList normalized
  else if scheme = "http".toList then stripSuffix ":80".toList normalized
  else normalized

/-- `extract_authority`. -/
def extractAuthority (req : Request) : Except HttpSigError (List Char) :=
  let scheme := req.uri.scheme.getD "https".toList
  match req.uri.host with
  | some host =>
    match req.uri.port with
    | none => .ok (asciiLowercase host)
    | some port =>
      if (scheme = "http".toList ∧ port = 80) ∨ (scheme = "https".toList ∧ port = 443) then
        .ok (asciiLowercase host)
      else .ok (asciiLowercase host ++ ':' :: Nat.toDigits 10 port.toNat)
  | none =>
    match req.headers.get "host".toList with
    | none => .error (.missingComponent "URI has no authority and no Host header")
    | some value =>
      match value.toStr with
      | .error _ => .error (.missingComponent "URI has no authority and no Host header")
      | .ok host => .ok (hostAuthority scheme host)

/-- `extract_path`. -/
def extractPath (req : Request) : List Char :=
  if req.uri.path.isEmpty then ['/'] else req.uri.path

/-- `resolve_derived_from_request`. -/
def resolveDerivedFromRequest (component : DerivedComponent) (params : ComponentParams)
    (req : Request) : Except HttpSigError (List Char) :=
  match component with
  | .method => .ok req.method
  | .targetUri => do
    let scheme ← extractScheme req
    let authority ← extractAuthority req
    let query := (req.uri.query.map fun q => '?' :: q).getD []
    .ok (scheme ++ "://".toList ++ authority ++ extractPath req ++ query)
  | .authority => extractAuthority req
  | .scheme => extractScheme req
  | .requestTarget =>
    match req.uri.query with
    | some q => .ok (extractPath req ++ '?' :: q)
    | none => .ok (extractPath req)
  | .path => .ok (extractPath req)
  | .query =>
    match req.uri.query with
    | some q => .ok ('?' :: q)
    | none => .ok ['?']
  | .queryParam =>
    match params.name with
    | none => .error (.invalidComponent "@query-param requires the ';name' parameter")
    | some name =>
      match req.uri.query with
      | none =>
        let name := String.ofList name
        .error (.missingComponent s!"no query string for @query-param;name=\"{name}\"")
      | some query => resolveQueryParam query name
  | .status => .error (.invalidComponent "@status is only valid for responses")

/-- `ComponentIdentifier::resolve_from_request`. -/
def ComponentIdentifier.resolveFromRequest (id : ComponentIdentifier) (req : Request) :
    Except HttpSigError (List Char) :=
  match id with
  | .field name params => do
    rejectReqOnRequest params
    rejectTrailers params
    resolveField req.headers name params
  | .derived component params => do
    rejectReqOnRequest params
    resolveDerivedFromRequest component params req

/-! ## A base from a request -/

/-- One round of the loop of `build_request_base_with_params_str`. -/
def pushResolved (req : Request) (base : BaseBuilder) (id : ComponentIdentifier) :
    Except HttpSigError BaseBuilder := do
  let value ← id.resolveFromRequest req
  base.push id value

/-- `build_request_base_with_params_str`, for the covered components. -/
def buildRequestBaseWithParamsStr (req : Request) (components : List ComponentIdentifier)
    (paramsStr : List Char) : Except HttpSigError (List Char) := do
  let base ← components.foldlM (pushResolved req) BaseBuilder.new
  base.finish paramsStr

/-! ## What a value depends on -/

theorem resolveField_congr {headers headers' : HeaderMap} {name : List Char}
    (h : headers.getAll name = headers'.getAll name) (params : ComponentParams) :
    resolveField headers name params = resolveField headers' name params := by
  have hraw : resolveFieldRaw headers name = resolveFieldRaw headers' name := by
    rw [resolveFieldRaw, resolveFieldRaw, h]
  rw [resolveField, resolveField, resolveFieldBs, resolveFieldBs, resolveFieldSf, resolveFieldSf,
    hraw, h]

variable {req req' : Request}

theorem extractAuthority_congr (huri : req.uri = req'.uri)
    (hhost : req.headers.getAll "host".toList = req'.headers.getAll "host".toList) :
    extractAuthority req = extractAuthority req' := by
  rw [extractAuthority, extractAuthority, huri, HeaderMap.get, HeaderMap.get, hhost]

theorem resolveDerivedFromRequest_congr (hmethod : req.method = req'.method)
    (huri : req.uri = req'.uri)
    (hhost : req.headers.getAll "host".toList = req'.headers.getAll "host".toList)
    (component : DerivedComponent) (params : ComponentParams) :
    resolveDerivedFromRequest component params req =
      resolveDerivedFromRequest component params req' := by
  have hauthority := extractAuthority_congr huri hhost
  have hscheme : extractScheme req = extractScheme req' := by
    rw [extractScheme, extractScheme, huri]
  have hpath : extractPath req = extractPath req' := by rw [extractPath, extractPath, huri]
  cases component <;>
    simp [resolveDerivedFromRequest, hmethod, huri, hauthority, hscheme, hpath]

/-- A component depends on the headers of its own name and on `Host`. -/
theorem resolveFromRequest_congr (hmethod : req.method = req'.method) (huri : req.uri = req'.uri)
    (hhost : req.headers.getAll "host".toList = req'.headers.getAll "host".toList)
    {id : ComponentIdentifier} (hid : req.headers.getAll id.name = req'.headers.getAll id.name) :
    id.resolveFromRequest req = id.resolveFromRequest req' := by
  cases id with
  | field name params =>
    have hname : req.headers.getAll name = req'.headers.getAll name := hid
    rw [ComponentIdentifier.resolveFromRequest, ComponentIdentifier.resolveFromRequest,
      resolveField_congr hname]
  | derived component params =>
    rw [ComponentIdentifier.resolveFromRequest, ComponentIdentifier.resolveFromRequest,
      resolveDerivedFromRequest_congr hmethod huri hhost]

/-- So does a base on those of its components. -/
theorem buildRequestBase_congr {components : List ComponentIdentifier}
    (h : ∀ id ∈ components, id.resolveFromRequest req = id.resolveFromRequest req')
    (paramsStr : List Char) :
    buildRequestBaseWithParamsStr req components paramsStr =
      buildRequestBaseWithParamsStr req' components paramsStr := by
  have hfold : ∀ (l : List ComponentIdentifier) (base : BaseBuilder), (∀ id ∈ l, id ∈ components) →
      l.foldlM (pushResolved req) base = l.foldlM (pushResolved req') base := by
    intro l
    induction l with
    | nil => exact fun _ _ => rfl
    | cons id l ih =>
      intro base hl
      rw [List.foldlM_cons, List.foldlM_cons, pushResolved, pushResolved,
        h id (hl id List.mem_cons_self)]
      exact congrArg _ (funext fun next => ih next fun id' hid' =>
        hl id' (List.mem_cons_of_mem _ hid'))
  rw [buildRequestBaseWithParamsStr, buildRequestBaseWithParamsStr,
    hfold components BaseBuilder.new fun _ hid => hid]

/-- **A base of a request is the base of its components' values.** -/
theorem buildRequestBase_ok {paramsStr base : List Char} {components : List ComponentIdentifier}
    (h : buildRequestBaseWithParamsStr req components paramsStr = .ok base) :
    ∃ lines : List (ComponentIdentifier × List Char), lines.map Prod.fst = components ∧
      (∀ line ∈ lines, line.1.resolveFromRequest req = .ok line.2) ∧
      BaseBuilder.build lines paramsStr = .ok base := by
  rw [buildRequestBaseWithParamsStr] at h
  obtain ⟨builder, hfold, hfinish⟩ := bind_eq_ok.1 h
  have hlines : ∀ (l : List ComponentIdentifier) (start : BaseBuilder),
      l.foldlM (pushResolved req) start = .ok builder →
        ∃ lines : List (ComponentIdentifier × List Char), lines.map Prod.fst = l ∧
          (∀ line ∈ lines, line.1.resolveFromRequest req = .ok line.2) ∧
          start.pushAll lines = .ok builder := by
    intro l
    induction l with
    | nil => exact fun start hstart => ⟨[], rfl, by simp, hstart⟩
    | cons id l ih =>
      intro start hstart
      rw [List.foldlM_cons] at hstart
      obtain ⟨next, hnext, hrest⟩ := bind_eq_ok.1 hstart
      rw [pushResolved] at hnext
      obtain ⟨value, hvalue, hpush⟩ := bind_eq_ok.1 hnext
      obtain ⟨lines, hmap, hresolve, hall⟩ := ih next hrest
      refine ⟨(id, value) :: lines, by rw [List.map_cons, hmap], ?_, ?_⟩
      · rintro line (_ | ⟨_, hline⟩)
        · exact hvalue
        · exact hresolve line hline
      · rw [BaseBuilder.pushAll, List.foldlM_cons, hpush]
        exact hall
  obtain ⟨lines, hmap, hresolve, hall⟩ := hlines components BaseBuilder.new hfold
  refine ⟨lines, hmap, hresolve, ?_⟩
  rw [BaseBuilder.build, hall, ok_bind]
  exact hfinish

end Vouch.HttpSig
