import Vouch.HttpSig.SignatureParams

/-!
# Signing and verifying

The two ends of a message signature: `SignatureBuilder::sign_request` (`sign.rs`) and
`verify_request_signature` (`verify.rs`).

* `SignatureBuilder` — the builder; its methods only ever add components without parameters, which
  is a field of the structure.
* `SignatureBuilder.signRequest` — the base, the signature, and the two headers.
* `findSignatureInput`, `findSignatureValue` — one search through the lines of a header for a label.
* `verifyRequestSignature` — the algorithm, the times, the base, the signature.
* `sign_verify_agree` — **what is signed is what is verified**: the verifier finds the parameters
  that were signed and rebuilds the base that was signed.

The two sides write the last line of a base from different values — the signer from its own
parameters, the verifier from the list it parsed — and the headers the signer appends must not
change the values of the components it covers.
-/

namespace Vouch.HttpSig

open Cursor Result

/-! ## Algorithms -/

/-- `SignatureAlgorithm`. -/
inductive SignatureAlgorithm where
  | ecdsaP256Sha256 | hmacSha256
deriving DecidableEq, Repr

/-- `SignatureAlgorithm::as_str`. -/
def SignatureAlgorithm.asStr : SignatureAlgorithm → List Char
  | .ecdsaP256Sha256 => "ecdsa-p256-sha256".toList
  | .hmacSha256 => "hmac-sha256".toList

/-- `SigningAlgorithm`.  A signature that depends on fresh randomness is a function of the base once
the randomness of the call is fixed. -/
structure SigningAlgorithm where
  algorithm : SignatureAlgorithm
  keyId : List Char
  sign : List Char → Except HttpSigError (List UInt8)

/-- `VerifyingAlgorithm`. -/
structure VerifyingAlgorithm where
  algorithm : SignatureAlgorithm
  verify : List Char → List UInt8 → Except HttpSigError Unit

/-- A verifier that accepts what the signer signs. -/
structure VerifyingAlgorithm.Accepts (verifier : VerifyingAlgorithm) (signer : SigningAlgorithm) :
    Prop where
  algorithm : verifier.algorithm = signer.algorithm
  verify : ∀ base signature, signer.sign base = .ok signature →
    verifier.verify base signature = .ok ()

theorem isPrintable_asStr (algorithm : SignatureAlgorithm) : IsPrintable algorithm.asStr := by
  cases algorithm with
  | ecdsaP256Sha256 => exact List.all_eq_true.1 (by decide)
  | hmacSha256 => exact List.all_eq_true.1 (by decide)

/-! ## Signing -/

/-- `SignatureBuilder`.  No method of it adds a parameter to a component. -/
structure SignatureBuilder where
  label : List Char
  components : List ComponentIdentifier
  created : Option Int
  expires : Option Int
  nonce : Option (List Char)
  tag : Option (List Char)
  plain : ∀ id ∈ components, (∃ component, component ≠ .queryParam ∧ id = .ofDerived component) ∨
    ∃ name, id = .ofField name

/-- The nearest `i64`. -/
def saturate (n : Int) : Int :=
  if n < Parser.i64Min then Parser.i64Min else if Parser.i64Max < n then Parser.i64Max else n

/-- `i64::saturating_add`. -/
def saturatingAdd (a b : Int) : Int := saturate (a + b)

/-- `i64::saturating_sub`. -/
def saturatingSub (a b : Int) : Int := saturate (a - b)

namespace SignatureBuilder

/-- `SignatureBuilder::new`. -/
def new (label : List Char) : SignatureBuilder := ⟨label, [], none, none, none, none, by simp⟩

/-- Add a component. -/
def push (builder : SignatureBuilder) (id : ComponentIdentifier)
    (hid : (∃ component, component ≠ .queryParam ∧ id = .ofDerived component) ∨
      ∃ name, id = .ofField name) : SignatureBuilder :=
  { builder with
    components := builder.components ++ [id]
    plain := fun id' hid' => by
      rcases List.mem_append.1 hid' with hid' | hid'
      · exact builder.plain id' hid'
      · obtain rfl := List.mem_singleton.1 hid'
        exact hid }

/-- The shape of the methods that add a derived component. -/
def derived (builder : SignatureBuilder) (component : DerivedComponent)
    (h : component ≠ .queryParam) : SignatureBuilder :=
  builder.push (.ofDerived component) (.inl ⟨component, h, rfl⟩)

/-- `SignatureBuilder::method`. -/
def method (builder : SignatureBuilder) : SignatureBuilder := builder.derived .method (by decide)

/-- `SignatureBuilder::authority`. -/
def authority (builder : SignatureBuilder) : SignatureBuilder :=
  builder.derived .authority (by decide)

/-- `SignatureBuilder::field`. -/
def field (builder : SignatureBuilder) (name : List Char) : SignatureBuilder :=
  builder.push (.ofField name) (.inr ⟨name, rfl⟩)

/-- `SignatureBuilder::created`; `created_now` is this at the current time. -/
def setCreated (builder : SignatureBuilder) (timestamp : Int) : SignatureBuilder :=
  { builder with created := some timestamp }

/-- `SignatureBuilder::build_params`. -/
def buildParams (builder : SignatureBuilder) (signer : SigningAlgorithm) : SignatureParams where
  components := builder.components
  alg := some signer.algorithm.asStr
  keyid := some signer.keyId
  created := builder.created
  expires := builder.expires
  nonce := builder.nonce
  tag := builder.tag

end SignatureBuilder

/-- `build_signature_dict`. -/
def signatureDict (label : List Char) (signature : List UInt8) : SfvDictionary :=
  ⟨[(label, .item ⟨.byteSequence signature, SfvParams.new⟩)]⟩

/-- Headers with the two of a signature behind them. -/
def HeaderMap.withSignature (headers : HeaderMap) (input value : HeaderValue) : HeaderMap :=
  (headers.append "signature-input".toList input (by decide)).append "signature".toList value
    (by decide)

/-- `append_signature_headers_with_params_str`. -/
def appendSignatureHeadersWithParamsStr (headers : HeaderMap) (label paramsStr : List Char)
    (signature : List UInt8) : Except HttpSigError HeaderMap :=
  match HeaderValue.fromStr (label ++ '=' :: paramsStr) with
  | .error e => .error (.baseConstruction s!"Signature-Input header: {e}")
  | .ok input =>
    match HeaderValue.fromStr (serializeDictionary (signatureDict label signature)) with
    | .error e => .error (.baseConstruction s!"Signature header: {e}")
    | .ok value => .ok (headers.withSignature input value)

/-- `SignatureBuilder::sign_request`. -/
def SignatureBuilder.signRequest (builder : SignatureBuilder) (req : Request)
    (signer : SigningAlgorithm) : Except HttpSigError Request := do
  let params := builder.buildParams signer
  let paramsStr := params.serialize
  let base ← buildRequestBaseWithParamsStr req params.components paramsStr
  let signature ← signer.sign base
  let headers ← appendSignatureHeadersWithParamsStr req.headers builder.label paramsStr signature
  .ok { req with headers }

/-! ## Verifying -/

/-- The search through the lines of a header for a member under a label: the shape of
`find_signature_input` and `find_signature_value`. -/
def findLabelled {α : Type} (what headerName : String) (label : List Char)
    (use : SfvDictMember → Except HttpSigError α) : Bool → List HeaderValue → Except HttpSigError α
  | true, [] =>
    let label := String.ofList label
    .error (.missingHeader s!"{what} label '{label}' not found")
  | false, [] => .error (.missingHeader headerName)
  | _, value :: rest =>
    match value.toStr with
    | .error e => .error (.sfvParse s!"{headerName}: {e}")
    | .ok text => do
      let dict ← parseDictionary text
      match dict.get label with
      | some member => use member
      | none => findLabelled what headerName label use true rest

/-- What `find_signature_input` makes of a member. -/
def signatureInputOf (label : List Char) :
    SfvDictMember → Except HttpSigError (SignatureParams × List Char)
  | .innerList list => do
    let params ← SignatureParams.fromInnerList list
    .ok (params, serializeInnerListToString list)
  | .item _ =>
    let label := String.ofList label
    .error (.sfvParse s!"Signature-Input '{label}' must be an inner list")

/-- `find_signature_input`. -/
def findSignatureInput (headers : HeaderMap) (label : List Char) :
    Except HttpSigError (SignatureParams × List Char) :=
  findLabelled "Signature-Input" "signature-input" label (signatureInputOf label) false
    (headers.getAll "signature-input".toList)

/-- What `find_signature_value` makes of a member. -/
def signatureValueOf (label : List Char) : SfvDictMember → Except HttpSigError (List UInt8)
  | .item ⟨.byteSequence bytes, _⟩ => .ok bytes
  | .item _ =>
    let label := String.ofList label
    .error (.invalidSignature s!"Signature '{label}' must be a byte sequence")
  | .innerList _ =>
    let label := String.ofList label
    .error (.invalidSignature s!"Signature '{label}' must be an item, not an inner list")

/-- `find_signature_value`. -/
def findSignatureValue (headers : HeaderMap) (label : List Char) :
    Except HttpSigError (List UInt8) :=
  findLabelled "Signature" "signature" label (signatureValueOf label) false
    (headers.getAll "signature".toList)

/-- `validate_algorithm`. -/
def validateAlgorithm (params : SignatureParams) (verifier : VerifyingAlgorithm) :
    Except HttpSigError Unit :=
  match params.alg with
  | some alg =>
    if alg ≠ verifier.algorithm.asStr then
      let claimed := String.ofList alg
      let known := String.ofList verifier.algorithm.asStr
      .error (.unsupportedAlgorithm
        s!"signature claims alg=\"{claimed}\", but verifier implements \"{known}\"")
    else .ok ()
  | none => .ok ()

/-- `validate_timestamps`, at the time `now`. -/
def validateTimestamps (params : SignatureParams) (maxAge : Option Int) (now : Int) :
    Except HttpSigError Unit := do
  match params.expires with
  | some expires =>
    if now > expires then
      .error (.expired s!"signature expired at {expires}, current time is {now}")
    else .ok ()
  | none => .ok ()
  match params.created with
  | some created =>
    if created > saturatingAdd now 60 then
      .error (.expired s!"signature created in the future: {created} (now={now})")
    else .ok ()
  | none => .ok ()
  match maxAge with
  | some maxAge =>
    match params.created with
    | none => .error (.expired "max_age enforced but signature has no created timestamp")
    | some created =>
      if saturatingSub now created > maxAge then
        .error (.expired
          s!"signature created at {created} exceeds max age {maxAge}s (now={now})")
      else .ok ()
  | none => .ok ()

/-- `CryptoVerified`. -/
structure CryptoVerified where
  params : SignatureParams
deriving DecidableEq

/-- `verify_request_signature`, at the time `now`. -/
def verifyRequestSignature (req : Request) (label : List Char) (verifier : VerifyingAlgorithm)
    (maxAge : Option Int) (now : Int) : Except HttpSigError CryptoVerified := do
  let (params, paramsStr) ← findSignatureInput req.headers label
  let signature ← findSignatureValue req.headers label
  validateAlgorithm params verifier
  validateTimestamps params maxAge now
  let base ← buildRequestBaseWithParamsStr req params.components paramsStr
  verifier.verify base signature
  .ok ⟨params⟩

/-! ## Agreement -/

theorem getAll_withSignature (headers : HeaderMap) (input value : HeaderValue)
    (other : List Char) :
    (headers.withSignature input value).getAll other = headers.getAll other ++
      (if "signature-input".toList = asciiLowercase other then [input] else []) ++
      (if "signature".toList = asciiLowercase other then [value] else []) := by
  rw [HeaderMap.withSignature, HeaderMap.getAll_append, HeaderMap.getAll_append]

/-- Other headers are as they were. -/
theorem getAll_withSignature_other (headers : HeaderMap) (input value : HeaderValue)
    {other : List Char} (hinput : asciiLowercase other ≠ "signature-input".toList)
    (hvalue : asciiLowercase other ≠ "signature".toList) :
    (headers.withSignature input value).getAll other = headers.getAll other := by
  rw [getAll_withSignature, if_neg (Ne.symm hinput), if_neg (Ne.symm hvalue), List.append_nil,
    List.append_nil]

theorem byteLen_of_ascii : ∀ {s : List Char}, (∀ c ∈ s, c.toNat < 128) → byteLen s = s.length
  | [], _ => rfl
  | c :: s, h => by
    have hsize : c.utf8Size = 1 := Char.utf8Size_eq_one_iff.2
      (UInt32.le_iff_toNat_le.2 (Nat.le_of_lt_succ (h c List.mem_cons_self)))
    have hrest := byteLen_of_ascii fun d hd => h d (List.mem_cons_of_mem _ hd)
    rw [byteLen, hsize, hrest, List.length_cons, Nat.add_comm]

theorem toNat_ofNat_of_lt {n : Nat} (h : n < 128) : (UInt8.ofNat n).toNat = n := by
  rw [UInt8.toNat_ofNat']
  omega

/-- A header value made from a text is read as that text. -/
theorem HeaderValue.toStr_fromStr {s : List Char} {value : HeaderValue}
    (h : HeaderValue.fromStr s = .ok value) :
    value.toStr = .ok s ∧ value.bytes.length = byteLen s := by
  rw [HeaderValue.fromStr] at h
  split at h
  · rename_i hall
    cases h
    have hchar : ∀ c ∈ s, c.toNat < 128 ∧ isVisibleAscii (UInt8.ofNat c.toNat) = true := by
      intro c hc
      simpa using List.all_eq_true.1 hall c hc
    constructor
    · have hvisible : (s.map fun c => UInt8.ofNat c.toNat).all isVisibleAscii = true := by
        rw [List.all_map]
        exact List.all_eq_true.2 fun c hc => (hchar c hc).2
      have htext : (s.map fun c => UInt8.ofNat c.toNat).map (fun b => Char.ofNat b.toNat) = s := by
        rw [List.map_map]
        refine (List.map_congr_left fun c hc => ?_).trans (List.map_id s)
        rw [Function.comp_apply, toNat_ofNat_of_lt (hchar c hc).1, Char.ofNat_toNat, id]
      rw [toStr, if_pos hvisible, htext]
    · rw [List.length_map, byteLen_of_ascii fun c hc => (hchar c hc).1]
  · cases h

/-- The only line of a header is found if it holds the label alone. -/
theorem findLabelled_single {α : Type} {what headerName : String} {label : List Char}
    {use : SfvDictMember → Except HttpSigError α} {value : HeaderValue} {member : SfvDictMember}
    (hlabel : isKey label = true) (hmember : member.wellFormed = true)
    (hvalue : HeaderValue.fromStr (serializeDictionary ⟨[(label, member)]⟩) = .ok value)
    (hfit : value.bytes.length ≤ maxSfvInputLen) :
    findLabelled what headerName label use false [value] = use member := by
  obtain ⟨hread, hlength⟩ := HeaderValue.toStr_fromStr hvalue
  have hdict : SfvDictionary.wellFormed ⟨[(label, member)]⟩ = true := by
    simp [SfvDictionary.wellFormed, hlabel, hmember]
  have hparse := parseDictionary_serializeDictionary hdict (by rw [← hlength]; exact hfit)
  have hget : SfvDictionary.get ⟨[(label, member)]⟩ label = some member := by
    simp [SfvDictionary.get]
  simp [findLabelled, hread, hparse, ok_bind, hget]

/-- What a builder covers and can be resolved is plain. -/
theorem SignatureBuilder.plain_of_resolve {builder : SignatureBuilder} {req : Request}
    {id : ComponentIdentifier} (hid : id ∈ builder.components) {value : List Char}
    (h : id.resolveFromRequest req = .ok value) : Plain id := by
  rcases builder.plain id hid with ⟨component, hne, rfl⟩ | ⟨name, rfl⟩
  · exact .derived hne
  · have hraw : resolveFieldRaw req.headers (asciiLowercase name) = .ok value := h
    rw [resolveFieldRaw] at hraw
    obtain ⟨lines, hlines, hraw⟩ := bind_eq_ok.1 hraw
    have hfound : req.headers.getAll (asciiLowercase name) ≠ [] := by
      intro hnone
      rw [hnone] at hlines
      obtain rfl : [] = lines := Except.ok.inj hlines
      rw [if_pos rfl] at hraw
      cases hraw
    have hname := HeaderMap.valid_of_getAll hfound
    rw [asciiLowercase_idem] at hname
    exact .field hname

/-- What `sign_request` leaves when it succeeds. -/
theorem SignatureBuilder.signRequest_ok {builder : SignatureBuilder} {req signed : Request}
    {signer : SigningAlgorithm} (h : builder.signRequest req signer = .ok signed) :
    ∃ (base : List Char) (signature : List UInt8) (input value : HeaderValue),
      buildRequestBaseWithParamsStr req builder.components (builder.buildParams signer).serialize =
        .ok base ∧
      signer.sign base = .ok signature ∧
      HeaderValue.fromStr (builder.label ++ '=' :: (builder.buildParams signer).serialize) =
        .ok input ∧
      HeaderValue.fromStr (serializeDictionary (signatureDict builder.label signature)) =
        .ok value ∧
      signed = { req with headers := req.headers.withSignature input value } := by
  rw [signRequest] at h
  obtain ⟨base, hbase, h⟩ := bind_eq_ok.1 h
  obtain ⟨signature, hsignature, h⟩ := bind_eq_ok.1 h
  obtain ⟨headers, hheaders, h⟩ := bind_eq_ok.1 h
  cases h
  rw [appendSignatureHeadersWithParamsStr] at hheaders
  split at hheaders
  · cases hheaders
  · rename_i input hinput
    split at hheaders
    · cases hheaders
    · rename_i value hvalue
      cases hheaders
      exact ⟨base, signature, input, value, hbase, hsignature, hinput, hvalue, rfl⟩

/-- **What is signed is what is verified.**  On a request without signatures, when a builder with a
label that is a key and with printable texts and times in range signs it, not covering the two
headers it writes, the verifier finds the very parameters that were signed and rebuilds the very
base; any verifier for the signer's algorithm accepts the signature while its times are fresh. -/
theorem sign_verify_agree {builder : SignatureBuilder} {req signed : Request}
    {signer : SigningAlgorithm}
    (hinput : req.headers.getAll "signature-input".toList = [])
    (hvalue : req.headers.getAll "signature".toList = [])
    (hlabel : isKey builder.label = true)
    (hcovered : ∀ id ∈ builder.components,
      id.name ≠ "signature-input".toList ∧ id.name ≠ "signature".toList)
    (hkeyid : IsPrintable signer.keyId) (hnonce : ∀ s, builder.nonce = some s → IsPrintable s)
    (htag : ∀ s, builder.tag = some s → IsPrintable s)
    (hcreated : ∀ t, builder.created = some t → InSfvRange t)
    (hexpires : ∀ t, builder.expires = some t → InSfvRange t)
    (hsign : builder.signRequest req signer = .ok signed)
    (hfit : ∀ name ∈ ["signature-input".toList, "signature".toList],
      ∀ line ∈ signed.headers.getAll name, line.bytes.length ≤ maxSfvInputLen) :
    ∃ base paramsStr,
      buildRequestBaseWithParamsStr req builder.components (builder.buildParams signer).serialize =
        .ok base ∧
      findSignatureInput signed.headers builder.label =
        .ok (builder.buildParams signer, paramsStr) ∧
      buildRequestBaseWithParamsStr signed builder.components paramsStr = .ok base ∧
      ∀ (verifier : VerifyingAlgorithm) (maxAge : Option Int) (now : Int),
        verifier.Accepts signer →
          validateTimestamps (builder.buildParams signer) maxAge now = .ok () →
            verifyRequestSignature signed builder.label verifier maxAge now =
              .ok ⟨builder.buildParams signer⟩ := by
  obtain ⟨base, signature, input, value, hbase, hsignature, hinputText, hvalueText, rfl⟩ :=
    SignatureBuilder.signRequest_ok hsign
  set headers := req.headers.withSignature input value with hheaders
  -- the two headers have one line each
  have hinputLines : headers.getAll "signature-input".toList = [input] := by
    rw [hheaders, getAll_withSignature, hinput]
    rfl
  have hvalueLines : headers.getAll "signature".toList = [value] := by
    rw [hheaders, getAll_withSignature, hvalue]
    rfl
  have hinputFit : input.bytes.length ≤ maxSfvInputLen :=
    hfit "signature-input".toList (by simp) input (by rw [hinputLines]; simp)
  have hvalueFit : value.bytes.length ≤ maxSfvInputLen :=
    hfit "signature".toList (by simp) value (by rw [hvalueLines]; simp)
  have hplain : ∀ id ∈ builder.components, Plain id := by
    obtain ⟨lines, hmap, hresolve, -⟩ := buildRequestBase_ok hbase
    intro id hid
    have hmem := hid
    rw [← hmap] at hmem
    obtain ⟨line, hline, rfl⟩ := List.mem_map.1 hmem
    exact SignatureBuilder.plain_of_resolve hid (hresolve line hline)
  have hwritable : (builder.buildParams signer).Writable := by
    refine ⟨fun id hid => (hplain id hid).printable, ?_, ?_, hcreated, hexpires, hnonce, htag⟩
    · rintro s ⟨⟩
      exact isPrintable_asStr signer.algorithm
    · rintro s ⟨⟩
      exact hkeyid
  have hfind : findSignatureInput headers builder.label =
      .ok (builder.buildParams signer, (builder.buildParams signer).serialize) := by
    have hmember : (SfvDictMember.innerList (builder.buildParams signer).toInnerList).wellFormed =
        true := hwritable.wellFormed_toInnerList
    have htext : serializeDictionary
        ⟨[(builder.label, .innerList (builder.buildParams signer).toInnerList)]⟩ =
          builder.label ++ '=' :: (builder.buildParams signer).serialize := by
      simp [serializeDictionary, separated, serializeEntry, SignatureParams.serialize]
    rw [findSignatureInput, hinputLines, findLabelled_single hlabel hmember
      (by rw [htext]; exact hinputText) hinputFit, signatureInputOf,
      SignatureParams.fromInnerList_toInnerList fun id hid =>
        (hplain id hid).fromSfvItem_toSfvItem, ok_bind]
    rfl
  have hfindValue : findSignatureValue headers builder.label = .ok signature := by
    have hmember : (SfvDictMember.item ⟨.byteSequence signature, SfvParams.new⟩).wellFormed =
        true := rfl
    rw [findSignatureValue, hvalueLines, findLabelled_single hlabel hmember hvalueText hvalueFit,
      signatureValueOf]
  -- the covered components have the values they had
  have hrebuilt : buildRequestBaseWithParamsStr { req with headers := headers } builder.components
      (builder.buildParams signer).serialize = .ok base := by
    rw [← hbase]
    refine buildRequestBase_congr (fun id hid => ?_) _
    have hhost : headers.getAll "host".toList = req.headers.getAll "host".toList :=
      getAll_withSignature_other _ _ _ (by decide) (by decide)
    have hname : headers.getAll id.name = req.headers.getAll id.name := by
      refine getAll_withSignature_other _ _ _ ?_ ?_
      · rw [(hplain id hid).lower_name]
        exact (hcovered id hid).1
      · rw [(hplain id hid).lower_name]
        exact (hcovered id hid).2
    refine resolveFromRequest_congr ?_ ?_ hhost hname
    · rfl
    · rfl
  refine ⟨base, _, hbase, hfind, hrebuilt, fun verifier maxAge now haccepts hfresh => ?_⟩
  have halgorithm : validateAlgorithm (builder.buildParams signer) verifier = .ok () := by
    simp [validateAlgorithm, SignatureBuilder.buildParams, haccepts.algorithm]
  have hverify : verifier.verify base signature = .ok () :=
    haccepts.verify base signature hsignature
  have hbuilt : buildRequestBaseWithParamsStr { req with headers := headers }
      (builder.buildParams signer).components (builder.buildParams signer).serialize = .ok base :=
    hrebuilt
  simp [verifyRequestSignature, hfind, hfindValue, halgorithm, hfresh, hbuilt, hverify, ok_bind]

/-- A signer and a verifier that agree on one signature. -/
def constantSigner : SigningAlgorithm := ⟨.hmacSha256, "key".toList, fun _ => .ok [1, 2, 3]⟩

/-- The verifier of the two. -/
def constantVerifier : VerifyingAlgorithm :=
  ⟨.hmacSha256, fun _ signature =>
    if signature = [1, 2, 3] then .ok () else .error (.verificationFailed "")⟩

/-- A request for a path, with one header. -/
def smallRequest : Request where
  method := "GET".toList
  uri := ⟨none, none, none, "/a".toList, none⟩
  headers := ⟨[("host".toList, ⟨[97, 46, 98], by decide⟩)], by decide⟩

/-- A request that covers its method, authority and one header is signed, and the signature
verifies. -/
theorem sign_verify_agree_get :
    ∃ signed, (((SignatureBuilder.new "sig1".toList).method.authority.field
        "Host".toList).setCreated 100).signRequest smallRequest constantSigner = .ok signed ∧
      verifyRequestSignature signed "sig1".toList constantVerifier (some 300) 200 =
        .ok ⟨((((SignatureBuilder.new "sig1".toList).method.authority.field
          "Host".toList).setCreated 100).buildParams constantSigner)⟩ := by
  have hsigned : ∃ signed, (((SignatureBuilder.new "sig1".toList).method.authority.field
      "Host".toList).setCreated 100).signRequest smallRequest constantSigner = .ok signed ∧
        ∀ name ∈ ["signature-input".toList, "signature".toList],
          ∀ line ∈ signed.headers.getAll name, line.bytes.length ≤ maxSfvInputLen :=
    ⟨_, rfl, by decide +kernel⟩
  obtain ⟨signed, hsign, hfit⟩ := hsigned
  have hagree := sign_verify_agree rfl rfl (by decide) (by decide) (List.all_eq_true.1 (by decide))
    (by rintro s ⟨⟩) (by rintro s ⟨⟩) (by rintro t ⟨⟩; unfold InSfvRange; decide) (by rintro t ⟨⟩)
    hsign hfit
  obtain ⟨base, paramsStr, -, -, -, hverify⟩ := hagree
  refine ⟨signed, hsign, hverify constantVerifier (some 300) 200 ⟨rfl, ?_⟩ (by decide)⟩
  intro base signature h
  cases h
  rfl

end Vouch.HttpSig
